import Courier.Proofs.Pipe.Owners
import Courier.Proofs.Pipe.Turns
import Courier.Proofs.Transfer.Borrowing

/-!
The clients of a pipe. Whatever happens to it, and in whatever order its tasks run: every client is
free or with one request, a request that has come to an end gives its client back unless it has a
successor, and nobody waits for a client while one is free and nobody else has anything to do.
-/

namespace Courier

open Transfer

namespace Pipe

variable {P : Type} {p p' : Pipe P} {clients : List ClientId} {id : TaskId}

/-! ### The board -/

namespace Stake

def client? : Stake → Option ClientId
  | .client c => some c
  | .place _ | .count => none

def place? : Stake → Option TaskId
  | .place t => some t
  | .client _ | .count => none

/-- The clients among some stakes. -/
def lent (stakes : Multiset Stake) : Multiset ClientId := stakes.filterMap client?

/-- The places among some stakes. -/
def placed (stakes : Multiset Stake) : Multiset TaskId := stakes.filterMap place?

theorem lent_add (xs ys : Multiset Stake) : lent (xs + ys) = lent xs + lent ys :=
  Multiset.filterMap_add _ xs ys

theorem lent_client (c : ClientId) (xs : Multiset Stake) :
    lent (.client c ::ₘ xs) = c ::ₘ lent xs :=
  Multiset.filterMap_cons_some client? _ xs rfl

theorem lent_place (t : TaskId) (xs : Multiset Stake) : lent (.place t ::ₘ xs) = lent xs :=
  Multiset.filterMap_cons_none _ xs rfl

theorem lent_count (xs : Multiset Stake) : lent (.count ::ₘ xs) = lent xs :=
  Multiset.filterMap_cons_none _ xs rfl

theorem placed_place (t : TaskId) (xs : Multiset Stake) :
    placed (.place t ::ₘ xs) = t ::ₘ placed xs :=
  Multiset.filterMap_cons_some place? _ xs rfl

theorem placed_client (c : ClientId) (xs : Multiset Stake) :
    placed (.client c ::ₘ xs) = placed xs :=
  Multiset.filterMap_cons_none _ xs rfl

theorem placed_count (xs : Multiset Stake) : placed (.count ::ₘ xs) = placed xs :=
  Multiset.filterMap_cons_none _ xs rfl

theorem mem_placed {t : TaskId} {stakes : Multiset Stake} :
    t ∈ placed stakes ↔ .place t ∈ stakes := by
  refine (Multiset.mem_filterMap place? stakes).trans ⟨?_, fun h => ⟨_, h, rfl⟩⟩
  rintro ⟨x, hx, hplace⟩
  cases x with
  | place u =>
      cases hplace
      exact hx
  | client | count => cases hplace

end Stake

namespace Board

variable {b b' : Board} {t : TaskId} {place rest : Multiset Stake}

/-- Every client is free or lent, and those have a place in the pool who say so. If somebody waits
who was not told, every free client is for somebody who was. -/
structure Lends (clients : List ClientId) (b : Board) : Prop where
  size : b.pool.size = clients.length
  lent : ↑b.pool.free + Stake.lent b.stakes = ↑clients
  placed : ↑b.pool.places = Stake.placed b.stakes
  enough : b.pool.waiting ≠ [] → b.pool.free.length ≤ b.pool.woken.length

/-- Who asks has no place any more, and no client yet. -/
theorem Lends.asked (h : b.Lends clients) (here : b.stakes = place + rest)
    (asks : b.Asks True t place) :
    ↑b.pool.free + Stake.lent rest = ↑clients ∧ ↑(b.pool.heed t).places = Stake.placed rest := by
  have hlent := h.lent
  have hplaced := h.placed
  cases asks with
  | first fresh =>
      have hnone : t ∉ b.pool.places := fun hmem => by
        have hmem : t ∈ Stake.placed b.stakes := h.placed ▸ hmem
        exact fresh (Stake.mem_placed.mp hmem)
      have hheed : b.pool.heed t = b.pool := by
        rw [ClientPool.heed, List.erase_of_not_mem fun h => hnone (List.mem_append_right _ h)]
      rw [here, zero_add] at hlent hplaced
      rw [hheed]
      exact ⟨hlent, hplaced⟩
  | again told =>
      have hperm := Multiset.coe_eq_coe.mpr (ClientPool.places_heed (told trivial))
      rw [here, Multiset.singleton_add, Stake.lent_place] at hlent
      rw [here, Multiset.singleton_add, Stake.placed_place, hperm, ← Multiset.cons_coe] at hplaced
      exact ⟨hlent, (Multiset.cons_inj_right t).mp hplaced⟩

theorem Shift.lends (h : Shift True b b') (hb : b.Lends clients) : b'.Lends clients := by
  have hbefore := hb.lent
  have hplacedBefore := hb.placed
  cases h with
  | @lent t c place rest pool here asks got =>
      obtain ⟨hlent, hplaced⟩ := hb.asked here asks
      rcases b.pool.ask_cases t with ⟨c', free, hfree, hask⟩ | ⟨_, hask⟩ <;> rw [hask] at got <;>
        cases got
      refine ⟨hb.size, ?_, hplaced.trans (Stake.placed_client c rest).symm, fun hwaits => ?_⟩
      · rw [hfree, ← Multiset.cons_coe, Multiset.cons_add] at hlent
        rw [Stake.lent_client, Multiset.add_cons]
        exact hlent
      · have hle := hb.enough hwaits
        have herase : b.pool.woken.length ≤ (b.pool.woken.erase t).length + 1 := by
          rw [List.length_erase]
          split <;> omega
        rw [hfree, List.length_cons] at hle
        exact Nat.le_of_succ_le_succ (Nat.le_trans hle herase)
  | @queued t place rest pool here asks none =>
      obtain ⟨hlent, hplaced⟩ := hb.asked here asks
      rcases b.pool.ask_cases t with ⟨c', free, _, hask⟩ | ⟨hfree, hask⟩ <;> rw [hask] at none <;>
        cases none
      refine ⟨hb.size, ?_, ?_, fun _ => ?_⟩
      · rw [Stake.lent_place]
        exact hlent
      · rw [Stake.placed_place, ← hplaced]
        refine Multiset.coe_eq_coe.mpr ?_
        simp only [ClientPool.places, List.append_assoc]
        exact List.perm_middle
      · rw [show (b.pool.heed t).free = [] from hfree]
        exact Nat.zero_le _
  | @returned c rest here =>
      rw [here, Stake.lent_client] at hbefore
      rw [here, Stake.placed_client] at hplacedBefore
      have hroom : b.pool.free.length < b.pool.size := by
        have hcard := congrArg Multiset.card hbefore
        rw [Multiset.card_add, Multiset.card_cons, Multiset.coe_card, Multiset.coe_card] at hcard
        have hsize := hb.size
        omega
      obtain ⟨hsize, hfree, hplaces, henough⟩ := b.pool.giveBack_of_room c hroom hb.enough
      refine ⟨hsize.trans hb.size, ?_, (Multiset.coe_eq_coe.mpr hplaces).trans hplacedBefore,
        henough⟩
      rw [hfree, ← Multiset.coe_add, Multiset.coe_singleton, add_assoc, Multiset.singleton_add]
      exact hbefore
  | began =>
      refine ⟨hb.size, ?_, hplacedBefore.trans (Stake.placed_count _).symm, hb.enough⟩
      rw [Stake.lent_count]
      exact hbefore
  | @finished rest here =>
      rw [here, Stake.lent_count] at hbefore
      rw [here, Stake.placed_count] at hplacedBefore
      exact ⟨hb.size, hbefore, hplacedBefore, hb.enough⟩
  | spawned | loaded | rested => exact ⟨hb.size, hbefore, hplacedBefore, hb.enough⟩

end Board

/-! ### Runs -/

/-- What may happen to a pipe. Who waits for a client goes on when it was told, and no call that
waits is given up. -/
inductive Happening [Batch.Payload P] (p : Pipe P) : Pipe P → Prop
  | performed (o : Operation) : Happening p (p.perform o).1
  | sent (events : List EventRef) (payload : Bytes) : Happening p (p.callSend events payload).1
  | dispatched (e : EventRef) : Happening p (p.callDispatch e).1
  | stepped : Happening p p.callStep.1
  | waited (ms : Nat) : Happening p (p.callWaitIdle ms).1
  | cancelled (id? : Option TaskId) : Happening p (p.cancel id?)
  | joined (worker consumer : Option TaskId) : Happening p { p with worker, consumer }
  | retuned (ledger : Ledger) : Happening p (p.withLedger ledger)
  | clock (now : Nat) : Happening p (p.setClock now)
  | surroundings (disk : Disk) (peer : Peer) : Happening p { p with disk, peer }
  | ran {t : Task} (there : t ∈ p.tasks) (ready : p.canRun t = true) : Happening p (p.run t.id)

variable [Batch.Payload P]

theorem Happening.ran_of_any {p : Pipe P} {id : TaskId}
    (ready : (p.tasks.any fun t => t.id == id && p.canRun t) = true) : Happening p (p.run id) := by
  obtain ⟨t, there, hready⟩ := List.any_eq_true.mp ready
  obtain ⟨hid, hready⟩ := Bool.and_eq_true_iff.mp hready
  exact beq_iff_eq.mp hid ▸ .ran there hready

/-- An event, or tablets that nobody was asked to take yet. -/
def Item.isPlain : Item → Bool
  | .attempt _ _ | .sending _ _ (some _) => false
  | _ => true

/-- The tasks of the second pipe come from those of the first by moves. Before them things other
than tasks may change, and somebody may hand in what is plain. -/
inductive Proceeds (p p' : Pipe P) : Prop
  | moved (q : Pipe P) (hand hand' : Multiset Item) (tasks : q.tasks = p.tasks)
      (nextTask : q.nextTask = p.nextTask) (plain : ∀ x ∈ hand, x.isPlain = true)
      (moves : Leads True (q.books none hand) (p'.books none hand'))

theorem Proceeds.of_tasks (tasks : p'.tasks = p.tasks) (nextTask : p'.nextTask = p.nextTask) :
    Proceeds p p' :=
  .moved p' 0 0 tasks nextTask (fun _ hx => absurd hx (Multiset.notMem_zero _)) (.refl _)

theorem Proceeds.of_leads {hand' : Multiset Item}
    (moves : Leads True (p.books none 0) (p'.books none hand')) : Proceeds p p' :=
  .moved p 0 hand' rfl rfl (fun _ hx => absurd hx (Multiset.notMem_zero _)) moves

/-- Somebody hands one item in. -/
theorem Proceeds.of_handed {x : Item} {hand' : Multiset Item} (plain : x.isPlain = true)
    (moves : Leads True (p.books none {x}) (p'.books none hand')) : Proceeds p p' :=
  .moved p {x} hand' rfl rfl (fun _ hy => Multiset.mem_singleton.mp hy ▸ plain) moves

theorem proceeds_perform (p : Pipe P) (o : Operation) : Proceeds p (p.perform o).1 := by
  cases o with
  | transferFile e => exact .of_handed rfl (leads_transferFile p (mentions_guest p e)).1
  | addFailure e => exact .of_handed (x := .failed e) rfl (leads_addFailure p e)
  | startWorker => exact .of_leads (leads_aside .startWorker)
  | startConsumer => exact .of_leads (leads_aside .startConsumer)
  | remove | discard | closeConnector | offer | shutdownQueue | teardown | close | shared =>
      exact .of_tasks rfl rfl

theorem leads_callDispatch (p : Pipe P) (e : EventRef) :
    Leads True (p.books none {.waiting e}) ((p.callDispatch e).1.books none 0) :=
  (leads_newTask p {.waiting e}).trans
    (leads_dispatch p.newTask.1 p.nextTask e false (.inl trivial))

theorem Happening.proceeds (h : Happening p p') : Proceeds p p' := by
  cases h with
  | performed o => exact proceeds_perform p o
  | sent events payload => exact .of_handed rfl (leads_callSend p events payload)
  | dispatched e => exact .of_handed rfl (leads_callDispatch p e)
  | stepped =>
      unfold callStep
      split
      · exact .of_tasks rfl rfl
      · rename_i queue commons e _
        exact .moved (p.withQueue queue commons) {.waiting e} 0 rfl rfl
          (fun x hx => Multiset.mem_singleton.mp hx ▸ rfl) (leads_callDispatch _ e)
  | waited ms => exact .of_leads (leads_aside (.waitIdle ms))
  | cancelled id? => cases id? <;> exact .of_tasks rfl rfl
  | joined | retuned | clock | surroundings => exact .of_tasks rfl rfl
  | ran => exact .of_leads (leads_run p _ (.inl trivial))

theorem Happening.numbered (h : Happening p p') (numbered : (p.books none 0).Numbered) :
    (p'.books none 0).Numbered := by
  obtain ⟨q, hand, hand', htasks, hnext, -, hmoves⟩ := h.proceeds
  have hq : (q.books none hand).Numbered := by
    simpa only [Books.Numbered, books, others_none, htasks, hnext] using numbered
  have hmoved : (p'.books none hand').Numbered := hmoves.keeps hq hq Move.numbered
  exact hmoved

theorem numbered_of_reaches (numbered : (p.books none 0).Numbered)
    (reach : Relation.ReflTransGen Happening p p') : (p'.books none 0).Numbered := by
  induction reach with
  | refl => exact numbered
  | tail _ happening ih => exact happening.numbered ih

omit [Batch.Payload P] in
/-- A task is found under its id. -/
theorem task?_of_mem (numbered : (p.books none 0).Numbered) {t : Task} (ht : t ∈ p.tasks) :
    p.task? t.id = some t.process := by
  have hnodup : (p.tasks.map Task.id).Nodup := by
    have hids := numbered.1
    simpa [books, others_none] using hids
  cases htask : p.task? t.id with
  | none =>
      have hnone := List.find?_eq_none.mp (Option.map_eq_none_iff.mp htask) t ht
      simp at hnone
  | some process =>
      have hsame : (⟨t.id, process⟩ : Task) = t :=
        List.inj_on_of_nodup_map hnodup (mem_of_task? htask) ht rfl
      rw [← hsame]

theorem Happening.turns (h : Happening p p') (numbered : (p.books none 0).Numbered) :
    Board.Turns True (p.board none 0) (p'.board none 0) := by
  cases h with
  | performed o => exact turns_perform p o
  | sent events payload => exact turns_callSend numbered events payload
  | dispatched e => exact turns_callDispatch numbered e
  | stepped => exact turns_callStep numbered
  | waited ms => exact turns_spawn_idle p rfl
  | cancelled id? => exact .of_eq (board_cancel p id? none 0).symm
  | joined | retuned | clock | surroundings => exact .refl _
  | @ran t there ready =>
      refine turns_run p t.id numbered fun _ process htask => ?_
      cases (task?_of_mem numbered there).symm.trans htask
      exact ready

/-! ### Requests -/

section Requests

omit [Batch.Payload P]

/-- An exchange under way, and whose it is. -/
def Link.exchange? {α : Type} : Link α → Option (ClientId × Exchange)
  | .exchanging client x _ => some (client, x)
  | .asking | .waiting => none

def Process.exchange? : Process → Option (ClientId × Exchange)
  | .transfer _ link => link.exchange?
  | .tablets _ link => link.exchange?
  | _ => none

def Link.isWaiting {α : Type} : Link α → Bool
  | .waiting => true
  | .asking | .exchanging _ _ _ => false

/-- The process waits for a client. -/
def Process.awaits : Process → Bool
  | .transfer _ link => link.isWaiting
  | .tablets _ link => link.isWaiting
  | _ => false

/-- The requests that were sent and have no answer yet, and their clients. -/
def outstanding (p : Pipe P) : List (ClientId × Exchange) :=
  p.tasks.filterMap fun t => t.process.exchange?

/-- The clients that are with requests. -/
def lent (p : Pipe P) : List ClientId := p.outstanding.map Prod.fst

def clientOf? (p : Pipe P) (id : TaskId) : Option ClientId :=
  (p.task? id).bind fun process => process.exchange?.map Prod.fst

/-- A task keeps its client, or gives it back. The other clients are left alone. -/
structure Fate (stays : Bool) (p : Pipe P) (id : TaskId) (c : ClientId) (p' : Pipe P) : Prop where
  clients : p'.clients = if stays then p.clients else p.clients.giveBack c
  client : p'.clientOf? id = if stays then some c else none

/-- After this response, a transfer has something more to send. -/
def Process.continues (p : Pipe P) (x : Exchange) (r : Response) : Process → Bool
  | .transfer a (.exchanging _ _ pending) =>
      match (a.receive p.connector.statusPolicy p.connector.stats (p.commons.elapsed x.sentAt)
        pending.sent r).result with
      | .ok (some stage) => (a.next p.disk stage).toBool
      | .ok none | .error _ => false
  | _ => false

/-- The process needs its client after a look at its request: there is no answer yet, or it was
accepted and there is more to send. -/
def Process.staysWith (p : Pipe P) (x : Exchange) (process : Process) : Exchange.Progress → Bool
  | .pending _ => true
  | .done (.error _) => false
  | .done (.ok r) => process.continues p x r

theorem Fate.of_clients {stays : Bool} {q : Pipe P} {c : ClientId} (h : Fate stays q id c p')
    (same : q.clients = p.clients) : Fate stays p id c p' :=
  ⟨same ▸ h.clients, h.client⟩

theorem task?_setTask (p : Pipe P) (id : TaskId) (process : Process) :
    (p.setTask id process).task? id = some process := by
  have hnone : (p.tasks.filter fun t => t.id != id).find? (fun t => t.id == id) = none := by
    refine List.find?_eq_none.mpr fun t ht => ?_
    simpa using (List.mem_filter.mp ht).2
  simp [task?, setTask, List.find?_append, hnone]

theorem clientOf?_setTask (p : Pipe P) (id : TaskId) (process : Process) :
    (p.setTask id process).clientOf? id = process.exchange?.map Prod.fst := by
  rw [clientOf?, task?_setTask]
  rfl

theorem clientOf?_removeTask (p : Pipe P) (id : TaskId) :
    (p.removeTask id).clientOf? id = none := by
  have hnone : (p.tasks.filter fun t => t.id != id).find? (fun t => t.id == id) = none := by
    refine List.find?_eq_none.mpr fun t ht => ?_
    simpa using (List.mem_filter.mp ht).2
  simp [clientOf?, task?, removeTask, hnone]

theorem endTransfer_fate (p : Pipe P) (id : TaskId) (a : Attempt) (client : ClientId)
    (buffer : Nat) (result : Except TransferError Unit) :
    Fate false p id client (p.endTransfer id a client buffer result) := by
  refine ⟨?_, ?_⟩
  · cases result with
    | ok _ =>
        exact congrArg Board.pool (board_completeTransfer (p.returned client buffer) a none 0)
    | error error =>
        exact congrArg Board.pool (board_failTransfer (p.returned client buffer) a error none 0)
  · cases result <;> exact clientOf?_removeTask _ id

/-- A transfer that has something to send keeps its client. -/
theorem proceed_fate (p : Pipe P) (id : TaskId) (a : Attempt) (client : ClientId) (buffer : Nat)
    (stage : Stage) :
    Fate (a.next p.disk stage).toBool p id client (p.proceed id a client buffer stage) := by
  unfold proceed
  cases a.next p.disk stage with
  | error error => exact endTransfer_fate p id a client buffer _
  | ok next => exact ⟨rfl, clientOf?_setTask _ id _⟩

theorem clients_transferFile (p : Pipe P) (e : EventRef) :
    (p.transferFile e).1.clients = p.clients :=
  transferFile_cases p e (fun _ => rfl) (fun _ => rfl) (fun _ => rfl) fun _ _ _ _ => rfl

theorem afterDispatch_fate (p : Pipe P) (id : TaskId) (loop : Bool) :
    (p.afterDispatch id loop).clients = p.clients ∧
      (p.afterDispatch id loop).clientOf? id = none := by
  refine ⟨rfl, ?_⟩
  rw [afterDispatch, clientOf?_setTask]
  split <;> rfl

theorem afterFlush_fate (p : Pipe P) (id : TaskId) (after : After) :
    (p.afterFlush id after).clients = p.clients ∧ (p.afterFlush id after).clientOf? id = none := by
  cases after with
  | dispatched e loop => exact afterDispatch_fate (p.drop e) id loop
  | due => exact ⟨rfl, clientOf?_setTask p id _⟩
  | stop => exact ⟨rfl, clientOf?_removeTask p id⟩
  | file e loop =>
      have hclients := clients_transferFile p e
      simp only [afterFlush]
      split <;> rename_i heq <;> rw [heq] at hclients
      · exact (afterDispatch_fate (Pipe.drop _ e) id loop).imp_left fun h => h.trans hclients
      · exact (afterDispatch_fate (Pipe.drop (countFailure _) e) id loop).imp_left
          fun h => h.trans hclients

theorem afterTablets_fate (p : Pipe P) (id : TaskId) (purpose : Purpose)
    (result : Except TransferError Unit) :
    (p.afterTablets id purpose result).clients = p.clients ∧
      (p.afterTablets id purpose result).clientOf? id = none := by
  cases purpose with
  | retry => exact ⟨rfl, clientOf?_removeTask p id⟩
  | call => exact ⟨rfl, clientOf?_setTask p id _⟩
  | flush after =>
      cases result with
      | ok _ => exact afterFlush_fate p id after
      | error error => exact afterFlush_fate p.countFailure id after

theorem clients_look {x : Exchange} {progress : Exchange.Progress}
    (h : p.look x = (p', progress)) : p'.clients = p.clients :=
  congrArg Board.pool (board_look h none 0)

theorem noted_fields (p : Pipe P) (judgement : Option Judgement) (x : Exchange) (r : Response) :
    ((p.noteJudgement judgement).clients = p.clients ∧
        (p.noteJudgement judgement).disk = p.disk) ∧
      (p.noteTaken x r).clients = p.clients ∧ (p.noteTaken x r).disk = p.disk := by
  refine ⟨?_, ?_⟩
  · cases judgement <;> exact ⟨rfl, rfl⟩
  · unfold noteTaken
    split <;> exact ⟨rfl, rfl⟩

theorem answerTransfer_fate (p : Pipe P) (id : TaskId) (a : Attempt) (client : ClientId)
    (pending : Pending) (x : Exchange) (r : Response) :
    Fate ((Process.transfer a (.exchanging client x pending)).continues p x r) p id client
      (p.answerTransfer id a client pending x r) := by
  obtain ⟨verdict, hverdict⟩ : ∃ verdict, a.receive p.connector.statusPolicy p.connector.stats
      (p.commons.elapsed x.sentAt) pending.sent r = verdict := ⟨_, rfl⟩
  rw [answerTransfer_eq p id client hverdict]
  simp only [Process.continues, hverdict]
  obtain ⟨hclients, hdisk⟩ := ((p.withStats verdict.stats).noted_fields verdict.judgement x r).1
  generalize (p.withStats verdict.stats).noteJudgement verdict.judgement = q at hclients hdisk
  obtain ⟨hclients', hdisk'⟩ := (q.noted_fields verdict.judgement x r).2
  have hsame : (q.noteTaken x r).clients = p.clients := hclients'.trans hclients
  cases verdict.result with
  | error error => exact (endTransfer_fate q id a client _ _).of_clients hclients
  | ok stage? =>
      cases stage? with
      | none => exact (endTransfer_fate _ id a client _ _).of_clients hsame
      | some stage =>
          have hproceed := proceed_fate (q.noteTaken x r) id a client pending.buffer stage
          rw [show (q.noteTaken x r).disk = p.disk from hdisk'.trans hdisk] at hproceed
          exact hproceed.of_clients hsame

theorem runTransfer_fate (p : Pipe P) (id : TaskId) (a : Attempt) (c : ClientId) (x : Exchange)
    (pending : Pending) :
    Fate ((Process.transfer a (.exchanging c x pending)).staysWith (p.look x).1 x (p.look x).2)
      p id c (p.runTransfer id a (.exchanging c x pending)) := by
  cases hlook : p.look x with
  | mk q progress =>
  have hclients := clients_look hlook
  simp only [runTransfer, hlook]
  cases progress with
  | pending y => exact ⟨hclients, clientOf?_setTask q id _⟩
  | done result =>
      cases result with
      | error error => exact (endTransfer_fate q id a c _ _).of_clients hclients
      | ok r => exact (answerTransfer_fate q id a c pending x r).of_clients hclients

/-- Tablets have one request, and need their client for no other. -/
theorem runTablets_fate (p : Pipe P) (id : TaskId) (t : TabletSend) (c : ClientId) (x : Exchange) :
    Fate ((Process.tablets t (.exchanging c x ())).staysWith (p.look x).1 x (p.look x).2) p id c
      (p.runTablets id t (.exchanging c x ())) := by
  cases hlook : p.look x with
  | mk q progress =>
  have hclients := clients_look hlook
  cases progress with
  | pending y =>
      rw [runTablets_of_pending id hlook]
      exact ⟨hclients, clientOf?_setTask q id _⟩
  | done result =>
      rw [runTablets_of_done id hlook]
      obtain ⟨hafter, hgone⟩ := afterTablets_fate (q.settle t c x result) id t.purpose
        (q.judgeTablets x result).2
      have hjudged : (q.judgeTablets x result).1.clients = p.clients :=
        (congrArg Board.pool (board_judgeTablets q x result none 0)).trans hclients
      have hsettled : (q.settle t c x result).clients = p.clients.giveBack c := by
        rw [← hjudged]
        exact congrArg Board.pool (board_settleTablets _ t _ none 0)
      have hback : Fate false p id c _ := ⟨hafter.trans hsettled, hgone⟩
      cases result <;> exact hback

/-- A request that has come to an end gives its client back, unless its transfer has more to
send. -/
theorem run_fate [Batch.Payload P] {process : Process} {c : ClientId} {x : Exchange}
    (task : p.task? id = some process) (exchanging : process.exchange? = some (c, x)) :
    Fate (process.staysWith (p.look x).1 x (p.look x).2) p id c (p.run id) := by
  simp only [run, task]
  cases process with
  | transfer a link =>
      cases link with
      | asking | waiting => cases exchanging
      | exchanging client y pending =>
          cases exchanging
          exact runTransfer_fate p id a c x pending
  | tablets t link =>
      cases link with
      | asking | waiting => cases exchanging
      | exchanging client y more =>
          cases exchanging
          exact runTablets_fate p id t c x
  | _ => cases exchanging

/-- A request whose time is over has come to an end. -/
theorem done_of_deadline {x : Exchange} (late : x.deadline ≤ p.now) :
    ∃ result, (p.look x).2 = .done result := by
  have hexpires : ∃ result, (x.look p.peer p.disk p.now).2.2 = .done result := by
    unfold Exchange.look
    simp only [late, if_true]
    split
    · split <;> exact ⟨_, rfl⟩
    · exact ⟨_, rfl⟩
  obtain ⟨result, hresult⟩ := hexpires
  refine ⟨result, ?_⟩
  simp only [look, hresult]

/-- The clients that are with requests are those that the tasks have. -/
theorem lent_board (p : Pipe P) : Stake.lent (p.board none 0).stakes = ↑p.lent := by
  have hprocess (id : TaskId) (process : Process) : Stake.lent (process.stakes id) =
      ↑(process.exchange?.map Prod.fst).toList := by
    have hlink {α : Type} (link : Link α) : Stake.lent (link.stakes id) =
        ↑(link.exchange?.map Prod.fst).toList := by
      cases link <;> rfl
    cases process with
    | transfer a link => exact (Stake.lent_count _).trans (hlink link)
    | tablets t link =>
        have hpurpose : Stake.lent t.purpose.stakes = 0 := by cases t.purpose <;> rfl
        simp only [Process.stakes, Stake.lent_add, hpurpose, zero_add]
        exact hlink link
    | _ => rfl
  have htasks (tasks : List Task) : Stake.lent (tasks.map fun t => t.process.stakes t.id).sum =
      ↑((tasks.filterMap fun t => t.process.exchange?).map Prod.fst) := by
    induction tasks with
    | nil => rfl
    | cons t tasks ih =>
        rw [List.map_cons, List.sum_cons, Stake.lent_add, ih, hprocess, Multiset.coe_add]
        cases hexchange : t.process.exchange? <;>
          simp only [List.filterMap_cons, hexchange, Option.map, Option.toList,
            List.nil_append, List.map_cons, List.singleton_append]
  simp only [board, others_none, add_zero]
  exact htasks p.tasks

/-- Who has a place waits for a client. -/
theorem awaits_of_place {process : Process} {t : TaskId} (h : .place t ∈ process.stakes id) :
    process.awaits = true ∧ t = id := by
  refine ⟨?_, Process.eq_of_place h⟩
  cases process with
  | transfer a link =>
      obtain ⟨_, rfl⟩ := Link.eq_of_place ((Multiset.mem_cons.mp h).resolve_left nofun)
      rfl
  | tablets s link =>
      rcases Multiset.mem_add.mp h with hpurpose | hlink
      · cases s.purpose.stakes_eq hpurpose
      · obtain ⟨_, rfl⟩ := Link.eq_of_place hlink
        rfl
  | _ => cases h

theorem place_of_awaits {process : Process} (awaits : process.awaits = true) (id : TaskId) :
    .place id ∈ process.stakes id := by
  have hlink {α : Type} {link : Link α} (waits : link.isWaiting = true) :
      .place id ∈ link.stakes id := by
    cases link with
    | waiting => exact Multiset.mem_singleton_self _
    | asking | exchanging => cases waits
  cases process with
  | transfer a link => exact Multiset.mem_cons_of_mem (hlink awaits)
  | tablets t link => exact Multiset.mem_add.mpr (.inr (hlink awaits))
  | _ => cases awaits

/-- Who waits for a client and was told can go on. -/
theorem canRun_of_told {t : Task} (awaits : t.process.awaits = true)
    (told : t.id ∈ p.clients.woken) : p.canRun t = true := by
  have hlink {α : Type} {link : Link α} (waits : link.isWaiting = true) :
      p.linkCanRun t.id link = true := by
    cases link with
    | waiting => simpa [linkCanRun, ClientPool.isWoken] using told
    | asking | exchanging => cases waits
  obtain ⟨id, process⟩ := t
  cases process with
  | transfer a link => exact hlink awaits
  | tablets s link => exact hlink awaits
  | _ => cases awaits

/-- What holds of a pipe and its clients at any time. -/
structure Lends (clients : List ClientId) (p : Pipe P) : Prop where
  numbered : (p.books none 0).Numbered
  board : (p.board none 0).Lends clients

theorem Lends.perm (h : p.Lends clients) : (p.clients.free ++ p.lent).Perm clients := by
  have hlent := h.board.lent
  rw [lent_board, Multiset.coe_add] at hlent
  exact Multiset.coe_eq_coe.mp hlent

theorem Lends.put? (h : p.Lends clients) {c : ClientId} (lent : c ∈ p.lent) :
    p.clients.put? c = some { p.clients with free := p.clients.free ++ [c] } := by
  have hlength := h.perm.length_eq
  have hpos := List.length_pos_of_mem lent
  have hsize : p.clients.size = clients.length := h.board.size
  rw [List.length_append] at hlength
  exact ClientPool.put?_of_room (by omega)

/-- When nobody has anything to do but to wait, who waits for a client does so because all are with
requests. -/
theorem Lends.free_of_quiet (h : p.Lends clients) (quiet : p.isQuiet = true)
    (awaited : ∃ t ∈ p.tasks, t.process.awaits = true) : p.clients.free = [] := by
  have hplaced : ↑p.clients.places = Stake.placed (p.board none 0).stakes := h.board.placed
  have hstakes {x : Stake} : x ∈ (p.board none 0).stakes ↔
      ∃ t ∈ p.tasks, x ∈ t.process.stakes t.id := by
    simp only [Pipe.board, others_none, add_zero]
    exact mem_stakes
  have hplaces {u : TaskId} : u ∈ p.clients.places ↔
      ∃ t ∈ p.tasks, .place u ∈ t.process.stakes t.id := by
    rw [← Multiset.mem_coe, hplaced, Stake.mem_placed, hstakes]
  have hwoken : p.clients.woken = [] := by
    refine List.eq_nil_iff_forall_not_mem.mpr fun u hu => ?_
    obtain ⟨t, ht, hplace⟩ := hplaces.mp (List.mem_append_right _ hu)
    obtain ⟨hawaits, rfl⟩ := awaits_of_place hplace
    have hrests := List.all_eq_true.mp quiet t ht
    rw [canRun_of_told hawaits hu] at hrests
    cases hrests
  obtain ⟨t, ht, hawaits⟩ := awaited
  have hwaiting : p.clients.waiting ≠ [] := by
    have hmem := hplaces.mpr ⟨t, ht, place_of_awaits hawaits t.id⟩
    rw [ClientPool.places, hwoken, List.append_nil] at hmem
    exact List.ne_nil_of_mem hmem
  have hle : p.clients.free.length ≤ p.clients.woken.length := h.board.enough hwaiting
  rw [hwoken] at hle
  exact List.eq_nil_of_length_eq_zero (Nat.le_zero.mp hle)

end Requests

theorem lends_of_new (new : p.IsNew) (full : p.clients = .ofClients clients) : p.Lends clients := by
  have hstakes : (p.board none 0).stakes = 0 := by
    simp [board, others_none, new.tasks]
  have hpool : (p.board none 0).pool = .ofClients clients := full
  refine ⟨numbered_of_new new, ?_⟩
  constructor
  · rw [hpool]
    rfl
  · rw [hpool, hstakes]
    exact add_zero _
  · rw [hpool, hstakes]
    rfl
  · rw [hpool]
    exact fun hwaits => absurd rfl hwaits

theorem Lends.reaches (h : p.Lends clients) (reach : Relation.ReflTransGen Happening p p') :
    p'.Lends clients := by
  induction reach with
  | refl => exact h
  | tail _ hstep ih =>
      refine ⟨hstep.numbered ih.numbered, ?_⟩
      exact (hstep.turns ih.numbered).keeps nofun ih.board Board.Shift.lends

/-- Whatever is done at a pool of clients, in whatever order the single steps come: every client is
free or with one guard, and one that comes back finds its place. When nobody has anything to do but
to wait, nobody waits for a client while one is free.

So it is with the clients of a pipe, whatever happens to it: every client is free or with one
request, so there are never more requests than clients. When a request has come to an end, answered,
refused or out of time, its client comes back, unless it is accepted and its transfer has more to
send. When no task has anything to do but to wait, none waits for a client while one is free. -/
theorem clients_conserved (clients : List ClientId) (moves : List Desk.Move) {p p' : Pipe P}
    (new : p.IsNew) (full : p.clients = .ofClients clients)
    (reach : Relation.ReflTransGen Happening p p') :
    (let d := (Desk.ofClients clients).after moves
    (d.pool.available + d.guards.length = clients.length ∧
      (d.pool.free ++ d.guards).Perm clients) ∧
    (∀ c ∈ d.guards, (d.pool.put? c).isSome = true) ∧
    (d.IsQuiet → .waiting ∈ d.borrowers → d.pool.available = 0)) ∧
    ((p'.clients.free ++ p'.lent).Perm clients ∧ p'.outstanding.length ≤ clients.length) ∧
    (∀ c ∈ p'.lent, (p'.clients.put? c).isSome = true) ∧
    (p'.isQuiet = true → (∃ t ∈ p'.tasks, t.process.awaits = true) →
      p'.clients.available = 0) ∧
    ∀ t ∈ p'.tasks, ∀ c x, t.process.exchange? = some (c, x) →
      (x.deadline ≤ p'.now → ∃ result, (p'.look x).2 = .done result) ∧
      (p'.run t.id).clients =
        (if t.process.staysWith (p'.look x).1 x (p'.look x).2 then p'.clients
        else p'.clients.giveBack c) ∧
      (p'.run t.id).clientOf? t.id =
        (if t.process.staysWith (p'.look x).1 x (p'.look x).2 then some c else none) := by
  have hdesk : ((Desk.ofClients clients).after moves).Sound clients :=
    (Desk.sound_ofClients clients).after moves
  have hlends : p'.Lends clients := (lends_of_new new full).reaches reach
  have hperm := hlends.perm
  refine ⟨⟨⟨?_, hdesk.lent⟩, fun c hc => ?_, fun hquiet hwaits => ?_⟩, ⟨hperm, ?_⟩, fun c hc => ?_,
    fun hquiet hawaits => ?_, fun t ht c x hexchange => ?_⟩
  · exact List.length_append.symm.trans hdesk.lent.length_eq
  · rw [hdesk.put? hc]
    rfl
  · rw [ClientPool.available, hdesk.free_of_quiet hquiet hwaits]
    rfl
  · have hlength := hperm.length_eq
    rw [List.length_append, lent, List.length_map] at hlength
    omega
  · rw [hlends.put? hc]
    rfl
  · rw [ClientPool.available, hlends.free_of_quiet hquiet hawaits]
    rfl
  · have hfate := run_fate (task?_of_mem hlends.numbered ht) hexchange
    exact ⟨done_of_deadline, hfate.clients, hfate.client⟩

/-- The first of two sends gets the only client, and gives it back when its time is over. -/
theorem clients_conserved_of_unanswered :
    let tablet : Event := {
      content := .tablet { target := "", rows := 0, payload := [1] }, pipe := "a", region := 1
      commit := .zero, progress := 0 }
    let p : Pipe Batch.PlainPayload := {
      commons := {}
      queue := { pipe := "q", settings := {}, block := 0 }
      batch := { id := "b", maxDelayMs := 1, slice := 0, payload := {} }
      connector := .create "c" {}
      clients := .ofClients [0]
      disk := {}
      peer := { fallback := .silence } }
    let first := ((p.built 0).callSend [⟨0, tablet⟩] [1]).1
    let sent := (first.callSend [⟨0, tablet⟩] [1]).1
    let both := sent.run 0
    let late := both.setClock 60000
    (both.isQuiet = true ∧ both.lent = [0] ∧ both.clients.waiting = [1] ∧
      both.clients.available = 0) ∧
    ((late.run 0).clients = late.clients.giveBack 0 ∧ (late.run 0).clients.woken = [1] ∧
      (late.run 0).clientOf? 0 = none) := by
  intro tablet p first sent both late
  have new : p.IsNew := ⟨rfl, rfl, rfl, rfl, rfl, rfl, rfl, rfl, rfl, rfl, rfl⟩
  obtain ⟨t, ht, hid, hready⟩ : ∃ t ∈ sent.tasks, t.id = 0 ∧ sent.canRun t = true := by
    decide +kernel
  obtain ⟨u, hu, huid, hexchange, hover⟩ : ∃ u ∈ late.tasks, u.id = 0 ∧
      u.process.exchange?.map Prod.fst = some 0 ∧ u.process.exchange?.all (fun y =>
        !u.process.staysWith (late.look y.2).1 y.2 (late.look y.2).2) = true := by decide +kernel
  obtain ⟨⟨c, x⟩, hx, rfl⟩ := Option.map_eq_some_iff.mp hexchange
  have hquiet : both.isQuiet = true := by decide +kernel
  have hawaits : ∃ t ∈ both.tasks, t.process.awaits = true := by decide +kernel
  have hboth : both.lent = [0] ∧ both.clients.waiting = [1] := by decide +kernel
  have hlate : (late.run 0).clients.woken = [1] := by decide +kernel
  have hran : Happening sent (sent.run t.id) := .ran ht hready
  rw [hid] at hran
  have reach : Relation.ReflTransGen Happening p both :=
    .head (.retuned _) (.head (.sent _ _) (.head (.sent _ _) (.single hran)))
  have hafter : Relation.ReflTransGen Happening p late := reach.tail (.clock 60000)
  have hfree := (clients_conserved [0] [] new rfl reach).2.2.2.1 hquiet hawaits
  have hback := ((clients_conserved [0] [] new rfl hafter).2.2.2.2 u hu _ x hx).2
  rw [hx, Option.all_some, Bool.not_eq_true'] at hover
  rw [if_neg (Bool.not_eq_true _ ▸ hover), if_neg (Bool.not_eq_true _ ▸ hover), huid] at hback
  exact ⟨⟨hquiet, hboth.1, hboth.2, hfree⟩, hback.1, hlate, hback.2⟩

end Pipe
end Courier
