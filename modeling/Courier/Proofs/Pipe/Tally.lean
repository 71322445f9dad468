import Courier.Proofs.Pipe.Closing

/-!
A connector among its users. They hand it files, and tablets with a reference on each; requests
end as they may, instances are discarded, and the connector is closed. Of an event that neither a
discard nor a close has cleared, the ledger counts what others own and what the connector holds, no
more and no less.
-/

namespace Courier

open Transfer

namespace Pipe

variable {P : Type} {p p' : Pipe P} {events : EventId → Event} {owned : EventId → Nat}
  {b b' : Books P} {id : EventId} {running : Option TaskId} {hand : Multiset Item}

section Holdings

/-- Tablets on their way have a reference each. -/
def Process.copies (id : EventId) : Process → Nat
  | .tablets t _ => t.events.countP fun e => e.id = id
  | _ => 0

theorem Process.copies_of_idle {process : Process} (idle : process.works = false) :
    process.copies id = 0 := by
  cases process with
  | tablets => cases idle
  | _ => rfl

/-- How many copies of an event the connector holds as a tablet, on their way or waiting for another
try. -/
def copiesOf (p : Pipe P) (id : EventId) : Nat :=
  (p.tasks.map fun t => t.process.copies id).sum +
    p.connector.retryQueue.countP fun entry => !entry.event.event.isBulk && entry.event.id = id

/-- Nothing is queued or batched, and no consumer runs: the connector is all there is. -/
structure Unmanned (p : Pipe P) : Prop where
  queue : p.queue.channels.toList = []
  pending : p.pending = none
  batch : p.batch.events = []
  consumers : p.consumers = []

theorem Unmanned.next (h : p.Unmanned) (queue : p'.queue.channels = p.queue.channels)
    (pending : p'.pending = p.pending) (batch : p'.batch.events = p.batch.events)
    (consumers : p'.consumers = p.consumers) : p'.Unmanned :=
  ⟨by rw [queue, h.queue], pending.trans h.pending, batch.trans h.batch,
    consumers.trans h.consumers⟩

theorem Unmanned.apart (h : p.Unmanned) {t : Task} (ht : t ∈ p.tasks) :
    t.process.consumes = false := by
  refine Bool.eq_false_iff.mpr fun hconsumes => ?_
  have hmem : t ∈ p.consumers := List.mem_filter.mpr ⟨ht, hconsumes⟩
  rw [h.consumers] at hmem
  cases hmem

theorem total_held_process {process : Process} (apart : process.consumes = false) :
    Item.total (Item.held id) process.items = process.copies id := by
  cases process with
  | tablets t link =>
      cases hpurpose : t.purpose with
      | flush after =>
          have hflush : t.purpose.isFlush = false := apart
          rw [hpurpose] at hflush
          cases hflush
      | _ => simp [Process.items, Process.copies, Purpose.items, hpurpose, Item.held]
  | pausing => cases apart
  | _ => simp [Process.items, Process.copies, Item.held]

theorem held_of_unmanned (h : p.Unmanned) (id : EventId) : (p.books none 0).held id =
    p.copiesOf id + p.connector.buffer.countP fun entry => entry.2.id = id := by
  have hretries (entries : List RetryEntry) : Item.total (Item.held id)
      ↑(entries.map fun entry => Item.retry entry.event) = entries.countP fun entry =>
        !entry.event.event.isBulk && entry.event.id = id := by
    induction entries with
    | nil => rfl
    | cons entry entries ih =>
        rw [List.map_cons, ← Multiset.cons_coe, Item.total_cons, ih, List.countP_cons]
        cases hbulk : entry.event.event.isBulk <;> simp [Item.held, hbulk, Nat.add_comm]
  have htasks (tasks : List Task) (apart : ∀ t ∈ tasks, t.process.consumes = false) :
      Item.total (Item.held id) (tasks.map fun t => t.process.items).sum =
        (tasks.map fun t => t.process.copies id).sum := by
    induction tasks with
    | nil => rfl
    | cons t tasks ih =>
        rw [List.map_cons, List.sum_cons, Item.total_add, List.map_cons, List.sum_cons,
          total_held_process (apart t (List.mem_cons_self ..)),
          ih fun t' ht' => apart t' (List.mem_cons_of_mem _ ht')]
  have hbatch : (p.books none 0).batch = [] := h.batch
  have hitems : Item.total (Item.held id) (p.books none 0).items = p.copiesOf id := by
    simp only [books, stored, others_none, h.queue, h.pending, Item.total_add, Item.total_zero,
      hretries, htasks p.tasks fun t ht => h.apart ht, copiesOf, List.map_nil, Option.toList_none,
      Multiset.coe_nil]
    omega
  rw [Books.held, hitems, hbatch]
  rfl

/-- A file is buffered under its commit id, or not at all. -/
theorem countP_buffer (hc : b.Custody events) (ha : b.Accounted events owned) (id : EventId) :
    (b.buffer.countP fun entry => entry.2.id = id) =
      if b.buffered? (events id).commit = some ⟨id, events id⟩ then 1 else 0 := by
  have hplace {entry : CommitId × EventRef} (hentry : entry ∈ b.buffer) (hid : entry.2.id = id) :
      entry = ((events id).commit, ⟨id, events id⟩) := by
    have hknown := ha.eq_known (e := entry.2) (.inr (.inr ⟨entry.1, hentry⟩))
    have hfiled := (hc.filed entry.1 entry.2 hentry).1
    rw [hid] at hknown
    rw [hknown] at hfiled
    exact Prod.ext hfiled hknown
  split
  · rename_i hthere
    have hmem := Books.mem_of_buffered? hthere
    have hpos : 0 < b.buffer.countP fun entry => entry.2.id = id :=
      List.countP_pos_iff.mpr ⟨_, hmem, by simp⟩
    have hfreed := countP_le_freed hc.keys hthere id
    have hrest : (b.buffer.filter fun entry => entry.1 != (events id).commit).countP
        (fun entry => entry.2.id = id) = 0 := by
      refine List.countP_eq_zero.mpr fun entry hentry => ?_
      obtain ⟨hbuffer, hother⟩ := List.mem_filter.mp hentry
      intro hid
      rw [hplace hbuffer (of_decide_eq_true hid)] at hother
      simp at hother
    rw [hrest, if_pos rfl] at hfreed
    omega
  · rename_i habsent
    refine List.countP_eq_zero.mpr fun entry hentry hid => habsent (hc.buffered?_eq ?_)
    exact hplace hentry (of_decide_eq_true hid) ▸ hentry

end Holdings

section Trades

/-- The tablets that the step of a task clears. Those of a batch that was not taken are cleared when
the connector was closed meanwhile. -/
def forfeited (p : Pipe P) (id : TaskId) : List EventRef :=
  match p.task? id with
  | some (.tablets t (.exchanging _ x _)) =>
      match p.look x with
      | (p', .done result) =>
          match (p'.judgeTablets x result).2 with
          | .error _ => if p.connector.closed then t.events else []
          | .ok _ => []
      | (_, .pending _) => []
  | _ => []

/-- What a connector keeps of one kind, in the retry queue and in the buffer. -/
def keptOf (p : Pipe P) (mine : EventRef → Bool) : List EventRef :=
  p.queuedOf mine ++ (p.connector.buffer.filter fun entry => mine entry.2).map Prod.snd

/-- A scene, and what was cleared by discards and by the close of the connector. -/
structure Tally (P : Type) where
  scene : Scene P
  cleared : List EventRef

structure Tally.IsNew [Batch.Payload P] (t : Tally P) : Prop where
  scene : t.scene.IsNew
  cleared : t.cleared = []

variable [Batch.Payload P]

/-- What the users of a connector do. Others own references and drop no more than they own; the
tablets that are sent bring one each; what failed is queued by the connector alone. -/
inductive Trade (events : EventId → Event) : Tally P → Tally P → Prop
  | built {p : Pipe P} {owned : EventId → Nat} {cleared : List EventRef} (retryMs : Nat) :
      Trade events ⟨⟨p, owned⟩, cleared⟩
        ⟨⟨p.built retryMs, Function.update owned p.commons.ledger.entries.size 1⟩, cleared⟩
  | held {p : Pipe P} {owned : EventId → Nat} {cleared : List EventRef} {id : EventId}
      (known : id < p.commons.ledger.entries.size) (took : (p.commons.ledger.hold id).2 = true) :
      Trade events ⟨⟨p, owned⟩, cleared⟩
        ⟨⟨p.withLedger (p.commons.ledger.hold id).1, Function.update owned id (owned id + 1)⟩,
          cleared⟩
  | dropped {p : Pipe P} {owned : EventId → Nat} {cleared : List EventRef} {id : EventId}
      (here : 0 < owned id) :
      Trade events ⟨⟨p, owned⟩, cleared⟩
        ⟨⟨p.drop ⟨id, events id⟩, Function.update owned id (owned id - 1)⟩, cleared⟩
  | transferred {p : Pipe P} {owned : EventId → Nat} {cleared : List EventRef} {id : EventId}
      (known : id < p.commons.ledger.entries.size) :
      Trade events ⟨⟨p, owned⟩, cleared⟩
        ⟨⟨(p.transferFile ⟨id, events id⟩).1, owned⟩, cleared⟩
  | sent {p : Pipe P} {owned : EventId → Nat} {cleared sent : List EventRef} (payload : Bytes)
      (light : ∀ e ∈ sent, e.event.isBulk = false) (known : ∀ e ∈ sent, e.event = events e.id)
      (here : ∀ id, sent.countP (fun e => e.id = id) ≤ owned id) :
      Trade events ⟨⟨p, owned⟩, cleared⟩
        ⟨⟨(p.callSend sent payload).1, fun id => owned id - sent.countP fun e => e.id = id⟩,
          cleared⟩
  | discarded {p : Pipe P} {owned : EventId → Nat} {cleared : List EventRef} (pipe : String)
      (region : Int) :
      Trade events ⟨⟨p, owned⟩, cleared⟩
        ⟨⟨(p.discard pipe region).1, owned⟩, p.keptOf (fun e => e.belongsTo pipe region) ++ cleared⟩
  | closed {p : Pipe P} {owned : EventId → Nat} {cleared : List EventRef} :
      Trade events ⟨⟨p, owned⟩, cleared⟩
        ⟨⟨p.closeConnector, owned⟩, p.keptOf (fun _ => true) ++ cleared⟩
  | ran {p : Pipe P} {owned : EventId → Nat} {cleared : List EventRef} (id : TaskId) :
      Trade events ⟨⟨p, owned⟩, cleared⟩ ⟨⟨p.run id, owned⟩, p.forfeited id ++ cleared⟩
  | aside {p p' : Pipe P} {owned : EventId → Nat} {cleared : List EventRef} (beside : Aside p p')
      (unmanned : p'.consumers = []) :
      Trade events ⟨⟨p, owned⟩, cleared⟩ ⟨⟨p', owned⟩, cleared⟩

theorem Trade.deal {t t' : Tally P} (h : Trade events t t') : Deal events t.scene t'.scene := by
  cases h with
  | built retryMs => exact .built retryMs
  | held known took => exact .held known took
  | dropped here => exact .dropped here
  | transferred known => exact .transferred known
  | sent payload light known here => exact .sent payload light known here
  | discarded pipe region => exact .discarded pipe region
  | closed => exact .closed
  | ran id => exact .ran id
  | aside beside => exact .aside beside

end Trades

section Line

theorem Unmanned.setTask (h : p.Unmanned) (id : TaskId) {process : Process}
    (apart : process.consumes = false) : (p.setTask id process).Unmanned := by
  refine ⟨h.queue, h.pending, h.batch, ?_⟩
  rw [consumers_setTask, h.consumers]
  simp [apart]

theorem Unmanned.transferFile (h : p.Unmanned) (e : EventRef) :
    (p.transferFile e).1.Unmanned := by
  refine transferFile_cases p e (fun _ => h) (fun _ => ?_) (fun _ => ?_) fun a _ _ _ => ?_
  · exact h.next rfl rfl rfl rfl
  · exact h.next rfl rfl rfl rfl
  · exact h.next rfl rfl rfl (consumers_spawn (p.accept e) rfl)

theorem Unmanned.askForTablets (h : p.Unmanned) (id : TaskId) {t : TabletSend}
    (apart : t.purpose.isFlush = false) : (p.askForTablets id t).Unmanned := by
  have hasked (clients : ClientPool) : (p.withClients clients).Unmanned := h.next rfl rfl rfl rfl
  have hsent (clients : ClientPool) (request : Request) :
      ((p.withClients clients).send request).1.Unmanned := h.next rfl rfl rfl rfl
  rw [askForTablets_eq]
  split
  · exact (hasked _).setTask id apart
  · exact (hsent _ _).setTask id apart

theorem Unmanned.callSend (h : p.Unmanned) (sent : List EventRef) (payload : Bytes) :
    (p.callSend sent payload).1.Unmanned := by
  have hnew : p.newTask.1.Unmanned := h.next rfl rfl rfl rfl
  unfold Pipe.callSend
  dsimp only
  split
  · have hdropped : (p.newTask.1.dropAll sent).Unmanned := hnew.next rfl rfl rfl rfl
    exact hdropped.setTask _ rfl
  · split
    · exact hnew.setTask _ rfl
    · have hreset (commons : Commons) : ({ p.newTask.1 with commons } : Pipe P).Unmanned :=
        hnew.next rfl rfl rfl rfl
      exact (hreset _).askForTablets _ rfl

theorem Unmanned.aside (h : p.Unmanned) (beside : Aside p p') (unmanned : p'.consumers = []) :
    p'.Unmanned := by
  have hcancel (id? : Option TaskId) : (p.cancel id?).Unmanned := by
    cases id? <;> exact h.next rfl rfl rfl rfl
  cases beside with
  | cancelWorker => exact hcancel p.worker
  | cancelConsumer => exact hcancel p.consumer
  | _ => exact ⟨h.queue, h.pending, h.batch, unmanned⟩

variable [Batch.Payload P]

theorem Unmanned.run (h : p.Unmanned) (id : TaskId) : (p.run id).Unmanned := by
  cases htask : p.task? id with
  | none =>
      simp only [Pipe.run, htask]
      exact h
  | some process =>
      have hbeside := beside_run p htask (h.apart (mem_of_task? htask))
      refine h.next (by rw [hbeside.queue]) hbeside.pending (by rw [hbeside.batch]) ?_
      exact hbeside.consumers fun t ht => by rw [h.consumers] at ht; cases ht

theorem Trade.unmanned {t t' : Tally P} (h : Trade events t t') (ht : t.scene.pipe.Unmanned) :
    t'.scene.pipe.Unmanned := by
  cases h with
  | built | held | dropped | discarded | closed => exact ht.next rfl rfl rfl rfl
  | transferred => exact ht.transferFile _
  | sent payload => exact ht.callSend _ payload
  | ran id => exact ht.run id
  | aside beside unmanned => exact ht.aside beside unmanned

end Line

section Clearing

theorem Books.Swept.aliveAt {mine : EventRef → Bool} {found : List EventRef}
    (h : Books.Swept mine found b b')
    (others : ∀ e ∈ found ++ (b.buffer.filter fun entry => mine entry.2).map Prod.snd, e.id ≠ id)
    (hl : b.AliveAt owned id) : b'.AliveAt owned id := by
  refine hl.next h.size fun hpos => ⟨?_, ?_⟩
  · rw [h.ledger, Ledger.get_clearAll_of_ne others]
  · exact Nat.lt_of_lt_of_le hpos (Nat.add_le_add_right (h.held_le id) _)

theorem Books.AliveAt.held_outside (hl : b.AliveAt owned id) (ha : b.Accounted events owned)
    {given : EventId} (known : given < b.ledger.entries.size)
    (took : (b.ledger.hold given).2 = true) :
    ({ b with ledger := (b.ledger.hold given).1 } : Books P).AliveAt
      (Function.update owned given (owned given + 1)) id := by
  intro hid hpos
  have hsize : (b.ledger.hold given).1.entries.size = b.ledger.entries.size :=
    Ledger.size_update _ _ _
  rw [(Ledger.get_hold known took id).2.1]
  by_cases hsame : id = given
  · exact hsame ▸ unreleased_of_hold ha took
  · rw [Function.update_of_ne hsame] at hpos
    exact hl (Nat.lt_of_lt_of_eq hid hsize) hpos

theorem Books.Balanced.held_outside (hb : b.Balanced owned) {given : EventId}
    (known : given < b.ledger.entries.size) (took : (b.ledger.hold given).2 = true) :
    ({ b with ledger := (b.ledger.hold given).1 } : Books P).Balanced
      (Function.update owned given (owned given + 1)) := by
  intro id hid hreleased
  have hsize : (b.ledger.hold given).1.entries.size = b.ledger.entries.size :=
    Ledger.size_update _ _ _
  obtain ⟨hcount, hsame, _⟩ := Ledger.get_hold known took id
  rw [hsame] at hreleased
  have hbalanced := hb id (Nat.lt_of_lt_of_eq hid hsize) hreleased
  rw [hcount]
  by_cases hid : id = given
  · subst hid
    rw [Function.update_self, if_pos rfl]
    exact Nat.add_le_add_right hbalanced 1
  · rw [Function.update_of_ne hid, if_neg (Ne.symm hid)]
    exact hbalanced

variable [Batch.Payload P]

/-- References that are dropped together release an event only if they were the last. -/
theorem aliveAt_dropAll (sent : List EventRef)
    (hg : (p.books running (↑(sent.map Item.spent) + hand)).Guarded events owned)
    (hl : (p.books running (↑(sent.map Item.spent) + hand)).AliveAt owned id) :
    ((p.dropAll sent).books running hand).AliveAt owned id := by
  induction sent generalizing p with
  | nil =>
      have hsame : (p.dropAll []).books running hand =
          p.books running (↑(([] : List EventRef).map Item.spent) + hand) := by
        simp [dropAll, Commons.dropAll, Ledger.dropAll]
      exact hsame ▸ hl
  | cons e sent ih =>
      rw [List.map_cons, ← Multiset.cons_coe, Multiset.cons_add] at hg hl
      have hdropped : Leads True (p.books running (.spent e ::ₘ (↑(sent.map Item.spent) + hand)))
          ((p.drop e).books running (↑(sent.map Item.spent) + hand)) := leads_drop p e
      exact ih (hdropped.guarded hg) (hl.dropped hg.accounted (books_cons p running _ _))

/-- Tablets that a closed connector gives up are dropped. -/
theorem aliveAt_abandoned {sent : List EventRef} {payload : Bytes} {asked : Option Request}
    (closed : p.connector.closed = true)
    (hg : (p.books running (.sending sent payload asked ::ₘ hand)).Guarded events owned)
    (hl : (p.books running (.sending sent payload asked ::ₘ hand)).AliveAt owned id) :
    ((p.dropAll sent).books running hand).AliveAt owned id := by
  have hturn : Leads True (p.books running ({.sending sent payload asked} + hand))
      (p.books running (↑(sent.map Item.spent) + hand)) := leads_turn (.abandoned (.inr closed))
  refine aliveAt_dropAll sent (hturn.guarded hg) (hl.next rfl fun hpos => ⟨rfl, ?_⟩)
  have hheld : (p.books running (↑(sent.map Item.spent) + hand)).held id =
      (p.books running (.sending sent payload asked ::ₘ hand)).held id := by
    simp only [Books.held, books_add, books_cons, Item.total_add, Item.total_cons,
      total_held_spent, Item.held]
    rfl
  exact hheld ▸ hpos

omit [Batch.Payload P] in
theorem Books.Shut.handed (hb : b.Shut) {x : Item} (other : ∀ e, x ≠ .retry e) :
    (b.handed x).Shut := by
  refine ⟨hb.batch, fun hclosed e he => ?_⟩
  rcases Multiset.mem_cons.mp he with heq | he
  · exact other e heq.symm
  · exact hb.retries hclosed e he

theorem Leads.shut {lossy : Prop} (h : Leads lossy b b') (hn : b.Numbered) (hb : b.Shut) :
    b'.Shut :=
  h.keeps hn hb Move.shut

theorem Deal.shut {s s' : Scene P} (h : Deal events s s') (hn : (s.pipe.books none 0).Numbered)
    (hs : (s.pipe.books none 0).Shut) : (s'.pipe.books none 0).Shut := by
  have hgiven {p : Pipe P} {x : Item} {c : Books P} (other : ∀ e, x ≠ .retry e)
      (hn : (p.books none 0).Numbered) (hs : (p.books none 0).Shut)
      (h : Leads True (p.books none {x}) c) : c.Shut := by
    rw [books_handed] at h
    exact h.shut hn (hs.handed other)
  cases h with
  | built | held | cleared => exact ⟨hs.batch, hs.retries⟩
  | ran id => exact (leads_run _ id (.inl trivial)).shut hn hs
  | aside beside =>
      have hbeside : Leads True _ _ := leads_aside beside
      exact hbeside.shut hn hs
  | dropped => exact hgiven (fun _ heq => by cases heq) hn hs (leads_drop _ _)
  | offered => exact hgiven (fun _ heq => by cases heq) hn hs (leads_offer _ _)
  | sent payload => exact hgiven (fun _ heq => by cases heq) hn hs (leads_callSend _ _ payload)
  | @transferred p owned given known =>
      have hafter := hgiven (fun _ heq => by cases heq) hn hs
        (leads_transferFile p (mentions_guest p ⟨given, events given⟩)).1
      rw [books_handed] at hafter
      exact ⟨hafter.batch, fun hclosed e he =>
        hafter.retries hclosed e (Multiset.mem_cons_of_mem he)⟩
  | @discarded p owned pipe region =>
      have hswept := swept_discard p pipe region
      exact ⟨hs.batch, fun hclosed e he => hs.retries hclosed e (hswept.mem_items he)⟩
  | @closed p owned =>
      cases hclosed : p.connector.closed with
      | true =>
          rw [closeConnector_of_closed hclosed]
          exact hs
      | false =>
          refine ⟨hs.batch, fun _ e he => ?_⟩
          obtain ⟨entry, hentry, _⟩ := retry_mem_items.mp he
          have hnone : p.closeConnector.connector.retryQueue = [] := by
            simp only [closeConnector, Connector.close, hclosed, Bool.false_eq_true, if_false]
            rfl
          rw [hnone] at hentry
          cases hentry

/-- Tablets that are sent through a closed connector are dropped. -/
theorem aliveAt_callSend_of_closed {sent : List EventRef} {payload : Bytes}
    (closed : p.connector.closed = true)
    (hg : (p.books none {.sending sent payload none}).Guarded events owned)
    (hl : (p.books none {.sending sent payload none}).AliveAt owned id) :
    ((p.callSend sent payload).1.books none 0).AliveAt owned id := by
  have hnew : Leads True (p.books none {.sending sent payload none})
      (p.newTask.1.books (some p.nextTask) {.sending sent payload none}) := leads_newTask p _
  have hguarded := hnew.guarded hg
  have halive : (p.newTask.1.books (some p.nextTask) {.sending sent payload none}).AliveAt
      owned id := by
    rw [books_newTask hg.numbered]
    exact hl
  have hcall : (p.callSend sent payload).1 = (p.newTask.1.dropAll sent).setTask p.nextTask
      (.ended (.sent (.error .closed)) p.now) := by
    simp only [callSend, newTask, closed, if_true]
    rfl
  rw [hcall, books_setTask]
  exact aliveAt_abandoned closed hguarded halive

end Clearing

section Runs

theorem Books.Guarded.retraced (hb : b.Guarded events owned) (trace : List Occurrence) :
    ({ b with trace } : Books P).Guarded events owned := by
  obtain ⟨hnumbered, ⟨hsane, hknown, hbulky, howning, hcounted⟩,
    ⟨hkeys, hfiled, hlive, hsingle, hpresent, hlight, hlightSent, hshut⟩⟩ := hb
  exact ⟨hnumbered, ⟨hsane, hknown, hbulky, howning, hcounted⟩,
    ⟨hkeys, hfiled, hlive, hsingle, hpresent, hlight, hlightSent, hshut⟩⟩

/-- The books see of a look at an exchange what was written down. -/
theorem books_look {x : Exchange} {progress : Exchange.Progress} (h : p.look x = (p', progress))
    (running : Option TaskId) (hand : Multiset Item) :
    ∃ trace, p'.books running hand = { p.books running hand with trace } := by
  rw [look_eq h]
  exact ⟨_, rfl⟩

theorem books_judgeTablets (p : Pipe P) (x : Exchange) (result : Except ClientError Response)
    (running : Option TaskId) (hand : Multiset Item) :
    ∃ trace, (p.judgeTablets x result).1.books running hand =
      { p.books running hand with trace } := by
  cases result with
  | error error => exact ⟨_, rfl⟩
  | ok r =>
      simp only [judgeTablets]
      cases (judge p.connector.statusPolicy x.request.name r).1 <;> split <;> exact ⟨_, rfl⟩

/-- A task that ends or comes back has put nothing more down. -/
theorem aliveAt_afterTablets {task : TaskId} {purpose : Purpose} (apart : purpose.isFlush = false)
    (result : Except TransferError Unit) (hl : (p.books (some task) 0).AliveAt owned id) :
    ((p.afterTablets task purpose result).books none 0).AliveAt owned id := by
  cases purpose with
  | retry =>
      rw [books_removeTask] at hl
      exact hl
  | call =>
      simp only [afterTablets]
      rw [books_setTask]
      exact hl
  | flush after => cases apart

variable [Batch.Payload P]

/-- Tablets that were taken after the close are dropped. -/
theorem aliveAt_taken {task : TaskId} {t : TabletSend} {client : ClientId} {x : Exchange}
    {more : Unit} {result : Except ClientError Response} (closed : p.connector.closed = true)
    (hg : (p.books none 0).Guarded events owned) (hl : (p.books none 0).AliveAt owned id)
    (htask : p.task? task = some (.tablets t (.exchanging client x more)))
    (apart : t.purpose.isFlush = false) (hlook : p.look x = (p', .done result))
    (taken : (p'.judgeTablets x result).2 = .ok ()) :
    ((p'.settle t client x result).books (some task) 0).AliveAt owned id := by
  have hitems : (Process.tablets t (.exchanging client x more)).items =
      .sending t.events t.payload (some x.request) ::ₘ 0 := by
    cases hpurpose : t.purpose with
    | flush after =>
        rw [hpurpose] at apart
        cases apart
    | _ => simp [Process.items, Purpose.items, hpurpose, Link.request?]
  have hload := books_load hg.numbered.1 htask
  rw [hitems] at hload
  rw [hload] at hg hl
  obtain ⟨trace, hlooked⟩ := books_look hlook (some task)
    (.sending t.events t.payload (some x.request) ::ₘ 0)
  obtain ⟨trace', hjudged⟩ := books_judgeTablets p' x result (some task)
    (.sending t.events t.payload (some x.request) ::ₘ 0)
  rw [hlooked] at hjudged
  let q := ((p'.judgeTablets x result).1.withClients
    ((p'.judgeTablets x result).1.clients.giveBack client)).withStats
      ((p'.judgeTablets x result).1.connector.stats.recordBatch t.events.length)
  have hbooks : q.books (some task) (.sending t.events t.payload (some x.request) ::ₘ 0) =
      { p.books (some task) (.sending t.events t.payload (some x.request) ::ₘ 0) with
        trace := trace' } := hjudged
  have hguarded := hg.retraced trace'
  rw [← hbooks] at hguarded
  have halive : (q.books (some task)
      (.sending t.events t.payload (some x.request) ::ₘ 0)).AliveAt owned id := by
    rw [hbooks]
    exact hl
  have hsettle : p'.settle t client x result = q.dropAll t.events := by
    rw [settle, taken]
    rfl
  rw [hsettle]
  exact aliveAt_abandoned ((congrArg Books.closed hbooks).trans closed) hguarded halive

omit [Batch.Payload P] in
theorem forfeited_of_failed {task : TaskId} {t : TabletSend} {client : ClientId} {x : Exchange}
    {more : Unit} {result : Except ClientError Response} {error : TransferError}
    (closed : p.connector.closed = true)
    (htask : p.task? task = some (.tablets t (.exchanging client x more)))
    (hlook : p.look x = (p', .done result))
    (failed : (p'.judgeTablets x result).2 = .error error) : p.forfeited task = t.events := by
  simp only [forfeited, htask, hlook, failed, closed, if_true]

/-- A task that runs when the connector is closed leaves an event alone, or clears it, or drops it
among the tablets that were taken. -/
theorem aliveAt_run_of_closed (hp : p.Unmanned) (hg : (p.books none 0).Guarded events owned)
    (hs : (p.books none 0).Shut) (hl : (p.books none 0).AliveAt owned id)
    (closed : p.connector.closed = true) (live : (p.commons.ledger.get id).released = false)
    {task : TaskId} (spared : ∀ e ∈ p.forfeited task, e.id ≠ id) :
    ((p.run task).books none 0).AliveAt owned id := by
  cases htask : p.task? task with
  | none =>
      simp only [run, htask]
      exact hl
  | some process =>
  have happart := hp.apart (mem_of_task? htask)
  have hrun : p.run task = p.runProcess task process := by simp only [run, htask]
  have halone (h : Deeds False task (fun e => id ≠ e.id) p (p.runProcess task process)) :
      ((p.run task).books none 0).AliveAt owned id := by
    have hleaves : LeavesAlone ⟨id, events id⟩ p (p.run task) :=
      hrun ▸ .of_deeds (fun _ hother => hother) h
    exact fun _ _ => (congrArg Lifecycle.released hleaves.ledger).trans live
  have hretries : ∀ entry ∈ p.connector.retryQueue, id ≠ entry.event.id := fun entry hentry =>
    absurd (retry_mem_items.mpr ⟨entry, hentry, rfl⟩) (hs.retries closed entry.event)
  cases process with
  | transfer a link =>
      -- The buffer of a closed connector is empty, so no file that is live is under transfer.
      have hother : id ≠ a.event.id := by
        rintro rfl
        obtain ⟨hmentioned, htended⟩ :=
          mentions_of_owns (.inr ⟨_, mem_of_task? htask, a, link, rfl, rfl⟩)
        have hbulk : (events a.event.id).isBulk = true :=
          (hg.accounted.known a.event hmentioned).2 ▸ hg.accounted.bulky a link.asked?
            (mem_items_of_task (mem_of_task? htask) (Multiset.mem_singleton_self _))
        have hpresent := hg.custody.present a.event.id hbulk live htended
        rw [hg.custody.shut closed] at hpresent
        cases hpresent
      exact halone (Deeds.runTransfer hother p False.elim)
  | tablets t link =>
      cases link with
      | asking => exact halone (Deeds.askForTablets p happart not_false)
      | waiting => exact halone (Deeds.askForTablets p happart not_false)
      | exchanging client x more =>
          cases hlook : p.look x with
          | mk p' progress =>
          cases progress with
          | pending y =>
              refine halone (.head (.looked False.elim hlook) ?_)
              rw [runProcess, runTablets_of_pending task hlook]
              exact Deeds.parked p' happart rfl False.elim
          | done result =>
              cases hjudged : (p'.judgeTablets x result).2 with
              | ok _ =>
                  rw [hrun, runProcess, runTablets_of_done task hlook]
                  exact aliveAt_afterTablets happart _
                    (aliveAt_taken closed hg hl htask happart hlook hjudged)
              | error error =>
                  have hothers : ∀ e ∈ t.events, e.id ≠ id :=
                    forfeited_of_failed closed htask hlook hjudged ▸ spared
                  have hdeeds : Deeds False task (fun e => id ≠ e.id) p
                      (p.runTablets task t (.exchanging client x more)) :=
                    Deeds.runTablets p happart not_false fun e he => (hothers e he).symm
                  exact halone hdeeds
  | looking => exact halone (Deeds.runLooking p hretries)
  | watching next woken => exact halone (Deeds.runWatching p woken hretries)
  | idling deadline seen => exact halone (Deeds.runIdling p deadline)
  | ended answer at_ => exact halone .refl
  | consuming | polling | pausing => cases happart

end Runs

section Sound

variable [Batch.Payload P] {t t' : Tally P}

/-- All that is kept while a connector is among its users. -/
structure Tally.Sound (events : EventId → Event) (t : Tally P) : Prop where
  unmanned : t.scene.pipe.Unmanned
  guarded : (t.scene.pipe.books none 0).Guarded events t.scene.owned
  shut : (t.scene.pipe.books none 0).Shut
  balanced : (t.scene.pipe.books none 0).Balanced t.scene.owned
  alive : ∀ id, (∀ e ∈ t.cleared, e.id ≠ id) →
    (t.scene.pipe.books none 0).AliveAt t.scene.owned id

omit [Batch.Payload P] in
theorem aliveAt_aside (h : Aside p p') (hl : (p.books none 0).AliveAt owned id) :
    (p'.books none 0).AliveAt owned id := by
  have hspawn (q : Pipe P) (process : Process) (hempty : process.items = 0)
      (hl : (q.books none 0).AliveAt owned id) :
      ((q.spawn process).books none 0).AliveAt owned id := by
    rw [books_spawn process (by simp), hempty]
    exact hl
  cases h with
  | cancelWorker =>
      rw [cancelWorker, books_cancel]
      exact hl
  | cancelConsumer =>
      rw [cancelConsumer, books_cancel]
      exact hl
  | startWorker => exact hspawn { p with worker := some p.nextTask } .looking rfl hl
  | startConsumer => exact hspawn { p with consumer := some p.nextTask } .consuming rfl hl
  | waitIdle ms => exact hspawn p (.idling (p.now + ms) none) rfl hl
  | _ => exact hl

theorem Trade.alive (h : Trade events t t') (ht : t.Sound events) {id : EventId}
    (spared : ∀ e ∈ t'.cleared, e.id ≠ id) :
    (t'.scene.pipe.books none 0).AliveAt t'.scene.owned id := by
  have hbefore : (∀ e ∈ t.cleared, e.id ≠ id) →
      (t.scene.pipe.books none 0).AliveAt t.scene.owned id := ht.alive id
  obtain ⟨hunmanned, hguarded, hshut, _, _⟩ := ht
  have hfalse {closed : Bool} {q : Prop} (h : closed = false) (h' : closed = true) : q :=
    absurd (h.symm.trans h') Bool.false_ne_true
  cases h with
  | built retryMs => exact (hbefore spared).built retryMs
  | held known took => exact (hbefore spared).held_outside hguarded.accounted known took
  | aside beside => exact aliveAt_aside beside (hbefore spared)
  | @dropped p owned cleared given here =>
      have hone : (Item.spent ⟨given, events given⟩).OneOf ⟨given, events given⟩ := .spent
      have hgiven := hguarded.given hone here
      have halive := (hbefore spared).handed (enough_given hone here)
      rw [← owned_given hone] at halive
      exact halive.dropped hgiven.accounted rfl
  | @transferred p owned cleared given known =>
      cases hclosed : p.connector.closed with
      | true =>
          rw [transferFile_of_closed hclosed]
          exact hbefore spared
      | false =>
          have hguest := hguarded.guest known
          have halive := (hbefore spared).handed (x := .guest ⟨given, events given⟩)
            fun _ => Nat.zero_le _
          rw [← books_handed] at hguest halive
          have hmoved : Leads True _ _ :=
            (leads_transferFile p (mentions_guest p ⟨given, events given⟩)).1
          have hafter := hmoved.aliveAt (hfalse hclosed) hguest halive
          rw [books_handed] at hafter
          intro hid hpos
          refine hafter hid ?_
          rw [Books.held_handed]
          exact Nat.lt_of_lt_of_eq hpos (by simp [Item.held])
  | @sent p owned cleared sent payload light known here =>
      have hsending := hguarded.sending payload light known here
      have halive := (hbefore spared).handed (x := .sending sent payload none) here
      rw [← books_handed] at hsending halive
      cases hclosed : p.connector.closed with
      | true => exact aliveAt_callSend_of_closed hclosed hsending halive
      | false =>
          have hmoved : Leads True _ _ := leads_callSend p sent payload
          exact hmoved.aliveAt (hfalse hclosed) hsending halive
  | @discarded p owned cleared pipe region =>
      have hothers := fun e he => spared e (List.mem_append_left _ he)
      exact (swept_discard p pipe region).aliveAt hothers
        (hbefore fun e he => spared e (List.mem_append_right _ he))
  | @closed p owned cleared =>
      have hothers := fun e he => spared e (List.mem_append_left _ he)
      have halive := hbefore fun e he => spared e (List.mem_append_right _ he)
      cases hclosed : p.connector.closed with
      | true =>
          rw [closeConnector_of_closed hclosed]
          exact halive
      | false => exact (swept_closeConnector hclosed).aliveAt hothers halive
  | @ran p owned cleared task =>
      have hothers := fun e he => spared e (List.mem_append_left _ he)
      have halive := hbefore fun e he => spared e (List.mem_append_right _ he)
      have hran : Leads True _ _ := leads_run p task (.inl trivial)
      cases hclosed : p.connector.closed with
      | false => exact hran.aliveAt (hfalse hclosed) hguarded halive
      | true =>
      cases hreleased : (p.commons.ledger.get id).released with
      | true =>
          have hgone := (hguarded.accounted.sane id).count_eq_zero_of_released hreleased
          exact hran.aliveAt (fun _ => hgone) hguarded halive
      | false =>
          exact aliveAt_run_of_closed hunmanned hguarded hshut halive hclosed hreleased hothers

theorem Trade.balanced (h : Trade events t t') (ht : t.Sound events) :
    (t'.scene.pipe.books none 0).Balanced t'.scene.owned := by
  obtain ⟨hunmanned, hguarded, _, hbalanced, _⟩ := ht
  cases h with
  | built retryMs => exact hbalanced.built retryMs
  | held known took => exact hbalanced.held_outside known took
  | aside beside =>
      have hbeside : Leads False _ _ := leads_aside beside
      exact hbeside.balanced hguarded hbalanced
  | @dropped p owned cleared given here =>
      have hone : (Item.spent ⟨given, events given⟩).OneOf ⟨given, events given⟩ := .spent
      have hgiven := hguarded.given hone here
      have hhanded := hbalanced.handed (enough_given hone here)
      rw [← owned_given hone, ← books_handed] at hhanded
      rw [← books_handed] at hgiven
      have hdropped : Leads False (p.books none (.spent ⟨given, events given⟩ ::ₘ 0))
          ((p.drop ⟨given, events given⟩).books none 0) := leads_drop p _
      exact hdropped.balanced hgiven hhanded
  | @transferred p owned cleared given known =>
      have hguest := hguarded.guest known
      have hhanded := hbalanced.handed (x := .guest ⟨given, events given⟩) fun _ => Nat.zero_le _
      rw [← books_handed] at hguest hhanded
      have hmoved : Leads False _ _ :=
        (leads_transferFile p (mentions_guest p ⟨given, events given⟩)).1
      have hafter := hmoved.balanced hguest hhanded
      rw [books_handed] at hafter
      intro id hid hreleased
      have hle := hafter id hid hreleased
      rw [Books.held_handed] at hle
      exact Nat.le_trans hle (by simp [Item.held])
  | @sent p owned cleared sent payload light known here =>
      have hsending := hguarded.sending payload light known here
      have hhanded := hbalanced.handed (x := .sending sent payload none) here
      rw [← books_handed] at hsending hhanded
      have hmoved : Leads False _ _ := leads_callSend p sent payload
      exact hmoved.balanced hsending hhanded
  | @discarded p owned cleared pipe region =>
      exact (swept_discard p pipe region).balanced hguarded.accounted hbalanced
  | @closed p owned cleared =>
      cases hclosed : p.connector.closed with
      | true =>
          rw [closeConnector_of_closed hclosed]
          exact hbalanced
      | false => exact (swept_closeConnector hclosed).balanced hguarded.accounted hbalanced
  | @ran p owned cleared task =>
      have hran : Leads False _ _ := leads_run p task (.inr fun _ _ _ => hunmanned.pending)
      exact hran.balanced hguarded hbalanced

theorem Trade.sound (h : Trade events t t') (ht : t.Sound events) : t'.Sound events :=
  ⟨h.unmanned ht.unmanned, h.deal.guarded ht.guarded, h.deal.shut ht.guarded.numbered ht.shut,
    h.balanced ht, fun _ spared => h.alive ht spared⟩

theorem Tally.IsNew.sound (new : t.IsNew) : t.Sound events := by
  obtain ⟨⟨hpipe, howned⟩, _⟩ := new
  have hserved : (t.scene.pipe.books none 0).Served events fun _ => 0 := served_of_new hpipe
  have hsize : (t.scene.pipe.books none 0).ledger.entries.size = 0 := by
    simp [books, hpipe.ledger]
  have hconsumers : t.scene.pipe.consumers = [] := by
    rw [consumers, hpipe.tasks]
    rfl
  have hnone {id : EventId} (hid : id < (t.scene.pipe.books none 0).ledger.entries.size)
      {q : Prop} : q := by
    rw [hsize] at hid
    cases hid
  exact ⟨⟨hpipe.queue, hpipe.pending, hpipe.batch, hconsumers⟩, howned ▸ hserved.guarded,
    hserved.shut, fun _ hid _ => hnone hid, fun _ _ hid _ => hnone hid⟩

omit [Batch.Payload P] in
/-- Of an event that was not cleared, the ledger counts what others own and what is held. -/
theorem Tally.Sound.count_eq (ht : t.Sound events) {id : EventId}
    (known : id < t.scene.pipe.commons.ledger.entries.size) (spared : ∀ e ∈ t.cleared, e.id ≠ id) :
    (t.scene.pipe.commons.ledger.get id).count =
      (t.scene.pipe.books none 0).held id + t.scene.owned id := by
  have hsane : (t.scene.pipe.commons.ledger.get id).IsSane := ht.guarded.accounted.sane id
  cases hreleased : (t.scene.pipe.commons.ledger.get id).released with
  | false =>
      exact Nat.le_antisymm (ht.balanced id known hreleased)
        (ht.guarded.accounted.counted id known hreleased)
  | true =>
      have hnothing : ¬ 0 < (t.scene.pipe.books none 0).held id + t.scene.owned id := fun hpos => by
        have hlive := ht.alive id spared known hpos
        rw [show (t.scene.pipe.commons.ledger.get id).released = false from hlive] at hreleased
        cases hreleased
      rw [hsane.count_eq_zero_of_released hreleased]
      exact (Nat.eq_zero_of_not_pos hnothing).symm

/-- As long as neither a discard nor a close has cleared an event, its references are those that
others own, one more if it is the file buffered under its commit id, and one for every copy of it
that the connector holds as a tablet. A file that is not taken on leaves every count as it was. When
nothing is buffered, waits for another try or is on its way, all that is left is owned by others,
and what nobody owns was released once. -/
theorem references_accounted {t : Tally P} (new : t.IsNew) {p : Pipe P} {owned : EventId → Nat}
    {cleared : List EventRef}
    (reach : Relation.ReflTransGen (Trade events) t ⟨⟨p, owned⟩, cleared⟩) :
    (∀ id, id < p.commons.ledger.entries.size → (∀ e ∈ cleared, e.id ≠ id) →
      (p.commons.ledger.get id).count = owned id +
        (if p.connector.buffered? (events id).commit = some ⟨id, events id⟩ then 1 else 0) +
          p.copiesOf id) ∧
    (∀ e, (p.transferFile e).2 ≠ .ok true → ∀ id,
      (p.transferFile e).1.commons.ledger.get id = p.commons.ledger.get id) ∧
    (p.connector.buffer = [] → p.connector.retryQueue = [] →
      (∀ task ∈ p.tasks, task.process.works = false) →
      ∀ id, id < p.commons.ledger.entries.size → (∀ e ∈ cleared, e.id ≠ id) →
        (p.commons.ledger.get id).count = owned id ∧
          (owned id = 0 → (p.commons.ledger.get id).releases = 1)) := by
  have hsound : Tally.Sound events ⟨⟨p, owned⟩, cleared⟩ := by
    generalize (⟨⟨p, owned⟩, cleared⟩ : Tally P) = t' at reach
    induction reach with
    | refl => exact new.sound
    | tail _ htrade ih => exact htrade.sound ih
  have hunmanned : p.Unmanned := hsound.unmanned
  have hcount (id : EventId) (known : id < p.commons.ledger.entries.size)
      (spared : ∀ e ∈ cleared, e.id ≠ id) : (p.commons.ledger.get id).count = owned id +
        (if p.connector.buffered? (events id).commit = some ⟨id, events id⟩ then 1 else 0) +
          p.copiesOf id := by
    have hsum : (p.commons.ledger.get id).count = (p.books none 0).held id + owned id :=
      hsound.count_eq known spared
    have hbuffer : (p.connector.buffer.countP fun entry => entry.2.id = id) =
        if p.connector.buffered? (events id).commit = some ⟨id, events id⟩ then 1 else 0 :=
      countP_buffer hsound.guarded.custody hsound.guarded.accounted id
    rw [hsum, held_of_unmanned hunmanned id, hbuffer]
    omega
  refine ⟨hcount, fun e => ?_, fun hbuffer hretries hidle id known spared => ?_⟩
  · refine transferFile_cases p e (fun _ _ _ => rfl) (fun hgone _ id => ?_) (fun htook _ id => ?_)
      fun _ _ _ _ hrefused => absurd rfl hrefused
    · exact Ledger.get_hold_of_fails hgone id
    · exact Ledger.get_drop_hold htook id
  · have hcopies : p.copiesOf id = 0 := by
      rw [copiesOf, hretries, List.countP_nil, Nat.add_zero]
      refine List.sum_eq_zero fun n hn => ?_
      obtain ⟨task, htask, rfl⟩ := List.mem_map.mp hn
      exact Process.copies_of_idle (hidle task htask)
    have hnone : p.connector.buffered? (events id).commit = none := by
      rw [Connector.buffered?, hbuffer]
      rfl
    have howned : (p.commons.ledger.get id).count = owned id := by
      rw [hcount id known spared, hcopies, hnone]
      simp
    have hsane : (p.commons.ledger.get id).IsSane := hsound.guarded.accounted.sane id
    refine ⟨howned, fun hzero => ?_⟩
    rw [hsane.releases_eq, if_pos (hsane.released_iff.mpr (howned.trans hzero))]

/-- A tablet whose batch was not answered waits for another try, and a file is under way. -/
theorem references_accounted_of_unanswered :
    let tablet : Event := {
      content := .tablet { target := "", rows := 0, payload := [1] }, pipe := "a", region := 1
      commit := .zero, progress := 0 }
    let file : Event := {
      content := .file { data := "/d", mods := none, flushPoints := 0 }, pipe := "a", region := 1
      commit := .zero, progress := 0 }
    let p : Pipe Batch.PlainPayload := {
      commons := {}
      queue := { pipe := "q", settings := {}, block := 0 }
      batch := { id := "b", maxDelayMs := 1, slice := 0, payload := {} }
      connector := .create "c" {}
      clients := .ofClients [0]
      disk := {}
      peer := { fallback := .silence } }
    let sent := ((p.built 0).callSend [⟨0, tablet⟩] [1]).1
    let queued := ((sent.setClock 60000).run 0).built 0
    let both := (queued.transferFile ⟨1, file⟩).1
    both.copiesOf 0 = 1 ∧ (both.commons.ledger.get 0).count = 1 ∧
      both.connector.buffer = [(.zero, ⟨1, file⟩)] ∧ (both.commons.ledger.get 1).count = 2 := by
  intro tablet file p sent queued both
  let events : EventId → Event := fun id => if id = 0 then tablet else file
  let owned : EventId → Nat := fun id =>
    Function.update (fun _ => 0) 0 1 id - [(⟨0, tablet⟩ : EventRef)].countP fun e => e.id = id
  have light : ∀ e ∈ [(⟨0, tablet⟩ : EventRef)], e.event.isBulk = false := by decide
  have known : ∀ e ∈ [(⟨0, tablet⟩ : EventRef)], e.event = events e.id := by
    intro e he
    rw [List.mem_singleton.mp he]
    rfl
  have here (id : EventId) : [(⟨0, tablet⟩ : EventRef)].countP (fun e => e.id = id) ≤
      Function.update (fun _ => 0) 0 1 id := by
    by_cases hid : id = 0
    · subst hid
      decide
    · simp [Ne.symm hid]
  have htablet : (sent.setClock 60000).forfeited 0 = [] ∧ queued.copiesOf 0 = 1 ∧
      ((sent.setClock 60000).run 0).commons.ledger.entries.size = 1 := by decide +kernel
  have hsize : queued.commons.ledger.entries.size = 2 := by decide +kernel
  have hbuffer : both.connector.buffer = [(.zero, ⟨1, file⟩)] := by
    unfold both queued sent tablet file
    decide +kernel
  have hfile : both.connector.buffered? .zero = some ⟨1, file⟩ ∧ both.copiesOf 0 = 1 ∧
      both.copiesOf 1 = 0 ∧ both.commons.ledger.entries.size = 2 := by
    refine ⟨?_, ?_, ?_, ?_⟩ <;> (unfold both queued sent tablet file; decide +kernel)
  have new : Tally.IsNew ⟨⟨p, fun _ => 0⟩, []⟩ :=
    ⟨⟨⟨rfl, rfl, rfl, rfl, rfl, rfl, rfl, rfl, rfl, rfl, rfl⟩, rfl⟩, rfl⟩
  have hran : Trade events ⟨⟨sent.setClock 60000, owned⟩, []⟩ ⟨⟨(sent.setClock 60000).run 0, owned⟩,
      (sent.setClock 60000).forfeited 0 ++ []⟩ := .ran 0
  have hbuilt : Trade events ⟨⟨(sent.setClock 60000).run 0, owned⟩, []⟩ ⟨⟨queued, Function.update
      owned ((sent.setClock 60000).run 0).commons.ledger.entries.size 1⟩, []⟩ := .built 0
  have hbegan : Trade events ⟨⟨queued, Function.update owned 1 1⟩, []⟩
      ⟨⟨both, Function.update owned 1 1⟩, []⟩ := .transferred (hsize ▸ Nat.one_lt_two)
  rw [htablet.1] at hran
  rw [htablet.2.2] at hbuilt
  have reach : Relation.ReflTransGen (Trade events) ⟨⟨p, fun _ => 0⟩, []⟩
      ⟨⟨both, Function.update owned 1 1⟩, []⟩ := by
    refine .head (.built 0) (.head (.sent [1] light known here) ?_)
    exact .head (.aside (.clock 60000) rfl) (.head hran (.head hbuilt (.single hbegan)))
  obtain ⟨hcount, _⟩ := references_accounted new reach
  clear_value both
  obtain ⟨hheld, hqueued, hnone, hknown⟩ := hfile
  have hfirst := hcount 0 (hknown ▸ Nat.two_pos) fun _ he => by cases he
  have hsecond := hcount 1 (hknown ▸ Nat.one_lt_two) fun _ he => by cases he
  have howned : Function.update owned 1 1 0 = 0 := by decide
  have hother : (⟨1, file⟩ : EventRef) ≠ ⟨0, events 0⟩ := by decide
  have hthere : some (⟨1, file⟩ : EventRef) = some ⟨1, events 1⟩ := rfl
  have hcommits : (events 0).commit = .zero ∧ (events 1).commit = .zero := ⟨rfl, rfl⟩
  rw [hcommits.1, hheld, hqueued, howned, if_neg fun h => hother (Option.some.inj h)] at hfirst
  rw [hcommits.2, hheld, hnone, Function.update_self, if_pos hthere] at hsecond
  exact ⟨hqueued, hfirst, hbuffer, hsecond⟩

end Sound

end Pipe
end Courier
