import Courier.Proofs.Pipe.Deeds

/-!
What the tasks of a pipe have of what they share: a client that was lent, a place among those who
wait for one, a share in the count of the connector's tasks. Clients and counts change in a few
shifts, each beside a change of what some task has; events, batch and queue are left out. What every
shift preserves, every step of every task preserves.
-/

namespace Courier

open Transfer

namespace Pipe

inductive Stake
  /-- A client that was lent, until it is given back. -/
  | client (c : ClientId)
  /-- A place among those who wait for a client. -/
  | place (t : TaskId)
  /-- The connector counts the task as its own. -/
  | count
  deriving DecidableEq

/-- The client of an exchange, or the place of one who waits for a client. -/
def Link.stakes {α : Type} (id : TaskId) : Link α → Multiset Stake
  | .asking => 0
  | .waiting => {.place id}
  | .exchanging client _ _ => {.client client}

def Purpose.stakes : Purpose → Multiset Stake
  | .retry => {.count}
  | .call | .flush _ => 0

def Process.stakes (id : TaskId) : Process → Multiset Stake
  | .transfer _ link => .count ::ₘ link.stakes id
  | .tablets t link => t.purpose.stakes + link.stakes id
  | _ => 0

/-- The clients, what the tasks have, and how many tasks the connector counts. -/
structure Board where
  pool : ClientPool
  stakes : Multiset Stake
  tasks : Nat
  running : Option TaskId
  nextTask : TaskId

namespace Board

/-- The task that runs is older than the next. -/
def Fits (b : Board) : Prop := ∀ id, b.running = some id → id < b.nextTask

/-- Who asks for a client comes for the first time, or gives up its place. If all is calm, nobody
does that who was not told. -/
inductive Asks (calm : Prop) (b : Board) (t : TaskId) : Multiset Stake → Prop
  | first (fresh : .place t ∉ b.stakes) : Asks calm b t 0
  | again (told : calm → t ∈ b.pool.woken) : Asks calm b t {.place t}

/-- Single changes of the board. -/
inductive Shift (calm : Prop) (b : Board) : Board → Prop
  | lent {t : TaskId} {c : ClientId} {place rest : Multiset Stake} {pool : ClientPool}
      (here : b.stakes = place + rest) (asks : b.Asks calm t place)
      (got : b.pool.ask t = (pool, some c)) :
      Shift calm b { b with pool, stakes := .client c ::ₘ rest }
  | queued {t : TaskId} {place rest : Multiset Stake} {pool : ClientPool}
      (here : b.stakes = place + rest) (asks : b.Asks calm t place)
      (none : b.pool.ask t = (pool, none)) :
      Shift calm b { b with pool, stakes := .place t ::ₘ rest }
  | returned {c : ClientId} {rest : Multiset Stake} (here : b.stakes = .client c ::ₘ rest) :
      Shift calm b { b with pool := b.pool.giveBack c, stakes := rest }
  | began : Shift calm b { b with stakes := .count ::ₘ b.stakes, tasks := b.tasks + 1 }
  | finished {rest : Multiset Stake} (here : b.stakes = .count ::ₘ rest) :
      Shift calm b { b with stakes := rest, tasks := b.tasks - 1 }
  | spawned : Shift calm b { b with nextTask := b.nextTask + 1 }
  | loaded {id : TaskId} (known : id < b.nextTask) : Shift calm b { b with running := some id }
  | rested : Shift calm b { b with running := none }

/-- Some shifts lead from one board to another. -/
def Turns (calm : Prop) (b b' : Board) : Prop :=
  b.Fits → Relation.ReflTransGen (Shift calm) b b'

variable {calm : Prop} {b b' b'' : Board}

theorem Shift.fits (h : Shift calm b b') (hb : b.Fits) : b'.Fits := by
  cases h with
  | spawned => exact fun id hid => Nat.lt_succ_of_lt (hb id hid)
  | loaded known => exact fun _ hid => Option.some.inj hid ▸ known
  | rested => exact fun _ hid => by cases hid
  | _ => exact hb

/-- What every shift keeps is kept. -/
theorem Turns.keeps {kept : Board → Prop} (h : Turns calm b b') (hb : b.Fits) (before : kept b)
    (step : ∀ {c c'}, Shift calm c c' → kept c → kept c') : kept b' := by
  have hshifts := h hb
  clear h
  induction hshifts with
  | refl => exact before
  | tail _ hshift ih => exact step hshift ih

theorem Turns.refl (b : Board) : Turns calm b b := fun _ => .refl

theorem Turns.of_eq (h : b = b') : Turns calm b b' := h ▸ Turns.refl b

theorem Turns.trans (h : Turns calm b b') (h' : Turns calm b' b'') : Turns calm b b'' :=
  fun hb => (h hb).trans (h' (h.keeps hb hb Shift.fits))

theorem Shift.turns (h : Shift calm b b') : Turns calm b b' := fun _ => .single h

end Board

open Board

variable {P : Type} {p p' : Pipe P} {running : Option TaskId} {hand : Multiset Stake}
  {id : TaskId} {calm : Prop}

/-- The board while a task runs and has something in its hand. -/
def board (p : Pipe P) (running : Option TaskId) (hand : Multiset Stake) : Board where
  pool := p.clients
  stakes := ((p.others running).map fun t => t.process.stakes t.id).sum + hand
  tasks := p.connector.tasks
  running := running
  nextTask := p.nextTask

section Equations

theorem board_of_eq (running : Option TaskId) (hand : Multiset Stake)
    (clients : p'.clients = p.clients := by rfl) (tasks : p'.tasks = p.tasks := by rfl)
    (count : p'.connector.tasks = p.connector.tasks := by rfl)
    (nextTask : p'.nextTask = p.nextTask := by rfl) :
    p'.board running hand = p.board running hand := by
  simp only [board, others, clients, tasks, count, nextTask]

theorem board_withBuffers (p : Pipe P) (buffers : BufferPool) (running : Option TaskId)
    (hand : Multiset Stake) :
    (p.withBuffers buffers).board running hand = p.board running hand := rfl

theorem board_withStats (p : Pipe P) (stats : Metrics.TransferStats) (running : Option TaskId)
    (hand : Multiset Stake) :
    (p.withStats stats).board running hand = p.board running hand := rfl

theorem board_withLedger (p : Pipe P) (ledger : Ledger) (running : Option TaskId)
    (hand : Multiset Stake) :
    (p.withLedger ledger).board running hand = p.board running hand := rfl

theorem board_add (p : Pipe P) (running : Option TaskId) (xs hand : Multiset Stake) :
    (p.board running (xs + hand)).stakes = xs + (p.board running hand).stakes :=
  add_left_comm _ xs hand

theorem board_cons (p : Pipe P) (running : Option TaskId) (x : Stake) (hand : Multiset Stake) :
    (p.board running (x ::ₘ hand)).stakes = x ::ₘ (p.board running hand).stakes :=
  Multiset.add_cons x _ hand

/-- A task that waits again has put down what was in its hand. -/
theorem board_setTask (p : Pipe P) (id : TaskId) (process : Process) (hand : Multiset Stake) :
    (p.setTask id process).board none hand =
      { p.board (some id) (process.stakes id + hand) with running := none } := by
  have hothers : (p.setTask id process).others none = p.others (some id) ++ [⟨id, process⟩] := by
    rw [others_none]
    rfl
  simp only [board, hothers]
  simp [setTask, add_assoc]

theorem board_removeTask (p : Pipe P) (id : TaskId) (hand : Multiset Stake) :
    (p.removeTask id).board none hand = { p.board (some id) hand with running := none } := by
  have hothers : (p.removeTask id).others none = p.others (some id) := by
    rw [others_none]
    rfl
  simp only [board, hothers]
  rfl

theorem board_spawn (process : Process) (hrunning : running ≠ some p.nextTask)
    (hand : Multiset Stake) :
    (p.spawn process).board running hand =
      { p.board running (process.stakes p.nextTask + hand) with nextTask := p.nextTask + 1 } := by
  have hothers : (p.spawn process).others running =
      p.others running ++ [⟨p.nextTask, process⟩] := by
    simp [spawn, others, Ne.symm hrunning]
  simp only [board, hothers]
  simp [spawn, add_assoc]

/-- The task that begins to run takes into its hand what it had. -/
theorem board_load {process : Process} (numbered : (p.books none 0).Numbered)
    (task : p.task? id = some process) :
    p.board none 0 = { p.board (some id) (process.stakes id) with running := none } := by
  have hids : (p.books none 0).ids = ↑(p.tasks.map Task.id) := by
    simp [books, others_none]
  have hnodup := numbered.1
  rw [hids] at hnodup
  have hperm : p.tasks.Perm (⟨id, process⟩ :: p.others (some id)) :=
    perm_filter_ne (Multiset.coe_nodup.mp hnodup) (mem_of_task? task)
  have hsum := (hperm.map fun t => t.process.stakes t.id).sum_eq
  simp only [board, others_none, hsum]
  simp [add_comm]

/-- What the tasks have together. -/
theorem mem_stakes {tasks : List Task} {x : Stake} :
    x ∈ (tasks.map fun t => t.process.stakes t.id).sum ↔
      ∃ t ∈ tasks, x ∈ t.process.stakes t.id := by
  induction tasks with
  | nil => simp
  | cons t tasks ih => simp [ih]

theorem Link.eq_of_place {α : Type} {link : Link α} {t : TaskId}
    (h : .place t ∈ link.stakes id) : t = id ∧ link = .waiting := by
  cases link with
  | asking => cases h
  | waiting =>
      cases Multiset.mem_singleton.mp h
      exact ⟨rfl, rfl⟩
  | exchanging => cases Multiset.mem_singleton.mp h

theorem Purpose.stakes_eq (purpose : Purpose) {x : Stake} (h : x ∈ purpose.stakes) :
    x = .count := by
  cases purpose with
  | retry => exact Multiset.mem_singleton.mp h
  | call | flush => cases h

/-- A task has no place but its own. -/
theorem Process.eq_of_place {process : Process} {t : TaskId} (h : .place t ∈ process.stakes id) :
    t = id := by
  cases process with
  | transfer a link => exact (Link.eq_of_place ((Multiset.mem_cons.mp h).resolve_left nofun)).1
  | tablets s link =>
      rcases Multiset.mem_add.mp h with hpurpose | hlink
      · cases s.purpose.stakes_eq hpurpose
      · exact (Link.eq_of_place hlink).1
  | _ => cases h

/-- The other tasks have places of their own. -/
theorem place_notMem (p : Pipe P) (id : TaskId) (without : .place id ∉ hand) :
    .place id ∉ (p.board (some id) hand).stakes := by
  intro hmem
  refine without ((Multiset.mem_add.mp hmem).resolve_left fun hothers => ?_)
  obtain ⟨t, ht, hplace⟩ := mem_stakes.mp hothers
  have hother := (List.mem_filter.mp ht).2
  rw [← Process.eq_of_place hplace] at hother
  simp at hother

theorem board_wakeWorker (p : Pipe P) (running : Option TaskId) (hand : Multiset Stake) :
    p.wakeWorker.board running hand = p.board running hand := by
  unfold wakeWorker
  split
  · rename_i found _
    have hwake (t : Task) : t.wake.id = t.id ∧
        t.wake.process.stakes t.wake.id = t.process.stakes t.id := by
      unfold Task.wake
      split
      · rename_i heq
        exact ⟨rfl, by rw [heq]; rfl⟩
      · exact ⟨rfl, rfl⟩
    have hwoken (t : Task) : (if t.id = found.id then t.wake else t).id = t.id ∧
        (if t.id = found.id then t.wake else t).process.stakes
          (if t.id = found.id then t.wake else t).id = t.process.stakes t.id := by
      split
      · exact hwake t
      · exact ⟨rfl, rfl⟩
    have hid (t : Task) := (hwoken t).1
    have hstakes (t : Task) := (hwoken t).2
    simp only [board, others, List.filter_map, List.map_map, Function.comp_def, hstakes]
    simp only [hid]
  · rfl

theorem board_addFailure (p : Pipe P) (e : EventRef) (running : Option TaskId)
    (hand : Multiset Stake) : (p.addFailure e).board running hand = p.board running hand := by
  cases hclosed : p.connector.closed with
  | true =>
      rw [addFailure_of_closed hclosed]
      rfl
  | false =>
      cases hreleased : p.commons.isReleased e with
      | true => rw [addFailure_of_released hclosed hreleased]
      | false =>
          rw [addFailure_of_live hclosed hreleased, board_wakeWorker]
          rfl

theorem board_fail (p : Pipe P) (increases : Bool) (e : EventRef) (running : Option TaskId)
    (hand : Multiset Stake) : (p.fail increases e).board running hand = p.board running hand := by
  unfold fail
  cases increases <;> exact board_addFailure _ e running hand

theorem board_failAll (increases : Bool) (events : List EventRef) (p : Pipe P)
    (running : Option TaskId) (hand : Multiset Stake) :
    (events.foldl (fun p e => p.fail increases e) p).board running hand =
      p.board running hand := by
  induction events generalizing p with
  | nil => rfl
  | cons e events ih => exact (ih _).trans (board_fail p increases e running hand)

theorem board_remove (p : Pipe P) (e : EventRef) (running : Option TaskId)
    (hand : Multiset Stake) : (p.remove e).1.board running hand = p.board running hand := by
  have hcount : (p.connector.remove p.commons e).1.tasks = p.connector.tasks := by
    unfold Connector.remove
    split
    · split <;> rfl
    · rfl
  exact board_of_eq running hand rfl rfl hcount

theorem board_completeTransfer (p : Pipe P) (a : Attempt) (running : Option TaskId)
    (hand : Multiset Stake) : (p.completeTransfer a).board running hand = p.board running hand := by
  unfold completeTransfer
  dsimp only
  split <;> exact board_remove p a.event running hand

theorem board_failTransfer (p : Pipe P) (a : Attempt) (error : TransferError)
    (running : Option TaskId) (hand : Multiset Stake) :
    (p.failTransfer a error).board running hand = p.board running hand := by
  rw [failTransfer_eq]
  exact board_fail (p.noteFailure error).1 _ a.event running hand

theorem board_noteJudgement (p : Pipe P) (judgement : Option Judgement)
    (running : Option TaskId) (hand : Multiset Stake) :
    (p.noteJudgement judgement).board running hand = p.board running hand := by
  cases judgement <;> rfl

theorem board_noteTaken (p : Pipe P) (x : Exchange) (r : Response) (running : Option TaskId)
    (hand : Multiset Stake) : (p.noteTaken x r).board running hand = p.board running hand := by
  unfold noteTaken
  split <;> rfl

theorem board_look {x : Exchange} {progress : Exchange.Progress} (h : p.look x = (p', progress))
    (running : Option TaskId) (hand : Multiset Stake) :
    p'.board running hand = p.board running hand := by
  rw [look_eq h]
  rfl

theorem board_judgeTablets (p : Pipe P) (x : Exchange) (result : Except ClientError Response)
    (running : Option TaskId) (hand : Multiset Stake) :
    (p.judgeTablets x result).1.board running hand = p.board running hand := by
  cases result with
  | error error => rfl
  | ok r =>
      simp only [judgeTablets]
      split <;> exact board_noteJudgement p _ running hand

theorem board_settleTablets (p : Pipe P) (t : TabletSend) (result : Except TransferError Unit)
    (running : Option TaskId) (hand : Multiset Stake) :
    (p.settleTablets t result).board running hand = p.board running hand := by
  cases result with
  | ok _ => rfl
  | error error => exact board_failAll _ t.events (p.noteFailure error).1 running hand

end Equations

end Pipe
end Courier
