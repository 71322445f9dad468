import Courier.Pipe.Step
import Courier.Proofs.Transfer.Course
import Mathlib.Algebra.BigOperators.Group.Multiset.Basic

/-!
The books of a pipe: which events it holds, in what part of its work, and what the ledger says of
them. Clients, clocks, gauges and counts are left out. A task that runs has left its place among the
tasks; what it held is in its hand, item by item, until it waits again.
-/

namespace Courier

open Transfer

namespace Pipe

/-- What was asked for by an exchange under way. -/
def Link.request? {α : Type} : Link α → Option Request
  | .exchanging _ x _ => some x.request
  | _ => none

/-- What a transfer asked for, and why. -/
def Link.asked? : Link Pending → Option (Sent × Request)
  | .exchanging _ x pending => some (pending.sent, x.request)
  | _ => none

/-- An event, or several, in some part of the pipe's work. -/
inductive Item
  /-- Offered and not dispatched yet, with the reference it was offered with. -/
  | waiting (e : EventRef)
  /-- A tablet that could not be encoded, with that reference, before it is offered again. -/
  | deferred (e : EventRef)
  /-- A reference that is about to be dropped. -/
  | spent (e : EventRef)
  /-- Tablets on their way to the peer, with a reference on each. -/
  | sending (events : List EventRef) (payload : Bytes) (asked : Option Request)
  /-- A transfer. The reference on its file belongs to the buffer. -/
  | attempt (a : Attempt) (asked : Option (Sent × Request))
  /-- On its way into the retry queue. -/
  | failed (e : EventRef)
  /-- In the retry queue, or just taken out of it. -/
  | retry (e : EventRef)
  /-- An event that a caller speaks of and keeps. -/
  | guest (e : EventRef)

/-- References on an event that go with an item. -/
def Item.held (id : EventId) : Item → Nat
  | .waiting e | .deferred e | .spent e => if e.id = id then 1 else 0
  | .sending events _ _ => events.countP fun e => e.id = id
  | .failed e | .retry e => if e.event.isBulk then 0 else if e.id = id then 1 else 0
  | .attempt _ _ | .guest _ => 0

def Item.total (f : Item → Nat) (xs : Multiset Item) : Nat := (xs.map f).sum

@[simp]
theorem Item.total_zero (f : Item → Nat) : Item.total f 0 = 0 := rfl

@[simp]
theorem Item.total_add (f : Item → Nat) (xs ys : Multiset Item) :
    Item.total f (xs + ys) = Item.total f xs + Item.total f ys := by
  simp [Item.total]

@[simp]
theorem Item.total_cons (f : Item → Nat) (x : Item) (xs : Multiset Item) :
    Item.total f (x ::ₘ xs) = f x + Item.total f xs := by
  simp [Item.total]

@[simp]
theorem Item.total_singleton (f : Item → Nat) (x : Item) : Item.total f {x} = f x := by
  simp [Item.total]

theorem Item.total_eq_zero {f : Item → Nat} {xs : Multiset Item} (h : ∀ x ∈ xs, f x = 0) :
    Item.total f xs = 0 := by
  refine Multiset.sum_eq_zero fun n hn => ?_
  obtain ⟨x, hx, rfl⟩ := Multiset.mem_map.mp hn
  exact h x hx

theorem Item.le_total (f : Item → Nat) {x : Item} {xs : Multiset Item} (h : x ∈ xs) :
    f x ≤ Item.total f xs := by
  obtain ⟨rest, rfl⟩ := Multiset.exists_cons_of_mem h
  rw [Item.total_cons]
  exact Nat.le_add_right _ _

def Item.Mentions (e : EventRef) : Item → Prop
  | .waiting x | .deferred x | .spent x | .failed x | .retry x | .guest x => x = e
  | .sending events _ _ => e ∈ events
  | .attempt a _ => a.event = e

def After.items : After → Multiset Item
  | .dispatched e _ => {.spent e}
  | .file e _ => {if e.event.isBulk then .waiting e else .spent e}
  | .due | .stop => 0

def Purpose.items : Purpose → Multiset Item
  | .flush after => after.items
  | .retry | .call => 0

def Process.items : Process → Multiset Item
  | .transfer a link => {.attempt a link.asked?}
  | .tablets t link => .sending t.events t.payload link.request? ::ₘ t.purpose.items
  | .pausing e _ => {.deferred e}
  | _ => 0

/-- What a retrieval puts into the hand of the one who asked. -/
def retrieved : Queue.Retrieval → Multiset Item
  | .done (some e) => {.waiting e}
  | .done none | .waiting _ => 0

structure Books (P : Type) where
  ledger : Ledger
  items : Multiset Item
  batch : List EventRef
  payload : P
  batchClosed : Bool
  buffer : List (CommitId × EventRef)
  closed : Bool
  policy : StatusPolicy
  trace : List Occurrence
  ids : Multiset TaskId
  nextTask : TaskId

namespace Books

variable {P : Type}

def held (b : Books P) (id : EventId) : Nat :=
  Item.total (Item.held id) b.items + b.batch.countP (fun e => e.id = id) +
    b.buffer.countP fun entry => entry.2.id = id

def Mentions (b : Books P) (e : EventRef) : Prop :=
  (∃ x ∈ b.items, x.Mentions e) ∨ e ∈ b.batch ∨ ∃ commit, (commit, e) ∈ b.buffer

theorem mentions_of_cons {b : Books P} {x : Item} {rest : Multiset Item} {e : EventRef}
    (here : b.items = x ::ₘ rest) (he : x.Mentions e) : b.Mentions e :=
  .inl ⟨x, here ▸ Multiset.mem_cons_self x rest, he⟩

def buffered? (b : Books P) (commit : CommitId) : Option EventRef := b.buffer.lookup commit

theorem mem_of_buffered? {b : Books P} {commit : CommitId} {e : EventRef}
    (h : b.buffered? commit = some e) : (commit, e) ∈ b.buffer := by
  obtain ⟨before, after, hbuffer, _⟩ := List.lookup_eq_some_iff.mp h
  rw [hbuffer]
  exact List.mem_append_right _ (List.mem_cons_self ..)

/-- Every task has an id of its own, older than the next. -/
def Numbered (b : Books P) : Prop := b.ids.Nodup ∧ ∀ id ∈ b.ids, id < b.nextTask

/-- A request was accepted, or its refusal tolerated. -/
def Took (b : Books P) (request : Request) : Prop :=
  ∃ r name, Occurrence.answered request (.ok r) ∈ b.trace ∧
    Response.isTaken b.policy name r = true

end Books

variable {P : Type}

/-- The tasks beside the one that runs. -/
def others (p : Pipe P) (running : Option TaskId) : List Task :=
  p.tasks.filter fun t => some t.id != running

/-- What lies where events wait, in the queue, before the batch and in the retry queue. -/
def stored (p : Pipe P) : Multiset Item :=
  ↑(p.queue.channels.toList.map Item.waiting) + ↑(p.pending.toList.map Item.deferred) +
    ↑(p.connector.retryQueue.map fun entry => Item.retry entry.event)

/-- The books while a task runs and has some items in its hand. -/
def books (p : Pipe P) (running : Option TaskId) (hand : Multiset Item) : Books P where
  ledger := p.commons.ledger
  items := p.stored + ((p.others running).map fun t => t.process.items).sum + hand
  batch := p.batch.events
  payload := p.batch.payload
  batchClosed := p.batch.closed
  buffer := p.connector.buffer
  closed := p.connector.closed
  policy := p.connector.statusPolicy
  trace := p.trace
  ids := ↑((p.others running).map Task.id) + ↑running.toList
  nextTask := p.nextTask

variable {p : Pipe P} {running : Option TaskId}

theorem books_cons (p : Pipe P) (running : Option TaskId) (x : Item) (hand : Multiset Item) :
    (p.books running (x ::ₘ hand)).items = x ::ₘ (p.books running hand).items :=
  Multiset.add_cons x _ hand

theorem books_add (p : Pipe P) (running : Option TaskId) (xs hand : Multiset Item) :
    (p.books running (xs + hand)).items = xs + (p.books running hand).items :=
  add_left_comm _ xs hand

theorem others_none (p : Pipe P) : p.others none = p.tasks := by
  simp [others]

theorem mem_items_of_task {t : Task} (ht : t ∈ p.tasks) {x : Item} (hx : x ∈ t.process.items) :
    x ∈ (p.books none 0).items := by
  obtain ⟨before, behind, htasks⟩ := List.append_of_mem ht
  have hsum : x ∈ (p.tasks.map fun t => t.process.items).sum := by
    rw [htasks, List.map_append, List.sum_append, List.map_cons, List.sum_cons]
    exact Multiset.mem_add.mpr (.inr (Multiset.mem_add.mpr (.inl hx)))
  rw [← others_none] at hsum
  exact Multiset.mem_add.mpr (.inl (Multiset.mem_add.mpr (.inr hsum)))

/-- A task that waits again has put down what was in its hand. -/
theorem books_setTask (p : Pipe P) (id : TaskId) (process : Process) (hand : Multiset Item) :
    (p.setTask id process).books none hand = p.books (some id) (process.items + hand) := by
  have hothers : (p.setTask id process).others none = p.others (some id) ++ [⟨id, process⟩] := by
    rw [others_none]
    simp only [setTask, others]
    congr 1
  simp only [books, hothers]
  simp [stored, setTask, add_assoc]
  rfl

/-- A task that ends holds nothing; only its id is given up. -/
theorem books_removeTask (p : Pipe P) (id : TaskId) (hand : Multiset Item) :
    p.books (some id) hand = { (p.removeTask id).books none hand with
      ids := id ::ₘ ((p.removeTask id).books none hand).ids } := by
  have hothers : (p.removeTask id).others none = p.others (some id) := by
    rw [others_none]
    rfl
  simp only [books, hothers]
  simp [stored, removeTask, add_comm]

theorem books_spawn (process : Process) (hrunning : running ≠ some p.nextTask)
    (hand : Multiset Item) :
    (p.spawn process).books running hand = { p.books running (process.items + hand) with
      ids := p.nextTask ::ₘ (p.books running (process.items + hand)).ids
      nextTask := p.nextTask + 1 } := by
  have hothers : (p.spawn process).others running =
      p.others running ++ [⟨p.nextTask, process⟩] := by
    simp [spawn, others, Ne.symm hrunning]
  simp only [books, hothers]
  simp [stored, spawn, add_assoc, add_comm, add_left_comm]
  rw [← List.append_assoc]
  exact List.perm_append_singleton _ _

theorem perm_filter_ne {tasks : List Task} {t : Task} (hnodup : (tasks.map Task.id).Nodup)
    (ht : t ∈ tasks) :
    tasks.Perm (t :: tasks.filter fun other => some other.id != some t.id) := by
  induction tasks with
  | nil => cases ht
  | cons u us ih =>
      rw [List.map_cons, List.nodup_cons] at hnodup
      obtain ⟨hu, hus⟩ := hnodup
      cases ht with
      | head =>
          have hall : us.filter (fun other => some other.id != some t.id) = us := by
            apply List.filter_eq_self.mpr
            intro other hother
            have hne : other.id ≠ t.id := fun heq => hu (heq ▸ List.mem_map_of_mem hother)
            simpa using hne
          simp [hall]
      | tail _ ht =>
          have hne : u.id ≠ t.id := fun heq => hu (heq ▸ List.mem_map_of_mem ht)
          rw [List.filter_cons_of_pos (by simpa using hne)]
          exact ((ih hus ht).cons u).trans (List.Perm.swap t u _)

/-- A new task is none of those that there are. -/
theorem others_newTask {hand : Multiset Item} (numbered : (p.books none hand).Numbered) :
    p.newTask.1.others (some p.nextTask) = p.others none := by
  rw [others_none]
  refine List.filter_eq_self.mpr fun t ht => ?_
  have hmem : t.id ∈ (p.books none hand).ids := by
    simp only [books, others_none]
    exact Multiset.mem_add.mpr (.inl (List.mem_map_of_mem ht))
  have hlt : t.id < p.nextTask := numbered.2 t.id hmem
  simpa using Nat.ne_of_lt hlt

/-- The task that begins to run takes into its hand what it held. -/
theorem books_load {id : TaskId} {process : Process} (hnodup : (p.books none 0).ids.Nodup)
    (htask : p.task? id = some process) :
    p.books none 0 = p.books (some id) process.items := by
  have htask' : ∃ t ∈ p.tasks, t.id = id ∧ t.process = process := by
    obtain ⟨t, hfind, hprocess⟩ := Option.map_eq_some_iff.mp htask
    exact ⟨t, List.mem_of_find?_eq_some hfind, by simpa using List.find?_some hfind, hprocess⟩
  obtain ⟨t, ht, rfl, rfl⟩ := htask'
  have hids : (p.books none 0).ids = ↑(p.tasks.map Task.id) := by
    simp [books, others_none]
  rw [hids] at hnodup
  have hperm : p.tasks.Perm (t :: p.others (some t.id)) :=
    perm_filter_ne (Multiset.coe_nodup.mp hnodup) ht
  have hitems := (hperm.map fun t => t.process.items).sum_eq
  have hmap : (↑(p.tasks.map Task.id) : Multiset TaskId) = ↑((p.others (some t.id)).map Task.id) +
      ↑(some t.id).toList := by
    rw [Multiset.coe_eq_coe.mpr (hperm.map Task.id)]
    simp [add_comm]
  simp only [books, others_none, hitems, hmap]
  simp [add_comm, add_left_comm]

end Pipe
end Courier
