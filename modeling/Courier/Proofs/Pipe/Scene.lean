import Courier.Pipe.Calls
import Courier.Proofs.Pipe.Accounts
import Courier.Proofs.Pipe.Step

/-!
A pipe among those who build events, offer them and let time pass.
-/

namespace Courier

open Transfer

namespace Pipe

variable {P : Type} [Batch.Payload P] {lossy : Prop} {p p' : Pipe P}

/-- A pipe, and how many references others own on every event. -/
structure Scene (P : Type) where
  pipe : Pipe P
  owned : EventId → Nat

structure IsNew (p : Pipe P) : Prop where
  ledger : p.commons.ledger.entries = #[]
  queue : p.queue.channels.toList = []
  pending : p.pending = none
  batch : p.batch.events = []
  payload : Batch.Payload.size p.batch.payload = 0
  batchOpen : p.batch.closed = false
  buffer : p.connector.buffer = []
  retryQueue : p.connector.retryQueue = []
  unclosed : p.connector.closed = false
  tasks : p.tasks = []
  trace : p.trace = []

structure Scene.IsNew (s : Scene P) : Prop where
  pipe : s.pipe.IsNew
  owned : s.owned = fun _ => 0

theorem items_of_new (h : p.IsNew) : (p.books none 0).items = 0 := by
  simp [books, others_none, stored, h.queue, h.pending, h.retryQueue, h.tasks]

omit [Batch.Payload P] in
theorem numbered_of_tasks (tasks : p.tasks = []) : (p.books none 0).Numbered := by
  have hids : (p.books none 0).ids = 0 := by
    simp [books, others_none, tasks]
  rw [Books.Numbered, hids]
  exact ⟨Multiset.nodup_zero, fun _ hid => absurd hid (Multiset.notMem_zero _)⟩

theorem numbered_of_new (h : p.IsNew) : (p.books none 0).Numbered := numbered_of_tasks h.tasks

theorem accounted_of_new (h : p.IsNew) (events : EventId → Event) :
    (p.books none 0).Accounted events fun _ => 0 := by
  have hitems := items_of_new h
  have hbatch : (p.books none 0).batch = [] := h.batch
  have hbuffer : (p.books none 0).buffer = [] := h.buffer
  have hsize : (p.books none 0).ledger.entries.size = 0 := by
    simp [books, h.ledger]
  refine ⟨fun id => ?_, ?_, ?_, fun _ hid => absurd hid (Nat.lt_irrefl 0), fun id hid => ?_⟩
  · rw [Ledger.get_of_le (by rw [hsize]; exact Nat.zero_le id)]
    exact Lifecycle.isSane_fresh _
  · rintro e (⟨i, hi, _⟩ | hmem | ⟨commit, hmem⟩)
    · rw [hitems] at hi
      cases hi
    · rw [hbatch] at hmem
      cases hmem
    · rw [hbuffer] at hmem
      cases hmem
  · intro a asked ha
    rw [hitems] at ha
    cases ha
  · rw [hsize] at hid
    cases hid

/-- What happens around the events of a pipe: time passes, files and peer change, other pipes take
memory and slots, tasks are started or told to stop. -/
inductive Aside (p : Pipe P) : Pipe P → Prop
  | clock (now : Nat) : Aside p (p.setClock now)
  | surroundings (disk : Disk) (peer : Peer) (clients : ClientPool) :
      Aside p { p with disk, peer, clients }
  | neighbours (memory : Memory.Context) (slots : Slots) :
      Aside p { p with commons := { p.commons with memory, slots } }
  | shutdownQueue : Aside p p.shutdownQueue
  | startWorker : Aside p p.startWorker
  | cancelWorker : Aside p p.cancelWorker
  | startConsumer : Aside p p.startConsumer
  | cancelConsumer : Aside p p.cancelConsumer
  | waitIdle (ms : Nat) : Aside p (p.callWaitIdle ms).1

omit [Batch.Payload P] in
theorem books_cancel (p : Pipe P) (id? : Option TaskId) (running : Option TaskId)
    (hand : Multiset Item) :
    (p.cancel id?).books running hand = p.books running hand := by
  cases id? <;> rfl

theorem leads_aside (h : Aside p p') : Leads lossy (p.books none 0) (p'.books none 0) := by
  have hstart (p : Pipe P) (process : Process) (hempty : process.items = 0) :
      Leads lossy (p.books none 0) ((p.spawn process).books none 0) := by
    have hspawn : Leads lossy (p.books none (process.items + 0)) ((p.spawn process).books none 0) :=
      leads_spawn p process
    rwa [hempty, zero_add] at hspawn
  cases h with
  | clock | surroundings | neighbours | shutdownQueue => exact .refl _
  | cancelWorker => exact .of_eq (books_cancel p p.worker none 0).symm
  | cancelConsumer => exact .of_eq (books_cancel p p.consumer none 0).symm
  | startWorker => exact hstart { p with worker := some p.nextTask } .looking rfl
  | startConsumer => exact hstart { p with consumer := some p.nextTask } .consuming rfl
  | waitIdle ms => exact hstart p (.idling (p.now + ms) none) rfl

/-- An event that is offered waits, unless it is a heartbeat behind another. -/
theorem leads_offer (p : Pipe P) (e : EventRef) :
    Leads lossy (p.books none {.waiting e}) ((p.offer e).1.books none 0) := by
  cases hpush : p.queue.channels.push? e with
  | none =>
      have hbeat := Queue.Channels.isHeartbeat_of_push?_none hpush
      have hoffer : (p.offer e).1.books none 0 = (p.drop e).books none 0 := by
        simp only [offer, Queue.Realtime.offer, hpush]
        rfl
      have hdropped : Leads lossy (p.books none (.waiting e ::ₘ 0)) ((p.drop e).books none 0) :=
        leads_drop_routed (.heartbeat hbeat)
      rw [hoffer]
      exact hdropped
  | some channels =>
      have hitems : (↑(channels.toList.map Item.waiting) : Multiset Item) =
          .waiting e ::ₘ ↑(p.queue.channels.toList.map Item.waiting) :=
        Multiset.coe_eq_coe.mpr ((Queue.Channels.perm_push hpush).map Item.waiting)
      apply Leads.of_eq
      simp only [offer, Queue.Realtime.offer, hpush, Queue.Realtime.withChannels]
      simp only [books, stored, others, hitems]
      congr 1
      simp only [← Multiset.singleton_add]
      ac_rfl

omit [Batch.Payload P] in
theorem channels_offer (p : Pipe P) (e : EventRef) :
    (p.offer e).1.queue.channels = (p.queue.channels.push? e).getD p.queue.channels := by
  cases hpush : p.queue.channels.push? e with
  | none => simp only [offer, Queue.Realtime.offer, hpush, Option.getD_none]
  | some channels =>
      simp only [offer, Queue.Realtime.offer, hpush, Option.getD_some]
      rfl

omit [Batch.Payload P] in
theorem size_offer (p : Pipe P) (e : EventRef) :
    (p.offer e).1.commons.ledger.entries.size = p.commons.ledger.entries.size := by
  cases hpush : p.queue.channels.push? e with
  | none =>
      simp only [offer, Queue.Realtime.offer, hpush]
      exact Ledger.size_update _ _ _
  | some channels => simp only [offer, Queue.Realtime.offer, hpush]

def built (p : Pipe P) (retryMs : Nat) : Pipe P := p.withLedger (p.commons.ledger.enrol retryMs)

omit [Batch.Payload P] in
theorem books_handed (p : Pipe P) (x : Item) :
    p.books none {x} = (p.books none 0).handed x := by
  have hitems := books_cons p none x 0
  simp only [books, Books.handed] at hitems ⊢
  congr 1

end Pipe
end Courier
