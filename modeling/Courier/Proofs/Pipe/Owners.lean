import Courier.Proofs.Pipe.Strangers
import Courier.Proofs.Pipe.Sweeps
import Mathlib.Algebra.GroupWithZero.Nat
import Mathlib.Algebra.Order.Group.Multiset
import Mathlib.Logic.Relation

/-!
The connector of a pipe among those who hand it events, discard them and close it. Whatever they do
in whatever order, a buffered file has one owner.
-/

namespace Courier

open Transfer

namespace Pipe

variable {P : Type} {events : EventId → Event} {owned : EventId → Nat} {b b' : Books P}

section Outsiders

theorem Books.Custody.of_handed {x : Item} (idle : ∀ id, x.tends id = 0)
    (hb : (b.handed x).Custody events) : b.Custody events := by
  have htenders (id : EventId) : b.tenders id = (b.handed x).tenders id := by
    simp only [Books.tenders, Books.handed, Item.total_cons, idle, Nat.zero_add]
  refine hb.next rfl id (fun _ h => h) hb.live ?_ ?_ hb.light ?_
  · exact fun id _ => Nat.le_of_eq (htenders id)
  · exact fun commit e _ => htenders e.id
  · exact fun sent payload asked hmem =>
      hb.lightSent sent payload asked (Multiset.mem_cons_of_mem hmem)

theorem Books.Custody.built (hb : b.Custody events) (retryMs : Nat) :
    (b.enrolled retryMs).Custody events :=
  hb.of_released_eq (Ledger.released_enrol b.ledger retryMs)

theorem Books.Custody.held_outside (hb : b.Custody events) {id : EventId}
    (known : id < b.ledger.entries.size) (took : (b.ledger.hold id).2 = true) :
    ({ b with ledger := (b.ledger.hold id).1 } : Books P).Custody events :=
  hb.of_released_eq fun other => (Ledger.get_hold known took other).2.1

theorem Books.Custody.cleared_outside (hb : b.Custody events) (ha : b.Accounted events owned)
    {id : EventId} (known : id < b.ledger.entries.size)
    (unbuffered : ∀ commit e, (commit, e) ∈ b.buffer → e.id ≠ id) :
    ({ b with ledger := (b.ledger.clear id).1 } : Books P).Custody events := by
  refine hb.recounted ?_ ?_
  · intro other hreleased
    rw [← (Ledger.unreleased_of_clear ha.sane known hreleased).2]
    exact hreleased
  · intro commit e he
    have hsame : (b.ledger.clear id).1.get e.id = b.ledger.get e.id :=
      Ledger.get_update_ne (unbuffered commit e he)
    rw [show (b.ledger.clear id).1.get e.id = _ from hsame]
    exact hb.live commit e he

end Outsiders

section Calls

variable [Batch.Payload P] {lossy : Prop} {p : Pipe P} {hand : Multiset Item}

omit [Batch.Payload P] in
theorem books_newTask (numbered : (p.books none hand).Numbered) :
    p.newTask.1.books (some p.nextTask) hand = { p.books none hand with
      ids := p.nextTask ::ₘ (p.books none hand).ids
      nextTask := p.nextTask + 1 } := by
  simp only [books, others_newTask numbered]
  simp [stored, newTask, add_comm]

/-- A call that may have to wait begins as a task of its own. -/
theorem leads_newTask (p : Pipe P) (hand : Multiset Item) :
    Leads lossy (p.books none hand) (p.newTask.1.books (some p.nextTask) hand) := by
  intro hnumbered
  rw [books_newTask hnumbered]
  exact .single .spawned

theorem leads_callSend (p : Pipe P) (sent : List EventRef) (payload : Bytes) :
    Leads lossy (p.books none {.sending sent payload none})
      ((p.callSend sent payload).1.books none 0) := by
  have habandon (why : sent = [] ∨ p.connector.closed = true) :
      Leads lossy (p.newTask.1.books (some p.nextTask) ({.sending sent payload none} + 0))
        (p.newTask.1.books (some p.nextTask) (↑(sent.map Item.spent) + 0)) :=
    leads_turn (.abandoned why)
  refine (leads_newTask p _).trans ?_
  unfold callSend
  dsimp only
  split
  · rename_i hclosed
    rw [books_setTask, add_zero]
    have hdropped : Leads lossy (p.newTask.1.books (some p.nextTask) (↑(sent.map Item.spent) + 0))
        ((p.newTask.1.dropAll sent).books (some p.nextTask) 0) := leads_dropAll sent
    exact (habandon (.inr hclosed)).trans hdropped
  · split
    · rename_i hempty
      have hnil : sent = [] := List.isEmpty_iff.mp hempty
      subst hnil
      rw [books_setTask, add_zero]
      exact habandon (.inl rfl)
    · exact leads_submit p.newTask.1 p.nextTask { events := sent, payload, purpose := .call }

end Calls

theorem mentions_guest (p : Pipe P) (e : EventRef) : (p.books none {.guest e}).Mentions e :=
  .inl ⟨.guest e, by simp [books], rfl⟩

section Deals

variable [Batch.Payload P] {lossy : Prop}

/-- All that is kept while events are handed to a connector, discarded and closed. -/
structure Books.Guarded (events : EventId → Event) (owned : EventId → Nat) (b : Books P) :
    Prop where
  numbered : b.Numbered
  accounted : b.Accounted events owned
  custody : b.Custody events

theorem Leads.guarded (h : Leads lossy b b') (hb : b.Guarded events owned) :
    b'.Guarded events owned :=
  h.keeps hb.numbered hb fun hmove hc =>
    ⟨hmove.numbered hc.numbered, hmove.accounted hc.accounted,
      hmove.custody hc.accounted hc.custody⟩

theorem guarded_of_new {p : Pipe P} (h : p.IsNew) :
    (p.books none 0).Guarded events fun _ => 0 := by
  have hitems := items_of_new h
  have hbatch : (p.books none 0).batch = [] := h.batch
  have hbuffer : (p.books none 0).buffer = [] := h.buffer
  have hnone {commit : CommitId} {e : EventRef} (he : (commit, e) ∈ (p.books none 0).buffer) :
      False := by
    rw [hbuffer] at he
    cases he
  refine ⟨numbered_of_new h, accounted_of_new h events, ?_, ?_, ?_, ?_, ?_, ?_, ?_, ?_⟩
  · rw [hbuffer]
    exact List.nodup_nil
  · exact fun commit e he => (hnone he).elim
  · exact fun commit e he => (hnone he).elim
  · exact fun commit e he => (hnone he).elim
  · intro id _ _ htended
    rw [Books.tenders, hitems] at htended
    cases htended
  · intro e he
    rw [hbatch] at he
    cases he
  · intro sent payload asked hsent
    rw [hitems] at hsent
    cases hsent
  · exact fun _ => hbuffer

omit [Batch.Payload P] in
/-- Somebody who owns references gives them into a hand, with an item that tends nothing. -/
theorem Books.Guarded.handed (hb : b.Guarded events owned) {x : Item}
    (idle : ∀ id, x.tends id = 0)
    (light : ∀ sent payload asked, x = .sending sent payload asked →
      ∀ e ∈ sent, e.event.isBulk = false)
    (known : ∀ e, x.Mentions e → e.id < b.ledger.entries.size ∧ e.event = events e.id)
    (enough : ∀ id, x.held id ≤ owned id) :
    (b.handed x).Guarded events fun id => owned id - x.held id := by
  refine ⟨hb.numbered, hb.accounted.handed known ?_ enough, hb.custody.handed idle light⟩
  intro a asked heq
  have hidle := idle a.event.id
  rw [heq] at hidle
  simp [Item.tends] at hidle

/-- What is dealt with a connector and the events of a catalogue. Others own references on events
and drop no more than they own; what is buffered they do not clear. Batches are of tablets. -/
inductive Deal (events : EventId → Event) : Scene P → Scene P → Prop
  | built {p : Pipe P} {owned : EventId → Nat} (retryMs : Nat) :
      Deal events ⟨p, owned⟩
        ⟨p.built retryMs, Function.update owned p.commons.ledger.entries.size 1⟩
  | held {p : Pipe P} {owned : EventId → Nat} {id : EventId}
      (known : id < p.commons.ledger.entries.size)
      (took : (p.commons.ledger.hold id).2 = true) :
      Deal events ⟨p, owned⟩
        ⟨p.withLedger (p.commons.ledger.hold id).1, Function.update owned id (owned id + 1)⟩
  | dropped {p : Pipe P} {owned : EventId → Nat} {id : EventId} (here : 0 < owned id) :
      Deal events ⟨p, owned⟩ ⟨p.drop ⟨id, events id⟩, Function.update owned id (owned id - 1)⟩
  | cleared {p : Pipe P} {owned : EventId → Nat} {id : EventId}
      (known : id < p.commons.ledger.entries.size)
      (unbuffered : ∀ commit e, (commit, e) ∈ p.connector.buffer → e.id ≠ id) :
      Deal events ⟨p, owned⟩ ⟨p.withLedger (p.commons.ledger.clear id).1, owned⟩
  | offered {p : Pipe P} {owned : EventId → Nat} {id : EventId} (here : 0 < owned id) :
      Deal events ⟨p, owned⟩
        ⟨(p.offer ⟨id, events id⟩).1, Function.update owned id (owned id - 1)⟩
  | transferred {p : Pipe P} {owned : EventId → Nat} {id : EventId}
      (known : id < p.commons.ledger.entries.size) :
      Deal events ⟨p, owned⟩ ⟨(p.transferFile ⟨id, events id⟩).1, owned⟩
  | sent {p : Pipe P} {owned : EventId → Nat} {sent : List EventRef} (payload : Bytes)
      (light : ∀ e ∈ sent, e.event.isBulk = false) (known : ∀ e ∈ sent, e.event = events e.id)
      (here : ∀ id, sent.countP (fun e => e.id = id) ≤ owned id) :
      Deal events ⟨p, owned⟩
        ⟨(p.callSend sent payload).1, fun id => owned id - sent.countP fun e => e.id = id⟩
  | discarded {p : Pipe P} {owned : EventId → Nat} (pipe : String) (region : Int) :
      Deal events ⟨p, owned⟩ ⟨(p.discard pipe region).1, owned⟩
  | closed {p : Pipe P} {owned : EventId → Nat} : Deal events ⟨p, owned⟩ ⟨p.closeConnector, owned⟩
  | ran {p : Pipe P} {owned : EventId → Nat} (id : TaskId) :
      Deal events ⟨p, owned⟩ ⟨p.run id, owned⟩
  | aside {p p' : Pipe P} {owned : EventId → Nat} (beside : Aside p p') :
      Deal events ⟨p, owned⟩ ⟨p', owned⟩

omit [Batch.Payload P] in
theorem Books.Guarded.given (hb : b.Guarded events owned) {x : Item} {id : EventId}
    (one : x.OneOf ⟨id, events id⟩) (here : 0 < owned id) :
    (b.handed x).Guarded events (Function.update owned id (owned id - 1)) := by
  rw [owned_given one]
  refine hb.handed (fun _ => ?_) (fun sent payload asked heq => ?_) (fun e he => ?_)
    (enough_given one here)
  · cases one <;> rfl
  · rw [heq] at one
    cases one
  · rw [one.mentions he]
    exact ⟨hb.accounted.owning id here, rfl⟩

omit [Batch.Payload P] in
/-- A caller speaks of an event. -/
theorem Books.Guarded.guest (hb : b.Guarded events owned) {id : EventId}
    (known : id < b.ledger.entries.size) :
    (b.handed (.guest ⟨id, events id⟩)).Guarded events owned :=
  hb.handed (x := .guest ⟨id, events id⟩) (fun _ => rfl) (fun _ _ _ heq => by cases heq)
    (fun _ he => he ▸ ⟨known, rfl⟩) fun _ => Nat.zero_le _

omit [Batch.Payload P] in
/-- A caller hands over tablets with a reference on each. -/
theorem Books.Guarded.sending (hb : b.Guarded events owned) {sent : List EventRef}
    (payload : Bytes) (light : ∀ e ∈ sent, e.event.isBulk = false)
    (known : ∀ e ∈ sent, e.event = events e.id)
    (here : ∀ id, sent.countP (fun e => e.id = id) ≤ owned id) :
    (b.handed (.sending sent payload none)).Guarded events
      fun id => owned id - sent.countP fun e => e.id = id := by
  refine hb.handed (x := .sending sent payload none) (fun _ => rfl)
    (fun _ _ _ heq => by cases heq; exact light) (fun e he => ?_) here
  have hpos : 0 < owned e.id :=
    Nat.lt_of_lt_of_le (List.countP_pos_iff.mpr ⟨e, he, by simp⟩) (here e.id)
  exact ⟨hb.accounted.owning e.id hpos, known e he⟩

theorem Deal.guarded {s s' : Scene P} (h : Deal events s s')
    (hs : (s.pipe.books none 0).Guarded events s.owned) :
    (s'.pipe.books none 0).Guarded events s'.owned := by
  obtain ⟨hnumbered, haccounted, hcustody⟩ := hs
  cases h with
  | ran id => exact (leads_run _ id (.inl trivial)).guarded ⟨hnumbered, haccounted, hcustody⟩
  | aside beside =>
      have hbeside : Leads True _ _ := leads_aside beside
      exact hbeside.guarded ⟨hnumbered, haccounted, hcustody⟩
  | built retryMs =>
      exact ⟨hnumbered, haccounted.built retryMs, hcustody.built retryMs⟩
  | held known took =>
      exact ⟨hnumbered, haccounted.held_outside known took, hcustody.held_outside known took⟩
  | cleared known unbuffered =>
      exact ⟨hnumbered, haccounted.cleared_outside known,
        hcustody.cleared_outside haccounted known unbuffered⟩
  | @dropped p owned id here =>
      have hgiven := (Books.Guarded.mk hnumbered haccounted hcustody).given .spent here
      rw [← books_handed] at hgiven
      have hdropped : Leads True (p.books none (.spent ⟨id, events id⟩ ::ₘ 0))
          ((p.drop ⟨id, events id⟩).books none 0) := leads_drop p _
      exact hdropped.guarded hgiven
  | @offered p owned id here =>
      have hgiven := (Books.Guarded.mk hnumbered haccounted hcustody).given .waiting here
      rw [← books_handed] at hgiven
      have hoffered : Leads True _ _ := leads_offer p ⟨id, events id⟩
      exact hoffered.guarded hgiven
  | @transferred p owned id known =>
      have hhanded := (Books.Guarded.mk hnumbered haccounted hcustody).guest known
      rw [← books_handed] at hhanded
      have hleads : Leads True _ _ :=
        (leads_transferFile p (mentions_guest p ⟨id, events id⟩)).1
      have hafter := hleads.guarded hhanded
      rw [books_handed] at hafter
      exact ⟨hafter.numbered, hafter.accounted.of_handed, hafter.custody.of_handed fun _ => rfl⟩
  | @sent p owned sent payload light known here =>
      have hhanded := (Books.Guarded.mk hnumbered haccounted hcustody).sending payload light known
        here
      rw [← books_handed] at hhanded
      have hsent : Leads True _ _ := leads_callSend p sent payload
      exact hsent.guarded hhanded
  | @discarded p owned pipe region =>
      have hswept := swept_discard p pipe region
      exact ⟨hswept.numbered hnumbered, hswept.accounted haccounted,
        hswept.custody haccounted hcustody⟩
  | @closed p owned =>
      cases hclosed : p.connector.closed with
      | true =>
          rw [closeConnector_of_closed hclosed]
          exact ⟨hnumbered, haccounted, hcustody⟩
      | false =>
          have hswept := swept_closeConnector hclosed
          exact ⟨hswept.numbered hnumbered, hswept.accounted haccounted,
            hswept.custody haccounted hcustody⟩

end Deals

section Owners

def Task.transfers (id : EventId) (t : Task) : Bool :=
  match t.process with
  | .transfer a _ => a.event.id = id
  | _ => false

def transfersOf (p : Pipe P) (id : EventId) : Nat := p.tasks.countP (Task.transfers id)

def retriesOf (p : Pipe P) (id : EventId) : Nat :=
  p.connector.retryQueue.countP fun entry => entry.event.id = id

theorem total_tends_after (id : EventId) (after : After) :
    Item.total (Item.tends id) after.items = 0 := by
  cases after with
  | file e loop =>
      refine Item.total_eq_zero fun x hx => ?_
      rw [After.items, Multiset.mem_singleton] at hx
      rw [hx]
      split <;> rfl
  | _ => rfl

theorem total_tends_process (id : EventId) (t : Task) :
    Item.total (Item.tends id) t.process.items = if t.transfers id then 1 else 0 := by
  unfold Task.transfers
  cases t.process with
  | transfer a link => simp [Process.items, Item.tends]
  | tablets send link =>
      simp only [Process.items, Item.total_cons, Item.tends, Nat.zero_add]
      cases send.purpose with
      | flush after => exact total_tends_after id after
      | _ => rfl
  | _ => rfl

/-- Those who tend an event are its transfers and its entries in the retry queue. -/
theorem tenders_books (p : Pipe P) (id : EventId) :
    (p.books none 0).tenders id = p.transfersOf id + p.retriesOf id := by
  have hwaiting : Item.total (Item.tends id) ↑(p.queue.channels.toList.map Item.waiting) = 0 := by
    refine Item.total_eq_zero fun x hx => ?_
    obtain ⟨e, _, rfl⟩ := List.mem_map.mp hx
    rfl
  have hdeferred : Item.total (Item.tends id) ↑(p.pending.toList.map Item.deferred) = 0 := by
    refine Item.total_eq_zero fun x hx => ?_
    obtain ⟨e, _, rfl⟩ := List.mem_map.mp hx
    rfl
  have hretries (entries : List RetryEntry) : Item.total (Item.tends id)
      ↑(entries.map fun entry => Item.retry entry.event) =
        entries.countP fun entry => entry.event.id = id := by
    induction entries with
    | nil => rfl
    | cons entry entries ih =>
        rw [List.map_cons, ← Multiset.cons_coe, Item.total_cons, ih, List.countP_cons]
        simp only [Item.tends, decide_eq_true_eq]
        exact Nat.add_comm _ _
  have htasks (tasks : List Task) : Item.total (Item.tends id)
      (tasks.map fun t => t.process.items).sum = tasks.countP (Task.transfers id) := by
    induction tasks with
    | nil => rfl
    | cons t tasks ih =>
        rw [List.map_cons, List.sum_cons, Item.total_add, total_tends_process, ih, List.countP_cons]
        exact Nat.add_comm _ _
  simp only [Books.tenders, books, stored, others_none, Item.total_add, Item.total_zero, hwaiting,
    hdeferred, hretries, htasks, transfersOf, retriesOf]
  omega

/-- A transfer, or an entry of the retry queue, is there for an event. -/
def Owns (p : Pipe P) (e : EventRef) : Prop :=
  (∃ entry ∈ p.connector.retryQueue, entry.event = e) ∨
    ∃ t ∈ p.tasks, ∃ a link, t.process = .transfer a link ∧ a.event = e

theorem mentions_of_owns {p : Pipe P} {e : EventRef} (h : p.Owns e) :
    (p.books none 0).Mentions e ∧ 0 < (p.books none 0).tenders e.id := by
  rw [tenders_books]
  rcases h with ⟨entry, hentry, rfl⟩ | ⟨t, ht, a, link, hprocess, rfl⟩
  · have hitem : .retry entry.event ∈ (p.books none 0).items := by
      have hstored : Item.retry entry.event ∈ (p.connector.retryQueue.map fun entry =>
          Item.retry entry.event) := List.mem_map.mpr ⟨entry, hentry, rfl⟩
      simp [books, stored, hstored]
    have hpos : 0 < p.retriesOf entry.event.id :=
      List.countP_pos_iff.mpr ⟨entry, hentry, by simp⟩
    exact ⟨.inl ⟨_, hitem, rfl⟩, by omega⟩
  · have hitem : .attempt a link.asked? ∈ (p.books none 0).items := by
      obtain ⟨before, after, htasks⟩ := List.append_of_mem ht
      simp [books, others_none, htasks, hprocess, Process.items]
    have hpos : 0 < p.transfersOf a.event.id :=
      List.countP_pos_iff.mpr ⟨t, ht, by simp [Task.transfers, hprocess]⟩
    exact ⟨.inl ⟨_, hitem, rfl⟩, by omega⟩

variable [Batch.Payload P]

/-- A buffered file has one owner, a transfer or an entry of the retry queue. A file that is not
released and has an owner is what the buffer holds under its commit id. And a transfer leaves every
event alone but its own, also one that has the commit id of its own. -/
theorem buffered_has_one_owner {s s' : Scene P} (new : s.IsNew)
    (reach : Relation.ReflTransGen (Deal events) s s') :
    (∀ commit e, (commit, e) ∈ s'.pipe.connector.buffer →
      s'.pipe.transfersOf e.id + s'.pipe.retriesOf e.id = 1) ∧
    (∀ e, s'.pipe.Owns e → e.event.isBulk = true → s'.pipe.commons.isReleased e = false →
      s'.pipe.connector.buffered? e.event.commit = some e) ∧
    ∀ id a link, s'.pipe.task? id = some (.transfer a link) →
      ∀ e, e.id ≠ a.event.id → LeavesAlone e s'.pipe (s'.pipe.run id) := by
  have hguarded : (s'.pipe.books none 0).Guarded events s'.owned := by
    induction reach with
    | refl =>
        rw [new.owned]
        exact guarded_of_new new.pipe
    | tail _ hdeal ih => exact hdeal.guarded ih
  obtain ⟨_, haccounted, hcustody⟩ := hguarded
  refine ⟨fun commit e he => ?_, fun e howner hbulk hreleased => ?_,
    fun id a link htask e hother => ?_⟩
  · rw [← tenders_books]
    exact hcustody.single commit e he
  · obtain ⟨hmentioned, htended⟩ := mentions_of_owns howner
    have hevent := (haccounted.known e hmentioned).2
    have hpresent := hcustody.present e.id (hevent ▸ hbulk) hreleased htended
    rw [← hevent] at hpresent
    exact hcustody.buffered?_eq hpresent
  · exact leavesAlone_run hother s'.pipe htask

/-- A file is discarded under way, and a newer one of the same commit is taken on. -/
theorem buffered_has_one_owner_after_discard :
    let event : Event := {
      content := .file { data := "/d", mods := none, flushPoints := 0 }, pipe := "", region := 0
      commit := .zero, progress := 0 }
    let p : Pipe Batch.PlainPayload := {
      commons := {}
      queue := { pipe := "q", settings := {}, block := 0 }
      batch := { id := "b", maxDelayMs := 1, slice := 0, payload := {} }
      connector := .create "c" {}
      clients := .ofClients [0]
      disk := {}
      peer := {} }
    let discarded := ((((p.built 0).built 0).transferFile ⟨0, event⟩).1.discard "" 0).1
    let p' := (discarded.transferFile ⟨1, event⟩).1
    (.zero, ⟨1, event⟩) ∈ p'.connector.buffer ∧ p'.transfersOf 1 + p'.retriesOf 1 = 1 ∧
      LeavesAlone ⟨1, event⟩ p' (p'.run 0) := by
  intro event p discarded p'
  have hbuffer : p'.connector.buffer = [(.zero, ⟨1, event⟩)] := by
    unfold p' discarded event
    decide +kernel
  have htask : p'.task? 0 = some (.transfer {
      event := ⟨0, event⟩, file := { data := "/d", mods := none, flushPoints := 0 }
      dataName := "d", modsName := none, bufferBytes := 8388608, timeoutMs := 60000, node := 0
      createdAt := 0 } .asking) := by
    unfold p' discarded event
    rfl
  have hfirst : 0 < ((p.built 0).built 0).commons.ledger.entries.size := by decide
  have hsecond : 1 < discarded.commons.ledger.entries.size := by
    unfold discarded event
    decide +kernel
  have new : Scene.IsNew ⟨p, fun _ => 0⟩ :=
    ⟨⟨rfl, rfl, rfl, rfl, rfl, rfl, rfl, rfl, rfl, rfl, rfl⟩, rfl⟩
  let owned : EventId → Nat := Function.update (Function.update (fun _ => 0) 0 1) 1 1
  have hbegun : Deal (fun _ => event) ⟨(p.built 0).built 0, owned⟩
      ⟨(((p.built 0).built 0).transferFile ⟨0, event⟩).1, owned⟩ := .transferred hfirst
  have hrenewed : Deal (fun _ => event) ⟨discarded, owned⟩ ⟨p', owned⟩ := .transferred hsecond
  have reach : Relation.ReflTransGen (Deal fun _ => event) ⟨p, fun _ => 0⟩ ⟨p', owned⟩ :=
    .head (.built 0) (.head (.built 0) (.head hbegun (.head (.discarded "" 0) (.single hrenewed))))
  obtain ⟨single, _, alone⟩ := buffered_has_one_owner new reach
  dsimp only at single alone
  have hmem : (.zero, ⟨1, event⟩) ∈ p'.connector.buffer := by
    rw [hbuffer]
    exact List.mem_singleton_self _
  have hsingle : p'.transfersOf 1 + p'.retriesOf 1 = 1 := single .zero ⟨1, event⟩ hmem
  exact ⟨hmem, hsingle, alone 0 _ _ htask _ Nat.one_ne_zero⟩

end Owners

end Pipe
end Courier
