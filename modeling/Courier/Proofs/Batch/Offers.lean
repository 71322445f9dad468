import Courier.Batch.Accumulator
import Courier.Proofs.Batch.Payload
import Courier.Proofs.Ledger
import Courier.Proofs.Memory.Slices

/-!
One event offered to a batch of tablets. The batch accepts it and keeps a reference of its own, or
it leaves everything as it was: the reference it took to find out is dropped again.
-/

namespace Courier
namespace Batch

/-- A tablet whose lengths have an encoding. -/
def isEncodable (e : Event) : Bool :=
  match e.content with
  | .tablet t => t.target.utf8ByteSize < lengthBound && t.payload.length < lengthBound
  | _ => false

theorem PlainPayload.takes_iff {e : Event} : Takes e ↔ isEncodable e = true := by
  unfold Takes construct isEncodable
  cases e.content with
  | tablet t =>
      dsimp only
      rw [Bool.and_eq_true, decide_eq_true_eq, decide_eq_true_eq]
      split
      · simp only [reduceCtorEq, false_iff]
        omega
      · split
        · simp only [reduceCtorEq, false_iff]
          omega
        · simp only [true_iff]
          omega
  | heartbeat | file => simp

namespace Accumulator

variable {b b' b'' : Accumulator PlainPayload} {c c' c'' : Commons} {e : EventRef}

/-- What the batch holds is as it was, and nobody has a reference more or less. -/
structure Stays (b b' : Accumulator PlainPayload) (c c' : Commons) : Prop where
  slice : b'.slice = b.slice
  events : b'.events = b.events
  payload : b'.payload = b.payload
  firstAt : b'.firstAt = b.firstAt
  closed : b'.closed = b.closed
  entry : ∀ id, c'.ledger.get id = c.ledger.get id
  size : c'.ledger.entries.size = c.ledger.entries.size
  use : c'.memory.useOf b.slice = c.memory.useOf b.slice

theorem Stays.refl (b : Accumulator PlainPayload) (c : Commons) : b.Stays b c c :=
  ⟨rfl, rfl, rfl, rfl, rfl, fun _ => rfl, rfl, rfl⟩

theorem Stays.trans (h : b.Stays b' c c') (h' : b'.Stays b'' c' c'') : b.Stays b'' c c'' :=
  ⟨h'.slice.trans h.slice, h'.events.trans h.events, h'.payload.trans h.payload,
    h'.firstAt.trans h.firstAt, h'.closed.trans h.closed,
    fun id => (h'.entry id).trans (h.entry id), h'.size.trans h.size,
    by rw [← h.slice, h'.use, h.slice, h.use]⟩

/-- Being found due is not a change. -/
theorem stays_checkDue (b : Accumulator PlainPayload) (c : Commons) :
    b.Stays (b.checkDue c).1 c (b.checkDue c).2.1 := by
  unfold checkDue
  split
  · exact .refl b c
  · split
    · exact .refl b c
    · refine ⟨rfl, rfl, rfl, rfl, rfl, fun _ => rfl, rfl, ?_⟩
      simp only [onSlice, Memory.Context.useOf, Memory.Context.onBudget]
      cases c.memory.budget with
      | none => rfl
      | some budget => exact Memory.Budget.useOf_sample _ _ _

/-- An event that no reference can be taken on or that has no place in a batch leaves no trace. -/
theorem stays_add (refused : ¬ (0 < (c.ledger.get e.id).count ∧ PlainPayload.Takes e.event)) :
    b.Stays (b.add c e).1 c (b.add c e).2.1 := by
  cases htook : (c.ledger.hold e.id).2 with
  | false =>
      have hadd : b.add c e = (b, (c.hold e).1, none) := by
        simp only [add, Commons.hold, htook]
      rw [hadd]
      exact ⟨rfl, rfl, rfl, rfl, rfl, Ledger.get_hold_of_fails htook, Ledger.size_update _ _ _, rfl⟩
  | true =>
      have hpos : 0 < (c.ledger.get e.id).count := Lifecycle.hold_eq_true_iff.mp htook
      have hadd : (b.add c e).1 = b ∧ (b.add c e).2.1 = ((c.hold e).1.drop e).1 := by
        cases hconstruct : b.payload.construct e.event with
        | mk payload result =>
            have hwithout : result ≠ .ok true := by
              rintro rfl
              exact refused ⟨hpos, (PlainPayload.construct_ok_true hconstruct).1⟩
            obtain rfl := PlainPayload.construct_without hconstruct hwithout
            simp only [add, Commons.hold, htook, Payload.construct, hconstruct]
            rcases result with error | _ | _
            · exact ⟨rfl, rfl⟩
            · exact ⟨rfl, rfl⟩
            · exact absurd rfl hwithout
      rw [hadd.1, hadd.2]
      refine ⟨rfl, rfl, rfl, rfl, rfl, Ledger.get_drop_hold htook, ?_, rfl⟩
      exact (Ledger.size_update _ _ _).trans (Ledger.size_update _ _ _)

/-- An accepted event is kept with a reference of its own. -/
theorem add_of_accepted (alive : 0 < (c.ledger.get e.id).count)
    (takes : PlainPayload.Takes e.event) :
    b.add c e = ((b.keep (c.hold e).1 e ⟨b.payload.bytes ++ encoding e.event⟩).1,
      (b.keep (c.hold e).1 e ⟨b.payload.bytes ++ encoding e.event⟩).2, none) := by
  have htook : (c.ledger.hold e.id).2 = true := Lifecycle.hold_eq_true_iff.mpr alive
  have hconstruct :
      b.payload.construct e.event = (⟨b.payload.bytes ++ encoding e.event⟩, .ok true) := by
    rw [PlainPayload.construct_eq, written_eq_encoding takes]
    exact congrArg _ takes
  simp only [add, Commons.hold, htook, Payload.construct, hconstruct]

/-- What the batch accepts: while it is open, a tablet that somebody still holds, that can be
encoded and that is not the one it accepted last. -/
def accepts (b : Accumulator PlainPayload) (c : Commons) (e : EventRef) : Bool :=
  !b.closed && b.events.getLast?.map EventRef.id != some e.id &&
    0 < (c.ledger.get e.id).count && isEncodable e.event

theorem endsWith_eq (b : Accumulator PlainPayload) (e : EventRef) :
    b.endsWith e = (b.events.getLast?.map EventRef.id == some e.id) := by
  unfold endsWith
  cases b.events.getLast? <;> rfl

theorem accepts_iff : b.accepts c e = true ↔ b.closed = false ∧ b.endsWith e = false ∧
    0 < (c.ledger.get e.id).count ∧ PlainPayload.Takes e.event := by
  simp only [accepts, PlainPayload.takes_iff, endsWith_eq, bne, Bool.and_eq_true,
    Bool.not_eq_true', decide_eq_true_eq, and_assoc]

theorem stays_onEvent (refused : b.accepts c e = false) :
    b.Stays (b.onEvent c e).1 c (b.onEvent c e).2.1 := by
  have hrefused := mt accepts_iff.mpr (Bool.eq_false_iff.mp refused)
  unfold onEvent
  split
  · exact .refl b c
  · rename_i hopen
    have hadded : b.Stays (if b.endsWith e then (b, c, none) else b.add c e).1 c
        (if b.endsWith e then (b, c, none) else b.add c e).2.1 := by
      split
      · exact .refl b c
      · rename_i hnew
        exact stays_add fun h =>
          hrefused ⟨Bool.eq_false_iff.mpr hopen, Bool.eq_false_iff.mpr hnew, h⟩
    generalize (if b.endsWith e then (b, c, none) else b.add c e) = added at hadded ⊢
    obtain ⟨b₁, c₁, _ | error⟩ := added
    · exact hadded.trans (stays_checkDue b₁ c₁)
    · exact hadded

theorem onEvent_of_accepted (accepted : b.accepts c e = true) :
    ∃ kept, kept = b.keep (c.hold e).1 e ⟨b.payload.bytes ++ encoding e.event⟩ ∧
      kept.1.Stays (b.onEvent c e).1 kept.2 (b.onEvent c e).2.1 ∧
      ∃ due, (b.onEvent c e).2.2 = .ok due := by
  obtain ⟨hopen, hnew, halive, htakes⟩ := accepts_iff.mp accepted
  refine ⟨_, rfl, ?_⟩
  simp only [onEvent, hopen, hnew, Bool.false_eq_true, if_false, add_of_accepted halive htakes]
  exact ⟨stays_checkDue _ _, _, rfl⟩

end Accumulator
end Batch
end Courier
