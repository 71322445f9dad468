import Courier.Proofs.Memory.Holdings

/-!
What is used of a slice of the batch budget, and whether the slice is closed. A batch reports the
one and closes the other; sharing the bytes of the budget anew, which a sample or another batch may
bring about, changes neither.
-/

namespace Courier
namespace Memory

namespace Budget

/-- The bytes that are used of a slice, and whether it is closed. -/
def useOf (b : Budget) (id : Nat) : Option (Nat × Bool) :=
  (b.slice? id).map fun s => (s.usage, s.closed)

variable {b : Budget} {id : Nat}

theorem map_serve (bytes : Nat) (slices : List Slice) :
    (serve bytes slices).map (fun s => (s.usage, s.closed)) =
      slices.map fun s => (s.usage, s.closed) := by
  induction slices generalizing bytes with
  | nil => rfl
  | cons s rest ih =>
      unfold serve
      split <;> simp only [List.map_cons, ih]

/-- Sharing the bytes anew is nothing that is used. -/
theorem useOf_rebalance (b : Budget) (id : Nat) : b.rebalance.useOf id = b.useOf id := by
  simp only [useOf, slice?, rebalance, ← List.getElem?_map, map_serve]

theorem useOf_update (b : Budget) (id : Nat) (f : Slice → Slice) :
    (b.update id f).useOf id = (b.slice? id).map fun s => ((f s).usage, (f s).closed) := by
  simp only [useOf, slice?, update, List.getElem?_modify_eq, Option.map_eq_map,
    Option.map_map, Function.comp_def]

theorem useOf_update_efficiency (b : Budget) (id : Nat) (average : Option Float) :
    (b.update id fun s => { s with efficiency := average }).useOf id = b.useOf id :=
  b.useOf_update id _

theorem useOf_sample (b : Budget) (id : Nat) (ratio : Float) :
    (b.sample id ratio).useOf id = b.useOf id := by
  rcases b.sample_eq id ratio with hsame | ⟨s, average, -, -, hshared | ⟨-, hmoved⟩⟩
  · rw [hsame]
  · rw [hshared, useOf_rebalance, useOf_update_efficiency]
  · rw [hmoved, useOf_update_efficiency]

theorem useOf_register (b : Budget) (requested : Nat) :
    (b.register requested).useOf b.slices.length = some (0, false) := by
  rw [register, useOf_rebalance, useOf, slice?, List.getElem?_concat_length]
  rfl

theorem useOf_addUsage {used : Nat} {closed : Bool} (h : b.useOf id = some (used, closed))
    (bytes : Nat) : (b.addUsage id bytes).useOf id = some (Word.add used bytes, closed) := by
  obtain ⟨s, hs, hused⟩ := Option.map_eq_some_iff.mp h
  obtain ⟨rfl, rfl⟩ := Prod.mk.inj hused
  rw [addUsage, useOf_update, hs]
  rfl

theorem grantOf_addUsage (b : Budget) (id bytes : Nat) :
    (b.addUsage id bytes).grantOf id = b.grantOf id := by
  simp only [grantOf, slice?, addUsage, update, List.getElem?_modify_eq]
  cases b.slices[id]? <;> rfl

theorem useOf_resetUsage {used : Nat} {closed : Bool} (h : b.useOf id = some (used, closed)) :
    (b.resetUsage id).useOf id = some (0, closed) := by
  obtain ⟨s, hs, hused⟩ := Option.map_eq_some_iff.mp h
  obtain ⟨rfl, rfl⟩ := Prod.mk.inj hused
  rw [resetUsage, useOf_update, hs]
  rfl

theorem useOf_close {used : Nat} (h : b.useOf id = some (used, false)) :
    (b.close id).useOf id = some (0, true) := by
  obtain ⟨s, hs, hused⟩ := Option.map_eq_some_iff.mp h
  obtain ⟨rfl, hopen⟩ := Prod.mk.inj hused
  simp only [close, hs, hopen, Bool.false_eq_true, if_false]
  rw [useOf_rebalance, useOf_update, hs]
  rfl

end Budget

namespace Context

/-- The bytes that are used of a slice, and whether it is closed. -/
def useOf (c : Context) (slice : Nat) : Option (Nat × Bool) := c.budget.bind (·.useOf slice)

theorem useOf_onBudget {c : Context} {slice : Nat} {use use' : Nat × Bool}
    {f : Budget → Budget} (h : c.useOf slice = some use)
    (step : ∀ b : Budget, b.useOf slice = some use → (f b).useOf slice = some use') :
    (c.onBudget f).useOf slice = some use' := by
  obtain ⟨b, hb, huse⟩ := Option.bind_eq_some_iff.mp h
  simp only [useOf, onBudget, hb, Option.map_some, Option.bind_some, step b huse]

theorem grantOf_addUsage (c : Context) (slice bytes : Nat) :
    (c.onBudget fun b => b.addUsage slice bytes).grantOf slice = c.grantOf slice := by
  unfold grantOf onBudget
  cases c.budget with
  | none => rfl
  | some b => exact b.grantOf_addUsage slice bytes

theorem useOf_registerSlice (c : Context) (requested : Nat) :
    (c.withBudget.registerSlice requested).useOf c.withBudget.sliceCount = some (0, false) := by
  obtain ⟨b, hb⟩ : ∃ b, c.withBudget.budget = some b := by
    unfold withBudget
    split
    · exact ⟨_, ‹_›⟩
    · exact ⟨_, rfl⟩
  have hagain : c.withBudget.withBudget = c.withBudget := by
    rw [withBudget.eq_def c.withBudget, hb]
  simp only [registerSlice, hagain, useOf, onBudget, sliceCount, hb, Option.map_some,
    Option.bind_some, Budget.useOf_register]

end Context
end Memory
end Courier
