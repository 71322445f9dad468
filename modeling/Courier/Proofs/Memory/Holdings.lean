import Courier.Memory.Holdings

/-!
Histories of the memory of a process. An operation moves the context or leaves it as it is, so what
every operation of a context keeps holds after every history; nothing refused moves anything.
-/

namespace Courier
namespace Memory

theorem ok_of_map {α β : Type} {granted : Except MemoryError α} {f : α → β} {b : β}
    (h : granted.map f = .ok b) : ∃ a, granted = .ok a ∧ b = f a := by
  cases granted with
  | ok a => exact ⟨a, rfl, (Except.ok.inj h).symm⟩
  | error _ => cases h

theorem error_of_map_iff {α β : Type} {granted : Except MemoryError α} {f : α → β} :
    (∃ error, granted.map f = .error error) ↔ ∃ error, granted = .error error := by
  cases granted <;> simp [Except.map]

/-- A sample changes nothing, or the average of an open slice. Shares are made anew unless that
stays on its side of the line. -/
theorem Budget.sample_eq (b : Budget) (id : Nat) (ratio : Float) :
    b.sample id ratio = b ∨ ∃ s average, b.slice? id = some s ∧ s.closed = false ∧
      (b.sample id ratio = (b.update id fun s => { s with efficiency := average }).rebalance ∨
        Slice.isOnTime average = Slice.isOnTime s.efficiency ∧
          b.sample id ratio = b.update id fun s => { s with efficiency := average }) := by
  cases hs : b.slice? id with
  | none => exact .inl (by simp only [sample, hs])
  | some s =>
      simp only [sample, hs]
      generalize some (Slice.smooth s.efficiency _) = average
      split
      · exact .inl rfl
      · rename_i hcounts
        refine .inr ⟨s, average, rfl, ?_, ?_⟩
        · cases hclosed : s.closed with
          | true => simp [hclosed] at hcounts
          | false => rfl
        · split
          · exact .inl rfl
          · rename_i hstays
            rw [bne_iff_ne, Classical.not_not] at hstays
            exact .inr ⟨hstays.symm, rfl⟩

namespace Context

variable {c c' : Context}

theorem of_allocate {p : Pool} {bytes : Nat} (h : c.allocate p bytes = .ok c') :
    ∃ m b, c.manager.allocate p bytes = .ok (m, b) ∧
      c' = { c with manager := m, blocks := c.blocks ++ [b] } := by
  obtain ⟨⟨m, b⟩, hgrant, hmoved⟩ := ok_of_map h
  exact ⟨m, b, hgrant, hmoved⟩

theorem of_resize {id size : Nat} (h : c.resize id size = .ok c') :
    c' = c ∨ ∃ b m b', c.block? id = some b ∧ b.resize c.manager size = .ok (m, b') ∧
      c' = { c with manager := m, blocks := c.blocks.set id b' } := by
  cases hb : c.block? id with
  | none =>
      rw [resize, hb] at h
      exact .inl (Except.ok.inj h).symm
  | some b =>
      rw [resize, hb] at h
      obtain ⟨⟨m, b'⟩, hgrant, hmoved⟩ := ok_of_map h
      exact .inr ⟨b, m, b', rfl, hgrant, hmoved⟩

end Context

namespace Holdings

/-- What is held after a history. -/
def after (h : Holdings) (ops : List Operation) : Holdings :=
  ops.foldl (fun h o => (h.perform o).1) h

variable {h : Holdings} {P : Context → Prop}

theorem kept_grant {granted : Except MemoryError Context} (reply : Reply MemoryError)
    (stays : P h.context) (moves : ∀ c, granted = .ok c → P c) :
    P (h.grant reply granted).1.context := by
  cases granted with
  | ok c => exact moves c rfl
  | error _ => exact stays

/-- What is gone cannot be moved. -/
theorem kept_if_held {held : Prop} [Decidable held] {moved left : Holdings × Reply MemoryError}
    (stays : P left.1.context) (moves : P moved.1.context) :
    P (if held then moved else left).1.context := by
  split
  · exact moves
  · exact stays

theorem grant_of_failure {granted : Except MemoryError Context} {reply : Reply MemoryError}
    {error : MemoryError} (granting : ∀ e, reply ≠ .failure e)
    (refused : (h.grant reply granted).2 = .failure error) : (h.grant reply granted).1 = h := by
  cases granted with
  | ok _ => exact absurd refused (granting error)
  | error _ => rfl

theorem grant_failure_iff {granted : Except MemoryError Context} {reply : Reply MemoryError}
    (granting : ∀ e, reply ≠ .failure e) :
    (∃ error, (h.grant reply granted).2 = .failure error) ↔ ∃ error, granted = .error error := by
  cases granted with
  | ok _ => simp [grant, granting]
  | error _ => simp [grant]

/-- Who is refused finds everything as it was. -/
theorem perform_of_failure {o : Operation} {error : MemoryError}
    (refused : (h.perform o).2 = .failure error) : (h.perform o).1 = h := by
  cases o with
  | allocate | allocateQueue | allocateEmpty => exact grant_of_failure nofun refused
  | resize id size =>
      simp only [perform] at refused ⊢
      split at refused
      · rename_i hheld
        rw [if_pos hheld]
        exact grant_of_failure nofun refused
      · cases refused
  | addUsage id | reduceUsage id | close id | letGo id | addSliceUsage id | reduceSliceUsage id
  | resetSliceUsage id | sample id | closeSlice id | letGoSlice id =>
      simp only [perform, onBlock, onSlice] at refused
      split at refused <;> cases refused
  | openBudget | register | rebalance => cases refused

end Holdings
end Memory
end Courier
