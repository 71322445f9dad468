import Courier.Event.Ledger

/-!
How one operation changes the ledger: the entry it names, and no other.
-/

namespace Courier

namespace Lifecycle

/-- No holder is left exactly when the event is released, and then its hook has run once. -/
structure IsSane (l : Lifecycle) : Prop where
  released_iff : l.released = true ↔ l.count = 0
  releases_eq : l.releases = if l.released then 1 else 0

variable {l : Lifecycle}

theorem isSane_fresh (retryMs : Nat) : IsSane { retryMs } :=
  ⟨by simp, rfl⟩

theorem hold_eq_true_iff : l.hold.2 = true ↔ 0 < l.count := by
  unfold hold
  split <;> simp_all

theorem hold_of_pos (h : 0 < l.count) : l.hold.1 = { l with count := l.count + 1 } := by
  simp [hold, h]

theorem IsSane.count_eq_zero_of_released (h : l.IsSane) (hr : l.released = true) : l.count = 0 :=
  h.released_iff.mp hr

theorem IsSane.count_pos (h : l.IsSane) (hr : l.released = false) : 0 < l.count := by
  have hne : l.count ≠ 0 := fun hzero => by
    rw [h.released_iff.mpr hzero] at hr
    cases hr
  exact Nat.pos_of_ne_zero hne

theorem IsSane.hold (h : l.IsSane) : l.hold.1.IsSane := by
  unfold Lifecycle.hold
  split
  · rename_i hpos
    refine ⟨?_, h.releases_eq⟩
    have hne : l.released ≠ true := fun hr => by
      rw [h.released_iff.mp hr] at hpos
      exact Nat.lt_irrefl 0 hpos
    simp [hne]
  · exact h

theorem IsSane.release_zero (h : l.IsSane) :
    ({ l with count := 0 } : Lifecycle).release.IsSane := by
  unfold release
  split
  · rename_i hr
    exact ⟨by simpa using hr, h.releases_eq⟩
  · rename_i hr
    have hzero : l.releases = 0 := by
      rw [h.releases_eq]
      simp_all
    exact ⟨by simp, by simp [hzero]⟩

theorem IsSane.drop (h : l.IsSane) : l.drop.1.IsSane := by
  unfold Lifecycle.drop
  split
  · exact h
  · split
    · exact h.release_zero
    · rename_i hzero hone
      refine ⟨?_, h.releases_eq⟩
      have hne : l.released ≠ true := fun hr => hzero (h.released_iff.mp hr)
      refine iff_of_false hne ?_
      dsimp only
      omega

theorem IsSane.clear (h : l.IsSane) : l.clear.1.IsSane := by
  unfold Lifecycle.clear
  split
  · exact h.release_zero
  · exact h

/-- A drop takes one holder from an event that keeps others, and releases one that had no other. -/
theorem IsSane.drop_unreleased (h : l.IsSane) (hr : l.drop.1.released = false) :
    l.released = false ∧ l.count = l.drop.1.count + 1 ∧ 1 ≤ l.drop.1.count := by
  have hsane := h.drop.count_pos hr
  unfold Lifecycle.drop at hr hsane ⊢
  split at hr
  · rename_i hzero
    rw [h.released_iff.mpr hzero] at hr
    cases hr
  · split at hr
    · unfold release at hr
      split at hr <;> simp_all
    · rename_i hzero hone
      simp only [hzero, hone, if_false] at hsane ⊢
      exact ⟨hr, by omega, by omega⟩

theorem count_of_drop_released (hr : l.released = false) (hd : l.drop.1.released = true) :
    l.count = 1 := by
  unfold Lifecycle.drop at hd
  split at hd
  · rw [hr] at hd
    cases hd
  · split at hd
    · assumption
    · rw [hr] at hd
      cases hd

theorem IsSane.clear_released (h : l.IsSane) : l.clear.1.released = true := by
  unfold Lifecycle.clear
  split
  · unfold release
    split <;> simp_all
  · rename_i hzero
    exact h.released_iff.mpr (Nat.eq_zero_of_not_pos hzero)

theorem count_le_hold (l : Lifecycle) : l.count ≤ l.hold.1.count := by
  unfold hold
  split
  · exact Nat.le_succ _
  · exact Nat.le_refl _

theorem count_le_drop (l : Lifecycle) : l.count ≤ l.drop.1.count + 1 := by
  unfold drop
  split
  · exact Nat.le_succ _
  · split <;> dsimp only <;> omega

/-- Of what nobody holds any more, nothing is taken, dropped or cleared. -/
theorem fixed_of_gone (h : l.count = 0) :
    l.hold.1 = l ∧ l.drop.1 = l ∧ l.clear.1 = l := by
  simp [Lifecycle.hold, Lifecycle.drop, Lifecycle.clear, h]

end Lifecycle

namespace Ledger

variable {l : Ledger} {id other : EventId} {f : Lifecycle → Lifecycle × Bool}

theorem size_set (l : Ledger) (id : EventId) (entry : Lifecycle) :
    (l.set id entry).entries.size = l.entries.size := by
  simp [set]

theorem size_update (l : Ledger) (id : EventId) (f : Lifecycle → Lifecycle × Bool) :
    (l.update id f).1.entries.size = l.entries.size := size_set _ _ _

theorem get_update_self (h : id < l.entries.size) : (l.update id f).1.get id = (f (l.get id)).1 :=
  get_set_self _ _ _ h

theorem get_update_ne (h : other ≠ id) : (l.update id f).1.get other = l.get other :=
  get_set_ne _ _ h

theorem get_update_of_fixed (target : EventId) (h : (f (l.get id)).1 = l.get id) :
    (l.update target f).1.get id = l.get id := by
  by_cases hid : id = target
  · subst hid
    rcases Nat.lt_or_ge id l.entries.size with hlt | hge
    · rw [get_update_self hlt, h]
    · rw [get, get, update, set, Array.setIfInBounds_eq_of_size_le hge]
  · exact get_update_ne hid

theorem size_enrol (l : Ledger) (retryMs : Nat) :
    (l.enrol retryMs).entries.size = l.entries.size + 1 := Array.size_push _

theorem get_of_le (h : l.entries.size ≤ id) : l.get id = {} := by
  simp [get, Array.getD, Nat.not_lt.mpr h]

theorem get_enrol_of_lt (retryMs : Nat) (h : id < l.entries.size) :
    (l.enrol retryMs).get id = l.get id := by
  simp [get, enrol, Array.getD, h, Nat.lt_succ_of_lt h, Array.getElem_push_lt]

theorem get_enrol_self (l : Ledger) (retryMs : Nat) :
    (l.enrol retryMs).get l.entries.size = { retryMs := Backoff.clamp retryMs } := by
  simp [get, enrol, Array.getD]

theorem sane_enrol (hsane : ∀ id, (l.get id).IsSane) (retryMs : Nat) (id : EventId) :
    ((l.enrol retryMs).get id).IsSane := by
  rcases Nat.lt_trichotomy id l.entries.size with hlt | rfl | hgt
  · rw [get_enrol_of_lt retryMs hlt]
    exact hsane id
  · rw [get_enrol_self]
    exact Lifecycle.isSane_fresh _
  · rw [get_of_le (by rw [size_enrol]; exact hgt)]
    exact Lifecycle.isSane_fresh _

theorem released_enrol (l : Ledger) (retryMs : Nat) (id : EventId) :
    ((l.enrol retryMs).get id).released = (l.get id).released := by
  rcases Nat.lt_trichotomy id l.entries.size with hlt | rfl | hgt
  · rw [get_enrol_of_lt retryMs hlt]
  · rw [get_enrol_self, get_of_le (Nat.le_refl _)]
  · rw [get_of_le (by rw [size_enrol]; exact hgt), get_of_le (Nat.le_of_lt hgt)]

/-- What an operation keeps of a single entry, it keeps of every entry. -/
theorem forall_update {p : Lifecycle → Prop} (hf : ∀ entry, p entry → p (f entry).1)
    (h : ∀ id, p (l.get id)) (target : EventId) :
    ∀ id, p ((l.update target f).1.get id) := by
  intro id
  by_cases hid : id = target
  · subst hid
    by_cases hsize : id < l.entries.size
    · rw [get_update_self hsize]
      exact hf _ (h id)
    · have hsame : (l.update id f).1.get id = l.get id := by
        simp [update, set, get, Array.getD, hsize]
      rw [hsame]
      exact h id
  · rw [get_update_ne hid]
    exact h id

/-- What an operation takes from the holders of a single entry is all that it takes from any. -/
theorem count_le_update {n : Nat} (hf : ∀ entry, entry.count ≤ (f entry).1.count + n)
    (l : Ledger) (target id : EventId) :
    (l.get id).count ≤ ((l.update target f).1.get id).count + (if target = id then n else 0) := by
  by_cases hid : target = id
  · subst hid
    rw [if_pos rfl]
    rcases Nat.lt_or_ge target l.entries.size with hlt | hge
    · rw [get_update_self hlt]
      exact hf _
    · rw [get_of_le hge, get_of_le (by rw [size_update]; exact hge)]
      exact Nat.le_add_right _ _
  · rw [get_update_ne (Ne.symm hid), if_neg hid]
    exact Nat.le_refl _

/-- Every entry is the same but for the pause before its next try. -/
structure SameHolders (l l' : Ledger) : Prop where
  size : l'.entries.size = l.entries.size
  count : ∀ id, (l'.get id).count = (l.get id).count
  released : ∀ id, (l'.get id).released = (l.get id).released
  releases : ∀ id, (l'.get id).releases = (l.get id).releases

theorem SameHolders.refl (l : Ledger) : SameHolders l l :=
  ⟨rfl, fun _ => rfl, fun _ => rfl, fun _ => rfl⟩

theorem SameHolders.trans {l l' l'' : Ledger} (h : SameHolders l l') (h' : SameHolders l' l'') :
    SameHolders l l'' :=
  ⟨h'.size.trans h.size, fun id => (h'.count id).trans (h.count id),
    fun id => (h'.released id).trans (h.released id),
    fun id => (h'.releases id).trans (h.releases id)⟩

theorem SameHolders.sane {l l' : Ledger} (h : SameHolders l l') (hsane : ∀ id, (l.get id).IsSane)
    (id : EventId) : (l'.get id).IsSane := by
  obtain ⟨hreleased, hreleases⟩ := hsane id
  refine ⟨?_, ?_⟩
  · rw [h.released, h.count]
    exact hreleased
  · rw [h.releases, h.released]
    exact hreleases

theorem sameHolders_set (l : Ledger) (id : EventId) (entry : Lifecycle)
    (hcount : entry.count = (l.get id).count) (hreleased : entry.released = (l.get id).released)
    (hreleases : entry.releases = (l.get id).releases) :
    SameHolders l (l.set id entry) := by
  have hget (other : EventId) : (l.set id entry).get other = l.get other ∨
      other = id ∧ (l.set id entry).get other = entry := by
    by_cases hother : other = id
    · by_cases hsize : other < l.entries.size
      · subst hother
        exact .inr ⟨rfl, get_set_self _ _ _ hsize⟩
      · subst hother
        exact .inl (by simp [set, get, Array.getD, hsize])
    · exact .inl (get_set_ne _ _ hother)
  refine ⟨size_set _ _ _, fun other => ?_, fun other => ?_, fun other => ?_⟩
  · rcases hget other with h | ⟨rfl, h⟩ <;> rw [h]
    exact hcount
  · rcases hget other with h | ⟨rfl, h⟩ <;> rw [h]
    exact hreleased
  · rcases hget other with h | ⟨rfl, h⟩ <;> rw [h]
    exact hreleases

theorem sameHolders_backOff (l : Ledger) (id : EventId) : SameHolders l (l.backOff id) :=
  sameHolders_set l id _ rfl rfl rfl

theorem sameHolders_resetRetry (l : Ledger) (id : EventId) (ms : Nat) :
    SameHolders l (l.resetRetry id ms) :=
  sameHolders_set l id _ rfl rfl rfl

/-- Nothing can be held of which nothing is left. -/
theorem hold_fails (h : (l.hold id).2 = false) :
    (l.get id).count = 0 ∧ l.SameHolders (l.hold id).1 := by
  have hzero : (l.get id).count = 0 := by
    refine Nat.eq_zero_of_not_pos fun hpos => ?_
    have htrue : (l.hold id).2 = true := Lifecycle.hold_eq_true_iff.mpr hpos
    rw [h] at htrue
    cases htrue
  have hsame : (l.get id).hold.1 = l.get id := by
    simp [Lifecycle.hold, hzero]
  refine ⟨hzero, sameHolders_set l id _ ?_ ?_ ?_⟩ <;> rw [hsame]

theorem count_pos_of_hold (htook : (l.hold id).2 = true) : 0 < ((l.hold id).1.get id).count := by
  have hpos : 0 < (l.get id).count := Lifecycle.hold_eq_true_iff.mp htook
  rcases Nat.lt_or_ge id l.entries.size with hlt | hge
  · rw [hold, get_update_self hlt, Lifecycle.hold_of_pos hpos]
    exact Nat.succ_pos _
  · rw [hold, get_of_le (Nat.le_trans (Nat.le_of_eq (size_update l id _)) hge)]
    exact Nat.one_pos

/-- A reference that cannot be taken changes nothing. -/
theorem get_hold_of_fails (h : (l.hold id).2 = false) (other : EventId) :
    (l.hold id).1.get other = l.get other := by
  by_cases hother : other = id
  · subst hother
    exact get_update_of_fixed other (Lifecycle.fixed_of_gone (hold_fails h).1).1
  · exact get_update_ne hother

/-- A reference that is taken and dropped again leaves no trace. -/
theorem get_drop_hold (htook : (l.hold id).2 = true) (other : EventId) :
    ((l.hold id).1.drop id).1.get other = l.get other := by
  have hpos : 0 < (l.get id).count := Lifecycle.hold_eq_true_iff.mp htook
  by_cases hother : other = id
  · subst hother
    rcases Nat.lt_or_ge other l.entries.size with hlt | hge
    · have hsize : other < (l.hold other).1.entries.size :=
        Nat.lt_of_lt_of_eq hlt (size_update l other _).symm
      rw [drop, get_update_self hsize, hold, get_update_self hlt, Lifecycle.hold_of_pos hpos]
      simp [Lifecycle.drop, Nat.ne_of_gt hpos]
    · have hsize : (l.hold other).1.entries.size ≤ other := by
        rw [hold, size_update]
        exact hge
      rw [drop, get_of_le (by rw [size_update]; exact hsize), get_of_le hge]
  · rw [drop, get_update_ne hother, hold, get_update_ne hother]

section Holders

variable (hsane : ∀ id, (l.get id).IsSane) (hsize : id < l.entries.size)
include hsize

/-- A hold that succeeds adds one holder, here and nowhere else. -/
theorem get_hold (htook : (l.hold id).2 = true) (other : EventId) :
    ((l.hold id).1.get other).count = (l.get other).count + (if id = other then 1 else 0) ∧
      ((l.hold id).1.get other).released = (l.get other).released ∧
      ((l.hold id).1.get other).releases = (l.get other).releases := by
  by_cases hother : id = other
  · subst hother
    have hheld : (l.hold id).1.get id = { l.get id with count := (l.get id).count + 1 } := by
      unfold hold
      rw [get_update_self hsize]
      exact Lifecycle.hold_of_pos (Lifecycle.hold_eq_true_iff.mp htook)
    rw [hheld, if_pos rfl]
    exact ⟨rfl, rfl, rfl⟩
  · unfold hold
    rw [get_update_ne (Ne.symm hother), if_neg hother]
    exact ⟨rfl, rfl, rfl⟩

/-- What is released by a drop is the event that was dropped, and it had one holder. -/
theorem released_of_drop {other : EventId} (hbefore : (l.get other).released = false)
    (hafter : ((l.drop id).1.get other).released = true) :
    id = other ∧ (l.get other).count = 1 := by
  by_cases hother : id = other
  · subst hother
    unfold drop at hafter
    rw [get_update_self hsize] at hafter
    exact ⟨rfl, Lifecycle.count_of_drop_released hbefore hafter⟩
  · unfold drop at hafter
    rw [get_update_ne (Ne.symm hother), hbefore] at hafter
    cases hafter

include hsane

/-- What a drop leaves unreleased had one holder more, if it is the event that was dropped. -/
theorem unreleased_of_drop {other : EventId}
    (h : ((l.drop id).1.get other).released = false) :
    (l.get other).released = false ∧
      (l.get other).count = ((l.drop id).1.get other).count + (if id = other then 1 else 0) ∧
      1 ≤ ((l.drop id).1.get other).count := by
  by_cases hother : id = other
  · subst hother
    unfold drop at h ⊢
    rw [get_update_self hsize] at h ⊢
    rw [if_pos rfl]
    exact (hsane id).drop_unreleased h
  · unfold drop at h ⊢
    rw [get_update_ne (Ne.symm hother)] at h ⊢
    rw [if_neg hother]
    exact ⟨h, rfl, (hsane other).count_pos h⟩

theorem unreleased_of_clear {other : EventId}
    (h : ((l.clear id).1.get other).released = false) :
    other ≠ id ∧ (l.clear id).1.get other = l.get other := by
  have hother : other ≠ id := by
    rintro rfl
    unfold clear at h
    rw [get_update_self hsize, (hsane other).clear_released] at h
    cases h
  exact ⟨hother, get_update_ne hother⟩

end Holders

theorem size_clearAll (l : Ledger) (events : List EventRef) :
    (l.clearAll events).entries.size = l.entries.size := by
  induction events generalizing l with
  | nil => rfl
  | cons e events ih => exact (ih _).trans (size_update _ _ _)

theorem sane_clearAll (hsane : ∀ id, (l.get id).IsSane) (events : List EventRef) (id : EventId) :
    ((l.clearAll events).get id).IsSane := by
  induction events generalizing l with
  | nil => exact hsane id
  | cons e events ih => exact ih (forall_update (fun _ h => h.clear) hsane e.id)

theorem get_clearAll_of_ne {events : List EventRef} (h : ∀ e ∈ events, e.id ≠ id) :
    (l.clearAll events).get id = l.get id := by
  induction events generalizing l with
  | nil => rfl
  | cons e events ih =>
      have hrest := ih (l := (l.clear e.id).1) fun e' he' => h e' (List.mem_cons_of_mem _ he')
      exact hrest.trans (get_update_ne (Ne.symm (h e (List.mem_cons_self ..))))

theorem get_clearAll_of_gone (events : List EventRef) (h : (l.get id).count = 0) :
    (l.clearAll events).get id = l.get id := by
  induction events generalizing l with
  | nil => rfl
  | cons e events ih =>
      have hsame : (l.clear e.id).1.get id = l.get id :=
        get_update_of_fixed e.id (Lifecycle.fixed_of_gone h).2.2
      exact (ih (by rw [hsame, h])).trans hsame

/-- What is not released when many are cleared is not among them. -/
theorem unreleased_of_clearAll (hsane : ∀ id, (l.get id).IsSane) {events : List EventRef}
    (hsize : ∀ e ∈ events, e.id < l.entries.size)
    (h : ((l.clearAll events).get id).released = false) :
    (∀ e ∈ events, e.id ≠ id) ∧ (l.clearAll events).get id = l.get id := by
  have hothers : ∀ e ∈ events, e.id ≠ id := by
    induction events generalizing l with
    | nil => exact fun e he => absurd he List.not_mem_nil
    | cons e events ih =>
        have hrest : ∀ e' ∈ events, e'.id ≠ id := by
          refine ih (forall_update (fun _ h => h.clear) hsane e.id) (fun e' he' => ?_) h
          have hold := hsize e' (List.mem_cons_of_mem _ he')
          exact Nat.lt_of_lt_of_eq hold (size_update l e.id Lifecycle.clear).symm
        have hhead : ((l.clear e.id).1.get id).released = false :=
          get_clearAll_of_ne (l := (l.clear e.id).1) hrest ▸ h
        intro e' he'
        rcases List.mem_cons.mp he' with rfl | he'
        · exact (unreleased_of_clear hsane (hsize e' (List.mem_cons_self ..)) hhead).1.symm
        · exact hrest e' he'
  exact ⟨hothers, get_clearAll_of_ne hothers⟩

/-- Counting what is cleared clears no more and no less. -/
theorem clearCounting_fst (l : Ledger) (events : List EventRef) :
    (l.clearCounting events).1 = l.clearAll events := by
  have hcounting (n : Nat) : (events.foldl (fun (acc : Ledger × Nat) e =>
      ((acc.1.clear e.id).1, acc.2 + if (acc.1.clear e.id).2 then 1 else 0)) (l, n)).1 =
        l.clearAll events := by
    induction events generalizing l n with
    | nil => rfl
    | cons e events ih => exact ih _ _
  exact hcounting 0

theorem clearAll_append (l : Ledger) (events more : List EventRef) :
    l.clearAll (events ++ more) = (l.clearAll events).clearAll more := List.foldl_append ..

end Ledger
end Courier
