import Courier.Commons.Operation
import Courier.Proofs.Ledger

/-!
The life of an event among holders who know nothing of each other. Each takes references and drops
them again, or clears all at once, in any order. Whatever they do, the event is released by one of
these calls and no other, when nobody is left who holds it, and it stays released.
-/

namespace Courier

namespace Lifecycle

/-- A life that began with one reference, after so many were taken and dropped and so many calls
made an end of it. -/
structure Accounted (taken dropped ended : Nat) (l : Lifecycle) : Prop where
  sane : l.IsSane
  counted : l.released = false → l.count + dropped = 1 + taken
  ended : ended = l.releases

variable {l l' : Lifecycle} {taken dropped ended : Nat}

theorem accounted_fresh (retryMs : Nat) : Accounted 0 0 0 { retryMs } :=
  ⟨isSane_fresh retryMs, fun _ => rfl, rfl⟩

theorem drop_eq_true_iff : l.drop.2 = true ↔ 0 < l.count := by
  unfold drop
  split
  · rename_i hzero
    simp [hzero]
  · rename_i hpos
    split <;> exact iff_of_true rfl (Nat.pos_of_ne_zero hpos)

theorem count_hold (l : Lifecycle) : l.hold.1.count = l.count + if l.hold.2 then 1 else 0 := by
  unfold hold
  split <;> rfl

theorem count_drop (l : Lifecycle) : l.drop.1.count + (if l.drop.2 then 1 else 0) = l.count := by
  unfold drop
  split
  · rfl
  · split
    · rename_i hone
      simp only [release, if_true, hone]
      split <;> rfl
    · dsimp only
      rw [if_pos rfl]
      omega

theorem IsSane.releases_of_pos (h : l.IsSane) (hpos : 0 < l.count) :
    l.released = false ∧ l.releases = 0 := by
  have hreleased : l.released = false := by
    refine Bool.eq_false_iff.mpr fun hr => ?_
    rw [h.count_eq_zero_of_released hr] at hpos
    exact Nat.lt_irrefl 0 hpos
  exact ⟨hreleased, by rw [h.releases_eq, hreleased]; rfl⟩

/-- The end of a life that was not over runs the hook. -/
theorem IsSane.release_of_pos (h : l.IsSane) (hpos : 0 < l.count) :
    ({ l with count := 0 } : Lifecycle).release.released = true ∧
      ({ l with count := 0 } : Lifecycle).release.releases = 1 := by
  obtain ⟨hreleased, hreleases⟩ := h.releases_of_pos hpos
  simp [release, hreleased, hreleases]

theorem Accounted.hold (h : l.Accounted taken dropped ended) :
    l.hold.1.Accounted (taken + if l.hold.2 then 1 else 0) dropped ended := by
  refine ⟨h.sane.hold, fun hr => ?_, ?_⟩
  · rcases Nat.eq_zero_or_pos l.count with hzero | hpos
    · simpa [Lifecycle.hold, hzero] using h.counted (by simpa [Lifecycle.hold, hzero] using hr)
    · have hcounted := h.counted (h.sane.releases_of_pos hpos).1
      rw [hold_of_pos hpos, if_pos (hold_eq_true_iff.mpr hpos)]
      dsimp only
      omega
  · rw [h.ended]
    unfold Lifecycle.hold
    split <;> rfl

/-- A drop makes an end of the life only when it takes the last reference. -/
theorem Accounted.drop (h : l.Accounted taken dropped ended) :
    l.drop.1.Accounted taken (dropped + if l.drop.2 then 1 else 0)
      (ended + if l.count = 1 then 1 else 0) := by
  refine ⟨h.sane.drop, fun hr => ?_, ?_⟩
  · obtain ⟨hreleased, hcount, hpos⟩ := h.sane.drop_unreleased hr
    have hcounted := h.counted hreleased
    rw [if_pos (drop_eq_true_iff.mpr (by omega))]
    omega
  · rw [h.ended]
    by_cases hone : l.count = 1
    · have hpos : 0 < l.count := Nat.lt_of_lt_of_eq Nat.one_pos hone.symm
      have hdrop : l.drop.1 = ({ l with count := 0 } : Lifecycle).release := by
        simp [Lifecycle.drop, hone]
      rw [hdrop, (h.sane.release_of_pos hpos).2, (h.sane.releases_of_pos hpos).2, if_pos hone]
    · rw [if_neg hone]
      unfold Lifecycle.drop
      split
      · rfl
      · rfl

theorem Accounted.clear (h : l.Accounted taken dropped ended) :
    l.clear.1.Accounted taken dropped (ended + if 0 < l.count then 1 else 0) := by
  refine ⟨h.sane.clear, fun hr => ?_, ?_⟩
  · rw [h.sane.clear_released] at hr
    cases hr
  · rw [h.ended]
    by_cases hpos : 0 < l.count
    · have hclear : l.clear.1 = ({ l with count := 0 } : Lifecycle).release := by
        simp [Lifecycle.clear, hpos]
      rw [hclear, (h.sane.release_of_pos hpos).2, (h.sane.releases_of_pos hpos).2, if_pos hpos]
    · simp [Lifecycle.clear, hpos]

/-- What is done to the pause before another try is no concern of the holders. -/
theorem Accounted.of_eq (h : l.Accounted taken dropped ended) (count : l'.count = l.count)
    (released : l'.released = l.released) (releases : l'.releases = l.releases) :
    l'.Accounted taken dropped ended := by
  refine ⟨⟨?_, ?_⟩, fun hr => ?_, ?_⟩
  · rw [released, count]
    exact h.sane.released_iff
  · rw [releases, released]
    exact h.sane.releases_eq
  · rw [count]
    exact h.counted (released ▸ hr)
  · rw [releases]
    exact h.ended

end Lifecycle

namespace Ledger

theorem set_get (l : Ledger) (id : EventId) : l.set id (l.get id) = l := by
  rcases Nat.lt_or_ge id l.entries.size with hlt | hge
  · refine congrArg Ledger.mk (Array.ext (Array.size_setIfInBounds ..) fun i _ _ => ?_)
    rw [Array.getElem_setIfInBounds]
    split
    · rename_i hi
      subst hi
      simp [get, hlt]
    · rfl
  · simp [set, Array.setIfInBounds_eq_of_size_le hge]

end Ledger

namespace Commons

/-- What is shared, after operations on it. -/
def after (c : Commons) (ops : List Operation) : Commons :=
  ops.foldl (fun c o => (c.perform o : Commons × Reply Empty).1) c

/-- How many operations of a history are such that `p` holds of them when their turn comes. -/
def countOf (p : Commons → Operation → Bool) : Commons → List Operation → Nat
  | _, [] => 0
  | c, o :: ops => (if p c o then 1 else 0) + countOf p (c.after [o]) ops

/-- The operation is a call on the references of the event. -/
def Operation.isOn (id : EventId) : Operation → Bool
  | .hold e | .drop e | .clear e => e.id = id
  | _ => false

/-- A reference on the event is taken. -/
def takes (id : EventId) (c : Commons) : Operation → Bool
  | .hold e => e.id = id && (c.hold e).2
  | _ => false

/-- A reference on the event is dropped. -/
def drops (id : EventId) (c : Commons) : Operation → Bool
  | .drop e => e.id = id && (c.drop e).2
  | _ => false

/-- The operation takes the last reference away, or all that there are. -/
def ends (id : EventId) (c : Commons) : Operation → Bool
  | .drop e => e.id = id && (c.ledger.get id).count = 1
  | .clear e => e.id = id && 0 < (c.ledger.get id).count
  | _ => false

/-- What is done to an event, short of a clearing, adds the references that are taken and takes
away those that are dropped. -/
theorem count_perform {c : Commons} {id : EventId} (enrolled : id < c.ledger.entries.size)
    {o : Operation} (uncleared : ∀ e, o = .clear e → e.id ≠ id) :
    ((c.after [o]).ledger.get id).count + (if c.drops id o then 1 else 0) =
      (c.ledger.get id).count + if c.takes id o then 1 else 0 := by
  cases o with
  | hold e =>
      by_cases hid : e.id = id
      · subst hid
        have hget : (c.after [.hold e]).ledger.get e.id = (c.ledger.get e.id).hold.1 :=
          Ledger.get_update_self enrolled
        have htook : (c.hold e).2 = (c.ledger.get e.id).hold.2 := rfl
        simp [takes, drops, hget, htook, Lifecycle.count_hold]
      · have hget : (c.after [.hold e]).ledger.get id = c.ledger.get id :=
          Ledger.get_update_ne (Ne.symm hid)
        simp [takes, drops, hget, hid]
  | drop e =>
      by_cases hid : e.id = id
      · subst hid
        have hget : (c.after [.drop e]).ledger.get e.id = (c.ledger.get e.id).drop.1 :=
          Ledger.get_update_self enrolled
        have htook : (c.drop e).2 = (c.ledger.get e.id).drop.2 := rfl
        simp [takes, drops, hget, htook, Lifecycle.count_drop]
      · have hget : (c.after [.drop e]).ledger.get id = c.ledger.get id :=
          Ledger.get_update_ne (Ne.symm hid)
        simp [takes, drops, hget, hid]
  | clear e =>
      have hget : (c.after [.clear e]).ledger.get id = c.ledger.get id :=
        Ledger.get_update_ne (Ne.symm (uncleared e rfl))
      simp [takes, drops, hget]
  | backOff e => exact (Ledger.sameHolders_backOff c.ledger e.id).count id
  | resetRetry e ms => exact (Ledger.sameHolders_resetRetry c.ledger e.id ms).count id
  | belongs | describe | acquire | release | pass => rfl

theorem size_perform (c : Commons) (o : Operation) :
    (c.after [o]).ledger.entries.size = c.ledger.entries.size := by
  cases o with
  | hold e | drop e | clear e => exact Ledger.size_update _ _ _
  | backOff e | resetRetry e ms => exact Ledger.size_set _ _ _
  | belongs | describe | acquire | release | pass => rfl

/-- The event is in the ledger, and its life is accounted for. -/
structure Accounts (id : EventId) (taken dropped ended : Nat) (c : Commons) : Prop where
  enrolled : id < c.ledger.entries.size
  life : (c.ledger.get id).Accounted taken dropped ended

variable {c : Commons} {id : EventId} {taken dropped ended : Nat}

theorem Accounts.same {ledger : Ledger} (h : c.Accounts id taken dropped ended)
    (same : c.ledger.SameHolders ledger) :
    ({ c with ledger } : Commons).Accounts id taken dropped ended :=
  ⟨Nat.lt_of_lt_of_eq h.enrolled same.size.symm,
    h.life.of_eq (same.count id) (same.released id) (same.releases id)⟩

/-- What is done to the references of one event is done to it alone. -/
theorem Accounts.update (h : c.Accounts id taken dropped ended) (other : EventId)
    (f : Lifecycle → Lifecycle × Bool) {taken' dropped' ended' : Nat}
    (here : other = id → (f (c.ledger.get id)).1.Accounted taken' dropped' ended')
    (elsewhere : other ≠ id → taken' = taken ∧ dropped' = dropped ∧ ended' = ended) :
    ({ c with ledger := (c.ledger.update other f).1 } : Commons).Accounts id taken' dropped'
      ended' := by
  refine ⟨Nat.lt_of_lt_of_eq h.enrolled (Ledger.size_update _ _ _).symm, ?_⟩
  by_cases hid : other = id
  · have hlife := here hid
    subst hid
    rw [Ledger.get_update_self h.enrolled]
    exact hlife
  · obtain ⟨rfl, rfl, rfl⟩ := elsewhere hid
    rw [Ledger.get_update_ne (Ne.symm hid)]
    exact h.life

theorem Accounts.perform (h : c.Accounts id taken dropped ended) (o : Operation) :
    (c.after [o]).Accounts id (taken + if c.takes id o then 1 else 0)
      (dropped + if c.drops id o then 1 else 0) (ended + if c.ends id o then 1 else 0) := by
  cases o with
  | hold e =>
      refine h.update e.id Lifecycle.hold (fun hid => ?_) fun hid => ?_
      · subst hid
        simpa [takes, drops, ends, Commons.hold, Ledger.hold, Ledger.update] using h.life.hold
      · simp [takes, drops, ends, hid]
  | drop e =>
      refine h.update e.id Lifecycle.drop (fun hid => ?_) fun hid => ?_
      · subst hid
        simpa [takes, drops, ends, Commons.drop, Ledger.drop, Ledger.update] using h.life.drop
      · simp [takes, drops, ends, hid]
  | clear e =>
      refine h.update e.id Lifecycle.clear (fun hid => ?_) fun hid => ?_
      · subst hid
        simpa [takes, drops, ends] using h.life.clear
      · simp [takes, drops, ends, hid]
  | backOff e => exact h.same (Ledger.sameHolders_backOff _ _)
  | resetRetry e ms => exact h.same (Ledger.sameHolders_resetRetry _ _ _)
  | belongs | describe | acquire | release | pass => exact ⟨h.enrolled, h.life⟩

theorem Accounts.after (h : c.Accounts id taken dropped ended) (ops : List Operation) :
    (c.after ops).Accounts id (taken + countOf (takes id) c ops)
      (dropped + countOf (drops id) c ops) (ended + countOf (ends id) c ops) := by
  induction ops generalizing c taken dropped ended with
  | nil => exact h
  | cons o ops ih =>
      have hrest := ih (h.perform o)
      simp only [Nat.add_assoc] at hrest
      exact hrest

/-- Of an event that nobody holds any more every call is refused, and changes nothing. -/
theorem perform_of_gone {o : Operation} (gone : (c.ledger.get id).count = 0)
    (here : o.isOn id = true) : (c.perform o : Commons × Reply Empty) = (c, .flag false) := by
  have hkept (f : Lifecycle → Lifecycle × Bool)
      (refused : f (c.ledger.get id) = (c.ledger.get id, false)) :
      c.ledger.update id f = (c.ledger, false) := by
    rw [Ledger.update, refused, Ledger.set_get]
  cases o with
  | hold e =>
      obtain rfl := of_decide_eq_true here
      have hrefused := hkept Lifecycle.hold (by simp [Lifecycle.hold, gone])
      simp only [perform, hold, Ledger.hold, hrefused]
  | drop e =>
      obtain rfl := of_decide_eq_true here
      have hrefused := hkept Lifecycle.drop (by simp [Lifecycle.drop, gone])
      simp only [perform, drop, Ledger.drop, hrefused]
  | clear e =>
      obtain rfl := of_decide_eq_true here
      have hrefused := hkept Lifecycle.clear (by simp [Lifecycle.clear, gone])
      simp only [perform, clear, Ledger.clear, hrefused]
  | _ => cases here

theorem after_append (c : Commons) (ops more : List Operation) :
    c.after (ops ++ more) = (c.after ops).after more :=
  List.foldl_append ..

theorem Accounts.released_iff (h : c.Accounts id taken dropped ended) :
    (c.ledger.get id).released = true ↔ 0 < ended := by
  rw [h.life.ended, h.life.sane.releases_eq]
  cases (c.ledger.get id).released <;> simp

/-- Whatever holders do to an event that was just built, and to others: it has no reference exactly
when it is released, and exactly then its hook has run, once. Until then its references are the
first one and those that were taken, less those that were dropped. One call releases it, a drop of
the last reference or a clearing of all that there are. From then on it stays released, and every
call on its references is refused and changes nothing. -/
theorem released_once (c : Commons) (retryMs : Nat) (ops : List Operation) :
    let id := c.ledger.entries.size
    let start : Commons := { c with ledger := c.ledger.enrol retryMs }
    let life := (start.after ops).ledger.get id
    (life.count = 0 ↔ life.released = true) ∧ (life.released = true ↔ life.releases = 1) ∧
      life.releases ≤ 1 ∧
      (life.released = false →
        life.count + countOf (drops id) start ops = 1 + countOf (takes id) start ops) ∧
      countOf (ends id) start ops = life.releases ∧
      (life.released = true → ∀ more : List Operation,
        ((start.after (ops ++ more)).ledger.get id).released = true ∧
        ∀ o : Operation, o.isOn id = true →
          ((start.after (ops ++ more)).perform o : Commons × Reply Empty) =
            (start.after (ops ++ more), .flag false)) := by
  intro id start life
  have hnew : start.Accounts id 0 0 0 := by
    refine ⟨Nat.lt_of_lt_of_eq (Nat.lt_succ_self _) (Ledger.size_enrol _ _).symm, ?_⟩
    rw [Ledger.get_enrol_self]
    exact Lifecycle.accounted_fresh _
  have hafter := hnew.after ops
  simp only [Nat.zero_add] at hafter
  obtain ⟨hsane, hcounted, hended⟩ := hafter.life
  have honce : life.releases = if life.released then 1 else 0 := hsane.releases_eq
  refine ⟨hsane.released_iff.symm, ?_, ?_, hcounted, hended, fun hreleased more => ?_⟩
  · rw [honce]
    cases life.released <;> simp
  · rw [honce]
    split <;> decide
  · -- The call that released it is still among those that were made.
    have hlater := hafter.after more
    have hpos := hafter.released_iff.mp hreleased
    have hstays := hlater.released_iff.mpr (Nat.add_pos_left hpos _)
    rw [after_append]
    exact ⟨hstays, fun o =>
      perform_of_gone (hlater.life.sane.count_eq_zero_of_released hstays)⟩

/-- A holder more and one less, a clearing that releases, and a drop that comes too late. -/
example :
    let event : Event := {
      content := .heartbeat 0, pipe := "p", region := 0, commit := .zero, progress := 0 }
    let e : EventRef := ⟨0, event⟩
    let start : Commons := { ledger := ({} : Ledger).enrol 0 }
    let ops : List Operation := [.hold e, .drop e, .hold e, .clear e, .drop e]
    countOf (takes 0) start ops = 2 ∧ countOf (drops 0) start ops = 1 ∧
      countOf (ends 0) start ops = 1 ∧ ((start.after ops).ledger.get 0).releases = 1 := by
  decide +kernel

end Commons
end Courier
