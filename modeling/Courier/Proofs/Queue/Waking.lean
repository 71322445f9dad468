import Courier.Proofs.Queue.Crowd

/-!
No announcement is missed by the calls that wait at a queue, however their steps and those of others
fall between one another. Once all that is left to do is to wait, a call that sleeps has nothing to
fetch. The invariant says this of the calls on their way to sleep, too: a call that has polled in
vain, and read its numbers before, has been told, or somebody still has to tell it, or there is
nothing to fetch.
-/

namespace Courier
namespace Queue

/-! ### Nothing that a sleeper waits for is missed -/

namespace Crowd

variable {x y : Crowd}

/-- Something is still to be announced. -/
def Owes (x : Crowd) : Prop := 0 < x.unannounced ∨ 0 < x.unfreed

/-- There was an announcement since. -/
def Tells (x : Crowd) (w : Waiting) : Prop :=
  w.signals < x.queue.signals ∨ w.freed < x.commons.slots.freed

/-- What becomes of the first crowd's queue, as far as those who wait depend on it. -/
structure Follows (x y : Crowd) : Prop where
  signals : x.queue.signals ≤ y.queue.signals
  freed : x.commons.slots.freed ≤ y.commons.slots.freed
  isShutdown : x.queue.isShutdown = true → y.queue.isShutdown = true
  announced : 0 < x.unannounced → x.queue.signals < y.queue.signals ∨ 0 < y.unannounced
  announcedFreed : 0 < x.unfreed → x.commons.slots.freed < y.commons.slots.freed ∨ 0 < y.unfreed
  barred : x.queue.bulkAllowed x.commons = false →
    0 < y.unfreed ∨ y.queue.bulkAllowed y.commons = false
  bare : x.queue.IsBare x.commons → y.Owes ∨ y.queue.IsBare y.commons
  isOpen : x.queue.isShutdown = false → 0 < y.unannounced ∨ y.queue.isShutdown = false

theorem Follows.refl (x : Crowd) : Follows x x :=
  ⟨Nat.le_refl _, Nat.le_refl _, id, .inr, .inr, .inr, .inr, .inr⟩

/-- The calls do not matter. -/
theorem Follows.withCalls (h : Follows x y) (calls : List Call) :
    Follows x { y with calls } :=
  ⟨h.signals, h.freed, h.isShutdown, h.announced, h.announcedFreed, h.barred, h.bare, h.isOpen⟩

theorem Follows.tells {w : Waiting} (h : Follows x y) (told : x.Tells w) : y.Tells w :=
  told.imp (Nat.lt_of_lt_of_le · h.signals) (Nat.lt_of_lt_of_le · h.freed)

theorem follows_operate (x : Crowd) (o : Operation) : Follows x (x.operate o) := by
  have hacts := x.queue.acts_perform x.commons o
  have howed : (x.operate o).unannounced = x.unannounced +
      ((x.queue.perform x.commons o : Realtime × Commons × Reply Empty).1.signals -
        x.queue.signals) := rfl
  have hfreed : (x.operate o).unfreed = x.unfreed +
      ((x.queue.perform x.commons o : Realtime × Commons × Reply Empty).2.1.slots.freed -
        x.commons.slots.freed) := rfl
  have hbarred : x.queue.bulkAllowed x.commons = false →
      0 < (x.operate o).unfreed ∨
        (x.operate o).queue.bulkAllowed (x.operate o).commons = false := by
    intro hbarred
    rcases hacts.held with hnews | hheld
    · exact .inl (by omega)
    · right
      have hcap : x.queue.settings.maxInFlight ≤ x.commons.slots.count := by
        simpa [Realtime.bulkAllowed] using hbarred
      have hkept : (x.operate o).queue.settings = x.queue.settings := hacts.settings
      have hcount : x.commons.slots.count ≤ (x.operate o).commons.slots.count := hheld
      simpa [Realtime.bulkAllowed, hkept] using Nat.le_trans hcap hcount
  exact
    { signals := Nat.le_refl _
      freed := Nat.le_refl _
      isShutdown := hacts.isShutdown
      announced := fun _ => .inr (by omega)
      announcedFreed := fun _ => .inr (by omega)
      barred := hbarred
      bare := fun ⟨hlive, hbulk⟩ => by
        rcases hacts.silent with hnews | ⟨hkeptLive, hkeptBulk, -⟩
        · exact .inl (.inl (by omega))
        · rcases hbulk with hbulk | hcap
          · exact .inr ⟨hkeptLive hlive, .inl (hkeptBulk hbulk)⟩
          · exact (hbarred hcap).elim (fun hnews => .inl (.inr hnews))
              fun hcap => .inr ⟨hkeptLive hlive, .inr hcap⟩
      isOpen := fun hopen => by
        rcases hacts.silent with hnews | ⟨-, -, hkept⟩
        · exact .inl (by omega)
        · exact .inr (hkept.trans hopen) }

/-- Taking events out announces nothing and brings nothing. -/
theorem follows_of_lessens {q : Realtime} {commons : Commons}
    (h : x.queue.Lessens x.commons q commons) (queue : y.queue = q) (shared : y.commons = commons)
    (unannounced : y.unannounced = x.unannounced) (unfreed : y.unfreed = x.unfreed) :
    Follows x y := by
  subst queue shared
  have hallowed : y.queue.bulkAllowed y.commons = x.queue.bulkAllowed x.commons := by
    rw [Realtime.bulkAllowed, Realtime.bulkAllowed, h.settings, h.slots]
  exact
    { signals := Nat.le_of_eq h.signals.symm
      freed := Nat.le_of_eq (congrArg Slots.freed h.slots.symm)
      isShutdown := fun hshut => h.isShutdown.trans hshut
      announced := fun howed => .inr (unannounced ▸ howed)
      announcedFreed := fun howed => .inr (unfreed ▸ howed)
      barred := fun hbarred => .inr (hallowed.trans hbarred)
      bare := fun ⟨hlive, hbulk⟩ =>
        .inr ⟨h.live hlive, hbulk.imp h.bulk fun hbarred => hallowed.trans hbarred⟩
      isOpen := fun hopen => .inr (h.isShutdown.trans hopen) }

theorem follows_serve (x : Crowd) (allowed : Bool) : Follows x (x.serve allowed) :=
  follows_of_lessens (x.queue.serve_fields x.commons allowed).2 rfl rfl rfl rfl

theorem follows_announce (x : Crowd) : Follows x x.announce := by
  unfold announce
  split
  · exact .refl x
  · exact
      { signals := Nat.le_succ _
        freed := Nat.le_refl _
        isShutdown := id
        announced := fun _ => .inl (Nat.lt_succ_self _)
        announcedFreed := .inr
        barred := .inr
        bare := .inr
        isOpen := .inr }

theorem follows_announceFreed (x : Crowd) : Follows x x.announceFreed := by
  unfold announceFreed
  split
  · exact .refl x
  · exact
      { signals := Nat.le_refl _
        freed := Nat.le_succ _
        isShutdown := id
        announced := .inr
        announcedFreed := fun _ => .inl (Nat.lt_succ_self _)
        barred := .inr
        bare := .inr
        isOpen := .inr }

theorem lessens_advance (q : Realtime) (commons : Commons) (c : Call) :
    q.Lessens commons (c.advance q commons).1 (c.advance q commons).2.1 := by
  unfold Call.advance
  split
  case h_5 w allowed _ =>
    have hserve := (q.serve_fields commons allowed).2
    split <;> rename_i heq <;> rw [heq] at hserve <;> exact hserve
  case h_7 =>
    split
    · exact .refl ..
    · split <;> exact .refl ..
  all_goals exact .refl ..

theorem follows_go (x : Crowd) (k : Nat) : Follows x (x.go k) := by
  unfold go
  split
  · rename_i c _
    exact follows_of_lessens (lessens_advance x.queue x.commons c) rfl rfl rfl rfl
  · exact .refl x

theorem follows_make (x : Crowd) (m : Move) : Follows x (x.make m) := by
  cases m with
  | call ms => exact (Follows.refl x).withCalls _
  | go k => exact x.follows_go k
  | operate o => exact x.follows_operate o
  | serve allowed => exact x.follows_serve allowed
  | announce => exact x.follows_announce
  | announceFreed => exact x.follows_announceFreed

end Crowd

/-- What a call may rely on at its stage. -/
structure Stage.Knows (x : Crowd) (deadline : Nat) (w : Waiting) : Prop where
  deadline : w.deadline = deadline
  signals : w.signals ≤ x.queue.signals
  freed : w.freed ≤ x.commons.slots.freed

/-- A call that may not be served was barred by the cap, and one that was not served found nothing;
if that is not so any more, then it will be told. -/
def Stage.Sound (x : Crowd) (deadline : Nat) : Stage → Prop
  | .entering | .arming | .ended _ => True
  | .halfArmed signals => signals ≤ x.queue.signals
  | .armed w => Knows x deadline w
  | .capped w allowed => Knows x deadline w ∧ (allowed = false →
      w.freed < x.commons.slots.freed ∨ 0 < x.unfreed ∨ x.queue.bulkAllowed x.commons = false)
  | .polled w => Knows x deadline w ∧ (x.Tells w ∨ x.Owes ∨ x.queue.IsBare x.commons)
  | .asleep w => Knows x deadline w ∧
      (x.Tells w ∨ x.Owes ∨ x.queue.IsBare x.commons ∧ x.queue.isShutdown = false)

structure Call.Sound (x : Crowd) (c : Call) : Prop where
  late : c.late = true →
    x.queue.isShutdown = true ∧ (c.stage = .entering ∨ c.stage = .ended none)
  stage : c.stage.Sound x c.deadline

variable {x y : Crowd}

theorem Stage.Knows.follows {deadline : Nat} {w : Waiting} (hw : Knows x deadline w)
    (h : x.Follows y) : Knows y deadline w :=
  ⟨hw.deadline, Nat.le_trans hw.signals h.signals, Nat.le_trans hw.freed h.freed⟩

/-- What is owed has been told meanwhile, or is still owed. -/
theorem Stage.Knows.owed {deadline : Nat} {w : Waiting} (hw : Knows x deadline w)
    (h : x.Follows y) (owes : x.Owes) : y.Tells w ∨ y.Owes := by
  rcases owes with howed | howed
  · exact (h.announced howed).imp (fun hnews => .inl (Nat.lt_of_le_of_lt hw.signals hnews)) .inl
  · exact (h.announcedFreed howed).imp (fun hnews => .inr (Nat.lt_of_le_of_lt hw.freed hnews)) .inr

/-- The moves of others leave a call what it relies on. -/
theorem Stage.Sound.follows {deadline : Nat} {stage : Stage} (hs : stage.Sound x deadline)
    (h : x.Follows y) : stage.Sound y deadline := by
  match stage with
  | .entering | .arming | .ended _ => exact True.intro
  | .halfArmed _ => exact Nat.le_trans hs h.signals
  | .armed w => exact Knows.follows hs h
  | .capped w _ =>
      refine ⟨hs.1.follows h, fun hbarred => ?_⟩
      rcases hs.2 hbarred with htold | howed | hcap
      · exact .inl (Nat.lt_of_lt_of_le htold h.freed)
      · exact (h.announcedFreed howed).imp (Nat.lt_of_le_of_lt hs.1.freed) .inl
      · exact .inr (h.barred hcap)
  | .polled w =>
      refine ⟨hs.1.follows h, ?_⟩
      rcases hs.2 with htold | howes | hbare
      · exact .inl (h.tells htold)
      · exact (hs.1.owed h howes).imp_right .inl
      · exact .inr (h.bare hbare)
  | .asleep w =>
      refine ⟨hs.1.follows h, ?_⟩
      rcases hs.2 with htold | howes | ⟨hbare, hopen⟩
      · exact .inl (h.tells htold)
      · exact (hs.1.owed h howes).imp_right .inl
      · right
        rcases h.bare hbare with howes | hbare
        · exact .inl howes
        · exact (h.isOpen hopen).imp .inl fun hopen => ⟨hbare, hopen⟩

theorem Call.Sound.follows {c : Call} (hc : c.Sound x) (h : x.Follows y) : c.Sound y :=
  ⟨fun hlate => (hc.late hlate).imp_left h.isShutdown, hc.stage.follows h⟩

/-- The crowd as a step of one call leaves it to the others. -/
def Crowd.stepped (x : Crowd) (c : Call) : Crowd :=
  { x with
    queue := (c.advance x.queue x.commons).1
    commons := (c.advance x.queue x.commons).2.1 }

theorem Crowd.follows_stepped (x : Crowd) (c : Call) : x.Follows (x.stepped c) :=
  follows_of_lessens (lessens_advance x.queue x.commons c) rfl rfl rfl rfl

theorem Crowd.go_of_found {k : Nat} {c : Call} (found : x.calls[k]? = some c) :
    x.go k =
      { x.stepped c with calls := x.calls.set k (c.advance x.queue x.commons).2.2 } := by
  rw [go, found]
  rfl

/-- Who was served nothing found nothing, or was barred by a cap that it will hear of. -/
theorem Stage.Sound.served {deadline : Nat} {w : Waiting} {allowed : Bool}
    (hs : Stage.Sound x deadline (.capped w allowed)) (h : x.Follows y)
    (nothing : (x.queue.serve x.commons allowed).2.2 = none) :
    Stage.Sound y deadline (.polled w) := by
  have hbared (hbare : x.queue.IsBare x.commons) :
      y.Tells w ∨ y.Owes ∨ y.queue.IsBare y.commons := .inr (h.bare hbare)
  refine ⟨hs.1.follows h, ?_⟩
  obtain ⟨hlive, hbulk | hbarred⟩ :=
    (x.queue.serve_fields x.commons allowed).1.eq_none_iff.mp nothing
  · exact hbared ⟨hlive, .inl hbulk⟩
  · rcases hs.2 hbarred with htold | howed | hcap
    · exact .inl (h.tells (.inr htold))
    · exact (hs.1.owed h (.inr howed)).imp_right .inl
    · exact hbared ⟨hlive, .inr hcap⟩

/-- A step on the way to sleep leaves a call something to rely on. -/
theorem Stage.Sound.advance {c : Call} (hs : c.stage.Sound x c.deadline) :
    (c.advance x.queue x.commons).2.2.stage.Sound (x.stepped c) c.deadline := by
  have hfollows := x.follows_stepped c
  obtain ⟨deadline, late, stage⟩ := c
  match stage with
  | .entering =>
      simp only [Call.advance]
      split <;> exact True.intro
  | .arming => exact Nat.le_refl _
  | .halfArmed signals => exact ⟨rfl, hs, Nat.le_refl _⟩
  | .armed w => exact ⟨hs, fun hbarred => .inr (.inr hbarred)⟩
  | .capped w allowed =>
      generalize hy : x.stepped ⟨deadline, late, .capped w allowed⟩ = y at hfollows
      simp only [Call.advance]
      split
      · exact True.intro
      · rename_i heq
        exact hs.served hfollows (by rw [heq])
  | .polled w =>
      simp only [Call.advance]
      split
      · exact True.intro
      · rename_i hopen
        refine ⟨hs.1.follows hfollows, hs.2.imp_right fun h => h.imp_right fun hbare => ?_⟩
        exact ⟨hbare, Bool.eq_false_iff.mpr hopen⟩
  | .asleep w =>
      simp only [Call.advance]
      split
      · exact True.intro
      · split
        · exact True.intro
        · have hasleep : (Stage.asleep w).Sound x deadline := hs
          exact hasleep.follows hfollows
  | .ended _ => exact True.intro

theorem Call.advance_fields (q : Realtime) (commons : Commons) (c : Call) :
    (c.advance q commons).2.2.deadline = c.deadline ∧ (c.advance q commons).2.2.late = c.late := by
  unfold Call.advance
  split
  case h_5 => split <;> exact ⟨rfl, rfl⟩
  case h_7 =>
    split
    · exact ⟨rfl, rfl⟩
    · split <;> exact ⟨rfl, rfl⟩
  all_goals exact ⟨rfl, rfl⟩

/-- A call that came too late goes away with nothing and touches nothing. -/
theorem Call.Sound.late_advance {c : Call} (hc : c.Sound x) (late : c.late = true) :
    c.advance x.queue x.commons = (x.queue, x.commons, { c with stage := .ended none }) := by
  obtain ⟨hshut, hstage⟩ := hc.late late
  obtain ⟨deadline, wasLate, stage⟩ := c
  rcases hstage with rfl | rfl
  · simp only [Call.advance, hshut, if_true]
  · rfl

theorem Call.Sound.advance {c : Call} (hc : c.Sound x) :
    (c.advance x.queue x.commons).2.2.Sound (x.stepped c) := by
  obtain ⟨hdeadline, hlate⟩ := Call.advance_fields x.queue x.commons c
  refine ⟨fun hwas => ?_, ?_⟩
  · rw [hlate] at hwas
    have hleaves := hc.late_advance hwas
    refine ⟨(x.follows_stepped c).isShutdown (hc.late hwas).1, .inr ?_⟩
    rw [hleaves]
  · rw [hdeadline]
    exact hc.stage.advance

/-! ### Every event goes one way -/

theorem Realtime.perm_serve (q : Realtime) (commons : Commons) (allowed : Bool) :
    q.channels.toList.Perm ((q.serve commons allowed).2.2.toList ++
      (q.serve commons allowed).1.channels.toList) :=
  (q.serve_fields commons allowed).1.gives.perm

theorem Realtime.Drains.perm {q q' : Realtime} {commons commons' : Commons}
    {events : List EventRef} (h : Drains q commons events q' commons') :
    q.channels.toList.Perm (events ++ q'.channels.toList) := by
  induction h with
  | out => exact .refl _
  | stop polled => exact (gave_poll polled).channels.perm
  | next polled _ ih => exact (gave_poll polled).channels.perm.trans (ih.cons _)

/-- What was in the queue or came into it is still there or was taken out. -/
theorem Realtime.perm_perform (q : Realtime) (commons : Commons) (o : Operation) :
    (q.channels.toList ++ o.brought q).Perm (o.took q commons ++
      (q.perform commons o : Realtime × Commons × Reply Empty).1.channels.toList) := by
  cases o with
  | offer e =>
      have hbrought : Operation.brought q (.offer e) =
        if (q.channels.push? e).isSome then [e] else [] := rfl
      cases hpush : q.channels.push? e with
      | none =>
          have hchannels := (offer_of_refused commons hpush).1
          rw [hbrought, hpush, ← hchannels]
          exact .of_eq (List.append_nil _)
      | some channels =>
          have hchannels := (offer_of_pushed commons hpush).1
          rw [hbrought, hpush]
          refine (List.perm_append_singleton _ _).trans ?_
          exact (Channels.perm_push hpush).symm.trans (.of_eq (by rw [← hchannels]; rfl))
  | poll =>
      exact (List.append_nil _).symm ▸ q.perm_serve commons (q.bulkAllowed commons)
  | drain => exact (List.append_nil _).symm ▸ (q.drains_drain commons).perm
  | discard pipe region =>
      have hchannels := (q.discardPipe_fields commons pipe region).1
      have hsplit : (q.channels.toList.filter (fun e => e.belongsTo pipe region) ++
          q.channels.toList.filter fun e => !e.belongsTo pipe region).Perm q.channels.toList :=
        List.filter_append_perm _ _
      rw [← Channels.toList_removePipe, ← hchannels] at hsplit
      exact (List.append_nil _).symm ▸ hsplit.symm
  | clear | discardAll => exact .refl _
  | peek | list | shutdown | shared => exact .of_eq (List.append_nil _)

namespace Crowd

/-- Every event that was accepted is queued, or with a call, or was taken by others. -/
def Keeps (x : Crowd) : Prop :=
  x.accepted.Perm (x.queue.channels.toList ++ x.handed ++ x.elsewhere)

theorem Keeps.moved (h : x.Keeps) {brought taken : List EventRef}
    (moved : (x.queue.channels.toList ++ brought).Perm (taken ++ y.queue.channels.toList))
    (accepted : y.accepted = x.accepted ++ brought) (handed : y.handed = x.handed)
    (elsewhere : y.elsewhere = x.elsewhere ++ taken) :
    y.Keeps := by
  refine List.perm_iff_count.mpr fun e => ?_
  have hbefore := List.perm_iff_count.mp h e
  have hcount := List.perm_iff_count.mp moved e
  rw [accepted, handed, elsewhere]
  simp only [List.count_append] at hbefore hcount ⊢
  omega

theorem keeps_operate (h : x.Keeps) (o : Operation) : (x.operate o).Keeps :=
  h.moved (x.queue.perm_perform x.commons o) rfl rfl rfl

theorem keeps_serve (h : x.Keeps) (allowed : Bool) : (x.serve allowed).Keeps :=
  h.moved ((List.append_nil _).symm ▸ x.queue.perm_serve x.commons allowed)
    (List.append_nil _).symm rfl rfl

/-- A step of a call keeps what it has, and what the step takes out comes to the call. -/
theorem perm_advance (q : Realtime) (commons : Commons) (c : Call) :
    (q.channels.toList ++ c.event?.toList).Perm
      ((c.advance q commons).1.channels.toList ++ (c.advance q commons).2.2.event?.toList) := by
  obtain ⟨deadline, late, stage⟩ := c
  match stage with
  | .entering | .polled _ =>
      simp only [Call.advance]
      split <;> exact .refl _
  | .arming | .halfArmed _ | .armed _ | .ended _ => exact .refl _
  | .asleep _ =>
      simp only [Call.advance]
      split
      · exact .refl _
      · split <;> exact .refl _
  | .capped w allowed =>
      have hmoved := q.perm_serve commons allowed
      simp only [Call.advance]
      split <;> rename_i heq <;> rw [heq] at hmoved
      · exact (List.append_nil _).symm ▸ hmoved.trans List.perm_append_comm
      · exact hmoved.append_right []

theorem keeps_go (h : x.Keeps) (k : Nat) : (x.go k).Keeps := by
  cases hfound : x.calls[k]? with
  | none =>
      rw [go, hfound]
      exact h
  | some c =>
      obtain ⟨hk, hc⟩ := List.getElem?_eq_some_iff.mp hfound
      have hmoved := perm_advance x.queue x.commons c
      have hcalls : x.calls = x.calls.take k ++ c :: x.calls.drop (k + 1) := by
        rw [← hc, List.getElem_cons_drop, List.take_append_drop]
      rw [go_of_found hfound]
      refine List.perm_iff_count.mpr fun e => ?_
      have hbefore := List.perm_iff_count.mp h e
      have hcount := List.perm_iff_count.mp hmoved e
      rw [handed, hcalls] at hbefore
      simp only [handed, stepped, List.set_eq_take_append_cons_drop, if_pos hk,
        List.flatMap_append, List.flatMap_cons, List.count_append] at hbefore hcount ⊢
      omega

theorem keeps_make (h : x.Keeps) (m : Move) : (x.make m).Keeps := by
  cases m with
  | call ms =>
      have hsame : (x.queue.channels.toList ++ []).Perm
          ([] ++ (x.make (.call ms)).queue.channels.toList) := .of_eq (List.append_nil _)
      refine h.moved hsame (List.append_nil _).symm ?_ (List.append_nil _).symm
      simp [make, handed, Call.event?]
  | go k => exact keeps_go h k
  | operate o => exact keeps_operate h o
  | serve allowed => exact keeps_serve h allowed
  | announce =>
      simp only [make, announce]
      split <;> exact h
  | announceFreed =>
      simp only [make, announceFreed]
      split <;> exact h

/-! ### Runs -/

/-- What holds after any moves. -/
structure Sound (x : Crowd) : Prop where
  calls : ∀ c ∈ x.calls, c.Sound x
  keeps : x.Keeps

theorem sound_start (q : Realtime) (commons : Commons) : (start q commons).Sound where
  calls c hc := by cases hc
  keeps := .of_eq <| by simp [start, handed]

/-- Calls that take no step keep what they rely on. -/
theorem Sound.follows (h : x.Sound) (hfollows : x.Follows y) {c : Call} (hc : c ∈ x.calls) :
    c.Sound y :=
  (h.calls c hc).follows hfollows

theorem Sound.go (h : x.Sound) (k : Nat) : ∀ c ∈ (x.go k).calls, c.Sound (x.go k) := by
  have hfollows := x.follows_go k
  cases hfound : x.calls[k]? with
  | none =>
      rw [Crowd.go, hfound]
      exact h.calls
  | some c =>
      rw [go_of_found hfound] at hfollows ⊢
      intro c' hc'
      rcases List.mem_or_eq_of_mem_set hc' with hold | rfl
      · exact h.follows hfollows hold
      · exact (h.calls c (List.mem_of_getElem? hfound)).advance.follows
          ((Follows.refl (x.stepped c)).withCalls _)

theorem Sound.make (h : x.Sound) (m : Move) : (x.make m).Sound := by
  refine ⟨?_, keeps_make h.keeps m⟩
  have hfollows := x.follows_make m
  cases m with
  | call ms =>
      intro c hc
      rcases List.mem_append.mp hc with hold | hnew
      · exact h.follows hfollows hold
      · rw [List.mem_singleton.mp hnew]
        exact ⟨fun hlate => ⟨hlate, .inl rfl⟩, True.intro⟩
  | go k => exact h.go k
  | operate o => exact fun c hc => h.follows hfollows hc
  | serve allowed => exact fun c hc => h.follows hfollows hc
  | announce =>
      intro c hc
      refine h.follows hfollows ?_
      simp only [Crowd.make, Crowd.announce] at hc
      split at hc <;> exact hc
  | announceFreed =>
      intro c hc
      refine h.follows hfollows ?_
      simp only [Crowd.make, Crowd.announceFreed] at hc
      split at hc <;> exact hc

theorem Sound.after (h : x.Sound) (moves : List Move) : (x.after moves).Sound := by
  induction moves generalizing x with
  | nil => exact h
  | cons m rest ih => exact ih (h.make m)

end Crowd

/-- A sleeper with nothing to do has nothing to fetch: it has been told of nothing, and nobody has
anything to tell. -/
theorem Call.Sound.of_quiet {c : Call} (hc : c.Sound x) (quiet : x.IsQuiet) (hmem : c ∈ x.calls)
    {w : Waiting} (asleep : c.stage = .asleep w) :
    x.commons.now < c.deadline ∧ x.queue.isShutdown = false ∧ x.queue.IsBare x.commons := by
  have hstage := hc.stage
  rw [asleep] at hstage
  obtain ⟨hknows, hreason⟩ := hstage
  have hrests : x.queue.canResume x.commons w = false := by
    rcases quiet.rests c hmem with ⟨w', hasleep, hrests⟩ | ⟨event, hended⟩
    · rw [asleep] at hasleep
      cases hasleep
      exact hrests
    · rw [asleep] at hended
      cases hended
  simp only [Realtime.canResume, Realtime.hasNews, Bool.or_eq_false_iff, bne_eq_false_iff_eq,
    decide_eq_false_iff_not, Nat.not_le] at hrests
  obtain ⟨⟨hsignals, hfreed⟩, hearly⟩ := hrests
  rw [hknows.deadline] at hearly
  rcases hreason with htold | howes | ⟨hbare, hopen⟩
  · simp [Crowd.Tells, hsignals, hfreed] at htold
  · simp [Crowd.Owes, quiet.announced, quiet.freed] at howes
  · exact ⟨hearly, hopen, hbare⟩

/-- A call comes back with nothing only when its time is over or the queue is shut down. -/
theorem Call.Sound.of_ended {c : Call} (hc : c.Sound x) (waits : c.stage ≠ .ended none)
    (ended : (c.advance x.queue x.commons).2.2.stage = .ended none) :
    c.deadline ≤ x.commons.now ∨ x.queue.isShutdown = true := by
  have hstage := hc.stage
  obtain ⟨deadline, late, stage⟩ := c
  match stage with
  | .entering | .polled _ =>
      simp only [Call.advance] at ended
      split at ended
      · rename_i hshut
        exact .inr hshut
      · cases ended
  | .arming | .halfArmed _ | .armed _ => cases ended
  | .capped w allowed =>
      simp only [Call.advance] at ended
      split at ended <;> cases ended
  | .asleep w =>
      simp only [Call.advance] at ended
      split at ended
      · cases ended
      · split at ended
        · rename_i hover
          exact .inl (hstage.1.deadline ▸ hover)
        · cases ended
  | .ended _ => exact absurd ended waits

/-- Whatever calls and others do, in whatever order their single steps come: once nobody has
anything to do but to wait, the calls that sleep have not reached their deadlines, the queue is not
shut down, and a poll would find nothing. A call comes back with nothing only at its deadline or
when the queue is shut down. One that comes when it is shut down goes away with nothing and touches
nothing. Every event that was accepted is queued, or with one call, or was taken out by others. -/
theorem no_wake_up_lost (q : Realtime) (commons : Commons) (moves : List Move) :
    let x := (Crowd.start q commons).after moves
    (x.IsQuiet → ∀ c ∈ x.calls, ∀ w, c.stage = .asleep w →
      x.commons.now < c.deadline ∧ x.queue.isShutdown = false ∧
      (x.queue.poll x.commons).2.2 = none ∧ x.queue.channels.live = [] ∧
      (x.queue.channels.bulk = [] ∨
        x.queue.settings.maxInFlight ≤ x.commons.slots.count)) ∧
    (∀ k c, x.calls[k]? = some c →
      (c.stage ≠ .ended none → (c.advance x.queue x.commons).2.2.stage = .ended none →
        c.deadline ≤ x.commons.now ∨ x.queue.isShutdown = true) ∧
      (c.late = true →
        x.go k = { x with calls := x.calls.set k { c with stage := .ended none } })) ∧
    x.accepted.Perm (x.queue.channels.toList ++ x.handed ++ x.elsewhere) := by
  intro x
  have hsound : x.Sound := (Crowd.sound_start q commons).after moves
  refine ⟨fun hquiet c hc w hasleep => ?_, fun k c hfound => ⟨?_, fun hlate => ?_⟩, hsound.keeps⟩
  · obtain ⟨hearly, hopen, hbare⟩ := (hsound.calls c hc).of_quiet hquiet hc hasleep
    refine ⟨hearly, hopen, (x.queue.poll_fields x.commons).1.eq_none_iff.mpr hbare, hbare.1, ?_⟩
    exact hbare.2.imp_right fun hbarred => by simpa [Realtime.bulkAllowed] using hbarred
  · exact (hsound.calls c (List.mem_of_getElem? hfound)).of_ended
  · have hleaves := (hsound.calls c (List.mem_of_getElem? hfound)).late_advance hlate
    rw [Crowd.go_of_found hfound, Crowd.stepped, hleaves]

/-- Two calls sleep while the only slot is taken. When it is freed both are told: the one that is
faster gets the file, the other goes back to sleep. -/
example :
    let file : EventRef := ⟨0, {
      content := .file { data := "/d", mods := none, flushPoints := 0 }, pipe := "p", region := 0,
      commit := .zero, progress := 0 }⟩
    let start := Realtime.create "p" {} {}
    let taken : List Move :=
      [.call 500, .call 900, .operate (.shared .acquire), .operate (.offer file), .announce]
    let freed : List Move := [.operate (.shared .release), .announceFreed]
    let goes (k n : Nat) : List Move := List.replicate n (.go k)
    let x := (Crowd.start start.1 start.2).after
      (taken ++ goes 0 6 ++ goes 1 6 ++ freed ++ goes 1 6 ++ goes 0 7)
    x.calls.map Call.stage =
        [.asleep { deadline := 500, signals := 1, freed := 1 }, .ended (some file)] ∧
      x.queue.canResume x.commons { deadline := 500, signals := 1, freed := 1 } = false ∧
      x.unannounced = 0 ∧ x.unfreed = 0 := by
  decide +kernel

end Queue
end Courier
