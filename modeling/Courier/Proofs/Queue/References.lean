import Courier.Proofs.Queue.History
import Mathlib.Data.List.Count

/-!
What is queued is not released. As long as every accepted offer hands over a reference of its own
and nobody drops a reference that is not theirs, the ledger counts at least one holder for every
copy of an event in the queue, however often the event was offered.
-/

namespace Courier
namespace Queue

/-- How many copies of an event are queued. -/
def Channels.copies (c : Channels) (id : EventId) : Nat := c.toList.countP fun e => e.id = id

/-- Nobody gives away a reference that a queued copy has. Who offers an event has one to hand over,
and others drop what is left beside the copies. -/
def Operation.isFair (events : EventId → Event) (q : Realtime) (commons : Commons) :
    Operation → Bool
  | .offer e => e.event = events e.id && q.channels.copies e.id < (commons.ledger.get e.id).count
  | .shared (.drop e) => q.channels.copies e.id < (commons.ledger.get e.id).count
  | .shared (.clear e) => q.channels.copies e.id = 0
  | _ => true

namespace Realtime

/-- Every operation of a history is fair when its turn comes. -/
def isFair (events : EventId → Event) : Realtime → Commons → List Operation → Bool
  | _, _, [] => true
  | q, commons, o :: ops =>
      o.isFair events q commons && isFair events (q.after commons [o]).1 (q.after commons [o]).2 ops

end Realtime

/-- The ledger covers the channels: each copy has a holder. -/
structure Channels.Covered (events : EventId → Event) (c : Channels) (l : Ledger) : Prop where
  known : ∀ e ∈ c.toList, e.event = events e.id
  sane : ∀ id, (l.get id).IsSane
  held : ∀ id, c.copies id ≤ (l.get id).count

namespace Channels

variable {events : EventId → Event} {c c' : Channels} {l l' : Ledger}

theorem copies_push {e : EventRef} (h : c.push? e = some c') (id : EventId) :
    c'.copies id = c.copies id + if e.id = id then 1 else 0 := by
  rw [copies, (perm_push h).countP_eq, List.countP_cons, copies]
  simp

theorem Gives.subperm {event : Option EventRef} (h : c.Gives c' event) :
    c'.toList.Subperm c.toList :=
  (List.sublist_append_right _ _).subperm.trans h.perm.symm.subperm

theorem Covered.unreleased (h : c.Covered events l) {e : EventRef} (he : e ∈ c.toList) :
    l.isReleased e.id = false := by
  have hcopy : 0 < c.copies e.id := List.countP_pos_iff.mpr ⟨e, he, by simp⟩
  have hcount := h.held e.id
  refine Bool.eq_false_iff.mpr fun hreleased => ?_
  have hzero := (h.sane e.id).count_eq_zero_of_released hreleased
  omega

theorem Covered.fewer (h : c.Covered events l) (sub : c'.toList.Subperm c.toList) :
    c'.Covered events l :=
  ⟨fun e he => h.known e (sub.subset he), h.sane,
    fun id => Nat.le_trans (sub.countP_le _) (h.held id)⟩

theorem Covered.emptied (h : c.Covered events l) :
    Covered events { c with live := [], bulk := [] } l :=
  h.fewer List.nil_subperm

/-- What is cleared has no copy left in the queue. -/
theorem Covered.cleared (h : c.Covered events l) (sub : c'.toList.Subperm c.toList)
    (gone : List EventRef) (apart : ∀ e ∈ gone, c'.copies e.id = 0) :
    c'.Covered events (l.clearAll gone) := by
  have hfewer := h.fewer sub
  refine ⟨hfewer.known, Ledger.sane_clearAll h.sane gone, fun id => ?_⟩
  by_cases hgone : ∃ e ∈ gone, e.id = id
  · obtain ⟨e, he, rfl⟩ := hgone
    rw [apart e he]
    exact Nat.zero_le _
  · rw [Ledger.get_clearAll_of_ne fun e he hid => hgone ⟨e, he, hid⟩]
    exact hfewer.held id

/-- A holder less of an event that has one beside its copies. -/
theorem Covered.dropped (h : c.Covered events l) {id : EventId}
    (spare : c.copies id < (l.get id).count) : c.Covered events (l.drop id).1 := by
  refine ⟨h.known, Ledger.forall_update (fun _ hs => hs.drop) h.sane id, fun other => ?_⟩
  have hcount := Ledger.count_le_update Lifecycle.count_le_drop l id other
  have hheld := h.held other
  rw [Ledger.drop]
  split at hcount
  · rename_i hsame
    subst hsame
    omega
  · omega

theorem Covered.taken (h : c.Covered events l) (id : EventId) : c.Covered events (l.hold id).1 := by
  refine ⟨h.known, Ledger.forall_update (fun _ hs => hs.hold) h.sane id, fun other => ?_⟩
  have hcount := Ledger.count_le_update (n := 0) Lifecycle.count_le_hold l id other
  rw [ite_self, Nat.add_zero] at hcount
  exact Nat.le_trans (h.held other) hcount

theorem Covered.sameHolders (h : c.Covered events l) (same : l.SameHolders l') :
    c.Covered events l' :=
  ⟨h.known, same.sane h.sane, fun id => same.count id ▸ h.held id⟩

theorem Covered.accepted (h : c.Covered events l) {e : EventRef} (known : e.event = events e.id)
    (spare : c.copies e.id < (l.get e.id).count) (pushed : c.push? e = some c') :
    c'.Covered events l := by
  refine ⟨fun e' he' => ?_, h.sane, fun id => ?_⟩
  · rcases List.mem_cons.mp ((perm_push pushed).mem_iff.mp he') with rfl | hold
    · exact known
    · exact h.known e' hold
  · rw [copies_push pushed]
    have hheld := h.held id
    split
    · rename_i hsame
      subst hsame
      omega
    · exact hheld

theorem Covered.discarded (h : c.Covered events l) (pipe : String) (region : Int) :
    (c.removePipe pipe region).1.Covered events (l.clearAll (c.removePipe pipe region).2) := by
  have hleft := c.toList_removePipe pipe region
  refine h.cleared (hleft ▸ List.filter_sublist.subperm) _ fun e he => ?_
  obtain ⟨hqueued, hmine⟩ := List.mem_filter.mp he
  refine List.countP_eq_zero.mpr fun e' he' hid => ?_
  -- all copies of an event are of one pipe instance
  rw [hleft] at he'
  obtain ⟨hstill, hother⟩ := List.mem_filter.mp he'
  have hsame : e'.event = e.event := by
    rw [h.known e' hstill, h.known e hqueued, of_decide_eq_true hid]
  rw [EventRef.belongsTo, hsame, ← EventRef.belongsTo, hmine] at hother
  cases hother

end Channels

namespace Realtime

variable {events : EventId → Event} {q q' : Realtime} {commons commons' : Commons}

theorem covered_drains {polled : List EventRef} (drains : Drains q commons polled q' commons')
    (h : q.channels.Covered events commons.ledger) :
    q'.channels.Covered events commons'.ledger := by
  induction drains with
  | out => exact h
  | stop polled =>
      have hgave := gave_poll polled
      rw [hgave.ledger]
      exact h.fewer hgave.channels.subperm
  | next polled _ ih =>
      have hgave := gave_poll polled
      refine ih ?_
      rw [hgave.ledger]
      exact h.fewer hgave.channels.subperm

theorem covered_poll (h : q.channels.Covered events commons.ledger) :
    (q.poll commons).1.channels.Covered events (q.poll commons).2.1.ledger := by
  obtain ⟨hserves, -, -, hledger, -⟩ := q.poll_fields commons
  rw [hledger]
  exact h.fewer hserves.gives.subperm

theorem covered_shared {o : Commons.Operation} (h : q.channels.Covered events commons.ledger)
    (fair : (Operation.shared o).isFair events q commons = true) :
    q.channels.Covered events (commons.perform o : Commons × Reply Empty).1.ledger := by
  cases o with
  | hold e => exact h.taken e.id
  | drop e => exact h.dropped (of_decide_eq_true fair)
  | clear e =>
      refine h.cleared (.refl _) [e] fun e' he' => ?_
      rw [List.mem_singleton.mp he']
      exact of_decide_eq_true fair
  | backOff e => exact h.sameHolders (Ledger.sameHolders_backOff _ _)
  | resetRetry e ms => exact h.sameHolders (Ledger.sameHolders_resetRetry _ _ _)
  | belongs | describe | acquire | release | pass => exact h

theorem covered_perform {o : Operation} (h : q.channels.Covered events commons.ledger)
    (fair : o.isFair events q commons = true) :
    (q.after commons [o]).1.channels.Covered events (q.after commons [o]).2.ledger := by
  cases o with
  | offer e =>
      obtain ⟨hknown, hspare⟩ := Bool.and_eq_true_iff.mp fair
      replace hknown := of_decide_eq_true hknown
      replace hspare := of_decide_eq_true hspare
      change (q.offer commons e).1.channels.Covered events (q.offer commons e).2.1.ledger
      cases hpush : q.channels.push? e with
      | none =>
          obtain ⟨hchannels, hledger, -⟩ := offer_of_refused commons hpush
          rw [hchannels, hledger]
          exact h.dropped hspare
      | some channels =>
          obtain ⟨hchannels, hledger, -⟩ := offer_of_pushed commons hpush
          rw [hchannels, hledger]
          exact h.accepted hknown hspare hpush
  | poll => exact covered_poll h
  | drain => exact covered_drains (q.drains_drain commons) h
  | clear => exact h.emptied
  | discardAll =>
      exact h.emptied.cleared (.refl _) q.channels.toList fun _ _ => rfl
  | discard pipe region =>
      obtain ⟨hchannels, -, hledger⟩ := q.discardPipe_fields commons pipe region
      change (q.discardPipe commons pipe region).1.channels.Covered events
        (q.discardPipe commons pipe region).2.1.ledger
      rw [hchannels, hledger]
      exact h.discarded pipe region
  | peek | list | shutdown => exact h
  | shared o => exact covered_shared h fair

theorem covered_after {ops : List Operation} (h : q.channels.Covered events commons.ledger)
    (fair : q.isFair events commons ops = true) :
    (q.after commons ops).1.channels.Covered events (q.after commons ops).2.ledger := by
  induction ops generalizing q commons with
  | nil => exact h
  | cons o ops ih =>
      obtain ⟨hfirst, hrest⟩ := Bool.and_eq_true_iff.mp fair
      exact ih (covered_perform h hfirst) hrest

/-- In every fair history of a new queue, each event has at least as many holders as it has copies
in the queue. What is queued, what is looked at and what is retrieved is not released. -/
theorem copies_le_holders (pipe : String) (settings : Settings) (commons : Commons)
    (events : EventId → Event) (ops : List Operation)
    (sane : ∀ id, (commons.ledger.get id).IsSane)
    (fair : (create pipe settings commons).1.isFair events (create pipe settings commons).2 ops =
      true) :
    let s := (create pipe settings commons).1.after (create pipe settings commons).2 ops
    (∀ id, s.1.channels.copies id ≤ (s.2.ledger.get id).count) ∧
      (∀ e ∈ s.1.channels.toList, s.2.isReleased e = false) ∧
      (∀ e, s.1.channels.peek? = some e → s.2.isReleased e = false) ∧
      ∀ e, (s.1.poll s.2).2.2 = some e → (s.1.poll s.2).2.1.isReleased e = false := by
  intro s
  have hnew : (create pipe settings commons).1.channels.Covered events
      (create pipe settings commons).2.ledger :=
    ⟨fun _ he => absurd he List.not_mem_nil, sane, fun _ => Nat.zero_le _⟩
  have hcovered : s.1.channels.Covered events s.2.ledger := covered_after hnew fair
  refine ⟨hcovered.held, fun e he => hcovered.unreleased he, fun e he => ?_, fun e he => ?_⟩
  · exact hcovered.unreleased (List.mem_of_head? he)
  · obtain ⟨hserves, -, -, hledger, -⟩ := s.1.poll_fields s.2
    rw [he] at hserves
    rw [Commons.isReleased, hledger]
    exact hcovered.unreleased (hserves.gives.perm.mem_iff.mpr List.mem_cons_self)

/-- A heartbeat too many, a tablet offered twice, and an event of another instance that is torn
down. -/
theorem copies_le_holders_of_repeated :
    let event (pipe : String) (content : Content) : Event :=
      { content, pipe, region := 0, commit := .zero, progress := 0 }
    let rows (target : String) : Content := .tablet { target, rows := 1, payload := [7] }
    let events : EventId → Event
      | 0 | 1 => event "p" (.heartbeat 0)
      | 2 => event "p" (rows "t")
      | _ => event "q" (rows "u")
    let ref (id : EventId) : EventRef := ⟨id, events id⟩
    let commons : Commons := { ledger := ((((({} : Ledger).enrol 1).enrol 1).enrol 1).enrol 1) }
    let ops : List Operation := [.shared (.hold (ref 2)), .offer (ref 0), .offer (ref 1),
      .offer (ref 2), .offer (ref 3), .offer (ref 2), .discard "q" 0, .poll]
    let s := (create "p" {} commons).1.after (create "p" {} commons).2 ops
    s.1.channels.copies 2 = 2 ∧ s.1.channels.copies 2 ≤ (s.2.ledger.get 2).count ∧
      s.2.isReleased (ref 1) = true ∧ s.2.isReleased (ref 3) = true ∧
      (s.1.poll s.2).2.2 = some (ref 2) ∧ (s.1.poll s.2).2.1.isReleased (ref 2) = false := by
  intro event rows events ref commons ops s
  have sane : ∀ id, (commons.ledger.get id).IsSane := by
    refine Ledger.sane_enrol (Ledger.sane_enrol (Ledger.sane_enrol (Ledger.sane_enrol ?_ 1) 1) 1) 1
    intro id
    rw [Ledger.get_of_le (Nat.zero_le id)]
    exact Lifecycle.isSane_fresh _
  have fair : (create "p" {} commons).1.isFair events (create "p" {} commons).2 ops = true := by
    decide +kernel
  have twice : s.1.channels.copies 2 = 2 := by decide +kernel
  have beat : s.2.isReleased (ref 1) = true := by decide +kernel
  have torn : s.2.isReleased (ref 3) = true := by decide +kernel
  have next : (s.1.poll s.2).2.2 = some (ref 2) := by decide +kernel
  have run : (create "p" {} commons).1.after (create "p" {} commons).2 ops = s := rfl
  clear_value s
  subst run
  obtain ⟨hheld, -, -, hpolled⟩ := copies_le_holders "p" {} commons events ops sane fair
  exact ⟨twice, hheld 2, beat, torn, next, hpolled (ref 2) next⟩

end Realtime
end Queue
end Courier
