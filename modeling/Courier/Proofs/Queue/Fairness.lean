import Courier.Proofs.Queue.History
import Mathlib.Data.List.Infix

/-!
No file waits for ever. While files may be served, a queued file comes nearer to its turn with every
retrieval: either the count up to the threshold grows, or files are served, and among as many of
them as the period says there is one that was the oldest. What is offered meanwhile lines up behind.
-/

namespace Courier
namespace Queue

namespace Channels

variable {c c' : Channels} {e : EventRef} {older older' threshold period : Nat}

/-- How many files are taken from the new end before the oldest is served next. -/
def newestFirst (c : Channels) (period : Nat) : Nat := period - 1 - c.bulkRetrievals % period

/-- How many files may be served before one that has so many older ones before it. -/
def servings (c : Channels) (period older : Nat) : Nat := older * period + c.newestFirst period

/-- How many retrievals may pass before that file is served. -/
def patience (c : Channels) (threshold period older : Nat) : Nat :=
  c.servings period older * (threshold + 1) + (threshold - c.sinceBulk)

theorem patience_lt (c : Channels) (threshold older : Nat) (positive : 0 < period) :
    c.patience threshold period older < (older + 1) * period * (threshold + 1) := by
  have hservings : c.servings period older + 1 ≤ (older + 1) * period := by
    rw [servings, Nat.succ_mul, newestFirst]
    omega
  calc c.patience threshold period older
      < (c.servings period older + 1) * (threshold + 1) := by
        rw [patience, Nat.succ_mul]
        omega
    _ ≤ (older + 1) * period * (threshold + 1) := Nat.mul_le_mul_right _ hservings

theorem patience_mono (h : older ≤ older') (c : Channels) (threshold period : Nat) :
    c.patience threshold period older ≤ c.patience threshold period older' := by
  have hservings : c.servings period older ≤ c.servings period older' :=
    Nat.add_le_add_right (Nat.mul_le_mul_right period h) _
  exact Nat.add_le_add_right (Nat.mul_le_mul_right _ hservings) _

/-- A file less to be served outweighs the whole count up to the threshold. -/
theorem patience_lt_of_servings (threshold : Nat)
    (h : c'.servings period older' < c.servings period older) :
    c'.patience threshold period older' < c.patience threshold period older := by
  have hrounds := Nat.mul_le_mul_right (threshold + 1) (Nat.succ_le_of_lt h)
  rw [Nat.succ_mul] at hrounds
  rw [patience, patience]
  omega

theorem servings_of_oldest (positive : 0 < period)
    (turn : (c.bulkRetrievals + 1) % period = 0)
    (counted : c'.bulkRetrievals = c.bulkRetrievals + 1) :
    c'.servings period older < c.servings period (older + 1) := by
  rw [servings, servings, newestFirst, counted, turn, Nat.succ_mul]
  omega

theorem servings_of_newest (positive : 0 < period)
    (turn : (c.bulkRetrievals + 1) % period ≠ 0)
    (counted : c'.bulkRetrievals = c.bulkRetrievals + 1) :
    c'.servings period older < c.servings period older := by
  have hbound := Nat.mod_lt c.bulkRetrievals positive
  have hround : c.bulkRetrievals % period + 1 ≠ period := fun hround => turn (by
    rw [← Nat.mod_add_mod, hround, Nat.mod_self])
  have hnext : (c.bulkRetrievals + 1) % period = c.bulkRetrievals % period + 1 := by
    rw [← Nat.mod_add_mod]
    exact Nat.mod_eq_of_lt (by omega)
  rw [servings, servings, newestFirst, newestFirst, counted, hnext]
  omega

/-- Files are served from either end; from one the oldest come nearer, from the other the turn of
the oldest does. -/
theorem popBulk_cases (positive : 0 < period) (here : c.bulk[older]? = some e) :
    (c.popBulk period).2 = some e ∨
    ∃ other older', (c.popBulk period).2 = some other ∧
      (c.popBulk period).1.bulk[older']? = some e ∧
      (c.popBulk period).1.servings period older' < c.servings period older := by
  have hsome : c.bulk.isEmpty = false := by
    cases hbulk : c.bulk with
    | nil => simp [hbulk] at here
    | cons first rest => rfl
  have hlength : older < c.bulk.length := (List.getElem?_eq_some_iff.mp here).1
  rw [popBulk, if_neg (by rw [hsome]; exact Bool.false_ne_true)]
  by_cases turn : (c.bulkRetrievals + 1) % period = 0
  · simp only [if_pos turn, List.head?_eq_getElem?]
    cases older with
    | zero => exact .inl here
    | succ older =>
        refine .inr ⟨c.bulk[0], older, List.getElem?_eq_getElem _, ?_, ?_⟩
        · rw [List.getElem?_drop, Nat.add_comm]
          exact here
        · exact servings_of_oldest positive turn rfl
  · simp only [if_neg turn, List.getLast?_eq_getElem?]
    by_cases hlast : older = c.bulk.length - 1
    · exact .inl (hlast ▸ here)
    · refine .inr ⟨c.bulk[c.bulk.length - 1], older, List.getElem?_eq_getElem _, ?_, ?_⟩
      · rw [List.getElem?_dropLast, if_pos (by omega)]
        exact here
      · exact servings_of_newest positive turn rfl

/-- While files may be served, a retrieval is of the file or brings it nearer. -/
theorem pop_cases (threshold : Nat) (positive : 0 < period) (here : c.bulk[older]? = some e) :
    (c.pop threshold period true).2.map Prod.fst = some e ∨
    ∃ other older', (c.pop threshold period true).2 = some other ∧
      (c.pop threshold period true).1.bulk[older']? = some e ∧
      (c.pop threshold period true).1.patience threshold period older' <
        c.patience threshold period older := by
  have hserve := popBulk_cases positive here
  generalize hpop : c.popBulk period = served at hserve
  obtain ⟨c', result⟩ := served
  by_cases hdue : threshold ≤ c.sinceBulk
  · simp only [pop, hdue, hpop, decide_true, Bool.and_true, if_true]
    rcases hserve with rfl | ⟨other, older', rfl, hthere, hless⟩
    · exact .inl rfl
    · exact .inr ⟨(other, true), older', rfl, hthere, patience_lt_of_servings threshold hless⟩
  · simp only [pop, hdue, decide_false, Bool.false_and, Bool.false_eq_true, if_false, popOrdinary]
    split
    · refine .inr ⟨_, older, rfl, here, ?_⟩
      simp only [patience, servings, newestFirst]
      omega
    · simp only [if_true, hpop]
      rcases hserve with rfl | ⟨other, older', rfl, hthere, hless⟩
      · exact .inl rfl
      · exact .inr ⟨(other, true), older', rfl, hthere, patience_lt_of_servings threshold hless⟩

/-- Taking other events out leaves no more older ones before this one. -/
theorem exists_older_filter (stays : EventRef → Bool) {events : List EventRef}
    (keep : stays e = true) (here : events[older]? = some e) :
    ∃ older', older' ≤ older ∧ (events.filter stays)[older']? = some e := by
  obtain ⟨hlength, hget⟩ := List.getElem?_eq_some_iff.mp here
  refine ⟨((events.take older).filter stays).length, ?_, ?_⟩
  · exact (List.length_filter_le _ _).trans (List.length_take_le _ _)
  · have hsplit : events.filter stays =
        (events.take older ++ e :: events.drop (older + 1)).filter stays := by
      rw [← hget, List.getElem_cons_drop, List.take_append_drop]
    rw [hsplit, List.filter_append, List.filter_cons_of_pos keep,
      List.getElem?_append_right (Nat.le_refl _), Nat.sub_self]
    rfl

theorem push_keeps {new : EventRef} (pushed : c.push? new = some c')
    (here : c.bulk[older]? = some e) :
    c'.bulk[older]? = some e ∧
      c'.patience threshold period older = c.patience threshold period older := by
  rw [push?] at pushed
  split at pushed
  · cases pushed
    exact ⟨by rw [List.getElem?_append_left (List.getElem?_eq_some_iff.mp here).1, here], rfl⟩
  · split at pushed
    · cases pushed
    · cases pushed
      exact ⟨here, rfl⟩

theorem removePipe_keeps {pipe : String} {region : Int} (keep : e.belongsTo pipe region = false)
    (here : c.bulk[older]? = some e) :
    ∃ older', (c.removePipe pipe region).1.bulk[older']? = some e ∧
      (c.removePipe pipe region).1.patience threshold period older' ≤
        c.patience threshold period older := by
  obtain ⟨older', hle, hthere⟩ :=
    exists_older_filter (fun e => !e.belongsTo pipe region) (by simp [keep]) here
  exact ⟨older', hthere, patience_mono hle c threshold period⟩

end Channels

namespace Operation

/-- It leaves `e` in the queue, or is the retrieval that hands it on. -/
def spares (e : EventRef) : Operation → Bool
  | .discard pipe region => !e.belongsTo pipe region
  | .clear | .discardAll | .drain => false
  | _ => true

end Operation

namespace Realtime

variable {q : Realtime} {commons : Commons} {e : EventRef} {older : Nat}

/-- How many retrievals may pass before a file is handed on that has so many before it. -/
def patience (q : Realtime) (older : Nat) : Nat :=
  q.channels.patience q.settings.bulkThreshold q.settings.effectivePeriod older

theorem poll_cases (allowed : q.bulkAllowed commons = true)
    (here : q.channels.bulk[older]? = some e) :
    (q.poll commons).2.2 = some e ∨
    ∃ older', (q.poll commons).1.channels.bulk[older']? = some e ∧
      (q.poll commons).1.patience older' < q.patience older := by
  have hcases := Channels.pop_cases q.settings.bulkThreshold
    (Nat.lt_of_lt_of_le Nat.zero_lt_one (Nat.le_max_right q.settings.bulkPeriod 1)) here
  rw [poll, Settings.effectivePeriod, allowed]
  revert hcases
  generalize hpop : q.channels.pop q.settings.bulkThreshold (max q.settings.bulkPeriod 1) true =
    popped
  obtain ⟨c', _ | ⟨other, bulk⟩⟩ := popped
  · rintro (hnone | ⟨other, older', hnone, -⟩) <;> cases hnone
  · rintro (hthis | ⟨_, older', hother, hthere, hless⟩)
    · exact .inl hthis
    · exact .inr ⟨older', hthere, hless⟩

/-- Whatever else is done, the file comes no further from its turn. -/
theorem perform_spares (commons : Commons) {o : Operation} (spared : o.spares e = true)
    (other : o ≠ .poll) (here : q.channels.bulk[older]? = some e) :
    ∃ older', (q.after commons [o]).1.channels.bulk[older']? = some e ∧
      (q.after commons [o]).1.patience older' ≤ q.patience older := by
  cases o with
  | offer new =>
      simp only [after, List.foldl_cons, List.foldl_nil, perform, Realtime.offer, patience]
      split
      · exact ⟨older, here, Nat.le_refl _⟩
      · rename_i channels pushed
        obtain ⟨hthere, hsame⟩ := Channels.push_keeps pushed here
        exact ⟨older, hthere, Nat.le_of_eq hsame⟩
  | poll => exact absurd rfl other
  | discard pipe region =>
      have hkeep : e.belongsTo pipe region = false := by simpa [Operation.spares] using spared
      obtain ⟨older', hthere, hle⟩ := Channels.removePipe_keeps hkeep here
      obtain ⟨hchannels, hsettings, _⟩ := q.discardPipe_fields commons pipe region
      refine ⟨older', ?_, ?_⟩
      · exact (congrArg (fun c : Channels => c.bulk[older']?) hchannels).trans hthere
      · have hkept : (q.after commons [.discard pipe region]).1.channels =
            (q.channels.removePipe pipe region).1 := hchannels
        have hsame : (q.after commons [.discard pipe region]).1.settings = q.settings := hsettings
        rw [patience, patience, hsame, hkept]
        exact hle
  | drain | clear | discardAll => cases spared
  | peek | list | shutdown => exact ⟨older, here, Nat.le_refl _⟩
  | shared o => exact ⟨older, here, Nat.le_refl _⟩

theorem served_of_patience (ops : List Operation) (here : q.channels.bulk[older]? = some e)
    (spared : ∀ o ∈ ops, o.spares e = true)
    (allowed : ∀ before, before ++ [.poll] <+: ops →
      (q.after commons before).1.bulkAllowed (q.after commons before).2 = true)
    (patient : q.patience older < ops.count .poll) :
    ∃ before, before ++ [.poll] <+: ops ∧ before.count .poll ≤ q.patience older ∧
      ((q.after commons before).1.poll (q.after commons before).2).2.2 = some e := by
  induction ops generalizing q commons older with
  | nil => exact absurd patient (Nat.not_lt_zero _)
  | cons o rest ih =>
      have hrest : ∀ o ∈ rest, o.spares e = true := fun o ho => spared o (List.mem_cons_of_mem _ ho)
      have hallowed : ∀ before, before ++ [.poll] <+: rest →
          ((q.after commons [o]).1.after (q.after commons [o]).2 before).1.bulkAllowed
            ((q.after commons [o]).1.after (q.after commons [o]).2 before).2 = true :=
        fun before hbefore => allowed (o :: before) (List.cons_prefix_cons.mpr ⟨rfl, hbefore⟩)
      by_cases hpoll : o = .poll
      · subst hpoll
        have hfirst : [] ++ [Operation.poll] <+: .poll :: rest := ⟨rest, rfl⟩
        have hnow : q.bulkAllowed commons = true := allowed [] hfirst
        rw [List.count_cons_self] at patient
        rcases poll_cases hnow here with hthis | ⟨older', hthere, hless⟩
        · exact ⟨[], hfirst, Nat.zero_le _, hthis⟩
        · obtain ⟨before, hbefore, hcount, hserved⟩ := ih hthere hrest hallowed
            (Nat.lt_of_lt_of_le hless (Nat.le_of_lt_succ patient))
          refine ⟨.poll :: before, List.cons_prefix_cons.mpr ⟨rfl, hbefore⟩, ?_, hserved⟩
          rw [List.count_cons_self]
          exact Nat.lt_of_le_of_lt hcount hless
      · rw [List.count_cons_of_ne hpoll] at patient
        obtain ⟨older', hthere, hle⟩ :=
          perform_spares commons (spared o List.mem_cons_self) hpoll here
        obtain ⟨before, hbefore, hcount, hserved⟩ := ih hthere hrest hallowed
          (Nat.lt_of_le_of_lt hle patient)
        refine ⟨o :: before, List.cons_prefix_cons.mpr ⟨rfl, hbefore⟩, ?_, hserved⟩
        rw [List.count_cons_of_ne hpoll]
        exact hcount.trans hle

/-- A file that has `older` others before it is handed on by one of the next
`(older + 1) * period * (threshold + 1)` retrievals, whatever is offered and discarded meanwhile. -/
theorem bulk_served_within (q : Realtime) (commons : Commons) (e : EventRef) (older : Nat)
    (ops : List Operation) (here : q.channels.bulk[older]? = some e)
    (spared : ∀ o ∈ ops, o.spares e = true)
    (allowed : ∀ before, before ++ [.poll] <+: ops →
      (q.after commons before).1.bulkAllowed (q.after commons before).2 = true)
    (polls : (older + 1) * q.settings.effectivePeriod * (q.settings.bulkThreshold + 1) ≤
      ops.count .poll) :
    ∃ before, before ++ [.poll] <+: ops ∧
      before.count .poll <
        (older + 1) * q.settings.effectivePeriod * (q.settings.bulkThreshold + 1) ∧
      ((q.after commons before).1.poll (q.after commons before).2).2.2 = some e := by
  have hbound : q.patience older <
      (older + 1) * q.settings.effectivePeriod * (q.settings.bulkThreshold + 1) :=
    Channels.patience_lt q.channels q.settings.bulkThreshold older
      (Nat.lt_of_lt_of_le Nat.zero_lt_one (Nat.le_max_right q.settings.bulkPeriod 1))
  obtain ⟨before, hbefore, hcount, hserved⟩ :=
    served_of_patience ops here spared allowed (Nat.lt_of_lt_of_le hbound polls)
  exact ⟨before, hbefore, Nat.lt_of_le_of_lt hcount hbound, hserved⟩

/-- Two files wait; tablets and newer files arrive before every retrieval. -/
theorem bulk_served_within_busy :
    let event (content : Content) : Event := {
      content := content, pipe := "p", region := 0, commit := .zero, progress := 0 }
    let file (id : EventId) : EventRef :=
      ⟨id, event (.file { data := "/d", mods := none, flushPoints := 0 })⟩
    let tablet (id : EventId) : EventRef :=
      ⟨id, event (.tablet { target := "", rows := 0, payload := [] })⟩
    let q : Realtime := {
      pipe := "q", settings := { bulkThreshold := 1, bulkPeriod := 2 }, block := 0
      channels := { bulk := [file 0, file 1] } }
    let ops : List Operation :=
      (List.range 8).flatMap fun i =>
        [.offer (tablet (2 * i + 2)), .offer (file (2 * i + 3)), .poll]
    ∃ before, before ++ [.poll] <+: ops ∧ before.count .poll < 8 ∧
      ((q.after {} before).1.poll (q.after {} before).2).2.2 = some (file 1) := by
  intro event file tablet q ops
  have spared : ∀ o ∈ ops, o.spares (file 1) = true := by decide +kernel
  have allowed : ∀ before ∈ ops.inits,
      (q.after {} before).1.bulkAllowed (q.after {} before).2 = true := by decide +kernel
  have polls : (1 + 1) * q.settings.effectivePeriod * (q.settings.bulkThreshold + 1) ≤
      ops.count .poll := by decide +kernel
  exact bulk_served_within q {} (file 1) 1 ops rfl spared
    (fun before hbefore => allowed before ((List.mem_inits _ _).mpr
      ((List.prefix_append before [.poll]).trans hbefore))) polls

end Realtime

end Queue
end Courier
