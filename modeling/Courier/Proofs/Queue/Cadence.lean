import Courier.Proofs.Queue.Conservation
import Mathlib.Data.List.Infix

/-!
How close files come to one another. While a live event waits, a file is served only when the count
of retrievals has reached the threshold, and the count starts again with it. The count may fall for
other reasons, when the files turn out to be none, but it never grows by more than one; so between
two files there are as many live events as the threshold says. While files wait too and may be
served, nothing but a file resets the count, and their turns can be told in advance.
-/

namespace Courier
namespace Queue

namespace Channels

variable {c c' : Channels}

/-- What a retrieval does while a live event waits: it serves a file whose turn it is, or a live
event. It cannot be a live one's turn when the count is full and a file may be served. -/
inductive Turn (c c' : Channels) (threshold : Nat) (allowed : Bool) (e : EventRef) : Prop
  | file (mem : e ∈ c.bulk) (due : threshold ≤ c.sinceBulk) (reset : c'.sinceBulk = 0)
  | live (mem : e ∈ c.live) (grown : c'.sinceBulk ≤ c.sinceBulk + 1)
      (early : c.bulk ≠ [] → allowed = true →
        c.sinceBulk < threshold ∧ c'.sinceBulk = c.sinceBulk + 1)

theorem mem_of_popBulk {period : Nat} {e : EventRef} (h : (c.popBulk period).2 = some e) :
    e ∈ c.bulk := by
  rcases c.popBulk_ends period with ⟨-, hpop⟩ | ⟨c', first, hpop, -, hends⟩
  · rw [hpop] at h
    cases h
  · rw [hpop] at h
    cases h
    rcases hends with hbulk | hbulk <;> simp [hbulk]

theorem popBulk_eq_none_iff {period : Nat} : (c.popBulk period).2 = none ↔ c.bulk = [] := by
  rcases c.popBulk_ends period with ⟨hbulk, hpop⟩ | ⟨c', first, hpop, -, hends⟩
  · simp [hpop, hbulk]
  · rcases hends with hbulk | hbulk <;> simp [hpop, hbulk]

theorem turn_pop (threshold period : Nat) (allowed : Bool) (busy : c.live ≠ []) :
    ∃ e, (c.pop threshold period allowed).2.map Prod.fst = some e ∧
      c.Turn (c.pop threshold period allowed).1 threshold allowed e := by
  obtain ⟨first, rest, hlive⟩ := List.exists_cons_of_ne_nil busy
  have hmem : first ∈ c.live := hlive ▸ List.mem_cons_self
  by_cases hturn : threshold ≤ c.sinceBulk ∧ allowed = true
  · obtain ⟨hdue, rfl⟩ := hturn
    simp only [pop, hdue, decide_true, Bool.and_true, if_true]
    split
    · rename_i served e hpop
      exact ⟨e, rfl, .file (mem_of_popBulk (congrArg Prod.snd hpop)) hdue rfl⟩
    · -- the count is reset although there is no file to serve
      rename_i served hpop
      have hnone : c.bulk = [] := popBulk_eq_none_iff.mp (congrArg Prod.snd hpop)
      have hserved : served = c := by simpa [popBulk, hnone] using hpop.symm
      simp only [popOrdinary, hserved, hlive]
      exact ⟨first, rfl, .live hmem (by simp) (fun hsome => absurd hnone hsome)⟩
  · have hordinary : c.pop threshold period allowed = c.popOrdinary period allowed :=
      if_neg (by simpa using hturn)
    simp only [hordinary, popOrdinary, hlive]
    exact ⟨first, rfl, .live hmem (Nat.le_refl _) fun _ hallowed =>
      ⟨Nat.lt_of_not_le fun hdue => hturn ⟨hdue, hallowed⟩, rfl⟩⟩

end Channels

/-- Results of retrievals that found a live event waiting, from a count of retrievals on. With
`steady`, files were waiting as well and might be served. -/
inductive Paced (threshold : Nat) (steady : Prop) : Nat → List (Option EventRef) → Prop
  | nil {count : Nat} : Paced threshold steady count []
  | file {count : Nat} {e : EventRef} {rest : List (Option EventRef)}
      (heavy : e.event.isBulk = true) (due : threshold ≤ count)
      (next : Paced threshold steady 0 rest) : Paced threshold steady count (some e :: rest)
  | live {count count' : Nat} {e : EventRef} {rest : List (Option EventRef)}
      (light : e.event.isBulk = false) (grown : count' ≤ count + 1)
      (early : steady → count < threshold ∧ count' = count + 1)
      (next : Paced threshold steady count' rest) : Paced threshold steady count (some e :: rest)

namespace Paced

variable {threshold count : Nat} {steady : Prop} {a b : EventRef}
  {before between rest results : List (Option EventRef)}

/-- After a file the count starts again. -/
theorem restart (h : Paced threshold steady count (before ++ some a :: rest))
    (heavy : a.event.isBulk = true) : Paced threshold steady 0 rest := by
  induction before generalizing count with
  | nil =>
      cases h with
      | file _ _ next => exact next
      | live light => simp [heavy] at light
  | cons result before ih =>
      cases h with
      | file _ _ next => exact ih next
      | live _ _ _ next => exact ih next

/-- What the count lacks comes before the next file. -/
theorem le_count (h : Paced threshold steady count (between ++ some b :: rest))
    (heavy : b.event.isBulk = true) :
    threshold ≤ count + between.countP (Option.any fun e => !e.event.isBulk) := by
  induction between generalizing count with
  | nil =>
      cases h with
      | file _ due => exact due
      | live light => simp [heavy] at light
  | cons result between ih =>
      cases h with
      | file _ due next => exact Nat.le_add_right_of_le due
      | live light grown early next =>
          rw [List.countP_cons_of_pos (by simp [light])]
          have hrest := ih next
          omega

/-- With nothing in the way, a file comes as soon as the count is full, and then in every round. -/
theorem file_iff (h : Paced threshold steady count results) (always : steady) {k : Nat}
    (hk : k < results.length) :
    (∃ e, results[k]? = some (some e) ∧ e.event.isBulk = true) ↔
      ∃ n, k = threshold - count + n * (threshold + 1) := by
  induction h generalizing k with
  | nil => exact absurd hk (Nat.not_lt_zero k)
  | @file count e rest heavy due next ih =>
      have hfirst : threshold - count = 0 := Nat.sub_eq_zero_of_le due
      cases k with
      | zero => exact iff_of_true ⟨e, rfl, heavy⟩ ⟨0, by omega⟩
      | succ k =>
          rw [List.getElem?_cons_succ, ih (Nat.lt_of_succ_lt_succ hk), hfirst]
          constructor
          · rintro ⟨n, rfl⟩
            exact ⟨n + 1, by rw [Nat.succ_mul]; omega⟩
          · rintro ⟨n, hround⟩
            cases n with
            | zero => omega
            | succ n => exact ⟨n, by rw [Nat.succ_mul] at hround; omega⟩
  | @live count count' e rest light grown early next ih =>
      obtain ⟨hearly, rfl⟩ := early always
      cases k with
      | zero =>
          refine iff_of_false ?_ ?_
          · rintro ⟨e', he', heavy⟩
            cases he'
            simp [heavy] at light
          · rintro ⟨n, hround⟩
            omega
      | succ k =>
          rw [List.getElem?_cons_succ, ih (Nat.lt_of_succ_lt_succ hk)]
          exact exists_congr fun n => by omega

end Paced

namespace Realtime

variable {q : Realtime} {commons : Commons}

/-- What the retrievals of a history come back with, one after the other. -/
def retrievals : Realtime → Commons → List Operation → List (Option EventRef)
  | _, _, [] => []
  | q, commons, o :: ops =>
      let rest := retrievals (q.after commons [o]).1 (q.after commons [o]).2 ops
      if o = .poll then (q.poll commons).2.2 :: rest else rest

/-- Before every retrieval of a history, the queue and what it shares are as `P` says. -/
def BeforePolls (P : Realtime → Commons → Prop) (q : Realtime) (commons : Commons)
    (ops : List Operation) : Prop :=
  ∀ before, before ++ [.poll] <+: ops → P (q.after commons before).1 (q.after commons before).2

theorem length_retrievals (q : Realtime) (commons : Commons) (ops : List Operation) :
    (q.retrievals commons ops).length = ops.count .poll := by
  induction ops generalizing q commons with
  | nil => rfl
  | cons o ops ih =>
      by_cases hpoll : o = .poll
      · simp [retrievals, hpoll, ih]
      · simp [retrievals, hpoll, ih]

theorem BeforePolls.first {P : Realtime → Commons → Prop} {ops : List Operation}
    (h : BeforePolls P q commons (.poll :: ops)) : P q commons :=
  h [] ⟨ops, rfl⟩

theorem BeforePolls.rest {P : Realtime → Commons → Prop} {o : Operation} {ops : List Operation}
    (h : BeforePolls P q commons (o :: ops)) :
    BeforePolls P (q.after commons [o]).1 (q.after commons [o]).2 ops :=
  fun before hbefore => h (o :: before) (List.cons_prefix_cons.mpr ⟨rfl, hbefore⟩)

theorem turn_poll (commons : Commons) (busy : q.channels.live ≠ []) :
    ∃ e, (q.poll commons).2.2 = some e ∧ q.channels.Turn (q.poll commons).1.channels
      q.settings.bulkThreshold (q.bulkAllowed commons) e := by
  obtain ⟨e, he, hturn⟩ := Channels.turn_pop q.settings.bulkThreshold q.settings.effectivePeriod
    (q.bulkAllowed commons) busy
  unfold poll
  split <;> rename_i hpop <;> rw [hpop] at he hturn
  · cases he
  · exact ⟨e, he, hturn⟩

/-- Only retrievals count. -/
theorem sinceBulk_perform (commons : Commons) {o : Operation} (other : o ≠ .poll)
    (single : o ≠ .drain) :
    (q.after commons [o]).1.channels.sinceBulk = q.channels.sinceBulk := by
  cases o with
  | poll => exact absurd rfl other
  | drain => exact absurd rfl single
  | offer e =>
      cases hpush : q.channels.push? e with
      | none => exact congrArg Channels.sinceBulk (offer_of_refused commons hpush).1
      | some channels =>
          have hsame : channels.sinceBulk = q.channels.sinceBulk := by
            unfold Channels.push? at hpush
            split at hpush
            · cases hpush
              rfl
            · split at hpush <;> cases hpush
              rfl
          exact (congrArg Channels.sinceBulk (offer_of_pushed commons hpush).1).trans hsame
  | discard pipe region =>
      have hchannels := (q.discardPipe_fields commons pipe region).1
      exact (congrArg Channels.sinceBulk hchannels :)
  | peek | list | clear | discardAll | shutdown | shared => rfl

theorem paced_retrievals {r : Register} (steady : Prop) {ops : List Operation}
    (accounts : r.Accounts q.channels) (single : .drain ∉ ops)
    (busy : BeforePolls (fun q _ => q.channels.live ≠ []) q commons ops)
    (ready : steady → BeforePolls (fun q commons =>
      q.channels.bulk ≠ [] ∧ q.bulkAllowed commons = true) q commons ops) :
    Paced q.settings.bulkThreshold steady q.channels.sinceBulk (q.retrievals commons ops) := by
  induction ops generalizing q commons r with
  | nil => exact .nil
  | cons o ops ih =>
      obtain ⟨r', -, hnext⟩ := accounts.moves commons o
      have haccounts : r'.Accounts (q.after commons [o]).1.channels := hnext
      have hsettings : (q.after commons [o]).1.settings = q.settings :=
        q.settings_perform commons o
      have hrest := ih haccounts (fun hdrain => single (List.mem_cons_of_mem o hdrain)) busy.rest
        fun always => (ready always).rest
      rw [hsettings] at hrest
      by_cases hpoll : o = .poll
      · subst hpoll
        obtain ⟨e, he, hturn⟩ := turn_poll commons busy.first
        rw [retrievals, if_pos rfl, he]
        cases hturn with
        | file mem due reset =>
            exact .file (accounts.heavy mem) due (reset ▸ hrest)
        | live mem grown early =>
            exact .live (accounts.light mem) grown
              (fun always => early (ready always).first.1 (ready always).first.2) hrest
      · have hdrain : o ≠ .drain := fun hdrain => single (hdrain ▸ List.mem_cons_self)
        rw [retrievals, if_neg hpoll, ← sinceBulk_perform commons hpoll hdrain]
        exact hrest

/-- In every state of a new queue, and for all that is done from there on while every retrieval
finds a live event waiting: between two retrievals of files there are at least as many of live
events as the threshold says. If each also finds a file that may be served, the files come when the
count is full and once in every `bulkThreshold + 1` retrievals after that. -/
theorem retrievals_cadence (pipe : String) (settings : Settings) (commons : Commons)
    (past ops : List Operation) :
    let start := Realtime.create pipe settings commons
    let s := start.1.after start.2 past
    let results := s.1.retrievals s.2 ops
    .drain ∉ ops → BeforePolls (fun q _ => q.channels.live ≠ []) s.1 s.2 ops →
      results.length = ops.count .poll ∧
      (∀ before a between b rest, results = before ++ some a :: (between ++ some b :: rest) →
        a.event.isBulk = true → b.event.isBulk = true →
        settings.bulkThreshold ≤ between.countP (Option.any fun e => !e.event.isBulk)) ∧
      (BeforePolls (fun q commons => q.channels.bulk ≠ [] ∧ q.bulkAllowed commons = true)
          s.1 s.2 ops →
        ∀ k < results.length, (∃ e, results[k]? = some (some e) ∧ e.event.isBulk = true) ↔
          ∃ n, k = settings.bulkThreshold - s.1.channels.sinceBulk +
            n * (settings.bulkThreshold + 1)) := by
  intro start s results single busy
  obtain ⟨r, -, haccounts⟩ := Register.accounts_new.follows (q := start.1) start.2 past
  have hsettings : s.1.settings = settings := start.1.settings_after start.2 past
  have hpaced := fun steady => paced_retrievals steady haccounts single busy
  rw [hsettings] at hpaced
  refine ⟨s.1.length_retrievals s.2 ops, fun before a between b rest hsplit ha hb => ?_,
    fun ready k hk => (hpaced True fun _ => ready).file_iff trivial hk⟩
  have hall := hpaced False False.elim
  rw [show s.1.retrievals s.2 ops = _ from hsplit] at hall
  have hbetween := (hall.restart ha).le_count hb
  rwa [Nat.zero_add] at hbetween

/-- A tablet was retrieved before; then a tablet and a file arrive before every retrieval, and what
another pipe instance has is discarded. -/
theorem retrievals_cadence_busy :
    let event (content : Content) : Event := {
      content := content, pipe := "p", region := 0, commit := .zero, progress := 0 }
    let file (id : EventId) : EventRef :=
      ⟨id, event (.file { data := "/d", mods := none, flushPoints := 0 })⟩
    let tablet (id : EventId) : EventRef :=
      ⟨id, event (.tablet { target := "", rows := 0, payload := [] })⟩
    let start := Realtime.create "q" { bulkThreshold := 2 } {}
    let s := start.1.after start.2
      [.offer (tablet 0), .offer (tablet 1), .offer (file 2), .poll]
    let ops : List Operation := (List.range 8).flatMap fun i =>
      [.offer (tablet (2 * i + 3)), .offer (file (2 * i + 4)), .discard "p" 1, .poll]
    let results := s.1.retrievals s.2 ops
    results.length = 8 ∧
    (∀ before a between b rest, results = before ++ some a :: (between ++ some b :: rest) →
      a.event.isBulk = true → b.event.isBulk = true →
      2 ≤ between.countP (Option.any fun e => !e.event.isBulk)) ∧
    ∀ k < 8, (∃ e, results[k]? = some (some e) ∧ e.event.isBulk = true) ↔ ∃ n, k = 1 + n * 3 := by
  intro event file tablet start s ops results
  have single : .drain ∉ ops := by decide +kernel
  have waiting : ∀ before ∈ ops.inits, (s.1.after s.2 before).1.channels.live ≠ [] ∧
      (s.1.after s.2 before).1.channels.bulk ≠ [] ∧
      (s.1.after s.2 before).1.bulkAllowed (s.1.after s.2 before).2 = true := by decide +kernel
  have waits : ∀ before, before ++ [.poll] <+: ops → before ∈ ops.inits := fun before hbefore =>
    (List.mem_inits _ _).mpr ((List.prefix_append before [.poll]).trans hbefore)
  obtain ⟨hlength, hbetween, hrounds⟩ := retrievals_cadence "q" { bulkThreshold := 2 } {}
    [.offer (tablet 0), .offer (tablet 1), .offer (file 2), .poll] ops single
    fun before hbefore => (waiting before (waits before hbefore)).1
  have height : results.length = 8 := hlength.trans (by decide +kernel)
  have hcount : s.1.channels.sinceBulk = 1 := by decide +kernel
  refine ⟨height, hbetween, fun k hk => ?_⟩
  have hround := hrounds (fun before hbefore => (waiting before (waits before hbefore)).2) k
    (Nat.lt_of_lt_of_eq hk height.symm)
  rwa [hcount] at hround

end Realtime

end Queue
end Courier
