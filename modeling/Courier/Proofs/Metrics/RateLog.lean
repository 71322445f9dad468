import Courier.Metrics.RateLog
import Mathlib.Algebra.GroupWithZero.Nat

/-!
What a log of failures tells of a whole history of them. A failure is logged when the interval has
passed since the last one that was, the first in any case; and whatever is not logged is counted by
the next line, or is still to be counted. So what the lines say adds up to the failures there were.
-/

namespace Courier
namespace Metrics
namespace RateLog

/-- A failure that was reported, with the line that was written of it. -/
structure Entry where
  call : Call
  line : Option Line
  deriving DecidableEq, Repr

/-- The log after some failures, one after the other, and what came of each. -/
def logAll (l : RateLog) : List Call → RateLog × List Entry
  | [] => (l, [])
  | call :: calls =>
      let (l, line) := l.log call
      let (l, entries) := l.logAll calls
      (l, ⟨call, line⟩ :: entries)

/-- The last failure that was logged. -/
def lastLogged? (entries : List Entry) : Option Call :=
  (entries.reverse.find? fun e => e.line.isSome).map Entry.call

/-- How many failures were left out since the last that was logged. -/
def pending (entries : List Entry) : Nat :=
  (entries.reverse.takeWhile fun e => e.line.isNone).length

def written (entries : List Entry) : List Line := entries.filterMap Entry.line

/-- What the lines say was left out, all together. -/
def reported (entries : List Entry) : Nat := ((written entries).map Line.suppressed).sum

section Entries

variable {entries : List Entry} {call : Call} {line : Line}

theorem lastLogged?_written : lastLogged? (entries ++ [⟨call, some line⟩]) = some call := by
  simp [lastLogged?]

theorem lastLogged?_left_out : lastLogged? (entries ++ [⟨call, none⟩]) = lastLogged? entries := by
  simp [lastLogged?]

theorem pending_written : pending (entries ++ [⟨call, some line⟩]) = 0 := by
  simp [pending]

theorem pending_left_out : pending (entries ++ [⟨call, none⟩]) = pending entries + 1 := by
  simp [pending]

theorem pending_le (entries : List Entry) : pending entries ≤ entries.length := by
  rw [← List.length_reverse]
  exact (List.takeWhile_sublist _).length_le

theorem written_append (more : List Entry) :
    written (entries ++ more) = written entries ++ written more :=
  List.filterMap_append

theorem reported_append (more : List Entry) :
    reported (entries ++ more) = reported entries + reported more := by
  simp [reported, written_append]

end Entries

/-- The log agrees with what came of the failures so far. Its counts are words. -/
structure Tells (interval : Duration) (l : RateLog) (entries : List Entry) : Prop where
  interval : l.interval = interval
  last : l.lastLogged = (lastLogged? entries).map Call.at_
  begun : entries = [] ∨ (lastLogged? entries).isSome = true
  suppressed : l.suppressed = pending entries % Word.size
  total : l.total = entries.length % Word.size
  balance : ∃ turns, entries.length =
    (written entries).length + reported entries + l.suppressed + turns * Word.size

/-- What is right about a line, or that there is none, after some others. -/
structure Entry.IsRight (interval : Duration) (past : List Entry) (e : Entry) : Prop where
  logged : e.line.isSome = true ↔
    past = [] ∨ ∃ last ∈ lastLogged? past, last.at_.nanos + interval.nanos ≤ e.call.at_.nanos
  told : ∀ line ∈ e.line, line = {
    severity := e.call.severity
    message := e.call.message
    error := e.call.error
    suppressed := pending past % Word.size
    total := (past.length + 1) % Word.size }

variable {interval : Duration} {l : RateLog} {entries : List Entry}

theorem tells_of_new (interval : Duration) : Tells interval { interval } [] where
  interval := rfl
  last := rfl
  begun := .inl rfl
  suppressed := rfl
  total := rfl
  balance := ⟨0, rfl⟩

namespace Tells

theorem isDue_iff (h : Tells interval l entries) {call : Call}
    (later : ∀ e ∈ entries, e.call.at_.nanos ≤ call.at_.nanos) :
    l.isDue call.at_ = true ↔ entries = [] ∨
      ∃ last ∈ lastLogged? entries, last.at_.nanos + interval.nanos ≤ call.at_.nanos := by
  have hlast := h.last
  cases hfound : lastLogged? entries with
  | none =>
      have hempty := h.begun.resolve_right (by simp [hfound])
      rw [hfound] at hlast
      simp [isDue, hlast, hempty]
  | some last =>
      have hmem : ∃ e ∈ entries, e.call = last := by
        obtain ⟨e, he, rfl⟩ := Option.map_eq_some_iff.mp hfound
        exact ⟨e, List.mem_reverse.mp (List.mem_of_find?_eq_some he), rfl⟩
      obtain ⟨e, he, rfl⟩ := hmem
      have hnonempty : entries ≠ [] := List.ne_nil_of_mem he
      have hle := later e he
      rw [hfound] at hlast
      simp only [isDue, hlast, Option.map_some, h.interval, decide_eq_true_eq, Option.mem_def,
        Option.some.injEq, exists_eq_left', hnonempty, false_or]
      omega

/-- One more failure: the log goes on to agree, and what it writes is right. -/
theorem log (h : Tells interval l entries) {call : Call}
    (later : ∀ e ∈ entries, e.call.at_.nanos ≤ call.at_.nanos) :
    Tells interval (l.log call).1 (entries ++ [⟨call, (l.log call).2⟩]) ∧
      Entry.IsRight interval entries ⟨call, (l.log call).2⟩ := by
  have hdue := h.isDue_iff later
  have hnow : ({ l with total := Word.add l.total 1 } : RateLog).isDue call.at_ =
      l.isDue call.at_ := rfl
  have htotal : Word.add l.total 1 = (entries.length + 1) % Word.size := by
    rw [Word.add, h.total, Nat.mod_add_mod]
  obtain ⟨turns, hbalance⟩ := h.balance
  cases hlogged : l.isDue call.at_ with
  | true =>
      have hlog : l.log call = ({ l with
          total := Word.add l.total 1, lastLogged := some call.at_, suppressed := 0 }, some {
          severity := call.severity, message := call.message, error := call.error
          suppressed := l.suppressed, total := Word.add l.total 1 }) := by
        simp only [RateLog.log, record, hnow, hlogged, if_true]
      rw [hlog]
      refine ⟨⟨h.interval, ?_, .inr ?_, ?_, ?_, turns, ?_⟩, ⟨?_, ?_⟩⟩
      · rw [lastLogged?_written]
        rfl
      · rw [lastLogged?_written]
        rfl
      · rw [pending_written]
        rfl
      · rw [List.length_append]
        exact htotal
      · rw [written_append, reported_append, List.length_append, List.length_append, hbalance]
        simp [written, reported]
        omega
      · exact iff_of_true rfl (hdue.mp hlogged)
      · rintro line ⟨⟩
        rw [h.suppressed, htotal]
  | false =>
      have hlog : l.log call = ({ l with
          total := Word.add l.total 1, suppressed := Word.add l.suppressed 1 }, none) := by
        simp only [RateLog.log, record, hnow, hlogged, Bool.false_eq_true, if_false]
      rw [hlog]
      have hsuppressed : Word.add l.suppressed 1 = (pending entries + 1) % Word.size := by
        rw [Word.add, h.suppressed, Nat.mod_add_mod]
      have hnotDue := mt hdue.mpr (Bool.eq_false_iff.mp hlogged)
      refine ⟨⟨h.interval, ?_, .inr ?_, ?_, ?_, turns + (l.suppressed + 1) / Word.size, ?_⟩,
        ⟨?_, fun line hline => by cases hline⟩⟩
      · rw [lastLogged?_left_out]
        exact h.last
      · rw [lastLogged?_left_out]
        exact h.begun.resolve_left fun hempty => hnotDue (.inl hempty)
      · rw [pending_left_out]
        exact hsuppressed
      · rw [List.length_append]
        exact htotal
      -- The count may turn over here; then a whole word is neither told of nor pending any more.
      · have hturn := Nat.mod_add_div (l.suppressed + 1) Word.size
        rw [written_append, reported_append, List.length_append, List.length_append, hbalance,
          Word.add, Nat.add_mul, Nat.mul_comm (_ / _)]
        simp [written, reported]
        omega
      · exact iff_of_false Bool.false_ne_true hnotDue

end Tells

theorem calls_logAll (l : RateLog) (calls : List Call) :
    (l.logAll calls).2.map Entry.call = calls := by
  induction calls generalizing l with
  | nil => rfl
  | cons call calls ih => exact congrArg (call :: ·) (ih _)

/-- More failures, none before those that there were. -/
theorem Tells.logAll (h : Tells interval l entries) (calls : List Call)
    (ordered : (entries.map Entry.call ++ calls).Pairwise fun a b => a.at_.nanos ≤ b.at_.nanos) :
    Tells interval (l.logAll calls).1 (entries ++ (l.logAll calls).2) ∧
      ∀ past e rest, (l.logAll calls).2 = past ++ e :: rest →
        Entry.IsRight interval (entries ++ past) e := by
  induction calls generalizing l entries with
  | nil =>
      refine ⟨by simpa [RateLog.logAll] using h, fun past e rest heq => ?_⟩
      cases past <;> cases heq
  | cons call calls ih =>
      -- The induction carries the past along, as every entry is judged by what came before it.
      have hlater : ∀ e ∈ entries, e.call.at_.nanos ≤ call.at_.nanos := fun e he =>
        (List.pairwise_append.mp ordered).2.2 _ (List.mem_map_of_mem he) _ (List.mem_cons_self ..)
      obtain ⟨hnext, hright⟩ := h.log hlater
      obtain ⟨hend, hrest⟩ := ih hnext (by simpa using ordered)
      have hlogAll : l.logAll (call :: calls) = (((l.log call).1.logAll calls).1,
          ⟨call, (l.log call).2⟩ :: ((l.log call).1.logAll calls).2) := rfl
      rw [hlogAll]
      refine ⟨?_, fun past e rest heq => ?_⟩
      · rwa [List.append_assoc] at hend
      · cases past with
        | nil =>
            obtain ⟨rfl, -⟩ := List.cons.inj heq
            rwa [List.append_nil]
        | cons first past =>
            obtain ⟨rfl, hpast⟩ := List.cons.inj heq
            have hlast := hrest past e rest hpast
            rwa [List.append_assoc] at hlast

/-- The first failure is logged, and a later one if and only if the interval has passed since the
last that was. A line says how many were left out since the line before, and how many failures
there were; the log itself counts those that no line has told of yet. So the failures are those
that were logged, those that the lines tell of, and those still to be told of. The counts are
words, so that this is so up to multiples of the size of a word. -/
theorem failures_accounted (interval : Duration) {calls : List Call}
    (ordered : calls.Pairwise fun a b => a.at_.nanos ≤ b.at_.nanos) :
    let l : RateLog := { interval }
    let after := (l.logAll calls).1
    let entries := (l.logAll calls).2
    let told := (written entries).length + reported entries + after.suppressed
    entries.map Entry.call = calls ∧
      (∀ past e rest, entries = past ++ e :: rest → Entry.IsRight interval past e) ∧
      after.suppressed = pending entries % Word.size ∧
      after.total = calls.length % Word.size ∧
      after.total = told % Word.size ∧
      (calls.length < Word.size → after.total = told ∧ after.suppressed = pending entries ∧
        ∀ past e rest, entries = past ++ e :: rest →
          ∀ line ∈ e.line, line.suppressed = pending past ∧ line.total = past.length + 1) := by
  intro l after entries told
  obtain ⟨hend, hright⟩ := (tells_of_new interval).logAll calls ordered
  have hcalls : entries.map Entry.call = calls := calls_logAll l calls
  have hlength : entries.length = calls.length := by
    rw [← hcalls, List.length_map]
  obtain ⟨turns, hbalance⟩ := hend.balance
  have htold : calls.length = told + turns * Word.size := hlength ▸ hbalance
  have htotal : after.total = calls.length % Word.size := hlength ▸ hend.total
  refine ⟨hcalls, hright, hend.suppressed, htotal, ?_, fun fits => ?_⟩
  · rw [htotal, htold, Nat.add_mul_mod_self_right]
  · have hturns : turns = 0 := by
      refine (Nat.eq_zero_or_pos turns).resolve_right fun hpos => ?_
      have hle : Word.size ≤ turns * Word.size := Nat.le_mul_of_pos_left _ hpos
      omega
    refine ⟨?_, ?_, fun past e rest heq line hline => ?_⟩
    · rw [htotal, Nat.mod_eq_of_lt fits, htold, hturns, Nat.zero_mul, Nat.add_zero]
    · have hpending : pending entries < Word.size :=
        Nat.lt_of_le_of_lt (pending_le entries) (hlength ▸ fits)
      exact hend.suppressed.trans (Nat.mod_eq_of_lt hpending)
    · have hpast : past.length + 1 < Word.size := by
        refine Nat.lt_of_le_of_lt ?_ fits
        rw [← hlength, heq, List.length_append, List.length_cons]
        omega
      have hpending : pending past < Word.size :=
        Nat.lt_of_le_of_lt (pending_le past) (Nat.lt_of_succ_lt hpast)
      rw [(hright past e rest heq).told line hline]
      exact ⟨Nat.mod_eq_of_lt hpending, Nat.mod_eq_of_lt hpast⟩

/-- Six failures, ten nanoseconds between two lines: the first is logged, the fourth tells of two
that were left out, and the last of one. -/
theorem failures_accounted_of_burst :
    let call (severity : Severity) (at_ : Nat) : Call := ⟨severity, "send failed", "refused", ⟨at_⟩⟩
    let calls := [call .warn 0, call .warn 3, call .error 9, call .warn 10, call .error 11,
      call .error 25]
    let done := ({ interval := ⟨10⟩ } : RateLog).logAll calls
    (calls.Pairwise fun a b => a.at_.nanos ≤ b.at_.nanos) ∧
      written done.2 = [⟨.warn, "send failed", "refused", 0, 1⟩,
        ⟨.warn, "send failed", "refused", 2, 4⟩, ⟨.error, "send failed", "refused", 1, 6⟩] ∧
      done.1.total = (written done.2).length + reported done.2 + done.1.suppressed := by
  intro call calls done
  have hordered : calls.Pairwise fun a b => a.at_.nanos ≤ b.at_.nanos := by decide
  obtain ⟨-, -, -, -, -, hexact⟩ := failures_accounted ⟨10⟩ hordered
  exact ⟨hordered, by decide, (hexact (by decide)).1⟩

end RateLog
end Metrics
end Courier
