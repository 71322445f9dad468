import Courier.Proofs.Pipe.Settling

/-!
The meter of a pipe: what it counts of pieces, beside what it heard from its peer. Whatever a pipe
does leaves the meter alone, unless it looks for an answer.
-/

namespace Courier

open Transfer

namespace Pipe

variable {P : Type} {p p' : Pipe P} {policy : StatusPolicy}

/-- A request that has come to an end, and what came of it. -/
def Occurrence.answered? : Occurrence → Option Answered
  | .answered request answer => some { request, answer }
  | _ => none

/-- What the pipe heard, newest first. -/
def heard (p : Pipe P) : List Answered := p.trace.filterMap Occurrence.answered?

/-- What is counted of pieces, by which policy answers are judged, and what was heard. -/
structure Meter where
  counts : PieceCounts
  policy : StatusPolicy
  heard : List Answered

def meter (p : Pipe P) : Meter where
  counts := p.connector.stats.pieceCounts
  policy := p.connector.statusPolicy
  heard := p.heard

/-- Answers are judged by this policy, and the counts are those of what was heard. -/
structure Meter.IsRight (policy : StatusPolicy) (m : Meter) : Prop where
  judges : m.policy = policy
  counts : m.counts = .of policy m.heard

/-- The meter reads what is told of answers, and nothing of what tasks fail at. -/
theorem meter_of_news (unheard : List Occurrence) (setup : p'.setup = p.setup)
    (pieces : p'.connector.stats.pieceCounts = p.connector.stats.pieceCounts)
    (news : p'.news = unheard ++ p.news)
    (unanswered : ∀ o ∈ unheard, o.answered? = none) : p'.meter = p.meter := by
  have hsilent (o : Occurrence) (silent : o.isSilent = true) : o.answered? = none := by
    cases o with
    | answered => cases silent
    | _ => rfl
  have hheard : p'.heard = p.heard := by
    rw [heard, ← p'.filterMap_news hsilent, news, List.filterMap_append,
      List.filterMap_eq_nil_iff.mpr unanswered, List.nil_append, p.filterMap_news hsilent, heard]
  have hpolicy : p'.connector.statusPolicy = p.connector.statusPolicy :=
    congrArg Setup.statusPolicy setup
  simp only [meter, pieces, hpolicy, hheard]

theorem Silent.meter (h : Silent p p') : p'.meter = p.meter :=
  meter_of_news [] h.setup (congrArg _ h.stats) h.news
    fun _ ho => absurd ho List.not_mem_nil

theorem answered?_of_queuings {events : List EventRef} {o : Occurrence} (ho : o ∈ queuings events) :
    o.answered? = none := by
  obtain ⟨e, -, rfl⟩ := List.mem_map.mp (List.mem_reverse.mp ho)
  rfl

theorem Hands.meter {events : List EventRef} (h : Hands events p p') : p'.meter = p.meter :=
  meter_of_news _ h.setup (congrArg _ h.stats) h.news fun _ => answered?_of_queuings

theorem Fares.meter {inHand : List EventRef} (h : Fares inHand p p') : p'.meter = p.meter := by
  cases h with
  | well setup pieces retries news =>
      exact meter_of_news [] setup pieces news fun _ ho => absurd ho List.not_mem_nil
  | badly error increases setup stats news =>
      have hpieces := congrArg Metrics.TransferStats.pieceCounts stats
      refine meter_of_news (queuings (p.retriable inHand) ++ [.failed error increases]) setup
        hpieces (by rw [news, List.append_assoc, List.singleton_append]) fun o ho => ?_
      rcases List.mem_append.mp ho with ho | ho
      · exact answered?_of_queuings ho
      · rw [List.mem_singleton.mp ho]
        rfl

end Pipe
end Courier
