import Courier.Metrics.Report

/-!
The reporter writes a report at every tick of its interval, the first at once, until it is stopped.
Speeds are those since the report before.
-/

namespace Courier
namespace Metrics

structure ReportSettings where
  enabled : Bool := true
  interval : Duration := .ofSeconds 10
  form : ReportForm := .human
  deriving DecidableEq, Repr

inductive ReporterError
  | zeroInterval
  deriving DecidableEq, Repr

structure Reporter where
  settings : ReportSettings := {}
  previous : Option Snapshot := none

/-- Lines of a text, without the ends that separate them. -/
def linesOf (text : String) : List String :=
  let lines := text.splitOn "\n"
  let last := lines.getLast?.getD ""
  let ended := lines.dropLast.map fun line =>
    if line.endsWith "\x0d" then (line.dropEnd 1).toString else line
  if last = "" then ended else ended ++ [last]

namespace Reporter

def report (r : Reporter) (s : Snapshot) : Reporter × String :=
  let rates := r.previous.bind fun earlier => s.ratesSince? earlier
  ({ r with previous := some s }, r.settings.form.render s rates)

def ticks (interval span : Nat) : List Nat :=
  (List.range ((span + interval - 1) / interval)).map (interval * ·)

def reportAll (r : Reporter) : List Snapshot → Reporter × List String
  | [] => (r, [])
  | s :: rest =>
      let (r, text) := r.report s
      let (r, texts) := reportAll r rest
      (r, text :: texts)

/-- What the reporter logs when it runs for so many nanoseconds. -/
def run (r : Reporter) (snapshotAt : Nat → Snapshot) (span : Nat) :
    Except ReporterError (List String) :=
  if !r.settings.enabled then .ok ["metrics reporting disabled"]
  else if r.settings.interval.nanos = 0 then .error .zeroInterval
  else
    .ok (["metrics reporter started"] ++
      (r.reportAll ((ticks r.settings.interval.nanos span).map snapshotAt)).2.flatMap linesOf ++
      ["metrics reporter shutting down"])

end Reporter
end Metrics
end Courier
