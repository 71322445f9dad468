import Courier.Duration

/-!
A log of failures that writes at most one line per interval and counts what it leaves out.
-/

namespace Courier
namespace Metrics

structure RateLog where
  interval : Duration := .ofSeconds 10
  lastLogged : Option Duration := none
  suppressed : Nat := 0
  total : Nat := 0
  deriving DecidableEq, Repr

namespace RateLog

inductive Severity
  | warn
  | error
  deriving DecidableEq, Repr

/-- A failure, as it is reported to the log. -/
structure Call where
  severity : Severity
  message : String
  error : String
  at_ : Duration
  deriving DecidableEq, Repr

/-- What is written of a failure: how many were left out since the line before, and how many there
were in all. -/
structure Line where
  severity : Severity
  message : String
  error : String
  suppressed : Nat
  total : Nat
  deriving DecidableEq, Repr

def isDue (l : RateLog) (now : Duration) : Bool :=
  match l.lastLogged with
  | none => true
  | some last => l.interval.nanos ≤ now.nanos - last.nanos

/-- Takes in a failure. If it is logged, the line reports how many were left out before it. -/
def record (l : RateLog) (now : Duration) : RateLog × Option Nat :=
  let l := { l with total := Word.add l.total 1 }
  if l.isDue now then ({ l with lastLogged := some now, suppressed := 0 }, some l.suppressed)
  else ({ l with suppressed := Word.add l.suppressed 1 }, none)

/-- Takes in a failure, whatever its severity, and writes a line if it is to be logged. -/
def log (l : RateLog) (call : Call) : RateLog × Option Line :=
  match l.record call.at_ with
  | (l, some suppressed) =>
      let { severity, message, error, .. } := call
      (l, some { severity, message, error, suppressed, total := l.total })
  | (l, none) => (l, none)

end RateLog
end Metrics
end Courier
