import Courier.Pipe.Calls

/-!
One order among the many in which the tasks of a pipe may run: first come, first served. Tasks that
can go on are queued in the order in which they began to wait, and a task that needs no wait goes on
at once. The clock stands still while anything can run, and then jumps to the next moment at which
something can.
-/

namespace Courier

open Transfer

structure Schedule (P : Type) where
  pipe : Pipe P
  ready : List Pipe.TaskId := []

namespace Schedule

variable {P : Type}

/-- Queues the tasks that can run and are not queued yet. -/
def refill (s : Schedule P) : Schedule P :=
  let fresh := s.pipe.tasks.filter fun t => s.pipe.canRun t && !s.ready.contains t.id
  { s with ready := s.ready ++ fresh.map (·.id) }

/-- The task goes on without waiting for others. -/
def goesOn (p : Pipe P) (id : Pipe.TaskId) : Bool :=
  match p.task? id with
  | some .consuming => true
  | some (.tablets _ (.exchanging _ exchange _)) =>
      exchange.wakeAt ≤ p.now && exchange.outcome.reaction != .pass
  | _ => false

/-- More steps than a run of the size this is used for takes. -/
def bound : Nat := 1000000000

def atMost (limit : Option Nat) (moment : Nat) : Bool :=
  match limit with
  | some latest => moment ≤ latest
  | none => true

/-- The clock at its limit, if there is one. -/
def atLimit (s : Schedule P) : Option Nat → Schedule P
  | some latest => { s with pipe := s.pipe.setClock (max s.pipe.now latest) }
  | none => s

variable [Batch.Payload P]

def runNext (s : Schedule P) (id : Pipe.TaskId) (rest : List Pipe.TaskId) : Schedule P :=
  let pipe := s.pipe.run id
  refill { pipe, ready := if goesOn pipe id then id :: rest else rest }

/-- Runs until `stop` holds, until the clock would pass the limit, or until nothing can happen. -/
def drive : Nat → (Pipe P → Bool) → Option Nat → Schedule P → Schedule P
  | 0, _, _, s => s
  | fuel + 1, stop, limit, s =>
      if stop s.pipe then s
      else
        match s.ready with
        | id :: rest => drive fuel stop limit (s.runNext id rest)
        | [] =>
            match s.pipe.nextWake with
            | none => s.atLimit limit
            | some moment =>
                if atMost limit moment then
                  drive fuel stop limit
                    (refill { s with pipe := s.pipe.setClock (max s.pipe.now moment) })
                else s.atLimit limit

def runUntil (s : Schedule P) (stop : Pipe P → Bool) : Schedule P := drive bound stop none s.refill

/-- Runs until the clock shows `moment` and nothing can run. -/
def runTo (s : Schedule P) (moment : Nat) : Schedule P :=
  drive bound (fun _ => false) (some moment) s.refill

def await (s : Schedule P) (id : Pipe.TaskId) : Schedule P :=
  s.runUntil fun p => !p.isUnderWay id

end Schedule
end Courier
