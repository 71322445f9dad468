import Courier.Event
import Courier.Event.Backoff
import Courier.Text.Quoted

/-!
The ledger of references: for every event how many stages hold it, whether it was released, how
often its release hook ran, and the pause before it is tried again. A count that reached zero never
rises again.
-/

namespace Courier

/-- The life of one event, which its creator holds first. -/
structure Lifecycle where
  count : Nat := 1
  released : Bool := false
  /-- Runs of the release hook. -/
  releases : Nat := 0
  retryMs : Nat := Backoff.standard
  deriving DecidableEq, Repr

namespace Lifecycle

instance : Inhabited Lifecycle := ⟨{}⟩

/-- Marks the event released; the hook runs the first time. -/
def release (l : Lifecycle) : Lifecycle :=
  if l.released then l else { l with released := true, releases := l.releases + 1 }

/-- One more holder, unless there is none left. -/
def hold (l : Lifecycle) : Lifecycle × Bool :=
  if 0 < l.count then ({ l with count := l.count + 1 }, true) else (l, false)

/-- One holder less; the last one releases the event. -/
def drop (l : Lifecycle) : Lifecycle × Bool :=
  if l.count = 0 then (l, false)
  else if l.count = 1 then (({ l with count := 0 } : Lifecycle).release, true)
  else ({ l with count := l.count - 1 }, true)

/-- All holders at once. -/
def clear (l : Lifecycle) : Lifecycle × Bool :=
  if 0 < l.count then (({ l with count := 0 } : Lifecycle).release, true) else (l, false)

def backOff (l : Lifecycle) : Lifecycle := { l with retryMs := Backoff.next l.retryMs }

def resetRetry (l : Lifecycle) (ms : Nat) : Lifecycle := { l with retryMs := Backoff.clamp ms }

end Lifecycle

structure Ledger where
  entries : Array Lifecycle := #[]
  deriving Repr

namespace Ledger

def get (l : Ledger) (id : EventId) : Lifecycle := l.entries.getD id {}

def set (l : Ledger) (id : EventId) (entry : Lifecycle) : Ledger :=
  ⟨l.entries.setIfInBounds id entry⟩

/-- Opens an entry; the event's id is the number of entries before. -/
def enrol (l : Ledger) (retryMs : Nat) : Ledger :=
  ⟨l.entries.push { retryMs := Backoff.clamp retryMs }⟩

def update (l : Ledger) (id : EventId) (f : Lifecycle → Lifecycle × Bool) : Ledger × Bool :=
  let result := f (l.get id)
  (l.set id result.1, result.2)

def hold (l : Ledger) (id : EventId) : Ledger × Bool := l.update id Lifecycle.hold

def drop (l : Ledger) (id : EventId) : Ledger × Bool := l.update id Lifecycle.drop

def clear (l : Ledger) (id : EventId) : Ledger × Bool := l.update id Lifecycle.clear

def backOff (l : Ledger) (id : EventId) : Ledger := l.set id (l.get id).backOff

def resetRetry (l : Ledger) (id : EventId) (ms : Nat) : Ledger :=
  l.set id ((l.get id).resetRetry ms)

def isReleased (l : Ledger) (id : EventId) : Bool := (l.get id).released

def retryMs (l : Ledger) (id : EventId) : Nat := (l.get id).retryMs

def dropAll (l : Ledger) (events : List EventRef) : Ledger :=
  events.foldl (fun l e => (l.drop e.id).1) l

def clearAll (l : Ledger) (events : List EventRef) : Ledger :=
  events.foldl (fun l e => (l.clear e.id).1) l

/-- Clears every event and counts those that this released. -/
def clearCounting (l : Ledger) (events : List EventRef) : Ledger × Nat :=
  events.foldl (fun acc e =>
    let result := acc.1.clear e.id
    (result.1, acc.2 + (if result.2 then 1 else 0))) (l, 0)

theorem get_set_self (l : Ledger) (id : EventId) (entry : Lifecycle) (h : id < l.entries.size) :
    (l.set id entry).get id = entry := by
  simp [get, set, h]

theorem get_set_ne (l : Ledger) {id other : EventId} (entry : Lifecycle) (h : other ≠ id) :
    (l.set id entry).get other = l.get other := by
  simp [get, set, Ne.symm h]

def describe (l : Ledger) (e : EventRef) : String :=
  let entry := l.get e.id
  let c := e.event.commit
  "EnrichedEvent \x7b kind: " ++ e.event.kind.title ++
    ", pipe_name: " ++ Text.quoted e.event.pipe ++
    ", region_id: " ++ toString e.event.region ++
    ", commit_id: CommitId \x7b reboot_times: " ++ toString c.reboot ++
    ", restart_times: " ++ toString c.restart ++
    ", replicate_index: " ++ toString c.index ++ " \x7d" ++
    ", reference_count: " ++ toString entry.count ++
    ", released: " ++ toString entry.released ++ " \x7d"

end Ledger
end Courier
