import Courier.Proofs.Queue.History

/-!
Any number of waiting retrievals at one queue, among others who use it. Every single step of a call
may be followed by a step of anybody else: between reading the number of signals and polling,
between reading the cap and taking an event, between finding nothing and going to sleep. Who changes
something that sleepers wait for first changes it and announces it later.

Where nobody comes in between, the steps are those of the queue as it is run: a round of a call is a
look, and an operation with its announcements is done as a whole.
-/

namespace Courier
namespace Queue

namespace Realtime

/-- Takes out an event under a cap that was read before. -/
def serve (q : Realtime) (commons : Commons) (allowed : Bool) :
    Realtime × Commons × Option EventRef :=
  match q.channels.pop q.settings.bulkThreshold q.settings.effectivePeriod allowed with
  | (channels, none) => (q.withChannels channels, commons, none)
  | (channels, some (e, bulk)) =>
      ({ q.withChannels channels with
          counter := q.counter.decrease e.event
          stats := q.stats.recordPolled bulk },
        { commons with memory := commons.memory.reduceUsage q.block e.event.size },
        some e)

/-- A poll reads the cap and then serves. -/
theorem poll_eq_serve (q : Realtime) (commons : Commons) :
    q.poll commons = q.serve commons (q.bulkAllowed commons) := rfl

/-- No event can be retrieved. -/
def IsBare (q : Realtime) (commons : Commons) : Prop :=
  q.channels.live = [] ∧ (q.channels.bulk = [] ∨ q.bulkAllowed commons = false)

end Realtime

/-- How far a waiting call has come in its round. -/
inductive Stage
  | entering
  | arming
  /-- It has read how many signals there were. -/
  | halfArmed (signals : Nat)
  /-- It has read how many slots had been freed, too. -/
  | armed (w : Waiting)
  /-- It has read whether files may be served. -/
  | capped (w : Waiting) (allowed : Bool)
  /-- It has polled in vain. -/
  | polled (w : Waiting)
  | asleep (w : Waiting)
  | ended (event : Option EventRef)
  deriving DecidableEq, Repr

/-- A waiting call; `late` when the queue was shut down before it began. -/
structure Call where
  deadline : Nat
  late : Bool
  stage : Stage := .entering
  deriving DecidableEq, Repr

namespace Call

/-- The next step of a call. A sleeper goes on when there are news or its time is over. -/
def advance (q : Realtime) (commons : Commons) (c : Call) : Realtime × Commons × Call :=
  match c.stage with
  | .entering =>
      (q, commons, { c with stage := if q.isShutdown then .ended none else .arming })
  | .arming => (q, commons, { c with stage := .halfArmed q.signals })
  | .halfArmed signals =>
      (q, commons,
        { c with
          stage := .armed { deadline := c.deadline, signals, freed := commons.slots.freed } })
  | .armed w => (q, commons, { c with stage := .capped w (q.bulkAllowed commons) })
  | .capped w allowed =>
      match q.serve commons allowed with
      | (q, commons, some e) => (q, commons, { c with stage := .ended (some e) })
      | (q, commons, none) => (q, commons, { c with stage := .polled w })
  | .polled w =>
      (q, commons, { c with stage := if q.isShutdown then .ended none else .asleep w })
  | .asleep w =>
      if q.hasNews commons w then (q, commons, { c with stage := .entering })
      else if w.deadline ≤ commons.now then (q, commons, { c with stage := .ended none })
      else (q, commons, c)
  | .ended _ => (q, commons, c)

/-- What the call came back with. -/
def event? (c : Call) : Option EventRef :=
  match c.stage with
  | .ended event => event
  | _ => none

/-- All that the call can do is to wait, if it has not come back. -/
def Rests (q : Realtime) (commons : Commons) (c : Call) : Prop :=
  (∃ w, c.stage = .asleep w ∧ q.canResume commons w = false) ∨ ∃ event, c.stage = .ended event

end Call

namespace Operation

/-- What an operation brings into the queue. -/
def brought (q : Realtime) : Operation → List EventRef
  | .offer e => if (q.channels.push? e).isSome then [e] else []
  | _ => []

/-- What an operation takes out of it. -/
def took (q : Realtime) (commons : Commons) : Operation → List EventRef
  | .poll => (q.poll commons).2.2.toList
  | .drain => (q.drain commons).2.2
  | .clear | .discardAll => q.channels.toList
  | .discard pipe region => (q.channels.removePipe pipe region).2
  | _ => []

end Operation

/-- A queue, the calls that wait at it, and what has become of the events it accepted. -/
structure Crowd where
  queue : Realtime
  commons : Commons
  calls : List Call := []
  /-- Offers and shutdowns that were done and are still to be announced. -/
  unannounced : Nat := 0
  /-- Slots that were freed, which is still to be announced. -/
  unfreed : Nat := 0
  accepted : List EventRef
  /-- What others took out. -/
  elsewhere : List EventRef := []

/-- Something that may happen next. -/
inductive Move
  | call (ms : Nat)
  | go (k : Nat)
  | operate (o : Operation)
  /-- Somebody else takes an event, under a cap read at some time. -/
  | serve (allowed : Bool)
  | announce
  | announceFreed
  deriving DecidableEq, Repr

namespace Crowd

def start (q : Realtime) (commons : Commons) : Crowd :=
  { queue := q, commons, accepted := q.channels.toList }

/-- An operation with its announcements held back. -/
def operate (x : Crowd) (o : Operation) : Crowd :=
  let done : Realtime × Commons × Reply Empty := x.queue.perform x.commons o
  { x with
    queue := { done.1 with signals := x.queue.signals }
    commons := { done.2.1 with
      slots := { done.2.1.slots with freed := x.commons.slots.freed } }
    unannounced := x.unannounced + (done.1.signals - x.queue.signals)
    unfreed := x.unfreed + (done.2.1.slots.freed - x.commons.slots.freed)
    accepted := x.accepted ++ o.brought x.queue
    elsewhere := x.elsewhere ++ o.took x.queue x.commons }

/-- The call with this number takes a step. -/
def go (x : Crowd) (k : Nat) : Crowd :=
  match x.calls[k]? with
  | some c =>
      let (queue, commons, c) := c.advance x.queue x.commons
      { x with queue, commons, calls := x.calls.set k c }
  | none => x

def serve (x : Crowd) (allowed : Bool) : Crowd :=
  let (queue, commons, event) := x.queue.serve x.commons allowed
  { x with queue, commons, elsewhere := x.elsewhere ++ event.toList }

def announce (x : Crowd) : Crowd :=
  if x.unannounced = 0 then x
  else
    { x with
      queue := { x.queue with signals := x.queue.signals + 1 }
      unannounced := x.unannounced - 1 }

def announceFreed (x : Crowd) : Crowd :=
  if x.unfreed = 0 then x
  else
    { x with
      commons := { x.commons with
        slots := { x.commons.slots with freed := x.commons.slots.freed + 1 } }
      unfreed := x.unfreed - 1 }

def make (x : Crowd) : Move → Crowd
  | .call ms =>
      { x with
        calls := x.calls ++ [{ deadline := x.commons.now + ms, late := x.queue.isShutdown }] }
  | .go k => x.go k
  | .operate o => x.operate o
  | .serve allowed => x.serve allowed
  | .announce => x.announce
  | .announceFreed => x.announceFreed

/-- Any moves, in any order. -/
def after (x : Crowd) (moves : List Move) : Crowd := moves.foldl make x

/-- Nobody has anything to do but to wait. -/
structure IsQuiet (x : Crowd) : Prop where
  announced : x.unannounced = 0
  freed : x.unfreed = 0
  rests : ∀ c ∈ x.calls, c.Rests x.queue x.commons

/-- What calls came back with. -/
def handed (x : Crowd) : List EventRef := x.calls.flatMap fun c => c.event?.toList

end Crowd
/-! ### What operations leave alone -/

namespace Realtime

variable {q q' q'' : Realtime} {commons commons' commons'' : Commons}

/-- Nothing came into the queue and nothing was announced. -/
structure Lessens (q : Realtime) (commons : Commons) (q' : Realtime) (commons' : Commons) :
    Prop where
  live : q.channels.live = [] → q'.channels.live = []
  bulk : q.channels.bulk = [] → q'.channels.bulk = []
  signals : q'.signals = q.signals
  isShutdown : q'.isShutdown = q.isShutdown
  settings : q'.settings = q.settings
  slots : commons'.slots = commons.slots

theorem Lessens.refl (q : Realtime) (commons : Commons) : q.Lessens commons q commons :=
  ⟨id, id, rfl, rfl, rfl, rfl⟩

theorem Lessens.trans (h : q.Lessens commons q' commons') (h' : q'.Lessens commons' q'' commons'') :
    q.Lessens commons q'' commons'' :=
  { live := fun hlive => h'.live (h.live hlive)
    bulk := fun hbulk => h'.bulk (h.bulk hbulk)
    signals := h'.signals.trans h.signals
    isShutdown := h'.isShutdown.trans h.isShutdown
    settings := h'.settings.trans h.settings
    slots := h'.slots.trans h.slots }

theorem serve_fields (q : Realtime) (commons : Commons) (allowed : Bool) :
    q.channels.Serves (q.serve commons allowed).1.channels allowed (q.serve commons allowed).2.2 ∧
      q.Lessens commons (q.serve commons allowed).1 (q.serve commons allowed).2.1 := by
  have hserves := q.channels.serves_pop q.settings.bulkThreshold q.settings.effectivePeriod allowed
  have hshrinks {c c' : Channels} {event : Option EventRef} (h : c.Serves c' allowed event) :
      (c.live = [] → c'.live = []) ∧ (c.bulk = [] → c'.bulk = []) := by
    cases h with
    | nothing _ _ live bulk => exact ⟨(live.trans ·), (bulk.trans ·)⟩
    | live live bulk => exact ⟨fun hlive => by simp [hlive] at live, (bulk.trans ·)⟩
    | oldest _ live bulk => exact ⟨(live.trans ·), fun hbulk => by simp [hbulk] at bulk⟩
    | newest _ live bulk => exact ⟨(live.trans ·), fun hbulk => by simp [hbulk] at bulk⟩
  unfold serve
  split <;> rename_i hpop <;> rw [hpop] at hserves
  · exact ⟨hserves, (hshrinks hserves).1, (hshrinks hserves).2, rfl, rfl, rfl, rfl⟩
  · exact ⟨hserves, (hshrinks hserves).1, (hshrinks hserves).2, rfl, rfl, rfl, rfl⟩

theorem Drains.lessens {events : List EventRef} (h : Drains q commons events q' commons') :
    q.Lessens commons q' commons' := by
  have hpoll {q q' : Realtime} {commons commons' : Commons} {event : Option EventRef}
      (polled : q.poll commons = (q', commons', event)) : q.Lessens commons q' commons' := by
    have hserve := (q.serve_fields commons (q.bulkAllowed commons)).2
    rwa [← poll_eq_serve, polled] at hserve
  induction h with
  | out => exact .refl ..
  | stop polled => exact hpoll polled
  | next polled _ ih => exact (hpoll polled).trans ih

theorem lessens_discardPipe (q : Realtime) (commons : Commons) (pipe : String) (region : Int) :
    q.Lessens commons (q.discardPipe commons pipe region).1
      (q.discardPipe commons pipe region).2.1 := by
  have hchannels := (q.discardPipe_fields commons pipe region).1
  refine ⟨fun hlive => ?_, fun hbulk => ?_,
    forgetAll_keeps (fun s => s.1.signals) (fun _ _ => rfl) _ _,
    forgetAll_keeps (fun s => s.1.isShutdown) (fun _ _ => rfl) _ _,
    forgetAll_keeps (fun s => s.1.settings) (fun _ _ => rfl) _ _,
    forgetAll_keeps (fun s => s.2.slots) (fun _ _ => rfl) _ _⟩
  · rw [hchannels, Channels.removePipe, hlive]
    rfl
  · rw [hchannels, Channels.removePipe, hbulk]
    rfl

/-- What an operation may do before the eyes of those who wait. What they wait for comes about only
with something to announce. -/
structure Acts (q : Realtime) (commons : Commons) (q' : Realtime) (commons' : Commons) :
    Prop where
  signals : q.signals ≤ q'.signals
  freed : commons.slots.freed ≤ commons'.slots.freed
  settings : q'.settings = q.settings
  isShutdown : q.isShutdown = true → q'.isShutdown = true
  silent : q.signals < q'.signals ∨ (q.channels.live = [] → q'.channels.live = []) ∧
    (q.channels.bulk = [] → q'.channels.bulk = []) ∧ q'.isShutdown = q.isShutdown
  held : commons.slots.freed < commons'.slots.freed ∨ commons.slots.count ≤ commons'.slots.count
  once : q'.signals ≤ q.signals + 1
  onceFreed : commons'.slots.freed ≤ commons.slots.freed + 1

theorem Lessens.acts (h : q.Lessens commons q' commons') : q.Acts commons q' commons' :=
  { signals := Nat.le_of_eq h.signals.symm
    freed := Nat.le_of_eq (congrArg Slots.freed h.slots.symm)
    settings := h.settings
    isShutdown := fun hshut => h.isShutdown.trans hshut
    silent := .inr ⟨h.live, h.bulk, h.isShutdown⟩
    held := .inr (Nat.le_of_eq (congrArg Slots.count h.slots.symm))
    once := by rw [h.signals]; exact Nat.le_succ _
    onceFreed := by rw [h.slots]; exact Nat.le_succ _ }

theorem acts_offer (q : Realtime) (commons : Commons) (e : EventRef) :
    q.Acts commons (q.offer commons e).1 (q.offer commons e).2.1 := by
  unfold offer
  split
  · exact ⟨Nat.le_refl _, Nat.le_refl _, rfl, id, .inr ⟨id, id, rfl⟩, .inr (Nat.le_refl _),
      Nat.le_succ _, Nat.le_succ _⟩
  · exact ⟨Nat.le_succ _, Nat.le_refl _, rfl, id, .inl (Nat.lt_succ_self _),
      .inr (Nat.le_refl _), Nat.le_refl _, Nat.le_succ _⟩

theorem acts_slots (q : Realtime) {commons commons' : Commons}
    (freed : commons.slots.freed ≤ commons'.slots.freed)
    (held : commons.slots.freed < commons'.slots.freed ∨
      commons.slots.count ≤ commons'.slots.count)
    (onceFreed : commons'.slots.freed ≤ commons.slots.freed + 1) :
    q.Acts commons q commons' :=
  ⟨Nat.le_refl _, freed, rfl, id, .inr ⟨id, id, rfl⟩, held, Nat.le_succ _, onceFreed⟩

theorem acts_shared (q : Realtime) (commons : Commons) (o : Commons.Operation) :
    q.Acts commons q (commons.perform o : Commons × Reply Empty).1 := by
  cases o with
  | acquire => exact q.acts_slots (Nat.le_refl _) (.inr (Nat.le_succ _)) (Nat.le_succ _)
  | release =>
      have hrelease : ((commons.perform .release : Commons × Reply Empty).1).slots =
          commons.slots.release := rfl
      by_cases hcount : commons.slots.count = 0
      · rw [Slots.release, if_pos hcount] at hrelease
        exact (Lessens.acts ⟨id, id, rfl, rfl, rfl, hrelease⟩)
      · rw [Slots.release, if_neg hcount] at hrelease
        exact q.acts_slots (by rw [hrelease]; exact Nat.le_succ _)
          (.inl (by rw [hrelease]; exact Nat.lt_succ_self _))
          (Nat.le_of_eq (congrArg Slots.freed hrelease))
  | hold | drop | clear | backOff | resetRetry | belongs | describe | pass =>
      exact Lessens.acts ⟨id, id, rfl, rfl, rfl, rfl⟩

theorem acts_perform (q : Realtime) (commons : Commons) (o : Operation) :
    q.Acts commons (q.perform commons o : Realtime × Commons × Reply Empty).1
      (q.perform commons o : Realtime × Commons × Reply Empty).2.1 := by
  cases o with
  | offer e => exact q.acts_offer commons e
  | poll => exact (q.serve_fields commons _).2.acts
  | drain => exact (q.drains_drain commons).lessens.acts
  | discard pipe region => exact (q.lessens_discardPipe commons pipe region).acts
  | clear | discardAll =>
      exact Lessens.acts ⟨fun _ => rfl, fun _ => rfl, rfl, rfl, rfl, rfl⟩
  | peek | list => exact (Lessens.refl q commons).acts
  | shutdown =>
      exact ⟨Nat.le_succ _, Nat.le_refl _, rfl, fun _ => rfl, .inl (Nat.lt_succ_self _),
        .inr (Nat.le_refl _), Nat.le_refl _, Nat.le_succ _⟩
  | shared o => exact q.acts_shared commons o

end Realtime
/-! ### Steps that nobody comes between -/

/-- Steps of a call on its own. -/
def Call.steps : Nat → Realtime × Commons × Call → Realtime × Commons × Call
  | 0, s => s
  | n + 1, s => steps n (s.2.2.advance s.1 s.2.1)

/-- Where a call is that has looked once. -/
def Stage.ofRetrieval : Retrieval → Stage
  | .done event => .ended event
  | .waiting w => .asleep w

/-- A round that nobody interrupts is a look. -/
theorem Call.steps_look (q : Realtime) (commons : Commons) (c : Call) :
    steps 6 (q, commons, { c with stage := .entering }) =
      ((q.look commons c.deadline).1, (q.look commons c.deadline).2.1,
        { c with stage := .ofRetrieval (q.look commons c.deadline).2.2 }) := by
  cases hshut : q.isShutdown with
  | true => simp [steps, advance, Realtime.look, hshut, Stage.ofRetrieval]
  | false =>
      have hlessens := (q.serve_fields commons (q.bulkAllowed commons)).2
      rw [Realtime.look, Realtime.poll_eq_serve, hshut]
      simp only [steps, advance, hshut, Bool.false_eq_true, if_false]
      obtain ⟨q', commons', found, hserve⟩ : ∃ q' commons' found,
          q.serve commons (q.bulkAllowed commons) = (q', commons', found) := ⟨_, _, _, rfl⟩
      rw [hserve] at hlessens ⊢
      cases found with
      | some e => rfl
      | none =>
          have hopen : q'.isShutdown = false := hlessens.isShutdown.trans hshut
          have hsignals : q'.signals = q.signals := hlessens.signals
          have hslots : commons'.slots = commons.slots := hlessens.slots
          simp only [hopen, Bool.false_eq_true, if_false, hsignals, hslots]
          rfl

/-- So is what a sleeper does whom nobody interrupts. -/
theorem Call.steps_resume (q : Realtime) (commons : Commons) (c : Call) {w : Waiting}
    (deadline : w.deadline = c.deadline) :
    steps 7 (q, commons, { c with stage := .asleep w }) =
      ((q.resume commons w).1, (q.resume commons w).2.1,
        { c with stage := .ofRetrieval (q.resume commons w).2.2 }) := by
  rw [Realtime.resume]
  cases hnews : q.hasNews commons w with
  | true =>
      rw [steps]
      simp only [advance, hnews, if_true]
      rw [steps_look, deadline]
  | false =>
      by_cases hover : w.deadline ≤ commons.now
      · simp [steps, advance, hnews, hover, Stage.ofRetrieval]
      · simp [steps, advance, hnews, hover, Stage.ofRetrieval]

theorem Crowd.announce_of_le_one {x : Crowd} (h : x.unannounced ≤ 1) :
    x.announce =
      { x with
        queue := { x.queue with signals := x.queue.signals + x.unannounced }
        unannounced := 0 } := by
  unfold announce
  split
  · rename_i hnone
    rw [hnone]
    obtain ⟨queue, commons, calls, unannounced, unfreed, accepted, elsewhere⟩ := x
    cases hnone
    rfl
  · rename_i hsome
    have hone : x.unannounced = 1 := by omega
    rw [hone]

theorem Crowd.announceFreed_of_le_one {x : Crowd} (h : x.unfreed ≤ 1) :
    x.announceFreed =
      { x with
        commons := { x.commons with
          slots := { x.commons.slots with freed := x.commons.slots.freed + x.unfreed } }
        unfreed := 0 } := by
  unfold announceFreed
  split
  · rename_i hnone
    obtain ⟨queue, commons, calls, unannounced, unfreed, accepted, elsewhere⟩ := x
    cases hnone
    rfl
  · rename_i hsome
    have hone : x.unfreed = 1 := by omega
    rw [hone]

/-- An operation that is announced at once is done as a whole. -/
theorem Crowd.operate_announced (x : Crowd) (o : Operation) (announced : x.unannounced = 0)
    (freed : x.unfreed = 0) :
    (x.operate o).announce.announceFreed.queue =
        (x.queue.perform x.commons o : Realtime × Commons × Reply Empty).1 ∧
      (x.operate o).announce.announceFreed.commons =
        (x.queue.perform x.commons o : Realtime × Commons × Reply Empty).2.1 := by
  have hacts := x.queue.acts_perform x.commons o
  have hannounce : (x.operate o).unannounced ≤ 1 := by
    have hsignals := hacts.once
    simp only [operate, announced]
    omega
  have hfree : (x.operate o).announce.unfreed ≤ 1 := by
    have hfreed := hacts.onceFreed
    rw [announce_of_le_one hannounce]
    simp only [operate, freed]
    omega
  rw [announceFreed_of_le_one hfree, announce_of_le_one hannounce]
  generalize hdone : (x.queue.perform x.commons o : Realtime × Commons × Reply Empty) = done
    at hacts
  have hsignals : x.queue.signals + (x.unannounced + (done.1.signals - x.queue.signals)) =
      done.1.signals := by
    have hgrows := hacts.signals
    omega
  have hfreed : x.commons.slots.freed + (x.unfreed +
      (done.2.1.slots.freed - x.commons.slots.freed)) = done.2.1.slots.freed := by
    have hgrows := hacts.freed
    omega
  simp only [operate, hdone, hsignals, hfreed, and_self]

end Queue
end Courier
