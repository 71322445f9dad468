import Courier.Proofs.Batch.Emission
import Courier.Proofs.Pipe.Solo

/-!
How long a tablet waits in the batch. A round of the consumer ends by asking whether the batch is
due, and in a round it rests once, for a pause or a wait at the queue. Only a tablet that cannot be
encoded ends a round without the question, so that the batch can stay overdue while one offer after
the other fails.
-/

namespace Courier

open Transfer

namespace Batch
namespace Accumulator

variable {P : Type} {b b' : Accumulator P} {c : Commons} {now latest : Nat}

/-- The delay runs while anything is held, from `latest` or before. -/
structure IsDated (b : Accumulator P) (latest : Nat) : Prop where
  empty : b.events = [] → b.firstAt = none
  begun : b.events ≠ [] → ∃ first ∈ b.firstAt, first ≤ latest

/-- The first event has not waited for the maximum delay. -/
def IsEarly (b : Accumulator P) (now : Nat) : Prop :=
  ∀ first ∈ b.firstAt, now < first + b.maxDelayMs

/-- What becomes of the moment from which the delay runs. It goes with the last event and comes with
the first. -/
inductive Proceeds (now : Nat) (b b' : Accumulator P) : Prop
  | emptied (delay : b'.maxDelayMs = b.maxDelayMs) (events : b'.events = [])
      (firstAt : b'.firstAt = none)
  | kept (delay : b'.maxDelayMs = b.maxDelayMs) (events : b'.events = [] ↔ b.events = [])
      (firstAt : b'.firstAt = b.firstAt)
  | taken (delay : b'.maxDelayMs = b.maxDelayMs) (events : b'.events ≠ [])
      (firstAt : b'.firstAt = some (b.firstAt.getD now))

namespace Proceeds

theorem refl (b : Accumulator P) : b.Proceeds now b := .kept rfl Iff.rfl rfl

theorem maxDelayMs (h : b.Proceeds now b') : b'.maxDelayMs = b.maxDelayMs := by
  cases h <;> assumption

/-- An event that is taken begins the delay only if nothing was held. -/
theorem isDated (h : b.Proceeds now b') (hb : b.IsDated latest)
    (past : b.events = [] → now ≤ latest) : b'.IsDated latest := by
  cases h with
  | emptied _ events firstAt => exact ⟨fun _ => firstAt, fun hheld => absurd events hheld⟩
  | kept _ events firstAt =>
      refine ⟨fun hempty => firstAt.trans (hb.empty (events.mp hempty)), fun hheld => ?_⟩
      rw [firstAt]
      exact hb.begun (mt events.mpr hheld)
  | taken _ events firstAt =>
      refine ⟨fun hempty => absurd hempty events, fun _ => ⟨_, firstAt, ?_⟩⟩
      by_cases hempty : b.events = []
      · rw [hb.empty hempty]
        exact past hempty
      · obtain ⟨first, hfirst, hle⟩ := hb.begun hempty
        rw [hfirst]
        exact hle

end Proceeds

theorem IsDated.mono (h : b.IsDated latest) {later : Nat} (le : latest ≤ later) :
    b.IsDated later :=
  ⟨h.empty, fun hheld => (h.begun hheld).imp fun _ hfirst => ⟨hfirst.1, hfirst.2.trans le⟩⟩

theorem proceeds_discardPipe (b : Accumulator P) [Payload P] (c : Commons) (pipe : String)
    (region : Int) : b.Proceeds now (b.discardPipe c pipe region).1 := by
  unfold discardPipe
  dsimp only
  split
  · exact .emptied rfl rfl rfl
  · rename_i hleft
    refine .kept rfl ⟨fun hkept => ?_, fun hempty => ?_⟩ rfl
    · -- nothing is kept and not everything was removed, so nothing was there
      dsimp only at hkept
      rw [hkept, List.isEmpty_nil, Bool.and_true, Bool.not_eq_true, Bool.not_eq_false',
        List.isEmpty_iff] at hleft
      have hsplit := List.filter_append_perm (fun e => e.belongsTo pipe region) b.events
      rw [hleft, hkept] at hsplit
      exact List.nil_perm.mp hsplit
    · rw [hempty]
      rfl

variable [Payload P]

theorem proceeds_close (b : Accumulator P) (c : Commons) : b.Proceeds now (b.close c).1 := by
  unfold close
  split
  · exact .refl b
  · exact .emptied rfl rfl rfl

theorem proceeds_add (b : Accumulator P) (c : Commons) (e : EventRef) :
    b.Proceeds c.now (b.add c e).1 :=
  add_cases (fun _ => .refl b)
    (fun _ _ _ => .taken rfl (List.append_ne_nil_of_right_ne_nil _ (List.cons_ne_nil e [])) rfl)
    fun _ _ _ _ _ _ => .kept rfl Iff.rfl rfl

/-- To find a batch due changes neither its delay nor the clock. -/
theorem dates_checkDue (b : Accumulator P) (c : Commons) :
    (b.checkDue c).1.maxDelayMs = b.maxDelayMs ∧ (b.checkDue c).1.firstAt = b.firstAt ∧
      (b.checkDue c).2.1.now = c.now := by
  unfold checkDue
  split
  · exact ⟨rfl, rfl, rfl⟩
  · split <;> exact ⟨rfl, rfl, rfl⟩

theorem Proceeds.checked (h : b.Proceeds now b') (c : Commons) :
    b.Proceeds now (b'.checkDue c).1 := by
  obtain ⟨hdelay, hfirst, -⟩ := b'.dates_checkDue c
  have hevents := (Pipe.batch_checkDue b' c).1
  cases h with
  | emptied delay events firstAt =>
      exact .emptied (hdelay.trans delay) (hevents.trans events) (hfirst.trans firstAt)
  | kept delay events firstAt =>
      exact .kept (hdelay.trans delay) (hevents ▸ events) (hfirst.trans firstAt)
  | taken delay events firstAt =>
      exact .taken (hdelay.trans delay) (hevents ▸ events) (hfirst.trans firstAt)

theorem isEarly_of_checkDue (h : (b.checkDue c).2.2 = false) :
    (b.checkDue c).1.IsEarly c.now := by
  obtain ⟨hdelay, hfirst, -⟩ := b.dates_checkDue c
  intro first hmem
  rw [hfirst] at hmem
  rw [hdelay]
  unfold checkDue at h
  rw [show b.firstAt = some first from hmem] at h
  dsimp only at h
  split at h
  · rename_i hless
    simp only [Bool.and_eq_true, decide_eq_true_eq] at hless
    omega
  · cases h

/-- A batch that is offered an event turns it down for good or for now, or says whether it is due,
unless it is closed. -/
@[elab_as_elim]
theorem onEvent_cases {motive : Accumulator P × Commons × Except BatchError Bool → Prop}
    (b : Accumulator P) (c : Commons) (e : EventRef)
    (shut : b.closed = true → motive (b, c, .ok false))
    (failed : ∀ b' c' error, b.Proceeds c.now b' → c'.now = c.now → motive (b', c', .error error))
    (checked : ∀ b' c', b.Proceeds c.now b' → c'.now = c.now →
      motive ((b'.checkDue c').1, (b'.checkDue c').2.1, .ok (b'.checkDue c').2.2)) :
    motive (b.onEvent c e) := by
  unfold onEvent
  split
  · rename_i hclosed
    exact shut hclosed
  · have hadded : b.Proceeds c.now (if b.endsWith e then (b, c, none) else b.add c e).1 ∧
        (if b.endsWith e then (b, c, none) else b.add c e).2.1.now = c.now := by
      split
      · exact ⟨.refl b, rfl⟩
      · exact ⟨b.proceeds_add c e, b.now_add c e⟩
    generalize (if b.endsWith e then (b, c, none) else b.add c e) = added at hadded ⊢
    obtain ⟨b', c', _ | error⟩ := added
    · exact checked b' c' hadded.1 hadded.2
    · exact failed b' c' error hadded.1 hadded.2

theorem proceeds_onEvent (b : Accumulator P) (c : Commons) (e : EventRef) :
    b.Proceeds c.now (b.onEvent c e).1 :=
  onEvent_cases b c e (fun _ => .refl b) (fun _ _ _ h _ => h) fun _ c' h _ => h.checked c'

theorem now_onEvent (b : Accumulator P) (c : Commons) (e : EventRef) :
    (b.onEvent c e).2.1.now = c.now :=
  onEvent_cases b c e (fun _ => rfl) (fun _ _ _ _ h => h)
    fun b' c' _ h => (b'.dates_checkDue c').2.2.trans h

/-- Who is told that the batch is not due finds it early, or closed and unchanged. -/
theorem isEarly_of_onEvent {e : EventRef} (h : (b.onEvent c e).2.2 = .ok false) :
    b.closed = true ∧ (b.onEvent c e).1 = b ∨ (b.onEvent c e).1.IsEarly c.now := by
  revert h
  refine onEvent_cases b c e (fun hclosed _ => .inl ⟨hclosed, rfl⟩) (fun _ _ _ _ _ h => nomatch h)
    fun b' c' _ hnow h => .inr ?_
  rw [← hnow]
  exact isEarly_of_checkDue (Except.ok.inj h)

end Accumulator
end Batch

/-- A retrieval takes no time, and a call that goes on waiting keeps its deadline. -/
theorem Queue.Realtime.deadline_look {q q' : Realtime} {commons commons' : Commons}
    {deadline : Nat} {retrieval : Retrieval}
    (h : q.look commons deadline = (q', commons', retrieval)) :
    commons'.now = commons.now ∧ ∀ w, retrieval = .waiting w → w.deadline = deadline := by
  have hpolled : (q.poll commons).2.1.now = commons.now := by
    unfold poll
    split <;> rfl
  unfold look at h
  split at h
  · cases h
    exact ⟨rfl, fun _ heq => nomatch heq⟩
  · split at h <;> rename_i hpoll <;> rw [hpoll] at hpolled <;> cases h
    · exact ⟨hpolled, fun _ heq => nomatch heq⟩
    · refine ⟨hpolled, fun w heq => ?_⟩
      cases heq
      rfl

theorem Queue.Realtime.deadline_resume {q q' : Realtime} {commons commons' : Commons}
    {w : Waiting} {retrieval : Retrieval} (h : q.resume commons w = (q', commons', retrieval)) :
    commons'.now = commons.now ∧ ∀ w', retrieval = .waiting w' → w'.deadline = w.deadline := by
  unfold resume at h
  split at h
  · exact deadline_look h
  · split at h <;> cases h
    · exact ⟨rfl, fun _ heq => nomatch heq⟩
    · refine ⟨rfl, fun w' heq => ?_⟩
      cases heq
      rfl

namespace Pipe

variable {P : Type} {p p' p'' : Pipe P} {id : TaskId} {since : Nat}

/-- No consumer can run, nor will the time before `moment` let one. -/
def Rests (p : Pipe P) (moment : Nat) : Prop :=
  ∀ t ∈ p.consumers, p.canRun t = false ∧ ∀ wake ∈ t.process.wakeAt, moment ≤ wake

instance (p : Pipe P) (moment : Nat) : Decidable (p.Rests moment) :=
  inferInstanceAs (Decidable (∀ t ∈ p.consumers, _ ∧ ∀ wake ∈ t.process.wakeAt, moment ≤ wake))

/-- A consumer is in a round that it began at `since`. -/
def Process.IsWithin (blocking since now : Nat) : Process → Prop
  | .consuming => now ≤ since
  | .polling w => now ≤ w.deadline ∧ w.deadline ≤ since + blocking
  | .pausing _ until_ => now ≤ until_ ∧ until_ ≤ since + constructRetryMs
  | _ => False

/-- What the batch holds has a consumer, in a round that it began at `since`. -/
def IsAttended (since : Nat) (p : Pipe P) : Prop :=
  p.batch.events = [] ∨
    ∃ t, p.consumers = [t] ∧ t.process.IsWithin p.queue.settings.maxBlockingMs since p.now

/-- What a consumer came to at the end of a round. It goes into the next one, the batch being early
or a failure counted, unless nothing is held. -/
structure ComesRound (id : TaskId) (p p' : Pipe P) : Prop where
  settings : p'.queue.settings = p.queue.settings
  batch : p.batch.Proceeds p.now p'.batch
  round : p'.batch.events = [] ∨ (p'.now = p.now ∧ p'.consumers = [⟨id, .consuming⟩] ∧
    (p'.batch.IsEarly p.now ∨ p'.failures.total ≠ p.failures.total))

/-- What a step does to the batch and to those who attend to it. -/
structure Passes (p p' : Pipe P) : Prop where
  settings : p'.queue.settings = p.queue.settings
  batch : p.batch.Proceeds p.now p'.batch
  attended : ∀ since, p.IsAttended since → p'.IsAttended since ∨
    (p'.now = p.now ∧ p'.IsAttended p.now ∧
      (p'.batch.IsEarly p.now ∨ p'.failures.total ≠ p.failures.total))

theorem Process.IsWithin.le {blocking now : Nat} {process : Process}
    (h : process.IsWithin blocking since now) : now ≤ since + max blocking constructRetryMs := by
  cases process with
  | consuming => exact Nat.le_trans h (Nat.le_add_right _ _)
  | polling w => exact h.1.trans (h.2.trans (Nat.add_le_add_left (Nat.le_max_left ..) _))
  | pausing e until_ => exact h.1.trans (h.2.trans (Nat.add_le_add_left (Nat.le_max_right ..) _))
  | _ => exact h.elim

/-- A consumer that rests is within its round as long as it rests. -/
theorem Process.IsWithin.rested {blocking now later : Nat} {process : Process}
    (h : process.IsWithin blocking since now) (stuck : process ≠ .consuming)
    (wakes : ∀ wake ∈ process.wakeAt, later ≤ wake) : process.IsWithin blocking since later := by
  cases process with
  | consuming => exact absurd rfl stuck
  | polling w => exact ⟨wakes _ rfl, h.2⟩
  | pausing e until_ => exact ⟨wakes _ rfl, h.2⟩
  | _ => exact h.elim

theorem countFailure_ne (p : Pipe P) : p.countFailure.failures.total ≠ p.failures.total := by
  have htotal : p.countFailure.failures.total = Word.add p.failures.total 1 := by
    simp only [countFailure, Metrics.RateLog.record]
    split <;> rfl
  rw [htotal]
  exact Word.add_one_ne _

section Frames

theorem line_transferFile (p : Pipe P) (e : EventRef) :
    (p.transferFile e).1.queue = p.queue ∧ (p.transferFile e).1.batch = p.batch :=
  transferFile_cases p e (fun _ => ⟨rfl, rfl⟩) (fun _ => ⟨rfl, rfl⟩) (fun _ => ⟨rfl, rfl⟩)
    fun _ _ _ _ => ⟨rfl, rfl⟩

theorem line_afterFlush (p : Pipe P) (id : TaskId) (after : After) :
    (p.afterFlush id after).queue = p.queue ∧ (p.afterFlush id after).batch = p.batch := by
  cases after with
  | dispatched | due | stop => exact ⟨rfl, rfl⟩
  | file e loop =>
      have hfile := line_transferFile p e
      simp only [afterFlush]
      split <;> rename_i heq <;> rw [heq] at hfile <;> exact hfile

theorem line_askForTablets (p : Pipe P) (id : TaskId) (t : TabletSend) :
    (p.askForTablets id t).queue = p.queue ∧ (p.askForTablets id t).batch = p.batch := by
  rw [askForTablets_eq]
  split <;> exact ⟨rfl, rfl⟩

theorem line_runTablets (p : Pipe P) (id : TaskId) (t : TabletSend) (link : Link Unit)
    (own : t.purpose.isFlush = true) :
    (p.runTablets id t link).queue = p.queue ∧ (p.runTablets id t link).batch = p.batch := by
  cases link with
  | asking | waiting => exact line_askForTablets p id t
  | exchanging client x more =>
  cases hlook : p.look x with
  | mk p' progress =>
  have hlooked : Beside False id (fun _ => True) p p' := .of_deed (.looked False.elim hlook)
  cases progress with
  | pending y =>
      rw [runTablets_of_pending id hlook]
      exact ⟨hlooked.queue, hlooked.batch⟩
  | done result =>
      have hsettled : Beside False id (fun _ => True) p' (p'.settle t client x result) :=
        .of_deeds (Deeds.settle p' t client x result fun _ _ => trivial)
      have hqueue := hsettled.queue.trans hlooked.queue
      have hbatch := hsettled.batch.trans hlooked.batch
      have hafter (q : Pipe P) (after : After) (line : q.queue = p.queue ∧ q.batch = p.batch) :
          (q.afterFlush id after).queue = p.queue ∧ (q.afterFlush id after).batch = p.batch :=
        (line_afterFlush q id after).imp (Eq.trans · line.1) (Eq.trans · line.2)
      rw [runTablets_of_done id hlook]
      cases hpurpose : t.purpose with
      | flush after =>
          simp only [afterTablets]
          split
          · exact hafter _ after ⟨hqueue, hbatch⟩
          · exact hafter _ after ⟨hqueue, hbatch⟩
      | retry | call =>
          rw [hpurpose] at own
          cases own

end Frames

variable [Batch.Payload P]

/-- A flush leaves nothing in the batch. -/
theorem line_flush (p : Pipe P) (id : TaskId) (after : After) :
    (p.flush id after).queue = p.queue ∧
      (p.flush id after).batch = (p.batch.take p.commons).1 := by
  rw [flush_eq]
  split
  · exact line_afterFlush p.emit id after
  · split
    · exact line_afterFlush (p.emit.dropAll p.batch.events).countFailure id after
    · rw [submit_eq]
      exact line_askForTablets (p.emit.withLedger _) id _

theorem proceeds_checked (p : Pipe P) : p.batch.Proceeds p.now p.checked.batch :=
  (Batch.Accumulator.Proceeds.refl p.batch).checked p.commons

theorem now_checked (p : Pipe P) : p.checked.now = p.now :=
  (p.batch.dates_checkDue p.commons).2.2

namespace ComesRound

/-- A round that ends in a flush. -/
theorem of_flush (p' : Pipe P) (delay : p'.batch.maxDelayMs = p.batch.maxDelayMs)
    (settings : p'.queue.settings = p.queue.settings) (after : After) :
    ComesRound id p (p'.flush id after) := by
  obtain ⟨hqueue, hbatch⟩ := line_flush p' id after
  refine ⟨by rw [hqueue, settings], ?_, .inl ?_⟩
  · rw [hbatch]
    exact .emptied delay rfl rfl
  · rw [hbatch]
    rfl

omit [Batch.Payload P] in
theorem of_return (sole : (p'.consumers.filter fun t => t.id != id) = [])
    (settings : p'.queue.settings = p.queue.settings) (batch : p.batch.Proceeds p.now p'.batch)
    (now : p'.now = p.now) (why : p'.batch.events = [] ∨ p'.batch.IsEarly p.now ∨
      p'.failures.total ≠ p.failures.total) : ComesRound id p (p'.setTask id .consuming) := by
  refine ⟨settings, batch, why.imp_right fun hwhy => ⟨now, ?_, hwhy⟩⟩
  rw [consumers_setTask, sole]
  rfl

variable (sole : (p.consumers.filter fun t => t.id != id) = [])
include sole

theorem dispatch (shut : p.batch.closed = true → p.batch.events = []) (e : EventRef) :
    ComesRound id p (p.dispatch id e true) := by
  have hoffered : p.batch.Proceeds p.now (p.offeredBatch e).batch :=
    p.batch.proceeds_onEvent p.commons e
  have hnow : (p.offeredBatch e).now = p.now := p.batch.now_onEvent p.commons e
  cases hcontent : e.event.content with
  | file f =>
      simp only [Pipe.dispatch, hcontent]
      exact of_flush p rfl rfl _
  | heartbeat created =>
      rw [dispatch_of_heartbeat p id true hcontent]
      cases hdue : (p.batch.checkDue p.commons).2.2 with
      | true => exact of_flush p.checked p.proceeds_checked.maxDelayMs rfl _
      | false =>
          have hearly : p.checked.batch.IsEarly p.now := Batch.Accumulator.isEarly_of_checkDue hdue
          exact of_return sole rfl p.proceeds_checked p.now_checked (.inr (.inl hearly))
  | tablet t =>
      rw [dispatch_of_tablet p id true hcontent]
      cases hresult : (p.batch.onEvent p.commons e).2.2 with
      | error error =>
          have hfailed := (p.offeredBatch e).countFailure_ne
          dsimp only
          split
          · exact of_return sole rfl hoffered hnow (.inr (.inr hfailed))
          · exact of_return sole rfl hoffered hnow (.inr (.inr hfailed))
      | ok due =>
          cases due with
          | true => exact of_flush (p.offeredBatch e) hoffered.maxDelayMs rfl _
          | false =>
              refine of_return sole rfl hoffered hnow ?_
              rcases Batch.Accumulator.isEarly_of_onEvent hresult with ⟨hclosed, hsame⟩ | hearly
              · exact .inl ((congrArg Batch.Accumulator.events hsame).trans (shut hclosed))
              · exact .inr (.inl hearly)

theorem flushIfDue : ComesRound id p (p.flushIfDue id) := by
  rw [flushIfDue_eq]
  split
  · exact of_flush p.checked p.proceeds_checked.maxDelayMs rfl _
  · rename_i hdue
    have hearly : p.checked.batch.IsEarly p.now :=
      Batch.Accumulator.isEarly_of_checkDue (Bool.not_eq_true _ ▸ hdue)
    exact of_return sole rfl p.proceeds_checked p.now_checked (.inr (.inl hearly))

omit [Batch.Payload P] sole in
theorem of_retrieved {queue : Queue.Realtime} {commons : Commons}
    (h : ComesRound id (p.withQueue queue commons) p')
    (settings : queue.settings = p.queue.settings) (now : commons.now = p.now) :
    ComesRound id p p' := by
  obtain ⟨hsettings, hbatch, hround⟩ := h
  have hnow : (p.withQueue queue commons).now = p.now := now
  rw [hnow] at hbatch hround
  exact ⟨hsettings.trans settings, hbatch, hround⟩

end ComesRound

namespace Passes

omit [Batch.Payload P] in
/-- A step that leaves the consumers as they are, and the batch empty if it was. -/
theorem beside (settings : p'.queue.settings = p.queue.settings)
    (batch : p.batch.Proceeds p.now p'.batch)
    (spares : p.batch.events = [] → p'.batch.events = []) (consumers : p'.consumers = p.consumers)
    (onward : p.now ≤ p'.now) (rested : p.now < p'.now → p.Rests p'.now) : Passes p p' := by
  refine ⟨settings, batch, fun since h => .inl (h.imp spares ?_)⟩
  rintro ⟨t, ht, hwithin⟩
  refine ⟨t, consumers.trans ht, ?_⟩
  rw [settings]
  rcases Nat.eq_or_lt_of_le onward with hsame | hlater
  · rw [← hsame]
    exact hwithin
  · obtain ⟨hstuck, hwakes⟩ := rested hlater t (ht ▸ List.mem_singleton_self t)
    refine hwithin.rested (fun hconsuming => ?_) hwakes
    rw [canRun, hconsuming] at hstuck
    cases hstuck

omit [Batch.Payload P] in
theorem of_comesRound (h : ComesRound id p p') : Passes p p' := by
  refine ⟨h.settings, h.batch, fun since _ => ?_⟩
  rcases h.round with hempty | ⟨hnow, hconsumers, hwhy⟩
  · exact .inl (.inl hempty)
  · exact .inr ⟨hnow, .inr ⟨_, hconsumers, Nat.le_of_eq hnow⟩, hwhy⟩

variable {process process' : Process} (here : p.consumers = [⟨id, process⟩])
include here

omit [Batch.Payload P] in
/-- The consumer comes to wait, still in its round. -/
theorem waits (batch : p'.batch = p.batch) (settings : p'.queue.settings = p.queue.settings)
    (now : p'.now = p.now) (consumers : p'.consumers = p.consumers)
    (consumes : process'.consumes = true)
    (within : ∀ since, process.IsWithin p.queue.settings.maxBlockingMs since p.now →
      process'.IsWithin p.queue.settings.maxBlockingMs since p.now) :
    Passes p (p'.setTask id process') := by
  refine ⟨settings, ?_, fun since h => .inl (h.imp ?_ ?_)⟩
  · exact batch ▸ .refl p'.batch
  · exact (congrArg Batch.Accumulator.events batch).trans
  · rintro ⟨t, ht, hwithin⟩
    rw [here, List.singleton_inj] at ht
    refine ⟨⟨id, process'⟩, ?_, ?_⟩
    · rw [consumers_setTask, consumers, here]
      simp [consumes]
    · have hsame : (p'.setTask id process').queue.settings = p.queue.settings := settings
      have hnow : (p'.setTask id process').now = p.now := now
      subst ht
      rw [hsame, hnow]
      exact within since hwithin

omit [Batch.Payload P] in
theorem sole_of_here : (p.consumers.filter fun t => t.id != id) = [] := by
  rw [here]
  simp

variable (shut : p.batch.closed = true → p.batch.events = [])
include shut

theorem afterRetrieval {queue : Queue.Realtime} {commons : Commons}
    {retrieval : Queue.Retrieval} (settings : queue.settings = p.queue.settings)
    (now : commons.now = p.now)
    (within : ∀ w, retrieval = .waiting w → ∀ since,
      process.IsWithin p.queue.settings.maxBlockingMs since p.now →
        (Process.polling w).IsWithin p.queue.settings.maxBlockingMs since p.now) :
    Passes p ((p.withQueue queue commons).afterRetrieval id retrieval) := by
  have hsole := sole_of_here here
  match retrieval with
  | .waiting w => exact waits here rfl settings now rfl rfl (within w rfl)
  | .done (some e) =>
      have hcomes : ComesRound id (p.withQueue queue commons) _ :=
        ComesRound.dispatch (p := p.withQueue queue commons) hsole shut e
      exact of_comesRound (hcomes.of_retrieved settings now)
  | .done none =>
      have hcomes : ComesRound id (p.withQueue queue commons)
          ((p.withQueue queue commons).afterRetrieval id (.done none)) := by
        simp only [Pipe.afterRetrieval]
        split
        · exact .of_flush _ rfl rfl _
        · exact ComesRound.flushIfDue hsole
      exact of_comesRound (hcomes.of_retrieved settings now)

theorem consume (starts : process = .consuming) : Passes p (p.consume id) := by
  subst starts
  unfold Pipe.consume
  split
  · split
    · exact of_comesRound (.of_flush p rfl rfl _)
    · refine waits here rfl rfl rfl rfl rfl fun since hbegan => ⟨Nat.le_add_right _ _, ?_⟩
      exact Nat.add_le_add_right hbegan _
  · split
    · exact of_comesRound (.of_flush p rfl rfl _)
    · cases hlook : p.queue.look p.commons (p.now + p.queue.settings.maxBlockingMs) with
      | mk queue rest =>
      obtain ⟨commons, retrieval⟩ := rest
      obtain ⟨hnow, hdeadline⟩ := Queue.Realtime.deadline_look hlook
      refine afterRetrieval here shut (Queue.Realtime.gave_look hlook).settings hnow
        fun w hw since hbegan => ?_
      rw [Process.IsWithin, hdeadline w hw]
      exact ⟨Nat.le_add_right _ _, Nat.add_le_add_right hbegan _⟩

theorem runPolling {w : Queue.Waiting} (polls : process = .polling w) :
    Passes p (p.runPolling id w) := by
  subst polls
  unfold Pipe.runPolling
  split
  · exact of_comesRound (.of_flush p rfl rfl _)
  · cases hresume : p.queue.resume p.commons w with
    | mk queue rest =>
    obtain ⟨commons, retrieval⟩ := rest
    obtain ⟨hnow, hdeadline⟩ := Queue.Realtime.deadline_resume hresume
    refine afterRetrieval here shut (Queue.Realtime.gave_resume hresume).settings hnow
      fun w' hw' since hwithin => ?_
    rw [Process.IsWithin, hdeadline w' hw']
    exact hwithin

theorem runPausing (e : EventRef) : Passes p (p.runPausing id e) := by
  unfold Pipe.runPausing
  split
  · exact of_comesRound (.of_flush (p := p) (p.defer e) rfl rfl _)
  · exact of_comesRound (ComesRound.dispatch (sole_of_here here) shut e)

end Passes

variable {events : EventId → Event} {e : EventRef}

theorem passes_run (numbered : (p.books none 0).Numbered) (single : p.consumers.length ≤ 1)
    (shut : p.batch.closed = true → p.batch.events = []) (onward : p.now ≤ (p.run id).now)
    (rested : p.now < (p.run id).now → p.Rests (p.run id).now) : Passes p (p.run id) := by
  cases htask : p.task? id with
  | none =>
      have hsame : p.run id = p := by simp only [run, htask]
      exact .beside (by rw [hsame]) (by rw [hsame]; exact .refl _) (by rw [hsame]; exact fun h => h)
        (by rw [hsame]) onward rested
  | some process =>
  cases hconsumes : process.consumes with
  | false =>
      have hbeside := beside_run p htask hconsumes
      have hconsumers := hbeside.consumers (ne_of_apart numbered htask hconsumes)
      exact .beside (by rw [hbeside.queue]) (by rw [hbeside.batch]; exact .refl _)
        (by rw [hbeside.batch]; exact fun h => h) hconsumers onward rested
  | true =>
      have here := consumers_of_single single htask hconsumes
      simp only [run, htask]
      cases process with
      | consuming => exact Passes.consume here shut rfl
      | polling w => exact Passes.runPolling here shut rfl
      | pausing e until_ => exact Passes.runPausing here shut e
      | tablets t link =>
          obtain ⟨hqueue, hbatch⟩ := line_runTablets p id t link hconsumes
          refine ⟨congrArg Queue.Realtime.settings hqueue, ?_, fun since h => .inl (.inl ?_)⟩
          · exact hbatch.symm ▸ .refl _
          · rcases h with hempty | ⟨t', ht', hwithin⟩
            · exact (congrArg Batch.Accumulator.events hbatch).trans hempty
            · rw [here, List.singleton_inj] at ht'
              subst ht'
              exact hwithin.elim
      | _ => cases hconsumes

/-- A step of a pipe with at most one consumer, at its time: the clock moves on only while that
consumer rests. -/
structure Timed (events : EventId → Event) (s s' : Scene P) : Prop where
  solo : Solo events s s'
  onward : s.pipe.now ≤ s'.pipe.now
  rested : s.pipe.now < s'.pipe.now → s.pipe.Rests s'.pipe.now

namespace Timed

variable {s s' : Scene P}

theorem at_once (solo : Solo events s s') (now : s'.pipe.now = s.pipe.now) : Timed events s s' :=
  ⟨solo, Nat.le_of_eq now.symm, fun later => absurd later (now ▸ Nat.lt_irrefl _)⟩

theorem clock {moment : Nat} (single : s.pipe.consumers.length ≤ 1)
    (onward : s.pipe.now ≤ moment) (rests : s.pipe.Rests moment) :
    Timed events s ⟨s.pipe.setClock moment, s.owned⟩ :=
  ⟨⟨.aside (.clock moment), single⟩, onward, fun _ => rests⟩

end Timed

theorem Timed.passes {s s' : Scene P} (h : Timed events s s')
    (served : (s.pipe.books none 0).Served events s.owned) (single : s.pipe.consumers.length ≤ 1) :
    Passes s.pipe s'.pipe := by
  obtain ⟨⟨hstep, hsingle⟩, honward, hrested⟩ := h
  have hshut : s.pipe.batch.closed = true → s.pipe.batch.events = [] := served.shut.batch
  cases hstep with
  | built retryMs => exact .beside rfl (.refl _) (fun h => h) rfl honward hrested
  | @offered p owned id here =>
      have hsettings : (p.queue.offer p.commons ⟨id, events id⟩).1.settings = p.queue.settings := by
        unfold Queue.Realtime.offer
        split <;> rfl
      exact .beside hsettings (.refl _) (fun h => h) rfl honward hrested
  | ran id => exact passes_run served.guarded.numbered single hshut honward hrested
  | @aside p p' owned beside =>
      have hcancel (id? : Option TaskId) : Passes p (p.cancel id?) := by
        cases id? <;> exact .beside rfl (.refl _) (fun h => h) rfl (Nat.le_refl _)
          fun h => absurd h (Nat.lt_irrefl _)
      cases beside with
      | startConsumer =>
          -- a second consumer is not started, so there was none and nothing is held
          refine ⟨rfl, .refl _, fun since h => .inl (.inl (h.resolve_right ?_))⟩
          rintro ⟨t, ht, -⟩
          have hadded : p.startConsumer.consumers = p.consumers ++ [⟨p.nextTask, .consuming⟩] :=
            List.filter_append ..
          rw [hadded, ht] at hsingle
          exact absurd hsingle (by simp)
      | cancelWorker => exact hcancel p.worker
      | cancelConsumer => exact hcancel p.consumer
      | startWorker | waitIdle ms =>
          exact .beside rfl (.refl _) (fun h => h) (consumers_spawn _ rfl) honward hrested
      | _ => exact .beside rfl (.refl _) (fun h => h) rfl honward hrested
  | @tornDown p owned pipe region =>
      have hsettings := (p.queue.discardPipe_fields p.commons pipe region).2.1
      have hspares (commons : Commons) (hempty : p.batch.events = []) :
          (p.batch.discardPipe commons pipe region).1.events = [] := by
        rw [(batch_discardPipe p.batch commons pipe region).1, hempty]
        rfl
      exact .beside hsettings (p.batch.proceeds_discardPipe _ pipe region) (hspares _) rfl honward
        hrested
  | @closed p owned =>
      have hempty (commons : Commons) : (p.batch.close commons).1.events = [] :=
        (batch_close commons hshut).1
      exact .beside rfl (p.batch.proceeds_close _) (fun _ => hempty _) rfl honward hrested

/-- What is known of every state of a pipe that is run at its time. -/
structure Scene.IsPunctual (events : EventId → Event) (s : Scene P) : Prop where
  served : (s.pipe.books none 0).Served events s.owned
  single : s.pipe.consumers.length ≤ 1
  dated : s.pipe.batch.IsDated s.pipe.now
  attended : ∃ since ≤ s.pipe.now, s.pipe.IsAttended since

theorem punctual_of_new {s : Scene P} (new : s.IsNew) (undated : s.pipe.batch.firstAt = none) :
    s.IsPunctual events := by
  refine ⟨?_, ?_, ⟨fun _ => undated, fun hheld => absurd new.pipe.batch hheld⟩,
    s.pipe.now, Nat.le_refl _, .inl new.pipe.batch⟩
  · rw [new.owned]
    exact served_of_new new.pipe
  · rw [consumers, new.pipe.tasks]
    exact Nat.zero_le _

theorem Timed.punctual {s s' : Scene P} (h : Timed events s s') (hs : s.IsPunctual events) :
    s'.IsPunctual events := by
  have hpasses := h.passes hs.served hs.single
  obtain ⟨since, hpast, hattended⟩ := hs.attended
  refine ⟨h.solo.1.served hs.served, h.solo.2, ?_, ?_⟩
  · exact (hpasses.batch.isDated hs.dated fun _ => Nat.le_refl _).mono h.onward
  · rcases hpasses.attended since hattended with hsame | ⟨hnow, hnext, -⟩
    · exact ⟨since, hpast.trans h.onward, hsame⟩
    · exact ⟨s.pipe.now, h.onward, hnext⟩

/-- When a failure was last counted, as an observer knows it after a step. -/
def failedAfter (p p' : Pipe P) (failedAt : Option Nat) : Option Nat :=
  if p'.failures.total = p.failures.total then failedAt else some p'.now

/-- An event is in the batch from a state `s` on. The observer of it comes then, and has seen no
failure yet. -/
inductive Lingers (events : EventId → Event) (e : EventRef) (s : Scene P) :
    Scene P → Option Nat → Prop
  | here (held : e ∈ s.pipe.batch.events) : Lingers events e s s none
  | step {s' s'' : Scene P} {failedAt : Option Nat} (before : Lingers events e s s' failedAt)
      (step : Timed events s' s'') (held : e ∈ s''.pipe.batch.events) :
      Lingers events e s s'' (failedAfter s'.pipe s''.pipe failedAt)

theorem Lingers.held {s s' : Scene P} {failedAt : Option Nat} (h : Lingers events e s s' failedAt) :
    e ∈ s'.pipe.batch.events := by
  cases h <;> assumption

/-- A step of a task takes no time. -/
theorem Lingers.ran {s : Scene P} {p : Pipe P} {owned : EventId → Nat} {failedAt : Option Nat}
    (h : Lingers events e s ⟨p, owned⟩ failedAt) (id : TaskId)
    (stays : (p.run id).consumers.length ≤ 1 ∧ (p.run id).now = p.now ∧
      e ∈ (p.run id).batch.events) :
    Lingers events e s ⟨p.run id, owned⟩ (failedAfter p (p.run id) failedAt) :=
  h.step (.at_once ⟨.ran id, stays.1⟩ stays.2.1) stays.2.2

theorem Lingers.clock {s : Scene P} {p : Pipe P} {owned : EventId → Nat} {failedAt : Option Nat}
    (h : Lingers events e s ⟨p, owned⟩ failedAt) (moment : Nat)
    (free : p.consumers.length ≤ 1 ∧ p.now ≤ moment ∧ p.Rests moment) :
    Lingers events e s ⟨p.setClock moment, owned⟩ failedAt := by
  have hsame : failedAfter p (p.setClock moment) failedAt = failedAt := if_pos rfl
  exact hsame ▸ h.step (.clock free.1 free.2.1 free.2.2) h.held

/-- What is known while an event lingers. The consumer began its round before the maximum delay had
passed, or not after the last failure. -/
structure Scene.IsWaited (s s' : Scene P) (failedAt : Option Nat) : Prop where
  delay : s'.pipe.batch.maxDelayMs = s.pipe.batch.maxDelayMs
  settings : s'.pipe.queue.settings = s.pipe.queue.settings
  onward : s.pipe.now ≤ s'.pipe.now
  dated : s'.pipe.batch.IsDated s.pipe.now
  attended : ∃ since, s'.pipe.IsAttended since ∧
    (since ≤ s.pipe.now + s.pipe.batch.maxDelayMs ∨
      ∃ failed ∈ failedAt, s.pipe.now ≤ failed ∧ failed ≤ s'.pipe.now ∧ since ≤ failed)

theorem Lingers.isWaited {s s' : Scene P} {failedAt : Option Nat}
    (h : Lingers events e s s' failedAt) (hs : s.IsPunctual events) :
    s'.IsPunctual events ∧ s.IsWaited s' failedAt := by
  induction h with
  | here held =>
      obtain ⟨since, hpast, hattended⟩ := hs.attended
      exact ⟨hs, rfl, rfl, Nat.le_refl _, hs.dated, since, hattended,
        .inl (hpast.trans (Nat.le_add_right _ _))⟩
  | @step s' s'' failedAt before step held ih =>
      obtain ⟨hpunctual, hwaited⟩ := ih
      have hheld : s'.pipe.batch.events ≠ [] := List.ne_nil_of_mem before.held
      have hpasses := step.passes hpunctual.served hpunctual.single
      have hdelay := hpasses.batch.maxDelayMs.trans hwaited.delay
      have hdated := hpasses.batch.isDated hwaited.dated fun hempty => absurd hempty hheld
      refine ⟨step.punctual hpunctual, hdelay, hpasses.settings.trans hwaited.settings,
        hwaited.onward.trans step.onward, hdated, ?_⟩
      obtain ⟨since, hattended, hwhen⟩ := hwaited.attended
      unfold failedAfter
      rcases hpasses.attended since hattended with hsame | ⟨hnow, hnext, hearly | hfailed⟩
      · refine ⟨since, hsame, hwhen.imp_right ?_⟩
        rintro ⟨failed, hlast, hfrom, hpast, hbefore⟩
        split
        · exact ⟨failed, hlast, hfrom, hpast.trans step.onward, hbefore⟩
        · exact ⟨_, rfl, hwaited.onward.trans step.onward, Nat.le_refl _,
            hbefore.trans (hpast.trans step.onward)⟩
      · obtain ⟨first, hfirst, hbegan⟩ := hdated.begun (List.ne_nil_of_mem held)
        have hless := hearly first hfirst
        rw [hdelay] at hless
        exact ⟨s'.pipe.now, hnext, .inl (by omega)⟩
      · rw [if_neg hfailed]
        exact ⟨s'.pipe.now, hnext, .inr ⟨_, rfl, hwaited.onward.trans step.onward,
          Nat.le_refl _, step.onward⟩⟩

/-- Whatever arrives and whatever becomes of it: a tablet that is still in the batch has waited at
most the maximum delay and the longest rest of the consumer, unless a failure was counted while it
waited; then at most such a rest has passed since the last one. -/
theorem delay_bounded {start s s' : Scene P} {failedAt : Option Nat} (new : start.IsNew)
    (undated : start.pipe.batch.firstAt = none)
    (reach : Relation.ReflTransGen (Timed events) start s)
    (lingers : Lingers events e s s' failedAt) :
    let rest := max s.pipe.queue.settings.maxBlockingMs constructRetryMs
    s'.pipe.now ≤ s.pipe.now + s.pipe.batch.maxDelayMs + rest ∨
      ∃ failed ∈ failedAt, s.pipe.now ≤ failed ∧ s'.pipe.now ≤ failed + rest := by
  intro rest
  have hs : s.IsPunctual events := by
    clear lingers
    induction reach with
    | refl => exact punctual_of_new new undated
    | tail _ hstep ih => exact hstep.punctual ih
  obtain ⟨-, hwaited⟩ := lingers.isWaited hs
  obtain ⟨since, hattended, hwhen⟩ := hwaited.attended
  obtain ⟨t, -, hwithin⟩ := hattended.resolve_left (List.ne_nil_of_mem lingers.held)
  have hrest := hwithin.le
  rw [hwaited.settings] at hrest
  rcases hwhen with hsoon | ⟨failed, hlast, hfrom, -, hbefore⟩
  · exact .inl (hrest.trans (Nat.add_le_add_right hsoon rest))
  · exact .inr ⟨failed, hlast, hfrom, hrest.trans (Nat.add_le_add_right hbefore rest)⟩

/-- A tablet is accepted. Another one cannot be encoded at first and joins it a while later; the
consumer then waits at the queue until the batch is due. -/
theorem delay_bounded_of_joined :
    let tablet : Event := {
      content := .tablet { target := "", rows := 0, payload := [1] }, pipe := "a", region := 1
      commit := .zero, progress := 0 }
    let p : Pipe Batch.ScriptedPayload := {
      commons := { memory := { Memory.Context.ofSettings {} with budget := some {
        block := .empty .batch, slices := [{ requested := 100, granted := 100 }] } } }
      queue := { pipe := "q", settings := { maxBlockingMs := 100 }, block := 0 }
      batch := {
        id := "b", maxDelayMs := 200, slice := 0
        payload := { script := [.plain, .busy] } }
      connector := .create "c" {}
      clients := .ofClients [0]
      disk := {}
      peer := {} }
    let offered := (((p.built 0).built 0).offer ⟨0, tablet⟩).1.offer ⟨1, tablet⟩
    let accepted := offered.1.startConsumer.run 0
    let joined := (((accepted.run 0).run 0).setClock 100).run 0
    let later := (joined.run 0).setClock 200
    later.batch.events = [⟨0, tablet⟩, ⟨1, tablet⟩] ∧ later.now = 200 ∧
      later.now ≤ accepted.now + 200 + max 100 constructRetryMs := by
  intro tablet p offered accepted joined later
  have new : Scene.IsNew ⟨p, fun _ => 0⟩ :=
    ⟨⟨rfl, rfl, rfl, rfl, rfl, rfl, rfl, rfl, rfl, rfl, rfl⟩, rfl⟩
  let held : EventId → Nat := Function.update (Function.update (fun _ => 0) 0 1) 1 1
  have firstHere : held 0 = 1 := by decide +kernel
  have secondHere : Function.update held 0 0 1 = 1 := by decide +kernel
  let owned : EventId → Nat := Function.update (Function.update held 0 0) 1 0
  have reach : Relation.ReflTransGen (Timed fun _ => tablet) ⟨p, fun _ => 0⟩ ⟨accepted, owned⟩ :=
    .head (.at_once ⟨.built 0, by decide⟩ rfl) (.head (.at_once ⟨.built 0, by decide⟩ rfl)
      (.head (.at_once ⟨.offered firstHere, by decide +kernel⟩ rfl)
        (.head (.at_once ⟨.offered secondHere, by decide +kernel⟩ rfl)
          (.head (.at_once ⟨.aside .startConsumer, by decide +kernel⟩ rfl)
            (.single (.at_once ⟨.ran 0, by decide +kernel⟩ (by decide +kernel)))))))
  obtain ⟨failedAt, hfailedAt, lingers⟩ : ∃ failedAt, failedAt = some 0 ∧
      Lingers (fun _ => tablet) ⟨0, tablet⟩ ⟨accepted, owned⟩ ⟨later, owned⟩ failedAt := by
    have here : Lingers (fun _ => tablet) ⟨0, tablet⟩ ⟨accepted, owned⟩ ⟨accepted, owned⟩ none :=
      .here (by decide +kernel)
    have paused := (here.ran 0 (by decide +kernel)).ran 0 (by decide +kernel)
    have joins := (paused.clock 100 (by decide +kernel)).ran 0 (by decide +kernel)
    have polls := joins.ran 0 (by decide +kernel)
    refine ⟨_, ?_, polls.clock 200 (by decide +kernel)⟩
    decide +kernel
  have hevents : later.batch.events = [⟨0, tablet⟩, ⟨1, tablet⟩] := by decide +kernel
  have hnow : later.now = 200 := by decide +kernel
  have hdelay : accepted.batch.maxDelayMs = 200 := by decide +kernel
  have hblocking : accepted.queue.settings.maxBlockingMs = 100 := by decide +kernel
  have hbounded := delay_bounded new rfl reach lingers
  clear_value accepted later
  refine ⟨hevents, hnow, ?_⟩
  rw [hdelay, hblocking] at hbounded
  refine hbounded.resolve_right ?_
  rintro ⟨failed, hfailed, -, hlate⟩
  rw [hfailedAt, Option.mem_some_iff] at hfailed
  rw [hnow, ← hfailed] at hlate
  exact absurd hlate (by decide)

/-- A tablet is accepted, and the next one cannot be encoded however often it is offered again. The
first one waits longer than it may, although no request holds anybody up. -/
theorem overdue_while_failing :
    let tablet : Event := {
      content := .tablet { target := "", rows := 0, payload := [1] }, pipe := "a", region := 1
      commit := .zero, progress := 0 }
    let p : Pipe Batch.ScriptedPayload := {
      commons := { memory := { Memory.Context.ofSettings {} with budget := some {
        block := .empty .batch, slices := [{ requested := 100, granted := 100 }] } } }
      queue := { pipe := "q", settings := { maxBlockingMs := 100 }, block := 0 }
      batch := {
        id := "b", maxDelayMs := 200, slice := 0
        payload := { script := [.plain, .busy, .busy, .busy, .busy] } }
      connector := .create "c" {}
      clients := .ofClients [0]
      disk := {}
      peer := {} }
    let offered := (((p.built 0).built 0).offer ⟨0, tablet⟩).1.offer ⟨1, tablet⟩
    let accepted := offered.1.startConsumer.run 0
    let refused (p : Pipe Batch.ScriptedPayload) (moment : Nat) :=
      ((p.run 0).setClock moment).run 0
    let again := refused (refused (refused (accepted.run 0) 100) 200) 300
    let later := (again.run 0).setClock 400
    (∃ owned failedAt, Scene.IsNew ⟨p, fun _ => 0⟩ ∧
      Relation.ReflTransGen (Timed fun _ => tablet) ⟨p, fun _ => 0⟩ ⟨accepted, owned⟩ ∧
      Lingers (fun _ => tablet) ⟨0, tablet⟩ ⟨accepted, owned⟩ ⟨later, owned⟩ failedAt) ∧
      later.trace = [] ∧
      accepted.now + accepted.batch.maxDelayMs +
        max accepted.queue.settings.maxBlockingMs constructRetryMs < later.now := by
  intro tablet p offered accepted refused again later
  have new : Scene.IsNew ⟨p, fun _ => 0⟩ :=
    ⟨⟨rfl, rfl, rfl, rfl, rfl, rfl, rfl, rfl, rfl, rfl, rfl⟩, rfl⟩
  let held : EventId → Nat := Function.update (Function.update (fun _ => 0) 0 1) 1 1
  have firstHere : held 0 = 1 := by decide +kernel
  have secondHere : Function.update held 0 0 1 = 1 := by decide +kernel
  let owned : EventId → Nat := Function.update (Function.update held 0 0) 1 0
  refine ⟨⟨owned, ?_⟩, List.isEmpty_iff.mp (by decide +kernel), by decide +kernel⟩
  have reach : Relation.ReflTransGen (Timed fun _ => tablet) ⟨p, fun _ => 0⟩ ⟨accepted, owned⟩ :=
    .head (.at_once ⟨.built 0, by decide⟩ rfl) (.head (.at_once ⟨.built 0, by decide⟩ rfl)
      (.head (.at_once ⟨.offered firstHere, by decide +kernel⟩ rfl)
        (.head (.at_once ⟨.offered secondHere, by decide +kernel⟩ rfl)
          (.head (.at_once ⟨.aside .startConsumer, by decide +kernel⟩ rfl)
            (.single (.at_once ⟨.ran 0, by decide +kernel⟩ (by decide +kernel)))))))
  have here : Lingers (fun _ => tablet) ⟨0, tablet⟩ ⟨accepted, owned⟩ ⟨accepted, owned⟩ none :=
    .here (by decide +kernel)
  have first := here.ran 0 (by decide +kernel)
  have second := ((first.ran 0 (by decide +kernel)).clock 100 (by decide +kernel)).ran 0
    (by decide +kernel)
  have third := ((second.ran 0 (by decide +kernel)).clock 200 (by decide +kernel)).ran 0
    (by decide +kernel)
  have fourth := ((third.ran 0 (by decide +kernel)).clock 300 (by decide +kernel)).ran 0
    (by decide +kernel)
  exact ⟨_, new, reach, (fourth.ran 0 (by decide +kernel)).clock 400 (by decide +kernel)⟩

end Pipe
end Courier
