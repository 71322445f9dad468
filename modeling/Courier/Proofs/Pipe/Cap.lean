import Courier.Proofs.Pipe.Intake

/-!
Slots over whole runs. Whatever is done to a pipe, the slots taken are the files that are buffered,
as long as nobody else takes slots. With one consumer that alone retrieves from the queue and hands
files over, no more files are buffered than the queue allows.
-/

namespace Courier

open Transfer

namespace Pipe

variable {P : Type} {p p' : Pipe P} {id : TaskId}

section Users

theorem takes_offer (p : Pipe P) (e : EventRef) : Takes 0 none none p (p.offer e).1 := by
  cases hpush : p.queue.channels.push? e with
  | none =>
      have hoffer : (p.offer e).1 = { p.drop e with
          queue := { p.queue with stats := p.queue.stats.recordCoalesced } } := by
        simp only [offer, Queue.Realtime.offer, hpush]
        rfl
      rw [hoffer]
      exact .of_turns (.of_eq rfl) rfl (Takes.light_of_eq rfl rfl rfl) rfl
  | some channels =>
      have hfields : (p.offer e).1.stock = p.stock ∧ (p.offer e).1.tasks = p.tasks ∧
          (p.offer e).1.queue.settings = p.queue.settings ∧
          (p.offer e).1.queue.channels = channels ∧ (p.offer e).1.pending = p.pending := by
        unfold offer Queue.Realtime.offer
        rw [hpush]
        exact ⟨rfl, rfl, rfl, rfl, rfl⟩
      obtain ⟨hstock, htasks, hsettings, hchannels, hpending⟩ := hfields
      refine .of_turns (.of_eq hstock) htasks (fun hl => ⟨fun e' he' => ?_, ?_, ?_⟩) hsettings
      · rw [hchannels] at he'
        rcases Queue.Channels.push?_some hpush with ⟨_, hlive, _⟩ | ⟨hlight, hlive, _⟩
        · exact hl.live e' (hlive ▸ he')
        · rcases List.mem_append.mp (hlive ▸ he') with he' | he'
          · exact hl.live e' he'
          · rw [List.mem_singleton.mp he']
            exact hlight
      · rw [hpending]
        exact hl.pending
      · rw [htasks]
        exact hl.pauses

theorem takes_discard (p : Pipe P) (pipe : String) (region : Int) :
    Takes 0 none none p (p.discard pipe region).1 :=
  .of_turns (p.connector.turns_discardPipe p.commons pipe region) rfl
    (Takes.light_of_eq rfl rfl rfl) rfl

theorem takes_closeConnector (p : Pipe P) : Takes 0 none none p p.closeConnector :=
  .of_turns (p.connector.turns_close p.commons) rfl (Takes.light_of_eq rfl rfl rfl) rfl

theorem takes_callSend (p : Pipe P) (sent : List EventRef) (payload : Bytes) :
    Takes 0 none none p (p.callSend sent payload).1 := by
  have hnew : Takes 0 none (some p.nextTask) p p.newTask.1 :=
    (Takes.forget p p.nextTask).next (.of_eq rfl rfl rfl rfl)
  have hended (q : Pipe P) (result : Except ConnectorError Unit) :
      Takes 0 (some p.nextTask) none q (q.setTask p.nextTask (.ended (.sent result) p.now)) :=
    .waits q p.nextTask (.ended (.sent result) p.now) rfl
  have hdropped : Takes 0 (some p.nextTask) (some p.nextTask) p.newTask.1
      (p.newTask.1.dropAll sent) := .of_eq rfl rfl rfl rfl
  have hreset (ledger : Ledger) : Takes 0 (some p.nextTask) (some p.nextTask) p.newTask.1
      (p.newTask.1.withLedger ledger) := .of_eq rfl rfl rfl rfl
  unfold callSend
  dsimp only
  split
  · exact hnew.next (hdropped.next (hended _ _))
  · split
    · exact hnew.next (hended _ _)
    · rw [submit_eq]
      exact hnew.next ((hreset _).next (takes_askForTablets _ p.nextTask
        { events := sent, payload, purpose := .call }))

theorem takes_aside (h : Aside p p') (slots : p'.commons.slots = p.commons.slots) :
    Takes 0 none none p p' := by
  have hcancel (id? : Option TaskId) : Takes 0 none none p (p.cancel id?) := by
    cases id? <;> exact .of_eq rfl rfl rfl rfl
  cases h with
  | clock | surroundings => exact .of_eq rfl rfl rfl rfl
  | neighbours memory others =>
      have hsame : others = p.commons.slots := slots
      subst hsame
      exact .of_eq rfl rfl rfl rfl
  | shutdownQueue => exact .of_turns (.of_eq rfl) rfl (Takes.light_of_eq rfl rfl rfl) rfl
  | cancelWorker => exact hcancel p.worker
  | cancelConsumer => exact hcancel p.consumer
  | startWorker =>
      have hnamed : Takes 0 none none p { p with worker := some p.nextTask } :=
        .of_eq rfl rfl rfl rfl
      exact hnamed.next (.spawn _ rfl rfl)
  | startConsumer =>
      have hnamed : Takes 0 none none p { p with consumer := some p.nextTask } :=
        .of_eq rfl rfl rfl rfl
      exact hnamed.next (.spawn _ rfl rfl)
  | waitIdle ms => exact .spawn p rfl rfl

variable [Batch.Payload P]

omit [Batch.Payload P] in
theorem slots_discardPipe (q : Queue.Realtime) (commons : Commons) (pipe : String) (region : Int) :
    (q.discardPipe commons pipe region).2.1.slots = commons.slots :=
  Queue.Realtime.forgetAll_keeps (fun s => s.2.slots) (fun _ _ => rfl) _ _

theorem slots_discardBatch (b : Batch.Accumulator P) (commons : Commons) (pipe : String)
    (region : Int) : (b.discardPipe commons pipe region).2.1.slots = commons.slots := by
  unfold Batch.Accumulator.discardPipe
  dsimp only
  split <;> rfl

theorem takes_teardown (p : Pipe P) (pipe : String) (region : Int) :
    Takes 0 none none p (p.teardown pipe region).1 := by
  obtain ⟨hchannels, hsettings, _⟩ := p.queue.discardPipe_fields p.commons pipe region
  have hqueue := slots_discardPipe p.queue p.commons pipe region
  rw [teardown_eq]
  generalize p.queue.discardPipe p.commons pipe region = q at hchannels hsettings hqueue
  have hpending {e : EventRef} : (p.discardPending q.2.1 pipe region).1 = some e →
      p.pending = some e := pending_of_discardPending
  obtain ⟨-, -, -, hwaiting⟩ := p.discardPending_fields q.2.1 pipe region
  dsimp only
  generalize p.discardPending q.2.1 pipe region = w at hpending hwaiting
  have hbatch := slots_discardBatch p.batch w.2.1 pipe region
  generalize p.batch.discardPipe w.2.1 pipe region = b at hbatch
  have hturns := p.connector.turns_discardPipe b.2.1 pipe region
  have hstock : p.connector.stock b.2.1 = p.stock := by
    simp only [stock, Connector.stock, hbatch, hwaiting, hqueue]
  rw [hstock] at hturns
  refine .of_turns hturns rfl (fun hl => ⟨fun e he => ?_, fun e he => ?_, hl.pauses⟩) hsettings
  · dsimp only at he
    rw [hchannels] at he
    exact hl.live e (List.mem_filter.mp he).1
  · exact hl.pending e (hpending he)

theorem takes_close (p : Pipe P) : Takes 0 none none p p.close := by
  have hwaiting (commons : Commons) : (p.clearPending commons).slots = commons.slots := by
    unfold clearPending
    split <;> rfl
  have hbatch (commons : Commons) : (p.batch.close commons).2.slots = commons.slots := by
    unfold Batch.Accumulator.close
    split <;> rfl
  have hturns := p.connector.turns_close
    (p.batch.close (p.clearPending (p.queue.shutdown.discardAll p.commons).2)).2
  have hstock : p.connector.stock (p.batch.close
      (p.clearPending (p.queue.shutdown.discardAll p.commons).2)).2 = p.stock := by
    simp only [stock, Connector.stock, hbatch, hwaiting]
    rfl
  rw [hstock] at hturns
  rw [close_eq]
  refine .of_turns hturns rfl (fun hl => ⟨fun e he => ?_, fun e he => ?_, hl.pauses⟩) rfl
  · cases he
  · cases he

theorem takes_callDispatch (p : Pipe P) (e : EventRef) :
    Takes (files e) none none p (p.callDispatch e).1 := by
  have hnew : Takes 0 none (some p.nextTask) p p.newTask.1 :=
    (Takes.forget p p.nextTask).next (.of_eq rfl rfl rfl rfl)
  exact hnew.next (takes_dispatch p.newTask.1 p.nextTask e false)

theorem takes_callStep (p : Pipe P) : ∃ n, Takes n none none p p.callStep.1 := by
  unfold callStep
  split
  · rename_i queue commons hpoll
    exact ⟨0, takes_gave (Queue.Realtime.gave_poll hpoll)⟩
  · rename_i queue commons e hpoll
    have hgave : Takes 0 none none p (p.withQueue queue commons) :=
      takes_gave (Queue.Realtime.gave_poll hpoll)
    exact ⟨_, hgave.next (takes_callDispatch _ e)⟩

end Users

section Runs

variable [Batch.Payload P]

/-- Nothing was done with the pipe yet, and nobody else has a slot. -/
structure IsUnused (p : Pipe P) : Prop extends p.IsNew where
  slots : p.commons.slots.count = 0
  inFlight : p.connector.inFlightGauge = 0
  retrying : p.connector.retryingGauge = 0

theorem IsUnused.tallied (h : p.IsUnused) : p.stock.Tallied := by
  have hbuffer : p.stock.buffer = [] := h.buffer
  have hretries : p.stock.retryQueue = [] := h.retryQueue
  refine ⟨?_, ?_, ?_, ?_, fun _ => ⟨hbuffer, hretries⟩⟩
  · rw [hbuffer]
    exact List.nodup_nil
  · rw [hbuffer]
    exact h.slots
  · rw [hbuffer]
    exact h.inFlight
  · rw [hretries]
    exact h.retrying

/-- What happens to a pipe whose queue and connector are left to its tasks. Others build, hold and
drop events, offer them and send tablets; they discard, tear down and close; they take no slot. -/
inductive Traffic (p : Pipe P) : Pipe P → Prop
  | retuned (ledger : Ledger) : Traffic p (p.withLedger ledger)
  | offered (e : EventRef) : Traffic p (p.offer e).1
  | sent (events : List EventRef) (payload : Bytes) : Traffic p (p.callSend events payload).1
  | discarded (pipe : String) (region : Int) : Traffic p (p.discard pipe region).1
  | closedConnector : Traffic p p.closeConnector
  | tornDown (pipe : String) (region : Int) : Traffic p (p.teardown pipe region).1
  | closed : Traffic p p.close
  | ran (id : TaskId) : Traffic p (p.run id)
  | aside {p' : Pipe P} (beside : Aside p p') (slots : p'.commons.slots = p.commons.slots) :
      Traffic p p'

/-- What happens to a pipe when others hand files to its connector, too, and dispatch events
themselves. -/
inductive Use (p : Pipe P) : Pipe P → Prop
  | traffic {p' : Pipe P} (h : Traffic p p') : Use p p'
  | transferred (e : EventRef) : Use p (p.transferFile e).1
  | failed (e : EventRef) : Use p (p.addFailure e)
  | removed (e : EventRef) : Use p (p.remove e).1
  | dispatched (e : EventRef) : Use p (p.callDispatch e).1
  | stepped : Use p p.callStep.1

/-- Whatever happens takes nothing on, unless a task runs. -/
theorem Traffic.takes (h : Traffic p p') :
    ∃ n ≤ 1, Takes n none none p p' ∧ (p.Light → n = 1 → ∃ id, p.MayRetrieve id) := by
  have hnone (h : Takes 0 none none p p') :
      ∃ n ≤ 1, Takes n none none p p' ∧ (p.Light → n = 1 → ∃ id, p.MayRetrieve id) :=
    ⟨0, Nat.zero_le 1, h, fun _ hone => by cases hone⟩
  cases h with
  | retuned => exact hnone (.of_eq rfl rfl rfl rfl)
  | offered e => exact hnone (takes_offer p e)
  | sent events payload => exact hnone (takes_callSend p events payload)
  | discarded pipe region => exact hnone (takes_discard p pipe region)
  | closedConnector => exact hnone (takes_closeConnector p)
  | tornDown pipe region => exact hnone (takes_teardown p pipe region)
  | closed => exact hnone (takes_close p)
  | ran id =>
      obtain ⟨n, hle, htakes, hmay⟩ := takes_run p id
      exact ⟨n, hle, htakes, fun hl hone => ⟨id, hmay hl hone⟩⟩
  | aside beside slots => exact hnone (takes_aside beside slots)

theorem Use.takes (h : Use p p') : ∃ n, Takes n none none p p' := by
  cases h with
  | traffic h =>
      obtain ⟨n, _, htakes, _⟩ := h.takes
      exact ⟨n, htakes⟩
  | transferred e => exact ⟨1, takes_transferFile p e⟩
  | failed e => exact ⟨0, takes_addFailure p e⟩
  | removed e => exact ⟨0, takes_remove p e⟩
  | dispatched e => exact ⟨_, takes_callDispatch p e⟩
  | stepped => exact takes_callStep p

theorem takes_of_uses (h : Relation.ReflTransGen Use p p') : ∃ n, Takes n none none p p' := by
  induction h with
  | refl => exact ⟨0, .refl p⟩
  | tail _ huse ih =>
      obtain ⟨n, hn⟩ := ih
      obtain ⟨m, hm⟩ := huse.takes
      exact ⟨n + m, hn.trans hm⟩

/-- As long as nobody else takes slots, the slots taken are the files that are buffered, the gauges
show what is buffered and what waits for another try. Once the connector is closed, it keeps
nothing, takes nothing on any more, and all of them are zero for good. -/
theorem mirrors_agree {p p' : Pipe P} (new : p.IsUnused) (reach : Relation.ReflTransGen Use p p') :
    (p'.commons.slots.count = p'.connector.buffer.length ∧
      p'.connector.inFlightGauge = p'.connector.buffer.length ∧
        p'.connector.retryingGauge = p'.connector.retryQueue.length) ∧
    p'.closeConnector.connector.closed = true ∧ p'.close.connector.closed = true ∧
    (p'.connector.closed = true → ∀ p'', Relation.ReflTransGen Use p' p'' →
      p''.connector.buffer = [] ∧ p''.connector.retryQueue = [] ∧ p''.commons.slots.count = 0 ∧
        p''.connector.inFlightGauge = 0 ∧ p''.connector.retryingGauge = 0) := by
  obtain ⟨_, hreached⟩ := takes_of_uses reach
  have htallied := hreached.tallied new.tallied
  refine ⟨⟨htallied.slots, htallied.inFlight, htallied.retrying⟩,
    closed_closeConnector p', (closed_close p').2, fun hclosed p'' later => ?_⟩
  obtain ⟨_, hlater⟩ := takes_of_uses later
  have hend := hlater.tallied htallied
  obtain ⟨hbuffer, hretries⟩ := hend.shut (hlater.closed hclosed)
  refine ⟨hbuffer, hretries, ?_, ?_, ?_⟩
  · exact hend.slots.trans (congrArg List.length hbuffer)
  · exact hend.inFlight.trans (congrArg List.length hbuffer)
  · exact hend.retrying.trans (congrArg List.length hretries)

/-- A file is under way when the connector is closed. -/
theorem mirrors_agree_after_close :
    let event : Event := {
      content := .file { data := "/d", mods := none, flushPoints := 0 }, pipe := "a", region := 1
      commit := .zero, progress := 0 }
    let p : Pipe Batch.PlainPayload := {
      commons := {}
      queue := { pipe := "q", settings := {}, block := 0 }
      batch := { id := "b", maxDelayMs := 1, slice := 0, payload := {} }
      connector := .create "c" {}
      clients := .ofClients [0]
      disk := {}
      peer := {} }
    let taken := ((p.built 0).transferFile ⟨0, event⟩).1
    let later := taken.closeConnector.run 0
    taken.connector.buffer = [(.zero, ⟨0, event⟩)] ∧ taken.commons.slots.count = 1 ∧
      taken.connector.inFlightGauge = 1 ∧ later.commons.slots.count = 0 ∧
        later.connector.inFlightGauge = 0 := by
  intro event p taken later
  have hbuffer : taken.connector.buffer = [(.zero, ⟨0, event⟩)] := by
    unfold taken event
    decide +kernel
  have new : p.IsUnused :=
    ⟨⟨rfl, rfl, rfl, rfl, rfl, rfl, rfl, rfl, rfl, rfl, rfl⟩, rfl, rfl, rfl⟩
  have reach : Relation.ReflTransGen Use p taken :=
    .head (.traffic (.retuned _)) (.single (.transferred _))
  have hclosed : Relation.ReflTransGen Use p taken.closeConnector :=
    reach.tail (.traffic .closedConnector)
  have hlater : Relation.ReflTransGen Use taken.closeConnector later :=
    .single (.traffic (.ran 0))
  obtain ⟨⟨hslots, hgauge, _⟩, hshut, _⟩ := mirrors_agree new reach
  obtain ⟨_, _, hslots', hgauge', _⟩ := (mirrors_agree new hclosed).2.2.2 hshut later hlater
  clear_value taken later
  rw [hbuffer] at hslots hgauge
  exact ⟨hbuffer, hslots, hgauge, hslots', hgauge'⟩

/-- What is buffered, and what is about to be, is within the cap. -/
structure Capped (cap : Nat) (p : Pipe P) : Prop where
  tallied : p.stock.Tallied
  light : p.Light
  room : p.load none ≤ cap
  settings : p.queue.settings.maxInFlight = cap

omit [Batch.Payload P] in
/-- A consumer that is alone and about to retrieve carries nothing, and nobody else does. -/
theorem carried_of_single (single : p.consumers.length ≤ 1) (may : p.MayRetrieve id) :
    carried p.tasks = 0 := by
  have hconsumer : ∃ process, p.consumers = [⟨id, process⟩] ∧ process.carries = 0 := by
    rcases may.2 with htask | ⟨w, htask⟩
    · exact ⟨_, consumers_of_single single htask rfl, rfl⟩
    · exact ⟨_, consumers_of_single single htask rfl, rfl⟩
  obtain ⟨process, hconsumers, hempty⟩ := hconsumer
  refine List.sum_eq_zero fun n hn => ?_
  obtain ⟨t, ht, rfl⟩ := List.mem_map.mp hn
  cases hconsumes : t.process.consumes with
  | false => exact (carries_of_apart hconsumes).1
  | true =>
      have hmem : t ∈ p.consumers := List.mem_filter.mpr ⟨ht, hconsumes⟩
      rw [hconsumers] at hmem
      rw [List.mem_singleton.mp hmem]
      exact hempty

theorem Capped.next {cap : Nat} (h : Capped cap p) (single : p.consumers.length ≤ 1)
    (step : Traffic p p') : Capped cap p' := by
  obtain ⟨n, hle, htakes, hmay⟩ := step.takes
  refine ⟨htakes.tallied h.tallied, htakes.light h.light, ?_, ?_⟩
  · have hload := htakes.load h.tallied
    rcases Nat.le_one_iff_eq_zero_or_eq_one.mp hle with rfl | rfl
    · exact hload.trans h.room
    · obtain ⟨id, hretrieves⟩ := hmay h.light rfl
      have hslots : p.commons.slots.count = p.connector.buffer.length := h.tallied.slots
      have hallowed : p.commons.slots.count < p.queue.settings.maxInFlight :=
        of_decide_eq_true hretrieves.1
      have hbefore : p.load none = p.commons.slots.count := by
        rw [load, others_none, carried_of_single single hretrieves, hslots]
        rfl
      rw [h.settings] at hallowed
      rw [hbefore] at hload
      exact hload.trans hallowed
  · rw [htakes.settings]
    exact h.settings

/-- There is at most one consumer at a time, and none but it retrieves or hands files over. -/
def Lone (p p' : Pipe P) : Prop := Traffic p p' ∧ p'.consumers.length ≤ 1

theorem buffered_le_cap {p p' : Pipe P} (new : p.IsUnused)
    (reach : Relation.ReflTransGen Lone p p') :
    p'.connector.buffer.length ≤ p.queue.settings.maxInFlight := by
  have hcapped : Capped p.queue.settings.maxInFlight p' ∧ p'.consumers.length ≤ 1 := by
    induction reach with
    | refl =>
        have hlight : p.Light := by
          refine ⟨fun e he => ?_, fun e he => ?_, fun t ht => ?_⟩
          · have hmem : e ∈ p.queue.channels.toList := List.mem_append_left _ he
            rw [new.queue] at hmem
            cases hmem
          · rw [new.pending] at he
            cases he
          · rw [new.tasks] at ht
            cases ht
        have hload : p.load none = 0 := by
          rw [load, others_none, new.tasks, new.buffer]
          rfl
        have hconsumers : p.consumers = [] := by
          rw [consumers, new.tasks]
          rfl
        refine ⟨⟨new.tallied, hlight, hload ▸ Nat.zero_le _, rfl⟩, ?_⟩
        rw [hconsumers]
        exact Nat.zero_le 1
    | tail _ hstep ih => exact ⟨ih.1.next ih.2 hstep.1, hstep.2⟩
  exact (Nat.le_add_right _ _).trans hcapped.1.room

/-- Two files are offered to a pipe with one slot, and its consumer runs twice. -/
theorem buffered_le_cap_of_two :
    let event (index : Nat) : Event := {
      content := .file { data := "/d", mods := none, flushPoints := 0 }, pipe := "a", region := 1
      commit := ⟨0, 0, index⟩, progress := 0 }
    let p : Pipe Batch.PlainPayload := {
      commons := {}
      queue := { pipe := "q", settings := {}, block := 0 }
      batch := { id := "b", maxDelayMs := 1, slice := 0, payload := {} }
      connector := .create "c" {}
      clients := .ofClients [0]
      disk := {}
      peer := {} }
    let offered := ((((p.built 0).built 0).offer ⟨0, event 0⟩).1.offer ⟨1, event 1⟩).1
    let p' := (offered.startConsumer.run 0).run 0
    p.queue.settings.maxInFlight = 1 ∧ p'.connector.buffer = [(⟨0, 0, 1⟩, ⟨1, event 1⟩)] ∧
      p'.queue.channels.bulk = [⟨0, event 0⟩] ∧ p'.connector.buffer.length ≤ 1 := by
  intro event p offered p'
  have hbuffer : p'.connector.buffer = [(⟨0, 0, 1⟩, ⟨1, event 1⟩)] ∧
      p'.queue.channels.bulk = [⟨0, event 0⟩] ∧ p'.consumers.length = 1 := by
    refine ⟨?_, ?_, ?_⟩ <;> (unfold p' offered event; decide +kernel)
  have hstarted : offered.startConsumer.consumers.length = 1 := by
    unfold offered event
    decide +kernel
  have hrun : (offered.startConsumer.run 0).consumers.length = 1 := by
    unfold offered event
    decide +kernel
  have new : p.IsUnused :=
    ⟨⟨rfl, rfl, rfl, rfl, rfl, rfl, rfl, rfl, rfl, rfl, rfl⟩, rfl, rfl, rfl⟩
  have built : Relation.ReflTransGen Lone p ((p.built 0).built 0) :=
    .head ⟨.retuned _, by decide⟩ (.single ⟨.retuned _, by decide⟩)
  have reach : Relation.ReflTransGen Lone p p' := by
    refine built.trans (.head ⟨.offered ⟨0, event 0⟩, by decide⟩ ?_)
    refine .head ⟨.offered ⟨1, event 1⟩, by decide⟩ ?_
    refine .head ⟨.aside .startConsumer rfl, hstarted.le⟩ ?_
    exact .head ⟨.ran 0, hrun.le⟩ (.single ⟨.ran 0, hbuffer.2.2.le⟩)
  have hcap := buffered_le_cap new reach
  clear_value p'
  exact ⟨rfl, hbuffer.1, hbuffer.2.1, hcap⟩

end Runs

end Pipe
end Courier
