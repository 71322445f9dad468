import Courier.Proofs.Pipe.Line
import Courier.Proofs.Pipe.Service
import Mathlib.Data.Finset.Basic
import Mathlib.Data.Fintype.EquivFin

/-!
A consumer that is alone. While it polls or pauses, the place before the batch is empty, so no
tablet that it puts back takes the place of another. What waits there was queued, and once the batch
is closed nothing comes to wait there any more but what was in a pause.
-/

namespace Courier

open Transfer

namespace Pipe

variable {P : Type} {p p' : Pipe P} {Q D : EventRef → Prop} {id : TaskId}

/-- What may lie in the queue, and what may wait before the batch. An open batch can turn away a
tablet for the time being, so that it comes to wait. -/
structure Held (Q D : EventRef → Prop) (p : Pipe P) : Prop where
  queue : ∀ e ∈ p.queue.channels.toList, Q e
  pending : ∀ e, p.pending = some e → D e
  deferring : p.batch.closed = false → ∀ e, Q e → D e

/-- The line while no consumer runs. -/
structure Alone (Q D : EventRef → Prop) (p : Pipe P) : Prop where
  held : p.Held Q D
  returns : ∀ t ∈ p.consumers, t.process.returns = true → p.pending = none
  pauses : ∀ t ∈ p.consumers, ∀ e until_, t.process = .pausing e until_ → D e

/-- The line while the only consumer runs. -/
structure Carrying (Q D : EventRef → Prop) (id : TaskId) (p : Pipe P) : Prop where
  held : p.Held Q D
  sole : (p.consumers.filter fun t => t.id != id) = []

theorem consumers_of_beside {mine : EventRef → Prop} {calm : Prop}
    (h : ∀ id, Beside calm id mine p p') : p'.consumers = p.consumers := by
  obtain ⟨id, hid⟩ := Infinite.exists_notMem_finset (p.consumers.map Task.id).toFinset
  refine (h id).consumers fun t ht hsame => hid ?_
  rw [List.mem_toFinset, ← hsame]
  exact List.mem_map_of_mem ht

theorem Held.next (h : p.Held Q D) (queue : p'.queue.channels = p.queue.channels)
    (pending : p'.pending = p.pending) (closed : p'.batch.closed = p.batch.closed) :
    p'.Held Q D := by
  obtain ⟨hqueue, hpending, hdeferring⟩ := h
  rw [← queue] at hqueue
  rw [← pending] at hpending
  rw [← closed] at hdeferring
  exact ⟨hqueue, hpending, hdeferring⟩

theorem Alone.next (h : p.Alone Q D) (queue : p'.queue.channels = p.queue.channels)
    (pending : p'.pending = p.pending) (closed : p'.batch.closed = p.batch.closed)
    (consumers : p'.consumers = p.consumers) : p'.Alone Q D := by
  obtain ⟨hheld, hreturns, hpauses⟩ := h
  rw [← consumers] at hreturns hpauses
  rw [← pending] at hreturns
  exact ⟨hheld.next queue pending closed, hreturns, hpauses⟩

namespace Carrying

theorem next (h : Carrying Q D id p) (queue : p'.queue.channels = p.queue.channels)
    (pending : p'.pending = p.pending) (closed : p'.batch.closed = p.batch.closed)
    (consumers : p'.consumers = p.consumers) : Carrying Q D id p' :=
  ⟨h.held.next queue pending closed, consumers.symm ▸ h.sole⟩

theorem beside {mine : EventRef → Prop} {calm : Prop} (h : Carrying Q D id p)
    (hbeside : ∀ id, Beside calm id mine p p') : Carrying Q D id p' :=
  h.next (by rw [(hbeside id).queue]) (hbeside id).pending (by rw [(hbeside id).batch])
    (consumers_of_beside hbeside)

theorem drop (h : Carrying Q D id p) (e : EventRef) : Carrying Q D id (p.drop e) :=
  h.next rfl rfl rfl rfl

theorem dropAll (h : Carrying Q D id p) (events : List EventRef) :
    Carrying Q D id (p.dropAll events) := h.next rfl rfl rfl rfl

theorem note (h : Carrying Q D id p) (o : Occurrence) : Carrying Q D id (p.note o) :=
  h.next rfl rfl rfl rfl

theorem countFailure (h : Carrying Q D id p) : Carrying Q D id p.countFailure :=
  h.next rfl rfl rfl rfl

theorem withLedger (h : Carrying Q D id p) (ledger : Ledger) :
    Carrying Q D id (p.withLedger ledger) := h.next rfl rfl rfl rfl

theorem withClients (h : Carrying Q D id p) (clients : ClientPool) :
    Carrying Q D id (p.withClients clients) := h.next rfl rfl rfl rfl

theorem send (h : Carrying Q D id p) (request : Request) : Carrying Q D id (p.send request).1 :=
  h.next rfl rfl rfl rfl

theorem parked (h : Carrying Q D id p) {process : Process}
    (returns : process.returns = true → p.pending = none)
    (pauses : ∀ e until_, process = .pausing e until_ → D e) :
    (p.setTask id process).Alone Q D := by
  have hown : ∀ t ∈ (p.setTask id process).consumers, t.process = process := by
    intro t ht
    rw [consumers_setTask, h.sole, List.nil_append] at ht
    rw [List.mem_singleton.mp (List.mem_filter.mp ht).1]
  refine ⟨h.held.next rfl rfl rfl, fun t ht => ?_, fun t ht => ?_⟩
  · rw [hown t ht]
    exact returns
  · rw [hown t ht]
    exact pauses

theorem ended (h : Carrying Q D id p) : (p.removeTask id).Alone Q D := by
  have hnone : (p.removeTask id).consumers = [] := (consumers_removeTask p id).trans h.sole
  refine ⟨h.held.next rfl rfl rfl, ?_, ?_⟩ <;>
    · rw [hnone]
      exact fun t ht => absurd ht List.not_mem_nil

theorem afterDispatch (h : Carrying Q D id p) (loop : Bool) :
    (p.afterDispatch id loop).Alone Q D := by
  refine h.parked (fun hreturns => ?_) fun e until_ heq => ?_
  · cases loop <;> cases hreturns
  · cases loop <;> cases heq

theorem transferFile (h : Carrying Q D id p) (e : EventRef) :
    Carrying Q D id (p.transferFile e).1 := by
  refine transferFile_cases p e (fun _ => h) (fun _ => h.withLedger _)
    (fun _ => (h.withLedger _).drop e) fun a _ _ _ => ?_
  exact h.next rfl rfl rfl (consumers_spawn (p.accept e) rfl)

theorem afterFlush (h : Carrying Q D id p) (after : After) :
    (p.afterFlush id after).Alone Q D := by
  cases after with
  | dispatched e loop => exact (h.drop e).afterDispatch loop
  | due =>
      exact h.parked (fun hreturns => by cases hreturns) fun e until_ heq => by cases heq
  | stop => exact h.ended
  | file e loop =>
      have hfile := h.transferFile e
      simp only [Pipe.afterFlush]
      split <;> rename_i heq <;> rw [heq] at hfile
      · exact (hfile.drop e).afterDispatch loop
      · exact (hfile.countFailure.drop e).afterDispatch loop

theorem sending (h : Carrying Q D id p) (t : TabletSend) (link : Link Unit) :
    (p.setTask id (.tablets t link)).Alone Q D :=
  h.parked (fun hreturns => by cases hreturns) fun e until_ heq => by cases heq

theorem askForTablets (h : Carrying Q D id p) (t : TabletSend) :
    (p.askForTablets id t).Alone Q D := by
  rw [askForTablets_eq]
  split
  · exact (h.withClients _).sending t _
  · exact ((h.withClients _).send _).sending t _

variable [Batch.Payload P]

theorem flush (h : Carrying Q D id p) (after : After) : (p.flush id after).Alone Q D := by
  have hemitted : Carrying Q D id p.emit := h.next rfl rfl rfl rfl
  rw [flush_eq]
  split
  · exact hemitted.afterFlush after
  · split
    · exact (hemitted.dropAll _).countFailure.afterFlush after
    · rw [submit_eq]
      exact (hemitted.withLedger _).askForTablets _

theorem checked (h : Carrying Q D id p) : Carrying Q D id p.checked :=
  h.next rfl rfl (batch_checkDue p.batch p.commons).2.2.1 rfl

theorem dispatched (h : Carrying Q D id p) (e : EventRef) (loop due : Bool) :
    (p.dispatched id e loop due).Alone Q D := by
  cases due with
  | true => exact h.flush _
  | false => exact (h.drop e).afterDispatch loop

/-- An event is routed, or it comes to wait before the batch. -/
theorem dispatch (h : Carrying Q D id p) {e : EventRef} (loop : Bool) (may : Q e ∨ D e) :
    (p.dispatch id e loop).Alone Q D := by
  have hoffered : Carrying Q D id (p.offeredBatch e) :=
    h.next rfl rfl (closed_onEvent p.batch p.commons e) rfl
  refine dispatch_cases p id e loop (fun _ _ => h.flush _)
    (fun _ due _ => h.checked.dispatched e loop due)
    (fun _ due _ _ => hoffered.dispatched e loop due)
    (fun _ _ _ _ _ => ((hoffered.note _).countFailure.drop e).afterDispatch loop)
    fun t error _ hresult _ => ?_
  have hopen : p.batch.closed = false := open_of_onEvent hresult
  have hwaits : D e := may.elim (h.held.deferring hopen e) fun hd => hd
  have hdeferred : Carrying Q D id ((p.offeredBatch e).countFailure.defer e) := by
    refine ⟨⟨h.held.queue, fun e' he' => ?_, hoffered.held.deferring⟩, h.sole⟩
    cases he'
    exact hwaits
  exact hdeferred.afterDispatch loop

theorem flushIfDue (h : Carrying Q D id p) : (p.flushIfDue id).Alone Q D := by
  rw [flushIfDue_eq]
  split
  · exact h.checked.flush _
  · exact h.checked.afterDispatch true

omit [Batch.Payload P] in
/-- What was retrieved is in the hand of the consumer, and the rest is queued. -/
theorem retrieved (h : Carrying Q D id p) {queue : Queue.Realtime} {commons : Commons}
    {retrieval : Queue.Retrieval} (gave : p.queue.Gave retrieval.event? queue p.commons commons) :
    Carrying Q D id (p.withQueue queue commons) ∧ ∀ e, retrieval = .done (some e) → Q e := by
  have hfrom {e : EventRef} (he : e ∈ retrieval.event?.toList ++ queue.channels.toList) : Q e :=
    h.held.queue e (gave.channels.perm.mem_iff.mpr he)
  refine ⟨⟨⟨fun e he => hfrom (List.mem_append_right _ he), h.held.pending, h.held.deferring⟩,
    h.sole⟩, ?_⟩
  rintro e rfl
  exact hfrom (List.mem_cons_self ..)

theorem afterRetrieval (h : Carrying Q D id p) {retrieval : Queue.Retrieval}
    (may : ∀ e, retrieval = .done (some e) → Q e) (room : p.pending = none) :
    (p.afterRetrieval id retrieval).Alone Q D := by
  cases retrieval with
  | waiting w => exact h.parked (fun _ => room) fun e until_ heq => by cases heq
  | done event =>
      cases event with
      | some e => exact h.dispatch true (.inl (may e rfl))
      | none =>
          simp only [Pipe.afterRetrieval]
          split
          · exact h.flush _
          · exact h.flushIfDue

theorem consume (h : Carrying Q D id p) : (p.consume id).Alone Q D := by
  refine consume_cases p id (h.flush _) (fun e until_ hpending => ?_)
    fun queue commons retrieval hpending hgave => ?_
  · have hwaits : D e := h.held.pending e hpending
    have htaken : Carrying Q D id p.withoutPending :=
      ⟨⟨h.held.queue, fun e' he' => (by cases he'), h.held.deferring⟩, h.sole⟩
    refine htaken.parked (fun _ => rfl) fun e' until_ heq => ?_
    cases heq
    exact hwaits
  · obtain ⟨hcarrying, hmay⟩ := h.retrieved hgave
    exact hcarrying.afterRetrieval hmay hpending

theorem runPolling (h : Carrying Q D id p) (w : Queue.Waiting) (room : p.pending = none) :
    (p.runPolling id w).Alone Q D := by
  refine runPolling_cases p id w (h.flush _) fun queue commons retrieval hgave => ?_
  obtain ⟨hcarrying, hmay⟩ := h.retrieved hgave
  exact hcarrying.afterRetrieval hmay room

theorem runPausing (h : Carrying Q D id p) {e : EventRef} (waits : D e) :
    (p.runPausing id e).Alone Q D := by
  unfold Pipe.runPausing
  split
  · have hback : Carrying Q D id (p.defer e) := by
      refine ⟨⟨h.held.queue, fun e' he' => ?_, h.held.deferring⟩, h.sole⟩
      cases he'
      exact waits
    exact hback.flush _
  · exact h.dispatch true (.inr waits)

omit [Batch.Payload P] in
theorem runTablets (h : Carrying Q D id p) {t : TabletSend} {link : Link Unit}
    (own : t.purpose.isFlush = true) : (p.runTablets id t link).Alone Q D := by
  cases link with
  | asking => exact h.askForTablets t
  | waiting => exact h.askForTablets t
  | exchanging client x more =>
      cases hlook : p.look x with
      | mk p' progress =>
          have hbeside (id : TaskId) : Beside False id (fun _ => True) p p' :=
            .of_deed (.looked False.elim hlook)
          have hlooked : Carrying Q D id p' := h.beside hbeside
          cases progress with
          | pending y =>
              rw [runTablets_of_pending id hlook]
              exact hlooked.sending t _
          | done result =>
              have hbeside (id : TaskId) : Beside False id (fun _ => True) p'
                  (p'.settle t client x result) :=
                .of_deeds (Deeds.settle p' t client x result fun _ _ => trivial)
              have hsettled : Carrying Q D id (p'.settle t client x result) :=
                hlooked.beside hbeside
              rw [runTablets_of_done id hlook]
              cases hpurpose : t.purpose with
              | flush after =>
                  simp only [afterTablets]
                  split
                  · exact hsettled.afterFlush after
                  · exact hsettled.countFailure.afterFlush after
              | _ =>
                  rw [hpurpose] at own
                  cases own

end Carrying

section Runs

variable {events : EventId → Event}

theorem Process.consumes_of_returns {process : Process} (h : process.returns = true) :
    process.consumes = true := by
  cases process with
  | polling | pausing => rfl
  | _ => cases h

theorem mem_consumers {process : Process} (task : p.task? id = some process)
    (consumes : process.consumes = true) : (⟨id, process⟩ : Task) ∈ p.consumers :=
  List.mem_filter.mpr ⟨mem_of_task? task, consumes⟩

/-- A task that is no consumer has no consumer's id. -/
theorem ne_of_apart {process : Process} (numbered : (p.books none 0).Numbered)
    (task : p.task? id = some process) (apart : process.consumes = false) :
    ∀ t ∈ p.consumers, t.id ≠ id := by
  have hnodup : (p.tasks.map Task.id).Nodup := by
    have hids := numbered.1
    simpa [books, others_none] using hids
  intro t ht hid
  obtain ⟨hmem, hconsumes⟩ := List.mem_filter.mp ht
  have hsame : t = ⟨id, process⟩ := List.inj_on_of_nodup_map hnodup hmem (mem_of_task? task) hid
  rw [hsame] at hconsumes
  rw [apart] at hconsumes
  cases hconsumes

/-- A consumer that is alone finds the place before the batch empty when it comes back to it. -/
theorem Alone.room (h : p.Alone Q D) (id : TaskId) (process : Process)
    (task : p.task? id = some process) (returns : process.returns = true) : p.pending = none :=
  h.returns _ (mem_consumers task (Process.consumes_of_returns returns)) returns

theorem consumers_of_single {process : Process} (single : p.consumers.length ≤ 1)
    (task : p.task? id = some process) (consumes : process.consumes = true) :
    p.consumers = [⟨id, process⟩] := by
  have hmem := mem_consumers task consumes
  match hconsumers : p.consumers with
  | [] =>
      rw [hconsumers] at hmem
      cases hmem
  | [t] =>
      rw [hconsumers, List.mem_singleton] at hmem
      rw [hmem]
  | t :: t' :: rest =>
      rw [hconsumers, List.length_cons, List.length_cons] at single
      omega

theorem sole_of_single {process : Process} (single : p.consumers.length ≤ 1)
    (task : p.task? id = some process) (consumes : process.consumes = true) :
    (p.consumers.filter fun t => t.id != id) = [] := by
  rw [consumers_of_single single task consumes]
  simp

variable [Batch.Payload P]

theorem Alone.run (h : p.Alone Q D) (numbered : (p.books none 0).Numbered)
    (single : p.consumers.length ≤ 1) (id : TaskId) : (p.run id).Alone Q D := by
  cases htask : p.task? id with
  | none =>
      simp only [Pipe.run, htask]
      exact h
  | some process =>
  cases hconsumes : process.consumes with
  | false =>
      have hbeside := beside_run p htask hconsumes
      have hconsumers := hbeside.consumers (ne_of_apart numbered htask hconsumes)
      exact h.next (by rw [hbeside.queue]) hbeside.pending (by rw [hbeside.batch]) hconsumers
  | true =>
      have hmem := mem_consumers htask hconsumes
      have hcarrying : Carrying Q D id p := ⟨h.held, sole_of_single single htask hconsumes⟩
      simp only [Pipe.run, htask]
      cases process with
      | consuming => exact hcarrying.consume
      | polling w => exact hcarrying.runPolling w (h.returns _ hmem rfl)
      | pausing e until_ => exact hcarrying.runPausing (h.pauses _ hmem e until_ rfl)
      | tablets t link => exact hcarrying.runTablets hconsumes
      | _ => cases hconsumes

section Beside

omit [Batch.Payload P]

theorem Alone.cancel (h : p.Alone Q D) (id? : Option TaskId) : (p.cancel id?).Alone Q D := by
  cases id? with
  | none => exact h
  | some id => exact h.next rfl rfl rfl rfl

theorem Alone.spawn (h : p.Alone Q D) {process : Process} (stays : process.returns = false) :
    (p.spawn process).Alone Q D := by
  have hstarted (t : Task) (ht : t ∈ (p.spawn process).consumers) :
      t ∈ p.consumers ∨ t.process = process := by
    obtain ⟨hmem, hconsumes⟩ := List.mem_filter.mp ht
    rcases List.mem_append.mp hmem with hmem | hmem
    · exact .inl (List.mem_filter.mpr ⟨hmem, hconsumes⟩)
    · rw [List.mem_singleton.mp hmem]
      exact .inr rfl
  refine ⟨h.held.next rfl rfl rfl, fun t ht hreturns => ?_,
    fun t ht e until_ heq => ?_⟩
  · rcases hstarted t ht with ht | hprocess
    · exact h.returns t ht hreturns
    · rw [hprocess, stays] at hreturns
      cases hreturns
  · rcases hstarted t ht with ht | hprocess
    · exact h.pauses t ht e until_ heq
    · rw [← hprocess, heq] at stays
      cases stays

theorem Alone.aside (h : p.Alone Q D) (beside : Aside p p') : p'.Alone Q D := by
  cases beside with
  | cancelWorker => exact h.cancel p.worker
  | cancelConsumer => exact h.cancel p.consumer
  | startWorker =>
      have hnamed : ({ p with worker := some p.nextTask } : Pipe P).Alone Q D :=
        h.next rfl rfl rfl rfl
      exact hnamed.spawn rfl
  | startConsumer =>
      have hnamed : ({ p with consumer := some p.nextTask } : Pipe P).Alone Q D :=
        h.next rfl rfl rfl rfl
      exact hnamed.spawn rfl
  | waitIdle ms => exact h.spawn rfl
  | _ => exact h.next rfl rfl rfl rfl

end Beside

omit [Batch.Payload P] in
theorem Alone.offer (h : p.Alone Q D) {e : EventRef} (may : Q e) :
    (p.offer e).1.Alone Q D := by
  have hqueue : ∀ e' ∈ (p.offer e).1.queue.channels.toList, Q e' := by
    cases hpush : p.queue.channels.push? e with
    | none =>
        simp only [Pipe.offer, Queue.Realtime.offer, hpush]
        exact h.held.queue
    | some channels =>
        intro e' he'
        have hmem : e' ∈ channels.toList := by
          simp only [Pipe.offer, Queue.Realtime.offer, hpush] at he'
          exact he'
        rcases List.mem_cons.mp ((Queue.Channels.perm_push hpush).mem_iff.mp hmem) with rfl | he'
        · exact may
        · exact h.held.queue e' he'
  exact ⟨⟨hqueue, h.held.pending, h.held.deferring⟩, h.returns, h.pauses⟩

theorem Alone.teardown (h : p.Alone Q D) (pipe : String) (region : Int) :
    (p.teardown pipe region).1.Alone Q D := by
  have hclosed := closed_teardown p pipe region
  rw [teardown_eq] at hclosed ⊢
  obtain ⟨hchannels, _⟩ := p.queue.discardPipe_fields p.commons pipe region
  generalize p.queue.discardPipe p.commons pipe region = q at hchannels hclosed
  have hstays {e : EventRef} : (p.discardPending q.2.1 pipe region).1 = some e →
      p.pending = some e := pending_of_discardPending
  dsimp only at hclosed ⊢
  generalize p.discardPending q.2.1 pipe region = w at hstays hclosed
  refine ⟨⟨fun e he => h.held.queue e ?_, fun e he => h.held.pending e (hstays he), ?_⟩, ?_, ?_⟩
  · dsimp only at he
    rw [hchannels, Queue.Channels.toList_removePipe] at he
    exact (List.mem_filter.mp he).1
  · rw [hclosed]
    exact h.held.deferring
  · intro t ht hreturns
    refine Option.eq_none_iff_forall_not_mem.mpr fun e he => ?_
    have hnone := h.returns t ht hreturns
    rw [hstays he] at hnone
    cases hnone
  · exact h.pauses

theorem Alone.close (h : p.Alone Q D) : p.close.Alone Q D := by
  have hclosed := (closed_close p).1
  refine ⟨⟨fun e he => absurd he List.not_mem_nil, fun e he => (by cases he), fun hopen => ?_⟩,
    fun _ _ _ => rfl, h.pauses⟩
  rw [hclosed] at hopen
  cases hopen

/-- A pipe in service that has at most one consumer at a time. -/
def Solo (events : EventId → Event) (s s' : Scene P) : Prop :=
  Service events s s' ∧ s'.pipe.consumers.length ≤ 1

theorem Alone.service {s s' : Scene P} (h : s.pipe.Alone Q D)
    (served : (s.pipe.books none 0).Served events s.owned) (single : s.pipe.consumers.length ≤ 1)
    (offers : ∀ id, s.owned id = 1 → Q ⟨id, events id⟩) (step : Service events s s') :
    s'.pipe.Alone Q D := by
  cases step with
  | built => exact h.next rfl rfl rfl rfl
  | offered here => exact h.offer (offers _ here)
  | ran id => exact h.run served.guarded.numbered single id
  | aside beside => exact h.aside beside
  | tornDown pipe region => exact h.teardown pipe region
  | closed => exact h.close

end Runs

end Pipe
end Courier
