import Courier.Proofs.Pipe.Deeds

/-!
The line of a pipe: its queue, the tablet before the batch, the batch, and the consumers that move
events along it. No other task touches it. Transfers and the worker keep to the files that they
tend, and to what a peer does with files.
-/

namespace Courier

open Transfer

namespace Pipe

variable {P : Type} {p p' p'' : Pipe P} {calm : Prop} {id : TaskId} {mine : EventRef → Prop}

def consumers (p : Pipe P) : List Task := p.tasks.filter fun t => t.process.consumes

theorem consumers_removeTask (p : Pipe P) (id : TaskId) :
    (p.removeTask id).consumers = p.consumers.filter fun t => t.id != id := by
  simp only [consumers, removeTask, List.filter_filter, Bool.and_comm]

theorem consumers_setTask (p : Pipe P) (id : TaskId) (process : Process) :
    (p.setTask id process).consumers =
      (p.consumers.filter fun t => t.id != id) ++ [⟨id, process⟩].filter fun t =>
        t.process.consumes := by
  rw [← consumers_removeTask]
  exact List.filter_append ..

theorem consumers_spawn (p : Pipe P) {process : Process} (apart : process.consumes = false) :
    (p.spawn process).consumers = p.consumers := by
  simp [consumers, spawn, apart]

/-- A worker that is woken stays a worker. -/
theorem Task.wake_eq_or (t : Task) :
    t.wake = t ∨ t.process.consumes = false ∧ t.wake.process.consumes = false ∧
      t.wake.process.file? = t.process.file? ∧ t.wake.process.IsCalm := by
  unfold Task.wake
  split
  · rename_i heq
    rw [heq]
    exact .inr ⟨rfl, rfl, rfl, trivial⟩
  · exact .inl rfl

theorem consumers_wakeWorker (p : Pipe P) : p.wakeWorker.consumers = p.consumers := by
  have hwoken (found : TaskId) (tasks : List Task) :
      ((tasks.map fun t => if t.id = found then t.wake else t).filter fun t =>
        t.process.consumes) = tasks.filter fun t => t.process.consumes := by
    induction tasks with
    | nil => rfl
    | cons t tasks ih =>
        rw [List.map_cons, List.filter_cons, List.filter_cons, ih]
        split
        · rcases t.wake_eq_or with hsame | ⟨hno, hstill, _⟩
          · rw [hsame]
          · rw [hno, hstill]
            rfl
        · rfl
  unfold wakeWorker
  split
  · exact hwoken _ _
  · rfl

theorem mem_tasks_setTask {id : TaskId} {process : Process} {t : Task}
    (ht : t ∈ (p.setTask id process).tasks) : t ∈ p.tasks ∨ t = ⟨id, process⟩ :=
  (List.mem_append.mp ht).imp (fun h => (List.mem_filter.mp h).1) List.mem_singleton.mp

theorem mem_tasks_spawn {process : Process} {t : Task} (ht : t ∈ (p.spawn process).tasks) :
    t ∈ p.tasks ∨ t = ⟨p.nextTask, process⟩ :=
  (List.mem_append.mp ht).imp_right List.mem_singleton.mp

theorem tended_of_tasks {started : Task} {e : EventRef}
    (tasks : ∀ t ∈ p'.tasks, t ∈ p.tasks ∨ t = started)
    (retryQueue : p'.connector.retryQueue = p.connector.retryQueue) (he : e ∈ p'.tended) :
    e ∈ p.tended ∨ started.process.file? = some e := by
  rcases List.mem_append.mp he with he | he
  · obtain ⟨t, ht, hfile⟩ := List.mem_filterMap.mp he
    rcases tasks t ht with ht | rfl
    · exact .inl (List.mem_append_left _ (List.mem_filterMap.mpr ⟨t, ht, hfile⟩))
    · exact .inr hfile
  · exact .inl (List.mem_append_right _ (retryQueue ▸ he))

/-- What a task other than a consumer does. It leaves the line alone and takes charge of no events
but its own. If it is calm, it asks for files alone. -/
structure Beside (calm : Prop) (id : TaskId) (mine : EventRef → Prop) (p p' : Pipe P) : Prop where
  queue : p'.queue = p.queue
  pending : p'.pending = p.pending
  batch : p'.batch = p.batch
  consumers : (∀ t ∈ p.consumers, t.id ≠ id) → p'.consumers = p.consumers
  settings : p'.connector.settings = p.connector.settings
  tended : ∀ e ∈ p'.tended, e ∈ p.tended ∨ mine e
  quiet : calm → (∀ e, mine e → e.event.isBulk = true) → (∀ t ∈ p.tasks, t.process.IsCalm) →
    ∀ t ∈ p'.tasks, t.process.IsCalm
  peer : calm → ∀ limit, p.peer.Accepts limit →
    p'.peer.Accepts limit ∧ p'.peer.log = p.peer.log

namespace Beside

theorem of_eq (queue : p'.queue = p.queue) (pending : p'.pending = p.pending)
    (batch : p'.batch = p.batch) (tasks : p'.tasks = p.tasks)
    (settings : p'.connector.settings = p.connector.settings)
    (retryQueue : p'.connector.retryQueue = p.connector.retryQueue) (peer : p'.peer = p.peer) :
    Beside calm id mine p p' := by
  refine ⟨queue, pending, batch, fun _ => ?_, settings, fun e he => .inl ?_, fun _ _ hcalm => ?_,
    fun _ limit haccepts => ?_⟩
  · rw [Pipe.consumers, tasks]
    rfl
  · rwa [Pipe.tended, tasks, retryQueue] at he
  · rw [tasks]
    exact hcalm
  · rw [peer]
    exact ⟨haccepts, rfl⟩

theorem refl (p : Pipe P) : Beside calm id mine p p := of_eq rfl rfl rfl rfl rfl rfl rfl

theorem trans (h : Beside calm id mine p p') (h' : Beside calm id mine p' p'') :
    Beside calm id mine p p'' := by
  refine ⟨h'.queue.trans h.queue, h'.pending.trans h.pending, h'.batch.trans h.batch,
    fun halone => ?_, h'.settings.trans h.settings, fun e he => ?_,
    fun hcalm hbulk hall => h'.quiet hcalm hbulk (h.quiet hcalm hbulk hall),
    fun hcalm limit haccepts => ?_⟩
  · have hsame := h.consumers halone
    exact (h'.consumers (hsame ▸ halone)).trans hsame
  · rcases h'.tended e he with he | hmine
    · exact h.tended e he
    · exact .inr hmine
  · obtain ⟨haccepts', hlog⟩ := h.peer hcalm limit haccepts
    obtain ⟨haccepts'', hlog'⟩ := h'.peer hcalm limit haccepts'
    exact ⟨haccepts'', hlog'.trans hlog⟩

theorem filter_alone {tasks : List Task} (alone : ∀ t ∈ tasks, t.id ≠ id) :
    (tasks.filter fun t => t.id != id) = tasks :=
  List.filter_eq_self.mpr fun t ht => by simpa using alone t ht

theorem removeTask (p : Pipe P) (id : TaskId) : Beside calm id mine p (p.removeTask id) := by
  refine ⟨rfl, rfl, rfl, fun halone => ?_, rfl, fun e he => .inl ?_, fun _ _ hall t ht => ?_,
    fun _ _ haccepts => ⟨haccepts, rfl⟩⟩
  · rw [consumers_removeTask, filter_alone halone]
  · rcases List.mem_append.mp he with he | he
    · exact List.mem_append_left _ ((List.filter_sublist.filterMap _).mem he)
    · exact List.mem_append_right _ he
  · exact hall t (List.mem_filter.mp ht).1

/-- A task that waits in another way than a consumer does. -/
theorem setTask (p : Pipe P) (id : TaskId) {process : Process}
    (apart : process.consumes = false) (own : ∀ e, process.file? = some e → mine e)
    (calmly : calm → process.IsCalm) : Beside calm id mine p (p.setTask id process) := by
  refine ⟨rfl, rfl, rfl, fun halone => ?_, rfl, fun e he => ?_, fun hcalm _ hall t ht => ?_,
    fun _ _ haccepts => ⟨haccepts, rfl⟩⟩
  · rw [consumers_setTask, filter_alone halone]
    simp [apart]
  · exact (tended_of_tasks (fun _ => mem_tasks_setTask) rfl he).imp_right (own e)
  · rcases mem_tasks_setTask ht with ht | rfl
    · exact hall t ht
    · exact calmly hcalm

theorem spawn (p : Pipe P) (id : TaskId) {process : Process}
    (apart : process.consumes = false) (own : ∀ e, process.file? = some e → mine e)
    (calmly : calm → (∀ e, mine e → e.event.isBulk = true) → process.IsCalm) :
    Beside calm id mine p (p.spawn process) := by
  refine ⟨rfl, rfl, rfl, fun _ => consumers_spawn p apart, rfl, fun e he => ?_,
    fun hcalm hbulk hall t ht => ?_, fun _ _ haccepts => ⟨haccepts, rfl⟩⟩
  · exact (tended_of_tasks (fun _ => mem_tasks_spawn) rfl he).imp_right (own e)
  · rcases mem_tasks_spawn ht with ht | rfl
    · exact hall t ht
    · exact calmly hcalm hbulk

theorem wakeWorker (p : Pipe P) : Beside calm id mine p p.wakeWorker := by
  have hfile {t : Task} (ht : t ∈ p.wakeWorker.tasks) : t ∈ p.tasks ∨
      ∃ t' ∈ p.tasks, t.process.file? = t'.process.file? ∧ t.process.IsCalm := by
    unfold Pipe.wakeWorker at ht
    split at ht
    · obtain ⟨t', ht', rfl⟩ := List.mem_map.mp ht
      split
      · rcases t'.wake_eq_or with hsame | ⟨_, _, hfile, hcalm⟩
        · exact .inl (hsame.symm ▸ ht')
        · exact .inr ⟨t', ht', hfile, hcalm⟩
      · exact .inl ht'
    · exact .inl ht
  have hrest : p.wakeWorker.queue = p.queue ∧ p.wakeWorker.pending = p.pending ∧
      p.wakeWorker.batch = p.batch ∧ p.wakeWorker.connector = p.connector ∧
      p.wakeWorker.peer = p.peer := by
    unfold Pipe.wakeWorker
    split <;> exact ⟨rfl, rfl, rfl, rfl, rfl⟩
  obtain ⟨hqueue, hpending, hbatch, hconnector, hpeer⟩ := hrest
  refine ⟨hqueue, hpending, hbatch, fun _ => consumers_wakeWorker p, by rw [hconnector],
    fun e he => .inl ?_, fun _ _ hall t ht => ?_, fun _ _ haccepts => ?_⟩
  · rcases List.mem_append.mp he with he | he
    · obtain ⟨t, ht, hsome⟩ := List.mem_filterMap.mp he
      refine List.mem_append_left _ (List.mem_filterMap.mpr ?_)
      rcases hfile ht with ht | ⟨t', ht', hsame, _⟩
      · exact ⟨t, ht, hsome⟩
      · exact ⟨t', ht', hsame ▸ hsome⟩
    · rw [hconnector] at he
      exact List.mem_append_right _ he
  · rcases hfile ht with ht | ⟨_, _, _, hcalm⟩
    · exact hall t ht
    · exact hcalm
  · rw [hpeer]
    exact ⟨haccepts, rfl⟩

theorem addFailure (p : Pipe P) (id : TaskId) {e : EventRef} (own : mine e) :
    Beside calm id mine p (p.addFailure e) := by
  cases hclosed : p.connector.closed with
  | true =>
      rw [addFailure_of_closed hclosed]
      exact of_eq rfl rfl rfl rfl rfl rfl rfl
  | false =>
      cases hreleased : p.commons.isReleased e with
      | true =>
          rw [addFailure_of_released hclosed hreleased]
          exact refl p
      | false =>
          rw [addFailure_of_live hclosed hreleased]
          refine trans ?_ (wakeWorker _)
          refine ⟨rfl, rfl, rfl, fun _ => rfl, rfl, fun e' he' => ?_, fun _ _ hall => hall,
            fun _ _ haccepts => ⟨haccepts, rfl⟩⟩
          rcases List.mem_append.mp he' with he' | he'
          · exact .inl (List.mem_append_left _ he')
          · have hqueue : ((p.enqueue e).note (.queued e)).connector.retryQueue.map
                RetryEntry.event = p.connector.retryQueue.map RetryEntry.event ++ [e] :=
              List.map_append ..
            rw [hqueue] at he'
            rcases List.mem_append.mp he' with he' | he'
            · exact .inl (List.mem_append_right _ he')
            · exact .inr (List.mem_singleton.mp he' ▸ own)

theorem remove (p : Pipe P) (id : TaskId) (e : EventRef) :
    Beside calm id mine p (p.remove e).1 := by
  have hfields : (p.connector.remove p.commons e).1.settings = p.connector.settings ∧
      (p.connector.remove p.commons e).1.retryQueue = p.connector.retryQueue := by
    unfold Connector.remove
    split
    · split <;> exact ⟨rfl, rfl⟩
    · exact ⟨rfl, rfl⟩
  exact of_eq rfl rfl rfl rfl hfields.1 hfields.2 rfl

theorem dueTaken (p : Pipe P) : Beside calm id mine p p.dueTaken := by
  refine ⟨rfl, rfl, rfl, fun _ => rfl, rfl, fun e he => .inl ?_, fun _ _ hall => hall,
    fun _ _ haccepts => ⟨haccepts, rfl⟩⟩
  rcases List.mem_append.mp he with he | he
  · exact List.mem_append_left _ he
  · exact List.mem_append_right _ ((List.filter_sublist.map _).mem he)

/-- What is asked for is settled when it is drawn; the log changes only when it is passed on. -/
theorem send (p : Pipe P) (id : TaskId) (request : Request) :
    Beside calm id mine p (p.send request).1 := by
  refine ⟨rfl, rfl, rfl, fun _ => rfl, rfl, fun _ he => .inl he, fun _ _ hall => hall,
    fun _ limit haccepts => ?_⟩
  obtain ⟨haccepts', hreceiver⟩ := haccepts.draw (Peer.keyOf request)
  exact ⟨haccepts', congrArg (Receiver.contents · tabletLog) hreceiver⟩

theorem look {x : Exchange} {progress : Exchange.Progress}
    (files : calm → x.request.isOfFile = true) (h : p.look x = (p', progress)) :
    Beside calm id mine p p' := by
  have hpeer (hcalm : calm) (limit : Nat) (haccepts : p.peer.Accepts limit) :
      p'.peer.Accepts limit ∧ p'.peer.log = p.peer.log := by
    have hlook := Exchange.accepts_look haccepts p.disk p.now (files hcalm)
    unfold Pipe.look at h
    dsimp only at h
    split at h <;> cases h <;> exact hlook
  have hrest : p'.queue = p.queue ∧ p'.pending = p.pending ∧ p'.batch = p.batch ∧
      p'.tasks = p.tasks ∧ p'.connector = p.connector := by
    unfold Pipe.look at h
    dsimp only at h
    split at h <;> cases h <;> exact ⟨rfl, rfl, rfl, rfl, rfl⟩
  obtain ⟨hqueue, hpending, hbatch, htasks, hconnector⟩ := hrest
  refine ⟨hqueue, hpending, hbatch, fun _ => ?_, by rw [hconnector], fun e he => .inl ?_,
    fun _ _ hall => ?_, hpeer⟩
  · rw [Pipe.consumers, htasks]
    rfl
  · rwa [Pipe.tended, htasks, hconnector] at he
  · rw [htasks]
    exact hall

end Beside

/-- A deed of a task that is no consumer leaves the line alone. -/
theorem Beside.of_deed (h : Deed calm id mine p p') : Beside calm id mine p p' := by
  cases h with
  | lent | pooled | measured | noted | dropped | delayed | rested | heeded =>
      exact .of_eq rfl rfl rfl rfl rfl rfl rfl
  | sent request => exact .send p id request
  | looked files hlook => exact .look files hlook
  | failed own => exact .addFailure p id own
  | removed => exact .remove p id _
  | taken => exact .dueTaken p
  | started apart file calmly =>
      have hbusier : Beside calm id mine p p.busier := .of_eq rfl rfl rfl rfl rfl rfl rfl
      exact hbusier.trans (.spawn _ id apart file calmly)
  | parked apart file calmly => exact .setTask p id apart file calmly
  | ended => exact .removeTask p id
  | finished => exact (Beside.removeTask p id).trans (.of_eq rfl rfl rfl rfl rfl rfl rfl)
  | woke => exact .wakeWorker p

theorem Beside.of_deeds (h : Deeds calm id mine p p') : Beside calm id mine p p' := by
  induction h with
  | refl => exact .refl p
  | tail _ hdeed ih => exact ih.trans (.of_deed hdeed)

/-- Whatever runs beside the consumers leaves the line alone. -/
theorem beside_run [Batch.Payload P] (p : Pipe P) {process : Process}
    (task : p.task? id = some process) (apart : process.consumes = false) :
    Beside process.IsCalm id (fun e => process.IsCalm → e ∈ p.tended) p (p.run id) :=
  .of_deeds (deeds_run p task apart)

end Pipe
end Courier
