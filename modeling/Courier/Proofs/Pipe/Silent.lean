import Courier.Proofs.Pipe.Clients

/-!
What a pipe does beside its requests: it moves events between its parts, starts tasks and ends
them. None of it counts anything of what the peer answered or failed to answer, and nothing of it
changes the numbers that the pipe was set up with.
-/

namespace Courier

open Transfer

namespace Transfer

theorem BufferPool.limit_get (b : BufferPool) :
    b.get.1.limit = b.limit ∧ b.get.1.bufferCapacity = b.bufferCapacity := by
  unfold BufferPool.get
  split <;> exact ⟨rfl, rfl⟩

theorem BufferPool.limit_put (b : BufferPool) (capacity : Nat) :
    (b.put capacity).limit = b.limit ∧ (b.put capacity).bufferCapacity = b.bufferCapacity := by
  unfold BufferPool.put
  split <;> exact ⟨rfl, rfl⟩

theorem ClientPool.size_ask (pool : ClientPool) (t : Ticket) :
    (pool.ask t).1.size = pool.size := by
  rcases pool.ask_cases t with ⟨c, free, -, hask⟩ | ⟨-, hask⟩ <;> rw [hask] <;> rfl

theorem ClientPool.size_giveBack (pool : ClientPool) (c : ClientId) :
    (pool.giveBack c).size = pool.size := by
  have hwake (pool : ClientPool) : pool.wakeOne.size = pool.size := by
    unfold ClientPool.wakeOne
    split <;> rfl
  unfold ClientPool.giveBack ClientPool.put?
  by_cases hroom : pool.free.length < max pool.size 1
  · rw [if_pos hroom]
    exact hwake _
  · rw [if_neg hroom]

end Transfer

namespace Pipe

variable {P : Type} {p p' p'' : Pipe P}

/-- The numbers and the policy that a pipe was set up with, as its parts have them. -/
structure Setup where
  queue : Queue.Settings
  transfer : Transfer.Settings
  statusPolicy : StatusPolicy
  bufferLimit : Nat
  bufferCapacity : Nat
  clients : Nat
  deriving DecidableEq

def setup (p : Pipe P) : Setup where
  queue := p.queue.settings
  transfer := p.connector.settings
  statusPolicy := p.connector.statusPolicy
  bufferLimit := p.connector.buffers.limit
  bufferCapacity := p.connector.buffers.bufferCapacity
  clients := p.clients.size

/-- The occurrence tells of no answer and of no failure. -/
def Occurrence.isSilent : Occurrence → Bool
  | .answered _ _ | .failed _ _ | .queued _ => false
  | _ => true

/-- What was told of answers and failures, newest first. -/
def news (p : Pipe P) : List Occurrence := p.trace.filter fun o => !o.isSilent

/-- What reads of answers and failures only finds all of it in the news. -/
theorem filterMap_news {α : Type} (p : Pipe P) {reads : Occurrence → Option α}
    (silent : ∀ o, o.isSilent = true → reads o = none) :
    p.news.filterMap reads = p.trace.filterMap reads := by
  rw [news, List.filterMap_filter]
  refine List.filterMap_congr fun o _ => ?_
  cases hsilent : o.isSilent with
  | false => rfl
  | true => exact (silent o hsilent).symm

/-- Nothing is counted, and nothing is told of answers or failures. -/
structure Silent (p p' : Pipe P) : Prop where
  setup : p'.setup = p.setup
  stats : p'.connector.stats = p.connector.stats
  news : p'.news = p.news

namespace Silent

theorem of_eq (setup : p'.setup = p.setup)
    (stats : p'.connector.stats = p.connector.stats) (trace : p'.trace = p.trace) : Silent p p' :=
  ⟨setup, stats, by rw [Pipe.news, trace, Pipe.news]⟩

theorem refl (p : Pipe P) : Silent p p := .of_eq rfl rfl rfl

theorem trans (h : Silent p p') (h' : Silent p' p'') : Silent p p'' :=
  ⟨h'.setup.trans h.setup, h'.stats.trans h.stats, h'.news.trans h.news⟩

theorem note (p : Pipe P) {o : Occurrence} (silent : o.isSilent = true) : Silent p (p.note o) := by
  refine ⟨rfl, rfl, List.filter_cons_of_neg ?_⟩
  rw [silent]
  exact Bool.false_ne_true

theorem noteJudgement (p : Pipe P) (judgement : Option Judgement) :
    Silent p (p.noteJudgement judgement) := by
  cases judgement with
  | none => exact refl p
  | some judgement => exact note p rfl

theorem noteTaken (p : Pipe P) (x : Exchange) (r : Response) : Silent p (p.noteTaken x r) := by
  unfold Pipe.noteTaken
  split
  · exact refl p
  · exact note p rfl

theorem setTask (p : Pipe P) (id : TaskId) (process : Process) :
    Silent p (p.setTask id process) :=
  .of_eq rfl rfl rfl

theorem drop (p : Pipe P) (e : EventRef) : Silent p (p.drop e) := .of_eq rfl rfl rfl

theorem wakeWorker (p : Pipe P) : Silent p p.wakeWorker := by
  unfold Pipe.wakeWorker
  split <;> exact .of_eq rfl rfl rfl

theorem remove (p : Pipe P) (e : EventRef) : Silent p (p.remove e).1 := by
  unfold Pipe.remove Connector.remove
  dsimp only
  split
  · split <;> exact .of_eq rfl rfl rfl
  · exact .of_eq rfl rfl rfl

theorem close (p : Pipe P) (commons : Commons) :
    Silent p { p with connector := (p.connector.close commons).1 } := by
  unfold Connector.close
  split <;> exact .of_eq rfl rfl rfl

theorem withQueue {queue : Queue.Realtime} (settings : queue.settings = p.queue.settings)
    (commons : Commons) : Silent p (p.withQueue queue commons) :=
  .of_eq (by simp only [Pipe.setup, Pipe.withQueue, settings]) rfl rfl

section Requests

theorem withClients {clients : ClientPool} (size : clients.size = p.clients.size) :
    Silent p (p.withClients clients) :=
  .of_eq (by simp only [Pipe.setup, Pipe.withClients, size]) rfl rfl

theorem withBuffers {buffers : BufferPool} (limit : buffers.limit = p.connector.buffers.limit)
    (capacity : buffers.bufferCapacity = p.connector.buffers.bufferCapacity) :
    Silent p (p.withBuffers buffers) :=
  .of_eq (by simp only [Pipe.setup, Pipe.withBuffers, limit, capacity]) rfl rfl

theorem asked (p : Pipe P) (id : TaskId) : Silent p (p.withClients (p.clients.ask id).1) :=
  withClients (p.clients.size_ask id)

theorem gotBuffer (p : Pipe P) : Silent p (p.withBuffers p.connector.buffers.get.1) :=
  withBuffers p.connector.buffers.limit_get.1 p.connector.buffers.limit_get.2

theorem returned (p : Pipe P) (client : ClientId) (buffer : Nat) :
    Silent p (p.returned client buffer) := by
  obtain ⟨hlimit, hcapacity⟩ := p.connector.buffers.limit_put buffer
  exact (withBuffers hlimit hcapacity).trans (withClients (p.clients.size_giveBack client))

theorem send (p : Pipe P) (request : Request) : Silent p (p.send request).1 := by
  have hpeer (peer : Peer) : Silent p { p with peer } := .of_eq rfl rfl rfl
  exact (hpeer _).trans (note { p with peer := (p.send request).1.peer } rfl)

theorem askForTablets (p : Pipe P) (id : TaskId) (t : TabletSend) :
    Silent p (p.askForTablets id t) := by
  have hasked := asked p id
  rw [askForTablets_eq]
  split
  · exact hasked.trans (setTask _ id _)
  · exact hasked.trans ((send _ _).trans (setTask _ id _))

theorem judgeTablets (p : Pipe P) (x : Exchange) (result : Except ClientError Response) :
    Silent p (p.judgeTablets x result).1 := by
  cases result with
  | error error => exact refl p
  | ok r =>
      simp only [Pipe.judgeTablets]
      split
      · exact (noteJudgement p _).trans (note _ rfl)
      · exact noteJudgement p _

theorem transferFile (p : Pipe P) (e : EventRef) : Silent p (p.transferFile e).1 :=
  transferFile_cases p e (fun _ => .of_eq rfl rfl rfl) (fun _ => .of_eq rfl rfl rfl)
    (fun _ => .of_eq rfl rfl rfl) fun _ _ _ _ => .of_eq rfl rfl rfl

theorem afterFlush (p : Pipe P) (id : TaskId) (after : After) :
    Silent p (p.afterFlush id after) := by
  cases after with
  | dispatched | due | stop => exact .of_eq rfl rfl rfl
  | file e loop =>
      have hfile := transferFile p e
      have hdone (q : Pipe P) : Silent q ((q.drop e).afterDispatch id loop) :=
        .of_eq rfl rfl rfl
      have hfailed (q : Pipe P) : Silent q ((q.countFailure.drop e).afterDispatch id loop) :=
        .of_eq rfl rfl rfl
      simp only [Pipe.afterFlush]
      split <;> rename_i heq <;> rw [heq] at hfile
      · exact hfile.trans (hdone _)
      · exact hfile.trans (hfailed _)

theorem afterTablets (p : Pipe P) (id : TaskId) (purpose : Purpose)
    (result : Except TransferError Unit) : Silent p (p.afterTablets id purpose result) := by
  have hcounted : Silent p p.countFailure := .of_eq rfl rfl rfl
  cases purpose with
  | retry | call => exact .of_eq rfl rfl rfl
  | flush after =>
      cases result with
      | ok _ => exact afterFlush p id after
      | error _ => exact hcounted.trans (afterFlush _ id after)

theorem submit (p : Pipe P) (id : TaskId) (t : TabletSend) : Silent p (p.submit id t) := by
  have hreset (ledger : Ledger) : Silent p (p.withLedger ledger) := .of_eq rfl rfl rfl
  rw [submit_eq]
  exact (hreset _).trans (askForTablets _ id t)

end Requests

section Worker

theorem takeUp (p : Pipe P) (e : EventRef) : Silent p (p.takeUp e) := by
  unfold Pipe.takeUp
  split
  · split
    · exact .of_eq rfl rfl rfl
    · split
      · exact (remove p e).trans (drop _ e)
      · exact remove p e
  · split <;> exact .of_eq rfl rfl rfl
  · exact .of_eq rfl rfl rfl

theorem resubmitAll (due : List EventRef) (p : Pipe P) : Silent p (due.foldl resubmit p) := by
  induction due generalizing p with
  | nil => exact refl p
  | cons e due ih =>
      have hone : Silent p (p.resubmit e) := by
        have hnoted : Silent p (p.note (.resubmitted e)) := note p rfl
        cases hreleased : p.commons.isReleased e with
        | true =>
            rw [resubmit_of_released hreleased]
            exact refl p
        | false =>
            rw [resubmit_of_unreleased hreleased]
            exact hnoted.trans (takeUp _ e)
      exact hone.trans (ih _)

theorem resubmitDue (p : Pipe P) : Silent p p.resubmitDue := by
  have htaken : Silent p p.dueTaken := .of_eq rfl rfl rfl
  have hresubmitted := resubmitAll (p.connector.startTask.takeDue p.now).2 p.dueTaken
  have hrested (q : Pipe P) : Silent q { q with connector := q.connector.endTask } :=
    .of_eq rfl rfl rfl
  exact (htaken.trans hresubmitted).trans (hrested _)

theorem runLooking (p : Pipe P) (id : TaskId) : Silent p (p.runLooking id) := by
  have hwatching (q : Pipe P) : Silent q ({ q with retryAdded := false }.setTask id
    (.watching q.connector.nextReady false)) := .of_eq rfl rfl rfl
  exact (resubmitDue p).trans (hwatching _)

theorem runWatching (p : Pipe P) (id : TaskId) (woken : Bool) :
    Silent p (p.runWatching id woken) := by
  have hremoved : Silent p (p.removeTask id) := .of_eq rfl rfl rfl
  unfold Pipe.runWatching
  split
  · split
    · exact hremoved.trans (wakeWorker _)
    · exact hremoved
  · exact runLooking p id

theorem runIdling (p : Pipe P) (id : TaskId) (deadline : Nat) :
    Silent p (p.runIdling id deadline) := by
  unfold Pipe.runIdling
  split
  · exact .of_eq rfl rfl rfl
  · split <;> exact .of_eq rfl rfl rfl

end Worker

section Consumer

variable [Batch.Payload P]

theorem flush (p : Pipe P) (id : TaskId) (after : After) : Silent p (p.flush id after) := by
  have hemitted : Silent p p.emit := .of_eq rfl rfl rfl
  have hdropped : Silent p (p.emit.dropAll p.batch.events).countFailure := .of_eq rfl rfl rfl
  rw [flush_eq]
  split
  · exact hemitted.trans (afterFlush _ id after)
  · split
    · exact hdropped.trans (afterFlush _ id after)
    · exact hemitted.trans (submit _ id _)

theorem dispatch (p : Pipe P) (id : TaskId) (e : EventRef) (loop : Bool) :
    Silent p (p.dispatch id e loop) := by
  have hdispatched (q : Pipe P) (due : Bool) (h : Silent p q) :
      Silent p (q.dispatched id e loop due) := by
    cases due with
    | true => exact h.trans (flush q id (.dispatched e loop))
    | false => exact h.trans (.of_eq rfl rfl rfl)
  have hrefused (q : Pipe P) (error : Batch.BatchError) :
      Silent q (((q.note (.refused e error)).countFailure.drop e).afterDispatch id loop) :=
    (note q rfl).trans (.of_eq rfl rfl rfl)
  have hdeferred (q : Pipe P) : Silent q ((q.countFailure.defer e).afterDispatch id loop) :=
    .of_eq rfl rfl rfl
  have hoffered : Silent p (p.offeredBatch e) := .of_eq rfl rfl rfl
  exact dispatch_cases p id e loop (fun _ _ => flush p id (.file e loop))
    (fun _ due _ => hdispatched p.checked due (.of_eq rfl rfl rfl))
    (fun _ due _ _ => hdispatched _ due hoffered)
    (fun _ error _ _ _ => hoffered.trans (hrefused _ error))
    fun _ _ _ _ _ => hoffered.trans (hdeferred _)

theorem afterRetrieval (p : Pipe P) (id : TaskId) (retrieval : Queue.Retrieval) :
    Silent p (p.afterRetrieval id retrieval) := by
  cases retrieval with
  | waiting w => exact .of_eq rfl rfl rfl
  | done event =>
      cases event with
      | some e => exact dispatch p id e true
      | none =>
          have hchecked : Silent p p.checked := .of_eq rfl rfl rfl
          simp only [Pipe.afterRetrieval]
          split
          · exact flush p id .stop
          · rw [flushIfDue_eq]
            split
            · exact hchecked.trans (flush p.checked id .due)
            · exact hchecked.trans (.of_eq rfl rfl rfl)

theorem consume (p : Pipe P) (id : TaskId) : Silent p (p.consume id) :=
  consume_cases p id (flush p id .stop) (fun _ _ _ => .of_eq rfl rfl rfl)
    fun _ commons retrieval _ gave =>
      (withQueue gave.settings commons).trans (afterRetrieval _ id retrieval)

theorem runPolling (p : Pipe P) (id : TaskId) (w : Queue.Waiting) :
    Silent p (p.runPolling id w) :=
  runPolling_cases p id w (flush p id .stop) fun _ commons retrieval gave =>
    (withQueue gave.settings commons).trans (afterRetrieval _ id retrieval)

theorem runPausing (p : Pipe P) (id : TaskId) (e : EventRef) : Silent p (p.runPausing id e) := by
  have hdeferred : Silent p (p.defer e) := .of_eq rfl rfl rfl
  unfold Pipe.runPausing
  split
  · exact hdeferred.trans (flush _ id .stop)
  · exact dispatch p id e true

end Consumer

section Calls

theorem callSend (p : Pipe P) (events : List EventRef) (payload : Bytes) :
    Silent p (p.callSend events payload).1 := by
  have hnew : Silent p p.newTask.1 := .of_eq rfl rfl rfl
  unfold Pipe.callSend
  dsimp only
  split
  · exact .of_eq rfl rfl rfl
  · split
    · exact .of_eq rfl rfl rfl
    · exact hnew.trans (submit _ p.nextTask _)

theorem cancel (p : Pipe P) (id? : Option TaskId) : Silent p (p.cancel id?) := by
  cases id? <;> exact .of_eq rfl rfl rfl

theorem discardQueue (p : Pipe P) (pipe : String) (region : Int) :
    Silent p { p with queue := (p.queue.discardPipe p.commons pipe region).1 } :=
  withQueue (p.queue.discardPipe_fields p.commons pipe region).2.1 p.commons

variable [Batch.Payload P]

theorem callStep (p : Pipe P) : Silent p p.callStep.1 := by
  have hsettings := (p.queue.poll_fields p.commons).2.1
  unfold Pipe.callStep
  split <;> rename_i hpoll <;> rw [hpoll] at hsettings
  · exact withQueue hsettings _
  · have hnew (q : Pipe P) : Silent q q.newTask.1 := .of_eq rfl rfl rfl
    exact (withQueue hsettings _).trans ((hnew _).trans (dispatch _ _ _ false))

/-- Only what others put into the retry queue is told of. -/
theorem perform (p : Pipe P) (o : Operation) (own : ∀ e, o ≠ .addFailure e) :
    Silent p (p.perform o).1 := by
  cases o with
  | transferFile e => exact transferFile p e
  | addFailure e => exact absurd rfl (own e)
  | remove e => exact remove p e
  | closeConnector => exact (close p _).trans (.of_eq rfl rfl rfl)
  | close => exact (close p _).trans (.of_eq rfl rfl rfl)
  | offer e =>
      have hsettings : (p.queue.offer p.commons e).1.settings = p.queue.settings := by
        unfold Queue.Realtime.offer
        split <;> rfl
      exact withQueue hsettings (p.queue.offer p.commons e).2.1
  | teardown pipe region => exact (discardQueue p pipe region).trans (.of_eq rfl rfl rfl)
  | startWorker | startConsumer | discard | shutdownQueue | shared => exact .of_eq rfl rfl rfl

end Calls

end Silent

section Happenings

variable [Batch.Payload P]

/-- A task that makes no request runs in silence. -/
@[elab_as_elim]
theorem run_requests {motive : Pipe P → Prop} (p : Pipe P) (id : TaskId)
    (transfer : ∀ a link, p.task? id = some (.transfer a link) → motive (p.runTransfer id a link))
    (tablets : ∀ t link, p.task? id = some (.tablets t link) → motive (p.runTablets id t link))
    (silent : ∀ p', Silent p p' → motive p') : motive (p.run id) := by
  cases htask : p.task? id with
  | none =>
      simp only [run, htask]
      exact silent p (.refl p)
  | some process =>
      simp only [run, htask]
      cases process with
      | transfer a link => exact transfer a link htask
      | tablets t link => exact tablets t link htask
      | looking => exact silent _ (.runLooking p id)
      | watching next woken => exact silent _ (.runWatching p id woken)
      | consuming => exact silent _ (.consume p id)
      | polling w => exact silent _ (.runPolling p id w)
      | pausing e until_ => exact silent _ (.runPausing p id e)
      | idling deadline seen => exact silent _ (.runIdling p id deadline)
      | ended answer at_ => exact silent p (.refl p)

/-- Only tasks that run, and others that hand in what failed, are ever told of. -/
theorem Happening.silent (h : Happening p p') :
    Silent p p' ∨ (∃ e, p' = p.addFailure e) ∨
      ∃ t ∈ p.tasks, p.canRun t = true ∧ p' = p.run t.id := by
  cases h with
  | performed o =>
      cases o with
      | addFailure e => exact .inr (.inl ⟨e, rfl⟩)
      | _ => exact .inl (.perform p _ fun _ => nofun)
  | sent events payload => exact .inl (.callSend p events payload)
  | dispatched e =>
      have hnew : Silent p p.newTask.1 := .of_eq rfl rfl rfl
      exact .inl (hnew.trans (.dispatch p.newTask.1 p.nextTask e false))
  | stepped => exact .inl (.callStep p)
  | cancelled id? => exact .inl (.cancel p id?)
  | waited | joined | retuned | clock | surroundings => exact .inl (.of_eq rfl rfl rfl)
  | ran there ready => exact .inr (.inr ⟨_, there, ready, rfl⟩)

end Happenings

end Pipe
end Courier
