import Courier.Pipe.Operation
import Courier.Proofs.Pipe.Stakes

/-!
The shifts behind the steps of a pipe. A transfer has one client from its first request to its last
and gives it back when it ends, however it ends; so do tablets with their one request. Transfers and
tablets that are tried again are counted while they last, and so is a look into the retry queue.
-/

namespace Courier

open Transfer

namespace Pipe

open Board

variable {P : Type} {p p' : Pipe P} {running : Option TaskId} {hand : Multiset Stake}
  {id : TaskId} {calm : Prop}

theorem turns_setTask (p : Pipe P) (id : TaskId) (process : Process) {stakes : Multiset Stake}
    (same : process.stakes id = stakes) :
    Turns calm (p.board (some id) stakes) ((p.setTask id process).board none 0) := by
  rw [board_setTask, same, add_zero]
  exact Shift.rested.turns

theorem turns_removeTask (p : Pipe P) (id : TaskId) :
    Turns calm (p.board (some id) hand) ((p.removeTask id).board none hand) := by
  rw [board_removeTask]
  exact Shift.rested.turns

theorem turns_finishTask (p : Pipe P) (id : TaskId) :
    Turns calm (p.board (some id) {.count}) ((p.finishTask id).board none 0) := by
  have hover : Shift calm (p.board (some id) (.count ::ₘ 0)) _ :=
    .finished (board_cons p (some id) .count 0)
  exact hover.turns.trans (turns_removeTask p.rested id)

theorem turns_spawn (p : Pipe P) (process : Process) :
    Turns calm (p.board running (process.stakes p.nextTask + hand))
      ((p.spawn process).board running hand) := by
  intro hfits
  have hrunning : running ≠ some p.nextTask := fun hsome =>
    Nat.lt_irrefl _ (hfits p.nextTask hsome)
  rw [board_spawn process hrunning]
  exact .single .spawned

/-- A task is counted and started. -/
theorem turns_start (p : Pipe P) {q : Pipe P} {process : Process}
    (counted : ∀ hand, q.board running hand =
      { p.board running hand with tasks := p.connector.tasks + 1 })
    (same : ∀ id, process.stakes id = {.count}) :
    Turns calm (p.board running hand) ((q.spawn process).board running hand) := by
  have hbegan : Shift calm (p.board running hand) _ := .began
  have hspawned : Turns calm (q.board running (process.stakes q.nextTask + hand))
      ((q.spawn process).board running hand) := turns_spawn q process
  rw [← board_cons] at hbegan
  rw [same, counted] at hspawned
  exact hbegan.turns.trans hspawned

section Requests

/-- Who asks for a client has one then, or a place. -/
theorem turns_ask (p : Pipe P) {place : Multiset Stake}
    (asks : (p.board (some id) (place + hand)).Asks calm id place) :
    Turns calm (p.board (some id) (place + hand))
      ((p.withClients (p.clients.ask id).1).board (some id)
        ((match (p.clients.ask id).2 with
          | some client => .client client
          | none => .place id) ::ₘ hand)) := by
  have hasked : (p.board (some id) (place + hand)).pool.ask id = p.clients.ask id := rfl
  have hhere := board_add p (some id) place hand
  cases hclient : (p.clients.ask id).2 with
  | some client =>
      have hlent := Shift.lent hhere asks (hasked.trans (Prod.ext rfl hclient))
      rw [← board_cons] at hlent
      exact hlent.turns
  | none =>
      have hqueued := Shift.queued hhere asks (hasked.trans (Prod.ext rfl hclient))
      rw [← board_cons] at hqueued
      exact hqueued.turns

/-- A link that does not exchange asks for a client, or asks again. -/
theorem asks_link {α : Type} (p : Pipe P) {link : Link α} (without : .place id ∉ hand)
    (idle : link.request? = none) (told : calm → link = .waiting → id ∈ p.clients.woken) :
    (p.board (some id) (link.stakes id + hand)).Asks calm id (link.stakes id) := by
  cases link with
  | asking => exact .first (place_notMem p id (by simpa [Link.stakes] using without))
  | waiting => exact .again fun hcalm => told hcalm rfl
  | exchanging => cases idle

theorem turns_returned (p : Pipe P) (client : ClientId) :
    Turns calm (p.board running (.client client ::ₘ hand))
      ((p.withClients (p.clients.giveBack client)).board running hand) :=
  (Shift.returned (board_cons p running (.client client) hand)).turns

theorem turns_endTransfer (p : Pipe P) (id : TaskId) (a : Attempt) (client : ClientId)
    (buffer : Nat) (result : Except TransferError Unit) :
    Turns calm (p.board (some id) {.client client, .count})
      ((p.endTransfer id a client buffer result).board none 0) := by
  have hreturned : Turns calm (p.board (some id) (.client client ::ₘ {.count}))
      ((p.returned client buffer).board (some id) {.count}) :=
    turns_returned (p.withBuffers (p.connector.buffers.put buffer)) client
  refine hreturned.trans ?_
  cases result with
  | ok _ =>
      rw [endTransfer_ok, ← board_completeTransfer _ a]
      exact turns_finishTask _ id
  | error error =>
      rw [endTransfer_error, ← board_failTransfer _ a error]
      exact turns_finishTask _ id

theorem stakes_exchanging (a : Attempt) (client : ClientId) (x : Exchange) (pending : Pending) :
    (Process.transfer a (.exchanging client x pending)).stakes id = {.client client, .count} :=
  Multiset.cons_swap _ _ 0

theorem turns_proceed (p : Pipe P) (id : TaskId) (a : Attempt) (client : ClientId) (buffer : Nat)
    (stage : Stage) :
    Turns calm (p.board (some id) {.client client, .count})
      ((p.proceed id a client buffer stage).board none 0) := by
  unfold proceed
  split
  · exact turns_endTransfer p id a client buffer _
  · rename_i sent request _
    exact turns_setTask (p.send request).1 id _ (stakes_exchanging a client _ _)

theorem turns_beginTransfer (p : Pipe P) (id : TaskId) (a : Attempt) (client : ClientId) :
    Turns calm (p.board (some id) {.client client, .count})
      ((p.beginTransfer id a client).board none 0) := by
  rw [beginTransfer_eq, ← board_withBuffers p p.connector.buffers.get.1]
  split
  · exact turns_endTransfer _ id a client _ _
  · exact turns_proceed _ id a client _ _

theorem turns_answerTransfer (p : Pipe P) (id : TaskId) (a : Attempt) (client : ClientId)
    (pending : Pending) (x : Exchange) (r : Response) :
    Turns calm (p.board (some id) {.client client, .count})
      ((p.answerTransfer id a client pending x r).board none 0) := by
  obtain ⟨verdict, hverdict⟩ : ∃ verdict, a.receive p.connector.statusPolicy p.connector.stats
      (p.commons.elapsed x.sentAt) pending.sent r = verdict := ⟨_, rfl⟩
  rw [answerTransfer_eq p id client hverdict, ← board_withStats p verdict.stats,
    ← board_noteJudgement _ verdict.judgement]
  cases verdict.result with
  | error error => exact turns_endTransfer _ id a client _ _
  | ok stage? =>
      rw [← board_noteTaken _ x r]
      cases stage? with
      | none => exact turns_endTransfer _ id a client _ _
      | some stage => exact turns_proceed _ id a client _ _

theorem turns_runTransfer (p : Pipe P) (id : TaskId) (a : Attempt) {link : Link Pending}
    (told : calm → link = .waiting → id ∈ p.clients.woken) :
    Turns calm (p.board (some id) ((Process.transfer a link).stakes id))
      ((p.runTransfer id a link).board none 0) := by
  have hasks (idle : link.request? = none) :
      Turns calm (p.board (some id) (.count ::ₘ link.stakes id))
        ((p.askForTransfer id a).board none 0) := by
    have hwithout : .place id ∉ ({.count} : Multiset Stake) := by simp
    have hasked : Turns calm (p.board (some id) (link.stakes id + {.count})) _ :=
      turns_ask p (asks_link p hwithout idle told)
    rw [add_comm] at hasked
    refine hasked.trans ?_
    rw [askForTransfer_eq]
    cases (p.clients.ask id).2 with
    | some client => exact turns_beginTransfer _ id a client
    | none => exact turns_setTask _ id _ (Multiset.cons_swap _ _ 0)
  cases link with
  | asking => exact hasks rfl
  | waiting => exact hasks rfl
  | exchanging client x pending =>
      rw [stakes_exchanging]
      cases hlook : p.look x with
      | mk p' progress =>
          simp only [runTransfer, hlook]
          rw [← board_look hlook]
          cases progress with
          | pending y => exact turns_setTask p' id _ (stakes_exchanging a client y pending)
          | done result =>
              cases result with
              | error error => exact turns_endTransfer p' id a client _ _
              | ok r => exact turns_answerTransfer p' id a client pending x r

theorem turns_askForTablets (p : Pipe P) (id : TaskId) (t : TabletSend) {link : Link Unit}
    (idle : link.request? = none) (told : calm → link = .waiting → id ∈ p.clients.woken) :
    Turns calm (p.board (some id) ((Process.tablets t link).stakes id))
      ((p.askForTablets id t).board none 0) := by
  have hwithout : .place id ∉ t.purpose.stakes := fun hplace => by cases t.purpose.stakes_eq hplace
  have hasked : Turns calm (p.board (some id) (link.stakes id + t.purpose.stakes)) _ :=
    turns_ask p (asks_link p hwithout idle told)
  rw [add_comm] at hasked
  refine hasked.trans ?_
  rw [askForTablets_eq]
  cases (p.clients.ask id).2 with
  | none => exact turns_setTask _ id _ (add_comm _ _)
  | some client =>
      exact turns_setTask ((p.withClients (p.clients.ask id).1).send _).1 id _ (add_comm _ _)

end Requests

section Worker

theorem turns_takeUp (p : Pipe P) (e : EventRef) :
    Turns calm (p.board running hand) ((p.takeUp e).board running hand) := by
  unfold takeUp
  split
  · split
    · exact turns_start p (fun _ => rfl) fun _ => rfl
    · split <;> exact .of_eq (board_remove p e running hand).symm
  · split
    · exact turns_start p (fun _ => rfl) fun _ => rfl
    · exact .refl _
  · exact .refl _

theorem turns_resubmitAll (due : List EventRef) (p : Pipe P) :
    Turns calm (p.board running hand) ((due.foldl resubmit p).board running hand) := by
  induction due generalizing p with
  | nil => exact .refl _
  | cons e due ih =>
      refine Turns.trans ?_ (ih _)
      cases hreleased : p.commons.isReleased e with
      | true =>
          rw [resubmit_of_released hreleased]
          exact .refl _
      | false =>
          rw [resubmit_of_unreleased hreleased]
          exact turns_takeUp (p.note (.resubmitted e)) e

/-- While the worker looks the connector counts one task more. -/
theorem turns_resubmitDue (p : Pipe P) :
    Turns calm (p.board running hand) (p.resubmitDue.board running hand) := by
  have hbegan : Shift calm (p.board running hand) _ := .began
  rw [← board_cons] at hbegan
  have hover (q : Pipe P) : Shift calm (q.board running (.count ::ₘ hand)) _ :=
    .finished (board_cons q running .count hand)
  refine hbegan.turns.trans ?_
  exact Turns.trans (turns_resubmitAll (p.connector.startTask.takeDue p.now).2 p.dueTaken)
    (hover _).turns

theorem turns_runLooking (p : Pipe P) (id : TaskId) :
    Turns calm (p.board (some id) 0) ((p.runLooking id).board none 0) :=
  (turns_resubmitDue p).trans (turns_setTask p.resubmitDue.heeded id _ rfl)

theorem turns_runWatching (p : Pipe P) (id : TaskId) (woken : Bool) :
    Turns calm (p.board (some id) 0) ((p.runWatching id woken).board none 0) := by
  unfold runWatching
  split
  · split
    · rw [board_wakeWorker]
      exact turns_removeTask p id
    · exact turns_removeTask p id
  · exact turns_runLooking p id

theorem turns_runIdling (p : Pipe P) (id : TaskId) (deadline : Nat) :
    Turns calm (p.board (some id) 0) ((p.runIdling id deadline).board none 0) := by
  unfold runIdling
  split
  · exact turns_setTask p id _ rfl
  · split <;> exact turns_setTask p id _ rfl

end Worker

section Consumer

theorem turns_transferFile (p : Pipe P) (e : EventRef) :
    Turns calm (p.board running hand) ((p.transferFile e).1.board running hand) := by
  refine transferFile_cases p e (fun _ => .refl _) (fun _ => .refl _) (fun _ => .refl _)
    fun a _ _ _ => ?_
  exact turns_start p (fun _ => rfl) fun _ => rfl

theorem turns_afterDispatch (p : Pipe P) (id : TaskId) (loop : Bool) :
    Turns calm (p.board (some id) 0) ((p.afterDispatch id loop).board none 0) := by
  refine turns_setTask p id _ ?_
  split <;> rfl

theorem turns_afterFlush (p : Pipe P) (id : TaskId) (after : After) :
    Turns calm (p.board (some id) 0) ((p.afterFlush id after).board none 0) := by
  cases after with
  | dispatched e loop => exact turns_afterDispatch (p.drop e) id loop
  | due => exact turns_setTask p id _ rfl
  | stop => exact turns_removeTask p id
  | file e loop =>
      refine Turns.trans (turns_transferFile p e) ?_
      simp only [afterFlush]
      split <;> rename_i heq <;> rw [heq]
      · exact turns_afterDispatch (Pipe.drop _ e) id loop
      · exact turns_afterDispatch (Pipe.drop (countFailure _) e) id loop

theorem turns_submit (p : Pipe P) (id : TaskId) (t : TabletSend) :
    Turns calm (p.board (some id) t.purpose.stakes) ((p.submit id t).board none 0) := by
  have hasking : (Process.tablets t .asking).stakes id = t.purpose.stakes := add_zero _
  have hidle : (Link.asking : Link Unit).request? = none := rfl
  rw [submit_eq, ← hasking, ← board_withLedger p]
  exact turns_askForTablets _ id t hidle nofun

variable [Batch.Payload P]

theorem turns_flush (p : Pipe P) (id : TaskId) (after : After) :
    Turns calm (p.board (some id) 0) ((p.flush id after).board none 0) := by
  rw [flush_eq]
  split
  · exact turns_afterFlush p.emit id after
  · split
    · exact turns_afterFlush (p.emit.dropAll p.batch.events).countFailure id after
    · exact turns_submit p.emit id {
        events := p.batch.events
        payload := (Batch.Payload.take p.batch.payload).2
        purpose := .flush after }

theorem turns_dispatched (p : Pipe P) (id : TaskId) (e : EventRef) (loop due : Bool) :
    Turns calm (p.board (some id) 0) ((p.dispatched id e loop due).board none 0) := by
  cases due with
  | true => exact turns_flush p id (.dispatched e loop)
  | false => exact turns_afterDispatch (p.drop e) id loop

theorem turns_dispatch (p : Pipe P) (id : TaskId) (e : EventRef) (loop : Bool) :
    Turns calm (p.board (some id) 0) ((p.dispatch id e loop).board none 0) :=
  dispatch_cases p id e loop (fun _ _ => turns_flush p id (.file e loop))
    (fun _ due _ => turns_dispatched p.checked id e loop due)
    (fun _ due _ _ => turns_dispatched (p.offeredBatch e) id e loop due)
    (fun _ error _ _ _ => turns_afterDispatch
      (((p.offeredBatch e).note (.refused e error)).countFailure.drop e) id loop)
    fun _ _ _ _ _ => turns_afterDispatch ((p.offeredBatch e).countFailure.defer e) id loop

theorem turns_flushIfDue (p : Pipe P) (id : TaskId) :
    Turns calm (p.board (some id) 0) ((p.flushIfDue id).board none 0) := by
  rw [flushIfDue_eq]
  split
  · exact turns_flush p.checked id .due
  · exact turns_setTask p.checked id _ rfl

theorem turns_afterRetrieval (p : Pipe P) (id : TaskId) (retrieval : Queue.Retrieval) :
    Turns calm (p.board (some id) 0) ((p.afterRetrieval id retrieval).board none 0) := by
  cases retrieval with
  | waiting w => exact turns_setTask p id _ rfl
  | done event =>
      cases event with
      | some e => exact turns_dispatch p id e true
      | none =>
          simp only [afterRetrieval]
          split
          · exact turns_flush p id .stop
          · exact turns_flushIfDue p id

theorem turns_consume (p : Pipe P) (id : TaskId) :
    Turns calm (p.board (some id) 0) ((p.consume id).board none 0) :=
  consume_cases p id (turns_flush p id .stop)
    (fun e until_ _ => turns_setTask p.withoutPending id (.pausing e until_) rfl)
    fun queue commons retrieval _ _ => turns_afterRetrieval (p.withQueue queue commons) id retrieval

theorem turns_runPolling (p : Pipe P) (id : TaskId) (w : Queue.Waiting) :
    Turns calm (p.board (some id) 0) ((p.runPolling id w).board none 0) :=
  runPolling_cases p id w (turns_flush p id .stop)
    fun queue commons retrieval _ => turns_afterRetrieval (p.withQueue queue commons) id retrieval

theorem turns_runPausing (p : Pipe P) (id : TaskId) (e : EventRef) :
    Turns calm (p.board (some id) 0) ((p.runPausing id e).board none 0) := by
  unfold runPausing
  split
  · exact turns_flush (p.defer e) id .stop
  · exact turns_dispatch p id e true

omit [Batch.Payload P] in
theorem turns_afterTablets (p : Pipe P) (id : TaskId) (purpose : Purpose)
    (result : Except TransferError Unit) :
    Turns calm (p.board (some id) purpose.stakes)
      ((p.afterTablets id purpose result).board none 0) := by
  cases purpose with
  | retry => exact turns_finishTask p id
  | call => exact turns_setTask p id _ rfl
  | flush after =>
      cases result with
      | ok _ => exact turns_afterFlush p id after
      | error error => exact turns_afterFlush p.countFailure id after

omit [Batch.Payload P] in
theorem turns_runTablets (p : Pipe P) (id : TaskId) (t : TabletSend) {link : Link Unit}
    (told : calm → link = .waiting → id ∈ p.clients.woken) :
    Turns calm (p.board (some id) ((Process.tablets t link).stakes id))
      ((p.runTablets id t link).board none 0) := by
  cases link with
  | asking => exact turns_askForTablets p id t rfl told
  | waiting => exact turns_askForTablets p id t rfl told
  | exchanging client x more =>
      cases hlook : p.look x with
      | mk p' progress =>
          rw [← board_look hlook]
          cases progress with
          | pending y =>
              rw [runTablets_of_pending id hlook]
              exact turns_setTask p' id _ rfl
          | done result =>
              rw [runTablets_of_done id hlook, ← board_judgeTablets p' x result]
              have hheld : (Process.tablets t (.exchanging client x more)).stakes id =
                  .client client ::ₘ t.purpose.stakes := add_comm _ _
              rw [hheld]
              refine (turns_returned _ client).trans ?_
              rw [← board_settleTablets _ t (p'.judgeTablets x result).2]
              exact turns_afterTablets _ id t.purpose _

end Consumer

variable [Batch.Payload P]

/-- A step of a task is made of shifts. All is calm as long as nobody runs who waits for a client
and was not told. -/
theorem turns_run (p : Pipe P) (id : TaskId) (numbered : (p.books none 0).Numbered)
    (told : calm → ∀ process, p.task? id = some process → p.canRunProcess id process = true) :
    Turns calm (p.board none 0) ((p.run id).board none 0) := by
  cases htask : p.task? id with
  | none =>
      simp only [run, htask]
      exact .refl _
  | some process =>
  have hloaded : Turns calm (p.board none 0) (p.board (some id) (process.stakes id)) := by
    have hknown : id < p.nextTask := by
      refine numbered.2 id ?_
      simpa [books, others_none] using ⟨_, mem_of_task? htask, rfl⟩
    rw [board_load numbered htask]
    exact (Shift.loaded hknown).turns
  have hwoken {α : Type} {link : Link α} (ready : calm → p.linkCanRun id link = true) :
      calm → link = .waiting → id ∈ p.clients.woken := by
    intro hcalm hwaiting
    have hready := ready hcalm
    rw [hwaiting] at hready
    simpa [linkCanRun, ClientPool.isWoken] using hready
  have hready (hcalm : calm) := told hcalm process htask
  simp only [run, htask]
  cases process with
  | ended answer at_ => exact .refl _
  | transfer a link => exact hloaded.trans (turns_runTransfer p id a (hwoken hready))
  | tablets t link => exact hloaded.trans (turns_runTablets p id t (hwoken hready))
  | looking => exact hloaded.trans (turns_runLooking p id)
  | watching next woken => exact hloaded.trans (turns_runWatching p id woken)
  | consuming => exact hloaded.trans (turns_consume p id)
  | polling w => exact hloaded.trans (turns_runPolling p id w)
  | pausing e until_ => exact hloaded.trans (turns_runPausing p id e)
  | idling deadline seen => exact hloaded.trans (turns_runIdling p id deadline)

section Calls

omit [Batch.Payload P]

/-- A task that has nothing yet is started. -/
theorem turns_spawn_idle (p : Pipe P) {process : Process} (empty : process.stakes p.nextTask = 0) :
    Turns calm (p.board none 0) ((p.spawn process).board none 0) := by
  have hspawned : Turns calm (p.board none (process.stakes p.nextTask + 0)) _ :=
    turns_spawn p process
  rwa [empty, zero_add] at hspawned

theorem turns_newTask (numbered : (p.books none 0).Numbered) :
    Turns calm (p.board none 0) (p.newTask.1.board (some p.nextTask) 0) := by
  have hboard : p.newTask.1.board (some p.nextTask) 0 = { p.board none 0 with
      nextTask := p.nextTask + 1, running := some p.nextTask } := by
    simp only [board, others_newTask numbered]
    rfl
  rw [hboard]
  exact Shift.spawned.turns.trans (Shift.loaded (Nat.lt_succ_self _)).turns

theorem turns_callSend (numbered : (p.books none 0).Numbered) (sent : List EventRef)
    (payload : Bytes) : Turns calm (p.board none 0) ((p.callSend sent payload).1.board none 0) := by
  refine (turns_newTask numbered).trans ?_
  unfold callSend
  dsimp only
  split
  · exact turns_setTask (p.newTask.1.dropAll sent) p.nextTask _ rfl
  · split
    · exact turns_setTask p.newTask.1 p.nextTask _ rfl
    · exact turns_submit p.newTask.1 p.nextTask { events := sent, payload, purpose := .call }

theorem board_cancel (p : Pipe P) (id? : Option TaskId) (running : Option TaskId)
    (hand : Multiset Stake) : (p.cancel id?).board running hand = p.board running hand := by
  cases id? <;> rfl

theorem board_closeConnector (p : Pipe P) (running : Option TaskId) (hand : Multiset Stake) :
    p.closeConnector.board running hand = p.board running hand := by
  have hcount : (p.connector.close p.commons).1.tasks = p.connector.tasks := by
    unfold Connector.close
    split <;> rfl
  exact board_of_eq running hand rfl rfl hcount

variable [Batch.Payload P]

theorem board_close (p : Pipe P) (running : Option TaskId) (hand : Multiset Stake) :
    p.close.board running hand = p.board running hand := by
  have hcount (commons : Commons) : (p.connector.close commons).1.tasks = p.connector.tasks := by
    unfold Connector.close
    split <;> rfl
  exact board_of_eq running hand rfl rfl (hcount _)

theorem turns_callDispatch (numbered : (p.books none 0).Numbered) (e : EventRef) :
    Turns calm (p.board none 0) ((p.callDispatch e).1.board none 0) :=
  (turns_newTask numbered).trans (turns_dispatch p.newTask.1 p.nextTask e false)

theorem turns_callStep (numbered : (p.books none 0).Numbered) :
    Turns calm (p.board none 0) (p.callStep.1.board none 0) := by
  unfold callStep
  split
  · exact .refl _
  · rename_i queue commons e _
    have hserved : ((p.withQueue queue commons).books none 0).Numbered := numbered
    exact turns_callDispatch hserved e

/-- What is done at once neither takes a client nor gives one back. -/
theorem turns_perform (p : Pipe P) (o : Operation) :
    Turns calm (p.board none 0) ((p.perform o).1.board none 0) := by
  cases o with
  | transferFile e => exact turns_transferFile p e
  | addFailure e => exact .of_eq (board_addFailure p e none 0).symm
  | remove e => exact .of_eq (board_remove p e none 0).symm
  | closeConnector => exact .of_eq (board_closeConnector p none 0).symm
  | close => exact .of_eq (board_close p none 0).symm
  | startWorker => exact turns_spawn_idle { p with worker := some p.nextTask } rfl
  | startConsumer => exact turns_spawn_idle { p with consumer := some p.nextTask } rfl
  | discard | offer | shutdownQueue | teardown | shared => exact .refl _

end Calls

end Pipe
end Courier
