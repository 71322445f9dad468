import Courier.Proofs.Pipe.Closing

/-!
What becomes of the events that a task has in hand. A transfer, or tablets on their way for no
consumer, go on with all of them, are done with all of them, or fail with all of them. Until then
nothing about a failure happens, and no pause before another try changes.
-/

namespace Courier

open Transfer

namespace Lifecycle

theorem retryMs_hold (l : Lifecycle) : l.hold.1.retryMs = l.retryMs := by
  unfold hold
  split <;> rfl

theorem retryMs_release (l : Lifecycle) : l.release.retryMs = l.retryMs := by
  unfold release
  split <;> rfl

theorem retryMs_drop (l : Lifecycle) : l.drop.1.retryMs = l.retryMs := by
  unfold drop
  split
  · rfl
  · split
    · exact retryMs_release _
    · rfl

theorem retryMs_clear (l : Lifecycle) : l.clear.1.retryMs = l.retryMs := by
  unfold clear
  split
  · exact retryMs_release _
  · rfl

end Lifecycle

namespace Ledger

theorem retryMs_update (l : Ledger) (id : EventId) {f : Lifecycle → Lifecycle × Bool}
    (keeps : ∀ entry, (f entry).1.retryMs = entry.retryMs) (other : EventId) :
    (l.update id f).1.retryMs other = l.retryMs other := by
  by_cases hother : other = id
  · subst hother
    by_cases hid : other < l.entries.size
    · exact (congrArg Lifecycle.retryMs (get_set_self l other _ hid)).trans (keeps _)
    · simp [retryMs, update, set, get, hid]
  · exact congrArg Lifecycle.retryMs (get_update_ne hother)

theorem retryMs_dropAll (l : Ledger) (events : List EventRef) (id : EventId) :
    (l.dropAll events).retryMs id = l.retryMs id := by
  induction events generalizing l with
  | nil => rfl
  | cons e events ih => exact (ih _).trans (retryMs_update l e.id Lifecycle.retryMs_drop id)

theorem size_dropAll (l : Ledger) (events : List EventRef) :
    (l.dropAll events).entries.size = l.entries.size := by
  induction events generalizing l with
  | nil => rfl
  | cons e events ih => exact (ih _).trans (size_update _ _ _)

end Ledger

namespace Pipe

variable {P : Type} {p p' p'' q : Pipe P} {id : TaskId} {inHand : List EventRef}

/-- The events that a task has in hand: its file, or its tablets. -/
def Process.carried : Process → List EventRef
  | .transfer a _ => [a.event]
  | .tablets t _ => t.events
  | _ => []

/-- The occurrence tells of events that failed. -/
def Occurrence.ofFailure : Occurrence → Bool
  | .failed _ _ | .queued _ | .resubmitted _ => true
  | _ => false

/-- No task is touched, nothing is queued to be tried again, and no pause changes. -/
structure Mild (p p' : Pipe P) : Prop where
  tasks : p'.tasks = p.tasks := by rfl
  nextTask : p'.nextTask = p.nextTask := by rfl
  cancelled : p'.cancelled = p.cancelled := by rfl
  retryQueue : p'.connector.retryQueue = p.connector.retryQueue := by rfl
  settings : p'.connector.settings = p.connector.settings := by rfl
  retryPolicy : p'.connector.retryPolicy = p.connector.retryPolicy := by rfl
  now : p'.now = p.now := by rfl
  size : p'.commons.ledger.entries.size = p.commons.ledger.entries.size := by rfl
  retryMs : ∀ id, p'.commons.ledger.retryMs id = p.commons.ledger.retryMs id := by
    exact fun _ => rfl
  trace : ∃ told, p'.trace = told ++ p.trace ∧ ∀ o ∈ told, o.ofFailure = false := by
    exact ⟨[], rfl, fun _ ho => absurd ho List.not_mem_nil⟩

namespace Mild

theorem refl (p : Pipe P) : Mild p p := {}

theorem trans (h : Mild p p') (h' : Mild p' p'') : Mild p p'' where
  tasks := h'.tasks.trans h.tasks
  nextTask := h'.nextTask.trans h.nextTask
  cancelled := h'.cancelled.trans h.cancelled
  retryQueue := h'.retryQueue.trans h.retryQueue
  settings := h'.settings.trans h.settings
  retryPolicy := h'.retryPolicy.trans h.retryPolicy
  now := h'.now.trans h.now
  size := h'.size.trans h.size
  retryMs id := (h'.retryMs id).trans (h.retryMs id)
  trace := by
    obtain ⟨told, htrace, htold⟩ := h.trace
    obtain ⟨told', htrace', htold'⟩ := h'.trace
    refine ⟨told' ++ told, by rw [htrace', htrace, List.append_assoc], fun o ho => ?_⟩
    exact (List.mem_append.mp ho).elim (htold' o) (htold o)

theorem note (p : Pipe P) {o : Occurrence} (other : o.ofFailure = false) : Mild p (p.note o) :=
  { trace := ⟨[o], rfl, fun _ ho => List.mem_singleton.mp ho ▸ other⟩ }

theorem noteJudgement (p : Pipe P) (judgement : Option Judgement) :
    Mild p (p.noteJudgement judgement) := by
  cases judgement with
  | none => exact refl p
  | some judgement => exact note p rfl

theorem noteTaken (p : Pipe P) (x : Exchange) (r : Response) : Mild p (p.noteTaken x r) := by
  unfold Pipe.noteTaken
  split
  · exact refl p
  · exact note p rfl

theorem withClients (p : Pipe P) (clients : ClientPool) : Mild p (p.withClients clients) := {}

theorem withBuffers (p : Pipe P) (buffers : BufferPool) : Mild p (p.withBuffers buffers) := {}

theorem withStats (p : Pipe P) (stats : Metrics.TransferStats) : Mild p (p.withStats stats) := {}

theorem returned (p : Pipe P) (client : ClientId) (buffer : Nat) :
    Mild p (p.returned client buffer) := {}

theorem drop (p : Pipe P) (e : EventRef) : Mild p (p.drop e) where
  size := Ledger.size_update _ _ _
  retryMs := Ledger.retryMs_update _ _ Lifecycle.retryMs_drop

theorem dropAll (p : Pipe P) (events : List EventRef) : Mild p (p.dropAll events) where
  size := Ledger.size_dropAll _ _
  retryMs := Ledger.retryMs_dropAll _ _

theorem remove (p : Pipe P) (e : EventRef) : Mild p (p.remove e).1 := by
  have hleft : Mild p { p with connector := p.connector.withBuffer p.connector.buffer } := {}
  cases hfound : p.connector.buffered? e.event.commit with
  | none =>
      simp only [Pipe.remove, Connector.remove, hfound]
      exact hleft
  | some found =>
      simp only [Pipe.remove, Connector.remove, hfound]
      split
      · exact {}
      · exact hleft

theorem send (p : Pipe P) (request : Request) : Mild p (p.send request).1 :=
  { trace := ⟨[.requested p.now request], rfl, fun _ ho => List.mem_singleton.mp ho ▸ rfl⟩ }

theorem look {x : Exchange} {progress : Exchange.Progress} (h : p.look x = (p', progress)) :
    Mild p p' := by
  unfold Pipe.look at h
  dsimp only at h
  split at h <;> cases h
  · exact {}
  · exact (show Mild p { p with peer := _, disk := _ } from {}).trans (note _ rfl)

theorem judgeTablets (p : Pipe P) (x : Exchange) (result : Except ClientError Response) :
    Mild p (p.judgeTablets x result).1 := by
  cases result with
  | error error => exact refl p
  | ok r =>
      simp only [Pipe.judgeTablets]
      split
      · exact (noteJudgement p _).trans (note _ rfl)
      · exact noteJudgement p _

theorem completeTransfer (p : Pipe P) (a : Attempt) : Mild p (p.completeTransfer a) := by
  unfold Pipe.completeTransfer
  dsimp only
  split
  · exact ((remove p a.event).trans (drop _ a.event)).trans (withStats _ _)
  · exact (remove p a.event).trans (withStats _ _)

end Mild

/-- All that failed goes to the retry queue, with longer pauses if the failure calls for it. -/
def failAll (p : Pipe P) (events : List EventRef) (error : TransferError) : Pipe P :=
  let increases := p.connector.retryPolicy.increases error
  (events.foldl (fun p e => p.fail increases e) (p.note (.failed error increases))).countRetry

/-- A task that has nothing left to do is gone, or it is a call that came back. -/
inductive Retires (id : TaskId) (p : Pipe P) : Pipe P → Prop
  | finished : Retires id p (p.finishTask id)
  | ended (answer : Answer) (at_ : Nat) : Retires id p (p.setTask id (.ended answer at_))

/-- What the step of a task comes to that has some events in hand. -/
inductive Outcome (p : Pipe P) (id : TaskId) (inHand : List EventRef) : Pipe P → Prop
  | goesOn {q : Pipe P} {process : Process} (mild : Mild p q) (same : process.carried = inHand)
      (works : process.works = true) (apart : process.consumes = false) :
      Outcome p id inHand (q.setTask id process)
  | done {q r : Pipe P} (mild : Mild p q) (retires : Retires id q r) : Outcome p id inHand r
  | failed {q r : Pipe P} (mild : Mild p q) (error : TransferError)
      (retires : Retires id (q.failAll inHand error) r) : Outcome p id inHand r

namespace Outcome

theorem head (h : Mild p q) (h' : Outcome q id inHand p') : Outcome p id inHand p' := by
  cases h' with
  | goesOn mild same works apart => exact .goesOn (h.trans mild) same works apart
  | done mild retires => exact .done (h.trans mild) retires
  | failed mild error retires => exact .failed (h.trans mild) error retires

section Transfers

variable {a : Attempt}

theorem endTransfer (p : Pipe P) (id : TaskId) (client : ClientId) (buffer : Nat)
    (result : Except TransferError Unit) :
    Outcome p id [a.event] (p.endTransfer id a client buffer result) := by
  cases result with
  | ok _ =>
      rw [endTransfer_ok]
      exact .done ((Mild.returned p client buffer).trans (.completeTransfer _ a)) .finished
  | error error =>
      rw [endTransfer_error]
      exact .failed (.returned p client buffer) error .finished

theorem proceed (p : Pipe P) (id : TaskId) (client : ClientId) (buffer : Nat) (stage : Stage) :
    Outcome p id [a.event] (p.proceed id a client buffer stage) := by
  unfold Pipe.proceed
  split
  · exact endTransfer p id client buffer _
  · exact .goesOn (.send p _) rfl rfl rfl

theorem askForTransfer (p : Pipe P) (id : TaskId) :
    Outcome p id [a.event] (p.askForTransfer id a) := by
  rw [askForTransfer_eq]
  refine .head (.withClients p (p.clients.ask id).1) ?_
  split
  · rw [beginTransfer_eq]
    refine .head (.withBuffers _ (p.withClients (p.clients.ask id).1).connector.buffers.get.1) ?_
    split
    · exact endTransfer _ id _ _ _
    · exact proceed _ id _ _ _
  · exact .goesOn (.refl _) rfl rfl rfl

theorem answerTransfer (p : Pipe P) (id : TaskId) (client : ClientId) (pending : Pending)
    (x : Exchange) (r : Response) :
    Outcome p id [a.event] (p.answerTransfer id a client pending x r) := by
  obtain ⟨verdict, hverdict⟩ : ∃ verdict, a.receive p.connector.statusPolicy p.connector.stats
      (p.commons.elapsed x.sentAt) pending.sent r = verdict := ⟨_, rfl⟩
  rw [answerTransfer_eq p id client hverdict]
  have hjudged : Mild p ((p.withStats verdict.stats).noteJudgement verdict.judgement) :=
    (Mild.withStats p verdict.stats).trans (.noteJudgement _ _)
  cases verdict.result with
  | error error => exact .head hjudged (endTransfer _ id client _ _)
  | ok stage? =>
      have htaken := hjudged.trans (.noteTaken _ x r)
      cases stage? with
      | none => exact .head htaken (endTransfer _ id client _ _)
      | some stage => exact .head htaken (proceed _ id client _ _)

theorem runTransfer (p : Pipe P) (id : TaskId) (link : Link Pending) :
    Outcome p id [a.event] (p.runTransfer id a link) := by
  cases link with
  | asking | waiting => exact askForTransfer p id
  | exchanging client x pending =>
      cases hlook : p.look x with
      | mk p' progress =>
          simp only [Pipe.runTransfer, hlook]
          refine .head (.look hlook) ?_
          cases progress with
          | pending y => exact .goesOn (.refl p') rfl rfl rfl
          | done result =>
              cases result with
              | error error => exact endTransfer p' id client pending.buffer _
              | ok r => exact answerTransfer p' id client pending x r

end Transfers

section Tablets

variable {t : TabletSend}

theorem askForTablets (p : Pipe P) (id : TaskId) (apart : t.purpose.isFlush = false) :
    Outcome p id t.events (p.askForTablets id t) := by
  rw [askForTablets_eq]
  refine .head (.withClients p (p.clients.ask id).1) ?_
  split
  · exact .goesOn (.refl _) rfl rfl apart
  · exact .goesOn (.send _ _) rfl rfl apart

/-- Tablets that are not sent for a consumer. -/
theorem runTablets (p : Pipe P) (id : TaskId) (link : Link Unit)
    (apart : t.purpose.isFlush = false) : Outcome p id t.events (p.runTablets id t link) := by
  have hretires (q : Pipe P) (result : Except TransferError Unit) :
      Retires id q (q.afterTablets id t.purpose result) := by
    cases hpurpose : t.purpose with
    | retry => exact .finished
    | call => exact .ended _ _
    | flush after =>
        rw [hpurpose] at apart
        cases apart
  cases link with
  | asking | waiting => exact askForTablets p id apart
  | exchanging client x more =>
      cases hlook : p.look x with
      | mk p' progress =>
          refine .head (.look hlook) ?_
          cases progress with
          | pending y =>
              rw [runTablets_of_pending id hlook]
              exact .goesOn (.refl p') rfl rfl apart
          | done result =>
              rw [runTablets_of_done id hlook, settle]
              refine .head ((Mild.judgeTablets p' x result).trans
                (.withClients _ ((p'.judgeTablets x result).1.clients.giveBack client))) ?_
              cases (p'.judgeTablets x result).2 with
              | ok _ =>
                  have hcounted (q : Pipe P) : Mild q (q.withStats
                      (q.connector.stats.recordBatch t.events.length)) := .withStats q _
                  exact .done ((hcounted _).trans (.dropAll _ t.events)) (hretires _ _)
              | error error => exact .failed (.refl _) error (hretires _ _)

end Tablets

end Outcome

/-- A task that is no consumer and has work to do goes on, is done, or fails. -/
theorem outcome_run [Batch.Payload P] (p : Pipe P) {process : Process}
    (task : p.task? id = some process) (apart : process.consumes = false)
    (works : process.works = true) : Outcome p id process.carried (p.run id) := by
  simp only [run, task]
  cases process with
  | transfer a link => exact Outcome.runTransfer p id link
  | tablets t link => exact Outcome.runTablets p id link apart
  | looking | watching | idling | ended => cases works
  | consuming | polling | pausing => cases apart

end Pipe
end Courier
