import Courier.Proofs.Pipe.Consumer

/-!
Whatever task runs, and from wherever it waits, its step is made of moves.
-/

namespace Courier

open Transfer

namespace Pipe

variable {P : Type} {p : Pipe P} {running : Option TaskId} {hand : Multiset Item}

/-- The pipe with one more task of its connector. -/
def busier (p : Pipe P) : Pipe P := { p with connector := p.connector.startTask }

theorem resubmit_of_released {e : EventRef} (h : p.commons.isReleased e = true) :
    p.resubmit e = p := by
  simp [resubmit, h]

/-- What a worker does with an event that it takes up again. -/
def takeUp (p : Pipe P) (e : EventRef) : Pipe P :=
  match e.event.content with
  | .file _ =>
      match Attempt.prepare e p.connector.settings p.now with
      | .ok attempt => p.busier.spawn (.transfer attempt .asking)
      | .error _ => if (p.remove e).2 then (p.remove e).1.drop e else (p.remove e).1
  | .tablet _ =>
      match Batch.PlainPayload.construct {} e.event with
      | (payload, .ok true) =>
          p.busier.spawn (.tablets { events := [e], payload := payload.bytes, purpose := .retry }
            .asking)
      | _ => p.drop e
  | .heartbeat _ => p.drop e

theorem resubmit_of_unreleased {e : EventRef} (h : p.commons.isReleased e = false) :
    p.resubmit e = (p.note (.resubmitted e)).takeUp e := by
  unfold resubmit takeUp
  rw [if_neg (by simp [h])]
  cases hcontent : e.event.content with
  | tablet t => rfl
  | heartbeat created => rfl
  | file f =>
      obtain ⟨result, hresult⟩ : ∃ result, Attempt.prepare e
          (p.note (.resubmitted e)).connector.settings (p.note (.resubmitted e)).now = result :=
        ⟨_, rfl⟩
      simp only [hresult]
      cases result with
      | ok attempt => rfl
      | error error =>
          obtain ⟨⟨p', removed⟩, hremove⟩ : ∃ result, (p.note (.resubmitted e)).remove e = result :=
            ⟨_, rfl⟩
          simp only [hremove]
          cases removed <;> rfl

variable [Batch.Payload P] {lossy : Prop}

theorem leads_drop_unencodable {e : EventRef} (light : e.event.isBulk = false)
    (failed : (Batch.PlainPayload.construct {} e.event).2 ≠ .ok true) :
    Leads lossy (p.books running (.retry e ::ₘ hand)) ((p.drop e).books running hand) := by
  have hturn : Leads lossy (p.books running ({.retry e} + hand))
      (p.books running ({.spent e} + hand)) := leads_turn (.unencodable light failed)
  exact hturn.trans (leads_drop p e)

theorem leads_takeUp (p : Pipe P) (e : EventRef) :
    Leads lossy (p.books running (.retry e ::ₘ hand)) ((p.takeUp e).books running hand) := by
  unfold takeUp
  cases hcontent : e.event.content with
  | heartbeat created =>
      refine leads_drop_unencodable (Event.isBulk_of_heartbeat hcontent) ?_
      simp [Batch.PlainPayload.construct, hcontent]
  | tablet t =>
      have light := Event.isBulk_of_tablet hcontent
      dsimp only
      split
      · rename_i payload hencoded
        have hturn : Leads lossy (p.books running ({.retry e} + hand))
            (p.books running ({.sending [e] payload.bytes none} + hand)) :=
          leads_turn (.resumedTablet hcontent hencoded)
        exact hturn.trans (leads_spawn p.busier (.tablets
          { events := [e], payload := payload.bytes, purpose := .retry } .asking))
      · rename_i hfailed
        refine leads_drop_unencodable light fun hok => ?_
        exact hfailed _ (Prod.ext rfl hok)
  | file f =>
      have hbulk := Event.isBulk_of_file hcontent
      dsimp only
      split
      · rename_i a hprepared
        have hturn : Leads lossy (p.books running ({.retry e} + hand))
            (p.books running ({.attempt a none} + hand)) := leads_turn (.resumedFile hprepared)
        exact hturn.trans (leads_spawn p.busier (.transfer a .asking))
      · rename_i error hfailed
        rcases buffered_same_or_gone p e with ⟨found, hfound, hsame⟩ | hgone
        · rw [if_pos (remove_of_same running hand hfound hsame).1]
          exact leads_remove_drop hfound hsame (.unnamed hbulk hfailed)
        · have hremove := remove_of_gone running hand hgone
          rw [if_neg (by rw [hremove.1]; exact Bool.false_ne_true), hremove.2]
          have hturn : Leads lossy (p.books running ({.retry e} + hand))
              (p.books running (0 + hand)) := leads_turn (.lostFile hbulk hfailed hgone)
          rw [zero_add] at hturn
          exact hturn

theorem leads_resubmit (p : Pipe P) (e : EventRef) :
    Leads lossy (p.books running (.retry e ::ₘ hand)) ((p.resubmit e).books running hand) := by
  cases hreleased : p.commons.isReleased e with
  | true =>
      rw [resubmit_of_released hreleased]
      have hturn : Leads lossy (p.books running ({.retry e} + hand)) (p.books running (0 + hand)) :=
        leads_turn (.skipped hreleased)
      rw [zero_add] at hturn
      exact hturn
  | false =>
      rw [resubmit_of_unreleased hreleased]
      exact (leads_note (o := .resubmitted e) p hreleased).trans (leads_takeUp _ e)

theorem leads_resubmitAll (due : List EventRef) :
    Leads lossy (p.books running (↑(due.map Item.retry) + hand))
      ((due.foldl resubmit p).books running hand) := by
  induction due generalizing p with
  | nil =>
      apply Leads.of_eq
      simp
  | cons e due ih =>
      rw [List.map_cons, ← Multiset.cons_coe, Multiset.cons_add]
      exact (leads_resubmit p e).trans ih

/-- The pipe whose retry queue keeps only what is not due. -/
def dueTaken (p : Pipe P) : Pipe P :=
  { p with connector := (p.connector.startTask.takeDue p.now).1 }

omit [Batch.Payload P] in
/-- What is due is taken out of the retry queue. -/
theorem books_dueTaken (p : Pipe P) :
    p.books running hand = p.dueTaken.books running
      (↑((p.connector.startTask.takeDue p.now).2.map Item.retry) + hand) := by
  have hsplit := List.filter_append_perm (fun entry : RetryEntry => decide (entry.readyAt ≤ p.now))
    p.connector.retryQueue
  have hsorted := List.mergeSort_perm ((p.connector.retryQueue.filter fun entry =>
      entry.readyAt ≤ p.now).map RetryEntry.event) fun a b => a.event.commit.le b.event.commit
  have hitems := Multiset.coe_eq_coe.mpr (hsplit.map fun entry => Item.retry entry.event)
  have hdue := Multiset.coe_eq_coe.mpr (hsorted.map Item.retry)
  simp only [books, stored, others, dueTaken, Connector.takeDue, Connector.startTask,
    Connector.withRetryQueue, hdue, ← hitems, List.map_append, List.map_map, Function.comp_def,
    ← Multiset.coe_add]
  congr 1
  ac_rfl

theorem leads_resubmitDue (p : Pipe P) :
    Leads lossy (p.books running hand) (p.resubmitDue.books running hand) := by
  rw [books_dueTaken p]
  exact leads_resubmitAll (p := p.dueTaken) _

theorem leads_runLooking (p : Pipe P) (id : TaskId) :
    Leads lossy (p.books (some id) 0) ((p.runLooking id).books none 0) := by
  unfold runLooking
  dsimp only
  rw [books_setTask]
  exact leads_resubmitDue p

theorem leads_runWatching (p : Pipe P) (id : TaskId) (woken : Bool) :
    Leads lossy (p.books (some id) 0) ((p.runWatching id woken).books none 0) := by
  unfold runWatching
  split
  · split
    · rw [books_wakeWorker]
      exact leads_removeTask p id
    · exact leads_removeTask p id
  · exact leads_runLooking p id

theorem leads_runIdling (p : Pipe P) (id : TaskId) (deadline : Nat) :
    Leads lossy (p.books (some id) 0) ((p.runIdling id deadline).books none 0) := by
  unfold runIdling
  split
  · rw [books_setTask]
    exact .refl _
  · split <;> rw [books_setTask] <;> exact .refl _

theorem leads_afterTablets (p : Pipe P) (id : TaskId) (purpose : Purpose)
    (result : Except TransferError Unit) :
    Leads lossy (p.books (some id) purpose.items)
      ((p.afterTablets id purpose result).books none 0) := by
  cases purpose with
  | retry => exact leads_finishTask p id
  | call =>
      simp only [afterTablets]
      rw [books_setTask]
      exact .refl _
  | flush after =>
      cases result with
      | ok _ => exact leads_afterFlush p id after
      | error error => exact leads_afterFlush p.countFailure id after

section Answered

omit [Batch.Payload P]

/-- The pipe after the answer to a batch was judged, its client given back, its events settled. -/
def settle (p : Pipe P) (t : TabletSend) (client : ClientId) (x : Exchange)
    (result : Except ClientError Response) : Pipe P :=
  ((p.judgeTablets x result).1.withClients
    ((p.judgeTablets x result).1.clients.giveBack client)).settleTablets t
      (p.judgeTablets x result).2

theorem runTablets_of_pending {p' : Pipe P} {t : TabletSend} {client : ClientId} {x y : Exchange}
    {more : Unit} (id : TaskId) (h : p.look x = (p', .pending y)) :
    p.runTablets id t (.exchanging client x more) =
      p'.setTask id (.tablets t (.exchanging client y ())) := by
  simp only [runTablets, h]

theorem runTablets_of_done {p' : Pipe P} {t : TabletSend} {client : ClientId} {x : Exchange}
    {more : Unit} {result : Except ClientError Response} (id : TaskId)
    (h : p.look x = (p', .done result)) :
    p.runTablets id t (.exchanging client x more) =
      (p'.settle t client x result).afterTablets id t.purpose (p'.judgeTablets x result).2 := by
  simp only [runTablets, h]
  rfl

end Answered

theorem leads_runTablets (p : Pipe P) (id : TaskId) (t : TabletSend) (link : Link Unit) :
    Leads lossy (p.books (some id) (.sending t.events t.payload link.request? ::ₘ t.purpose.items))
      ((p.runTablets id t link).books none 0) := by
  cases link with
  | asking => exact leads_askForTablets p id t
  | waiting => exact leads_askForTablets p id t
  | exchanging client x more =>
      rcases look_cases p x with ⟨p', y, hlook, hrequest, hbooks⟩ |
        ⟨p', result, hlook, hnoted, hleads⟩
      · rw [runTablets_of_pending id hlook, books_setTask, hbooks, add_zero]
        have hasked : (Link.exchanging client x more).request? =
            (Link.exchanging client y ()).request? := by
          simp only [Link.request?, hrequest]
        rw [hasked]
        exact .refl _
      · obtain ⟨hjudged, htook⟩ := leads_judgeTablets p' x hnoted
        rw [runTablets_of_done id hlook]
        refine (hleads _ _).trans ((hjudged _ _).trans ?_)
        refine Leads.trans ?_ (leads_afterTablets _ id t.purpose _)
        rw [← books_withClients _ ((p'.judgeTablets x result).1.clients.giveBack client), settle]
        cases hresult : (p'.judgeTablets x result).2 with
        | error error => exact leads_settleTablets_error _ t _ error
        | ok _ => exact leads_settleTablets_ok _ t (htook hresult _ _)

omit [Batch.Payload P] in
/-- The process may put a tablet back into the place before the batch. -/
def Process.returns : Process → Bool
  | .polling _ | .pausing _ _ => true
  | _ => false

/-- A task that is loaded goes to the next place where it waits. -/
theorem leads_runProcess {id : TaskId} {process : Process}
    (loaded : p.books none 0 = p.books (some id) process.items)
    (room : lossy ∨ (process.returns = true → p.pending = none)) :
    Leads lossy (p.books none 0) ((p.runProcess id process).books none 0) := by
  cases process with
  | ended answer at_ => exact .refl _
  | transfer a link => exact loaded ▸ leads_runTransfer p id a link
  | tablets t link => exact loaded ▸ leads_runTablets p id t link
  | looking => exact loaded ▸ leads_runLooking p id
  | watching next woken => exact loaded ▸ leads_runWatching p id woken
  | consuming => exact loaded ▸ leads_consume p id
  | polling w => exact loaded ▸ leads_runPolling p id w (room.imp_right fun h => h rfl)
  | pausing e until_ => exact loaded ▸ leads_runPausing p id e (room.imp_right fun h => h rfl)
  | idling deadline seen => exact loaded ▸ leads_runIdling p id deadline

/-- A step of a task is made of moves. A consumer alone mislays no tablet. -/
theorem leads_run (p : Pipe P) (id : TaskId)
    (room : lossy ∨ ∀ process, p.task? id = some process → process.returns = true →
      p.pending = none) :
    Leads lossy (p.books none 0) ((p.run id).books none 0) := by
  unfold run
  split
  · rename_i process htask
    intro hnumbered
    exact leads_runProcess (books_load hnumbered.1 htask)
      (room.imp_right fun h => h process htask) hnumbered
  · exact .refl _

end Pipe
end Courier
