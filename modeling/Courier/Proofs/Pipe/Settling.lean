import Courier.Proofs.Pipe.Errands
import Courier.Proofs.Pipe.Silent
import Courier.Proofs.Transfer.Counting

/-!
How requests end. A request that fails is counted once and told of once, whatever it has in hand;
of that, the retry queue takes what is not released, unless the connector is closed.
-/

namespace Courier

open Transfer

namespace Pipe

variable {P : Type} {p p' p'' : Pipe P} {inHand : List EventRef}

/-- What a failure leaves to the retry queue of the events in hand. -/
def retriable (p : Pipe P) (inHand : List EventRef) : List EventRef :=
  if p.connector.closed then [] else inHand.filter fun e => !p.commons.isReleased e

theorem retriable_noteJudgement (p : Pipe P) (judgement : Option Judgement)
    (events : List EventRef) : (p.noteJudgement judgement).retriable events = p.retriable events := by
  cases judgement <;> rfl

/-- What is told when the retry queue takes some events, newest first. -/
def queuings (events : List EventRef) : List Occurrence :=
  (events.map Occurrence.queued).reverse

/-- The events are handed to the retry queue, and nothing else comes of it. -/
structure Hands (inHand : List EventRef) (p p' : Pipe P) : Prop where
  setup : p'.setup = p.setup
  stats : p'.connector.stats = p.connector.stats
  news : p'.news = queuings (p.retriable inHand) ++ p.news
  retriable : ∀ events, p'.retriable events = p.retriable events

namespace Hands

theorem cons {e : EventRef} (h : Hands [e] p p') (h' : Hands inHand p' p'') :
    Hands (e :: inHand) p p'' := by
  refine ⟨h'.setup.trans h.setup, h'.stats.trans h.stats, ?_,
    fun events => (h'.retriable events).trans (h.retriable events)⟩
  have happ : p.retriable (e :: inHand) = p.retriable [e] ++ p.retriable inHand := by
    unfold Pipe.retriable
    split
    · rfl
    · rw [← List.filter_append, List.singleton_append]
  rw [h'.news, h.news, h.retriable, happ, queuings, queuings, queuings, List.map_append,
    List.reverse_append, List.append_assoc]

theorem addFailure (p : Pipe P) (e : EventRef) : Hands [e] p (p.addFailure e) := by
  cases hclosed : p.connector.closed with
  | true =>
      rw [addFailure_of_closed hclosed]
      have hnone (q : Pipe P) (closed : q.connector.closed = true) (events : List EventRef) :
          q.retriable events = [] := if_pos closed
      refine ⟨rfl, rfl, by rw [hnone p hclosed]; rfl, fun events => ?_⟩
      rw [hnone p hclosed]
      exact hnone { p with commons := (p.commons.clear e).1 } hclosed events
  | false =>
  -- The connector is open from here on, so that only a release keeps the event out.
  have hone : p.retriable [e] = if p.commons.isReleased e then [] else [e] := by
    simp only [Pipe.retriable, hclosed, List.filter_cons, List.filter_nil]
    cases p.commons.isReleased e <;> rfl
  cases hreleased : p.commons.isReleased e with
  | true =>
      rw [addFailure_of_released hclosed hreleased]
      refine ⟨rfl, rfl, ?_, fun _ => rfl⟩
      rw [hone, hreleased]
      rfl
  | false =>
      rw [addFailure_of_live hclosed hreleased]
      have hwoken := Silent.wakeWorker ((p.enqueue e).note (.queued e))
      obtain ⟨hconnector, hcommons, -, -⟩ := wakeWorker_fields ((p.enqueue e).note (.queued e))
      refine ⟨hwoken.setup, hwoken.stats, ?_, fun events => ?_⟩
      · rw [hwoken.news, hone, hreleased]
        rfl
      · simp only [Pipe.retriable, hconnector, hcommons]
        rfl

theorem fail (p : Pipe P) (increases : Bool) (e : EventRef) :
    Hands [e] p (p.fail increases e) := by
  cases increases with
  | false => exact addFailure p e
  | true =>
      have hreleased (events : List EventRef) :
          ({ p with commons := p.commons.backOff e } : Pipe P).retriable events =
            p.retriable events := by
        simp only [Pipe.retriable, Commons.isReleased, Commons.backOff, Ledger.isReleased,
          (Ledger.sameHolders_backOff p.commons.ledger e.id).released]
      have hadded := addFailure { p with commons := p.commons.backOff e } e
      exact ⟨hadded.setup, hadded.stats, hadded.news.trans (by rw [hreleased]; rfl),
        fun events => (hadded.retriable events).trans (hreleased events)⟩

theorem fold (increases : Bool) (events : List EventRef) (p : Pipe P) :
    Hands events p (events.foldl (fun p e => p.fail increases e) p) := by
  induction events generalizing p with
  | nil =>
      have hnone : p.retriable [] = [] := by
        unfold Pipe.retriable
        split <;> rfl
      exact ⟨rfl, rfl, by rw [hnone]; rfl, fun _ => rfl⟩
  | cons e events ih => exact (fail p increases e).cons (ih _)

end Hands

/-- How a task fares that has some events in hand: either nothing fails, or the failure is counted
and told of, and the events are handed to the retry queue. -/
inductive Fares (inHand : List EventRef) (p p' : Pipe P) : Prop
  | well (setup : p'.setup = p.setup)
      (pieces : p'.connector.stats.pieceCounts = p.connector.stats.pieceCounts)
      (retries : p'.connector.stats.retries = p.connector.stats.retries) (news : p'.news = p.news)
  | badly (error : TransferError) (increases : Bool) (setup : p'.setup = p.setup)
      (stats : p'.connector.stats = p.connector.stats.recordRetry)
      (news : p'.news = queuings (p.retriable inHand) ++ .failed error increases :: p.news)

namespace Fares

theorem of_silent (h : Silent p p') : Fares inHand p p' :=
  .well h.setup (congrArg _ h.stats) (congrArg _ h.stats) h.news

theorem setup (h : Fares inHand p p') : p'.setup = p.setup := by
  cases h <;> assumption

/-- What comes before leaves open what can be tried again. -/
theorem head (h : Silent p p') (same : p'.retriable inHand = p.retriable inHand)
    (h' : Fares inHand p' p'') : Fares inHand p p'' := by
  cases h' with
  | well setup pieces retries news =>
      exact .well (setup.trans h.setup) (pieces.trans (congrArg _ h.stats))
        (retries.trans (congrArg _ h.stats)) (news.trans h.news)
  | badly error increases setup stats news =>
      exact .badly error increases (setup.trans h.setup) (stats.trans (congrArg _ h.stats))
        (by rw [news, same, h.news])

theorem tail (h : Fares inHand p p') (h' : Silent p' p'') : Fares inHand p p'' := by
  cases h with
  | well setup pieces retries news =>
      exact .well (h'.setup.trans setup) ((congrArg _ h'.stats).trans pieces)
        ((congrArg _ h'.stats).trans retries) (h'.news.trans news)
  | badly error increases setup stats news =>
      exact .badly error increases (h'.setup.trans setup) (h'.stats.trans stats)
        (h'.news.trans news)

theorem failAll (p : Pipe P) (inHand : List EventRef) (error : TransferError) :
    Fares inHand p (p.failAll inHand error) := by
  have hhanded := Hands.fold (p.connector.retryPolicy.increases error) inHand
    (p.note (.failed error (p.connector.retryPolicy.increases error)))
  exact .badly error _ hhanded.setup (congrArg Metrics.TransferStats.recordRetry hhanded.stats)
    hhanded.news

section Transfers

variable {a : Attempt}

theorem completeTransfer (p : Pipe P) (a : Attempt) :
    Fares inHand p (p.completeTransfer a) := by
  have hsealed (q : Pipe P) (h : Silent p q) : Fares inHand p
      (q.withStats (q.connector.stats.recordSeal (q.commons.elapsed a.createdAt))) := by
    have hpieces := congrArg Metrics.TransferStats.pieceCounts h.stats
    have hretries := congrArg Metrics.TransferStats.retries h.stats
    exact .well h.setup hpieces hretries h.news
  unfold Pipe.completeTransfer
  dsimp only
  split
  · exact hsealed _ ((Silent.remove p a.event).trans (.drop _ a.event))
  · exact hsealed _ (.remove p a.event)

theorem endTransfer (p : Pipe P) (id : TaskId) (a : Attempt) (client : ClientId) (buffer : Nat)
    (result : Except TransferError Unit) :
    Fares [a.event] p (p.endTransfer id a client buffer result) := by
  have hreturned := Silent.returned p client buffer
  have hfinished (q : Pipe P) : Silent q (q.finishTask id) := .of_eq rfl rfl rfl
  cases result with
  | ok _ =>
      rw [endTransfer_ok]
      exact (Fares.head hreturned rfl (completeTransfer _ a)).tail (hfinished _)
  | error error =>
      rw [endTransfer_error]
      exact (Fares.head hreturned rfl (failAll _ [a.event] error)).tail (hfinished _)

theorem proceed (p : Pipe P) (id : TaskId) (a : Attempt) (client : ClientId) (buffer : Nat)
    (stage : Stage) : Fares [a.event] p (p.proceed id a client buffer stage) := by
  unfold Pipe.proceed
  split
  · exact endTransfer p id a client buffer _
  · exact .of_silent ((Silent.send p _).trans (.setTask _ id _))

theorem askForTransfer (p : Pipe P) (id : TaskId) (a : Attempt) :
    Fares [a.event] p (p.askForTransfer id a) := by
  have hasked := Silent.asked p id
  rw [askForTransfer_eq]
  split
  · rw [beginTransfer_eq]
    have hbuffer := hasked.trans (Silent.gotBuffer (p.withClients (p.clients.ask id).1))
    split
    · exact .head hbuffer rfl (endTransfer _ id a _ _ _)
    · exact .head hbuffer rfl (proceed _ id a _ _ _)
  · exact .of_silent (hasked.trans (.setTask _ id _))

end Transfers

theorem settleTablets (p : Pipe P) (t : TabletSend) (result : Except TransferError Unit) :
    Fares t.events p (p.settleTablets t result) := by
  cases result with
  | ok _ => exact .well rfl rfl rfl rfl
  | error error => exact failAll p t.events error

/-- An answer to tablets is judged, and the client goes back. -/
theorem settle (p : Pipe P) (t : TabletSend) (client : ClientId) (x : Exchange)
    (result : Except ClientError Response) : Fares t.events p (p.settle t client x result) := by
  have hsame : (p.judgeTablets x result).1.retriable t.events = p.retriable t.events := by
    cases result with
    | error error => rfl
    | ok r =>
        simp only [Pipe.judgeTablets]
        split <;> exact p.retriable_noteJudgement _ _
  have hclient := Silent.withClients (p := (p.judgeTablets x result).1)
    ((p.judgeTablets x result).1.clients.size_giveBack client)
  exact .head ((Silent.judgeTablets p x result).trans hclient) hsame (settleTablets _ t _)

end Fares

/-! ### What tasks make of answers -/

/-- At most an answer is heard, and what it says of a piece is counted. -/
structure Hears (p p' : Pipe P) : Prop where
  setup : p'.setup = p.setup
  retries : p'.connector.stats.retries = p.connector.stats.retries
  news : ∃ answers : List Answered,
    p'.news = answers.map (fun a => Occurrence.answered a.request a.answer) ++ p.news
  retriable : ∀ events, p'.retriable events = p.retriable events

namespace Hears

theorem refl (p : Pipe P) : Hears p p := ⟨rfl, rfl, ⟨[], rfl⟩, fun _ => rfl⟩

theorem look {x : Exchange} {progress : Exchange.Progress} (h : p.look x = (p', progress)) :
    Hears p p' := by
  unfold Pipe.look at h
  dsimp only at h
  split at h <;> cases h
  · exact ⟨rfl, rfl, ⟨[], rfl⟩, fun _ => rfl⟩
  · exact ⟨rfl, rfl, ⟨[⟨_, _⟩], rfl⟩, fun _ => rfl⟩

theorem tail (h : Hears p p') (h' : Silent p' p'')
    (same : ∀ events, p''.retriable events = p'.retriable events) : Hears p p'' := by
  obtain ⟨answers, hnews⟩ := h.news
  exact ⟨h'.setup.trans h.setup, (congrArg _ h'.stats).trans h.retries,
    ⟨answers, h'.news.trans hnews⟩, fun events => (same events).trans (h.retriable events)⟩

/-- What a verdict counts are pieces. -/
theorem withStats (h : Hears p p') {stats : Metrics.TransferStats}
    (retries : stats.retries = p'.connector.stats.retries) : Hears p (p'.withStats stats) :=
  ⟨h.setup, retries.trans h.retries, h.news, h.retriable⟩

end Hears

theorem retries_receive (a : Attempt) (policy : StatusPolicy) (stats : Metrics.TransferStats)
    (elapsed : Duration) (sent : Sent) (r : Response) :
    (a.receive policy stats elapsed sent r).stats.retries = stats.retries := by
  cases sent with
  | «seal» =>
      simp only [Attempt.receive]
      split <;> rfl
  | piece part reader offset count =>
      simp only [Attempt.receive]
      split
      · split <;> rfl
      · split <;> rfl

section Requests

theorem fares_answerTransfer (h : Hears p p') (id : TaskId) (a : Attempt) (client : ClientId)
    (pending : Pending) (x : Exchange) (r : Response) :
    ∃ q, Hears p q ∧ Fares [a.event] q (p'.answerTransfer id a client pending x r) := by
  obtain ⟨verdict, hverdict⟩ : ∃ verdict, a.receive p'.connector.statusPolicy p'.connector.stats
      (p'.commons.elapsed x.sentAt) pending.sent r = verdict := ⟨_, rfl⟩
  have hcounted := h.withStats (hverdict ▸ retries_receive a _ _ _ _ r)
  have htaken (q : Pipe P) (events : List EventRef) :
      (q.noteTaken x r).retriable events = q.retriable events := by
    unfold noteTaken
    split <;> rfl
  have hjudged := hcounted.tail (.noteJudgement _ verdict.judgement)
    (retriable_noteJudgement _ _)
  rw [answerTransfer_eq p' id client hverdict]
  cases verdict.result with
  | error error => exact ⟨_, hjudged, .endTransfer _ id a client _ _⟩
  | ok stage? =>
      have hnoted := hjudged.tail (.noteTaken _ x r) (htaken _)
      cases stage? with
      | none => exact ⟨_, hnoted, .endTransfer _ id a client _ _⟩
      | some stage => exact ⟨_, hnoted, .proceed _ id a client _ _⟩

theorem fares_runTransfer (p : Pipe P) (id : TaskId) (a : Attempt) (link : Link Pending) :
    ∃ q, Hears p q ∧ Fares [a.event] q (p.runTransfer id a link) := by
  cases link with
  | asking | waiting => exact ⟨p, .refl p, .askForTransfer p id a⟩
  | exchanging client x pending =>
      cases hlook : p.look x with
      | mk p' progress =>
          have hheard := Hears.look hlook
          simp only [runTransfer, hlook]
          cases progress with
          | pending y => exact ⟨p', hheard, .of_silent (.of_eq rfl rfl rfl)⟩
          | done result =>
              cases result with
              | error error => exact ⟨p', hheard, .endTransfer p' id a client _ _⟩
              | ok r => exact fares_answerTransfer hheard id a client pending x r

theorem fares_runTablets (p : Pipe P) (id : TaskId) (t : TabletSend) (link : Link Unit) :
    ∃ q, Hears p q ∧ Fares t.events q (p.runTablets id t link) := by
  cases link with
  | asking | waiting => exact ⟨p, .refl p, .of_silent (.askForTablets p id t)⟩
  | exchanging client x more =>
      cases hlook : p.look x with
      | mk p' progress =>
          have hheard := Hears.look hlook
          cases progress with
          | pending y =>
              rw [runTablets_of_pending id hlook]
              exact ⟨p', hheard, .of_silent (.of_eq rfl rfl rfl)⟩
          | done result =>
              rw [runTablets_of_done id hlook]
              exact ⟨p', hheard, (Fares.settle p' t client x result).tail
                (.afterTablets _ id t.purpose _)⟩

end Requests

/-- A task that runs hears at most of an answer, and fares well or badly with what it has in
hand. -/
theorem fares_run [Batch.Payload P] (p : Pipe P) {id : TaskId} {process : Process}
    (task : p.task? id = some process) :
    ∃ q, Hears p q ∧ Fares process.carried q (p.run id) := by
  refine run_requests p id (fun a link found => ?_) (fun t link found => ?_)
    fun p' silent => ⟨p, .refl p, .of_silent silent⟩
  · cases found.symm.trans task
    exact fares_runTransfer p id a link
  · cases found.symm.trans task
    exact fares_runTablets p id t link

end Pipe
end Courier
