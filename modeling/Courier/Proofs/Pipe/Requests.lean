import Courier.Proofs.Pipe.Moves
import Courier.Proofs.Transfer.Acceptance

/-!
The moves behind the requests of a running pipe. A transfer in hand ends in the retry queue or out
of the buffer, or it is a waiting task again; so does a batch of tablets.
-/

namespace Courier

open Transfer

namespace Pipe

variable {P : Type} [Batch.Payload P] {p : Pipe P} {running : Option TaskId} {hand : Multiset Item}
  {lossy : Prop}

theorem leads_turn {x y : Multiset Item} (turn : Turn lossy (p.books running (x + hand)) x y) :
    Leads lossy (p.books running (x + hand)) (p.books running (y + hand)) := by
  have hmove : Move lossy _ _ := .turned (books_add p running x hand) turn
  rw [← books_add p running y hand] at hmove
  exact hmove.leads

theorem leads_note (p : Pipe P) {o : Occurrence} (allowed : (p.books running hand).Allows o) :
    Leads lossy (p.books running hand) ((p.note o).books running hand) :=
  (Move.noted allowed).leads

theorem leads_noteJudgement (p : Pipe P) (judgement : Option Judgement) :
    Leads lossy (p.books running hand) ((p.noteJudgement judgement).books running hand) := by
  cases judgement with
  | none => exact .refl _
  | some judgement => exact leads_note p trivial

theorem leads_drop (p : Pipe P) (e : EventRef) :
    Leads lossy (p.books running (.spent e ::ₘ hand)) ((p.drop e).books running hand) :=
  (Move.dropped (books_cons p running _ hand)).leads

theorem leads_dropAll (events : List EventRef) :
    Leads lossy (p.books running (↑(events.map Item.spent) + hand))
      ((p.dropAll events).books running hand) := by
  induction events generalizing p with
  | nil =>
      apply Leads.of_eq
      simp [dropAll, Commons.dropAll, Ledger.dropAll]
  | cons e events ih =>
      rw [List.map_cons, ← Multiset.cons_coe, Multiset.cons_add]
      exact (leads_drop p e).trans ih

theorem leads_removeTask (p : Pipe P) (id : TaskId) :
    Leads lossy (p.books (some id) hand) ((p.removeTask id).books none hand) := by
  rw [books_removeTask]
  exact (Move.retired rfl).leads

omit [Batch.Payload P] in
theorem books_wakeWorker (p : Pipe P) : p.wakeWorker.books running hand = p.books running hand := by
  unfold wakeWorker
  split
  · rename_i found _
    have hwake (t : Task) : t.wake.id = t.id ∧ t.wake.process.items = t.process.items := by
      unfold Task.wake
      split
      · rename_i heq
        exact ⟨rfl, by rw [heq]; rfl⟩
      · exact ⟨rfl, rfl⟩
    have hwoken (t : Task) : (if t.id = found.id then t.wake else t).id = t.id ∧
        (if t.id = found.id then t.wake else t).process.items = t.process.items := by
      split
      · exact hwake t
      · exact ⟨rfl, rfl⟩
    simp only [books, others, List.filter_map, List.map_map, Function.comp_def, hwoken]
    rfl
  · rfl

section Failures

omit [Batch.Payload P]

theorem addFailure_of_closed {e : EventRef} (hclosed : p.connector.closed = true) :
    p.addFailure e = { p with commons := (p.commons.clear e).1 } := by
  simp [addFailure, Connector.addFailure, hclosed]

theorem addFailure_of_released {e : EventRef} (hclosed : p.connector.closed = false)
    (hreleased : p.commons.isReleased e = true) :
    p.addFailure e = p := by
  simp [addFailure, Connector.addFailure, hclosed, hreleased]

def enqueue (p : Pipe P) (e : EventRef) : Pipe P :=
  let entry : RetryEntry := { event := e, readyAt := p.commons.now + p.commons.ledger.retryMs e.id }
  { p with connector := p.connector.withRetryQueue (p.connector.retryQueue ++ [entry]) }

theorem addFailure_of_live {e : EventRef} (hclosed : p.connector.closed = false)
    (hreleased : p.commons.isReleased e = false) :
    p.addFailure e = ((p.enqueue e).note (.queued e)).wakeWorker := by
  simp [addFailure, Connector.addFailure, Connector.withRetryQueue, enqueue, hclosed, hreleased]

theorem books_enqueue (p : Pipe P) (e : EventRef) :
    (p.enqueue e).books running hand = p.books running (.retry e ::ₘ hand) := by
  simp only [books, stored, others, enqueue, Connector.withRetryQueue, List.map_append,
    List.map_cons, List.map_nil, ← Multiset.coe_add, Multiset.coe_singleton,
    ← Multiset.singleton_add]
  congr 1
  ac_rfl

end Failures

/-- An event that failed is queued, or cleared when the connector is closed, or forgotten when it
was released. -/
theorem leads_addFailure (p : Pipe P) (e : EventRef) :
    Leads lossy (p.books running (.failed e ::ₘ hand)) ((p.addFailure e).books running hand) := by
  have hadd : (.failed e ::ₘ hand : Multiset Item) = {.failed e} + hand := rfl
  cases hclosed : p.connector.closed with
  | true =>
      rw [addFailure_of_closed hclosed]
      exact (Move.cleared (books_cons p running _ hand) hclosed).leads
  | false =>
      cases hreleased : p.commons.isReleased e with
      | true =>
          rw [addFailure_of_released hclosed hreleased, hadd]
          have hturn : Leads lossy (p.books running ({.failed e} + hand))
              (p.books running (0 + hand)) := leads_turn (.forgotten hreleased)
          rwa [zero_add] at hturn
      | false =>
          rw [addFailure_of_live hclosed hreleased, books_wakeWorker, hadd]
          refine (leads_turn (.requeued hclosed hreleased)).trans ?_
          exact (Leads.of_eq (books_enqueue p e).symm).trans (leads_note _ hreleased)

theorem leads_fail (p : Pipe P) (increases : Bool) (e : EventRef) :
    Leads lossy (p.books running (.failed e ::ₘ hand))
      ((p.fail increases e).books running hand) := by
  unfold fail
  cases increases with
  | false => exact leads_addFailure p e
  | true =>
      refine Leads.head (.retuned (Ledger.sameHolders_backOff p.commons.ledger e.id)) ?_
      exact leads_addFailure { p with commons := p.commons.backOff e } e

theorem leads_failAll (increases : Bool) (events : List EventRef) :
    Leads lossy (p.books running (↑(events.map Item.failed) + hand))
      ((events.foldl (fun p e => p.fail increases e) p).books running hand) := by
  induction events generalizing p with
  | nil =>
      apply Leads.of_eq
      simp
  | cons e events ih =>
      rw [List.map_cons, ← Multiset.cons_coe, Multiset.cons_add]
      exact (leads_fail p increases e).trans ih

section Removal

omit [Batch.Payload P]

theorem remove_of_same (running : Option TaskId) (hand : Multiset Item) {e found : EventRef}
    (hfound : p.connector.buffered? e.event.commit = some found) (hsame : found.id = e.id) :
    (p.remove e).2 = true ∧ (p.remove e).1.books running hand = { p.books running hand with
      buffer := p.connector.buffer.filter fun entry => entry.1 != e.event.commit } := by
  simp only [remove, Connector.remove, hfound, hsame, if_true]
  exact ⟨trivial, rfl⟩

theorem remove_of_gone (running : Option TaskId) (hand : Multiset Item) {e : EventRef}
    (hgone : ∀ found, p.connector.buffered? e.event.commit = some found → found.id ≠ e.id) :
    (p.remove e).2 = false ∧ (p.remove e).1.books running hand = p.books running hand := by
  cases hfound : p.connector.buffered? e.event.commit with
  | none =>
      simp only [remove, Connector.remove, hfound]
      exact ⟨trivial, rfl⟩
  | some found =>
      simp only [remove, Connector.remove, hfound, if_neg (hgone found hfound)]
      exact ⟨trivial, rfl⟩

theorem buffered_same_or_gone (p : Pipe P) (e : EventRef) :
    (∃ found, p.connector.buffered? e.event.commit = some found ∧ found.id = e.id) ∨
      ∀ found, p.connector.buffered? e.event.commit = some found → found.id ≠ e.id := by
  by_cases h : ∃ found, p.connector.buffered? e.event.commit = some found ∧ found.id = e.id
  · exact .inl h
  · exact .inr fun found hfound hsame => h ⟨found, hfound, hsame⟩

end Removal

/-- A file whose work is done leaves the buffer and gives its reference back. -/
theorem leads_remove_drop {x : Item} {e found : EventRef}
    (hfound : p.connector.buffered? e.event.commit = some found) (hsame : found.id = e.id)
    (why : Done (p.books running (x ::ₘ hand)) x e) :
    Leads lossy (p.books running (x ::ₘ hand)) (((p.remove e).1.drop e).books running hand) := by
  refine Leads.trans ?_ (leads_drop _ e)
  rw [(remove_of_same running (.spent e ::ₘ hand) hfound hsame).2]
  have hfreed : Move lossy _ _ := .freed (books_cons p running x hand) why hfound hsame
  rw [← books_cons p running (.spent e) hand] at hfreed
  exact hfreed.leads

theorem leads_completeTransfer {a : Attempt} {request : Request}
    (took : (p.books running (.attempt a (some (.seal, request)) ::ₘ hand)).Took request) :
    Leads lossy (p.books running (.attempt a (some (.seal, request)) ::ₘ hand))
      ((p.completeTransfer a).books running hand) := by
  unfold completeTransfer
  rcases buffered_same_or_gone p a.event with ⟨found, hfound, hsame⟩ | hgone
  · simp only [(remove_of_same running hand hfound hsame).1, if_true]
    exact leads_remove_drop hfound hsame (.sealed took)
  · have hremove := remove_of_gone running hand hgone
    simp only [hremove.1, Bool.false_eq_true, if_false]
    have hturn : Leads lossy (p.books running ({.attempt a (some (.seal, request))} + hand))
        (p.books running (0 + hand)) := leads_turn (.lapsed took hgone)
    rw [zero_add, ← hremove.2] at hturn
    exact hturn

omit [Batch.Payload P] in
theorem failTransfer_eq (p : Pipe P) (a : Attempt) (error : TransferError) :
    p.failTransfer a error =
      ((p.noteFailure error).1.fail (p.noteFailure error).2 a.event).countRetry := rfl

omit [Batch.Payload P] in
theorem books_countRetry (p : Pipe P) (running : Option TaskId) (hand : Multiset Item) :
    p.countRetry.books running hand = p.books running hand := rfl

theorem leads_noteFailure (p : Pipe P) (error : TransferError) :
    Leads lossy (p.books running hand) ((p.noteFailure error).1.books running hand) :=
  leads_note p trivial

theorem leads_failTransfer {a : Attempt} {asked : Option (Sent × Request)}
    (error : TransferError) :
    Leads lossy (p.books running (.attempt a asked ::ₘ hand))
      ((p.failTransfer a error).books running hand) := by
  rw [failTransfer_eq, books_countRetry]
  have hturn : Leads lossy (p.books running ({.attempt a asked} + hand))
      (p.books running ({.failed a.event} + hand)) := leads_turn .failedAttempt
  exact hturn.trans ((leads_noteFailure p error).trans (leads_fail _ _ a.event))

section Unbooked

omit [Batch.Payload P]

/-- The pipe with other clients. The books know of no client. -/
def withClients (p : Pipe P) (clients : ClientPool) : Pipe P := { p with clients }

def withBuffers (p : Pipe P) (buffers : BufferPool) : Pipe P :=
  { p with connector := { p.connector with buffers } }

def withStats (p : Pipe P) (stats : Metrics.TransferStats) : Pipe P :=
  { p with connector := { p.connector with stats } }

theorem books_withClients (p : Pipe P) (clients : ClientPool) (hand : Multiset Item) :
    (p.withClients clients).books running hand = p.books running hand := rfl

theorem books_withBuffers (p : Pipe P) (buffers : BufferPool) (hand : Multiset Item) :
    (p.withBuffers buffers).books running hand = p.books running hand := rfl

theorem books_withStats (p : Pipe P) (stats : Metrics.TransferStats) (hand : Multiset Item) :
    (p.withStats stats).books running hand = p.books running hand := rfl

/-- The pipe after a transfer returned its buffer and its client. -/
def returned (p : Pipe P) (client : ClientId) (buffer : Nat) : Pipe P :=
  (p.withBuffers (p.connector.buffers.put buffer)).withClients (p.clients.giveBack client)

theorem endTransfer_error (id : TaskId) (a : Attempt) (client : ClientId) (buffer : Nat)
    (error : TransferError) :
    p.endTransfer id a client buffer (.error error) =
      ((p.returned client buffer).failTransfer a error).finishTask id := rfl

theorem endTransfer_ok (id : TaskId) (a : Attempt) (client : ClientId) (buffer : Nat) :
    p.endTransfer id a client buffer (.ok ()) =
      ((p.returned client buffer).completeTransfer a).finishTask id := rfl

end Unbooked

theorem leads_finishTask (p : Pipe P) (id : TaskId) :
    Leads lossy (p.books (some id) hand) ((p.finishTask id).books none hand) :=
  leads_removeTask p id

theorem leads_endTransfer_error (p : Pipe P) (id : TaskId) (a : Attempt)
    (asked : Option (Sent × Request)) (client : ClientId) (buffer : Nat) (error : TransferError) :
    Leads lossy (p.books (some id) {.attempt a asked})
      ((p.endTransfer id a client buffer (.error error)).books none 0) := by
  rw [endTransfer_error]
  refine Leads.trans ?_ (leads_finishTask _ id)
  exact leads_failTransfer (p := p.returned client buffer) error

theorem leads_endTransfer_ok (p : Pipe P) (id : TaskId) (a : Attempt) {request : Request}
    (client : ClientId) (buffer : Nat)
    (took : (p.books (some id) {.attempt a (some (.seal, request))}).Took request) :
    Leads lossy (p.books (some id) {.attempt a (some (.seal, request))})
      ((p.endTransfer id a client buffer (.ok ())).books none 0) := by
  rw [endTransfer_ok]
  refine Leads.trans ?_ (leads_finishTask _ id)
  exact leads_completeTransfer (p := p.returned client buffer) took

theorem leads_send (p : Pipe P) {request : Request}
    (allowed : (p.books running hand).Allows (.requested p.now request)) :
    Leads lossy (p.books running hand) ((p.send request).1.books running hand) :=
  leads_note { p with peer := (p.send request).1.peer } allowed

omit [Batch.Payload P] in
theorem Books.allows_of_isOfFile (b : Books P) (now : Nat) {request : Request}
    (file : request.isOfFile = true) : b.Allows (.requested now request) := by
  cases request with
  | tablets t => cases file
  | _ => trivial

omit [Batch.Payload P] in
theorem Books.allows_tabletRequest (b : Books P) (now : Nat) (p : Pipe P) {t : TabletSend}
    {asked : Option Request} (here : .sending t.events t.payload asked ∈ b.items) :
    b.Allows (.requested now (p.tabletRequest t)) :=
  ⟨_, _, _, here, rfl, rfl, fun e he => by simp only [he]⟩

theorem leads_proceed (p : Pipe P) (id : TaskId) (a : Attempt) (asked : Option (Sent × Request))
    (client : ClientId) (buffer : Nat) (stage : Stage) :
    Leads lossy (p.books (some id) {.attempt a asked})
      ((p.proceed id a client buffer stage).books none 0) := by
  unfold proceed
  cases hnext : a.next p.disk stage with
  | error error => exact leads_endTransfer_error p id a asked client buffer error
  | ok next =>
      obtain ⟨sent, request⟩ := next
      dsimp only
      rw [books_setTask]
      have hturn : Leads lossy (p.books (some id) ({.attempt a asked} + 0))
          (p.books (some id) ({.attempt a (some (sent, request))} + 0)) :=
        leads_turn (.asksPiece hnext)
      exact hturn.trans (leads_send p (Books.allows_of_isOfFile _ _ (Attempt.next_isOfFile hnext)))

omit [Batch.Payload P] in
theorem beginTransfer_eq (p : Pipe P) (id : TaskId) (a : Attempt) (client : ClientId) :
    p.beginTransfer id a client =
      match a.start p.disk with
      | .error error =>
          (p.withBuffers p.connector.buffers.get.1).endTransfer id a client
            (max p.connector.buffers.get.2 a.bufferBytes) (.error error)
      | .ok stage =>
          (p.withBuffers p.connector.buffers.get.1).proceed id a client
            (max p.connector.buffers.get.2 a.bufferBytes) stage := rfl

theorem leads_beginTransfer (p : Pipe P) (id : TaskId) (a : Attempt)
    (asked : Option (Sent × Request)) (client : ClientId) :
    Leads lossy (p.books (some id) {.attempt a asked})
      ((p.beginTransfer id a client).books none 0) := by
  rw [beginTransfer_eq, ← books_withBuffers p p.connector.buffers.get.1]
  split
  · exact leads_endTransfer_error _ id a asked client _ _
  · exact leads_proceed _ id a asked client _ _

omit [Batch.Payload P] in
theorem askForTransfer_eq (p : Pipe P) (id : TaskId) (a : Attempt) :
    p.askForTransfer id a =
      match (p.clients.ask id).2 with
      | some client => (p.withClients (p.clients.ask id).1).beginTransfer id a client
      | none => (p.withClients (p.clients.ask id).1).setTask id (.transfer a .waiting) := rfl

theorem leads_askForTransfer (p : Pipe P) (id : TaskId) (a : Attempt) :
    Leads lossy (p.books (some id) {.attempt a none}) ((p.askForTransfer id a).books none 0) := by
  rw [askForTransfer_eq, ← books_withClients p (p.clients.ask id).1]
  split
  · exact leads_beginTransfer _ id a none _
  · rw [books_setTask]
    exact .refl _

/-- What a look at an exchange finds is written down when it is an end. -/
theorem look_cases (p : Pipe P) (x : Exchange) :
    (∃ p' y, p.look x = (p', .pending y) ∧ y.request = x.request ∧
      ∀ running hand, p'.books running hand = p.books running hand) ∨
    ∃ p' result, p.look x = (p', .done result) ∧
      .answered x.request result ∈ p'.trace ∧
      ∀ running hand, Leads lossy (p.books running hand) (p'.books running hand) := by
  unfold look
  cases hlook : x.look p.peer p.disk p.now with
  | mk peer rest =>
      obtain ⟨disk, progress⟩ := rest
      cases progress with
      | pending y => exact .inl ⟨_, y, rfl, (Exchange.look_pending hlook).1, fun _ _ => rfl⟩
      | done result =>
          exact .inr ⟨_, result, rfl, List.mem_cons_self ..,
            fun _ _ => leads_note { p with peer, disk } trivial⟩

/-- What the pipe writes down when a request was taken. -/
def noteTaken (p : Pipe P) (x : Exchange) (r : Response) : Pipe P :=
  if r.resetOffset.isSome then p else p.note (.accepted x.request)

theorem leads_noteTaken (p : Pipe P) (x : Exchange) (r : Response) :
    Leads lossy (p.books running hand) ((p.noteTaken x r).books running hand) := by
  unfold noteTaken
  split
  · exact .refl _
  · exact leads_note p trivial

omit [Batch.Payload P] in
/-- What was written down stays, and so does the policy. -/
theorem took_noted {x : Exchange} {r r' : Response} {name : String} {judgement : Option Judgement}
    (answered : .answered x.request (.ok r) ∈ p.trace)
    (taken : r.isTaken p.connector.statusPolicy name = true) :
    (((p.noteJudgement judgement).noteTaken x r').books running hand).Took x.request := by
  refine ⟨r, name, ?_, ?_⟩
  · cases judgement <;> simp only [noteJudgement, noteTaken] <;> split <;>
      simp [books, note, answered]
  · cases judgement <;> simp only [noteJudgement, noteTaken] <;> split <;> exact taken

omit [Batch.Payload P] in
theorem answerTransfer_eq (p : Pipe P) (id : TaskId) {a : Attempt} (client : ClientId)
    {pending : Pending} {x : Exchange} {r : Response} {verdict : Verdict}
    (hverdict : a.receive p.connector.statusPolicy p.connector.stats
      (p.commons.elapsed x.sentAt) pending.sent r = verdict) :
    p.answerTransfer id a client pending x r =
      match verdict.result with
      | .error error =>
          ((p.withStats verdict.stats).noteJudgement verdict.judgement).endTransfer id a client
            pending.buffer (.error error)
      | .ok none =>
          (((p.withStats verdict.stats).noteJudgement verdict.judgement).noteTaken x r).endTransfer
            id a client pending.buffer (.ok ())
      | .ok (some stage) =>
          (((p.withStats verdict.stats).noteJudgement verdict.judgement).noteTaken x r).proceed
            id a client pending.buffer stage := by
  unfold answerTransfer
  rw [hverdict]
  dsimp only
  cases verdict.result with
  | error error => rfl
  | ok stage? => cases stage? <;> rfl

theorem leads_answerTransfer (p : Pipe P) (id : TaskId) (a : Attempt) (client : ClientId)
    (pending : Pending) (x : Exchange) {r : Response}
    (answered : .answered x.request (.ok r) ∈ p.trace) :
    Leads lossy (p.books (some id) {.attempt a (some (pending.sent, x.request))})
      ((p.answerTransfer id a client pending x r).books none 0) := by
  obtain ⟨verdict, hverdict⟩ : ∃ verdict, a.receive p.connector.statusPolicy p.connector.stats
      (p.commons.elapsed x.sentAt) pending.sent r = verdict := ⟨_, rfl⟩
  rw [answerTransfer_eq p id client hverdict, ← books_withStats p verdict.stats]
  refine (leads_noteJudgement _ verdict.judgement).trans ?_
  cases hresult : verdict.result with
  | error error => exact leads_endTransfer_error _ id a _ client pending.buffer error
  | ok stage? =>
      refine (leads_noteTaken _ x r).trans ?_
      cases stage? with
      | some stage => exact leads_proceed _ id a _ client pending.buffer stage
      | none =>
          rw [← hverdict] at hresult
          obtain ⟨hsent, name, taken⟩ := Attempt.receive_complete hresult
          rw [hsent]
          exact leads_endTransfer_ok _ id a client pending.buffer (took_noted answered taken)

theorem leads_runTransfer (p : Pipe P) (id : TaskId) (a : Attempt) (link : Link Pending) :
    Leads lossy (p.books (some id) {.attempt a link.asked?})
      ((p.runTransfer id a link).books none 0) := by
  cases link with
  | asking => exact leads_askForTransfer p id a
  | waiting => exact leads_askForTransfer p id a
  | exchanging client x pending =>
      rcases look_cases p x with ⟨p', y, hlook, hrequest, hbooks⟩ |
        ⟨p', result, hlook, hnoted, hleads⟩
      · simp only [runTransfer, hlook]
        have hasked : (Link.exchanging client x pending).asked? =
            (Link.exchanging client y pending).asked? := by
          simp only [Link.asked?, hrequest]
        rw [books_setTask, hbooks, hasked]
        exact .refl _
      · simp only [runTransfer, hlook]
        refine (hleads _ _).trans ?_
        cases result with
        | error error => exact leads_endTransfer_error p' id a _ client pending.buffer _
        | ok r => exact leads_answerTransfer p' id a client pending x hnoted

omit [Batch.Payload P] in
theorem askForTablets_eq (p : Pipe P) (id : TaskId) (t : TabletSend) :
    p.askForTablets id t =
      match (p.clients.ask id).2 with
      | none => (p.withClients (p.clients.ask id).1).setTask id (.tablets t .waiting)
      | some client =>
          let sent := (p.withClients (p.clients.ask id).1).send (p.tabletRequest t)
          sent.1.setTask id (.tablets t (.exchanging client sent.2 ())) := rfl

theorem leads_askForTablets (p : Pipe P) (id : TaskId) (t : TabletSend) :
    Leads lossy (p.books (some id) (.sending t.events t.payload none ::ₘ t.purpose.items))
      ((p.askForTablets id t).books none 0) := by
  rw [askForTablets_eq, ← books_withClients p (p.clients.ask id).1]
  generalize p.withClients (p.clients.ask id).1 = p'
  cases (p.clients.ask id).2 with
  | none =>
      dsimp only
      rw [books_setTask, add_zero]
      exact .refl _
  | some client =>
      have hturn : Leads lossy
          (p'.books (some id) ({.sending t.events t.payload none} + t.purpose.items))
          (p'.books (some id) ({.sending t.events t.payload (some (p.tabletRequest t))} +
            t.purpose.items)) := leads_turn (.asksTablets rfl)
      have hhere : .sending t.events t.payload (some (p.tabletRequest t)) ∈
          (p'.books (some id) ({.sending t.events t.payload (some (p.tabletRequest t))} +
            t.purpose.items)).items :=
        books_add p' _ _ _ ▸ Multiset.mem_add.mpr (.inl (Multiset.mem_singleton_self _))
      dsimp only
      rw [books_setTask, add_zero]
      exact hturn.trans (leads_send p' (Books.allows_tabletRequest _ _ p hhere))

/-- A batch that was taken has an answer that says so. -/
theorem leads_judgeTablets (p : Pipe P) (x : Exchange) {result : Except ClientError Response}
    (answered : .answered x.request result ∈ p.trace) :
    (∀ running hand,
      Leads lossy (p.books running hand) ((p.judgeTablets x result).1.books running hand)) ∧
    ((p.judgeTablets x result).2 = .ok () →
      ∀ running hand, ((p.judgeTablets x result).1.books running hand).Took x.request) := by
  cases result with
  | error error => exact ⟨fun _ _ => .refl _, fun h => by cases h⟩
  | ok r =>
      obtain ⟨verdict, hverdict⟩ : ∃ verdict,
          judge p.connector.statusPolicy x.request.name r = verdict := ⟨_, rfl⟩
      obtain ⟨judgement, result⟩ := verdict
      simp only [judgeTablets, hverdict]
      cases result with
      | error error => exact ⟨fun _ _ => leads_noteJudgement p judgement, fun h => by cases h⟩
      | ok _ =>
          refine ⟨fun _ _ => (leads_noteJudgement p judgement).trans (leads_note _ trivial), ?_⟩
          intro _ running hand
          have taken := Attempt.isTaken_of_judge (congrArg Prod.snd hverdict)
          refine ⟨r, x.request.name, ?_, ?_⟩
          · cases judgement <;> simp [books, note, noteJudgement, answered]
          · cases judgement <;> exact taken

theorem leads_settleTablets_ok (p : Pipe P) (t : TabletSend) {request : Request}
    (took : (p.books running (.sending t.events t.payload (some request) ::ₘ hand)).Took request) :
    Leads lossy (p.books running (.sending t.events t.payload (some request) ::ₘ hand))
      ((p.settleTablets t (.ok ())).books running hand) := by
  have hsettle : p.settleTablets t (.ok ()) =
      (p.withStats (p.connector.stats.recordBatch t.events.length)).dropAll t.events := rfl
  rw [hsettle]
  refine Leads.trans ?_ (leads_dropAll t.events)
  rw [books_withStats]
  exact leads_turn (.acknowledged took)

theorem leads_settleTablets_error (p : Pipe P) (t : TabletSend) (asked : Option Request)
    (error : TransferError) :
    Leads lossy (p.books running (.sending t.events t.payload asked ::ₘ hand))
      ((p.settleTablets t (.error error)).books running hand) := by
  have hturn : Leads lossy (p.books running ({.sending t.events t.payload asked} + hand))
      (p.books running (↑(t.events.map Item.failed) + hand)) := leads_turn .failedTablets
  exact hturn.trans ((leads_noteFailure p error).trans
    (leads_failAll (p.noteFailure error).2 t.events))

end Pipe
end Courier
