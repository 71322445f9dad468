import Courier.Proofs.Pipe.Requests
import Courier.Proofs.Queue.Channels

/-!
The moves behind the consumer of a pipe. An event that was offered waits in the queue, in the hand
or before the batch until it is routed; then the reference it came with is dropped.
-/

namespace Courier

open Transfer

namespace Pipe

variable {P : Type} {p : Pipe P} {running : Option TaskId} {hand : Multiset Item}

def withLedger (p : Pipe P) (ledger : Ledger) : Pipe P :=
  { p with commons := { p.commons with ledger } }

/-- The pipe that took a file on, before its transfer starts. -/
def accept (p : Pipe P) (e : EventRef) : Pipe P :=
  { p with
    connector := (p.connector.withBuffer
      (p.connector.buffer ++ [(e.event.commit, e)])).startTask
    commons := { (p.commons.hold e).1 with slots := p.commons.slots.acquire }.resetRetry e
      p.connector.settings.initialRetryMs }

theorem transferFile_of_closed {e : EventRef} (hclosed : p.connector.closed = true) :
    p.transferFile e = (p, .error .closed) := by
  simp [transferFile, takeOn, Connector.takeOn, hclosed]

theorem transferFile_of_unnamed {e : EventRef} {error : TransferError}
    (hclosed : p.connector.closed = false)
    (hprepare : Attempt.prepare e p.connector.settings p.commons.now = .error error) :
    p.transferFile e = (p, .error (.transfer error)) := by
  simp [transferFile, takeOn, Connector.takeOn, hclosed, hprepare]

theorem transferFile_of_gone {e : EventRef} {a : Attempt} (hclosed : p.connector.closed = false)
    (hprepare : Attempt.prepare e p.connector.settings p.commons.now = .ok a)
    (hhold : (p.commons.ledger.hold e.id).2 = false) :
    p.transferFile e = (p.withLedger (p.commons.ledger.hold e.id).1, .ok false) := by
  simp [transferFile, takeOn, Connector.takeOn, hclosed, hprepare, Commons.hold, hhold, withLedger]

theorem transferFile_of_buffered {e : EventRef} {a : Attempt} (hclosed : p.connector.closed = false)
    (hprepare : Attempt.prepare e p.connector.settings p.commons.now = .ok a)
    (hhold : (p.commons.ledger.hold e.id).2 = true)
    (hbuffered : (p.connector.buffered? e.event.commit).isSome = true) :
    p.transferFile e = ((p.withLedger (p.commons.ledger.hold e.id).1).drop e, .ok false) := by
  simp [transferFile, takeOn, Connector.takeOn, hclosed, hprepare, Commons.hold, hhold, hbuffered,
    withLedger, drop]

theorem transferFile_of_free {e : EventRef} {a : Attempt} (hclosed : p.connector.closed = false)
    (hprepare : Attempt.prepare e p.connector.settings p.commons.now = .ok a)
    (hhold : (p.commons.ledger.hold e.id).2 = true)
    (hfree : p.connector.buffered? e.event.commit = none) :
    p.transferFile e = ((p.accept e).spawn (.transfer a .asking), .ok true) := by
  simp [transferFile, takeOn, Connector.takeOn, hclosed, hprepare, Commons.hold, hhold, hfree,
    accept]

/-- What becomes of a file that is to be taken on. -/
@[elab_as_elim]
theorem transferFile_cases {motive : Pipe P × Except ConnectorError Bool → Prop} (p : Pipe P)
    (e : EventRef) (refused : ∀ error, motive (p, .error error))
    (gone : (p.commons.ledger.hold e.id).2 = false →
      motive (p.withLedger (p.commons.ledger.hold e.id).1, .ok false))
    (buffered : (p.commons.ledger.hold e.id).2 = true →
      motive ((p.withLedger (p.commons.ledger.hold e.id).1).drop e, .ok false))
    (accepted : ∀ a, p.connector.closed = false →
      Attempt.prepare e p.connector.settings p.commons.now = .ok a →
      p.connector.buffered? e.event.commit = none →
      motive ((p.accept e).spawn (.transfer a .asking), .ok true)) :
    motive (p.transferFile e) := by
  cases hclosed : p.connector.closed with
  | true => exact transferFile_of_closed hclosed ▸ refused _
  | false =>
  cases hprepare : Attempt.prepare e p.connector.settings p.commons.now with
  | error error => exact transferFile_of_unnamed hclosed hprepare ▸ refused _
  | ok a =>
  cases hhold : (p.commons.ledger.hold e.id).2 with
  | false => exact transferFile_of_gone hclosed hprepare hhold ▸ gone hhold
  | true =>
  cases hbuffered : p.connector.buffered? e.event.commit with
  | some found =>
      have hsome : (p.connector.buffered? e.event.commit).isSome = true := by rw [hbuffered]; rfl
      exact transferFile_of_buffered hclosed hprepare hhold hsome ▸ buffered hhold
  | none =>
      exact transferFile_of_free hclosed hprepare hhold hbuffered ▸
        accepted a hclosed hprepare hbuffered

variable [Batch.Payload P] {lossy : Prop}

theorem leads_spawn (p : Pipe P) (process : Process) :
    Leads lossy (p.books running (process.items + hand))
      ((p.spawn process).books running hand) := by
  intro hnumbered
  have hrunning : running ≠ some p.nextTask := by
    intro hsome
    have hlt := hnumbered.2 p.nextTask (by simp [books, hsome])
    exact Nat.lt_irrefl _ hlt
  rw [books_spawn process hrunning]
  exact .single .spawned

theorem leads_drop_routed {e : EventRef}
    (why : Routed (p.books running (.waiting e ::ₘ hand)) e) :
    Leads lossy (p.books running (.waiting e ::ₘ hand)) ((p.drop e).books running hand) := by
  have hturn : Leads lossy (p.books running ({.waiting e} + hand))
      (p.books running ({.spent e} + hand)) := leads_turn (.routed why)
  exact hturn.trans (leads_drop p e)

omit [Batch.Payload P] in
theorem lookup_append_self (buffer : List (CommitId × EventRef)) (commit : CommitId)
    (e : EventRef) :
    ((buffer ++ [(commit, e)]).lookup commit).isSome = true := by
  rw [List.lookup_append]
  cases buffer.lookup commit <;> simp

/-- Whether a file is taken on or not, it need not wait any longer. -/
theorem leads_transferFile (p : Pipe P) {e : EventRef}
    (mentioned : (p.books running hand).Mentions e) :
    Leads lossy (p.books running hand) ((p.transferFile e).1.books running hand) ∧
      (e.event.isBulk = true → Routed ((p.transferFile e).1.books running hand) e) := by
  cases hclosed : p.connector.closed with
  | true =>
      rw [transferFile_of_closed hclosed]
      exact ⟨.refl _, fun _ => .closed hclosed⟩
  | false =>
  cases hprepare : Attempt.prepare e p.connector.settings p.commons.now with
  | error error =>
      rw [transferFile_of_unnamed hclosed hprepare]
      exact ⟨.refl _, fun hbulk => .unnamed hbulk hprepare⟩
  | ok a =>
  cases hhold : (p.commons.ledger.hold e.id).2 with
  | false =>
      rw [transferFile_of_gone hclosed hprepare hhold]
      obtain ⟨hzero, hsame⟩ := Ledger.hold_fails hhold
      refine ⟨(Move.retuned hsame).leads, fun _ => .gone ?_⟩
      exact (hsame.count e.id).trans hzero
  | true =>
  cases hbuffered : p.connector.buffered? e.event.commit with
  | some found =>
      have hsome : (p.connector.buffered? e.event.commit).isSome = true := by rw [hbuffered]; rfl
      rw [transferFile_of_buffered hclosed hprepare hhold hsome]
      refine ⟨?_, fun hbulk => .buffered hbulk hsome⟩
      have hheld : Move lossy _ _ := .held mentioned hhold
      rw [← books_cons] at hheld
      exact hheld.leads.trans (leads_drop (p.withLedger _) e)
  | none =>
      rw [transferFile_of_free hclosed hprepare hhold hbuffered]
      refine ⟨?_, fun hbulk => .buffered hbulk (lookup_append_self _ _ _)⟩
      have htaken : Move lossy _ _ := .takenOn mentioned hclosed hprepare hhold hbuffered
      rw [← books_cons] at htaken
      have htuned : Move lossy
          { (p.accept e).books running (.attempt a none ::ₘ hand) with
            ledger := (p.commons.ledger.hold e.id).1 }
          ((p.accept e).books running (.attempt a none ::ₘ hand)) :=
        .retuned (Ledger.sameHolders_resetRetry _ e.id p.connector.settings.initialRetryMs)
      refine Leads.head htaken (Leads.head htuned ?_)
      exact leads_spawn (p.accept e) (.transfer a .asking)

section Unbooked

omit [Batch.Payload P]

theorem books_afterDispatch (p : Pipe P) (id : TaskId) (loop : Bool) :
    (p.afterDispatch id loop).books none hand = p.books (some id) hand := by
  unfold afterDispatch
  rw [books_setTask]
  cases loop <;> exact congrArg _ (zero_add hand)

/-- The pauses of the events of a batch start over, and nothing else of them changes. -/
theorem commons_resetRetry (events : List EventRef) (ms : Nat) (commons : Commons) :
    events.foldl (fun c e => c.resetRetry e ms) commons =
      { commons with
        ledger := events.foldl (fun l e => l.resetRetry e.id ms) commons.ledger } := by
  induction events generalizing commons with
  | nil => rfl
  | cons e events ih => exact ih (commons.resetRetry e ms)

theorem sameHolders_resetAll (events : List EventRef) (ms : Nat) (ledger : Ledger) :
    ledger.SameHolders (events.foldl (fun l e => l.resetRetry e.id ms) ledger) := by
  induction events generalizing ledger with
  | nil => exact .refl ledger
  | cons e events ih => exact (Ledger.sameHolders_resetRetry ledger e.id ms).trans (ih _)

theorem submit_eq (p : Pipe P) (id : TaskId) (t : TabletSend) :
    p.submit id t = (p.withLedger (t.events.foldl
      (fun l e => l.resetRetry e.id p.connector.settings.initialRetryMs)
        p.commons.ledger)).askForTablets id t := by
  unfold submit
  dsimp only
  rw [commons_resetRetry]
  rfl

end Unbooked

/-- Drops the reference of an event that was offered and is dispatched. -/
theorem leads_afterFlush (p : Pipe P) (id : TaskId) (after : After) :
    Leads lossy (p.books (some id) after.items) ((p.afterFlush id after).books none 0) := by
  cases after with
  | dispatched e loop =>
      simp only [afterFlush]
      rw [books_afterDispatch]
      have hdrop : Leads lossy (p.books (some id) (.spent e ::ₘ 0))
          ((p.drop e).books (some id) 0) := leads_drop p e
      exact hdrop
  | due =>
      simp only [afterFlush]
      rw [books_setTask]
      exact .refl _
  | stop => exact leads_removeTask p id
  | file e loop =>
      have hfile : (p.afterFlush id (.file e loop)).books none 0 =
          ((p.transferFile e).1.drop e).books (some id) 0 := by
        simp only [afterFlush]
        split <;> rename_i heq <;> rw [heq, books_afterDispatch]
        rfl
      rw [hfile]
      cases hbulk : e.event.isBulk with
      | true =>
          have hitems : (After.file e loop).items = {.waiting e} := by simp [After.items, hbulk]
          have hmentioned : (p.books (some id) {.waiting e}).Mentions e :=
            .inl ⟨.waiting e, by simp [books], rfl⟩
          obtain ⟨hleads, hrouted⟩ := leads_transferFile p hmentioned
          rw [hitems]
          exact hleads.trans (leads_drop_routed (hrouted hbulk))
      | false =>
          have hitems : (After.file e loop).items = {.spent e} := by simp [After.items, hbulk]
          have hmentioned : (p.books (some id) {.spent e}).Mentions e :=
            .inl ⟨.spent e, by simp [books], rfl⟩
          rw [hitems]
          exact (leads_transferFile p hmentioned).1.trans (leads_drop _ e)

theorem leads_submit (p : Pipe P) (id : TaskId) (t : TabletSend) :
    Leads lossy (p.books (some id) (.sending t.events t.payload none ::ₘ t.purpose.items))
      ((p.submit id t).books none 0) := by
  rw [submit_eq]
  refine Leads.head (.retuned (sameHolders_resetAll t.events
    p.connector.settings.initialRetryMs p.commons.ledger)) ?_
  exact leads_askForTablets (p.withLedger _) id t

def emit (p : Pipe P) : Pipe P :=
  { p with batch := (p.batch.take p.commons).1, commons := (p.batch.take p.commons).2.1 }

/-- What the batch held is in the hand of the one who sends it. -/
theorem leads_emit (p : Pipe P) :
    Leads lossy (p.books running hand) (p.emit.books running
      (.sending p.batch.events (Batch.Payload.take p.batch.payload).2 none ::ₘ hand)) := by
  have hemitted : Move lossy (p.books running hand) _ := .emitted
  rw [← books_cons] at hemitted
  exact hemitted.leads

theorem flush_eq (p : Pipe P) (id : TaskId) (after : After) :
    p.flush id after =
      if p.batch.events.isEmpty then p.emit.afterFlush id after
      else if p.connector.closed then
        (p.emit.dropAll p.batch.events).countFailure.afterFlush id after
      else
        p.emit.submit id {
          events := p.batch.events
          payload := (Batch.Payload.take p.batch.payload).2
          purpose := .flush after } := rfl

theorem leads_flush (p : Pipe P) (id : TaskId) (after : After) :
    Leads lossy (p.books (some id) after.items) ((p.flush id after).books none 0) := by
  have habandon (why : p.batch.events = [] ∨ p.connector.closed = true) :
      Leads lossy (p.books (some id) after.items)
        (p.emit.books (some id) (↑(p.batch.events.map Item.spent) + after.items)) := by
    have hturn : Leads lossy
        (p.emit.books (some id)
          ({.sending p.batch.events (Batch.Payload.take p.batch.payload).2 none} + after.items))
        (p.emit.books (some id) (↑(p.batch.events.map Item.spent) + after.items)) :=
      leads_turn (.abandoned why)
    exact (leads_emit p).trans hturn
  rw [flush_eq]
  split
  · rename_i hempty
    have hnil : p.batch.events = [] := List.isEmpty_iff.mp hempty
    have hleads := habandon (.inl hnil)
    rw [hnil, List.map_nil, Multiset.coe_nil, zero_add] at hleads
    exact hleads.trans (leads_afterFlush _ id after)
  · split
    · rename_i hclosed
      have hdropped : Leads lossy (p.books (some id) after.items)
          ((p.emit.dropAll p.batch.events).countFailure.books (some id) after.items) :=
        (habandon (.inr hclosed)).trans (leads_dropAll p.batch.events)
      exact hdropped.trans (leads_afterFlush _ id after)
    · exact (leads_emit p).trans (leads_submit p.emit id {
        events := p.batch.events
        payload := (Batch.Payload.take p.batch.payload).2
        purpose := .flush after })

def checked (p : Pipe P) : Pipe P :=
  { p with batch := (p.batch.checkDue p.commons).1, commons := (p.batch.checkDue p.commons).2.1 }

/-- To find a batch due changes nothing in it. -/
theorem batch_checkDue (b : Batch.Accumulator P) (commons : Commons) :
    (b.checkDue commons).1.events = b.events ∧ (b.checkDue commons).1.payload = b.payload ∧
      (b.checkDue commons).1.closed = b.closed ∧
      (b.checkDue commons).2.1.ledger = commons.ledger := by
  unfold Batch.Accumulator.checkDue
  split
  · exact ⟨rfl, rfl, rfl, rfl⟩
  · split <;> exact ⟨rfl, rfl, rfl, rfl⟩

theorem closed_add (b : Batch.Accumulator P) (commons : Commons) (e : EventRef) :
    (b.add commons e).1.closed = b.closed := by
  unfold Batch.Accumulator.add
  split
  · rfl
  · split <;> rfl

theorem closed_onEvent (b : Batch.Accumulator P) (commons : Commons) (e : EventRef) :
    (b.onEvent commons e).1.closed = b.closed := by
  cases hclosed : b.closed with
  | true => simp [Batch.Accumulator.onEvent, hclosed]
  | false =>
      have hadd := (closed_add b commons e).trans hclosed
      cases hends : b.endsWith e <;> cases herror : (b.add commons e).2.2 <;>
        simp [Batch.Accumulator.onEvent, hclosed, hends, herror, batch_checkDue, hadd]

/-- A closed batch turns nothing away for another time. -/
theorem open_of_onEvent {b : Batch.Accumulator P} {commons : Commons} {e : EventRef}
    {error : Batch.BatchError} (h : (b.onEvent commons e).2.2 = .error error) :
    b.closed = false := by
  refine Bool.eq_false_iff.mpr fun hclosed => ?_
  simp [Batch.Accumulator.onEvent, hclosed] at h

theorem books_checked (p : Pipe P) : p.checked.books running hand = p.books running hand := by
  obtain ⟨hevents, hpayload, hclosed, hledger⟩ := batch_checkDue p.batch p.commons
  simp only [books, checked, hevents, hpayload, hclosed, hledger]
  rfl

/-- The pipe whose batch was offered an event that it did not take last. -/
def added (p : Pipe P) (e : EventRef) : Pipe P :=
  { p with
    batch := (p.batch.add p.commons e).1
    commons := (p.batch.add p.commons e).2.1 }

variable (lossy) in
/-- The batch keeps an event with a reference of its own, or takes no reference. -/
theorem leads_added (p : Pipe P) {e : EventRef} (light : e.event.isBulk = false)
    (batchOpen : p.batch.closed = false) (running : Option TaskId) (hand : Multiset Item) :
    Leads lossy (p.books running (.waiting e ::ₘ hand))
        ((p.added e).books running (.waiting e ::ₘ hand)) ∧
      match (p.batch.add p.commons e).2.2 with
      | none => Routed ((p.added e).books running (.waiting e ::ₘ hand)) e
      | some error =>
          ∃ payload : P, (Batch.Payload.construct payload e.event).2 = .error error := by
  have hmentioned : (p.books running (.waiting e ::ₘ hand)).Mentions e :=
    .inl ⟨.waiting e, by simp [books_cons], rfl⟩
  cases hhold : (p.commons.ledger.hold e.id).2 with
  | false =>
      obtain ⟨hzero, hsame⟩ := Ledger.hold_fails hhold
      have hadd : p.batch.add p.commons e =
          (p.batch, { p.commons with ledger := (p.commons.ledger.hold e.id).1 }, none) := by
        simp [Batch.Accumulator.add, Commons.hold, hhold]
      simp only [added, hadd]
      exact ⟨(Move.retuned hsame).leads, .gone ((hsame.count e.id).trans hzero)⟩
  | true =>
  have hheld : Move lossy _ _ := .held hmentioned hhold
  cases hconstruct : Batch.Payload.construct p.batch.payload e.event with
  | mk payload result =>
  by_cases hresult : result = .ok true
  · subst hresult
    have hadd : p.batch.add p.commons e = ((p.batch.keep (p.commons.hold e).1 e payload).1,
        (p.batch.keep (p.commons.hold e).1 e payload).2, none) := by
      simp [Batch.Accumulator.add, Commons.hold, hhold, hconstruct]
    simp only [added, hadd]
    have hlive := Ledger.count_pos_of_hold hhold
    refine ⟨Leads.head hheld (Move.kept rfl light batchOpen hlive hconstruct).leads, .kept e ?_ rfl⟩
    exact List.mem_append_right _ (List.mem_singleton.mpr rfl)
  · have htried : Move lossy
        { p.books running (.waiting e ::ₘ hand) with
          ledger := (p.commons.ledger.hold e.id).1
          items := .spent e ::ₘ (p.books running (.waiting e ::ₘ hand)).items } _ :=
      .tried hconstruct hresult
    cases result with
    | ok took =>
        cases took with
        | true => exact absurd rfl hresult
        | false =>
            have hadd : p.batch.add p.commons e =
                ({ p.batch with payload }, ((p.commons.hold e).1.drop e).1, none) := by
              simp [Batch.Accumulator.add, Commons.hold, hhold, hconstruct]
            simp only [added, hadd]
            refine ⟨Leads.head hheld (Leads.head htried (Move.dropped rfl).leads), ?_⟩
            exact .empty p.batch.payload (congrArg Prod.snd hconstruct)
    | error error =>
        have hadd : p.batch.add p.commons e =
            ({ p.batch with payload }, ((p.commons.hold e).1.drop e).1, some error) := by
          simp [Batch.Accumulator.add, Commons.hold, hhold, hconstruct]
        simp only [added, hadd]
        refine ⟨Leads.head hheld (Leads.head htried (Move.dropped rfl).leads), ?_⟩
        exact ⟨p.batch.payload, congrArg Prod.snd hconstruct⟩

def offeredBatch (p : Pipe P) (e : EventRef) : Pipe P :=
  { p with
    batch := (p.batch.onEvent p.commons e).1
    commons := (p.batch.onEvent p.commons e).2.1 }

variable (lossy) in
theorem leads_offeredBatch (p : Pipe P) {e : EventRef} (light : e.event.isBulk = false)
    (running : Option TaskId) (hand : Multiset Item) :
    Leads lossy (p.books running (.waiting e ::ₘ hand))
        ((p.offeredBatch e).books running (.waiting e ::ₘ hand)) ∧
      match (p.batch.onEvent p.commons e).2.2 with
      | .ok _ => Routed ((p.offeredBatch e).books running (.waiting e ::ₘ hand)) e
      | .error error =>
          ∃ payload : P, (Batch.Payload.construct payload e.event).2 = .error error := by
  cases hclosed : p.batch.closed with
  | true =>
      have hon : p.batch.onEvent p.commons e = (p.batch, p.commons, .ok false) := by
        simp [Batch.Accumulator.onEvent, hclosed]
      simp only [offeredBatch, hon]
      exact ⟨.refl _, .batchClosed hclosed⟩
  | false =>
  cases hends : p.batch.endsWith e with
  | true =>
      have hon : p.batch.onEvent p.commons e = ((p.batch.checkDue p.commons).1,
          (p.batch.checkDue p.commons).2.1, .ok (p.batch.checkDue p.commons).2.2) := by
        simp [Batch.Accumulator.onEvent, hclosed, hends]
      have hlast : ∃ last ∈ p.batch.events, last.id = e.id := by
        unfold Batch.Accumulator.endsWith at hends
        split at hends
        · rename_i last hlast
          exact ⟨last, List.mem_of_getLast? hlast, by simpa using hends⟩
        · cases hends
      obtain ⟨last, hmem, hsame⟩ := hlast
      have hchecked : p.offeredBatch e = p.checked := by simp only [offeredBatch, hon, checked]
      rw [hchecked, books_checked, hon]
      exact ⟨.refl _, .kept last hmem hsame⟩
  | false =>
      have hadded := leads_added lossy p light hclosed running hand
      cases herror : (p.batch.add p.commons e).2.2 with
      | some error =>
          have hon : p.batch.onEvent p.commons e = ((p.batch.add p.commons e).1,
              (p.batch.add p.commons e).2.1, .error error) := by
            simp [Batch.Accumulator.onEvent, hclosed, hends, herror]
          rw [herror] at hadded
          simp only [offeredBatch, hon]
          exact hadded
      | none =>
          have hon : p.batch.onEvent p.commons e =
              (((p.added e).batch.checkDue (p.added e).commons).1,
              ((p.added e).batch.checkDue (p.added e).commons).2.1,
              .ok ((p.added e).batch.checkDue (p.added e).commons).2.2) := by
            simp [Batch.Accumulator.onEvent, hclosed, hends, herror, added]
          have hchecked : p.offeredBatch e = (p.added e).checked := by
            simp only [offeredBatch, hon, checked]
            rfl
          rw [herror] at hadded
          rw [hchecked, books_checked, hon]
          exact hadded

/-- An event is dispatched, and the batch is sent if it is due. -/
def dispatched (p : Pipe P) (id : TaskId) (e : EventRef) (loop due : Bool) : Pipe P :=
  if due then p.flush id (.dispatched e loop) else (p.drop e).afterDispatch id loop

theorem leads_dispatched (p : Pipe P) (id : TaskId) {e : EventRef} (loop due : Bool)
    (why : Routed (p.books (some id) {.waiting e}) e) :
    Leads lossy (p.books (some id) {.waiting e})
      ((p.dispatched id e loop due).books none 0) := by
  cases due with
  | false =>
      have hdropped : (p.dispatched id e loop false).books none 0 = (p.drop e).books (some id) 0 :=
        books_afterDispatch (p.drop e) id loop
      rw [hdropped]
      exact leads_drop_routed why
  | true =>
      have hturn : Leads lossy (p.books (some id) ({.waiting e} + 0))
          (p.books (some id) ({.spent e} + 0)) := leads_turn (.routed why)
      exact hturn.trans (leads_flush p id (.dispatched e loop))

/-- The pipe with a tablet in the place of one that is offered again. -/
def defer (p : Pipe P) (e : EventRef) : Pipe P := { p with pending := some e }

def withoutPending (p : Pipe P) : Pipe P := { p with pending := none }

omit [Batch.Payload P] in
theorem books_pending {first : EventRef} (h : p.pending = some first) :
    p.books running hand = p.withoutPending.books running (.deferred first ::ₘ hand) := by
  simp only [books, stored, others, withoutPending, h]
  congr 1
  simp only [Option.toList, List.map_cons, List.map_nil, Multiset.coe_nil, Multiset.coe_singleton,
    ← Multiset.singleton_add]
  ac_rfl

theorem leads_defer (p : Pipe P) (e : EventRef) (room : lossy ∨ p.pending = none) :
    Leads lossy (p.books running (.deferred e ::ₘ hand)) ((p.defer e).books running hand) := by
  have hdefer : (p.defer e).books running hand =
      p.withoutPending.books running (.deferred e ::ₘ hand) := books_pending rfl
  rw [hdefer]
  cases hpending : p.pending with
  | none =>
      have hsame : p.withoutPending = p := by rw [withoutPending, ← hpending]
      rw [hsame]
      exact .refl _
  | some first =>
      -- The tablet that was there before has no place any more.
      have crowded : lossy := by
        rcases room with crowded | hnone
        · exact crowded
        · rw [hpending] at hnone
          cases hnone
      rw [books_pending hpending]
      have hturn : Leads lossy
          (p.withoutPending.books running ({.deferred first} + (.deferred e ::ₘ hand)))
          (p.withoutPending.books running (0 + (.deferred e ::ₘ hand))) :=
        leads_turn (.mislaid crowded)
      rw [zero_add] at hturn
      exact hturn

theorem dispatch_of_tablet (p : Pipe P) (id : TaskId) {e : EventRef} {t : Tablet} (loop : Bool)
    (h : e.event.content = .tablet t) :
    p.dispatch id e loop =
      match (p.batch.onEvent p.commons e).2.2 with
      | .ok true => (p.offeredBatch e).flush id (.dispatched e loop)
      | .ok false => ((p.offeredBatch e).drop e).afterDispatch id loop
      | .error error =>
          if error.isPermanent then
            ((((p.offeredBatch e).note (.refused e error)).countFailure).drop e).afterDispatch
              id loop
          else ((p.offeredBatch e).countFailure.defer e).afterDispatch id loop := by
  simp only [dispatch, h]
  rfl

theorem dispatch_of_heartbeat (p : Pipe P) (id : TaskId) {e : EventRef} {created : Nat}
    (loop : Bool) (h : e.event.content = .heartbeat created) :
    p.dispatch id e loop = p.checked.dispatched id e loop (p.batch.checkDue p.commons).2.2 := by
  simp only [dispatch, h]
  rfl

/-- What becomes of an event that is to be dispatched. -/
@[elab_as_elim]
theorem dispatch_cases {motive : Pipe P → Prop} (p : Pipe P) (id : TaskId) (e : EventRef)
    (loop : Bool)
    (file : ∀ f, e.event.content = .file f → motive (p.flush id (.file e loop)))
    (heartbeat : ∀ created due, e.event.content = .heartbeat created →
      motive (p.checked.dispatched id e loop due))
    (batched : ∀ t due, e.event.content = .tablet t →
      (p.batch.onEvent p.commons e).2.2 = .ok due →
      motive ((p.offeredBatch e).dispatched id e loop due))
    (refused : ∀ t error, e.event.content = .tablet t →
      (p.batch.onEvent p.commons e).2.2 = .error error → error.isPermanent = true →
      motive ((((p.offeredBatch e).note (.refused e error)).countFailure.drop e).afterDispatch
        id loop))
    (deferred : ∀ t error, e.event.content = .tablet t →
      (p.batch.onEvent p.commons e).2.2 = .error error → error.isPermanent = false →
      motive (((p.offeredBatch e).countFailure.defer e).afterDispatch id loop)) :
    motive (p.dispatch id e loop) := by
  cases hcontent : e.event.content with
  | file f =>
      simp only [dispatch, hcontent]
      exact file f hcontent
  | heartbeat created =>
      rw [dispatch_of_heartbeat p id loop hcontent]
      exact heartbeat created _ hcontent
  | tablet t =>
      rw [dispatch_of_tablet p id loop hcontent]
      cases hresult : (p.batch.onEvent p.commons e).2.2 with
      | ok due =>
          have hbatched := batched t due hcontent hresult
          cases due with
          | true => exact hbatched
          | false => exact hbatched
      | error error =>
          dsimp only
          split
          · rename_i hpermanent
            exact refused t error hcontent hresult hpermanent
          · rename_i htransient
            exact deferred t error hcontent hresult (Bool.not_eq_true _ ▸ htransient)

/-- An event in the hand is routed, or kept for another try. -/
theorem leads_dispatch (p : Pipe P) (id : TaskId) (e : EventRef) (loop : Bool)
    (room : lossy ∨ p.pending = none) :
    Leads lossy (p.books (some id) {.waiting e}) ((p.dispatch id e loop).books none 0) := by
  have hoffered (light : e.event.isBulk = false) := leads_offeredBatch lossy p light (some id) 0
  refine dispatch_cases p id e loop (fun f hcontent => ?_) (fun created due hcontent => ?_)
    (fun t due hcontent hresult => ?_) (fun t error hcontent hresult hpermanent => ?_)
    (fun t error hcontent hresult htransient => ?_)
  · have hbulk := Event.isBulk_of_file hcontent
    have hitems : (After.file e loop).items = {.waiting e} := by simp [After.items, hbulk]
    rw [← hitems]
    exact leads_flush p id (.file e loop)
  · rw [← books_checked p]
    exact leads_dispatched _ id loop due (.heartbeat (Event.isHeartbeat_of_heartbeat hcontent))
  · obtain ⟨hleads, hrouted⟩ := hoffered (Event.isBulk_of_tablet hcontent)
    rw [hresult] at hrouted
    exact hleads.trans (leads_dispatched _ id loop due hrouted)
  · have light := Event.isBulk_of_tablet hcontent
    refine (hoffered light).1.trans ?_
    refine (leads_note (o := .refused e error) _ trivial).trans ?_
    exact leads_dispatched _ id loop false (.refused light (List.mem_cons_self ..) hpermanent)
  · obtain ⟨hleads, hfailed⟩ := hoffered (Event.isBulk_of_tablet hcontent)
    rw [hresult] at hfailed
    obtain ⟨payload, hfailed⟩ := hfailed
    have hdeferred : Leads lossy ((p.offeredBatch e).books (some id) ({.waiting e} + 0))
        ((p.offeredBatch e).books (some id) ({.deferred e} + 0)) :=
      leads_turn (.deferred hfailed htransient)
    have hdefer : Leads lossy
        ((p.offeredBatch e).countFailure.books (some id) (.deferred e ::ₘ 0))
        (((p.offeredBatch e).countFailure.defer e).books (some id) 0) :=
      leads_defer _ e room
    rw [books_afterDispatch]
    exact hleads.trans (hdeferred.trans hdefer)

theorem flushIfDue_eq (p : Pipe P) (id : TaskId) :
    p.flushIfDue id =
      if (p.batch.checkDue p.commons).2.2 then p.checked.flush id .due
      else p.checked.setTask id .consuming := rfl

theorem leads_flushIfDue (p : Pipe P) (id : TaskId) :
    Leads lossy (p.books (some id) 0) ((p.flushIfDue id).books none 0) := by
  rw [flushIfDue_eq, ← books_checked p]
  split
  · exact leads_flush p.checked id .due
  · rw [books_setTask]
    exact .refl _

section Retrieval

omit [Batch.Payload P]

def withQueue (p : Pipe P) (queue : Queue.Realtime) (commons : Commons) : Pipe P :=
  { p with queue, commons }

theorem books_gave {queue : Queue.Realtime} {commons : Commons} {retrieval : Queue.Retrieval}
    (h : p.queue.Gave retrieval.event? queue p.commons commons) :
    p.books running hand =
      (p.withQueue queue commons).books running (retrieved retrieval + hand) := by
  have hretrieved : retrieved retrieval = ↑(retrieval.event?.toList.map Item.waiting) := by
    cases retrieval with
    | waiting w => rfl
    | done event => cases event <;> rfl
  have hitems := Multiset.coe_eq_coe.mpr (h.channels.perm.map Item.waiting)
  simp only [books, stored, others, withQueue, h.ledger, hitems, hretrieved, List.map_append,
    ← Multiset.coe_add]
  congr 1
  ac_rfl

end Retrieval

theorem leads_afterRetrieval (p : Pipe P) (id : TaskId) (retrieval : Queue.Retrieval)
    (room : lossy ∨ p.pending = none) :
    Leads lossy (p.books (some id) (retrieved retrieval))
      ((p.afterRetrieval id retrieval).books none 0) := by
  cases retrieval with
  | waiting w =>
      simp only [afterRetrieval]
      rw [books_setTask]
      exact .refl _
  | done e? =>
      cases e? with
      | some e => exact leads_dispatch p id e true room
      | none =>
          simp only [afterRetrieval]
          split
          · exact leads_flush p id .stop
          · exact leads_flushIfDue p id

/-- A consumer stops, or pauses before what waits, or looks into the queue when nothing waits. -/
@[elab_as_elim]
theorem consume_cases {motive : Pipe P → Prop} (p : Pipe P) (id : TaskId)
    (stops : motive (p.flush id .stop))
    (pauses : ∀ e until_, p.pending = some e →
      motive (p.withoutPending.setTask id (.pausing e until_)))
    (retrieves : ∀ queue commons retrieval, p.pending = none →
      p.queue.Gave retrieval.event? queue p.commons commons →
      motive ((p.withQueue queue commons).afterRetrieval id retrieval)) :
    motive (p.consume id) := by
  unfold consume
  split
  · rename_i e hpending
    split
    · exact stops
    · exact pauses e _ hpending
  · rename_i hpending
    split
    · exact stops
    · obtain ⟨queue, commons, retrieval, hlook⟩ : ∃ queue commons retrieval,
          p.queue.look p.commons (p.now + p.queue.settings.maxBlockingMs) =
            (queue, commons, retrieval) := ⟨_, _, _, rfl⟩
      rw [hlook]
      exact retrieves queue commons retrieval hpending (Queue.Realtime.gave_look hlook)

/-- A consumer that waits at the queue stops, or looks again. -/
@[elab_as_elim]
theorem runPolling_cases {motive : Pipe P → Prop} (p : Pipe P) (id : TaskId) (w : Queue.Waiting)
    (stops : motive (p.flush id .stop))
    (retrieves : ∀ queue commons retrieval,
      p.queue.Gave retrieval.event? queue p.commons commons →
      motive ((p.withQueue queue commons).afterRetrieval id retrieval)) :
    motive (p.runPolling id w) := by
  unfold runPolling
  split
  · exact stops
  · obtain ⟨queue, commons, retrieval, hresume⟩ : ∃ queue commons retrieval,
        p.queue.resume p.commons w = (queue, commons, retrieval) := ⟨_, _, _, rfl⟩
    rw [hresume]
    exact retrieves queue commons retrieval (Queue.Realtime.gave_resume hresume)

theorem leads_retrieved (p : Pipe P) (id : TaskId) {queue : Queue.Realtime} {commons : Commons}
    {retrieval : Queue.Retrieval} (h : p.queue.Gave retrieval.event? queue p.commons commons)
    (room : lossy ∨ p.pending = none) :
    Leads lossy (p.books (some id) 0)
      (((p.withQueue queue commons).afterRetrieval id retrieval).books none 0) := by
  rw [books_gave h, add_zero]
  exact leads_afterRetrieval (p.withQueue queue commons) id retrieval room

theorem leads_consume (p : Pipe P) (id : TaskId) :
    Leads lossy (p.books (some id) 0) ((p.consume id).books none 0) := by
  refine consume_cases p id (leads_flush p id .stop) (fun e until_ hpending => ?_)
    fun queue commons retrieval hpending hgave => leads_retrieved p id hgave (.inr hpending)
  rw [books_setTask, books_pending hpending]
  exact .refl _

theorem leads_runPolling (p : Pipe P) (id : TaskId) (w : Queue.Waiting)
    (room : lossy ∨ p.pending = none) :
    Leads lossy (p.books (some id) 0) ((p.runPolling id w).books none 0) :=
  runPolling_cases p id w (leads_flush p id .stop)
    fun _ _ _ hgave => leads_retrieved p id hgave room

theorem leads_runPausing (p : Pipe P) (id : TaskId) (e : EventRef)
    (room : lossy ∨ p.pending = none) :
    Leads lossy (p.books (some id) {.deferred e}) ((p.runPausing id e).books none 0) := by
  unfold runPausing
  split
  · have hdefer : Leads lossy (p.books (some id) (.deferred e ::ₘ 0))
        ((p.defer e).books (some id) 0) := leads_defer p e room
    exact hdefer.trans (leads_flush (p.defer e) id .stop)
  · have hturn : Leads lossy (p.books (some id) ({.deferred e} + 0))
        (p.books (some id) ({.waiting e} + 0)) := leads_turn .offeredAgain
    exact hturn.trans (leads_dispatch p id e true room)

end Pipe
end Courier
