import Courier.Proofs.Batch.Payload
import Courier.Proofs.Pipe.Solo

/-!
What becomes of tablets that are polled. Their encodings lie one behind the other: first what the
peer has in its log, then what is under way, then what is batched. The consumer moves them along and
takes a file on only when nothing that was polled before it is left on the way.
-/

namespace Courier

open Transfer

namespace Pipe

variable {P : Type}

/-- The tablet in the hand of a consumer that waits before it offers it again. -/
def Process.paused : Process → List EventRef
  | .pausing e _ => [e]
  | _ => []

/-- The payload that a consumer has on the way. -/
def Process.flight : Process → Bytes
  | .tablets t _ => t.payload
  | _ => []

/-- What was polled and could not be encoded yet. -/
def deferred (p : Pipe P) : List EventRef :=
  p.pending.toList ++ p.consumers.flatMap fun t => t.process.paused

def inFlight (p : Pipe P) : Bytes := p.consumers.flatMap fun t => t.process.flight

/-- A piece of a file was asked for, or its seal. -/
def Occurrence.asksForFile : Occurrence → Bool
  | .requested _ request => request.isOfFile
  | _ => false

def fileRequests (p : Pipe P) : List Occurrence := p.trace.filter Occurrence.asksForFile

/-- How payloads are read, what the log of the peer began with, what was polled until now, what is
left in the queue, and what was asked for of files. -/
structure Journey (P : Type) where
  bytes : P → Bytes
  able : P → Prop
  first : Bytes
  polled : List EventRef
  channels : Queue.Channels
  filed : List Occurrence

namespace Journey

/-- The same journey after a retrieval. -/
def after (j : Journey P) (event : Option EventRef) (channels : Queue.Channels) : Journey P :=
  { j with polled := j.polled ++ event.toList, channels }

theorem after_none (j : Journey P) : j.after none j.channels = j := by
  simp [after]

/-- What was polled ahead of an event is in the log. -/
def Passed (j : Journey P) (log : Bytes) (e : EventRef) : Prop :=
  ∃ ahead behind, j.polled = ahead ++ e :: behind ∧
    j.first ++ Batch.transcript ahead <+: log

/-- A file is due when it was polled last. -/
def Due (j : Journey P) (p : Pipe P) (after : After) : Prop :=
  ∀ e loop, after = .file e loop →
    p.pending = none ∧ e.event.isBulk = true ∧ ∃ ahead, j.polled = ahead ++ [e]

/-- The state of the line when `taken` went into the batch and `flight` is in a consumer's hand. -/
structure Carried (j : Journey P) (taken : List EventRef) (flight : Bytes) (p : Pipe P) :
    Prop where
  sent : ∃ sent, p.peer.log = j.first ++ sent ∧
    sent ++ flight ++ j.bytes p.batch.payload = Batch.transcript taken
  kept : ∀ e ∈ p.batch.events, e ∈ taken
  bare : p.batch.events = [] → j.bytes p.batch.payload = []
  able : j.able p.batch.payload
  batchOpen : p.batch.closed = false
  unclosed : p.connector.closed = false
  accepts : p.peer.Accepts p.connector.settings.requestTimeoutMs
  files : ∀ e ∈ p.tended, e.event.isBulk = true ∧ j.Passed p.peer.log e
  calm : ∀ t ∈ p.tasks, t.process.IsCalm
  channels : p.queue.channels = j.channels
  filed : p.fileRequests = j.filed

/-- While the only consumer runs. -/
structure Carries (j : Journey P) (id : TaskId) (taken : List EventRef) (flight : Bytes)
    (p : Pipe P) : Prop where
  carried : j.Carried taken flight p
  sole : (p.consumers.filter fun t => t.id != id) = []

/-- A batch on its way: nothing is batched behind it, and it will be taken. -/
structure Flies (j : Journey P) (t : TabletSend) (link : Link Unit) (p : Pipe P) : Prop where
  bare : p.batch.events = []
  delivers : ∀ client x more, link = .exchanging client x more → x.Delivers t.payload
  due : ∀ after, t.purpose = .flush after → j.Due p after

/-- Between two steps. -/
structure Rests (j : Journey P) (p : Pipe P) : Prop where
  single : p.consumers.length ≤ 1
  line : ∃ taken, j.polled = taken ++ p.deferred ∧ j.Carried taken p.inFlight p
  flights : ∀ t ∈ p.consumers, ∀ s link, t.process = .tablets s link → j.Flies s link p

end Journey

/-- Nothing changed that a journey is about. -/
structure Stays (p p' : Pipe P) : Prop where
  events : p'.batch.events = p.batch.events := by rfl
  payload : p'.batch.payload = p.batch.payload := by rfl
  batchClosed : p'.batch.closed = p.batch.closed := by rfl
  closed : p'.connector.closed = p.connector.closed := by rfl
  settings : p'.connector.settings = p.connector.settings := by rfl
  retryQueue : p'.connector.retryQueue = p.connector.retryQueue := by rfl
  peer : p'.peer = p.peer := by rfl
  tasks : p'.tasks = p.tasks := by rfl
  channels : p'.queue.channels = p.queue.channels := by rfl
  fileRequests : p'.fileRequests = p.fileRequests := by rfl

namespace Stays

variable {p p' : Pipe P}

theorem drop (p : Pipe P) (e : EventRef) : Stays p (p.drop e) := {}

theorem countFailure (p : Pipe P) : Stays p p.countFailure := {}

theorem withLedger (p : Pipe P) (ledger : Ledger) : Stays p (p.withLedger ledger) := {}

theorem withClients (p : Pipe P) (clients : ClientPool) : Stays p (p.withClients clients) := {}

theorem defer (p : Pipe P) (e : EventRef) : Stays p (p.defer e) := {}

theorem note (p : Pipe P) {o : Occurrence} (other : o.asksForFile = false) :
    Stays p (p.note o) :=
  { fileRequests := List.filter_cons_of_neg (by simp [other]) }

theorem checked [Batch.Payload P] (p : Pipe P) : Stays p p.checked := by
  obtain ⟨hevents, hpayload, hclosed, _⟩ := batch_checkDue p.batch p.commons
  exact { events := hevents, payload := hpayload, batchClosed := hclosed }

theorem consumers (h : Stays p p') : p'.consumers = p.consumers := by
  rw [Pipe.consumers, h.tasks]
  rfl

theorem tended (h : Stays p p') : p'.tended = p.tended := by
  rw [Pipe.tended, h.tasks, h.retryQueue]
  rfl

end Stays

theorem pending_transferFile (p : Pipe P) (e : EventRef) :
    (p.transferFile e).1.pending = p.pending := by
  unfold transferFile
  split <;> rename_i heq <;> exact (congrArg (fun r => r.1.pending) heq).symm

namespace Journey

variable {j : Journey P} {p p' : Pipe P} {id : TaskId} {taken : List EventRef} {flight : Bytes}

theorem Carried.next (h : j.Carried taken flight p) (stays : Stays p p') :
    j.Carried taken flight p' := by
  obtain ⟨hsent, hkept, hbare, hable, hopen, hunclosed, haccepts, hfiles, hcalm, hchannels,
    hfiled⟩ := h
  rw [← stays.peer] at hsent haccepts hfiles
  rw [← stays.payload] at hsent hbare hable
  rw [← stays.events] at hkept hbare
  rw [← stays.settings] at haccepts
  rw [← stays.tended] at hfiles
  rw [← stays.tasks] at hcalm
  exact ⟨hsent, hkept, hbare, hable, stays.batchClosed.trans hopen, stays.closed.trans hunclosed,
    haccepts, hfiles, hcalm, stays.channels.trans hchannels, stays.fileRequests.trans hfiled⟩

theorem Carries.next (h : j.Carries id taken flight p) (stays : Stays p p') :
    j.Carries id taken flight p' :=
  ⟨h.carried.next stays, stays.consumers.symm ▸ h.sole⟩

theorem Due.next {after : After} (h : j.Due p after) (pending : p'.pending = p.pending) :
    j.Due p' after := fun e loop heq => by
  rw [pending]
  exact h e loop heq

/-- What has no encoding is carried by itself. -/
theorem Carried.passOver (h : j.Carried taken flight p) {e : EventRef}
    (without : Batch.written e.event = []) : j.Carried (taken ++ [e]) flight p := by
  obtain ⟨sent, hlog, hsent⟩ := h.sent
  refine { h with sent := ⟨sent, hlog, ?_⟩, kept := fun e' he' => ?_ }
  · rw [Batch.transcript_append, Batch.transcript_singleton, without, List.append_nil]
    exact hsent
  · exact List.mem_append_left _ (h.kept e' he')

theorem Carried.setTask (h : j.Carried taken flight p) (id : TaskId) {process : Process}
    (calm : process.IsCalm) (apart : process.file? = none) :
    j.Carried taken flight (p.setTask id process) := by
  refine { h with files := fun e he => ?_, calm := fun t ht => ?_ }
  · rcases tended_of_tasks (fun _ => mem_tasks_setTask) rfl he with he | hown
    · exact h.files e he
    · rw [apart] at hown
      cases hown
  · rcases mem_tasks_setTask ht with ht | rfl
    · exact h.calm t ht
    · exact calm

theorem flatMap_parked {α : Type} {f : Process → List α} {process : Process}
    (sole : (p.consumers.filter fun t => t.id != id) = [])
    (own : process.consumes = true ∨ f process = []) :
    (p.setTask id process).consumers.flatMap (fun t => f t.process) = f process := by
  rw [consumers_setTask, sole, List.nil_append]
  rcases own with hconsumes | hnone
  · simp [hconsumes]
  · cases hconsumes : process.consumes <;> simp [hconsumes, hnone]

/-- The consumer comes to wait. -/
theorem Carries.parked (process : Process) (h : j.Carries id taken process.flight p)
    (polled : j.polled = taken ++ (p.pending.toList ++ process.paused))
    (own : process.consumes = true ∨ process.paused = [] ∧ process.flight = [])
    (calm : process.IsCalm) (apart : process.file? = none)
    (flies : ∀ t link, process = .tablets t link → j.Flies t link p) :
    j.Rests (p.setTask id process) := by
  have hpaused : (p.setTask id process).deferred = p.pending.toList ++ process.paused :=
    congrArg (p.pending.toList ++ ·) (flatMap_parked h.sole (own.imp_right And.left))
  have hflight : (p.setTask id process).inFlight = process.flight :=
    flatMap_parked h.sole (own.imp_right And.right)
  have hown : ∀ t ∈ (p.setTask id process).consumers, t.process = process := by
    intro t ht
    rw [consumers_setTask, h.sole, List.nil_append] at ht
    rw [List.mem_singleton.mp (List.mem_filter.mp ht).1]
  refine ⟨?_, ⟨taken, hpaused ▸ polled, hflight ▸ h.carried.setTask id calm apart⟩,
    fun t ht s link heq => ?_⟩
  · rw [consumers_setTask, h.sole, List.nil_append]
    exact List.length_filter_le ..
  · have hflies := flies s link (hown t ht ▸ heq)
    exact ⟨hflies.bare, hflies.delivers,
      fun after hpurpose => (hflies.due after hpurpose).next rfl⟩

/-- The consumer ends. -/
theorem Carries.ended (h : j.Carries id taken [] p)
    (polled : j.polled = taken ++ p.pending.toList) : j.Rests (p.removeTask id) := by
  have hnone : (p.removeTask id).consumers = [] := (consumers_removeTask p id).trans h.sole
  have hdeferred : (p.removeTask id).deferred = p.pending.toList := by
    rw [deferred, hnone]
    exact List.append_nil _
  have hflight : (p.removeTask id).inFlight = [] := by
    rw [inFlight, hnone]
    rfl
  refine ⟨?_, ⟨taken, hdeferred ▸ polled, ?_⟩, fun t ht => ?_⟩
  · rw [hnone]
    exact Nat.zero_le 1
  · rw [hflight]
    refine { h.carried with files := fun e he => ?_, calm := fun t ht => ?_ }
    · rcases List.mem_append.mp he with he | he
      · exact h.carried.files e (List.mem_append_left _
          ((List.filter_sublist.filterMap _).mem he))
      · exact h.carried.files e (List.mem_append_right _ he)
    · exact h.carried.calm t (List.mem_filter.mp ht).1
  · rw [hnone] at ht
    cases ht

theorem Carries.afterDispatch (h : j.Carries id taken [] p)
    (polled : j.polled = taken ++ p.pending.toList) (loop : Bool) :
    j.Rests (p.afterDispatch id loop) := by
  cases loop with
  | true =>
      exact h.parked .consuming (by simpa [Process.paused] using polled) (.inl rfl)
        trivial rfl fun t link heq => by cases heq
  | false =>
      exact h.parked (.ended .nothing p.now) (by simpa [Process.paused] using polled)
        (.inr ⟨rfl, rfl⟩) trivial rfl fun t link heq => by cases heq

/-- A file is taken on when all that was polled ahead of it is in the log. -/
theorem Carries.transferFile (h : j.Carries id taken flight p) {e : EventRef}
    (passed : j.Passed p.peer.log e) : j.Carries id taken flight (p.transferFile e).1 := by
  cases hclosed : p.connector.closed with
  | true =>
      rw [h.carried.unclosed] at hclosed
      cases hclosed
  | false =>
  cases hprepare : Attempt.prepare e p.connector.settings p.commons.now with
  | error error =>
      rw [transferFile_of_unnamed hclosed hprepare]
      exact h
  | ok a =>
  cases hhold : (p.commons.ledger.hold e.id).2 with
  | false =>
      rw [transferFile_of_gone hclosed hprepare hhold]
      exact h.next (.withLedger p _)
  | true =>
  cases hbuffered : p.connector.buffered? e.event.commit with
  | some found =>
      have hsome : (p.connector.buffered? e.event.commit).isSome = true := by rw [hbuffered]; rfl
      rw [transferFile_of_buffered hclosed hprepare hhold hsome]
      exact (h.next (.withLedger p _)).next (.drop _ e)
  | none =>
      rw [transferFile_of_free hclosed hprepare hhold hbuffered]
      obtain ⟨hevent, hbulk⟩ := Attempt.prepare_event hprepare
      have haccepted : j.Carries id taken flight (p.accept e) := h.next {}
      obtain ⟨hcarried, hsole⟩ := haccepted
      refine ⟨{ hcarried with files := fun e' he' => ?_, calm := fun t ht => ?_ }, ?_⟩
      · rcases tended_of_tasks (fun _ => mem_tasks_spawn) rfl he' with he' | hown
        · exact hcarried.files e' he'
        · cases hown
          exact ⟨hevent ▸ hbulk, hevent ▸ passed⟩
      · rcases mem_tasks_spawn ht with ht | rfl
        · exact hcarried.calm t ht
        · exact fun request hasked => by cases hasked
      · rw [consumers_spawn _ rfl]
        exact hsole

/-- With nothing batched and nothing under way, everything taken is in the log. -/
theorem Carried.settled (h : j.Carried taken [] p) (bare : p.batch.events = []) :
    p.peer.log = j.first ++ Batch.transcript taken := by
  obtain ⟨sent, hlog, hsent⟩ := h.sent
  rw [h.bare bare, List.append_nil, List.append_nil] at hsent
  rw [hlog, hsent]

theorem Carries.afterFlush (h : j.Carries id taken [] p) (bare : p.batch.events = [])
    (polled : j.polled = taken ++ p.pending.toList) {after : After} (due : j.Due p after) :
    j.Rests (p.afterFlush id after) := by
  cases after with
  | dispatched e loop => exact (h.next (.drop p e)).afterDispatch polled loop
  | due => exact h.afterDispatch polled true
  | stop => exact h.ended polled
  | file e loop =>
      obtain ⟨hnone, -, ahead, hlast⟩ := due e loop rfl
      have htaken : taken = ahead ++ [e] := by
        rw [← hlast, polled, hnone]
        exact (List.append_nil taken).symm
      have hpassed : j.Passed p.peer.log e := by
        refine ⟨ahead, [], hlast, ?_⟩
        rw [h.carried.settled bare, htaken, Batch.transcript_append, ← List.append_assoc]
        exact List.prefix_append _ _
      have hfile := h.transferFile hpassed
      have hpending : (p.transferFile e).1.pending = p.pending := pending_transferFile p e
      have hrest : j.polled = taken ++ (p.transferFile e).1.pending.toList := hpending ▸ polled
      simp only [Pipe.afterFlush]
      split <;> rename_i heq <;> rw [heq] at hfile hrest
      · exact (hfile.next (.drop _ e)).afterDispatch hrest loop
      · exact ((hfile.next (.countFailure _)).next (.drop _ e)).afterDispatch hrest loop

/-- A request for a batch settles what becomes of it, and the log stays as it is. -/
theorem Carries.send (h : j.Carries id taken flight p) {request : Request}
    (other : request.isOfFile = false) : j.Carries id taken flight (p.send request).1 := by
  obtain ⟨hcarried, hsole⟩ := h
  obtain ⟨haccepts, hreceiver⟩ := hcarried.accepts.draw (Peer.keyOf request)
  have hlog : (p.send request).1.peer.log = p.peer.log :=
    congrArg (Receiver.contents · tabletLog) hreceiver
  have hfiled : (p.send request).1.fileRequests = p.fileRequests :=
    List.filter_cons_of_neg (by simp [Occurrence.asksForFile, other])
  exact ⟨{ hcarried with
    sent := hlog ▸ hcarried.sent
    accepts := haccepts
    files := fun e he => hlog ▸ hcarried.files e he
    filed := hfiled.trans hcarried.filed }, hsole⟩

theorem Carries.sending {t : TabletSend} {link : Link Unit} {after : After}
    (h : j.Carries id taken t.payload p) (polled : j.polled = taken ++ p.pending.toList)
    (purpose : t.purpose = .flush after) (flies : j.Flies t link p) :
    j.Rests (p.setTask id (.tablets t link)) := by
  have hflush : t.purpose.isFlush = true := by rw [purpose]; rfl
  refine h.parked (.tablets t link) (by simpa [Process.paused] using polled)
    (.inl hflush) hflush rfl fun t' link' heq => ?_
  cases heq
  exact flies

theorem Carries.askForTablets {t : TabletSend} {after : After}
    (h : j.Carries id taken t.payload p) (bare : p.batch.events = [])
    (polled : j.polled = taken ++ p.pending.toList) (purpose : t.purpose = .flush after)
    (due : j.Due p after) : j.Rests (p.askForTablets id t) := by
  have hdue (p' : Pipe P) (pending : p'.pending = p.pending) :
      ∀ after', t.purpose = .flush after' → j.Due p' after' := by
    intro after' hpurpose
    rw [purpose] at hpurpose
    cases hpurpose
    exact due.next pending
  have hclients := h.next (.withClients p (p.clients.ask id).1)
  rw [askForTablets_eq]
  split
  · exact hclients.sending polled purpose ⟨bare, fun _ _ _ heq => (by cases heq), hdue _ rfl⟩
  · refine (hclients.send rfl).sending polled purpose ⟨bare, fun client x more heq => ?_,
      hdue _ rfl⟩
    cases heq
    have hbatch : ∃ b, p.tabletRequest t = .tablets b ∧ b.payload = t.payload := ⟨_, rfl, rfl⟩
    exact Exchange.delivers_send h.carried.accepts hbatch p.now

variable [Batch.Payload P] (encodes : Batch.Encodes j.bytes j.able)
include encodes

/-- What was batched is in the hand of the one who sends it. -/
theorem Carries.emit (h : j.Carries id taken [] p) :
    j.Carries id taken (Batch.Payload.take p.batch.payload).2 p.emit ∧
      (Batch.Payload.take p.batch.payload).2 = j.bytes p.batch.payload := by
  obtain ⟨hcarried, hsole⟩ := h
  obtain ⟨sent, hlog, hsent⟩ := hcarried.sent
  obtain ⟨htakes, hbytes⟩ := encodes.take _ hcarried.able
  obtain ⟨hable, hempty⟩ := encodes.reset _ htakes
  have hpayload : j.bytes p.emit.batch.payload = [] := hempty
  refine ⟨⟨{ hcarried with
    sent := ⟨sent, hlog, ?_⟩
    kept := fun e he => by cases he
    bare := fun _ => hpayload
    able := hable }, hsole⟩, hbytes⟩
  rw [hpayload, hbytes, List.append_nil, ← hsent, List.append_nil]

theorem Carries.flush (h : j.Carries id taken [] p)
    (polled : j.polled = taken ++ p.pending.toList) {after : After} (due : j.Due p after) :
    j.Rests (p.flush id after) := by
  obtain ⟨hemitted, hbytes⟩ := h.emit encodes
  have hdue : j.Due p.emit after := due.next rfl
  rw [flush_eq]
  split
  · rename_i hempty
    rw [hbytes, h.carried.bare (List.isEmpty_iff.mp hempty)] at hemitted
    exact hemitted.afterFlush rfl polled hdue
  · split
    · rename_i hclosed
      rw [h.carried.unclosed] at hclosed
      cases hclosed
    · rw [submit_eq]
      exact (hemitted.next (.withLedger _ _)).askForTablets rfl polled rfl (hdue.next rfl)

omit encodes [Batch.Payload P] in
theorem Carries.passOver (h : j.Carries id taken flight p) {e : EventRef}
    (without : Batch.written e.event = []) : j.Carries id (taken ++ [e]) flight p :=
  ⟨h.carried.passOver without, h.sole⟩

omit encodes in
/-- A tablet is batched behind the others. -/
theorem Carries.kept (h : j.Carries id taken [] p) {e : EventRef} {commons : Commons} {payload : P}
    (able : j.able payload)
    (bytes : j.bytes payload = j.bytes p.batch.payload ++ Batch.written e.event) :
    j.Carries id (taken ++ [e]) [] { p with
      batch := (p.batch.keep commons e payload).1
      commons := (p.batch.keep commons e payload).2 } := by
  obtain ⟨hcarried, hsole⟩ := h
  obtain ⟨sent, hlog, hsent⟩ := hcarried.sent
  refine ⟨{ hcarried with
    sent := ⟨sent, hlog, ?_⟩
    kept := fun e' he' => ?_
    bare := fun hnone => ?_
    able }, hsole⟩
  · rw [Batch.transcript_append, Batch.transcript_singleton, ← hsent]
    simp [Batch.Accumulator.keep, bytes]
  · exact (List.mem_append.mp he').elim (fun h => List.mem_append_left _ (hcarried.kept e' h))
      (List.mem_append_right _)
  · simp [Batch.Accumulator.keep] at hnone

omit encodes [Batch.Payload P] in
/-- The payload was tried and has the same bytes as before. -/
theorem Carries.rewritten (h : j.Carries id taken flight p) {commons : Commons} {payload : P}
    (able : j.able payload) (bytes : j.bytes payload = j.bytes p.batch.payload) :
    j.Carries id taken flight { p with batch := { p.batch with payload }, commons } := by
  obtain ⟨hcarried, hsole⟩ := h
  obtain ⟨sent, hlog, hsent⟩ := hcarried.sent
  refine ⟨{ hcarried with
    sent := ⟨sent, hlog, ?_⟩
    bare := fun hnone => bytes.trans (hcarried.bare hnone)
    able }, hsole⟩
  rw [← hsent]
  exact congrArg (sent ++ flight ++ ·) bytes

omit encodes in
/-- An event that the batch took, or refused for good, need not be offered again. -/
def settles : Except Batch.BatchError Bool → Bool
  | .ok _ => true
  | .error error => error.isPermanent

theorem Carries.added (h : j.Carries id taken [] p) {e : EventRef}
    (tablet : ∃ t, e.event.content = .tablet t)
    (live : (p.commons.ledger.hold e.id).2 = true) :
    match (p.batch.add p.commons e).2.2 with
    | none => j.Carries id (taken ++ [e]) [] (p.added e)
    | some error =>
        j.Carries id (taken ++ if error.isPermanent then [e] else []) [] (p.added e) := by
  obtain ⟨hable, hwrote⟩ := encodes.construct _ e.event h.carried.able tablet
  cases hconstruct : Batch.Payload.construct p.batch.payload e.event with
  | mk payload result =>
  rw [hconstruct] at hable hwrote
  dsimp only at hable hwrote
  cases result with
  | ok took =>
      cases took with
      | true =>
          have hadd : p.batch.add p.commons e = ((p.batch.keep (p.commons.hold e).1 e payload).1,
              (p.batch.keep (p.commons.hold e).1 e payload).2, none) := by
            simp [Batch.Accumulator.add, Commons.hold, live, hconstruct]
          have hbytes : j.bytes payload = j.bytes p.batch.payload ++ Batch.written e.event := by
            rcases hwrote with ⟨_, hbytes⟩ | ⟨_, hfailed, _⟩
            · exact hbytes
            · cases hfailed
          simp only [Pipe.added, hadd]
          exact h.kept hable hbytes
      | false =>
          exfalso
          rcases hwrote with ⟨hplain, _⟩ | ⟨_, hfailed, _⟩
          · obtain ⟨created, hbeat⟩ := Batch.PlainPayload.construct_ok_false hplain.symm
            obtain ⟨t, htablet⟩ := tablet
            rw [htablet] at hbeat
            cases hbeat
          · cases hfailed
  | error error =>
      have hadd : p.batch.add p.commons e =
          ({ p.batch with payload }, ((p.commons.hold e).1.drop e).1, some error) := by
        simp [Batch.Accumulator.add, Commons.hold, live, hconstruct]
      simp only [Pipe.added, hadd]
      rcases hwrote with ⟨hplain, hbytes⟩ | ⟨error', hfailed, htransient, hbytes⟩
      · have hnil : Batch.written e.event = [] :=
          Batch.written_eq_nil (by rw [← hplain]; exact fun heq => by cases heq)
        rw [Batch.PlainPayload.construct_error hplain.symm]
        rw [hnil, List.append_nil] at hbytes
        exact (h.rewritten hable hbytes).passOver hnil
      · cases hfailed
        rw [htransient]
        simpa using h.rewritten hable hbytes

theorem Carries.offeredBatch (h : j.Carries id taken [] p) {e : EventRef}
    (tablet : ∃ t, e.event.content = .tablet t)
    (live : (p.commons.ledger.hold e.id).2 = true) (fresh : ∀ e' ∈ taken, e'.id ≠ e.id) :
    j.Carries id (taken ++ if settles (p.batch.onEvent p.commons e).2.2 then [e] else []) []
      (p.offeredBatch e) := by
  have hadded := h.added encodes tablet live
  have hends : p.batch.endsWith e = false := by
    unfold Batch.Accumulator.endsWith
    split
    · rename_i last hlast
      simpa using fresh last (h.carried.kept last (List.mem_of_getLast? hlast))
    · rfl
  cases herror : (p.batch.add p.commons e).2.2 with
  | some error =>
      have hon : p.batch.onEvent p.commons e = ((p.batch.add p.commons e).1,
          (p.batch.add p.commons e).2.1, .error error) := by
        simp [Batch.Accumulator.onEvent, h.carried.batchOpen, hends, herror]
      rw [herror] at hadded
      simp only [Pipe.offeredBatch, hon]
      exact hadded
  | none =>
      have hon : p.batch.onEvent p.commons e =
          (((p.added e).batch.checkDue (p.added e).commons).1,
          ((p.added e).batch.checkDue (p.added e).commons).2.1,
          .ok ((p.added e).batch.checkDue (p.added e).commons).2.2) := by
        simp [Batch.Accumulator.onEvent, h.carried.batchOpen, hends, herror, Pipe.added]
      rw [herror] at hadded
      simp only [Pipe.offeredBatch, hon]
      exact hadded.next (.checked _)

theorem Carries.dispatched (h : j.Carries id taken [] p)
    (polled : j.polled = taken ++ p.pending.toList) (e : EventRef) (loop due : Bool) :
    j.Rests (p.dispatched id e loop due) := by
  cases due with
  | true => exact h.flush encodes polled fun _ _ heq => by cases heq
  | false => exact (h.next (.drop _ e)).afterDispatch polled loop

/-- What was polled last is batched, or passed over, or it waits to be offered again. -/
theorem Carries.dispatch (h : j.Carries id taken [] p) {e : EventRef}
    (polled : j.polled = taken ++ [e]) (room : p.pending = none)
    (live : (p.commons.ledger.hold e.id).2 = true) (fresh : ∀ e' ∈ taken, e'.id ≠ e.id)
    (loop : Bool) : j.Rests (p.dispatch id e loop) := by
  have hpolled (p' : Pipe P) (pending : p'.pending = p.pending) :
      j.polled = taken ++ [e] ++ p'.pending.toList := by
    rw [pending, room, polled]
    exact (List.append_nil _).symm
  have hoffered {t : Tablet} (hcontent : e.event.content = .tablet t) :=
    h.offeredBatch encodes ⟨t, hcontent⟩ live fresh
  refine dispatch_cases p id e loop (fun f hcontent => ?_) (fun created due hcontent => ?_)
    (fun t due hcontent hresult => ?_) (fun t error hcontent hresult hpermanent => ?_)
    fun t error hcontent hresult htransient => ?_
  · have hnil : Batch.written e.event = [] := by
      simp [Batch.written, Batch.PlainPayload.construct, hcontent]
    refine (h.passOver hnil).flush encodes (hpolled p rfl) fun e' loop' heq => ?_
    cases heq
    exact ⟨room, Event.isBulk_of_file hcontent, taken, polled⟩
  · have hnil : Batch.written e.event = [] := by
      simp [Batch.written, Batch.PlainPayload.construct, hcontent]
    have hchecked := (h.passOver hnil).next (.checked p)
    exact hchecked.dispatched encodes (hpolled _ rfl) e loop due
  · have hbatched := hoffered hcontent
    rw [hresult] at hbatched
    exact hbatched.dispatched encodes (hpolled _ rfl) e loop due
  · have hrefused := hoffered hcontent
    simp only [hresult, settles, hpermanent, if_true] at hrefused
    have hnoted := (hrefused.next (.note _ (o := .refused e error) rfl)).next (.countFailure _)
    exact (hnoted.next (.drop _ e)).afterDispatch (hpolled _ rfl) loop
  · have hkept := hoffered hcontent
    simp only [hresult, settles, htransient, Bool.false_eq_true, if_false, List.append_nil]
      at hkept
    have hdeferred := (hkept.next (.countFailure _)).next (.defer _ e)
    exact hdeferred.afterDispatch polled loop

theorem Carries.flushIfDue (h : j.Carries id taken [] p)
    (polled : j.polled = taken ++ p.pending.toList) : j.Rests (p.flushIfDue id) := by
  have hchecked := h.next (.checked p)
  rw [flushIfDue_eq]
  split
  · exact hchecked.flush encodes polled fun _ _ heq => by cases heq
  · exact hchecked.afterDispatch polled true

omit encodes [Batch.Payload P] in
/-- A retrieval makes the journey longer and leaves what is on the way. -/
theorem Carried.retrieved (h : j.Carried taken flight p) (event : Option EventRef)
    (queue : Queue.Realtime) (commons : Commons) :
    (j.after event queue.channels).Carried taken flight (p.withQueue queue commons) := by
  refine { h with files := fun e he => ?_, channels := rfl }
  obtain ⟨hbulk, ahead, behind, hpolled, hlog⟩ := h.files e he
  refine ⟨hbulk, ahead, behind ++ event.toList, ?_, hlog⟩
  rw [after, hpolled]
  simp

/-- The event can be batched: it is not released, and nothing of its id was polled before. -/
def Fits (j : Journey P) (p : Pipe P) (e : EventRef) : Prop :=
  (p.commons.ledger.hold e.id).2 = true ∧ ∀ e' ∈ j.polled, e'.id ≠ e.id

theorem Carries.afterRetrieval {retrieval : Queue.Retrieval} (h : j.Carries id taken [] p)
    (polled : j.polled = taken ++ retrieval.event?.toList) (room : p.pending = none)
    (fits : ∀ e, retrieval = .done (some e) →
      (p.commons.ledger.hold e.id).2 = true ∧ ∀ e' ∈ taken, e'.id ≠ e.id) :
    j.Rests (p.afterRetrieval id retrieval) := by
  have hnothing (hnone : retrieval.event? = none) : j.polled = taken ++ p.pending.toList := by
    rw [polled, room, hnone]
  cases retrieval with
  | waiting w =>
      refine h.parked (.polling w) ?_ (.inl rfl) trivial rfl fun t link heq => ?_
      · simpa [Process.paused] using hnothing rfl
      · cases heq
  | done event =>
      cases event with
      | some e =>
          obtain ⟨hlive, hfresh⟩ := fits e rfl
          exact h.dispatch encodes polled room hlive hfresh true
      | none =>
          simp only [Pipe.afterRetrieval]
          split
          · exact h.flush encodes (hnothing rfl) fun _ _ heq => by cases heq
          · exact h.flushIfDue encodes (hnothing rfl)

/-- Whatever a retrieval came to, the consumer goes on with it. -/
theorem Carries.goesOn {queue : Queue.Realtime} {commons : Commons} {retrieval : Queue.Retrieval}
    (h : j.Carries id j.polled [] p) (room : p.pending = none)
    (fits : ∀ e ∈ p.queue.channels.toList, j.Fits p e)
    (gave : p.queue.Gave retrieval.event? queue p.commons commons) :
    ∃ event channels, p.queue.channels.Gives channels event ∧
      (j.after event channels).Rests ((p.withQueue queue commons).afterRetrieval id retrieval) := by
  refine ⟨retrieval.event?, queue.channels, gave.channels, ?_⟩
  have hencodes : Batch.Encodes (j.after retrieval.event? queue.channels).bytes
      (j.after retrieval.event? queue.channels).able := encodes
  have hretrieved : (j.after retrieval.event? queue.channels).Carries id j.polled []
      (p.withQueue queue commons) := ⟨h.carried.retrieved _ queue commons, h.sole⟩
  refine hretrieved.afterRetrieval hencodes rfl room ?_
  rintro e rfl
  have hmem : e ∈ p.queue.channels.toList :=
    gave.channels.perm.mem_iff.mpr (List.mem_cons_self ..)
  obtain ⟨hlive, hfresh⟩ := fits e hmem
  refine ⟨?_, hfresh⟩
  rw [show (p.withQueue queue commons).commons.ledger = p.commons.ledger from gave.ledger]
  exact hlive

omit encodes [Batch.Payload P] in
theorem Rests.stays {p p' : Pipe P} (h : j.Rests p') (channels : p.queue.channels = j.channels) :
    ∃ event channels, p.queue.channels.Gives channels event ∧
      (j.after event channels).Rests p' :=
  ⟨none, j.channels, channels ▸ .nothing rfl rfl, j.after_none.symm ▸ h⟩

theorem Carries.consume (h : j.Carries id taken [] p)
    (polled : j.polled = taken ++ p.pending.toList)
    (fits : ∀ e ∈ p.queue.channels.toList, j.Fits p e) :
    ∃ event channels, p.queue.channels.Gives channels event ∧
      (j.after event channels).Rests (p.consume id) := by
  have hstopped : j.Rests (p.flush id .stop) :=
    h.flush encodes polled fun _ _ heq => by cases heq
  refine consume_cases p id (hstopped.stays h.carried.channels) (fun e until_ hpending => ?_)
    fun queue commons retrieval hpending hgave => ?_
  · have htaken : j.Carries id taken [] p.withoutPending := h.next {}
    refine Rests.stays ?_ h.carried.channels
    refine htaken.parked (.pausing e _) ?_ (.inl rfl) trivial rfl fun t link heq => by cases heq
    rw [polled, hpending]
    rfl
  · have hall : j.polled = taken := by rw [polled, hpending]; exact List.append_nil _
    rw [← hall] at h
    exact h.goesOn encodes hpending fits hgave

theorem Carries.runPolling (h : j.Carries id taken [] p) (w : Queue.Waiting)
    (polled : j.polled = taken ++ p.pending.toList) (room : p.pending = none)
    (fits : ∀ e ∈ p.queue.channels.toList, j.Fits p e) :
    ∃ event channels, p.queue.channels.Gives channels event ∧
      (j.after event channels).Rests (p.runPolling id w) := by
  have hstopped : j.Rests (p.flush id .stop) :=
    h.flush encodes polled fun _ _ heq => by cases heq
  have hall : j.polled = taken := by rw [polled, room]; exact List.append_nil _
  refine runPolling_cases p id w (hstopped.stays h.carried.channels)
    fun queue commons retrieval hgave => ?_
  rw [← hall] at h
  exact h.goesOn encodes room fits hgave

theorem Carries.runPausing (h : j.Carries id taken [] p) {e : EventRef}
    (polled : j.polled = taken ++ [e]) (room : p.pending = none)
    (live : (p.commons.ledger.hold e.id).2 = true) (fresh : ∀ e' ∈ taken, e'.id ≠ e.id) :
    j.Rests (p.runPausing id e) := by
  unfold Pipe.runPausing
  split
  · exact (h.next (.defer p e)).flush encodes polled fun _ _ heq => by cases heq
  · exact h.dispatch encodes polled room live fresh true

omit encodes [Batch.Payload P]

theorem Passed.mono {log log' : Bytes} {e : EventRef} (h : j.Passed log e) (longer : log <+: log') :
    j.Passed log' e := by
  obtain ⟨ahead, behind, hpolled, hlog⟩ := h
  exact ⟨ahead, behind, hpolled, hlog.trans longer⟩

/-- A batch on its way is still there, or it is in the log. -/
theorem Carries.look (h : j.Carries id taken flight p) {x : Exchange}
    (delivers : x.Delivers flight) :
    (∃ p', p.look x = (p', .pending x) ∧ j.Carries id taken flight p' ∧ p'.batch = p.batch ∧
      p'.pending = p.pending) ∨
    (∃ p', p.look x = (p', .done (.ok .success)) ∧ j.Carries id taken [] p' ∧
      p'.batch = p.batch ∧ p'.pending = p.pending) := by
  have hlooked := Exchange.look_of_delivers delivers h.carried.accepts p.disk p.now
  cases hlook : x.look p.peer p.disk p.now with
  | mk peer rest =>
  obtain ⟨disk, progress⟩ := rest
  rw [hlook] at hlooked
  dsimp only at hlooked
  rcases hlooked with ⟨rfl, hpeer⟩ | ⟨rfl, haccepts, hlog⟩
  · have hstays : Stays p { p with peer, disk } := { peer := hpeer }
    exact .inl ⟨_, by simp only [Pipe.look, hlook], h.next hstays, rfl, rfl⟩
  · have hanswered : p.look x =
        (({ p with peer, disk } : Pipe P).note (.answered x.request (.ok .success)),
          .done (.ok .success)) := by
      simp only [Pipe.look, hlook]
    obtain ⟨hcarried, hsole⟩ := h
    obtain ⟨sent, hbefore, hsent⟩ := hcarried.sent
    refine .inr ⟨_, hanswered, ⟨{ hcarried with
      sent := ⟨sent ++ flight, ?_, ?_⟩
      accepts := haccepts
      files := fun e he => ?_ }, hsole⟩, rfl, rfl⟩
    · exact hlog.trans (by rw [hbefore, List.append_assoc])
    · rw [List.append_nil]
      exact hsent
    · obtain ⟨hbulk, hpassed⟩ := hcarried.files e he
      exact ⟨hbulk, hpassed.mono ⟨flight, hlog.symm⟩⟩

theorem Carries.runTablets {t : TabletSend} {link : Link Unit} {after : After}
    (h : j.Carries id taken t.payload p) (polled : j.polled = taken ++ p.pending.toList)
    (purpose : t.purpose = .flush after) (flies : j.Flies t link p) :
    j.Rests (p.runTablets id t link) := by
  have hdue := flies.due after purpose
  cases link with
  | asking => exact h.askForTablets flies.bare polled purpose hdue
  | waiting => exact h.askForTablets flies.bare polled purpose hdue
  | exchanging client x more =>
      rcases h.look (flies.delivers client x more rfl) with
        ⟨p', hlook, hcarries, hbatch, hpending⟩ | ⟨p', hlook, hcarries, hbatch, hpending⟩
      · rw [runTablets_of_pending id hlook]
        refine hcarries.sending (hpending ▸ polled) purpose ⟨hbatch ▸ flies.bare, ?_, ?_⟩
        · intro client' x' more' heq
          cases heq
          exact flies.delivers client x more rfl
        · exact fun after' hpurpose => (flies.due after' hpurpose).next hpending
      · rw [runTablets_of_done id hlook, purpose]
        have hsettled : j.Carries id taken [] (p'.settle t client x (.ok .success)) :=
          hcarries.next {}
        have hpolled : j.polled = taken ++ p'.pending.toList := hpending ▸ polled
        have hbare : p'.batch.events = [] := hbatch ▸ flies.bare
        exact hsettled.afterFlush hbare hpolled ((hdue.next hpending).next rfl)

theorem Rests.next (h : j.Rests p) (stays : Stays p p') (pending : p'.pending = p.pending) :
    j.Rests p' := by
  obtain ⟨hsingle, ⟨taken, hpolled, hcarried⟩, hflights⟩ := h
  have hdeferred : p'.deferred = p.deferred := by
    rw [deferred, pending, stays.consumers]
    rfl
  have hflight : p'.inFlight = p.inFlight := by
    rw [inFlight, stays.consumers]
    rfl
  refine ⟨stays.consumers.symm ▸ hsingle, ⟨taken, hdeferred ▸ hpolled,
    hflight ▸ hcarried.next stays⟩, fun t ht s link heq => ?_⟩
  obtain ⟨hbare, hdelivers, hdue⟩ := hflights t (stays.consumers ▸ ht) s link heq
  exact ⟨stays.events.trans hbare, hdelivers, fun after heq => (hdue after heq).next pending⟩

/-- What is queued is queued behind all that is on the way. -/
theorem Rests.queued (h : j.Rests p) (queue : Queue.Realtime) (commons : Commons) :
    ({ j with channels := queue.channels } : Journey P).Rests (p.withQueue queue commons) := by
  obtain ⟨hsingle, ⟨taken, hpolled, hcarried⟩, hflights⟩ := h
  refine ⟨hsingle, ⟨taken, hpolled, { hcarried with channels := rfl }⟩, fun t ht s link heq => ?_⟩
  obtain ⟨hbare, hdelivers, hdue⟩ := hflights t ht s link heq
  exact ⟨hbare, hdelivers, hdue⟩

/-- A task is started that has nothing in its hand. -/
theorem Rests.spawn (h : j.Rests p) {process : Process} (paused : process.paused = [])
    (flight : process.flight = []) (apart : process.file? = none) (calm : process.IsCalm)
    (other : ∀ t link, process ≠ .tablets t link)
    (single : (p.spawn process).consumers.length ≤ 1) : j.Rests (p.spawn process) := by
  obtain ⟨_, ⟨taken, hpolled, hcarried⟩, hflights⟩ := h
  have hconsumers : (p.spawn process).consumers =
      p.consumers ++ [⟨p.nextTask, process⟩].filter fun t => t.process.consumes :=
    List.filter_append ..
  have hnothing {α : Type} {f : Process → List α} (hnone : f process = []) :
      (p.spawn process).consumers.flatMap (fun t => f t.process) =
        p.consumers.flatMap fun t => f t.process := by
    rw [hconsumers, List.flatMap_append]
    cases hconsumes : process.consumes <;> simp [hconsumes, hnone]
  have hdeferred : (p.spawn process).deferred = p.deferred :=
    congrArg (p.pending.toList ++ ·) (hnothing paused)
  have hflight : (p.spawn process).inFlight = p.inFlight := hnothing flight
  refine ⟨single, ⟨taken, hdeferred ▸ hpolled, ?_⟩, fun t ht s link heq => ?_⟩
  · rw [hflight]
    refine { hcarried with files := fun e he => ?_, calm := fun t ht => ?_ }
    · rcases tended_of_tasks (fun _ => mem_tasks_spawn) rfl he with he | hown
      · exact hcarried.files e he
      · rw [apart] at hown
        cases hown
    · rcases mem_tasks_spawn ht with ht | rfl
      · exact hcarried.calm t ht
      · exact calm
  · obtain ⟨hmem, hconsumes⟩ := List.mem_filter.mp ht
    rcases mem_tasks_spawn hmem with hmem | rfl
    · obtain ⟨hbare, hdelivers, hdue⟩ :=
        hflights t (List.mem_filter.mpr ⟨hmem, hconsumes⟩) s link heq
      exact ⟨hbare, hdelivers, hdue⟩
    · exact absurd heq (other s link)

theorem Rests.aside (h : j.Rests p) (beside : Aside p p') (peer : p'.peer = p.peer)
    (single : p'.consumers.length ≤ 1) : j.Rests p' := by
  have hcancel (id? : Option TaskId) : j.Rests (p.cancel id?) := by
    cases id? with
    | none => exact h
    | some id => exact h.next {} rfl
  cases beside with
  | clock | neighbours | shutdownQueue => exact h.next {} rfl
  | surroundings => exact h.next { peer } rfl
  | cancelWorker => exact hcancel p.worker
  | cancelConsumer => exact hcancel p.consumer
  | startWorker =>
      have hnamed : j.Rests { p with worker := some p.nextTask } := h.next {} rfl
      exact hnamed.spawn rfl rfl rfl trivial (fun _ _ heq => by cases heq) single
  | startConsumer =>
      have hnamed : j.Rests { p with consumer := some p.nextTask } := h.next {} rfl
      exact hnamed.spawn rfl rfl rfl trivial (fun _ _ heq => by cases heq) single
  | waitIdle ms => exact h.spawn rfl rfl rfl trivial (fun _ _ heq => by cases heq) single

/-- Tasks other than consumers may ask for files, but they leave the line as it is. -/
theorem Rests.beside {calm : Prop} {mine : EventRef → Prop} (h : j.Rests p)
    (beside : Beside calm id mine p p') (calmly : calm) (own : ∀ e, mine e → e ∈ p.tended)
    (apart : ∀ t ∈ p.consumers, t.id ≠ id) (unclosed : p'.connector.closed = false) :
    ({ j with filed := p'.fileRequests } : Journey P).Rests p' := by
  obtain ⟨hsingle, ⟨taken, hpolled, hcarried⟩, hflights⟩ := h
  have hconsumers := beside.consumers apart
  have hdeferred : p'.deferred = p.deferred := by
    rw [deferred, beside.pending, hconsumers]
    rfl
  have hflight : p'.inFlight = p.inFlight := by
    rw [inFlight, hconsumers]
    rfl
  have hmine : ∀ e, mine e → e.event.isBulk = true := fun e he => (hcarried.files e (own e he)).1
  obtain ⟨haccepts, hlog⟩ := beside.peer calmly _ hcarried.accepts
  refine ⟨hconsumers.symm ▸ hsingle, ⟨taken, hdeferred ▸ hpolled, ?_⟩,
    fun t ht s link heq => ?_⟩
  · rw [hflight]
    refine ⟨?_, ?_, ?_, ?_, ?_, unclosed, ?_, fun e he => ?_,
      beside.quiet calmly hmine hcarried.calm, ?_, rfl⟩
    · rw [hlog, beside.batch]
      exact hcarried.sent
    · rw [beside.batch]
      exact hcarried.kept
    · rw [beside.batch]
      exact hcarried.bare
    · rw [beside.batch]
      exact hcarried.able
    · rw [beside.batch]
      exact hcarried.batchOpen
    · rw [beside.settings]
      exact haccepts
    · rw [hlog]
      exact hcarried.files e ((beside.tended e he).elim (fun h => h) (own e))
    · rw [beside.queue]
      exact hcarried.channels
  · obtain ⟨hbare, hdelivers, hdue⟩ := hflights t (hconsumers ▸ ht) s link heq
    exact ⟨beside.batch ▸ hbare, hdelivers, fun after heq => (hdue after heq).next beside.pending⟩

end Journey

section Requests

variable (p : Pipe P)

theorem fileRequests_takeUp (e : EventRef) : (p.takeUp e).fileRequests = p.fileRequests := by
  unfold takeUp
  split
  · split
    · rfl
    · split <;> rfl
  · split <;> rfl
  · rfl

theorem fileRequests_resubmit (e : EventRef) : (p.resubmit e).fileRequests = p.fileRequests := by
  cases hreleased : p.commons.isReleased e with
  | true => rw [resubmit_of_released hreleased]
  | false =>
      rw [resubmit_of_unreleased hreleased]
      exact fileRequests_takeUp _ e

theorem fileRequests_resubmitDue : p.resubmitDue.fileRequests = p.fileRequests := by
  have hall (due : List EventRef) (p : Pipe P) :
      (due.foldl resubmit p).fileRequests = p.fileRequests := by
    induction due generalizing p with
    | nil => rfl
    | cons e due ih => exact (ih _).trans (p.fileRequests_resubmit e)
  exact hall _ p.dueTaken

theorem fileRequests_wakeWorker : p.wakeWorker.fileRequests = p.fileRequests := by
  unfold wakeWorker
  split <;> rfl

/-- The worker on the retry queue, and calls that wait, ask for nothing. -/
theorem fileRequests_runProcess [Batch.Payload P] (id : TaskId) {process : Process}
    (apart : process.consumes = false) (calm : process.IsCalm)
    (other : ∀ a link, process ≠ .transfer a link) :
    (p.runProcess id process).fileRequests = p.fileRequests := by
  cases process with
  | transfer a link => exact absurd rfl (other a link)
  | tablets t link =>
      rw [show (Process.tablets t link).consumes = true from calm] at apart
      cases apart
  | looking => exact p.fileRequests_resubmitDue
  | watching next woken =>
      simp only [runProcess, runWatching]
      split
      · split
        · exact fileRequests_wakeWorker _
        · rfl
      · exact p.fileRequests_resubmitDue
  | idling deadline seen =>
      simp only [runProcess, runIdling]
      split
      · rfl
      · split <;> rfl
  | ended answer at_ => rfl
  | consuming | polling | pausing => cases apart

end Requests

namespace Journey

variable {j : Journey P} {p p' : Pipe P} {id : TaskId} [Batch.Payload P]

/-- A step of a task: it retrieves an event or none, and asks for a file only as the transfer of
that file. -/
structure Goes (j : Journey P) (id : TaskId) (p p' : Pipe P) : Prop where
  retrieves : ∃ event channels, p.queue.channels.Gives channels event ∧
    (({ j with filed := p'.fileRequests } : Journey P).after event channels).Rests p'
  asks : p'.fileRequests = p.fileRequests ∨ ∃ a link, p.task? id = some (.transfer a link)

omit [Batch.Payload P] in
theorem Goes.of_consumer (filed : p.fileRequests = j.filed)
    (h : ∃ event channels, p.queue.channels.Gives channels event ∧
      (j.after event channels).Rests p') : j.Goes id p p' := by
  obtain ⟨event, channels, hgives, hrests⟩ := h
  obtain ⟨_, _, hcarried⟩ := hrests.line
  have hfiled : p'.fileRequests = j.filed := hcarried.filed
  refine ⟨⟨event, channels, hgives, ?_⟩, .inl (hfiled.trans filed.symm)⟩
  rw [hfiled]
  exact hrests

theorem Rests.run (h : j.Rests p) (encodes : Batch.Encodes j.bytes j.able)
    (numbered : (p.books none 0).Numbered)
    (room : ∀ process, p.task? id = some process → process.returns = true → p.pending = none)
    (fits : ∀ e ∈ p.queue.channels.toList, j.Fits p e)
    (waits : ∀ e ∈ p.deferred, (p.commons.ledger.hold e.id).2 = true)
    (distinct : (j.polled.map EventRef.id).Nodup)
    (unclosed : (p.run id).connector.closed = false) : j.Goes id p (p.run id) := by
  obtain ⟨taken, hpolled, hcarried⟩ := h.line
  cases htask : p.task? id with
  | none =>
      have hsame : p.run id = p := by simp only [Pipe.run, htask]
      rw [hsame]
      exact .of_consumer hcarried.filed (h.stays hcarried.channels)
  | some process =>
  have hrun : p.run id = p.runProcess id process := by simp only [Pipe.run, htask]
  cases hconsumes : process.consumes with
  | false =>
      have hcalm : process.IsCalm := hcarried.calm _ (mem_of_task? htask)
      have hrests := h.beside (beside_run p htask hconsumes) hcalm (fun e he => he hcalm)
        (ne_of_apart numbered htask hconsumes) unclosed
      refine ⟨hrests.stays hcarried.channels, ?_⟩
      by_cases htransfer : ∃ a link, process = .transfer a link
      · obtain ⟨a, link, rfl⟩ := htransfer
        exact .inr ⟨a, link, htask⟩
      · rw [hrun]
        exact .inl (p.fileRequests_runProcess id hconsumes hcalm
          fun a link heq => htransfer ⟨a, link, heq⟩)
  | true =>
      have hmem := mem_consumers htask hconsumes
      have honly := consumers_of_single h.single htask hconsumes
      have hsole := sole_of_single h.single htask hconsumes
      have hflight : p.inFlight = process.flight := by simp [inFlight, honly]
      have hdeferred : p.deferred = p.pending.toList ++ process.paused := by
        simp [deferred, honly]
      rw [hflight] at hcarried
      rw [hdeferred] at hpolled waits
      have hcarries : j.Carries id taken process.flight p := ⟨hcarried, hsole⟩
      rw [hrun]
      refine .of_consumer hcarried.filed ?_
      have hpending (hnone : process.paused = []) : j.polled = taken ++ p.pending.toList := by
        rw [hpolled, hnone, List.append_nil]
      cases process with
      | consuming => exact hcarries.consume encodes (hpending rfl) fits
      | polling w =>
          exact hcarries.runPolling encodes w (hpending rfl) (room _ htask rfl) fits
      | pausing e until_ =>
          have hroom : p.pending = none := room _ htask rfl
          have hlast : j.polled = taken ++ [e] := by
            rw [hpolled, hroom]
            rfl
          have hfresh : ∀ e' ∈ taken, e'.id ≠ e.id := by
            rw [hlast, List.map_append, List.nodup_append] at distinct
            exact fun e' he' => distinct.2.2 _ (List.mem_map_of_mem he') _
              (List.mem_singleton_self _)
          have hlive := waits e (List.mem_append_right _ (List.mem_singleton_self e))
          exact (hcarries.runPausing encodes hlast hroom hlive hfresh).stays hcarried.channels
      | tablets t link =>
          obtain ⟨after, hpurpose⟩ : ∃ after, t.purpose = .flush after := by
            have hflush : t.purpose.isFlush = true := hconsumes
            cases hpurpose : t.purpose with
            | flush after => exact ⟨after, rfl⟩
            | _ =>
                rw [hpurpose] at hflush
                cases hflush
          have hflies := h.flights _ hmem t link rfl
          exact (hcarries.runTablets (hpending rfl) hpurpose hflies).stays hcarried.channels
      | _ => cases hconsumes

end Journey
end Pipe
end Courier
