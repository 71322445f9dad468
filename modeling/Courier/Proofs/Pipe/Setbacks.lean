import Courier.Proofs.Pipe.Pauses
import Courier.Proofs.Pipe.Retries
import Courier.Proofs.Pipe.Settling

/-!
What the count of retries tells. It goes up by one whenever a request fails, whatever the request
has in hand: a file, tablets of any number, or events that nobody needs any more. It is the number
of events that were handed to the retry queue only as long as each failure leaves exactly one.
-/

namespace Courier

open Transfer

namespace Pipe

variable {P : Type} {p p' : Pipe P}

/-- How often a task told of a failure. -/
def faults (p : Pipe P) : Nat := (p.trace.filterMap Occurrence.failure?).length

/-- What the retry queue was told to take, the earliest first. -/
def requeued (p : Pipe P) : List EventRef := p.trace.reverse.filterMap Occurrence.queued?

/-- What failures come to. -/
structure Toll where
  retries : Nat
  faults : Nat
  requeued : List EventRef

def toll (p : Pipe P) : Toll := ⟨p.connector.stats.retries, p.faults, p.requeued⟩

def Toll.take (t : Toll) (events : List EventRef) : Toll :=
  { t with requeued := t.requeued ++ events }

/-- A failure counts one retry, whatever it leaves. -/
def Toll.suffer (t : Toll) (events : List EventRef) : Toll where
  retries := Word.add t.retries 1
  faults := t.faults + 1
  requeued := t.requeued ++ events

section Steps

theorem toll_of_news (new : List Occurrence) (news : p'.news = new ++ p.news) :
    p'.toll = ⟨p'.connector.stats.retries, (new.filterMap Occurrence.failure?).length + p.faults,
      p.requeued ++ new.reverse.filterMap Occurrence.queued?⟩ := by
  have hfailure (o : Occurrence) (silent : o.isSilent = true) : o.failure? = none := by
    cases o with
    | failed => cases silent
    | _ => rfl
  have hqueued (o : Occurrence) (silent : o.isSilent = true) : o.queued? = none := by
    cases o with
    | queued => cases silent
    | _ => rfl
  have hfaults : p'.faults = (new.filterMap Occurrence.failure?).length + p.faults := by
    rw [faults, ← p'.filterMap_news hfailure, news, List.filterMap_append, List.length_append,
      p.filterMap_news hfailure, faults]
  have hrequeued (q : Pipe P) : q.requeued = (q.news.filterMap Occurrence.queued?).reverse := by
    rw [requeued, List.filterMap_reverse, q.filterMap_news hqueued]
  rw [toll, hfaults, hrequeued, hrequeued, news, List.filterMap_append, List.reverse_append,
    List.filterMap_reverse]

theorem Silent.toll (h : Silent p p') : p'.toll = p.toll := by
  rw [toll_of_news [] h.news, h.stats, List.filterMap_nil, List.length_nil, Nat.zero_add,
    List.reverse_nil, List.filterMap_nil, List.append_nil, Pipe.toll]

theorem failures_queuings (events : List EventRef) :
    (queuings events).filterMap Occurrence.failure? = [] := by
  refine List.filterMap_eq_nil_iff.mpr fun o ho => ?_
  obtain ⟨e, -, rfl⟩ := List.mem_map.mp (List.mem_reverse.mp ho)
  rfl

theorem queued_queuings (events : List EventRef) :
    (queuings events).reverse.filterMap Occurrence.queued? = events := by
  rw [queuings, List.reverse_reverse, List.filterMap_map]
  exact List.filterMap_some

theorem Hands.toll {events : List EventRef} (h : Hands events p p') :
    p'.toll = p.toll.take (p.retriable events) := by
  rw [toll_of_news _ h.news, h.stats, failures_queuings, queued_queuings, List.length_nil,
    Nat.zero_add]
  rfl

theorem Fares.toll {inHand : List EventRef} (h : Fares inHand p p') :
    p'.toll = p.toll ∨ p'.toll = p.toll.suffer (p.retriable inHand) := by
  cases h with
  | well setup pieces retries news =>
      refine .inl ?_
      rw [toll_of_news [] news, retries, List.filterMap_nil, List.length_nil,
        Nat.zero_add, List.reverse_nil, List.filterMap_nil, List.append_nil, Pipe.toll]
  | badly error increases setup stats news =>
      refine .inr ?_
      have hnews : p'.news =
          (queuings (p.retriable inHand) ++ [.failed error increases]) ++ p.news := by
        rw [news, List.append_assoc, List.singleton_append]
      rw [toll_of_news _ hnews, List.filterMap_append, failures_queuings, List.reverse_append,
        List.filterMap_append, queued_queuings, stats, List.nil_append, Nat.add_comm]
      rfl

theorem Hears.toll (h : Hears p p') : p'.toll = p.toll := by
  obtain ⟨answers, hnews⟩ := h.news
  have hfailures : (answers.map fun a => Occurrence.answered a.request a.answer).filterMap
      Occurrence.failure? = [] := by
    refine List.filterMap_eq_nil_iff.mpr fun o ho => ?_
    obtain ⟨a, -, rfl⟩ := List.mem_map.mp ho
    rfl
  have hqueued : (answers.map fun a => Occurrence.answered a.request a.answer).reverse.filterMap
      Occurrence.queued? = [] := by
    refine List.filterMap_eq_nil_iff.mpr fun o ho => ?_
    obtain ⟨a, -, rfl⟩ := List.mem_map.mp (List.mem_reverse.mp ho)
    rfl
  rw [toll_of_news _ hnews, h.retries, hfailures, hqueued, List.length_nil, Nat.zero_add,
    List.append_nil, Pipe.toll]

variable [Batch.Payload P]

/-- A task that runs fails at most once. -/
theorem toll_run (p : Pipe P) {id : TaskId} {process : Process}
    (task : p.task? id = some process) :
    (p.run id).toll = p.toll ∨ (p.run id).toll = p.toll.suffer (p.retriable process.carried) := by
  obtain ⟨q, hheard, hfares⟩ := fares_run p task
  rw [← hheard.toll, ← hheard.retriable]
  exact hfares.toll

end Steps

/-! ### Runs -/

/-- Something failed, a task or what others report, and this of it was left to the retry queue. -/
inductive Incident
  | failure (left : List EventRef)
  | report (left : List EventRef)

def Incident.isFailure : Incident → Bool
  | .failure _ => true
  | .report _ => false

def Incident.left : Incident → List EventRef
  | .failure left | .report left => left

/-- What some incidents come to, the earliest first. -/
def Toll.of (incidents : List Incident) : Toll where
  retries := incidents.countP Incident.isFailure % Word.size
  faults := incidents.countP Incident.isFailure
  requeued := incidents.flatMap Incident.left

theorem Toll.of_failure (incidents : List Incident) (left : List EventRef) :
    Toll.of (incidents ++ [.failure left]) = (Toll.of incidents).suffer left := by
  simp only [of, suffer, List.countP_append, List.flatMap_append, Word.add, Nat.mod_add_mod]
  simp [Incident.isFailure, Incident.left]

theorem Toll.of_report (incidents : List Incident) (left : List EventRef) :
    Toll.of (incidents ++ [.report left]) = (Toll.of incidents).take left := by
  simp [of, take, Incident.isFailure, Incident.left]

theorem length_of_single {incidents : List Incident}
    (single : ∀ i ∈ incidents, i.isFailure = true ∧ i.left.length = 1) :
    (incidents.flatMap Incident.left).length = incidents.countP Incident.isFailure := by
  induction incidents with
  | nil => rfl
  | cons i incidents ih =>
      obtain ⟨⟨hfailure, hleft⟩, hrest⟩ := List.forall_mem_cons.mp single
      rw [List.flatMap_cons, List.length_append, ih hrest, hleft, List.countP_cons_of_pos hfailure,
        Nat.add_comm]

section Runs

variable [Batch.Payload P]

/-- A run, with what failed in its course: tasks that told of it, and what others report. -/
inductive Course (p : Pipe P) : List Incident → Pipe P → Prop
  | begun : Course p [] p
  | failed {incidents : List Incident} {q : Pipe P} {t : Task} (course : Course p incidents q)
      (there : t ∈ q.tasks) (ready : q.canRun t = true)
      (fault : (q.run t.id).faults = q.faults + 1) :
      Course p (incidents ++ [.failure (q.retriable t.process.carried)]) (q.run t.id)
  | reported {incidents : List Incident} {q : Pipe P} (course : Course p incidents q)
      (e : EventRef) :
      Course p (incidents ++ [.report (q.retriable [e])]) (q.perform (.addFailure e)).1
  | passed {incidents : List Incident} {q q' : Pipe P} (course : Course p incidents q)
      (happening : Happening q q') (own : ∀ e, q' ≠ (q.perform (.addFailure e)).1)
      (calm : q'.faults = q.faults) : Course p incidents q'

variable {q q' : Pipe P} {incidents : List Incident}

theorem Course.reaches (course : Course p incidents q) : Relation.ReflTransGen Happening p q := by
  induction course with
  | begun => exact .refl
  | failed course there ready fault ih => exact ih.tail (.ran there ready)
  | reported course e ih => exact ih.tail (.performed (.addFailure e))
  | passed course happening own calm ih => exact ih.tail happening

theorem Course.numbered (numbered : (p.books none 0).Numbered) (course : Course p incidents q) :
    (q.books none 0).Numbered :=
  numbered_of_reaches numbered course.reaches

/-- Whatever happens next costs nothing, or it is a failure, or others report one. -/
theorem Course.next (numbered : (p.books none 0).Numbered) (course : Course p incidents q)
    (happening : Happening q q') : ∃ incidents', Course p incidents' q' := by
  by_cases hreported : ∃ e, q' = (q.perform (.addFailure e)).1
  · obtain ⟨e, rfl⟩ := hreported
    exact ⟨_, course.reported e⟩
  have hpassed (calm : q'.toll = q.toll) : ∃ incidents', Course p incidents' q' :=
    ⟨_, course.passed happening (fun e he => hreported ⟨e, he⟩) (congrArg Toll.faults calm)⟩
  rcases happening.silent with hsilent | ⟨e, rfl⟩ | ⟨t, ht, hready, rfl⟩
  · exact hpassed hsilent.toll
  · exact absurd ⟨e, rfl⟩ hreported
  · rcases toll_run q (task?_of_mem (course.numbered numbered) ht) with hcalm | hsuffered
    · exact hpassed hcalm
    · exact ⟨_, course.failed ht hready (congrArg Toll.faults hsuffered)⟩

theorem Course.toll (numbered : (p.books none 0).Numbered) (start : p.toll = .of [])
    (course : Course p incidents q) : q.toll = .of incidents := by
  induction course with
  | begun => exact start
  | @failed _ q t course there ready fault ih =>
      -- What a failure leaves is found in the pipe before it, where the task still holds it.
      rw [Toll.of_failure, ← ih]
      rcases toll_run q (task?_of_mem (course.numbered numbered) there) with hcalm | hsuffered
      · have hsame : (q.run t.id).faults = q.faults := congrArg Toll.faults hcalm
        omega
      · exact hsuffered
  | reported course e ih =>
      rw [Toll.of_report, ← ih]
      exact (Hands.addFailure _ e).toll
  | @passed _ q q' course happening own calm ih =>
      rw [← ih]
      rcases happening.silent with hsilent | ⟨e, rfl⟩ | ⟨t, ht, -, rfl⟩
      · exact hsilent.toll
      · exact absurd rfl (own e)
      · rcases toll_run q (task?_of_mem (course.numbered numbered) ht) with hcalm | hsuffered
        · exact hcalm
        · have hmore : (q.run t.id).faults = q.faults + 1 := congrArg Toll.faults hsuffered
          omega

/-- Whatever happens to a pipe, its count of retries is the number of times that a task told of a
failure, as a word. The retry queue takes what each of them had in hand, and what others report,
less what was released, and nothing once the connector is closed; so the count is the number of
events that it took when each failure leaves it one event and others report none. -/
theorem retries_counted (new : p.IsNew) (fresh : p.connector.stats = {}) :
    (∀ p', Relation.ReflTransGen Happening p p' → ∃ incidents, Course p incidents p') ∧
      ∀ incidents p', Course p incidents p' →
        let failures := incidents.countP Incident.isFailure
        let retries := p'.connector.stats.retries
        p'.faults = failures ∧ retries = failures % Word.size ∧
          p'.requeued = incidents.flatMap Incident.left ∧
          ((∀ i ∈ incidents, i.isFailure = true ∧ i.left.length = 1) →
            retries = p'.requeued.length % Word.size) := by
  have hnumbered := numbered_of_new new
  have hstart : p.toll = .of [] := by
    simp only [toll, faults, requeued, new.trace, fresh]
    rfl
  refine ⟨fun p' reach => ?_, fun incidents p' course => ?_⟩
  · induction reach with
    | refl => exact ⟨[], .begun⟩
    | tail _ happening ih =>
        obtain ⟨incidents, course⟩ := ih
        exact course.next hnumbered happening
  · obtain ⟨hretries, hfaults, hrequeued⟩ := Toll.mk.inj (course.toll hnumbered hstart)
    refine ⟨hfaults, hretries, hrequeued, fun single => ?_⟩
    rw [hrequeued, length_of_single single]
    exact hretries

end Runs

/-- What no report changes. -/
def frame (p : Pipe P) : Nat × Bool × TaskId :=
  (p.commons.ledger.entries.size, p.connector.closed, p.nextTask)

theorem frame_addFailure (p : Pipe P) (e : EventRef) : (p.addFailure e).frame = p.frame := by
  have hwoken (q : Pipe P) : q.wakeWorker.frame = q.frame := by
    unfold wakeWorker
    split <;> rfl
  cases hclosed : p.connector.closed with
  | true =>
      rw [addFailure_of_closed hclosed]
      exact congrArg (·, p.connector.closed, p.nextTask) (Ledger.size_update _ _ _)
  | false =>
      cases hreleased : p.commons.isReleased e with
      | true => rw [addFailure_of_released hclosed hreleased]
      | false =>
          rw [addFailure_of_live hclosed hreleased, hwoken]
          rfl

/-- A row of a table. -/
def sample (id : EventId) : EventRef := ⟨id, {
  content := .tablet { target := "", rows := 0, payload := [1] }, pipe := "", region := 0
  commit := .zero, progress := 0 }⟩

/-- A pipe whose peer is away. -/
def outage : Pipe Batch.PlainPayload where
  commons := {}
  queue := { pipe := "q", settings := {}, block := 0 }
  batch := { id := "b", maxDelayMs := 1, slice := 0, payload := {} }
  connector := .create "c" { initialRetryMs := 100 }
  clients := .ofClients [0]
  disk := {}
  peer := { fallback := .failure .disconnected }

/-- One tablet was sent in vain. -/
def outage.once : Pipe Batch.PlainPayload :=
  ((outage.withLedger ⟨.replicate 5 {}⟩).callSend [sample 0] [1]).1.run 0

/-- Then three that were sent together. -/
def outage.twice : Pipe Batch.PlainPayload :=
  (once.callSend [sample 1, sample 2, sample 3] [1]).1.run 1

/-- Then one whose request was under way when the connector was closed. -/
def outage.thrice : Pipe Batch.PlainPayload :=
  (((twice.callSend [sample 4] [1]).1.perform .closeConnector).1.run 2)

theorem Course.beside [Batch.Payload P] {q q' : Pipe P} {incidents : List Incident}
    (course : Course p incidents q) (happening : Happening q q') (moved : q'.frame ≠ q.frame)
    (calm : q'.faults = q.faults) : Course p incidents q' :=
  course.passed happening (fun e he => moved (he ▸ frame_addFailure q e)) calm

theorem Course.ran [Batch.Payload P] {q : Pipe P} {incidents : List Incident} {id : TaskId}
    {left : List EventRef} (course : Course p incidents q)
    (ready : (q.tasks.any fun t =>
      t.id = id && q.canRun t && q.retriable t.process.carried = left) = true)
    (fault : (q.run id).faults = q.faults + 1) :
    Course p (incidents ++ [.failure left]) (q.run id) := by
  obtain ⟨t, there, hready⟩ := List.any_eq_true.mp ready
  simp only [Bool.and_eq_true, decide_eq_true_eq] at hready
  obtain ⟨⟨rfl, hready⟩, rfl⟩ := hready
  exact course.failed there hready fault

theorem course_once : outage.Course [.failure [sample 0]] outage.once := by
  refine ((Course.begun.beside (.retuned ⟨.replicate 5 {}⟩) ?_ ?_).beside (.sent _ _) ?_ ?_).ran
    ?_ ?_ <;> decide +kernel

theorem course_twice : outage.Course [.failure [sample 0],
    .failure [sample 1, sample 2, sample 3]] outage.twice := by
  refine (course_once.beside (.sent _ _) ?_ ?_).ran ?_ ?_ <;> decide +kernel

theorem course_thrice : outage.Course [.failure [sample 0],
    .failure [sample 1, sample 2, sample 3], .failure []] outage.thrice := by
  refine ((course_twice.beside (.sent _ _) ?_ ?_).beside (.performed .closeConnector) ?_ ?_).ran
    ?_ ?_ <;> decide +kernel

/-- As long as each failure leaves one event the count is theirs; in the end three retries are
counted, and four events were handed to the queue. -/
theorem retries_counted_in_outage :
    (∃ incidents, outage.Course incidents outage.thrice) ∧
      (outage.once.requeued = [sample 0] ∧
        outage.once.connector.stats.retries = outage.once.requeued.length % Word.size) ∧
      outage.thrice.faults = 3 ∧ outage.thrice.connector.stats.retries = 3 % Word.size ∧
      outage.thrice.requeued = [sample 0, sample 1, sample 2, sample 3] := by
  have new : outage.IsNew := ⟨rfl, rfl, rfl, rfl, rfl, rfl, rfl, rfl, rfl, rfl, rfl⟩
  obtain ⟨courses, counted⟩ := retries_counted new rfl
  have reach : Relation.ReflTransGen Happening outage outage.thrice := course_thrice.reaches
  obtain ⟨-, -, honce, hsingle⟩ := counted _ _ course_once
  obtain ⟨hfaults, hretries, hthrice, -⟩ := counted _ _ course_thrice
  exact ⟨courses _ reach, ⟨honce, hsingle (by decide)⟩, hfaults, hretries, hthrice⟩

/-- Four events were handed to the retry queue and two retries are counted: three of them failed
together. -/
theorem batch_counted_once :
    Relation.ReflTransGen Happening outage outage.twice ∧
      outage.twice.connector.stats.retries = 2 ∧
      outage.twice.requeued = [sample 0, sample 1, sample 2, sample 3] ∧
      outage.twice.connector.retryQueue.map RetryEntry.event = outage.twice.requeued := by
  exact ⟨course_twice.reaches, by decide +kernel, by decide +kernel, by decide +kernel⟩

end Pipe
end Courier
