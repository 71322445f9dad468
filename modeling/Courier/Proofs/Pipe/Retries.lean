import Courier.Proofs.Pipe.Errands

/-!
The schedule of the worker. It takes an entry out of the retry queue no earlier than the entry is
ready and no later than everybody waits; what it takes it takes up in commit order, and what it
leaves stays in place. Every entry that ever came to the queue is still there or has left it once.
-/

namespace Courier

open Transfer

namespace Pipe

variable {P : Type} {p p' p'' : Pipe P} {id : TaskId} {e : EventRef}

/-- How an entry leaves the retry queue. -/
inductive Departure
  | discarded
  | resubmitted
  /-- The worker took the entry, but its event was released meanwhile. -/
  | lapsed
  deriving DecidableEq, Repr

structure Leaving where
  entry : RetryEntry
  how : Departure
  at_ : Nat
  deriving DecidableEq, Repr

/-- The entries that came to the retry queue, and those that left it, each in order. -/
structure Roster where
  entered : List RetryEntry := []
  left : List Leaving := []

/-- The entries that are due, in commit order. -/
def dueEntries (p : Pipe P) : List RetryEntry :=
  (p.connector.retryQueue.filter fun entry => entry.readyAt ≤ p.now).mergeSort
    fun a b => a.event.event.commit.le b.event.event.commit

/-- How entries leave that the worker takes one after the other. -/
def departures (p : Pipe P) : List RetryEntry → List Leaving
  | [] => []
  | entry :: due =>
      ⟨entry, if p.commons.isReleased entry.event then .lapsed else .resubmitted, p.now⟩ ::
        departures (p.resubmit entry.event) due

def Roster.enter (r : Roster) (came : List RetryEntry) : Roster :=
  { r with entered := r.entered ++ came }

def Roster.leave (r : Roster) (gone : List Leaving) : Roster := { r with left := r.left ++ gone }

/-- How entries leave that are discarded. -/
def discardings (p : Pipe P) (entries : List RetryEntry) : List Leaving :=
  entries.map fun entry => ⟨entry, .discarded, p.now⟩

/-- What an errand adds to the roster. -/
def Roster.after (r : Roster) (p : Pipe P) (errand : Errand) (p' : Pipe P) : Roster :=
  let queue := p.connector.retryQueue
  match errand with
  | .ran id =>
      if p.looks id then r.leave (p.dueTaken.departures p.dueEntries)
      else r.enter (p'.connector.retryQueue.drop queue.length)
  | .failed _ => r.enter (p'.connector.retryQueue.drop queue.length)
  | .discarded pipe region =>
      r.leave (p.discardings (queue.filter fun entry => entry.event.belongsTo pipe region))
  | .closed => if p.connector.closed then r else r.leave (p.discardings queue)
  | _ => r

def Task.isWorker (t : Task) : Bool :=
  match t.process with
  | .looking | .watching _ _ => true
  | _ => false

def workers (p : Pipe P) : Nat := p.tasks.countP Task.isWorker

structure Rostered (P : Type) where
  pipe : Pipe P
  roster : Roster

/-- An errand that leaves at most one worker, and what it adds to the roster. -/
inductive Rostered.Step [Batch.Payload P] : Rostered P → Rostered P → Prop
  | mk {p p' : Pipe P} {roster : Roster} {errand : Errand} (does : Does p errand p')
      (alone : p'.workers ≤ 1) : Step ⟨p, roster⟩ ⟨p', roster.after p errand p'⟩

def Occurrence.queued? : Occurrence → Option EventRef
  | .queued e => some e
  | _ => none

def Occurrence.resubmitted? : Occurrence → Option EventRef
  | .resubmitted e => some e
  | _ => none

/-- The roster agrees with the retry queue and with the trace. -/
structure Rostered.Kept (s : Rostered P) : Prop where
  alone : s.pipe.workers ≤ 1
  entered : s.roster.entered.Perm (s.pipe.connector.retryQueue ++ s.roster.left.map Leaving.entry)
  queued : s.pipe.trace.reverse.filterMap Occurrence.queued? =
    s.roster.entered.map RetryEntry.event
  resubmitted : s.pipe.trace.reverse.filterMap Occurrence.resubmitted? =
    (s.roster.left.filter fun l => l.how = .resubmitted).map fun l => l.entry.event
  ready : ∀ l ∈ s.roster.left, l.how ≠ .discarded → l.entry.readyAt ≤ l.at_
  asleep : ∀ t ∈ s.pipe.tasks, ∀ next, t.process = .watching next false →
    ∀ entry ∈ s.pipe.connector.retryQueue, ∃ moment, next = some moment ∧ moment ≤ entry.readyAt

section Departures

theorem due_eq (p : Pipe P) : p.due = p.dueEntries.map RetryEntry.event :=
  (List.map_mergeSort (f := RetryEntry.event)
    (s := fun a b : EventRef => a.event.commit.le b.event.commit) fun _ _ _ _ => rfl).symm

theorem entry_departures (p : Pipe P) (due : List RetryEntry) :
    (p.departures due).map Leaving.entry = due := by
  induction due generalizing p with
  | nil => rfl
  | cons entry due ih => exact congrArg (entry :: ·) (ih _)

theorem now_resubmit (p : Pipe P) (e : EventRef) : (p.resubmit e).now = p.now := by
  rcases resumes_resubmit p e with ⟨-, hsame⟩ | ⟨-, hresumes, -⟩
  · rw [hsame]
  · exact hresumes.now

theorem at_departures (p : Pipe P) {due : List RetryEntry} {l : Leaving}
    (h : l ∈ p.departures due) : l.at_ = p.now ∧ l.entry ∈ due := by
  induction due generalizing p with
  | nil => cases h
  | cons entry due ih =>
      rcases List.mem_cons.mp h with rfl | h
      · exact ⟨rfl, List.mem_cons_self ..⟩
      · obtain ⟨hat, hmem⟩ := ih _ h
        exact ⟨hat.trans (now_resubmit p entry.event), List.mem_cons_of_mem _ hmem⟩

/-- What is resubmitted is what the worker takes up. -/
theorem resubmitted_departures (p : Pipe P) (due : List RetryEntry) :
    ((p.departures due).filter fun l => l.how = .resubmitted).map (fun l => l.entry.event) =
      p.takenUp (due.map RetryEntry.event) := by
  induction due generalizing p with
  | nil => rfl
  | cons entry due ih =>
      rw [departures, List.map_cons, takenUp]
      cases hreleased : p.commons.isReleased entry.event with
      | true =>
          have hsame := resubmit_of_released hreleased
          rw [if_pos rfl, if_pos rfl, hsame, List.filter_cons_of_neg (by simp)]
          exact ih p
      | false =>
          rw [if_neg Bool.false_ne_true, if_neg Bool.false_ne_true,
            List.filter_cons_of_pos (by simp), List.map_cons]
          exact congrArg (entry.event :: ·) (ih _)

theorem perm_dueEntries (p : Pipe P) :
    p.connector.retryQueue.Perm
      ((p.connector.retryQueue.filter fun entry => p.now < entry.readyAt) ++ p.dueEntries) := by
  have hrest : (p.connector.retryQueue.filter fun entry => decide (p.now < entry.readyAt)) =
      p.connector.retryQueue.filter fun entry => !decide (entry.readyAt ≤ p.now) := by
    refine List.filter_congr fun entry _ => ?_
    rw [← decide_not]
    exact decide_eq_decide.mpr Nat.not_le.symm
  have hsplit := List.filter_append_perm (fun entry : RetryEntry => decide (entry.readyAt ≤ p.now))
    p.connector.retryQueue
  rw [hrest]
  exact (hsplit.symm.trans List.perm_append_comm).trans
    ((List.mergeSort_perm _ _).symm.append_left _)

theorem readyAt_dueEntries {entry : RetryEntry} (h : entry ∈ p.dueEntries) :
    entry.readyAt ≤ p.now :=
  of_decide_eq_true (List.mem_filter.mp ((List.mergeSort_perm _ _).mem_iff.mp h)).2

end Departures

/-- The retry queue is left alone, nothing of it is told, and nobody is put to sleep. -/
structure Still (p p' : Pipe P) : Prop where
  queue : p'.connector.retryQueue = p.connector.retryQueue
  trace : ∃ told, p'.trace = told ++ p.trace ∧ ∀ o ∈ told, o.ofFailure = false
  sleeps : Sleeps p p'

namespace Still

theorem trans (h : Still p p') (h' : Still p' p'') : Still p p'' := by
  obtain ⟨told, htrace, htold⟩ := h.trace
  obtain ⟨told', htrace', htold'⟩ := h'.trace
  refine ⟨h'.queue.trans h.queue, ⟨told' ++ told, ?_, fun o ho => ?_⟩, h.sleeps.trans h'.sleeps⟩
  · rw [htrace', htrace, List.append_assoc]
  · exact (List.mem_append.mp ho).elim (htold' o) (htold o)

theorem of_sleeps (sleeps : Sleeps p p')
    (queue : p'.connector.retryQueue = p.connector.retryQueue) (trace : p'.trace = p.trace) :
    Still p p' :=
  ⟨queue, ⟨[], trace, fun _ ho => absurd ho List.not_mem_nil⟩, sleeps⟩

theorem of_tasks (tasks : p'.tasks = p.tasks)
    (queue : p'.connector.retryQueue = p.connector.retryQueue) (trace : p'.trace = p.trace) :
    Still p p' :=
  of_sleeps (.of_queue tasks fun _ hentry => queue ▸ hentry) queue trace

theorem of_mild (h : Mild p p') : Still p p' :=
  ⟨h.retryQueue, h.trace, .of_queue h.tasks fun _ hentry => h.retryQueue ▸ hentry⟩

theorem setTask (p : Pipe P) (id : TaskId) {process : Process}
    (awake : Task.isWatching ⟨id, process⟩ = false) : Still p (p.setTask id process) :=
  of_sleeps (.setTask p id awake) rfl rfl

theorem spawn (p : Pipe P) {process : Process}
    (awake : Task.isWatching ⟨p.nextTask, process⟩ = false) : Still p (p.spawn process) :=
  of_sleeps (.append rfl (fun _ ht => List.mem_singleton.mp ht ▸ awake) rfl) rfl rfl

theorem of_retires (h : Retires id p p') : Still p p' :=
  of_sleeps (.of_retires h) (by cases h <;> rfl) (trace_of_retires h)

theorem transferFile (p : Pipe P) (e : EventRef) : Still p (p.transferFile e).1 := by
  have hheld : Still p (p.withLedger (p.commons.ledger.hold e.id).1) := of_tasks rfl rfl rfl
  refine transferFile_cases p e (fun _ => of_tasks rfl rfl rfl) (fun _ => hheld)
    (fun _ => hheld.trans (of_tasks rfl rfl rfl)) fun a _ _ _ => ?_
  have haccepted : Still p (p.accept e) := of_tasks rfl rfl rfl
  exact haccepted.trans (spawn _ rfl)

theorem callSend (p : Pipe P) (events : List EventRef) (payload : Bytes) :
    Still p (p.callSend events payload).1 := by
  have hnew : Still p p.newTask.1 := of_tasks rfl rfl rfl
  refine hnew.trans ?_
  unfold Pipe.callSend
  dsimp only
  split
  · exact (of_mild (.dropAll _ events)).trans (setTask _ p.nextTask rfl)
  · split
    · exact setTask _ p.nextTask rfl
    · obtain ⟨q, link, hmild, hset⟩ := askForTablets_sets (p.newTask.1.withLedger (events.foldl
        (fun l e => l.resetRetry e.id p.connector.settings.initialRetryMs) p.commons.ledger))
        p.nextTask { events, payload, purpose := .call }
      have hreset : Still p.newTask.1 (p.newTask.1.withLedger (events.foldl
        (fun l e => l.resetRetry e.id p.connector.settings.initialRetryMs) p.commons.ledger)) :=
        of_tasks rfl rfl rfl
      have hsubmit : Still p.newTask.1 (p.newTask.1.submit p.nextTask
          { events, payload, purpose := .call }) := by
        rw [submit_eq]
        exact hset ▸ hreset.trans ((of_mild hmild).trans (setTask q p.nextTask rfl))
      exact hsubmit

theorem aside [Batch.Payload P] (h : Aside p p') : Still p p' := by
  have hcancel (id? : Option TaskId) : Still p (p.cancel id?) := by
    cases id? <;> exact of_tasks rfl rfl rfl
  have hspawn (q : Pipe P) (process : Process) (same : Still p q)
      (awake : Task.isWatching ⟨q.nextTask, process⟩ = false) : Still p (q.spawn process) :=
    same.trans (spawn q awake)
  cases h with
  | clock | surroundings | neighbours | shutdownQueue => exact of_tasks rfl rfl rfl
  | startWorker => exact hspawn _ .looking (of_tasks rfl rfl rfl) rfl
  | startConsumer => exact hspawn _ .consuming (of_tasks rfl rfl rfl) rfl
  | waitIdle ms => exact hspawn p (.idling (p.now + ms) none) (of_tasks rfl rfl rfl) rfl
  | cancelWorker => exact hcancel p.worker
  | cancelConsumer => exact hcancel p.consumer

end Still

section Trace

/-- What tells of no failure adds nothing to what is told of failures. -/
theorem filterMap_of_mild {α : Type} {told : Occurrence → Option α} {new : List Occurrence}
    (trace : p'.trace = new ++ p.trace) (silent : ∀ o ∈ new, told o = none) :
    p'.trace.reverse.filterMap told = p.trace.reverse.filterMap told := by
  rw [trace, List.reverse_append, List.filterMap_append,
    List.filterMap_eq_nil_iff.mpr fun o ho => silent o (List.mem_reverse.mp ho), List.append_nil]

theorem Occurrence.silent_of_mild {o : Occurrence} (h : o.ofFailure = false) :
    o.queued? = none ∧ o.resubmitted? = none := by
  cases o with
  | failed | queued | resubmitted => cases h
  | _ => exact ⟨rfl, rfl⟩

theorem Still.told (h : Still p p') :
    p'.trace.reverse.filterMap Occurrence.queued? = p.trace.reverse.filterMap Occurrence.queued? ∧
      p'.trace.reverse.filterMap Occurrence.resubmitted? =
        p.trace.reverse.filterMap Occurrence.resubmitted? := by
  obtain ⟨new, htrace, hnew⟩ := h.trace
  exact ⟨filterMap_of_mild htrace fun o ho => (Occurrence.silent_of_mild (hnew o ho)).1,
    filterMap_of_mild htrace fun o ho => (Occurrence.silent_of_mild (hnew o ho)).2⟩

end Trace

namespace Rostered

variable {r : Roster}

theorem enter_nil (r : Roster) : r.enter [] = r := by
  rw [Roster.enter, List.append_nil]

theorem leave_nil (r : Roster) : r.leave [] = r := by
  rw [Roster.leave, List.append_nil]

theorem watchers_le (p : Pipe P) : p.tasks.countP Task.isWatching ≤ p.workers := by
  refine List.countP_mono_left fun t _ ht => ?_
  unfold Task.isWatching at ht
  unfold Task.isWorker
  split at ht
  · rename_i heq
    rw [heq]
  · cases ht

/-- Some entries come to the queue and some leave it, and both are written down. -/
theorem Kept.next (hs : Kept ⟨p, r⟩) (came : List RetryEntry) (gone : List Leaving)
    (alone : p'.workers ≤ 1)
    (queue : (p.connector.retryQueue ++ came).Perm
      (p'.connector.retryQueue ++ gone.map Leaving.entry))
    (queued : p'.trace.reverse.filterMap Occurrence.queued? =
      p.trace.reverse.filterMap Occurrence.queued? ++ came.map RetryEntry.event)
    (resubmitted : p'.trace.reverse.filterMap Occurrence.resubmitted? =
      p.trace.reverse.filterMap Occurrence.resubmitted? ++
        (gone.filter fun l => l.how = .resubmitted).map fun l => l.entry.event)
    (ready : ∀ l ∈ gone, l.how ≠ .discarded → l.entry.readyAt ≤ l.at_)
    (asleep : ∀ t ∈ p'.tasks, ∀ next, t.process = .watching next false →
      ∀ entry ∈ p'.connector.retryQueue, ∃ moment, next = some moment ∧ moment ≤ entry.readyAt) :
    Kept ⟨p', (r.enter came).leave gone⟩ := by
  refine ⟨alone, ?_, ?_, ?_, fun l hl how => ?_, asleep⟩
  · have hcame : (p.connector.retryQueue ++ r.left.map Leaving.entry ++ came).Perm
        (p.connector.retryQueue ++ came ++ r.left.map Leaving.entry) := by
      rw [List.append_assoc, List.append_assoc]
      exact List.perm_append_comm.append_left _
    have hgone : (p.connector.retryQueue ++ came ++ r.left.map Leaving.entry).Perm
        (p'.connector.retryQueue ++ (r.left ++ gone).map Leaving.entry) := by
      rw [List.map_append]
      refine (queue.append_right _).trans ?_
      rw [List.append_assoc]
      exact List.perm_append_comm.append_left _
    exact ((hs.entered.append_right came).trans hcame).trans hgone
  · refine queued.trans ?_
    rw [show ((r.enter came).leave gone).entered = r.entered ++ came from rfl, List.map_append]
    exact congrArg (· ++ _) hs.queued
  · refine resubmitted.trans ?_
    rw [show ((r.enter came).leave gone).left = r.left ++ gone from rfl, List.filter_append,
      List.map_append]
    exact congrArg (· ++ _) hs.resubmitted
  · exact (List.mem_append.mp hl).elim (fun hl => hs.ready l hl how) fun hl => ready l hl how

/-- Where nothing is queued or taken, everybody may go on sleeping. -/
theorem Kept.asleep_of_sleeps (hs : Kept ⟨p, r⟩) (sleeps : Sleeps p p') :
    ∀ t ∈ p'.tasks, ∀ next, t.process = .watching next false →
      ∀ entry ∈ p'.connector.retryQueue, ∃ moment, next = some moment ∧ moment ≤ entry.readyAt := by
  intro t ht next hprocess entry hentry
  have hwatching : t.isWatching = true := by
    rw [Task.isWatching, hprocess]
  obtain ⟨ht, hqueue⟩ := sleeps.slept (Nat.le_trans (watchers_le p) hs.alone) t ht hwatching
  exact hs.asleep t ht next hprocess entry (hqueue entry hentry)

theorem Kept.still (hs : Kept ⟨p, r⟩) (h : Still p p') (alone : p'.workers ≤ 1) :
    Kept ⟨p', r⟩ := by
  obtain ⟨hqueued, hresubmitted⟩ := h.told
  have hnext := hs.next [] [] alone (by rw [h.queue]; exact .refl _)
    (by rw [hqueued]; exact (List.append_nil _).symm)
    (by rw [hresubmitted]; exact (List.append_nil _).symm) (fun _ hl => absurd hl List.not_mem_nil)
    (hs.asleep_of_sleeps h.sleeps)
  rwa [enter_nil, leave_nil] at hnext

/-- What is discarded leaves the retry queue, and all else stays. -/
theorem Kept.discarded (hs : Kept ⟨p, r⟩) (alone : p'.workers ≤ 1) {queue : List RetryEntry}
    (queued : p.connector.retryQueue.Perm (p'.connector.retryQueue ++ queue))
    (tasks : p'.tasks = p.tasks) (trace : p'.trace = p.trace) :
    Kept ⟨p', r.leave (p.discardings queue)⟩ := by
  have hnone : (p.discardings queue).filter (fun l => l.how = .resubmitted) = [] := by
    refine List.filter_eq_nil_iff.mpr fun l hl => ?_
    obtain ⟨entry, -, rfl⟩ := List.mem_map.mp hl
    simp
  have hentries : (p.discardings queue).map Leaving.entry = queue := by
    rw [discardings, List.map_map]
    exact List.map_id _
  rw [← enter_nil r]
  refine hs.next [] _ alone ?_ (by rw [trace]; exact (List.append_nil _).symm)
    (by rw [trace, hnone]; exact (List.append_nil _).symm) (fun l hl how => ?_)
    (hs.asleep_of_sleeps (.of_queue tasks fun entry hentry => ?_))
  · rw [hentries, List.append_nil]
    exact queued
  · obtain ⟨entry, -, rfl⟩ := List.mem_map.mp hl
    exact absurd rfl how
  · exact queued.mem_iff.mpr (List.mem_append_left _ hentry)

/-- Entries come to the end of the retry queue, and each is told of. -/
theorem Kept.requeues (hs : Kept ⟨p, r⟩) (alone : p'.workers ≤ 1) {fresh : List RetryEntry}
    {told : List Occurrence} (queue : p'.connector.retryQueue = p.connector.retryQueue ++ fresh)
    (trace : p'.trace = (fresh.map fun entry => Occurrence.queued entry.event).reverse ++ told ++
      p.trace)
    (silent : ∀ o ∈ told, o.queued? = none ∧ o.resubmitted? = none) (sleeps : Sleeps p p') :
    Kept ⟨p', r.enter (p'.connector.retryQueue.drop p.connector.retryQueue.length)⟩ := by
  have hfresh : p'.connector.retryQueue.drop p.connector.retryQueue.length = fresh := by
    rw [queue, List.drop_left]
  have hreverse : p'.trace.reverse = p.trace.reverse ++ told.reverse ++
      fresh.map fun entry => Occurrence.queued entry.event := by
    rw [trace, List.reverse_append, List.reverse_append, List.reverse_reverse, List.append_assoc]
  have hqueued : told.reverse.filterMap Occurrence.queued? = [] :=
    List.filterMap_eq_nil_iff.mpr fun o ho => (silent o (List.mem_reverse.mp ho)).1
  have hresubmitted : told.reverse.filterMap Occurrence.resubmitted? = [] :=
    List.filterMap_eq_nil_iff.mpr fun o ho => (silent o (List.mem_reverse.mp ho)).2
  rw [hfresh, ← leave_nil (r.enter fresh)]
  refine hs.next fresh [] alone ?_ ?_ ?_ (fun _ hl => absurd hl List.not_mem_nil)
    (hs.asleep_of_sleeps sleeps)
  · rw [queue, List.map_nil, List.append_nil]
  · rw [hreverse, List.filterMap_append, List.filterMap_append, hqueued, List.append_nil,
      List.filterMap_map]
    exact congrArg (_ ++ ·) (congrFun (List.filterMap_eq_map (f := RetryEntry.event)) fresh)
  · rw [hreverse, List.filterMap_append, List.filterMap_append, hresubmitted, List.append_nil,
      List.filterMap_map]
    exact congrArg (_ ++ ·) (List.filterMap_eq_nil_iff.mpr fun _ _ => rfl)

/-- A task fails, and what it had in hand comes to the retry queue. -/
theorem Kept.fails {q : Pipe P} {inHand : List EventRef} {error : TransferError}
    (hs : Kept ⟨p, r⟩) (alone : p'.workers ≤ 1) (mild : Mild p q)
    (retires : Retires id (q.failAll inHand error) p') :
    Kept ⟨p', r.enter (p'.connector.retryQueue.drop p.connector.retryQueue.length)⟩ := by
  obtain ⟨fresh, told, increases, hqueue, htrace, htold⟩ := queued_of_fails mild retires
  refine hs.requeues alone hqueue htrace (fun o ho => ?_) (sleeps_of_fails mild retires)
  rcases List.mem_cons.mp ho with rfl | ho
  · exact ⟨rfl, rfl⟩
  · exact Occurrence.silent_of_mild (htold o ho)

/-- An event that failed elsewhere comes to the retry queue. -/
theorem Kept.addFailure (hs : Kept ⟨p, r⟩) (e : EventRef) (alone : (p.addFailure e).workers ≤ 1) :
    Kept ⟨p.addFailure e, r.enter
      ((p.addFailure e).connector.retryQueue.drop p.connector.retryQueue.length)⟩ := by
  have hrequeues := Requeues.addFailure p e
  obtain ⟨fresh, hqueue, -, htrace⟩ := hrequeues.queue
  have htold : (p.addFailure e).trace =
      (fresh.map fun entry => Occurrence.queued entry.event).reverse ++ [] ++ p.trace := by
    rw [List.append_nil]
    exact htrace
  exact hs.requeues alone hqueue htold (fun _ ho => absurd ho List.not_mem_nil) hrequeues.sleeps

theorem worker_of_looks (looks : p.looks id = true) :
    ∃ t ∈ p.tasks, t.id = id ∧ t.isWorker = true := by
  unfold Pipe.looks at looks
  cases htask : p.task? id with
  | none =>
      rw [htask] at looks
      cases looks
  | some process =>
      rw [htask] at looks
      obtain ⟨t, hfind, rfl⟩ := Option.map_eq_some_iff.mp htask
      refine ⟨t, List.mem_of_find?_eq_some hfind, by simpa using List.find?_some hfind, ?_⟩
      unfold Task.isWorker
      split at looks
      · rename_i heq
        rw [Option.some.inj heq]
      · rename_i heq
        rw [Option.some.inj heq]
      · cases looks

theorem le_nextReady {c : Connector} {entry : RetryEntry} (h : entry ∈ c.retryQueue) :
    ∃ moment, c.nextReady = some moment ∧ moment ≤ entry.readyAt := by
  have hmem := List.mem_map_of_mem (f := RetryEntry.readyAt) h
  cases hmin : c.nextReady with
  | none =>
      rw [List.min?_eq_none_iff.mp hmin] at hmem
      cases hmem
  | some moment => exact ⟨moment, rfl, (List.min?_eq_some_iff.mp hmin).2 _ hmem⟩

/-- The worker takes what is due. -/
theorem Kept.looks (hs : Kept ⟨p, r⟩) (alone : (p.runLooking id).workers ≤ 1)
    (looks : p.looks id = true) :
    Kept ⟨p.runLooking id, r.leave (p.dueTaken.departures p.dueEntries)⟩ := by
  have hlook := look_runLooking p id
  have hentries := entry_departures p.dueTaken p.dueEntries
  have hreverse : (p.runLooking id).trace.reverse = p.trace.reverse ++
      (p.dueTaken.takenUp p.due).map Occurrence.resubmitted := by
    rw [hlook.trace, List.reverse_append, List.reverse_reverse]
  rw [← enter_nil r]
  refine hs.next [] _ alone ?_ ?_ ?_ (fun l hl _ => ?_) ?_
  · rw [hentries, hlook.retryQueue, List.append_nil]
    exact p.perm_dueEntries
  · rw [hreverse, List.filterMap_append, List.filterMap_map]
    exact congrArg (_ ++ ·) (List.filterMap_eq_nil_iff.mpr fun _ _ => rfl)
  · rw [resubmitted_departures, ← due_eq, hreverse, List.filterMap_append, List.filterMap_map]
    exact congrArg (_ ++ ·) List.filterMap_some
  · obtain ⟨hat, hmem⟩ := at_departures p.dueTaken hl
    rw [hat]
    exact readyAt_dueEntries (p := p) hmem
  · obtain ⟨fresh, htasks, hfresh⟩ := hlook.tasks
    intro t ht next hprocess entry hentry
    rw [htasks] at ht
    rcases List.mem_append.mp ht with ht | ht
    · obtain ⟨ht, hother⟩ := List.mem_filter.mp ht
      rcases List.mem_append.mp ht with ht | ht
      · -- There is no second worker.
        obtain ⟨w, hw, hid, hworker⟩ := worker_of_looks looks
        have hsame := eq_of_countP_le_one hs.alone ht hw (by simp [Task.isWorker, hprocess]) hworker
        simp [hsame, hid] at hother
      · have hmem : t.process ∈ fresh.map Task.process := List.mem_map_of_mem ht
        rw [hfresh] at hmem
        obtain ⟨e, -, hresumed⟩ := List.mem_filterMap.mp hmem
        have hworks := (carried_resumed hresumed).2.1
        rw [hprocess] at hworks
        cases hworks
    · cases List.mem_singleton.mp ht
      cases hprocess
      exact le_nextReady hentry

variable [Batch.Payload P]

theorem Kept.ran (hs : Kept ⟨p, r⟩) (id : TaskId)
    (apart : ∀ process, p.task? id = some process → process.consumes = false)
    (alone : (p.run id).workers ≤ 1) : Kept ⟨p.run id, r.after p (.ran id) (p.run id)⟩ := by
  have hstill {p' : Pipe P} (h : Still p p') (alone : p'.workers ≤ 1) :
      Kept ⟨p', r.enter (p'.connector.retryQueue.drop p.connector.retryQueue.length)⟩ := by
    rw [h.queue, List.drop_length, enter_nil]
    exact hs.still h alone
  cases hlooks : p.looks id with
  | true =>
      rw [Roster.after, hlooks, run_of_looks hlooks]
      exact hs.looks (run_of_looks hlooks ▸ alone) hlooks
  | false =>
      rw [Roster.after, hlooks]
      revert alone
      refine run_cases (motive := fun looking p' => looking = false → p'.workers ≤ 1 →
        Kept ⟨p', r.enter (p'.connector.retryQueue.drop p.connector.retryQueue.length)⟩) p id apart
        ?_ ?_ ?_ ?_ ?_ ?_ hlooks
      · intro process htask houtcome _
        generalize p.run id = p' at houtcome
        intro halone
        cases houtcome with
        | @goesOn q process' mild same works apart =>
            have hawake : Task.isWatching ⟨id, process'⟩ = false := by
              cases process' with
              | watching => cases works
              | _ => rfl
            exact hstill ((Still.of_mild mild).trans (.setTask q id hawake)) halone
        | done mild retires =>
            exact hstill ((Still.of_mild mild).trans (.of_retires retires)) halone
        | failed mild error retires => exact hs.fails halone mild retires
      · exact fun _ h => absurd h Bool.noConfusion
      · exact fun _ => hstill (.of_sleeps (.removeTask p id) rfl rfl)
      · intro _
        obtain ⟨hconnector, -, htrace, -⟩ := wakeWorker_fields (p.removeTask id)
        refine hstill (.of_sleeps ((Sleeps.removeTask p id).trans (.wakeWorker _)) ?_ htrace)
        rw [hconnector]
        rfl
      · exact fun process _ awake _ => hstill (.setTask p id awake)
      · exact fun _ => hstill (.of_tasks rfl rfl rfl)

theorem Kept.step {s s' : Rostered P} (hs : s.Kept) (h : Step s s') : s'.Kept := by
  obtain @⟨p, p', r, errand, hdoes, halone⟩ := h
  cases hdoes with
  | transferred known => exact hs.still (.transferFile _ _) halone
  | sent payload known => exact hs.still (.callSend _ _ payload) halone
  | ran id apart => exact hs.ran id apart halone
  | aside beside => exact hs.still (.aside beside) halone
  | retuned => exact hs.still (.of_tasks rfl rfl rfl) halone
  | failed e => exact hs.addFailure e halone
  | removed e => exact hs.still (.of_mild (.remove _ e)) halone
  | discarded pipe region =>
      refine hs.discarded halone ?_ rfl rfl
      refine List.perm_append_comm.trans ?_ |>.symm
      exact List.filter_append_perm _ _
  | closed =>
      cases hclosed : p.connector.closed with
      | true =>
          rw [closeConnector_of_closed hclosed] at halone ⊢
          rw [Roster.after, if_pos hclosed]
          exact hs
      | false =>
          have hclose : p.connector.close p.commons = (_, _) :=
            if_neg (Bool.eq_false_iff.mp hclosed)
          rw [Roster.after, if_neg (Bool.eq_false_iff.mp hclosed)]
          refine hs.discarded halone ?_ rfl rfl
          simp only [closeConnector, hclose]
          exact .refl _

end Rostered

/-- The worker takes what is due, in commit order and what is of one commit in the order of the
queue, and takes up what is not released; all else it leaves as it is. -/
structure TakesDue (id : TaskId) (taken : List EventRef) (p p' : Pipe P) : Prop where
  rest : p'.connector.retryQueue = p.connector.retryQueue.filter fun entry => p.now < entry.readyAt
  due : p.due.Perm ((p.connector.retryQueue.filter fun entry => entry.readyAt ≤ p.now).map
    RetryEntry.event)
  sorted : p.due.Pairwise fun a b => a.event.commit.le b.event.commit = true
  ties : ∀ commit, (p.due.filter fun e => e.event.commit = commit) =
    ((p.connector.retryQueue.filter fun entry => entry.readyAt ≤ p.now).map
      RetryEntry.event).filter fun e => e.event.commit = commit
  unreleased : taken.Sublist (p.due.filter fun e => !p.commons.isReleased e)
  all : (taken.filter fun e => !p'.commons.isReleased e) =
    p.due.filter fun e => !p'.commons.isReleased e
  told : p'.trace = (taken.map Occurrence.resubmitted).reverse ++ p.trace
  started : ∃ fresh, p'.tasks = ((p.tasks ++ fresh).filter fun t => t.id != id) ++
      [⟨id, .watching p'.connector.nextReady false⟩] ∧
    fresh.map Task.process = taken.filterMap (resumed p.connector.settings p.now)

section Sorting

theorem commit_trans (a b c : EventRef) : a.event.commit.le b.event.commit = true →
    b.event.commit.le c.event.commit = true → a.event.commit.le c.event.commit = true :=
  CommitId.le_trans _ _ _

theorem commit_total (a b : EventRef) :
    (a.event.commit.le b.event.commit || b.event.commit.le a.event.commit) = true :=
  CommitId.le_total _ _

/-- Sorting by commit leaves what is of one commit in its order. -/
theorem filter_mergeSort_commit (events : List EventRef) (commit : CommitId) :
    ((events.mergeSort fun a b => a.event.commit.le b.event.commit).filter
      fun e => e.event.commit = commit) = events.filter fun e => e.event.commit = commit := by
  have hties : (events.filter fun e => e.event.commit = commit).Pairwise
      fun a b => a.event.commit.le b.event.commit = true := by
    refine List.pairwise_of_forall_mem_list fun a ha b hb => ?_
    rw [of_decide_eq_true (List.mem_filter.mp ha).2, of_decide_eq_true (List.mem_filter.mp hb).2]
    exact commit.le_refl
  have hsub := (List.sublist_mergeSort commit_trans commit_total hties List.filter_sublist).filter
    fun e => decide (e.event.commit = commit)
  have hperm := (List.mergeSort_perm events fun a b => a.event.commit.le b.event.commit).filter
    fun e => decide (e.event.commit = commit)
  simp only [List.filter_filter, Bool.and_self] at hsub
  exact (hsub.eq_of_length hperm.length_eq.symm).symm

end Sorting

theorem takesDue_of_looks [Batch.Payload P] (looks : p.looks id = true) :
    ∃ taken, TakesDue id taken p (p.run id) := by
  have hlook := look_runLooking p id
  refine ⟨p.dueTaken.takenUp p.due, ?_⟩
  rw [run_of_looks looks]
  exact ⟨hlook.retryQueue, List.mergeSort_perm _ _,
    List.pairwise_mergeSort commit_trans commit_total _, filter_mergeSort_commit _,
    sublist_takenUp p.dueTaken p.due, filter_takenUp p.dueTaken p.due, hlook.trace, hlook.tasks⟩

/-- A worker that is not told to stop and cannot run sleeps until something is ready. -/
theorem Rostered.Kept.not_ready {s : Rostered P} (hs : s.Kept) (quiet : s.pipe.isQuiet = true)
    {t : Task} (ht : t ∈ s.pipe.tasks) (worker : t.isWorker = true)
    (going : s.pipe.isCancelled t.id = false) :
    ∀ entry ∈ s.pipe.connector.retryQueue, s.pipe.now < entry.readyAt := by
  intro entry hentry
  have hwaits := List.all_eq_true.mp quiet t ht
  unfold Task.isWorker at worker
  rw [Bool.not_eq_true', canRun] at hwaits
  cases hprocess : t.process with
  | looking =>
      rw [hprocess] at hwaits
      cases hwaits
  | watching next woken =>
      simp only [hprocess, canRunProcess, going, Bool.false_or, Bool.or_eq_false_iff] at hwaits
      obtain ⟨rfl, hnext⟩ := hwaits
      obtain ⟨moment, rfl, hle⟩ := hs.asleep t ht next hprocess entry hentry
      exact Nat.lt_of_lt_of_le (Nat.lt_of_not_le (of_decide_eq_false hnext)) hle
  | _ =>
      rw [hprocess] at worker
      cases worker

/-- With one worker at a time, every entry of the retry queue is still there or left it once:
discarded, or taken by the worker no earlier than it was ready. What the worker took was
resubmitted once, unless its event was released. Nothing that is ready is left while everybody
waits, and whenever the worker looks it takes what is due, in commit order. -/
theorem retried_once [Batch.Payload P] {s s' : Rostered P} (noTasks : s.pipe.tasks = [])
    (noRetries : s.pipe.connector.retryQueue = []) (noTrace : s.pipe.trace = [])
    (blank : s.roster = {}) (reach : Relation.ReflTransGen Rostered.Step s s') :
    s'.roster.entered.Perm
        (s'.pipe.connector.retryQueue ++ s'.roster.left.map Leaving.entry) ∧
      s'.pipe.trace.reverse.filterMap Occurrence.queued? =
        s'.roster.entered.map RetryEntry.event ∧
      s'.pipe.trace.reverse.filterMap Occurrence.resubmitted? =
        (s'.roster.left.filter fun l => l.how = .resubmitted).map (fun l => l.entry.event) ∧
      (∀ l ∈ s'.roster.left, l.how ≠ .discarded → l.entry.readyAt ≤ l.at_) ∧
      (s'.pipe.isQuiet = true → ∀ t ∈ s'.pipe.tasks, t.isWorker = true →
        s'.pipe.isCancelled t.id = false →
          ∀ entry ∈ s'.pipe.connector.retryQueue, s'.pipe.now < entry.readyAt) ∧
      ∀ id, s'.pipe.looks id = true → ∃ taken, TakesDue id taken s'.pipe (s'.pipe.run id) := by
  have hstart : s.Kept := by
    refine ⟨?_, ?_, ?_, ?_, fun l hl => ?_, fun t ht => ?_⟩
    · rw [workers, noTasks]
      exact Nat.zero_le 1
    · rw [noRetries, blank]
      exact .refl _
    · rw [noTrace, blank]
      rfl
    · rw [noTrace, blank]
      rfl
    · rw [blank] at hl
      cases hl
    · rw [noTasks] at ht
      cases ht
  have hkept : s'.Kept := by
    induction reach with
    | refl => exact hstart
    | tail _ hstep ih => exact ih.step hstep
  exact ⟨hkept.entered, hkept.queued, hkept.resubmitted, hkept.ready,
    fun quiet t ht worker going => hkept.not_ready quiet ht worker going,
    fun id looks => takesDue_of_looks looks⟩

/-- Two tablets are sent in vain. One is discarded; the worker takes the other when its pause is
over. -/
theorem retried_once_of_discarded :
    let tablet (id : EventId) (pipe : String) : EventRef := ⟨id, {
      content := .tablet { target := "", rows := 0, payload := [1] }, pipe, region := 0
      commit := .zero, progress := 0 }⟩
    let p : Pipe Batch.PlainPayload := {
      commons := { ledger := (({} : Ledger).enrol 0).enrol 0 }
      queue := { pipe := "q", settings := {}, block := 0 }
      batch := { id := "b", maxDelayMs := 1, slice := 0, payload := {} }
      connector := .create "c" { initialRetryMs := 100 }
      clients := .ofClients [0, 0]
      disk := {}
      peer := { fallback := .failure .disconnected } }
    let sent := ((p.callSend [tablet 0 "a"] [1]).1.callSend [tablet 1 "b"] [1]).1
    let watched := (((sent.run 0).run 1).discard "b" 0).1.startWorker.run 2
    let later := (watched.setClock 200).run 2
    ∃ roster, Relation.ReflTransGen Rostered.Step ⟨p, {}⟩ ⟨later, roster⟩ ∧
      roster.left = [⟨⟨tablet 1 "b", 200⟩, .discarded, 0⟩,
        ⟨⟨tablet 0 "a", 200⟩, .resubmitted, 200⟩] ∧
      roster.entered.Perm (later.connector.retryQueue ++ roster.left.map Leaving.entry) := by
  intro tablet p sent watched later
  have apart {q : Pipe Batch.PlainPayload} {id : TaskId}
      (h : (q.task? id).all (fun process => !process.consumes) = true) :
      ∀ process, q.task? id = some process → process.consumes = false := by
    intro process htask
    simpa [htask] using h
  have reach : ∃ roster, Relation.ReflTransGen Rostered.Step ⟨p, {}⟩ ⟨later, roster⟩ ∧
      roster.left = [⟨⟨tablet 1 "b", 200⟩, .discarded, 0⟩,
        ⟨⟨tablet 0 "a", 200⟩, .resubmitted, 200⟩] := by
    refine ⟨_, .head (.mk (.sent [1] ?_) ?_) (.head (.mk (.sent [1] ?_) ?_)
      (.head (.mk (.ran 0 (apart ?_)) ?_) (.head (.mk (.ran 1 (apart ?_)) ?_)
        (.head (.mk (.discarded "b" 0) ?_) (.head (.mk (.aside .startWorker) ?_)
          (.head (.mk (.ran 2 (apart ?_)) ?_) (.head (.mk (.aside (.clock 200)) ?_)
            (.single (.mk (.ran 2 (apart ?_)) ?_))))))))), ?_⟩ <;> decide +kernel
  obtain ⟨roster, hreach, hleft⟩ := reach
  have hperm := (retried_once rfl rfl rfl rfl hreach).1
  clear_value later
  exact ⟨roster, hreach, hleft, hperm⟩

end Pipe
end Courier
