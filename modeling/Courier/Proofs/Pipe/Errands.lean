import Courier.Proofs.Pipe.Resumption

/-!
What happens to a connector, step by step: it is handed files and tablets, its tasks run, it is
discarded from and closed, and around it time passes and others hold and drop references. What a
failure does to the retry queue and to those that wait for it is said here once.
-/

namespace Courier

open Transfer

theorem eq_of_countP_le_one {α : Type} {holds : α → Bool} {xs : List α} {x y : α}
    (single : xs.countP holds ≤ 1) (hx : x ∈ xs) (hy : y ∈ xs) (hxs : holds x = true)
    (hys : holds y = true) : x = y := by
  rw [List.countP_eq_length_filter] at single
  have hx' := List.mem_filter.mpr ⟨hx, hxs⟩
  have hy' := List.mem_filter.mpr ⟨hy, hys⟩
  match hfilter : xs.filter holds with
  | [] =>
      rw [hfilter] at hx'
      cases hx'
  | [z] =>
      rw [hfilter, List.mem_singleton] at hx' hy'
      exact hx'.trans hy'.symm
  | _ :: _ :: _ =>
      rw [hfilter, List.length_cons, List.length_cons] at single
      omega

namespace Pipe

variable {P : Type} {p p' p'' : Pipe P} {id : TaskId} {e : EventRef}

section Waking

theorem Task.id_wake (t : Task) : t.wake.id = t.id := by
  obtain ⟨id, process⟩ := t
  cases process <;> rfl

theorem Task.carried_wake (t : Task) : t.wake.process.carried = t.process.carried := by
  obtain ⟨id, process⟩ := t
  cases process <;> rfl

theorem Task.isWatching_wake (t : Task) : t.wake.isWatching = false := by
  obtain ⟨id, process⟩ := t
  cases process <;> rfl

theorem tasks_wakeWorker (p : Pipe P) :
    ∃ woken : Task → Task, p.wakeWorker.tasks = p.tasks.map woken ∧
      ∀ t, woken t = t ∨ woken t = t.wake := by
  unfold wakeWorker
  split
  · refine ⟨_, rfl, fun t => ?_⟩
    split
    · exact .inr rfl
    · exact .inl rfl
  · exact ⟨_, (List.map_id _).symm, fun _ => .inl rfl⟩

/-- Nothing but tasks and the wake-up that nobody waited for is touched. -/
theorem wakeWorker_fields (p : Pipe P) :
    p.wakeWorker.connector = p.connector ∧ p.wakeWorker.commons = p.commons ∧
      p.wakeWorker.trace = p.trace ∧ p.wakeWorker.cancelled = p.cancelled := by
  unfold wakeWorker
  split <;> exact ⟨rfl, rfl, rfl, rfl⟩

/-- A worker that was waiting alone is awake afterwards. -/
theorem awake_wakeWorker (alone : p.tasks.countP Task.isWatching ≤ 1) {t : Task}
    (ht : t ∈ p.wakeWorker.tasks) : t.isWatching = false := by
  unfold wakeWorker at ht
  cases hfind : p.tasks.find? Task.isWatching with
  | none =>
      rw [hfind] at ht
      exact Bool.eq_false_iff.mpr (List.find?_eq_none.mp hfind t ht)
  | some found =>
      rw [hfind] at ht
      obtain ⟨t', ht', rfl⟩ := List.mem_map.mp ht
      split
      · exact t'.isWatching_wake
      · rename_i hother
        refine Bool.eq_false_iff.mpr fun hwatching => hother ?_
        exact congrArg Task.id (eq_of_countP_le_one alone ht' (List.mem_of_find?_eq_some hfind)
          hwatching (List.find?_some hfind))

/-- A worker that waits unwoken has waited before, and nothing was queued since. -/
structure Sleeps (p p' : Pipe P) : Prop where
  watchers : p'.tasks.countP Task.isWatching ≤ p.tasks.countP Task.isWatching
  slept : p.tasks.countP Task.isWatching ≤ 1 → ∀ t ∈ p'.tasks, t.isWatching = true →
    t ∈ p.tasks ∧ ∀ entry ∈ p'.connector.retryQueue, entry ∈ p.connector.retryQueue

namespace Sleeps

theorem of_queue (tasks : p'.tasks = p.tasks)
    (queue : ∀ entry ∈ p'.connector.retryQueue, entry ∈ p.connector.retryQueue) : Sleeps p p' :=
  ⟨by rw [tasks], fun _ t ht _ => ⟨tasks ▸ ht, queue⟩⟩

theorem trans (h : Sleeps p p') (h' : Sleeps p' p'') : Sleeps p p'' := by
  refine ⟨Nat.le_trans h'.watchers h.watchers, fun halone t ht hwatching => ?_⟩
  obtain ⟨ht', hqueue'⟩ := h'.slept (Nat.le_trans h.watchers halone) t ht hwatching
  obtain ⟨hbefore, hqueue⟩ := h.slept halone t ht' hwatching
  exact ⟨hbefore, fun entry hentry => hqueue entry (hqueue' entry hentry)⟩

theorem removeTask (p : Pipe P) (id : TaskId) : Sleeps p (p.removeTask id) :=
  ⟨List.filter_sublist.countP_le, fun _ _ ht _ =>
    ⟨List.mem_of_mem_filter ht, fun _ hentry => hentry⟩⟩

theorem append {fresh : List Task} (tasks : p'.tasks = p.tasks ++ fresh)
    (awake : ∀ t ∈ fresh, t.isWatching = false)
    (queue : p'.connector.retryQueue = p.connector.retryQueue) : Sleeps p p' := by
  refine ⟨?_, fun _ t ht hwatching => ⟨?_, fun entry hentry => queue ▸ hentry⟩⟩
  · rw [tasks, List.countP_append, List.countP_eq_zero.mpr fun t ht =>
      Bool.eq_false_iff.mp (awake t ht)]
    exact Nat.le_refl _
  · rw [tasks] at ht
    refine (List.mem_append.mp ht).resolve_right fun hfresh => ?_
    exact Bool.eq_false_iff.mp (awake t hfresh) hwatching

theorem setTask (p : Pipe P) (id : TaskId) {process : Process}
    (awake : Task.isWatching ⟨id, process⟩ = false) : Sleeps p (p.setTask id process) :=
  (removeTask p id).trans (append rfl (fun _ ht => List.mem_singleton.mp ht ▸ awake) rfl)

theorem wakeWorker (p : Pipe P) : Sleeps p p.wakeWorker := by
  obtain ⟨woken, htasks, hwoken⟩ := tasks_wakeWorker p
  refine ⟨?_, fun halone t ht hwatching => ?_⟩
  · rw [htasks, List.countP_map]
    refine List.countP_mono_left fun t _ ht => ?_
    rcases hwoken t with hsame | hwake
    · rwa [Function.comp_apply, hsame] at ht
    · rw [Function.comp_apply, hwake, t.isWatching_wake] at ht
      cases ht
  · rw [awake_wakeWorker halone ht] at hwatching
    cases hwatching

/-- Whoever waits for entries is woken when there is one more. -/
theorem of_woken {q : Pipe P} (tasks : q.tasks = p.tasks) : Sleeps p q.wakeWorker := by
  refine ⟨tasks ▸ (wakeWorker q).watchers, fun halone t ht hwatching => ?_⟩
  rw [awake_wakeWorker (tasks ▸ halone) ht] at hwatching
  cases hwatching

theorem of_retires (h : Retires id p p') : Sleeps p p' := by
  cases h with
  | finished => exact (removeTask p id).trans (of_queue rfl fun _ h => h)
  | ended answer at_ => exact setTask p id rfl

end Sleeps

end Waking

section Failing

/-- Some events fail: entries join the end of the retry queue, and tasks keep what they carry. -/
structure Requeues (events : List EventRef) (p p' : Pipe P) : Prop where
  settings : p'.connector.settings = p.connector.settings
  retryPolicy : p'.connector.retryPolicy = p.connector.retryPolicy
  now : p'.now = p.now
  size : p'.commons.ledger.entries.size = p.commons.ledger.entries.size
  carried : p'.tasks.map (fun t => (t.id, t.process.carried)) =
    p.tasks.map fun t => (t.id, t.process.carried)
  queue : ∃ fresh : List RetryEntry,
    p'.connector.retryQueue = p.connector.retryQueue ++ fresh ∧
      (fresh.map RetryEntry.event).Sublist events ∧
      p'.trace = (fresh.map fun entry => Occurrence.queued entry.event).reverse ++ p.trace
  sleeps : Sleeps p p'

namespace Requeues

theorem refl (p : Pipe P) : Requeues [] p p :=
  ⟨rfl, rfl, rfl, rfl, rfl, ⟨[], (List.append_nil _).symm, .slnil, rfl⟩,
    .of_queue rfl fun _ h => h⟩

theorem trans {events events' : List EventRef} (h : Requeues events p p')
    (h' : Requeues events' p' p'') : Requeues (events ++ events') p p'' := by
  obtain ⟨fresh, hqueue, hsub, htrace⟩ := h.queue
  obtain ⟨fresh', hqueue', hsub', htrace'⟩ := h'.queue
  refine ⟨h'.settings.trans h.settings, h'.retryPolicy.trans h.retryPolicy, h'.now.trans h.now,
    h'.size.trans h.size, h'.carried.trans h.carried, ⟨fresh ++ fresh', ?_, ?_, ?_⟩,
    h.sleeps.trans h'.sleeps⟩
  · rw [hqueue', hqueue, List.append_assoc]
  · rw [List.map_append]
    exact hsub.append hsub'
  · rw [htrace', htrace, List.map_append, List.reverse_append, List.append_assoc]

theorem backOff (p : Pipe P) (e : EventRef) :
    Requeues [] p { p with commons := p.commons.backOff e } :=
  ⟨rfl, rfl, rfl, Ledger.size_set _ _ _, rfl, ⟨[], (List.append_nil _).symm, .slnil, rfl⟩,
    .of_queue rfl fun _ h => h⟩

theorem addFailure (p : Pipe P) (e : EventRef) : Requeues [e] p (p.addFailure e) := by
  cases hclosed : p.connector.closed with
  | true =>
      rw [addFailure_of_closed hclosed]
      exact ⟨rfl, rfl, rfl, Ledger.size_update _ _ _, rfl,
        ⟨[], (List.append_nil _).symm, List.nil_sublist _, rfl⟩, .of_queue rfl fun _ h => h⟩
  | false =>
  cases hreleased : p.commons.isReleased e with
  | true =>
      rw [addFailure_of_released hclosed hreleased]
      exact { refl p with queue := ⟨[], (List.append_nil _).symm, List.nil_sublist _, rfl⟩ }
  | false =>
      rw [addFailure_of_live hclosed hreleased]
      obtain ⟨hconnector, hcommons, htrace, -⟩ :=
        wakeWorker_fields ((p.enqueue e).note (.queued e))
      obtain ⟨woken, htasks, hwoken⟩ := tasks_wakeWorker ((p.enqueue e).note (.queued e))
      refine ⟨by rw [hconnector]; rfl, by rw [hconnector]; rfl, congrArg Commons.now hcommons,
        by rw [hcommons]; rfl, ?_, ⟨[_], by rw [hconnector]; rfl, .refl _, by rw [htrace]; rfl⟩,
        .of_woken rfl⟩
      rw [htasks, List.map_map]
      refine List.map_congr_left fun t _ => ?_
      rcases hwoken t with hsame | hwake
      · rw [Function.comp_apply, hsame]
      · rw [Function.comp_apply, hwake, t.id_wake, t.carried_wake]

theorem fail (p : Pipe P) (increases : Bool) (e : EventRef) :
    Requeues [e] p (p.fail increases e) := by
  cases increases with
  | false => exact addFailure p e
  | true => exact (backOff p e).trans (addFailure _ e)

theorem fold (p : Pipe P) (increases : Bool) (events : List EventRef) :
    Requeues events p (events.foldl (fun p e => p.fail increases e) p) := by
  induction events generalizing p with
  | nil => exact refl p
  | cons e events ih => exact (fail p increases e).trans (ih _)

end Requeues

theorem trace_of_retires (h : Retires id p p') : p'.trace = p.trace := by
  cases h <;> rfl

/-- A task that fails tells of one failure, then of what it queues. -/
theorem queued_of_fails {q : Pipe P} {inHand : List EventRef} {error : TransferError}
    (mild : Mild p q) (retires : Retires id (q.failAll inHand error) p') :
    ∃ (fresh : List RetryEntry) (told : List Occurrence) (increases : Bool),
      p'.connector.retryQueue = p.connector.retryQueue ++ fresh ∧
        p'.trace = (fresh.map fun entry => Occurrence.queued entry.event).reverse ++
          .failed error increases :: told ++ p.trace ∧ ∀ o ∈ told, o.ofFailure = false := by
  obtain ⟨fresh, hqueue, -, hqueued⟩ := (Requeues.fold (q.note (.failed error
    (q.connector.retryPolicy.increases error))) (q.connector.retryPolicy.increases error)
      inHand).queue
  obtain ⟨told, htold, hmild⟩ := mild.trace
  refine ⟨fresh, told, q.connector.retryPolicy.increases error, ?_, ?_, hmild⟩
  · have hretires : p'.connector.retryQueue = (q.failAll inHand error).connector.retryQueue := by
      cases retires <;> rfl
    exact hretires.trans (hqueue.trans (congrArg (· ++ fresh) mild.retryQueue))
  · rw [trace_of_retires retires, List.append_assoc, List.cons_append, ← htold]
    exact hqueued

theorem sleeps_of_fails {q : Pipe P} {inHand : List EventRef} {error : TransferError}
    (mild : Mild p q) (retires : Retires id (q.failAll inHand error) p') : Sleeps p p' := by
  have hnoted : Sleeps p (q.note (.failed error (q.connector.retryPolicy.increases error))) :=
    .of_queue mild.tasks fun entry hentry => mild.retryQueue ▸ hentry
  have hall : Sleeps p (q.failAll inHand error) :=
    hnoted.trans ((Requeues.fold _ (q.connector.retryPolicy.increases error) inHand).sleeps.trans
      (.of_queue rfl fun _ h => h))
  exact hall.trans (.of_retires retires)

theorem fail_readyAt (p : Pipe P) (increases : Bool)
    (known : e.id < p.commons.ledger.entries.size) :
    (∀ id, (p.fail increases e).commons.ledger.retryMs id =
      if increases = true ∧ id = e.id then Backoff.next (p.commons.ledger.retryMs id)
      else p.commons.ledger.retryMs id) ∧
    ∀ entry ∈ (p.fail increases e).connector.retryQueue, entry ∈ p.connector.retryQueue ∨
      entry = ⟨e, p.now + (p.fail increases e).commons.ledger.retryMs e.id⟩ := by
  have hadded (p : Pipe P) :
      (∀ id, (p.addFailure e).commons.ledger.retryMs id = p.commons.ledger.retryMs id) ∧
      ∀ entry ∈ (p.addFailure e).connector.retryQueue, entry ∈ p.connector.retryQueue ∨
        entry = ⟨e, p.now + p.commons.ledger.retryMs e.id⟩ := by
    cases hclosed : p.connector.closed with
    | true =>
        rw [addFailure_of_closed hclosed]
        exact ⟨Ledger.retryMs_update _ _ Lifecycle.retryMs_clear, fun _ h => .inl h⟩
    | false =>
    cases hreleased : p.commons.isReleased e with
    | true =>
        rw [addFailure_of_released hclosed hreleased]
        exact ⟨fun _ => rfl, fun _ h => .inl h⟩
    | false =>
        rw [addFailure_of_live hclosed hreleased]
        obtain ⟨hconnector, hcommons, -, -⟩ := wakeWorker_fields ((p.enqueue e).note (.queued e))
        rw [hconnector, hcommons]
        exact ⟨fun _ => rfl, fun entry hentry =>
          (List.mem_append.mp hentry).imp_right List.mem_singleton.mp⟩
  obtain ⟨hsame, hqueue⟩ := hadded p
  cases increases with
  | false => exact ⟨fun id => by simp [Pipe.fail, hsame], fun entry hentry => by
      simpa [Pipe.fail, hsame] using hqueue entry hentry⟩
  | true =>
      obtain ⟨hsame, hqueue⟩ := hadded { p with commons := p.commons.backOff e }
      have hbacked (id : EventId) : (p.commons.backOff e).ledger.retryMs id =
          if id = e.id then Backoff.next (p.commons.ledger.retryMs id)
          else p.commons.ledger.retryMs id := by
        split
        · rename_i hid
          subst hid
          exact congrArg Lifecycle.retryMs (Ledger.get_set_self _ _ _ known)
        · rename_i hid
          exact congrArg Lifecycle.retryMs (Ledger.get_set_ne _ _ hid)
      refine ⟨fun id => ?_, fun entry hentry => (hqueue entry hentry).imp_right ?_⟩
      · exact (hsame id).trans ((hbacked id).trans (by simp))
      · rintro rfl
        rw [Pipe.fail, if_pos rfl, hsame]
        rfl

/-- What failed is queued with the pause that it has by then. -/
theorem requeued_readyAt (p : Pipe P) (increases : Bool) {events : List EventRef}
    (known : ∀ e ∈ events, e.id < p.commons.ledger.entries.size)
    (distinct : (events.map EventRef.id).Nodup) :
    let p' := events.foldl (fun p e => p.fail increases e) p
    (∀ id, p'.commons.ledger.retryMs id =
      if increases = true ∧ id ∈ events.map EventRef.id then
        Backoff.next (p.commons.ledger.retryMs id)
      else p.commons.ledger.retryMs id) ∧
    ∀ entry ∈ p'.connector.retryQueue, entry ∈ p.connector.retryQueue ∨
      entry.event ∈ events ∧
        entry.readyAt = p.now + p'.commons.ledger.retryMs entry.event.id := by
  induction events generalizing p with
  | nil => exact ⟨fun _ => by simp, fun _ h => .inl h⟩
  | cons e events ih =>
      rw [List.map_cons, List.nodup_cons] at distinct
      obtain ⟨hnew, hdistinct⟩ := distinct
      have hfail := Requeues.fail p increases e
      obtain ⟨hfirst, hqueued⟩ := fail_readyAt p increases (known e (List.mem_cons_self ..))
      obtain ⟨hrest, hlater⟩ := ih (p.fail increases e)
        (fun e' he' => hfail.size ▸ known e' (List.mem_cons_of_mem _ he')) hdistinct
      refine ⟨fun id => ?_, fun entry hentry => ?_⟩
      · rw [List.foldl_cons, hrest, hfirst]
        by_cases hid : id = e.id
        · subst hid
          simp [hnew]
        · simp [hid]
      · rcases hlater entry hentry with hbefore | ⟨hmem, hready⟩
        · refine (hqueued entry hbefore).imp_right ?_
          rintro rfl
          refine ⟨List.mem_cons_self .., ?_⟩
          rw [List.foldl_cons, hrest, if_neg fun h => hnew h.2]
        · exact .inr ⟨List.mem_cons_of_mem _ hmem, hready.trans (by rw [hfail.now]; rfl)⟩

end Failing

section Errands

/-- Whoever sends tablets waits with them, for a client or for the answer. -/
theorem askForTablets_sets (p : Pipe P) (id : TaskId) (t : TabletSend) :
    ∃ q link, Mild p q ∧ p.askForTablets id t = q.setTask id (.tablets t link) := by
  have hlent : Mild p (p.withClients (p.clients.ask id).1) := .withClients p _
  rw [askForTablets_eq]
  split
  · exact ⟨_, _, hlent, rfl⟩
  · exact ⟨_, _, hlent.trans (.send _ _), rfl⟩

/-- What is done to a connector. -/
inductive Errand
  | transferred (e : EventRef)
  | sent (events : List EventRef)
  | ran (id : TaskId)
  | failed (e : EventRef)
  | discarded (pipe : String) (region : Int)
  | closed
  | elsewhere

/-- A connector is handed events that exist, or told of those that failed or are done elsewhere; its
tasks run, it is discarded from and closed. Others build events, hold and drop references, and leave
the pauses to the connector. -/
inductive Does [Batch.Payload P] (p : Pipe P) : Errand → Pipe P → Prop
  | transferred {e : EventRef} (known : e.id < p.commons.ledger.entries.size) :
      Does p (.transferred e) (p.transferFile e).1
  | sent {events : List EventRef} (payload : Bytes)
      (known : ∀ e ∈ events, e.id < p.commons.ledger.entries.size) :
      Does p (.sent events) (p.callSend events payload).1
  | ran (id : TaskId) (apart : ∀ process, p.task? id = some process → process.consumes = false) :
      Does p (.ran id) (p.run id)
  | failed (e : EventRef) : Does p (.failed e) (p.addFailure e)
  | removed (e : EventRef) : Does p .elsewhere (p.remove e).1
  | discarded (pipe : String) (region : Int) :
      Does p (.discarded pipe region) (p.discard pipe region).1
  | closed : Does p .closed p.closeConnector
  | aside {p' : Pipe P} (beside : Aside p p') : Does p .elsewhere p'
  | retuned {ledger : Ledger} (grows : p.commons.ledger.entries.size ≤ ledger.entries.size)
      (paused : ∀ id < p.commons.ledger.entries.size,
        ledger.retryMs id = p.commons.ledger.retryMs id) :
      Does p .elsewhere (p.withLedger ledger)

/-- The task is a worker that looks into the retry queue when it runs. -/
def looks (p : Pipe P) (id : TaskId) : Bool :=
  match p.task? id with
  | some .looking => true
  | some (.watching _ _) => !p.isCancelled id
  | _ => false

theorem run_of_looks [Batch.Payload P] (h : p.looks id = true) : p.run id = p.runLooking id := by
  unfold looks at h
  unfold run
  cases htask : p.task? id with
  | none =>
      rw [htask] at h
      cases h
  | some process =>
      rw [htask] at h
      cases process with
      | looking => rfl
      | watching next woken =>
          exact if_neg (Bool.eq_false_iff.mp (Bool.not_eq_true' _ ▸ h))
      | _ => cases h

/-- What the step of a task comes to that is no consumer: the task has work to do, or it is the
worker and looks, or it leaves or waits on with nothing in hand. -/
@[elab_as_elim]
theorem run_cases [Batch.Payload P] {motive : Bool → Pipe P → Prop} (p : Pipe P) (id : TaskId)
    (apart : ∀ process, p.task? id = some process → process.consumes = false)
    (works : ∀ process, p.task? id = some process →
      Outcome p id process.carried (p.run id) → motive false (p.run id))
    (looks : p.looks id = true → motive true (p.runLooking id))
    (leaves : motive false (p.removeTask id))
    (hands : motive false (p.removeTask id).wakeWorker)
    (waits : ∀ process : Process, process.carried = [] → Task.isWatching ⟨id, process⟩ = false →
      motive false (p.setTask id process))
    (rests : motive false p) : motive (p.looks id) (p.run id) := by
  cases htask : p.task? id with
  | none =>
      simp only [run, Pipe.looks, htask]
      exact rests
  | some process =>
      have hworks (hasWork : process.works = true) : motive false (p.run id) :=
        works process htask (outcome_run p htask (apart process htask) hasWork)
      cases process with
      | transfer | tablets =>
          rw [show p.looks id = false by simp only [Pipe.looks, htask]]
          exact hworks rfl
      | looking =>
          have hlooks : p.looks id = true := by simp only [Pipe.looks, htask]
          rw [hlooks, run_of_looks hlooks]
          exact looks hlooks
      | watching next woken =>
          cases hcancelled : p.isCancelled id with
          | false =>
              have hlooks : p.looks id = true := by
                simp only [Pipe.looks, htask, hcancelled, Bool.not_false]
              rw [hlooks, run_of_looks hlooks]
              exact looks hlooks
          | true =>
              rw [show p.looks id = false by
                  simp only [Pipe.looks, htask, hcancelled, Bool.not_true],
                show p.run id = p.runWatching id woken by simp only [run, htask]; rfl, runWatching,
                if_pos hcancelled]
              cases woken with
              | false => exact leaves
              | true => exact hands
      | idling deadline seen =>
          rw [show p.looks id = false by simp only [Pipe.looks, htask],
            show p.run id = p.runIdling id deadline by simp only [run, htask]; rfl, runIdling]
          split
          · exact waits _ rfl rfl
          · split <;> exact waits _ rfl rfl
      | ended =>
          rw [show p.looks id = false by simp only [Pipe.looks, htask],
            show p.run id = p by simp only [run, htask]; rfl]
          exact rests
      | consuming | polling | pausing => cases apart _ htask

end Errands

end Pipe
end Courier
