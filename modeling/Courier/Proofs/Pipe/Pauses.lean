import Courier.Proofs.Pipe.Errands
import Mathlib.Algebra.Order.BigOperators.Group.List
import Mathlib.Algebra.Order.Group.Nat

/-!
How long an event waits before it is tried again: the first pause, doubled for every failure that
counts since it was handed to the connector, up to the ceiling. Other failures, earlier submissions
and the tries themselves change nothing in it.
-/

namespace Courier

open Transfer

namespace Backoff

/-- The pause after so many failures that count. -/
def pause (initial failures : Nat) : Nat := min (initial * 2 ^ failures) ceiling

variable {initial : Nat} (positive : 0 < initial)
include positive

theorem pause_pos (k : Nat) : 0 < pause initial k :=
  Nat.lt_min.mpr ⟨Nat.mul_pos positive (Nat.two_pow_pos k), by decide⟩

omit positive in
theorem pause_mono {j k : Nat} (h : j ≤ k) : pause initial j ≤ pause initial k :=
  min_le_min_right _ (Nat.mul_le_mul_left initial (Nat.pow_le_pow_right Nat.two_pos h))

theorem next_pause (k : Nat) : next (pause initial k) = pause initial (k + 1) := by
  rw [next_of_pos (pause_pos positive k), pause, pause, Nat.pow_succ, ← Nat.mul_assoc]
  omega

theorem iterate_next (k : Nat) : next^[k] (clamp initial) = pause initial k := by
  induction k with
  | zero => rw [pause, Nat.pow_zero, Nat.mul_one]; rfl
  | succ k ih => rw [Function.iterate_succ_apply', ih, next_pause positive]

end Backoff

theorem Ledger.retryMs_resetAll (ledger : Ledger) (events : List EventRef) (ms : Nat)
    {id : EventId} (known : id < ledger.entries.size) :
    (events.foldl (fun l e => l.resetRetry e.id ms) ledger).retryMs id =
      if id ∈ events.map EventRef.id then Backoff.clamp ms else ledger.retryMs id := by
  induction events generalizing ledger with
  | nil => rfl
  | cons e events ih =>
      have hsize : (ledger.resetRetry e.id ms).entries.size = ledger.entries.size :=
        Ledger.size_set _ _ _
      rw [List.foldl_cons, ih _ (hsize ▸ known)]
      by_cases hid : id = e.id
      · subst hid
        have hreset : (ledger.resetRetry e.id ms).retryMs e.id = Backoff.clamp ms :=
          congrArg Lifecycle.retryMs (Ledger.get_set_self _ _ _ known)
        simp [hreset]
      · have hsame : (ledger.resetRetry e.id ms).retryMs id = ledger.retryMs id :=
          congrArg Lifecycle.retryMs (Ledger.get_set_ne _ _ hid)
        simp [hsame, hid]

theorem Ledger.retryMs_clearAll (ledger : Ledger) (events : List EventRef) (id : EventId) :
    (ledger.clearAll events).retryMs id = ledger.retryMs id := by
  induction events generalizing ledger with
  | nil => rfl
  | cons e events ih =>
      exact (ih _).trans (retryMs_update ledger e.id Lifecycle.retryMs_clear id)

namespace Pipe

variable {P : Type} {p p' p'' : Pipe P} {id : TaskId} {events : List EventRef}

/-- How often failures of an event counted since it was last handed over, and when it last
failed. -/
structure Standing where
  counted : Nat := 0
  failedAt : Option Nat := none
  deriving DecidableEq, Repr

def Standing.failed (s : Standing) (counts : Bool) (now : Nat) : Standing where
  counted := s.counted + if counts then 1 else 0
  failedAt := some now

def Occurrence.failure? : Occurrence → Option TransferError
  | .failed error _ => some error
  | _ => none

/-- What a step tells of, newest first. -/
def toldBy (p p' : Pipe P) : List Occurrence :=
  p'.trace.take (p'.trace.length - p.trace.length)

def inHand (p : Pipe P) (id : TaskId) : List EventRef :=
  ((p.task? id).map Process.carried).getD []

/-- How events stand after an errand. Those that are handed over start anew; if a task tells of a
failure, all that it has in hand failed. -/
def standingAfter (p : Pipe P) (errand : Errand) (p' : Pipe P) (standing : EventId → Standing)
    (id : EventId) : Standing :=
  match errand with
  | .transferred e => if id = e.id then {} else standing id
  | .sent events => if id ∈ events.map EventRef.id then {} else standing id
  | .ran task =>
      match (p.toldBy p').findSome? Occurrence.failure? with
      | some error =>
          if id ∈ (p.inHand task).map EventRef.id then
            (standing id).failed (p.connector.retryPolicy.increases error) p.now
          else standing id
      | none => standing id
  | _ => standing id

/-- In how many places an event is with the connector: in a task, or in the retry queue. -/
def careOf (p : Pipe P) (id : EventId) : Nat :=
  (p.tasks.map fun t => t.process.carried.countP fun e => e.id = id).sum + p.retriesOf id

/-- What is handed to the connector is not there yet, nothing is handed over twice, and only tasks
fail. -/
def IsFresh (p : Pipe P) : Errand → Prop
  | .transferred e => p.careOf e.id = 0
  | .sent events => (events.map EventRef.id).Nodup ∧ ∀ e ∈ events, p.careOf e.id = 0
  | .failed _ => False
  | _ => True

structure Tracked (P : Type) where
  pipe : Pipe P
  standing : EventId → Standing

/-- An errand, and what it makes of how events stand. -/
inductive Tracked.Step [Batch.Payload P] : Tracked P → Tracked P → Prop
  | mk {p p' : Pipe P} {standing : EventId → Standing} {errand : Errand} (does : Does p errand p')
      (fresh : p.IsFresh errand) : Step ⟨p, standing⟩ ⟨p', p.standingAfter errand p' standing⟩

/-- Nothing comes to the connector, and no pause changes. -/
structure Steady (p p' : Pipe P) : Prop where
  initial : p'.connector.settings.initialRetryMs = p.connector.settings.initialRetryMs
  size : p.commons.ledger.entries.size ≤ p'.commons.ledger.entries.size
  retryMs : ∀ id < p.commons.ledger.entries.size,
    p'.commons.ledger.retryMs id = p.commons.ledger.retryMs id
  care : ∀ id, p'.careOf id ≤ p.careOf id
  retries : ∀ entry ∈ p'.connector.retryQueue, entry ∈ p.connector.retryQueue

/-- Every event has the pause that it should have, and waits so long after it failed. -/
structure Tracked.Paced (first : Nat) (s : Tracked P) : Prop where
  initial : s.pipe.connector.settings.initialRetryMs = first
  once : ∀ id, s.pipe.careOf id ≤ 1
  known : ∀ id, 0 < s.pipe.careOf id → id < s.pipe.commons.ledger.entries.size
  pause : ∀ id, 0 < s.pipe.careOf id →
    s.pipe.commons.ledger.retryMs id = Backoff.pause first (s.standing id).counted
  waits : ∀ entry ∈ s.pipe.connector.retryQueue, ∃ failedAt,
    (s.standing entry.event.id).failedAt = some failedAt ∧
      entry.readyAt = failedAt + Backoff.pause first (s.standing entry.event.id).counted

section Care

def carriedOf (tasks : List Task) (id : EventId) : Nat :=
  (tasks.map fun t => t.process.carried.countP fun e => e.id = id).sum

theorem careOf_eq (p : Pipe P) (id : EventId) :
    p.careOf id = carriedOf p.tasks id + p.retriesOf id := rfl

theorem carriedOf_append (tasks more : List Task) (id : EventId) :
    carriedOf (tasks ++ more) id = carriedOf tasks id + carriedOf more id := by
  simp [carriedOf]

theorem carriedOf_filter_le (tasks : List Task) (keep : Task → Bool) (id : EventId) :
    carriedOf (tasks.filter keep) id ≤ carriedOf tasks id :=
  (List.filter_sublist.map _).sum_le_sum fun _ _ => Nat.zero_le _

theorem carriedOf_filter_add_le {tasks : List Task} {process : Process} {task : TaskId}
    (here : (tasks.find? fun t => t.id == task).map Task.process = some process) (id : EventId) :
    carriedOf (tasks.filter fun t => t.id != task) id +
      process.carried.countP (fun e => e.id = id) ≤ carriedOf tasks id := by
  obtain ⟨t, hfind, rfl⟩ := Option.map_eq_some_iff.mp here
  obtain ⟨htask, before, after, htasks, hbefore⟩ := List.find?_eq_some_iff_append.mp hfind
  have hgone : ([t].filter fun t => t.id != task) = [] := by simpa using htask
  rw [htasks, ← List.singleton_append, List.filter_append, List.filter_append, hgone]
  have h1 := carriedOf_filter_le before (fun t => t.id != task) id
  have h2 := carriedOf_filter_le after (fun t => t.id != task) id
  have h3 : carriedOf [t] id = t.process.carried.countP fun e => e.id = id := by simp [carriedOf]
  simp only [carriedOf_append, ← h3, show carriedOf [] id = 0 from rfl]
  omega

/-- Whatever is done about the tasks, what the others carry counts as before. -/
theorem carriedOf_filter_congr {tasks tasks' : List Task} {task : TaskId}
    (same : tasks'.map (fun t => (t.id, t.process.carried)) =
      tasks.map fun t => (t.id, t.process.carried)) (id : EventId) :
    carriedOf (tasks'.filter fun t => t.id != task) id =
      carriedOf (tasks.filter fun t => t.id != task) id := by
  have hcarried (tasks : List Task) : carriedOf (tasks.filter fun t => t.id != task) id =
      (((tasks.map fun t => (t.id, t.process.carried)).filter fun x => x.1 != task).map
        fun x => x.2.countP fun e => e.id = id).sum := by
    rw [List.filter_map, List.map_map]
    rfl
  rw [hcarried, hcarried, same]

theorem careOf_setTask_le (p : Pipe P) (task : TaskId) (process : Process) (id : EventId) :
    (p.setTask task process).careOf id ≤
      p.careOf id + process.carried.countP fun e => e.id = id := by
  have hothers := carriedOf_filter_le p.tasks (fun t => t.id != task) id
  have hone : carriedOf [⟨task, process⟩] id = process.carried.countP fun e => e.id = id := by
    simp [carriedOf]
  have hall : carriedOf (p.setTask task process).tasks id = _ := carriedOf_append _ _ id
  have hsame : (p.setTask task process).retriesOf id = p.retriesOf id := rfl
  rw [careOf_eq, careOf_eq, hall, hone, hsame]
  omega

theorem countP_le_one (distinct : (events.map EventRef.id).Nodup) (id : EventId) :
    events.countP (fun e => e.id = id) ≤ 1 := by
  have hcount := List.nodup_iff_count_le_one.mp distinct id
  rw [List.count, List.countP_map] at hcount
  exact Nat.le_trans (List.countP_mono_left fun e _ he => by simpa using he) hcount

theorem nodup_of_countP (single : ∀ id, events.countP (fun e => e.id = id) ≤ 1) :
    (events.map EventRef.id).Nodup := by
  refine List.nodup_iff_count_le_one.mpr fun id => ?_
  rw [List.count, List.countP_map]
  exact Nat.le_trans (List.countP_mono_left fun e _ he => by simpa using he) (single id)

theorem careOf_pos_of_queued {entry : RetryEntry} (h : entry ∈ p.connector.retryQueue) :
    0 < p.careOf entry.event.id :=
  Nat.lt_of_lt_of_le (List.countP_pos_iff.mpr ⟨entry, h, decide_eq_true rfl⟩)
    (Nat.le_add_left _ _)

/-- What is taken up again is carried at most as often as it was taken. -/
theorem carriedOf_resumed_le {settings : Transfer.Settings} {now : Nat} {taken : List EventRef}
    {fresh : List Task} (started : fresh.map Task.process = taken.filterMap (resumed settings now))
    (id : EventId) : carriedOf fresh id ≤ taken.countP fun e => e.id = id := by
  have hcarried : carriedOf fresh id =
      ((fresh.map Task.process).map fun process => process.carried.countP fun e => e.id = id).sum :=
    by rw [List.map_map]; rfl
  rw [hcarried, started]
  clear started hcarried
  induction taken with
  | nil => exact Nat.le_refl _
  | cons e taken ih =>
      rw [List.countP_cons]
      cases hresumed : resumed settings now e with
      | none =>
          rw [List.filterMap_cons_none hresumed]
          exact Nat.le_trans ih (Nat.le_add_right _ _)
      | some process =>
          rw [List.filterMap_cons_some hresumed, List.map_cons, List.sum_cons,
            (carried_resumed hresumed).1, List.countP_singleton, Nat.add_comm]
          exact Nat.add_le_add_right ih _

/-- The retry queue is what is due and what is not. -/
theorem retriesOf_eq (p : Pipe P) (id : EventId) :
    p.retriesOf id = (p.due.countP fun e => e.id = id) +
      (p.connector.retryQueue.filter fun entry => p.now < entry.readyAt).countP
        fun entry => entry.event.id = id := by
  have hdue := (List.mergeSort_perm ((p.connector.retryQueue.filter fun entry =>
    entry.readyAt ≤ p.now).map RetryEntry.event)
      fun a b => a.event.commit.le b.event.commit).countP_eq fun e => e.id = id
  rw [List.countP_map] at hdue
  have hrest : (p.connector.retryQueue.filter fun entry => decide (p.now < entry.readyAt)) =
      p.connector.retryQueue.filter fun entry => !decide (entry.readyAt ≤ p.now) := by
    refine List.filter_congr fun entry _ => ?_
    rw [← decide_not]
    exact decide_eq_decide.mpr Nat.not_le.symm
  rw [hrest]
  exact (List.countP_eq_countP_filter_add _ _ fun entry => entry.readyAt ≤ p.now).trans
    (congrArg (· + _) hdue.symm)

end Care

namespace Steady

theorem refl (p : Pipe P) : Steady p p :=
  ⟨rfl, Nat.le_refl _, fun _ _ => rfl, fun _ => Nat.le_refl _, fun _ h => h⟩

theorem trans (h : Steady p p') (h' : Steady p' p'') : Steady p p'' where
  initial := h'.initial.trans h.initial
  size := Nat.le_trans h.size h'.size
  retryMs id hid := (h'.retryMs id (Nat.lt_of_lt_of_le hid h.size)).trans (h.retryMs id hid)
  care id := Nat.le_trans (h'.care id) (h.care id)
  retries entry hentry := h.retries entry (h'.retries entry hentry)

theorem of_mild (h : Mild p p') : Steady p p' where
  initial := congrArg Settings.initialRetryMs h.settings
  size := Nat.le_of_eq h.size.symm
  retryMs id _ := h.retryMs id
  care id := by
    rw [careOf_eq, careOf_eq, h.tasks, retriesOf, retriesOf, h.retryQueue]
  retries entry hentry := h.retryQueue ▸ hentry

theorem of_tasks (connector : p'.connector.settings = p.connector.settings)
    (retryQueue : p'.connector.retryQueue = p.connector.retryQueue)
    (ledger : p'.commons.ledger = p.commons.ledger)
    (tasks : ∀ id, carriedOf p'.tasks id ≤ carriedOf p.tasks id) : Steady p p' := by
  refine ⟨congrArg Settings.initialRetryMs connector, by rw [ledger], fun _ _ => by rw [ledger],
    fun id => ?_, fun entry hentry => retryQueue ▸ hentry⟩
  rw [careOf_eq, careOf_eq, retriesOf, retriesOf, retryQueue]
  exact Nat.add_le_add_right (tasks id) _

theorem removeTask (p : Pipe P) (id : TaskId) : Steady p (p.removeTask id) :=
  of_tasks rfl rfl rfl (carriedOf_filter_le _ _)

theorem setTask (p : Pipe P) (id : TaskId) {process : Process} (empty : process.carried = []) :
    Steady p (p.setTask id process) := by
  refine of_tasks rfl rfl rfl fun other => ?_
  have hnone : carriedOf [⟨id, process⟩] other = 0 := by simp [carriedOf, empty]
  rw [Pipe.setTask, carriedOf_append, hnone]
  exact carriedOf_filter_le _ _ other

/-- A task goes on with what it had in hand. -/
theorem setTask_same (p : Pipe P) {id : TaskId} {before after : Process}
    (task : p.task? id = some before) (same : after.carried = before.carried) :
    Steady p (p.setTask id after) := by
  refine of_tasks rfl rfl rfl fun other => ?_
  have hone : carriedOf [⟨id, after⟩] other =
      before.carried.countP fun e => e.id = other := by simp [carriedOf, same]
  rw [Pipe.setTask, carriedOf_append, hone]
  exact carriedOf_filter_add_le task other

theorem spawn (p : Pipe P) {process : Process} (empty : process.carried = []) :
    Steady p (p.spawn process) := by
  refine of_tasks rfl rfl rfl fun other => ?_
  have hnone : carriedOf [⟨p.nextTask, process⟩] other = 0 := by simp [carriedOf, empty]
  rw [Pipe.spawn, carriedOf_append, hnone]
  exact Nat.le_refl _

theorem wakeWorker (p : Pipe P) : Steady p p.wakeWorker := by
  obtain ⟨hconnector, hcommons, -, -⟩ := wakeWorker_fields p
  refine of_tasks (by rw [hconnector]) (by rw [hconnector]) (by rw [hcommons]) fun id => ?_
  obtain ⟨woken, htasks, hwoken⟩ := tasks_wakeWorker p
  refine Nat.le_of_eq ?_
  rw [carriedOf, htasks, List.map_map]
  refine congrArg List.sum (List.map_congr_left fun t _ => ?_)
  rcases hwoken t with hsame | hwake
  · rw [Function.comp_apply, hsame]
  · rw [Function.comp_apply, hwake, t.carried_wake]

theorem finishTask (p : Pipe P) (id : TaskId) : Steady p (p.finishTask id) :=
  (removeTask p id).trans (of_tasks rfl rfl rfl fun _ => Nat.le_refl _)

theorem of_retires (h : Retires id p p') : Steady p p' := by
  cases h with
  | finished => exact finishTask p id
  | ended answer at_ => exact setTask p id rfl

/-- The worker takes from the retry queue what it takes into its hand, or less. -/
theorem of_look {taken : List EventRef} (h : Look id taken p p')
    (sub : taken.Sublist p.due) : Steady p p' := by
  refine ⟨congrArg Settings.initialRetryMs h.settings, Nat.le_of_eq h.size.symm,
    fun id _ => h.retryMs id, fun x => ?_, fun entry hentry => ?_⟩
  · obtain ⟨fresh, htasks, hfresh⟩ := h.tasks
    have hstarted := Nat.le_trans (carriedOf_resumed_le hfresh x) sub.countP_le
    have hkept := carriedOf_filter_le (p.tasks ++ fresh) (fun t => t.id != id) x
    rw [carriedOf_append] at hkept
    rw [careOf_eq, careOf_eq, htasks, carriedOf_append, retriesOf_eq p, retriesOf, h.retryQueue]
    have hnone : carriedOf [⟨id, .watching p'.connector.nextReady false⟩] x = 0 := rfl
    omega
  · rw [h.retryQueue] at hentry
    exact List.mem_of_mem_filter hentry

/-- Entries leave the retry queue, and references are cleared. -/
theorem of_cleared {cleared : List EventRef}
    (settings : p'.connector.settings = p.connector.settings) (tasks : p'.tasks = p.tasks)
    (retryQueue : p'.connector.retryQueue.Sublist p.connector.retryQueue)
    (ledger : p'.commons.ledger = p.commons.ledger.clearAll cleared) : Steady p p' := by
  refine ⟨congrArg Settings.initialRetryMs settings, ?_, fun id _ => ?_, fun id => ?_,
    fun entry hentry => retryQueue.mem hentry⟩
  · rw [ledger, Ledger.size_clearAll]
  · rw [ledger, Ledger.retryMs_clearAll]
  · rw [careOf_eq, careOf_eq, tasks]
    exact Nat.add_le_add_left retryQueue.countP_le _

theorem discard (p : Pipe P) (pipe : String) (region : Int) :
    Steady p (p.discard pipe region).1 := by
  have hledger : (p.discard pipe region).1.commons.ledger = p.commons.ledger.clearAll
      ((p.connector.retryQueue.filter fun entry => entry.event.belongsTo pipe region).map
          RetryEntry.event ++
        (p.connector.buffer.filter fun entry => entry.2.belongsTo pipe region).map Prod.snd) := by
    simp only [Pipe.discard, Connector.discardPipe, Ledger.clearCounting_fst]
    exact (Ledger.clearAll_append ..).symm
  exact of_cleared rfl rfl List.filter_sublist hledger

theorem closeConnector (p : Pipe P) : Steady p p.closeConnector := by
  cases hclosed : p.connector.closed with
  | true =>
      rw [closeConnector_of_closed hclosed]
      exact refl p
  | false =>
      have hclose : p.connector.close p.commons = (_, _) := if_neg (Bool.eq_false_iff.mp hclosed)
      simp only [Pipe.closeConnector, hclose]
      exact of_cleared rfl rfl (List.nil_sublist _) rfl

theorem aside [Batch.Payload P] (h : Aside p p') : Steady p p' := by
  have hcancel (id? : Option TaskId) : Steady p (p.cancel id?) := by
    cases id? <;> exact of_tasks rfl rfl rfl fun _ => Nat.le_refl _
  have hspawn (q : Pipe P) (process : Process) (same : Steady p q) (empty : process.carried = []) :
      Steady p (q.spawn process) := same.trans (spawn q empty)
  cases h with
  | clock | surroundings | neighbours | shutdownQueue =>
      exact of_tasks rfl rfl rfl fun _ => Nat.le_refl _
  | startWorker => exact hspawn _ .looking (of_tasks rfl rfl rfl fun _ => Nat.le_refl _) rfl
  | startConsumer => exact hspawn _ .consuming (of_tasks rfl rfl rfl fun _ => Nat.le_refl _) rfl
  | waitIdle ms => exact hspawn p (.idling (p.now + ms) none) (refl p) rfl
  | cancelWorker => exact hcancel p.worker
  | cancelConsumer => exact hcancel p.consumer

end Steady

/-- Some events come to the connector, each once and with its first pause. -/
structure Submits (events : List EventRef) (p p' : Pipe P) : Prop where
  initial : p'.connector.settings.initialRetryMs = p.connector.settings.initialRetryMs
  size : p.commons.ledger.entries.size ≤ p'.commons.ledger.entries.size
  retryMs : ∀ id < p.commons.ledger.entries.size, id ∉ events.map EventRef.id →
    p'.commons.ledger.retryMs id = p.commons.ledger.retryMs id
  care : ∀ id, id ∉ events.map EventRef.id → p'.careOf id ≤ p.careOf id
  own : ∀ e ∈ events, p'.careOf e.id ≤ p.careOf e.id ∨
    p'.careOf e.id ≤ p.careOf e.id + 1 ∧ p'.commons.ledger.retryMs e.id =
      Backoff.clamp p.connector.settings.initialRetryMs
  retries : ∀ entry ∈ p'.connector.retryQueue, entry ∈ p.connector.retryQueue

namespace Submits

theorem of_steady (h : Steady p p') (events : List EventRef) : Submits events p p' :=
  ⟨h.initial, h.size, fun id hid _ => h.retryMs id hid, fun id _ => h.care id,
    fun e _ => .inl (h.care e.id), h.retries⟩

theorem head (h : Steady p p') (h' : Submits events p' p'') : Submits events p p'' where
  initial := h'.initial.trans h.initial
  size := Nat.le_trans h.size h'.size
  retryMs id hid hother :=
    (h'.retryMs id (Nat.lt_of_lt_of_le hid h.size) hother).trans (h.retryMs id hid)
  care id hother := Nat.le_trans (h'.care id hother) (h.care id)
  own e he := (h'.own e he).imp (fun hle => Nat.le_trans hle (h.care e.id))
    fun ⟨hle, hpause⟩ => ⟨Nat.le_trans hle (Nat.succ_le_succ (h.care e.id)), h.initial ▸ hpause⟩
  retries entry hentry := h.retries entry (h'.retries entry hentry)

theorem transferFile (p : Pipe P) {e : EventRef} (known : e.id < p.commons.ledger.entries.size) :
    Submits [e] p (p.transferFile e).1 := by
  have hheld : Steady p (p.withLedger (p.commons.ledger.hold e.id).1) := by
    refine ⟨rfl, Nat.le_of_eq (Ledger.size_update _ _ _).symm, fun id _ => ?_,
      fun _ => Nat.le_refl _, fun _ h => h⟩
    exact Ledger.retryMs_update _ _ Lifecycle.retryMs_hold id
  refine transferFile_cases p e (fun _ => of_steady (.refl p) _) (fun _ => of_steady hheld _)
    (fun _ => of_steady (hheld.trans (.of_mild (.drop _ e))) _) fun a _ hprepared _ => ?_
  have hevent : a.event = e := (Attempt.prepare_event hprepared).1
  have hsize : (p.commons.ledger.hold e.id).1.entries.size = p.commons.ledger.entries.size :=
    Ledger.size_update _ _ _
  have hcare (id : EventId) : ((p.accept e).spawn (.transfer a .asking)).careOf id =
      p.careOf id + if e.id = id then 1 else 0 := by
    have hone : carriedOf [⟨p.nextTask, .transfer a .asking⟩] id = if e.id = id then 1 else 0 := by
      simp [carriedOf, Process.carried, hevent, List.countP_singleton]
    rw [careOf_eq, careOf_eq, ← hone]
    exact (congrArg (· + p.retriesOf id) (carriedOf_append p.tasks _ id)).trans
      (Nat.add_right_comm _ _ _)
  refine ⟨rfl, Nat.le_of_eq ((Ledger.size_set _ _ _).trans hsize).symm, fun id _ hother => ?_,
    fun id hother => ?_, fun e' he' => .inr ⟨?_, ?_⟩, fun _ h => h⟩
  · have hne : id ≠ e.id := fun h => hother (h ▸ List.mem_singleton_self _)
    exact (congrArg Lifecycle.retryMs (Ledger.get_set_ne _ _ hne)).trans
      (Ledger.retryMs_update _ _ Lifecycle.retryMs_hold id)
  · have hne : e.id ≠ id := fun h => hother (h ▸ List.mem_singleton_self _)
    rw [hcare, if_neg hne]
    exact Nat.le_refl _
  · rw [List.mem_singleton.mp he', hcare, if_pos rfl]
  · rw [List.mem_singleton.mp he']
    exact congrArg Lifecycle.retryMs (Ledger.get_set_self _ _ _ (hsize ▸ known))

theorem submit (p : Pipe P) (id : TaskId) {t : TabletSend}
    (distinct : (t.events.map EventRef.id).Nodup)
    (known : ∀ e ∈ t.events, e.id < p.commons.ledger.entries.size) :
    Submits t.events p (p.submit id t) := by
  obtain ⟨q, link, hmild, hset⟩ := askForTablets_sets (p.withLedger (t.events.foldl
    (fun l e => l.resetRetry e.id p.connector.settings.initialRetryMs) p.commons.ledger)) id t
  have hreset (id : EventId) (hid : id < p.commons.ledger.entries.size) :=
    (hmild.retryMs id).trans (Ledger.retryMs_resetAll p.commons.ledger t.events
      p.connector.settings.initialRetryMs hid)
  have hcare (x : EventId) : (q.setTask id (.tablets t link)).careOf x ≤
      p.careOf x + t.events.countP fun e => e.id = x :=
    Nat.le_trans (careOf_setTask_le q _ _ x)
      (Nat.add_le_add_right ((Steady.of_mild hmild).care x) _)
  rw [submit_eq, hset]
  refine ⟨congrArg Settings.initialRetryMs hmild.settings, ?_, fun x hx hother => ?_,
    fun x hother => ?_, fun e he => .inr ⟨?_, ?_⟩, fun entry hentry => hmild.retryQueue ▸ hentry⟩
  · exact Nat.le_of_eq (hmild.size.trans (sameHolders_resetAll t.events _ _).size).symm
  · exact (hreset x hx).trans (if_neg hother)
  · have hnone : t.events.countP (fun e => e.id = x) = 0 :=
      List.countP_eq_zero.mpr fun e he hid =>
        hother (List.mem_map.mpr ⟨e, he, of_decide_eq_true hid⟩)
    exact (hcare x).trans_eq (by rw [hnone, Nat.add_zero])
  · exact Nat.le_trans (hcare e.id) (Nat.add_le_add_left (countP_le_one distinct e.id) _)
  · exact (hreset e.id (known e he)).trans (if_pos (List.mem_map_of_mem he))

/-- Tablets that are to be sent are with a task of their own, unless nothing is to be sent. -/
theorem callSend (p : Pipe P) {events : List EventRef} (payload : Bytes)
    (distinct : (events.map EventRef.id).Nodup)
    (known : ∀ e ∈ events, e.id < p.commons.ledger.entries.size) :
    Submits events p (p.callSend events payload).1 := by
  have hnew : Steady p p.newTask.1 := .of_tasks rfl rfl rfl fun _ => Nat.le_refl _
  refine .head hnew ?_
  unfold Pipe.callSend
  dsimp only
  split
  · exact of_steady ((Steady.of_mild (.dropAll _ events)).trans (.setTask _ p.nextTask rfl)) _
  · split
    · exact of_steady (.setTask _ p.nextTask rfl) _
    · exact submit p.newTask.1 p.nextTask (t := { events, payload, purpose := .call })
        distinct known

end Submits

/-- Some events fail, and those that are not released or closed away are queued. -/
structure Fails (counts : Bool) (failed : List EventRef) (p p' : Pipe P) : Prop where
  initial : p'.connector.settings.initialRetryMs = p.connector.settings.initialRetryMs
  size : p'.commons.ledger.entries.size = p.commons.ledger.entries.size
  retryMs : ∀ id, p'.commons.ledger.retryMs id =
    if counts = true ∧ id ∈ failed.map EventRef.id then
      Backoff.next (p.commons.ledger.retryMs id)
    else p.commons.ledger.retryMs id
  care : ∀ id, p'.careOf id ≤ p.careOf id
  retries : ∀ entry ∈ p'.connector.retryQueue, entry ∈ p.connector.retryQueue ∨
    entry.event ∈ failed ∧ entry.readyAt = p.now + p'.commons.ledger.retryMs entry.event.id

/-- A task that fails gives what it had in hand to the retry queue. -/
theorem fails_of_retires {q : Pipe P} {inHand : List EventRef} {error : TransferError}
    (mild : Mild p q) (retires : Retires id (q.failAll inHand error) p')
    (known : ∀ e ∈ inHand, e.id < p.commons.ledger.entries.size)
    (distinct : (inHand.map EventRef.id).Nodup)
    (here : ∀ x, carriedOf (p.tasks.filter fun t => t.id != id) x +
      inHand.countP (fun e => e.id = x) ≤ carriedOf p.tasks x) :
    Fails (p.connector.retryPolicy.increases error) inHand p p' := by
  rw [← mild.retryPolicy]
  obtain ⟨increases, hincreases⟩ : ∃ increases,
      q.connector.retryPolicy.increases error = increases := ⟨_, rfl⟩
  have hqueued := Requeues.fold (q.note (.failed error increases)) increases inHand
  obtain ⟨hretryMs, hready⟩ := requeued_readyAt (q.note (.failed error increases)) increases
    (fun e he => mild.size ▸ known e he) distinct
  simp only [failAll, hincreases] at retires
  obtain ⟨failed, hfailed⟩ : ∃ failed, inHand.foldl (fun p e => p.fail increases e)
      (q.note (.failed error increases)) = failed := ⟨_, rfl⟩
  rw [hfailed] at hqueued hretryMs hready retires
  have hconnector : p'.connector.settings = failed.connector.settings ∧
      p'.connector.retryQueue = failed.connector.retryQueue ∧ p'.commons = failed.commons := by
    cases retires <;> exact ⟨rfl, rfl, rfl⟩
  have hcarried (x : EventId) : carriedOf p'.tasks x ≤
      carriedOf (p.tasks.filter fun t => t.id != id) x := by
    have hothers : carriedOf (failed.tasks.filter fun t => t.id != id) x =
        carriedOf (p.tasks.filter fun t => t.id != id) x := by
      rw [← mild.tasks]
      exact carriedOf_filter_congr hqueued.carried x
    cases retires with
    | finished => exact hothers.le
    | ended answer at_ =>
        refine ((carriedOf_append _ [⟨id, .ended answer at_⟩] x).trans ?_).le
        exact hothers
  obtain ⟨hsettings, hqueue, hcommons⟩ := hconnector
  refine ⟨?_, ?_, fun x => ?_, fun x => ?_, fun entry hentry => ?_⟩
  · rw [hsettings, hqueued.settings]
    exact congrArg Settings.initialRetryMs mild.settings
  · rw [hcommons]
    exact hqueued.size.trans mild.size
  · rw [hcommons, hincreases, ← mild.retryMs x]
    exact hretryMs x
  · obtain ⟨fresh, hfresh, hsub, -⟩ := hqueued.queue
    have hmore := (hsub.countP_le (p := fun e => e.id = x))
    rw [List.countP_map] at hmore
    have hretries : p'.retriesOf x = p.retriesOf x + fresh.countP fun entry => entry.event.id = x :=
      by
        rw [retriesOf, hqueue, hfresh, List.countP_append]
        exact congrArg (· + _) (congrArg (List.countP _) mild.retryQueue)
    have hbefore := here x
    have hafter := hcarried x
    rw [careOf_eq, careOf_eq, hretries]
    have hmore : (fresh.countP fun entry => entry.event.id = x) ≤
      inHand.countP fun e => e.id = x := hmore
    omega
  · rw [hqueue] at hentry
    rw [hcommons]
    refine (hready entry hentry).imp (fun h => ?_) fun hnew => ⟨hnew.1, hnew.2.trans ?_⟩
    · exact mild.retryQueue ▸ h
    · exact congrArg (· + _) mild.now

namespace Tracked

variable {first : Nat} {standing : EventId → Standing}

theorem Paced.steady (hs : Paced first ⟨p, standing⟩) (h : Steady p p') :
    Paced first ⟨p', standing⟩ := by
  have hbefore {id : EventId} (hid : 0 < p'.careOf id) : 0 < p.careOf id :=
    Nat.lt_of_lt_of_le hid (h.care id)
  refine ⟨h.initial.trans hs.initial, fun id => Nat.le_trans (h.care id) (hs.once id),
    fun id hid => ?_, fun id hid => ?_, fun entry hentry => hs.waits entry (h.retries entry hentry)⟩
  · exact Nat.lt_of_lt_of_le (hs.known id (hbefore hid)) h.size
  · exact (h.retryMs id (hs.known id (hbefore hid))).trans (hs.pause id (hbefore hid))

theorem Paced.submits {standing' : EventId → Standing} (hs : Paced first ⟨p, standing⟩)
    (h : Submits events p p') (known : ∀ e ∈ events, e.id < p.commons.ledger.entries.size)
    (fresh : ∀ e ∈ events, p.careOf e.id = 0)
    (anew : ∀ id ∈ events.map EventRef.id, standing' id = {})
    (others : ∀ id, id ∉ events.map EventRef.id → standing' id = standing id) :
    Paced first ⟨p', standing'⟩ := by
  have hcases (id : EventId) : id ∉ events.map EventRef.id ∧ p'.careOf id ≤ p.careOf id ∨
      ∃ e ∈ events, e.id = id ∧ (p'.careOf id = 0 ∨
        p'.careOf id ≤ 1 ∧ p'.commons.ledger.retryMs id = Backoff.clamp first) := by
    by_cases hmem : id ∈ events.map EventRef.id
    · obtain ⟨e, he, rfl⟩ := List.mem_map.mp hmem
      have hown := h.own e he
      rw [fresh e he, hs.initial] at hown
      exact .inr ⟨e, he, rfl, hown.imp_left Nat.eq_zero_of_le_zero⟩
    · exact .inl ⟨hmem, h.care id hmem⟩
  refine ⟨h.initial.trans hs.initial, fun id => ?_, fun id hid => ?_, fun id hid => ?_,
    fun entry hentry => ?_⟩
  · rcases hcases id with ⟨-, hle⟩ | ⟨e, -, -, hzero | ⟨hone, -⟩⟩
    · exact Nat.le_trans hle (hs.once id)
    · exact hzero ▸ Nat.zero_le 1
    · exact hone
  · refine Nat.lt_of_lt_of_le ?_ h.size
    rcases hcases id with ⟨-, hle⟩ | ⟨e, he, rfl, -⟩
    · exact hs.known id (Nat.lt_of_lt_of_le hid hle)
    · exact known e he
  · rcases hcases id with ⟨hother, hle⟩ | ⟨e, he, rfl, hzero | ⟨-, hpause⟩⟩
    · have hbefore := Nat.lt_of_lt_of_le hid hle
      refine (h.retryMs id (hs.known id hbefore) hother).trans ((hs.pause id hbefore).trans ?_)
      exact congrArg (fun s => Backoff.pause first s.counted) (others id hother).symm
    · exact absurd hid (hzero ▸ Nat.lt_irrefl 0)
    · refine hpause.trans ?_
      rw [show Standing.counted _ = 0 from congrArg _ (anew e.id (List.mem_map_of_mem he)),
        Backoff.pause, Nat.pow_zero, Nat.mul_one]
      rfl
  · have hbefore := careOf_pos_of_queued (h.retries entry hentry)
    have hother : entry.event.id ∉ events.map EventRef.id := by
      intro hmem
      obtain ⟨e, he, hid⟩ := List.mem_map.mp hmem
      rw [← hid, fresh e he] at hbefore
      exact Nat.lt_irrefl 0 hbefore
    have hsame := others _ hother
    obtain ⟨failedAt, hfailed, hready⟩ := hs.waits entry (h.retries entry hentry)
    refine ⟨failedAt, (congrArg Standing.failedAt hsame).trans hfailed, hready.trans ?_⟩
    exact congrArg (fun s => failedAt + Backoff.pause first s.counted) hsame.symm

/-- All that a task has in hand fails. -/
theorem Paced.fails {counts : Bool} {failed : List EventRef} {standing' : EventId → Standing}
    (positive : 0 < first) (hs : Paced first ⟨p, standing⟩) (h : Fails counts failed p p')
    (apart : ∀ entry ∈ p.connector.retryQueue, entry.event.id ∉ failed.map EventRef.id)
    (own : ∀ id ∈ failed.map EventRef.id, standing' id = (standing id).failed counts p.now)
    (others : ∀ id, id ∉ failed.map EventRef.id → standing' id = standing id) :
    Paced first ⟨p', standing'⟩ := by
  have hpause {id : EventId} (hid : 0 < p.careOf id) : p'.commons.ledger.retryMs id =
      Backoff.pause first (standing' id).counted := by
    rw [h.retryMs, hs.pause id hid]
    by_cases hmem : id ∈ failed.map EventRef.id
    · rw [own id hmem]
      cases counts with
      | false => rw [if_neg fun h => Bool.false_ne_true h.1]; rfl
      | true => rw [if_pos ⟨rfl, hmem⟩, Backoff.next_pause positive]; rfl
    · rw [others id hmem, if_neg fun h => hmem h.2]
  refine ⟨h.initial.trans hs.initial, fun id => Nat.le_trans (h.care id) (hs.once id),
    fun id hid => ?_, fun id hid => hpause (Nat.lt_of_lt_of_le hid (h.care id)),
    fun entry hentry => ?_⟩
  · exact Nat.lt_of_lt_of_eq (hs.known id (Nat.lt_of_lt_of_le hid (h.care id))) h.size.symm
  · rcases h.retries entry hentry with hbefore | ⟨hfailed, hready⟩
    · have hsame := others _ (apart entry hbefore)
      obtain ⟨failedAt, hat, hready⟩ := hs.waits entry hbefore
      refine ⟨failedAt, (congrArg Standing.failedAt hsame).trans hat, hready.trans ?_⟩
      exact congrArg (fun s => failedAt + Backoff.pause first s.counted) hsame.symm
    · have hown := own _ (List.mem_map_of_mem hfailed)
      have hcare := Nat.lt_of_lt_of_le (careOf_pos_of_queued hentry) (h.care _)
      refine ⟨p.now, congrArg Standing.failedAt hown, hready.trans ?_⟩
      exact congrArg (p.now + ·) (hpause hcare)

end Tracked

section Told

theorem toldBy_eq {told : List Occurrence} (h : p'.trace = told ++ p.trace) :
    p.toldBy p' = told := by
  simp [toldBy, h]

theorem inHand_eq {process : Process} (task : p.task? id = some process) :
    p.inHand id = process.carried := by
  rw [inHand, task]
  rfl

/-- A step that tells of no failure leaves events as they stand. -/
theorem standingAfter_of_mild {told : List Occurrence} (trace : p'.trace = told ++ p.trace)
    (mild : ∀ o ∈ told, o.failure? = none) (standing : EventId → Standing) :
    p.standingAfter (.ran id) p' standing = standing := by
  have hnone : (p.toldBy p').findSome? Occurrence.failure? = none := by
    rw [toldBy_eq trace]
    exact List.findSome?_eq_none_iff.mpr mild
  funext x
  simp only [standingAfter, hnone]

theorem Occurrence.failure?_of_mild {o : Occurrence} (h : o.ofFailure = false) :
    o.failure? = none := by
  cases o with
  | failed => cases h
  | _ => rfl

theorem told_of_fails {q : Pipe P} {inHand : List EventRef} {error : TransferError}
    (mild : Mild p q) (retires : Retires id (q.failAll inHand error) p') :
    ∃ (fresh : List RetryEntry) (told : List Occurrence) (increases : Bool),
      p.toldBy p' = (fresh.map fun entry => Occurrence.queued entry.event).reverse ++
        .failed error increases :: told ∧ ∀ o ∈ told, o.ofFailure = false := by
  obtain ⟨fresh, told, increases, -, htrace, htold⟩ := queued_of_fails mild retires
  exact ⟨fresh, told, increases, toldBy_eq htrace, htold⟩

theorem standingAfter_of_fails {q : Pipe P} {process : Process} {error : TransferError}
    (task : p.task? id = some process) (mild : Mild p q)
    (retires : Retires id (q.failAll process.carried error) p')
    (standing : EventId → Standing) (x : EventId) :
    p.standingAfter (.ran id) p' standing x =
      if x ∈ process.carried.map EventRef.id then
        (standing x).failed (p.connector.retryPolicy.increases error) p.now
      else standing x := by
  obtain ⟨fresh, told, increases, htold, -⟩ := told_of_fails mild retires
  have hfirst : (p.toldBy p').findSome? Occurrence.failure? = some error := by
    have hnone : (fresh.map fun entry => Occurrence.queued entry.event).reverse.findSome?
        Occurrence.failure? = none := by
      refine List.findSome?_eq_none_iff.mpr fun o ho => ?_
      obtain ⟨entry, -, rfl⟩ := List.mem_map.mp (List.mem_reverse.mp ho)
      rfl
    rw [htold, List.findSome?_append, hnone]
    rfl
  simp only [standingAfter, hfirst, inHand_eq task]

variable [Batch.Payload P]

/-- Only what is due is taken up again. -/
theorem due_of_resubmitted {e : EventRef}
    (apart : ∀ process, p.task? id = some process → process.consumes = false)
    (told : .resubmitted e ∈ p.toldBy (p.run id)) : e ∈ p.due := by
  have hmild {p' : Pipe P} {new : List Occurrence} (trace : p'.trace = new ++ p.trace)
      (mild : ∀ o ∈ new, o.ofFailure = false) (told : .resubmitted e ∈ p.toldBy p') :
      e ∈ p.due := by
    rw [toldBy_eq trace] at told
    cases mild _ told
  have hsilent {p' : Pipe P} (trace : p'.trace = p.trace) :
      .resubmitted e ∈ p.toldBy p' → e ∈ p.due :=
    hmild (show p'.trace = [] ++ p.trace from trace) fun _ ho => absurd ho List.not_mem_nil
  revert told
  refine run_cases (motive := fun _ p' => .resubmitted e ∈ p.toldBy p' → e ∈ p.due)
    p id apart ?_ ?_ (hsilent rfl) (hsilent (wakeWorker_fields (p.removeTask id)).2.2.1)
    (fun _ _ _ => hsilent rfl) (hsilent rfl)
  · intro process _ houtcome
    generalize p.run id = p' at houtcome
    cases houtcome with
    | goesOn mild =>
        obtain ⟨new, htrace, hnew⟩ := mild.trace
        exact hmild htrace hnew
    | done mild retires =>
        obtain ⟨new, htrace, hnew⟩ := mild.trace
        exact hmild ((trace_of_retires retires).trans htrace) hnew
    | failed mild error retires =>
        obtain ⟨fresh, new, increases, htold, hnew⟩ := told_of_fails mild retires
        intro hmem
        rw [htold] at hmem
        rcases List.mem_append.mp hmem with hmem | hmem
        · obtain ⟨entry, -, heq⟩ := List.mem_map.mp (List.mem_reverse.mp hmem)
          cases heq
        · rcases List.mem_cons.mp hmem with heq | hmem
          · cases heq
          · cases hnew _ hmem
  · intro _ hmem
    rw [toldBy_eq (look_runLooking p id).trace] at hmem
    obtain ⟨e', he', heq⟩ := List.mem_map.mp (List.mem_reverse.mp hmem)
    cases heq
    exact ((sublist_takenUp p.dueTaken p.due).trans List.filter_sublist).mem he'

end Told

variable {first : Nat} {standing : EventId → Standing} [Batch.Payload P]

theorem Tracked.Paced.ran (positive : 0 < first) (hs : Paced first ⟨p, standing⟩) (id : TaskId)
    (apart : ∀ process, p.task? id = some process → process.consumes = false) :
    Paced first ⟨p.run id, p.standingAfter (.ran id) (p.run id) standing⟩ := by
  have hsteady {p' : Pipe P} {told : List Occurrence} (h : Steady p p')
      (trace : p'.trace = told ++ p.trace) (mild : ∀ o ∈ told, o.failure? = none) :
      Paced first ⟨p', p.standingAfter (.ran id) p' standing⟩ := by
    rw [standingAfter_of_mild trace mild]
    exact hs.steady h
  have hsilent {p' : Pipe P} (h : Steady p p') (trace : p'.trace = p.trace) :
      Paced first ⟨p', p.standingAfter (.ran id) p' standing⟩ :=
    hsteady h (show p'.trace = [] ++ p.trace from trace) fun _ ho => absurd ho List.not_mem_nil
  refine run_cases (motive := fun _ p' =>
    Paced first ⟨p', p.standingAfter (.ran id) p' standing⟩) p id apart ?_ ?_ ?_ ?_ ?_ ?_
  · intro process htask houtcome
    generalize p.run id = p' at houtcome
    cases houtcome with
    | @goesOn q after mild same works apart =>
        obtain ⟨told, htrace, htold⟩ := mild.trace
        have hthere : q.task? id = some process := by
          rw [task?, mild.tasks]
          exact htask
        exact hsteady ((Steady.of_mild mild).trans (.setTask_same q hthere same)) htrace
          fun o ho => Occurrence.failure?_of_mild (htold o ho)
    | done mild retires =>
        obtain ⟨told, htrace, htold⟩ := mild.trace
        exact hsteady ((Steady.of_mild mild).trans (.of_retires retires))
          ((trace_of_retires retires).trans htrace)
          fun o ho => Occurrence.failure?_of_mild (htold o ho)
    | failed mild error retires =>
        have here := carriedOf_filter_add_le htask
        have hcare (x : EventId) : (process.carried.countP fun e => e.id = x) + p.retriesOf x ≤ 1 :=
          Nat.le_trans (Nat.add_le_add_right (Nat.le_trans (Nat.le_add_left _ _) (here x)) _)
            (hs.once x)
        have hpos {e : EventRef} (he : e ∈ process.carried) :
            0 < process.carried.countP fun e' => e'.id = e.id :=
          List.countP_pos_iff.mpr ⟨e, he, decide_eq_true rfl⟩
        have hknown : ∀ e ∈ process.carried, e.id < p.commons.ledger.entries.size := by
          intro e he
          refine hs.known e.id (Nat.lt_of_lt_of_le (hpos he) ?_)
          exact Nat.le_trans (Nat.le_trans (Nat.le_add_left _ _) (here e.id)) (Nat.le_add_right _ _)
        have hdistinct : (process.carried.map EventRef.id).Nodup :=
          nodup_of_countP fun x => Nat.le_trans (Nat.le_add_right _ _) (hcare x)
        have hapart : ∀ entry ∈ p.connector.retryQueue,
            entry.event.id ∉ process.carried.map EventRef.id := by
          intro entry hentry hmem
          obtain ⟨e, he, hid⟩ := List.mem_map.mp hmem
          have hretries : 0 < p.retriesOf e.id :=
            List.countP_pos_iff.mpr ⟨entry, hentry, decide_eq_true hid.symm⟩
          have hboth := hcare e.id
          have hcarried := hpos he
          omega
        refine hs.fails positive (fails_of_retires mild retires hknown hdistinct here) hapart
          (fun x hx => ?_) fun x hx => ?_
        · exact (standingAfter_of_fails htask mild retires standing x).trans (if_pos hx)
        · exact (standingAfter_of_fails htask mild retires standing x).trans (if_neg hx)
  · intro hlooks
    have hlook := look_runLooking p id
    have hsub := (sublist_takenUp p.dueTaken p.due).trans List.filter_sublist
    refine hsteady (.of_look hlook hsub) hlook.trace fun o ho => ?_
    obtain ⟨e, -, rfl⟩ := List.mem_map.mp (List.mem_reverse.mp ho)
    rfl
  · exact hsilent (.removeTask p id) rfl
  · have hleft := (Steady.removeTask p id).trans (.wakeWorker _)
    exact hsilent hleft (wakeWorker_fields (p.removeTask id)).2.2.1
  · exact fun process empty _ => hsilent (.setTask p id empty) rfl
  · exact hsilent (.refl p) rfl

theorem Tracked.Paced.step {s s' : Tracked P} (positive : 0 < first) (hs : s.Paced first)
    (h : Step s s') : s'.Paced first := by
  obtain ⟨hdoes, hfresh⟩ := h
  cases hdoes with
  | ran id apart => exact hs.ran positive id apart
  | failed => cases hfresh
  | removed e => exact hs.steady (.of_mild (.remove _ e))
  | discarded pipe region => exact hs.steady (.discard _ pipe region)
  | closed => exact hs.steady (.closeConnector _)
  | aside beside => exact hs.steady (.aside beside)
  | retuned grows paused =>
      exact hs.steady ⟨rfl, grows, paused, fun _ => Nat.le_refl _, fun _ h => h⟩
  | @transferred e known =>
      have hone {x : EventId} : x ∈ [e].map EventRef.id ↔ x = e.id := List.mem_singleton
      refine hs.submits (.transferFile _ known) (fun e' he' => ?_) (fun e' he' => ?_)
        (fun x hx => if_pos (hone.mp hx)) fun x hx => if_neg (hx ∘ hone.mpr)
      · exact List.mem_singleton.mp he' ▸ known
      · exact List.mem_singleton.mp he' ▸ hfresh
  | sent payload known =>
      exact hs.submits (.callSend _ payload hfresh.1 known) known hfresh.2
        (fun _ hx => if_pos hx) fun _ hx => if_neg hx

/-- From a first pause `first` on, the pause doubles up to the ceiling with every failure that
counts since an event was handed to the connector. The event waits that long after its latest
failure, whatever else failed in between, and is taken up by the first look of the worker after
that. -/
theorem waits_after_failure {s s' : Tracked P} (positive : 0 < first)
    (initial : s.pipe.connector.settings.initialRetryMs = first)
    (noTasks : s.pipe.tasks = []) (noRetries : s.pipe.connector.retryQueue = [])
    (reach : Relation.ReflTransGen Tracked.Step s s') :
    (∀ k, Backoff.next^[k] (Backoff.clamp first) = min (first * 2 ^ k) Backoff.ceiling ∧
        0 < Backoff.next^[k] (Backoff.clamp first) ∧
        Backoff.next^[k] (Backoff.clamp first) ≤ Backoff.next^[k + 1] (Backoff.clamp first)) ∧
      (∀ ms < Word.size,
        Backoff.next ms = if ms = 0 then Backoff.ceiling else min (2 * ms) Backoff.ceiling) ∧
      (∀ entry ∈ s'.pipe.connector.retryQueue, ∃ failedAt,
        (s'.standing entry.event.id).failedAt = some failedAt ∧
          entry.readyAt = failedAt +
            min (first * 2 ^ (s'.standing entry.event.id).counted) Backoff.ceiling) ∧
      ∀ id, (∀ process, s'.pipe.task? id = some process → process.consumes = false) →
        (∀ e, .resubmitted e ∈ s'.pipe.toldBy (s'.pipe.run id) → ∃ failedAt,
          (s'.standing e.id).failedAt = some failedAt ∧
            failedAt + min (first * 2 ^ (s'.standing e.id).counted) Backoff.ceiling ≤
              s'.pipe.now) ∧
        (s'.pipe.looks id = true → ∀ entry ∈ s'.pipe.connector.retryQueue,
          (entry ∈ (s'.pipe.run id).connector.retryQueue ↔ s'.pipe.now < entry.readyAt)) := by
  have hstart : s.Paced first := by
    have hnone (id : EventId) : s.pipe.careOf id = 0 := by
      rw [careOf_eq, retriesOf, noTasks, noRetries]
      rfl
    refine ⟨initial, fun id => hnone id ▸ Nat.zero_le 1, fun id hid => ?_, fun id hid => ?_,
      fun entry hentry => ?_⟩
    · exact absurd hid (hnone id ▸ Nat.lt_irrefl 0)
    · exact absurd hid (hnone id ▸ Nat.lt_irrefl 0)
    · rw [noRetries] at hentry
      cases hentry
  have hpaced : s'.Paced first := by
    induction reach with
    | refl => exact hstart
    | tail _ hstep ih => exact ih.step positive hstep
  refine ⟨fun k => ?_, fun ms _ => ?_, hpaced.waits, fun id apart => ⟨fun e he => ?_, ?_⟩⟩
  · rw [Backoff.iterate_next positive, Backoff.iterate_next positive]
    exact ⟨rfl, Backoff.pause_pos positive k, Backoff.pause_mono (Nat.le_succ k)⟩
  · split
    · rename_i hzero
      rw [hzero]
      rfl
    · rename_i hpos
      exact Backoff.next_of_pos (Nat.pos_of_ne_zero hpos)
  · obtain ⟨entry, hentry, rfl, hready⟩ := mem_due (due_of_resubmitted apart he)
    obtain ⟨failedAt, hfailed, hat⟩ := hpaced.waits entry hentry
    exact ⟨failedAt, hfailed, hat ▸ hready⟩
  · intro hlooks entry hentry
    rw [run_of_looks hlooks, (look_runLooking s'.pipe id).retryQueue, List.mem_filter,
      decide_eq_true_iff]
    exact and_iff_right hentry

/-- Tablets are sent in vain, and once more by the worker when their pause of 200 ms is over. -/
theorem waits_after_failure_of_resubmitted :
    let e : EventRef := ⟨0, {
      content := .tablet { target := "", rows := 0, payload := [1] }, pipe := "", region := 0
      commit := .zero, progress := 0 }⟩
    let p : Pipe Batch.PlainPayload := {
      commons := { ledger := ({} : Ledger).enrol 0 }
      queue := { pipe := "q", settings := {}, block := 0 }
      batch := { id := "b", maxDelayMs := 1, slice := 0, payload := {} }
      connector := .create "c" { initialRetryMs := 100 }
      clients := .ofClients [0]
      disk := {}
      peer := { fallback := .failure .disconnected } }
    let sent := (p.callSend [e] [1]).1
    let failed := sent.run 0
    let watched := failed.startWorker.run 1
    let resumed := ((watched.setClock 200).run 1).run 2
    let later := resumed.run 2
    later.connector.retryQueue = [⟨e, 600⟩] ∧ ∃ standing,
      Relation.ReflTransGen Tracked.Step ⟨p, fun _ => {}⟩ ⟨later, standing⟩ ∧
      standing 0 = ⟨2, some 200⟩ ∧ 600 = 200 + min (100 * 2 ^ 2) Backoff.ceiling := by
  intro e p sent failed watched resumed later
  have apart {q : Pipe Batch.PlainPayload} {id : TaskId}
      (h : (q.task? id).all (fun process => !process.consumes) = true) :
      ∀ process, q.task? id = some process → process.consumes = false := by
    intro process htask
    simpa [htask] using h
  have known : ∀ e' ∈ [e], e'.id < p.commons.ledger.entries.size := by decide
  have fresh : p.IsFresh (.sent [e]) := ⟨by decide, by decide⟩
  have reach : ∃ standing, Relation.ReflTransGen Tracked.Step ⟨p, fun _ => {}⟩ ⟨later, standing⟩ ∧
      standing 0 = ⟨2, some 200⟩ := by
    refine ⟨_, .head (.mk (.sent [1] known) fresh) (.head (.mk (.ran 0 (apart ?_)) trivial)
      (.head (.mk (.aside .startWorker) trivial) (.head (.mk (.ran 1 (apart ?_)) trivial)
        (.head (.mk (.aside (.clock 200)) trivial) (.head (.mk (.ran 1 (apart ?_)) trivial)
          (.head (.mk (.ran 2 (apart ?_)) trivial)
            (.single (.mk (.ran 2 (apart ?_)) trivial)))))))), ?_⟩ <;> decide +kernel
  have hqueue : later.connector.retryQueue = [⟨e, 600⟩] := by decide +kernel
  obtain ⟨standing, hreach, hstanding⟩ := reach
  refine ⟨hqueue, standing, hreach, hstanding, ?_⟩
  have hwaits := (waits_after_failure (Nat.succ_pos 99) rfl rfl rfl hreach).2.2.1
  clear_value later
  have hmem : ⟨e, 600⟩ ∈ later.connector.retryQueue := hqueue ▸ List.mem_singleton_self _
  have hwait : ∃ failedAt, (standing 0).failedAt = some failedAt ∧
      600 = failedAt + min (100 * 2 ^ (standing 0).counted) Backoff.ceiling := hwaits ⟨e, 600⟩ hmem
  rw [hstanding] at hwait
  obtain ⟨failedAt, hfailed, hready⟩ := hwait
  cases hfailed
  exact hready

end Pipe
end Courier
