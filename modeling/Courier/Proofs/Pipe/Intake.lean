import Courier.Proofs.Pipe.Solo
import Courier.Proofs.Pipe.Stock
import Mathlib.Algebra.Order.BigOperators.Group.List
import Mathlib.Algebra.Order.Group.Nat

/-!
How many files a pipe takes on. What a batch is sent ahead of is counted with what is buffered: the
file is as good as taken on, though its slot is taken later. A step takes on one file at most, and
none unless a consumer found a slot free when it retrieved the file.
-/

namespace Courier

open Transfer

namespace Pipe

variable {P : Type} {p p' p'' : Pipe P} {running running' running'' : Option TaskId}
  {id : TaskId} {n m : Nat} {calm : Prop} {mine : EventRef → Prop}

section Load

def After.carries : After → Nat
  | .file _ _ => 1
  | .dispatched _ _ | .due | .stop => 0

def Purpose.carries : Purpose → Nat
  | .flush after => after.carries
  | .retry | .call => 0

/-- A batch that is sent ahead of a file carries the file along. -/
def Process.carries : Process → Nat
  | .tablets t _ => t.purpose.carries
  | _ => 0

def Process.pauses : Process → Bool
  | .pausing _ _ => true
  | _ => false

theorem Process.pauses_of_eq {process : Process} {e : EventRef} {until_ : Nat}
    (h : process = .pausing e until_) : process.pauses = true := h ▸ rfl

def carried (tasks : List Task) : Nat := (tasks.map fun t => t.process.carries).sum

def stock (p : Pipe P) : Stock := p.connector.stock p.commons

/-- The files that are buffered, and those that tasks other than the one that runs carry. -/
def load (p : Pipe P) (running : Option TaskId) : Nat :=
  p.connector.buffer.length + carried (p.others running)

theorem carried_append (tasks tasks' : List Task) :
    carried (tasks ++ tasks') = carried tasks + carried tasks' := by
  simp [carried]

theorem carried_le_of_sublist {tasks tasks' : List Task} (h : tasks.Sublist tasks') :
    carried tasks ≤ carried tasks' :=
  (h.map _).sum_le_sum fun _ _ => Nat.zero_le _

/-- A task that is no consumer carries no file and is in no pause. -/
theorem carries_of_apart {process : Process} (apart : process.consumes = false) :
    process.carries = 0 ∧ process.pauses = false := by
  cases process with
  | pausing => cases apart
  | tablets t link =>
      cases hpurpose : t.purpose with
      | flush after =>
          have hflush : t.purpose.isFlush = false := apart
          rw [hpurpose] at hflush
          cases hflush
      | _ => simp [Process.carries, Process.pauses, Purpose.carries, hpurpose]
  | _ => exact ⟨rfl, rfl⟩

/-- Tablets alone wait before the batch, and no file is among what is served first. -/
structure Light (p : Pipe P) : Prop where
  live : ∀ e ∈ p.queue.channels.live, e.event.isBulk = false
  pending : ∀ e, p.pending = some e → e.event.isBulk = false
  pauses : ∀ t ∈ p.tasks, ∀ e until_, t.process = .pausing e until_ → e.event.isBulk = false

/-- What happens from one state to another takes on at most `n` files, and the mirrors of the
connector stay true. -/
structure Takes (n : Nat) (running running' : Option TaskId) (p p' : Pipe P) : Prop where
  tallied : p.stock.Tallied → p'.stock.Tallied
  load : p.stock.Tallied → p'.load running' ≤ p.load running + n
  closed : p.connector.closed = true → p'.connector.closed = true
  light : p.Light → p'.Light
  settings : p'.queue.settings = p.queue.settings

namespace Takes

theorem of_turns (turns : p.stock.Turns n p'.stock) (tasks : p'.tasks = p.tasks)
    (light : p.Light → p'.Light) (settings : p'.queue.settings = p.queue.settings) :
    Takes n running running p p' := by
  refine ⟨turns.tallied, fun ht => ?_, turns.closed, light, settings⟩
  have hroom : p'.connector.buffer.length ≤ p.connector.buffer.length + n := turns.room ht
  have hothers : p'.others running = p.others running := by rw [others, tasks]; rfl
  rw [Pipe.load, Pipe.load, hothers]
  omega

theorem light_of_eq (channels : p'.queue.channels = p.queue.channels)
    (pending : p'.pending = p.pending) (tasks : p'.tasks = p.tasks) (h : p.Light) : p'.Light := by
  obtain ⟨hlive, hpending, hpauses⟩ := h
  rw [← channels] at hlive
  rw [← pending] at hpending
  rw [← tasks] at hpauses
  exact ⟨hlive, hpending, hpauses⟩

theorem of_eq (stock : p'.stock = p.stock) (queue : p'.queue = p.queue)
    (pending : p'.pending = p.pending) (tasks : p'.tasks = p.tasks) :
    Takes 0 running running p p' :=
  .of_turns (.of_eq stock) tasks (light_of_eq (by rw [queue]) pending tasks) (by rw [queue])

theorem refl (p : Pipe P) : Takes 0 running running p p := of_eq rfl rfl rfl rfl

theorem trans (h : Takes n running running' p p') (h' : Takes m running' running'' p' p'') :
    Takes (n + m) running running'' p p'' := by
  refine ⟨fun ht => h'.tallied (h.tallied ht), fun ht => ?_, fun hc => h'.closed (h.closed hc),
    fun hl => h'.light (h.light hl), h'.settings.trans h.settings⟩
  have hfirst := h.load ht
  have hsecond := h'.load (h.tallied ht)
  omega

theorem mono (h : Takes n running running' p p') (le : n ≤ m) : Takes m running running' p p' :=
  { h with load := fun ht => Nat.le_trans (h.load ht) (Nat.add_le_add_left le _) }

/-- A step that takes on nothing before others do. -/
theorem next (h : Takes 0 running running' p p') (h' : Takes n running' running'' p' p'') :
    Takes n running running'' p p'' :=
  (h.trans h').mono (Nat.zero_add n).le

theorem setTask (p : Pipe P) (id : TaskId) (process : Process)
    (light : p.Light → ∀ e until_, process = .pausing e until_ → e.event.isBulk = false) :
    Takes process.carries (some id) none p (p.setTask id process) := by
  refine ⟨fun ht => ht, fun _ => ?_, fun hclosed => hclosed, fun hl => ⟨hl.live, hl.pending, ?_⟩,
    rfl⟩
  · have hothers : (p.setTask id process).others none = p.others (some id) ++ [⟨id, process⟩] := by
      rw [others_none]
      rfl
    simp only [Pipe.load, hothers, carried_append]
    exact Nat.le_of_eq (Nat.add_assoc ..).symm
  · intro t ht
    rcases mem_tasks_setTask ht with ht | rfl
    · exact hl.pauses t ht
    · exact light hl

/-- A task that comes to wait, but not in a pause. -/
theorem waits (p : Pipe P) (id : TaskId) (process : Process) (still : process.pauses = false) :
    Takes process.carries (some id) none p (p.setTask id process) := by
  refine setTask p id process fun _ e until_ heq => ?_
  rw [Process.pauses_of_eq heq] at still
  cases still

theorem ended (p : Pipe P) (id : TaskId) : Takes 0 (some id) none p (p.removeTask id) := by
  refine ⟨fun ht => ht, fun _ => ?_, fun hclosed => hclosed, fun hl => ⟨hl.live, hl.pending, ?_⟩,
    rfl⟩
  · have hothers : (p.removeTask id).others none = p.others (some id) := by
      rw [others_none]
      rfl
    rw [Pipe.load, hothers]
    exact Nat.le_refl _
  · exact fun t ht => hl.pauses t (List.mem_filter.mp ht).1

theorem removeTask (p : Pipe P) (id : TaskId) : Takes 0 running running p (p.removeTask id) := by
  refine ⟨fun ht => ht, fun _ => Nat.add_le_add_left (carried_le_of_sublist ?_) _,
    fun hclosed => hclosed, fun hl => ⟨hl.live, hl.pending, ?_⟩, rfl⟩
  · exact List.filter_sublist.filter _
  · exact fun t ht => hl.pauses t (List.mem_filter.mp ht).1

theorem spawn (p : Pipe P) {process : Process} (empty : process.carries = 0)
    (still : process.pauses = false) : Takes 0 running running p (p.spawn process) := by
  refine ⟨fun ht => ht, fun _ => ?_, fun hclosed => hclosed, fun hl => ⟨hl.live, hl.pending, ?_⟩,
    rfl⟩
  · have hnew : carried ([⟨p.nextTask, process⟩].filter fun t => some t.id != running) ≤ 0 :=
      (carried_le_of_sublist List.filter_sublist).trans (Nat.le_of_eq empty)
    have hothers : (p.spawn process).others running = p.others running ++
        [⟨p.nextTask, process⟩].filter fun t => some t.id != running := List.filter_append ..
    simp only [Pipe.load, hothers, carried_append]
    exact Nat.add_le_add_left (Nat.add_le_add_left hnew _) _
  · intro t ht e until_ heq
    rcases mem_tasks_spawn ht with ht | rfl
    · exact hl.pauses t ht e until_ heq
    · rw [Process.pauses_of_eq heq] at still
      cases still

theorem forget (p : Pipe P) (id : TaskId) : Takes 0 none (some id) p p := by
  refine ⟨fun ht => ht, fun _ => Nat.add_le_add_left (carried_le_of_sublist ?_) _,
    fun hclosed => hclosed, fun hl => hl, rfl⟩
  rw [others_none]
  exact List.filter_sublist

/-- What the task that runs carries is part of the account again. -/
theorem loaded {process : Process} (task : p.task? id = some process)
    (h : Takes (process.carries + n) (some id) none p p') : Takes n none none p p' := by
  refine ⟨h.tallied, fun ht => Nat.le_trans (h.load ht) ?_, h.closed, h.light, h.settings⟩
  obtain ⟨before, behind, htasks⟩ := List.append_of_mem (mem_of_task? task)
  have hfilter (tasks : List Task) :
      carried (tasks.filter fun t => some t.id != some id) ≤ carried tasks :=
    carried_le_of_sublist List.filter_sublist
  have hbefore := hfilter before
  have hbehind := hfilter behind
  have hothers : p.others (some id) = (before.filter fun t => some t.id != some id) ++
      behind.filter fun t => some t.id != some id := by
    simp [others, htasks]
  have hall : carried p.tasks = carried before + (process.carries + carried behind) := by
    rw [htasks, carried_append]
    rfl
  rw [Pipe.load, Pipe.load, others_none, hothers, carried_append, hall]
  omega

end Takes

end Load

section Deeds

theorem takes_wakeWorker (p : Pipe P) : Takes 0 running running p p.wakeWorker := by
  have hwake (t : Task) : t.wake.id = t.id ∧ t.wake.process.carries = t.process.carries ∧
      ∀ e until_, t.wake.process = .pausing e until_ → t.process = .pausing e until_ := by
    unfold Task.wake
    split
    · rename_i heq
      rw [heq]
      exact ⟨rfl, rfl, fun _ _ h => by cases h⟩
    · exact ⟨rfl, rfl, fun _ _ h => h⟩
  unfold wakeWorker
  split
  · rename_i found _
    have hwoken (t : Task) : (if t.id = found.id then t.wake else t).id = t.id ∧
        (if t.id = found.id then t.wake else t).process.carries = t.process.carries ∧
        ∀ e until_, (if t.id = found.id then t.wake else t).process = .pausing e until_ →
          t.process = .pausing e until_ := by
      split
      · exact hwake t
      · exact ⟨rfl, rfl, fun _ _ h => h⟩
    refine ⟨fun ht => ht, fun _ => Nat.le_of_eq ?_, fun hclosed => hclosed,
      fun hl => ⟨hl.live, hl.pending, fun t ht e until_ heq => ?_⟩, rfl⟩
    · simp only [load, others, carried, List.filter_map, List.map_map, Function.comp_def, hwoken]
      rfl
    · obtain ⟨t', ht', rfl⟩ := List.mem_map.mp ht
      exact hl.pauses t' ht' e until_ ((hwoken t').2.2 e until_ heq)
  · exact .of_eq rfl rfl rfl rfl

theorem takes_addFailure (p : Pipe P) (e : EventRef) :
    Takes 0 running running p (p.addFailure e) := by
  cases hclosed : p.connector.closed with
  | true =>
      rw [addFailure_of_closed hclosed]
      exact .of_eq rfl rfl rfl rfl
  | false =>
      cases hreleased : p.commons.isReleased e with
      | true =>
          rw [addFailure_of_released hclosed hreleased]
          exact .refl p
      | false =>
          have hqueued : Takes 0 running running p (p.enqueue e) :=
            .of_turns (Connector.turns_enqueue _ hclosed) rfl
              (Takes.light_of_eq rfl rfl rfl) rfl
          have hnoted : Takes 0 running running (p.enqueue e) ((p.enqueue e).note (.queued e)) :=
            .of_eq rfl rfl rfl rfl
          rw [addFailure_of_live hclosed hreleased]
          exact hqueued.next (hnoted.next (takes_wakeWorker _))

theorem takes_remove (p : Pipe P) (e : EventRef) :
    Takes 0 running running p (p.remove e).1 :=
  .of_turns (Connector.turns_remove p.connector p.commons e) rfl (Takes.light_of_eq rfl rfl rfl) rfl

/-- A task that is no consumer takes nothing on. -/
theorem takes_of_deed (h : Deed calm id mine p p') : Takes 0 running running p p' := by
  cases h with
  | looked _ hlook =>
      rw [look_eq hlook]
      exact .of_eq rfl rfl rfl rfl
  | failed => exact takes_addFailure p _
  | removed => exact takes_remove p _
  | taken =>
      exact .of_turns (Connector.turns_takeDue p.connector.startTask p.commons p.now) rfl
        (Takes.light_of_eq rfl rfl rfl) rfl
  | started apart =>
      have hbusier : Takes 0 running running p p.busier := .of_eq rfl rfl rfl rfl
      obtain ⟨hempty, hstill⟩ := carries_of_apart apart
      exact hbusier.next (.spawn _ hempty hstill)
  | parked apart =>
      -- A task that waits again is the task that has ended, and one that was started with its id.
      have hended : Takes 0 running running p { p.removeTask id with nextTask := id } :=
        (Takes.removeTask p id).next (.of_eq rfl rfl rfl rfl)
      obtain ⟨hempty, hstill⟩ := carries_of_apart apart
      exact (hended.next (.spawn _ hempty hstill)).next (.of_eq rfl rfl rfl rfl)
  | ended => exact .removeTask p id
  | finished => exact (Takes.removeTask p id).next (.of_eq rfl rfl rfl rfl)
  | woke => exact takes_wakeWorker p
  | _ => exact .of_eq rfl rfl rfl rfl

theorem takes_of_deeds (h : Deeds calm id mine p p') : Takes 0 running running p p' := by
  induction h with
  | refl => exact .refl p
  | tail _ hdeed ih => exact ih.next (takes_of_deed hdeed)

end Deeds

section Consumer

theorem takes_transferFile (p : Pipe P) (e : EventRef) :
    Takes 1 running running p (p.transferFile e).1 := by
  refine transferFile_cases p e (fun _ => ?_) (fun _ => ?_) (fun _ => ?_)
    fun a hopened _ hfree => ?_
  · exact (Takes.refl p).mono (Nat.zero_le 1)
  · exact Takes.mono (.of_eq rfl rfl rfl rfl) (Nat.zero_le 1)
  · exact Takes.mono (.of_eq rfl rfl rfl rfl) (Nat.zero_le 1)
  · have haccepted : Takes 1 running running p (p.accept e) :=
      .of_turns (Connector.turns_accept hopened hfree) rfl (Takes.light_of_eq rfl rfl rfl) rfl
    exact haccepted.trans (.spawn _ rfl rfl)

theorem takes_afterDispatch (p : Pipe P) (id : TaskId) (loop : Bool) :
    Takes 0 (some id) none p (p.afterDispatch id loop) := by
  cases loop with
  | false => exact .waits p id (.ended .nothing p.now) rfl
  | true => exact .waits p id .consuming rfl

theorem takes_afterFlush (p : Pipe P) (id : TaskId) (after : After) :
    Takes after.carries (some id) none p (p.afterFlush id after) := by
  have hdropped (q : Pipe P) (e : EventRef) (loop : Bool) :
      Takes 0 (some id) none q ((q.drop e).afterDispatch id loop) := by
    have hdrop : Takes 0 (some id) (some id) q (q.drop e) := .of_eq rfl rfl rfl rfl
    exact hdrop.next (takes_afterDispatch _ id loop)
  cases after with
  | dispatched e loop => exact hdropped p e loop
  | due => exact .waits p id .consuming rfl
  | stop => exact .ended p id
  | file e loop =>
      have hfile : Takes 1 (some id) (some id) p (p.transferFile e).1 := takes_transferFile p e
      have hcounted (q : Pipe P) : Takes 0 (some id) (some id) q q.countFailure :=
        .of_eq rfl rfl rfl rfl
      simp only [afterFlush]
      split <;> rename_i heq <;> rw [heq] at hfile
      · exact hfile.trans (hdropped _ e loop)
      · exact hfile.trans ((hcounted _).next (hdropped _ e loop))

theorem takes_askForTablets (p : Pipe P) (id : TaskId) (t : TabletSend) :
    Takes t.purpose.carries (some id) none p (p.askForTablets id t) := by
  have hasked : Takes 0 (some id) (some id) p (p.withClients (p.clients.ask id).1) :=
    .of_eq rfl rfl rfl rfl
  have hsent (q : Pipe P) (request : Request) : Takes 0 (some id) (some id) q (q.send request).1 :=
    .of_eq rfl rfl rfl rfl
  have hwaits (q : Pipe P) (link : Link Unit) :
      Takes t.purpose.carries (some id) none q (q.setTask id (.tablets t link)) :=
    .waits q id (.tablets t link) rfl
  rw [askForTablets_eq]
  split
  · exact hasked.next (hwaits _ _)
  · exact hasked.next ((hsent _ _).next (hwaits _ _))

variable [Batch.Payload P]

/-- The parts of a pipe before its connector take no slot. -/
theorem slots_checkDue (b : Batch.Accumulator P) (commons : Commons) :
    (b.checkDue commons).2.1.slots = commons.slots := by
  unfold Batch.Accumulator.checkDue
  split
  · rfl
  · split <;> rfl

theorem slots_add (b : Batch.Accumulator P) (commons : Commons) (e : EventRef) :
    (b.add commons e).2.1.slots = commons.slots := by
  have hheld : (commons.hold e).1.slots = commons.slots := rfl
  unfold Batch.Accumulator.add
  generalize commons.hold e = held at hheld ⊢
  obtain ⟨held, took⟩ := held
  cases took with
  | false => exact hheld
  | true =>
      dsimp only
      split <;> exact hheld

theorem slots_onEvent (b : Batch.Accumulator P) (commons : Commons) (e : EventRef) :
    (b.onEvent commons e).2.1.slots = commons.slots := by
  unfold Batch.Accumulator.onEvent
  split
  · rfl
  · cases b.endsWith e with
    | true => exact slots_checkDue b commons
    | false =>
        dsimp only
        split
        · exact slots_add b commons e
        · exact (slots_checkDue _ _).trans (slots_add b commons e)

theorem takes_checked (p : Pipe P) : Takes 0 running running p p.checked := by
  refine .of_eq ?_ rfl rfl rfl
  simp only [stock, checked, Connector.stock, slots_checkDue]

theorem takes_offeredBatch (p : Pipe P) (e : EventRef) :
    Takes 0 running running p (p.offeredBatch e) := by
  refine .of_eq ?_ rfl rfl rfl
  simp only [stock, offeredBatch, Connector.stock, slots_onEvent]

theorem takes_flush (p : Pipe P) (id : TaskId) (after : After) :
    Takes after.carries (some id) none p (p.flush id after) := by
  have hemitted : Takes 0 (some id) (some id) p p.emit := .of_eq rfl rfl rfl rfl
  rw [flush_eq]
  split
  · exact hemitted.next (takes_afterFlush _ id after)
  · split
    · have hdropped : Takes 0 (some id) (some id) p
          (p.emit.dropAll p.batch.events).countFailure := .of_eq rfl rfl rfl rfl
      exact hdropped.next (takes_afterFlush _ id after)
    · have hreset (ledger : Ledger) : Takes 0 (some id) (some id) p (p.emit.withLedger ledger) :=
        .of_eq rfl rfl rfl rfl
      rw [submit_eq]
      exact (hreset _).next (takes_askForTablets _ id {
        events := p.batch.events
        payload := (Batch.Payload.take p.batch.payload).2
        purpose := .flush after })

theorem takes_dispatched (p : Pipe P) (id : TaskId) (e : EventRef) (loop due : Bool) :
    Takes 0 (some id) none p (p.dispatched id e loop due) := by
  cases due with
  | true => exact takes_flush p id (.dispatched e loop)
  | false =>
      have hdropped : Takes 0 (some id) (some id) p (p.drop e) := .of_eq rfl rfl rfl rfl
      exact hdropped.next (takes_afterDispatch _ id loop)

/-- How many files an event is. -/
def files (e : EventRef) : Nat := if e.event.isBulk then 1 else 0

theorem takes_dispatch (p : Pipe P) (id : TaskId) (e : EventRef) (loop : Bool) :
    Takes (files e) (some id) none p (p.dispatch id e loop) := by
  have hoffered : Takes 0 (some id) (some id) p (p.offeredBatch e) := takes_offeredBatch p e
  have hnone {p' : Pipe P} (h : Takes 0 (some id) none p p') :
      Takes (files e) (some id) none p p' := h.mono (Nat.zero_le _)
  refine dispatch_cases p id e loop (fun f hcontent => ?_) (fun _ due _ => hnone ?_)
    (fun _ due _ _ => hnone ?_) (fun t error hcontent _ _ => hnone ?_)
    fun t error hcontent _ _ => hnone ?_
  · have hone : files e = 1 := by simp [files, Event.isBulk_of_file hcontent]
    rw [hone]
    exact takes_flush p id (.file e loop)
  · exact (takes_checked p).next (takes_dispatched _ id e loop due)
  · exact hoffered.next (takes_dispatched _ id e loop due)
  · have hrefused : Takes 0 (some id) (some id) (p.offeredBatch e)
        ((p.offeredBatch e).note (.refused e error)).countFailure := .of_eq rfl rfl rfl rfl
    exact hoffered.next (hrefused.next (takes_dispatched _ id e loop false))
  · have hdeferred : Takes 0 (some id) (some id) (p.offeredBatch e)
        ((p.offeredBatch e).countFailure.defer e) := by
      refine { Takes.refl (p.offeredBatch e) with
        light := fun hl => ⟨hl.live, ?_, hl.pauses⟩ }
      intro e' he'
      cases he'
      exact Event.isBulk_of_tablet hcontent
    exact hoffered.next (hdeferred.next (takes_afterDispatch _ id loop))

theorem takes_flushIfDue (p : Pipe P) (id : TaskId) :
    Takes 0 (some id) none p (p.flushIfDue id) := by
  have hchecked : Takes 0 (some id) (some id) p p.checked := takes_checked p
  rw [flushIfDue_eq]
  split
  · exact hchecked.next (takes_flush _ id .due)
  · exact hchecked.next (.waits _ id .consuming rfl)

omit [Batch.Payload P] in
theorem takes_gave {event : Option EventRef} {queue : Queue.Realtime} {commons : Commons}
    (h : p.queue.Gave event queue p.commons commons) :
    Takes 0 running running p (p.withQueue queue commons) := by
  refine .of_turns (.of_eq ?_) rfl (fun hl => ⟨fun e he => hl.live e ?_, hl.pending, hl.pauses⟩)
    h.settings
  · simp only [stock, withQueue, Connector.stock, h.slots]
  · have he : e ∈ queue.channels.live := he
    cases h.channels with
    | nothing live => exact live ▸ he
    | live live => exact live ▸ List.mem_cons_of_mem _ he
    | bulk live => exact live ▸ he

def filesOf (event : Option EventRef) : Nat := (event.map files).getD 0

theorem takes_afterRetrieval (p : Pipe P) (id : TaskId) (retrieval : Queue.Retrieval) :
    Takes (filesOf retrieval.event?) (some id) none p (p.afterRetrieval id retrieval) := by
  cases retrieval with
  | waiting w => exact .waits p id (.polling w) rfl
  | done event =>
      cases event with
      | some e => exact takes_dispatch p id e true
      | none =>
          simp only [afterRetrieval]
          split
          · exact takes_flush p id .stop
          · exact takes_flushIfDue p id

omit [Batch.Payload P] in
/-- What was retrieved is no file, or there was a slot for it. -/
theorem files_le_of_gave {event : Option EventRef} {queue : Queue.Realtime} {commons : Commons}
    (h : p.queue.Gave event queue p.commons commons) :
    filesOf event ≤ 1 ∧ (p.Light → filesOf event = 1 → p.queue.bulkAllowed p.commons = true) := by
  cases event with
  | none => exact ⟨Nat.zero_le 1, fun _ hone => by cases hone⟩
  | some e =>
      cases hbulk : e.event.isBulk with
      | false =>
          have hnone : filesOf (some e) = 0 := by simp [filesOf, files, hbulk]
          rw [hnone]
          exact ⟨Nat.zero_le 1, fun _ hone => by cases hone⟩
      | true =>
          have hone : filesOf (some e) = 1 := by simp [filesOf, files, hbulk]
          refine ⟨hone.le, fun hl _ => h.allowed e rfl fun hlive => ?_⟩
          rw [hl.live e hlive] at hbulk
          cases hbulk

/-- A step that takes on a file takes it from the queue, and found a slot. -/
def TakesOne (running : Option TaskId) (p p' : Pipe P) : Prop :=
  ∃ n ≤ 1, Takes n running none p p' ∧ (p.Light → n = 1 → p.queue.bulkAllowed p.commons = true)

omit [Batch.Payload P] in
theorem Takes.none (h : Takes 0 running none p p') : TakesOne running p p' :=
  ⟨0, Nat.zero_le 1, h, fun _ hone => by cases hone⟩

theorem takesOne_retrieved (p : Pipe P) (id : TaskId) {queue : Queue.Realtime} {commons : Commons}
    {retrieval : Queue.Retrieval} (h : p.queue.Gave retrieval.event? queue p.commons commons) :
    TakesOne (some id) p ((p.withQueue queue commons).afterRetrieval id retrieval) := by
  obtain ⟨hle, hallowed⟩ := files_le_of_gave h
  have hgave : Takes 0 (some id) (some id) p (p.withQueue queue commons) := takes_gave h
  exact ⟨_, hle, hgave.next (takes_afterRetrieval _ id retrieval), hallowed⟩

theorem takesOne_consume (p : Pipe P) (id : TaskId) : TakesOne (some id) p (p.consume id) := by
  refine consume_cases p id (takes_flush p id .stop).none (fun e until_ hpending => Takes.none ?_)
    fun queue commons retrieval _ hgave => takesOne_retrieved p id hgave
  have hpaused : Takes 0 (some id) none p (p.setTask id (.pausing e until_)) := by
    refine .setTask p id (.pausing e until_) fun hl e' until_ heq => ?_
    cases heq
    exact hl.pending e hpending
  have hemptied (q : Pipe P) : Takes 0 none none q q.withoutPending :=
    { Takes.refl q with light := fun hl => ⟨hl.live, fun _ he => (by cases he), hl.pauses⟩ }
  exact hpaused.next (hemptied _)

theorem takesOne_runPolling (p : Pipe P) (id : TaskId) (w : Queue.Waiting) :
    TakesOne (some id) p (p.runPolling id w) :=
  runPolling_cases p id w (takes_flush p id .stop).none
    fun _ _ _ hgave => takesOne_retrieved p id hgave

theorem takes_runPausing (p : Pipe P) (id : TaskId) {e : EventRef}
    (light : p.Light → e.event.isBulk = false) :
    Takes (files e) (some id) none p (p.runPausing id e) := by
  unfold runPausing
  split
  · have hdeferred : Takes 0 (some id) (some id) p (p.defer e) := by
      refine { Takes.refl p with light := fun hl => ⟨hl.live, fun e' he' => ?_, hl.pauses⟩ }
      cases he'
      exact light hl
    exact (hdeferred.next (takes_flush _ id .stop)).mono (Nat.zero_le _)
  · exact takes_dispatch p id e true

omit [Batch.Payload P] in
theorem takes_runTablets (p : Pipe P) (id : TaskId) {t : TabletSend} {link : Link Unit}
    (own : t.purpose.isFlush = true) :
    Takes t.purpose.carries (some id) none p (p.runTablets id t link) := by
  cases link with
  | asking => exact takes_askForTablets p id t
  | waiting => exact takes_askForTablets p id t
  | exchanging client x more =>
      cases hlook : p.look x with
      | mk p' progress =>
          have hdeed : Deed False id (fun _ => True) p p' := .looked False.elim hlook
          have hlooked : Takes 0 (some id) (some id) p p' := takes_of_deed hdeed
          cases progress with
          | pending y =>
              rw [runTablets_of_pending id hlook]
              exact hlooked.next (.waits p' id (.tablets t (.exchanging client y ())) rfl)
          | done result =>
              have hdeeds : Deeds False id (fun _ => True) p' (p'.settle t client x result) :=
                Deeds.settle p' t client x result fun _ _ => trivial
              have hsettled : Takes 0 (some id) (some id) p' (p'.settle t client x result) :=
                takes_of_deeds hdeeds
              rw [runTablets_of_done id hlook]
              refine hlooked.next (hsettled.next ?_)
              cases hpurpose : t.purpose with
              | flush after =>
                  have hcounted (q : Pipe P) : Takes 0 (some id) (some id) q q.countFailure :=
                    .of_eq rfl rfl rfl rfl
                  simp only [afterTablets]
                  split
                  · exact takes_afterFlush _ id after
                  · exact (hcounted _).next (takes_afterFlush _ id after)
              | _ =>
                  rw [hpurpose] at own
                  cases own

/-- A consumer is about to look into the queue, and there is a slot. -/
def MayRetrieve (p : Pipe P) (id : TaskId) : Prop :=
  p.queue.bulkAllowed p.commons = true ∧
    (p.task? id = some .consuming ∨ ∃ w, p.task? id = some (.polling w))

/-- A step takes on at most one file, and none unless a consumer finds a slot for it. -/
theorem takes_run (p : Pipe P) (id : TaskId) :
    ∃ n ≤ 1, Takes n none none p (p.run id) ∧ (p.Light → n = 1 → p.MayRetrieve id) := by
  cases htask : p.task? id with
  | none =>
      have hrun : p.run id = p := by simp only [run, htask]
      refine ⟨0, Nat.zero_le 1, ?_, fun _ hone => by cases hone⟩
      rw [hrun]
      exact .refl p
  | some process =>
  have hrun : p.run id = p.runProcess id process := by simp only [run, htask]
  have hnone (h : Takes 0 none none p (p.run id)) :
      ∃ n ≤ 1, Takes n none none p (p.run id) ∧ (p.Light → n = 1 → p.MayRetrieve id) :=
    ⟨0, Nat.zero_le 1, h, fun _ hone => by cases hone⟩
  cases hconsumes : process.consumes with
  | false => exact hnone (takes_of_deeds (deeds_run p htask hconsumes))
  | true =>
      cases process with
      | consuming =>
          obtain ⟨n, hle, htakes, hallowed⟩ := takesOne_consume p id
          refine ⟨n, hle, hrun ▸ ?_, fun hl hone => ⟨hallowed hl hone, .inl htask⟩⟩
          exact Takes.loaded htask ((Nat.zero_add n).symm ▸ htakes)
      | polling w =>
          obtain ⟨n, hle, htakes, hallowed⟩ := takesOne_runPolling p id w
          refine ⟨n, hle, hrun ▸ ?_, fun hl hone => ⟨hallowed hl hone, .inr ⟨w, htask⟩⟩⟩
          exact Takes.loaded htask ((Nat.zero_add n).symm ▸ htakes)
      | tablets t link =>
          exact hnone (hrun ▸ Takes.loaded htask (takes_runTablets p id hconsumes))
      | pausing e until_ =>
          have hlight (hl : p.Light) : e.event.isBulk = false :=
            hl.pauses _ (mem_of_task? htask) e until_ rfl
          have htakes := takes_runPausing p id hlight
          refine ⟨files e, ?_, hrun ▸ ?_, fun hl hone => ?_⟩
          · rw [files]
            split <;> decide
          · exact Takes.loaded htask ((Nat.zero_add _).symm ▸ htakes)
          · rw [files, hlight hl] at hone
            cases hone
      | _ => cases hconsumes

end Consumer

end Pipe
end Courier
