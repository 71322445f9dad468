import Courier.Pipe.Calls
import Courier.Proofs.Pipe.Step
import Courier.Proofs.Transfer.Acceptance

/-!
What a step is made of when the task that runs is no consumer. It does a few deeds, one after the
other, and each concerns the events of the task alone: a transfer has its file, the worker what
waits to be tried again. What every deed keeps, every such step keeps.
-/

namespace Courier

open Transfer

namespace Pipe

variable {P : Type} {p p' : Pipe P} {calm : Prop} {id : TaskId} {mine : EventRef → Prop}

def Purpose.isFlush : Purpose → Bool
  | .flush _ => true
  | .retry | .call => false

/-- The task is a consumer, polling, pausing or sending what was batched. -/
def Process.consumes : Process → Bool
  | .consuming | .polling _ | .pausing _ _ => true
  | .tablets t _ => t.purpose.isFlush
  | _ => false

def Process.file? : Process → Option EventRef
  | .transfer a _ => some a.event
  | _ => none

/-- The events that somebody transfers or that wait to be tried again. -/
def tended (p : Pipe P) : List EventRef :=
  p.tasks.filterMap (fun t => t.process.file?) ++ p.connector.retryQueue.map RetryEntry.event

/-- A transfer asks for nothing but pieces and seals, and only consumers send tablets. -/
def Process.IsCalm : Process → Prop
  | .transfer _ link => ∀ request, link.request? = some request → request.isOfFile = true
  | .tablets t _ => t.purpose.isFlush = true
  | _ => True

/-- The pipe whose connector has one task less. -/
def rested (p : Pipe P) : Pipe P := { p with connector := p.connector.endTask }

/-- The pipe whose worker need not look again for what was added. -/
def heeded (p : Pipe P) : Pipe P := { p with retryAdded := false }

/-- What a task other than a consumer does, to events of its own alone. If it is calm, it asks for
files alone. -/
inductive Deed (calm : Prop) (id : TaskId) (mine : EventRef → Prop) (p : Pipe P) : Pipe P → Prop
  | lent (clients : ClientPool) : Deed calm id mine p (p.withClients clients)
  | pooled (buffers : BufferPool) : Deed calm id mine p (p.withBuffers buffers)
  | measured (stats : Metrics.TransferStats) : Deed calm id mine p (p.withStats stats)
  | noted (o : Occurrence) : Deed calm id mine p (p.note o)
  | sent (request : Request) : Deed calm id mine p (p.send request).1
  | looked {p' : Pipe P} {x : Exchange} {progress : Exchange.Progress}
      (files : calm → x.request.isOfFile = true) (look : p.look x = (p', progress)) :
      Deed calm id mine p p'
  | dropped {e : EventRef} (own : mine e) : Deed calm id mine p (p.drop e)
  | delayed {e : EventRef} (own : mine e) :
      Deed calm id mine p { p with commons := p.commons.backOff e }
  | failed {e : EventRef} (own : mine e) : Deed calm id mine p (p.addFailure e)
  | removed {e : EventRef} (own : mine e) : Deed calm id mine p (p.remove e).1
  | taken (own : ∀ entry ∈ p.connector.retryQueue, mine entry.event) :
      Deed calm id mine p p.dueTaken
  | started {process : Process} (apart : process.consumes = false)
      (file : ∀ e, process.file? = some e → mine e)
      (calmly : calm → (∀ e, mine e → e.event.isBulk = true) → process.IsCalm) :
      Deed calm id mine p (p.busier.spawn process)
  | rested : Deed calm id mine p p.rested
  | parked {process : Process} (apart : process.consumes = false)
      (file : ∀ e, process.file? = some e → mine e) (calmly : calm → process.IsCalm) :
      Deed calm id mine p (p.setTask id process)
  | ended : Deed calm id mine p (p.removeTask id)
  | finished : Deed calm id mine p (p.finishTask id)
  | woke : Deed calm id mine p p.wakeWorker
  | heeded : Deed calm id mine p p.heeded

abbrev Deeds (calm : Prop) (id : TaskId) (mine : EventRef → Prop) : Pipe P → Pipe P → Prop :=
  Relation.ReflTransGen (Deed calm id mine)

theorem Deeds.parked (p : Pipe P) {process : Process} (apart : process.consumes = false)
    (fileless : process.file? = none) (calmly : calm → process.IsCalm) :
    Deeds calm id mine p (p.setTask id process) :=
  .single (.parked apart (fun _ hfile => by rw [fileless] at hfile; cases hfile) calmly)

theorem Deeds.noteJudgement (p : Pipe P) (judgement : Option Judgement) :
    Deeds calm id mine p (p.noteJudgement judgement) := by
  cases judgement with
  | none => exact .refl
  | some judgement => exact .single (.noted (.judged judgement))

theorem Deeds.noteTaken (p : Pipe P) (x : Exchange) (r : Response) :
    Deeds calm id mine p (p.noteTaken x r) := by
  unfold Pipe.noteTaken
  split
  · exact .refl
  · exact .single (.noted (.accepted x.request))

theorem Deeds.fail (p : Pipe P) (increases : Bool) {e : EventRef} (own : mine e) :
    Deeds calm id mine p (p.fail increases e) := by
  unfold Pipe.fail
  cases increases with
  | false => exact .single (.failed own)
  | true => exact .head (.delayed own) (.single (.failed own))

section Transfers

variable {a : Attempt} (own : mine a.event)
include own

theorem Deeds.completeTransfer (p : Pipe P) : Deeds calm id mine p (p.completeTransfer a) := by
  unfold Pipe.completeTransfer
  dsimp only
  split
  · exact .head (.removed own) (.head (.dropped own) (.single (.measured _)))
  · exact .head (.removed own) (.single (.measured _))

theorem Deeds.endTransfer (p : Pipe P) (client : ClientId) (buffer : Nat)
    (result : Except TransferError Unit) :
    Deeds calm id mine p (p.endTransfer id a client buffer result) := by
  have hreturned : Deeds calm id mine p (p.returned client buffer) :=
    .head (.pooled _) (.single (.lent _))
  refine .tail (hreturned.trans ?_) .finished
  cases result with
  | ok _ => exact Deeds.completeTransfer own _
  | error error =>
      have hfailed (q : Pipe P) (increases : Bool) :
          Deeds calm id mine q (q.fail increases a.event) := Deeds.fail q increases own
      exact .head (.noted _) (.tail (hfailed _ _) (.measured _))

theorem Deeds.proceed (p : Pipe P) (client : ClientId) (buffer : Nat) (stage : Stage) :
    Deeds calm id mine p (p.proceed id a client buffer stage) := by
  unfold Pipe.proceed
  split
  · exact Deeds.endTransfer own p client buffer _
  · rename_i sent request hnext
    have hfile : request.isOfFile = true := Attempt.next_isOfFile hnext
    refine .head (.sent request) (.single (.parked rfl (fun e he => ?_) fun _ => ?_))
    · cases he
      exact own
    · intro request' hrequest
      cases hrequest
      exact hfile

theorem Deeds.beginTransfer (p : Pipe P) (client : ClientId) :
    Deeds calm id mine p (p.beginTransfer id a client) := by
  rw [beginTransfer_eq]
  refine .head (.pooled p.connector.buffers.get.1) ?_
  split
  · exact Deeds.endTransfer own _ client _ _
  · exact Deeds.proceed own _ client _ _

theorem Deeds.askForTransfer (p : Pipe P) : Deeds calm id mine p (p.askForTransfer id a) := by
  rw [askForTransfer_eq]
  refine .head (.lent (p.clients.ask id).1) ?_
  split
  · exact Deeds.beginTransfer own _ _
  · refine .single (.parked rfl (fun e he => ?_) fun _ request hrequest => ?_)
    · cases he
      exact own
    · cases hrequest

theorem Deeds.answerTransfer (p : Pipe P) (client : ClientId) (pending : Pending) (x : Exchange)
    (r : Response) : Deeds calm id mine p (p.answerTransfer id a client pending x r) := by
  obtain ⟨verdict, hverdict⟩ : ∃ verdict, a.receive p.connector.statusPolicy p.connector.stats
      (p.commons.elapsed x.sentAt) pending.sent r = verdict := ⟨_, rfl⟩
  rw [answerTransfer_eq p id client hverdict]
  refine .head (.measured verdict.stats) ((Deeds.noteJudgement _ verdict.judgement).trans ?_)
  cases verdict.result with
  | error error => exact Deeds.endTransfer own _ client _ _
  | ok stage? =>
      refine (Deeds.noteTaken _ x r).trans ?_
      cases stage? with
      | none => exact Deeds.endTransfer own _ client _ _
      | some stage => exact Deeds.proceed own _ client _ _

omit own in
/-- To look at an exchange changes the peer and the files, and is written down. -/
theorem look_eq {x : Exchange} {progress : Exchange.Progress} (h : p.look x = (p', progress)) :
    p' = { p with peer := p'.peer, disk := p'.disk, trace := p'.trace } := by
  unfold look at h
  dsimp only at h
  split at h <;> cases h <;> rfl

omit own in
theorem look_pending {x y : Exchange} (h : p.look x = (p', .pending y)) :
    y.request = x.request := by
  unfold look at h
  cases hlook : x.look p.peer p.disk p.now with
  | mk peer rest =>
      obtain ⟨disk, progress⟩ := rest
      rw [hlook] at h
      cases progress with
      | pending y' =>
          cases h
          exact (Exchange.look_pending hlook).1
      | done result => cases h

theorem Deeds.runTransfer (p : Pipe P) {link : Link Pending}
    (calmly : calm → (Process.transfer a link).IsCalm) :
    Deeds calm id mine p (p.runTransfer id a link) := by
  cases link with
  | asking => exact Deeds.askForTransfer own p
  | waiting => exact Deeds.askForTransfer own p
  | exchanging client x pending =>
      have hfiles (hcalm : calm) : x.request.isOfFile = true := calmly hcalm _ rfl
      cases hlook : p.look x with
      | mk p' progress =>
          simp only [Pipe.runTransfer, hlook]
          refine .head (.looked hfiles hlook) ?_
          cases progress with
          | pending y =>
              refine .single (.parked rfl (fun e he => ?_) fun hcalm request hasked => ?_)
              · cases he
                exact own
              · cases hasked
                exact look_pending hlook ▸ hfiles hcalm
          | done result =>
              cases result with
              | error error => exact Deeds.endTransfer own p' client pending.buffer _
              | ok r => exact Deeds.answerTransfer own p' client pending x r

end Transfers

section Worker

theorem Deeds.takeUp (p : Pipe P) {e : EventRef} (own : mine e) :
    Deeds calm id mine p (p.takeUp e) := by
  unfold Pipe.takeUp
  cases hcontent : e.event.content with
  | heartbeat created => exact .single (.dropped own)
  | tablet t =>
      dsimp only
      split
      · refine .single (.started rfl (fun _ hfile => by cases hfile) fun _ hbulk => ?_)
        -- A tablet that waits to be tried again is an event of its own that is no file.
        have hlight := Event.isBulk_of_tablet hcontent
        rw [hbulk e own] at hlight
        cases hlight
      · exact .single (.dropped own)
  | file f =>
      dsimp only
      split
      · rename_i a hprepared
        refine .single (.started rfl (fun e' hfile => ?_) fun _ _ _ hasked => ?_)
        · cases hfile
          rw [(Attempt.prepare_event hprepared).1]
          exact own
        · cases hasked
      · split
        · exact .head (.removed own) (.single (.dropped own))
        · exact .single (.removed own)

theorem Deeds.resubmitAll (due : List EventRef) (own : ∀ e ∈ due, mine e) (p : Pipe P) :
    Deeds calm id mine p (due.foldl resubmit p) := by
  induction due generalizing p with
  | nil => exact .refl
  | cons e due ih =>
      have hown : mine e := own e (List.mem_cons_self ..)
      have hfirst : Deeds calm id mine p (p.resubmit e) := by
        cases hreleased : p.commons.isReleased e with
        | true =>
            rw [resubmit_of_released hreleased]
        | false =>
            rw [resubmit_of_unreleased hreleased]
            exact .head (.noted (.resubmitted e)) (Deeds.takeUp _ hown)
      exact hfirst.trans (ih (fun e' he' => own e' (List.mem_cons_of_mem e he')) _)

/-- The worker takes up what waits to be tried again, and nothing else. -/
theorem Deeds.runLooking (p : Pipe P)
    (own : ∀ entry ∈ p.connector.retryQueue, mine entry.event) :
    Deeds calm id mine p (p.runLooking id) := by
  have hdue : ∀ e ∈ (p.connector.startTask.takeDue p.now).2, mine e := by
    intro e he
    have hsorted := (List.mergeSort_perm _ _).mem_iff.mp he
    obtain ⟨entry, hentry, rfl⟩ := List.mem_map.mp hsorted
    exact own entry (List.mem_filter.mp hentry).1
  have hresubmitted : Deeds calm id mine p p.resubmitDue :=
    .head (.taken own) (.tail (Deeds.resubmitAll _ hdue p.dueTaken) .rested)
  exact (hresubmitted.tail .heeded).trans (Deeds.parked _ rfl rfl fun _ => trivial)

theorem Deeds.runWatching (p : Pipe P) (woken : Bool)
    (own : ∀ entry ∈ p.connector.retryQueue, mine entry.event) :
    Deeds calm id mine p (p.runWatching id woken) := by
  unfold Pipe.runWatching
  split
  · split
    · exact .head .ended (.single .woke)
    · exact .single .ended
  · exact Deeds.runLooking p own

theorem Deeds.runIdling (p : Pipe P) (deadline : Nat) :
    Deeds calm id mine p (p.runIdling id deadline) := by
  unfold Pipe.runIdling
  split
  · exact Deeds.parked p rfl rfl fun _ => trivial
  · split <;> exact Deeds.parked p rfl rfl fun _ => trivial

end Worker

section Tablets

theorem Deeds.dropAll (events : List EventRef) (own : ∀ e ∈ events, mine e) (p : Pipe P) :
    Deeds calm id mine p (p.dropAll events) := by
  induction events generalizing p with
  | nil => exact .refl
  | cons e events ih =>
      have hfirst : Deed calm id mine p (p.drop e) := .dropped (own e (List.mem_cons_self ..))
      exact .head hfirst (ih (fun e' he' => own e' (List.mem_cons_of_mem e he')) _)

theorem Deeds.failAll (increases : Bool) (events : List EventRef) (own : ∀ e ∈ events, mine e)
    (p : Pipe P) : Deeds calm id mine p (events.foldl (fun p e => p.fail increases e) p) := by
  induction events generalizing p with
  | nil => exact .refl
  | cons e events ih =>
      have hfirst : Deeds calm id mine p (p.fail increases e) :=
        Deeds.fail p increases (own e (List.mem_cons_self ..))
      exact hfirst.trans (ih (fun e' he' => own e' (List.mem_cons_of_mem e he')) _)

theorem Deeds.judgeTablets (p : Pipe P) (x : Exchange) (result : Except ClientError Response) :
    Deeds calm id mine p (p.judgeTablets x result).1 := by
  cases result with
  | error error => exact .refl
  | ok r =>
      have hjudged : Deeds calm id mine p (p.noteJudgement
          (judge p.connector.statusPolicy x.request.name r).1) := Deeds.noteJudgement p _
      simp only [Pipe.judgeTablets]
      split
      · exact hjudged.tail (.noted _)
      · exact hjudged

theorem Deeds.settle (p : Pipe P) (t : TabletSend) (client : ClientId) (x : Exchange)
    (result : Except ClientError Response) (own : ∀ e ∈ t.events, mine e) :
    Deeds calm id mine p (p.settle t client x result) := by
  have hjudged : Deeds calm id mine p (p.judgeTablets x result).1 := Deeds.judgeTablets p x result
  unfold Pipe.settle
  generalize p.judgeTablets x result = judged at hjudged ⊢
  refine hjudged.trans (.head (.lent (judged.1.clients.giveBack client)) ?_)
  cases judged.2 with
  | ok _ => exact .head (.measured _) (Deeds.dropAll t.events own _)
  | error error => exact .head (.noted _) (.tail (Deeds.failAll _ t.events own _) (.measured _))

theorem Deeds.askForTablets (p : Pipe P) {t : TabletSend} (apart : t.purpose.isFlush = false)
    (uncalm : ¬ calm) : Deeds calm id mine p (p.askForTablets id t) := by
  have hparked (q : Pipe P) (link : Link Unit) :
      Deeds calm id mine q (q.setTask id (.tablets t link)) :=
    Deeds.parked q apart rfl fun hcalm => absurd hcalm uncalm
  rw [askForTablets_eq]
  refine .head (.lent (p.clients.ask id).1) ?_
  split
  · exact hparked _ _
  · exact .head (.sent _) (hparked _ _)

/-- Tablets that are not sent for a consumer. -/
theorem Deeds.runTablets (p : Pipe P) {t : TabletSend} {link : Link Unit}
    (apart : t.purpose.isFlush = false) (uncalm : ¬ calm) (own : ∀ e ∈ t.events, mine e) :
    Deeds calm id mine p (p.runTablets id t link) := by
  have hafter (q : Pipe P) (result : Except TransferError Unit) :
      Deeds calm id mine q (q.afterTablets id t.purpose result) := by
    cases hpurpose : t.purpose with
    | retry => exact .single .finished
    | call => exact Deeds.parked q rfl rfl fun _ => trivial
    | flush after =>
        rw [hpurpose] at apart
        cases apart
  cases link with
  | asking => exact Deeds.askForTablets p apart uncalm
  | waiting => exact Deeds.askForTablets p apart uncalm
  | exchanging client x more =>
      cases hlook : p.look x with
      | mk p' progress =>
          have hlooked : Deed calm id mine p p' :=
            .looked (fun hcalm => absurd hcalm uncalm) hlook
          cases progress with
          | pending y =>
              rw [runTablets_of_pending id hlook]
              exact .head hlooked (Deeds.parked p' apart rfl fun hcalm => absurd hcalm uncalm)
          | done result =>
              have hsettled : Deeds calm id mine p' (p'.settle t client x result) :=
                Deeds.settle p' t client x result own
              rw [runTablets_of_done id hlook]
              exact .head hlooked (hsettled.trans (hafter _ _))

end Tablets

theorem mem_of_task? {process : Process} (task : p.task? id = some process) :
    (⟨id, process⟩ : Task) ∈ p.tasks := by
  obtain ⟨t, hfind, hprocess⟩ := Option.map_eq_some_iff.mp task
  have hid : t.id = id := by simpa using List.find?_some hfind
  rw [← hprocess, ← hid]
  exact List.mem_of_find?_eq_some hfind

/-- The step of a task that is no consumer is made of deeds. -/
theorem deeds_run [Batch.Payload P] (p : Pipe P) {process : Process}
    (task : p.task? id = some process) (apart : process.consumes = false) :
    Deeds process.IsCalm id (fun e => process.IsCalm → e ∈ p.tended) p (p.run id) := by
  have hqueued : ∀ entry ∈ p.connector.retryQueue, entry.event ∈ p.tended :=
    fun entry hentry => List.mem_append_right _ (List.mem_map_of_mem hentry)
  simp only [run, task]
  cases process with
  | transfer a link =>
      refine Deeds.runTransfer (fun _ => ?_) p fun hcalm => hcalm
      exact List.mem_append_left _ (List.mem_filterMap.mpr ⟨_, mem_of_task? task, rfl⟩)
  | tablets t link =>
      have uncalm : ¬ (Process.tablets t link).IsCalm := fun hflush => by
        have hother : t.purpose.isFlush = false := apart
        rw [show t.purpose.isFlush = true from hflush] at hother
        cases hother
      exact Deeds.runTablets p apart uncalm fun _ _ hcalm => absurd hcalm uncalm
  | looking => exact Deeds.runLooking p fun entry hentry _ => hqueued entry hentry
  | watching next woken =>
      exact Deeds.runWatching p woken fun entry hentry _ => hqueued entry hentry
  | idling deadline seen => exact Deeds.runIdling p deadline
  | ended answer at_ => exact .refl
  | consuming | polling | pausing => cases apart

end Pipe
end Courier
