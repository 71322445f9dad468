import Courier.Proofs.Pipe.Clients
import Courier.Proofs.Pipe.Tally

/-!
When a connector is idle. Transfers and retries are counted from the moment they are spawned until
they have ended, so an idle connector has none of them; and it has nothing buffered and nothing
queued for a retry. Calls that send tablets are not counted: an idle connector may still wait for
the answers to theirs, and hold the references that came with them, but it holds no others.
-/

namespace Courier

open Transfer

namespace Pipe

variable {P : Type} {p : Pipe P} {events : EventId → Event} {owned : EventId → Nat}
  {id : EventId}

/-! ### The count of tasks -/

namespace Board

variable {calm : Prop} {b b' : Board}

/-- The connector counts as many tasks as have a share in its count. -/
def Counted (b : Board) : Prop := b.tasks = b.stakes.count .count

theorem Shift.counted (h : Shift calm b b') (hb : b.Counted) : b'.Counted := by
  have hbefore : b.tasks = b.stakes.count .count := hb
  have hasked {t : TaskId} {place rest : Multiset Stake} (here : b.stakes = place + rest)
      (asks : b.Asks calm t place) : b.tasks = rest.count .count := by
    rw [hbefore, here, Multiset.count_add]
    cases asks <;> simp
  have hother {x : Stake} (other : .count ≠ x) (rest : Multiset Stake) :
      (x ::ₘ rest).count .count = rest.count .count := Multiset.count_cons_of_ne other rest
  cases h with
  | lent here asks => exact (hasked here asks).trans (hother Stake.noConfusion _).symm
  | queued here asks => exact (hasked here asks).trans (hother Stake.noConfusion _).symm
  | returned here =>
      rw [here, hother Stake.noConfusion] at hbefore
      exact hbefore
  | began => exact (congrArg (· + 1) hbefore).trans (Multiset.count_cons_self ..).symm
  | finished here =>
      rw [here, Multiset.count_cons_self] at hbefore
      exact Nat.sub_eq_of_eq_add hbefore
  | spawned | loaded | rested => exact hb

end Board

/-- The process is a call that sends tablets. -/
def Process.calls : Process → Bool
  | .tablets t _ => t.purpose = .call
  | _ => false

/-- Who works and is not counted is the consumer, or a call that sends tablets. -/
theorem Process.calls_of_works {process : Process} {task : TaskId} (works : process.works = true)
    (apart : process.consumes = false) (uncounted : .count ∉ process.stakes task) :
    process.calls = true := by
  cases process with
  | transfer a link => exact absurd (Multiset.mem_cons_self _ _) uncounted
  | tablets t link =>
      cases hpurpose : t.purpose with
      | call => exact decide_eq_true hpurpose
      | retry =>
          refine absurd (Multiset.mem_add.mpr (.inl ?_)) uncounted
          rw [hpurpose]
          exact Multiset.mem_singleton_self _
      | flush after =>
          have hflush : t.purpose.isFlush = false := apart
          rw [hpurpose] at hflush
          cases hflush
  | consuming | polling | pausing => cases apart
  | looking | watching | idling | ended => cases works

/-- While the connector counts nobody, no task has a share in the count. -/
theorem uncounted_of_idle (hc : (p.board none 0).Counted) (idle : p.connector.isIdle = true)
    {task : Task} (ht : task ∈ p.tasks) : .count ∉ task.process.stakes task.id := by
  intro hmem
  have htasks : p.connector.tasks = 0 := by
    simp only [Connector.isIdle, Bool.and_eq_true, beq_iff_eq] at idle
    exact idle.1.1
  have hnone : (p.board none 0).stakes.count .count = 0 := hc.symm.trans htasks
  refine Multiset.count_eq_zero.mp hnone (Multiset.mem_add.mpr (.inl ?_))
  rw [others_none]
  exact mem_stakes.mpr ⟨task, ht, hmem⟩

theorem empty_of_idle (idle : p.connector.isIdle = true) :
    p.connector.retryQueue = [] ∧ p.connector.buffer = [] := by
  simp only [Connector.isIdle, Bool.and_eq_true, List.isEmpty_iff] at idle
  exact ⟨idle.1.2, idle.2⟩

/-! ### Trades -/

variable [Batch.Payload P] {t t' : Tally P}

theorem Trade.counted (h : Trade events t t')
    (numbered : (t.scene.pipe.books none 0).Numbered)
    (hc : (t.scene.pipe.board none 0).Counted) : (t'.scene.pipe.board none 0).Counted := by
  have hturned {b : Board} (turns : Board.Turns False (t.scene.pipe.board none 0) b) : b.Counted :=
    turns.keeps nofun hc Board.Shift.counted
  cases h with
  | built | held | dropped => exact hc
  | transferred => exact hturned (turns_transferFile _ _)
  | sent payload => exact hturned (turns_callSend numbered _ payload)
  | discarded pipe region => exact hturned (turns_perform _ (.discard pipe region))
  | closed => exact hturned (turns_perform _ .closeConnector)
  | ran task => exact hturned (turns_run _ task numbered nofun)
  | aside beside =>
      cases beside with
      | clock | surroundings | neighbours | shutdownQueue => exact hc
      | startWorker => exact hturned (turns_perform _ .startWorker)
      | startConsumer => exact hturned (turns_perform _ .startConsumer)
      | cancelWorker => exact hturned (.of_eq (board_cancel _ _ none 0).symm)
      | cancelConsumer => exact hturned (.of_eq (board_cancel _ _ none 0).symm)
      | waitIdle => exact hturned (turns_spawn_idle _ rfl)

/-- The accounts of a connector are in order, and it counts its tasks. -/
structure Tally.Tracked (events : EventId → Event) (t : Tally P) : Prop where
  sound : t.Sound events
  counted : (t.scene.pipe.board none 0).Counted

theorem Tally.IsNew.tracked (new : t.IsNew) (uncounted : t.scene.pipe.connector.tasks = 0) :
    t.Tracked events := by
  refine ⟨new.sound, uncounted.trans ?_⟩
  simp [board, others_none, new.scene.pipe.tasks]

theorem Tally.Tracked.reaches (h : t.Tracked events)
    (reach : Relation.ReflTransGen (Trade events) t t') : t'.Tracked events := by
  induction reach with
  | refl => exact h
  | tail _ htrade ih =>
      exact ⟨htrade.sound ih.sound, htrade.counted ih.sound.guarded.numbered ih.counted⟩

omit [Batch.Payload P] in
/-- Of any event the ledger counts at most what others own and what is held. -/
theorem Tally.Sound.count_le (ht : t.Sound events)
    (known : id < t.scene.pipe.commons.ledger.entries.size) :
    (t.scene.pipe.commons.ledger.get id).count ≤
      (t.scene.pipe.books none 0).held id + t.scene.owned id := by
  have hsane : (t.scene.pipe.commons.ledger.get id).IsSane := ht.guarded.accounted.sane id
  cases hreleased : (t.scene.pipe.commons.ledger.get id).released with
  | false => exact ht.balanced id known hreleased
  | true =>
      rw [hsane.count_eq_zero_of_released hreleased]
      exact Nat.zero_le _

omit [Batch.Payload P] in
theorem works_of_exchange {process : Process} {c : ClientId} {x : Exchange}
    (exchanging : process.exchange? = some (c, x)) : process.works = true := by
  cases process with
  | transfer | tablets => rfl
  | _ => cases exchanging

/-- A call that waits for idleness answers how it is. -/
theorem isIdle_of_answered {deadline at_ : Nat} {seen : Option Nat} {answer : Bool} {task : TaskId}
    (waits : p.task? task = some (.idling deadline seen))
    (answered : (p.run task).task? task = some (.ended (.idle answer) at_)) :
    (p.run task).connector.isIdle = answer := by
  have hrun : p.run task = p.runIdling task deadline := by
    simp only [run, waits]
    rfl
  rw [hrun] at answered ⊢
  unfold runIdling at answered ⊢
  split at answered
  · rename_i hidle
    rw [if_pos hidle]
    cases (task?_setTask p task _).symm.trans answered
    exact hidle
  · rename_i hbusy
    rw [if_neg hbusy]
    split at answered
    · rename_i hlate
      rw [if_pos hlate]
      cases (task?_setTask p task _).symm.trans answered
      exact Bool.eq_false_iff.mpr hbusy
    · cases (task?_setTask p task _).symm.trans answered

/-- When a connector is idle, nothing is buffered and nothing waits for a retry, and the only tasks
at work are calls that send tablets. The only references it holds are those that came with their
tablets, so when no such call is under way it holds none, and no request is without an answer. A
call that waits for idleness answers how it is. -/
theorem idle_but_for_calls {t : Tally P} (new : t.IsNew)
    (uncounted : t.scene.pipe.connector.tasks = 0) {p : Pipe P} {owned : EventId → Nat}
    {cleared : List EventRef}
    (reach : Relation.ReflTransGen (Trade events) t ⟨⟨p, owned⟩, cleared⟩) :
    (p.connector.isIdle = true →
      (p.connector.retryQueue = [] ∧ p.connector.buffer = []) ∧
      (∀ task ∈ p.tasks, task.process.works = true → task.process.calls = true) ∧
      (∀ id, id < p.commons.ledger.entries.size →
        (p.commons.ledger.get id).count ≤ owned id + p.copiesOf id ∧
        ((∀ e ∈ cleared, e.id ≠ id) →
          (p.commons.ledger.get id).count = owned id + p.copiesOf id)) ∧
      ((∀ task ∈ p.tasks, task.process.calls = false) →
        (∀ task ∈ p.tasks, task.process.works = false) ∧ p.outstanding = [] ∧
          ∀ id, p.copiesOf id = 0)) ∧
    ∀ task deadline seen answer at_, p.task? task = some (.idling deadline seen) →
      (p.run task).task? task = some (.ended (.idle answer) at_) →
        (p.run task).connector.isIdle = answer := by
  have htracked : Tally.Tracked events ⟨⟨p, owned⟩, cleared⟩ :=
    (new.tracked uncounted).reaches reach
  refine ⟨fun hidle => ?_, fun _ _ _ _ _ => isIdle_of_answered⟩
  have hunmanned : p.Unmanned := htracked.sound.unmanned
  obtain ⟨hretries, hbuffer⟩ := empty_of_idle hidle
  have hcalls : ∀ task ∈ p.tasks, task.process.works = true → task.process.calls = true :=
    fun task htask hworks => Process.calls_of_works hworks (hunmanned.apart htask)
      (uncounted_of_idle htracked.counted hidle htask)
  -- No consumer runs and nothing is buffered, so what is held is held as a tablet.
  have hheld (id : EventId) : (p.books none 0).held id = p.copiesOf id := by
    rw [held_of_unmanned hunmanned id, hbuffer]
    rfl
  refine ⟨⟨hretries, hbuffer⟩, hcalls, fun id known => ⟨?_, fun spared => ?_⟩, fun hnone => ?_⟩
  · have hle : (p.commons.ledger.get id).count ≤ (p.books none 0).held id + owned id :=
      htracked.sound.count_le known
    rwa [hheld, Nat.add_comm] at hle
  · have heq : (p.commons.ledger.get id).count = (p.books none 0).held id + owned id :=
      htracked.sound.count_eq known spared
    rwa [hheld, Nat.add_comm] at heq
  · have hrest : ∀ task ∈ p.tasks, task.process.works = false := fun task htask =>
      Bool.eq_false_iff.mpr fun hworks =>
        Bool.false_ne_true ((hnone task htask).symm.trans (hcalls task htask hworks))
    refine ⟨hrest, List.filterMap_eq_nil_iff.mpr fun task htask => ?_, fun id => ?_⟩
    · cases hexchange : task.process.exchange? with
      | none => rfl
      | some found =>
          have hworks := works_of_exchange hexchange
          rw [hrest task htask] at hworks
          cases hworks
    · rw [copiesOf, hretries, List.countP_nil, Nat.add_zero]
      refine List.sum_eq_zero fun n hn => ?_
      obtain ⟨task, htask, rfl⟩ := List.mem_map.mp hn
      exact Process.copies_of_idle (hrest task htask)

omit [Batch.Payload P] in
/-- Who owns one reference can send one tablet. -/
theorem countP_le_owned {e : EventRef} (id : EventId) :
    [e].countP (fun e' => e'.id = id) ≤ Function.update (fun _ => 0) e.id 1 id := by
  by_cases hid : e.id = id
  · subst hid
    rw [Function.update_self]
    exact List.countP_le_length
  · simp [hid]

/-- A send is answered, and its tablet released. Before and after that the connector is idle. -/
theorem idle_but_for_calls_of_answered :
    let tablet : Event := {
      content := .tablet { target := "", rows := 0, payload := [1] }, pipe := "a", region := 1
      commit := .zero, progress := 0 }
    let p : Pipe Batch.PlainPayload := {
      commons := {}
      queue := { pipe := "q", settings := {}, block := 0 }
      batch := { id := "b", maxDelayMs := 1, slice := 0, payload := {} }
      connector := .create "c" {}
      clients := .ofClients [0]
      disk := {}
      peer := {} }
    let sent := ((p.built 0).callSend [⟨0, tablet⟩] [1]).1
    let answered := sent.run 0
    (sent.connector.isIdle = true ∧ sent.copiesOf 0 = 1 ∧
      (sent.commons.ledger.get 0).count = 1) ∧
    answered.connector.isIdle = true ∧ answered.outstanding = [] ∧ answered.copiesOf 0 = 0 ∧
      (answered.commons.ledger.get 0).count = 0 := by
  intro tablet p sent answered
  let owned : EventId → Nat := fun id =>
    Function.update (fun _ => 0) 0 1 id - [(⟨0, tablet⟩ : EventRef)].countP fun e => e.id = id
  have light : ∀ e ∈ [(⟨0, tablet⟩ : EventRef)], e.event.isBulk = false := by decide
  have known : ∀ e ∈ [(⟨0, tablet⟩ : EventRef)], e.event = tablet := by decide
  have howned : owned 0 = 0 := by decide
  have hsent : sent.connector.isIdle = true ∧ sent.copiesOf 0 = 1 ∧
      0 < sent.commons.ledger.entries.size ∧ sent.forfeited 0 = [] := by decide +kernel
  have hanswered : answered.connector.isIdle = true ∧
      0 < answered.commons.ledger.entries.size ∧
      ∀ task ∈ answered.tasks, task.process.calls = false := by decide +kernel
  have new : Tally.IsNew ⟨⟨p, fun _ => 0⟩, []⟩ :=
    ⟨⟨⟨rfl, rfl, rfl, rfl, rfl, rfl, rfl, rfl, rfl, rfl, rfl⟩, rfl⟩, rfl⟩
  have reach : Relation.ReflTransGen (Trade fun _ => tablet) ⟨⟨p, fun _ => 0⟩, []⟩
      ⟨⟨sent, owned⟩, []⟩ := .head (.built 0) (.single (.sent [1] light known countP_le_owned))
  have hran : Trade (fun _ => tablet) ⟨⟨sent, owned⟩, []⟩
      ⟨⟨answered, owned⟩, sent.forfeited 0 ++ []⟩ := .ran 0
  rw [hsent.2.2.2] at hran
  obtain ⟨_, _, hbefore, _⟩ := (idle_but_for_calls new rfl reach).1 hsent.1
  obtain ⟨_, _, hafter, hnone⟩ := (idle_but_for_calls new rfl (reach.tail hran)).1 hanswered.1
  obtain ⟨_, houtstanding, hcopies⟩ := hnone hanswered.2.2
  have hone := (hbefore 0 hsent.2.2.1).2 fun _ he => by cases he
  have hzero := (hafter 0 hanswered.2.1).1
  rw [howned, hsent.2.1] at hone
  rw [howned, hcopies 0] at hzero
  exact ⟨⟨hsent.1, hsent.2.1, hone⟩, hanswered.1, houtstanding, hcopies 0, Nat.le_zero.mp hzero⟩

/-- A connector is idle, and says so to who asks, while a send waits for its answer and holds the
reference on its tablet. -/
theorem idle_while_unanswered :
    let tablet : Event := {
      content := .tablet { target := "", rows := 0, payload := [1] }, pipe := "a", region := 1
      commit := .zero, progress := 0 }
    let p : Pipe Batch.PlainPayload := {
      commons := {}
      queue := { pipe := "q", settings := {}, block := 0 }
      batch := { id := "b", maxDelayMs := 1, slice := 0, payload := {} }
      connector := .create "c" {}
      clients := .ofClients [0]
      disk := {}
      peer := { fallback := .silence } }
    let sent := ((p.built 0).callSend [⟨0, tablet⟩] [1]).1
    let asked := (sent.callWaitIdle 100).1.run 1
    (∃ owned, Relation.ReflTransGen (Trade fun _ => tablet) ⟨⟨p, fun _ => 0⟩, []⟩
      ⟨⟨sent, owned⟩, []⟩ ∧ owned 0 = 0) ∧
    sent.connector.isIdle = true ∧ (∃ at_, asked.task? 1 = some (.ended (.idle true) at_)) ∧
    (∃ client exchange, sent.task? 0 = some (.tablets
      { events := [⟨0, tablet⟩], payload := [1], purpose := .call }
      (.exchanging client exchange ()))) ∧
    sent.outstanding.length = 1 ∧ (sent.commons.ledger.get 0).count = 1 := by
  intro tablet p sent asked
  let owned : EventId → Nat := fun id =>
    Function.update (fun _ => 0) 0 1 id - [(⟨0, tablet⟩ : EventRef)].countP fun e => e.id = id
  have light : ∀ e ∈ [(⟨0, tablet⟩ : EventRef)], e.event.isBulk = false := by decide
  have known : ∀ e ∈ [(⟨0, tablet⟩ : EventRef)], e.event = tablet := by decide
  refine ⟨⟨owned, ?_, by decide⟩, by decide +kernel, ⟨0, rfl⟩, ⟨_, _, rfl⟩, by decide +kernel,
    by decide +kernel⟩
  exact .head (.built 0) (.single (.sent [1] light known countP_le_owned))

end Pipe
end Courier
