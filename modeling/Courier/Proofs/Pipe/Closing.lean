import Courier.Proofs.Pipe.Balance

/-!
The end of a pipe. Once it was closed and its tasks are gone, whatever was offered before is
released, and its hook has run once. There is one exception: a tablet that was in a pause when the
pipe was closed. Cancelled in its pause, the consumer puts it back before the batch, where nobody
looks for it any more.
-/

namespace Courier

open Transfer

namespace Pipe

variable {P : Type} [Batch.Payload P] {events : EventId → Event} {Q D : EventRef → Prop}
  {s s' : Scene P}

section Afterwards

/-- The pipe is closed, and of some events nobody outside has a reference. -/
structure Scene.IsOver (known : EventId → Prop) (s : Scene P) : Prop where
  batch : s.pipe.batch.closed = true
  connector : s.pipe.connector.closed = true
  known : ∀ id, known id → id < s.pipe.commons.ledger.entries.size ∧ s.owned id = 0

variable {known : EventId → Prop}

theorem Service.isOver (h : Service events s s')
    (served : (s.pipe.books none 0).Served events s.owned) (hs : s.IsOver known) :
    s'.IsOver known := by
  have hmoved {p p' : Pipe P} (hnumbered : (p.books none 0).Numbered)
      (hover : Scene.IsOver known ⟨p, s.owned⟩)
      (hleads : Leads True (p.books none 0) (p'.books none 0)) :
      Scene.IsOver known ⟨p', s.owned⟩ := by
    obtain ⟨hclosed, hbatch, hsize⟩ := hleads.fixed hnumbered
    refine ⟨hbatch.trans hover.batch, hclosed.trans hover.connector, fun id hid => ?_⟩
    obtain ⟨hlt, howned⟩ := hover.known id hid
    exact ⟨Nat.lt_of_lt_of_eq hlt hsize.symm, howned⟩
  cases h with
  | @built p owned retryMs =>
      refine ⟨hs.batch, hs.connector, fun id hid => ?_⟩
      obtain ⟨hlt, howned⟩ := hs.known id hid
      have hne : id ≠ p.commons.ledger.entries.size := Nat.ne_of_lt hlt
      have hsize : (p.built retryMs).commons.ledger.entries.size =
          p.commons.ledger.entries.size + 1 := Ledger.size_enrol _ _
      exact ⟨hsize ▸ Nat.lt_succ_of_lt hlt, (Function.update_of_ne hne ..).trans howned⟩
  | @offered p owned given here =>
      have hsize := size_offer p ⟨given, events given⟩
      refine ⟨hs.batch, hs.connector, fun id hid => ?_⟩
      obtain ⟨hlt, howned⟩ := hs.known id hid
      refine ⟨hsize.symm ▸ hlt, ?_⟩
      by_cases hsame : id = given
      · rw [hsame]
        exact Function.update_self ..
      · exact (Function.update_of_ne hsame ..).trans howned
  | ran id => exact hmoved served.guarded.numbered hs (leads_run _ id (.inl trivial))
  | aside beside => exact hmoved served.guarded.numbered hs (leads_aside beside)
  | @tornDown p owned pipe region =>
      have hsize : (p.teardown pipe region).1.commons.ledger.entries.size =
          p.commons.ledger.entries.size := (swept_teardown p pipe region).size
      refine ⟨(closed_teardown p pipe region).trans hs.batch, hs.connector, fun id hid => ?_⟩
      rw [hsize]
      exact hs.known id hid
  | @closed p owned =>
      have hsize : p.close.commons.ledger.entries.size = p.commons.ledger.entries.size :=
        served.close.1.size
      refine ⟨(closed_close p).1, (closed_close p).2, fun id hid => ?_⟩
      rw [hsize]
      exact hs.known id hid

/-- A tablet waits out its pause in the hand of a consumer. -/
def IsPaused (p : Pipe P) (e : EventRef) : Prop :=
  ∃ t ∈ p.consumers, ∃ until_, t.process = .pausing e until_

/-- Right after a close nothing is queued, and nothing waits before the batch but what is in a
pause. -/
theorem sound_of_close (hs : s.Sound events Q D) :
    Scene.Sound events (fun e => ¬ known e.id) s.pipe.IsPaused ⟨s.pipe.close, s.owned⟩ := by
  obtain ⟨hswept, hemptied⟩ := hs.served.close
  have hclosed : Service events s ⟨s.pipe.close, s.owned⟩ := .closed
  refine ⟨hclosed.served hs.served, hclosed.balanced hs, ⟨⟨?_, ?_, ?_⟩, ?_, ?_⟩, hs.single⟩
  · exact fun e he => absurd (hemptied.queue ▸ he) List.not_mem_nil
  · exact fun e he => by cases he
  · intro hopen
    rw [show s.pipe.close.batch.closed = true from (closed_close s.pipe).1] at hopen
    cases hopen
  · exact fun _ _ _ => rfl
  · exact fun t ht e until_ heq => ⟨t, ht, until_, heq⟩

omit [Batch.Payload P] in
/-- The process is one of the consumer, or the connector waits for its end. -/
def Process.works : Process → Bool
  | .transfer _ _ | .tablets _ _ | .consuming | .polling _ | .pausing _ _ => true
  | .looking | .watching _ _ | .idling _ _ | .ended _ _ => false

omit [Batch.Payload P] in
theorem Process.items_of_idle {process : Process} (idle : process.works = false) :
    process.items = 0 := by
  cases process with
  | looking | watching | idling | ended => rfl
  | _ => cases idle

omit [Batch.Payload P] in
/-- Without tasks under way a closed pipe holds what is queued and what waits before the batch. -/
theorem held_of_idle (hs : s.Sound events Q D) (hover : s.IsOver known)
    (idle : ∀ t ∈ s.pipe.tasks, t.process.works = false) {id : EventId}
    (unqueued : ∀ e, Q e → e.id ≠ id) (elsewhere : ∀ e, s.pipe.pending = some e → e.id ≠ id) :
    (s.pipe.books none 0).held id = 0 := by
  have hbatch : (s.pipe.books none 0).batch = [] := hs.served.shut.batch hover.batch
  have hbuffer : (s.pipe.books none 0).buffer = [] :=
    hs.served.guarded.custody.shut hover.connector
  have htasks : (s.pipe.tasks.map fun t => t.process.items).sum = 0 :=
    List.sum_eq_zero fun items hitems => by
      obtain ⟨t, ht, rfl⟩ := List.mem_map.mp hitems
      exact Process.items_of_idle (idle t ht)
  have hitems : ∀ x ∈ (s.pipe.books none 0).items, x.held id = 0 := by
    intro x hx
    have hretry := hs.served.shut.retries hover.connector
    have hstored : x ∈ s.pipe.stored := by
      simpa [books, others_none, htasks] using hx
    rcases Multiset.mem_add.mp hstored with hstored | hretried
    · rcases Multiset.mem_add.mp hstored with hqueued | hpending
      · obtain ⟨e, he, rfl⟩ := List.mem_map.mp hqueued
        exact if_neg (unqueued e (hs.alone.held.queue e he))
      · obtain ⟨e, he, rfl⟩ := List.mem_map.mp hpending
        exact if_neg (elsewhere e (Option.mem_toList.mp he))
    · obtain ⟨entry, hentry, rfl⟩ := List.mem_map.mp hretried
      exact absurd hx (hretry entry.event)
  rw [Books.held, hbatch, hbuffer, Item.total_eq_zero hitems]
  rfl

end Afterwards

/-- Once a pipe was closed and its tasks have ended, every event that it was offered before is
released, with its hook run once, unless it is a tablet that was in a pause at the close and was put
back before the batch since. -/
theorem released_after_close {s s' s'' : Scene P} (new : s.IsNew)
    (reach : Relation.ReflTransGen (Solo events) s s')
    (later : Relation.ReflTransGen (Solo events) ⟨s'.pipe.close, s'.owned⟩ s'')
    (ended : ∀ t ∈ s''.pipe.tasks, t.process.works = false) {id : EventId}
    (built : id < s'.pipe.commons.ledger.entries.size) (given : s'.owned id = 0) :
    ((s''.pipe.commons.ledger.get id).count = 0 ∧
        (s''.pipe.commons.ledger.get id).released = true ∧
        (s''.pipe.commons.ledger.get id).releases = 1) ∨
      ∃ e, s''.pipe.pending = some e ∧ e.id = id ∧ s'.pipe.IsPaused e := by
  let known : EventId → Prop :=
    fun id => id < s'.pipe.commons.ledger.entries.size ∧ s'.owned id = 0
  have hsound := sound_of_reach new reach
  have hclosed : Scene.Sound events (fun e => ¬ known e.id) s'.pipe.IsPaused
      ⟨s'.pipe.close, s'.owned⟩ := sound_of_close hsound
  have hover : Scene.IsOver known ⟨s'.pipe.close, s'.owned⟩ := by
    refine ⟨(closed_close s'.pipe).1, (closed_close s'.pipe).2, fun id hid => ⟨?_, hid.2⟩⟩
    exact Nat.lt_of_lt_of_eq hid.1 hsound.served.close.1.size.symm
  have hboth : s''.Sound events (fun e => ¬ known e.id) s'.pipe.IsPaused ∧ s''.IsOver known := by
    clear ended
    induction later with
    | refl => exact ⟨hclosed, hover⟩
    | tail _ hstep ih =>
        refine ⟨hstep.sound ih.1 fun other hother hknown => ?_, hstep.1.isOver ih.1.served ih.2⟩
        rw [(ih.2.known other hknown).2] at hother
        cases hother
  obtain ⟨hafter, hshut⟩ := hboth
  have hsane := hafter.served.guarded.accounted.sane id
  cases hreleased : (s''.pipe.commons.ledger.get id).released with
  | true =>
      refine .inl ⟨hsane.count_eq_zero_of_released hreleased, rfl, ?_⟩
      exact hsane.releases_eq.trans (if_pos hreleased)
  | false =>
      refine .inr (not_forall_not.mp fun hnone => ?_)
      have hknown : known id := ⟨built, given⟩
      have hheld := held_of_idle hafter hshut ended (fun e hq hid => hq (hid.symm ▸ hknown))
        fun e he hid => hnone e ⟨he, hid, hafter.alone.held.pending e he⟩
      obtain ⟨hlt, howned⟩ := hshut.known id hknown
      have hbalanced := hafter.balanced id hlt hreleased
      have hpos := hsane.count_pos hreleased
      rw [hheld, howned] at hbalanced
      exact Nat.lt_irrefl 0 (Nat.lt_of_lt_of_le hpos hbalanced)

/-- A tablet is batched, the pipe is closed, and the consumer is told to stop and does. -/
theorem released_after_close_of_batched :
    let event : Event := {
      content := .tablet { target := "", rows := 0, payload := [1] }, pipe := "a", region := 1
      commit := .zero, progress := 0 }
    let p : Pipe Batch.PlainPayload := {
      commons := { memory := { Memory.Context.ofSettings {} with budget := some {
        block := .empty .batch, slices := [{ requested := 100, granted := 100 }] } } }
      queue := { pipe := "q", settings := {}, block := 0 }
      batch := { id := "b", maxDelayMs := 60000, slice := 0, payload := {} }
      connector := .create "c" {}
      clients := .ofClients [0]
      disk := {}
      peer := {} }
    let batched := ((p.built 0).offer ⟨0, event⟩).1.startConsumer.run 0
    let later := batched.close.cancelConsumer.run 0
    ⟨0, event⟩ ∈ batched.batch.events ∧ (later.commons.ledger.get 0).count = 0 ∧
      (later.commons.ledger.get 0).released = true ∧
      (later.commons.ledger.get 0).releases = 1 := by
  intro event p batched later
  have new : Scene.IsNew ⟨p, fun _ => 0⟩ :=
    ⟨⟨rfl, rfl, rfl, rfl, rfl, rfl, rfl, rfl, rfl, rfl, rfl⟩, rfl⟩
  have here : Function.update (fun _ => 0) 0 1 (0 : EventId) = 1 := Function.update_self ..
  let owned : EventId → Nat := Function.update (Function.update (fun _ => 0) 0 1) 0 0
  have given : owned 0 = 0 := Function.update_self ..
  have reach : Relation.ReflTransGen (Solo fun _ => event) ⟨p, fun _ => 0⟩ ⟨batched, owned⟩ :=
    .head ⟨.built 0, by decide⟩ (.head ⟨.offered here, by decide +kernel⟩
      (.head ⟨.aside .startConsumer, by decide +kernel⟩ (.single ⟨.ran 0, by decide +kernel⟩)))
  have goesOn : Relation.ReflTransGen (Solo fun _ => event) ⟨batched.close, owned⟩
      ⟨later, owned⟩ :=
    .head ⟨.aside .cancelConsumer, by decide +kernel⟩ (.single ⟨.ran 0, by decide +kernel⟩)
  have ended : ∀ t ∈ later.tasks, t.process.works = false := by
    have hnone : later.tasks = [] := List.isEmpty_iff.mp (by decide +kernel)
    rw [hnone]
    exact fun t ht => absurd ht List.not_mem_nil
  have built : 0 < batched.commons.ledger.entries.size := by decide +kernel
  have hbatched : ⟨0, event⟩ ∈ batched.batch.events := by decide +kernel
  have hpending : later.pending = none := by decide +kernel
  have hreleased := released_after_close new reach goesOn ended built given
  clear_value batched later
  refine ⟨hbatched, hreleased.resolve_right ?_⟩
  rintro ⟨e, he, _⟩
  rw [hpending] at he
  cases he

/-- A tablet is in a pause when the pipe is closed. The consumer is told to stop, puts the tablet
back and ends, and nobody releases it any more. -/
theorem paused_outlives_close :
    let event : Event := {
      content := .tablet { target := "", rows := 0, payload := [1] }, pipe := "a", region := 1
      commit := .zero, progress := 0 }
    let p : Pipe Batch.ScriptedPayload := {
      commons := { memory := { Memory.Context.ofSettings {} with budget := some {
        block := .empty .batch, slices := [{ requested := 100, granted := 100 }] } } }
      queue := { pipe := "q", settings := {}, block := 0 }
      batch := { id := "b", maxDelayMs := 60000, slice := 0, payload := { script := [.busy] } }
      connector := .create "c" {}
      clients := .ofClients [0]
      disk := {}
      peer := {} }
    let paused := (((p.built 0).offer ⟨0, event⟩).1.startConsumer.run 0).run 0
    let later := paused.close.cancelConsumer.run 0
    (∃ owned, Scene.IsNew ⟨p, fun _ => 0⟩ ∧
      Relation.ReflTransGen (Solo fun _ => event) ⟨p, fun _ => 0⟩ ⟨paused, owned⟩ ∧
      Relation.ReflTransGen (Solo fun _ => event) ⟨paused.close, owned⟩ ⟨later, owned⟩ ∧
      owned 0 = 0) ∧
      (∀ t ∈ later.tasks, t.process.works = false) ∧ later.pending = some ⟨0, event⟩ ∧
      (later.commons.ledger.get 0).count = 1 ∧
      (later.commons.ledger.get 0).released = false := by
  intro event p paused later
  have new : Scene.IsNew ⟨p, fun _ => 0⟩ :=
    ⟨⟨rfl, rfl, rfl, rfl, rfl, rfl, rfl, rfl, rfl, rfl, rfl⟩, rfl⟩
  have here : Function.update (fun _ => 0) 0 1 (0 : EventId) = 1 := Function.update_self ..
  let owned : EventId → Nat := Function.update (Function.update (fun _ => 0) 0 1) 0 0
  refine ⟨⟨owned, new, ?_, ?_, Function.update_self ..⟩, ?_, by decide +kernel, ?_, ?_⟩
  · exact .head ⟨.built 0, by decide⟩ (.head ⟨.offered here, by decide +kernel⟩
      (.head ⟨.aside .startConsumer, by decide +kernel⟩
        (.head ⟨.ran 0, by decide +kernel⟩ (.single ⟨.ran 0, by decide +kernel⟩))))
  · exact .head ⟨.aside .cancelConsumer, by decide +kernel⟩
      (.single ⟨.ran 0, by decide +kernel⟩)
  · have hnone : later.tasks = [] := List.isEmpty_iff.mp (by decide +kernel)
    rw [hnone]
    exact fun t ht => absurd ht List.not_mem_nil
  · decide +kernel
  · decide +kernel

end Pipe
end Courier
