import Courier.Proofs.Pipe.Discard

/-!
A teardown while tasks are under way. Whatever of the instance lies in the queue, before the batch,
in the batch, in the buffer or in the retry queue loses all its references at once, and no task that
goes on later takes it in or up again. What a task has in its hand meanwhile is not looked for: a
tablet in a pause goes on as if nothing had happened.
-/

namespace Courier

open Transfer

namespace Pipe

variable {P : Type} {events : EventId → Event} {owned : EventId → Nat} {b b' : Books P}
  {id : EventId} {since : List Occurrence}

/-- An event is gone, and nobody has batched it. -/
structure Books.Over (id : EventId) (since : List Occurrence) (b : Books P) : Prop
    extends Books.Gone id since b where
  unbatched : ∀ e ∈ b.batch, e.id ≠ id

theorem Books.Over.untaken (hb : b.Over id since) :
    ∃ noted, b.trace = noted ++ since ∧ ∀ e, .resubmitted e ∈ noted → e.id ≠ id := by
  obtain ⟨noted, htrace, hignored⟩ := hb.ignored
  exact ⟨noted, htrace, fun e he => hignored e (.inr he)⟩

variable [Batch.Payload P] {lossy : Prop}

theorem Move.over (h : Move lossy b b') (hb : b.Over id since) : b'.Over id since := by
  refine ⟨h.gone hb.toGone, fun e' he' => ?_⟩
  cases h with
  | @kept e payload rest here light batchOpen live =>
      rcases List.mem_append.mp he' with he' | he'
      · exact hb.unbatched e' he'
      · rw [List.mem_singleton.mp he']
        rintro rfl
        rw [hb.count] at live
        exact Nat.lt_irrefl 0 live
  | emitted => cases he'
  | _ => exact hb.unbatched e' he'

omit [Batch.Payload P] in
theorem Books.Swept.over {mine : EventRef → Bool} {found : List EventRef}
    (h : Books.Swept mine found b b') (hb : b.Over id since) : b'.Over id since :=
  ⟨h.gone hb.toGone, fun e he => hb.unbatched e (h.mem_batch he)⟩

omit [Batch.Payload P] in
/-- What was found of one kind, or buffered, is over with a sweep that leaves none of its kind in
the batch or to be tried again. -/
theorem Books.Swept.over_of_mine {mine : EventRef → Bool} {found : List EventRef}
    (h : Books.Swept mine found b b') (hb : b.Accounted events owned) {e : EventRef}
    (he : e ∈ found ++ (b.buffer.filter fun entry => mine entry.2).map Prod.snd)
    (gone : ∀ kept ∈ b'.batch, mine kept = false)
    (unqueued : ∀ e, .retry e ∈ b'.items → mine e = false) : b'.Over e.id b.trace := by
  obtain ⟨hmentioned, hmine⟩ := h.mentions_cleared he
  refine ⟨h.gone_of_mine hb hmentioned hmine (.inl he) unqueued, fun kept hkept hsame => ?_⟩
  have hknown := hb.eq_known (e := kept) (.inr (.inl (h.mem_batch hkept)))
  rw [hsame, ← hb.eq_known hmentioned] at hknown
  rw [← hknown, gone kept hkept] at hmine
  cases hmine

theorem Service.over {s s' : Scene P} (h : Service events s s')
    (hs : (s.pipe.books none 0).Served events s.owned)
    (hover : (s.pipe.books none 0).Over id since) : (s'.pipe.books none 0).Over id since := by
  refine h.keeps hs hover (fun hmove _ hc => hmove.over hc) ?built ?handed ?tornDown ?closed
  case built => exact fun c retryMs hc => ⟨hc.toGone.built retryMs, hc.unbatched⟩
  case handed =>
    exact fun c given hc => ⟨hc.toGone.handed (fun _ heq => by cases heq), hc.unbatched⟩
  case tornDown => exact fun p pipe region hc => (swept_teardown p pipe region).over hc
  case closed => exact fun p owned hserved hc => hserved.close.1.over hc

/-- A teardown would find the event. -/
def Stores (p : Pipe P) (e : EventRef) : Prop :=
  e ∈ p.queue.channels.toList ∨ p.pending = some e ∨ e ∈ p.batch.events ∨
    (∃ commit, (commit, e) ∈ p.connector.buffer) ∨ ∃ entry ∈ p.connector.retryQueue, entry.event = e

omit [Batch.Payload P] in
theorem Stores.found {p : Pipe P} {mine : EventRef → Bool} {e : EventRef} (h : p.Stores e)
    (here : mine e = true) :
    e ∈ p.storedOf mine ++ (p.connector.buffer.filter fun entry => mine entry.2).map Prod.snd := by
  simp only [storedOf, queuedOf, List.mem_append, List.mem_filter, List.mem_map]
  rcases h with h | h | h | ⟨commit, h⟩ | ⟨entry, h, rfl⟩
  · exact .inl (.inl (.inl (.inl ⟨h, here⟩)))
  · exact .inl (.inl (.inl (.inr ⟨by simp [h], here⟩)))
  · exact .inl (.inl (.inr ⟨h, here⟩))
  · exact .inr ⟨(commit, e), ⟨h, here⟩, rfl⟩
  · exact .inl (.inr ⟨entry, ⟨h, here⟩, rfl⟩)

/-- A batch turns away what nobody holds any more. -/
theorem events_onEvent_of_gone (batch : Batch.Accumulator P) {commons : Commons} {e : EventRef}
    (gone : (commons.ledger.get e.id).count = 0) :
    (batch.onEvent commons e).1.events = batch.events := by
  have hhold : (commons.hold e).2 = false := by
    refine Bool.eq_false_iff.mpr fun htook => ?_
    have hpos : 0 < (commons.ledger.get e.id).count := Lifecycle.hold_eq_true_iff.mp htook
    rw [gone] at hpos
    exact Nat.lt_irrefl 0 hpos
  have hadd : batch.add commons e = (batch, (commons.hold e).1, none) := by
    unfold Batch.Accumulator.add
    split <;> rename_i heq <;> rw [heq] at hhold
    · rw [heq]
    · cases hhold
  cases hclosed : batch.closed <;> cases hends : batch.endsWith e <;>
    simp [Batch.Accumulator.onEvent, hclosed, hends, hadd, (batch_checkDue _ _).1]

/-- What a teardown finds has no reference when it returns, and from then on. It is not in the
batch, which would not take it, and the worker takes it up no more. -/
theorem over_after_teardown {s s' s'' : Scene P} (new : s.IsNew)
    (reach : Relation.ReflTransGen (Service events) s s') {pipe : String} {region : Int}
    {e : EventRef} (mine : e.belongsTo pipe region = true) (there : s'.pipe.Stores e)
    (later : Relation.ReflTransGen (Service events)
      ⟨(s'.pipe.teardown pipe region).1, s'.owned⟩ s'') :
    (s''.pipe.commons.ledger.get e.id).count = 0 ∧
      (∀ kept ∈ s''.pipe.batch.events, kept.id ≠ e.id) ∧
      (s''.pipe.batch.onEvent s''.pipe.commons e).1.events = s''.pipe.batch.events ∧
      ∃ noted, s''.pipe.trace = noted ++ s'.pipe.trace ∧
        ∀ taken, .resubmitted taken ∈ noted → taken.id ≠ e.id := by
  have hserved : (s'.pipe.books none 0).Served events s'.owned := served_of_reach new reach
  have htorn : Service events s' ⟨(s'.pipe.teardown pipe region).1, s'.owned⟩ :=
    .tornDown pipe region
  have hswept := swept_teardown s'.pipe pipe region
  have hover : ((s'.pipe.teardown pipe region).1.books none 0).Over e.id s'.pipe.trace := by
    refine hswept.over_of_mine hserved.guarded.accounted (there.found mine) (fun kept hkept => ?_)
      fun kept hkept => ?_
    · have hevents : (s'.pipe.teardown pipe region).1.batch.events =
          s'.pipe.batch.events.filter fun e => !e.belongsTo pipe region :=
        (batch_discardPipe _ _ _ _).1
      rw [show ((s'.pipe.teardown pipe region).1.books none 0).batch = _ from hevents] at hkept
      simpa using (List.mem_filter.mp hkept).2
    · obtain ⟨entry, hentry, rfl⟩ := retry_mem_items.mp hkept
      have hqueue : (s'.pipe.teardown pipe region).1.connector.retryQueue =
          s'.pipe.connector.retryQueue.filter fun entry =>
            !entry.event.belongsTo pipe region := rfl
      rw [hqueue] at hentry
      simpa using (List.mem_filter.mp hentry).2
  have hafter : (s''.pipe.books none 0).Over e.id s'.pipe.trace := by
    have hboth : (s''.pipe.books none 0).Served events s''.owned ∧
        (s''.pipe.books none 0).Over e.id s'.pipe.trace := by
      induction later with
      | refl => exact ⟨htorn.served hserved, hover⟩
      | tail _ hact ih => exact ⟨hact.served ih.1, hact.over ih.1 ih.2⟩
    exact hboth.2
  exact ⟨hafter.count, hafter.unbatched, events_onEvent_of_gone _ hafter.count, hafter.untaken⟩

/-- A batched tablet is torn down while the consumer polls, and the consumer goes on. -/
theorem over_after_teardown_of_batched :
    let event : Event := {
      content := .tablet { target := "", rows := 0, payload := [1] }, pipe := "a", region := 1
      commit := .zero, progress := 0 }
    let e : EventRef := ⟨0, event⟩
    let p : Pipe Batch.PlainPayload := {
      commons := { memory := { Memory.Context.ofSettings {} with budget := some {
        block := .empty .batch, slices := [{ requested := 100, granted := 100 }] } } }
      queue := { pipe := "q", settings := {}, block := 0 }
      batch := { id := "b", maxDelayMs := 60000, slice := 0, payload := {} }
      connector := .create "c" {}
      clients := .ofClients [0]
      disk := {}
      peer := {} }
    let batched := ((p.built 0).offer e).1.startConsumer.run 0
    let later := (batched.teardown "a" 1).1.run 0
    batched.Stores e ∧ (later.commons.ledger.get e.id).count = 0 ∧
      ∀ kept ∈ later.batch.events, kept.id ≠ e.id := by
  intro event e p batched later
  have hbatched : e ∈ batched.batch.events := by
    decide +kernel
  have new : Scene.IsNew ⟨p, fun _ => 0⟩ :=
    ⟨⟨rfl, rfl, rfl, rfl, rfl, rfl, rfl, rfl, rfl, rfl, rfl⟩, rfl⟩
  have here : Function.update (fun _ => 0) 0 1 (0 : EventId) = 1 := Function.update_self ..
  have reach : Relation.ReflTransGen (Service fun _ => event) ⟨p, fun _ => 0⟩
      ⟨batched, Function.update (Function.update (fun _ => 0) 0 1) 0 0⟩ :=
    .head (.built 0) (.head (.offered here) (.head (.aside .startConsumer) (.single (.ran 0))))
  have mine : e.belongsTo "a" 1 = true := by decide
  have there : batched.Stores e := .inr (.inr (.inl hbatched))
  let owned : EventId → Nat := Function.update (Function.update (fun _ => 0) 0 1) 0 0
  have goesOn : Relation.ReflTransGen (Service fun _ => event)
      ⟨(batched.teardown "a" 1).1, owned⟩ ⟨later, owned⟩ := .single (.ran 0)
  have hover := over_after_teardown new reach mine there goesOn
  -- What comes later is of no matter any more, and need not be computed.
  clear_value batched later
  exact ⟨there, hover.1, hover.2.1⟩

/-- A tablet in a pause keeps its reference through a teardown of its instance, and is batched after
the pause. -/
theorem paused_outlives_teardown :
    let event : Event := {
      content := .tablet { target := "", rows := 0, payload := [1] }, pipe := "a", region := 1
      commit := .zero, progress := 0 }
    let p : Pipe Batch.ScriptedPayload := {
      commons := { memory := { Memory.Context.ofSettings {} with budget := some {
        block := .empty .batch, slices := [{ requested := 100, granted := 100 }] } } }
      queue := { pipe := "q", settings := {}, block := 0 }
      batch := { id := "b", maxDelayMs := 60000, slice := 0, payload := { script := [.busy] } }
      connector := .create "c" {}
      clients := .ofClients [0]
      disk := {}
      peer := {} }
    let paused := (((p.built 0).offer ⟨0, event⟩).1.startConsumer.run 0).run 0
    let torn := (paused.teardown "a" 1).1
    let later := (torn.setClock 100).run 0
    (∃ owned owned',
      Relation.ReflTransGen (Service fun _ => event) ⟨p, fun _ => 0⟩ ⟨paused, owned⟩ ∧
      Relation.ReflTransGen (Service fun _ => event) ⟨torn, owned⟩ ⟨later, owned'⟩) ∧
      paused.task? 0 = some (.pausing ⟨0, event⟩ 100) ∧
      (⟨0, event⟩ : EventRef).belongsTo "a" 1 = true ∧
      (torn.commons.ledger.get 0).count ≠ 0 ∧ ⟨0, event⟩ ∈ later.batch.events := by
  intro event p paused torn later
  have here : Function.update (fun _ => 0) 0 1 (0 : EventId) = 1 := Function.update_self ..
  let owned : EventId → Nat := Function.update (Function.update (fun _ => 0) 0 1) 0 0
  refine ⟨⟨owned, owned, ?_, ?_⟩, ?_, by decide, ?_, ?_⟩
  · exact .head (.built 0) (.head (.offered here) (.head (.aside .startConsumer)
      (.head (.ran 0) (.single (.ran 0)))))
  · exact .head (.aside (.clock 100)) (.single (.ran 0))
  · rfl
  · decide +kernel
  · decide +kernel

end Pipe
end Courier
