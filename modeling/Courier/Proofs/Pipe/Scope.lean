import Courier.Proofs.Pipe.Release
import Courier.Proofs.Pipe.Service

/-!
What a request for tablets belongs to. A batch takes in whatever is dispatched between two requests,
of any pipe instance, and a discard of one of them leaves its rows behind while others have tablets
in the batch. The request belongs to the region of the first tablet that is still to be sent, so it
belongs to all whose rows it carries just when they are of one region.
-/

namespace Courier

open Transfer

namespace Pipe

/-- A payload is the rows of some tablets, one after the other, and those to be sent are among them.
No rows are left once nothing is to be sent. -/
structure Packs (events : EventId → Event) (rows sent : List EventRef) (payload : Bytes) :
    Prop where
  payload : payload = encodings rows
  known : ∀ e ∈ rows, e.event = events e.id ∧ ∃ tablet, e.event.content = .tablet tablet
  among : sent.Sublist rows
  empty : sent = [] → rows = []

def Packed (events : EventId → Event) (sent : List EventRef) (payload : Bytes) : Prop :=
  ∃ rows, Packs events rows sent payload

variable {events : EventId → Event} {rows sent : List EventRef} {payload : Bytes}

theorem packed_nil (events : EventId → Event) : Packed events [] [] :=
  ⟨[], rfl, fun _ he => absurd he List.not_mem_nil, .refl [], id⟩

theorem Packed.append (h : Packed events sent payload) {e : EventRef}
    (known : e.event = events e.id) (tablet : ∃ t, e.event.content = .tablet t) :
    Packed events (sent ++ [e]) (payload ++ Batch.encoding e.event) := by
  obtain ⟨rows, hrows⟩ := h
  refine ⟨rows ++ [e], ?_, ?_, hrows.among.append (.refl [e]), fun hnil => ?_⟩
  · rw [hrows.payload]
    simp [encodings]
  · intro e' he'
    rcases List.mem_append.mp he' with he' | he'
    · exact hrows.known e' he'
    · rw [List.mem_singleton.mp he']
      exact ⟨known, tablet⟩
  · exact absurd hnil (List.append_ne_nil_of_right_ne_nil _ (List.cons_ne_nil _ _))

/-- What is no longer to be sent leaves its rows in the payload. -/
theorem Packed.of_sublist (h : Packed events sent payload) {left : List EventRef}
    (sub : left.Sublist sent) (nonempty : left ≠ []) : Packed events left payload := by
  obtain ⟨rows, hrows⟩ := h
  exact ⟨rows, hrows.payload, hrows.known, sub.trans hrows.among, fun hnil => absurd hnil nonempty⟩

/-- A request made for the first tablet is right for all rows when they are of one region, and not
otherwise. -/
theorem Packs.region_iff (h : Packs events rows sent payload) {t : TabletBatch}
    (asks : Asks sent payload t) :
    (∀ e ∈ rows, t.region = e.event.region) ↔
      ∀ e ∈ rows, ∀ e' ∈ rows, e.event.region = e'.event.region := by
  constructor
  · exact fun hall e he e' he' => (hall e he).symm.trans (hall e' he')
  · intro hsame e he
    cases sent with
    | nil =>
        rw [h.empty rfl] at he
        cases he
    | cons first rest =>
        have hfirst : first ∈ rows := h.among.subset List.mem_cons_self
        exact (asks.region first rfl).trans (hsame first hfirst e he)

variable {P : Type} {bytes : P → Bytes} {owned : EventId → Nat} {b b' : Books P}

/-- Batch, tablets on their way and requests for tablets are what they should be. -/
structure Books.Scoped (events : EventId → Event) (bytes : P → Bytes) (b : Books P) : Prop where
  batched : Packed events b.batch (bytes b.payload)
  sending : ∀ sent payload asked, .sending sent payload asked ∈ b.items →
    Packed events sent payload
  requested : ∀ now t, .requested now (.tablets t) ∈ b.trace →
    ∃ sent, Packed events sent t.payload ∧ Asks sent t.payload t

theorem Books.Scoped.sending_cons (hb : b.Scoped events bytes) {x : Item} {rest : Multiset Item}
    (other : ∀ sent payload asked, x ≠ .sending sent payload asked)
    (fewer : ∀ i ∈ rest, i ∈ b.items) (sent : List EventRef) (payload : Bytes)
    (asked : Option Request) (there : .sending sent payload asked ∈ x ::ₘ rest) :
    Packed events sent payload := by
  rcases Multiset.mem_cons.mp there with heq | there
  · exact absurd heq.symm (other sent payload asked)
  · exact hb.sending sent payload asked (fewer _ there)

variable [Batch.Payload P] {lossy : Prop}

theorem Turn.packed {x y : Multiset Item} (h : Turn lossy b x y)
    (known : ∀ i ∈ x, ∀ e, i.Mentions e → e.event = events e.id)
    (before : ∀ sent payload asked, .sending sent payload asked ∈ x → Packed events sent payload)
    {asked : Option Request} (there : .sending sent payload asked ∈ y) :
    Packed events sent payload := by
  rcases h.sending there with ⟨asked, hx⟩ | ⟨e, t, plain, rfl, hretry, hcontent, hplain, rfl⟩
  · exact before _ _ _ hx
  · rw [(Batch.PlainPayload.construct_ok_true hplain).2]
    exact (packed_nil events).append (known _ hretry e rfl) ⟨t, hcontent⟩

theorem Move.scoped (h : Move lossy b b') (writes : Batch.Writes bytes)
    (ha : b.Accounted events owned) (hb : b.Scoped events bytes) : b'.Scoped events bytes := by
  have hrest {x i : Item} {rest : Multiset Item} (here : b.items = x ::ₘ rest) (hi : i ∈ rest) :
      i ∈ b.items := here ▸ Multiset.mem_cons_of_mem hi
  cases h with
  | retuned | spawned | retired => exact ⟨hb.batched, hb.sending, hb.requested⟩
  | @noted o allowed =>
      refine ⟨hb.batched, hb.sending, fun now t ht => ?_⟩
      rcases List.mem_cons.mp ht with rfl | ht
      -- Nothing is asked for but tablets on their way, whose rows are known.
      · obtain ⟨sent, payload, asked, hsending, hasks⟩ := allowed
        exact ⟨sent, hasks.payload ▸ hb.sending _ _ _ hsending, rfl, hasks.count, hasks.region⟩
      · exact hb.requested now t ht
  | @turned x y rest here turn =>
      refine ⟨hb.batched, fun sent payload asked hsending => ?_, hb.requested⟩
      have hmem {i : Item} (hi : i ∈ x) : i ∈ b.items := here ▸ Multiset.mem_add.mpr (.inl hi)
      rcases Multiset.mem_add.mp hsending with hsending | hsending
      · exact turn.packed (fun i hi e he => (ha.known e (.inl ⟨i, hmem hi, he⟩)).2)
          (fun _ _ _ hi => hb.sending _ _ _ (hmem hi)) hsending
      · exact hb.sending _ _ _ (here ▸ Multiset.mem_add.mpr (.inr hsending))
  | held | takenOn =>
      refine ⟨hb.batched, hb.sending_cons (fun _ _ _ heq => ?_) fun _ hi => hi, hb.requested⟩
      cases heq
  | dropped here | cleared here =>
      exact ⟨hb.batched, fun _ _ _ hi => hb.sending _ _ _ (hrest here hi), hb.requested⟩
  | freed here =>
      refine ⟨hb.batched, hb.sending_cons (fun _ _ _ heq => ?_) fun _ => hrest here, hb.requested⟩
      cases heq
  | tried constructed without =>
      exact ⟨(writes.spared constructed without).symm ▸ hb.batched, hb.sending, hb.requested⟩
  | @kept e payload rest here light batchOpen live constructed =>
      obtain ⟨htablet, hbytes⟩ := writes.taken constructed
      have hknown := (ha.known e (Books.mentions_of_cons here rfl)).2
      refine ⟨?_, fun _ _ _ hi => hb.sending _ _ _ (hrest here hi), hb.requested⟩
      exact hbytes.symm ▸ hb.batched.append hknown htablet
  | emitted =>
      refine ⟨(writes.reset _).symm ▸ packed_nil events, fun sent payload asked hsending => ?_,
        hb.requested⟩
      rcases Multiset.mem_cons.mp hsending with heq | hsending
      · cases heq
        exact (writes.take b.payload).symm ▸ hb.batched
      · exact hb.sending _ _ _ hsending

omit [Batch.Payload P] in
theorem Books.Swept.scoped {mine : EventRef → Bool} {found : List EventRef}
    (h : Books.Swept mine found b b') (hb : b.Scoped events bytes)
    (batched : Packed events b'.batch (bytes b'.payload)) : b'.Scoped events bytes :=
  ⟨batched, fun _ _ _ hi => hb.sending _ _ _ (h.mem_items hi), h.trace ▸ hb.requested⟩

/-- A discard takes events out of a batch, and their rows only with the last of them. -/
theorem packed_discardPipe (writes : Batch.Writes bytes) {batch : Batch.Accumulator P}
    (h : Packed events batch.events (bytes batch.payload)) (commons : Commons) (pipe : String)
    (region : Int) :
    Packed events (batch.discardPipe commons pipe region).1.events
      (bytes (batch.discardPipe commons pipe region).1.payload) := by
  unfold Batch.Accumulator.discardPipe
  dsimp only
  split
  · exact (writes.reset batch.payload).symm ▸ packed_nil events
  · rename_i hleft
    rw [Bool.and_eq_true, not_and_or, Bool.not_eq_true', Bool.not_eq_false,
      List.isEmpty_iff] at hleft
    rcases hleft with hnone | hsome
    · have hall : batch.events.filter (fun e => !e.belongsTo pipe region) = batch.events :=
        List.filter_eq_self.mpr fun e he => by
          simpa using List.filter_eq_nil_iff.mp hnone e he
      exact hall.symm ▸ h
    · exact h.of_sublist List.filter_sublist fun hnil => hsome (List.isEmpty_iff.mpr hnil)

theorem packed_close (writes : Batch.Writes bytes) {batch : Batch.Accumulator P}
    (h : Packed events batch.events (bytes batch.payload)) (commons : Commons) :
    Packed events (batch.close commons).1.events (bytes (batch.close commons).1.payload) := by
  unfold Batch.Accumulator.close
  split
  · exact h
  · exact (writes.reset batch.payload).symm ▸ packed_nil events

theorem Service.scoped {s s' : Scene P} (h : Service events s s') (writes : Batch.Writes bytes)
    (hs : (s.pipe.books none 0).Served events s.owned)
    (hscoped : (s.pipe.books none 0).Scoped events bytes) :
    (s'.pipe.books none 0).Scoped events bytes := by
  refine h.keeps hs hscoped (fun hmove ha hc => hmove.scoped writes ha hc) ?built ?handed ?tornDown
    ?closed
  case built => exact fun c retryMs hc => ⟨hc.batched, hc.sending, hc.requested⟩
  case handed =>
    refine fun c id hc => ⟨hc.batched, ?_, hc.requested⟩
    exact hc.sending_cons (fun _ _ _ heq => by cases heq) fun _ hi => hi
  case tornDown =>
    refine fun p pipe region hc => (swept_teardown p pipe region).scoped hc ?_
    rw [teardown_eq]
    exact packed_discardPipe writes hc.batched _ pipe region
  case closed =>
    refine fun p owned hserved hc => hserved.close.1.scoped hc ?_
    rw [close_eq]
    exact packed_close writes hc.batched _

theorem scoped_of_new {p : Pipe P} (h : p.IsNew) (writes : Batch.Writes bytes) :
    (p.books none 0).Scoped events bytes := by
  have hitems := items_of_new h
  refine ⟨?_, fun _ _ _ hi => ?_, fun _ _ ht => ?_⟩
  · have hbatch : (p.books none 0).batch = [] := h.batch
    have hpayload : bytes (p.books none 0).payload = [] :=
      List.eq_nil_of_length_eq_zero ((writes.size _).symm.trans h.payload)
    rw [hbatch, hpayload]
    exact packed_nil events
  · rw [hitems] at hi
    cases hi
  · rw [show (p.books none 0).trace = [] from h.trace] at ht
    cases ht

/-- The requests for tablets in a trace, and when they were made. -/
def tabletRequests (trace : List Occurrence) : List (Nat × TabletBatch) :=
  trace.filterMap fun
    | .requested now (.tablets t) => some (now, t)
    | _ => none

theorem mem_tabletRequests {trace : List Occurrence} {now : Nat} {t : TabletBatch} :
    (now, t) ∈ tabletRequests trace ↔ .requested now (.tablets t) ∈ trace := by
  rw [tabletRequests, List.mem_filterMap]
  constructor
  · rintro ⟨o, ho, hsome⟩
    split at hsome
    · cases hsome
      exact ho
    · cases hsome
  · exact fun h => ⟨_, h, rfl⟩

/-- Every request for tablets carries the rows of some tablets and counts those of them that are
still to be sent. It belongs to the region of the first that is; so it belongs to the region of
every tablet that it carries rows of exactly when they are all of one region. -/
theorem requests_belong_to_first {s s' : Scene P} (writes : Batch.Writes bytes) (new : s.IsNew)
    (reach : Relation.ReflTransGen (Service events) s s') {now : Nat} {t : TabletBatch}
    (asked : .requested now (.tablets t) ∈ s'.pipe.trace) :
    ∃ rows sent, t.payload = encodings rows ∧
      (∀ e ∈ rows, e.event = events e.id ∧ ∃ tablet, e.event.content = .tablet tablet) ∧
      sent.Sublist rows ∧ (sent = [] → rows = []) ∧ t.count = sent.length ∧
      (∀ e, sent.head? = some e → t.region = e.event.region) ∧
      ((∀ e ∈ rows, t.region = e.event.region) ↔
        ∀ e ∈ rows, ∀ e' ∈ rows, e.event.region = e'.event.region) := by
  have hscoped : (s'.pipe.books none 0).Scoped events bytes := by
    -- The premise is about the last state alone; the induction does not carry it.
    clear asked
    induction reach with
    | refl => exact scoped_of_new new.pipe writes
    | tail hreach hact ih => exact hact.scoped writes (served_of_reach new hreach) ih
  obtain ⟨sent, ⟨rows, hpacks⟩, hasks⟩ := hscoped.requested now t asked
  exact ⟨rows, sent, hpacks.payload, hpacks.known, hpacks.among, hpacks.empty, hasks.count,
    hasks.region, hpacks.region_iff hasks⟩

/-- Two tablets of two instances are batched, one instance is torn down, and the consumer is told to
stop. Both tablets have rows in the request that it makes then, and one of them is counted. -/
theorem requests_belong_to_first_of_discarded :
    let event (pipe : String) (region : Int) : Event := {
      content := .tablet { target := "", rows := 0, payload := [1] }, pipe, region
      commit := .zero, progress := 0 }
    let p : Pipe Batch.ScriptedPayload := {
      commons := { memory := { Memory.Context.ofSettings {} with budget := some {
        block := .empty .batch, slices := [{ requested := 100, granted := 100 }] } } }
      queue := { pipe := "q", settings := {}, block := 0 }
      batch := { id := "b", maxDelayMs := 60000, slice := 0, payload := {} }
      connector := .create "c" {}
      clients := .ofClients [0]
      disk := {}
      peer := {} }
    let offered := (((p.built 0).built 0).offer ⟨0, event "a" 1⟩).1.offer ⟨1, event "b" 2⟩
    let batched := (offered.1.startConsumer.run 0).run 0
    let stopped := (batched.teardown "a" 1).1.cancelConsumer.run 0
    let row : Bytes := [0, 0, 0, 0, 0, 0, 0, 0, 0, 0, 0, 1, 1]
    let t : TabletBatch := { payload := row ++ row, count := 1, region := 2, node := 0 }
    .requested 0 (.tablets t) ∈ stopped.trace ∧
      ∃ rows sent : List EventRef, t.payload = encodings rows ∧ sent.Sublist rows ∧
        t.count = sent.length ∧ ∀ e, sent.head? = some e → t.region = e.event.region := by
  intro event p offered batched stopped row t
  let events : EventId → Event := fun id => if id = 0 then event "a" 1 else event "b" 2
  have new : Scene.IsNew ⟨p, fun _ => 0⟩ :=
    ⟨⟨rfl, rfl, rfl, rfl, rfl, rfl, rfl, rfl, rfl, rfl, rfl⟩, rfl⟩
  let held : EventId → Nat := Function.update (Function.update (fun _ => 0) 0 1) 1 1
  have firstHere : held 0 = 1 := by decide +kernel
  have secondHere : Function.update held 0 0 1 = 1 := by decide +kernel
  have reach : Relation.ReflTransGen (Service events) ⟨p, fun _ => 0⟩
      ⟨stopped, Function.update (Function.update held 0 0) 1 0⟩ := by
    refine .head (.built 0) (.head (.built 0) (.head (.offered firstHere)
      (.head (.offered secondHere) (.head (.aside .startConsumer) (.head (.ran 0)
        (.head (.ran 0) ?_))))))
    exact .head (.tornDown "a" 1) (.head (.aside .cancelConsumer) (.single (.ran 0)))
  have asked : .requested 0 (.tablets t) ∈ stopped.trace :=
    mem_tabletRequests.mp (by decide +kernel)
  obtain ⟨rows, sent, hpayload, -, hsub, -, hcount, hfirst, -⟩ :=
    requests_belong_to_first Batch.writes_scripted new reach asked
  exact ⟨asked, rows, sent, hpayload, hsub, hcount, hfirst⟩

/-- Two tablets of two regions are batched, and the second makes the batch due. The request belongs
to the region of the first, and carries the rows of both. -/
theorem requests_mix_regions :
    let event (region : Int) : Event := {
      content := .tablet { target := "", rows := 0, payload := [1] }, pipe := "a", region
      commit := .zero, progress := 0 }
    let events : EventId → Event := fun id => if id = 0 then event 1 else event 2
    let p : Pipe Batch.PlainPayload := {
      commons := { memory := { Memory.Context.ofSettings {} with budget := some {
        block := .empty .batch, slices := [{ requested := 100, granted := 20 }] } } }
      queue := { pipe := "q", settings := {}, block := 0 }
      batch := { id := "b", maxDelayMs := 60000, slice := 0, payload := {} }
      connector := .create "c" {}
      clients := .ofClients [0]
      disk := {}
      peer := {} }
    let offered := (((p.built 0).built 0).offer ⟨0, event 1⟩).1.offer ⟨1, event 2⟩
    let flushed := (offered.1.startConsumer.run 0).run 0
    let row : Bytes := [0, 0, 0, 0, 0, 0, 0, 0, 0, 0, 0, 1, 1]
    Scene.IsNew ⟨p, fun _ => 0⟩ ∧
      (∃ owned, Relation.ReflTransGen (Service events) ⟨p, fun _ => 0⟩ ⟨flushed, owned⟩) ∧
      ∃ t, .requested 0 (.tablets t) ∈ flushed.trace ∧
        t.payload = encodings [⟨0, event 1⟩, ⟨1, event 2⟩] ∧ t.payload = row ++ row ∧
        t.region ≠ (event 2).region := by
  intro event events p offered flushed row
  let held : EventId → Nat := Function.update (Function.update (fun _ => 0) 0 1) 1 1
  have firstHere : held 0 = 1 := by decide +kernel
  have secondHere : Function.update held 0 0 1 = 1 := by decide +kernel
  have reach : Relation.ReflTransGen (Service events) ⟨p, fun _ => 0⟩
      ⟨flushed, Function.update (Function.update held 0 0) 1 0⟩ :=
    .head (.built 0) (.head (.built 0) (.head (.offered firstHere) (.head (.offered secondHere)
      (.head (.aside .startConsumer) (.head (.ran 0) (.single (.ran 0)))))))
  let t : TabletBatch := { payload := row ++ row, count := 2, region := 1, node := 0 }
  have asked : .requested 0 (.tablets t) ∈ flushed.trace :=
    mem_tabletRequests.mp (by decide +kernel)
  have hrows : row ++ row = encodings [⟨0, event 1⟩, ⟨1, event 2⟩] := by decide +kernel
  exact ⟨⟨⟨rfl, rfl, rfl, rfl, rfl, rfl, rfl, rfl, rfl, rfl, rfl⟩, rfl⟩, ⟨_, reach⟩, t, asked,
    hrows, rfl, by decide⟩

end Pipe
end Courier
