import Courier.Proofs.Pipe.Owners

/-!
A pipe in service. Events are built and offered, each with one reference that goes along, tasks run
in any order, pipe instances are torn down, and the pipe may be closed at any moment.
-/

namespace Courier

open Transfer

namespace Pipe

variable {P : Type} {events : EventId → Event} {owned : EventId → Nat} {b b' : Books P}

/-- A closed batch has no events, and a closed connector has nothing to try again. -/
structure Books.Shut (b : Books P) : Prop where
  batch : b.batchClosed = true → b.batch = []
  retries : b.closed = true → ∀ e, .retry e ∉ b.items

theorem Books.Swept.guarded {mine : EventRef → Bool} {found : List EventRef}
    (h : Books.Swept mine found b b') (hb : b.Guarded events owned) : b'.Guarded events owned :=
  ⟨h.numbered hb.numbered, h.accounted hb.accounted, h.custody hb.accounted hb.custody⟩

variable [Batch.Payload P] {lossy : Prop}

theorem Turn.retry {x y : Multiset Item} {e : EventRef} (h : Turn lossy b x y)
    (he : .retry e ∈ y) : b.closed = false ∧ b.ledger.isReleased e.id = false := by
  cases h with
  | requeued unclosed unreleased =>
      rw [Multiset.mem_singleton] at he
      cases he
      exact ⟨unclosed, unreleased⟩
  | mislaid | lapsed | forgotten | skipped | lostFile => cases he
  | acknowledged | abandoned | failedTablets =>
      obtain ⟨e', _, heq⟩ := List.mem_map.mp he
      cases heq
  | _ =>
      rw [Multiset.mem_singleton] at he
      cases he

theorem Move.shut (h : Move lossy b b') (hb : b.Shut) : b'.Shut := by
  have hcons {x : Item} {items rest : Multiset Item} (hother : ∀ e, x ≠ .retry e)
      (hrest : b.closed = true → ∀ e, .retry e ∉ rest) (here : items = x ::ₘ rest)
      (hclosed : b.closed = true) (e : EventRef) : .retry e ∉ items := by
    rw [here]
    intro he
    rcases Multiset.mem_cons.mp he with heq | he
    · exact hother e heq.symm
    · exact hrest hclosed e he
  have hrest {x : Item} {rest : Multiset Item} (here : b.items = x ::ₘ rest)
      (hclosed : b.closed = true) (e : EventRef) : .retry e ∉ rest :=
    fun he => hb.retries hclosed e (here ▸ Multiset.mem_cons_of_mem he)
  cases h with
  | noted | retuned | spawned | retired | tried => exact ⟨hb.batch, hb.retries⟩
  | turned here turn =>
      refine ⟨hb.batch, fun hclosed e he => ?_⟩
      rcases Multiset.mem_add.mp he with he | he
      · rw [(turn.retry he).1] at hclosed
        cases hclosed
      · exact hb.retries hclosed e (here ▸ Multiset.mem_add.mpr (.inr he))
  | held => exact ⟨hb.batch, hcons (fun _ heq => by cases heq) hb.retries rfl⟩
  | dropped here | cleared here => exact ⟨hb.batch, hrest here⟩
  | kept here light batchOpen =>
      refine ⟨fun hclosed => ?_, hrest here⟩
      rw [show b.batchClosed = true from hclosed] at batchOpen
      cases batchOpen
  | emitted => exact ⟨fun _ => rfl, hcons (fun _ heq => by cases heq) hb.retries rfl⟩
  | takenOn => exact ⟨hb.batch, hcons (fun _ heq => by cases heq) hb.retries rfl⟩
  | freed here => exact ⟨hb.batch, hcons (fun _ heq => by cases heq) (hrest here) rfl⟩

/-- All that is kept while a pipe is in service. -/
structure Books.Served (events : EventId → Event) (owned : EventId → Nat) (b : Books P) :
    Prop where
  guarded : b.Guarded events owned
  shut : b.Shut

theorem Leads.served (h : Leads lossy b b') (hb : b.Served events owned) :
    b'.Served events owned :=
  ⟨h.guarded hb.guarded, h.keeps hb.guarded.numbered hb.shut Move.shut⟩

inductive Service (events : EventId → Event) : Scene P → Scene P → Prop
  | built {p : Pipe P} {owned : EventId → Nat} (retryMs : Nat) :
      Service events ⟨p, owned⟩
        ⟨p.built retryMs, Function.update owned p.commons.ledger.entries.size 1⟩
  | offered {p : Pipe P} {owned : EventId → Nat} {id : EventId} (here : owned id = 1) :
      Service events ⟨p, owned⟩ ⟨(p.offer ⟨id, events id⟩).1, Function.update owned id 0⟩
  | ran {p : Pipe P} {owned : EventId → Nat} (id : TaskId) :
      Service events ⟨p, owned⟩ ⟨p.run id, owned⟩
  | aside {p p' : Pipe P} {owned : EventId → Nat} (beside : Aside p p') :
      Service events ⟨p, owned⟩ ⟨p', owned⟩
  | tornDown {p : Pipe P} {owned : EventId → Nat} (pipe : String) (region : Int) :
      Service events ⟨p, owned⟩ ⟨(p.teardown pipe region).1, owned⟩
  | closed {p : Pipe P} {owned : EventId → Nat} : Service events ⟨p, owned⟩ ⟨p.close, owned⟩

omit [Batch.Payload P] in
theorem items_process_ne_retry (process : Process) (e : EventRef) : .retry e ∉ process.items := by
  intro he
  cases process with
  | transfer a link =>
      rw [Process.items, Multiset.mem_singleton] at he
      cases he
  | pausing e' until_ =>
      rw [Process.items, Multiset.mem_singleton] at he
      cases he
  | tablets t link =>
      rcases Multiset.mem_cons.mp he with heq | he
      · cases heq
      · cases hpurpose : t.purpose with
        | flush after =>
            cases after with
            | file e' loop =>
                rw [hpurpose, Purpose.items, After.items, Multiset.mem_singleton] at he
                split at he <;> cases he
            | dispatched e' loop =>
                rw [hpurpose, Purpose.items, After.items, Multiset.mem_singleton] at he
                cases he
            | _ => simp [hpurpose, Purpose.items, After.items] at he
        | _ => simp [hpurpose, Purpose.items] at he
  | _ => cases he

omit [Batch.Payload P] in
/-- Between two steps an event is up for another try only in the retry queue. -/
theorem retry_mem_items {p : Pipe P} {e : EventRef} :
    .retry e ∈ (p.books none 0).items ↔ ∃ entry ∈ p.connector.retryQueue, entry.event = e := by
  have htasks (tasks : List Task) : .retry e ∉ (tasks.map fun t => t.process.items).sum := by
    induction tasks with
    | nil => exact Multiset.notMem_zero _
    | cons t tasks ih =>
        rw [List.map_cons, List.sum_cons, Multiset.mem_add, not_or]
        exact ⟨items_process_ne_retry t.process e, ih⟩
  simp [books, stored, htasks]

/-- A close takes everything out of the places where events wait. -/
theorem Books.Served.close {p : Pipe P} (h : (p.books none 0).Served events owned) :
    (p.books none 0).Swept (fun _ => true) (p.storedOf fun _ => true) (p.close.books none 0) ∧
      p.close.IsEmptied := by
  have hshut : p.connector.closed = true →
      p.connector.buffer = [] ∧ p.connector.retryQueue = [] := by
    intro hclosed
    refine ⟨h.guarded.custody.shut hclosed, ?_⟩
    refine List.eq_nil_iff_forall_not_mem.mpr fun entry hentry => ?_
    exact h.shut.retries hclosed entry.event (retry_mem_items.mpr ⟨entry, hentry, rfl⟩)
  exact ⟨swept_close h.shut.batch hshut, isEmptied_close h.shut.batch hshut⟩

omit [Batch.Payload P] in
/-- What is offered goes into somebody's hand first. -/
theorem Books.Served.given (h : b.Served events owned) {id : EventId} (here : owned id = 1) :
    (b.handed (.waiting ⟨id, events id⟩)).Served events (Function.update owned id 0) := by
  have hgiven := h.guarded.given .waiting (Nat.lt_of_lt_of_eq Nat.zero_lt_one here.symm)
  simp only [here] at hgiven
  refine ⟨hgiven, h.shut.batch, fun hclosed e he => ?_⟩
  rcases Multiset.mem_cons.mp he with heq | he
  · cases heq
  · exact h.shut.retries hclosed e he

theorem Service.served {s s' : Scene P} (h : Service events s s')
    (hs : (s.pipe.books none 0).Served events s.owned) :
    (s'.pipe.books none 0).Served events s'.owned := by
  cases h with
  | built retryMs => exact ⟨(Deal.built retryMs).guarded hs.guarded, hs.shut.batch, hs.shut.retries⟩
  | ran id => exact (leads_run _ id (.inl trivial)).served hs
  | aside beside =>
      have hbeside : Leads True _ _ := leads_aside beside
      exact hbeside.served hs
  | @offered p owned id here =>
      have hgiven := hs.given here
      rw [← books_handed] at hgiven
      have hoffered : Leads True _ _ := leads_offer p ⟨id, events id⟩
      exact hoffered.served hgiven
  | @tornDown p owned pipe region =>
      have hswept := swept_teardown p pipe region
      refine ⟨hswept.guarded hs.guarded, ?_, ?_⟩
      · intro hclosed
        refine List.eq_nil_iff_forall_not_mem.mpr fun e he => ?_
        have hnil := hs.shut.batch ((closed_teardown p pipe region).symm.trans hclosed)
        exact List.not_mem_nil (hnil ▸ hswept.mem_batch he)
      · exact fun hclosed e he => hs.shut.retries hclosed e (hswept.mem_items he)
  | @closed p owned =>
      obtain ⟨hswept, hemptied⟩ := hs.close
      refine ⟨hswept.guarded hs.guarded, fun _ => hemptied.batch, fun _ e he => ?_⟩
      obtain ⟨entry, hentry, _⟩ := retry_mem_items.mp he
      rw [hemptied.retries] at hentry
      cases hentry

/-- What every move keeps, and every event that is built or handed over, every teardown and every
close, is kept in service. -/
@[elab_as_elim]
theorem Service.keeps {kept : Books P → Prop} {s s' : Scene P} (h : Service events s s')
    (hs : (s.pipe.books none 0).Served events s.owned) (before : kept (s.pipe.books none 0))
    (move : ∀ {c c' : Books P} {owned : EventId → Nat}, Move True c c' →
      c.Accounted events owned → kept c → kept c')
    (built : ∀ (c : Books P) (retryMs : Nat), kept c → kept (c.enrolled retryMs))
    (handed : ∀ (c : Books P) (id : EventId), kept c →
      kept (c.handed (.waiting ⟨id, events id⟩)))
    (tornDown : ∀ (p : Pipe P) (pipe : String) (region : Int), kept (p.books none 0) →
      kept ((p.teardown pipe region).1.books none 0))
    (closed : ∀ (p : Pipe P) {owned : EventId → Nat}, (p.books none 0).Served events owned →
      kept (p.books none 0) → kept (p.close.books none 0)) :
    kept (s'.pipe.books none 0) := by
  have hmoves {b b' : Books P} {owned : EventId → Nat} (hleads : Leads True b b')
      (hb : b.Served events owned) (hkept : kept b) : kept b' := by
    have hboth : b'.Accounted events owned ∧ kept b' :=
      hleads.keeps hb.guarded.numbered ⟨hb.guarded.accounted, hkept⟩
        fun hmove hc => ⟨hmove.accounted hc.1, move hmove hc.1 hc.2⟩
    exact hboth.2
  cases h with
  | built retryMs => exact built _ retryMs before
  | ran id => exact hmoves (leads_run _ id (.inl trivial)) hs before
  | aside beside => exact hmoves (leads_aside beside) hs before
  | @offered p owned id here =>
      have hgiven := hs.given here
      have hhanded := handed _ id before
      rw [← books_handed] at hgiven hhanded
      exact hmoves (leads_offer p ⟨id, events id⟩) hgiven hhanded
  | tornDown pipe region => exact tornDown _ pipe region before
  | closed => exact closed _ hs before

theorem served_of_new {p : Pipe P} (h : p.IsNew) :
    (p.books none 0).Served events fun _ => 0 := by
  have hitems := items_of_new h
  refine ⟨guarded_of_new h, fun _ => h.batch, fun _ e he => ?_⟩
  rw [hitems] at he
  cases he

theorem served_of_reach {s s' : Scene P} (new : s.IsNew)
    (reach : Relation.ReflTransGen (Service events) s s') :
    (s'.pipe.books none 0).Served events s'.owned := by
  induction reach with
  | refl =>
      rw [new.owned]
      exact served_of_new new.pipe
  | tail _ hact ih => exact hact.served ih

end Pipe
end Courier
