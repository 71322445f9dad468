import Courier.Proofs.Pipe.Custody
import Courier.Pipe.Calls

/-!
What a discard, a teardown and a close do to the books. Each takes everything of one kind out of
some of the places where events wait, and clears it: no reference on it is left, wherever it is.
-/

namespace Courier

open Transfer

namespace Pipe

variable {P : Type}

/-- The event lies where events wait, in the queue, before the batch or in the retry queue. -/
def Item.Stores (e : EventRef) : Item → Prop
  | .waiting x | .deferred x | .retry x => x = e
  | _ => False

theorem Item.Stores.mentions {e : EventRef} {x : Item} (h : x.Stores e) : x.Mentions e := by
  cases x with
  | waiting | deferred | retry => exact h
  | _ => cases h

theorem Item.Stores.held {e : EventRef} {x : Item} {id : EventId} (h : x.Stores e)
    (other : e.id ≠ id) : x.held id = 0 := by
  cases x with
  | waiting x | deferred x =>
      cases h
      exact if_neg other
  | retry x =>
      cases h
      rw [Item.held, if_neg other, ite_self]
  | _ => cases h

theorem Item.Stores.tends {e : EventRef} {x : Item} {id : EventId} (h : x.Stores e)
    (other : e.id ≠ id) : x.tends id = 0 := by
  cases x with
  | waiting | deferred => rfl
  | retry x =>
      cases h
      exact if_neg other
  | _ => cases h

/-- The second books are the first after a sweep: what was found of one kind is taken out and
cleared, and so is what is buffered of that kind. -/
structure Books.Swept (mine : EventRef → Bool) (found : List EventRef) (b b' : Books P) : Prop where
  all : ∀ e ∈ found, mine e = true
  mentioned : ∀ e ∈ found, b.Mentions e
  ledger : b'.ledger = b.ledger.clearAll
    (found ++ (b.buffer.filter fun entry => mine entry.2).map Prod.snd)
  items : ∃ taken, b.items = taken + b'.items ∧ ∀ x ∈ taken, ∃ e ∈ found, x.Stores e
  batch : ∃ taken, b.batch.Perm (taken ++ b'.batch) ∧ ∀ e ∈ taken, e ∈ found
  buffer : b'.buffer = b.buffer.filter fun entry => !mine entry.2
  shut : b'.closed = true → b.closed = true ∨ ∀ e, mine e = true
  trace : b'.trace = b.trace
  ids : b'.ids = b.ids
  nextTask : b'.nextTask = b.nextTask

namespace Books.Swept

variable {mine : EventRef → Bool} {found : List EventRef} {b b' : Books P}
  {events : EventId → Event} {owned : EventId → Nat}

theorem mentions_cleared (h : Swept mine found b b') {e : EventRef}
    (he : e ∈ found ++ (b.buffer.filter fun entry => mine entry.2).map Prod.snd) :
    b.Mentions e ∧ mine e = true := by
  rcases List.mem_append.mp he with he | he
  · exact ⟨h.mentioned e he, h.all e he⟩
  · obtain ⟨⟨commit, e'⟩, hmem, rfl⟩ := List.mem_map.mp he
    obtain ⟨hbuffer, hmine⟩ := List.mem_filter.mp hmem
    exact ⟨.inr (.inr ⟨commit, hbuffer⟩), hmine⟩

theorem mem_batch (h : Swept mine found b b') {e : EventRef} (he : e ∈ b'.batch) :
    e ∈ b.batch := by
  obtain ⟨taken, hperm, _⟩ := h.batch
  exact hperm.mem_iff.mpr (List.mem_append_right _ he)

theorem mem_items (h : Swept mine found b b') {x : Item} (hx : x ∈ b'.items) : x ∈ b.items := by
  obtain ⟨taken, hitems, _⟩ := h.items
  exact hitems ▸ Multiset.mem_add.mpr (.inr hx)

theorem mem_buffer (h : Swept mine found b b') {entry : CommitId × EventRef}
    (hentry : entry ∈ b'.buffer) : entry ∈ b.buffer ∧ mine entry.2 = false := by
  rw [h.buffer] at hentry
  obtain ⟨hmem, hnot⟩ := List.mem_filter.mp hentry
  exact ⟨hmem, by simpa using hnot⟩

theorem mentions (h : Swept mine found b b') {e : EventRef} (he : b'.Mentions e) :
    b.Mentions e := by
  rcases he with ⟨x, hx, he⟩ | hbatch | ⟨commit, hbuffer⟩
  · exact .inl ⟨x, h.mem_items hx, he⟩
  · exact .inr (.inl (h.mem_batch hbatch))
  · exact .inr (.inr ⟨commit, (h.mem_buffer hbuffer).1⟩)

/-- An event that was not cleared is tended by those who tended it. -/
theorem tenders (h : Swept mine found b b') {id : EventId} (others : ∀ e ∈ found, e.id ≠ id) :
    b'.tenders id = b.tenders id := by
  obtain ⟨taken, hitems, hstores⟩ := h.items
  have htaken : Item.total (Item.tends id) taken = 0 := by
    refine Item.total_eq_zero fun x hx => ?_
    obtain ⟨e, he, hx⟩ := hstores x hx
    exact hx.tends (others e he)
  rw [Books.tenders, Books.tenders, hitems, Item.total_add, htaken, Nat.zero_add]

theorem size (h : Swept mine found b b') :
    b'.ledger.entries.size = b.ledger.entries.size := by
  rw [h.ledger]
  exact Ledger.size_clearAll _ _

/-- What a sweep leaves unreleased is not among what it cleared. -/
theorem unreleased (h : Swept mine found b b') (hb : b.Accounted events owned) {id : EventId}
    (hreleased : (b'.ledger.get id).released = false) :
    (∀ e ∈ found ++ (b.buffer.filter fun entry => mine entry.2).map Prod.snd, e.id ≠ id) ∧
      b'.ledger.get id = b.ledger.get id := by
  rw [h.ledger] at hreleased ⊢
  exact Ledger.unreleased_of_clearAll hb.sane
    (fun e he => (hb.known e (h.mentions_cleared he).1).1) hreleased

theorem numbered (h : Swept mine found b b') (hb : b.Numbered) : b'.Numbered := by
  rw [Books.Numbered, h.ids, h.nextTask]
  exact hb

theorem held_le (h : Swept mine found b b') (id : EventId) : b'.held id ≤ b.held id := by
  obtain ⟨taken, hitems, _⟩ := h.items
  obtain ⟨out, hbatch, _⟩ := h.batch
  have hbuffer := List.Sublist.countP_le (p := fun entry => decide (entry.2.id = id))
    (List.filter_sublist (l := b.buffer) (p := fun entry => !mine entry.2))
  simp only [Books.held, hitems, Item.total_add, hbatch.countP_eq, List.countP_append, h.buffer]
  omega

theorem accounted (h : Swept mine found b b') (hb : b.Accounted events owned) :
    b'.Accounted events owned := by
  refine hb.next ?_ h.size (fun e he => h.mentions he) (fun a asked ha => hb.bulky a asked
    (h.mem_items ha)) ?_
  · rw [h.ledger]
    exact Ledger.sane_clearAll hb.sane _
  · intro id _ hreleased
    have hsame := (h.unreleased hb hreleased).2
    rw [hsame] at hreleased
    rw [hsame]
    exact ⟨hreleased, Nat.add_le_add_right (h.held_le id) _⟩

theorem custody (h : Swept mine found b b') (ha : b.Accounted events owned)
    (hb : b.Custody events) : b'.Custody events := by
  have hstays {commit : CommitId} {e : EventRef} (he : (commit, e) ∈ b'.buffer) :
      ∀ e' ∈ found ++ (b.buffer.filter fun entry => mine entry.2).map Prod.snd, e'.id ≠ e.id := by
    intro e' he' hsame
    obtain ⟨hmem, hnot⟩ := h.mem_buffer he
    obtain ⟨hmentioned, hyes⟩ := h.mentions_cleared he'
    have hknown := ha.eq_known hmentioned
    rw [hsame, ← ha.eq_known (.inr (.inr ⟨commit, hmem⟩))] at hknown
    rw [hknown, hnot] at hyes
    cases hyes
  have hothers {commit : CommitId} {e : EventRef} (he : (commit, e) ∈ b'.buffer) :
      ∀ e' ∈ found, e'.id ≠ e.id := fun e' he' => hstays he e' (List.mem_append_left _ he')
  refine ⟨?_, ?_, ?_, ?_, ?_, ?_, ?_, ?_⟩
  · rw [h.buffer]
    exact hb.keys.sublist (List.filter_sublist.map Prod.fst)
  · exact fun commit e he => hb.filed commit e (h.mem_buffer he).1
  · intro commit e he
    rw [h.ledger, Ledger.get_clearAll_of_ne (hstays he)]
    exact hb.live commit e (h.mem_buffer he).1
  · intro commit e he
    rw [h.tenders (hothers he)]
    exact hb.single commit e (h.mem_buffer he).1
  · intro id hbulk hreleased htended
    obtain ⟨hnone, hsame⟩ := h.unreleased ha hreleased
    rw [h.tenders fun e he => hnone e (List.mem_append_left _ he)] at htended
    have hpresent := hb.present id hbulk (hsame ▸ hreleased) htended
    rw [h.buffer]
    refine List.mem_filter.mpr ⟨hpresent, ?_⟩
    refine Bool.not_eq_true' _ ▸ Bool.eq_false_iff.mpr fun hyes => ?_
    -- A file of this kind would be among those that were cleared.
    have hcleared : ((events id).commit, ⟨id, events id⟩) ∈
        b.buffer.filter fun entry => mine entry.2 := List.mem_filter.mpr ⟨hpresent, hyes⟩
    exact hnone _ (List.mem_append_right _ (List.mem_map_of_mem hcleared)) rfl
  · exact fun e he => hb.light e (h.mem_batch he)
  · exact fun sent payload asked hmem => hb.lightSent sent payload asked (h.mem_items hmem)
  · intro hclosed
    rw [h.buffer]
    refine List.filter_eq_nil_iff.mpr fun entry hentry => ?_
    rcases h.shut hclosed with hshut | hall
    · rw [hb.shut hshut] at hentry
      cases hentry
    · simp [hall entry.2]

end Books.Swept

section Stores

variable {p p' : Pipe P} {mine : EventRef → Bool}

theorem perm_filter (events : List EventRef) (mine : EventRef → Bool) :
    events.Perm (events.filter mine ++ events.filter fun e => !mine e) :=
  (List.filter_append_perm mine events).symm

/-- What is taken out of the places where events wait is found there, and the rest stays. -/
theorem swept_of_stores (queued deferred batched retried : List EventRef)
    (tasks : p'.tasks = p.tasks) (nextTask : p'.nextTask = p.nextTask) (trace : p'.trace = p.trace)
    (queue : p.queue.channels.toList.Perm (queued ++ p'.queue.channels.toList))
    (pending : p.pending.toList.Perm (deferred ++ p'.pending.toList))
    (batch : p.batch.events.Perm (batched ++ p'.batch.events))
    (retries : (p.connector.retryQueue.map RetryEntry.event).Perm
      (retried ++ p'.connector.retryQueue.map RetryEntry.event))
    (buffer : p'.connector.buffer = p.connector.buffer.filter fun entry => !mine entry.2)
    (shut : p'.connector.closed = true → p.connector.closed = true ∨ ∀ e, mine e = true)
    (all : ∀ e ∈ queued ++ deferred ++ batched ++ retried, mine e = true)
    (ledger : p'.commons.ledger = p.commons.ledger.clearAll
      (queued ++ deferred ++ batched ++ retried ++
        (p.connector.buffer.filter fun entry => mine entry.2).map Prod.snd)) :
    (p.books none 0).Swept mine (queued ++ deferred ++ batched ++ retried) (p'.books none 0) := by
  have hretries (p : Pipe P) : (p.connector.retryQueue.map fun entry => Item.retry entry.event) =
      (p.connector.retryQueue.map RetryEntry.event).map Item.retry := by
    rw [List.map_map]
    rfl
  have hitems : (p.books none 0).items =
      (↑(queued.map Item.waiting) + ↑(deferred.map Item.deferred) + ↑(retried.map Item.retry)) +
        (p'.books none 0).items := by
    simp only [books, stored, others_none, tasks, hretries,
      Multiset.coe_eq_coe.mpr (queue.map Item.waiting),
      Multiset.coe_eq_coe.mpr (pending.map Item.deferred),
      Multiset.coe_eq_coe.mpr (retries.map Item.retry), List.map_append, ← Multiset.coe_add]
    ac_rfl
  have hstores : ∀ x ∈ (↑(queued.map Item.waiting) + ↑(deferred.map Item.deferred) +
      ↑(retried.map Item.retry) : Multiset Item),
      ∃ e ∈ queued ++ deferred ++ batched ++ retried, x.Stores e := by
    intro x hx
    simp only [Multiset.mem_add, Multiset.mem_coe, List.mem_map] at hx
    rcases hx with (⟨e, he, rfl⟩ | ⟨e, he, rfl⟩) | ⟨e, he, rfl⟩ <;>
      exact ⟨e, by simp [he], rfl⟩
  have hmentioned : ∀ e ∈ queued ++ deferred ++ batched ++ retried,
      (p.books none 0).Mentions e := by
    intro e he
    simp only [List.mem_append] at he
    have hstored {x : Item} (hx : x ∈ (↑(queued.map Item.waiting) + ↑(deferred.map Item.deferred) +
        ↑(retried.map Item.retry) : Multiset Item)) (hstores : x.Stores e) :
        (p.books none 0).Mentions e :=
      .inl ⟨x, hitems ▸ Multiset.mem_add.mpr (.inl hx), hstores.mentions⟩
    rcases he with ((he | he) | he) | he
    · exact hstored (x := .waiting e) (by simp [he]) rfl
    · exact hstored (x := .deferred e) (by simp [he]) rfl
    · exact .inr (.inl (batch.mem_iff.mpr (List.mem_append_left _ he)))
    · exact hstored (x := .retry e) (by simp [he]) rfl
  refine ⟨all, hmentioned, ledger, ⟨_, hitems, hstores⟩, ⟨batched, batch, ?_⟩, buffer, shut, trace,
    ?_, nextTask⟩
  · intro e he
    simp [he]
  · simp [books, others_none, tasks]

/-- The entries of the retry queue that are of one kind, as events. -/
def queuedOf (p : Pipe P) (mine : EventRef → Bool) : List EventRef :=
  (p.connector.retryQueue.filter fun entry => mine entry.event).map RetryEntry.event

theorem perm_queuedOf (p : Pipe P) (mine : EventRef → Bool) :
    (p.connector.retryQueue.map RetryEntry.event).Perm (p.queuedOf mine ++
      (p.connector.retryQueue.filter fun entry => !mine entry.event).map RetryEntry.event) := by
  rw [queuedOf, ← List.map_append]
  exact ((List.filter_append_perm (fun entry : RetryEntry => mine entry.event) _).map _).symm

theorem mine_of_queuedOf (p : Pipe P) {e : EventRef} (h : e ∈ p.queuedOf mine) : mine e = true := by
  obtain ⟨entry, hentry, rfl⟩ := List.mem_map.mp h
  exact (List.mem_filter.mp hentry).2

theorem swept_discard (p : Pipe P) (pipe : String) (region : Int) :
    (p.books none 0).Swept (fun e => e.belongsTo pipe region)
      (p.queuedOf fun e => e.belongsTo pipe region) ((p.discard pipe region).1.books none 0) := by
  refine swept_of_stores [] [] [] (p.queuedOf fun e => e.belongsTo pipe region) rfl rfl rfl
    (.refl _) (.refl _) (.refl _) (p.perm_queuedOf fun e => e.belongsTo pipe region) rfl .inl
    (fun e he => ?_) ?_
  · have hqueued : e ∈ p.queuedOf fun e => e.belongsTo pipe region := he
    exact p.mine_of_queuedOf hqueued
  simp only [discard, Connector.discardPipe, Ledger.clearCounting_fst, queuedOf]
  exact (Ledger.clearAll_append ..).symm

theorem closeConnector_of_closed (h : p.connector.closed = true) : p.closeConnector = p := by
  simp [closeConnector, Connector.close, h]

theorem swept_closeConnector (h : p.connector.closed = false) :
    (p.books none 0).Swept (fun _ => true) (p.queuedOf fun _ => true)
      (p.closeConnector.books none 0) := by
  have hclose : p.closeConnector = { p with
      connector := (p.connector.close p.commons).1
      commons := (p.connector.close p.commons).2 } := rfl
  have hfields : (p.connector.close p.commons).1.buffer = [] ∧
      (p.connector.close p.commons).1.retryQueue = [] ∧
      (p.connector.close p.commons).2.ledger = p.commons.ledger.clearAll
        (p.connector.retryQueue.map RetryEntry.event ++ p.connector.buffer.map Prod.snd) := by
    simp only [Connector.close, h, Bool.false_eq_true, if_false]
    exact ⟨rfl, rfl, rfl⟩
  obtain ⟨hbuffer, hretries, hledger⟩ := hfields
  rw [hclose]
  refine swept_of_stores [] [] [] (p.queuedOf fun _ => true) rfl rfl rfl (.refl _) (.refl _)
    (.refl _) ?_ ?_ (fun _ => .inr fun _ => rfl) (fun _ _ => rfl) ?_
  · simp [queuedOf, hretries]
  · simp [hbuffer]
  · simp [hledger, queuedOf]

/-- The events of one kind that lie in the queue, before the batch, in it and in the retry queue. -/
def storedOf (p : Pipe P) (mine : EventRef → Bool) : List EventRef :=
  p.queue.channels.toList.filter mine ++ p.pending.toList.filter mine ++
    p.batch.events.filter mine ++ p.queuedOf mine

theorem mine_of_storedOf (p : Pipe P) {e : EventRef} (h : e ∈ p.storedOf mine) :
    mine e = true := by
  simp only [storedOf, List.mem_append, List.mem_filter] at h
  rcases h with ((h | h) | h) | h
  · exact h.2
  · exact h.2
  · exact h.2
  · exact p.mine_of_queuedOf h

section Teardown

/-- The part of a teardown that is about the tablet before the batch. -/
def discardPending (p : Pipe P) (commons : Commons) (pipe : String) (region : Int) :
    Option EventRef × Commons × Nat :=
  match p.pending with
  | none => (none, commons, 0)
  | some e =>
      if e.belongsTo pipe region then
        let (commons, released) := commons.clear e
        (none, commons, if released then 1 else 0)
      else (some e, commons, 0)

theorem discardPending_fields (p : Pipe P) (commons : Commons) (pipe : String) (region : Int) :
    (p.discardPending commons pipe region).1 =
        p.pending.filter (fun e => !e.belongsTo pipe region) ∧
      (p.discardPending commons pipe region).2.1.ledger = commons.ledger.clearAll
        (p.pending.toList.filter fun e => e.belongsTo pipe region) ∧
      (p.discardPending commons pipe region).2.1.memory = commons.memory ∧
      (p.discardPending commons pipe region).2.1.slots = commons.slots := by
  unfold discardPending
  split
  · rename_i hpending
    rw [hpending]
    exact ⟨rfl, rfl, rfl, rfl⟩
  · rename_i e hpending
    rw [hpending, Option.filter_some]
    cases hmine : e.belongsTo pipe region <;> simp [hmine, Ledger.clearAll, Commons.clear]

theorem pending_of_discardPending {commons : Commons} {pipe : String} {region : Int} {e : EventRef}
    (h : (p.discardPending commons pipe region).1 = some e) : p.pending = some e := by
  have hpending := (p.discardPending_fields commons pipe region).1
  exact (Option.filter_eq_some_iff.mp (hpending.symm.trans h)).1

variable [Batch.Payload P]

theorem batch_discardPipe (b : Batch.Accumulator P) (commons : Commons) (pipe : String)
    (region : Int) :
    (b.discardPipe commons pipe region).1.events =
        b.events.filter (fun e => !e.belongsTo pipe region) ∧
      (b.discardPipe commons pipe region).1.closed = b.closed ∧
      (b.discardPipe commons pipe region).2.1.ledger = commons.ledger.clearAll
        (b.events.filter fun e => e.belongsTo pipe region) := by
  unfold Batch.Accumulator.discardPipe
  dsimp only
  split
  · rename_i hempty
    rw [Bool.and_eq_true, List.isEmpty_iff] at hempty
    rw [hempty.2]
    exact ⟨rfl, rfl, rfl⟩
  · exact ⟨rfl, rfl, rfl⟩

theorem teardown_eq (p : Pipe P) (pipe : String) (region : Int) :
    (p.teardown pipe region).1 =
      let q := p.queue.discardPipe p.commons pipe region
      let w := p.discardPending q.2.1 pipe region
      let b := p.batch.discardPipe w.2.1 pipe region
      let c := p.connector.discardPipe b.2.1 pipe region
      { p with queue := q.1, commons := c.2.1, pending := w.1, batch := b.1, connector := c.1 } :=
  rfl

theorem closed_teardown (p : Pipe P) (pipe : String) (region : Int) :
    (p.teardown pipe region).1.batch.closed = p.batch.closed :=
  (batch_discardPipe _ _ _ _).2.1

theorem swept_teardown (p : Pipe P) (pipe : String) (region : Int) :
    (p.books none 0).Swept (fun e => e.belongsTo pipe region)
      (p.storedOf fun e => e.belongsTo pipe region) ((p.teardown pipe region).1.books none 0) := by
  obtain ⟨hchannels, _, hqueue⟩ := p.queue.discardPipe_fields p.commons pipe region
  rw [teardown_eq]
  generalize p.queue.discardPipe p.commons pipe region = q at hchannels hqueue
  obtain ⟨hpending, hwaiting, -, -⟩ := p.discardPending_fields q.2.1 pipe region
  dsimp only
  generalize p.discardPending q.2.1 pipe region = w at hpending hwaiting
  obtain ⟨hevents, _, hbatch⟩ := batch_discardPipe p.batch w.2.1 pipe region
  generalize p.batch.discardPipe w.2.1 pipe region = b at hevents hbatch
  refine swept_of_stores _ _ _ _ rfl rfl rfl ?_ ?_ ?_
    (p.perm_queuedOf fun e => e.belongsTo pipe region) rfl .inl
    (fun e he => p.mine_of_storedOf he) ?_
  · dsimp only
    rw [hchannels, Queue.Channels.toList_removePipe]
    exact perm_filter _ _
  · dsimp only
    rw [hpending, Option.toList_filter]
    exact perm_filter _ _
  · dsimp only
    rw [hevents]
    exact perm_filter _ _
  · simp only [Connector.discardPipe, Ledger.clearCounting_fst, hbatch, hwaiting, hqueue,
      ← Ledger.clearAll_append, queuedOf]
    rfl

/-- The part of a close that is about the tablet before the batch. -/
def clearPending (p : Pipe P) (commons : Commons) : Commons :=
  match p.pending with
  | some e => (commons.clear e).1
  | none => commons

omit [Batch.Payload P] in
theorem ledger_clearPending (p : Pipe P) (commons : Commons) :
    (p.clearPending commons).ledger = commons.ledger.clearAll p.pending.toList := by
  unfold clearPending
  split <;> rename_i hpending <;> rw [hpending] <;> rfl

theorem close_eq (p : Pipe P) :
    p.close =
      let q := p.queue.shutdown.discardAll p.commons
      let b := p.batch.close (p.clearPending q.2)
      let c := p.connector.close b.2
      { p with queue := q.1, commons := c.2, batch := b.1, connector := c.1, pending := none } :=
  rfl

theorem closed_connector_close (c : Connector) (commons : Commons) :
    (c.close commons).1.closed = true := by
  unfold Connector.close
  split
  · assumption
  · rfl

omit [Batch.Payload P] in
theorem closed_closeConnector (p : Pipe P) : p.closeConnector.connector.closed = true :=
  closed_connector_close _ _

theorem closed_close (p : Pipe P) :
    p.close.batch.closed = true ∧ p.close.connector.closed = true := by
  have hbatch (b : Batch.Accumulator P) (commons : Commons) :
      (b.close commons).1.closed = true := by
    unfold Batch.Accumulator.close
    split
    · assumption
    · rfl
  exact ⟨hbatch _ _, closed_connector_close _ _⟩

theorem batch_close {b : Batch.Accumulator P} (commons : Commons)
    (shut : b.closed = true → b.events = []) :
    (b.close commons).1.events = [] ∧
      (b.close commons).2.ledger = commons.ledger.clearAll b.events := by
  unfold Batch.Accumulator.close
  split
  · rename_i hclosed
    rw [shut hclosed]
    exact ⟨rfl, rfl⟩
  · exact ⟨rfl, rfl⟩

omit [Batch.Payload P] in
theorem connector_close {c : Connector} (commons : Commons)
    (shut : c.closed = true → c.buffer = [] ∧ c.retryQueue = []) :
    (c.close commons).1.buffer = [] ∧ (c.close commons).1.retryQueue = [] ∧
      (c.close commons).2.ledger = commons.ledger.clearAll
        (c.retryQueue.map RetryEntry.event ++ c.buffer.map Prod.snd) := by
  unfold Connector.close
  split
  · rename_i hclosed
    obtain ⟨hbuffer, hretries⟩ := shut hclosed
    rw [hbuffer, hretries]
    exact ⟨rfl, rfl, rfl⟩
  · exact ⟨rfl, rfl, rfl⟩

theorem swept_close {p : Pipe P} (batchShut : p.batch.closed = true → p.batch.events = [])
    (shut : p.connector.closed = true → p.connector.buffer = [] ∧ p.connector.retryQueue = []) :
    (p.books none 0).Swept (fun _ => true) (p.storedOf fun _ => true) (p.close.books none 0) := by
  have hqueue : (p.queue.shutdown.discardAll p.commons).1.channels.toList = [] ∧
      (p.queue.shutdown.discardAll p.commons).2.ledger =
        p.commons.ledger.clearAll p.queue.channels.toList := ⟨rfl, rfl⟩
  rw [close_eq]
  generalize p.queue.shutdown.discardAll p.commons = q at hqueue
  obtain ⟨hchannels, hqueued⟩ := hqueue
  obtain ⟨hevents, hbatch⟩ := batch_close (p.clearPending q.2) batchShut
  dsimp only
  generalize p.batch.close (p.clearPending q.2) = b at hevents hbatch
  obtain ⟨hbuffer, hretries, hledger⟩ := connector_close b.2 shut
  generalize p.connector.close b.2 = c at hbuffer hretries hledger
  refine swept_of_stores _ _ _ _ rfl rfl rfl ?_ ?_ ?_ ?_ ?_ (fun _ => .inr fun _ => rfl)
    (fun _ _ => rfl) ?_
  · simp [hchannels]
  · simp
  · simp [hevents]
  · simp [queuedOf, hretries]
  · simp [hbuffer]
  · simp only [hledger, hbatch, ledger_clearPending, hqueued, ← Ledger.clearAll_append,
      List.filter_true, queuedOf, List.append_assoc]

/-- Nothing is left where events wait. -/
structure IsEmptied (p : Pipe P) : Prop where
  queue : p.queue.channels.toList = []
  pending : p.pending = none
  batch : p.batch.events = []
  buffer : p.connector.buffer = []
  retries : p.connector.retryQueue = []

theorem isEmptied_close {p : Pipe P} (batchShut : p.batch.closed = true → p.batch.events = [])
    (shut : p.connector.closed = true → p.connector.buffer = [] ∧ p.connector.retryQueue = []) :
    p.close.IsEmptied := by
  obtain ⟨hbuffer, hretries, _⟩ := connector_close
    (p.batch.close (p.clearPending (p.queue.shutdown.discardAll p.commons).2)).2 shut
  exact ⟨rfl, rfl, (batch_close _ batchShut).1, hbuffer, hretries⟩

end Teardown

end Stores

end Pipe
end Courier
