import Courier.Proofs.Pipe.Moves

/-!
The account of references. What the pipe holds of an event and what others own of it is never more
than the ledger counts, as long as the event is not released. So the reference that is dropped last
is one beside which nothing is held.
-/

namespace Courier

open Transfer

namespace Pipe

variable {P : Type}

/-- Events are what the catalogue says, transfers are of files, and the ledger counts every
reference. -/
structure Books.Accounted (events : EventId → Event) (owned : EventId → Nat) (b : Books P) :
    Prop where
  sane : ∀ id, (b.ledger.get id).IsSane
  known : ∀ e, b.Mentions e → e.id < b.ledger.entries.size ∧ e.event = events e.id
  bulky : ∀ a asked, .attempt a asked ∈ b.items → a.event.event.isBulk = true
  owning : ∀ id, 0 < owned id → id < b.ledger.entries.size
  counted : ∀ id, id < b.ledger.entries.size → (b.ledger.get id).released = false →
    b.held id + owned id ≤ (b.ledger.get id).count

/-- Two handles on one event are the same. -/
theorem Books.Accounted.eq_known {events : EventId → Event} {owned : EventId → Nat} {b : Books P}
    (hb : b.Accounted events owned) {e : EventRef} (he : b.Mentions e) :
    e = ⟨e.id, events e.id⟩ := by
  rw [← (hb.known e he).2]

theorem total_held_spent (id : EventId) (events : List EventRef) :
    Item.total (Item.held id) ↑(events.map Item.spent) = events.countP fun e => e.id = id := by
  induction events with
  | nil => rfl
  | cons e events ih =>
      rw [List.map_cons, ← Multiset.cons_coe, Item.total_cons, ih, List.countP_cons]
      simp only [Item.held, decide_eq_true_eq]
      exact Nat.add_comm _ _

theorem total_held_failed (id : EventId) (events : List EventRef) :
    Item.total (Item.held id) ↑(events.map Item.failed) ≤ events.countP fun e => e.id = id := by
  induction events with
  | nil => exact Nat.le_refl 0
  | cons e events ih =>
      rw [List.map_cons, ← Multiset.cons_coe, Item.total_cons, List.countP_cons]
      simp only [Item.held, decide_eq_true_eq]
      split <;> split <;> omega

/-- A place in the buffer that becomes free had a reference. -/
theorem countP_freed {buffer : List (CommitId × EventRef)} {commit : CommitId} {found : EventRef}
    (h : buffer.lookup commit = some found) (id : EventId) :
    (if found.id = id then 1 else 0) +
        (buffer.filter fun entry => entry.1 != commit).countP (fun entry => entry.2.id = id) ≤
      buffer.countP fun entry => entry.2.id = id := by
  induction buffer with
  | nil => cases h
  | cons entry buffer ih =>
      obtain ⟨key, e⟩ := entry
      by_cases hkey : key = commit
      · subst hkey
        rw [List.lookup_cons_self] at h
        cases h
        have hle := List.Sublist.countP_le (p := fun entry => decide (entry.2.id = id))
          (List.filter_sublist (l := buffer) (p := fun entry => entry.1 != key))
        rw [List.filter_cons_of_neg (by simp), List.countP_cons]
        simp only [decide_eq_true_eq]
        omega
      · have hne : (commit == key) = false := by simpa using Ne.symm hkey
        rw [List.lookup_cons, hne] at h
        have hle := ih h
        rw [List.filter_cons_of_pos (by simpa using hkey), List.countP_cons, List.countP_cons]
        omega

section Turns

variable [Batch.Payload P] {lossy : Prop} {b : Books P} {x y : Multiset Item}

/-- Nobody speaks of an event that was not spoken of before. -/
theorem Turn.mentions (h : Turn lossy b x y) {e : EventRef} (hy : ∃ i ∈ y, i.Mentions e) :
    ∃ i ∈ x, i.Mentions e := by
  obtain ⟨i, hi, hmentions⟩ := hy
  cases h with
  | mislaid | lapsed | forgotten | skipped | lostFile => cases hi
  | acknowledged | abandoned | failedTablets =>
      obtain ⟨e', he', rfl⟩ := List.mem_map.mp hi
      cases hmentions
      exact ⟨_, Multiset.mem_singleton_self _, he'⟩
  | resumedFile prepared =>
      rw [Multiset.mem_singleton] at hi
      subst hi
      have hevent := (Attempt.prepare_event prepared).1
      exact ⟨_, Multiset.mem_singleton_self _, hevent.symm.trans hmentions⟩
  | resumedTablet content encoded =>
      rw [Multiset.mem_singleton] at hi
      subst hi
      exact ⟨_, Multiset.mem_singleton_self _, (List.mem_singleton.mp hmentions).symm⟩
  | _ =>
      rw [Multiset.mem_singleton] at hi
      subst hi
      exact ⟨_, Multiset.mem_singleton_self _, hmentions⟩

theorem Turn.bulky (h : Turn lossy b x y)
    (hx : ∀ a asked, .attempt a asked ∈ x → a.event.event.isBulk = true)
    {a : Attempt} {asked : Option (Sent × Request)} (hy : .attempt a asked ∈ y) :
    a.event.event.isBulk = true := by
  cases h with
  | mislaid | lapsed | forgotten | skipped | lostFile => cases hy
  | acknowledged | abandoned | failedTablets =>
      obtain ⟨e', _, heq⟩ := List.mem_map.mp hy
      cases heq
  | asksPiece due =>
      rw [Multiset.mem_singleton] at hy
      cases hy
      exact hx _ _ (Multiset.mem_singleton_self _)
  | resumedFile prepared =>
      rw [Multiset.mem_singleton] at hy
      cases hy
      obtain ⟨hevent, hbulk⟩ := Attempt.prepare_event prepared
      rw [hevent]
      exact hbulk
  | _ =>
      rw [Multiset.mem_singleton] at hy
      cases hy

/-- No turn makes a reference out of nothing. -/
theorem Turn.held_le (h : Turn lossy b x y)
    (hx : ∀ a asked, .attempt a asked ∈ x → a.event.event.isBulk = true) (id : EventId) :
    Item.total (Item.held id) y ≤ Item.total (Item.held id) x := by
  cases h with
  | acknowledged | abandoned => exact Nat.le_of_eq (total_held_spent id _)
  | failedTablets => exact total_held_failed id _
  | mislaid | lapsed | forgotten | skipped | lostFile => exact Nat.zero_le _
  | @failedAttempt a asked =>
      have hbulk := hx a asked (Multiset.mem_singleton_self _)
      simp [Item.held, hbulk]
  | resumedTablet content encoded =>
      simp [Item.held, Event.isBulk_of_tablet content, List.countP_cons]
  | unencodable light failed => simp [Item.held, light]
  | _ => simp [Item.held]

end Turns

section Moves

variable {events : EventId → Event} {owned : EventId → Nat} {b b' : Books P}

/-- An account stays right when references are given and taken by pipe and ledger alike. -/
theorem Books.Accounted.next (hb : b.Accounted events owned)
    (sane : ∀ id, (b'.ledger.get id).IsSane)
    (size : b'.ledger.entries.size = b.ledger.entries.size)
    (mentions : ∀ e, b'.Mentions e → b.Mentions e)
    (bulky : ∀ a asked, .attempt a asked ∈ b'.items → a.event.event.isBulk = true)
    (counted : ∀ id, id < b.ledger.entries.size → (b'.ledger.get id).released = false →
      (b.ledger.get id).released = false ∧
        b'.held id + (b.ledger.get id).count ≤ b.held id + (b'.ledger.get id).count) :
    b'.Accounted events owned := by
  refine ⟨sane, fun e he => ?_, bulky, fun id hid => ?_, fun id hid hreleased => ?_⟩
  · rw [size]
    exact hb.known e (mentions e he)
  · rw [size]
    exact hb.owning id hid
  · rw [size] at hid
    obtain ⟨hbefore, hle⟩ := counted id hid hreleased
    have hcounted := hb.counted id hid hbefore
    omega

/-- An item is put down, and the ledger counts no more than its references less. -/
theorem Books.Accounted.putDown (hb : b.Accounted events owned) {x : Item} {rest : Multiset Item}
    (here : b.items = x ::ₘ rest) {ledger : Ledger} (sane : ∀ id, (ledger.get id).IsSane)
    (size : ledger.entries.size = b.ledger.entries.size)
    (counted : ∀ id, (ledger.get id).released = false → (b.ledger.get id).released = false ∧
      (b.ledger.get id).count ≤ (ledger.get id).count + x.held id) :
    ({ b with ledger := ledger, items := rest } : Books P).Accounted events owned := by
  refine hb.next sane size ?_ ?_ ?_
  · rintro e (⟨i, hi, he⟩ | hrest)
    · exact .inl ⟨i, here ▸ Multiset.mem_cons_of_mem hi, he⟩
    · exact .inr hrest
  · intro a asked ha
    exact hb.bulky a asked (here ▸ Multiset.mem_cons_of_mem ha)
  · intro id _ hreleased
    obtain ⟨hbefore, hle⟩ := counted id hreleased
    simp only [Books.held, here, Item.total_cons]
    exact ⟨hbefore, by omega⟩

variable [Batch.Payload P] {lossy : Prop}

/-- No move speaks of an event that was not spoken of before. -/
theorem Move.mentions (h : Move lossy b b') {e : EventRef} (he : b'.Mentions e) : b.Mentions e := by
  have hrest {x : Item} {rest : Multiset Item} (here : b.items = x ::ₘ rest) {i : Item}
      (hi : i ∈ rest) : i ∈ b.items := here ▸ Multiset.mem_cons_of_mem hi
  cases h with
  | noted | retuned | tried | spawned | retired => exact he
  | @turned x y rest here turn =>
      rcases he with ⟨i, hi, he⟩ | hstored
      · rcases Multiset.mem_add.mp hi with hi | hi
        · obtain ⟨i', hi', he'⟩ := turn.mentions ⟨i, hi, he⟩
          exact .inl ⟨i', here ▸ Multiset.mem_add.mpr (.inl hi'), he'⟩
        · exact .inl ⟨i, here ▸ Multiset.mem_add.mpr (.inr hi), he⟩
      · exact .inr hstored
  | @held spoken mentioned took =>
      rcases he with ⟨i, hi, he⟩ | hstored
      · rcases Multiset.mem_cons.mp hi with rfl | hi
        · exact (show spoken = e from he) ▸ mentioned
        · exact .inl ⟨i, hi, he⟩
      · exact .inr hstored
  | dropped here | cleared here =>
      rcases he with ⟨i, hi, he⟩ | hstored
      · exact .inl ⟨i, hrest here hi, he⟩
      · exact .inr hstored
  | @kept kept payload rest here =>
      rcases he with ⟨i, hi, he⟩ | hbatch | hbuffer
      · exact .inl ⟨i, hrest here hi, he⟩
      · rcases List.mem_append.mp hbatch with hbatch | hlast
        · exact .inr (.inl hbatch)
        · exact Books.mentions_of_cons here (List.mem_singleton.mp hlast).symm
      · exact .inr (.inr hbuffer)
  | emitted =>
      rcases he with ⟨i, hi, he⟩ | hbatch | hbuffer
      · rcases Multiset.mem_cons.mp hi with rfl | hi
        · exact .inr (.inl he)
        · exact .inl ⟨i, hi, he⟩
      · cases hbatch
      · exact .inr (.inr hbuffer)
  | @takenOn taken settings now a mentioned unclosed prepared =>
      have hevent := (Attempt.prepare_event prepared).1
      rcases he with ⟨i, hi, he⟩ | hbatch | ⟨commit, hbuffer⟩
      · rcases Multiset.mem_cons.mp hi with rfl | hi
        · exact (hevent.symm.trans he) ▸ mentioned
        · exact .inl ⟨i, hi, he⟩
      · exact .inr (.inl hbatch)
      · rcases List.mem_append.mp hbuffer with hbuffer | hlast
        · exact .inr (.inr ⟨commit, hbuffer⟩)
        · cases List.mem_singleton.mp hlast
          exact mentioned
  | @freed x freed found rest here why =>
      have hmentions : x.Mentions freed := by
        cases why <;> rfl
      rcases he with ⟨i, hi, he⟩ | hbatch | ⟨commit, hbuffer⟩
      · rcases Multiset.mem_cons.mp hi with rfl | hi
        · exact Books.mentions_of_cons here ((show freed = e from he) ▸ hmentions)
        · exact .inl ⟨i, hrest here hi, he⟩
      · exact .inr (.inl hbatch)
      · exact .inr (.inr ⟨commit, (List.mem_filter.mp hbuffer).1⟩)

theorem Move.accounted (h : Move lossy b b') (hb : b.Accounted events owned) :
    b'.Accounted events owned := by
  have hmentions (e : EventRef) (he : b'.Mentions e) : b.Mentions e := h.mentions he
  cases h with
  | noted | spawned | retired | tried => exact ⟨hb.sane, hb.known, hb.bulky, hb.owning, hb.counted⟩
  | @retuned ledger same =>
      refine hb.next (same.sane hb.sane) same.size hmentions hb.bulky ?_
      intro id _ hreleased
      rw [same.released] at hreleased
      exact ⟨hreleased, Nat.add_le_add_left (Nat.le_of_eq (same.count id).symm) _⟩
  | @turned x y rest here turn =>
      have hbulky : ∀ a asked, .attempt a asked ∈ x → a.event.event.isBulk = true :=
        fun a asked ha => hb.bulky a asked (here ▸ Multiset.mem_add.mpr (.inl ha))
      refine hb.next hb.sane rfl hmentions ?_ ?_
      · intro a asked ha
        rcases Multiset.mem_add.mp ha with ha | ha
        · exact turn.bulky hbulky ha
        · exact hb.bulky a asked (here ▸ Multiset.mem_add.mpr (.inr ha))
      · intro id _ hreleased
        have hle := turn.held_le hbulky id
        simp only [Books.held, here, Item.total_add]
        exact ⟨hreleased, by omega⟩
  | @held e mentioned took =>
      have hknown := (hb.known e mentioned).1
      refine hb.next (Ledger.forall_update (fun _ h => h.hold) hb.sane e.id)
        (Ledger.size_update _ _ _) hmentions ?_ ?_
      · intro a asked ha
        rcases Multiset.mem_cons.mp ha with heq | ha
        · cases heq
        · exact hb.bulky a asked ha
      · intro id _ hreleased
        obtain ⟨hcount, hsame, _⟩ := Ledger.get_hold hknown took id
        rw [hsame] at hreleased
        simp only [Books.held, Item.total_cons, Item.held, hcount]
        exact ⟨hreleased, by omega⟩
  | @dropped e rest here =>
      have hknown := (hb.known e (Books.mentions_of_cons here rfl)).1
      refine hb.putDown here (Ledger.forall_update (fun _ h => h.drop) hb.sane e.id)
        (Ledger.size_update _ _ _) fun id hreleased => ?_
      obtain ⟨hbefore, hcount, _⟩ := Ledger.unreleased_of_drop hb.sane hknown hreleased
      exact ⟨hbefore, Nat.le_of_eq hcount⟩
  | @cleared e rest here _ =>
      have hknown := (hb.known e (Books.mentions_of_cons here rfl)).1
      refine hb.putDown here (Ledger.forall_update (fun _ h => h.clear) hb.sane e.id)
        (Ledger.size_update _ _ _) fun id hreleased => ?_
      obtain ⟨_, hsame⟩ := Ledger.unreleased_of_clear hb.sane hknown hreleased
      rw [hsame] at hreleased ⊢
      exact ⟨hreleased, Nat.le_add_right _ _⟩
  | @kept e payload rest here light batchOpen live constructed =>
      refine hb.next hb.sane rfl hmentions ?_ ?_
      · intro a asked ha
        exact hb.bulky a asked (here ▸ Multiset.mem_cons_of_mem ha)
      · intro id _ hreleased
        simp only [Books.held, here, Item.total_cons, Item.held,
          List.countP_append, List.countP_singleton, decide_eq_true_eq]
        exact ⟨hreleased, by omega⟩
  | emitted =>
      refine hb.next hb.sane rfl hmentions ?_ ?_
      · intro a asked ha
        rcases Multiset.mem_cons.mp ha with heq | ha
        · cases heq
        · exact hb.bulky a asked ha
      · intro id _ hreleased
        simp only [Books.held, Item.total_cons, Item.held, List.countP_nil]
        exact ⟨hreleased, by omega⟩
  | @takenOn e settings now a mentioned unclosed prepared took free =>
      have hknown := (hb.known e mentioned).1
      obtain ⟨hevent, hbulk⟩ := Attempt.prepare_event prepared
      refine hb.next (Ledger.forall_update (fun _ h => h.hold) hb.sane e.id)
        (Ledger.size_update _ _ _) hmentions ?_ ?_
      · intro a' asked ha
        rcases Multiset.mem_cons.mp ha with heq | ha
        · cases heq
          rw [hevent]
          exact hbulk
        · exact hb.bulky a' asked ha
      · intro id _ hreleased
        -- The buffer has the new reference; the attempt has none.
        obtain ⟨hcount, hsame, _⟩ := Ledger.get_hold hknown took id
        rw [hsame] at hreleased
        simp only [Books.held, Item.total_cons, Item.held, hcount,
          List.countP_append, List.countP_singleton, decide_eq_true_eq]
        exact ⟨hreleased, by omega⟩
  | @freed x e found rest here why there same =>
      refine hb.next hb.sane rfl hmentions ?_ ?_
      · intro a asked ha
        rcases Multiset.mem_cons.mp ha with heq | ha
        · cases heq
        · exact hb.bulky a asked (here ▸ Multiset.mem_cons_of_mem ha)
      · intro id _ hreleased
        have hfreed := countP_freed there id
        rw [same] at hfreed
        simp only [Books.held, here, Item.total_cons, Item.held]
        exact ⟨hreleased, by omega⟩

end Moves

section Owners

variable {events : EventId → Event} {owned : EventId → Nat} {b : Books P}

/-- The books with one more item in somebody's hand. -/
def Books.handed (b : Books P) (x : Item) : Books P := { b with items := x ::ₘ b.items }

/-- The books after another event was built. -/
def Books.enrolled (b : Books P) (retryMs : Nat) : Books P :=
  { b with ledger := b.ledger.enrol retryMs }

theorem Item.mentions_of_held {id : EventId} {x : Item} (h : 0 < x.held id) :
    ∃ e, x.Mentions e ∧ e.id = id := by
  cases x with
  | attempt | guest => exact absurd h (Nat.lt_irrefl 0)
  | sending sent payload asked =>
      obtain ⟨e, he, hid⟩ := List.countP_pos_iff.mp h
      exact ⟨e, he, of_decide_eq_true hid⟩
  | waiting e | deferred e | spent e =>
      refine ⟨e, rfl, ?_⟩
      simp only [Item.held] at h
      split at h <;> simp_all
  | failed e | retry e =>
      refine ⟨e, rfl, ?_⟩
      simp only [Item.held] at h
      split at h
      · cases h
      · split at h <;> simp_all

/-- Nothing is held of an event that was not built yet. -/
theorem Books.Accounted.held_eq_zero (hb : b.Accounted events owned) {id : EventId}
    (hid : b.ledger.entries.size ≤ id) : b.held id = 0 := by
  have hunknown {e : EventRef} (he : b.Mentions e) : e.id ≠ id := by
    rintro rfl
    exact absurd (hb.known e he).1 (Nat.not_lt.mpr hid)
  have hitems : Item.total (Item.held id) b.items = 0 := by
    refine Item.total_eq_zero fun x hx => Nat.eq_zero_of_not_pos fun hpos => ?_
    obtain ⟨e, he, hsame⟩ := Item.mentions_of_held hpos
    exact hunknown (.inl ⟨x, hx, he⟩) hsame
  have hbatch : b.batch.countP (fun e => e.id = id) = 0 := by
    refine List.countP_eq_zero.mpr fun e he => ?_
    simpa using hunknown (.inr (.inl he))
  have hbuffer : b.buffer.countP (fun entry => entry.2.id = id) = 0 := by
    refine List.countP_eq_zero.mpr fun entry hentry => ?_
    simpa using hunknown (.inr (.inr ⟨entry.1, hentry⟩))
  simp only [Books.held, hitems, hbatch, hbuffer]

/-- The one who builds an event holds it first. -/
theorem Books.Accounted.built (hb : b.Accounted events owned) (retryMs : Nat) :
    (b.enrolled retryMs).Accounted events (Function.update owned b.ledger.entries.size 1) := by
  have hsize : (b.enrolled retryMs).ledger.entries.size = b.ledger.entries.size + 1 :=
    Ledger.size_enrol _ _
  refine ⟨Ledger.sane_enrol hb.sane retryMs, fun e he => ?_, hb.bulky, fun id hid => ?_,
    fun id hid hreleased => ?_⟩
  · have hknown := hb.known e he
    rw [hsize]
    exact ⟨Nat.lt_succ_of_lt hknown.1, hknown.2⟩
  · rw [hsize]
    by_cases hnew : id = b.ledger.entries.size
    · exact hnew ▸ Nat.lt_succ_self _
    · rw [Function.update_of_ne hnew] at hid
      exact Nat.lt_succ_of_lt (hb.owning id hid)
  · by_cases hnew : id = b.ledger.entries.size
    · subst hnew
      have hheld : (b.enrolled retryMs).held b.ledger.entries.size = 0 :=
        hb.held_eq_zero (Nat.le_refl _)
      have hcount : ((b.enrolled retryMs).ledger.get b.ledger.entries.size).count = 1 := by
        rw [show (b.enrolled retryMs).ledger.get _ = _ from Ledger.get_enrol_self _ _]
      rw [hheld, hcount, Function.update_self]
    · have hlt : id < b.ledger.entries.size := by omega
      have hsame : (b.enrolled retryMs).ledger.get id = b.ledger.get id :=
        Ledger.get_enrol_of_lt retryMs hlt
      rw [hsame] at hreleased ⊢
      rw [Function.update_of_ne hnew]
      exact hb.counted id hlt hreleased

theorem Books.held_handed (b : Books P) (x : Item) (id : EventId) :
    (b.handed x).held id = x.held id + b.held id := by
  simp only [Books.held, Books.handed, Item.total_cons]
  omega

/-- One event with one reference. -/
inductive Item.OneOf (e : EventRef) : Item → Prop
  | waiting : OneOf e (.waiting e)
  | spent : OneOf e (.spent e)

section Given

variable {x : Item} {e : EventRef} {id : EventId}

theorem Item.OneOf.held (one : x.OneOf e) (id : EventId) :
    x.held id = if e.id = id then 1 else 0 := by
  cases one <;> rfl

theorem Item.OneOf.mentions {e' : EventRef} (one : x.OneOf e) (h : x.Mentions e') : e' = e := by
  cases one <;> exact h.symm

/-- Who gives one reference away has one less. -/
theorem owned_given (one : x.OneOf ⟨id, events id⟩) (owned : EventId → Nat) :
    Function.update owned id (owned id - 1) = fun other => owned other - x.held other := by
  funext other
  rw [one.held]
  by_cases hother : other = id
  · subst hother
    rw [Function.update_self, if_pos rfl]
  · rw [Function.update_of_ne hother, if_neg (Ne.symm hother)]
    rfl

theorem enough_given (one : x.OneOf ⟨id, events id⟩) (here : 0 < owned id) (other : EventId) :
    x.held other ≤ owned other := by
  rw [one.held]
  split
  · rename_i hsame
    exact hsame ▸ here
  · exact Nat.zero_le _

variable (events) in
/-- An offer takes the one reference that its owner has. -/
theorem offered_waiting (here : owned id = 1) :
    (∀ other, (Item.waiting ⟨id, events id⟩).held other ≤ owned other) ∧
      (fun other => owned other - (Item.waiting ⟨id, events id⟩).held other) =
        Function.update owned id 0 := by
  have hone : (Item.waiting ⟨id, events id⟩).OneOf ⟨id, events id⟩ := .waiting
  have howned := owned_given hone owned
  simp only [here] at howned
  exact ⟨enough_given hone (Nat.lt_of_lt_of_eq Nat.zero_lt_one here.symm), howned.symm⟩

end Given

/-- A reference that was owned is given into a hand. -/
theorem Books.Accounted.handed (hb : b.Accounted events owned) {x : Item}
    (known : ∀ e, x.Mentions e → e.id < b.ledger.entries.size ∧ e.event = events e.id)
    (bulky : ∀ a asked, x = .attempt a asked → a.event.event.isBulk = true)
    (enough : ∀ id, x.held id ≤ owned id) :
    (b.handed x).Accounted events fun id => owned id - x.held id := by
  refine ⟨hb.sane, ?_, ?_, fun id hid => hb.owning id (by omega), fun id hid hreleased => ?_⟩
  · rintro e (⟨i, hi, he⟩ | hrest)
    · rcases Multiset.mem_cons.mp hi with rfl | hi
      · exact known e he
      · exact hb.known e (.inl ⟨i, hi, he⟩)
    · exact hb.known e (.inr hrest)
  · intro a asked ha
    rcases Multiset.mem_cons.mp ha with heq | ha
    · exact bulky a asked heq.symm
    · exact hb.bulky a asked ha
  · have hcounted : b.held id + owned id ≤ (b.ledger.get id).count := hb.counted id hid hreleased
    have henough := enough id
    rw [b.held_handed]
    exact Nat.le_trans (by omega) hcounted

/-- Somebody takes one reference more. -/
theorem Books.Accounted.held_outside (hb : b.Accounted events owned) {id : EventId}
    (known : id < b.ledger.entries.size) (took : (b.ledger.hold id).2 = true) :
    ({ b with ledger := (b.ledger.hold id).1 } : Books P).Accounted events
      (Function.update owned id (owned id + 1)) := by
  have hsize (l : Ledger) : (l.hold id).1.entries.size = l.entries.size := Ledger.size_update _ _ _
  refine ⟨Ledger.forall_update (fun _ h => h.hold) hb.sane id, fun e he => ?_, hb.bulky,
    fun other hother => ?_, fun other hother hreleased => ?_⟩
  · exact ⟨Nat.lt_of_lt_of_eq (hb.known e he).1 (hsize _).symm, (hb.known e he).2⟩
  · refine Nat.lt_of_lt_of_eq ?_ (hsize _).symm
    by_cases hsame : other = id
    · rw [hsame]
      exact known
    · rw [Function.update_of_ne hsame] at hother
      exact hb.owning other hother
  · obtain ⟨hcount, hsame, _⟩ := Ledger.get_hold known took other
    rw [hsame] at hreleased
    have hcounted := hb.counted other (Nat.lt_of_lt_of_eq hother (hsize _)) hreleased
    rw [hcount]
    by_cases hid : other = id
    · subst hid
      rw [Function.update_self, if_pos rfl]
      exact Nat.add_le_add_right hcounted 1
    · rw [Function.update_of_ne hid, if_neg (Ne.symm hid)]
      exact hcounted

/-- Somebody clears an event. -/
theorem Books.Accounted.cleared_outside (hb : b.Accounted events owned) {id : EventId}
    (known : id < b.ledger.entries.size) :
    ({ b with ledger := (b.ledger.clear id).1 } : Books P).Accounted events owned := by
  refine hb.next (Ledger.forall_update (fun _ h => h.clear) hb.sane id) (Ledger.size_update _ _ _)
    (fun _ he => he) hb.bulky fun other _ hreleased => ?_
  have hsame := (Ledger.unreleased_of_clear hb.sane known hreleased).2
  rw [hsame] at hreleased ⊢
  exact ⟨hreleased, Nat.le_refl _⟩

/-- A hand that speaks of an event without holding it can stop. -/
theorem Books.Accounted.of_handed {x : Item} (hb : (b.handed x).Accounted events owned) :
    b.Accounted events owned :=
  hb.putDown rfl hb.sane rfl fun _ hreleased => ⟨hreleased, Nat.le_add_right _ _⟩

end Owners

end Pipe
end Courier
