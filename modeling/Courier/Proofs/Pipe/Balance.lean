import Courier.Proofs.Pipe.Solo

/-!
The balance of references. The account says that what is held and owned is never more than what the
ledger counts. Where no tablet is mislaid it is never less either, so an event that nobody holds and
nobody owns is released. And until the pipe is closed no other event is.
-/

namespace Courier

open Transfer

namespace Pipe

variable {P : Type} {events : EventId → Event} {owned : EventId → Nat} {b b' : Books P}
  {id : EventId}

/-- Of an event that is not released every reference is held by the pipe or owned outside. -/
def Books.Balanced (owned : EventId → Nat) (b : Books P) : Prop :=
  ∀ id, id < b.ledger.entries.size → (b.ledger.get id).released = false →
    (b.ledger.get id).count ≤ b.held id + owned id

/-- The balance stays when references are given and taken by pipe and ledger alike. -/
theorem Books.Balanced.next (hb : b.Balanced owned)
    (size : b'.ledger.entries.size = b.ledger.entries.size)
    (counted : ∀ id, id < b.ledger.entries.size → (b'.ledger.get id).released = false →
      (b.ledger.get id).released = false ∧
        b.held id + (b'.ledger.get id).count ≤ b'.held id + (b.ledger.get id).count) :
    b'.Balanced owned := by
  intro id hid hreleased
  rw [size] at hid
  obtain ⟨hbefore, hle⟩ := counted id hid hreleased
  have hbalanced := hb id hid hbefore
  omega

theorem total_held_failed_of_light {id : EventId} {sent : List EventRef}
    (light : ∀ e ∈ sent, e.event.isBulk = false) :
    Item.total (Item.held id) ↑(sent.map Item.failed) = sent.countP fun e => e.id = id := by
  induction sent with
  | nil => rfl
  | cons e sent ih =>
      have hrest := ih fun e' he' => light e' (List.mem_cons_of_mem e he')
      rw [List.map_cons, ← Multiset.cons_coe, Item.total_cons, List.countP_cons, hrest]
      simp [Item.held, light e (List.mem_cons_self ..), Nat.add_comm]

/-- Of entries whose commit ids differ, the one that becomes free is the only one under its id. -/
theorem countP_le_freed {buffer : List (CommitId × EventRef)} {commit : CommitId}
    {found : EventRef} (keys : (buffer.map Prod.fst).Nodup)
    (h : buffer.lookup commit = some found) (id : EventId) :
    buffer.countP (fun entry => entry.2.id = id) ≤ (if found.id = id then 1 else 0) +
      (buffer.filter fun entry => entry.1 != commit).countP fun entry => entry.2.id = id := by
  induction buffer with
  | nil => cases h
  | cons entry buffer ih =>
      obtain ⟨key, e⟩ := entry
      rw [List.map_cons, List.nodup_cons] at keys
      by_cases hkey : key = commit
      · subst hkey
        rw [List.lookup_cons_self] at h
        cases h
        have hothers : (buffer.filter fun entry => entry.1 != key) = buffer := by
          refine List.filter_eq_self.mpr fun entry hentry => ?_
          have hne : entry.1 ≠ key := fun heq =>
            keys.1 (List.mem_map.mpr ⟨entry, hentry, heq⟩)
          simpa using hne
        rw [List.filter_cons_of_neg (by simp), hothers, List.countP_cons]
        simp only [decide_eq_true_eq]
        omega
      · have hne : (commit == key) = false := by simpa using Ne.symm hkey
        rw [List.lookup_cons, hne] at h
        have hle := ih keys.2 h
        rw [List.filter_cons_of_pos (by simpa using hkey), List.countP_cons, List.countP_cons]
        omega

/-- An event is not released while somebody still has a reference on it. -/
def Books.AliveAt (owned : EventId → Nat) (id : EventId) (b : Books P) : Prop :=
  id < b.ledger.entries.size → 0 < b.held id + owned id → (b.ledger.get id).released = false

/-- Nothing is released of which somebody still has a reference. -/
def Books.Alive (owned : EventId → Nat) (b : Books P) : Prop := ∀ id, b.AliveAt owned id

theorem Books.AliveAt.next (hl : b.AliveAt owned id)
    (size : b'.ledger.entries.size = b.ledger.entries.size)
    (kept : 0 < b'.held id + owned id →
      (b.ledger.get id).released = (b'.ledger.get id).released ∧ 0 < b.held id + owned id) :
    b'.AliveAt owned id := by
  intro hid hpos
  rw [size] at hid
  obtain ⟨hsame, hbefore⟩ := kept hpos
  exact hsame.symm.trans (hl hid hbefore)

/-- Who builds an event holds its first reference. -/
theorem Books.Balanced.built (hb : b.Balanced owned)
    (retryMs : Nat) :
    (b.enrolled retryMs).Balanced (Function.update owned b.ledger.entries.size 1) := by
  intro id hid hreleased
  have hsize : (b.enrolled retryMs).ledger.entries.size = b.ledger.entries.size + 1 :=
    Ledger.size_enrol _ _
  rw [hsize] at hid
  by_cases hnew : id = b.ledger.entries.size
  · subst hnew
    have hcount : ((b.enrolled retryMs).ledger.get b.ledger.entries.size).count = 1 := by
      rw [show (b.enrolled retryMs).ledger.get _ = _ from Ledger.get_enrol_self _ _]
    rw [hcount, Function.update_self]
    exact Nat.le_add_left _ _
  · have hlt : id < b.ledger.entries.size := by omega
    have hsame : (b.enrolled retryMs).ledger.get id = b.ledger.get id :=
      Ledger.get_enrol_of_lt retryMs hlt
    rw [hsame] at hreleased ⊢
    rw [Function.update_of_ne hnew]
    exact hb id hlt hreleased

/-- What is handed over goes from its owner into the pipe. -/
theorem Books.Balanced.handed (hb : b.Balanced owned) {x : Item}
    (enough : ∀ id, x.held id ≤ owned id) :
    (b.handed x).Balanced fun id => owned id - x.held id := by
  intro id hid hreleased
  have hbalanced : (b.ledger.get id).count ≤ b.held id + owned id := hb id hid hreleased
  have henough := enough id
  have hhanded : (b.handed x).held id + (owned id - x.held id) = b.held id + owned id := by
    rw [b.held_handed]
    omega
  exact hhanded ▸ hbalanced

theorem Books.AliveAt.built (hl : b.AliveAt owned id) (retryMs : Nat) :
    (b.enrolled retryMs).AliveAt (Function.update owned b.ledger.entries.size 1) id := by
  intro hid hpos
  have hsame : ((b.enrolled retryMs).ledger.get id).released = (b.ledger.get id).released :=
    Ledger.released_enrol _ _ _
  have hsize : (b.enrolled retryMs).ledger.entries.size = b.ledger.entries.size + 1 :=
    Ledger.size_enrol _ _
  rw [hsame]
  rw [hsize] at hid
  by_cases hnew : id = b.ledger.entries.size
  · rw [hnew, Ledger.get_of_le (Nat.le_refl _)]
  · rw [Function.update_of_ne hnew] at hpos
    exact hl (Nat.lt_of_le_of_ne (Nat.le_of_lt_succ hid) hnew) hpos

theorem Books.AliveAt.handed (hl : b.AliveAt owned id) {x : Item}
    (enough : ∀ id, x.held id ≤ owned id) :
    (b.handed x).AliveAt (fun id => owned id - x.held id) id := by
  intro hid hpos
  have henough := enough id
  have hhanded : (b.handed x).held id + (owned id - x.held id) = b.held id + owned id := by
    rw [b.held_handed]
    omega
  exact hl hid (hhanded ▸ hpos)

section Offers

variable (here : owned id = 1)
include here

theorem Books.Balanced.given (hb : b.Balanced owned) :
    (b.handed (.waiting ⟨id, events id⟩)).Balanced (Function.update owned id 0) := by
  obtain ⟨henough, howned⟩ := offered_waiting events here
  exact howned ▸ hb.handed henough

theorem Books.Alive.given (hl : b.Alive owned) :
    (b.handed (.waiting ⟨id, events id⟩)).Alive (Function.update owned id 0) := by
  obtain ⟨henough, howned⟩ := offered_waiting events here
  exact fun other => howned ▸ (hl other).handed henough

end Offers

theorem Books.Alive.built (hl : b.Alive owned) (retryMs : Nat) :
    (b.enrolled retryMs).Alive (Function.update owned b.ledger.entries.size 1) :=
  fun id => (hl id).built retryMs

theorem unreleased_of_hold (ha : b.Accounted events owned) {id : EventId}
    (took : (b.ledger.hold id).2 = true) : (b.ledger.get id).released = false := by
  have hpos : 0 < (b.ledger.get id).count := Lifecycle.hold_eq_true_iff.mp took
  refine Bool.eq_false_iff.mpr fun hreleased => ?_
  rw [(ha.sane id).count_eq_zero_of_released hreleased] at hpos
  exact Nat.lt_irrefl 0 hpos

/-- Who takes a reference takes it of an event that is not released. -/
theorem Books.AliveAt.of_hold (hl : b.AliveAt owned id) (ha : b.Accounted events owned)
    {e : EventRef} (mentioned : b.Mentions e) (took : (b.ledger.hold e.id).2 = true)
    (ledger : b'.ledger = (b.ledger.hold e.id).1)
    (others : e.id ≠ id → b'.held id = b.held id) : b'.AliveAt owned id := by
  have hsize : b'.ledger.entries.size = b.ledger.entries.size :=
    ledger ▸ Ledger.size_update _ _ _
  intro hid hpos
  have hsame : (b'.ledger.get id).released = (b.ledger.get id).released :=
    ledger ▸ (Ledger.get_hold (ha.known e mentioned).1 took id).2.1
  rw [hsame]
  by_cases hself : e.id = id
  · exact hself ▸ unreleased_of_hold ha took
  · rw [others hself] at hpos
    exact hl (hsize ▸ hid) hpos

/-- Who drops a reference releases the event only if it was the last. -/
theorem Books.AliveAt.dropped (hl : b.AliveAt owned id) (ha : b.Accounted events owned)
    {e : EventRef} {rest : Multiset Item} (here : b.items = .spent e ::ₘ rest) :
    ({ b with ledger := (b.ledger.drop e.id).1, items := rest } : Books P).AliveAt owned id := by
  have hknown := (ha.known e (Books.mentions_of_cons here rfl)).1
  have hsize (l : Ledger) : (l.drop e.id).1.entries.size = l.entries.size :=
    Ledger.size_update _ _ _
  intro hid hpos
  rw [hsize] at hid
  have hheld : b.held id = (if e.id = id then 1 else 0) +
      ({ b with ledger := (b.ledger.drop e.id).1, items := rest } : Books P).held id := by
    simp only [Books.held, here, Item.total_cons, Item.held]
    omega
  have hbefore := hl hid (by omega)
  refine Bool.eq_false_iff.mpr fun hafter => ?_
  -- What the drop releases had one reference left, the one that was dropped.
  obtain ⟨hsame, hcount⟩ := Ledger.released_of_drop hknown hbefore hafter
  have hcounted := ha.counted id hid hbefore
  rw [if_pos hsame] at hheld
  omega

variable [Batch.Payload P] {lossy : Prop}

/-- What is closed, and which events there are, is no concern of a task. -/
theorem Move.fixed (h : Move lossy b b') : b'.closed = b.closed ∧ b'.batchClosed = b.batchClosed ∧
    b'.ledger.entries.size = b.ledger.entries.size := by
  cases h with
  | retuned same => exact ⟨rfl, rfl, same.size⟩
  | held | dropped | cleared | takenOn => exact ⟨rfl, rfl, Ledger.size_update _ _ _⟩
  | _ => exact ⟨rfl, rfl, rfl⟩

theorem Leads.fixed (h : Leads lossy b b') (hn : b.Numbered) : b'.closed = b.closed ∧
    b'.batchClosed = b.batchClosed ∧ b'.ledger.entries.size = b.ledger.entries.size := by
  refine h.keeps hn ⟨rfl, rfl, rfl⟩ fun hmove ih => ?_
  obtain ⟨hclosed, hbatch, hsize⟩ := hmove.fixed
  exact ⟨hclosed.trans ih.1, hbatch.trans ih.2.1, hsize.trans ih.2.2⟩

/-- Where no tablet is mislaid, no turn loses a reference on an event that is not released. -/
theorem Turn.le_held {x y rest : Multiset Item} (h : Turn False b x y) (here : b.items = x + rest)
    (hc : b.Custody events) {id : EventId}
    (unreleased : (b.ledger.get id).released = false) :
    Item.total (Item.held id) x ≤ Item.total (Item.held id) y := by
  have hmem {i : Item} (hi : {i} = x) : i ∈ b.items :=
    here ▸ Multiset.mem_add.mpr (.inl (hi ▸ Multiset.mem_singleton_self i))
  have hother {e : EventRef} (released : b.ledger.isReleased e.id = true) : e.id ≠ id := by
    rintro rfl
    rw [show (b.ledger.get e.id).released = true from released] at unreleased
    cases unreleased
  cases h with
  | mislaid crowded => exact crowded.elim
  | acknowledged | abandoned => exact Nat.le_of_eq (total_held_spent id _).symm
  | failedTablets =>
      exact Nat.le_of_eq (total_held_failed_of_light (hc.lightSent _ _ _ (hmem rfl))).symm
  | lapsed => exact Nat.le_refl 0
  | forgotten released | skipped released => simp [Item.held, hother released]
  | lostFile bulk => simp [Item.held, bulk]
  | resumedFile prepared => simp [Item.held, (Attempt.prepare_event prepared).2]
  | resumedTablet content =>
      simp [Item.held, Event.isBulk_of_tablet content, List.countP_cons]
  | unencodable light => simp [Item.held, light]
  | _ => simp [Item.held]

theorem Move.balanced (h : Move False b b') (ha : b.Accounted events owned)
    (hc : b.Custody events) (hb : b.Balanced owned) : b'.Balanced owned := by
  cases h with
  | noted | spawned | retired | tried => exact hb
  | @retuned ledger same =>
      refine hb.next same.size fun id _ hreleased => ?_
      rw [same.released] at hreleased
      exact ⟨hreleased, Nat.add_le_add_left (Nat.le_of_eq (same.count id)) _⟩
  | @turned x y rest here turn =>
      refine hb.next rfl fun id _ hreleased => ⟨hreleased, ?_⟩
      have hle := turn.le_held here hc hreleased
      simp only [Books.held, here, Item.total_add]
      omega
  | @held e mentioned took =>
      refine hb.next (Ledger.size_update _ _ _) fun id _ hreleased => ?_
      obtain ⟨hcount, hsame, _⟩ := Ledger.get_hold (ha.known e mentioned).1 took id
      rw [hsame] at hreleased
      simp only [Books.held, Item.total_cons, Item.held, hcount]
      exact ⟨hreleased, by omega⟩
  | @dropped e rest here =>
      have hknown := (ha.known e (Books.mentions_of_cons here rfl)).1
      refine hb.next (Ledger.size_update _ _ _) fun id _ hreleased => ?_
      obtain ⟨hbefore, hcount, _⟩ := Ledger.unreleased_of_drop ha.sane hknown hreleased
      simp only [Books.held, here, Item.total_cons, Item.held, hcount]
      exact ⟨hbefore, by omega⟩
  | @cleared e rest here _ =>
      have hknown := (ha.known e (Books.mentions_of_cons here rfl)).1
      refine hb.next (Ledger.size_update _ _ _) fun id _ hreleased => ?_
      obtain ⟨hne, hsame⟩ := Ledger.unreleased_of_clear ha.sane hknown hreleased
      rw [hsame] at hreleased ⊢
      have hheld : Item.held id (.failed e) = 0 := by
        simp [Item.held, Ne.symm hne]
      simp only [Books.held, here, Item.total_cons, hheld]
      exact ⟨hreleased, by omega⟩
  | @kept e payload rest here light batchOpen live constructed =>
      refine hb.next rfl fun id _ hreleased => ⟨hreleased, ?_⟩
      simp only [Books.held, here, Item.total_cons, Item.held, List.countP_append,
        List.countP_singleton, decide_eq_true_eq]
      omega
  | emitted =>
      refine hb.next rfl fun id _ hreleased => ⟨hreleased, ?_⟩
      simp only [Books.held, Item.total_cons, Item.held, List.countP_nil]
      omega
  | @takenOn e settings now a mentioned unclosed prepared took free =>
      refine hb.next (Ledger.size_update _ _ _) fun id _ hreleased => ?_
      obtain ⟨hcount, hsame, _⟩ := Ledger.get_hold (ha.known e mentioned).1 took id
      rw [hsame] at hreleased
      simp only [Books.held, Item.total_cons, Item.held, hcount, List.countP_append,
        List.countP_singleton, decide_eq_true_eq]
      exact ⟨hreleased, by omega⟩
  | @freed x e found rest here why there same =>
      have hspent (id : EventId) : Item.held id (.spent e) = if e.id = id then 1 else 0 := rfl
      have hx (id : EventId) : x.held id = 0 := by
        cases why with
        | sealed => rfl
        | unnamed bulk => simp [Item.held, bulk]
      refine hb.next rfl fun id _ hreleased => ⟨hreleased, ?_⟩
      have hfreed := countP_le_freed hc.keys there id
      rw [same] at hfreed
      simp only [Books.held, here, Item.total_cons, hx, hspent]
      omega

theorem Leads.balanced (h : Leads False b b') (hg : b.Guarded events owned)
    (hb : b.Balanced owned) : b'.Balanced owned := by
  have hboth : b'.Guarded events owned ∧ b'.Balanced owned :=
    h.keeps hg.numbered ⟨hg, hb⟩ fun hmove ih =>
      ⟨hmove.leads.guarded ih.1, hmove.balanced ih.1.accounted ih.1.custody ih.2⟩
  exact hboth.2

/-- An event is released by its last reference alone, until the connector is closed. -/
theorem Move.aliveAt (h : Move lossy b b')
    (spared : b.closed = true → (b.ledger.get id).count = 0) (ha : b.Accounted events owned)
    (hl : b.AliveAt owned id) : b'.AliveAt owned id := by
  cases h with
  | noted | spawned | retired | tried => exact hl
  | retuned same => exact hl.next same.size fun hpos => ⟨(same.released id).symm, hpos⟩
  | @turned x y rest here turn =>
      have hbulky : ∀ a asked, .attempt a asked ∈ x → a.event.event.isBulk = true :=
        fun a asked hattempt => ha.bulky a asked (here ▸ Multiset.mem_add.mpr (.inl hattempt))
      refine hl.next rfl fun hpos => ⟨rfl, ?_⟩
      have hle := turn.held_le hbulky id
      simp only [Books.held, here, Item.total_add] at hpos ⊢
      omega
  | held mentioned took =>
      exact hl.of_hold ha mentioned took rfl fun hne => by
        simp [Books.held, Item.total_cons, Item.held, hne]
  | dropped here => exact hl.dropped ha here
  | @cleared e rest here closed =>
      have hsame : (b.ledger.clear e.id).1.get id = b.ledger.get id :=
        Ledger.get_update_of_fixed _ (Lifecycle.fixed_of_gone (spared closed)).2.2
      refine hl.next (Ledger.size_update _ _ _) fun hpos => ⟨by rw [hsame], ?_⟩
      simp only [Books.held, here, Item.total_cons] at hpos ⊢
      omega
  | @kept e payload rest here =>
      refine hl.next rfl fun hpos => ⟨rfl, ?_⟩
      simp only [Books.held, here, Item.total_cons, Item.held, List.countP_append,
        List.countP_singleton, decide_eq_true_eq] at hpos ⊢
      omega
  | emitted =>
      refine hl.next rfl fun hpos => ⟨rfl, ?_⟩
      simp only [Books.held, Item.total_cons, Item.held, List.countP_nil] at hpos ⊢
      omega
  | takenOn mentioned _ _ took =>
      exact hl.of_hold ha mentioned took rfl fun hne => by
        simp [Books.held, Item.total_cons, Item.held, hne]
  | @freed x e found rest here why there same =>
      refine hl.next rfl fun hpos => ⟨rfl, ?_⟩
      have hfreed := countP_freed there id
      rw [same] at hfreed
      simp only [Books.held, here, Item.total_cons, Item.held] at hpos ⊢
      omega

theorem Leads.aliveAt (h : Leads lossy b b')
    (spared : b.closed = true → (b.ledger.get id).count = 0) (hg : b.Guarded events owned)
    (hl : b.AliveAt owned id) : b'.AliveAt owned id := by
  have hall : (b'.closed = true → (b'.ledger.get id).count = 0) ∧ b'.Guarded events owned ∧
      b'.AliveAt owned id := by
    refine h.keeps hg.numbered ⟨spared, hg, hl⟩ fun hmove ih => ?_
    obtain ⟨hspared, hguarded, halive⟩ := ih
    refine ⟨fun hclosed => ?_, hmove.leads.guarded hguarded,
      hmove.aliveAt hspared hguarded.accounted halive⟩
    exact (hmove.get_of_gone (hspared (hmove.fixed.1.symm.trans hclosed))).1
  exact hall.2.2

theorem Leads.alive (h : Leads lossy b b') (unclosed : b.closed = false)
    (hg : b.Guarded events owned) (hl : b.Alive owned) : b'.Alive owned :=
  fun id => h.aliveAt (fun hclosed => absurd (unclosed.symm.trans hclosed) Bool.false_ne_true) hg
    (hl id)

omit [Batch.Payload P] in
/-- A sweep takes nothing away of an event that it does not release. -/
theorem Books.Swept.balanced {mine : EventRef → Bool} {found : List EventRef}
    (h : Books.Swept mine found b b') (ha : b.Accounted events owned) (hb : b.Balanced owned) :
    b'.Balanced owned := by
  refine hb.next h.size fun id _ hreleased => ?_
  obtain ⟨hothers, hsame⟩ := h.unreleased ha hreleased
  rw [hsame] at hreleased
  obtain ⟨taken, hitems, hstores⟩ := h.items
  obtain ⟨out, hbatch, hout⟩ := h.batch
  have htaken : Item.total (Item.held id) taken = 0 := by
    refine Item.total_eq_zero fun x hx => ?_
    obtain ⟨e, he, hx⟩ := hstores x hx
    exact hx.held (hothers e (List.mem_append_left _ he))
  have hgone : out.countP (fun e => e.id = id) = 0 := by
    refine List.countP_eq_zero.mpr fun e he => ?_
    simpa using hothers e (List.mem_append_left _ (hout e he))
  have hbuffer : b.buffer.countP (fun entry => entry.2.id = id) =
      (b.buffer.filter fun entry => !mine entry.2).countP fun entry => entry.2.id = id := by
    have hsplit := (List.filter_append_perm (fun entry : CommitId × EventRef => mine entry.2)
      b.buffer).countP_eq fun entry => decide (entry.2.id = id)
    rw [List.countP_append] at hsplit
    have hmine : (b.buffer.filter fun entry => mine entry.2).countP
        (fun entry => entry.2.id = id) = 0 := by
      refine List.countP_eq_zero.mpr fun entry hentry => ?_
      simpa using hothers entry.2 (List.mem_append_right _ (List.mem_map_of_mem hentry))
    omega
  rw [hsame]
  simp only [Books.held, hitems, Item.total_add, htaken, hbatch.countP_eq, List.countP_append,
    hgone, hbuffer, h.buffer]
  exact ⟨hreleased, by omega⟩

section Scenes

variable {Q D : EventRef → Prop} {s s' : Scene P}

/-- All that is kept while a pipe with a single consumer is in service. -/
structure Scene.Sound (events : EventId → Event) (Q D : EventRef → Prop) (s : Scene P) : Prop where
  served : (s.pipe.books none 0).Served events s.owned
  balanced : (s.pipe.books none 0).Balanced s.owned
  alone : s.pipe.Alone Q D
  single : s.pipe.consumers.length ≤ 1

theorem sound_of_new (new : s.IsNew) : s.Sound events (fun _ => True) fun _ => True := by
  have hserved : (s.pipe.books none 0).Served events fun _ => 0 := served_of_new new.pipe
  have hconsumers : s.pipe.consumers = [] := by
    rw [consumers, new.pipe.tasks]
    rfl
  refine ⟨new.owned ▸ hserved, fun id hid => ?_, ⟨⟨?_, ?_, ?_⟩, ?_, ?_⟩, ?_⟩
  · have hsize : (s.pipe.books none 0).ledger.entries.size = 0 := by
      simp [books, new.pipe.ledger]
    rw [hsize] at hid
    cases hid
  · exact fun _ _ => trivial
  · exact fun _ _ => trivial
  · exact fun _ _ _ => trivial
  · exact fun t ht => absurd (hconsumers ▸ ht) List.not_mem_nil
  · exact fun t ht => absurd (hconsumers ▸ ht) List.not_mem_nil
  · rw [hconsumers]
    exact Nat.zero_le 1

theorem Service.balanced (h : Service events s s') (hs : s.Sound events Q D) :
    (s'.pipe.books none 0).Balanced s'.owned := by
  cases h with
  | built retryMs => exact hs.balanced.built retryMs
  | ran id =>
      have hran : Leads False _ _ := leads_run _ id (.inr (hs.alone.room id))
      exact hran.balanced hs.served.guarded hs.balanced
  | aside beside =>
      have hbeside : Leads False _ _ := leads_aside beside
      exact hbeside.balanced hs.served.guarded hs.balanced
  | @offered p owned id here =>
      have hgiven := hs.served.given here
      have hbalanced : Books.Balanced _ (Books.handed _ (.waiting ⟨id, events id⟩)) :=
        hs.balanced.given here
      rw [← books_handed] at hgiven hbalanced
      have hoffered : Leads False _ _ := leads_offer p ⟨id, events id⟩
      exact hoffered.balanced hgiven.guarded hbalanced
  | tornDown pipe region =>
      exact (swept_teardown _ pipe region).balanced hs.served.guarded.accounted hs.balanced
  | closed => exact hs.served.close.1.balanced hs.served.guarded.accounted hs.balanced

theorem Solo.sound (h : Solo events s s') (hs : s.Sound events Q D)
    (offers : ∀ id, s.owned id = 1 → Q ⟨id, events id⟩) : s'.Sound events Q D :=
  ⟨h.1.served hs.served, h.1.balanced hs, hs.alone.service hs.served hs.single offers h.1, h.2⟩

theorem sound_of_reach (new : s.IsNew) (reach : Relation.ReflTransGen (Solo events) s s') :
    s'.Sound events (fun _ => True) fun _ => True := by
  induction reach with
  | refl => exact sound_of_new new
  | tail _ hstep ih => exact hstep.sound ih fun _ _ => trivial

end Scenes

end Pipe
end Courier
