import Courier.Proofs.Pipe.Scene

/-!
The files in the buffer and those who tend them. A file that was taken on is tended by one transfer
or by one entry of the retry queue until it leaves the buffer, and nobody tends a file that is
neither buffered nor released.
-/

namespace Courier

open Transfer

namespace Pipe

variable {P : Type}

/-- Whether an item will see to it that an event is transferred. -/
def Item.tends (id : EventId) : Item → Nat
  | .attempt a _ => if a.event.id = id then 1 else 0
  | .failed e | .retry e => if e.id = id then 1 else 0
  | .waiting _ | .deferred _ | .spent _ | .sending _ _ _ | .guest _ => 0

def Books.tenders (b : Books P) (id : EventId) : Nat := Item.total (Item.tends id) b.items

/-- Every buffered file is tended once, and every file that is tended is buffered. -/
structure Books.Custody (events : EventId → Event) (b : Books P) : Prop where
  keys : (b.buffer.map Prod.fst).Nodup
  filed : ∀ commit e, (commit, e) ∈ b.buffer → commit = e.event.commit ∧ e.event.isBulk = true
  live : ∀ commit e, (commit, e) ∈ b.buffer → (b.ledger.get e.id).released = false
  single : ∀ commit e, (commit, e) ∈ b.buffer → b.tenders e.id = 1
  present : ∀ id, (events id).isBulk = true → (b.ledger.get id).released = false →
    0 < b.tenders id → ((events id).commit, ⟨id, events id⟩) ∈ b.buffer
  light : ∀ e ∈ b.batch, e.event.isBulk = false
  lightSent : ∀ sent payload asked, .sending sent payload asked ∈ b.items →
    ∀ e ∈ sent, e.event.isBulk = false
  shut : b.closed = true → b.buffer = []

variable {events : EventId → Event} {owned : EventId → Nat} {b b' : Books P}

theorem Books.Custody.buffered?_eq (hb : b.Custody events) {commit : CommitId} {e : EventRef}
    (he : (commit, e) ∈ b.buffer) : b.buffered? commit = some e := by
  obtain ⟨before, after, hbuffer⟩ := List.append_of_mem he
  have hkeys := hb.keys
  rw [hbuffer, List.map_append, List.map_cons] at hkeys
  have hbefore : ∀ entry ∈ before, (commit != entry.1) = true := by
    intro entry hentry
    have hdisjoint := (List.nodup_append.mp hkeys).2.2 entry.1 (List.mem_map_of_mem hentry) commit
      (List.mem_cons_self ..)
    simpa using Ne.symm hdisjoint
  exact List.lookup_eq_some_iff.mpr ⟨before, after, hbuffer, hbefore⟩

/-- Custody goes on while the buffer stays as it is. -/
theorem Books.Custody.next (hb : b.Custody events) (buffer : b'.buffer = b.buffer)
    (closed : b'.closed = true → b.closed = true)
    (unreleased : ∀ id, (b'.ledger.get id).released = false → (b.ledger.get id).released = false)
    (live : ∀ commit e, (commit, e) ∈ b.buffer → (b'.ledger.get e.id).released = false)
    (fewer : ∀ id, (events id).isBulk = true → b'.tenders id ≤ b.tenders id)
    (single : ∀ commit e, (commit, e) ∈ b.buffer → b'.tenders e.id = b.tenders e.id)
    (light : ∀ e ∈ b'.batch, e.event.isBulk = false)
    (lightSent : ∀ sent payload asked, .sending sent payload asked ∈ b'.items →
      ∀ e ∈ sent, e.event.isBulk = false) :
    b'.Custody events := by
  refine ⟨?_, ?_, ?_, ?_, ?_, light, lightSent, ?_⟩
  · rw [buffer]
    exact hb.keys
  · rw [buffer]
    exact hb.filed
  · rw [buffer]
    exact live
  · rw [buffer]
    exact fun commit e he => (single commit e he).trans (hb.single commit e he)
  · intro id hbulk hreleased htended
    rw [buffer]
    exact hb.present id hbulk (unreleased id hreleased)
      (Nat.lt_of_lt_of_le htended (fewer id hbulk))
  · intro hclosed
    rw [buffer]
    exact hb.shut (closed hclosed)

/-- What the ledger counts is of no matter to custody, only what it says is released. -/
theorem Books.Custody.recounted (hb : b.Custody events) {ledger : Ledger}
    (unreleased : ∀ id, (ledger.get id).released = false → (b.ledger.get id).released = false)
    (live : ∀ commit e, (commit, e) ∈ b.buffer → (ledger.get e.id).released = false) :
    ({ b with ledger := ledger } : Books P).Custody events :=
  hb.next rfl (fun h => h) unreleased live (fun _ _ => Nat.le_refl _) (fun _ _ _ => rfl) hb.light
    hb.lightSent

theorem Books.Custody.of_released_eq (hb : b.Custody events) {ledger : Ledger}
    (same : ∀ id, (ledger.get id).released = (b.ledger.get id).released) :
    ({ b with ledger := ledger } : Books P).Custody events := by
  refine hb.recounted ?_ ?_
  · exact fun id hreleased => (same id).symm.trans hreleased
  · exact fun commit e he => (same e.id).trans (hb.live commit e he)

/-- What is given into a hand is no transfer, and no file in a batch. -/
theorem Books.Custody.handed (hb : b.Custody events) {x : Item} (idle : ∀ id, x.tends id = 0)
    (light : ∀ sent payload asked, x = .sending sent payload asked →
      ∀ e ∈ sent, e.event.isBulk = false) :
    (b.handed x).Custody events := by
  have htenders (id : EventId) : (b.handed x).tenders id = b.tenders id := by
    simp only [Books.tenders, Books.handed, Item.total_cons, idle, Nat.zero_add]
  refine hb.next rfl id (fun _ h => h) hb.live ?_ ?_ hb.light ?_
  · exact fun id _ => Nat.le_of_eq (htenders id)
  · exact fun commit e _ => htenders e.id
  · intro sent payload asked hmem
    rcases Multiset.mem_cons.mp hmem with heq | hmem
    · exact light sent payload asked heq.symm
    · exact hb.lightSent sent payload asked hmem

theorem total_tends_spent (id : EventId) (sent : List EventRef) :
    Item.total (Item.tends id) ↑(sent.map Item.spent) = 0 := by
  refine Item.total_eq_zero fun x hx => ?_
  obtain ⟨e, _, rfl⟩ := List.mem_map.mp hx
  rfl

theorem total_tends_failed {id : EventId} {sent : List EventRef} (h : ∀ e ∈ sent, e.id ≠ id) :
    Item.total (Item.tends id) ↑(sent.map Item.failed) = 0 := by
  refine Item.total_eq_zero fun x hx => ?_
  obtain ⟨e, he, rfl⟩ := List.mem_map.mp hx
  exact if_neg (h e he)

/-- A buffered file has a reference of its own, so it outlives the drop of another. -/
theorem Books.Custody.live_of_drop (hb : b.Custody events) (ha : b.Accounted events owned)
    {e : EventRef} {rest : Multiset Item} (here : b.items = .spent e ::ₘ rest)
    {commit : CommitId} {e' : EventRef} (he' : (commit, e') ∈ b.buffer) :
    ((b.ledger.drop e.id).1.get e'.id).released = false := by
  have hknown := (ha.known e (Books.mentions_of_cons here rfl)).1
  have hknown' := (ha.known e' (.inr (.inr ⟨commit, he'⟩))).1
  have hlive := hb.live commit e' he'
  refine Bool.eq_false_iff.mpr fun hreleased => ?_
  obtain ⟨hsame, hcount⟩ := Ledger.released_of_drop hknown hlive hreleased
  have hcounted := ha.counted e'.id hknown' hlive
  have hplace : 0 < b.buffer.countP fun entry => entry.2.id = e'.id :=
    List.countP_pos_iff.mpr ⟨_, he', by simp⟩
  simp only [Books.held, here, Item.total_cons, Item.held, hsame, if_true] at hcounted
  omega

theorem Books.Custody.takenOn (hb : b.Custody events) (ha : b.Accounted events owned)
    {e : EventRef} (mentioned : b.Mentions e) (unclosed : b.closed = false)
    {settings : Transfer.Settings} {now : Nat} {a : Attempt}
    (prepared : Attempt.prepare e settings now = .ok a)
    (took : (b.ledger.hold e.id).2 = true) (free : b.buffered? e.event.commit = none) :
    ({ b with
      ledger := (b.ledger.hold e.id).1
      buffer := b.buffer ++ [(e.event.commit, e)]
      items := .attempt a none ::ₘ b.items } : Books P).Custody events := by
  obtain ⟨hknown, hevent⟩ := ha.known e mentioned
  obtain ⟨hattempt, hbulk⟩ := Attempt.prepare_event prepared
  have hreleased (id : EventId) : ((b.ledger.hold e.id).1.get id).released =
      (b.ledger.get id).released := (Ledger.get_hold hknown took id).2.1
  have hlive : (b.ledger.get e.id).released = false := by
    refine Bool.eq_false_iff.mpr fun hr => ?_
    have hzero := (ha.sane e.id).count_eq_zero_of_released hr
    have hpos := Lifecycle.hold_eq_true_iff.mp took
    omega
  have hfree {e' : EventRef} : (e.event.commit, e') ∉ b.buffer := by
    intro he'
    rw [hb.buffered?_eq he'] at free
    cases free
  -- A file that somebody tends is buffered, and its place is free.
  have hidle : b.tenders e.id = 0 := by
    refine Nat.eq_zero_of_not_pos fun hpos => ?_
    have hpresent := hb.present e.id (hevent ▸ hbulk) hlive hpos
    rw [← hevent] at hpresent
    exact hfree hpresent
  have hother {commit : CommitId} {e' : EventRef} (he' : (commit, e') ∈ b.buffer) :
      e.id ≠ e'.id := by
    intro hsame
    have hevent' := (ha.known e' (.inr (.inr ⟨commit, he'⟩))).2
    have hcommit := (hb.filed commit e' he').1
    rw [hevent', ← hsame, ← hevent] at hcommit
    exact hfree (hcommit ▸ he')
  have htenders (id : EventId) : Item.total (Item.tends id) (.attempt a none ::ₘ b.items) =
      (if e.id = id then 1 else 0) + b.tenders id := by
    rw [Item.total_cons]
    simp only [Item.tends, hattempt]
    rfl
  refine ⟨?_, ?_, ?_, ?_, ?_, hb.light, ?_, ?_⟩
  · rw [List.map_append, List.map_singleton, List.nodup_append]
    refine ⟨hb.keys, List.nodup_singleton _, fun commit hcommit other hother' => ?_⟩
    rw [List.mem_singleton.mp hother']
    rintro rfl
    obtain ⟨⟨_, e'⟩, he', rfl⟩ := List.mem_map.mp hcommit
    exact hfree he'
  · intro commit e' he'
    rcases List.mem_append.mp he' with he' | he'
    · exact hb.filed commit e' he'
    · cases List.mem_singleton.mp he'
      exact ⟨rfl, hbulk⟩
  · intro commit e' he'
    rw [hreleased]
    rcases List.mem_append.mp he' with he' | he'
    · exact hb.live commit e' he'
    · cases List.mem_singleton.mp he'
      exact hlive
  · intro commit e' he'
    rw [Books.tenders, htenders]
    rcases List.mem_append.mp he' with he' | he'
    · rw [if_neg (hother he'), Nat.zero_add]
      exact hb.single commit e' he'
    · cases List.mem_singleton.mp he'
      rw [if_pos rfl, hidle]
  · intro id hid hrel htended
    rw [hreleased] at hrel
    rw [Books.tenders, htenders] at htended
    by_cases hsame : e.id = id
    · subst hsame
      refine List.mem_append_right _ (List.mem_singleton.mpr ?_)
      rw [← hevent]
    · rw [if_neg hsame, Nat.zero_add] at htended
      exact List.mem_append_left _ (hb.present id hid hrel htended)
  · intro sent payload asked hsent
    rcases Multiset.mem_cons.mp hsent with heq | hsent
    · cases heq
    · exact hb.lightSent sent payload asked hsent
  · intro hclosed
    rw [show b.closed = true from hclosed] at unclosed
    cases unclosed

/-- The one who tends a file takes it out of the buffer, and then nobody tends it. -/
theorem Books.Custody.freed (hb : b.Custody events) (ha : b.Accounted events owned) {x : Item}
    {e found : EventRef} {rest : Multiset Item} (here : b.items = x ::ₘ rest)
    (why : Done b x e) (there : b.buffered? e.event.commit = some found) (same : found.id = e.id) :
    ({ b with
      buffer := b.buffer.filter fun entry => entry.1 != e.event.commit
      items := .spent e ::ₘ rest } : Books P).Custody events := by
  have hx : x ∈ b.items := here ▸ Multiset.mem_cons_self _ _
  have hmem := Books.mem_of_buffered? there
  have htends : x.tends = fun id => if e.id = id then 1 else 0 := by
    cases why <;> rfl
  have htenders (id : EventId) : b.tenders id =
      (if e.id = id then 1 else 0) + Item.total (Item.tends id) (.spent e ::ₘ rest) := by
    rw [Books.tenders, here, Item.total_cons, Item.total_cons]
    simp only [Item.tends, Nat.zero_add]
    exact congrArg (· + _) (congrFun htends id)
  have hother {commit : CommitId} {e' : EventRef} (he' : (commit, e') ∈ b.buffer)
      (hid : e'.id = e.id) : commit = e.event.commit := by
    have hevent' := (ha.known e' (.inr (.inr ⟨commit, he'⟩))).2
    have hfound := (ha.known found (.inr (.inr ⟨_, hmem⟩))).2
    rw [(hb.filed commit e' he').1, (hb.filed _ found hmem).1, hevent', hfound, hid, same]
  refine ⟨?_, ?_, ?_, ?_, ?_, hb.light, ?_, ?_⟩
  · exact hb.keys.sublist (List.filter_sublist.map Prod.fst)
  · exact fun commit e' he' => hb.filed commit e' (List.mem_filter.mp he').1
  · exact fun commit e' he' => hb.live commit e' (List.mem_filter.mp he').1
  · intro commit e' he'
    obtain ⟨he', hkey⟩ := List.mem_filter.mp he'
    have hne : e.id ≠ e'.id := fun hid => by simp [hother he' hid.symm] at hkey
    have hsingle := hb.single commit e' he'
    rw [htenders, if_neg hne, Nat.zero_add] at hsingle
    exact hsingle
  · intro id hbulk hreleased htended
    have htended' : 0 < Item.total (Item.tends id) (.spent e ::ₘ rest) := htended
    have hsingle := hb.single _ found hmem
    rw [htenders, same, if_pos rfl] at hsingle
    have hne : e.id ≠ id := by
      rintro rfl
      omega
    have hpresent := hb.present id hbulk hreleased (by rw [htenders]; omega)
    refine List.mem_filter.mpr ⟨hpresent, bne_iff_ne.mpr fun hkey => hne ?_⟩
    have hfound := hb.buffered?_eq hpresent
    rw [show (events id).commit = e.event.commit from hkey, there] at hfound
    rw [← same, Option.some.inj hfound]
  · intro sent payload asked hsent
    rcases Multiset.mem_cons.mp hsent with heq | hsent
    · cases heq
    · exact hb.lightSent sent payload asked (here ▸ Multiset.mem_cons_of_mem hsent)
  · intro hclosed
    simp [hb.shut hclosed]

variable [Batch.Payload P] {lossy : Prop}

/-- A file is tended as before, or it was released or is not in the buffer. -/
theorem Turn.tends {x y rest : Multiset Item} (h : Turn lossy b x y) (here : b.items = x + rest)
    (ha : b.Accounted events owned) (hb : b.Custody events) {id : EventId}
    (bulk : (events id).isBulk = true) :
    Item.total (Item.tends id) y = Item.total (Item.tends id) x ∨
      Item.total (Item.tends id) y ≤ Item.total (Item.tends id) x ∧
        ((b.ledger.get id).released = true ∨
          ∀ found, b.buffered? (events id).commit = some found → found.id ≠ id) := by
  have hmem {i : Item} (hi : {i} = x) : i ∈ b.items :=
    here ▸ Multiset.mem_add.mpr (.inl (hi ▸ Multiset.mem_singleton_self i))
  have hknown {i : Item} {e : EventRef} (hi : {i} = x) (he : i.Mentions e) :
      e.event = events e.id := (ha.known e (.inl ⟨i, hmem hi, he⟩)).2
  have hheavy {i : Item} {e : EventRef} (hi : {i} = x) (he : i.Mentions e)
      (hlight : e.event.isBulk = false) : e.id ≠ id := by
    rintro rfl
    rw [hknown hi he, bulk] at hlight
    cases hlight
  cases h with
  | routed | deferred | offeredAgain | mislaid | asksTablets | asksPiece | failedAttempt
  | requeued => exact .inl rfl
  | acknowledged | abandoned => exact .inl (total_tends_spent id _)
  | failedTablets =>
      refine .inl (total_tends_failed fun e he => hheavy rfl he ?_)
      exact hb.lightSent _ _ _ (hmem rfl) e he
  | @lapsed a request took gone =>
      by_cases hsame : a.event.id = id
      · refine .inr ⟨Nat.zero_le _, .inr ?_⟩
        subst hsame
        rw [← hknown rfl rfl]
        exact gone
      · simp [Item.tends, hsame]
  | @forgotten e released | @skipped e released =>
      by_cases hsame : e.id = id
      · exact .inr ⟨Nat.zero_le _, .inl (hsame ▸ released)⟩
      · simp [Item.tends, hsame]
  | @resumedFile e settings now a prepared =>
      rw [Item.total_singleton, Item.total_singleton]
      simp only [Item.tends, (Attempt.prepare_event prepared).1, true_or]
  | @lostFile e _ settings now error failed gone =>
      by_cases hsame : e.id = id
      · refine .inr ⟨Nat.zero_le _, .inr ?_⟩
        subst hsame
        rw [← hknown rfl rfl]
        exact gone
      · simp [Item.tends, hsame]
  | @resumedTablet e t content payload encoded =>
      have hne : e.id ≠ id := hheavy rfl rfl (Event.isBulk_of_tablet content)
      simp [Item.tends, hne]
  | @unencodable e light failed =>
      have hne : e.id ≠ id := hheavy rfl rfl light
      simp [Item.tends, hne]

theorem Turn.lightSent {x y rest : Multiset Item} (h : Turn lossy b x y) (here : b.items = x + rest)
    (hb : b.Custody events) {sent : List EventRef} {payload : Bytes} {asked : Option Request}
    (hy : .sending sent payload asked ∈ y) : ∀ e ∈ sent, e.event.isBulk = false := by
  rcases h.sending hy with ⟨asked, hx⟩ | ⟨e, t, plain, rfl, -, hcontent, -, -⟩
  · exact hb.lightSent _ _ _ (here ▸ Multiset.mem_add.mpr (.inl hx))
  · intro e' he'
    rw [List.mem_singleton.mp he']
    exact Event.isBulk_of_tablet hcontent

theorem Move.custody (h : Move lossy b b') (ha : b.Accounted events owned) (hb : b.Custody events) :
    b'.Custody events := by
  have hsent {rest : Multiset Item} {x : Item} (here : b.items = x ::ₘ rest)
      (sent : List EventRef) (payload : Bytes) (asked : Option Request)
      (h : .sending sent payload asked ∈ rest) : ∀ e ∈ sent, e.event.isBulk = false :=
    hb.lightSent sent payload asked (here ▸ Multiset.mem_cons_of_mem h)
  have hspent {rest : Multiset Item} {e : EventRef} (here : b.items = .spent e ::ₘ rest)
      (id : EventId) : Item.total (Item.tends id) rest = b.tenders id := by
    rw [Books.tenders, here, Item.total_cons]
    exact (Nat.zero_add _).symm
  cases h with
  | noted | spawned | retired | tried =>
      exact ⟨hb.keys, hb.filed, hb.live, hb.single, hb.present, hb.light, hb.lightSent, hb.shut⟩
  | retuned same => exact hb.of_released_eq same.released
  | @turned x y rest here turn =>
      have htenders (id : EventId) : b.tenders id =
          Item.total (Item.tends id) x + Item.total (Item.tends id) rest := by
        rw [Books.tenders, here, Item.total_add]
      refine hb.next rfl id (fun _ h => h) hb.live ?_ ?_ hb.light ?_
      · intro id hbulk
        have hle : Item.total (Item.tends id) y ≤ Item.total (Item.tends id) x := by
          rcases turn.tends here ha hb hbulk with heq | ⟨hle, _⟩
          · exact Nat.le_of_eq heq
          · exact hle
        rw [htenders, Books.tenders, Item.total_add]
        exact Nat.add_le_add_right hle _
      · intro commit e he
        obtain ⟨hcommit, hbulk⟩ := hb.filed commit e he
        have hevent := (ha.known e (.inr (.inr ⟨commit, he⟩))).2
        rw [htenders, Books.tenders, Item.total_add]
        rcases turn.tends here ha hb (hevent ▸ hbulk) with heq | ⟨_, hreleased | hgone⟩
        · rw [heq]
        · rw [hb.live commit e he] at hreleased
          cases hreleased
        · rw [← hevent, ← hcommit] at hgone
          exact absurd rfl (hgone e (hb.buffered?_eq he))
      · intro sent payload asked hmem
        rcases Multiset.mem_add.mp hmem with hmem | hmem
        · exact turn.lightSent here hb hmem
        · exact hb.lightSent sent payload asked (here ▸ Multiset.mem_add.mpr (.inr hmem))
  | @held e mentioned took =>
      have hknown := (ha.known e mentioned).1
      have hheld := hb.of_released_eq fun id => (Ledger.get_hold hknown took id).2.1
      exact hheld.handed (x := .spent e) (fun _ => rfl) fun _ _ _ heq => by cases heq
  | @dropped e rest here =>
      have hknown := (ha.known e (Books.mentions_of_cons here rfl)).1
      refine hb.next rfl id ?_ ?_ ?_ ?_ hb.light (hsent here)
      · exact fun id h => (Ledger.unreleased_of_drop ha.sane hknown h).1
      · exact fun commit e' he' => hb.live_of_drop ha here he'
      · exact fun id _ => Nat.le_of_eq (hspent here id)
      · exact fun commit e' _ => hspent here e'.id
  | @cleared e rest here closed =>
      have hknown := (ha.known e (Books.mentions_of_cons here rfl)).1
      have hnone {commit : CommitId} {e' : EventRef} (he' : (commit, e') ∈ b.buffer) : False := by
        rw [hb.shut closed] at he'
        cases he'
      refine hb.next rfl id ?_ ?_ ?_ ?_ hb.light (hsent here)
      · intro id hreleased
        rw [← (Ledger.unreleased_of_clear ha.sane hknown hreleased).2]
        exact hreleased
      · exact fun commit e' he' => (hnone he').elim
      · intro id _
        rw [Books.tenders, Books.tenders, here, Item.total_cons]
        exact Nat.le_add_left _ _
      · exact fun commit e' he' => (hnone he').elim
  | @kept e payload rest here light =>
      refine hb.next rfl id (fun _ h => h) hb.live ?_ ?_ ?_ (hsent here)
      · exact fun id _ => Nat.le_of_eq (hspent here id)
      · exact fun commit e' _ => hspent here e'.id
      · intro e' he'
        rcases List.mem_append.mp he' with he' | he'
        · exact hb.light e' he'
        · rw [List.mem_singleton.mp he']
          exact light
  | emitted =>
      have hsending := hb.handed (x := .sending b.batch (Batch.Payload.take b.payload).2 none)
        (fun _ => rfl) fun _ _ _ heq => by cases heq; exact hb.light
      exact hsending.next rfl id (fun _ h => h) hsending.live (fun _ _ => Nat.le_refl _)
        (fun _ _ _ => rfl) (fun e he => absurd he List.not_mem_nil) hsending.lightSent
  | takenOn mentioned unclosed prepared took free =>
      exact hb.takenOn ha mentioned unclosed prepared took free
  | freed here why there same => exact hb.freed ha here why there same

end Pipe
end Courier
