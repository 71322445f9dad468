import Courier.Proofs.Batch.Payload
import Courier.Proofs.Pipe.Scene

/-!
No event is released before the peer has what it carries. An event that is not released and not
secured lies somewhere with a reference, so that a last reference is only dropped once the event is
secured: sent in a batch that was taken, refused for good, or sealed.
-/

namespace Courier

open Transfer Batch

namespace Pipe

/-- The peer accepted a request, or its refusal says that the request was applied before. -/
def Acknowledges (r : Response) : Prop :=
  r.isAccepted = true ∨ r.status.code = .idempotentConflict

def encodings (sent : List EventRef) : Bytes := sent.flatMap fun e => encoding e.event

/-- A batch with the encoding of a tablet in it was acknowledged. -/
def SentIn (trace : List Occurrence) (e : EventRef) : Prop :=
  ∃ batch r sent, .answered (.tablets batch) (.ok r) ∈ trace ∧ Acknowledges r ∧ e ∈ sent ∧
    batch.payload = encodings sent

/-- The batch said that it will never take an event. -/
def RefusedForGood (trace : List Occurrence) (e : EventRef) : Prop :=
  ∃ error, .refused e error ∈ trace ∧ error.isPermanent = true

def SealedAs (trace : List Occurrence) (commit : CommitId) : Prop :=
  ∃ s r, .answered (.seal s) (.ok r) ∈ trace ∧ Acknowledges r ∧ s.commit = commit

/-- Nothing more needs to be kept of an event. -/
def Secured (trace : List Occurrence) (e : EventRef) : Prop :=
  match e.event.content with
  | .tablet _ => SentIn trace e ∨ RefusedForGood trace e
  | .file _ => SealedAs trace e.event.commit
  | .heartbeat _ => True

/-- Files have commits of their own, and names that the peer can be told. -/
structure WellNamed (events : EventId → Event) : Prop where
  distinct : ∀ i j, (events i).isBulk = true → (events j).isBulk = true →
    (events i).commit = (events j).commit → i = j
  named : ∀ i f, (events i).content = .file f →
    ∃ data mods, f.dataName = .ok data ∧ f.modsName = .ok mods

variable {events : EventId → Event} {owned : EventId → Nat} {b b' : Books PlainPayload}
  {lossy : Prop}

section Secured

variable {trace trace' : List Occurrence} {e : EventRef}

theorem Secured.mono (h : Secured trace e) (hsub : trace ⊆ trace') : Secured trace' e := by
  unfold Secured at h ⊢
  cases hcontent : e.event.content with
  | heartbeat created => trivial
  | tablet t =>
      rw [hcontent] at h
      rcases h with ⟨batch, r, sent, hanswered, hrest⟩ | ⟨error, hrefused, hpermanent⟩
      · exact .inl ⟨batch, r, sent, hsub hanswered, hrest⟩
      · exact .inr ⟨error, hsub hrefused, hpermanent⟩
  | file f =>
      rw [hcontent] at h
      obtain ⟨s, r, hanswered, hrest⟩ := h
      exact ⟨s, r, hsub hanswered, hrest⟩

theorem secured_of_heartbeat (h : e.event.isHeartbeat = true) : Secured trace e := by
  unfold Secured
  cases hcontent : e.event.content with
  | heartbeat created => trivial
  | tablet t => rw [Event.isHeartbeat, hcontent] at h; cases h
  | file f => rw [Event.isHeartbeat, hcontent] at h; cases h

theorem secured_of_refused (light : e.event.isBulk = false) (h : RefusedForGood trace e) :
    Secured trace e := by
  unfold Secured
  cases hcontent : e.event.content with
  | heartbeat created => trivial
  | tablet t => exact .inr h
  | file f =>
      rw [Event.isBulk_of_file hcontent] at light
      cases light

theorem secured_of_sent (light : e.event.isBulk = false) (h : SentIn trace e) :
    Secured trace e := by
  unfold Secured
  cases hcontent : e.event.content with
  | heartbeat created => trivial
  | tablet t => exact .inl h
  | file f =>
      rw [Event.isBulk_of_file hcontent] at light
      cases light

theorem secured_of_sealed (bulk : e.event.isBulk = true) (h : SealedAs trace e.event.commit) :
    Secured trace e := by
  obtain ⟨f, hcontent⟩ := Event.content_of_isBulk bulk
  rw [Secured, hcontent]
  exact h

end Secured

/-- What lies in a place is what belongs there. -/
def Item.IsProper : Item → Prop
  | .deferred _ => False
  | .sending sent payload asked =>
      payload = encodings sent ∧ (∀ e ∈ sent, PlainPayload.Takes e.event) ∧
        ∀ request, asked = some request → ∃ batch, request = .tablets batch ∧
          batch.payload = payload
  | .attempt a asked =>
      ∀ request, asked = some (.seal, request) → ∃ s, request = .seal s ∧
        s.commit = a.event.event.commit
  | .failed e | .retry e => e.event.isBulk = true ∨ PlainPayload.Takes e.event
  | .waiting _ | .spent _ | .guest _ => True

/-- Batch, buffer and requests are what they should be, and nothing was closed. -/
structure Books.Orderly (b : Books PlainPayload) : Prop where
  unclosed : b.closed = false
  batchOpen : b.batchClosed = false
  policy : b.policy = .tolerateConflicts
  encoded : b.payload.bytes = encodings b.batch
  taken : ∀ e ∈ b.batch, PlainPayload.Takes e.event
  proper : ∀ x ∈ b.items, x.IsProper
  filed : ∀ commit e, (commit, e) ∈ b.buffer → commit = e.event.commit ∧ e.event.isBulk = true

theorem acknowledges_of_took (policy : b.policy = .tolerateConflicts) {request : Request}
    (h : b.Took request) : ∃ r, .answered request (.ok r) ∈ b.trace ∧ Acknowledges r := by
  obtain ⟨r, name, hanswered, htaken⟩ := h
  refine ⟨r, hanswered, ?_⟩
  rw [policy] at htaken
  rcases Bool.or_eq_true_iff.mp htaken with haccepted | htolerated
  · exact .inl haccepted
  · refine .inr ?_
    simp only [StatusPolicy.handle] at htolerated
    split at htolerated
    · rename_i hconflict
      exact of_decide_eq_true hconflict
    · cases htolerated

section Turns

variable {x y : Multiset Item}

theorem Turn.proper (h : Turn lossy b x y) (hx : ∀ i ∈ x, i.IsProper)
    (bulky : ∀ a asked, .attempt a asked ∈ x → a.event.event.isBulk = true) :
    ∀ i ∈ y, i.IsProper := by
  have hone {i : Item} (hi : i.IsProper) : ∀ j ∈ ({i} : Multiset Item), j.IsProper := by
    intro j hj
    rw [Multiset.mem_singleton.mp hj]
    exact hi
  have hthis {i : Item} (hi : {i} = x) : i.IsProper := hx i (hi ▸ Multiset.mem_singleton_self i)
  cases h with
  | mislaid | lapsed | forgotten | skipped | lostFile =>
      intro i hi
      cases hi
  | routed | unencodable | offeredAgain => exact hone trivial
  | deferred failed transient =>
      rw [PlainPayload.construct_error failed] at transient
      cases transient
  | asksTablets same =>
      obtain ⟨hpayload, htakes, _⟩ := hthis rfl
      refine hone ⟨hpayload, htakes, fun request hrequest => ?_⟩
      cases hrequest
      exact ⟨_, rfl, same⟩
  | acknowledged | abandoned =>
      intro i hi
      obtain ⟨e, _, rfl⟩ := List.mem_map.mp hi
      trivial
  | failedTablets =>
      obtain ⟨_, htakes, _⟩ := hthis rfl
      intro i hi
      obtain ⟨e, he, rfl⟩ := List.mem_map.mp hi
      exact .inr (htakes e he)
  | asksPiece due =>
      refine hone fun request hrequest => ?_
      cases hrequest
      exact Attempt.commit_of_next due
  | failedAttempt => exact hone (.inl (bulky _ _ (Multiset.mem_singleton_self _)))
  | @requeued e unclosed unreleased =>
      have hfailed : (Item.failed e).IsProper := hthis rfl
      exact hone hfailed
  | resumedFile prepared => exact hone fun request hrequest => by cases hrequest
  | resumedTablet content encoded =>
      obtain ⟨htakes, hbytes⟩ := PlainPayload.construct_ok_true encoded
      refine hone ⟨?_, ?_, fun request hrequest => by cases hrequest⟩
      · rw [hbytes]
        simp [encodings]
      · intro e he
        rw [List.mem_singleton.mp he]
        exact htakes

end Turns

theorem Move.orderly (h : Move lossy b b') (ha : b.Accounted events owned) (hb : b.Orderly) :
    b'.Orderly := by
  obtain ⟨unclosed, batchOpen, policy, encoded, taken, proper, filed⟩ := hb
  cases h with
  | noted | retuned | spawned | retired =>
      exact ⟨unclosed, batchOpen, policy, encoded, taken, proper, filed⟩
  | @turned x y rest here turn =>
      refine ⟨unclosed, batchOpen, policy, encoded, taken, fun i hi => ?_, filed⟩
      rcases Multiset.mem_add.mp hi with hi | hi
      · refine turn.proper (fun j hj => proper j ?_) (fun a asked h => ha.bulky a asked ?_) i hi
        · exact here ▸ Multiset.mem_add.mpr (.inl hj)
        · exact here ▸ Multiset.mem_add.mpr (.inl h)
      · exact proper i (here ▸ Multiset.mem_add.mpr (.inr hi))
  | held =>
      refine ⟨unclosed, batchOpen, policy, encoded, taken, fun i hi => ?_, filed⟩
      rcases Multiset.mem_cons.mp hi with rfl | hi
      · trivial
      · exact proper i hi
  | dropped here | cleared here =>
      refine ⟨unclosed, batchOpen, policy, encoded, taken, fun i hi => ?_, filed⟩
      exact proper i (here ▸ Multiset.mem_cons_of_mem hi)
  | tried constructed without =>
      have hsame := PlainPayload.construct_without constructed without
      subst hsame
      exact ⟨unclosed, batchOpen, policy, encoded, taken, proper, filed⟩
  | @kept e payload rest here light batchOpen live constructed =>
      obtain ⟨htakes, hbytes⟩ := PlainPayload.construct_ok_true constructed
      refine ⟨unclosed, batchOpen, policy, ?_, ?_, fun i hi => ?_, filed⟩
      · rw [hbytes, encoded]
        simp [encodings]
      · intro e' he'
        rcases List.mem_append.mp he' with he' | he'
        · exact taken e' he'
        · rw [List.mem_singleton.mp he']
          exact htakes
      · exact proper i (here ▸ Multiset.mem_cons_of_mem hi)
  | emitted =>
      refine ⟨unclosed, batchOpen, policy, rfl, ?_, fun i hi => ?_, filed⟩
      · intro e he
        cases he
      · rcases Multiset.mem_cons.mp hi with rfl | hi
        · exact ⟨encoded, taken, fun request hrequest => by cases hrequest⟩
        · exact proper i hi
  | takenOn mentioned _ prepared =>
      refine ⟨unclosed, batchOpen, policy, encoded, taken, fun i hi => ?_, fun commit e he => ?_⟩
      · rcases Multiset.mem_cons.mp hi with rfl | hi
        · intro request hrequest
          cases hrequest
        · exact proper i hi
      · rcases List.mem_append.mp he with he | he
        · exact filed commit e he
        · cases List.mem_singleton.mp he
          exact ⟨rfl, (Attempt.prepare_event prepared).2⟩
  | freed here =>
      refine ⟨unclosed, batchOpen, policy, encoded, taken, fun i hi => ?_, fun commit e he => ?_⟩
      · rcases Multiset.mem_cons.mp hi with rfl | hi
        · trivial
        · exact proper i (here ▸ Multiset.mem_cons_of_mem hi)
      · exact filed commit e (List.mem_filter.mp he).1

def Item.kept (id : EventId) : Item → Nat
  | .spent _ => 0
  | x => x.held id

def Books.kept (b : Books PlainPayload) (id : EventId) : Nat :=
  Item.total (Item.kept id) b.items + b.batch.countP (fun e => e.id = id) +
    b.buffer.countP fun entry => entry.2.id = id

/-- An event that is not released is secured or kept, and one that is released is secured. -/
structure Books.Safe (events : EventId → Event) (owned : EventId → Nat)
    (b : Books PlainPayload) : Prop where
  kept : ∀ id, id < b.ledger.entries.size → (b.ledger.get id).released = false →
    Secured b.trace ⟨id, events id⟩ ∨ 0 < owned id ∨ 0 < b.kept id
  secured : ∀ id, (b.ledger.get id).released = true → Secured b.trace ⟨id, events id⟩

theorem Item.kept_le_held (id : EventId) (xs : Multiset Item) :
    Item.total (Item.kept id) xs ≤ Item.total (Item.held id) xs := by
  induction xs using Multiset.induction_on with
  | empty => exact Nat.le_refl 0
  | cons x xs ih =>
      rw [Item.total_cons, Item.total_cons]
      refine Nat.add_le_add ?_ ih
      cases x with
      | spent e => exact Nat.zero_le _
      | _ => exact Nat.le_refl _

theorem Books.Safe.next (hs : b.Safe events owned) (trace : b.trace ⊆ b'.trace)
    (size : b'.ledger.entries.size = b.ledger.entries.size)
    (released : ∀ id, (b'.ledger.get id).released = (b.ledger.get id).released)
    (kept : ∀ id, (b.ledger.get id).released = false → 0 < b.kept id →
      Secured b'.trace ⟨id, events id⟩ ∨ 0 < b'.kept id) :
    b'.Safe events owned := by
  refine ⟨fun id hid hreleased => ?_, fun id hreleased => ?_⟩
  · rw [size] at hid
    rw [released] at hreleased
    rcases hs.kept id hid hreleased with hsecured | howned | hkept
    · exact .inl (hsecured.mono trace)
    · exact .inr (.inl howned)
    · rcases kept id hreleased hkept with hsecured | hkept
      · exact .inl hsecured
      · exact .inr (.inr hkept)
  · rw [released] at hreleased
    exact (hs.secured id hreleased).mono trace

/-- With names for all its files, a transfer can always be prepared. -/
theorem WellNamed.prepares (h : WellNamed events) {e : EventRef} (known : e.event = events e.id)
    (bulk : e.event.isBulk = true) {settings : Transfer.Settings} {now : Nat}
    {error : TransferError} :
    Attempt.prepare e settings now ≠ .error error := by
  obtain ⟨f, hcontent⟩ := Event.content_of_isBulk bulk
  obtain ⟨data, mods, hdata, hmods⟩ := h.named e.id f (known ▸ hcontent)
  simp [Attempt.prepare, hcontent, hdata, hmods]

/-- A place in the buffer that is taken is taken by the file itself. -/
theorem WellNamed.buffered_self (h : WellNamed events) (ha : b.Accounted events owned)
    (hb : b.Orderly) {e : EventRef} (known : e.event = events e.id) (bulk : e.event.isBulk = true)
    (taken : (b.buffered? e.event.commit).isSome = true) :
    0 < b.buffer.countP fun entry => entry.2.id = e.id := by
  obtain ⟨found, hfound⟩ := Option.isSome_iff_exists.mp taken
  have hmem := Books.mem_of_buffered? hfound
  obtain ⟨hcommit, hbulk⟩ := hb.filed _ _ hmem
  have hknown := (ha.known found (.inr (.inr ⟨_, hmem⟩))).2
  have hsame : found.id = e.id := by
    refine h.distinct _ _ ?_ ?_ ?_
    · rw [← hknown]
      exact hbulk
    · rw [← known]
      exact bulk
    · rw [← hknown, ← known]
      exact hcommit.symm
  exact List.countP_pos_iff.mpr ⟨_, hmem, by simpa using hsame⟩

theorem total_kept_failed (id : EventId) {sent : List EventRef}
    (light : ∀ e ∈ sent, e.event.isBulk = false) :
    Item.total (Item.kept id) ↑(sent.map Item.failed) = sent.countP fun e => e.id = id := by
  induction sent with
  | nil => rfl
  | cons e sent ih =>
      have hlight := light e (List.mem_cons_self ..)
      rw [List.map_cons, ← Multiset.cons_coe, Item.total_cons,
        ih fun e he => light e (List.mem_cons_of_mem _ he), List.countP_cons]
      simp only [Item.kept, Item.held, hlight, decide_eq_true_eq]
      exact Nat.add_comm _ _

/-- An event that is not released is kept as before, or somewhere else, or it is secured. -/
theorem Turn.kept {x y rest : Multiset Item} (h : Turn lossy b x y) (here : b.items = x + rest)
    (wellNamed : WellNamed events) (ha : b.Accounted events owned) (hb : b.Orderly) {id : EventId}
    (unreleased : (b.ledger.get id).released = false) (hx : 0 < Item.total (Item.kept id) x) :
    Secured b.trace ⟨id, events id⟩ ∨ 0 < Item.total (Item.kept id) y ∨
      0 < b.batch.countP (fun e => e.id = id) ∨
        0 < b.buffer.countP fun entry => entry.2.id = id := by
  have hmem {i : Item} (hi : i ∈ x) : i ∈ b.items := here ▸ Multiset.mem_add.mpr (.inl hi)
  have hproper {i : Item} (hi : {i} = x) : i.IsProper :=
    hb.proper i (hmem (hi ▸ Multiset.mem_singleton_self i))
  have hlive (hzero : (b.ledger.get id).count = 0) : False := by
    have hpos := (ha.sane id).count_pos unreleased
    omega
  cases h with
  | @routed e why =>
      have hsame : e.id = id := by
        simp only [Item.total_singleton, Item.kept, Item.held] at hx
        split at hx
        · assumption
        · cases hx
      subst hsame
      have hmentioned : b.Mentions e := .inl ⟨_, hmem (Multiset.mem_singleton_self _), rfl⟩
      have hknown := (ha.known e hmentioned).2
      rw [← ha.eq_known hmentioned]
      cases why with
      | kept last there same =>
          exact .inr (.inr (.inl (List.countP_pos_iff.mpr ⟨last, there, by simpa using same⟩)))
      | empty payload skipped =>
          obtain ⟨created, hcontent⟩ := PlainPayload.construct_ok_false skipped
          exact .inl (secured_of_heartbeat (Event.isHeartbeat_of_heartbeat hcontent))
      | refused light noted permanent =>
          exact .inl (secured_of_refused light ⟨_, noted, permanent⟩)
      | gone none => exact (hlive none).elim
      | batchClosed closed =>
          rw [hb.batchOpen] at closed
          cases closed
      | closed closed =>
          rw [hb.unclosed] at closed
          cases closed
      | unnamed bulk failed => exact (wellNamed.prepares hknown bulk failed).elim
      | buffered bulk taken =>
          exact .inr (.inr (.inr (wellNamed.buffered_self ha hb hknown bulk taken)))
      | heartbeat beat => exact .inl (secured_of_heartbeat beat)
  | deferred failed transient =>
      rw [PlainPayload.construct_error failed] at transient
      cases transient
  -- Whatever the plain payload refuses, it refuses for good: no tablet is ever put off.
  | offeredAgain => exact (hproper rfl).elim
  | mislaid => exact (hproper rfl).elim
  | @acknowledged sent payload request took =>
      obtain ⟨hpayload, htakes, hrequest⟩ := hproper rfl
      obtain ⟨batch, rfl, hbatch⟩ := hrequest request rfl
      obtain ⟨r, hanswered, hacknowledged⟩ := acknowledges_of_took hb.policy took
      rw [Item.total_singleton] at hx
      obtain ⟨e, he, hid⟩ := List.countP_pos_iff.mp hx
      have hsame : e.id = id := of_decide_eq_true hid
      subst hsame
      have hmentioned : b.Mentions e := .inl ⟨_, hmem (Multiset.mem_singleton_self _), he⟩
      rw [← ha.eq_known hmentioned]
      exact .inl (secured_of_sent (htakes e he).isBulk
        ⟨batch, r, sent, hanswered, hacknowledged, he, hbatch.trans hpayload⟩)
  | abandoned why =>
      rcases why with rfl | hclosed
      · exact absurd hx (Nat.lt_irrefl 0)
      · rw [hb.unclosed] at hclosed
        cases hclosed
  | failedTablets =>
      obtain ⟨_, htakes, _⟩ := hproper rfl
      rw [total_kept_failed id fun e he => (htakes e he).isBulk]
      exact .inr (.inl hx)
  | failedAttempt | lapsed => exact absurd hx (Nat.lt_irrefl 0)
  | @forgotten e released | @skipped e released =>
      simp only [Item.total_singleton, Item.kept, Item.held] at hx
      split at hx
      · cases hx
      · split at hx
        · rename_i hsame
          rw [← hsame, show (b.ledger.get e.id).released = true from released] at unreleased
          cases unreleased
        · cases hx
  | resumedFile prepared =>
      simp [Item.kept, Item.held, (Attempt.prepare_event prepared).2] at hx
  | lostFile bulk =>
      simp [Item.kept, Item.held, bulk] at hx
  | @resumedTablet e t content payload encoded =>
      have light := Event.isBulk_of_tablet content
      simp only [Item.total_singleton, Item.kept, Item.held, light] at hx
      simp only [Item.total_singleton, Item.kept, Item.held, List.countP_singleton]
      refine .inr (.inl ?_)
      simpa using hx
  | @unencodable e light failed =>
      have hpossible : e.event.isBulk = true ∨ PlainPayload.Takes e.event := hproper rfl
      rcases hpossible with hbulk | htakes
      · rw [light] at hbulk
        cases hbulk
      · exact absurd htakes failed
  | _ => exact .inr (.inl hx)

/-- A file that leaves the buffer leaves no other file behind without its place. -/
theorem WellNamed.countP_others (h : WellNamed events) (ha : b.Accounted events owned)
    (hb : b.Orderly) {e : EventRef} (mentioned : b.Mentions e) (bulk : e.event.isBulk = true)
    {id : EventId} (hid : id ≠ e.id) :
    (b.buffer.filter fun entry => entry.1 != e.event.commit).countP (fun entry => entry.2.id = id) =
      b.buffer.countP fun entry => entry.2.id = id := by
  rw [List.countP_filter]
  refine List.countP_congr fun entry hentry => ?_
  obtain ⟨hcommit, hbulk⟩ := hb.filed entry.1 entry.2 hentry
  have hknown := (ha.known entry.2 (.inr (.inr ⟨_, hentry⟩))).2
  have hother (hsame : entry.2.id = id) : entry.1 ≠ e.event.commit := by
    intro heq
    refine hid (hsame ▸ h.distinct _ _ ?_ ?_ ?_)
    · rw [← hknown]
      exact hbulk
    · rw [← (ha.known e mentioned).2]
      exact bulk
    · rw [← hknown, ← (ha.known e mentioned).2, ← hcommit]
      exact heq
  simp only [Bool.and_eq_true, decide_eq_true_eq, bne_iff_ne]
  exact ⟨fun hboth => hboth.1, fun hsame => ⟨hsame, hother hsame⟩⟩

/-- The reference that releases an event is dropped when nothing is kept of it. -/
theorem Books.Safe.dropped (hs : b.Safe events owned) (ha : b.Accounted events owned)
    {e : EventRef} {rest : Multiset Item} (here : b.items = .spent e ::ₘ rest) :
    ({ b with ledger := (b.ledger.drop e.id).1, items := rest } : Books PlainPayload).Safe
      events owned := by
  have hknown := (ha.known e (Books.mentions_of_cons here rfl)).1
  refine ⟨fun id hid hreleased => ?_, fun id hreleased => ?_⟩
  · have hbefore := (Ledger.unreleased_of_drop ha.sane hknown hreleased).1
    have hsize : id < b.ledger.entries.size :=
      Nat.lt_of_lt_of_eq hid (Ledger.size_update b.ledger e.id Lifecycle.drop)
    rcases hs.kept id hsize hbefore with hsecured | howned | hkept
    · exact .inl hsecured
    · exact .inr (.inl howned)
    · simp only [Books.kept, here, Item.total_cons, Item.kept, Nat.zero_add] at hkept
      exact .inr (.inr hkept)
  · cases hbefore : (b.ledger.get id).released with
    | true => exact hs.secured id hbefore
    | false =>
        -- It was the last reference, so the account leaves no room for anything else that is kept.
        obtain ⟨rfl, hcount⟩ := Ledger.released_of_drop hknown hbefore hreleased
        have hcounted := ha.counted e.id hknown hbefore
        have hle := Item.kept_le_held e.id rest
        simp only [Books.held, here, Item.total_cons, Item.held, if_true] at hcounted
        rcases hs.kept e.id hknown hbefore with hsecured | howned | hkept
        · exact hsecured
        · omega
        · simp only [Books.kept, here, Item.total_cons, Item.kept] at hkept
          omega

theorem Move.safe (h : Move lossy b b') (wellNamed : WellNamed events)
    (ha : b.Accounted events owned) (hb : b.Orderly) (hs : b.Safe events owned) :
    b'.Safe events owned := by
  cases h with
  | dropped here => exact hs.dropped ha here
  | cleared _ closed =>
      rw [hb.unclosed] at closed
      cases closed
  | noted o =>
      exact hs.next (List.subset_cons_self ..) rfl (fun _ => rfl) fun _ _ hkept => .inr hkept
  | tried | spawned | retired =>
      exact hs.next (List.Subset.refl _) rfl (fun _ => rfl) fun _ _ hkept => .inr hkept
  | retuned same =>
      exact hs.next (List.Subset.refl _) same.size same.released fun _ _ hkept => .inr hkept
  | @turned x y rest here turn =>
      refine hs.next (List.Subset.refl _) rfl (fun _ => rfl) fun id hreleased hkept => ?_
      simp only [Books.kept, here, Item.total_add] at hkept ⊢
      by_cases hx : 0 < Item.total (Item.kept id) x
      · rcases turn.kept here wellNamed ha hb hreleased hx with hsecured | hy | hbatch | hbuffer
        · exact .inl hsecured
        all_goals exact .inr (by omega)
      · exact .inr (by omega)
  | @held e mentioned took =>
      have hknown := (ha.known e mentioned).1
      refine hs.next (List.Subset.refl _) (Ledger.size_update _ _ _) ?_ fun id _ hkept => ?_
      · exact fun id => (Ledger.get_hold hknown took id).2.1
      · simp only [Books.kept, Item.total_cons, Item.kept, Nat.zero_add] at hkept ⊢
        exact .inr hkept
  | @kept e payload rest here =>
      refine hs.next (List.Subset.refl _) rfl (fun _ => rfl) fun id _ hkept => ?_
      simp only [Books.kept, here, Item.total_cons, Item.kept, List.countP_append] at hkept ⊢
      exact .inr (by omega)
  | emitted =>
      refine hs.next (List.Subset.refl _) rfl (fun _ => rfl) fun id _ hkept => ?_
      simp only [Books.kept, Item.total_cons, Item.kept, Item.held, List.countP_nil] at hkept ⊢
      exact .inr (by omega)
  | @takenOn e settings now a mentioned unclosed prepared took =>
      have hknown := (ha.known e mentioned).1
      refine hs.next (List.Subset.refl _) (Ledger.size_update _ _ _) ?_ fun id _ hkept => ?_
      · exact fun id => (Ledger.get_hold hknown took id).2.1
      · simp only [Books.kept, Item.total_cons, Item.kept, Item.held, List.countP_append] at hkept ⊢
        exact .inr (by omega)
  | @freed x e found rest here why =>
      have hx : x ∈ b.items := here ▸ Multiset.mem_cons_self _ _
      refine hs.next (List.Subset.refl _) rfl (fun _ => rfl) fun id _ hkept => ?_
      cases why with
      | unnamed bulk failed =>
          exact (wellNamed.prepares (ha.known e (.inl ⟨_, hx, rfl⟩)).2 bulk failed).elim
      | @sealed a request took =>
          have hmentioned : b.Mentions a.event := .inl ⟨_, hx, rfl⟩
          have hbulk := ha.bulky _ _ hx
          by_cases hid : id = a.event.id
          · subst hid
            obtain ⟨s, rfl, hcommit⟩ := hb.proper _ hx request rfl
            obtain ⟨r, hanswered, hacknowledged⟩ := acknowledges_of_took hb.policy took
            rw [← ha.eq_known hmentioned]
            exact .inl (secured_of_sealed hbulk ⟨s, r, hanswered, hacknowledged, hcommit⟩)
          -- No other file has this commit id, so no other loses its place.
          · have hothers := wellNamed.countP_others ha hb hmentioned hbulk hid
            simp only [Books.kept, here, Item.total_cons, Item.kept, Item.held] at hkept ⊢
            rw [hothers]
            exact .inr (by omega)

/-- All that is kept while nobody takes anything away. -/
structure Books.Upheld (events : EventId → Event) (owned : EventId → Nat)
    (b : Books PlainPayload) : Prop where
  numbered : b.Numbered
  accounted : b.Accounted events owned
  orderly : b.Orderly
  safe : b.Safe events owned

theorem Move.upheld (h : Move lossy b b') (wellNamed : WellNamed events)
    (hb : b.Upheld events owned) : b'.Upheld events owned :=
  ⟨h.numbered hb.numbered, h.accounted hb.accounted, h.orderly hb.accounted hb.orderly,
    h.safe wellNamed hb.accounted hb.orderly hb.safe⟩

theorem Leads.upheld (h : Leads lossy b b') (wellNamed : WellNamed events)
    (hb : b.Upheld events owned) : b'.Upheld events owned :=
  h.keeps hb.numbered hb fun hmove => hmove.upheld wellNamed

theorem upheld_of_new {p : Pipe PlainPayload} (h : p.IsNew)
    (policy : p.connector.statusPolicy = .tolerateConflicts) :
    (p.books none 0).Upheld events fun _ => 0 := by
  have haccounted := accounted_of_new h events
  have hsize : (p.books none 0).ledger.entries.size = 0 := by
    simp [books, h.ledger]
  have hitems := items_of_new h
  have hbatch : (p.books none 0).batch = [] := h.batch
  have hbuffer : (p.books none 0).buffer = [] := h.buffer
  refine ⟨numbered_of_new h, haccounted, ?_, ?_⟩
  · refine ⟨h.unclosed, h.batchOpen, policy, ?_, ?_, ?_, ?_⟩
    · rw [hbatch]
      exact List.eq_nil_of_length_eq_zero h.payload
    · rw [hbatch]
      exact fun e he => absurd he List.not_mem_nil
    · rw [hitems]
      exact fun i hi => absurd hi (Multiset.notMem_zero i)
    · rw [hbuffer]
      exact fun commit e he => absurd he List.not_mem_nil
  · refine ⟨fun id hid => ?_, fun id hreleased => ?_⟩
    · rw [hsize] at hid
      cases hid
    · rw [Ledger.get_of_le (by rw [hsize]; exact Nat.zero_le id)] at hreleased
      cases hreleased

theorem Books.Upheld.built (h : b.Upheld events owned) (retryMs : Nat) :
    (b.enrolled retryMs).Upheld events (Function.update owned b.ledger.entries.size 1) := by
  obtain ⟨numbered, accounted, orderly, safe⟩ := h
  refine ⟨numbered, accounted.built retryMs, ?_, ?_⟩
  · exact ⟨orderly.unclosed, orderly.batchOpen, orderly.policy, orderly.encoded, orderly.taken,
      orderly.proper, orderly.filed⟩
  · have hget (id : EventId) : ((b.enrolled retryMs).ledger.get id).released =
        (b.ledger.get id).released := Ledger.released_enrol _ _ _
    refine ⟨fun id hid hreleased => ?_, fun id hreleased => ?_⟩
    · by_cases hnew : id = b.ledger.entries.size
      · subst hnew
        exact .inr (.inl (by rw [Function.update_self]; exact Nat.one_pos))
      · have hlt := Nat.lt_of_lt_of_eq hid (Ledger.size_enrol b.ledger retryMs)
        rw [Function.update_of_ne hnew]
        exact safe.kept id (by omega) ((hget id).symm.trans hreleased)
    · exact safe.secured id ((hget id).symm.trans hreleased)

/-- Whoever offers an event gives the reference on it away. -/
theorem Books.Upheld.offered (h : b.Upheld events owned) {id : EventId} (here : owned id = 1) :
    (b.handed (.waiting ⟨id, events id⟩)).Upheld events (Function.update owned id 0) := by
  obtain ⟨numbered, accounted, orderly, safe⟩ := h
  obtain ⟨henough, howned⟩ := offered_waiting events here
  refine ⟨numbered, ?_, ?_, ?_⟩
  · rw [← howned]
    refine accounted.handed ?_ ?_ henough
    · rintro e rfl
      exact ⟨accounted.owning id (by omega), rfl⟩
    · intro a asked heq
      cases heq
  · refine ⟨orderly.unclosed, orderly.batchOpen, orderly.policy, orderly.encoded, orderly.taken,
      fun i hi => ?_, orderly.filed⟩
    rcases Multiset.mem_cons.mp hi with rfl | hi
    · trivial
    · exact orderly.proper i hi
  · refine ⟨fun other hother hreleased => ?_, safe.secured⟩
    have hkept : (b.handed (.waiting ⟨id, events id⟩)).kept other =
        (if id = other then 1 else 0) + b.kept other := by
      simp only [Books.kept, Books.handed, Item.total_cons, Item.kept, Item.held]
      omega
    rw [hkept]
    rcases safe.kept other hother hreleased with hsecured | hpos | hpos
    · exact .inl hsecured
    · by_cases hsame : other = id
      · exact .inr (.inr (by rw [if_pos hsame.symm]; omega))
      · rw [Function.update_of_ne hsame]
        exact .inr (.inl hpos)
    · exact .inr (.inr (by omega))

/-- Events are built and offered, once each and with no other reference, while tasks run in any
order. -/
inductive Act (events : EventId → Event) : Scene PlainPayload → Scene PlainPayload → Prop
  | built {p : Pipe PlainPayload} {owned : EventId → Nat} (retryMs : Nat) :
      Act events ⟨p, owned⟩
        ⟨p.built retryMs, Function.update owned p.commons.ledger.entries.size 1⟩
  | offered {p : Pipe PlainPayload} {owned : EventId → Nat} {id : EventId} (here : owned id = 1) :
      Act events ⟨p, owned⟩ ⟨(p.offer ⟨id, events id⟩).1, Function.update owned id 0⟩
  | ran {p : Pipe PlainPayload} {owned : EventId → Nat} (id : TaskId) :
      Act events ⟨p, owned⟩ ⟨p.run id, owned⟩
  | aside {p p' : Pipe PlainPayload} {owned : EventId → Nat} (beside : Aside p p') :
      Act events ⟨p, owned⟩ ⟨p', owned⟩

theorem Act.upheld {s s' : Scene PlainPayload} (h : Act events s s') (wellNamed : WellNamed events)
    (hs : (s.pipe.books none 0).Upheld events s.owned) :
    (s'.pipe.books none 0).Upheld events s'.owned := by
  cases h with
  | built retryMs => exact hs.built retryMs
  | ran id => exact (leads_run _ id (.inl trivial)).upheld wellNamed hs
  | aside beside =>
      have hbeside : Leads True _ _ := leads_aside beside
      exact hbeside.upheld wellNamed hs
  | @offered p owned id here =>
      have hoffered := hs.offered here
      rw [← books_handed] at hoffered
      have hleads : Leads True _ _ := leads_offer p ⟨id, events id⟩
      exact hleads.upheld wellNamed hoffered

/-- The hook of an event has run only if a batch with the tablet's encoding was acknowledged, or the
batch refused the tablet for good, or a seal for the file's commit was acknowledged. -/
theorem secured_of_released (wellNamed : WellNamed events) {s s' : Scene PlainPayload}
    (new : s.IsNew) (policy : s.pipe.connector.statusPolicy = .tolerateConflicts)
    (reach : Relation.ReflTransGen (Act events) s s') {id : EventId}
    (released : 0 < (s'.pipe.commons.ledger.get id).releases) :
    Secured s'.pipe.trace ⟨id, events id⟩ := by
  have hupheld : (s'.pipe.books none 0).Upheld events s'.owned := by
    -- The premise is about the last state alone; the induction does not carry it.
    clear released
    induction reach with
    | refl =>
        rw [new.owned]
        exact upheld_of_new new.pipe policy
    | tail _ hact ih => exact hact.upheld wellNamed ih
  have hreleased : (s'.pipe.commons.ledger.get id).released = true := by
    have hsane : (s'.pipe.commons.ledger.get id).IsSane := hupheld.accounted.sane id
    rw [hsane.releases_eq] at released
    split at released
    · assumption
    · cases released
  exact hupheld.safe.secured id hreleased

/-- A tablet is offered, batched and sent, and the peer accepts the batch. -/
theorem secured_of_released_tablet :
    let event : Event := {
      content := .tablet { target := "", rows := 0, payload := [] }, pipe := "", region := 0
      commit := .zero, progress := 0 }
    let p : Pipe PlainPayload := {
      commons := {}
      queue := { pipe := "q", settings := {}, block := 0 }
      batch := { id := "b", maxDelayMs := 1, slice := 0, payload := {} }
      connector := .create "c" {}
      clients := .ofClients [0]
      disk := {}
      peer := {} }
    let p' := (((p.built 0).offer ⟨0, event⟩).1.startConsumer.run 0).run 0
    0 < (p'.commons.ledger.get 0).releases ∧ Secured p'.trace ⟨0, event⟩ := by
  intro event p p'
  have hreleased : 0 < (p'.commons.ledger.get 0).releases := by decide +kernel
  have wellNamed : WellNamed fun _ => event := by
    refine ⟨?_, ?_⟩
    · intro i j hbulk
      cases hbulk
    · intro i f hcontent
      cases hcontent
  have new : Scene.IsNew ⟨p, fun _ => 0⟩ :=
    ⟨⟨rfl, rfl, rfl, rfl, rfl, rfl, rfl, rfl, rfl, rfl, rfl⟩, rfl⟩
  have reach : Relation.ReflTransGen (Act fun _ => event) ⟨p, fun _ => 0⟩
      ⟨p', Function.update (Function.update (fun _ => 0) 0 1) 0 0⟩ := by
    have here : Function.update (fun _ => 0) 0 1 (0 : EventId) = 1 := Function.update_self ..
    refine .head (.built 0) (.head (.offered here) ?_)
    exact .head (.aside .startConsumer) (.head (.ran 0) (.single (.ran 0)))
  exact ⟨hreleased, secured_of_released wellNamed new rfl reach hreleased⟩

end Pipe
end Courier
