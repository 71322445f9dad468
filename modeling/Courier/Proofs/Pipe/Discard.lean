import Courier.Proofs.Pipe.Service

/-!
A discard while requests are under way. Whatever of the instance lies in the buffer or in the retry
queue, and whatever a transfer is about, loses all its references at once, and how its requests end
is of no consequence any more. Tablets on their way to the peer lie nowhere meanwhile: they are not
found, and those that fail are queued as if nothing had happened.
-/

namespace Courier

open Transfer

namespace Pipe

variable {P : Type} {events : EventId → Event} {owned : EventId → Nat} {b b' : Books P}
  {id : EventId} {since : List Occurrence}

/-- Nothing is left of an event, it waits for no other try, and since then it was neither queued for
one nor taken up again. -/
structure Books.Gone (id : EventId) (since : List Occurrence) (b : Books P) : Prop where
  count : (b.ledger.get id).count = 0
  released : (b.ledger.get id).released = true
  unqueued : ∀ e, .retry e ∈ b.items → e.id ≠ id
  ignored : ∃ noted, b.trace = noted ++ since ∧
    ∀ e, .queued e ∈ noted ∨ .resubmitted e ∈ noted → e.id ≠ id

namespace Books.Gone

/-- It stays so while the ledger has the same to say of it and nothing else changes. -/
theorem next (hb : b.Gone id since) (count : (b'.ledger.get id).count = (b.ledger.get id).count)
    (released : (b'.ledger.get id).released = (b.ledger.get id).released)
    (retries : ∀ e, .retry e ∈ b'.items → .retry e ∈ b.items) (trace : b'.trace = b.trace) :
    b'.Gone id since := by
  refine ⟨count.trans hb.count, released.trans hb.released,
    fun e he => hb.unqueued e (retries e he), ?_⟩
  rw [trace]
  exact hb.ignored

theorem of_get (hb : b.Gone id since) (same : b'.ledger.get id = b.ledger.get id)
    (retries : ∀ e, .retry e ∈ b'.items → .retry e ∈ b.items) (trace : b'.trace = b.trace) :
    b'.Gone id since :=
  hb.next (congrArg Lifecycle.count same) (congrArg Lifecycle.released same) retries trace

/-- Of an event that was not built yet a reference is left. -/
theorem known (hb : b.Gone id since) : id < b.ledger.entries.size := by
  refine Nat.lt_of_not_le fun hle => ?_
  have hcount := hb.count
  rw [Ledger.get_of_le hle] at hcount
  cases hcount

theorem built (hb : b.Gone id since) (retryMs : Nat) : (b.enrolled retryMs).Gone id since :=
  hb.of_get (Ledger.get_enrol_of_lt retryMs hb.known) (fun _ he => he) rfl

theorem handed (hb : b.Gone id since) {x : Item} (other : ∀ e, x ≠ .retry e) :
    (b.handed x).Gone id since := by
  refine hb.of_get rfl (fun e he => ?_) rfl
  rcases Multiset.mem_cons.mp he with heq | he
  · exact absurd heq.symm (other e)
  · exact he

theorem of_handed {x : Item} (hb : (b.handed x).Gone id since) : b.Gone id since :=
  hb.of_get rfl (fun _ he => Multiset.mem_cons_of_mem he) rfl

end Books.Gone

theorem Books.Swept.gone {mine : EventRef → Bool} {found : List EventRef}
    (h : Books.Swept mine found b b') (hb : b.Gone id since) : b'.Gone id since := by
  refine hb.of_get ?_ (fun e he => h.mem_items he) h.trace
  rw [h.ledger]
  exact Ledger.get_clearAll_of_gone _ hb.count

/-- What was found of one kind, or buffered, or released before, is gone with a sweep that leaves
none of its kind to be tried again. -/
theorem Books.Swept.gone_of_mine {mine : EventRef → Bool} {found : List EventRef}
    (h : Books.Swept mine found b b') (hb : b.Accounted events owned) {e : EventRef}
    (mentioned : b.Mentions e) (here : mine e = true)
    (cleared : e ∈ found ++ (b.buffer.filter fun entry => mine entry.2).map Prod.snd ∨
      (b.ledger.get e.id).released = true)
    (unqueued : ∀ e, .retry e ∈ b'.items → mine e = false) : b'.Gone e.id b.trace := by
  have hreleased : (b'.ledger.get e.id).released = true := by
    refine Bool.not_eq_false _ ▸ fun hlive => ?_
    obtain ⟨hothers, hsame⟩ := h.unreleased hb hlive
    rcases cleared with hcleared | hreleased
    · exact hothers e hcleared rfl
    · rw [hsame, hreleased] at hlive
      cases hlive
  have hsane := (h.accounted hb).sane e.id
  refine ⟨hsane.count_eq_zero_of_released hreleased, hreleased, fun kept hkept hsame => ?_,
    [], h.trace, fun _ hmem => absurd hmem (by simp)⟩
  have hknown := hb.eq_known (e := kept) (h.mentions (.inl ⟨_, hkept, rfl⟩))
  rw [hsame, ← hb.eq_known mentioned] at hknown
  rw [← hknown, unqueued kept hkept] at here
  cases here

variable [Batch.Payload P] {lossy : Prop}

theorem Move.gone (h : Move lossy b b') (hb : b.Gone id since) : b'.Gone id since := by
  obtain ⟨hcount, hreleased⟩ := h.get_of_gone hb.count
  have hlive {e : EventRef} (unreleased : b.ledger.isReleased e.id = false) : e.id ≠ id := by
    rintro rfl
    rw [show b.ledger.isReleased e.id = true from hb.released] at unreleased
    cases unreleased
  have hcons {x : Item} {rest : Multiset Item} (other : ∀ e, x ≠ .retry e)
      (hrest : ∀ e, .retry e ∈ rest → e.id ≠ id) (e : EventRef) (he : .retry e ∈ x ::ₘ rest) :
      e.id ≠ id := by
    rcases Multiset.mem_cons.mp he with heq | he
    · exact absurd heq.symm (other e)
    · exact hrest e he
  have hrest {x : Item} {rest : Multiset Item} (here : b.items = x ::ₘ rest) (e : EventRef)
      (he : .retry e ∈ rest) : e.id ≠ id :=
    hb.unqueued e (here ▸ Multiset.mem_cons_of_mem he)
  refine ⟨hcount, hreleased.trans hb.released, fun e he => ?_, ?_⟩
  · cases h with
    | noted | retuned | spawned | retired | tried => exact hb.unqueued e he
    | turned here turn =>
        rcases Multiset.mem_add.mp he with he | he
        · exact hlive (turn.retry he).2
        · exact hb.unqueued e (here ▸ Multiset.mem_add.mpr (.inr he))
    | held | takenOn | emitted => exact hcons (fun _ heq => by cases heq) hb.unqueued e he
    | dropped here | cleared here | kept here => exact hrest here e he
    | freed here => exact hcons (fun _ heq => by cases heq) (hrest here) e he
  · cases h with
    | @noted o allowed =>
        obtain ⟨noted, htrace, hignored⟩ := hb.ignored
        refine ⟨o :: noted, congrArg (o :: ·) htrace, fun e he => ?_⟩
        rcases he with he | he
        all_goals
          rcases List.mem_cons.mp he with rfl | he
          · exact hlive allowed
          · exact hignored e (by simp [he])
    | _ => exact hb.ignored

theorem Leads.gone (h : Leads lossy b b') (hn : b.Numbered) (hb : b.Gone id since) :
    b'.Gone id since :=
  h.keeps hn hb Move.gone

theorem Deal.gone {s s' : Scene P} (h : Deal events s s') (hn : (s.pipe.books none 0).Numbered)
    (hs : (s.pipe.books none 0).Gone id since) : (s'.pipe.books none 0).Gone id since := by
  obtain ⟨hhold, _, hclear⟩ := Lifecycle.fixed_of_gone hs.count
  have hgiven {p : Pipe P} {x : Item} {c : Books P} (other : ∀ e, x ≠ .retry e)
      (hn : (p.books none 0).Numbered) (hs : (p.books none 0).Gone id since)
      (h : Leads True (p.books none {x}) c) : c.Gone id since := by
    rw [books_handed] at h
    exact h.gone hn (hs.handed other)
  cases h with
  | ran id => exact (leads_run _ id (.inl trivial)).gone hn hs
  | aside beside =>
      have hbeside : Leads True _ _ := leads_aside beside
      exact hbeside.gone hn hs
  | built retryMs => exact hs.built retryMs
  | held => exact hs.of_get (Ledger.get_update_of_fixed _ hhold) (fun _ he => he) rfl
  | cleared => exact hs.of_get (Ledger.get_update_of_fixed _ hclear) (fun _ he => he) rfl
  | dropped => exact hgiven (fun _ heq => by cases heq) hn hs (leads_drop _ _)
  | offered => exact hgiven (fun _ heq => by cases heq) hn hs (leads_offer _ _)
  | sent payload => exact hgiven (fun _ heq => by cases heq) hn hs (leads_callSend _ _ payload)
  | @transferred p owned given known =>
      have hafter := hgiven (fun _ heq => by cases heq) hn hs
        (leads_transferFile p (mentions_guest p ⟨given, events given⟩)).1
      rw [books_handed] at hafter
      exact hafter.of_handed
  | discarded pipe region => exact (swept_discard _ pipe region).gone hs
  | @closed p owned =>
      cases hclosed : p.connector.closed with
      | true =>
          rw [closeConnector_of_closed hclosed]
          exact hs
      | false => exact (swept_closeConnector hclosed).gone hs

theorem guarded_of_reach {s s' : Scene P} (new : s.IsNew)
    (reach : Relation.ReflTransGen (Deal events) s s') :
    (s'.pipe.books none 0).Guarded events s'.owned := by
  induction reach with
  | refl =>
      rw [new.owned]
      exact guarded_of_new new.pipe
  | tail _ hdeal ih => exact hdeal.guarded ih

omit [Batch.Payload P] in
/-- What the connector holds of an instance, a discard finds, unless it was released before. -/
theorem gone_of_discard {p : Pipe P} (hp : (p.books none 0).Guarded events owned) {pipe : String}
    {region : Int} {e : EventRef} (mine : e.belongsTo pipe region = true)
    (there : p.Owns e ∨ ∃ commit, (commit, e) ∈ p.connector.buffer) :
    ((p.discard pipe region).1.books none 0).Gone e.id p.trace := by
  have hswept := swept_discard p pipe region
  have hbuffered {commit : CommitId} (he : (commit, e) ∈ p.connector.buffer) :
      e ∈ (p.connector.buffer.filter fun entry => entry.2.belongsTo pipe region).map Prod.snd :=
    List.mem_map.mpr ⟨(commit, e), List.mem_filter.mpr ⟨he, mine⟩, rfl⟩
  have hunqueued (e' : EventRef)
      (he' : .retry e' ∈ ((p.discard pipe region).1.books none 0).items) :
      e'.belongsTo pipe region = false := by
    obtain ⟨entry, hentry, rfl⟩ := retry_mem_items.mp he'
    have hqueue : (p.discard pipe region).1.connector.retryQueue =
        p.connector.retryQueue.filter fun entry => !entry.event.belongsTo pipe region := rfl
    rw [hqueue] at hentry
    simpa using (List.mem_filter.mp hentry).2
  rcases there with howner | ⟨commit, hcommit⟩
  · obtain ⟨hmentioned, htended⟩ := mentions_of_owns howner
    refine hswept.gone_of_mine hp.accounted hmentioned mine ?_ hunqueued
    cases hreleased : (p.commons.ledger.get e.id).released with
    | true => exact .inr hreleased
    | false =>
        refine .inl ?_
        rcases howner with ⟨entry, hentry, rfl⟩ | ⟨t, ht, a, link, hprocess, rfl⟩
        · exact List.mem_append_left _
            (List.mem_map.mpr ⟨entry, List.mem_filter.mpr ⟨hentry, mine⟩, rfl⟩)
        · -- The file of a transfer is buffered as long as it is not released.
          have hevent := (hp.accounted.known a.event hmentioned).2
          have hbulk := hp.accounted.bulky a link.asked?
            (mem_items_of_task ht (by rw [hprocess]; exact Multiset.mem_singleton_self _))
          have hpresent := hp.custody.present a.event.id (hevent ▸ hbulk) hreleased htended
          rw [← hevent] at hpresent
          exact List.mem_append_right _ (hbuffered hpresent)
  · exact hswept.gone_of_mine hp.accounted (.inr (.inr ⟨commit, hcommit⟩)) mine
      (.inl (List.mem_append_right _ (hbuffered hcommit))) hunqueued

/-- What was buffered, queued for another try or under transfer when its instance was discarded has
no reference when the discard returns, and from then on. However its requests end, it never waits
for another try, and no worker takes it up. -/
theorem ignored_after_discard {s s' s'' : Scene P} (new : s.IsNew)
    (reach : Relation.ReflTransGen (Deal events) s s') {pipe : String} {region : Int}
    {e : EventRef} (mine : e.belongsTo pipe region = true)
    (there : s'.pipe.Owns e ∨ ∃ commit, (commit, e) ∈ s'.pipe.connector.buffer)
    (later : Relation.ReflTransGen (Deal events)
      ⟨(s'.pipe.discard pipe region).1, s'.owned⟩ s'') :
    (s''.pipe.commons.ledger.get e.id).count = 0 ∧
      (∀ entry ∈ s''.pipe.connector.retryQueue, entry.event.id ≠ e.id) ∧
      ∃ noted, s''.pipe.trace = noted ++ s'.pipe.trace ∧
        ∀ taken, .queued taken ∈ noted ∨ .resubmitted taken ∈ noted → taken.id ≠ e.id := by
  have hguarded := guarded_of_reach new reach
  have hdiscard : Deal events s' ⟨(s'.pipe.discard pipe region).1, s'.owned⟩ :=
    .discarded pipe region
  have hafter : (s''.pipe.books none 0).Guarded events s''.owned ∧
      (s''.pipe.books none 0).Gone e.id s'.pipe.trace := by
    induction later with
    | refl => exact ⟨hdiscard.guarded hguarded, gone_of_discard hguarded mine there⟩
    | tail _ hdeal ih => exact ⟨hdeal.guarded ih.1, hdeal.gone ih.1.numbered ih.2⟩
  refine ⟨hafter.2.count, fun entry hentry => ?_, hafter.2.ignored⟩
  exact hafter.2.unqueued entry.event (retry_mem_items.mpr ⟨entry, hentry, rfl⟩)

/-- A file is discarded while a piece of it is on its way, and the peer does not answer. -/
theorem ignored_after_discard_of_unanswered :
    let event : Event := {
      content := .file { data := "/d", mods := none, flushPoints := 0 }, pipe := "a", region := 1
      commit := .zero, progress := 0 }
    let p : Pipe Batch.PlainPayload := {
      commons := {}
      queue := { pipe := "q", settings := {}, block := 0 }
      batch := { id := "b", maxDelayMs := 1, slice := 0, payload := {} }
      connector := .create "c" {}
      clients := .ofClients [0]
      disk := { names := [(["d"], 0)], contents := #[[7]] }
      peer := { fallback := .silence } }
    let asked := ((p.built 0).transferFile ⟨0, event⟩).1.run 0
    let later := ((asked.discard "a" 1).1.setClock 60000).run 0
    (.zero, ⟨0, event⟩) ∈ asked.connector.buffer ∧ asked.tasks.length = 1 ∧
      later.tasks.length = 0 ∧ (later.commons.ledger.get 0).count = 0 ∧
      ∀ entry ∈ later.connector.retryQueue, entry.event.id ≠ 0 := by
  intro event p asked later
  have hbuffer : asked.connector.buffer = [(.zero, ⟨0, event⟩)] := by
    unfold asked event
    decide +kernel
  have hbuffered : (.zero, ⟨0, event⟩) ∈ asked.connector.buffer :=
    hbuffer ▸ List.mem_singleton_self _
  have hasked : asked.tasks.length = 1 := by
    unfold asked event
    decide +kernel
  have hlater : later.tasks.length = 0 := by
    unfold later asked event
    decide +kernel
  have known : 0 < (p.built 0).commons.ledger.entries.size := by decide
  have new : Scene.IsNew ⟨p, fun _ => 0⟩ :=
    ⟨⟨rfl, rfl, rfl, rfl, rfl, rfl, rfl, rfl, rfl, rfl, rfl⟩, rfl⟩
  let owned : EventId → Nat := Function.update (fun _ => 0) 0 1
  have reach : Relation.ReflTransGen (Deal fun _ => event) ⟨p, fun _ => 0⟩ ⟨asked, owned⟩ :=
    .head (.built 0) (.head (.transferred known) (.single (.ran 0)))
  have goesOn : Relation.ReflTransGen (Deal fun _ => event)
      ⟨(asked.discard "a" 1).1, owned⟩ ⟨later, owned⟩ :=
    .head (.aside (.clock 60000)) (.single (.ran 0))
  have mine : (⟨0, event⟩ : EventRef).belongsTo "a" 1 = true := by decide
  have hgone := ignored_after_discard new reach mine (.inr ⟨.zero, hbuffered⟩) goesOn
  clear_value asked later
  exact ⟨hbuffered, hasked, hlater, hgone.1, hgone.2.1⟩

/-- Tablets whose batch is on its way to the peer when their instance is discarded keep their
references, and are queued for another try when the peer does not answer. -/
theorem unanswered_outlives_discard :
    let event : Event := {
      content := .tablet { target := "", rows := 0, payload := [1] }, pipe := "a", region := 1
      commit := .zero, progress := 0 }
    let p : Pipe Batch.PlainPayload := {
      commons := {}
      queue := { pipe := "q", settings := {}, block := 0 }
      batch := { id := "b", maxDelayMs := 1, slice := 0, payload := {} }
      connector := .create "c" {}
      clients := .ofClients [0]
      disk := {}
      peer := { fallback := .silence } }
    let sent := ((p.built 0).callSend [⟨0, event⟩] [1]).1
    let discarded := (sent.discard "a" 1).1
    let later := (discarded.setClock 60000).run 0
    (∃ owned owned',
      Relation.ReflTransGen (Deal fun _ => event) ⟨p, fun _ => 0⟩ ⟨sent, owned⟩ ∧
      Relation.ReflTransGen (Deal fun _ => event) ⟨discarded, owned⟩ ⟨later, owned'⟩) ∧
      (⟨0, event⟩ : EventRef).belongsTo "a" 1 = true ∧
      (∃ client exchange, sent.task? 0 = some (.tablets
        { events := [⟨0, event⟩], payload := [1], purpose := .call }
        (.exchanging client exchange ()))) ∧
      discarded.connector.retryQueue = [] ∧
      later.connector.retryQueue.map RetryEntry.event = [⟨0, event⟩] ∧
      (later.commons.ledger.get 0).count ≠ 0 := by
  intro event p sent discarded later
  let owned : EventId → Nat := fun id =>
    Function.update (fun _ => 0) 0 1 id - [(⟨0, event⟩ : EventRef)].countP fun e => e.id = id
  have light : ∀ e ∈ [(⟨0, event⟩ : EventRef)], e.event.isBulk = false := by decide
  have here (id : EventId) : [(⟨0, event⟩ : EventRef)].countP (fun e => e.id = id) ≤
      Function.update (fun _ => 0) 0 1 id := by
    by_cases hid : id = 0
    · subst hid
      decide
    · simp [Ne.symm hid]
  have known : ∀ e ∈ [(⟨0, event⟩ : EventRef)], e.event = event := by decide
  refine ⟨⟨owned, owned, ?_, ?_⟩, by decide, ⟨_, _, rfl⟩, ?_, ?_, ?_⟩
  · exact .head (.built 0) (.single (.sent [1] light known here))
  · exact .head (.aside (.clock 60000)) (.single (.ran 0))
  · decide +kernel
  · decide +kernel
  · decide +kernel

end Pipe
end Courier
