import Courier.Proofs.Pipe.Balance
import Courier.Proofs.Pipe.Journey

/-!
The order of tablets. As long as the peer takes every batch, its log holds what tablets were polled,
in the order in which they were offered, but for what is still on the way; and nothing of a file is
asked for before the tablets ahead of it are in the log.
-/

namespace Courier

open Transfer

namespace Pipe

variable {P : Type} [Batch.Payload P] {events : EventId → Event} {bytes : P → Bytes}
  {able : P → Prop} {first : Bytes}

/-- A scene, with the events that were offered and those that were polled so far, each in the order
in which that happened. -/
structure Chronicle (P : Type) where
  scene : Scene P
  offered : List EventRef := []
  polled : List EventRef := []

/-- What left the queue in a step. -/
def departed (p p' : Pipe P) : List EventRef :=
  p.queue.channels.toList.filter fun e => e ∉ p'.queue.channels.toList

/-- The tablets among some events. -/
def tabletsOf (xs : List EventRef) : List EventRef := xs.filter fun e => e.event.kind = .tablet

namespace Chronicle

/-- A pipe in service with one consumer at a time, and nobody tears down or closes anything. -/
inductive Step (events : EventId → Event) : Chronicle P → Chronicle P → Prop
  | built {p : Pipe P} {owned : EventId → Nat} {given polled : List EventRef} (retryMs : Nat) :
      Step events ⟨⟨p, owned⟩, given, polled⟩
        ⟨⟨p.built retryMs, Function.update owned p.commons.ledger.entries.size 1⟩, given, polled⟩
  | offered {p : Pipe P} {owned : EventId → Nat} {given polled : List EventRef} {id : EventId}
      (here : owned id = 1) :
      Step events ⟨⟨p, owned⟩, given, polled⟩
        ⟨⟨(p.offer ⟨id, events id⟩).1, Function.update owned id 0⟩,
          given ++ [⟨id, events id⟩], polled⟩
  | ran {p : Pipe P} {owned : EventId → Nat} {given polled : List EventRef} (id : TaskId) :
      Step events ⟨⟨p, owned⟩, given, polled⟩
        ⟨⟨p.run id, owned⟩, given, polled ++ p.departed (p.run id)⟩
  | aside {p p' : Pipe P} {owned : EventId → Nat} {given polled : List EventRef}
      (beside : Aside p p') (peer : p'.peer = p.peer) (single : p'.consumers.length ≤ 1) :
      Step events ⟨⟨p, owned⟩, given, polled⟩ ⟨⟨p', owned⟩, given, polled⟩

def journey (c : Chronicle P) (bytes : P → Bytes) (able : P → Prop) (first : Bytes) : Journey P :=
  { bytes, able, first
    polled := c.polled
    channels := c.scene.pipe.queue.channels
    filed := c.scene.pipe.fileRequests }

/-- All that is kept while a chronicle is written. -/
structure Sound (events : EventId → Event) (bytes : P → Bytes) (able : P → Prop) (first : Bytes)
    (c : Chronicle P) : Prop where
  scene : c.scene.Sound events (fun _ => True) fun _ => True
  alive : (c.scene.pipe.books none 0).Alive c.scene.owned
  rests : (c.journey bytes able first).Rests c.scene.pipe
  order : tabletsOf c.offered = tabletsOf c.polled ++ tabletsOf c.scene.pipe.queue.channels.live
  bulky : ∀ e ∈ c.scene.pipe.queue.channels.bulk, e.event.isBulk = true
  distinct : ((c.polled ++ c.scene.pipe.queue.channels.toList).map EventRef.id).Nodup
  given : ∀ e ∈ c.polled ++ c.scene.pipe.queue.channels.toList,
    e.id < c.scene.pipe.commons.ledger.entries.size ∧ c.scene.owned e.id = 0

variable {c c' : Chronicle P}

omit [Batch.Payload P]

theorem tabletsOf_append (xs ys : List EventRef) :
    tabletsOf (xs ++ ys) = tabletsOf xs ++ tabletsOf ys := List.filter_append ..

theorem transcript_tabletsOf (xs : List EventRef) :
    Batch.transcript (tabletsOf xs) = Batch.transcript xs := by
  induction xs with
  | nil => rfl
  | cons e xs ih =>
      rw [← List.singleton_append, tabletsOf_append, Batch.transcript_append,
        Batch.transcript_append, ih]
      congr 1
      cases hcontent : e.event.content with
      | tablet t => simp [tabletsOf, Event.kind, Content.kind, hcontent]
      | _ =>
          simp [tabletsOf, Event.kind, Content.kind, hcontent, Batch.transcript, Batch.written,
            Batch.PlainPayload.construct]

theorem tabletsOf_of_bulk {e : EventRef} (h : e.event.isBulk = true) : tabletsOf [e] = [] := by
  obtain ⟨f, hfile⟩ := Event.content_of_isBulk h
  simp [tabletsOf, Event.kind, Content.kind, hfile]

theorem tabletsOf_of_heartbeat {e : EventRef} (h : e.event.isHeartbeat = true) :
    tabletsOf [e] = [] := by
  cases hcontent : e.event.content with
  | heartbeat created => simp [tabletsOf, Event.kind, Content.kind, hcontent]
  | _ =>
      rw [Event.isHeartbeat, hcontent] at h
      cases h

/-- What is retrieved from a queue of distinct events is what leaves it. -/
theorem departed_eq {p p' : Pipe P} {event : Option EventRef}
    (gives : p.queue.channels.Gives p'.queue.channels event)
    (distinct : (p.queue.channels.toList.map EventRef.id).Nodup) :
    p.departed p' = event.toList := by
  have hperm := gives.perm
  have hnodup := (hperm.nodup_iff).mp (List.Nodup.of_map _ distinct)
  have hfiltered : (p.departed p').Perm ((event.toList ++ p'.queue.channels.toList).filter
      fun e => e ∉ p'.queue.channels.toList) := hperm.filter _
  have hsame : ((event.toList ++ p'.queue.channels.toList).filter
      fun e => e ∉ p'.queue.channels.toList) = event.toList := by
    have hnone : (p'.queue.channels.toList.filter fun e => e ∉ p'.queue.channels.toList) = [] :=
      List.filter_eq_nil_iff.mpr fun e he => by simpa using he
    rw [List.filter_append, hnone, List.append_nil]
    refine List.filter_eq_self.mpr fun e he => ?_
    simpa using List.disjoint_of_nodup_append hnodup he
  rw [hsame] at hfiltered
  cases event with
  | none => exact hfiltered.eq_nil
  | some e => exact List.perm_singleton.mp hfiltered

variable [Batch.Payload P]

theorem Step.scene (h : Step events c c') (hs : c.Sound events bytes able first)
    (single : c'.scene.pipe.consumers.length ≤ 1) :
    c'.scene.Sound events (fun _ => True) fun _ => True := by
  have hsolo : Solo events c.scene c'.scene := by
    refine ⟨?_, single⟩
    cases h with
    | built retryMs => exact .built retryMs
    | offered here => exact .offered here
    | ran id => exact .ran id
    | aside beside => exact .aside beside
  exact hsolo.sound hs.scene fun _ _ => trivial

omit [Batch.Payload P] in
/-- What is queued, and what could not be encoded yet, is not released. -/
theorem Sound.live (h : c.Sound events bytes able first) {e : EventRef}
    (here : e ∈ c.scene.pipe.queue.channels.toList ∨ e ∈ c.scene.pipe.deferred) :
    (c.scene.pipe.commons.ledger.hold e.id).2 = true := by
  have hitem : ∃ x ∈ (c.scene.pipe.books none 0).items, x.held e.id = 1 := by
    rcases here with hqueued | hdeferred
    · have hmem := List.mem_map_of_mem (f := Item.waiting) hqueued
      exact ⟨.waiting e, by simp [books, stored, hmem], if_pos rfl⟩
    · rcases List.mem_append.mp hdeferred with hpending | hpaused
      · have hsome := Option.mem_toList.mp hpending
        exact ⟨.deferred e, by simp [books, stored, Option.mem_def.mp hsome], if_pos rfl⟩
      · obtain ⟨t, ht, hmem⟩ := List.mem_flatMap.mp hpaused
        refine ⟨.deferred e, mem_items_of_task (List.mem_filter.mp ht).1 ?_, if_pos rfl⟩
        cases hprocess : t.process with
        | pausing e' until_ =>
            rw [hprocess] at hmem
            rw [List.mem_singleton.mp hmem]
            exact Multiset.mem_singleton_self _
        | _ =>
            rw [hprocess] at hmem
            cases hmem
  have hknown : e.id < c.scene.pipe.commons.ledger.entries.size := by
    refine (h.given e ?_).1
    rcases here with hqueued | hdeferred
    · exact List.mem_append_right _ hqueued
    · obtain ⟨taken, hpolled, _⟩ := h.rests.line
      have hpolled : c.polled = taken ++ c.scene.pipe.deferred := hpolled
      rw [hpolled]
      exact List.mem_append_left _ (List.mem_append_right _ hdeferred)
  obtain ⟨x, hx, hone⟩ := hitem
  have hheld : 1 ≤ (c.scene.pipe.books none 0).held e.id := by
    have hle := Item.le_total (Item.held e.id) hx
    rw [hone] at hle
    rw [Books.held]
    omega
  have hreleased := h.alive e.id hknown (Nat.lt_of_lt_of_le hheld (Nat.le_add_right _ _))
  exact Lifecycle.hold_eq_true_iff.mpr
    ((h.scene.served.guarded.accounted.sane e.id).count_pos hreleased)

omit [Batch.Payload P] in
/-- Nothing is offered and nothing polled: the account stays. -/
theorem Sound.stays {p p' : Pipe P} {owned owned' : EventId → Nat}
    {given polled : List EventRef}
    (h : Sound events bytes able first ⟨⟨p, owned⟩, given, polled⟩)
    (scene : Scene.Sound events (fun _ => True) (fun _ => True) ⟨p', owned'⟩)
    (alive : (p'.books none 0).Alive owned')
    (rests : (Chronicle.journey ⟨⟨p, owned⟩, given, polled⟩ bytes able first).Rests p')
    (known : ∀ id, id < p.commons.ledger.entries.size → owned id = 0 →
      id < p'.commons.ledger.entries.size ∧ owned' id = 0) :
    Sound events bytes able first ⟨⟨p', owned'⟩, given, polled⟩ := by
  obtain ⟨_, _, hcarried⟩ := rests.line
  have hchannels : p'.queue.channels = p.queue.channels := hcarried.channels
  have hfiled : p'.fileRequests = p.fileRequests := hcarried.filed
  have hjourney : Chronicle.journey ⟨⟨p', owned'⟩, given, polled⟩ bytes able first =
      Chronicle.journey ⟨⟨p, owned⟩, given, polled⟩ bytes able first := by
    simp only [journey, hchannels, hfiled]
  refine ⟨scene, alive, hjourney ▸ rests, ?_, ?_, ?_, fun e he => ?_⟩
  · rw [hchannels]
    exact h.order
  · rw [hchannels]
    exact h.bulky
  · rw [hchannels]
    exact h.distinct
  · rw [hchannels] at he
    obtain ⟨hlt, howned⟩ := h.given e he
    exact known e.id hlt howned

omit [Batch.Payload P] in
theorem Sound.unclosed (h : c.Sound events bytes able first) :
    c.scene.pipe.connector.closed = false := by
  obtain ⟨_, _, hcarried⟩ := h.rests.line
  exact hcarried.unclosed

/-- What is offered is queued behind the others of its channel, or it is a heartbeat too many. -/
theorem Sound.offered {p : Pipe P} {owned : EventId → Nat} {given polled : List EventRef}
    {id : EventId} (h : Sound events bytes able first ⟨⟨p, owned⟩, given, polled⟩)
    (here : owned id = 1) :
    Sound events bytes able first ⟨⟨(p.offer ⟨id, events id⟩).1, Function.update owned id 0⟩,
      given ++ [⟨id, events id⟩], polled⟩ := by
  have hknown : id < p.commons.ledger.entries.size :=
    h.scene.served.guarded.accounted.owning id (Nat.lt_of_lt_of_eq Nat.zero_lt_one here.symm)
  have hfresh : ∀ e ∈ polled ++ p.queue.channels.toList, e.id ≠ id := by
    rintro e he rfl
    have howned : owned e.id = 0 := (h.given e he).2
    rw [here] at howned
    cases howned
  have hsize := size_offer p ⟨id, events id⟩
  have halive : ((p.offer ⟨id, events id⟩).1.books none 0).Alive (Function.update owned id 0) := by
    have hgiven := h.scene.served.given here
    have hheld : ((p.books none 0).handed (.waiting ⟨id, events id⟩)).Alive _ :=
      h.alive.given here
    rw [← books_handed] at hgiven hheld
    have hoffered : Leads True _ _ := leads_offer p ⟨id, events id⟩
    exact hoffered.alive h.unclosed hgiven.guarded hheld
  have hscene : Scene.Sound events (fun _ => True) (fun _ => True)
      ⟨(p.offer ⟨id, events id⟩).1, Function.update owned id 0⟩ := by
    have hstep : Step events ⟨⟨p, owned⟩, given, polled⟩ _ := .offered here
    exact hstep.scene h h.rests.single
  have hothers : ∀ e ∈ polled ++ p.queue.channels.toList,
      e.id < (p.offer ⟨id, events id⟩).1.commons.ledger.entries.size ∧
        Function.update owned id 0 e.id = 0 := by
    intro e he
    obtain ⟨hlt, howned⟩ := h.given e he
    exact ⟨hsize ▸ hlt, (Function.update_of_ne (hfresh e he) ..).trans howned⟩
  have hrests : (Chronicle.journey ⟨⟨(p.offer ⟨id, events id⟩).1, Function.update owned id 0⟩,
      given ++ [⟨id, events id⟩], polled⟩ bytes able first).Rests (p.offer ⟨id, events id⟩).1 :=
    h.rests.queued (p.queue.offer p.commons ⟨id, events id⟩).1
      (p.queue.offer p.commons ⟨id, events id⟩).2.1
  have hchannels := channels_offer p ⟨id, events id⟩
  cases hpush : p.queue.channels.push? ⟨id, events id⟩ with
  | none =>
      have hbeat := Queue.Channels.isHeartbeat_of_push?_none hpush
      rw [hpush, Option.getD_none] at hchannels
      refine ⟨hscene, halive, hrests, ?_, ?_, ?_, ?_⟩
      · rw [hchannels, tabletsOf_append, tabletsOf_of_heartbeat hbeat, List.append_nil]
        exact h.order
      · exact hchannels ▸ h.bulky
      · exact hchannels ▸ h.distinct
      · exact hchannels ▸ hothers
  | some channels =>
      rw [hpush, Option.getD_some] at hchannels
      have hperm : (polled ++ channels.toList).Perm
          (⟨id, events id⟩ :: (polled ++ p.queue.channels.toList)) :=
        ((Queue.Channels.perm_push hpush).append_left polled).trans List.perm_middle
      refine ⟨hscene, halive, hrests, ?_, ?_, ?_, ?_⟩
      · have horder : tabletsOf given = tabletsOf polled ++ tabletsOf p.queue.channels.live :=
          h.order
        rw [hchannels, tabletsOf_append, horder]
        rcases Queue.Channels.push?_some hpush with ⟨hbulk, hlive, _⟩ | ⟨_, hlive, _⟩
        · rw [hlive, tabletsOf_of_bulk hbulk, List.append_nil]
        · rw [hlive, tabletsOf_append, List.append_assoc]
      · rw [hchannels]
        rcases Queue.Channels.push?_some hpush with ⟨hbulk, _, hqueued⟩ | ⟨_, _, hqueued⟩
        · rw [hqueued]
          intro e he
          rcases List.mem_append.mp he with he | he
          · exact h.bulky e he
          · rw [List.mem_singleton.mp he]
            exact hbulk
        · rw [hqueued]
          exact h.bulky
      · rw [hchannels, (hperm.map EventRef.id).nodup_iff, List.map_cons, List.nodup_cons]
        refine ⟨fun hmem => ?_, h.distinct⟩
        obtain ⟨e, he, hsame⟩ := List.mem_map.mp hmem
        exact hfresh e he hsame
      · intro e he
        rw [hchannels] at he
        rcases List.mem_cons.mp (hperm.mem_iff.mp he) with rfl | he
        · exact ⟨hsize ▸ hknown, Function.update_self ..⟩
        · exact hothers e he

/-- A step of a task. What it retrieves was queued, and is polled now. -/
theorem Sound.ran (encodes : Batch.Encodes bytes able) {p : Pipe P} {owned : EventId → Nat}
    {given polled : List EventRef}
    (h : Sound events bytes able first ⟨⟨p, owned⟩, given, polled⟩) (id : TaskId) :
    Sound events bytes able first
        ⟨⟨p.run id, owned⟩, given, polled ++ p.departed (p.run id)⟩ ∧
      ((p.run id).fileRequests = p.fileRequests ∨
        ∃ a link, p.task? id = some (.transfer a link)) := by
  have hguarded := h.scene.served.guarded
  have hleads : Leads True (p.books none 0) ((p.run id).books none 0) :=
    leads_run p id (.inl trivial)
  obtain ⟨hclosed, _, hsize⟩ := hleads.fixed hguarded.numbered
  have hdistinct : ((polled ++ p.queue.channels.toList).map EventRef.id).Nodup := h.distinct
  rw [List.map_append, List.nodup_append] at hdistinct
  have hgoes := h.rests.run encodes hguarded.numbered (h.scene.alone.room id)
    (fun e he => ⟨h.live (.inl he), fun e' he' => hdistinct.2.2 _ (List.mem_map_of_mem he') _
      (List.mem_map_of_mem he)⟩)
    (fun e he => h.live (.inr he)) hdistinct.1 (hclosed.trans h.unclosed)
  obtain ⟨⟨event, channels, hgives, hrests⟩, hasks⟩ := hgoes
  obtain ⟨_, _, hcarried⟩ := hrests.line
  have hchannels : (p.run id).queue.channels = channels := hcarried.channels
  subst hchannels
  have hdeparted : p.departed (p.run id) = event.toList := departed_eq hgives hdistinct.2.1
  have hperm : (polled ++ event.toList ++ (p.run id).queue.channels.toList).Perm
      (polled ++ p.queue.channels.toList) := by
    rw [List.append_assoc]
    exact hgives.perm.symm.append_left polled
  have hscene : Scene.Sound events (fun _ => True) (fun _ => True) _ :=
    Step.scene (.ran id) h hrests.single
  rw [hdeparted]
  refine ⟨⟨hscene, hleads.alive h.unclosed hguarded h.alive, hrests, ?_, ?_, ?_, ?_⟩, hasks⟩
  · have horder : tabletsOf given = tabletsOf polled ++ tabletsOf p.queue.channels.live := h.order
    rw [horder, tabletsOf_append, List.append_assoc]
    congr 1
    cases hgives with
    | nothing hlive => rw [hlive]; rfl
    | live hlive => rw [hlive, ← List.singleton_append, tabletsOf_append]; rfl
    | bulk hlive hbulk =>
        have hfile := h.bulky _ (hbulk.mem_iff.mpr (List.mem_cons_self ..))
        rw [hlive, Option.toList_some, tabletsOf_of_bulk hfile, List.nil_append]
  · intro e he
    cases hgives with
    | nothing _ hbulk => exact h.bulky e (hbulk ▸ he)
    | live _ hbulk => exact h.bulky e (hbulk ▸ he)
    | bulk _ hbulk => exact h.bulky e (hbulk.mem_iff.mpr (List.mem_cons_of_mem _ he))
  · exact (hperm.map EventRef.id).nodup_iff.mpr h.distinct
  · intro e he
    obtain ⟨hlt, howned⟩ := h.given e (hperm.mem_iff.mp he)
    exact ⟨Nat.lt_of_lt_of_eq hlt hsize.symm, howned⟩

theorem Step.sound (encodes : Batch.Encodes bytes able) (h : Step events c c')
    (hs : c.Sound events bytes able first) : c'.Sound events bytes able first := by
  have hguarded := hs.scene.served.guarded
  cases h with
  | @built p owned given polled retryMs =>
      have hstays : Stays p (p.built retryMs) := {}
      have hrests := hs.rests.next hstays rfl
      have hscene : Scene.Sound events (fun _ => True) (fun _ => True) _ :=
        Step.scene (.built retryMs) hs hrests.single
      refine hs.stays hscene (hs.alive.built retryMs) hrests fun id hlt howned => ?_
      have hsize : (p.built retryMs).commons.ledger.entries.size =
          p.commons.ledger.entries.size + 1 := Ledger.size_enrol _ _
      have hne : id ≠ p.commons.ledger.entries.size := Nat.ne_of_lt hlt
      exact ⟨hsize ▸ Nat.lt_succ_of_lt hlt, (Function.update_of_ne hne ..).trans howned⟩
  | offered here => exact hs.offered here
  | @aside p p' owned given polled beside peer single =>
      have hleads : Leads True (p.books none 0) (p'.books none 0) := leads_aside beside
      have hscene : Scene.Sound events (fun _ => True) (fun _ => True) _ :=
        Step.scene (.aside beside peer single) hs single
      refine hs.stays hscene (hleads.alive hs.unclosed hguarded hs.alive)
        (hs.rests.aside beside peer single) fun id hlt howned => ?_
      exact ⟨Nat.lt_of_lt_of_eq hlt (hleads.fixed hguarded.numbered).2.2.symm, howned⟩
  | ran id => exact (hs.ran encodes id).1

structure IsNew (c : Chronicle P) : Prop where
  scene : c.scene.IsNew
  offered : c.offered = []
  polled : c.polled = []

theorem sound_of_new (new : c.IsNew) (fit : able c.scene.pipe.batch.payload)
    (empty : bytes c.scene.pipe.batch.payload = [])
    (accepts : c.scene.pipe.peer.Accepts c.scene.pipe.connector.settings.requestTimeoutMs) :
    c.Sound events bytes able c.scene.pipe.peer.log := by
  obtain ⟨hscene, hoffered, hpolled⟩ := new
  obtain ⟨hlive, hbulk⟩ := List.append_eq_nil_iff.mp hscene.pipe.queue
  have hsound : c.scene.Sound events (fun _ => True) fun _ => True := Pipe.sound_of_new hscene
  have hconsumers : c.scene.pipe.consumers = [] := by
    rw [consumers, hscene.pipe.tasks]
    rfl
  have hdeferred : c.scene.pipe.deferred = [] := by
    rw [deferred, hscene.pipe.pending, hconsumers]
    rfl
  have hflight : c.scene.pipe.inFlight = [] := by
    rw [inFlight, hconsumers]
    rfl
  refine ⟨hsound, fun id hid => ?_, ⟨hsound.single, ⟨[], ?_, ?_⟩, fun t ht => ?_⟩, ?_, ?_, ?_, ?_⟩
  · have hsize : (c.scene.pipe.books none 0).ledger.entries.size = 0 := by
      simp [books, hscene.pipe.ledger]
    rw [hsize] at hid
    cases hid
  · rw [hdeferred]
    exact hpolled
  · rw [hflight]
    refine ⟨⟨[], (List.append_nil _).symm, ?_⟩, fun e he => ?_, fun _ => empty, fit,
      hscene.pipe.batchOpen, hscene.pipe.unclosed, accepts, fun e he => ?_, fun t ht => ?_,
      rfl, rfl⟩
    · rw [List.append_nil, List.nil_append]
      exact empty
    · rw [hscene.pipe.batch] at he
      cases he
    · rw [tended, hscene.pipe.tasks, hscene.pipe.retryQueue] at he
      cases he
    · rw [hscene.pipe.tasks] at ht
      cases ht
  · rw [hconsumers] at ht
    cases ht
  · rw [hoffered, hpolled, hlive]
    rfl
  · rw [hbulk]
    exact fun e he => absurd he List.not_mem_nil
  · rw [hpolled, hscene.pipe.queue]
    exact List.nodup_nil
  · rw [hpolled, hscene.pipe.queue]
    exact fun e he => absurd he List.not_mem_nil

theorem sound_of_reach (encodes : Batch.Encodes bytes able) (hs : c.Sound events bytes able first)
    (reach : Relation.ReflTransGen (Step events) c c') : c'.Sound events bytes able first := by
  induction reach with
  | refl => exact hs
  | tail _ hstep ih => exact hstep.sound encodes ih

omit [Batch.Payload P] in
theorem Sound.deferred_le (h : c.Sound events bytes able first) :
    c.scene.pipe.deferred.length ≤ 1 := by
  have hpending : c.scene.pipe.pending.toList.length ≤ 1 := by
    cases c.scene.pipe.pending with
    | none => exact Nat.zero_le 1
    | some e => exact Nat.le_refl 1
  match hconsumers : c.scene.pipe.consumers with
  | [] =>
      rw [deferred, hconsumers, List.flatMap_nil, List.append_nil]
      exact hpending
  | [t] =>
      by_cases hpausing : ∃ e until_, t.process = .pausing e until_
      · obtain ⟨e, until_, heq⟩ := hpausing
        have hmem : t ∈ c.scene.pipe.consumers := hconsumers ▸ List.mem_singleton_self t
        have hroom := h.scene.alone.returns t hmem (by rw [heq]; rfl)
        simp [deferred, hconsumers, hroom, heq, Process.paused]
      · have hpaused : t.process.paused = [] := by
          cases heq : t.process with
          | pausing e until_ => exact absurd ⟨e, until_, heq⟩ hpausing
          | _ => rfl
        rw [deferred, hconsumers, List.flatMap_singleton, hpaused, List.append_nil]
        exact hpending
  | t :: t' :: rest =>
      have hsingle := h.rests.single
      rw [hconsumers, List.length_cons, List.length_cons] at hsingle
      omega

/-- A step that asks for a file is one of a transfer, and the tablets ahead of the file are in the
log. -/
theorem Step.asks (encodes : Batch.Encodes bytes able) (hs : c.Sound events bytes able first)
    (h : Step events c c') (asks : c'.scene.pipe.fileRequests ≠ c.scene.pipe.fileRequests) :
    ∃ id a link ahead behind, c.scene.pipe.task? id = some (.transfer a link) ∧
      c'.scene.pipe = c.scene.pipe.run id ∧ a.event.event.isBulk = true ∧
      c.polled = ahead ++ a.event :: behind ∧
      first ++ Batch.transcript (tabletsOf ahead) <+: c.scene.pipe.peer.log := by
  cases h with
  | built => exact absurd rfl asks
  | offered => exact absurd rfl asks
  | @aside p p' owned given polled beside peer single =>
      obtain ⟨_, _, hcarried⟩ := (hs.rests.aside beside peer single).line
      exact absurd hcarried.filed asks
  | @ran p owned given polled id =>
      obtain ⟨a, link, htask⟩ := (hs.ran encodes id).2.resolve_left asks
      obtain ⟨_, _, hcarried⟩ := hs.rests.line
      have htended : a.event ∈ p.tended :=
        List.mem_append_left _ (List.mem_filterMap.mpr ⟨_, mem_of_task? htask, rfl⟩)
      obtain ⟨hbulk, ahead, behind, hpolled, hlog⟩ := hcarried.files a.event htended
      rw [← transcript_tabletsOf] at hlog
      exact ⟨id, a, link, ahead, behind, htask, rfl, hbulk, hpolled, hlog⟩

/-- Whatever happened until now, the log of the peer goes on with the tablets that were polled, in
the order in which they were offered. Of those that are not there yet the first are under way, the
others are batched, and the last one may wait because it could not be encoded. Whoever asks for a
file finds the tablets that were polled ahead of it in the log. -/
theorem tablets_in_order (encodes : Batch.Encodes bytes able) {c c' : Chronicle P} (new : c.IsNew)
    (fit : able c.scene.pipe.batch.payload) (empty : bytes c.scene.pipe.batch.payload = [])
    (accepts : c.scene.pipe.peer.Accepts c.scene.pipe.connector.settings.requestTimeoutMs)
    (reach : Relation.ReflTransGen (Step events) c c') :
    (∃ sent taken, c'.scene.pipe.peer.log = c.scene.pipe.peer.log ++ sent ∧
        c'.polled = taken ++ c'.scene.pipe.deferred ∧
        sent ++ c'.scene.pipe.inFlight ++ bytes c'.scene.pipe.batch.payload =
          Batch.transcript (tabletsOf taken)) ∧
      c'.scene.pipe.deferred.length ≤ 1 ∧
      tabletsOf c'.offered = tabletsOf c'.polled ++ tabletsOf c'.scene.pipe.queue.channels.live ∧
      ∀ c'', Step events c' c'' → c''.scene.pipe.fileRequests ≠ c'.scene.pipe.fileRequests →
        ∃ id a link ahead behind, c'.scene.pipe.task? id = some (.transfer a link) ∧
          c''.scene.pipe = c'.scene.pipe.run id ∧ a.event.event.isBulk = true ∧
          c'.polled = ahead ++ a.event :: behind ∧
          c.scene.pipe.peer.log ++ Batch.transcript (tabletsOf ahead) <+:
            c'.scene.pipe.peer.log := by
  have hnew : c.Sound events bytes able c.scene.pipe.peer.log :=
    sound_of_new new fit empty accepts
  have hsound := sound_of_reach encodes hnew reach
  obtain ⟨taken, hpolled, hcarried⟩ := hsound.rests.line
  obtain ⟨sent, hlog, hsent⟩ := hcarried.sent
  refine ⟨⟨sent, taken, hlog, hpolled, ?_⟩, hsound.deferred_le, hsound.order,
    fun c'' hstep hasks => hstep.asks encodes hsound hasks⟩
  rw [transcript_tabletsOf]
  exact hsent

/-- A tablet is turned away at first and batched after a pause. It is on its way when the file
behind it is polled, and in the log when that is asked for. -/
theorem tablets_in_order_after_busy :
    let tablet : Event := {
      content := .tablet { target := "", rows := 0, payload := [1] }, pipe := "a", region := 1
      commit := .zero, progress := 0 }
    let file : Event := {
      content := .file { data := "/f", mods := none, flushPoints := 0 }, pipe := "a", region := 1
      commit := .zero, progress := 0 }
    let p : Pipe Batch.ScriptedPayload := {
      commons := { memory := { Memory.Context.ofSettings {} with budget := some {
        block := .empty .batch, slices := [{ requested := 100, granted := 100 }] } } }
      queue := { pipe := "q", settings := {}, block := 0 }
      batch := { id := "b", maxDelayMs := 60000, slice := 0, payload := { script := [.busy] } }
      connector := .create "c" {}
      clients := .ofClients [0]
      disk := { names := [(["f"], 0)], contents := #[[7]] }
      peer := { fallback := .pass } }
    let started := ((((p.built 0).built 0).offer ⟨0, tablet⟩).1.offer ⟨1, file⟩).1.startConsumer
    let paused := (started.run 0).run 0
    let sending := (paused.run 0).run 0
    let sent := sending.run 0
    let bytes : Bytes := [0, 0, 0, 0, 0, 0, 0, 0, 0, 0, 0, 1, 1]
    paused.deferred = [⟨0, tablet⟩] ∧ sending.inFlight = bytes ∧
      ∀ id, (sent.run id).fileRequests ≠ sent.fileRequests → bytes <+: sent.peer.log := by
  intro tablet file p started paused sending sent bytes
  let events : EventId → Event := fun id => if id = 0 then tablet else file
  have new : Chronicle.IsNew ⟨⟨p, fun _ => 0⟩, [], []⟩ :=
    ⟨⟨⟨rfl, rfl, rfl, rfl, rfl, rfl, rfl, rfl, rfl, rfl, rfl⟩, rfl⟩, rfl, rfl⟩
  have fit : ∀ o ∈ p.batch.payload.script, o = .plain ∨ o = .busy := by decide
  have accepts : p.peer.Accepts p.connector.settings.requestTimeoutMs :=
    ⟨rfl, fun _ _ hrow => absurd hrow List.not_mem_nil, rfl, rfl⟩
  let held : EventId → Nat := Function.update (Function.update (fun _ => 0) 0 1) 1 1
  have tabletHere : held 0 = 1 := by decide +kernel
  have fileHere : Function.update held 0 0 1 = 1 := by decide +kernel
  obtain ⟨owned, given, reach⟩ : ∃ owned given, Relation.ReflTransGen (Step events)
      ⟨⟨p, fun _ => 0⟩, [], []⟩ ⟨⟨sent, owned⟩, given, [⟨0, tablet⟩, ⟨1, file⟩]⟩ := by
    have hpolled : [] ++ started.departed (started.run 0) ++
        (started.run 0).departed paused ++ paused.departed (paused.run 0) ++
        (paused.run 0).departed sending ++ sending.departed sent =
          [⟨0, tablet⟩, ⟨1, file⟩] := by
      decide +kernel
    rw [← hpolled]
    exact ⟨_, _, .head (.built 0) (.head (.built 0) (.head (.offered tabletHere)
      (.head (.offered fileHere) (.head (.aside .startConsumer rfl (by decide +kernel))
        (.head (.ran 0) (.head (.ran 0) (.head (.ran 0) (.head (.ran 0)
          (.single (.ran 0))))))))))⟩
  have hpaused : paused.deferred = [⟨0, tablet⟩] := by decide +kernel
  have hsending : sending.inFlight = bytes := by decide +kernel
  have hordered := tablets_in_order Batch.encodes_scripted new fit rfl accepts reach
  clear_value sent
  refine ⟨hpaused, hsending, fun id hasks => ?_⟩
  obtain ⟨_, a, _, ahead, behind, _, _, hbulk, hsplit, hlog⟩ :=
    hordered.2.2.2 _ (.ran id) hasks
  have hahead : ahead = [⟨0, tablet⟩] := by
    match ahead with
    | [] =>
        rw [← (List.cons.inj hsplit).1] at hbulk
        cases hbulk
    | [e] => exact congrArg (·.take 1) hsplit.symm
    | e :: e' :: rest => simp at hsplit
  have hwritten : p.peer.log ++ Batch.transcript (tabletsOf [⟨0, tablet⟩]) = bytes := by
    decide +kernel
  rw [← hwritten, ← hahead]
  exact hlog

end Chronicle
end Pipe
end Courier
