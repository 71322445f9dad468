import Courier.Proofs.Queue.History
import Mathlib.Data.List.Basic

/-!
Nothing that a queue accepted is lost, doubled or put out of turn. Every accepted offer has a
ticket, which is its place among the accepted, so that two offers of one event can be told apart.
What an operation does is said of the tickets; the queue holds the events of those that are still
queued, in the order in which they were accepted.
-/

namespace Courier
namespace Queue

/-- An accepted offer, with the number of offers accepted before it. -/
abbrev Ticket := EventRef × Nat

/-- What became of the offers that a queue accepted. -/
structure Register where
  accepted : List EventRef := []
  live : List Ticket := []
  bulk : List Ticket := []
  polled : List Ticket := []
  cleared : List Ticket := []
  discarded : List Ticket := []

namespace Register

variable {r r' : Register} {c c' : Channels}

/-- The tickets of what is queued, files last. -/
def queued (r : Register) : List Ticket := r.live ++ r.bulk

/-- The tickets of what was taken out. -/
def taken (r : Register) : List Ticket := r.polled ++ r.cleared ++ r.discarded

/-- The next ticket, last in its channel. -/
def accept (r : Register) (e : EventRef) : Register :=
  if e.event.isBulk then
    { r with accepted := r.accepted ++ [e], bulk := r.bulk ++ [(e, r.accepted.length)] }
  else { r with accepted := r.accepted ++ [e], live := r.live ++ [(e, r.accepted.length)] }

def clear (r : Register) : Register :=
  { r with live := [], bulk := [], cleared := r.cleared ++ r.queued }

def discardAll (r : Register) : Register :=
  { r with live := [], bulk := [], discarded := r.discarded ++ r.queued }

/-- The queued tickets of one pipe instance. -/
def queuedOf (r : Register) (pipe : String) (region : Int) : List Ticket :=
  r.queued.filter fun t => t.1.belongsTo pipe region

def discard (r : Register) (pipe : String) (region : Int) : Register :=
  { r with
    live := r.live.filter fun t => !t.1.belongsTo pipe region
    bulk := r.bulk.filter fun t => !t.1.belongsTo pipe region
    discarded := r.discarded ++ r.queuedOf pipe region }

/-- A retrieval is of the first live ticket, or of a file at one of the two ends. -/
inductive Polls (r : Register) : Option EventRef → Register → Prop
  | nothing (empty : r.live = []) : Polls r none r
  | live {t : Ticket} {rest : List Ticket} (first : r.live = t :: rest) :
      Polls r (some t.1) { r with live := rest, polled := r.polled ++ [t] }
  | oldest {t : Ticket} {rest : List Ticket} (first : r.bulk = t :: rest) :
      Polls r (some t.1) { r with bulk := rest, polled := r.polled ++ [t] }
  | newest {t : Ticket} {rest : List Ticket} (last : r.bulk = rest ++ [t]) :
      Polls r (some t.1) { r with bulk := rest, polled := r.polled ++ [t] }

inductive Drains : Register → List EventRef → Register → Prop
  | done {r : Register} : Drains r [] r
  | next {r r' r'' : Register} {e : EventRef} {events : List EventRef}
      (polls : r.Polls (some e) r') (rest : Drains r' events r'') : Drains r (e :: events) r''

/-- How the tickets move with an operation, given what it was answered. -/
inductive Moves (r : Register) : Operation → Reply Empty → Register → Prop
  | accepted {e : EventRef} : Moves r (.offer e) (.flag true) (r.accept e)
  | coalesced {e : EventRef} (beat : e.event.isHeartbeat = true) :
      Moves r (.offer e) (.flag false) r
  | polled {event : Option EventRef} {r' : Register} (polls : r.Polls event r') :
      Moves r .poll (.event event) r'
  | drained {events : List EventRef} {r' : Register} (drains : r.Drains events r') :
      Moves r .drain (.events events) r'
  | peeked : Moves r .peek (.event (r.queued.head?.map Prod.fst)) r
  | listed : Moves r .list (.events (r.queued.map Prod.fst)) r
  | cleared : Moves r .clear (.events (r.queued.map Prod.fst)) r.clear
  | discardedAll : Moves r .discardAll .done r.discardAll
  | discarded (pipe : String) (region : Int) :
      Moves r (.discard pipe region) (.count (r.queuedOf pipe region).length)
        (r.discard pipe region)
  | shutdown : Moves r .shutdown .done r
  | shared (o : Commons.Operation) (reply : Reply Empty) : Moves r (.shared o) reply r

/-- The tickets account for the channels: each accepted offer is in one place, and what is queued
lies there in the order in which it was accepted. -/
structure Accounts (r : Register) (c : Channels) : Prop where
  live : r.live.map Prod.fst = c.live
  bulk : r.bulk.map Prod.fst = c.bulk
  perm : r.accepted.zipIdx.Perm (r.taken ++ r.queued)
  liveOrder : r.live.Sublist (r.accepted.zipIdx.filter fun t => !t.1.event.isBulk)
  bulkOrder : r.bulk.Sublist (r.accepted.zipIdx.filter fun t => t.1.event.isBulk)

theorem accounts_new : ({} : Register).Accounts {} :=
  ⟨rfl, rfl, .refl _, .refl _, .refl _⟩

theorem Accounts.toList (h : r.Accounts c) : r.queued.map Prod.fst = c.toList := by
  rw [queued, List.map_append, h.live, h.bulk, Channels.toList]

/-- Tickets that go elsewhere leave the others in their order. -/
theorem Accounts.moved (h : r.Accounts c) (accepted : r'.accepted = r.accepted)
    (live : r'.live.Sublist r.live) (bulk : r'.bulk.Sublist r.bulk)
    (perm : (r.taken ++ r.queued).Perm (r'.taken ++ r'.queued))
    (left : r'.live.map Prod.fst = c'.live) (right : r'.bulk.map Prod.fst = c'.bulk) :
    r'.Accounts c' := by
  refine ⟨left, right, ?_, ?_, ?_⟩
  · rw [accepted]
    exact h.perm.trans perm
  · rw [accepted]
    exact live.trans h.liveOrder
  · rw [accepted]
    exact bulk.trans h.bulkOrder

theorem Accounts.accept (h : r.Accounts c) {e : EventRef} (pushed : c.push? e = some c') :
    (r.accept e).Accounts c' := by
  have hnew : (r.accepted ++ [e]).zipIdx = r.accepted.zipIdx ++ [(e, r.accepted.length)] := by
    simp [List.zipIdx_append]
  rcases Channels.push?_some pushed with ⟨hbulk, hlive, hback⟩ | ⟨hlight, hback, hbulk⟩
  · rw [Register.accept, if_pos hbulk]
    refine ⟨h.live.trans hlive.symm, ?_, ?_, ?_, ?_⟩
    · simp [h.bulk, hback]
    · rw [hnew]
      have hlast := h.perm.append_right [(e, r.accepted.length)]
      simpa [taken, queued, List.append_assoc] using hlast
    · rw [hnew, List.filter_append]
      exact h.liveOrder.trans (List.sublist_append_left _ _)
    · rw [hnew, List.filter_append]
      simpa [hbulk] using h.bulkOrder.append_right [(e, r.accepted.length)]
  · rw [Register.accept, if_neg (by simp [hlight])]
    refine ⟨?_, h.bulk.trans hbulk.symm, ?_, ?_, ?_⟩
    · simp [h.live, hback]
    · rw [hnew]
      refine (h.perm.append_right [(e, r.accepted.length)]).trans ?_
      refine List.perm_iff_count.mpr fun t => ?_
      simp only [taken, queued, List.count_append]
      omega
    · rw [hnew, List.filter_append]
      simpa [hlight] using h.liveOrder.append_right [(e, r.accepted.length)]
    · rw [hnew, List.filter_append]
      exact h.bulkOrder.trans (List.sublist_append_left _ _)

theorem Accounts.polls (h : r.Accounts c) {allowed : Bool} {event : Option EventRef}
    (serves : c.Serves c' allowed event) : ∃ r', r.Polls event r' ∧ r'.Accounts c' := by
  cases serves with
  | nothing empty barred live bulk =>
      have hempty : r.live = [] := List.map_eq_nil_iff.mp (h.live.trans empty)
      exact ⟨r, .nothing hempty, h.moved rfl (.refl _) (.refl _) (.refl _)
        (h.live.trans live.symm) (h.bulk.trans bulk.symm)⟩
  | live live bulk =>
      obtain ⟨t, rest, hfirst, rfl, hrest⟩ := List.map_eq_cons_iff.mp (h.live.trans live)
      refine ⟨_, .live hfirst, h.moved rfl ?_ (.refl _) ?_ hrest (h.bulk.trans bulk.symm)⟩
      · rw [hfirst]
        exact List.sublist_cons_self t rest
      · refine List.perm_iff_count.mpr fun x => ?_
        simp only [taken, queued, hfirst, List.count_append, List.count_cons, List.count_nil]
        omega
  | oldest may live bulk =>
      obtain ⟨t, rest, hfirst, rfl, hrest⟩ := List.map_eq_cons_iff.mp (h.bulk.trans bulk)
      refine ⟨_, .oldest hfirst, h.moved rfl (.refl _) ?_ ?_ (h.live.trans live.symm) hrest⟩
      · rw [hfirst]
        exact List.sublist_cons_self t rest
      · refine List.perm_iff_count.mpr fun x => ?_
        simp only [taken, queued, hfirst, List.count_append, List.count_cons, List.count_nil]
        omega
  | newest may live bulk =>
      obtain ⟨rest, last, hsplit, hrest, hlast⟩ := List.map_eq_append_iff.mp (h.bulk.trans bulk)
      obtain ⟨t, rfl, rfl⟩ := List.map_eq_singleton_iff.mp hlast
      refine ⟨_, .newest hsplit, h.moved rfl (.refl _) ?_ ?_ (h.live.trans live.symm) hrest⟩
      · rw [hsplit]
        exact List.sublist_append_left rest [t]
      · refine List.perm_iff_count.mpr fun x => ?_
        simp only [taken, queued, hsplit, List.count_append, List.count_cons, List.count_nil]
        omega

theorem Accounts.drains {q q' : Realtime} {commons commons' : Commons} {events : List EventRef}
    (drains : Realtime.Drains q commons events q' commons') (h : r.Accounts q.channels) :
    ∃ r', r.Drains events r' ∧ r'.Accounts q'.channels := by
  induction drains generalizing r with
  | out => exact ⟨r, .done, h⟩
  | @stop q q' commons commons' polled =>
      have hserves := (q.poll_fields commons).1
      rw [polled] at hserves
      obtain ⟨r', hpolls, hnext⟩ := h.polls hserves
      cases hpolls
      exact ⟨r, .done, hnext⟩
  | @next q q' _ commons commons' _ e events polled rest ih =>
      have hserves := (q.poll_fields commons).1
      rw [polled] at hserves
      obtain ⟨r', hpolls, hnext⟩ := h.polls hserves
      obtain ⟨r'', hdrains, hlast⟩ := ih hnext
      exact ⟨r'', .next hpolls hdrains, hlast⟩

theorem Accounts.clear (h : r.Accounts c) : r.clear.Accounts { c with live := [], bulk := [] } := by
  refine h.moved rfl (List.nil_sublist _) (List.nil_sublist _) ?_ rfl rfl
  refine List.perm_iff_count.mpr fun t => ?_
  simp only [taken, queued, Register.clear, List.count_append, List.count_nil]
  omega

theorem Accounts.discardAll (h : r.Accounts c) :
    r.discardAll.Accounts { c with live := [], bulk := [] } := by
  refine h.moved rfl (List.nil_sublist _) (List.nil_sublist _) ?_ rfl rfl
  simp [taken, queued, Register.discardAll, List.append_assoc]

theorem Accounts.discard (h : r.Accounts c) (pipe : String) (region : Int) :
    (r.discard pipe region).Accounts (c.removePipe pipe region).1 := by
  refine h.moved rfl List.filter_sublist List.filter_sublist ?_ ?_ ?_
  · have hsplit : (r.queuedOf pipe region ++
        r.queued.filter fun t => !t.1.belongsTo pipe region).Perm r.queued :=
      List.filter_append_perm _ _
    have hboth := (hsplit.append_left r.taken).symm
    simpa [taken, queued, Register.discard, List.filter_append, List.append_assoc] using hboth
  · rw [Channels.removePipe, ← h.live, List.filter_map]
    rfl
  · rw [Channels.removePipe, ← h.bulk, List.filter_map]
    rfl

/-- Whatever is done to the queue, the tickets can follow. -/
theorem Accounts.moves {q : Realtime} (h : r.Accounts q.channels) (commons : Commons)
    (o : Operation) : ∃ r', r.Moves o (q.answer commons o) r' ∧
      r'.Accounts (q.perform commons o : Realtime × Commons × Reply Empty).1.channels := by
  cases o with
  | offer e =>
      cases hpush : q.channels.push? e with
      | none =>
          obtain ⟨hchannels, -, hflag⟩ := Realtime.offer_of_refused commons hpush
          have hbeat := Channels.isHeartbeat_of_push?_none hpush
          have hanswer : q.answer commons (.offer e) = .flag false := congrArg Reply.flag hflag
          have hsame : r.Accounts (q.offer commons e).1.channels := hchannels ▸ h
          exact ⟨r, hanswer ▸ .coalesced hbeat, hsame⟩
      | some channels =>
          obtain ⟨hchannels, -, hflag⟩ := Realtime.offer_of_pushed commons hpush
          have hanswer : q.answer commons (.offer e) = .flag true := congrArg Reply.flag hflag
          have hnext : (r.accept e).Accounts (q.offer commons e).1.channels :=
            hchannels ▸ h.accept hpush
          exact ⟨r.accept e, hanswer ▸ .accepted, hnext⟩
  | poll =>
      obtain ⟨r', hpolls, hnext⟩ := h.polls (q.poll_fields commons).1
      exact ⟨r', .polled hpolls, hnext⟩
  | drain =>
      obtain ⟨r', hdrains, hnext⟩ := h.drains (q.drains_drain commons)
      exact ⟨r', .drained hdrains, hnext⟩
  | peek =>
      have hfirst : r.queued.head?.map Prod.fst = q.channels.peek? := by
        rw [Channels.peek?, ← h.toList, List.head?_map]
      have hanswer : q.answer commons .peek = .event (r.queued.head?.map Prod.fst) := by
        rw [hfirst]
        rfl
      exact ⟨r, hanswer ▸ .peeked, h⟩
  | list =>
      have hanswer : q.answer commons .list = .events (r.queued.map Prod.fst) := by
        rw [h.toList]
        rfl
      exact ⟨r, hanswer ▸ .listed, h⟩
  | clear =>
      have hanswer : q.answer commons .clear = .events (r.queued.map Prod.fst) := by
        rw [h.toList]
        rfl
      exact ⟨r.clear, hanswer ▸ .cleared, h.clear⟩
  | discardAll => exact ⟨r.discardAll, .discardedAll, h.discardAll⟩
  | discard pipe region =>
      have hcount : (q.channels.removePipe pipe region).2.length =
          (r.queuedOf pipe region).length := by
        rw [Channels.removePipe, ← h.toList, List.filter_map, List.length_map]
        rfl
      have hanswer : q.answer commons (.discard pipe region) =
          .count (r.queuedOf pipe region).length := by
        rw [← hcount]
        rfl
      have hnext := h.discard pipe region
      rw [← (q.discardPipe_fields commons pipe region).1] at hnext
      exact ⟨r.discard pipe region, hanswer ▸ .discarded pipe region, hnext⟩
  | shutdown => exact ⟨r, .shutdown, h⟩
  | shared o => exact ⟨r, .shared o _, h⟩

/-- The tickets along a history of the queue. -/
inductive Follows : Realtime → Commons → Register → List Operation → Register → Prop
  | nil {q : Realtime} {commons : Commons} {r : Register} : Follows q commons r [] r
  | cons {q : Realtime} {commons : Commons} {r r' r'' : Register} {o : Operation}
      {ops : List Operation} (moves : r.Moves o (q.answer commons o) r')
      (rest : Follows (q.after commons [o]).1 (q.after commons [o]).2 r' ops r'') :
      Follows q commons r (o :: ops) r''

theorem Accounts.follows {q : Realtime} (h : r.Accounts q.channels) (commons : Commons)
    (ops : List Operation) :
    ∃ r', Follows q commons r ops r' ∧ r'.Accounts (q.after commons ops).1.channels := by
  induction ops generalizing q commons r with
  | nil => exact ⟨r, .nil, h⟩
  | cons o ops ih =>
      obtain ⟨r', hmoves, hnext⟩ := h.moves commons o
      obtain ⟨r'', hrest, hlast⟩ := ih hnext _
      exact ⟨r'', .cons hmoves hrest, hlast⟩

/-- Tickets are numbered as they are given out, and none overtakes another. -/
theorem Accounts.ascending (h : r.Accounts c) : r.live.Pairwise fun t t' => t.2 < t'.2 := by
  have hall : r.accepted.zipIdx.Pairwise fun t t' => t.2 < t'.2 := by
    apply List.pairwise_map.mp
    rw [List.zipIdx_map_snd]
    exact List.pairwise_lt_range'
  exact (hall.sublist List.filter_sublist).sublist h.liveOrder

theorem Accounts.light (h : r.Accounts c) {e : EventRef} (he : e ∈ c.live) :
    e.event.isBulk = false := by
  rw [← h.live] at he
  obtain ⟨t, ht, rfl⟩ := List.mem_map.mp he
  simpa using (List.mem_filter.mp (h.liveOrder.subset ht)).2

theorem Accounts.heavy (h : r.Accounts c) {e : EventRef} (he : e ∈ c.bulk) :
    e.event.isBulk = true := by
  rw [← h.bulk] at he
  obtain ⟨t, ht, rfl⟩ := List.mem_map.mp he
  exact (List.mem_filter.mp (h.bulkOrder.subset ht)).2

theorem Accounts.earliest (h : r.Accounts c) {e : EventRef} {rest : List EventRef}
    (first : c.live = e :: rest) :
    ∃ n, r.live.head? = some (e, n) ∧ ∀ t ∈ r.live, n ≤ t.2 := by
  obtain ⟨⟨e, n⟩, tickets, hfirst, rfl, -⟩ := List.map_eq_cons_iff.mp (h.live.trans first)
  have hascending := h.ascending
  rw [hfirst, List.pairwise_cons] at hascending
  refine ⟨n, by rw [hfirst]; rfl, ?_⟩
  intro t ht
  rw [hfirst] at ht
  cases ht with
  | head => exact Nat.le_refl n
  | tail _ ht => exact Nat.le_of_lt (hascending.1 t ht)

/-- A live event that is served was accepted before all others that are queued; a file that is
served lies at one of the two ends. -/
theorem Accounts.served (h : r.Accounts c) {allowed : Bool} {e : EventRef}
    (serves : c.Serves c' allowed (some e)) :
    (e.event.isBulk = false → ∃ n, r.live.head? = some (e, n) ∧ ∀ t ∈ r.live, n ≤ t.2) ∧
      (e.event.isBulk = true →
        ∃ n, r.bulk.head? = some (e, n) ∨ r.bulk.getLast? = some (e, n)) := by
  cases serves with
  | live live bulk =>
      have hlight := h.light (live ▸ List.mem_cons_self)
      exact ⟨fun _ => h.earliest live, fun hheavy => absurd hheavy (by simp [hlight])⟩
  | oldest may live bulk =>
      have hheavy := h.heavy (bulk ▸ List.mem_cons_self)
      refine ⟨fun hlight => absurd hheavy (by simp [hlight]), fun _ => ?_⟩
      obtain ⟨⟨e, n⟩, rest, hfirst, rfl, -⟩ := List.map_eq_cons_iff.mp (h.bulk.trans bulk)
      exact ⟨n, .inl (by rw [hfirst]; rfl)⟩
  | newest may live bulk =>
      have hheavy := h.heavy (bulk ▸ List.mem_append_right _ List.mem_cons_self)
      refine ⟨fun hlight => absurd hheavy (by simp [hlight]), fun _ => ?_⟩
      obtain ⟨rest, last, hsplit, -, hlast⟩ := List.map_eq_append_iff.mp (h.bulk.trans bulk)
      obtain ⟨⟨e, n⟩, rfl, rfl⟩ := List.map_eq_singleton_iff.mp hlast
      exact ⟨n, .inr (by rw [hsplit, List.getLast?_concat])⟩

/-- Along every history of a new queue, each offer that was accepted is once among those that were
retrieved, cleared or discarded and those that are still queued. What is queued lies in the order in
which it was accepted. A retrieval comes back with nothing exactly when no live event waits, and no
file or no slot; a live event it comes back with was accepted first, and a file lies at one of the
two ends. -/
theorem offers_accounted (pipe : String) (settings : Settings) (commons : Commons)
    (ops : List Operation) :
    let start := Realtime.create pipe settings commons
    let s := start.1.after start.2 ops
    ∃ r : Register, Follows start.1 start.2 {} ops r ∧ r.Accounts s.1.channels ∧
      ((s.1.poll s.2).2.2 = none ↔ s.1.channels.live = [] ∧
        (s.1.channels.bulk = [] ∨ settings.maxInFlight ≤ s.2.slots.count)) ∧
      ∀ e, (s.1.poll s.2).2.2 = some e →
        (e.event.isBulk = false → ∃ n, r.live.head? = some (e, n) ∧ ∀ t ∈ r.live, n ≤ t.2) ∧
        (e.event.isBulk = true →
          ∃ n, r.bulk.head? = some (e, n) ∨ r.bulk.getLast? = some (e, n)) := by
  intro start s
  obtain ⟨r, hfollows, haccounts⟩ := accounts_new.follows (q := start.1) start.2 ops
  have hserves := (s.1.poll_fields s.2).1
  have hsettings : s.1.settings = settings := start.1.settings_after start.2 ops
  have hbarred : s.1.bulkAllowed s.2 = false ↔ settings.maxInFlight ≤ s.2.slots.count := by
    simp [Realtime.bulkAllowed, hsettings]
  refine ⟨r, hfollows, haccounts, ?_, fun e he => ?_⟩
  · rw [hserves.eq_none_iff, hbarred]
  · exact haccounts.served (he ▸ hserves)

end Register
end Queue
end Courier
