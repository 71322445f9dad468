import Courier.Proofs.Queue.Cadence

/-!
The counts that a queue keeps of what goes in and out. Whoever hears the answers of the queue can
count for himself and comes to the same, so every event that was admitted was polled, discarded or
cleared, or is queued. A clear is not counted anywhere in the queue.
-/

namespace Courier
namespace Queue

/-- What the answers of a queue say: how many offers it took and refused, the events that were
retrieved, and how many were cleared. -/
structure Heard where
  accepted : Nat := 0
  refused : Nat := 0
  retrieved : List EventRef := []
  cleared : Nat := 0

namespace Heard

def retrieve (h : Heard) (events : List EventRef) : Heard :=
  { h with retrieved := h.retrieved ++ events }

def note (h : Heard) : Operation → Reply Empty → Heard
  | .offer _, .flag true => { h with accepted := h.accepted + 1 }
  | .offer _, .flag false => { h with refused := h.refused + 1 }
  | .poll, .event e => h.retrieve e.toList
  | .drain, .events events => h.retrieve events
  | .clear, .events events => { h with cleared := h.cleared + events.length }
  | _, _ => h

/-- Every offer is answered at most once. -/
theorem note_le (h : Heard) (o : Operation) (reply : Reply Empty) :
    (h.note o reply).accepted ≤ h.accepted + 1 ∧ (h.note o reply).refused ≤ h.refused + 1 := by
  unfold note
  split <;> exact ⟨by simp [retrieve], by simp [retrieve]⟩

theorem note_cleared {h : Heard} {o : Operation} (other : o ≠ .clear) (reply : Reply Empty) :
    (h.note o reply).cleared = h.cleared := by
  unfold note
  split <;> first | rfl | exact absurd rfl other

end Heard

namespace Channels

variable {c c' : Channels} {e : EventRef} {bulk allowed : Bool}

theorem size_eq (c : Channels) : c.size = c.toList.length := List.length_append.symm

theorem size_push (h : c.push? e = some c') : c'.size = c.size + 1 := by
  rw [size_eq, size_eq, (perm_push h).length_eq, List.length_cons]

theorem Gives.size {event : Option EventRef} (h : c.Gives c' event) :
    c.size = event.toList.length + c'.size := by
  rw [size_eq, size_eq, h.perm.length_eq, List.length_append]

theorem size_removePipe (c : Channels) (pipe : String) (region : Int) :
    c.size = (c.removePipe pipe region).2.length + (c.removePipe pipe region).1.size := by
  have hsplit : ((c.removePipe pipe region).2 ++ (c.removePipe pipe region).1.toList).Perm
      c.toList := by
    rw [toList_removePipe]
    exact List.filter_append_perm _ _
  rw [size_eq, size_eq, ← hsplit.length_eq, List.length_append]

/-- The channel that an event is taken from is the one that the retrieval says. -/
theorem mem_of_popOrdinary {period : Nat}
    (h : (c.popOrdinary period allowed).2 = some (e, bulk)) :
    e ∈ if bulk then c.bulk else c.live := by
  unfold popOrdinary at h
  split at h
  · rename_i first rest hlive
    cases h
    exact hlive ▸ List.mem_cons_self
  · split at h
    · split at h
      · rename_i hpop
        cases h
        exact mem_of_popBulk (congrArg Prod.snd hpop)
      · cases h
    · cases h

theorem mem_of_pop {threshold period : Nat}
    (h : (c.pop threshold period allowed).2 = some (e, bulk)) :
    e ∈ if bulk then c.bulk else c.live := by
  unfold pop at h
  split at h
  · split at h
    · rename_i hpop
      cases h
      exact mem_of_popBulk (congrArg Prod.snd hpop)
    · rename_i served hpop
      -- There was no file after all, so the channels are what they were.
      have hnone : c.bulk = [] := popBulk_eq_none_iff.mp (congrArg Prod.snd hpop)
      have hserved : served = c := by simpa [popBulk, hnone] using hpop.symm
      rw [hserved] at h
      exact mem_of_popOrdinary (c := { c with sinceBulk := 0 }) h
  · exact mem_of_popOrdinary h

end Channels

namespace Realtime

variable {q q' : Realtime} {commons commons' : Commons} {heard : Heard} {lost : Nat}
  {r : Register}

theorem poll_stats (hr : r.Accounts q.channels) {event : Option EventRef}
    (h : q.poll commons = (q', commons', event)) :
    q'.gauge = q'.channels.size ∧
      q'.stats = event.elim q.stats fun e => q.stats.recordPolled e.event.isBulk := by
  unfold poll at h
  split at h
  · cases h
    exact ⟨rfl, rfl⟩
  · rename_i channels e bulk hpop
    have hmem := Channels.mem_of_pop (congrArg Prod.snd hpop)
    have hbulk : bulk = e.event.isBulk := by
      cases bulk with
      | true => exact (hr.heavy hmem).symm
      | false => exact (hr.light hmem).symm
    cases h
    exact ⟨rfl, congrArg q.stats.recordPolled hbulk⟩

/-- The counts of a queue of which so much was heard, and so many events were discarded. -/
structure Counts (q : Realtime) (heard : Heard) (lost : Nat) : Prop where
  offered : q.stats.offered = heard.accepted % Word.size
  polled : q.stats.polled = heard.retrieved.length % Word.size
  bulkPolled :
    q.stats.bulkPolled = (heard.retrieved.countP fun e => e.event.isBulk) % Word.size
  coalesced : q.stats.coalesced = heard.refused % Word.size
  discarded : q.stats.discarded = lost % Word.size
  whole : heard.accepted =
    heard.retrieved.length + lost + heard.cleared + q.channels.size
  gauge : q.gauge = q.channels.size

namespace Counts

theorem poll (h : Counts q heard lost) (hr : r.Accounts q.channels)
    {event : Option EventRef} (hpoll : q.poll commons = (q', commons', event)) :
    Counts q' (heard.retrieve event.toList) lost := by
  obtain ⟨hgauge, hstats⟩ := poll_stats hr hpoll
  have hsize := (gave_poll hpoll).channels.size
  have hwhole := h.whole
  cases event with
  | none =>
      rw [Option.elim_none] at hstats
      have hnothing : heard.retrieve (none : Option EventRef).toList = heard := by
        rw [Heard.retrieve, Option.toList_none, List.append_nil]
      rw [Option.toList_none, List.length_nil, Nat.zero_add] at hsize
      rw [hnothing]
      exact ⟨hstats ▸ h.offered, hstats ▸ h.polled, hstats ▸ h.bulkPolled, hstats ▸ h.coalesced,
        hstats ▸ h.discarded, hsize ▸ hwhole, hgauge⟩
  | some e =>
      rw [Option.elim_some] at hstats
      rw [Option.toList_some, List.length_singleton] at hsize
      refine ⟨hstats ▸ h.offered, ?_, ?_, hstats ▸ h.coalesced, hstats ▸ h.discarded, ?_, hgauge⟩
      · simp only [hstats, Metrics.QueueStats.recordPolled, Word.add, h.polled, Heard.retrieve,
          Option.toList_some, List.length_append, List.length_singleton, Nat.mod_add_mod]
      · simp only [hstats, Metrics.QueueStats.recordPolled, Word.add, h.bulkPolled,
          Heard.retrieve, Option.toList_some, List.countP_append, List.countP_singleton]
        split
        · rw [Nat.mod_add_mod]
        · rfl
      · simp only [Heard.retrieve, Option.toList_some, List.length_append, List.length_singleton]
        omega

theorem drains {events : List EventRef} (hdrains : Drains q commons events q' commons')
    (h : Counts q heard lost) (hr : r.Accounts q.channels) :
    Counts q' (heard.retrieve events) lost := by
  induction hdrains generalizing heard r with
  | out =>
      rw [Heard.retrieve, List.append_nil]
      exact h
  | stop polled => exact h.poll hr polled
  | @next q q' _ commons _ _ e events polled rest ih =>
      have hserves := (q.poll_fields commons).1
      rw [polled] at hserves
      obtain ⟨r', -, hnext⟩ := hr.polls hserves
      have hlast := ih (h.poll hr polled) hnext
      rwa [Heard.retrieve, Heard.retrieve, List.append_assoc] at hlast

theorem offer (h : Counts q heard lost) (commons : Commons) (e : EventRef) :
    Counts (q.offer commons e).1 (heard.note (.offer e) (q.answer commons (.offer e)))
      lost := by
  have hwhole := h.whole
  cases hpush : q.channels.push? e with
  | none =>
      have hanswer : q.answer commons (.offer e) = .flag false :=
        congrArg Reply.flag (offer_of_refused commons hpush).2.2
      simp only [Realtime.offer, hpush, hanswer, Heard.note]
      refine ⟨h.offered, h.polled, h.bulkPolled, ?_, h.discarded, hwhole, h.gauge⟩
      rw [Metrics.QueueStats.recordCoalesced, h.coalesced, Word.add, Nat.mod_add_mod]
  | some channels =>
      have hanswer : q.answer commons (.offer e) = .flag true :=
        congrArg Reply.flag (offer_of_pushed commons hpush).2.2
      have hsize := Channels.size_push hpush
      simp only [Realtime.offer, hpush, hanswer, Heard.note]
      refine ⟨?_, h.polled, h.bulkPolled, h.coalesced, h.discarded, ?_, rfl⟩
      · rw [Metrics.QueueStats.recordOffered, h.offered, Word.add, Nat.mod_add_mod]
      · change heard.accepted + 1 =
          heard.retrieved.length + lost + heard.cleared + channels.size
        omega

theorem clear (h : Counts q heard lost) (commons : Commons) :
    Counts (q.clear commons).1 (heard.note .clear (q.answer commons .clear)) lost := by
  refine ⟨h.offered, h.polled, h.bulkPolled, h.coalesced, h.discarded, ?_, rfl⟩
  have hwhole := h.whole
  rw [Channels.size_eq] at hwhole
  change heard.accepted =
    heard.retrieved.length + lost + (heard.cleared + q.channels.toList.length) + 0
  omega

theorem discardAll (h : Counts q heard lost) (commons : Commons) :
    Counts (q.discardAll commons).1 heard (lost + q.channels.size) := by
  refine ⟨h.offered, h.polled, h.bulkPolled, h.coalesced, ?_, ?_, rfl⟩
  · change Word.add q.stats.discarded q.channels.toList.length = _
    rw [h.discarded, Word.add, Nat.mod_add_mod, Channels.size_eq]
  · have hwhole := h.whole
    change heard.accepted =
      heard.retrieved.length + (lost + q.channels.size) + heard.cleared + 0
    omega

theorem discardPipe (h : Counts q heard lost) (commons : Commons) (pipe : String)
    (region : Int) : Counts (q.discardPipe commons pipe region).1 heard
      (lost + (q.channels.removePipe pipe region).2.length) := by
  have hchannels := (q.discardPipe_fields commons pipe region).1
  have hstats : (q.discardPipe commons pipe region).1.stats =
      q.stats.recordDiscarded (q.channels.removePipe pipe region).2.length :=
    congrArg (Metrics.QueueStats.recordDiscarded · _)
      (forgetAll_keeps (fun s => s.1.stats) (fun _ _ => rfl) _ _)
  have hgauge : (q.discardPipe commons pipe region).1.gauge =
      (q.channels.removePipe pipe region).1.size :=
    forgetAll_keeps (fun s => s.1.gauge) (fun _ _ => rfl) _ _
  refine ⟨hstats ▸ h.offered, hstats ▸ h.polled, hstats ▸ h.bulkPolled, hstats ▸ h.coalesced,
    ?_, ?_, hgauge.trans (congrArg Channels.size hchannels.symm)⟩
  · rw [hstats, Metrics.QueueStats.recordDiscarded, h.discarded, Word.add, Nat.mod_add_mod]
  · have hwhole := h.whole
    have hsize := q.channels.size_removePipe pipe region
    rw [hchannels]
    omega

/-- Each operation moves the counts by what is heard of it, and by what it discards. -/
theorem perform (h : Counts q heard lost) (hr : r.Accounts q.channels) (commons : Commons)
    (o : Operation) :
    ∃ lost', Counts (q.perform commons o : Realtime × Commons × Reply Empty).1
      (heard.note o (q.answer commons o)) lost' := by
  cases o with
  | offer e => exact ⟨lost, h.offer commons e⟩
  | poll => exact ⟨lost, h.poll hr (rfl : q.poll commons = _)⟩
  | drain => exact ⟨lost, h.drains (q.drains_drain commons) hr⟩
  | clear => exact ⟨lost, h.clear commons⟩
  | discardAll => exact ⟨_, h.discardAll commons⟩
  | discard pipe region => exact ⟨_, h.discardPipe commons pipe region⟩
  | peek | list | shutdown =>
      exact ⟨lost, h.offered, h.polled, h.bulkPolled, h.coalesced, h.discarded, h.whole,
        h.gauge⟩
  | shared o =>
      have hnothing : heard.note (.shared o) (q.answer commons (.shared o)) = heard := by
        unfold Heard.note
        split <;> first | rfl | contradiction
      rw [hnothing]
      exact ⟨lost, h⟩

end Counts

/-- All that is heard of a queue in the course of a history. -/
def hear (heard : Heard) : Realtime → Commons → List Operation → Heard
  | _, _, [] => heard
  | q, commons, o :: ops =>
      hear (heard.note o (q.answer commons o)) (q.after commons [o]).1 (q.after commons [o]).2 ops

theorem Counts.after (h : Counts q heard lost) (hr : r.Accounts q.channels)
    (commons : Commons) (ops : List Operation) :
    ∃ lost', Counts (q.after commons ops).1 (hear heard q commons ops) lost' := by
  induction ops generalizing q commons heard lost r with
  | nil => exact ⟨lost, h⟩
  | cons o ops ih =>
      obtain ⟨_, hnext⟩ := h.perform hr commons o
      obtain ⟨_, -, hrnext⟩ := hr.moves commons o
      exact ih hnext hrnext _

theorem hear_le (heard : Heard) (q : Realtime) (commons : Commons) (ops : List Operation) :
    (hear heard q commons ops).accepted ≤ heard.accepted + ops.length ∧
      (hear heard q commons ops).refused ≤ heard.refused + ops.length := by
  induction ops generalizing heard q commons with
  | nil => exact ⟨Nat.le_refl _, Nat.le_refl _⟩
  | cons o ops ih =>
      obtain ⟨haccepted, hrefused⟩ := heard.note_le o (q.answer commons o)
      obtain ⟨haccepted', hrefused'⟩ := ih (heard.note o (q.answer commons o))
        (q.after commons [o]).1 (q.after commons [o]).2
      rw [hear, List.length_cons]
      omega

theorem hear_cleared (heard : Heard) (q : Realtime) (commons : Commons) {ops : List Operation}
    (never : Operation.clear ∉ ops) : (hear heard q commons ops).cleared = heard.cleared := by
  induction ops generalizing heard q commons with
  | nil => rfl
  | cons o ops ih =>
      obtain ⟨hother, hrest⟩ := List.ne_and_not_mem_of_not_mem_cons never
      rw [hear, ih _ _ _ hrest, Heard.note_cleared hother.symm]

/-- In every history of a new queue with fewer operations than a count can hold, what was offered is
what was polled, what was discarded, what was cleared and what is queued: the gauge says how much
that is. The counts are those of the answers: of the offers that were taken and of those that were
not, of the events that were retrieved and of the files among them. So the counts alone add up as
long as nobody clears the queue. -/
theorem offered_accounted (pipe : String) (settings : Settings) (commons : Commons)
    (ops : List Operation) (few : ops.length < Word.size) :
    let start := Realtime.create pipe settings commons
    let q := (start.1.after start.2 ops).1
    let heard := hear {} start.1 start.2 ops
    q.stats.offered =
        q.stats.polled + q.stats.discarded + heard.cleared + q.channels.size ∧
      q.gauge = q.channels.size ∧
      q.stats.offered = heard.accepted ∧
      q.stats.polled = heard.retrieved.length ∧
      (q.stats.bulkPolled = heard.retrieved.countP fun e => e.event.isBulk) ∧
      q.stats.coalesced = heard.refused ∧
      (Operation.clear ∉ ops →
        q.stats.offered = q.stats.polled + q.stats.discarded + q.channels.size) := by
  intro start q heard
  have hstart : Counts start.1 {} 0 := ⟨rfl, rfl, rfl, rfl, rfl, rfl, rfl⟩
  obtain ⟨lost, h⟩ := hstart.after Register.accounts_new start.2 ops
  have hwhole : heard.accepted =
      heard.retrieved.length + lost + heard.cleared + q.channels.size := h.whole
  have hheard : heard.accepted ≤ ops.length ∧ heard.refused ≤ ops.length := by
    simpa only [Nat.zero_add] using hear_le {} start.1 start.2 ops
  have hfiles : (heard.retrieved.countP fun e => e.event.isBulk) ≤ heard.retrieved.length :=
    List.countP_le_length
  -- Nothing is counted more often than there were offers, so no count wraps.
  have hword (n : Nat) (hn : n ≤ ops.length) : n % Word.size = n :=
    Nat.mod_eq_of_lt (Nat.lt_of_le_of_lt hn few)
  have hoffered : q.stats.offered = heard.accepted :=
    h.offered.trans (hword heard.accepted (by omega))
  have hpolled : q.stats.polled = heard.retrieved.length :=
    h.polled.trans (hword heard.retrieved.length (by omega))
  have hbulk : q.stats.bulkPolled = heard.retrieved.countP fun e => e.event.isBulk :=
    h.bulkPolled.trans (hword (heard.retrieved.countP fun e => e.event.isBulk) (by omega))
  have hcoalesced : q.stats.coalesced = heard.refused :=
    h.coalesced.trans (hword heard.refused (by omega))
  have hdiscarded : q.stats.discarded = lost := h.discarded.trans (hword lost (by omega))
  have hbalance : q.stats.offered =
      q.stats.polled + q.stats.discarded + heard.cleared + q.channels.size := by
    rw [hoffered, hpolled, hdiscarded]
    exact hwhole
  refine ⟨hbalance, h.gauge, hoffered, hpolled, hbulk, hcoalesced, fun never => ?_⟩
  have hnone : heard.cleared = 0 := hear_cleared {} start.1 start.2 never
  rw [hbalance, hnone, Nat.add_zero]

/-- A file and a tablet are retrieved, a heartbeat is refused, a clear takes two events and a discard
one, and one is left. -/
theorem offered_accounted_after_clear :
    let event (content : Content) (pipe : String) : Event :=
      { content, pipe, region := 1, commit := .zero, progress := 0 }
    let beat (id : EventId) : EventRef := ⟨id, event (.heartbeat 0) "p"⟩
    let tablet (id : EventId) (pipe : String) : EventRef :=
      ⟨id, event (.tablet { target := "", rows := 0, payload := [] }) pipe⟩
    let file (id : EventId) : EventRef :=
      ⟨id, event (.file { data := "/d", mods := none, flushPoints := 0 }) "p"⟩
    let ops : List Operation := [.offer (tablet 0 "p"), .offer (file 1), .drain, .offer (beat 2),
      .offer (beat 3), .offer (file 4), .clear, .offer (tablet 5 "q"), .offer (tablet 6 "p"),
      .discard "q" 1]
    let start := Realtime.create "p" {} {}
    let q := (start.1.after start.2 ops).1
    q.stats = { offered := 6, polled := 2, bulkPolled := 1, coalesced := 1, discarded := 1 } ∧
      q.stats.offered = q.stats.polled + q.stats.discarded + 2 + q.channels.size := by
  intro event beat tablet file ops start q
  have hstats : q.stats =
      { offered := 6, polled := 2, bulkPolled := 1, coalesced := 1, discarded := 1 } := by
    decide +kernel
  have hcleared : (hear {} start.1 start.2 ops).cleared = 2 := by decide +kernel
  have few : ops.length < Word.size := by decide +kernel
  obtain ⟨hbalance, -⟩ := offered_accounted "p" {} {} ops few
  have run : (start.1.after start.2 ops).1 = q := rfl
  have created : Realtime.create "p" {} {} = start := rfl
  clear_value q start ops
  rw [created, run, hcleared] at hbalance
  exact ⟨hstats, hbalance⟩

/-- One event, offered and cleared: it is counted in, and not out. -/
theorem cleared_uncounted :
    let tablet : EventRef := ⟨0, {
      content := .tablet { target := "", rows := 0, payload := [] }
      pipe := "p", region := 1, commit := .zero, progress := 0 }⟩
    let start := Realtime.create "p" {} {}
    let q := (start.1.after start.2 [.offer tablet, .clear]).1
    q.stats = { offered := 1 } ∧ q.channels.size = 0 ∧
      q.stats.offered ≠ q.stats.polled + q.stats.discarded + q.channels.size := by
  decide +kernel

end Realtime
end Queue
end Courier
