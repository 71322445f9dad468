import Courier.Proofs.Memory.Holdings
import Courier.Proofs.Queue.History
import Mathlib.Algebra.BigOperators.Group.List.Basic
import Mathlib.Algebra.GroupWithZero.Nat
import Mathlib.Data.List.Count
import Mathlib.Logic.Relation

/-!
What a queue keeps beside its channels: a count for every kind of event, the bytes that all of them
take, the same bytes as usage of its memory block, and a gauge of its length. A path that set one of
them and not another would never be noticed, as differences stop at zero; so all of them are shown
to be true of one list of events, at every step between the channels and the mirrors.
-/

namespace Courier
namespace Queue

/-- The estimated bytes of some events. -/
def load (events : List EventRef) : Nat := (events.map fun e => e.event.size).sum

@[simp]
theorem load_nil : load [] = 0 := rfl

@[simp]
theorem load_cons (e : EventRef) (events : List EventRef) :
    load (e :: events) = e.event.size + load events := List.sum_cons

theorem load_perm {events events' : List EventRef} (h : events.Perm events') :
    load events = load events' :=
  (h.map _).sum_eq

/-- Every event takes some bytes, if only those of its header. -/
theorem length_le_load (events : List EventRef) : events.length ≤ load events := by
  induction events with
  | nil => exact Nat.le_refl 0
  | cons e events ih =>
      have hsize : 1 ≤ e.event.size := by
        unfold Event.size Content.estimatedSize Content.headerSize
        split <;> omega
      rw [List.length_cons, load_cons]
      omega

namespace EventCounter

theorem count_onKind (c : EventCounter) (k k' : Kind) (f : Nat → Nat) :
    (c.onKind k f).count k' = if k = k' then f (c.count k') else c.count k' := by
  cases k <;> cases k' <;> rfl

theorem count_increase (c : EventCounter) (e : Event) (k : Kind) :
    (c.increase e).count k = if e.kind = k then Word.add (c.count k) 1 else c.count k :=
  c.count_onKind e.kind k (Word.add · 1)

theorem count_decrease (c : EventCounter) (e : Event) (k : Kind) :
    (c.decrease e).count k = if e.kind = k then c.count k - 1 else c.count k :=
  c.count_onKind e.kind k (· - 1)

end EventCounter

namespace Realtime

variable {q q' : Realtime} {commons commons' : Commons} {events events' : List EventRef}

/-- Counts and bytes are those of some events, and the block of the queue is open. -/
structure Mirrors (events : List EventRef) (q : Realtime) (commons : Commons) : Prop where
  counts : ∀ k, q.counter.count k = events.countP fun e => e.event.kind = k
  bytes : q.counter.bytes = load events
  block : ∃ b, commons.memory.block? q.block = some b ∧ b.closed = false ∧ b.usage = load events

namespace Mirrors

theorem perm (h : Mirrors events q commons) (same : events.Perm events') :
    Mirrors events' q commons := by
  obtain ⟨b, hb, hopen, husage⟩ := h.block
  refine ⟨fun k => ?_, ?_, b, hb, hopen, ?_⟩
  · rw [h.counts, same.countP_eq]
  · rw [h.bytes, load_perm same]
  · rw [husage, load_perm same]

/-- Nothing that is said of the queue but its counts and its block matters, and nothing that is
shared but the block. -/
theorem next (h : Mirrors events q commons) (counter : q'.counter = q.counter)
    (block : q'.block = q.block)
    (memory : commons'.memory.block? q.block = commons.memory.block? q.block) :
    Mirrors events q' commons' := by
  refine ⟨fun k => ?_, ?_, ?_⟩
  · rw [counter]
    exact h.counts k
  · rw [counter]
    exact h.bytes
  · rw [block, memory]
    exact h.block

theorem usage (h : Mirrors events q commons) : q.usage commons = load events := by
  obtain ⟨b, hb, -, husage⟩ := h.block
  simp only [Realtime.usage, Memory.Context.usageOf, hb, husage]

end Mirrors

theorem block?_onBlock {c : Memory.Context} {id : Nat} {b : Memory.Block} (h : c.block? id = some b)
    (f : Memory.Manager → Memory.Block → Memory.Manager × Memory.Block) :
    (c.onBlock id f).block? id = some (f c.manager b).2 := by
  have hlt : id < c.blocks.length := (List.getElem?_eq_some_iff.mp h).1
  simp only [Memory.Context.onBlock, h]
  exact List.getElem?_set_self hlt

/-- One event more, as long as a word counts its bytes. -/
theorem Mirrors.increase (h : Mirrors events q commons) {e : EventRef}
    (fits : load (e :: events) < Word.size) :
    Mirrors (e :: events) { q with counter := q.counter.increase e.event }
      { commons with memory := commons.memory.addUsage q.block e.event.size } := by
  rw [load_cons] at fits
  have hlength := length_le_load events
  refine ⟨fun k => ?_, ?_, ?_⟩
  · -- An event takes a byte at least, so the counts fit a word as soon as the bytes do.
    have hcount : (events.countP fun e => e.event.kind = k) ≤ events.length := List.countP_le_length
    have hsize : 1 ≤ e.event.size := by simpa using length_le_load [e]
    rw [EventCounter.count_increase, h.counts, List.countP_cons]
    simp only [decide_eq_true_eq]
    split
    · rw [Word.add_of_lt (by omega)]
    · rfl
  · have hbytes : (q.counter.increase e.event).bytes = Word.add q.counter.bytes e.event.size := rfl
    rw [hbytes, h.bytes, load_cons, Word.add_of_lt (by omega), Nat.add_comm]
  · obtain ⟨b, hb, hopen, husage⟩ := h.block
    refine ⟨_, block?_onBlock hb _, ?_⟩
    rw [Memory.Block.addUsage, if_neg (by simp [hopen])]
    refine ⟨hopen, ?_⟩
    dsimp only
    rw [husage, load_cons, Word.add_of_lt (by omega), Nat.add_comm]

/-- One event less. -/
theorem Mirrors.decrease {e : EventRef} (h : Mirrors (e :: events) q commons) :
    Mirrors events { q with counter := q.counter.decrease e.event }
      { commons with memory := commons.memory.reduceUsage q.block e.event.size } := by
  refine ⟨fun k => ?_, ?_, ?_⟩
  · rw [EventCounter.count_decrease, h.counts, List.countP_cons]
    simp only [decide_eq_true_eq]
    split <;> omega
  · have hbytes : (q.counter.decrease e.event).bytes = q.counter.bytes - e.event.size := rfl
    rw [hbytes, h.bytes, load_cons, Nat.add_sub_cancel_left]
  · obtain ⟨b, hb, hopen, husage⟩ := h.block
    refine ⟨_, block?_onBlock hb _, hopen, ?_⟩
    simp only [Memory.Block.reduceUsage, husage, load_cons, Nat.add_sub_cancel_left]

theorem Mirrors.forgetAll (removed : List EventRef) (h : Mirrors (removed ++ events) q commons) :
    Mirrors events (removed.foldl (fun acc e => acc.1.forget acc.2 e) (q, commons)).1
      (removed.foldl (fun acc e => acc.1.forget acc.2 e) (q, commons)).2 := by
  induction removed generalizing q commons with
  | nil => exact h
  | cons e rest ih =>
      have hcleared : Mirrors (e :: (rest ++ events)) q (commons.clear e).1 := h.next rfl rfl rfl
      exact ih hcleared.decrease

/-- Emptying the queue empties all that is kept beside the channels. -/
theorem Mirrors.clear (h : Mirrors events q commons) :
    Mirrors [] (q.clear commons).1 (q.clear commons).2.1 := by
  obtain ⟨b, hb, hopen, husage⟩ := h.block
  refine ⟨fun k => by cases k <;> rfl, rfl, _, block?_onBlock hb _, hopen, ?_⟩
  simp only [Memory.Block.reduceUsage, h.usage, husage, Nat.sub_self, load_nil]

/-- All that a queue keeps beside its channels is true of them. -/
structure IsTrue (q : Realtime) (commons : Commons) : Prop where
  mirrors : Mirrors q.channels.toList q commons
  gauge : q.gauge = q.channels.size

namespace IsTrue

theorem create (pipe : String) (settings : Settings) (commons : Commons) :
    (Realtime.create pipe settings commons).1.IsTrue (Realtime.create pipe settings commons).2 := by
  refine ⟨⟨fun k => by cases k <;> rfl, rfl, ?_⟩, rfl⟩
  simp only [Realtime.create, Memory.Context.allocateQueue]
  split
  · rename_i c hgranted
    obtain ⟨m, b, hallocated, rfl⟩ := Memory.Context.of_allocate hgranted
    obtain ⟨m', -, hblock⟩ := Memory.ok_of_map hallocated
    obtain ⟨rfl, rfl⟩ := Prod.mk.inj hblock
    exact ⟨_, List.getElem?_concat_length, rfl, rfl⟩
  · exact ⟨_, List.getElem?_concat_length, rfl, rfl⟩

theorem offer (h : q.IsTrue commons) {e : EventRef}
    (fits : load (q.offer commons e).1.channels.toList < Word.size) :
    (q.offer commons e).1.IsTrue (q.offer commons e).2.1 := by
  cases hpush : q.channels.push? e with
  | none =>
      simp only [Realtime.offer, hpush]
      exact ⟨h.mirrors.next rfl rfl rfl, h.gauge⟩
  | some channels =>
      have hperm := Channels.perm_push hpush
      rw [(offer_of_pushed commons hpush).1, load_perm hperm] at fits
      have hincreased := (h.mirrors.increase fits).perm hperm.symm
      simp only [Realtime.offer, hpush]
      exact ⟨hincreased.next rfl rfl rfl, rfl⟩

theorem poll (h : q.IsTrue commons) :
    (q.poll commons).1.IsTrue (q.poll commons).2.1 := by
  have hserves := q.channels.serves_pop q.settings.bulkThreshold q.settings.effectivePeriod
    (q.bulkAllowed commons)
  unfold Realtime.poll
  split <;> rename_i hpop <;> rw [hpop] at hserves <;> have hperm := hserves.gives.perm
  · exact ⟨(h.mirrors.perm hperm).next rfl rfl rfl, rfl⟩
  · exact ⟨(h.mirrors.perm hperm).decrease.next rfl rfl rfl, rfl⟩

theorem drains (drains : Drains q commons events q' commons') (h : q.IsTrue commons) :
    q'.IsTrue commons' := by
  induction drains with
  | out => exact h
  | stop polled =>
      have hpolled := h.poll
      rwa [polled] at hpolled
  | next polled _ ih =>
      have hpolled := h.poll
      rw [polled] at hpolled
      exact ih hpolled

theorem clear (h : q.IsTrue commons) : (q.clear commons).1.IsTrue (q.clear commons).2.1 :=
  ⟨h.mirrors.clear, rfl⟩

theorem discardPipe (h : q.IsTrue commons) (pipe : String) (region : Int) :
    (q.discardPipe commons pipe region).1.IsTrue (q.discardPipe commons pipe region).2.1 := by
  have hsplit : (((q.channels.removePipe pipe region).2 ++
      (q.channels.removePipe pipe region).1.toList)).Perm q.channels.toList := by
    rw [Channels.toList_removePipe]
    exact List.filter_append_perm _ _
  have hfiltered : Mirrors ((q.channels.removePipe pipe region).2 ++
      (q.channels.removePipe pipe region).1.toList)
        (q.withChannels (q.channels.removePipe pipe region).1) commons :=
    (h.mirrors.perm hsplit.symm).next rfl rfl rfl
  have hforgotten := hfiltered.forgetAll
  obtain ⟨hchannels, -, -⟩ := q.discardPipe_fields commons pipe region
  refine ⟨?_, ?_⟩
  · rw [hchannels]
    exact hforgotten.next rfl rfl rfl
  · rw [hchannels]
    exact forgetAll_keeps (fun s => s.1.gauge) (fun _ _ => rfl) _ _

/-- What waits for an event takes what a retrieval gives, or nothing. -/
theorem look (h : q.IsTrue commons) (deadline : Nat) :
    (q.look commons deadline).1.IsTrue (q.look commons deadline).2.1 := by
  have hpolled := h.poll
  unfold Realtime.look
  split
  · exact h
  · split <;> rename_i hpoll <;> rw [hpoll] at hpolled <;> exact hpolled

end IsTrue

/-- What happens to a queue: an operation on it or on what it shares, somebody who waits and looks,
and whatever others do in the memory of the process that leaves its block as it is. A word counts
the bytes that are queued. -/
inductive Works : Realtime × Commons → Realtime × Commons → Prop
  | performed {q : Realtime} {commons : Commons} (o : Operation)
      (fits : load (q.after commons [o]).1.channels.toList < Word.size) :
      Works (q, commons) (q.after commons [o])
  | looked {q : Realtime} {commons : Commons} (deadline : Nat) :
      Works (q, commons) ((q.look commons deadline).1, (q.look commons deadline).2.1)
  | elsewhere {q : Realtime} {commons : Commons} (memory : Memory.Context)
      (apart : memory.block? q.block = commons.memory.block? q.block) :
      Works (q, commons) (q, { commons with memory })

theorem IsTrue.perform (h : q.IsTrue commons) {o : Operation}
    (fits : load (q.after commons [o]).1.channels.toList < Word.size) :
    (q.after commons [o]).1.IsTrue (q.after commons [o]).2 := by
  cases o with
  | offer e => exact h.offer fits
  | poll => exact h.poll
  | drain => exact h.drains (q.drains_drain commons)
  | clear => exact h.clear
  | discardAll => exact ⟨h.clear.mirrors.next rfl rfl rfl, rfl⟩
  | discard pipe region => exact h.discardPipe pipe region
  | peek | list => exact h
  | shutdown => exact ⟨h.mirrors.next rfl rfl rfl, h.gauge⟩
  | shared o =>
      refine ⟨h.mirrors.next rfl rfl ?_, h.gauge⟩
      cases o <;> rfl

theorem Works.isTrue {s s' : Realtime × Commons} (h : Works s s') (hs : s.1.IsTrue s.2) :
    s'.1.IsTrue s'.2 := by
  cases h with
  | performed o fits => exact hs.perform fits
  | looked deadline => exact hs.look deadline
  | elsewhere memory apart => exact ⟨hs.mirrors.next rfl rfl apart, hs.gauge⟩

theorem isTrue_of_reach {pipe : String} {settings : Settings} {commons : Commons}
    {s : Realtime × Commons}
    (reach : Relation.ReflTransGen Works (create pipe settings commons) s) : s.1.IsTrue s.2 := by
  induction reach with
  | refl => exact .create pipe settings commons
  | tail _ hworks ih => exact hworks.isTrue ih

/-- A history of operations is among what happens, if a word counts the bytes at every moment. -/
theorem reach_after {ops : List Operation} (fits : ∀ n ≤ ops.length,
      load (q.after commons (ops.take n)).1.channels.toList < Word.size) :
    Relation.ReflTransGen Works (q, commons) (q.after commons ops) := by
  induction ops generalizing q commons with
  | nil => exact .refl
  | cons o ops ih =>
      have hfirst : load (q.after commons [o]).1.channels.toList < Word.size :=
        fits 1 (Nat.succ_le_succ (Nat.zero_le _))
      have hrest : Relation.ReflTransGen Works (q.after commons [o]) (q.after commons (o :: ops)) :=
        ih fun n hn => fits (n + 1) (Nat.succ_le_succ hn)
      exact .head (.performed o hfirst) hrest

/-- Whatever was offered, retrieved, cleared and discarded, the same event often or not: the count
of a kind is the number of events of that kind that are queued, the bytes counted and the usage of
the memory block are the estimated bytes of what is queued, and length, emptiness, gauge and listing
are those of live events and files together. -/
theorem counts_are_of_queued {pipe : String} {settings : Settings} {commons : Commons}
    {q : Realtime} {commons' : Commons}
    (reach : Relation.ReflTransGen Works (create pipe settings commons) (q, commons')) :
    let queued := q.channels.live ++ q.channels.bulk
    (∀ k, q.counter.count k = queued.countP fun e => e.event.kind = k) ∧
      q.counter.bytes = (queued.map fun e => e.event.size).sum ∧
      q.usage commons' = (queued.map fun e => e.event.size).sum ∧
      q.channels.size = queued.length ∧ (q.channels.isEmpty = true ↔ queued = []) ∧
      q.gauge = queued.length ∧ q.answer commons' .list = .events queued := by
  intro queued
  obtain ⟨hmirrors, hgauge⟩ := isTrue_of_reach reach
  have hsize : q.channels.size = queued.length := List.length_append.symm
  refine ⟨hmirrors.counts, hmirrors.bytes, hmirrors.usage, hsize, ?_, hgauge.trans hsize, rfl⟩
  rw [Channels.isEmpty, Bool.and_eq_true, List.isEmpty_iff, List.isEmpty_iff]
  exact List.append_eq_nil_iff.symm

/-- A tablet is offered twice, a heartbeat too many is dropped, a file is retrieved, another
instance is torn down, and the process allocates another block meanwhile. -/
theorem counts_are_of_queued_of_repeated :
    let event (pipe : String) (content : Content) : Event :=
      { content, pipe, region := 0, commit := .zero, progress := 0 }
    let tablet : EventRef := ⟨0, event "p" (.tablet { target := "t", rows := 1, payload := [7] })⟩
    let beat : EventRef := ⟨1, event "p" (.heartbeat 0)⟩
    let file : EventRef := ⟨2, event "p" (.file { data := "/d", mods := none, flushPoints := 0 })⟩
    let other : EventRef := ⟨3, event "q" (.heartbeat 0)⟩
    let commons : Commons := {
      ledger := (((({} : Ledger).enrol 1).enrol 1).enrol 1).enrol 1 }
    let start := create "p" { bulkThreshold := 0 } commons
    let offered := start.1.after start.2
      [.offer tablet, .offer beat, .offer beat, .offer file, .offer tablet, .offer other]
    let shared : Commons := { offered.2 with memory := offered.2.memory.allocateEmpty .queue }
    let s := offered.1.after shared [.poll, .discard "q" 0]
    s.1.channels.live = [tablet, beat, tablet] ∧ s.1.channels.bulk = [] ∧
      s.1.counter.count .tablet = 2 ∧ s.1.counter.count .file = 0 ∧
      s.1.counter.count .heartbeat = 1 ∧ s.1.counter.bytes = 196 ∧ s.1.usage s.2 = 196 ∧
      s.1.gauge = 3 := by
  intro event tablet beat file other commons start offered shared s
  have hoffered : Relation.ReflTransGen Works start offered := by
    refine reach_after ?_
    decide +kernel
  have hshared : Works offered (offered.1, shared) :=
    .elsewhere (offered.2.memory.allocateEmpty .queue) (by decide +kernel)
  have hlater : Relation.ReflTransGen Works (offered.1, shared) s := by
    refine reach_after ?_
    decide +kernel
  have live : s.1.channels.live = [tablet, beat, tablet] := by decide +kernel
  have bulk : s.1.channels.bulk = [] := by decide +kernel
  have reach : Relation.ReflTransGen Works start s := (hoffered.tail hshared).trans hlater
  clear_value s
  obtain ⟨hcounts, hbytes, husage, -, -, hgauge, -⟩ := counts_are_of_queued reach
  rw [live, bulk] at hcounts hbytes husage hgauge
  have hload : (([tablet, beat, tablet] ++ []).map fun e : EventRef => e.event.size).sum = 196 := by
    decide +kernel
  exact ⟨live, bulk, hcounts .tablet, hcounts .file, hcounts .heartbeat, hbytes.trans hload,
    husage.trans hload, hgauge⟩

end Realtime
end Queue
end Courier
