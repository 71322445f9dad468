import Courier.Proofs.Pipe.Deeds

/-!
The buffer and the retry queue of a connector, and what mirrors them: two gauges, and the count of
slots that the queue looks at. The mirrors are set in many places, and each of them leaves all of
them true.
-/

namespace Courier

open Transfer

/-- What a connector keeps, and what others see of it. -/
structure Stock where
  buffer : List (CommitId × EventRef)
  retryQueue : List RetryEntry
  inFlight : Nat
  retrying : Nat
  slots : Nat
  closed : Bool

def Connector.stock (c : Connector) (commons : Commons) : Stock where
  buffer := c.buffer
  retryQueue := c.retryQueue
  inFlight := c.inFlightGauge
  retrying := c.retryingGauge
  slots := commons.slots.count
  closed := c.closed

namespace Stock

variable {s s' s'' : Stock} {n m : Nat}

/-- The mirrors are true. No commit id has two places in the buffer, and a closed connector keeps
nothing. -/
structure Tallied (s : Stock) : Prop where
  keys : (s.buffer.map Prod.fst).Nodup
  slots : s.slots = s.buffer.length
  inFlight : s.inFlight = s.buffer.length
  retrying : s.retrying = s.retryQueue.length
  shut : s.closed = true → s.buffer = [] ∧ s.retryQueue = []

/-- Mirrors that were true are true, and at most `n` more files are kept. -/
structure Turns (n : Nat) (s s' : Stock) : Prop where
  tallied : s.Tallied → s'.Tallied
  room : s.Tallied → s'.buffer.length ≤ s.buffer.length + n
  closed : s.closed = true → s'.closed = true

theorem Turns.of_eq (h : s' = s) : Turns 0 s s' := by
  subst h
  exact ⟨fun ht => ht, fun _ => Nat.le_refl _, fun hclosed => hclosed⟩

/-- Some of what is kept is let go, and every mirror is set. -/
def keepOnly (s : Stock) (files : CommitId × EventRef → Bool)
    (retries : RetryEntry → Bool) : Stock where
  buffer := s.buffer.filter files
  retryQueue := s.retryQueue.filter retries
  inFlight := (s.buffer.filter files).length
  retrying := (s.retryQueue.filter retries).length
  slots := s.slots - (s.buffer.filter fun entry => !files entry).length
  closed := s.closed

theorem turns_keepOnly (s : Stock) (files : CommitId × EventRef → Bool)
    (retries : RetryEntry → Bool) : Turns 0 s (s.keepOnly files retries) := by
  have hsplit := (List.filter_append_perm files s.buffer).length_eq
  rw [List.length_append] at hsplit
  refine ⟨fun ht => ⟨?_, ?_, rfl, rfl, fun hclosed => ?_⟩, fun _ => List.length_filter_le _ _,
    fun hclosed => hclosed⟩
  · exact ht.keys.sublist (List.filter_sublist.map _)
  · have hslots := ht.slots
    simp only [keepOnly]
    omega
  · obtain ⟨hbuffer, hretries⟩ := ht.shut hclosed
    simp [keepOnly, hbuffer, hretries]

end Stock

namespace Connector

variable {c : Connector} {commons : Commons}

open Stock (Turns)

theorem count_release (slots : Slots) : slots.release.count = slots.count - 1 := by
  unfold Slots.release
  split
  · rename_i hzero
    rw [hzero]
  · rfl

theorem count_releaseSlots (slots : Slots) (n : Nat) :
    (releaseSlots slots n).count = slots.count - n := by
  induction n generalizing slots with
  | zero => rfl
  | succ n ih => rw [releaseSlots, ih, count_release, Nat.sub_sub, Nat.add_comm]

/-- A commit id that has a place in the buffer has one. -/
theorem length_filter_key {buffer : List (CommitId × EventRef)}
    (keys : (buffer.map Prod.fst).Nodup) {commit : CommitId} {e : EventRef}
    (found : buffer.lookup commit = some e) :
    (buffer.filter fun entry => !(entry.1 != commit)).length = 1 := by
  obtain ⟨before, after, rfl, _⟩ := List.lookup_eq_some_iff.mp found
  rw [List.map_append, List.map_cons] at keys
  have hothers : commit ∉ before.map Prod.fst ++ after.map Prod.fst :=
    (List.nodup_cons.mp (List.nodup_middle.mp keys)).1
  have hnone {entries : List (CommitId × EventRef)}
      (hsub : entries.map Prod.fst ⊆ before.map Prod.fst ++ after.map Prod.fst) :
      (entries.filter fun entry => !(entry.1 != commit)) = [] := by
    refine List.filter_eq_nil_iff.mpr fun entry hentry hsame => hothers (hsub ?_)
    have hkey : entry.1 = commit := by simpa using hsame
    exact hkey ▸ List.mem_map_of_mem hentry
  rw [List.filter_append, hnone (List.subset_append_left ..), List.filter_cons_of_pos (by simp),
    hnone (List.subset_append_right ..)]
  rfl

/-- A file that leaves the buffer frees a slot, unless it is not the one that is there. -/
theorem turns_remove (c : Connector) (commons : Commons) (e : EventRef) :
    Turns 0 (c.stock commons) ((c.remove commons e).1.stock (c.remove commons e).2.1) := by
  have hsame : Turns 0 (c.stock commons) ((c.withBuffer c.buffer).stock commons) := by
    refine ⟨fun ht => ⟨ht.keys, ht.slots, rfl, ht.retrying, ht.shut⟩, fun _ => Nat.le_refl _,
      fun hclosed => hclosed⟩
  cases hfound : c.buffered? e.event.commit with
  | none => simpa only [remove, hfound] using hsame
  | some found =>
      simp only [remove, hfound]
      split
      · refine ⟨fun ht => ?_, fun _ => List.length_filter_le _ _, fun hclosed => hclosed⟩
        have hone := length_filter_key ht.keys hfound
        have hkept := ((c.stock commons).turns_keepOnly
          (fun entry => entry.1 != e.event.commit) fun _ => true).tallied ht
        obtain ⟨hkeys, hslots, _, _, hshut⟩ := hkept
        simp only [Stock.keepOnly, hone] at hslots
        refine ⟨hkeys, (count_release _).trans hslots, rfl, ht.retrying, fun hclosed => ?_⟩
        exact ⟨(hshut hclosed).1, (ht.shut hclosed).2⟩
      · exact hsame

/-- A file that is taken on takes a slot. -/
theorem turns_accept {e : EventRef} (opened : c.closed = false)
    (free : c.buffered? e.event.commit = none) :
    Turns 1 (c.stock commons) ((c.withBuffer (c.buffer ++ [(e.event.commit, e)])).stock
      { commons with slots := commons.slots.acquire }) := by
  refine ⟨fun ht => ⟨?_, ?_, rfl, ht.retrying, fun hclosed => ?_⟩, fun _ => ?_,
    fun hclosed => hclosed⟩
  · have hnew : e.event.commit ∉ c.buffer.map Prod.fst := fun hmem => by
      obtain ⟨entry, hentry, hkey⟩ := List.mem_map.mp hmem
      have hnone := List.lookup_eq_none_iff.mp free entry hentry
      rw [hkey] at hnone
      simp at hnone
    have hkeys : ((c.buffer ++ [(e.event.commit, e)]).map Prod.fst).Nodup := by
      rw [List.map_append, List.nodup_append_comm]
      exact List.nodup_cons.mpr ⟨hnew, ht.keys⟩
    exact hkeys
  · have hslots : commons.slots.count = c.buffer.length := ht.slots
    simp [stock, withBuffer, Slots.acquire, hslots]
  · rw [show c.closed = true from hclosed] at opened
    cases opened
  · exact Nat.le_of_eq List.length_append

/-- What is due leaves the retry queue, and no slot is freed. -/
theorem turns_takeDue (c : Connector) (commons : Commons) (now : Nat) :
    Turns 0 (c.stock commons) ((c.takeDue now).1.stock commons) := by
  refine ⟨fun ht => ⟨ht.keys, ht.slots, ht.inFlight, rfl, fun hclosed => ?_⟩,
    fun _ => Nat.le_refl _, fun hclosed => hclosed⟩
  obtain ⟨hbuffer, hretries⟩ := ht.shut hclosed
  have hretries : c.retryQueue = [] := hretries
  exact ⟨hbuffer, by simp [stock, takeDue, withRetryQueue, hretries]⟩

theorem turns_enqueue (entry : RetryEntry) (opened : c.closed = false) :
    Turns 0 (c.stock commons) ((c.withRetryQueue (c.retryQueue ++ [entry])).stock commons) := by
  refine ⟨fun ht => ⟨ht.keys, ht.slots, ht.inFlight, rfl, fun hclosed => ?_⟩,
    fun _ => Nat.le_refl _, fun hclosed => hclosed⟩
  rw [show c.closed = true from hclosed] at opened
  cases opened

theorem turns_discardPipe (c : Connector) (commons : Commons) (pipe : String) (region : Int) :
    Turns 0 (c.stock commons) ((c.discardPipe commons pipe region).1.stock
      (c.discardPipe commons pipe region).2.1) := by
  have hkept := (c.stock commons).turns_keepOnly (fun entry => !entry.2.belongsTo pipe region)
    fun entry => !entry.event.belongsTo pipe region
  have hstock : (c.discardPipe commons pipe region).1.stock
      (c.discardPipe commons pipe region).2.1 =
      (c.stock commons).keepOnly (fun entry => !entry.2.belongsTo pipe region)
        fun entry => !entry.event.belongsTo pipe region := by
    simp only [discardPipe, stock, Stock.keepOnly, count_releaseSlots, Bool.not_not,
      List.length_map]
    rfl
  rw [hstock]
  exact hkept

theorem turns_close (c : Connector) (commons : Commons) :
    Turns 0 (c.stock commons) ((c.close commons).1.stock (c.close commons).2) := by
  unfold close
  split
  · exact .of_eq rfl
  · refine ⟨fun ht => ⟨List.nodup_nil, ?_, rfl, rfl, fun _ => ⟨rfl, rfl⟩⟩, fun _ => Nat.zero_le _,
      fun _ => rfl⟩
    have hslots : commons.slots.count = c.buffer.length := ht.slots
    exact (count_releaseSlots _ _).trans (hslots ▸ Nat.sub_self _)

end Connector
end Courier
