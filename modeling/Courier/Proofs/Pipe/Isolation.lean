import Courier.Proofs.Memory.Budget
import Courier.Proofs.Pipe.Handles

/-!
What a teardown leaves alone. It goes through the queue, the place before the batch, the batch, the
retry queue and the buffer, and clears what it takes out; an event of another pipe, or of the same
pipe in another region, stays where it is, with all its references.
-/

namespace Courier

namespace Queue.Realtime

/-- Discarding what is queued gives nothing back to the batches. -/
theorem budget_discardPipe (q : Realtime) (commons : Commons) (pipe : String) (region : Int) :
    (q.discardPipe commons pipe region).2.1.memory.budget = commons.memory.budget :=
  forgetAll_keeps (fun s => s.2.memory.budget) (fun _ _ => Memory.Context.budget_onBlock _ _ _) _ _

end Queue.Realtime

namespace Batch.Accumulator

/-- A batch that keeps something goes on with the bytes and the delay that it has. -/
theorem discardPipe_of_left {P : Type} [Payload P] {b : Accumulator P} {pipe : String}
    {region : Int} (left : (b.events.filter fun e => !e.belongsTo pipe region) ≠ [])
    (commons : Commons) :
    (b.discardPipe commons pipe region).1 =
        { b with events := b.events.filter fun e => !e.belongsTo pipe region } ∧
      (b.discardPipe commons pipe region).2.1.memory = commons.memory := by
  have hleft : (b.events.filter fun e => !e.belongsTo pipe region).isEmpty = false := by
    rw [List.isEmpty_eq_false_iff]
    exact left
  simp only [discardPipe, hleft, Bool.and_false, Bool.false_eq_true, if_false, true_and]
  rfl

end Batch.Accumulator

namespace Pipe

variable {P : Type} [Batch.Payload P] {p p' : Pipe P} {events : EventId → Event}
  {pipe : String} {region : Int}

/-- Whatever is not of one pipe instance stays where it is, in the order in which it is. -/
structure Spares (pipe : String) (region : Int) (p torn : Pipe P) : Prop where
  live : torn.queue.channels.live =
    p.queue.channels.live.filter fun e => !e.belongsTo pipe region
  bulk : torn.queue.channels.bulk =
    p.queue.channels.bulk.filter fun e => !e.belongsTo pipe region
  sinceBulk : torn.queue.channels.sinceBulk = p.queue.channels.sinceBulk
  bulkRetrievals : torn.queue.channels.bulkRetrievals = p.queue.channels.bulkRetrievals
  pending : torn.pending = p.pending.filter fun e => !e.belongsTo pipe region
  batch : torn.batch.events = p.batch.events.filter fun e => !e.belongsTo pipe region
  /-- As long as something is left in the batch, nothing else of it changes. -/
  begun : torn.batch.events ≠ [] → torn.batch = { p.batch with events := torn.batch.events } ∧
    torn.commons.memory.budget = p.commons.memory.budget
  retries : torn.connector.retryQueue =
    p.connector.retryQueue.filter fun entry => !entry.event.belongsTo pipe region
  buffer : torn.connector.buffer =
    p.connector.buffer.filter fun entry => !entry.2.belongsTo pipe region
  tasks : torn.tasks = p.tasks

theorem spares_teardown (p : Pipe P) (pipe : String) (region : Int) :
    Spares pipe region p (p.teardown pipe region).1 := by
  -- One place is searched after the other, each with what the one before left of the commons.
  obtain ⟨hchannels, -, -⟩ := p.queue.discardPipe_fields p.commons pipe region
  have hqueue := p.queue.budget_discardPipe p.commons pipe region
  rw [teardown_eq]
  generalize p.queue.discardPipe p.commons pipe region = q at hchannels hqueue
  obtain ⟨hpending, -, hwaiting, -⟩ := p.discardPending_fields q.2.1 pipe region
  dsimp only
  generalize p.discardPending q.2.1 pipe region = w at hpending hwaiting
  obtain ⟨hevents, -, -⟩ := batch_discardPipe p.batch w.2.1 pipe region
  refine ⟨?_, ?_, ?_, ?_, hpending, hevents, fun hleft => ?_, rfl, rfl, rfl⟩
  · exact (congrArg Queue.Channels.live hchannels).trans rfl
  · exact (congrArg Queue.Channels.bulk hchannels).trans rfl
  · exact (congrArg Queue.Channels.sinceBulk hchannels).trans rfl
  · exact (congrArg Queue.Channels.bulkRetrievals hchannels).trans rfl
  · dsimp only at hleft ⊢
    rw [hevents] at hleft ⊢
    obtain ⟨hbatch, hmemory⟩ := Batch.Accumulator.discardPipe_of_left hleft w.2.1
    refine ⟨hbatch, ?_⟩
    simp only [Connector.discardPipe, hmemory, hwaiting, hqueue]

/-- What is cleared in a teardown are the references of its own events. -/
theorem ledger_teardown (hp : (p.books none 0).Named events) {id : EventId}
    (other : (events id).belongsTo pipe region = false) :
    (p.teardown pipe region).1.commons.ledger.get id = p.commons.ledger.get id := by
  have hswept := swept_teardown p pipe region
  have hledger : (p.teardown pipe region).1.commons.ledger = _ := hswept.ledger
  rw [hledger]
  refine Ledger.get_clearAll_of_ne fun e he hsame => ?_
  obtain ⟨hmentioned, hmine⟩ := hswept.mentions_cleared he
  obtain rfl := hp.eq_of_id hmentioned hsame
  exact Bool.false_ne_true (other.symm.trans hmine)

/-- A teardown of a pipe instance, at any moment of a pipe whose connector alone takes slots, leaves
every event of another name or another region alone: its references and its release, its place in
either channel, before the batch, in the batch, in the retry queue with the time at which it is
ready, and in the buffer. What the queue counts to share its retrievals stays, too. One slot is
freed for every buffered file of the instance, so every other one keeps its slot. -/
theorem teardown_spares_others (new : p.IsUnused)
    (reach : Relation.ReflTransGen (KnownUse events) p p') (pipe : String) (region : Int) :
    let torn := (p'.teardown pipe region).1
    (∀ id, (events id).pipe ≠ pipe ∨ (events id).region ≠ region →
        torn.commons.ledger.get id = p'.commons.ledger.get id) ∧
      Spares pipe region p' torn ∧
      torn.commons.slots.count +
          p'.connector.buffer.countP (fun entry => entry.2.belongsTo pipe region) =
        p'.commons.slots.count ∧
      torn.commons.slots.count = torn.connector.buffer.length := by
  intro torn
  have hspares := spares_teardown p' pipe region
  have huses : Relation.ReflTransGen Use p p' :=
    Relation.ReflTransGen.mono (fun _ _ h => KnownUse.use h) _ _ reach
  have hafter : Relation.ReflTransGen Use p torn := huses.tail (.traffic (.tornDown pipe region))
  have hslots := (mirrors_agree new huses).1.1
  have hkept := (mirrors_agree new hafter).1.1
  refine ⟨fun id hother => ?_, hspares, ?_, hkept⟩
  · have hnamed := named_of_reach new.toIsNew reach
    refine ledger_teardown hnamed (Bool.eq_false_iff.mpr fun hmine => ?_)
    rw [Event.belongsTo, Bool.and_eq_true, beq_iff_eq, beq_iff_eq] at hmine
    rcases hother with hname | hregion
    · exact hname hmine.2
    · exact hregion hmine.1
  · have hsplit := (List.filter_append_perm (fun entry : CommitId × EventRef =>
      entry.2.belongsTo pipe region) p'.connector.buffer).length_eq
    rw [hslots, hkept, hspares.buffer, List.countP_eq_length_filter, ← hsplit, List.length_append,
      Nat.add_comm]

/-- Two files of one name are buffered, of two regions, and two tablets of one region are queued, of
two names. -/
theorem teardown_spares_others_of_four :
    let event (content : Content) (pipe : String) (region : Int) (index : Nat) : Event :=
      { content, pipe, region, commit := ⟨0, 0, index⟩, progress := 0 }
    let file : Content := .file { data := "/d", mods := none, flushPoints := 0 }
    let tablet : Content := .tablet { target := "t", rows := 0, payload := [1] }
    let mine : EventRef := ⟨0, event file "a" 1 0⟩
    let elsewhere : EventRef := ⟨1, event file "a" 2 1⟩
    let named : EventRef := ⟨2, event tablet "b" 1 2⟩
    let queued : EventRef := ⟨3, event tablet "a" 1 3⟩
    let p : Pipe Batch.PlainPayload := {
      commons := {}
      queue := { pipe := "q", settings := {}, block := 0 }
      batch := { id := "b", maxDelayMs := 1, slice := 0, payload := {} }
      connector := .create "c" {}
      clients := .ofClients [0]
      disk := {}
      peer := {} }
    let built := (((p.built 0).built 0).built 0).built 0
    let taken := ((built.transferFile mine).1.transferFile elsewhere).1
    let p' := ((taken.offer named).1.offer queued).1
    let torn := (p'.teardown "a" 1).1
    p'.commons.slots.count = 2 ∧ torn.commons.slots.count = 1 ∧
      torn.connector.buffer = [(⟨0, 0, 1⟩, elsewhere)] ∧ torn.queue.channels.live = [named] ∧
      torn.commons.ledger.get 1 = p'.commons.ledger.get 1 ∧
      (p'.commons.ledger.get 1).count = 2 := by
  intro event file tablet mine elsewhere named queued p built taken p' torn
  let events : EventId → Event := fun id =>
    if id = 0 then mine.event else if id = 1 then elsewhere.event
    else if id = 2 then named.event else queued.event
  have hstate : p'.commons.slots.count = 2 ∧ (p'.commons.ledger.get 1).count = 2 ∧
      p'.queue.channels.live = [named, queued] ∧
      p'.connector.buffer = [(⟨0, 0, 0⟩, mine), (⟨0, 0, 1⟩, elsewhere)] := by
    refine ⟨?_, ?_, ?_, ?_⟩ <;>
      (unfold p' taken built queued named elsewhere mine tablet file event; decide +kernel)
  have new : p.IsUnused :=
    ⟨⟨rfl, rfl, rfl, rfl, rfl, rfl, rfl, rfl, rfl, rfl, rfl⟩, rfl, rfl, rfl⟩
  have hbuilt : Relation.ReflTransGen (KnownUse events) p built :=
    .head (.retuned _) (.head (.retuned _) (.head (.retuned _) (.single (.retuned _))))
  have htaken : Relation.ReflTransGen (KnownUse events) p taken :=
    (hbuilt.tail (.transferred mine rfl)).tail (.transferred elsewhere rfl)
  have reach : Relation.ReflTransGen (KnownUse events) p p' :=
    (htaken.tail (.offered named rfl)).tail (.offered queued rfl)
  have hother : (events 1).pipe ≠ "a" ∨ (events 1).region ≠ 1 := .inr (by decide)
  obtain ⟨hledger, hspares, hslots, -⟩ := teardown_spares_others new reach "a" 1
  obtain ⟨hcount, htwo, hqueue, hbuffer⟩ := hstate
  have hlive := hspares.live
  have hkept := hspares.buffer
  have hsame := hledger 1 hother
  clear_value p'
  rw [hqueue] at hlive
  rw [hbuffer] at hkept hslots
  have hone : [(⟨0, 0, 0⟩, mine), (⟨0, 0, 1⟩, elsewhere)].countP
      (fun entry : CommitId × EventRef => entry.2.belongsTo "a" 1) = 1 := by
    decide +kernel
  rw [hone, hcount] at hslots
  refine ⟨hcount, Nat.succ.inj hslots, hkept.trans ?_, hlive.trans ?_, hsame, htwo⟩
  · decide +kernel
  · decide +kernel

end Pipe
end Courier
