import Courier.Proofs.Ledger
import Courier.Proofs.Pipe.Books
import Mathlib.Logic.Relation

/-!
What a running task can do to the books, in single moves. A move says under which condition of the
code it is made; of the answers of the peer nothing is said but what is written down of them. What
every move preserves, every task preserves at every step.
-/

namespace Courier

open Transfer

namespace Pipe

variable {P : Type} [Batch.Payload P]

/-- Why an event that was offered needs to wait no longer. -/
inductive Routed (b : Books P) (e : EventRef) : Prop
  | kept (last : EventRef) (there : last ∈ b.batch) (same : last.id = e.id)
  | empty (payload : P) (skipped : (Batch.Payload.construct payload e.event).2 = .ok false)
  | refused (light : e.event.isBulk = false) {error : Batch.BatchError}
      (noted : Occurrence.refused e error ∈ b.trace) (permanent : error.isPermanent = true)
  | gone (none : (b.ledger.get e.id).count = 0)
  | batchClosed (closed : b.batchClosed = true)
  | closed (closed : b.closed = true)
  | unnamed (bulk : e.event.isBulk = true) {settings : Transfer.Settings} {now : Nat}
      {error : TransferError} (failed : Attempt.prepare e settings now = .error error)
  | buffered (bulk : e.event.isBulk = true) (taken : (b.buffered? e.event.commit).isSome = true)
  | heartbeat (beat : e.event.isHeartbeat = true)

/-- Items that become others while ledger, batch and buffer stay as they are. Only where `lossy`
holds may a tablet lose its place to another. -/
inductive Turn (lossy : Prop) (b : Books P) : Multiset Item → Multiset Item → Prop
  | routed {e : EventRef} (why : Routed b e) : Turn lossy b {.waiting e} {.spent e}
  | deferred {e : EventRef} {payload : P} {error : Batch.BatchError}
      (failed : (Batch.Payload.construct payload e.event).2 = .error error)
      (transient : error.isPermanent = false) :
      Turn lossy b {.waiting e} {.deferred e}
  | offeredAgain {e : EventRef} : Turn lossy b {.deferred e} {.waiting e}
  /-- Another event took its place. -/
  | mislaid {e : EventRef} (crowded : lossy) : Turn lossy b {.deferred e} 0
  | asksTablets {events : List EventRef} {payload : Bytes} {asked : Option Request}
      {t : TabletBatch} (same : t.payload = payload) :
      Turn lossy b {.sending events payload asked} {.sending events payload (some (.tablets t))}
  | acknowledged {events : List EventRef} {payload : Bytes} {request : Request}
      (took : b.Took request) :
      Turn lossy b {.sending events payload (some request)} ↑(events.map Item.spent)
  | abandoned {events : List EventRef} {payload : Bytes} {asked : Option Request}
      (why : events = [] ∨ b.closed = true) :
      Turn lossy b {.sending events payload asked} ↑(events.map Item.spent)
  | failedTablets {events : List EventRef} {payload : Bytes} {asked : Option Request} :
      Turn lossy b {.sending events payload asked} ↑(events.map Item.failed)
  | asksPiece {a : Attempt} {asked : Option (Sent × Request)} {d : Disk} {stage : Stage}
      {next : Sent × Request} (due : a.next d stage = .ok next) :
      Turn lossy b {.attempt a asked} {.attempt a (some next)}
  | failedAttempt {a : Attempt} {asked : Option (Sent × Request)} :
      Turn lossy b {.attempt a asked} {.failed a.event}
  | lapsed {a : Attempt} {request : Request} (took : b.Took request)
      (gone : ∀ found, b.buffered? a.event.event.commit = some found → found.id ≠ a.event.id) :
      Turn lossy b {.attempt a (some (.seal, request))} 0
  | requeued {e : EventRef} (unclosed : b.closed = false)
      (unreleased : b.ledger.isReleased e.id = false) :
      Turn lossy b {.failed e} {.retry e}
  | forgotten {e : EventRef} (released : b.ledger.isReleased e.id = true) :
      Turn lossy b {.failed e} 0
  | skipped {e : EventRef} (released : b.ledger.isReleased e.id = true) : Turn lossy b {.retry e} 0
  | resumedFile {e : EventRef} {settings : Transfer.Settings} {now : Nat} {a : Attempt}
      (prepared : Attempt.prepare e settings now = .ok a) :
      Turn lossy b {.retry e} {.attempt a none}
  | lostFile {e : EventRef} (bulk : e.event.isBulk = true) {settings : Transfer.Settings}
      {now : Nat} {error : TransferError} (failed : Attempt.prepare e settings now = .error error)
      (gone : ∀ found, b.buffered? e.event.commit = some found → found.id ≠ e.id) :
      Turn lossy b {.retry e} 0
  | resumedTablet {e : EventRef} {t : Tablet} (content : e.event.content = .tablet t)
      {payload : Batch.PlainPayload}
      (encoded : Batch.PlainPayload.construct {} e.event = (payload, .ok true)) :
      Turn lossy b {.retry e} {.sending [e] payload.bytes none}
  | unencodable {e : EventRef} (light : e.event.isBulk = false)
      (failed : (Batch.PlainPayload.construct {} e.event).2 ≠ .ok true) :
      Turn lossy b {.retry e} {.spent e}

/-- Why a file leaves the buffer. -/
inductive Done (b : Books P) : Item → EventRef → Prop
  | sealed {a : Attempt} {request : Request} (took : b.Took request) :
      Done b (.attempt a (some (.seal, request))) a.event
  | unnamed {e : EventRef} (bulk : e.event.isBulk = true) {settings : Transfer.Settings}
      {now : Nat} {error : TransferError} (failed : Attempt.prepare e settings now = .error error) :
      Done b (.retry e) e

/-- A request for some tablets: it has their payload and their number, and belongs to the region of
the first. -/
structure Asks (sent : List EventRef) (payload : Bytes) (t : TabletBatch) : Prop where
  payload : t.payload = payload
  count : t.count = sent.length
  region : ∀ e, sent.head? = some e → t.region = e.event.region

/-- Only what is not released is queued for another try or taken up again, and only tablets on their
way are asked for. -/
def Books.Allows (b : Books P) : Occurrence → Prop
  | .queued e | .resubmitted e => b.ledger.isReleased e.id = false
  | .requested _ (.tablets t) =>
      ∃ sent payload asked, .sending sent payload asked ∈ b.items ∧ Asks sent payload t
  | _ => True

inductive Move (lossy : Prop) (b : Books P) : Books P → Prop
  | noted {o : Occurrence} (allowed : b.Allows o) : Move lossy b { b with trace := o :: b.trace }
  | retuned {ledger : Ledger} (same : b.ledger.SameHolders ledger) :
      Move lossy b { b with ledger := ledger }
  | turned {x y rest : Multiset Item} (here : b.items = x + rest) (turn : Turn lossy b x y) :
      Move lossy b { b with items := y + rest }
  | held {e : EventRef} (mentioned : b.Mentions e) (took : (b.ledger.hold e.id).2 = true) :
      Move lossy b { b with ledger := (b.ledger.hold e.id).1, items := .spent e ::ₘ b.items }
  | dropped {e : EventRef} {rest : Multiset Item} (here : b.items = .spent e ::ₘ rest) :
      Move lossy b { b with ledger := (b.ledger.drop e.id).1, items := rest }
  | cleared {e : EventRef} {rest : Multiset Item} (here : b.items = .failed e ::ₘ rest)
      (closed : b.closed = true) :
      Move lossy b { b with ledger := (b.ledger.clear e.id).1, items := rest }
  | tried {e : EventRef} {payload : P} {result : Except Batch.BatchError Bool}
      (constructed : Batch.Payload.construct b.payload e.event = (payload, result))
      (without : result ≠ .ok true) :
      Move lossy b { b with payload := payload }
  | kept {e : EventRef} {payload : P} {rest : Multiset Item}
      (here : b.items = .spent e ::ₘ rest) (light : e.event.isBulk = false)
      (batchOpen : b.batchClosed = false) (live : 0 < (b.ledger.get e.id).count)
      (constructed : Batch.Payload.construct b.payload e.event = (payload, .ok true)) :
      Move lossy b { b with payload := payload, batch := b.batch ++ [e], items := rest }
  | emitted :
      Move lossy b { b with
        batch := []
        payload := Batch.Payload.reset (Batch.Payload.take b.payload).1
        items := .sending b.batch (Batch.Payload.take b.payload).2 none ::ₘ b.items }
  | takenOn {e : EventRef} {settings : Transfer.Settings} {now : Nat} {a : Attempt}
      (mentioned : b.Mentions e) (unclosed : b.closed = false)
      (prepared : Attempt.prepare e settings now = .ok a)
      (took : (b.ledger.hold e.id).2 = true) (free : b.buffered? e.event.commit = none) :
      Move lossy b { b with
        ledger := (b.ledger.hold e.id).1
        buffer := b.buffer ++ [(e.event.commit, e)]
        items := .attempt a none ::ₘ b.items }
  | freed {x : Item} {e found : EventRef} {rest : Multiset Item} (here : b.items = x ::ₘ rest)
      (why : Done b x e) (there : b.buffered? e.event.commit = some found)
      (same : found.id = e.id) :
      Move lossy b { b with
        buffer := b.buffer.filter fun entry => entry.1 != e.event.commit
        items := .spent e ::ₘ rest }
  | spawned : Move lossy b { b with ids := b.nextTask ::ₘ b.ids, nextTask := b.nextTask + 1 }
  | retired {id : TaskId} {rest : Multiset TaskId} (here : b.ids = id ::ₘ rest) :
      Move lossy b { b with ids := rest }

/-- Some moves lead from one state of the books to another, provided that tasks are numbered. -/
def Leads (lossy : Prop) (b b' : Books P) : Prop :=
  b.Numbered → Relation.ReflTransGen (Move lossy) b b'

variable {lossy : Prop} {b b' b'' : Books P}

/-- Tablets that are on their way were so before, or are one that is taken up again. -/
theorem Turn.sending {x y : Multiset Item} (h : Turn lossy b x y) {sent : List EventRef}
    {payload : Bytes} {asked : Option Request} (there : .sending sent payload asked ∈ y) :
    (∃ asked, .sending sent payload asked ∈ x) ∨
      ∃ e t plain, sent = [e] ∧ .retry e ∈ x ∧ e.event.content = .tablet t ∧
        Batch.PlainPayload.construct {} e.event = (plain, .ok true) ∧ payload = plain.bytes := by
  cases h with
  | mislaid | lapsed | forgotten | skipped | lostFile => cases there
  | acknowledged | abandoned | failedTablets =>
      obtain ⟨e, _, heq⟩ := List.mem_map.mp there
      cases heq
  | asksTablets same =>
      rw [Multiset.mem_singleton] at there
      cases there
      exact .inl ⟨_, Multiset.mem_singleton_self _⟩
  | resumedTablet content encoded =>
      rw [Multiset.mem_singleton] at there
      cases there
      exact .inr ⟨_, _, _, rfl, Multiset.mem_singleton_self _, content, encoded, rfl⟩
  | _ =>
      rw [Multiset.mem_singleton] at there
      cases there

theorem Move.numbered (h : Move lossy b b') (hn : b.Numbered) : b'.Numbered := by
  cases h with
  | spawned =>
      refine ⟨Multiset.nodup_cons.mpr ⟨fun hmem => Nat.lt_irrefl _ (hn.2 _ hmem), hn.1⟩, ?_⟩
      intro id hid
      rcases Multiset.mem_cons.mp hid with rfl | hid
      · exact Nat.lt_succ_self _
      · exact Nat.lt_succ_of_lt (hn.2 id hid)
  | retired here =>
      obtain ⟨hnodup, hlt⟩ := hn
      rw [here] at hnodup hlt
      exact ⟨(Multiset.nodup_cons.mp hnodup).2,
        fun id hid => hlt id (Multiset.mem_cons_of_mem hid)⟩
  | _ => exact hn

/-- What nobody holds any more stays so. -/
theorem Move.get_of_gone (h : Move lossy b b') {id : EventId}
    (gone : (b.ledger.get id).count = 0) :
    (b'.ledger.get id).count = 0 ∧
      (b'.ledger.get id).released = (b.ledger.get id).released := by
  obtain ⟨hhold, hdrop, hclear⟩ := Lifecycle.fixed_of_gone gone
  have hsame {ledger : Ledger} (same : ledger.get id = b.ledger.get id) :
      (ledger.get id).count = 0 ∧ (ledger.get id).released = (b.ledger.get id).released := by
    rw [same]
    exact ⟨gone, rfl⟩
  cases h with
  | retuned same => exact ⟨(same.count id).trans gone, same.released id⟩
  | held | takenOn => exact hsame (Ledger.get_update_of_fixed _ hhold)
  | dropped => exact hsame (Ledger.get_update_of_fixed _ hdrop)
  | cleared => exact hsame (Ledger.get_update_of_fixed _ hclear)
  | _ => exact hsame rfl

/-- What every move keeps is kept. -/
@[elab_as_elim]
theorem Leads.keeps {kept : Books P → Prop} (h : Leads lossy b b') (hn : b.Numbered)
    (before : kept b) (step : ∀ {c c'}, Move lossy c c' → kept c → kept c') : kept b' := by
  have hmoves := h hn
  clear h
  induction hmoves with
  | refl => exact before
  | tail _ hmove ih => exact step hmove ih

theorem Leads.refl (b : Books P) : Leads lossy b b := fun _ => .refl

theorem Leads.of_eq (h : b = b') : Leads lossy b b' := h ▸ Leads.refl b

theorem Leads.trans (h : Leads lossy b b') (h' : Leads lossy b' b'') : Leads lossy b b'' :=
  fun hn => (h hn).trans (h' (h.keeps hn hn Move.numbered))

theorem Leads.head (h : Move lossy b b') (h' : Leads lossy b' b'') : Leads lossy b b'' :=
  fun hn => .head h (h' (h.numbered hn))

theorem Move.leads (h : Move lossy b b') : Leads lossy b b' := fun _ => .single h

end Pipe
end Courier
