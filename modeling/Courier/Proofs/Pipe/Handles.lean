import Courier.Proofs.Pipe.Cap
import Courier.Proofs.Pipe.Owners

/-!
Handles on events. A pipe never makes one up: whatever it holds was handed to it. So if all handles
that are handed to a pipe name their events as one catalogue does, two handles on one event that
are found anywhere in the pipe are the same.
-/

namespace Courier

open Transfer

namespace Pipe

variable {P : Type} {events : EventId → Event} {b b' : Books P}

/-- Tasks are numbered, and every event that is spoken of is as the catalogue has it. -/
structure Books.Named (events : EventId → Event) (b : Books P) : Prop where
  numbered : b.Numbered
  known : ∀ e, b.Mentions e → e.event = events e.id

theorem Books.Named.eq_of_id (hb : b.Named events) {e : EventRef} (he : b.Mentions e) {id : EventId}
    (same : e.id = id) : e = ⟨id, events id⟩ := by
  obtain ⟨id', event⟩ := e
  obtain rfl : id' = id := same
  obtain rfl : event = events id' := hb.known _ he
  rfl

theorem Books.Named.handed (hb : b.Named events) {x : Item}
    (known : ∀ e, x.Mentions e → e.event = events e.id) : (b.handed x).Named events := by
  refine ⟨hb.numbered, fun e he => ?_⟩
  rcases he with ⟨i, hi, he⟩ | hstored
  · rcases Multiset.mem_cons.mp hi with rfl | hi
    · exact known e he
    · exact hb.known e (.inl ⟨i, hi, he⟩)
  · exact hb.known e (.inr hstored)

theorem Books.Named.of_handed {x : Item} (hb : (b.handed x).Named events) : b.Named events := by
  refine ⟨hb.numbered, fun e he => hb.known e ?_⟩
  rcases he with ⟨i, hi, he⟩ | hstored
  · exact .inl ⟨i, Multiset.mem_cons_of_mem hi, he⟩
  · exact .inr hstored

theorem Books.Swept.named {mine : EventRef → Bool} {found : List EventRef}
    (h : Books.Swept mine found b b') (hb : b.Named events) : b'.Named events :=
  ⟨h.numbered hb.numbered, fun e he => hb.known e (h.mentions he)⟩

/-- Who only gives away what it has speaks of nothing else. -/
theorem mentions_of_subset {p p' : Pipe P} {e : EventRef} (he : (p'.books none 0).Mentions e)
    (tasks : p'.tasks = p.tasks)
    (queue : p'.queue.channels.toList ⊆ p.queue.channels.toList)
    (pending : p'.pending.toList ⊆ p.pending.toList)
    (batch : p'.batch.events ⊆ p.batch.events)
    (retries : p'.connector.retryQueue ⊆ p.connector.retryQueue)
    (buffer : p'.connector.buffer ⊆ p.connector.buffer) : (p.books none 0).Mentions e := by
  rcases he with ⟨x, hx, he⟩ | hbatch | ⟨commit, hbuffer⟩
  · refine .inl ⟨x, ?_, he⟩
    simp only [books, stored, others_none, tasks, add_zero, Multiset.mem_add, Multiset.mem_coe,
      List.mem_map] at hx ⊢
    rcases hx with ((⟨w, hw, rfl⟩ | ⟨w, hw, rfl⟩) | ⟨entry, hentry, rfl⟩) | htask
    · exact .inl (.inl (.inl ⟨w, queue hw, rfl⟩))
    · exact .inl (.inl (.inr ⟨w, pending hw, rfl⟩))
    · exact .inl (.inr ⟨entry, retries hentry, rfl⟩)
    · exact .inr htask
  · exact .inr (.inl (batch hbatch))
  · exact .inr (.inr ⟨commit, buffer hbuffer⟩)

variable [Batch.Payload P] {lossy : Prop} {p p' : Pipe P}

theorem Leads.named (h : Leads lossy b b') (hb : b.Named events) : b'.Named events :=
  ⟨h.keeps hb.numbered hb.numbered Move.numbered,
    h.keeps hb.numbered hb.known fun hmove hknown e he => hknown e (hmove.mentions he)⟩

/-- A close gives everything away, or had nothing to give. -/
theorem mentions_close (p : Pipe P) {e : EventRef} (he : (p.close.books none 0).Mentions e) :
    (p.books none 0).Mentions e := by
  have hbatch (commons : Commons) : (p.batch.close commons).1.events ⊆ p.batch.events := by
    unfold Batch.Accumulator.close
    split
    · exact List.Subset.refl _
    · exact List.nil_subset _
  have hconnector (commons : Commons) :
      (p.connector.close commons).1.retryQueue ⊆ p.connector.retryQueue ∧
        (p.connector.close commons).1.buffer ⊆ p.connector.buffer := by
    unfold Connector.close
    split
    · exact ⟨List.Subset.refl _, List.Subset.refl _⟩
    · exact ⟨List.nil_subset _, List.nil_subset _⟩
  exact mentions_of_subset he rfl (List.nil_subset _) (List.nil_subset _) (hbatch _)
    (hconnector _).1 (hconnector _).2

omit [Batch.Payload P] in
theorem mentions_remove (p : Pipe P) (removed : EventRef) {e : EventRef}
    (he : ((p.remove removed).1.books none 0).Mentions e) : (p.books none 0).Mentions e := by
  have hconnector : (p.connector.remove p.commons removed).1.retryQueue ⊆
        p.connector.retryQueue ∧
      (p.connector.remove p.commons removed).1.buffer ⊆ p.connector.buffer := by
    unfold Connector.remove
    split
    · split
      · exact ⟨List.Subset.refl _, List.filter_subset_self _⟩
      · exact ⟨List.Subset.refl _, List.Subset.refl _⟩
    · exact ⟨List.Subset.refl _, List.Subset.refl _⟩
  exact mentions_of_subset he rfl (List.Subset.refl _) (List.Subset.refl _) (List.Subset.refl _)
    hconnector.1 hconnector.2

/-- What happens to a pipe to which events of the catalogue are handed, and no others. -/
inductive KnownUse (events : EventId → Event) (p : Pipe P) : Pipe P → Prop
  | retuned (ledger : Ledger) : KnownUse events p (p.withLedger ledger)
  | offered (e : EventRef) (known : e.event = events e.id) : KnownUse events p (p.offer e).1
  | sent (sent : List EventRef) (payload : Bytes) (known : ∀ e ∈ sent, e.event = events e.id) :
      KnownUse events p (p.callSend sent payload).1
  | discarded (pipe : String) (region : Int) : KnownUse events p (p.discard pipe region).1
  | closedConnector : KnownUse events p p.closeConnector
  | tornDown (pipe : String) (region : Int) : KnownUse events p (p.teardown pipe region).1
  | closed : KnownUse events p p.close
  | ran (id : TaskId) : KnownUse events p (p.run id)
  | aside {p' : Pipe P} (beside : Aside p p') (slots : p'.commons.slots = p.commons.slots) :
      KnownUse events p p'
  | transferred (e : EventRef) (known : e.event = events e.id) :
      KnownUse events p (p.transferFile e).1
  | failed (e : EventRef) (known : e.event = events e.id) : KnownUse events p (p.addFailure e)
  | removed (e : EventRef) : KnownUse events p (p.remove e).1
  | dispatched (e : EventRef) (known : e.event = events e.id) :
      KnownUse events p (p.callDispatch e).1
  | stepped : KnownUse events p p.callStep.1

theorem KnownUse.use (h : KnownUse events p p') : Use p p' := by
  cases h with
  | retuned ledger => exact .traffic (.retuned ledger)
  | offered e => exact .traffic (.offered e)
  | sent sent payload => exact .traffic (.sent sent payload)
  | discarded pipe region => exact .traffic (.discarded pipe region)
  | closedConnector => exact .traffic .closedConnector
  | tornDown pipe region => exact .traffic (.tornDown pipe region)
  | closed => exact .traffic .closed
  | ran id => exact .traffic (.ran id)
  | aside beside slots => exact .traffic (.aside beside slots)
  | transferred e => exact .transferred e
  | failed e => exact .failed e
  | removed e => exact .removed e
  | dispatched e => exact .dispatched e
  | stepped => exact .stepped

theorem named_callDispatch {e : EventRef} (hp : (p.books none {.waiting e}).Named events) :
    ((p.callDispatch e).1.books none 0).Named events := by
  have hnew : Leads True (p.books none {.waiting e})
      (p.newTask.1.books (some p.nextTask) {.waiting e}) := leads_newTask p _
  have hdispatched : Leads True (p.newTask.1.books (some p.nextTask) {.waiting e})
      ((p.newTask.1.dispatch p.nextTask e false).books none 0) :=
    leads_dispatch p.newTask.1 p.nextTask e false (.inl trivial)
  exact hdispatched.named (hnew.named hp)

theorem named_callStep (hp : (p.books none 0).Named events) :
    (p.callStep.1.books none 0).Named events := by
  have hpolled {queue : Queue.Realtime} {commons : Commons} {e? : Option EventRef}
      (hpoll : p.queue.poll p.commons = (queue, commons, e?)) :
      ((p.withQueue queue commons).books none (retrieved (.done e?) + 0)).Named events := by
    rw [← books_gave (Queue.Realtime.gave_poll hpoll)]
    exact hp
  unfold callStep
  split
  · rename_i queue commons hpoll
    exact hpolled hpoll
  · rename_i queue commons e hpoll
    exact named_callDispatch (p := p.withQueue queue commons) (hpolled hpoll)

theorem KnownUse.named (h : KnownUse events p p') (hp : (p.books none 0).Named events) :
    (p'.books none 0).Named events := by
  have hhanded {x : Item} (known : ∀ e, x.Mentions e → e.event = events e.id) :
      (p.books none {x}).Named events := by
    rw [books_handed]
    exact hp.handed known
  cases h with
  | retuned ledger => exact ⟨hp.numbered, hp.known⟩
  | offered e known =>
      have hgiven := hhanded (x := .waiting e) fun _ he => he ▸ known
      have hoffered : Leads True _ _ := leads_offer p e
      exact hoffered.named hgiven
  | sent sent payload known =>
      have hgiven := hhanded (x := .sending sent payload none) known
      have hsent : Leads True _ _ := leads_callSend p sent payload
      exact hsent.named hgiven
  | discarded pipe region => exact (swept_discard p pipe region).named hp
  | closedConnector =>
      cases hclosed : p.connector.closed with
      | true =>
          rw [closeConnector_of_closed hclosed]
          exact hp
      | false => exact (swept_closeConnector hclosed).named hp
  | tornDown pipe region => exact (swept_teardown p pipe region).named hp
  | closed => exact ⟨hp.numbered, fun e he => hp.known e (mentions_close p he)⟩
  | ran id =>
      have hran : Leads True _ _ := leads_run p id (.inl trivial)
      exact hran.named hp
  | aside beside =>
      have hbeside : Leads True _ _ := leads_aside beside
      exact hbeside.named hp
  | transferred e known =>
      have hgiven := hhanded (x := .guest e) fun _ he => he ▸ known
      -- Who asks for the transfer keeps its own handle, which is no part of the pipe.
      have htransferred : Leads True _ _ := (leads_transferFile p (mentions_guest p e)).1
      have hkept := htransferred.named hgiven
      rw [books_handed] at hkept
      exact hkept.of_handed
  | failed e known =>
      have hgiven := hhanded (x := .failed e) fun _ he => he ▸ known
      have hfailed : Leads True (p.books none (.failed e ::ₘ 0)) _ := leads_addFailure p e
      exact hfailed.named hgiven
  | removed e => exact ⟨hp.numbered, fun _ he => hp.known _ (mentions_remove p e he)⟩
  | dispatched e known =>
      exact named_callDispatch (hhanded (x := .waiting e) fun _ he => he ▸ known)
  | stepped => exact named_callStep hp

theorem named_of_reach (new : p.IsNew) (reach : Relation.ReflTransGen (KnownUse events) p p') :
    (p'.books none 0).Named events := by
  induction reach with
  | refl => exact ⟨numbered_of_new new, fun e he => ((accounted_of_new new events).known e he).2⟩
  | tail _ huse ih => exact huse.named ih

end Pipe
end Courier
