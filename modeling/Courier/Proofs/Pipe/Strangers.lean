import Courier.Proofs.Pipe.Deeds

/-!
What a transfer leaves alone: every event but its own, whatever commit id it has. The event may have
been discarded meanwhile, and its commit id may belong to another.
-/

namespace Courier

open Transfer

namespace Pipe

variable {P : Type} {p p' p'' : Pipe P} {id : EventId} {e : EventRef}

/-- An event keeps its references, its place in the buffer and its entries in the retry queue. -/
structure LeavesAlone (e : EventRef) (p p' : Pipe P) : Prop where
  ledger : p'.commons.ledger.get e.id = p.commons.ledger.get e.id
  buffer : ∀ commit, p.connector.buffered? commit = some e →
    p'.connector.buffered? commit = some e
  retries : p'.connector.retryQueue.filter (fun entry => entry.event.id = e.id) =
    p.connector.retryQueue.filter fun entry => entry.event.id = e.id

namespace LeavesAlone

theorem of_eq (ledger : p'.commons.ledger = p.commons.ledger)
    (buffer : p'.connector.buffer = p.connector.buffer)
    (retryQueue : p'.connector.retryQueue = p.connector.retryQueue) : LeavesAlone e p p' := by
  refine ⟨?_, fun commit hfound => ?_, ?_⟩
  · rw [ledger]
  · rw [Connector.buffered?, buffer]
    exact hfound
  · rw [retryQueue]

theorem refl (e : EventRef) (p : Pipe P) : LeavesAlone e p p := of_eq rfl rfl rfl

theorem trans (h : LeavesAlone e p p') (h' : LeavesAlone e p' p'') : LeavesAlone e p p'' :=
  ⟨h'.ledger.trans h.ledger, fun commit hfound => h'.buffer commit (h.buffer commit hfound),
    h'.retries.trans h.retries⟩

variable {mine : EventRef} (other : e.id ≠ mine.id)
include other

theorem drop (p : Pipe P) : LeavesAlone e p (p.drop mine) :=
  ⟨Ledger.get_update_ne other, fun _ hfound => hfound, rfl⟩

theorem backOff (p : Pipe P) :
    LeavesAlone e p { p with commons := p.commons.backOff mine } :=
  ⟨Ledger.get_set_ne _ _ other, fun _ hfound => hfound, rfl⟩

theorem enqueue (p : Pipe P) : LeavesAlone e p (p.enqueue mine) := by
  refine ⟨rfl, fun _ hfound => hfound, ?_⟩
  simp [Pipe.enqueue, Connector.withRetryQueue, Ne.symm other]

omit other in
theorem wakeWorker (e : EventRef) (p : Pipe P) : LeavesAlone e p p.wakeWorker := by
  unfold Pipe.wakeWorker
  split <;> exact of_eq rfl rfl rfl

theorem addFailure (p : Pipe P) : LeavesAlone e p (p.addFailure mine) := by
  cases hclosed : p.connector.closed with
  | true =>
      rw [addFailure_of_closed hclosed]
      exact ⟨Ledger.get_update_ne other, fun _ hfound => hfound, rfl⟩
  | false =>
      cases hreleased : p.commons.isReleased mine with
      | true =>
          rw [addFailure_of_released hclosed hreleased]
          exact refl e p
      | false =>
          rw [addFailure_of_live hclosed hreleased]
          have hnoted : LeavesAlone e (p.enqueue mine) ((p.enqueue mine).note (.queued mine)) :=
            of_eq rfl rfl rfl
          exact (enqueue other p).trans (hnoted.trans (wakeWorker e _))

omit other in
theorem lookup_filter_ne {buffer : List (CommitId × EventRef)} {commit key : CommitId}
    (h : commit ≠ key) :
    (buffer.filter fun entry => entry.1 != key).lookup commit = buffer.lookup commit := by
  induction buffer with
  | nil => rfl
  | cons entry buffer ih =>
      obtain ⟨first, e⟩ := entry
      by_cases hfirst : first = key
      · subst hfirst
        have hne : (commit == first) = false := by simpa using h
        rw [List.filter_cons_of_neg (by simp), List.lookup_cons, hne]
        exact ih
      · rw [List.filter_cons_of_pos (by simpa using hfirst), List.lookup_cons, List.lookup_cons, ih]

/-- What lies in the buffer under the commit id of another stays there. -/
theorem remove (p : Pipe P) : LeavesAlone e p (p.remove mine).1 := by
  rcases buffered_same_or_gone p mine with ⟨found, hfound, hsame⟩ | hgone
  · have hremove : (p.remove mine).1.commons.ledger = p.commons.ledger ∧
        (p.remove mine).1.connector.retryQueue = p.connector.retryQueue ∧
          (p.remove mine).1.connector.buffer =
            p.connector.buffer.filter fun entry => entry.1 != mine.event.commit := by
      simp only [Pipe.remove, Connector.remove, hfound, hsame, if_true]
      exact ⟨trivial, rfl, rfl⟩
    obtain ⟨hledger, hretries, hbuffer⟩ := hremove
    refine ⟨by rw [hledger], fun commit hthere => ?_, by rw [hretries]⟩
    -- Under the commit id of `mine` lies `mine` itself, so the other lies elsewhere.
    have hne : commit ≠ mine.event.commit := by
      rintro rfl
      rw [hfound] at hthere
      exact other (Option.some.inj hthere ▸ hsame)
    rw [Connector.buffered?, hbuffer, lookup_filter_ne hne]
    exact hthere
  · cases hfound : p.connector.buffered? mine.event.commit with
    | none =>
        have hremove : p.remove mine =
            ({ p with connector := p.connector.withBuffer p.connector.buffer }, false) := by
          simp only [Pipe.remove, Connector.remove, hfound]
        rw [hremove]
        exact of_eq rfl rfl rfl
    | some found =>
        have hremove : p.remove mine =
            ({ p with connector := p.connector.withBuffer p.connector.buffer }, false) := by
          simp only [Pipe.remove, Connector.remove, hfound, if_neg (hgone found hfound)]
        rw [hremove]
        exact of_eq rfl rfl rfl

omit other in
theorem dueTaken (p : Pipe P)
    (others : ∀ entry ∈ p.connector.retryQueue, e.id ≠ entry.event.id) :
    LeavesAlone e p p.dueTaken := by
  have hnone (entries : List RetryEntry) (hsub : entries ⊆ p.connector.retryQueue) :
      (entries.filter fun entry => entry.event.id = e.id) = [] :=
    List.filter_eq_nil_iff.mpr fun entry hentry => by simpa using (others entry (hsub hentry)).symm
  refine ⟨rfl, fun _ hfound => hfound, ?_⟩
  exact (hnone _ (List.filter_sublist).subset).trans (hnone _ (List.Subset.refl _)).symm

end LeavesAlone

/-- A deed of a task leaves every event alone that is not its own. -/
theorem LeavesAlone.of_deed {calm : Prop} {task : TaskId} {mine : EventRef → Prop}
    (others : ∀ e', mine e' → e.id ≠ e'.id) (h : Deed calm task mine p p') :
    LeavesAlone e p p' := by
  cases h with
  | looked _ hlook =>
      rw [look_eq hlook]
      exact .of_eq rfl rfl rfl
  | dropped own => exact .drop (others _ own) p
  | delayed own => exact .backOff (others _ own) p
  | failed own => exact .addFailure (others _ own) p
  | removed own => exact .remove (others _ own) p
  | taken own => exact .dueTaken p fun entry hentry => others _ (own entry hentry)
  | woke => exact .wakeWorker e p
  | _ => exact .of_eq rfl rfl rfl

theorem LeavesAlone.of_deeds {calm : Prop} {task : TaskId} {mine : EventRef → Prop}
    (others : ∀ e', mine e' → e.id ≠ e'.id) (h : Deeds calm task mine p p') :
    LeavesAlone e p p' := by
  induction h with
  | refl => exact .refl e p
  | tail _ hdeed ih => exact ih.trans (.of_deed others hdeed)

/-- The step of a transfer leaves every event alone but its own. -/
theorem leavesAlone_run [Batch.Payload P] {a : Attempt} (other : e.id ≠ a.event.id) (p : Pipe P)
    {id : TaskId} {link : Link Pending} (task : p.task? id = some (.transfer a link)) :
    LeavesAlone e p (p.run id) := by
  have hdeeds : Deeds False id (fun e' => e.id ≠ e'.id) p (p.runTransfer id a link) :=
    Deeds.runTransfer other p False.elim
  simp only [run, task]
  exact .of_deeds (fun _ hother => hother) hdeeds

end Pipe
end Courier
