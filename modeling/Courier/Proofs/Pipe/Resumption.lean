import Courier.Proofs.Pipe.Outcome

/-!
What the worker does with the events whose time has come. It takes them out of the retry queue and
takes up each one that is not released yet, in commit order; what can be sent again is a task of its
own from then on. What is not due stays as it was.
-/

namespace Courier

open Transfer

namespace Lifecycle

variable {l : Lifecycle}

theorem released_drop (h : l.released = true) : l.drop.1.released = true := by
  unfold drop
  split
  · exact h
  · split
    · simp [release, h]
    · exact h

end Lifecycle

/-- What is kept of a single entry, is kept of every released one. -/
theorem Ledger.released_update {l : Ledger} {f : Lifecycle → Lifecycle × Bool} {target id : EventId}
    (keeps : ∀ {entry : Lifecycle}, entry.released = true → (f entry).1.released = true)
    (h : (l.get id).released = true) : ((l.update target f).1.get id).released = true := by
  by_cases hid : id = target
  · subst hid
    rcases Nat.lt_or_ge id l.entries.size with hlt | hge
    · rw [get_update_self hlt]
      exact keeps h
    · rw [get_of_le hge] at h
      cases h
  · rwa [get_update_ne hid]

namespace Pipe

variable {P : Type} {p p' : Pipe P} {id : TaskId} {e : EventRef}

/-- How an event is sent again: a file by a transfer, a tablet in a batch of its own. What has lost
its name or its encoding is not. -/
def resumed (settings : Transfer.Settings) (now : Nat) (e : EventRef) : Option Process :=
  match e.event.content with
  | .file _ =>
      match Attempt.prepare e settings now with
      | .ok a => some (.transfer a .asking)
      | .error _ => none
  | .tablet _ =>
      match Batch.PlainPayload.construct {} e.event with
      | (payload, .ok true) =>
          some (.tablets { events := [e], payload := payload.bytes, purpose := .retry } .asking)
      | _ => none
  | .heartbeat _ => none

theorem carried_resumed {settings : Transfer.Settings} {now : Nat} {process : Process}
    (h : resumed settings now e = some process) :
    process.carried = [e] ∧ process.works = true ∧ process.consumes = false := by
  unfold resumed at h
  split at h
  · split at h
    · rename_i a hprepared
      cases h
      exact ⟨congrArg (fun e => [e]) (Attempt.prepare_event hprepared).1, rfl, rfl⟩
    · cases h
  · split at h
    · cases h
      exact ⟨rfl, rfl, rfl⟩
    · cases h
  · cases h

/-- Tasks are started, but the retry queue and all pauses stay as they are. -/
structure Resumes (started : List Process) (told : List Occurrence) (p p' : Pipe P) : Prop where
  tasks : ∃ fresh, p'.tasks = p.tasks ++ fresh ∧ fresh.map Task.process = started
  cancelled : p'.cancelled = p.cancelled
  retryQueue : p'.connector.retryQueue = p.connector.retryQueue
  settings : p'.connector.settings = p.connector.settings
  retryPolicy : p'.connector.retryPolicy = p.connector.retryPolicy
  now : p'.now = p.now
  size : p'.commons.ledger.entries.size = p.commons.ledger.entries.size
  retryMs : ∀ id, p'.commons.ledger.retryMs id = p.commons.ledger.retryMs id
  trace : p'.trace = told ++ p.trace

namespace Resumes

theorem refl (p : Pipe P) : Resumes [] [] p p :=
  ⟨⟨[], (List.append_nil _).symm, rfl⟩, rfl, rfl, rfl, rfl, rfl, rfl, fun _ => rfl, rfl⟩

theorem trans {p'' : Pipe P} {started started' : List Process} {told told' : List Occurrence}
    (h : Resumes started told p p') (h' : Resumes started' told' p' p'') :
    Resumes (started ++ started') (told' ++ told) p p'' := by
  obtain ⟨fresh, htasks, hfresh⟩ := h.tasks
  obtain ⟨fresh', htasks', hfresh'⟩ := h'.tasks
  refine ⟨⟨fresh ++ fresh', ?_, ?_⟩, h'.cancelled.trans h.cancelled,
    h'.retryQueue.trans h.retryQueue, h'.settings.trans h.settings,
    h'.retryPolicy.trans h.retryPolicy, h'.now.trans h.now, h'.size.trans h.size,
    fun id => (h'.retryMs id).trans (h.retryMs id), ?_⟩
  · rw [htasks', htasks, List.append_assoc]
  · rw [List.map_append, hfresh, hfresh']
  · rw [h'.trace, h.trace, List.append_assoc]

theorem spawn (p : Pipe P) (process : Process) :
    Resumes [process] [] p (p.busier.spawn process) :=
  ⟨⟨_, rfl, rfl⟩, rfl, rfl, rfl, rfl, rfl, rfl, fun _ => rfl, rfl⟩

theorem drop (p : Pipe P) (e : EventRef) : Resumes [] [] p (p.drop e) :=
  { refl p with
    size := (Mild.drop p e).size
    retryMs := (Mild.drop p e).retryMs }

theorem remove (p : Pipe P) (e : EventRef) : Resumes [] [] p (p.remove e).1 := by
  have hmild := Mild.remove p e
  have htrace : (p.remove e).1.trace = p.trace := rfl
  exact ⟨⟨[], hmild.tasks.trans (List.append_nil _).symm, rfl⟩, hmild.cancelled,
    hmild.retryQueue, hmild.settings, hmild.retryPolicy, hmild.now, hmild.size, hmild.retryMs,
    htrace⟩

/-- An event that is taken up becomes a task, or its reference is dropped. -/
theorem takeUp (p : Pipe P) (e : EventRef) :
    Resumes (resumed p.connector.settings p.now e).toList [] p (p.takeUp e) ∧
      ((p.takeUp e).commons.ledger = p.commons.ledger ∨
        (p.takeUp e).commons.ledger = (p.commons.ledger.drop e.id).1) := by
  unfold Pipe.takeUp resumed
  cases e.event.content with
  | heartbeat created => exact ⟨drop p e, .inr rfl⟩
  | tablet t =>
      dsimp only
      cases Batch.PlainPayload.construct {} e.event with
      | mk payload result =>
          rcases result with error | _ | _
          · exact ⟨drop p e, .inr rfl⟩
          · exact ⟨drop p e, .inr rfl⟩
          · exact ⟨spawn p _, .inl rfl⟩
  | file f =>
      dsimp only
      have hledger : (p.remove e).1.commons.ledger = p.commons.ledger := by
        cases hfound : p.connector.buffered? e.event.commit with
        | none => simp only [Pipe.remove, Connector.remove, hfound]
        | some found =>
            simp only [Pipe.remove, Connector.remove, hfound]
            split <;> rfl
      cases Attempt.prepare e p.connector.settings p.now with
      | ok a => exact ⟨spawn p _, .inl rfl⟩
      | error error =>
          dsimp only
          split
          · refine ⟨(remove p e).trans (drop _ e), .inr ?_⟩
            exact congrArg (fun l => (Ledger.drop l e.id).1) hledger
          · exact ⟨remove p e, .inl hledger⟩

end Resumes

/-- Only what is not released is taken up. -/
theorem resumes_resubmit (p : Pipe P) (e : EventRef) :
    (p.commons.isReleased e = true ∧ p.resubmit e = p) ∨
      p.commons.isReleased e = false ∧
        Resumes (resumed p.connector.settings p.now e).toList [.resubmitted e] p (p.resubmit e) ∧
        ((p.resubmit e).commons.ledger = p.commons.ledger ∨
          (p.resubmit e).commons.ledger = (p.commons.ledger.drop e.id).1) := by
  cases hreleased : p.commons.isReleased e with
  | true => exact .inl ⟨rfl, resubmit_of_released hreleased⟩
  | false =>
      have hnoted : Resumes [] [.resubmitted e] p (p.note (.resubmitted e)) :=
        ⟨⟨[], (List.append_nil _).symm, rfl⟩, rfl, rfl, rfl, rfl, rfl, rfl, fun _ => rfl, rfl⟩
      obtain ⟨htaken, hledger⟩ := Resumes.takeUp (p.note (.resubmitted e)) e
      rw [resubmit_of_unreleased hreleased]
      exact .inr ⟨rfl, hnoted.trans htaken, hledger⟩

/-- Of some events, one after the other, those that are not released when it is their turn. -/
def takenUp (p : Pipe P) : List EventRef → List EventRef
  | [] => []
  | e :: due => if p.commons.isReleased e then takenUp p due else e :: takenUp (p.resubmit e) due

/-- Of the events that are taken out of the queue, those that are not released are taken up, in the
same order. -/
theorem resumes_all (p : Pipe P) (due : List EventRef) :
    Resumes ((p.takenUp due).filterMap (resumed p.connector.settings p.now))
      ((p.takenUp due).map Occurrence.resubmitted).reverse p (due.foldl resubmit p) := by
  induction due generalizing p with
  | nil => exact .refl p
  | cons e due ih =>
      have hrest := ih (p.resubmit e)
      rw [List.foldl_cons, takenUp]
      rcases resumes_resubmit p e with ⟨hreleased, hsame⟩ | ⟨hlive, htaken, -⟩
      · rw [if_pos hreleased]
        rwa [hsame] at hrest ⊢
      · rw [htaken.settings, htaken.now] at hrest
        have hboth := htaken.trans hrest
        rw [if_neg (Bool.eq_false_iff.mp hlive), List.map_cons, List.reverse_cons]
        cases hresumed : resumed p.connector.settings p.now e with
        | none =>
            rw [hresumed] at hboth
            rw [List.filterMap_cons_none hresumed]
            exact hboth
        | some process =>
            rw [hresumed] at hboth
            rw [List.filterMap_cons_some hresumed]
            exact hboth

theorem released_resubmit {e' : EventRef} (h : p.commons.isReleased e' = true) :
    (p.resubmit e).commons.isReleased e' = true := by
  rcases resumes_resubmit p e with ⟨-, hsame⟩ | ⟨-, -, hledger | hledger⟩
  · rwa [hsame]
  · rwa [Commons.isReleased, hledger]
  · rw [Commons.isReleased, hledger]
    exact Ledger.released_update Lifecycle.released_drop h

/-- What is taken up was not released before. -/
theorem sublist_takenUp (p : Pipe P) (due : List EventRef) :
    (p.takenUp due).Sublist (due.filter fun e => !p.commons.isReleased e) := by
  induction due generalizing p with
  | nil => exact .slnil
  | cons e due ih =>
      rw [takenUp, List.filter_cons]
      cases hreleased : p.commons.isReleased e with
      | true => exact ih p
      | false =>
          refine (ih (p.resubmit e)).trans ?_ |>.cons_cons e
          refine List.monotone_filter_right due fun e' he' => ?_
          rw [Bool.not_eq_true'] at he' ⊢
          exact Bool.eq_false_iff.mpr fun h => Bool.eq_false_iff.mp he' (released_resubmit h)

/-- What is not released afterwards was taken up, as often as it was due. -/
theorem filter_takenUp (p : Pipe P) (due : List EventRef) :
    ((p.takenUp due).filter fun e => !(due.foldl resubmit p).commons.isReleased e) =
      due.filter fun e => !(due.foldl resubmit p).commons.isReleased e := by
  have hlater (p : Pipe P) (due : List EventRef) {e : EventRef}
      (h : p.commons.isReleased e = true) :
      (due.foldl resubmit p).commons.isReleased e = true := by
    induction due generalizing p with
    | nil => exact h
    | cons e' due ih => exact ih (p.resubmit e') (released_resubmit h)
  induction due generalizing p with
  | nil => rfl
  | cons e due ih =>
      rw [takenUp, List.foldl_cons, List.filter_cons]
      cases hreleased : p.commons.isReleased e with
      | true =>
          have hsame := resubmit_of_released hreleased
          rw [hsame, if_pos rfl, hlater p due hreleased]
          exact ih p
      | false =>
          rw [if_neg Bool.false_ne_true, List.filter_cons, ih (p.resubmit e)]

/-- What is due, in commit order. -/
def due (p : Pipe P) : List EventRef := (p.connector.takeDue p.now).2

theorem mem_due (h : e ∈ p.due) :
    ∃ entry ∈ p.connector.retryQueue, entry.event = e ∧ entry.readyAt ≤ p.now := by
  obtain ⟨entry, hentry, rfl⟩ := List.mem_map.mp ((List.mergeSort_perm _ _).mem_iff.mp h)
  obtain ⟨hqueued, hready⟩ := List.mem_filter.mp hentry
  exact ⟨entry, hqueued, rfl, of_decide_eq_true hready⟩

/-- The worker looks into the retry queue, and takes up some events. -/
structure Look (id : TaskId) (taken : List EventRef) (p p' : Pipe P) : Prop where
  tasks : ∃ fresh, p'.tasks = ((p.tasks ++ fresh).filter fun t => t.id != id) ++
      [⟨id, .watching p'.connector.nextReady false⟩] ∧
    fresh.map Task.process = taken.filterMap (resumed p.connector.settings p.now)
  cancelled : p'.cancelled = p.cancelled
  retryQueue : p'.connector.retryQueue = p.connector.retryQueue.filter fun entry =>
    p.now < entry.readyAt
  settings : p'.connector.settings = p.connector.settings
  retryPolicy : p'.connector.retryPolicy = p.connector.retryPolicy
  now : p'.now = p.now
  size : p'.commons.ledger.entries.size = p.commons.ledger.entries.size
  retryMs : ∀ id, p'.commons.ledger.retryMs id = p.commons.ledger.retryMs id
  trace : p'.trace = (taken.map Occurrence.resubmitted).reverse ++ p.trace

theorem look_runLooking (p : Pipe P) (id : TaskId) :
    Look id (p.dueTaken.takenUp p.due) p (p.runLooking id) := by
  have hresumes := resumes_all p.dueTaken p.due
  obtain ⟨fresh, htasks, hfresh⟩ := hresumes.tasks
  have hleft : p.dueTaken.connector.retryQueue = p.connector.retryQueue.filter fun entry =>
      p.now < entry.readyAt := by
    refine List.filter_congr fun entry _ => ?_
    rw [← decide_not]
    exact decide_eq_decide.mpr Nat.not_le
  refine ⟨⟨fresh, ?_, hfresh⟩, hresumes.cancelled, hresumes.retryQueue.trans hleft,
    hresumes.settings, hresumes.retryPolicy, hresumes.now, hresumes.size, hresumes.retryMs,
    hresumes.trace⟩
  exact congrArg (fun tasks => (tasks.filter fun t : Task => t.id != id) ++ _) htasks

end Pipe
end Courier
