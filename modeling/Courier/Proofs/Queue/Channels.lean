import Courier.Proofs.Ledger
import Courier.Queue.Retrieval

/-!
What the channels of a queue take in and give out, whatever its order.
-/

namespace Courier
namespace Queue

namespace Channels

variable {c c' : Channels}

/-- What is queued is queued last in its channel. -/
theorem push?_some {e : EventRef} (h : c.push? e = some c') :
    (e.event.isBulk = true ∧ c'.live = c.live ∧ c'.bulk = c.bulk ++ [e]) ∨
      (e.event.isBulk = false ∧ c'.live = c.live ++ [e] ∧ c'.bulk = c.bulk) := by
  unfold push? at h
  split at h
  · rename_i hbulk
    cases h
    exact .inl ⟨hbulk, rfl, rfl⟩
  · rename_i hlight
    split at h <;> cases h
    exact .inr ⟨Bool.not_eq_true _ ▸ hlight, rfl, rfl⟩

theorem isHeartbeat_of_push?_none {e : EventRef} (h : c.push? e = none) :
    e.event.isHeartbeat = true := by
  unfold push? at h
  split at h
  · cases h
  · split at h
    · rename_i hbeats
      exact (Bool.and_eq_true_iff.mp hbeats).1
    · cases h

theorem perm_push {e : EventRef} (h : c.push? e = some c') : c'.toList.Perm (e :: c.toList) := by
  simp only [toList]
  rcases push?_some h with ⟨_, hlive, hbulk⟩ | ⟨_, hlive, hbulk⟩
  · rw [hlive, hbulk, ← List.append_assoc]
    exact List.perm_append_singleton e _
  · rw [hlive, hbulk, List.append_assoc]
    exact List.perm_middle

/-- What a retrieval takes out: nothing, the first of the live events, or some file. -/
inductive Gives (c c' : Channels) : Option EventRef → Prop
  | nothing (live : c'.live = c.live) (bulk : c'.bulk = c.bulk) : Gives c c' none
  | live {e : EventRef} (live : c.live = e :: c'.live) (bulk : c'.bulk = c.bulk) :
      Gives c c' (some e)
  | bulk {e : EventRef} (live : c'.live = c.live) (bulk : c.bulk.Perm (e :: c'.bulk)) :
      Gives c c' (some e)

/-- Which event a retrieval is of: the first of the live ones, else a file from one of the two ends,
or a file before its turn; nothing only when nothing may be served. -/
inductive Serves (c c' : Channels) (allowed : Bool) : Option EventRef → Prop
  | nothing (empty : c.live = []) (barred : c.bulk = [] ∨ allowed = false)
      (live : c'.live = c.live) (bulk : c'.bulk = c.bulk) : Serves c c' allowed none
  | live {e : EventRef} (live : c.live = e :: c'.live) (bulk : c'.bulk = c.bulk) :
      Serves c c' allowed (some e)
  | oldest {e : EventRef} (may : allowed = true) (live : c'.live = c.live)
      (bulk : c.bulk = e :: c'.bulk) : Serves c c' allowed (some e)
  | newest {e : EventRef} (may : allowed = true) (live : c'.live = c.live)
      (bulk : c.bulk = c'.bulk ++ [e]) : Serves c c' allowed (some e)

theorem popBulk_ends (c : Channels) (period : Nat) :
    (c.bulk = [] ∧ c.popBulk period = (c, none)) ∨
      ∃ c' e, c.popBulk period = (c', some e) ∧ c'.live = c.live ∧
        (c.bulk = e :: c'.bulk ∨ c.bulk = c'.bulk ++ [e]) := by
  cases hbulk : c.bulk with
  | nil => exact .inl ⟨rfl, by simp [popBulk, hbulk]⟩
  | cons first rest =>
      right
      simp only [popBulk, hbulk, List.isEmpty_cons, Bool.false_eq_true, if_false]
      split
      · exact ⟨_, first, rfl, rfl, .inl rfl⟩
      · obtain ⟨init, last, hsplit⟩ :=
          (first :: rest).eq_nil_or_concat.resolve_left (by simp)
        rw [List.concat_eq_append] at hsplit
        rw [hsplit, List.getLast?_concat, List.dropLast_concat]
        exact ⟨_, last, rfl, rfl, .inr rfl⟩

theorem serves_of_ends {e : EventRef} {allowed : Bool} (may : allowed = true)
    (live : c'.live = c.live) (ends : c.bulk = e :: c'.bulk ∨ c.bulk = c'.bulk ++ [e]) :
    c.Serves c' allowed (some e) := by
  cases ends with
  | inl first => exact .oldest may live first
  | inr last => exact .newest may live last

/-- The counts of retrievals do not matter. -/
theorem Serves.of_eq {c₀ : Channels} {allowed : Bool} {event : Option EventRef}
    (h : c.Serves c' allowed event) (live : c₀.live = c.live) (bulk : c₀.bulk = c.bulk) :
    c₀.Serves c' allowed event := by
  cases h with
  | nothing empty barred live' bulk' =>
      exact .nothing (live.trans empty) (bulk ▸ barred) (live'.trans live.symm)
        (bulk'.trans bulk.symm)
  | live live' bulk' => exact .live (live.trans live') (bulk'.trans bulk.symm)
  | oldest may live' bulk' => exact .oldest may (live'.trans live.symm) (bulk.trans bulk')
  | newest may live' bulk' => exact .newest may (live'.trans live.symm) (bulk.trans bulk')

theorem serves_popOrdinary (c : Channels) (period : Nat) (allowed : Bool) :
    c.Serves (c.popOrdinary period allowed).1 allowed
      ((c.popOrdinary period allowed).2.map Prod.fst) := by
  unfold popOrdinary
  split
  · rename_i e rest hlive
    exact .live hlive rfl
  · rename_i hempty
    cases allowed with
    | false => exact .nothing hempty (.inr rfl) rfl rfl
    | true =>
        rcases c.popBulk_ends period with ⟨hbulk, hpop⟩ | ⟨c', e, hpop, hlive, hends⟩
        · simp only [if_true, hpop]
          exact .nothing hempty (.inl hbulk) rfl rfl
        · simp only [if_true, hpop]
          exact serves_of_ends rfl hlive hends

theorem serves_pop (c : Channels) (threshold period : Nat) (allowed : Bool) :
    c.Serves (c.pop threshold period allowed).1 allowed
      ((c.pop threshold period allowed).2.map Prod.fst) := by
  unfold pop
  split
  · rename_i hdue
    have hmay : allowed = true := (Bool.and_eq_true_iff.mp hdue).2
    rcases c.popBulk_ends period with ⟨-, hpop⟩ | ⟨c', e, hpop, hlive, hends⟩
    · simp only [hpop]
      exact (serves_popOrdinary { c with sinceBulk := 0 } period allowed).of_eq rfl rfl
    · simp only [hpop]
      exact serves_of_ends hmay hlive hends
  · exact c.serves_popOrdinary period allowed

theorem Serves.gives {allowed : Bool} {event : Option EventRef} (h : c.Serves c' allowed event) :
    c.Gives c' event := by
  cases h with
  | nothing _ _ live bulk => exact .nothing live bulk
  | live live bulk => exact .live live bulk
  | oldest _ live bulk => exact .bulk live (.of_eq bulk)
  | newest _ live bulk => exact .bulk live (bulk ▸ List.perm_append_singleton ..)

/-- Nothing is served exactly when no live event waits, and no file that may be served. -/
theorem Serves.eq_none_iff {allowed : Bool} {event : Option EventRef}
    (h : c.Serves c' allowed event) :
    event = none ↔ c.live = [] ∧ (c.bulk = [] ∨ allowed = false) := by
  cases h with
  | nothing empty barred => exact iff_of_true rfl ⟨empty, barred⟩
  | live live => simp [live]
  | oldest may _ bulk => simp [may, bulk]
  | newest may _ bulk => simp [may, bulk]

/-- Nothing but the live channel is served while files may not be. -/
theorem Serves.mem_live {e : EventRef} (h : c.Serves c' false (some e)) : e ∈ c.live := by
  cases h with
  | live live => simp [live]
  | oldest may | newest may => cases may

/-- What is retrieved is taken out, and nothing else is. -/
theorem Gives.perm {event : Option EventRef} (h : c.Gives c' event) :
    c.toList.Perm (event.toList ++ c'.toList) := by
  cases h with
  | nothing live bulk => exact .of_eq (by simp [toList, live, bulk])
  | live live bulk => exact .of_eq (by simp [toList, live, bulk])
  | bulk live bulk =>
      simp only [toList, ← live, Option.toList_some]
      exact (bulk.append_left _).trans List.perm_middle

theorem toList_removePipe (c : Channels) (pipe : String) (region : Int) :
    (c.removePipe pipe region).1.toList = c.toList.filter fun e => !e.belongsTo pipe region :=
  (List.filter_append ..).symm

end Channels

/-- What a retrieval came back with, if anything. -/
def Retrieval.event? : Retrieval → Option EventRef
  | .done event => event
  | .waiting _ => none

namespace Realtime

section Retrieved

variable {q q' : Realtime} {commons commons' : Commons}

/-- What was retrieved was taken out of the queue, and the ledger stays as it is. Files are not
retrieved unless there is a slot. -/
structure Gave (event : Option EventRef) (q q' : Realtime) (commons commons' : Commons) : Prop where
  channels : q.channels.Gives q'.channels event
  isShutdown : q'.isShutdown = q.isShutdown
  settings : q'.settings = q.settings
  ledger : commons'.ledger = commons.ledger
  slots : commons'.slots = commons.slots
  allowed : ∀ e, event = some e → e ∉ q.channels.live → q.bulkAllowed commons = true

theorem gave_none (q : Realtime) (commons : Commons) : Gave none q q commons commons :=
  ⟨.nothing rfl rfl, rfl, rfl, rfl, rfl, fun _ h => by cases h⟩

/-- A retrieval is of what the channels serve, and changes nothing that others share but the memory
in use. -/
theorem poll_fields (q : Realtime) (commons : Commons) :
    q.channels.Serves (q.poll commons).1.channels (q.bulkAllowed commons) (q.poll commons).2.2 ∧
    (q.poll commons).1.settings = q.settings ∧ (q.poll commons).1.isShutdown = q.isShutdown ∧
    (q.poll commons).2.1.ledger = commons.ledger ∧ (q.poll commons).2.1.slots = commons.slots := by
  have hserves := q.channels.serves_pop q.settings.bulkThreshold q.settings.effectivePeriod
    (q.bulkAllowed commons)
  unfold poll
  split <;> rename_i hpop <;> rw [hpop] at hserves
  · exact ⟨hserves, rfl, rfl, rfl, rfl⟩
  · exact ⟨hserves, rfl, rfl, rfl, rfl⟩

theorem gave_poll {event : Option EventRef} (h : q.poll commons = (q', commons', event)) :
    Gave event q q' commons commons' := by
  obtain ⟨hserves, hsettings, hshutdown, hledger, hslots⟩ := q.poll_fields commons
  rw [h] at hserves hsettings hshutdown hledger hslots
  refine ⟨hserves.gives, hshutdown, hsettings, hledger, hslots, fun e he hnot => ?_⟩
  cases he
  cases hallowed : q.bulkAllowed commons with
  | true => rfl
  | false => exact absurd (hallowed ▸ hserves).mem_live hnot

theorem gave_look {deadline : Nat} {retrieval : Retrieval}
    (h : q.look commons deadline = (q', commons', retrieval)) :
    Gave retrieval.event? q q' commons commons' := by
  unfold look at h
  split at h
  · cases h
    exact gave_none q commons
  · split at h <;> rename_i heq <;> cases h <;> exact gave_poll heq

theorem gave_resume {w : Waiting} {retrieval : Retrieval}
    (h : q.resume commons w = (q', commons', retrieval)) :
    Gave retrieval.event? q q' commons commons' := by
  unfold resume at h
  split at h
  · exact gave_look h
  · split at h <;> cases h <;> exact gave_none q commons

end Retrieved

/-- What forgetting one event leaves alone, forgetting many leaves alone. -/
theorem forgetAll_keeps {α : Type} (f : Realtime × Commons → α)
    (once : ∀ s e, f (s.1.forget s.2 e) = f s) (events : List EventRef) (s : Realtime × Commons) :
    f (events.foldl (fun acc e => acc.1.forget acc.2 e) s) = f s := by
  induction events generalizing s with
  | nil => rfl
  | cons e rest ih => exact (ih (s.1.forget s.2 e)).trans (once s e)

theorem ledger_forgetAll (events : List EventRef) (s : Realtime × Commons) :
    (events.foldl (fun acc e => acc.1.forget acc.2 e) s).2.ledger =
      s.2.ledger.clearAll events := by
  induction events generalizing s with
  | nil => rfl
  | cons e rest ih => exact ih (s.1.forget s.2 e)

theorem discardPipe_fields (q : Realtime) (commons : Commons) (pipe : String) (region : Int) :
    (q.discardPipe commons pipe region).1.channels = (q.channels.removePipe pipe region).1 ∧
    (q.discardPipe commons pipe region).1.settings = q.settings ∧
    (q.discardPipe commons pipe region).2.1.ledger =
      commons.ledger.clearAll (q.channels.removePipe pipe region).2 :=
  ⟨forgetAll_keeps (fun s => s.1.channels) (fun _ _ => rfl) _ _,
    forgetAll_keeps (fun s => s.1.settings) (fun _ _ => rfl) _ _, ledger_forgetAll _ _⟩

end Realtime

end Queue
end Courier
