import Courier.Batch.Operation
import Courier.Proofs.Batch.Payload
import Courier.Proofs.Memory.Slices
import Mathlib.Algebra.GroupWithZero.Nat
import Mathlib.Logic.Relation

/-!
When a batch is due. It answers from what it keeps beside its events: the size of its payload and
the moment of its first event, which offers that come to nothing, discards and fresh starts each
treat in their own way. An observer writes down when each tablet was accepted and which of them are
gone, and needs nothing else to know every answer and everything that the recorder was told.
-/

namespace Courier
namespace Batch

/-- Payloads in which every event has a size of its own. What they do not take leaves their size as
it is. -/
structure Weighs (P : Type) [Payload P] (weigh : Event → Nat) : Prop where
  reset : ∀ p : P, Payload.size (Payload.reset p) = 0
  taken : ∀ {p p' : P} {e : Event}, Payload.construct p e = (p', .ok true) →
    Payload.size p' = Payload.size p + weigh e
  spared : ∀ {p p' : P} {e : Event} {result : Except BatchError Bool},
    Payload.construct p e = (p', result) → result ≠ .ok true → Payload.size p' = Payload.size p

theorem Writes.weighs {P : Type} [Payload P] {bytes : P → Bytes} (h : Writes bytes) :
    Weighs P fun e => (encoding e).length where
  reset p := by rw [h.size, h.reset]; rfl
  taken htaken := by rw [h.size, h.size, (h.taken htaken).2, List.length_append]
  spared hspared without := by rw [h.size, h.size, h.spared hspared without]

/-- How long the first tablet of a batch had waited when the batch was due, in microseconds. -/
def Sample.micros (s : Sample) : Nat := min (s.elapsed.nanos / 1000) Word.max

/-- What statistics say of all that the recorder was told: how often a batch was due, with how many
bytes and events, and the number, the sum and the longest of the waits. All of it is words. -/
def summary (told : List Sample) : Metrics.BatchStats where
  emissions := told.length % Word.size
  bytes := (told.map Sample.bytes).sum % Word.size
  events := (told.map Sample.events).sum % Word.size
  delay := {
    count := told.length % Word.size
    totalMicros := (told.map Sample.micros).sum % Word.size
    maxMicros := (told.map Sample.micros).foldl max 0 }

/-- A recorder that is told once more. -/
theorem summary_concat (told : List Sample) (s : Sample) :
    summary (told ++ [s]) = (summary told).recordEmission s.elapsed s.bytes s.events := by
  have hcount : (told ++ [s]).length % Word.size = Word.add (told.length % Word.size) 1 := by
    rw [List.length_append, List.length_singleton, Word.add, Nat.mod_add_mod]
  have hsum (f : Sample → Nat) : ((told ++ [s]).map f).sum % Word.size =
      Word.add ((told.map f).sum % Word.size) (f s) := by
    rw [List.map_append, List.map_singleton, List.sum_append, List.sum_singleton, Word.add,
      Nat.mod_add_mod]
  have hlongest : ((told ++ [s]).map Sample.micros).foldl max 0 =
      max ((told.map Sample.micros).foldl max 0) s.micros := by
    rw [List.map_append, List.map_singleton, List.foldl_append, List.foldl_cons, List.foldl_nil]
  rw [summary, hcount, hsum, hsum, hsum, hlongest]
  rfl

/-- A tablet that was accepted, and when. It may have been discarded since. -/
structure Admission where
  event : EventRef
  at_ : Nat
  gone : Bool := false

/-- What an observer of a batch wrote down. -/
structure Journal where
  /-- The tablets accepted since the batch last started over, in order. -/
  admitted : List Admission := []
  /-- What every answer that the batch is due must have been accompanied by, the oldest first. -/
  told : List Sample := []

namespace Journal

/-- The tablets that are held. -/
def held (j : Journal) : List EventRef :=
  (j.admitted.filter fun a => !a.gone).map Admission.event

/-- The encoded size of all that was accepted, whether it was discarded since or not. -/
def bytes (j : Journal) (weigh : Event → Nat) : Nat :=
  (j.admitted.map fun a => weigh a.event.event).sum

def begun (j : Journal) : Option Nat := j.admitted.head?.map Admission.at_

/-- Something is held, and its bytes reach the grant or its first tablet has waited long enough. -/
def IsDue (j : Journal) (weigh : Event → Nat) (grant delay now : Nat) : Prop :=
  j.held ≠ [] ∧ (grant ≤ j.bytes weigh ∨ ∃ first ∈ j.begun, first + delay ≤ now)

def enter (j : Journal) (e : EventRef) (now : Nat) : Journal :=
  { j with admitted := j.admitted ++ [{ event := e, at_ := now }] }

def startOver (j : Journal) : Journal := { j with admitted := [] }

/-- The tablets of one pipe instance are gone. If none is left, the batch starts over. -/
def discard (j : Journal) (pipe : String) (region : Int) : Journal :=
  let left : Journal :=
    { j with admitted := j.admitted.map fun a =>
        { a with gone := a.gone || a.event.belongsTo pipe region } }
  if left.held.isEmpty then left.startOver else left

/-- What the recorder is told of a batch that is due. -/
def sample (j : Journal) (weigh : Event → Nat) (now : Nat) : Sample where
  elapsed := .ofMillis (now - j.begun.getD now)
  bytes := j.bytes weigh
  events := j.held.length

def tell (j : Journal) (weigh : Event → Nat) (now : Nat) : Journal :=
  { j with told := j.told ++ [j.sample weigh now] }

end Journal

section

variable {P : Type} [Payload P]

/-- An event that is not the one held last, on which a reference can be taken, and that the payload
takes. -/
def Accumulator.admits (b : Accumulator P) (c : Commons) (e : EventRef) : Bool :=
  !b.closed && !b.endsWith e && (c.hold e).2 &&
    match (Payload.construct b.payload e.event).2 with
    | .ok true => true
    | _ => false

namespace Journal

def offered (j : Journal) (b : Accumulator P) (c : Commons) (e : EventRef) : Journal :=
  if b.admits c e then j.enter e c.now else j

/-- What becomes of the tablets when the batch is asked for something. -/
def changed (j : Journal) (b : Accumulator P) (c : Commons) : Operation → Journal
  | .onEvent e => j.offered b c e
  | .checkDue | .dropReferences => j
  | .take | .onSuccess | .close => j.startOver
  | .discard pipe region => j.discard pipe region

/-- The recorder is told of every answer that the batch is due, and of nothing else. -/
def after (j : Journal) (weigh : Event → Nat) (b : Accumulator P) (c : Commons)
    (o : Operation) : Journal :=
  match (b.perform c o).2.2 with
  | .flag true => (j.changed b c o).tell weigh c.now
  | _ => j.changed b c o

end Journal

/-- A batch is asked for something; or time passes, and others do what they like with whatever the
batch shares, its grant among it. -/
inductive Happens (weigh : Event → Nat) :
    Accumulator P × Commons × Journal → Accumulator P × Commons × Journal → Prop
  | asked {b : Accumulator P} {c : Commons} {j : Journal} (o : Operation) :
      Happens weigh (b, c, j) ((b.perform c o).1, (b.perform c o).2.1, j.after weigh b c o)
  | meanwhile {b : Accumulator P} {c : Commons} {j : Journal} (c' : Commons)
      (later : c.now ≤ c'.now) : Happens weigh (b, c, j) (b, c', j)

/-- What the batch keeps is what the observer expects. -/
structure Recorded (weigh : Event → Nat) (delay : Nat) (b : Accumulator P) (c : Commons)
    (j : Journal) : Prop where
  events : b.events = j.held
  size : b.size = j.bytes weigh
  begun : b.firstAt = j.begun
  restarts : j.held = [] → j.admitted = []
  shut : b.closed = true → j.admitted = []
  past : ∀ first ∈ j.begun, first ≤ c.now
  delay : b.maxDelayMs = delay
  samples : b.samples = j.told
  stats : b.stats = summary j.told

variable {weigh : Event → Nat} {delay : Nat} {b : Accumulator P} {c c' : Commons} {j : Journal}
  {e : EventRef}

namespace Journal

theorem held_enter (j : Journal) (e : EventRef) (now : Nat) :
    (j.enter e now).held = j.held ++ [e] := by
  simp [held, enter]

theorem bytes_enter (j : Journal) (e : EventRef) (now : Nat) :
    (j.enter e now).bytes weigh = j.bytes weigh + weigh e.event := by
  simp [bytes, enter]

theorem begun_enter (j : Journal) (e : EventRef) (now : Nat) :
    (j.enter e now).begun = some (j.begun.getD now) := by
  unfold begun enter
  cases j.admitted <;> rfl

theorem begun_eq_none (h : j.admitted = []) : j.begun = none := by
  rw [begun, h]
  rfl

theorem held_eq_nil (h : j.admitted = []) : j.held = [] := by
  rw [held, h]
  rfl

theorem startOver_of_nil (j : Journal) (h : j.admitted = []) : j.startOver = j := by
  rw [startOver, ← h]

/-- The observer marks a tablet as gone where the batch lets it go. -/
theorem held_mark (admitted : List Admission) (told : List Sample) (leaves : EventRef → Bool) :
    held ⟨admitted.map fun a => { a with gone := a.gone || leaves a.event }, told⟩ =
      (held ⟨admitted, told⟩).filter fun e => !leaves e := by
  induction admitted with
  | nil => rfl
  | cons a rest ih =>
      simp only [held, List.map_cons, List.filter_cons, Bool.not_or] at ih ⊢
      cases a.gone <;> cases hleaves : leaves a.event <;> simp [hleaves, ih]

end Journal

namespace Accumulator

@[elab_as_elim]
theorem add_cases {motive : Accumulator P × Commons × Option BatchError → Prop}
    (released : (c.hold e).2 = false → motive (b, (c.hold e).1, none))
    (kept : ∀ payload, (c.hold e).2 = true →
      Payload.construct b.payload e.event = (payload, .ok true) →
      motive ((b.keep (c.hold e).1 e payload).1, (b.keep (c.hold e).1 e payload).2, none))
    (spared : ∀ payload result error?, (c.hold e).2 = true →
      Payload.construct b.payload e.event = (payload, result) → result ≠ .ok true →
      motive ({ b with payload }, ((c.hold e).1.drop e).1, error?)) : motive (b.add c e) := by
  unfold add
  cases hhold : c.hold e with
  | mk held took =>
  rw [hhold] at released kept spared
  cases took with
  | false => exact released rfl
  | true =>
      cases hconstruct : Payload.construct b.payload e.event with
      | mk payload result =>
      rcases result with error | _ | _
      · exact spared payload _ _ rfl hconstruct nofun
      · exact spared payload _ _ rfl hconstruct (by simp)
      · exact kept payload rfl hconstruct

theorem onEvent_of_admits (h : b.admits c e = true) :
    ∃ due, (b.onEvent c e).2.2 = .ok due := by
  simp only [admits, Bool.and_eq_true, Bool.not_eq_true'] at h
  obtain ⟨⟨⟨hopen, hnew⟩, htook⟩, htaken⟩ := h
  have hadded : (b.add c e).2.2 = none := by
    refine add_cases (fun _ => rfl) (fun _ _ _ => rfl)
      fun payload result error? _ hconstruct without => ?_
    rw [hconstruct] at htaken
    split at htaken
    · exact absurd ‹_› without
    · cases htaken
  simp only [onEvent, hopen, hnew, Bool.false_eq_true, if_false]
  rw [hadded]
  exact ⟨_, rfl⟩

theorem now_add (b : Accumulator P) (c : Commons) (e : EventRef) : (b.add c e).2.1.now = c.now :=
  add_cases (fun _ => rfl) (fun _ _ _ => rfl) fun _ _ _ _ _ _ => rfl

/-- Taking an event in uses bytes of the slice and changes no grant. -/
theorem grant_add (b : Accumulator P) (c : Commons) (e : EventRef) :
    (b.add c e).1.grant (b.add c e).2.1 = b.grant c :=
  add_cases (fun _ => rfl) (fun _ _ _ => Memory.Context.grantOf_addUsage ..)
    fun _ _ _ _ _ _ => rfl

end Accumulator

namespace Recorded

theorem meanwhile (h : Recorded weigh delay b c j) (later : c.now ≤ c'.now) :
    Recorded weigh delay b c' j :=
  { h with past := fun first hfirst => Nat.le_trans (h.past first hfirst) later }

theorem startOver (laws : Weighs P weigh) (h : Recorded weigh delay b c j) (payload : P)
    (closed : Bool) (c' : Commons) :
    Recorded weigh delay { ({ b with payload } : Accumulator P).reset with closed } c'
      j.startOver where
  events := rfl
  size := laws.reset payload
  begun := rfl
  restarts _ := rfl
  shut _ := rfl
  past _ hfirst := nomatch hfirst
  delay := h.delay
  samples := h.samples
  stats := h.stats

theorem begun_eq_none_iff (h : Recorded weigh delay b c j) : j.begun = none ↔ j.held = [] := by
  refine ⟨fun hnone => ?_, fun hnil => Journal.begun_eq_none (h.restarts hnil)⟩
  exact Journal.held_eq_nil (List.head?_eq_none_iff.mp (Option.map_eq_none_iff.mp hnone))

/-- The answer of a check is what the history says. -/
theorem checkDue_iff (h : Recorded weigh delay b c j) :
    (b.checkDue c).2.2 = true ↔ j.IsDue weigh (b.grant c) delay c.now := by
  unfold Accumulator.checkDue Journal.IsDue
  rw [h.begun, h.size, h.delay]
  cases hbegun : j.begun with
  | none => simp [h.begun_eq_none_iff.mp hbegun]
  | some first =>
      have hheld : j.held ≠ [] := fun hnil => by
        rw [h.begun_eq_none_iff.mpr hnil] at hbegun
        cases hbegun
      have hpast : first ≤ c.now := h.past first hbegun
      dsimp only
      split
      · rename_i hearly
        simp only [Bool.and_eq_true, decide_eq_true_eq] at hearly
        simp only [Bool.false_eq_true, ne_eq, hheld, not_false_eq_true, Option.mem_def,
          Option.some.injEq, exists_eq_left', true_and, false_iff]
        omega
      · rename_i hlate
        simp only [Bool.and_eq_true, decide_eq_true_eq] at hlate
        simp only [ne_eq, hheld, not_false_eq_true, Option.mem_def, Option.some.injEq,
          exists_eq_left', true_and, true_iff]
        omega

/-- Only a batch that is found due tells the recorder. -/
theorem checkDue (h : Recorded weigh delay b c j) :
    Recorded weigh delay (b.checkDue c).1 (b.checkDue c).2.1
      (if (b.checkDue c).2.2 then j.tell weigh c.now else j) := by
  unfold Accumulator.checkDue
  cases hfirst : b.firstAt with
  | none => exact h
  | some first =>
      dsimp only
      split
      · exact h
      · have hbegun : j.begun = some first := h.begun.symm.trans hfirst
        have hsample : Sample.mk (c.elapsed first) b.size b.events.length =
            j.sample weigh c.now := by
          rw [Journal.sample, hbegun, h.size, h.events]
          rfl
        refine { h with begun := hbegun.symm, samples := ?_, stats := ?_ }
        · exact congrArg₂ (· ++ [·]) h.samples hsample
        · rw [if_pos rfl, Journal.tell, summary_concat, ← h.stats, ← hsample]

theorem keep (h : Recorded weigh delay b c j) (hopen : b.closed = false) {payload : P}
    (hsize : Payload.size payload = b.size + weigh e.event) :
    Recorded weigh delay (b.keep c e payload).1 (b.keep c e payload).2 (j.enter e c.now) where
  events := (congrArg (· ++ [e]) h.events).trans (j.held_enter e c.now).symm
  size := by rw [Journal.bytes_enter, ← h.size]; exact hsize
  begun := by rw [Journal.begun_enter, ← h.begun]; rfl
  restarts hnil := by
    rw [Journal.held_enter] at hnil
    exact absurd hnil (List.append_ne_nil_of_right_ne_nil _ (List.cons_ne_nil e []))
  shut hshut := by
    change b.closed = true at hshut
    rw [hopen] at hshut
    cases hshut
  past first hfirst := by
    rw [Journal.begun_enter, Option.mem_some_iff] at hfirst
    change first ≤ c.now
    subst hfirst
    cases hbegun : j.begun with
    | none => exact Nat.le_refl _
    | some first => exact h.past first hbegun
  delay := h.delay
  samples := h.samples
  stats := h.stats

theorem spare (h : Recorded weigh delay b c j) {payload : P}
    (hsize : Payload.size payload = b.size) (later : c.now ≤ c'.now) :
    Recorded weigh delay { b with payload } c' j :=
  { h.meanwhile later with size := hsize.trans h.size }

/-- An event offered to an open batch, up to the check that follows. -/
theorem add (laws : Weighs P weigh) (h : Recorded weigh delay b c j) (hopen : b.closed = false)
    (hnew : b.endsWith e = false) :
    Recorded weigh delay (b.add c e).1 (b.add c e).2.1 (j.offered b c e) := by
  have hadmits : b.admits c e = true ↔
      (c.hold e).2 = true ∧ (Payload.construct b.payload e.event).2 = .ok true := by
    simp only [Accumulator.admits, hopen, hnew, Bool.not_false, Bool.true_and, Bool.and_eq_true]
    refine and_congr_right fun _ => ?_
    split <;> simp_all
  have hheld : Recorded weigh delay b (c.hold e).1 j := h.meanwhile (Nat.le_refl c.now)
  unfold Journal.offered
  refine Accumulator.add_cases (fun hreleased => ?_) (fun payload htook hconstruct => ?_)
    fun payload result error? _ hconstruct without => ?_
  · rw [if_neg fun hyes => Bool.false_ne_true (hreleased.symm.trans (hadmits.mp hyes).1)]
    exact hheld
  · rw [if_pos (hadmits.mpr ⟨htook, congrArg Prod.snd hconstruct⟩)]
    exact hheld.keep hopen (laws.taken hconstruct)
  · rw [if_neg fun hyes => without ((congrArg Prod.snd hconstruct).symm.trans (hadmits.mp hyes).2)]
    exact h.spare (laws.spared hconstruct without) (Nat.le_refl c.now)

theorem offered_of_closed (j : Journal) (hshut : b.closed = true) : j.offered b c e = j := by
  simp [Journal.offered, Accumulator.admits, hshut]

theorem not_isDue (h : Recorded weigh delay b c j) (hnil : b.events = []) (grant now : Nat) :
    ¬ j.IsDue weigh grant delay now := fun hdue => hdue.1 (h.events.symm.trans hnil)

/-- An event is offered: the answer, unless construction failed, is what the history says once the
event is part of it. -/
theorem onEvent (laws : Weighs P weigh) (h : Recorded weigh delay b c j) (e : EventRef) :
    Recorded weigh delay (b.onEvent c e).1 (b.onEvent c e).2.1
        (match (b.onEvent c e).2.2 with
        | .ok true => (j.offered b c e).tell weigh c.now
        | _ => j.offered b c e) ∧
      ∀ due, (b.onEvent c e).2.2 = .ok due →
        (due = true ↔ (j.offered b c e).IsDue weigh (b.grant c) delay c.now) := by
  unfold Accumulator.onEvent
  cases hclosed : b.closed with
  | true =>
      rw [if_pos rfl, offered_of_closed j hclosed]
      refine ⟨h, fun due hdue => ?_⟩
      have hnil : b.events = [] := h.events.trans (Journal.held_eq_nil (h.shut hclosed))
      cases hdue
      simp only [Bool.false_eq_true, h.not_isDue hnil]
  | false =>
      rw [if_neg Bool.false_ne_true]
      have hadded : Recorded weigh delay
            (if b.endsWith e then (b, c, none) else b.add c e).1
            (if b.endsWith e then (b, c, none) else b.add c e).2.1 (j.offered b c e) ∧
          (if b.endsWith e then (b, c, none) else b.add c e).1.grant
            (if b.endsWith e then (b, c, none) else b.add c e).2.1 = b.grant c ∧
          (if b.endsWith e then (b, c, none) else b.add c e).2.1.now = c.now := by
        split
        · rename_i hagain
          have hnot : b.admits c e = false := by simp [Accumulator.admits, hagain]
          rw [Journal.offered, hnot]
          exact ⟨h, rfl, rfl⟩
        · rename_i hnew
          exact ⟨h.add laws hclosed (Bool.eq_false_iff.mpr hnew), b.grant_add c e, b.now_add c e⟩
      generalize (if b.endsWith e then (b, c, none) else b.add c e) = added at hadded ⊢
      obtain ⟨b₁, c₁, _ | error⟩ := added
      · obtain ⟨hrecorded, hgrant, hnow⟩ := hadded
        have hdue := hrecorded.checkDue_iff
        have hchecked := hrecorded.checkDue
        rw [hgrant, hnow] at hdue
        rw [hnow] at hchecked
        refine ⟨?_, fun due hanswer => ?_⟩
        · dsimp only
          cases hanswer : (b₁.checkDue c₁).2.2 <;> simpa [hanswer] using hchecked
        · cases hanswer
          exact hdue
      · exact ⟨hadded.1, fun due hanswer => nomatch hanswer⟩

/-- A discard lets go of the tablets that the observer marks, and starts over when none is left. -/
theorem discard (laws : Weighs P weigh) (h : Recorded weigh delay b c j) (pipe : String)
    (region : Int) :
    Recorded weigh delay (b.discardPipe c pipe region).1 (b.discardPipe c pipe region).2.1
      (j.discard pipe region) := by
  let left : Journal := ⟨j.admitted.map fun a =>
    { a with gone := a.gone || a.event.belongsTo pipe region }, j.told⟩
  have hleft : left.held = b.events.filter fun e => !e.belongsTo pipe region := by
    rw [h.events]
    exact Journal.held_mark j.admitted j.told fun e => e.belongsTo pipe region
  have hbytes : left.bytes weigh = j.bytes weigh := by
    simp only [left, Journal.bytes, List.map_map, Function.comp_def]
  have hbegun : left.begun = j.begun := by
    simp only [left, Journal.begun, List.head?_map, Option.map_map, Function.comp_def]
  have hdiscard : j.discard pipe region = if left.held.isEmpty then left.startOver else left := rfl
  unfold Accumulator.discardPipe
  rw [hdiscard, hleft]
  dsimp only
  cases hkept : (b.events.filter fun e => !e.belongsTo pipe region).isEmpty with
  | false =>
      rw [Bool.and_false, if_neg Bool.false_ne_true, if_neg Bool.false_ne_true]
      have hheld : left.held ≠ [] := by
        rw [hleft]
        exact List.isEmpty_eq_false_iff.mp hkept
      refine { h with
        events := hleft.symm, size := h.size.trans hbytes.symm, begun := h.begun.trans hbegun.symm
        restarts := fun hnil => absurd hnil hheld, shut := fun hshut => ?_, past := ?_ }
      · exact List.map_eq_nil_iff.mpr (h.shut hshut)
      · rw [hbegun]
        exact h.past
  | true =>
      rw [Bool.and_true, if_pos rfl]
      split
      · exact h.startOver laws b.payload b.closed _
      · rename_i hnone
        -- nothing was held, so nothing had been accepted since the batch last started over
        have hnil : b.events = [] := by
          refine List.eq_nil_iff_forall_not_mem.mpr fun e he => ?_
          have hmine := List.filter_eq_nil_iff.mp (List.isEmpty_iff.mp (by simpa using hnone)) e he
          have hother := List.filter_eq_nil_iff.mp (List.isEmpty_iff.mp hkept) e he
          simp_all
        have hsame : left.startOver = j :=
          j.startOver_of_nil (h.restarts (h.events.symm.trans hnil))
        rw [hsame, hnil]
        exact { h with events := hnil.symm.trans h.events }

theorem perform (laws : Weighs P weigh) (h : Recorded weigh delay b c j) (o : Operation) :
    Recorded weigh delay (b.perform c o).1 (b.perform c o).2.1 (j.after weigh b c o) := by
  unfold Journal.after
  cases o with
  | onEvent e =>
      have hoffered := (h.onEvent laws e).1
      simp only [Accumulator.perform, Journal.changed]
      generalize (b.onEvent c e).2.2 = answer at hoffered ⊢
      rcases answer with error | _ | _ <;> exact hoffered
  | checkDue =>
      have hchecked := h.checkDue
      simp only [Accumulator.perform, Journal.changed]
      generalize (b.checkDue c).2.2 = due at hchecked ⊢
      cases due <;> exact hchecked
  | take => exact h.startOver laws (Payload.take b.payload).1 b.closed _
  | onSuccess => exact h.startOver laws b.payload b.closed _
  | close =>
      simp only [Accumulator.perform, Journal.changed, Accumulator.close]
      cases hclosed : b.closed with
      | true =>
          rw [j.startOver_of_nil (h.shut hclosed)]
          exact h
      | false => exact h.startOver laws b.payload true _
  | discard pipe region => exact h.discard laws pipe region
  | dropReferences => exact h.meanwhile (Nat.le_refl c.now)

end Recorded

theorem Happens.recorded (laws : Weighs P weigh) {s s' : Accumulator P × Commons × Journal}
    (h : Happens weigh s s') (hs : Recorded weigh delay s.1 s.2.1 s.2.2) :
    Recorded weigh delay s'.1 s'.2.1 s'.2.2 := by
  cases h with
  | asked o => exact hs.perform laws o
  | meanwhile c' later => exact hs.meanwhile later

variable {id : String} {settings : Settings} {payload : P} {commons : Commons}

/-- A new batch, of which nothing was written down yet. -/
def opened (id : String) (settings : Settings) (payload : P) (commons : Commons) :
    Accumulator P × Commons × Journal :=
  ((Accumulator.create id settings payload commons).1,
    (Accumulator.create id settings payload commons).2, {})

theorem recorded_of_reach (laws : Weighs P weigh) (fresh : Payload.size payload = 0)
    {s : Accumulator P × Commons × Journal}
    (reach : Relation.ReflTransGen (Happens weigh) (opened id settings payload commons) s) :
    Recorded weigh settings.maxDelayMs s.1 s.2.1 s.2.2 := by
  induction reach with
  | refl =>
      exact ⟨rfl, fresh, rfl, fun _ => rfl, fun _ => rfl, fun _ hfirst => (nomatch hfirst), rfl,
        rfl, rfl⟩
  | tail _ hstep ih => exact hstep.recorded laws ih

/-- Whatever is asked of a batch, and whatever becomes of its grant meanwhile: a check, and an offer
that is answered, say that it is due exactly when it holds something and the encoded sizes of all
that it accepted since it last started over reach the grant, or the maximum delay has passed since
the first of that was accepted. The recorder was told once of every such answer, and of nothing
else; the statistics count and add up what it was told. So without a grant every tablet that is kept
makes the batch due, and without tablets it never is. -/
theorem isDue_iff_of_history (laws : Weighs P weigh) (fresh : Payload.size payload = 0)
    (reach : Relation.ReflTransGen (Happens weigh) (opened id settings payload commons)
      (b, c, j)) :
    b.events = j.held ∧
      ((b.checkDue c).2.2 = true ↔ j.IsDue weigh (b.grant c) settings.maxDelayMs c.now) ∧
      (∀ e due, (b.onEvent c e).2.2 = .ok due →
        (due = true ↔
          (j.offered b c e).IsDue weigh (b.grant c) settings.maxDelayMs c.now)) ∧
      b.samples = j.told ∧
      b.stats = summary j.told ∧
      (b.grant c = 0 → ∀ e, b.admits c e = true → (b.onEvent c e).2.2 = .ok true) ∧
      (b.events = [] → (b.checkDue c).2.2 = false) := by
  have h := recorded_of_reach laws fresh reach
  refine ⟨h.events, h.checkDue_iff, fun e => (h.onEvent laws e).2, h.samples, h.stats,
    fun hnone e hadmits => ?_, fun hnil => ?_⟩
  · obtain ⟨due, hanswer⟩ := Accumulator.onEvent_of_admits hadmits
    have hdue : (j.offered b c e).IsDue weigh (b.grant c) settings.maxDelayMs c.now := by
      rw [Journal.offered, if_pos hadmits, hnone]
      refine ⟨?_, .inl (Nat.zero_le _)⟩
      rw [Journal.held_enter]
      exact List.append_ne_nil_of_right_ne_nil _ (List.cons_ne_nil e [])
    rw [hanswer, ((h.onEvent laws e).2 due hanswer).mpr hdue]
  · exact Bool.eq_false_iff.mpr (mt h.checkDue_iff.mp (h.not_isDue hnil _ _))

/-- A tablet does not fill the batch, a second one of another pipe does, and is discarded: its bytes
stay. The grant doubles, and the batch is due when the first tablet has waited long enough. So it
was due twice, with 29 bytes each time, with two events and then with one. -/
theorem isDue_iff_of_history_of_discarded :
    let event (pipe : String) (bytes : Bytes) : Event :=
      { content := .tablet { target := "t", rows := 1, payload := bytes }, pipe, region := 0,
        commit := .zero, progress := 0 }
    let first : EventRef := ⟨0, event "p" [7]⟩
    let second : EventRef := ⟨1, event "q" [8, 9]⟩
    let commons : Commons := { ledger := (({} : Ledger).enrol 1).enrol 1 }
    let weigh (e : Event) : Nat := (encoding e).length
    let ask (s : Accumulator PlainPayload × Commons × Journal) (o : Operation) :=
      ((s.1.perform s.2.1 o).1, (s.1.perform s.2.1 o).2.1, s.2.2.after weigh s.1 s.2.1 o)
    let s := [Operation.onEvent first, .onEvent second, .discard "q" 0].foldl ask
      (opened "b" { maxDelayMs := 100, maxBytes := 20 } {} commons)
    let later (now : Nat) : Commons :=
      { commons with now, memory := (Memory.Context.ofSettings {}).registerSlice 40 }
    s.1.samples = [{ elapsed := .ofMillis 0, bytes := 29, events := 2 }] ∧
      s.1.stats = { emissions := 1, bytes := 29, events := 2, delay := { count := 1 } } ∧
      s.1.events = [first] ∧ (s.1.checkDue (later 99)).2.2 = false ∧
      (s.1.checkDue (later 100)).2.2 = true ∧
      (s.1.checkDue (later 100)).1.stats = {
        emissions := 2, bytes := 58, events := 3
        delay := { count := 2, totalMicros := 100000, maxMicros := 100000 } } := by
  intro event first second commons weigh ask s later
  have hask (s : Accumulator PlainPayload × Commons × Journal) (o : Operation) :
      Happens weigh s (ask s o) := .asked o
  have hasked : Relation.ReflTransGen (Happens weigh)
      (opened "b" { maxDelayMs := 100, maxBytes := 20 } ({} : PlainPayload) commons) s :=
    ((Relation.ReflTransGen.refl.tail (hask _ _)).tail (hask _ _)).tail (hask _ _)
  have hnow : s.2.1.now = 0 := by decide +kernel
  have htold : s.2.2.told = [{ elapsed := .ofMillis 0, bytes := 29, events := 2 }] := by
    decide +kernel
  have hheld : s.2.2.held = [first] := by decide +kernel
  have hbegun : s.2.2.begun = some 0 := by decide +kernel
  have hbytes : s.2.2.bytes weigh = 29 := by decide +kernel
  have hgrant : (later 0).memory.grantOf s.1.slice = 40 := by decide +kernel
  clear_value s
  obtain ⟨b, c, j⟩ := s
  have reach (now : Nat) : Relation.ReflTransGen (Happens weigh)
      (opened "b" { maxDelayMs := 100, maxBytes := 20 } ({} : PlainPayload) commons)
      (b, later now, j) :=
    hasked.tail (.meanwhile (later now) (Nat.le_trans (Nat.le_of_eq hnow) (Nat.zero_le now)))
  have hrule (now : Nat) := isDue_iff_of_history writes_plain.weighs rfl (reach now)
  obtain ⟨hevents, -, -, hsamples, hstats, -⟩ := hrule 0
  have hdue : (b.checkDue (later 100)).2.2 = true :=
    (hrule 100).2.1.mpr ⟨hheld ▸ List.cons_ne_nil first [], .inr ⟨0, hbegun, Nat.le_refl 100⟩⟩
  have hafter : j.after weigh b (later 100) .checkDue = j.tell weigh 100 := by
    simp only [Journal.after, Accumulator.perform, hdue, Journal.changed]
    rfl
  have hsample : j.sample weigh 100 = { elapsed := .ofMillis 100, bytes := 29, events := 1 } := by
    rw [Journal.sample, show j.begun = some 0 from hbegun, show j.bytes weigh = 29 from hbytes,
      show j.held = [first] from hheld]
    rfl
  obtain ⟨-, -, -, -, hsummed, -⟩ := isDue_iff_of_history writes_plain.weighs rfl
    ((reach 100).tail (.asked .checkDue))
  rw [hafter, Journal.tell, hsample, show j.told = _ from htold] at hsummed
  dsimp only at hsummed
  refine ⟨hsamples.trans htold, hstats.trans (htold ▸ by decide), hevents.trans hheld,
    Bool.eq_false_iff.mpr fun hearly => ?_, hdue, hsummed.trans (by decide)⟩
  obtain ⟨-, hfull | ⟨moment, hmoment, hlate⟩⟩ := (hrule 99).2.1.mp hearly
  · have hless : 40 ≤ 29 := hbytes ▸ hgrant ▸ hfull
    exact absurd hless (by decide)
  · rw [show j.begun = some 0 from hbegun, Option.mem_some_iff] at hmoment
    subst hmoment
    exact absurd hlate (by decide)

end

end Batch
end Courier
