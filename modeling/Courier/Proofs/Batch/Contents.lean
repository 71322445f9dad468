import Courier.Proofs.Batch.Offers
import Courier.Proofs.Event.Lifetime
import Mathlib.Logic.Relation

/-!
What a batch of tablets holds. Its events, the bytes it wrote for them, the moment its delay began,
the usage of its slice and the references it owns are changed by seven operations, each of which
must change all that belong together. An observer writes down which events were accepted since the
batch last started over, and what others did to references; that is enough to say what every part
of the batch is.
-/

namespace Courier
namespace Batch

/-- What an observer of a batch wrote down. -/
structure Past where
  /-- The events accepted since the batch last started over, in order, and whether each of them was
  discarded since. -/
  accepted : List (EventRef × Bool) := []
  /-- The references that are not the batch's own. -/
  others : EventId → Int
  /-- The events whose references were cleared, by the batch or by somebody else. -/
  cleared : List EventId := []

namespace Past

/-- The accepted events that were not discarded since. -/
def held (p : Past) : List EventRef := (p.accepted.filter fun a => !a.2).map Prod.fst

/-- How often the event is among those that are held. -/
def holdings (p : Past) (id : EventId) : Nat := p.held.countP fun e => e.id = id

def accept (p : Past) (e : EventRef) : Past := { p with accepted := p.accepted ++ [(e, false)] }

/-- Whoever is handed the batch, or was before a send, owns its references from then on. -/
def handOver (p : Past) : Past where
  others id := p.others id + p.holdings id
  cleared := p.cleared

def close (p : Past) : Past where
  others := p.others
  cleared := p.cleared ++ p.held.map EventRef.id

/-- Something is held, and all of it comes from one pipe instance. -/
def losesAll (p : Past) (pipe : String) (region : Int) : Bool :=
  !p.held.isEmpty && p.held.all fun e => e.belongsTo pipe region

/-- The events of one pipe instance are discarded. If this leaves none of those that were held, the
batch starts over. -/
def discard (p : Past) (pipe : String) (region : Int) : Past where
  accepted :=
    if p.losesAll pipe region then []
    else p.accepted.map fun a => (a.1, a.2 || a.1.belongsTo pipe region)
  others := p.others
  cleared := p.cleared ++ (p.held.filter fun e => e.belongsTo pipe region).map EventRef.id

/-- Somebody else does something to the references of an event. -/
def share (p : Past) (c : Commons) (o : Commons.Operation) : Past where
  accepted := p.accepted
  others id := p.others id + (if c.takes id o then 1 else 0) - if c.drops id o then 1 else 0
  cleared := match o with
    | .clear e => e.id :: p.cleared
    | _ => p.cleared

/-- An event is built, and its builder holds it. -/
def enrol (p : Past) (new : EventId) : Past :=
  { p with others := fun id => if id = new then 1 else p.others id }

end Past

/-- A batch of tablets, what it shares, and what was observed of it. -/
abbrev Observed := Accumulator PlainPayload × Commons × Past

/-- A new batch, among references that all belong to others. -/
def start (id : String) (settings : Settings) (commons : Commons) : Observed :=
  let created := Accumulator.create id settings ({} : PlainPayload) commons
  (created.1, created.2, { others := fun id => (commons.ledger.get id).count })

/-- What happens to a batch. Events that exist are offered to it, it is asked whether it is due,
handed over, told of a success, closed, and freed of the events of one pipe instance. Meanwhile
others do what they like to references, events are built, and others work in the memory of the
process, where the slice is the batch's own. -/
inductive Works : Observed → Observed → Prop
  | onEvent {b : Accumulator PlainPayload} {c : Commons} {p : Past} (e : EventRef)
      (known : e.id < c.ledger.entries.size) :
      Works (b, c, p) ((b.onEvent c e).1, (b.onEvent c e).2.1,
        if b.accepts c e then p.accept e else p)
  | checkDue {b : Accumulator PlainPayload} {c : Commons} {p : Past} :
      Works (b, c, p) ((b.checkDue c).1, (b.checkDue c).2.1, p)
  | take {b : Accumulator PlainPayload} {c : Commons} {p : Past} :
      Works (b, c, p) ((b.take c).1, (b.take c).2.1, p.handOver)
  | onSuccess {b : Accumulator PlainPayload} {c : Commons} {p : Past} :
      Works (b, c, p) ((b.onSuccess c).1, (b.onSuccess c).2, p.handOver)
  | close {b : Accumulator PlainPayload} {c : Commons} {p : Past} :
      Works (b, c, p) ((b.close c).1, (b.close c).2, p.close)
  | discard {b : Accumulator PlainPayload} {c : Commons} {p : Past} (pipe : String)
      (region : Int) :
      Works (b, c, p) ((b.discardPipe c pipe region).1, (b.discardPipe c pipe region).2.1,
        p.discard pipe region)
  | shared {b : Accumulator PlainPayload} {c : Commons} {p : Past} (o : Commons.Operation) :
      Works (b, c, p) (b, c.after [o], p.share c o)
  | enrol {b : Accumulator PlainPayload} {c : Commons} {p : Past} (retryMs : Nat) :
      Works (b, c, p) (b, { c with ledger := c.ledger.enrol retryMs },
        p.enrol c.ledger.entries.size)
  | elsewhere {b : Accumulator PlainPayload} {c : Commons} {p : Past} (memory : Memory.Context)
      (apart : memory.useOf b.slice = c.memory.useOf b.slice) :
      Works (b, c, p) (b, { c with memory }, p)

/-- The batch is what the observer expects. -/
structure Expected (b : Accumulator PlainPayload) (c : Commons) (p : Past) : Prop where
  events : b.events = p.held
  bytes : b.payload.bytes = p.accepted.flatMap fun a => encoding a.1.event
  begun : b.firstAt.isSome = true ↔ b.events ≠ []
  restarts : p.held = [] → p.accepted = []
  shut : b.closed = true → p.held = []
  use : c.memory.useOf b.slice = some (b.payload.bytes.length % Word.size, b.closed)
  known : ∀ e ∈ b.events, e.id < c.ledger.entries.size
  counts : ∀ id < c.ledger.entries.size, id ∉ p.cleared →
    ((c.ledger.get id).count : Int) = p.others id + p.holdings id

variable {b b' : Accumulator PlainPayload} {c c' : Commons} {p : Past}

theorem Past.held_accept (p : Past) (e : EventRef) : (p.accept e).held = p.held ++ [e] := by
  simp [held, accept]

theorem Past.holdings_accept (p : Past) (e : EventRef) (id : EventId) :
    (p.accept e).holdings id = p.holdings id + if e.id = id then 1 else 0 := by
  rw [holdings, held_accept, List.countP_append, List.countP_singleton]
  simp only [holdings, decide_eq_true_eq]

theorem Past.holdings_eq_zero {id : EventId} (h : id ∉ p.held.map EventRef.id) :
    p.holdings id = 0 := by
  refine List.countP_eq_zero.mpr fun e he hid => h ?_
  exact of_decide_eq_true hid ▸ List.mem_map_of_mem he

section Discard

variable {pipe : String} {region : Int}

theorem Past.losesAll_eq (p : Past) (pipe : String) (region : Int) :
    p.losesAll pipe region = (!(p.held.filter fun e => e.belongsTo pipe region).isEmpty &&
      (p.held.filter fun e => !e.belongsTo pipe region).isEmpty) := by
  unfold losesAll
  cases hall : p.held.all fun e => e.belongsTo pipe region with
  | true =>
      have hmine := List.all_eq_true.mp hall
      have hkept : (p.held.filter fun e => !e.belongsTo pipe region) = [] :=
        List.filter_eq_nil_iff.mpr fun e he => by simp [hmine e he]
      rw [List.filter_eq_self.mpr hmine, hkept]
      rfl
  | false =>
      obtain ⟨e, he, hother⟩ := List.all_eq_false.mp hall
      have hkept : e ∈ p.held.filter fun e => !e.belongsTo pipe region :=
        List.mem_filter.mpr ⟨he, by simpa using hother⟩
      rw [List.isEmpty_eq_false_iff_exists_mem.mpr ⟨e, hkept⟩, Bool.and_false, Bool.and_false]

theorem Past.filter_held_of_losesAll (all : p.losesAll pipe region = true) :
    (p.held.filter fun e => e.belongsTo pipe region) = p.held := by
  rw [losesAll, Bool.and_eq_true, List.all_eq_true] at all
  exact List.filter_eq_self.mpr all.2

variable (left : p.losesAll pipe region = false)
include left

theorem Past.accepted_discard : (p.discard pipe region).accepted =
    p.accepted.map fun a => (a.1, a.2 || a.1.belongsTo pipe region) := by
  simp only [discard, left, Bool.false_eq_true, if_false]

theorem Past.held_discard :
    (p.discard pipe region).held = p.held.filter fun e => !e.belongsTo pipe region := by
  simp only [held, accepted_discard left, List.filter_map, List.map_map, List.filter_filter,
    Function.comp_def, Bool.not_or, Bool.and_comm]

/-- Who does not lose all has something left, or had nothing. -/
theorem Past.held_discard_eq_nil_iff : (p.discard pipe region).held = [] ↔ p.held = [] := by
  rw [held_discard left]
  constructor
  · intro hnone
    have hall : (p.held.all fun e => e.belongsTo pipe region) = true :=
      List.all_eq_true.mpr fun e he => by simpa using List.filter_eq_nil_iff.mp hnone e he
    rw [losesAll, hall, Bool.and_true, Bool.not_eq_false'] at left
    exact List.isEmpty_iff.mp left
  · intro hnone
    rw [hnone]
    rfl

theorem Past.holdings_discard {id : EventId}
    (uncleared : id ∉ (p.held.filter fun e => e.belongsTo pipe region).map EventRef.id) :
    (p.discard pipe region).holdings id = p.holdings id := by
  rw [holdings, held_discard left, List.countP_filter]
  refine List.countP_congr fun e he => ?_
  simp only [Bool.and_eq_true, decide_eq_true_eq, Bool.not_eq_true', and_iff_left_iff_imp]
  rintro rfl
  refine Bool.eq_false_iff.mpr fun hmine => uncleared ?_
  exact List.mem_map_of_mem (List.mem_filter.mpr ⟨he, hmine⟩)

end Discard

/-- A batch that starts over holds nothing and used nothing. -/
theorem expected_of_reset (events : b.events = []) (payload : b.payload = {})
    (firstAt : b.firstAt = none) (accepted : p.accepted = [])
    (use : c.memory.useOf b.slice = some (0, b.closed))
    (counts : ∀ id < c.ledger.entries.size, id ∉ p.cleared →
      ((c.ledger.get id).count : Int) = p.others id) :
    Expected b c p := by
  have hheld : p.held = [] := by
    rw [Past.held, accepted]
    rfl
  refine ⟨events.trans hheld.symm, ?_, ?_, fun _ => accepted, fun _ => hheld, ?_, ?_,
    fun id hid hne => ?_⟩
  · rw [payload, accepted]
    rfl
  · simp [firstAt, events]
  · rw [use, payload]
    rfl
  · simp [events]
  · rw [counts id hid hne, Past.holdings, hheld]
    exact (Int.add_zero _).symm

namespace Expected

theorem start (id : String) (settings : Settings) (commons : Commons) :
    Expected (start id settings commons).1 (start id settings commons).2.1
      (start id settings commons).2.2 :=
  expected_of_reset rfl rfl rfl rfl (Memory.Context.useOf_registerSlice _ _) fun _ _ _ => rfl

theorem stays (h : Expected b c p) (same : b.Stays b' c c') : Expected b' c' p := by
  refine ⟨same.events.trans h.events, ?_, ?_, h.restarts, ?_, ?_, ?_, fun id hid => ?_⟩
  · rw [same.payload]
    exact h.bytes
  · rw [same.firstAt, same.events]
    exact h.begun
  · rw [same.closed]
    exact h.shut
  · rw [same.slice, same.use, same.payload, same.closed]
    exact h.use
  · rw [same.events, same.size]
    exact h.known
  · rw [same.entry]
    exact h.counts id (Nat.lt_of_lt_of_eq hid same.size)

/-- One event more, with its bytes and one reference. -/
theorem keep (h : Expected b c p) {e : EventRef} (known : e.id < c.ledger.entries.size)
    (hopen : b.closed = false) (alive : 0 < (c.ledger.get e.id).count) :
    Expected (b.keep (c.hold e).1 e ⟨b.payload.bytes ++ encoding e.event⟩).1
      (b.keep (c.hold e).1 e ⟨b.payload.bytes ++ encoding e.event⟩).2 (p.accept e) := by
  have hheld := p.held_accept e
  refine ⟨?_, ?_, ?_, ?_, ?_, ?_, fun e' he' => ?_, fun id hid hne => ?_⟩
  · rw [hheld, ← h.events]
    rfl
  · rw [Past.accept, List.flatMap_append, ← h.bytes, List.flatMap_singleton]
    rfl
  · simp [Accumulator.keep]
  · intro hnone
    rw [hheld] at hnone
    exact absurd hnone (List.append_ne_nil_of_right_ne_nil _ (List.cons_ne_nil e []))
  · intro hclosed
    exact absurd (hopen.symm.trans hclosed) Bool.false_ne_true
  · have huse := Memory.Context.useOf_onBudget h.use fun budget hbudget =>
      Memory.Budget.useOf_addUsage hbudget (encoding e.event).length
    have hadded : (b.payload.bytes ++ encoding e.event).length - b.payload.bytes.length =
        (encoding e.event).length := by
      rw [List.length_append, Nat.add_sub_cancel_left]
    rw [Word.add, Nat.mod_add_mod, ← List.length_append, ← hadded] at huse
    exact huse
  · refine Nat.lt_of_lt_of_eq ?_ (Ledger.size_update _ _ _).symm
    rcases List.mem_append.mp he' with hold | hnew
    · exact h.known e' hold
    · rw [List.mem_singleton.mp hnew]
      exact known
  · have htook : (c.ledger.hold e.id).2 = true := Lifecycle.hold_eq_true_iff.mpr alive
    have hmore : ((c.hold e).1.ledger.get id).count =
        (c.ledger.get id).count + if e.id = id then 1 else 0 :=
      (Ledger.get_hold known htook id).1
    have hcounts := h.counts id (Nat.lt_of_lt_of_eq hid (Ledger.size_update _ _ _)) hne
    rw [p.holdings_accept]
    change (((c.hold e).1.ledger.get id).count : Int) = p.others id + _
    rw [hmore]
    split <;> omega

theorem onEvent (h : Expected b c p) {e : EventRef} (known : e.id < c.ledger.entries.size) :
    Expected (b.onEvent c e).1 (b.onEvent c e).2.1 (if b.accepts c e then p.accept e else p) := by
  cases haccepts : b.accepts c e with
  | true =>
      obtain ⟨hopen, -, halive, -⟩ := Accumulator.accepts_iff.mp haccepts
      obtain ⟨_, rfl, hstays, -⟩ := Accumulator.onEvent_of_accepted haccepts
      exact (h.keep known hopen halive).stays hstays
  | false => exact h.stays (Accumulator.stays_onEvent haccepts)

theorem handOver (h : Expected b c p) : Expected b.reset (b.resetUsage c) p.handOver :=
  expected_of_reset rfl rfl rfl rfl
    (Memory.Context.useOf_onBudget h.use fun _ hb => Memory.Budget.useOf_resetUsage hb) h.counts

/-- The count of an event stays when others are cleared. -/
theorem counts_clearAll (h : Expected b c p) (events : List EventRef) (id : EventId)
    (hid : id < (c.clearAll events).ledger.entries.size)
    (uncleared : id ∉ p.cleared ++ events.map EventRef.id) :
    (((c.clearAll events).ledger.get id).count : Int) = p.others id + p.holdings id := by
  obtain ⟨hold, hevents⟩ := not_or.mp (mt List.mem_append.mpr uncleared)
  have hget : (c.clearAll events).ledger.get id = c.ledger.get id :=
    Ledger.get_clearAll_of_ne fun e he hsame => hevents (hsame ▸ List.mem_map_of_mem he)
  rw [hget]
  exact h.counts id (Nat.lt_of_lt_of_eq hid (Ledger.size_clearAll _ _)) hold

theorem close (h : Expected b c p) : Expected (b.close c).1 (b.close c).2 p.close := by
  cases hclosed : b.closed with
  | true =>
      have hclose : b.close c = (b, c) := by
        rw [Accumulator.close, if_pos hclosed]
      have hnone := h.shut hclosed
      have hpast : p.close = p := by
        rw [Past.close, hnone, List.map_nil, List.append_nil, ← h.restarts hnone]
      rw [hclose, hpast]
      exact h
  | false =>
      have hclose : b.close c = ({ b.reset with closed := true },
          b.onSlice (c.clearAll b.events) Memory.Budget.close) := by
        rw [Accumulator.close, if_neg (Bool.eq_false_iff.mp hclosed)]
      have huse := h.use
      rw [hclosed] at huse
      rw [hclose, h.events]
      refine expected_of_reset rfl rfl rfl rfl
        (Memory.Context.useOf_onBudget huse fun _ hb => Memory.Budget.useOf_close hb)
        fun id hid hne => ?_
      have hnone := Past.holdings_eq_zero fun hmem => hne (List.mem_append_right _ hmem)
      have hcounts := h.counts_clearAll _ id hid hne
      rwa [hnone, Int.natCast_zero, Int.add_zero] at hcounts

theorem discard (h : Expected b c p) (pipe : String) (region : Int) :
    Expected (b.discardPipe c pipe region).1 (b.discardPipe c pipe region).2.1
      (p.discard pipe region) := by
  have hcounts := h.counts_clearAll (p.held.filter fun e => e.belongsTo pipe region)
  cases hall : p.losesAll pipe region with
  | true =>
      have haccepted : (p.discard pipe region).accepted = [] := by
        rw [Past.discard, if_pos hall]
      simp only [Accumulator.discardPipe, h.events, ← p.losesAll_eq, hall, if_true]
      refine expected_of_reset rfl rfl rfl haccepted
        (Memory.Context.useOf_onBudget h.use fun _ hb => Memory.Budget.useOf_resetUsage hb)
        fun id hid hne => ?_
      have hmine := Past.filter_held_of_losesAll hall
      have hnone : p.holdings id = 0 :=
        Past.holdings_eq_zero fun hmem => hne (List.mem_append_right _ (hmine.symm ▸ hmem))
      have hcount := hcounts id hid hne
      rwa [hnone, Int.natCast_zero, Int.add_zero] at hcount
  | false =>
      have hheld := Past.held_discard hall
      have hnil := Past.held_discard_eq_nil_iff hall
      simp only [Accumulator.discardPipe, h.events, ← p.losesAll_eq, hall, Bool.false_eq_true,
        if_false]
      refine ⟨hheld.symm, ?_, ?_, fun hnone => ?_, fun hclosed => ?_, h.use, fun e he => ?_,
        fun id hid hne => ?_⟩
      · rw [Past.accepted_discard hall, List.flatMap_map]
        exact h.bytes
      · have hbegun := h.begun
        rw [h.events] at hbegun
        have hsome := not_congr hnil
        rw [hheld] at hsome
        exact hbegun.trans hsome.symm
      · rw [Past.accepted_discard hall, h.restarts (hnil.mp hnone), List.map_nil]
      · exact hnil.mpr (h.shut hclosed)
      · refine Nat.lt_of_lt_of_eq (h.known e ?_) (Ledger.size_clearAll _ _).symm
        rw [h.events]
        exact (List.mem_filter.mp he).1
      · rw [Past.holdings_discard hall fun hmem => hne (List.mem_append_right _ hmem)]
        exact hcounts id hid hne

theorem shared (h : Expected b c p) (o : Commons.Operation) :
    Expected b (c.after [o]) (p.share c o) := by
  have hmemory : (c.after [o]).memory = c.memory := by
    cases o <;> rfl
  have hsize := Commons.size_perform c o
  refine ⟨h.events, h.bytes, h.begun, h.restarts, h.shut, ?_, ?_, fun id hid hne => ?_⟩
  · rw [hmemory]
    exact h.use
  · rw [hsize]
    exact h.known
  · have huncleared : id ∉ p.cleared ∧ ∀ e, o = .clear e → e.id ≠ id := by
      cases o with
      | clear e =>
          obtain ⟨hother, hold⟩ := List.ne_and_not_mem_of_not_mem_cons hne
          exact ⟨hold, fun _ he => Commons.Operation.clear.inj he ▸ hother.symm⟩
      | _ => exact ⟨hne, nofun⟩
    have hlt := Nat.lt_of_lt_of_eq hid hsize
    have hcounts := h.counts id hlt huncleared.1
    have hperform := Commons.count_perform hlt huncleared.2
    change (((c.after [o]).ledger.get id).count : Int) = p.others id +
      (if c.takes id o then 1 else 0) - (if c.drops id o then 1 else 0) + p.holdings id
    cases htakes : c.takes id o <;> cases hdrops : c.drops id o <;>
      simp only [htakes, hdrops, Bool.false_eq_true, if_false, if_true] at hperform ⊢ <;> omega

theorem enrol (h : Expected b c p) (retryMs : Nat) :
    Expected b { c with ledger := c.ledger.enrol retryMs } (p.enrol c.ledger.entries.size) := by
  have hsize := Ledger.size_enrol c.ledger retryMs
  refine ⟨h.events, h.bytes, h.begun, h.restarts, h.shut, h.use, fun e he => ?_,
    fun id hid hne => ?_⟩
  · exact Nat.lt_trans (h.known e he) (Nat.lt_of_lt_of_eq (Nat.lt_succ_self _) hsize.symm)
  · change (((c.ledger.enrol retryMs).get id).count : Int) =
      (if id = c.ledger.entries.size then 1 else p.others id) + p.holdings id
    rcases Nat.lt_or_eq_of_le (Nat.le_of_lt_succ (Nat.lt_of_lt_of_eq hid hsize)) with hlt | rfl
    · rw [Ledger.get_enrol_of_lt retryMs hlt, if_neg (Nat.ne_of_lt hlt)]
      exact h.counts id hlt hne
    · have hnone : p.holdings c.ledger.entries.size = 0 := by
        refine Past.holdings_eq_zero fun hmem => ?_
        obtain ⟨e, he, hsame⟩ := List.mem_map.mp hmem
        exact Nat.lt_irrefl _ (hsame ▸ h.known e (h.events ▸ he))
      rw [Ledger.get_enrol_self, if_pos rfl, hnone]
      rfl

end Expected

theorem Works.expected {s s' : Observed} (h : Works s s')
    (hs : Expected s.1 s.2.1 s.2.2) : Expected s'.1 s'.2.1 s'.2.2 := by
  cases h with
  | onEvent e known => exact hs.onEvent known
  | checkDue => exact hs.stays (Accumulator.stays_checkDue _ _)
  | take | onSuccess => exact hs.handOver
  | close => exact hs.close
  | discard pipe region => exact hs.discard pipe region
  | shared o => exact hs.shared o
  | enrol retryMs => exact hs.enrol retryMs
  | elsewhere memory apart =>
      exact ⟨hs.events, hs.bytes, hs.begun, hs.restarts, hs.shut, apart.trans hs.use, hs.known,
        hs.counts⟩

theorem expected_of_reach {id : String} {settings : Settings} {commons : Commons}
    {s : Observed}
    (reach : Relation.ReflTransGen Works (start id settings commons) s) :
    Expected s.1 s.2.1 s.2.2 := by
  induction reach with
  | refl => exact .start id settings commons
  | tail _ hworks ih => exact hworks.expected ih

/-- Whatever is done to a batch of tablets: its payload is what it encoded of the events accepted
since it last started over, in the order of acceptance; it holds those of them that were not
discarded since; its delay runs exactly when it holds something, and if it does not, there are no
bytes and none are used; the bytes used of its slice are those of its payload, counted in a word;
of every event that nobody cleared it owns one reference for every time that it holds it; and what
it does not keep, or answers with an error, leaves no trace. -/
theorem contents_of_accepted {id : String} {settings : Settings} {commons : Commons}
    {b : Accumulator PlainPayload} {c : Commons} {p : Past}
    (reach : Relation.ReflTransGen Works (start id settings commons) (b, c, p)) :
    b.payload.bytes = (p.accepted.flatMap fun a => encoding a.1.event) ∧
      b.events = (p.accepted.filter fun a => !a.2).map Prod.fst ∧
      (b.firstAt.isSome = true ↔ b.events ≠ []) ∧
      (b.firstAt = none →
        b.payload.bytes = [] ∧ c.memory.useOf b.slice = some (0, b.closed)) ∧
      c.memory.useOf b.slice = some (b.payload.bytes.length % Word.size, b.closed) ∧
      (b.payload.bytes.length < Word.size →
        c.memory.useOf b.slice = some (b.payload.bytes.length, b.closed)) ∧
      (∀ id < c.ledger.entries.size, id ∉ p.cleared →
        ((c.ledger.get id).count : Int) = p.others id + b.events.countP fun e => e.id = id) ∧
      ∀ e : EventRef, let after := b.onEvent c e
        ((∃ error, after.2.2 = .error error) ∨ after.1.events ≠ b.events ++ [e]) →
          after.1.events = b.events ∧ after.1.payload = b.payload ∧
          after.1.firstAt = b.firstAt ∧
          after.2.1.memory.useOf b.slice = c.memory.useOf b.slice ∧
          ∀ id, after.2.1.ledger.get id = c.ledger.get id := by
  have h := expected_of_reach reach
  refine ⟨h.bytes, h.events, h.begun, fun hfirst => ?_, h.use, fun hfits => ?_,
    fun id hid hne => ?_, ?_⟩
  · have hnone : p.accepted = [] := by
      refine h.restarts (h.events.symm.trans (Classical.not_not.mp fun hsome => ?_))
      have hbegun := h.begun.mpr hsome
      rw [hfirst] at hbegun
      cases hbegun
    have hbytes : b.payload.bytes = [] := by
      rw [h.bytes, hnone]
      rfl
    refine ⟨hbytes, ?_⟩
    rw [h.use, hbytes]
    rfl
  · rw [h.use, Nat.mod_eq_of_lt hfits]
  · rw [h.events]
    exact h.counts id hid hne
  · intro e after hnot
    cases haccepts : b.accepts c e with
    | true =>
        obtain ⟨_, rfl, hstays, due, hdue⟩ := Accumulator.onEvent_of_accepted haccepts
        rcases hnot with ⟨error, herror⟩ | hnew
        · rw [hdue] at herror
          cases herror
        · exact absurd hstays.events hnew
    | false =>
        have hstays := Accumulator.stays_onEvent haccepts
        exact ⟨hstays.events, hstays.payload, hstays.firstAt, hstays.use, hstays.entry⟩

/-- A tablet is taken in twice, another one between, a heartbeat is passed over, another batch takes
a slice, and the tablet between is discarded: its bytes stay. -/
theorem contents_of_accepted_of_discarded :
    let event (pipe : String) (content : Content) : Event :=
      { content, pipe, region := 0, commit := .zero, progress := 0 }
    let first : EventRef := ⟨0, event "p" (.tablet { target := "t", rows := 1, payload := [7] })⟩
    let between : EventRef := ⟨1, event "q" (.tablet { target := "u", rows := 2, payload := [] })⟩
    let beat : EventRef := ⟨2, event "p" (.heartbeat 0)⟩
    let commons : Commons := { ledger := ((({} : Ledger).enrol 1).enrol 1).enrol 1 }
    let offer (s : Observed) (e : EventRef) :=
      ((s.1.onEvent s.2.1 e).1, (s.1.onEvent s.2.1 e).2.1,
        if s.1.accepts s.2.1 e then s.2.2.accept e else s.2.2)
    let offered := [first, beat, between, first].foldl offer (start "b" {} commons)
    let shared : Commons :=
      { offered.2.1 with memory := offered.2.1.memory.registerSlice 100 }
    let b := (offered.1.discardPipe shared "q" 0).1
    let c := (offered.1.discardPipe shared "q" 0).2.1
    b.payload.bytes =
        [0, 0, 0, 1, 116, 0, 0, 0, 1, 0, 0, 0, 1, 7] ++
          [0, 0, 0, 1, 117, 0, 0, 0, 2, 0, 0, 0, 0] ++
            [0, 0, 0, 1, 116, 0, 0, 0, 1, 0, 0, 0, 1, 7] ∧
      b.events = [first, first] ∧ b.firstAt.isSome = true ∧
      c.memory.useOf b.slice = some (41, false) ∧ (c.ledger.get 0).count = 3 := by
  intro event first between beat commons offer offered shared b c
  have hoffer (s : Observed) (e : EventRef)
      (known : e.id < s.2.1.ledger.entries.size) : Works s (offer s e) := .onEvent e known
  have hoffered : Relation.ReflTransGen Works (start "b" {} commons) offered := by
    refine ((((Relation.ReflTransGen.refl.tail (hoffer _ first ?_)).tail (hoffer _ beat ?_)).tail
      (hoffer _ between ?_)).tail (hoffer _ first ?_)) <;> decide +kernel
  have hshared : Works offered (offered.1, shared, offered.2.2) :=
    .elsewhere (offered.2.1.memory.registerSlice 100) (by decide +kernel)
  have reach : Relation.ReflTransGen Works (start "b" {} commons)
      (b, c, offered.2.2.discard "q" 0) :=
    (hoffered.tail hshared).tail (.discard "q" 0)
  have haccepted : (offered.2.2.discard "q" 0).accepted =
      [(first, false), (between, true), (first, false)] := by
    decide +kernel
  have hothers : (offered.2.2.discard "q" 0).others 0 = 1 := by
    decide +kernel
  have hcleared : (0 : EventId) ∉ (offered.2.2.discard "q" 0).cleared := by
    decide +kernel
  have hsize : 0 < c.ledger.entries.size := by
    decide +kernel
  have hopen : b.closed = false := by
    decide +kernel
  generalize offered.2.2.discard "q" 0 = p at *
  clear_value b c
  obtain ⟨hbytes, hevents, hbegun, -, huse, -, hcounts, -⟩ := contents_of_accepted reach
  rw [haccepted] at hbytes hevents
  have hkept : b.events = [first, first] := hevents
  have hfirst : encoding first.event = [0, 0, 0, 1, 116, 0, 0, 0, 1, 0, 0, 0, 1, 7] := by
    decide +kernel
  have hbetween : encoding between.event = [0, 0, 0, 1, 117, 0, 0, 0, 2, 0, 0, 0, 0] := by
    decide +kernel
  simp only [List.flatMap_cons, List.flatMap_nil, hfirst, hbetween] at hbytes
  have hcount : ((c.ledger.get 0).count : Int) = 3 := by
    rw [hcounts 0 hsize hcleared, hothers, hkept]
    rfl
  rw [hopen, hbytes] at huse
  refine ⟨hbytes, hkept, hbegun.mpr ?_, huse, Int.ofNat_inj.mp hcount⟩
  rw [hkept]
  exact List.cons_ne_nil first [first]

end Batch
end Courier
