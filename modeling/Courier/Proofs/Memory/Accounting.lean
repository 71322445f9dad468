import Courier.Proofs.Memory.Holdings
import Mathlib.Algebra.BigOperators.Group.List.Basic
import Mathlib.Algebra.GroupWithZero.Nat
import Mathlib.Data.List.Perm.Basic

/-!
The counters of the manager add up. A block mirrors what it is granted and what it uses into the
counters of its pool, by differences that stop at zero. They never do stop there: the counters are
always the sums over the open blocks, so what is taken off a counter was counted in it.
-/

namespace Courier
namespace Memory

/-- What the blocks of a pool sum up to. -/
def Pool.sumOf (p : Pool) (f : Block → Nat) (blocks : List Block) : Nat :=
  ((blocks.filter fun b => b.pool = p).map f).sum

namespace Pool

variable {p : Pool} {f : Block → Nat} {b : Block} {blocks blocks' : List Block}

theorem sumOf_cons_self (f : Block → Nat) (b : Block) (blocks : List Block) :
    b.pool.sumOf f (b :: blocks) = f b + b.pool.sumOf f blocks := by
  simp [sumOf]

theorem sumOf_cons_of_ne (f : Block → Nat) (h : b.pool ≠ p) (blocks : List Block) :
    p.sumOf f (b :: blocks) = p.sumOf f blocks := by
  simp [sumOf, h]

theorem sumOf_cons_of_zero (hf : f b = 0) (p : Pool) (blocks : List Block) :
    p.sumOf f (b :: blocks) = p.sumOf f blocks := by
  by_cases hp : b.pool = p
  · subst hp
    rw [sumOf_cons_self, hf, Nat.zero_add]
  · exact sumOf_cons_of_ne f hp blocks

theorem sumOf_perm (h : blocks.Perm blocks') : p.sumOf f blocks = p.sumOf f blocks' :=
  ((h.filter _).map f).sum_eq

/-- Every block is of one of the two pools. -/
theorem sumOf_batch_add_queue (f : Block → Nat) (blocks : List Block) :
    Pool.batch.sumOf f blocks + Pool.queue.sumOf f blocks = (blocks.map f).sum := by
  induction blocks with
  | nil => rfl
  | cons b blocks ih =>
      cases hb : b.pool with
      | batch => simp [sumOf, hb] at ih ⊢; omega
      | queue => simp [sumOf, hb] at ih ⊢; omega

theorem sumOf_le_sum (p : Pool) (f : Block → Nat) (blocks : List Block) :
    p.sumOf f blocks ≤ (blocks.map f).sum := by
  have hboth := sumOf_batch_add_queue f blocks
  cases p with
  | batch => omega
  | queue => omega

/-- A counter of the sum follows a block that is exchanged for another of its pool. -/
theorem sumOf_exchange {b b' : Block} (same : b'.pool = b.pool) {count count' : Nat}
    (counted : count = p.sumOf f (b :: blocks)) (moved : p = b.pool → count' + f b = count + f b')
    (still : p ≠ b.pool → count' = count) : count' = p.sumOf f (b' :: blocks) := by
  by_cases hp : p = b.pool
  · have hmoved := moved hp
    subst hp
    rw [sumOf_cons_self] at counted
    rw [← same, sumOf_cons_self, same]
    omega
  · have hother : b'.pool ≠ p := fun h => hp (h.symm.trans same)
    rw [still hp, counted, sumOf_cons_of_ne f (Ne.symm hp), sumOf_cons_of_ne f hother]

end Pool

namespace Manager

variable {p q : Pool} {f : PoolUse → PoolUse}

@[simp] theorem pool_onPool (m : Manager) (p : Pool) (f : PoolUse → PoolUse) :
    (m.onPool p f).pool p = f (m.pool p) := by
  cases p <;> rfl

@[simp] theorem pool_onPool_of_ne (m : Manager) (h : q ≠ p) :
    (m.onPool p f).pool q = m.pool q := by
  cases p <;> cases q <;> first | rfl | exact absurd rfl h

@[simp] theorem allocated_onPool (m : Manager) (p : Pool) (f : PoolUse → PoolUse) :
    (m.onPool p f).allocated = m.allocated := by
  cases p <;> rfl

@[simp] theorem total_onPool (m : Manager) (p : Pool) (f : PoolUse → PoolUse) :
    (m.onPool p f).total = m.total := by
  cases p <;> rfl

@[simp] theorem pool_setAllocated (m : Manager) (bytes : Nat) (p : Pool) :
    ({ m with allocated := bytes } : Manager).pool p = m.pool p := by
  cases p <;> rfl

/-- Only what is more than is left is refused. -/
theorem reserve_error_iff {m : Manager} (bounded : m.allocated ≤ m.total) (p : Pool) (bytes : Nat) :
    (∃ error, m.reserve p bytes = .error error) ↔ m.available < bytes := by
  rw [reserve, available]
  split
  · rename_i hnothing
    simp [hnothing]
  · split
    · rename_i hleft
      simp only [reduceCtorEq, exists_false, false_iff]
      omega
    · rename_i hshort
      simp only [Except.error.injEq, exists_eq', true_iff]
      omega

end Manager

theorem Block.resize_error_iff {m : Manager} (bounded : m.allocated ≤ m.total) (b : Block)
    (size : Nat) : (∃ error, b.resize m size = .error error) ↔
      b.closed = true ∨ m.available < size - b.size := by
  rw [resize]
  split
  · rename_i hclosed
    simp [hclosed]
  · rename_i hopen
    split
    · rw [error_of_map_iff, Manager.reserve_error_iff bounded]
      simp [hopen]
    · rename_i hshrinks
      have hnothing : size - b.size = 0 := by omega
      simp [hopen, hnothing]

/-- The counters are the sums over the blocks, and a closed block adds nothing to them. -/
structure Accounted (total : Nat) (m : Manager) (blocks : List Block) : Prop where
  total : m.total = total
  bounded : m.allocated ≤ m.total
  whole : m.allocated = m.batch.allocated + m.queue.allocated
  granted : ∀ p, (m.pool p).allocated = p.sumOf Block.size blocks
  used : ∀ p, (m.pool p).used = p.sumOf Block.usage blocks
  idle : ∀ b ∈ blocks, b.closed = true → b.size = 0 ∧ b.usage = 0

/-- The counters moved by as much as the block did. -/
structure Mirrors (m : Manager) (b : Block) (m' : Manager) (b' : Block) : Prop where
  total : m'.total = m.total
  pool : b'.pool = b.pool
  bounded : m'.allocated ≤ m'.total
  allocated : m'.allocated + b.size = m.allocated + b'.size
  granted : (m'.pool b.pool).allocated + b.size = (m.pool b.pool).allocated + b'.size
  used : (m'.pool b.pool).used + b.usage = (m.pool b.pool).used + b'.usage
  others : ∀ p, p ≠ b.pool → m'.pool p = m.pool p
  idle : b'.closed = true → b'.size = 0 ∧ b'.usage = 0

namespace Accounted

variable {total : Nat} {m m' : Manager} {b b' : Block} {blocks blocks' : List Block}

theorem perm (h : Accounted total m blocks) (perm : blocks.Perm blocks') :
    Accounted total m blocks' where
  total := h.total
  bounded := h.bounded
  whole := h.whole
  granted p := (h.granted p).trans (Pool.sumOf_perm perm)
  used p := (h.used p).trans (Pool.sumOf_perm perm)
  idle b hb := h.idle b (perm.mem_iff.mpr hb)

/-- What is allocated is the sum over the blocks of both pools. -/
theorem allocated_eq (h : Accounted total m blocks) :
    m.allocated = (blocks.map Block.size).sum := by
  have hbatch := h.granted .batch
  have hqueue := h.granted .queue
  rw [← Pool.sumOf_batch_add_queue, ← hbatch, ← hqueue]
  exact h.whole

/-- What a block has is counted, so nothing is lost when it is taken off. -/
theorem counts (h : Accounted total m (b :: blocks)) :
    b.size ≤ m.allocated ∧ b.size ≤ (m.pool b.pool).allocated ∧
      b.usage ≤ (m.pool b.pool).used := by
  have hall := h.allocated_eq
  have hgranted := h.granted b.pool
  have hused := h.used b.pool
  rw [List.map_cons, List.sum_cons] at hall
  rw [Pool.sumOf_cons_self] at hgranted hused
  omega

/-- The sums move with the counters. -/
theorem mirror (h : Accounted total m (b :: blocks)) (moves : Mirrors m b m' b') :
    Accounted total m' (b' :: blocks) where
  total := moves.total.trans h.total
  bounded := moves.bounded
  whole := by
    have hwhole := h.whole
    have hall := moves.allocated
    have hpool := moves.granted
    cases hb : b.pool with
    | batch =>
        have hqueue : m'.queue = m.queue := moves.others .queue (by simp [hb])
        simp only [hb, Manager.pool] at hpool
        rw [hqueue]
        omega
    | queue =>
        have hbatch : m'.batch = m.batch := moves.others .batch (by simp [hb])
        simp only [hb, Manager.pool] at hpool
        rw [hbatch]
        omega
  granted p := Pool.sumOf_exchange moves.pool (h.granted p)
    (fun hp => hp ▸ moves.granted) (fun hp => by rw [moves.others p hp])
  used p := Pool.sumOf_exchange moves.pool (h.used p)
    (fun hp => hp ▸ moves.used) (fun hp => by rw [moves.others p hp])
  idle c hc := by
    cases hc with
    | head => exact moves.idle
    | tail _ hc => exact h.idle c (List.mem_cons_of_mem b hc)

/-- A block of which nobody took anything yet may be added. -/
theorem track (h : Accounted total m blocks) (p : Pool) :
    Accounted total m (Block.empty p :: blocks) := by
  refine { h with granted := fun q => ?_, used := fun q => ?_, idle := fun b hb => ?_ }
  · rw [Pool.sumOf_cons_of_zero rfl]
    exact h.granted q
  · rw [Pool.sumOf_cons_of_zero rfl]
    exact h.used q
  · cases hb with
    | head => nofun
    | tail _ hb => exact h.idle b hb

end Accounted

namespace Mirrors

variable {total bytes : Nat} {m m' : Manager} {p : Pool} {b b' : Block} {blocks : List Block}

theorem refl (h : Accounted total m (b :: blocks)) : Mirrors m b m b :=
  ⟨rfl, rfl, h.bounded, rfl, rfl, rfl, fun _ _ => rfl, h.idle b List.mem_cons_self⟩

/-- What fits the counter of the pool fits that of the block, which is no larger. -/
theorem addUsage (h : Accounted total m (b :: blocks))
    (fits : b.closed = false → (m.pool b.pool).used + bytes < Word.size) :
    Mirrors m b (b.addUsage m bytes).1 (b.addUsage m bytes).2 := by
  rw [Block.addUsage]
  split
  · exact refl h
  · rename_i hopen
    have hfits := fits (Bool.eq_false_iff.mpr hopen)
    have hcounted := h.counts.2.2
    have hpool : Word.add (m.pool b.pool).used bytes = (m.pool b.pool).used + bytes :=
      Word.add_of_lt hfits
    have hblock : Word.add b.usage bytes = b.usage + bytes := Word.add_of_lt (by omega)
    constructor
    case bounded => simpa [Manager.addUsed] using h.bounded
    case others => exact fun p hp => Manager.pool_onPool_of_ne m hp
    case idle => exact fun hclosed => absurd hclosed hopen
    all_goals simp [Manager.addUsed, hpool, hblock]
    omega

theorem reduceUsage (h : Accounted total m (b :: blocks)) (bytes : Nat) :
    Mirrors m b (b.reduceUsage m bytes).1 (b.reduceUsage m bytes).2 := by
  have hcounted := h.counts.2.2
  constructor
  case bounded => simpa [Block.reduceUsage, Manager.reduceUsed] using h.bounded
  case others => exact fun p hp => Manager.pool_onPool_of_ne m hp
  case idle =>
    intro hclosed
    obtain ⟨hsize, husage⟩ := h.idle b List.mem_cons_self hclosed
    simp [Block.reduceUsage, hsize, husage]
  all_goals simp [Block.reduceUsage, Manager.reduceUsed]
  omega

/-- A grant is added to the block, and is within the total. -/
theorem grow (h : Accounted total m (b :: blocks)) (opened : b.closed = false)
    (reserved : m.reserve b.pool bytes = .ok m') :
    Mirrors m b m' { b with size := b.size + bytes } := by
  rw [Manager.reserve] at reserved
  split at reserved
  · rename_i hnothing
    obtain rfl := Except.ok.inj reserved
    subst hnothing
    exact refl h
  · split at reserved
    · rename_i hleft
      obtain rfl := Except.ok.inj reserved
      constructor
      case bounded => simpa using hleft
      case others => exact fun p hp => by simp [hp]
      case idle => simp [opened]
      all_goals simp
      all_goals omega
    · cases reserved

theorem resize (h : Accounted total m (b :: blocks)) {size : Nat}
    (granted : b.resize m size = .ok (m', b')) : Mirrors m b m' b' := by
  rw [Block.resize] at granted
  split at granted
  · cases granted
  · rename_i hopen
    split at granted
    · obtain ⟨reserved, hreserved, hgrown⟩ := ok_of_map granted
      obtain ⟨rfl, rfl⟩ := Prod.mk.inj hgrown
      have hsize : b.size + (size - b.size) = size := by omega
      have hmoves := grow h (Bool.eq_false_iff.mpr hopen) hreserved
      rwa [hsize] at hmoves
    · obtain ⟨rfl, rfl⟩ := Prod.mk.inj (Except.ok.inj granted)
      have hcounted := h.counts
      have hbounded := h.bounded
      constructor
      case others => exact fun p hp => by simp [Manager.release, hp]
      case idle => exact fun hclosed => absurd hclosed hopen
      all_goals simp [Manager.release]
      all_goals omega

theorem close (h : Accounted total m (b :: blocks)) :
    Mirrors m b (b.close m).1 (b.close m).2 := by
  rw [Block.close]
  split
  · exact refl h
  · have hcounted := h.counts
    have hbounded := h.bounded
    constructor
    case others => exact fun p hp => by simp [Manager.release, Manager.reduceUsed, hp]
    case idle => exact fun _ => ⟨rfl, rfl⟩
    all_goals simp [Manager.release, Manager.reduceUsed]
    all_goals omega

end Mirrors

namespace Accounted

variable {total bytes : Nat} {m m' : Manager} {p : Pool} {b : Block} {blocks : List Block}

/-- A grant is an empty block that grew. -/
theorem allocate (h : Accounted total m blocks) (granted : m.allocate p bytes = .ok (m', b)) :
    Accounted total m' (b :: blocks) := by
  obtain ⟨reserved, hreserved, hgrown⟩ := ok_of_map granted
  obtain ⟨rfl, rfl⟩ := Prod.mk.inj hgrown
  have hmoves := Mirrors.grow (h.track p) rfl hreserved
  simpa [Block.empty] using (h.track p).mirror hmoves

theorem allocateHalving (h : Accounted total m blocks) (candidate : Nat) :
    Accounted total (Context.allocateHalving m candidate).1
      ((Context.allocateHalving m candidate).2 :: blocks) := by
  induction candidate using Context.allocateHalving.induct m with
  | case1 =>
      rw [Context.allocateHalving, if_pos rfl]
      exact h.track .batch
  | case2 candidate hsome granted hgranted =>
      rw [Context.allocateHalving, if_neg hsome, hgranted]
      exact h.allocate hgranted
  | case3 candidate hsome error hrefused ih =>
      rw [Context.allocateHalving, if_neg hsome, hrefused]
      exact ih

end Accounted

namespace Budget

variable (b : Budget)

@[simp] theorem block_rebalance : b.rebalance.block = b.block := rfl

@[simp] theorem block_register (requested : Nat) : (b.register requested).block = b.block := rfl

@[simp] theorem block_update (id : Nat) (f : Slice → Slice) : (b.update id f).block = b.block := rfl

@[simp] theorem block_close (id : Nat) : (b.close id).block = b.block := by
  rw [close]
  split
  · rfl
  · split <;> rfl

@[simp] theorem block_sample (id : Nat) (ratio : Float) : (b.sample id ratio).block = b.block := by
  rcases b.sample_eq id ratio with hsame | ⟨s, average, -, -, hshared | ⟨-, hmoved⟩⟩
  · rw [hsame]
  · rw [hshared, block_rebalance, block_update]
  · rw [hmoved, block_update]

end Budget

namespace Context

variable {c c' : Context} {m : Manager} {b : Block} {total id : Nat}

/-- Every block that was granted, with the one that the slices share. -/
def allBlocks (c : Context) : List Block := (c.budget.map Budget.block).toList ++ c.blocks

/-- The blocks that still hold a grant or may report usage. -/
def openBlocks (c : Context) : List Block := c.allBlocks.filter fun b => !b.closed

/-- Usage that the open blocks of both pools report. -/
def reported (c : Context) : Nat := (c.openBlocks.map Block.usage).sum

def IsAccounted (total : Nat) (c : Context) : Prop := Accounted total c.manager c.allBlocks

/-- A closed block is nothing in a sum. -/
theorem sum_filter_openBlocks {f : Block → Nat} (keep : Block → Bool)
    (idle : ∀ b ∈ c.allBlocks, b.closed = true → f b = 0) :
    ((c.openBlocks.filter keep).map f).sum = ((c.allBlocks.filter keep).map f).sum := by
  rw [openBlocks]
  generalize c.allBlocks = blocks at idle
  induction blocks with
  | nil => rfl
  | cons b blocks ih =>
      have hrest := ih fun b hb => idle b (List.mem_cons_of_mem _ hb)
      have hzero := idle b List.mem_cons_self
      cases hclosed : b.closed with
      | true => cases hkeep : keep b <;> simp_all
      | false => cases hkeep : keep b <;> simp_all

theorem sum_openBlocks {f : Block → Nat}
    (idle : ∀ b ∈ c.allBlocks, b.closed = true → f b = 0) :
    (c.openBlocks.map f).sum = (c.allBlocks.map f).sum := by
  simpa using sum_filter_openBlocks (fun _ => true) idle

/-- Putting the named block first, and another in its place. -/
theorem allBlocks_perm {b : Block} (hb : c.block? id = some b) :
    ∃ rest, c.allBlocks.Perm (b :: rest) ∧ ∀ (m : Manager) (b' : Block),
      (allBlocks { c with manager := m, blocks := c.blocks.set id b' }).Perm (b' :: rest) := by
  obtain ⟨hlt, hget⟩ := List.getElem?_eq_some_iff.mp hb
  refine ⟨(c.budget.map Budget.block).toList ++ c.blocks.eraseIdx id, ?_, fun m b' => ?_⟩
  · have hfirst := (List.getElem_cons_eraseIdx_perm hlt).symm
    rw [hget] at hfirst
    exact (hfirst.append_left _).trans List.perm_middle
  · exact ((List.set_perm_cons_eraseIdx hlt b').append_left _).trans List.perm_middle

theorem IsAccounted.onBlock (h : c.IsAccounted total) (id : Nat)
    {f : Manager → Block → Manager × Block}
    (mirrors : ∀ b rest, c.block? id = some b → c.allBlocks.Perm (b :: rest) →
      Accounted total c.manager (b :: rest) →
      Mirrors c.manager b (f c.manager b).1 (f c.manager b).2) :
    (c.onBlock id f).IsAccounted total := by
  rw [Context.onBlock]
  cases hb : c.block? id with
  | none => exact h
  | some b =>
      obtain ⟨rest, hfirst, hset⟩ := allBlocks_perm hb
      have hperm := Accounted.perm h hfirst
      exact (hperm.mirror (mirrors b rest hb hfirst hperm)).perm (hset _ _).symm

theorem IsAccounted.append (h : Accounted total m (b :: c.allBlocks)) :
    IsAccounted total { c with manager := m, blocks := c.blocks ++ [b] } := by
  refine Accounted.perm h ?_
  simp only [allBlocks]
  rw [← List.append_assoc]
  exact (List.perm_append_singleton b _).symm

theorem IsAccounted.allocate (h : c.IsAccounted total) {p : Pool} {bytes : Nat}
    (granted : c.allocate p bytes = .ok c') : c'.IsAccounted total := by
  obtain ⟨m, b, hgrant, rfl⟩ := of_allocate granted
  exact append (Accounted.allocate h hgrant)

theorem IsAccounted.allocateEmpty (h : c.IsAccounted total) (p : Pool) :
    (c.allocateEmpty p).IsAccounted total :=
  append (Accounted.track h p)

theorem IsAccounted.allocateQueue (h : c.IsAccounted total) :
    c.allocateQueue.IsAccounted total := by
  rw [Context.allocateQueue]
  split
  · rename_i hgranted
    exact h.allocate hgranted
  · exact h.allocateEmpty .queue

theorem IsAccounted.resize (h : c.IsAccounted total) {size : Nat}
    (granted : c.resize id size = .ok c') : c'.IsAccounted total := by
  rcases of_resize granted with rfl | ⟨b, m, b', hb, hgrant, rfl⟩
  · exact h
  · obtain ⟨rest, hfirst, hset⟩ := allBlocks_perm hb
    have hperm := Accounted.perm h hfirst
    exact (hperm.mirror (Mirrors.resize hperm hgrant)).perm (hset m b').symm

theorem IsAccounted.withBudget (h : c.IsAccounted total) : c.withBudget.IsAccounted total := by
  cases hbudget : c.budget with
  | some b => simpa only [Context.withBudget, hbudget] using h
  | none =>
      rw [IsAccounted, allBlocks, hbudget] at h
      simp only [Context.withBudget, hbudget]
      exact h.allocateHalving c.batchBudgetBytes

theorem IsAccounted.onBudget (h : c.IsAccounted total) {f : Budget → Budget}
    (keeps : ∀ b : Budget, (f b).block = b.block) : (c.onBudget f).IsAccounted total := by
  have hsame : (c.onBudget f).allBlocks = c.allBlocks := by
    cases hbudget : c.budget with
    | none => simp [allBlocks, Context.onBudget, hbudget]
    | some b => simp [allBlocks, Context.onBudget, hbudget, keeps]
  rw [IsAccounted, hsame]
  exact h

end Context

/-- What the open blocks report stays a word when a block reports more. -/
def Operation.fits (c : Context) : Operation → Bool
  | .addUsage id bytes =>
      match c.block? id with
      | some b => b.closed || c.reported + bytes < Word.size
      | none => true
  | _ => true

namespace Holdings

variable {h : Holdings} {total : Nat}

/-- The usage that is reported stays a word all through a history. -/
def fits : Holdings → List Operation → Bool
  | _, [] => true
  | h, o :: ops => o.fits h.context && (h.perform o).1.fits ops

theorem isAccounted_addUsage (hc : h.context.IsAccounted total) {id bytes : Nat}
    (fits : (Operation.addUsage id bytes).fits h.context = true) :
    (h.context.addUsage id bytes).IsAccounted total := by
  refine hc.onBlock id fun b rest hb first hblocks => Mirrors.addUsage hblocks fun hopen => ?_
  simp only [Operation.fits, hb, hopen, Bool.false_or] at fits
  have hfits := of_decide_eq_true fits
  have hreported : h.context.reported = (h.context.allBlocks.map Block.usage).sum :=
    Context.sum_openBlocks fun b hb hclosed => (hc.idle b hb hclosed).2
  have hpool := Pool.sumOf_le_sum b.pool Block.usage h.context.allBlocks
  rw [hc.used b.pool]
  omega

theorem isAccounted_perform (hc : h.context.IsAccounted total) {o : Operation}
    (fits : o.fits h.context = true) : (h.perform o).1.context.IsAccounted total := by
  cases o with
  | allocate p bytes => exact kept_grant _ hc fun _ granted => hc.allocate granted
  | allocateEmpty p => exact hc.allocateEmpty p
  | allocateQueue => exact hc.allocateQueue
  | addUsage id bytes => exact kept_if_held hc (isAccounted_addUsage hc fits)
  | reduceUsage id bytes =>
      exact kept_if_held hc
        (hc.onBlock id fun _ _ _ _ hblocks => Mirrors.reduceUsage hblocks bytes)
  | resize id size => exact kept_if_held hc (kept_grant _ hc fun _ granted => hc.resize granted)
  | close id | letGo id =>
      exact kept_if_held hc (hc.onBlock id fun _ _ _ _ hblocks => Mirrors.close hblocks)
  | openBudget => exact hc.withBudget
  | register bytes => exact hc.withBudget.onBudget fun b => b.block_register bytes
  | rebalance => exact hc.withBudget.onBudget Budget.block_rebalance
  | addSliceUsage id | reduceSliceUsage id | resetSliceUsage id =>
      exact kept_if_held hc (hc.onBudget fun b => b.block_update id _)
  | sample id ratio => exact kept_if_held hc (hc.onBudget fun b => b.block_sample id ratio)
  | closeSlice id | letGoSlice id =>
      exact kept_if_held hc (hc.onBudget fun b => b.block_close id)

theorem isAccounted_after (hc : h.context.IsAccounted total) {ops : List Operation}
    (fits : h.fits ops = true) : (h.after ops).context.IsAccounted total := by
  induction ops generalizing h with
  | nil => exact hc
  | cons o ops ih =>
      obtain ⟨hfirst, hrest⟩ := Bool.and_eq_true_iff.mp fits
      exact ih (isAccounted_perform hc hfirst) hrest

/-- After every history the counters of the manager are the sums over the open blocks, within the
total. A block is refused when more is asked for than is left, a new size also when its block is
closed, and what is refused leaves everything as it was. -/
theorem counters_are_sums (settings : Settings) (ops : List Operation)
    (fits : Holdings.fits { context := .ofSettings settings } ops = true) :
    let h := after { context := .ofSettings settings } ops
    let m := h.context.manager
    m.total = settings.totalBytes ∧ m.allocated ≤ m.total ∧
      m.available + m.allocated = m.total ∧
      m.allocated = m.batch.allocated + m.queue.allocated ∧
      m.allocated = (h.context.openBlocks.map Block.size).sum ∧
      (∀ p : Pool, (m.pool p).used = p.sumOf Block.usage h.context.openBlocks) ∧
      (∀ p bytes, (∃ error, (h.perform (.allocate p bytes)).2 = .failure error) ↔
        m.available < bytes) ∧
      (∀ id b size, h.hasBlock id = true → h.context.block? id = some b →
        ((∃ error, (h.perform (.resize id size)).2 = .failure error) ↔
          b.closed = true ∨ m.available < size - b.size)) ∧
      ∀ o error, (h.perform o).2 = .failure error → (h.perform o).1 = h := by
  intro h m
  have hstart : Context.IsAccounted settings.totalBytes (.ofSettings settings) :=
    ⟨rfl, Nat.zero_le _, rfl, fun p => by cases p <;> rfl, fun p => by cases p <;> rfl, nofun⟩
  have hc : h.context.IsAccounted settings.totalBytes :=
    isAccounted_after (h := { context := .ofSettings settings }) hstart fits
  refine ⟨hc.total, hc.bounded, Nat.sub_add_cancel hc.bounded, hc.whole, ?_, fun p => ?_,
    fun p bytes => ?_, fun id b size held hb => ?_, fun _ _ => perform_of_failure⟩
  · rw [Context.sum_openBlocks fun b hb hclosed => (hc.idle b hb hclosed).1]
    exact hc.allocated_eq
  · rw [Pool.sumOf, Context.sum_filter_openBlocks _ fun b hb hclosed => (hc.idle b hb hclosed).2]
    exact hc.used p
  · rw [← Manager.reserve_error_iff hc.bounded p bytes, perform, grant_failure_iff (by simp),
      Context.allocate, error_of_map_iff, Manager.allocate, error_of_map_iff]
  · rw [← Block.resize_error_iff hc.bounded b size, perform, if_pos held,
      grant_failure_iff (by simp), Context.resize, hb, error_of_map_iff]

/-- Usage over the grant and back, a block closed twice and used after, and requests that are
refused. -/
theorem counters_are_sums_of_three :
    let settings : Settings :=
      { totalBytes := 1000, batchBudgetBytes := 1200, queueBudgetBytes := 300 }
    let ops : List Operation := [.openBudget, .allocateQueue, .allocate .queue 200,
      .allocate .batch 100, .allocate .batch Word.max, .addUsage 0 500, .addUsage 1 70,
      .reduceUsage 0 1000, .addUsage 0 50, .resize 1 40, .close 1, .close 1, .addUsage 1 Word.max,
      .letGo 1, .register 200]
    let h := after { context := .ofSettings settings } ops
    let manager : Manager :=
      { total := 1000, allocated := 900, batch := ⟨600, 0⟩, queue := ⟨300, 50⟩ }
    h.context.manager = manager ∧ (h.context.openBlocks.map Block.size).sum = 900 ∧
      Pool.queue.sumOf Block.usage h.context.openBlocks = 50 ∧
      (h.perform (.resize 0 500)).1 = h := by
  intro settings ops h manager
  have fits : Holdings.fits { context := .ofSettings settings } ops = true := by decide +kernel
  have counters : h.context.manager = manager := by decide +kernel
  have held : h.hasBlock 0 = true := by decide +kernel
  have block : h.context.block? 0 = some { pool := .queue, size := 300, usage := 50 } := by
    decide +kernel
  obtain ⟨-, -, -, -, hsizes, husages, -, hresizes, hrefused⟩ := counters_are_sums settings ops fits
  have run : after { context := .ofSettings settings } ops = h := rfl
  clear_value h
  rw [run] at hsizes husages hresizes hrefused
  have short : h.context.manager.available < 500 - 300 := by
    rw [counters]
    decide
  obtain ⟨error, refused⟩ := (hresizes 0 _ 500 held block).mpr (.inr short)
  refine ⟨counters, ?_, ?_, hrefused _ error refused⟩
  · rw [← hsizes, counters]
  · rw [← husages, counters]
    rfl

end Holdings
end Memory
end Courier
