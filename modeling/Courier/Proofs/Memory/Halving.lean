import Courier.Proofs.Memory.Accounting
import Mathlib.Logic.Relation

/-!
The budget of the batches is allocated the first time it is asked for. What is granted then is the
first of the configured bytes, their half, their quarter and so on that is not more than what is
left, so the loop ends with the last bit, and more than half of what is left is wasted only if
that much was never asked for. From then on there is a budget, and nothing is allocated for it.
-/

namespace Courier
namespace Memory

/-- Of `wanted` and its halves, the first that is not more than `left`, after some that are. -/
structure FirstFit (wanted left got refusals : Nat) : Prop where
  eq : got = wanted / 2 ^ refusals
  fits : got ≤ left
  refused : ∀ j < refusals, left < wanted / 2 ^ j

namespace FirstFit

variable {wanted left got refusals : Nat}

theorem at_once (fits : wanted ≤ left) : FirstFit wanted left wanted 0 :=
  ⟨(Nat.div_one wanted).symm, fits, nofun⟩

theorem halve (short : left < wanted) (h : FirstFit (wanted / 2) left got refusals) :
    FirstFit wanted left got (refusals + 1) where
  eq := by rw [h.eq, Nat.div_div_eq_div_mul, Nat.pow_succ']
  fits := h.fits
  refused j hj := by
    cases j with
    | zero => rwa [Nat.pow_zero, Nat.div_one]
    | succ j =>
        rw [Nat.pow_succ', ← Nat.div_div_eq_div_mul]
        exact h.refused j (Nat.lt_of_succ_lt_succ hj)

theorem le_wanted (h : FirstFit wanted left got refusals) : got ≤ wanted :=
  h.eq ▸ Nat.div_le_self ..

theorem eq_of_le (h : FirstFit wanted left got refusals) (fits : wanted ≤ left) :
    got = wanted := by
  cases refusals with
  | zero => exact h.eq.trans (Nat.div_one wanted)
  | succ n =>
      have hrefused := h.refused 0 n.succ_pos
      rw [Nat.pow_zero, Nat.div_one] at hrefused
      exact absurd hrefused (Nat.not_lt.mpr fits)

/-- What was refused last is at most one more than twice what is granted. -/
theorem left_le (h : FirstFit wanted left got refusals) (short : left < wanted) :
    left ≤ 2 * got := by
  cases refusals with
  | zero =>
      have hfits := h.fits
      rw [h.eq, Nat.pow_zero, Nat.div_one] at hfits
      exact absurd short (Nat.not_lt.mpr hfits)
  | succ n =>
      have hlast := h.refused n n.lt_succ_self
      have hhalf : got = wanted / 2 ^ n / 2 := by
        rw [h.eq, Nat.pow_succ, Nat.div_div_eq_div_mul]
      omega

theorem nothing (h : FirstFit wanted left got refusals) (none : got = 0) :
    wanted = 0 ∨ left = 0 := by
  rcases Nat.lt_or_ge left wanted with hshort | hfits
  · have hleft := h.left_le hshort
    omega
  · exact .inl (h.eq_of_le hfits ▸ none)

/-- Every refusal takes a bit off. -/
theorem refusals_le (h : FirstFit wanted left got refusals) {bits : Nat}
    (hbits : wanted < 2 ^ bits) : refusals ≤ bits := by
  refine Nat.le_of_not_lt fun hmore => ?_
  have hrefused := h.refused bits hmore
  rw [Nat.div_eq_of_lt hbits] at hrefused
  exact Nat.not_lt_zero left hrefused

end FirstFit

namespace Manager

/-- The manager with some bytes more for the batches. -/
def grantBatches (m : Manager) (bytes : Nat) : Manager :=
  { m with
    allocated := m.allocated + bytes
    batch := { m.batch with allocated := m.batch.allocated + bytes } }

theorem allocate_of_fits {m : Manager} {bytes : Nat} (some : bytes ≠ 0)
    (fits : bytes ≤ m.available) :
    m.allocate .batch bytes = .ok (m.grantBatches bytes, { pool := .batch, size := bytes }) := by
  have hleft : m.allocated + bytes ≤ m.total := by
    rw [available] at fits
    omega
  rw [allocate, reserve, if_neg some, if_pos hleft]
  rfl

theorem allocate_of_short {m : Manager} {bytes : Nat} (short : m.available < bytes) :
    m.allocate .batch bytes = .error (.insufficient .batch bytes m.available) := by
  have hsome : bytes ≠ 0 := Nat.ne_of_gt (Nat.zero_lt_of_lt short)
  have hshort : ¬m.allocated + bytes ≤ m.total := by
    rw [available] at short
    omega
  rw [allocate, reserve, if_neg hsome, if_neg hshort]
  rfl

end Manager

namespace Context

/-- What is granted in the end is all that the manager remembers of the candidates. -/
theorem allocateHalving_eq (m : Manager) (candidate : Nat) :
    ∃ got refusals, FirstFit candidate m.available got refusals ∧
      allocateHalving m candidate =
        (m.grantBatches got, { pool := .batch, size := got }) := by
  induction candidate using allocateHalving.induct m with
  | case1 =>
      refine ⟨0, 0, .at_once (Nat.zero_le _), ?_⟩
      rw [allocateHalving, if_pos rfl]
      rfl
  | case2 candidate hsome granted hgranted =>
      rcases Nat.lt_or_ge m.available candidate with hshort | hfits
      · rw [Manager.allocate_of_short hshort] at hgranted
        cases hgranted
      · refine ⟨candidate, 0, .at_once hfits, ?_⟩
        rw [allocateHalving, if_neg hsome, Manager.allocate_of_fits hsome hfits]
  | case3 candidate hsome error hrefused ih =>
      rcases Nat.lt_or_ge m.available candidate with hshort | hfits
      · obtain ⟨got, refusals, hfirst, hgranted⟩ := ih
        refine ⟨got, refusals + 1, hfirst.halve hshort, ?_⟩
        rw [allocateHalving, if_neg hsome, hrefused]
        exact hgranted
      · rw [Manager.allocate_of_fits hsome hfits] at hrefused
        cases hrefused

/-- The block that the slices share, if there is one yet. -/
def budgetBlock? (c : Context) : Option Block := c.budget.map Budget.block

variable {c : Context} {b : Block}

theorem withBudget_of_budgetBlock (h : c.budgetBlock? = some b) : c.withBudget = c := by
  obtain ⟨budget, hbudget, -⟩ := Option.map_eq_some_iff.mp h
  rw [withBudget, hbudget]

theorem budgetBlock_onBlock (h : c.budgetBlock? = some b) (id : Nat)
    (f : Manager → Block → Manager × Block) : (c.onBlock id f).budgetBlock? = some b := by
  unfold onBlock
  split <;> exact h

theorem budgetBlock_onBudget (h : c.budgetBlock? = some b) {f : Budget → Budget}
    (keeps : ∀ b : Budget, (f b).block = b.block) : (c.onBudget f).budgetBlock? = some b := by
  obtain ⟨budget, hbudget, rfl⟩ := Option.map_eq_some_iff.mp h
  rw [budgetBlock?, onBudget, hbudget, Option.map_some, Option.map_some, keeps]

theorem budgetBlock_allocate {c' : Context} (h : c.budgetBlock? = some b) {p : Pool} {bytes : Nat}
    (granted : c.allocate p bytes = .ok c') : c'.budgetBlock? = some b := by
  obtain ⟨_, _, -, rfl⟩ := of_allocate granted
  exact h

theorem budgetBlock_resize {c' : Context} (h : c.budgetBlock? = some b) {id size : Nat}
    (granted : c.resize id size = .ok c') : c'.budgetBlock? = some b := by
  rcases of_resize granted with rfl | ⟨_, _, _, -, -, rfl⟩ <;> exact h

theorem budgetBlock_allocateQueue (h : c.budgetBlock? = some b) :
    c.allocateQueue.budgetBlock? = some b := by
  unfold allocateQueue
  split
  · rename_i hgranted
    exact budgetBlock_allocate h hgranted
  · exact h

end Context

namespace Holdings

variable {h h' : Holdings} {b : Block}

/-- What happens in the memory of a process: what its holders do, and anything that others do who
share its manager. -/
inductive Passes : Holdings → Holdings → Prop
  | perform {h : Holdings} (o : Operation) : Passes h (h.perform o).1
  | elsewhere {h : Holdings} (m : Manager) :
      Passes h { h with context := { h.context with manager := m } }

theorem budgetBlock_perform (hb : h.context.budgetBlock? = some b) (o : Operation) :
    (h.perform o).1.context.budgetBlock? = some b := by
  have hopen : h.context.withBudget.budgetBlock? = some b := by
    rw [Context.withBudget_of_budgetBlock hb]
    exact hb
  let P (c : Context) : Prop := c.budgetBlock? = some b
  cases o with
  | allocate p bytes =>
      exact kept_grant (P := P) _ hb fun _ granted => Context.budgetBlock_allocate hb granted
  | allocateEmpty p => exact hb
  | allocateQueue => exact Context.budgetBlock_allocateQueue hb
  | resize id size =>
      exact kept_if_held (P := P) hb
        (kept_grant (P := P) _ hb fun _ granted => Context.budgetBlock_resize hb granted)
  | addUsage id | reduceUsage id | close id | letGo id =>
      exact kept_if_held (P := P) hb (Context.budgetBlock_onBlock hb id _)
  | openBudget => exact hopen
  | register bytes => exact Context.budgetBlock_onBudget hopen fun b => b.block_register bytes
  | rebalance => exact Context.budgetBlock_onBudget hopen Budget.block_rebalance
  | addSliceUsage id | reduceSliceUsage id | resetSliceUsage id =>
      exact kept_if_held (P := P) hb
        (Context.budgetBlock_onBudget hb fun b => b.block_update id _)
  | sample id ratio =>
      exact kept_if_held (P := P) hb
        (Context.budgetBlock_onBudget hb fun b => b.block_sample id ratio)
  | closeSlice id | letGoSlice id =>
      exact kept_if_held (P := P) hb (Context.budgetBlock_onBudget hb fun b => b.block_close id)

theorem Passes.budgetBlock (passes : Passes h h') (hb : h.context.budgetBlock? = some b) :
    h'.context.budgetBlock? = some b := by
  cases passes with
  | perform o => exact budgetBlock_perform hb o
  | elsewhere m => exact hb

theorem budgetBlock_of_reach (reach : Relation.ReflTransGen Passes h h')
    (hb : h.context.budgetBlock? = some b) : h'.context.budgetBlock? = some b := by
  induction reach with
  | refl => exact hb
  | tail _ passes ih => exact passes.budgetBlock ih

theorem perform_openBudget_again (hb : h.context.budgetBlock? = some b) :
    h.perform .openBudget = (h, .count b.size) := by
  obtain ⟨budget, hbudget, rfl⟩ := Option.map_eq_some_iff.mp hb
  simp only [perform, Context.withBudget_of_budgetBlock hb, hbudget, Budget.capacity]

/-- Whatever was granted before, the first who asks for the budget of the batches gets the first of
the configured bytes and their halves that is not more than what is left, which may be nothing.
That is all of them if they fit, else at least half of what is left, and nothing only if nothing
was configured or nothing is left. The batches are counted that much more, and nothing else
changes. Whatever happens then, who asks again gets the same budget, and nothing changes at all. -/
theorem openBudget_grants_first_fit (h : Holdings) (first : h.context.budget = none) :
    let m := h.context.manager
    let b := h.context.batchBudgetBytes
    ∃ c k : Nat, c = b / 2 ^ k ∧ c ≤ m.available ∧ (∀ j < k, m.available < b / 2 ^ j) ∧
      (∀ bits, b < 2 ^ bits → k ≤ bits) ∧
      c ≤ min b m.available ∧ (b ≤ m.available → c = b) ∧
      (m.available < b → m.available ≤ 2 * c) ∧ (c = 0 → b = 0 ∨ m.available = 0) ∧
      h.perform .openBudget =
        ({ h with context := { h.context with
            manager := { m with
              allocated := m.allocated + c
              batch := { m.batch with allocated := m.batch.allocated + c } }
            budget := some { block := { pool := .batch, size := c } } } }, .count c) ∧
      ∀ later, Relation.ReflTransGen Passes (h.perform .openBudget).1 later →
        later.perform .openBudget = (later, .count c) ∧
          ∃ slices, later.context.budget =
            some { block := { pool := .batch, size := c }, slices } := by
  intro m b
  obtain ⟨c, k, hfirst, hgranted⟩ := Context.allocateHalving_eq m b
  have hopened : h.context.withBudget = { h.context with
      manager := m.grantBatches c
      budget := some { block := { pool := .batch, size := c } } } := by
    rw [Context.withBudget, first]
    simp only [m, b] at hgranted
    simp only [hgranted, m]
  have hperform : h.perform .openBudget =
      ({ h with context := h.context.withBudget }, .count c) := by
    simp only [perform, hopened, Budget.capacity]
  refine ⟨c, k, hfirst.eq, hfirst.fits, hfirst.refused, fun bits => hfirst.refusals_le,
    Nat.le_min.mpr ⟨hfirst.le_wanted, hfirst.fits⟩, hfirst.eq_of_le, hfirst.left_le,
    hfirst.nothing, ?_, fun later reach => ?_⟩
  · rw [hperform, hopened]
    rfl
  · have hblock : later.context.budgetBlock? = some { pool := .batch, size := c } := by
      refine budgetBlock_of_reach reach ?_
      rw [hperform, hopened]
      rfl
    refine ⟨perform_openBudget_again hblock, ?_⟩
    obtain ⟨⟨block, slices⟩, hbudget, rfl⟩ := Option.map_eq_some_iff.mp hblock
    exact ⟨slices, hbudget⟩

/-- A queue has some bytes already, so that the configured bytes and their half are refused. Then
the queue gives its bytes back, and somebody else takes all that is left. -/
theorem openBudget_grants_first_fit_beside_queue :
    let settings : Settings :=
      { totalBytes := 3000, batchBudgetBytes := 10000, queueBudgetBytes := 300 }
    let h := after { context := .ofSettings settings } [.allocateQueue]
    let opened := (h.perform .openBudget).1
    let later := (opened.perform (.close 0)).1
    let taken : Holdings := { later with context := { later.context with
      manager := { later.context.manager with allocated := 3000 } } }
    (h.perform .openBudget).2 = .count 2500 ∧
      opened.context.manager =
        { total := 3000, allocated := 2800, batch := ⟨2500, 0⟩, queue := ⟨300, 0⟩ } ∧
      taken.perform .openBudget = (taken, .count 2500) := by
  intro settings h opened later taken
  obtain ⟨c, -, -, -, -, -, -, -, -, -, hperform, hagain⟩ :=
    openBudget_grants_first_fit h (by rfl)
  have hmanager : opened.context.manager =
      { total := 3000, allocated := 2800, batch := ⟨2500, 0⟩, queue := ⟨300, 0⟩ } := by
    decide +kernel
  have hc : 300 + c = 2800 := by
    have hallocated := congrArg Manager.allocated hmanager
    simp only [opened, hperform] at hallocated
    exact hallocated
  obtain rfl : c = 2500 := by omega
  refine ⟨congrArg Prod.snd hperform, hmanager, ?_⟩
  exact (hagain taken ((Relation.ReflTransGen.single (.perform (.close 0))).tail
    (.elsewhere _))).1

end Holdings
end Memory
end Courier
