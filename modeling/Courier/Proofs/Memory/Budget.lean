import Courier.Proofs.Memory.Holdings
import Mathlib.Algebra.GroupWithZero.Nat

/-!
The batch budget stays greedily shared. Grants are only recomputed when a slice registers, closes or
crosses the line between emission by size and by time; nothing else can move a target, so at every
moment each open slice has its target or what the slices registered before it left over.
-/

namespace Courier
namespace Memory

namespace Slice

theorem isOnTime_iff {efficiency : Option Float} :
    isOnTime efficiency = true ↔ ∃ x, efficiency = some x ∧ 1.0 ≤ x := by
  cases efficiency with
  | none => simp [isOnTime]
  | some x =>
      constructor
      · intro h
        exact ⟨x, rfl, of_decide_eq_true h⟩
      · rintro ⟨_, hx, h⟩
        obtain rfl := Option.some.inj hx
        exact decide_eq_true h

theorem target_of_onTime {s : Slice} {x : Float} (measured : s.efficiency = some x)
    (late : 1.0 ≤ x) : s.target = min s.requested (max (s.requested / 4) (64 * 1024)) := by
  rw [target, if_pos (isOnTime_iff.mpr ⟨x, measured, late⟩), Nat.min_comm, smallestCut]

theorem target_of_onSize {s : Slice} (h : ∀ x, s.efficiency = some x → ¬ 1.0 ≤ x) :
    s.target = s.requested := by
  refine if_neg fun honTime => ?_
  obtain ⟨x, hmeasured, hlate⟩ := isOnTime_iff.mp honTime
  exact h x hmeasured hlate

/-- The two slices have the same share of the same bytes. -/
structure Alike (s t : Slice) : Prop where
  closed : t.closed = s.closed
  granted : t.granted = s.granted
  target : t.target = s.target

end Slice

namespace Budget

theorem serve_gone {s : Slice} (closed : s.closed = true) (bytes : Nat) (rest : List Slice) :
    serve bytes (s :: rest) = s :: serve bytes rest := by
  rw [serve, if_pos closed]

theorem serve_held {s : Slice} (opened : s.closed = false) (bytes : Nat) (rest : List Slice) :
    serve bytes (s :: rest) =
      { s with granted := min s.target bytes } :: serve (bytes - min s.target bytes) rest := by
  rw [serve, if_neg (by simp [opened])]

end Budget

/-- Slices in the order of registration that share a number of bytes greedily: an open slice has its
target or, if that is less, what is left. -/
inductive Served : Nat → List Slice → Prop
  | nil (bytes : Nat) : Served bytes []
  | gone {bytes : Nat} {s : Slice} {rest : List Slice} (closed : s.closed = true)
      (nothing : s.granted = 0) (others : Served bytes rest) : Served bytes (s :: rest)
  | held {bytes : Nat} {s : Slice} {rest : List Slice} (opened : s.closed = false)
      (share : s.granted = min s.target bytes) (others : Served (bytes - s.granted) rest) :
      Served bytes (s :: rest)

namespace Served

variable {bytes : Nat} {slices : List Slice}

/-- Serving makes it so, whatever the grants were before. -/
theorem of_serve (idle : ∀ s ∈ slices, s.closed = true → s.granted = 0) (bytes : Nat) :
    Served bytes (Budget.serve bytes slices) := by
  induction slices generalizing bytes with
  | nil => exact .nil bytes
  | cons s rest ih =>
      have hrest := ih fun t ht => idle t (List.mem_cons_of_mem s ht)
      cases hclosed : s.closed with
      | true =>
          rw [Budget.serve_gone hclosed]
          exact gone hclosed (idle s List.mem_cons_self hclosed) (hrest bytes)
      | false =>
          rw [Budget.serve_held hclosed]
          exact held hclosed rfl (hrest (bytes - min s.target bytes))

theorem serve_eq (h : Served bytes slices) : Budget.serve bytes slices = slices := by
  induction h with
  | nil bytes => rfl
  | gone hclosed _ _ ih => rw [Budget.serve_gone hclosed, ih]
  | held hopened hshare _ ih => rw [Budget.serve_held hopened, ← hshare, ih]

theorem idle (h : Served bytes slices) {s : Slice} (hs : s ∈ slices) (closed : s.closed = true) :
    s.granted = 0 := by
  induction h with
  | nil => cases hs
  | gone _ hnothing _ ih =>
      cases hs with
      | head => exact hnothing
      | tail _ hs => exact ih hs
  | held hopened _ _ ih =>
      cases hs with
      | head => simp [hopened] at closed
      | tail _ hs => exact ih hs

/-- A change to one slice that leaves its share alone leaves all shares alone. -/
theorem modify (h : Served bytes slices) {id : Nat} {f : Slice → Slice}
    (alike : ∀ s, slices[id]? = some s → s.Alike (f s)) : Served bytes (slices.modify id f) := by
  induction h generalizing id with
  | nil bytes => simpa using nil bytes
  | gone hclosed hnothing hothers ih =>
      cases id with
      | zero =>
          obtain ⟨hsame, hgrant, -⟩ := alike _ rfl
          exact gone (hsame.trans hclosed) (hgrant.trans hnothing) hothers
      | succ id => exact gone hclosed hnothing (ih fun s hs => alike s hs)
  | held hopened hshare hothers ih =>
      cases id with
      | zero =>
          obtain ⟨hsame, hgrant, htarget⟩ := alike _ rfl
          refine held (hsame.trans hopened) (by rw [hgrant, htarget, hshare]) ?_
          rw [hgrant]
          exact hothers
      | succ id => exact held hopened hshare (ih fun s hs => alike s hs)

/-- What an open slice has is fixed by its target and the open slices before it. -/
theorem granted_eq (h : Served bytes slices) {before after : List Slice} {s : Slice}
    (split : slices.filter (fun t => !t.closed) = before ++ s :: after) :
    s.granted = min s.target (bytes - (before.map Slice.granted).sum) := by
  induction h generalizing before with
  | nil => simp at split
  | gone hclosed _ _ ih =>
      apply ih
      simpa [hclosed] using split
  | held hopened hshare _ ih =>
      simp only [List.filter_cons, hopened, Bool.not_false, if_true] at split
      cases before with
      | nil =>
          obtain ⟨rfl, -⟩ := List.cons.inj split
          simpa using hshare
      | cons first before =>
          obtain ⟨rfl, hrest⟩ := List.cons.inj split
          simpa [Nat.sub_sub] using ih hrest

theorem sum_le (h : Served bytes slices) :
    ((slices.filter fun t => !t.closed).map Slice.granted).sum ≤ bytes := by
  induction h with
  | nil => simp
  | gone hclosed _ _ ih => simpa [hclosed] using ih
  | held hopened hshare _ ih =>
      simp only [List.filter_cons, hopened, Bool.not_false, if_true, List.map_cons, List.sum_cons]
      omega

/-- Whoever falls short of its target got the last byte. -/
theorem sum_eq_of_short (h : Served bytes slices) {s : Slice} (hs : s ∈ slices)
    (opened : s.closed = false) (short : s.granted < s.target) :
    ((slices.filter fun t => !t.closed).map Slice.granted).sum = bytes := by
  induction h with
  | nil => cases hs
  | gone hclosed _ _ ih =>
      cases hs with
      | head => simp [hclosed] at opened
      | tail _ hs => simpa [hclosed] using ih hs
  | held hopened hshare hothers ih =>
      simp only [List.filter_cons, hopened, Bool.not_false, if_true, List.map_cons, List.sum_cons]
      have hmost := hothers.sum_le
      cases hs with
      | head => omega
      | tail _ hs =>
          have hlast := ih hs
          omega

end Served

namespace Budget

variable {b : Budget}

theorem assigned_eq (b : Budget) : b.assigned = (b.openSlices.map Slice.granted).sum := by
  rw [assigned, List.sum_eq_foldl, List.foldl_map]

/-- The slices share the whole budget greedily. -/
def IsBalanced (b : Budget) : Prop := Served b.capacity b.slices

theorem IsBalanced.rebalance_eq (h : b.IsBalanced) : b.rebalance = b := by
  rw [rebalance, Served.serve_eq h]

theorem isBalanced_rebalance (idle : ∀ s ∈ b.slices, s.closed = true → s.granted = 0) :
    b.rebalance.IsBalanced :=
  Served.of_serve idle b.capacity

theorem IsBalanced.register (h : b.IsBalanced) (requested : Nat) :
    (b.register requested).IsBalanced := by
  apply isBalanced_rebalance
  intro s hs hclosed
  rcases List.mem_append.mp hs with hold | hnew
  · exact Served.idle h hold hclosed
  · rw [List.mem_singleton.mp hnew]

theorem IsBalanced.update (h : b.IsBalanced) {id : Nat} {f : Slice → Slice}
    (alike : ∀ s, b.slice? id = some s → s.Alike (f s)) : (b.update id f).IsBalanced :=
  Served.modify h alike

/-- Reporting usage moves no grant. -/
theorem IsBalanced.use (h : b.IsBalanced) (id : Nat) (usage : Slice → Nat) :
    (b.update id fun s => { s with usage := usage s }).IsBalanced :=
  h.update fun _ _ => ⟨rfl, rfl, rfl⟩

/-- Shares are made anew after a slice changed that has nothing when it is closed. -/
theorem IsBalanced.update_rebalance (h : b.IsBalanced) (id : Nat) {f : Slice → Slice}
    (idle : ∀ s, b.slice? id = some s → (f s).closed = true → (f s).granted = 0) :
    (b.update id f).rebalance.IsBalanced := by
  apply isBalanced_rebalance
  intro t ht hclosed
  obtain ⟨i, hi⟩ := List.mem_iff_getElem?.mp ht
  rw [Budget.update, List.getElem?_modify] at hi
  split at hi
  · rename_i hsame
    subst hsame
    obtain ⟨s, hs, rfl⟩ := Option.map_eq_some_iff.mp hi
    exact idle s hs hclosed
  · obtain ⟨s, hs, rfl⟩ := Option.map_eq_some_iff.mp hi
    exact Served.idle h (List.mem_of_getElem? hs) hclosed

theorem IsBalanced.close (h : b.IsBalanced) (id : Nat) : (b.close id).IsBalanced := by
  rw [Budget.close]
  split
  · exact h
  · split
    · exact h
    · exact h.update_rebalance id fun _ _ _ => rfl

/-- A sample that does not cross the line keeps the target, and one that does makes shares anew. -/
theorem IsBalanced.sample (h : b.IsBalanced) (id : Nat) (ratio : Float) :
    (b.sample id ratio).IsBalanced := by
  rcases b.sample_eq id ratio with hsame | ⟨s, average, hs, hopen, hshared | ⟨hstays, hmoved⟩⟩
  · rwa [hsame]
  · rw [hshared]
    apply h.update_rebalance
    intro t ht hclosed
    obtain rfl := Option.some.inj (hs.symm.trans ht)
    simp [hopen] at hclosed
  · rw [hmoved]
    apply h.update
    intro t ht
    obtain rfl := Option.some.inj (hs.symm.trans ht)
    exact ⟨rfl, rfl, by simp only [Slice.target, hstays]⟩

end Budget

namespace Context

variable {c c' : Context}

/-- The budget, once there is one, is balanced. -/
def IsBalanced (c : Context) : Prop := ∀ b, c.budget = some b → b.IsBalanced

theorem IsBalanced.same (h : c.IsBalanced) (same : c'.budget = c.budget) : c'.IsBalanced :=
  fun b hb => h b (same ▸ hb)

theorem budget_allocate {p : Pool} {bytes : Nat} (granted : c.allocate p bytes = .ok c') :
    c'.budget = c.budget := by
  obtain ⟨m, b, -, rfl⟩ := of_allocate granted
  rfl

theorem budget_allocateQueue (c : Context) : c.allocateQueue.budget = c.budget := by
  rw [allocateQueue]
  split
  · rename_i hgranted
    exact budget_allocate hgranted
  · rfl

theorem budget_onBlock (c : Context) (id : Nat) (f : Manager → Block → Manager × Block) :
    (c.onBlock id f).budget = c.budget := by
  rw [onBlock]
  split <;> rfl

theorem budget_resize {id size : Nat} (granted : c.resize id size = .ok c') :
    c'.budget = c.budget := by
  rcases of_resize granted with rfl | ⟨b, m, b', -, -, rfl⟩ <;> rfl

theorem IsBalanced.withBudget (h : c.IsBalanced) : c.withBudget.IsBalanced := by
  rw [Context.withBudget]
  split
  · exact h
  · intro b hb
    cases hb
    exact Served.nil _

theorem IsBalanced.onBudget (h : c.IsBalanced) {f : Budget → Budget}
    (keeps : ∀ b : Budget, b.IsBalanced → (f b).IsBalanced) : (c.onBudget f).IsBalanced := by
  intro b hb
  obtain ⟨old, hold, rfl⟩ := Option.map_eq_some_iff.mp hb
  exact keeps old (h old hold)

end Context

namespace Holdings

variable {h : Holdings}

theorem isBalanced_perform (hc : h.context.IsBalanced) (o : Operation) :
    (h.perform o).1.context.IsBalanced := by
  cases o with
  | allocate p bytes =>
      exact kept_grant _ hc fun _ granted => hc.same (Context.budget_allocate granted)
  | allocateEmpty p => exact hc.same rfl
  | allocateQueue => exact hc.same (Context.budget_allocateQueue _)
  | addUsage | reduceUsage | close | letGo =>
      exact kept_if_held hc (hc.same (Context.budget_onBlock _ _ _))
  | resize id size =>
      apply kept_if_held hc
      exact kept_grant _ hc fun _ granted => hc.same (Context.budget_resize granted)
  | openBudget => exact hc.withBudget
  | register bytes => exact hc.withBudget.onBudget fun b hb => hb.register bytes
  | rebalance => exact hc.withBudget.onBudget fun b hb => by rwa [hb.rebalance_eq]
  | addSliceUsage id | reduceSliceUsage id | resetSliceUsage id =>
      exact kept_if_held hc (hc.onBudget fun b hb => hb.use id _)
  | sample id ratio => exact kept_if_held hc (hc.onBudget fun b hb => hb.sample id ratio)
  | closeSlice id | letGoSlice id => exact kept_if_held hc (hc.onBudget fun b hb => hb.close id)

theorem isBalanced_after (hc : h.context.IsBalanced) (ops : List Operation) :
    (h.after ops).context.IsBalanced := by
  induction ops generalizing h with
  | nil => exact hc
  | cons o ops ih => exact ih (isBalanced_perform hc o)

/-- After every history the batch budget is shared greedily. Each open slice has its target, what it
asked for or less while its batch is emitted by time, or else what the open slices before it left
over. So nobody goes short while bytes are free, and sharing anew changes nothing. -/
theorem slices_served_in_order (settings : Settings) (ops : List Operation) (b : Budget)
    (opened : (after { context := .ofSettings settings } ops).context.budget = some b) :
    (∀ before s later, b.openSlices = before ++ s :: later →
        s.granted = min s.target (b.capacity - (before.map Slice.granted).sum)) ∧
      (∀ s ∈ b.openSlices,
        (∀ x, s.efficiency = some x → 1.0 ≤ x →
          s.target = min s.requested (max (s.requested / 4) (64 * 1024))) ∧
        ((∀ x, s.efficiency = some x → ¬ 1.0 ≤ x) → s.target = s.requested)) ∧
      b.assigned ≤ b.capacity ∧
      (∀ s ∈ b.openSlices, s.granted < s.target → b.assigned = b.capacity) ∧
      (∀ s ∈ b.slices, s.closed = true → s.granted = 0) ∧
      ((after { context := .ofSettings settings } ops).perform .rebalance).1 =
        after { context := .ofSettings settings } ops := by
  have hstart : Context.IsBalanced (.ofSettings settings) := nofun
  have hbalanced : b.IsBalanced :=
    isBalanced_after (h := { context := .ofSettings settings }) hstart ops b opened
  generalize after { context := .ofSettings settings } ops = h at opened
  refine ⟨fun before s later split => Served.granted_eq hbalanced split, ?_, ?_, ?_,
    fun s hs => Served.idle hbalanced hs, ?_⟩
  · intro s _
    exact ⟨fun x => Slice.target_of_onTime, Slice.target_of_onSize⟩
  · rw [Budget.assigned_eq]
    exact Served.sum_le hbalanced
  · intro s hs hshort
    rw [Budget.openSlices, List.mem_filter, Bool.not_eq_true'] at hs
    rw [Budget.assigned_eq]
    exact Served.sum_eq_of_short hbalanced hs.1 hs.2 hshort
  · obtain ⟨⟨manager, batchBytes, queueBytes, blocks, budget⟩, blocksGone, slicesGone⟩ := h
    obtain rfl : budget = some b := opened
    simp only [perform, Context.withBudget, Context.onBudget, Option.map_some,
      hbalanced.rebalance_eq]

/-- A slice in the middle is let go, the first is emitted by time, the last one gets the rest. -/
theorem slices_served_in_order_of_four :
    let settings : Settings := { totalBytes := 400000, batchBudgetBytes := 600000 }
    let ops : List Operation := [.register 200000, .register 50000, .register 150000,
      .sample 0 2.0, .sample 2 (0.0 / 0.0), .sample 2 (-3.0), .sample 0 (1.0 / 0.0), .sample 0 0.5,
      .addSliceUsage 0 70000, .letGoSlice 1, .register 100000, .rebalance]
    ∃ b, (after { context := .ofSettings settings } ops).context.budget = some b ∧
      b.openSlices.map Slice.granted = [65536, 150000, 84464] ∧
      b.openSlices.map Slice.target = [65536, 150000, 100000] ∧ b.assigned ≤ b.capacity ∧
      ∀ s ∈ b.openSlices, s.granted < s.target → b.assigned = b.capacity := by
  intro settings ops
  have grants : (after { context := .ofSettings settings } ops).context.budget.map
      (fun b => (b.openSlices.map Slice.granted, b.openSlices.map Slice.target)) =
        some ([65536, 150000, 84464], [65536, 150000, 100000]) := by
    decide +kernel
  obtain ⟨b, hopened, hgrants⟩ := Option.map_eq_some_iff.mp grants
  obtain ⟨hgranted, htargets⟩ := Prod.mk.inj hgrants
  obtain ⟨-, -, hmost, hshort, -⟩ := slices_served_in_order settings ops b hopened
  exact ⟨b, hopened, hgranted, htargets, hmost, hshort⟩

end Holdings
end Memory
end Courier
