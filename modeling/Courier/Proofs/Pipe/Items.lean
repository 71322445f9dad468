import Courier.Proofs.Pipe.Clients

/-!
What is true of every item that a task has in hand: true of what is plain and of an attempt that
was just prepared, and still true when one of them asks its peer for something.
-/

namespace Courier

open Transfer

namespace Pipe

variable {P : Type} {p p' : Pipe P} {good : Item → Prop}

/-- Something that is true of items whatever becomes of them. -/
structure Item.Lasts (good : Item → Prop) : Prop where
  plain : ∀ x : Item, x.isPlain = true → good x
  prepared : ∀ {e : EventRef} {settings : Transfer.Settings} {now : Nat} {a : Attempt},
    Attempt.prepare e settings now = .ok a → good (.attempt a none)
  asksPiece : ∀ {a : Attempt} {asked : Option (Sent × Request)} {d : Disk} {stage : Stage}
    {next : Sent × Request}, good (.attempt a asked) → a.next d stage = .ok next →
      good (.attempt a (some next))
  asksTablets : ∀ (events : List EventRef) (payload : Bytes) (t : TabletBatch),
    good (.sending events payload (some (.tablets t)))

theorem isPlain_of_stored {x : Item} (hx : x ∈ p.stored) : x.isPlain = true := by
  rcases Multiset.mem_add.mp hx with hx | hx
  · rcases Multiset.mem_add.mp hx with hx | hx <;> obtain ⟨e, _, rfl⟩ := List.mem_map.mp hx <;> rfl
  · obtain ⟨entry, _, rfl⟩ := List.mem_map.mp hx
    rfl

namespace Item.Lasts

variable [Batch.Payload P] {lossy : Prop} {b b' : Books P} (lasts : Lasts good)
include lasts

theorem turn {x y : Multiset Item} (h : Turn lossy b x y) (hx : ∀ i ∈ x, good i) :
    ∀ i ∈ y, good i := by
  have hone {i : Item} (hi : good i) : ∀ j ∈ ({i} : Multiset Item), good j :=
    fun j hj => Multiset.mem_singleton.mp hj ▸ hi
  have hmany (events : List EventRef) (item : EventRef → Item)
      (plain : ∀ e, (item e).isPlain = true) :
      ∀ i ∈ (↑(events.map item) : Multiset Item), good i := by
    intro i hi
    obtain ⟨e, -, rfl⟩ := List.mem_map.mp hi
    exact lasts.plain _ (plain e)
  cases h with
  | mislaid | lapsed | forgotten | skipped | lostFile =>
      exact fun i hi => absurd hi (Multiset.notMem_zero i)
  | acknowledged | abandoned => exact hmany _ .spent fun _ => rfl
  | failedTablets => exact hmany _ .failed fun _ => rfl
  | asksTablets => exact hone (lasts.asksTablets ..)
  | asksPiece due => exact hone (lasts.asksPiece (hx _ (Multiset.mem_singleton_self _)) due)
  | resumedFile prepared => exact hone (lasts.prepared prepared)
  | _ => exact hone (lasts.plain _ rfl)

theorem move (h : Move lossy b b') (hb : ∀ x ∈ b.items, good x) : ∀ x ∈ b'.items, good x := by
  have hrest {x : Item} {rest : Multiset Item} (here : b.items = x ::ₘ rest) :
      ∀ i ∈ rest, good i := fun i hi => hb i (here ▸ Multiset.mem_cons_of_mem hi)
  cases h with
  | noted | retuned | tried | spawned | retired => exact hb
  | dropped here | cleared here | kept here => exact hrest here
  | held | emitted => exact Multiset.forall_mem_cons.mpr ⟨lasts.plain _ rfl, hb⟩
  | takenOn _ _ prepared => exact Multiset.forall_mem_cons.mpr ⟨lasts.prepared prepared, hb⟩
  | freed here => exact Multiset.forall_mem_cons.mpr ⟨lasts.plain _ rfl, hrest here⟩
  | turned here turn =>
      intro i hi
      rcases Multiset.mem_add.mp hi with hi | hi
      · exact lasts.turn turn (fun j hj => hb j (here ▸ Multiset.mem_add.mpr (.inl hj))) i hi
      · exact hb i (here ▸ Multiset.mem_add.mpr (.inr hi))

/-- Whatever happens, it stays true of all that tasks have in hand. -/
theorem happens (h : Happening p p') (numbered : (p.books none 0).Numbered)
    (all : ∀ t ∈ p.tasks, ∀ x ∈ t.process.items, good x) :
    ∀ t ∈ p'.tasks, ∀ x ∈ t.process.items, good x := by
  obtain ⟨q, hand, hand', htasks, hnext, hplain, hmoves⟩ := h.proceeds
  have hnumbered : (q.books none hand).Numbered := by
    simpa only [Books.Numbered, books, others_none, htasks, hnext] using numbered
  have hsum (tasks : List Task) (all : ∀ t ∈ tasks, ∀ x ∈ t.process.items, good x) :
      ∀ x ∈ (tasks.map fun t => t.process.items).sum, good x := by
    induction tasks with
    | nil => exact fun x hx => absurd hx (Multiset.notMem_zero x)
    | cons t tasks ih =>
        obtain ⟨hfirst, hrest⟩ := List.forall_mem_cons.mp all
        intro x hx
        exact (Multiset.mem_add.mp hx).elim (hfirst x) (ih hrest x)
  have hbefore : ∀ x ∈ (q.books none hand).items, good x := by
    intro x hx
    rcases Multiset.mem_add.mp hx with hx | hx
    · rcases Multiset.mem_add.mp hx with hx | hx
      · exact lasts.plain x (isPlain_of_stored hx)
      · rw [others_none, htasks] at hx
        exact hsum p.tasks all x hx
    · exact lasts.plain x (hplain x hx)
  have hafter : ∀ x ∈ (p'.books none hand').items, good x :=
    hmoves.keeps hnumbered hbefore lasts.move
  intro t ht x hx
  have hitems := books_add p' none hand' 0
  rw [add_zero] at hitems
  exact hafter x (hitems ▸ Multiset.mem_add.mpr (.inr (mem_items_of_task ht hx)))

end Item.Lasts

end Pipe
end Courier
