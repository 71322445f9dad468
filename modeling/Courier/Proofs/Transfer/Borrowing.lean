import Courier.Transfer.ClientPool
import Mathlib.Data.List.Perm.Basic

/-!
Any number of borrowers at one pool of clients. Every single step of one may be followed by a step
of anybody else: between taking a place among those who wait and trying to take a client, between
having one and giving up the place, between bringing a client back and telling somebody. Who is told
may find that another was faster.

Where nobody comes in between, the steps are those of the pool as it is run: to ask, and to give
back, is done as a whole.
-/

namespace Courier
namespace Transfer

namespace ClientPool

/-- Takes a place among those who wait, or uses up a permit instead. -/
def enter (p : ClientPool) (t : Ticket) : ClientPool × Bool :=
  if p.permit then ({ p with permit := false }, false)
  else ({ p with waiting := p.waiting ++ [t] }, true)

/-- Who was told goes on, and no longer has a place. -/
def heed (p : ClientPool) (t : Ticket) : ClientPool := { p with woken := p.woken.erase t }

/-- All who have a place, whether they were told or not. -/
def places (p : ClientPool) : List Ticket := p.waiting ++ p.woken

end ClientPool

/-- How far somebody has come who wants a client and waits until there is one. -/
inductive Borrower
  | arriving
  /-- About to take a client, with a place among those who wait or a permit instead. -/
  | trying (placed : Bool)
  /-- It has a client, and still a place. -/
  | leaving
  | waiting
  /-- It was served or gave up. -/
  | gone
  deriving DecidableEq, Repr

namespace Borrower

/-- How many places it has. -/
def places : Borrower → Nat
  | .trying placed => if placed then 1 else 0
  | .leaving | .waiting => 1
  | .arriving | .gone => 0

/-- It looks for a client before it waits. -/
def isBusy : Borrower → Bool
  | .arriving | .trying _ => true
  | .leaving | .waiting | .gone => false

end Borrower

/-- A pool of clients, those who want one, and the guards of those that are lent. The ticket of a
borrower is its place in the list. -/
structure Desk where
  pool : ClientPool
  borrowers : List Borrower := []
  guards : List ClientId := []
  /-- Clients that were brought back, of which nobody was told yet. -/
  unannounced : Nat := 0
  deriving DecidableEq, Repr

/-- Something that may happen next. -/
inductive Desk.Move
  | acquire
  | go (t : Ticket)
  | giveUp (t : Ticket)
  | tryAcquire
  /-- The guard with this number is dropped. -/
  | drop (k : Nat)
  | announce
  deriving DecidableEq, Repr

namespace Desk

def ofClients (clients : List ClientId) : Desk := { pool := .ofClients clients }

def set (d : Desk) (t : Ticket) (b : Borrower) : Desk := { d with borrowers := d.borrowers.set t b }

/-- Takes a client, if one is free. -/
def take (d : Desk) : Desk × Bool :=
  match d.pool.take? with
  | (pool, some c) => ({ d with pool, guards := d.guards ++ [c] }, true)
  | (pool, none) => ({ d with pool }, false)

/-- The next step of a borrower. Who waits goes on when it was told. -/
def go (d : Desk) (t : Ticket) : Desk :=
  match d.borrowers[t]? with
  | some .arriving =>
      let (pool, placed) := d.pool.enter t
      { d with pool }.set t (.trying placed)
  | some (.trying placed) =>
      match d.take with
      | (d, true) => d.set t (if placed then .leaving else .gone)
      | (d, false) => d.set t (if placed then .waiting else .arriving)
  | some .leaving => { d with pool := d.pool.abandon t }.set t .gone
  | some .waiting =>
      if d.pool.isWoken t then { d with pool := d.pool.heed t }.set t .arriving else d
  | some .gone | none => d

/-- A borrower that waits goes away. -/
def giveUp (d : Desk) (t : Ticket) : Desk :=
  match d.borrowers[t]? with
  | some .waiting => { d with pool := d.pool.abandon t }.set t .gone
  | _ => d

/-- A guard brings its client back. Without room for it, the client is lost. -/
def drop (d : Desk) (k : Nat) : Desk :=
  match d.guards[k]? with
  | none => d
  | some c =>
      match d.pool.put? c with
      | some pool =>
          { d with pool, guards := d.guards.eraseIdx k, unannounced := d.unannounced + 1 }
      | none => { d with guards := d.guards.eraseIdx k }

def announce (d : Desk) : Desk :=
  if d.unannounced = 0 then d
  else { d with pool := d.pool.wakeOne, unannounced := d.unannounced - 1 }

def make (d : Desk) : Move → Desk
  | .acquire => { d with borrowers := d.borrowers ++ [.arriving] }
  | .go t => d.go t
  | .giveUp t => d.giveUp t
  | .tryAcquire => d.take.1
  | .drop k => d.drop k
  | .announce => d.announce

/-- Any moves, in any order. -/
def after (d : Desk) (moves : List Move) : Desk := moves.foldl make d

/-- Nobody has anything to do but to wait. -/
structure IsQuiet (d : Desk) : Prop where
  announced : d.unannounced = 0
  rests : ∀ t b, d.borrowers[t]? = some b → b = .gone ∨ b = .waiting ∧ d.pool.isWoken t = false

/-- How many places a borrower has, if there is one with this ticket. -/
def placesOf (d : Desk) (t : Ticket) : Nat := (d.borrowers[t]?.map Borrower.places).getD 0

/-- How many will look for a client without having to be told once more. -/
def alert (d : Desk) : Nat :=
  d.pool.woken.length + d.unannounced + d.borrowers.countP Borrower.isBusy

/-- What holds whatever happens. Every client is free or lent. A borrower has a place if it says so,
and one at most. No permit is kept from those who wait. When somebody waits and was not told, for
every free client somebody is about to look. -/
structure Sound (clients : List ClientId) (d : Desk) : Prop where
  lent : (d.pool.free ++ d.guards).Perm clients
  size : d.pool.size = clients.length
  placed : ∀ t, d.pool.places.count t = d.placesOf t
  permit : d.pool.permit = true → d.pool.waiting = []
  enough : ∀ t ∈ d.pool.waiting, d.borrowers[t]? = some .waiting → d.pool.free.length ≤ d.alert

end Desk

/-! ### The pool -/

namespace ClientPool

variable {p p' : ClientPool} {t : Ticket} {c : ClientId}

/-- Nothing is lent or brought back. -/
structure Settled (p p' : ClientPool) : Prop where
  free : p'.free = p.free
  size : p'.size = p.size

/-- Who asks gives up its place, if it was told, and has a client or another place. -/
theorem ask_cases (p : ClientPool) (t : Ticket) :
    (∃ c rest, p.free = c :: rest ∧
      p.ask t = ({ p.heed t with permit := false, free := rest }, some c)) ∨
    p.free = [] ∧
      p.ask t = ({ p.heed t with permit := false, waiting := p.waiting ++ [t] }, none) := by
  cases hfree : p.free with
  | nil => exact .inr ⟨rfl, by simp [ask, heed, hfree]⟩
  | cons c rest => exact .inl ⟨c, rest, rfl, by simp [ask, heed, hfree]⟩

theorem put?_of_room (room : p.free.length < p.size) :
    p.put? c = some { p with free := p.free ++ [c] } := by
  rw [put?, if_pos (Nat.lt_of_lt_of_le room (Nat.le_max_left ..))]

theorem settled_wakeOne (p : ClientPool) : p.Settled p.wakeOne := by
  unfold wakeOne
  split <;> exact ⟨rfl, rfl⟩

theorem settled_abandon (p : ClientPool) (t : Ticket) : p.Settled (p.abandon t) := by
  unfold abandon
  split
  · exact ⟨(settled_wakeOne _).free, (settled_wakeOne _).size⟩
  · exact ⟨rfl, rfl⟩

theorem settled_enter (p : ClientPool) (t : Ticket) : p.Settled (p.enter t).1 := by
  unfold enter
  split <;> exact ⟨rfl, rfl⟩

/-- Who is told keeps its place. -/
theorem places_wakeOne (p : ClientPool) : p.wakeOne.places.Perm p.places := by
  unfold wakeOne places
  split
  · rename_i t rest hwaiting
    rw [hwaiting]
    exact (List.append_assoc ..).symm ▸ List.perm_append_singleton t (rest ++ p.woken)
  · exact .refl _

theorem places_heed (woken : t ∈ p.woken) : p.places.Perm (t :: (p.heed t).places) :=
  ((List.perm_cons_erase woken).append_left p.waiting).trans List.perm_middle

theorem places_abandon (placed : t ∈ p.places) : p.places.Perm (t :: (p.abandon t).places) := by
  unfold abandon
  split
  · rename_i hwoken
    have htold : t ∈ p.woken := by simpa using hwoken
    exact (places_heed htold).trans ((places_wakeOne (p.heed t)).symm.cons t)
  · rename_i hwoken
    have hwaiting : t ∈ p.waiting :=
      (List.mem_append.mp placed).resolve_right fun htold => hwoken (by simpa using htold)
    exact (List.perm_cons_erase hwaiting).append_right p.woken

theorem places_enter (p : ClientPool) (t : Ticket) :
    (p.enter t).1.places.Perm (List.replicate (if (p.enter t).2 then 1 else 0) t ++ p.places) := by
  unfold enter places
  split
  · exact .refl _
  · exact (List.append_assoc ..).symm ▸ List.perm_middle

theorem waiting_wakeOne_subset (p : ClientPool) : p.wakeOne.waiting ⊆ p.waiting := by
  unfold wakeOne
  split
  · rename_i hwaiting
    exact hwaiting ▸ List.subset_cons_self _ _
  · exact List.Subset.refl _

theorem waiting_abandon_subset (p : ClientPool) (t : Ticket) :
    (p.abandon t).waiting ⊆ p.waiting := by
  unfold abandon
  split
  · exact waiting_wakeOne_subset _
  · exact List.erase_subset

/-- One more is told, or nobody waits. -/
theorem woken_wakeOne (p : ClientPool) (others : p.wakeOne.waiting ≠ []) :
    p.wakeOne.woken.length = p.woken.length + 1 := by
  cases hwaiting : p.waiting with
  | nil =>
      rw [wakeOne, hwaiting] at others
      exact absurd rfl others
  | cons t rest =>
      rw [wakeOne, hwaiting]
      exact List.length_append

/-- Who goes away leaves it to another that it was told, if another waits. -/
theorem woken_abandon (p : ClientPool) (t : Ticket) (others : (p.abandon t).waiting ≠ []) :
    p.woken.length ≤ (p.abandon t).woken.length := by
  unfold abandon at others ⊢
  split
  · rename_i hwoken
    rw [if_pos hwoken] at others
    have htold : t ∈ p.woken := by simpa using hwoken
    have hmore := woken_wakeOne { p with woken := p.woken.erase t } others
    rw [List.length_erase_of_mem htold] at hmore
    omega
  · exact Nat.le_refl _

/-- What comes back is put among the free clients, and one more is told if one waits. -/
theorem giveBack_of_room (p : ClientPool) (c : ClientId) (room : p.free.length < p.size)
    (enough : p.waiting ≠ [] → p.free.length ≤ p.woken.length) :
    (p.giveBack c).size = p.size ∧ (p.giveBack c).free = p.free ++ [c] ∧
      (p.giveBack c).places.Perm p.places ∧
      ((p.giveBack c).waiting ≠ [] →
        (p.giveBack c).free.length ≤ (p.giveBack c).woken.length) := by
  obtain ⟨put, hput⟩ : ∃ put : ClientPool, put = { p with free := p.free ++ [c] } := ⟨_, rfl⟩
  have hgiveBack : p.giveBack c = put.wakeOne := by rw [giveBack, put?_of_room room, hput]
  have hwaiting : put.waiting = p.waiting := by rw [hput]
  have hwoken : put.woken = p.woken := by rw [hput]
  have hfree : put.free = p.free ++ [c] := by rw [hput]
  obtain ⟨hsame, hsize⟩ := put.settled_wakeOne
  rw [hgiveBack]
  refine ⟨hsize.trans (by rw [hput]), hsame.trans hfree, ?_, fun hwaits => ?_⟩
  · exact put.places_wakeOne.trans (.of_eq (by rw [places, hwaiting, hwoken]; rfl))
  · have hbefore : p.waiting ≠ [] := fun hnone => by
      have hsubset := put.waiting_wakeOne_subset
      rw [hwaiting, hnone] at hsubset
      exact hwaits (List.subset_nil.mp hsubset)
    rw [hsame, hfree, put.woken_wakeOne hwaits, hwoken, List.length_append]
    exact Nat.succ_le_succ (enough hbefore)

theorem permit_wakeOne (h : p.permit = true → p.waiting = []) :
    p.wakeOne.permit = true → p.wakeOne.waiting = [] := by
  unfold wakeOne
  split
  · rename_i hwaiting
    intro hpermit
    rw [h hpermit] at hwaiting
    cases hwaiting
  · rename_i hwaiting
    exact fun _ => hwaiting

theorem permit_abandon (t : Ticket) (h : p.permit = true → p.waiting = []) :
    (p.abandon t).permit = true → (p.abandon t).waiting = [] := by
  unfold abandon
  split
  · exact permit_wakeOne h
  · intro hpermit
    show p.waiting.erase t = []
    rw [h hpermit]
    rfl

end ClientPool

/-! ### One move -/

namespace Desk

variable {clients : List ClientId} {d d' : Desk} {t : Ticket} {b b' : Borrower}

theorem getElem?_set (found : d.borrowers[t]? = some b) (b' : Borrower) (u : Ticket) :
    (d.set t b').borrowers[u]? = if t = u then some b' else d.borrowers[u]? := by
  obtain ⟨hlt, _⟩ := List.getElem?_eq_some_iff.mp found
  simp only [set, List.getElem?_set, hlt, if_true]

theorem placesOf_eq (found : d.borrowers[t]? = some b) : d.placesOf t = b.places := by
  rw [placesOf, found]
  rfl

theorem countP_busy_set (found : d.borrowers[t]? = some b) (b' : Borrower) :
    (d.set t b').borrowers.countP Borrower.isBusy + (if b.isBusy then 1 else 0) =
      d.borrowers.countP Borrower.isBusy + if b'.isBusy then 1 else 0 := by
  obtain ⟨hlt, hget⟩ := List.getElem?_eq_some_iff.mp found
  have hle : (if b.isBusy then 1 else 0) ≤ d.borrowers.countP Borrower.isBusy := by
    split
    · rename_i hbusy
      exact List.countP_pos_iff.mpr ⟨b, hget ▸ List.getElem_mem hlt, hbusy⟩
    · exact Nat.zero_le _
  rw [set, List.countP_set hlt, hget]
  omega

/-- A borrower goes from one stage to the next, and the pool with it. -/
theorem Sound.moved (h : d.Sound clients) (found : d.borrowers[t]? = some b)
    {pool : ClientPool} {guards : List ClientId}
    (lent : (pool.free ++ guards).Perm (d.pool.free ++ d.guards)) (size : pool.size = d.pool.size)
    (places : (List.replicate b.places t ++ pool.places).Perm
      (List.replicate b'.places t ++ d.pool.places))
    (permit : pool.permit = true → pool.waiting = [])
    (enough : pool.free = [] ∨ b' ≠ .waiting ∧
      (∀ u ∈ pool.waiting, u ≠ t → u ∈ d.pool.waiting) ∧
      (pool.waiting ≠ [] → pool.free.length + d.pool.woken.length + (if b.isBusy then 1 else 0) ≤
        d.pool.free.length + pool.woken.length + if b'.isBusy then 1 else 0)) :
    ({ d with pool, guards }.set t b').Sound clients := by
  refine ⟨lent.trans h.lent, size.trans h.size, fun u => ?_, permit, fun u hu hwaits => ?_⟩
  · have hcount := List.perm_iff_count.mp places u
    have hbefore := h.placed u
    have hset : ({ d with pool, guards }.set t b').placesOf u =
        if t = u then b'.places else d.placesOf u := by
      rw [placesOf, getElem?_set (d := { d with pool, guards }) found]
      split <;> rfl
    simp only [List.count_append, List.count_replicate, beq_iff_eq] at hcount
    show pool.places.count u = _
    rw [hset]
    split at hcount
    · rename_i heq
      subst heq
      rw [placesOf_eq found] at hbefore
      rw [if_pos rfl]
      omega
    · rename_i hne
      rw [if_neg hne]
      omega
  · rw [getElem?_set (d := { d with pool, guards }) found] at hwaits
    have hbusy := countP_busy_set found b'
    show pool.free.length ≤ pool.woken.length + d.unannounced +
      (d.set t b').borrowers.countP Borrower.isBusy
    rcases enough with hnone | ⟨hother, hstays, hslack⟩
    · rw [hnone]
      exact Nat.zero_le _
    · split at hwaits
      · exact absurd (Option.some.inj hwaits) hother
      · rename_i hne
        have hmore := hslack (List.ne_nil_of_mem hu)
        have hbefore := h.enough u (hstays u hu fun heq => hne heq.symm) hwaits
        rw [alert] at hbefore
        omega

theorem Sound.enter (h : d.Sound clients) (found : d.borrowers[t]? = some .arriving) :
    ({ d with pool := (d.pool.enter t).1 }.set t (.trying (d.pool.enter t).2)).Sound clients := by
  obtain ⟨hfree, hsize⟩ := d.pool.settled_enter t
  have hplaces := d.pool.places_enter t
  refine h.moved found (.of_eq (by rw [hfree])) hsize hplaces ?_
    (.inr ⟨nofun, fun u hu hne => ?_, fun _ => ?_⟩)
  all_goals unfold ClientPool.enter at *
  · split
    · rename_i hpermit
      exact fun _ => h.permit hpermit
    · rename_i hpermit
      exact fun hthere => absurd hthere hpermit
  · split at hu
    · exact hu
    · exact (List.mem_append.mp hu).resolve_right fun hnew => hne (List.mem_singleton.mp hnew)
  · split <;> exact Nat.le_refl _

/-- Who is about to take a client takes one, or there is none. -/
theorem go_of_trying {placed : Bool} (found : d.borrowers[t]? = some (.trying placed)) :
    (∀ c rest, d.pool.free = c :: rest →
      d.go t = { d with pool := { d.pool with free := rest }, guards := d.guards ++ [c] }.set t
        (if placed then .leaving else .gone)) ∧
    (d.pool.free = [] → d.go t = d.set t (if placed then .waiting else .arriving)) := by
  refine ⟨fun c rest hfree => ?_, fun hfree => ?_⟩ <;>
    simp only [go, found, take, ClientPool.take?, hfree]

theorem go_of_arriving (found : d.borrowers[t]? = some .arriving) :
    d.go t = { d with pool := (d.pool.enter t).1 }.set t (.trying (d.pool.enter t).2) := by
  simp only [go, found]

theorem go_of_leaving (found : d.borrowers[t]? = some .leaving) :
    d.go t = { d with pool := d.pool.abandon t }.set t .gone := by
  simp only [go, found]

theorem perm_lent {free guards rest : List ClientId} {c : ClientId} (front : free = c :: rest) :
    (rest ++ (guards ++ [c])).Perm (free ++ guards) := by
  rw [front, ← List.append_assoc]
  exact List.perm_append_singleton c _

theorem Sound.tried (h : d.Sound clients) {placed : Bool}
    (found : d.borrowers[t]? = some (.trying placed)) : (d.go t).Sound clients := by
  obtain ⟨htakes, hwaits⟩ := go_of_trying found
  cases hfree : d.pool.free with
  | cons c rest =>
      rw [htakes c rest hfree]
      refine h.moved found (perm_lent hfree) rfl ?_ h.permit
        (.inr ⟨?_, fun _ hu _ => hu, fun _ => ?_⟩)
      · cases placed <;> exact .refl _
      · cases placed <;> nofun
      · rw [hfree, List.length_cons]
        show rest.length + d.pool.woken.length + 1 ≤ rest.length + 1 + d.pool.woken.length + _
        omega
  | nil =>
      rw [hwaits hfree]
      refine h.moved found (.refl _) rfl ?_ h.permit (.inl hfree)
      cases placed <;> exact .refl _

theorem Sound.left (h : d.Sound clients) (found : d.borrowers[t]? = some b) (one : b.places = 1)
    (idle : b.isBusy = false) :
    ({ d with pool := d.pool.abandon t }.set t .gone).Sound clients := by
  obtain ⟨hfree, hsize⟩ := d.pool.settled_abandon t
  have hplaced : t ∈ d.pool.places := by
    refine List.count_pos_iff.mp ?_
    rw [h.placed t, placesOf_eq found, one]
    exact Nat.one_pos
  refine h.moved found (.of_eq (by rw [hfree])) hsize ?_ (ClientPool.permit_abandon t h.permit)
    (.inr ⟨nofun, fun u hu _ => d.pool.waiting_abandon_subset t hu, fun hothers => ?_⟩)
  · rw [one]
    exact (ClientPool.places_abandon hplaced).symm
  · have hmore := d.pool.woken_abandon t hothers
    rw [hfree, idle]
    exact Nat.add_le_add_left hmore _

theorem Sound.heeded (h : d.Sound clients) (found : d.borrowers[t]? = some .waiting)
    (woken : d.pool.isWoken t = true) :
    ({ d with pool := d.pool.heed t }.set t .arriving).Sound clients := by
  have htold : t ∈ d.pool.woken := by simpa [ClientPool.isWoken] using woken
  refine h.moved found (.refl _) rfl (ClientPool.places_heed htold).symm h.permit
    (.inr ⟨nofun, fun _ hu _ => hu, fun _ => ?_⟩)
  have hlength := List.length_erase_of_mem htold
  have hpos := List.length_pos_of_mem htold
  simp only [ClientPool.heed, Borrower.isBusy, Bool.false_eq_true, if_false, if_true]
  omega

theorem Sound.go (h : d.Sound clients) (t : Ticket) : (d.go t).Sound clients := by
  cases hfound : d.borrowers[t]? with
  | none =>
      rw [Desk.go, hfound]
      exact h
  | some b =>
      cases b with
      | arriving =>
          rw [go_of_arriving hfound]
          exact h.enter hfound
      | trying placed => exact h.tried hfound
      | leaving =>
          rw [go_of_leaving hfound]
          exact h.left hfound rfl rfl
      | waiting =>
          simp only [Desk.go, hfound]
          split
          · rename_i hwoken
            exact h.heeded hfound hwoken
          · exact h
      | gone =>
          rw [Desk.go, hfound]
          exact h

theorem Sound.giveUp (h : d.Sound clients) (t : Ticket) : (d.giveUp t).Sound clients := by
  unfold Desk.giveUp
  split
  · rename_i hfound
    exact h.left hfound rfl rfl
  · exact h

/-- The borrowers go no further. -/
theorem Sound.beside (h : d.Sound clients) (lent : (d'.pool.free ++ d'.guards).Perm clients)
    (size : d'.pool.size = d.pool.size) (borrowers : d'.borrowers = d.borrowers)
    (places : d'.pool.places.Perm d.pool.places)
    (permit : d'.pool.permit = true → d'.pool.waiting = [])
    (waiting : d'.pool.waiting ⊆ d.pool.waiting)
    (enough : d'.pool.waiting ≠ [] → d'.pool.free.length + d.pool.woken.length + d.unannounced ≤
      d.pool.free.length + d'.pool.woken.length + d'.unannounced) : d'.Sound clients := by
  refine ⟨lent, size.trans h.size, fun u => ?_, permit, fun u hu hwaits => ?_⟩
  · rw [List.perm_iff_count.mp places u, h.placed u, placesOf, placesOf, borrowers]
  · rw [borrowers] at hwaits
    have hbefore := h.enough u (waiting hu) hwaits
    have hmore := enough (List.ne_nil_of_mem hu)
    rw [alert] at hbefore ⊢
    rw [borrowers]
    omega

theorem placesOf_acquire (d : Desk) (u : Ticket) : (d.make .acquire).placesOf u = d.placesOf u := by
  simp only [make, placesOf, List.getElem?_append]
  split
  · rfl
  · rename_i hnew
    rw [List.getElem?_eq_none (Nat.not_lt.mp hnew), List.getElem?_singleton]
    split <;> rfl

/-- Who has just come has no place and does not wait yet. -/
theorem Sound.acquire (h : d.Sound clients) : (d.make .acquire).Sound clients := by
  refine ⟨h.lent, h.size, fun u => (h.placed u).trans (d.placesOf_acquire u).symm, h.permit,
    fun u hu hwaits => ?_⟩
  have hold : d.borrowers[u]? = some .waiting := by
    simp only [make, List.getElem?_append] at hwaits
    split at hwaits
    · exact hwaits
    · rw [List.getElem?_singleton] at hwaits
      split at hwaits <;> cases hwaits
  have hmore : d.alert ≤ (d.make .acquire).alert := by
    simp only [make, alert, List.countP_append]
    omega
  exact Nat.le_trans (h.enough u hu hold) hmore

/-- There is room for what is lent. -/
theorem Sound.put? (h : d.Sound clients) {c : ClientId} (lent : c ∈ d.guards) :
    d.pool.put? c = some { d.pool with free := d.pool.free ++ [c] } := by
  have hlength := h.lent.length_eq
  have hpos := List.length_pos_of_mem lent
  have hsize := h.size
  rw [List.length_append] at hlength
  exact ClientPool.put?_of_room (by omega)

theorem Sound.drop (h : d.Sound clients) (k : Nat) : (d.drop k).Sound clients := by
  unfold Desk.drop
  split
  · exact h
  · rename_i c hfound
    obtain ⟨hlt, hget⟩ := List.getElem?_eq_some_iff.mp hfound
    rw [h.put? (hget ▸ List.getElem_mem hlt)]
    refine h.beside ?_ rfl rfl (.refl _) h.permit (List.Subset.refl _) fun _ => ?_
    · refine List.Perm.trans ?_ h.lent
      rw [List.append_assoc]
      have hguards := List.getElem_cons_eraseIdx_perm hlt
      rw [hget] at hguards
      exact hguards.append_left d.pool.free
    · dsimp only
      rw [List.length_append, List.length_singleton]
      omega

theorem Sound.announce (h : d.Sound clients) : d.announce.Sound clients := by
  obtain ⟨hfree, hsize⟩ := d.pool.settled_wakeOne
  unfold Desk.announce
  split
  · exact h
  · rename_i hsome
    refine h.beside (by rw [hfree]; exact h.lent) hsize rfl d.pool.places_wakeOne
      (ClientPool.permit_wakeOne h.permit) d.pool.waiting_wakeOne_subset fun hothers => ?_
    have hmore := d.pool.woken_wakeOne hothers
    dsimp only
    rw [hfree]
    omega

theorem Sound.tryAcquire (h : d.Sound clients) : d.take.1.Sound clients := by
  unfold Desk.take ClientPool.take?
  split <;> rename_i hfree <;> split at hfree <;> cases hfree
  · rename_i c rest hfree
    refine h.beside ((perm_lent hfree).trans h.lent) rfl rfl (.refl _) h.permit
      (List.Subset.refl _) fun _ => ?_
    rw [hfree, List.length_cons]
    dsimp only
    omega
  · exact h

theorem Sound.make (h : d.Sound clients) (m : Move) : (d.make m).Sound clients := by
  cases m with
  | acquire => exact h.acquire
  | go t => exact h.go t
  | giveUp t => exact h.giveUp t
  | tryAcquire => exact h.tryAcquire
  | drop k => exact h.drop k
  | announce => exact h.announce

theorem sound_ofClients (clients : List ClientId) : (ofClients clients).Sound clients where
  lent := .of_eq (List.append_nil clients)
  size := rfl
  placed _ := rfl
  permit _ := rfl
  enough t ht := by cases ht

theorem Sound.after (h : d.Sound clients) (moves : List Move) : (d.after moves).Sound clients := by
  induction moves generalizing d with
  | nil => exact h
  | cons m rest ih => exact ih (h.make m)

/-- When nobody has anything to do but to wait, who waits does so because all clients are lent. -/
theorem Sound.free_of_quiet (h : d.Sound clients) (quiet : d.IsQuiet)
    (waits : .waiting ∈ d.borrowers) : d.pool.free = [] := by
  obtain ⟨t, hlt, hget⟩ := List.mem_iff_getElem.mp waits
  have hfound : d.borrowers[t]? = some .waiting := List.getElem?_eq_some_iff.mpr ⟨hlt, hget⟩
  have hwoken : d.pool.woken = [] := by
    refine List.eq_nil_iff_forall_not_mem.mpr fun u hu => ?_
    have hplace : 0 < d.placesOf u :=
      h.placed u ▸ List.count_pos_iff.mpr (List.mem_append_right _ hu)
    rw [placesOf] at hplace
    cases hb : d.borrowers[u]? with
    | none =>
        rw [hb] at hplace
        cases hplace
    | some b =>
        rw [hb] at hplace
        rcases quiet.rests u b hb with rfl | ⟨_, hrests⟩
        · cases hplace
        · simp [ClientPool.isWoken, hu] at hrests
  have hwaiting : t ∈ d.pool.waiting := by
    have hplace : 0 < d.pool.places.count t := by
      rw [h.placed t, placesOf_eq hfound]
      exact Nat.one_pos
    rw [ClientPool.places, hwoken, List.append_nil] at hplace
    exact List.count_pos_iff.mp hplace
  have hidle : d.borrowers.countP Borrower.isBusy = 0 := by
    refine List.countP_eq_zero.mpr fun b hb => ?_
    obtain ⟨u, hu, hget⟩ := List.mem_iff_getElem.mp hb
    rcases quiet.rests u b (List.getElem?_eq_some_iff.mpr ⟨hu, hget⟩) with rfl | ⟨rfl, _⟩ <;> nofun
  have hle := h.enough t hwaiting hfound
  rw [alert, hwoken, quiet.announced, hidle] at hle
  exact List.eq_nil_of_length_eq_zero (Nat.le_zero.mp hle)

/-- A borrower that was told finds that a newcomer was faster, and waits again. -/
example :
    let d := (ofClients [7]).after [.tryAcquire, .acquire, .go 0, .go 0, .drop 0, .announce,
      .tryAcquire, .go 0, .go 0, .go 0]
    d.borrowers = [.waiting] ∧ d.guards = [7] ∧ d.pool.places = [0] := by
  decide

/-! ### Undisturbed -/

section Undisturbed

/-- The desk with another pool, other guards and the borrower at another stage. -/
def turned (d : Desk) (pool : ClientPool) (guards : List ClientId) (t : Ticket) (b : Borrower) :
    Desk :=
  { d with pool, guards }.set t b

variable (there : t < d.borrowers.length) (pool : ClientPool) (guards : List ClientId)
include there

theorem found_turned (b : Borrower) : (d.turned pool guards t b).borrowers[t]? = some b := by
  simp [turned, set, there]

theorem go_turned_arriving : (d.turned pool guards t .arriving).go t =
    d.turned (pool.enter t).1 guards t (.trying (pool.enter t).2) := by
  rw [go_of_arriving (found_turned there pool guards _)]
  simp [turned, set]

theorem go_turned_trying {c : ClientId} {rest : List ClientId} (placed : Bool)
    (front : pool.free = c :: rest) : (d.turned pool guards t (.trying placed)).go t =
      d.turned { pool with free := rest } (guards ++ [c]) t
        (if placed then .leaving else .gone) := by
  rw [(go_of_trying (found_turned there pool guards _)).1 c rest front]
  simp [turned, set]

theorem go_turned_trying_of_none (placed : Bool) (none : pool.free = []) :
    (d.turned pool guards t (.trying placed)).go t =
      d.turned pool guards t (if placed then .waiting else .arriving) := by
  rw [(go_of_trying (found_turned there pool guards _)).2 none]
  simp [turned, set]

theorem go_turned_leaving : (d.turned pool guards t .leaving).go t =
    d.turned (pool.abandon t) guards t .gone := by
  rw [go_of_leaving (found_turned there pool guards _)]
  simp [turned, set]

/-- A borrower that nobody interrupts asks the pool once, and has a client or waits. -/
theorem after_asked (unplaced : t ∉ pool.places) :
    ∃ n, (d.turned pool guards t .arriving).after (List.replicate n (.go t)) =
      d.turned (pool.ask t).1 (guards ++ (pool.ask t).2.toList) t
        (if (pool.ask t).2.isSome then .gone else .waiting) := by
  obtain ⟨hwaiting, hwoken⟩ : t ∉ pool.waiting ∧ t ∉ pool.woken := by
    simpa [ClientPool.places] using unplaced
  have hback : (pool.waiting ++ [t]).erase t = pool.waiting := by
    simp [List.erase_append_right [t] hwaiting]
  have htold : pool.woken.erase t = pool.woken := List.erase_of_not_mem hwoken
  cases hpermit : pool.permit with
  | true =>
      have henter : pool.enter t = ({ pool with permit := false }, false) := by
        rw [ClientPool.enter, if_pos hpermit]
      cases hfree : pool.free with
      | cons c rest =>
          refine ⟨2, ?_⟩
          simp only [after, make, List.replicate, List.foldl]
          rw [go_turned_arriving there, henter,
            go_turned_trying there { pool with permit := false } _ _ hfree]
          simp [ClientPool.ask, hfree, htold]
      | nil =>
          refine ⟨4, ?_⟩
          simp only [after, make, List.replicate, List.foldl]
          rw [go_turned_arriving there, henter,
            go_turned_trying_of_none there { pool with permit := false } _ _ hfree,
            if_neg Bool.false_ne_true, go_turned_arriving there, ClientPool.enter,
            if_neg Bool.false_ne_true, go_turned_trying_of_none there
              { pool with permit := false, waiting := pool.waiting ++ [t] } _ _ hfree]
          simp [ClientPool.ask, hfree, htold]
  | false =>
      have henter : pool.enter t = ({ pool with waiting := pool.waiting ++ [t] }, true) := by
        rw [ClientPool.enter, if_neg (by simp [hpermit])]
      cases hfree : pool.free with
      | cons c rest =>
          refine ⟨3, ?_⟩
          simp only [after, make, List.replicate, List.foldl]
          rw [go_turned_arriving there, henter,
            go_turned_trying there { pool with waiting := pool.waiting ++ [t] } _ _ hfree,
            if_pos rfl, go_turned_leaving there]
          simp [ClientPool.ask, ClientPool.abandon, hfree, htold, hback, hwoken, hpermit]
      | nil =>
          refine ⟨2, ?_⟩
          simp only [after, make, List.replicate, List.foldl]
          rw [go_turned_arriving there, henter,
            go_turned_trying_of_none there { pool with waiting := pool.waiting ++ [t] } _ _ hfree]
          simp [ClientPool.ask, hfree, htold, hpermit]

/-- One that was told asks again. -/
theorem after_told (woken : t ∈ pool.woken) (once : t ∉ (pool.heed t).places) :
    ∃ n, (d.turned pool guards t .waiting).after (List.replicate n (.go t)) =
      d.turned (pool.ask t).1 (guards ++ (pool.ask t).2.toList) t
        (if (pool.ask t).2.isSome then .gone else .waiting) := by
  obtain ⟨n, hasked⟩ := after_asked there (pool.heed t) guards once
  have hgo : (d.turned pool guards t .waiting).go t =
      d.turned (pool.heed t) guards t .arriving := by
    have hisWoken : pool.isWoken t = true := by simpa [ClientPool.isWoken] using woken
    simp only [go, found_turned there pool guards]
    simp [turned, set, hisWoken]
  have hask : (pool.heed t).ask t = pool.ask t := by
    have hnone : t ∉ pool.woken.erase t := fun hmem => once (List.mem_append_right _ hmem)
    simp only [ClientPool.ask, ClientPool.heed, List.erase_of_not_mem hnone]
  rw [hask] at hasked
  refine ⟨n + 1, ?_⟩
  show ((d.turned pool guards t .waiting).go t).after (List.replicate n (.go t)) = _
  rw [hgo]
  exact hasked

omit there in
/-- To bring a client back and to tell somebody is to give it back. -/
theorem announce_drop {k : Nat} {c : ClientId} (found : d.guards[k]? = some c)
    (room : (d.pool.put? c).isSome) :
    (d.drop k).announce = { d with
      pool := d.pool.giveBack c
      guards := d.guards.eraseIdx k } := by
  obtain ⟨pool, hput⟩ := Option.isSome_iff_exists.mp room
  simp [Desk.drop, announce, ClientPool.giveBack, found, hput]

end Undisturbed

end Desk

end Transfer
end Courier
