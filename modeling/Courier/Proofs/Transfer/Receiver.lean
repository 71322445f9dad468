import Courier.Transfer.Receiver

/-!
What a request does to the receiver's files. Only a piece that begins where its file ends makes the
file longer, and by its payload. A seal changes no file, and is accepted only when every file that
it announces is as long as announced. For a name under which files can be written, this is also what
happens: such pieces and such seals are accepted.
-/

namespace Courier
namespace Transfer
namespace Receiver

variable {r : Receiver}

private theorem lookup_map_append (files : List (String × Bytes)) (name other : String)
    (bytes : Bytes) :
    (files.map fun f => if f.1 = name then (f.1, f.2 ++ bytes) else f).lookup other =
      if other = name then (files.lookup other).map (· ++ bytes) else files.lookup other := by
  induction files with
  | nil => split <;> rfl
  | cons f files ih =>
      obtain ⟨first, content⟩ := f
      by_cases hother : other = first
      · subst hother
        by_cases hname : other = name <;> simp [hname]
      · by_cases hname : first = name
        · subst hname
          simp [hother, List.lookup_cons, ih, beq_eq_false_iff_ne.mpr hother]
        · simp [hname, List.lookup_cons, beq_eq_false_iff_ne.mpr hother, ih]

theorem contents_appendTo (r : Receiver) (name other : String) (bytes : Bytes) :
    (r.appendTo name bytes).contents other =
      if other = name then r.contents other ++ bytes else r.contents other := by
  unfold appendTo contents
  split
  · rename_i hsome
    rw [lookup_map_append]
    split
    · rename_i hname
      obtain ⟨content, hcontent⟩ := Option.isSome_iff_exists.mp hsome
      rw [hname, hcontent]
      rfl
    · rfl
  · rename_i hnone
    have hlookup : r.files.lookup name = none := Option.not_isSome_iff_eq_none.mp hnone
    simp only [List.lookup_append]
    split
    · rename_i hname
      rw [hname, hlookup]
      simp
    · rename_i hname
      simp [List.lookup_cons, beq_eq_false_iff_ne.mpr hname]

theorem directories_appendTo (r : Receiver) (name : String) (bytes : Bytes) :
    (r.appendTo name bytes).directories = r.directories := by
  unfold appendTo
  split <;> rfl

theorem directories_receive (r : Receiver) (request : Request) :
    (r.receive request).1.directories = r.directories := by
  match request with
  | .piece p =>
      simp only [receive, receivePiece]
      split
      · rfl
      · split
        · rfl
        · split
          · rfl
          · exact directories_appendTo r p.file p.payload
  | .seal s =>
      simp only [receive, receiveSeal]
      split <;> rfl
  | .tablets b =>
      simp only [receive, receiveTablets]
      split
      · rfl
      · exact directories_appendTo r tabletLog b.payload

/-- A length is only told of a name that can be a file's. -/
theorem lengthOf_of_checked {name : String} {length : Nat}
    (h : (checkName name >>= fun _ => r.lengthOf name) = .ok length) :
    r.lengthOf name = .ok length := by
  cases hname : checkName name with
  | error error => rw [hname] at h; cases h
  | ok _ => rw [hname] at h; exact h

/-- Where no directory is in the way, a length is that of the contents, or there is no place for
files at all. -/
theorem lengthOf_cases {name : String} {length : Nat} (h : r.lengthOf name = .ok length)
    (hname : name ∉ r.directories) :
    length = (r.contents name).length ∨ r.present = false ∧ length = 0 := by
  unfold lengthOf at h
  split at h
  · cases h
  · split at h
    · cases h
    · split at h
      · rename_i hpresent
        cases h
        exact .inr ⟨by simpa using hpresent, rfl⟩
      · rw [if_neg (by simpa using hname)] at h
        exact .inl (Except.ok.inj h).symm

theorem appendFailure_eq_none {name : String} (h : r.appendFailure? name = none) :
    r.present = true ∧ name ∉ r.directories := by
  unfold appendFailure? at h
  split at h
  · cases h
  · split at h
    · cases h
    · rename_i hpresent
      split at h
      · cases h
      · rename_i hdirectory
        exact ⟨by simpa using hpresent, by simpa using hdirectory⟩

/-- A piece that changes anything goes on where the contents end. -/
theorem contents_receivePiece (r : Receiver) (p : FilePiece) (name : String) :
    (r.receivePiece p).1.contents name = r.contents name ∨
      p.file = name ∧ p.offset = (r.contents name).length ∧
        (r.receivePiece p).1.contents name = r.contents name ++ p.payload := by
  unfold receivePiece
  split
  · exact .inl rfl
  · rename_i length hlength
    split
    · exact .inl rfl
    · rename_i hoffset
      split
      · exact .inl rfl
      · rename_i happend
        obtain ⟨hpresent, hdirectory⟩ := appendFailure_eq_none happend
        have hcontents := contents_appendTo r p.file name p.payload
        by_cases hname : name = p.file
        · subst hname
          rw [if_pos rfl] at hcontents
          refine .inr ⟨rfl, ?_, hcontents⟩
          rcases lengthOf_cases (lengthOf_of_checked hlength) hdirectory with hlen | habsent
          · exact (Decidable.not_not.mp hoffset).trans hlen
          · rw [hpresent] at habsent
            cases habsent.1
        · rw [if_neg hname] at hcontents
          exact .inl hcontents

/-- A request leaves the contents under a name as they were, or it is a piece that goes on where
they end, or it adds tablets to their log. -/
theorem contents_receive (r : Receiver) (request : Request) (name : String) :
    (r.receive request).1.contents name = r.contents name ∨
    (∃ p, request = .piece p ∧ p.file = name ∧ p.offset = (r.contents name).length ∧
      (r.receive request).1.contents name = r.contents name ++ p.payload) ∨
    (∃ b, request = .tablets b ∧ name = tabletLog) := by
  match request with
  | .piece p =>
      rcases contents_receivePiece r p name with hsame | ⟨hfile, hoffset, hcontents⟩
      · exact .inl hsame
      · exact .inr (.inl ⟨p, rfl, hfile, hoffset, hcontents⟩)
  | .seal s =>
      left
      simp only [receive, receiveSeal]
      split <;> rfl
  | .tablets b =>
      simp only [receive, receiveTablets]
      split
      · exact .inl rfl
      · by_cases hname : name = tabletLog
        · exact .inr (.inr ⟨b, rfl, hname⟩)
        · have hcontents := contents_appendTo r tabletLog name b.payload
          rw [if_neg hname] at hcontents
          exact .inl hcontents

theorem firstProblem_eq_none {announced : List FileMeta} (h : r.firstProblem? announced = .ok none)
    {f : FileMeta} (hf : f ∈ announced) :
    r.problem? f = .ok none := by
  induction announced with
  | nil => cases hf
  | cons g rest ih =>
      unfold firstProblem? at h
      split at h
      · cases h
      · cases h
      · rename_i hg
        cases hf with
        | head => exact hg
        | tail _ hrest => exact ih h hrest

theorem lengthOf_of_problem {f : FileMeta} (h : r.problem? f = .ok none) :
    r.lengthOf f.name = .ok f.length := by
  unfold problem? at h
  cases hlength : checkName f.name >>= fun _ => r.lengthOf f.name with
  | error error => rw [hlength] at h; cases h
  | ok length =>
      rw [hlength] at h
      simp only [Except.map] at h
      split at h
      · rename_i heq
        rw [← heq]
        exact lengthOf_of_checked hlength
      · cases h

/-- An accepted seal announces every file with the length it has. -/
theorem lengthOf_of_seal_accepted {s : FileSeal} {answer : Response}
    (h : (r.receive (.seal s)).2 = .ok answer) (haccepted : answer.isAccepted = true)
    {f : FileMeta} (hf : f ∈ s.mods.toList ++ [s.data]) :
    r.lengthOf f.name = .ok f.length := by
  simp only [receive, receiveSeal] at h
  split at h
  · cases h
  · cases h
    cases haccepted
  · rename_i hproblem
    exact lengthOf_of_problem (firstProblem_eq_none hproblem hf)

/-- A file of this name can be written here. -/
structure Admits (r : Receiver) (name : String) : Prop where
  bare : isBareName name = true
  plain : name.toList.contains '\x00' = false
  writable : r.appendFailure? name = none

theorem Admits.length {name : String} (h : r.Admits name) :
    (checkName name >>= fun _ => r.lengthOf name) = .ok (r.contents name).length := by
  obtain ⟨hpresent, hdirectory⟩ := appendFailure_eq_none h.writable
  have hshort : r.isTooLong name = false := by
    have hwritable := h.writable
    unfold appendFailure? at hwritable
    split at hwritable
    · cases hwritable
    · rename_i hshort
      simpa using hshort
  have hplain : '\x00' ∉ name.toList := by simpa using h.plain
  have hlength : r.lengthOf name = .ok (r.contents name).length := by
    simp [lengthOf, hplain, hshort, hpresent, hdirectory]
  rw [checkName, if_pos h.bare]
  exact hlength

/-- A piece that goes on where the file ends is appended. -/
theorem receive_piece {p : FilePiece} (h : r.Admits p.file)
    (fits : p.offset = (r.contents p.file).length) :
    r.receive (.piece p) =
      ({ r.appendTo p.file p.payload with pieces := Word.add r.pieces 1 }, .ok .success) := by
  rw [receive, receivePiece, h.length, fits]
  simp only [ne_eq, not_true_eq_false, if_false, h.writable]

/-- Any other piece is answered with the length of the file. -/
theorem receive_piece_elsewhere {p : FilePiece} (h : r.Admits p.file)
    (misses : p.offset ≠ (r.contents p.file).length) :
    r.receive (.piece p) = (r, .ok (.offsetReset (r.contents p.file).length)) := by
  rw [receive, receivePiece, h.length]
  simp only [ne_eq, misses, not_false_eq_true, if_true]

theorem seals_receivePiece (r : Receiver) (p : FilePiece) :
    (r.receivePiece p).1.seals = r.seals := by
  unfold receivePiece
  split
  · rfl
  · split
    · rfl
    · split
      · rfl
      · simp only [appendTo]
        split <;> rfl

theorem firstProblem?_eq_none {announced : List FileMeta}
    (h : ∀ f ∈ announced, r.Admits f.name ∧ (r.contents f.name).length = f.length) :
    r.firstProblem? announced = .ok none := by
  induction announced with
  | nil => rfl
  | cons f rest ih =>
      obtain ⟨hadmits, hlength⟩ := h f List.mem_cons_self
      have hnone : r.problem? f = .ok none := by
        rw [problem?, hadmits.length, Except.map, if_pos hlength]
      unfold firstProblem?
      rw [hnone]
      exact ih fun f hf => h f (List.mem_cons_of_mem _ hf)

theorem receive_seal {s : FileSeal} (h : ∀ f ∈ s.mods.toList ++ [s.data],
    r.Admits f.name ∧ (r.contents f.name).length = f.length) :
    r.receive (.seal s) = ({ r with seals := r.seals ++ [s] }, .ok .success) := by
  rw [receive, receiveSeal, firstProblem?_eq_none h]

end Receiver
end Transfer
end Courier
