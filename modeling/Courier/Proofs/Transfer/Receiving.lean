import Courier.Proofs.Transfer.Acceptance
import Mathlib.Algebra.GroupWithZero.Nat
import Mathlib.Control.Monad.Basic

/-!
What a receiver's directory holds after any requests. A name that is accepted leads to an entry of
the directory, and two names never lead to the same one. Each file has grown by the pieces of its
name that were accepted, in their order, the log by all tablets, and nothing else has changed. What
is refused leaves no trace. The counters tell what was accepted; those of the pieces and of the
tablets' events are words and wrap.

Files are read and written here as if nothing went wrong with them: no name is too long or taken by
a directory, and the directory is there.
-/

namespace Courier
namespace Transfer

/-- The files that a request speaks of, by name. -/
def Request.fileNames : Request → List String
  | .piece p => [p.file]
  | .seal s => (s.mods.toList ++ [s.data]).map (·.name)
  | .tablets _ => []

/-- Tablets that a request brings. -/
def Request.tabletBytes : Request → Bytes
  | .tablets b => b.payload
  | _ => []

/-- Events of the tablets that a request brings. -/
def Request.tabletEvents : Request → Nat
  | .tablets b => b.count
  | _ => 0

/-- A request with the answer that it got. -/
structure Answered where
  request : Request
  answer : Except ClientError Response
  deriving DecidableEq

namespace Answered

def isAccepted (a : Answered) : Bool :=
  match a.answer with
  | .ok response => response.isAccepted
  | .error _ => false

/-- What an accepted piece adds to the file of this name. -/
def pieceOf (name : String) (a : Answered) : Bytes :=
  match a.request with
  | .piece p => if a.isAccepted && p.file == name then p.payload else []
  | _ => []

def isAcceptedPiece (a : Answered) : Bool :=
  match a.request with
  | .piece _ => a.isAccepted
  | _ => false

def acceptedSeal? (a : Answered) : Option FileSeal :=
  match a.request with
  | .seal s => if a.isAccepted then some s else none
  | _ => none

def acceptedEvents (a : Answered) : Nat := if a.isAccepted then a.request.tabletEvents else 0

end Answered

namespace Answered

variable {a : Answered}

theorem pieceOf_of_refused (h : a.isAccepted = false) (name : String) : a.pieceOf name = [] := by
  unfold pieceOf
  split
  · rw [h]
    rfl
  · rfl

theorem isAcceptedPiece_of_refused (h : a.isAccepted = false) : a.isAcceptedPiece = false := by
  unfold isAcceptedPiece
  split
  · exact h
  · rfl

theorem acceptedSeal?_of_refused (h : a.isAccepted = false) : a.acceptedSeal? = none := by
  unfold acceptedSeal?
  split
  · rw [h]
    rfl
  · rfl

end Answered

theorem tabletBytes_of_isOfFile {request : Request} (h : request.isOfFile = true) :
    request.tabletBytes = [] := by
  match request with
  | .piece _ | .seal _ => rfl

/-- A name under which files are kept is an entry of the directory, and not the log. -/
theorem isEntry_of_isBareName {name : String} (h : isBareName name = true) :
    Path.IsEntry name ∧ name ≠ tabletLog := by
  simp only [isBareName, Bool.and_eq_true, bne_iff_ne, Bool.not_eq_true',
    List.contains_eq_mem, decide_eq_false_iff_not] at h
  obtain ⟨⟨⟨⟨⟨hempty, hstays⟩, hup⟩, hslash⟩, -⟩, hlog⟩ := h
  exact ⟨⟨hslash, hempty, hstays, hup⟩, hlog⟩

namespace Receiver

variable {r : Receiver}

/-- The file operations that a request asks for succeed. -/
def Manages (r : Receiver) : Request → Prop
  | .tablets _ => r.appendFailure? tabletLog = none
  | request => ∀ name ∈ request.fileNames, isBareName name = true → r.Admits name

def answered (r : Receiver) (request : Request) : Answered :=
  { request, answer := (r.receive request).2 }

/-- The receiver after some requests. -/
def after (r : Receiver) (requests : List Request) : Receiver :=
  requests.foldl (fun r request => (r.receive request).1) r

/-- The requests with their answers. -/
def answers (r : Receiver) : List Request → List Answered
  | [] => []
  | request :: rest => r.answered request :: (r.receive request).1.answers rest

/-! ### One request -/

theorem Admits.receive {name : String} (h : r.Admits name) (request : Request) :
    (r.receive request).1.Admits name :=
  { bare := h.bare
    plain := h.plain
    writable := (r.appendFailure?_receive request name).trans h.writable }

theorem Manages.receive {request : Request} (h : r.Manages request) (other : Request) :
    (r.receive other).1.Manages request := by
  match request with
  | .piece p => exact fun name hname hbare => (h name hname hbare).receive other
  | .seal s => exact fun name hname hbare => (h name hname hbare).receive other
  | .tablets b => exact (r.appendFailure?_receive other tabletLog).trans h

/-- A name that cannot be a file's is refused as such. -/
theorem receive_piece_unnamed {p : FilePiece} (h : isBareName p.file = false) :
    r.receive (.piece p) =
      (r, .error (.invalidRequest ("invalid file name '" ++ p.file ++ "'"))) := by
  have hname : checkName p.file =
      .error (.invalidRequest ("invalid file name '" ++ p.file ++ "'")) := by
    rw [checkName, if_neg (by simp [h])]
  rw [Receiver.receive, receivePiece, hname]
  rfl

/-- A piece is accepted where the file ends, and otherwise answered with the end. -/
theorem answer_piece {p : FilePiece} (h : r.Admits p.file) :
    (r.receive (.piece p)).2 =
      .ok (if p.offset = (r.contents p.file).length then .success
        else .offsetReset (r.contents p.file).length) := by
  split
  · rename_i hfits
    rw [receive_piece h hfits]
  · rename_i hmisses
    rw [receive_piece_elsewhere h hmisses]

theorem isBareName_of_problem {f : FileMeta} (h : r.problem? f = .ok none) :
    isBareName f.name = true := by
  cases hname : isBareName f.name with
  | true => rfl
  | false =>
      unfold problem? checkName at h
      rw [hname] at h
      cases h

/-- A seal is accepted when all files that it announces have the announced lengths. -/
theorem seal_accepted_iff {s : FileSeal} (h : r.Manages (.seal s)) :
    (r.answered (.seal s)).isAccepted = true ↔ ∀ f ∈ s.mods.toList ++ [s.data],
      isBareName f.name = true ∧ (r.contents f.name).length = f.length := by
  constructor
  · intro haccepted f hf
    have hnone : r.firstProblem? (s.mods.toList ++ [s.data]) = .ok none := by
      simp only [Answered.isAccepted, answered, Receiver.receive, receiveSeal] at haccepted
      split at haccepted
      · rename_i response hresponse
        split at hresponse
        · cases hresponse
        · cases hresponse
          cases haccepted
        · rename_i hproblem
          exact hproblem
      · cases haccepted
    have hproblem := firstProblem_eq_none hnone hf
    have hbare := isBareName_of_problem hproblem
    have hadmits := h f.name (List.mem_map_of_mem hf) hbare
    refine ⟨hbare, ?_⟩
    have hlength := hadmits.length
    rw [checkName, if_pos hbare] at hlength
    exact Except.ok.inj (hlength.symm.trans (lengthOf_of_problem hproblem))
  · intro hfits
    have hseal : r.receive (.seal s) = ({ r with seals := r.seals ++ [s] }, .ok .success) :=
      receive_seal fun f hf =>
        ⟨h f.name (List.mem_map_of_mem hf) (hfits f hf).1, (hfits f hf).2⟩
    simp only [Answered.isAccepted, answered, hseal]
    rfl

/-- What is accepted speaks of files that can be kept. -/
theorem isBareName_of_accepted {request : Request} (h : r.Manages request)
    (accepted : (r.answered request).isAccepted = true) {name : String}
    (hname : name ∈ request.fileNames) :
    isBareName name = true := by
  match request with
  | .piece p =>
      rw [List.mem_singleton.mp hname]
      cases hbare : isBareName p.file with
      | true => rfl
      | false =>
          simp only [Answered.isAccepted, answered, receive_piece_unnamed hbare] at accepted
          cases accepted
  | .seal s =>
      obtain ⟨f, hf, rfl⟩ := List.mem_map.mp hname
      exact ((seal_accepted_iff h).mp accepted f hf).1
  | .tablets b => cases hname

/-- What is not accepted leaves no trace. -/
theorem receive_of_refused {request : Request}
    (refused : (r.answered request).isAccepted = false) :
    (r.receive request).1 = r := by
  match request with
  | .piece p =>
      simp only [Answered.isAccepted, answered, Receiver.receive, receivePiece] at refused ⊢
      split
      · rfl
      · rename_i hlength
        rw [hlength] at refused
        split
        · rfl
        · rename_i hoffset
          simp only [hoffset, if_false] at refused
          split
          · rfl
          · rename_i happend
            rw [happend] at refused
            cases refused
  | .seal s =>
      simp only [Answered.isAccepted, answered, Receiver.receive, receiveSeal] at refused ⊢
      split
      · rfl
      · rfl
      · rename_i hproblem
        rw [hproblem] at refused
        cases refused
  | .tablets b =>
      simp only [Answered.isAccepted, answered, Receiver.receive, receiveTablets] at refused ⊢
      split
      · rfl
      · rename_i happend
        rw [happend] at refused
        cases refused

theorem counters_appendTo (r : Receiver) (name : String) (bytes : Bytes) :
    (r.appendTo name bytes).pieces = r.pieces ∧ (r.appendTo name bytes).seals = r.seals ∧
      (r.appendTo name bytes).tabletEvents = r.tabletEvents := by
  unfold appendTo
  split <;> exact ⟨rfl, rfl, rfl⟩

theorem receive_piece_of_accepted {p : FilePiece}
    (accepted : (r.answered (.piece p)).isAccepted = true) :
    (r.receive (.piece p)).1 =
      { r.appendTo p.file p.payload with pieces := Word.add r.pieces 1 } := by
  simp only [Answered.isAccepted, answered, Receiver.receive, receivePiece] at accepted ⊢
  split
  · rename_i hlength
    rw [hlength] at accepted
    cases accepted
  · rename_i hlength
    rw [hlength] at accepted
    split
    · rename_i hoffset
      simp only [hoffset, ne_eq, not_false_eq_true, if_true] at accepted
      cases accepted
    · rename_i hoffset
      simp only [hoffset, if_false] at accepted
      split
      · rename_i happend
        rw [happend] at accepted
        cases accepted
      · rfl

theorem receive_seal_of_accepted {s : FileSeal}
    (accepted : (r.answered (.seal s)).isAccepted = true) :
    (r.receive (.seal s)).1 = { r with seals := r.seals ++ [s] } := by
  simp only [Answered.isAccepted, answered, Receiver.receive, receiveSeal] at accepted ⊢
  split
  · rename_i hproblem
    rw [hproblem] at accepted
    cases accepted
  · rename_i hproblem
    rw [hproblem] at accepted
    cases accepted
  · rfl

theorem receive_tablets {b : TabletBatch} (h : r.Manages (.tablets b)) :
    r.receive (.tablets b) =
      ({ r.appendTo tabletLog b.payload with tabletEvents := Word.add r.tabletEvents b.count },
        .ok .success) := by
  rw [Receiver.receive, receiveTablets, h]

/-- How the answer to a request follows from what the receiver holds. Files lie under `root`. -/
structure Judged (root : String) (r : Receiver) (request : Request) : Prop where
  entries : (r.answered request).isAccepted = true → ∀ name ∈ request.fileNames,
    name ≠ tabletLog ∧ Path.IsEntry name ∧
      Path.parts (Path.join root name) = Path.parts root ++ [name]
  pieceAnswer : ∀ p, request = .piece p → isBareName p.file = true →
    (r.receive request).2 =
      .ok (if p.offset = (r.contents p.file).length then .success
        else .offsetReset (r.contents p.file).length)
  sealAnswer : ∀ s, request = .seal s → ((r.answered request).isAccepted = true ↔
    ∀ f ∈ s.mods.toList ++ [s.data],
      isBareName f.name = true ∧ (r.contents f.name).length = f.length)
  tabletsAnswer : ∀ b, request = .tablets b → (r.answered request).isAccepted = true
  refused : (r.answered request).isAccepted = false → (r.receive request).1 = r

theorem Manages.judged {request : Request} (h : r.Manages request) (root : String) :
    Judged root r request where
  entries accepted name hname := by
    obtain ⟨hentry, hlog⟩ := isEntry_of_isBareName (isBareName_of_accepted h accepted hname)
    exact ⟨hlog, hentry, Path.parts_join root hentry⟩
  pieceAnswer p hp hbare := by
    subst hp
    exact answer_piece (h p.file (List.mem_singleton.mpr rfl) hbare)
  sealAnswer s hs := by
    subst hs
    exact seal_accepted_iff h
  tabletsAnswer b hb := by
    subst hb
    simp only [Answered.isAccepted, answered, receive_tablets h]
    rfl
  refused := receive_of_refused

/-! ### What the requests add -/

/-- The second receiver is the first with what these answered requests added to it. -/
structure Grown (r : Receiver) (log : List Answered) (r' : Receiver) : Prop where
  file : ∀ name, name ≠ tabletLog →
    r'.contents name = r.contents name ++ log.flatMap (Answered.pieceOf name)
  tablets : r'.contents tabletLog =
    r.contents tabletLog ++ log.flatMap fun a => a.request.tabletBytes
  pieces : r.pieces < Word.size →
    r'.pieces = (r.pieces + log.countP Answered.isAcceptedPiece) % Word.size
  seals : r'.seals = r.seals ++ log.filterMap Answered.acceptedSeal?
  events : r.tabletEvents < Word.size →
    r'.tabletEvents = (r.tabletEvents + (log.map Answered.acceptedEvents).sum) % Word.size

theorem Grown.refl (r : Receiver) : Grown r [] r where
  file _ _ := (List.append_nil _).symm
  tablets := (List.append_nil _).symm
  pieces hword := (Nat.mod_eq_of_lt hword).symm
  seals := (List.append_nil _).symm
  events hword := (Nat.mod_eq_of_lt hword).symm

theorem Grown.trans {r' r'' : Receiver} {log log' : List Answered} (h : Grown r log r')
    (h' : Grown r' log' r'') :
    Grown r (log ++ log') r'' where
  file name hname := by
    rw [h'.file name hname, h.file name hname, List.flatMap_append, List.append_assoc]
  tablets := by rw [h'.tablets, h.tablets, List.flatMap_append, List.append_assoc]
  pieces hword := by
    rw [List.countP_append]
    exact Word.moves_trans h.pieces h'.pieces hword
  seals := by rw [h'.seals, h.seals, List.filterMap_append, List.append_assoc]
  events hword := by
    rw [List.map_append, List.sum_append]
    exact Word.moves_trans h.events h'.events hword

theorem grown_of_refused {request : Request}
    (refused : (r.answered request).isAccepted = false) (file : request.isOfFile = true) :
    Grown r [r.answered request] (r.receive request).1 := by
  rw [receive_of_refused refused]
  exact
    { file := fun name _ => by
        rw [List.flatMap_singleton, Answered.pieceOf_of_refused refused, List.append_nil]
      tablets := by
        have hbytes : (r.answered request).request.tabletBytes = [] := tabletBytes_of_isOfFile file
        rw [List.flatMap_singleton, hbytes, List.append_nil]
      pieces := fun hword => by
        rw [List.countP_singleton, Answered.isAcceptedPiece_of_refused refused]
        exact (Nat.mod_eq_of_lt hword).symm
      seals := by
        rw [List.filterMap_cons, Answered.acceptedSeal?_of_refused refused]
        exact (List.append_nil _).symm
      events := fun hword => by
        rw [List.map_singleton, List.sum_singleton, Answered.acceptedEvents, refused]
        exact (Nat.mod_eq_of_lt hword).symm }

theorem grown_piece {p : FilePiece} (accepted : (r.answered (.piece p)).isAccepted = true)
    (hlog : p.file ≠ tabletLog) :
    Grown r [r.answered (.piece p)] (r.receive (.piece p)).1 := by
  have hgain (name : String) : (r.answered (.piece p)).pieceOf name =
      if (r.answered (.piece p)).isAccepted && p.file == name then p.payload else [] := rfl
  have hcounted : (r.answered (.piece p)).isAcceptedPiece = true := accepted
  have hcontents (name : String) := contents_appendTo r p.file name p.payload
  obtain ⟨hpieces, hseals, hevents⟩ := counters_appendTo r p.file p.payload
  rw [receive_piece_of_accepted accepted]
  exact
    { file := fun name _ => by
        rw [List.flatMap_singleton, hgain, accepted, Bool.true_and]
        refine (hcontents name).trans ?_
        by_cases hname : name = p.file
        · subst hname
          simp
        · have hother : ¬p.file = name := fun h => hname h.symm
          simp [hname, hother]
      tablets := (hcontents tabletLog).trans <| by
        rw [if_neg hlog.symm]
        exact (List.append_nil _).symm
      pieces := fun _ => by
        rw [List.countP_singleton, hcounted]
        rfl
      seals := hseals.trans (List.append_nil _).symm
      events := fun hword => by
        rw [List.map_singleton, List.sum_singleton, Answered.acceptedEvents, accepted]
        exact hevents.trans (Nat.mod_eq_of_lt hword).symm }

theorem grown_seal {s : FileSeal} (accepted : (r.answered (.seal s)).isAccepted = true) :
    Grown r [r.answered (.seal s)] (r.receive (.seal s)).1 := by
  have hkept : (r.answered (.seal s)).acceptedSeal? =
      if (r.answered (.seal s)).isAccepted then some s else none := rfl
  rw [accepted] at hkept
  rw [receive_seal_of_accepted accepted]
  exact
    { file := fun name _ => (List.append_nil _).symm
      tablets := (List.append_nil _).symm
      pieces := fun hword => (Nat.mod_eq_of_lt hword).symm
      seals := by
        rw [List.filterMap_cons, hkept]
        rfl
      events := fun hword => by
        rw [List.map_singleton, List.sum_singleton, Answered.acceptedEvents, accepted]
        exact (Nat.mod_eq_of_lt hword).symm }

theorem grown_tablets {b : TabletBatch} (h : r.Manages (.tablets b)) :
    Grown r [r.answered (.tablets b)] (r.receive (.tablets b)).1 := by
  have haccepted : (r.answered (.tablets b)).isAccepted = true :=
    (h.judged "").tabletsAnswer b rfl
  have hcontents (name : String) := contents_appendTo r tabletLog name b.payload
  obtain ⟨hpieces, hseals, -⟩ := counters_appendTo r tabletLog b.payload
  rw [receive_tablets h]
  exact
    { file := fun name hname => (hcontents name).trans <| by
        rw [if_neg hname]
        exact (List.append_nil _).symm
      tablets := (hcontents tabletLog).trans <| by
        rw [if_pos rfl, List.flatMap_singleton]
        rfl
      pieces := fun hword => hpieces.trans (Nat.mod_eq_of_lt hword).symm
      seals := hseals.trans (List.append_nil _).symm
      events := fun _ => by
        rw [List.map_singleton, List.sum_singleton, Answered.acceptedEvents, haccepted]
        rfl }

/-- One request adds what its answer says. -/
theorem Manages.grown {request : Request} (h : r.Manages request) :
    Grown r [r.answered request] (r.receive request).1 := by
  cases haccepted : (r.answered request).isAccepted with
  | false =>
      refine grown_of_refused haccepted ?_
      match request with
      | .piece _ | .seal _ => rfl
      | .tablets b => exact absurd ((h.judged "").tabletsAnswer b rfl) (by simp [haccepted])
  | true =>
      match request with
      | .piece p =>
          have hbare := isBareName_of_accepted h haccepted (List.mem_singleton.mpr rfl)
          exact grown_piece haccepted (isEntry_of_isBareName hbare).2
      | .seal s => exact grown_seal haccepted
      | .tablets b => exact grown_tablets h

/-- So do any requests, one after the other. -/
theorem grown_after {requests : List Request} (works : ∀ request ∈ requests, r.Manages request) :
    Grown r (r.answers requests) (r.after requests) := by
  induction requests generalizing r with
  | nil => exact .refl r
  | cons request rest ih =>
      obtain ⟨hfirst, hrest⟩ := List.forall_mem_cons.mp works
      exact hfirst.grown.trans (ih fun other hother => (hrest other hother).receive request)

theorem manages_after {requests : List Request} {request : Request} (h : r.Manages request) :
    (r.after requests).Manages request := by
  induction requests generalizing r with
  | nil => exact h
  | cons first rest ih => exact ih (h.receive first)

/-- The files of a directory are those it had, each with the accepted pieces of its name behind it,
and the log is the one it had with all tablets behind it. Every request on the way is judged by what
the directory holds at that moment, and leaves no trace when it is refused. -/
theorem directory_accounted (root : String) (r : Receiver) (requests : List Request)
    (works : ∀ request ∈ requests, r.Manages request) :
    Grown r (r.answers requests) (r.after requests) ∧
      ∀ earlier request later, requests = earlier ++ request :: later →
        Judged root (r.after earlier) request := by
  refine ⟨grown_after works, ?_⟩
  intro earlier request later hrequests
  have hrequest : r.Manages request :=
    works request (hrequests ▸ List.mem_append_right _ (List.mem_cons_self ..))
  exact (manages_after hrequest).judged root

/-- A directory with one file in it. -/
def spool : Receiver := { files := [("a", [7])] }

/-- Pieces where the file ends, elsewhere and outside of the directory, tablets, and two seals. -/
def delivery : List Request :=
  let completed (length : Nat) : Request := .seal
    { mods := none, data := ⟨"a", length⟩, flushPoints := 0, commit := ⟨0, 0, 1⟩, region := 1,
      progress := 1, node := 0 }
  let piece (file : String) (offset : Nat) (payload : Bytes) : Request := .piece
    { file, offset, payload, withMods := false, commit := ⟨0, 0, 1⟩, region := 1, node := 0 }
  [piece "a" 1 [8, 9], piece "a" 0 [5], piece "../b" 0 [1],
    .tablets { payload := [1, 2], count := 2, region := 1, node := 0 }, completed 3,
    completed 4]

theorem manages_delivery : ∀ request ∈ delivery, spool.Manages request := by
  have hadmits : spool.Admits "a" := ⟨by decide +kernel, by decide +kernel, by decide +kernel⟩
  have named (name : String) (hname : name ∈ ["a"]) : isBareName name = true → spool.Admits name :=
    fun _ => List.mem_singleton.mp hname ▸ hadmits
  have unnamed (name : String) (hname : name ∈ ["../b"]) : isBareName name = true →
      spool.Admits name := fun hbare => by
    have hclimbs : isBareName "../b" = false := by decide +kernel
    rw [List.mem_singleton.mp hname, hclimbs] at hbare
    cases hbare
  intro request hrequest
  simp only [delivery, List.mem_cons, List.not_mem_nil, or_false] at hrequest
  rcases hrequest with rfl | rfl | rfl | rfl | rfl | rfl
  · exact named
  · exact named
  · exact unnamed
  · trivial
  · exact named
  · exact named

theorem directory_accounted_delivery :
    (∀ request ∈ delivery, spool.Manages request) ∧
    (spool.answers delivery).map Answered.isAccepted = [true, false, false, true, true, false] ∧
    (spool.after delivery).contents "a" = [7, 8, 9] ∧
    (spool.after delivery).contents tabletLog = [1, 2] ∧
    (spool.after delivery).pieces = 1 ∧ (spool.after delivery).tabletEvents = 2 := by
  obtain ⟨hgrown, -⟩ := directory_accounted "/spool" spool delivery manages_delivery
  have hwritten : (spool.after delivery).contents "a" = [7, 8, 9] :=
    (hgrown.file "a" (by decide)).trans (by decide +kernel)
  have hlog : (spool.after delivery).contents tabletLog = [1, 2] :=
    hgrown.tablets.trans (by decide +kernel)
  have hpieces : (spool.after delivery).pieces = 1 :=
    (hgrown.pieces (by decide)).trans (by decide +kernel)
  have hevents : (spool.after delivery).tabletEvents = 2 :=
    (hgrown.events (by decide)).trans (by decide +kernel)
  exact ⟨manages_delivery, by decide +kernel, hwritten, hlog, hpieces, hevents⟩

/-- Pieces without bytes are taken as often as they are sent. -/
theorem countP_emptyPieces {p : FilePiece} (blank : p.payload = []) (first : p.offset = 0)
    (admits : r.Admits p.file) (unwritten : r.contents p.file = []) (n : Nat) :
    (r.answers (.replicate n (.piece p))).countP Answered.isAcceptedPiece = n := by
  induction n generalizing r with
  | zero => rfl
  | succ n ih =>
      have hreceive := receive_piece admits (p := p) (by rw [first, unwritten]; rfl)
      have hcontents : (r.receive (.piece p)).1.contents p.file = [] := by
        rw [hreceive]
        refine (contents_appendTo r p.file p.file p.payload).trans ?_
        rw [if_pos rfl, unwritten, blank]
        rfl
      have hcounted : (r.answered (.piece p)).isAcceptedPiece = true :=
        congrArg (fun answer => Answered.isAcceptedPiece ⟨.piece p, answer⟩)
          (congrArg Prod.snd hreceive)
      rw [List.replicate_succ, answers, List.countP_cons_of_pos hcounted,
        ih (admits.receive _) hcontents]

/-- The counters are words: that of the tablets' events does not tell how many there were, nor does
that of the pieces. -/
theorem counters_wrap :
    (¬∀ (r : Receiver) (requests : List Request), (∀ request ∈ requests, r.Manages request) →
      (r.after requests).tabletEvents =
        r.tabletEvents + ((r.answers requests).map Answered.acceptedEvents).sum) ∧
    ¬∀ (r : Receiver) (requests : List Request), (∀ request ∈ requests, r.Manages request) →
      (r.after requests).pieces =
        r.pieces + (r.answers requests).countP Answered.isAcceptedPiece := by
  refine ⟨fun hexact => ?_, fun hexact => ?_⟩
  · let batch (count : Nat) : Request := .tablets { payload := [], count, region := 1, node := 0 }
    have works : ∀ request ∈ [batch Word.max, batch 2], ({} : Receiver).Manages request := by
      intro request hrequest
      simp only [List.mem_cons, List.not_mem_nil, or_false] at hrequest
      rcases hrequest with rfl | rfl <;> trivial
    have hcount : (({} : Receiver).after [batch Word.max, batch 2]).tabletEvents = 1 := by
      decide +kernel
    have hsum : ((({} : Receiver).answers [batch Word.max, batch 2]).map
        Answered.acceptedEvents).sum = Word.max + 2 := by decide +kernel
    have hsame := hexact {} [batch Word.max, batch 2] works
    rw [hcount, hsum] at hsame
    exact absurd hsame (by decide)
  · let piece : FilePiece := {
      file := "a", offset := 0, payload := [], withMods := false, commit := .zero, region := 1
      node := 0 }
    have admits : ({} : Receiver).Admits piece.file :=
      ⟨by decide +kernel, by decide +kernel, by decide +kernel⟩
    have works : ∀ request ∈ List.replicate Word.size (.piece piece),
        ({} : Receiver).Manages request := by
      intro request hrequest
      rw [List.eq_of_mem_replicate hrequest]
      intro name hname _
      rwa [List.mem_singleton.mp hname]
    have hcount := countP_emptyPieces (p := piece) rfl rfl admits rfl Word.size
    have hwrapped := (grown_after works).pieces (by decide)
    have hsame := hexact {} _ works
    rw [hwrapped, hcount] at hsame
    exact absurd hsame (by decide)

end Receiver
end Transfer
end Courier
