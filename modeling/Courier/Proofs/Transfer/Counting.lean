import Courier.Proofs.Transfer.Course
import Courier.Proofs.Transfer.Receiving
import Mathlib.Algebra.BigOperators.Group.Finset.Basic
import Mathlib.Algebra.GroupWithZero.Nat

/-!
What is counted of pieces. One that was taken counts. So does one that was refused with an offset at
which to go on, once the reader was moved there. Any other answer leaves the counts as they are. A
receiver that gives the answers itself appends what was taken, and nothing else.
-/

namespace Courier
namespace Transfer

/-! ### Answers -/

namespace Answered

/-- The piece that was asked for, if the peer took it. -/
def taken? (policy : StatusPolicy) (x : Answered) : Option FilePiece :=
  match x.request, x.answer with
  | .piece p, .ok r => if r.resetOffset.isNone && r.isTaken policy p.file then some p else none
  | _, _ => none

/-- The piece that was asked for, if the peer refused it with an offset at which to go on, and a
reader can be moved there. -/
def moved? (x : Answered) : Option FilePiece :=
  match x.request, x.answer with
  | .piece p, .ok r => if r.resetOffset.any (· ≤ maxSeek) then some p else none
  | _, _ => none

/-- The piece that was asked for, if the peer accepted it. -/
def acceptedPiece? (x : Answered) : Option FilePiece :=
  match x.request with
  | .piece p => if x.isAccepted then some p else none
  | _ => none

variable {policy : StatusPolicy} {p : FilePiece} {r : Response}

theorem taken?_piece (policy : StatusPolicy) (p : FilePiece) (r : Response) :
    taken? policy ⟨.piece p, .ok r⟩ =
      if r.resetOffset.isNone && r.isTaken policy p.file then some p else none := rfl

theorem moved?_piece (p : FilePiece) (r : Response) :
    moved? ⟨.piece p, .ok r⟩ = if r.resetOffset.any (· ≤ maxSeek) then some p else none := rfl

theorem isAcceptedPiece_eq (x : Answered) : x.isAcceptedPiece = x.acceptedPiece?.isSome := by
  obtain ⟨request, answer⟩ := x
  cases request with
  | piece p =>
      simp only [isAcceptedPiece, acceptedPiece?]
      cases isAccepted ⟨.piece p, answer⟩ <;> rfl
  | «seal» | tablets => rfl

/-- What an accepted piece adds to the files of some names, one of which is its own. -/
theorem sum_pieceOf {names : Finset String} {x : Answered}
    (known : ∀ p, x.acceptedPiece? = some p → p.file ∈ names) :
    ∑ name ∈ names, (x.pieceOf name).length =
      x.acceptedPiece?.elim 0 fun p => p.payload.length := by
  obtain ⟨request, answer⟩ := x
  cases request with
  | «seal» | tablets => exact Finset.sum_const_zero
  | piece p =>
      simp only [acceptedPiece?, pieceOf] at known ⊢
      cases haccepted : isAccepted ⟨.piece p, answer⟩ with
      | false => exact Finset.sum_const_zero
      | true =>
          simp only [haccepted, if_true, Option.some.injEq, forall_eq'] at known
          simp only [Bool.true_and, beq_iff_eq, if_true, Option.elim_some]
          rw [Finset.sum_eq_single_of_mem p.file known, if_pos rfl]
          intro other _ hother
          rw [if_neg (Ne.symm hother)]
          rfl

end Answered

/-! ### Counts -/

/-- What is counted of pieces: how many there were, their bytes, and the offset resets. -/
structure PieceCounts where
  pieces : Nat
  bytes : Nat
  resets : Nat

def payloadBytes (pieces : List FilePiece) : Nat := (pieces.map fun p => p.payload.length).sum

theorem payloadBytes_cons (p : FilePiece) (pieces : List FilePiece) :
    payloadBytes (p :: pieces) = p.payload.length + payloadBytes pieces := rfl

theorem payloadBytes_perm {pieces pieces' : List FilePiece} (h : pieces.Perm pieces') :
    payloadBytes pieces = payloadBytes pieces' :=
  (h.map _).sum_eq

/-- The counts that belong to what was answered. They are words. -/
def PieceCounts.of (policy : StatusPolicy) (heard : List Answered) : PieceCounts :=
  let taken := heard.filterMap (Answered.taken? policy)
  let moved := heard.filterMap Answered.moved?
  { pieces := (taken.length + moved.length) % Word.size
    bytes := (payloadBytes taken + payloadBytes moved) % Word.size
    resets := moved.length % Word.size }

end Transfer

def Metrics.TransferStats.pieceCounts (s : Metrics.TransferStats) : Transfer.PieceCounts where
  pieces := s.pieces
  bytes := s.pieceBytes
  resets := s.offsetResets

namespace Transfer
namespace PieceCounts

variable {policy : StatusPolicy} {heard : List Answered} {stats : Metrics.TransferStats}
  {x : Answered} {p : FilePiece}

/-- An answer that neither takes a piece nor sends a reader elsewhere adds nothing. -/
theorem of_cons_of_neither (untaken : x.taken? policy = none) (unmoved : x.moved? = none) :
    of policy (x :: heard) = of policy heard := by
  simp only [of, List.filterMap_cons, untaken, unmoved]

theorem of_cons_error (request : Request) (error : ClientError) :
    of policy (⟨request, .error error⟩ :: heard) = of policy heard := by
  cases request <;> rfl

theorem of_cons_tablets (b : TabletBatch) (answer : Except ClientError Response) :
    of policy (⟨.tablets b, answer⟩ :: heard) = of policy heard := by
  cases answer <;> rfl

theorem recordPiece (counted : stats.pieceCounts = of policy heard) (elapsed : Duration)
    (taken : x.taken? policy = some p) (unmoved : x.moved? = none) :
    (stats.recordPiece p.payload.length elapsed).pieceCounts = of policy (x :: heard) := by
  obtain ⟨hpieces, hbytes, hresets⟩ := PieceCounts.mk.inj counted
  simp only [of, List.filterMap_cons, taken, unmoved, List.length_cons, payloadBytes_cons]
  refine PieceCounts.mk.injEq .. ▸ ⟨?_, ?_, hresets⟩
  · exact (congrArg (Word.add · 1) hpieces).trans
      ((Nat.mod_add_mod ..).trans (congrArg (· % Word.size) (by omega)))
  · exact (congrArg (Word.add · p.payload.length) hbytes).trans
      ((Nat.mod_add_mod ..).trans (congrArg (· % Word.size) (by omega)))

theorem recordReset (counted : stats.pieceCounts = of policy heard) (elapsed : Duration)
    (untaken : x.taken? policy = none) (moved : x.moved? = some p) :
    (stats.recordOffsetReset.recordPiece p.payload.length elapsed).pieceCounts =
      of policy (x :: heard) := by
  obtain ⟨hpieces, hbytes, hresets⟩ := PieceCounts.mk.inj counted
  simp only [of, List.filterMap_cons, untaken, moved, List.length_cons, payloadBytes_cons]
  refine PieceCounts.mk.injEq .. ▸ ⟨?_, ?_, ?_⟩
  · exact (congrArg (Word.add · 1) hpieces).trans
      ((Nat.mod_add_mod ..).trans (congrArg (· % Word.size) (by omega)))
  · exact (congrArg (Word.add · p.payload.length) hbytes).trans
      ((Nat.mod_add_mod ..).trans (congrArg (· % Word.size) (by omega)))
  · exact (congrArg (Word.add · 1) hresets).trans (Nat.mod_add_mod ..)

end PieceCounts

namespace Attempt

/-- A piece counts when it was taken, and also when the reader was moved instead. -/
theorem stats_receive_piece (a : Attempt) (policy : StatusPolicy) (stats : Metrics.TransferStats)
    (elapsed : Duration) (part : Part) (reader : Reader) (offset count : Nat) (r : Response) :
    (a.receive policy stats elapsed (.piece part reader offset count) r).stats =
      if r.resetOffset.any (· ≤ maxSeek) then stats.recordOffsetReset.recordPiece count elapsed
      else if r.resetOffset.isNone && r.isTaken policy (a.fileName part) then
        stats.recordPiece count elapsed
      else stats := by
  simp only [receive]
  cases r.resetOffset with
  | some target =>
      by_cases hseek : target ≤ maxSeek
      · simp [hseek, Nat.not_lt.mpr hseek]
      · simp [hseek, Nat.lt_of_not_le hseek]
  | none =>
      rw [← judge_eq]
      cases hjudge : judge policy (a.fileName part) r with
      | mk judgement result => cases result <;> rfl

theorem stats_receive_seal (a : Attempt) (policy : StatusPolicy) (stats : Metrics.TransferStats)
    (elapsed : Duration) (r : Response) :
    (a.receive policy stats elapsed .seal r).stats = stats := by
  simp only [receive]
  split <;> rfl

/-- An attempt counts what its answers say, of the request that it made. -/
theorem pieceCounts_receive {a : Attempt} {sent : Sent} {request : Request}
    (asked : a.MayAsk (sent, request)) {policy : StatusPolicy} {heard : List Answered}
    {stats : Metrics.TransferStats} (counted : stats.pieceCounts = .of policy heard)
    (elapsed : Duration) (r : Response) :
    (a.receive policy stats elapsed sent r).stats.pieceCounts =
      .of policy (⟨request, .ok r⟩ :: heard) := by
  cases asked with
  | «seal» s commit =>
      rw [stats_receive_seal, counted]
      exact (PieceCounts.of_cons_of_neither rfl rfl).symm
  | piece part reader offset payload =>
      obtain ⟨p, hrequest, hfile, rfl⟩ : ∃ p, a.pieceRequest part offset payload = .piece p ∧
          p.file = a.fileName part ∧ p.payload = payload := ⟨_, rfl, rfl, rfl⟩
      have htaken := Answered.taken?_piece policy p r
      have hmoved := Answered.moved?_piece p r
      rw [stats_receive_piece, hrequest, ← hfile]
      split at hmoved <;> rename_i hreset
      · have hsome : r.resetOffset.isNone = false := by
          cases hoffset : r.resetOffset <;> simp [hoffset] at hreset ⊢
        rw [hsome] at htaken
        rw [if_pos hreset]
        exact PieceCounts.recordReset counted elapsed htaken hmoved
      · rw [if_neg hreset]
        split at htaken <;> rename_i hstays
        · rw [if_pos hstays]
          exact PieceCounts.recordPiece counted elapsed htaken hmoved
        · rw [if_neg hstays]
          exact counted.trans (PieceCounts.of_cons_of_neither htaken hmoved).symm

end Attempt

/-! ### A receiver -/

namespace Receiver

variable {r r' : Receiver} {requests : List Request}

/-- How many bytes longer the files of some names are in the second receiver. -/
def growth (r : Receiver) (names : Finset String) (r' : Receiver) : Nat :=
  ∑ name ∈ names, ((r'.contents name).length - (r.contents name).length)

/-- A receiver takes the pieces that it accepts, whatever else is tolerated. -/
theorem taken?_answered {request : Request} (works : r.Manages request) (policy : StatusPolicy) :
    (r.answered request).taken? policy = (r.answered request).acceptedPiece? := by
  match request with
  | .seal s => rfl
  | .tablets b => rfl
  | .piece p =>
      cases hbare : isBareName p.file with
      | false =>
          simp only [answered, receive_piece_unnamed hbare]
          rfl
      | true =>
          have hanswer := answer_piece (works p.file (List.mem_singleton.mpr rfl) hbare)
          simp only [answered, hanswer]
          split <;> rfl

/-- Every answer was given by the receiver at some moment. -/
theorem mem_answers {x : Answered} (works : ∀ request ∈ requests, r.Manages request)
    (hx : x ∈ r.answers requests) :
    ∃ (now : Receiver) (request : Request), request ∈ requests ∧ now.Manages request ∧
      x = now.answered request := by
  induction requests generalizing r with
  | nil => cases hx
  | cons request rest ih =>
      obtain ⟨hfirst, hrest⟩ := List.forall_mem_cons.mp works
      rcases List.mem_cons.mp hx with rfl | hx
      · exact ⟨r, request, List.mem_cons_self .., hfirst, rfl⟩
      · obtain ⟨now, other, hother, hworks, hanswered⟩ :=
          ih (fun other hother => (hrest other hother).receive request) hx
        exact ⟨now, other, List.mem_cons_of_mem _ hother, hworks, hanswered⟩

theorem taken_answers (works : ∀ request ∈ requests, r.Manages request) (policy : StatusPolicy) :
    (r.answers requests).filterMap (Answered.taken? policy) =
      (r.answers requests).filterMap Answered.acceptedPiece? := by
  refine List.filterMap_congr fun x hx => ?_
  obtain ⟨now, request, -, hworks, rfl⟩ := mem_answers works hx
  exact taken?_answered hworks policy

/-- A piece that was accepted is one that was asked for, under a name of a file. -/
theorem acceptedPiece_answers (works : ∀ request ∈ requests, r.Manages request) {x : Answered}
    (hx : x ∈ r.answers requests) {p : FilePiece} (accepted : x.acceptedPiece? = some p) :
    .piece p ∈ requests ∧ isBareName p.file = true := by
  obtain ⟨now, request, hrequest, hworks, rfl⟩ := mem_answers works hx
  match request with
  | .seal s => cases accepted
  | .tablets b => cases accepted
  | .piece q =>
      have hanswered : (now.answered (.piece q)).acceptedPiece? =
          if (now.answered (.piece q)).isAccepted then some q else none := rfl
      rw [hanswered] at accepted
      split at accepted
      · rename_i htook
        cases accepted
        exact ⟨hrequest, isBareName_of_accepted hworks htook (List.mem_singleton.mpr rfl)⟩
      · cases accepted

/-- What the accepted pieces add to the files of some names, their own among them. -/
theorem sum_pieces {names : Finset String} {log : List Answered}
    (known : ∀ x ∈ log, ∀ p, x.acceptedPiece? = some p → p.file ∈ names) :
    ∑ name ∈ names, (log.flatMap (Answered.pieceOf name)).length =
      payloadBytes (log.filterMap Answered.acceptedPiece?) := by
  induction log with
  | nil => exact Finset.sum_const_zero
  | cons x log ih =>
      obtain ⟨hfirst, hrest⟩ := List.forall_mem_cons.mp known
      have hx := Answered.sum_pieceOf hfirst
      simp only [List.flatMap_cons, List.length_append, Finset.sum_add_distrib, hx, ih hrest,
        List.filterMap_cons]
      cases x.acceptedPiece? with
      | none => exact Nat.zero_add _
      | some p => rfl

/-- What a receiver counts and appends is what was taken: all pieces that it accepted, and no
others. -/
theorem taken_of_answers (works : ∀ request ∈ requests, r.Manages request) (policy : StatusPolicy) :
    (r.pieces < Word.size → (r.after requests).pieces =
        (r.pieces + ((r.answers requests).filterMap (Answered.taken? policy)).length) %
          Word.size) ∧
      ∀ names : Finset String, tabletLog ∉ names →
        (∀ p, .piece p ∈ requests → isBareName p.file = true → p.file ∈ names) →
        r.growth names (r.after requests) =
          payloadBytes ((r.answers requests).filterMap (Answered.taken? policy)) := by
  have hgrown := grown_after works
  rw [taken_answers works]
  refine ⟨fun hword => ?_, fun names hlog hnames => ?_⟩
  · have hcount : (r.answers requests).countP Answered.isAcceptedPiece =
        ((r.answers requests).filterMap Answered.acceptedPiece?).length := by
      rw [List.length_filterMap_eq_countP]
      exact List.countP_congr fun x _ => by rw [x.isAcceptedPiece_eq]
    rw [hgrown.pieces hword, hcount]
  · rw [← sum_pieces fun x hx p haccepted =>
      let hasked := acceptedPiece_answers works hx haccepted
      hnames p hasked.1 hasked.2]
    refine Finset.sum_congr rfl fun name hname => ?_
    have hfile := hgrown.file name fun hsame => hlog (hsame ▸ hname)
    rw [hfile, List.length_append, Nat.add_sub_cancel_left]

end Receiver
end Transfer
end Courier
