import Courier.Proofs.Transfer.Sources
import Courier.Transfer.Peer

/-!
What one attempt may ask for, and in which order. `Protocol` says which request may follow which
answer. A `Course` is the same step by step, so that it can be followed by induction; of the answers
it says nothing.
-/

namespace Courier
namespace Transfer

/-- An exchange that is looked at too early stays what it is. -/
theorem Exchange.look_pending {x y : Exchange} {p p' : Peer} {d d' : Disk} {now : Nat}
    (h : x.look p d now = (p', d', .pending y)) :
    y.request = x.request ∧ y.deadline = x.deadline := by
  unfold look at h
  dsimp only at h
  split at h
  · split at h
    · cases h
    · split at h
      · cases h
      · cases h
        exact ⟨rfl, rfl⟩
  · split at h
    · cases h
    · cases h
      exact ⟨rfl, rfl⟩

/-- A request, what it was for, and what came of it. A request that is not answered in time comes to
an error. -/
structure Exchanged where
  sent : Sent
  request : Request
  askedAt : Nat
  answer : Except ClientError Response
  answeredAt : Nat

/-- The peer took what it was sent: it accepted it, or its refusal is tolerated. -/
def Response.isTaken (policy : StatusPolicy) (request : String) (r : Response) : Bool :=
  r.isAccepted || (policy.handle r.status request).isOk

namespace Attempt

/-- Where an attempt goes on after an answer, if it does. -/
def resumption (a : Attempt) (policy : StatusPolicy) :
    Sent → Except ClientError Response → Option (Part × Nat)
  | .seal, _ | _, .error _ => none
  | .piece part _ offset count, .ok r =>
      match r.resetOffset with
      | some target => if target ≤ maxSeek then some (part, target) else none
      | none => if r.isTaken policy (a.fileName part) then some (part, offset + count) else none

/-- Pieces of one part, the first of them at an offset. Each is the slice of the source where it
begins, and begins before the source ends. -/
def Pieces (a : Attempt) (src : Sources) (part : Part) (first : Nat) (xs : List Exchanged) : Prop :=
  (∀ x ∈ xs, ∃ offset < (src.bytes part).length,
    x.sent = sentAt src part offset (Bytes.slice (src.bytes part) offset a.bufferBytes).length ∧
      x.request = a.pieceOf src part offset) ∧
  ∀ x, xs.head? = some x → x.request = a.pieceOf src part first

def SealAtMost (a : Attempt) (src : Sources) (xs : List Exchanged) : Prop :=
  xs.length ≤ 1 ∧ ∀ x ∈ xs, x.sent = .seal ∧ x.request = a.sealOf src

/-- How an attempt of at most `limit` requests speaks with its peer. -/
structure Protocol (a : Attempt) (src : Sources) (policy : StatusPolicy) (limit : Nat)
    (xs : List Exchanged) : Prop where
  /-- Pieces of the file of modifications, if there is one, then pieces of the data file, then at
  most one seal. -/
  shape : ∃ ms ds ss, xs = ms ++ ds ++ ss ∧ a.Pieces src .mods 0 ms ∧ a.Pieces src .data 0 ds ∧
    a.SealAtMost src ss ∧ (a.file.mods = none → ms = [])
  within : xs.length ≤ limit
  begins : 0 < limit → xs.head?.map (·.request) = some (a.due src a.firstPart 0).2
  /-- What was asked for is followed by what is due where its answer says to go on, and by nothing
  when it says to stop. -/
  follows : ∀ i x, xs[i]? = some x → i + 1 < limit →
    xs[i + 1]?.map (·.request) =
      (a.resumption policy x.sent x.answer).map fun place => (a.due src place.1 place.2).2
  /-- A request is made when the one before was answered, not earlier. -/
  paced : ∀ i x y, xs[i]? = some x → xs[i + 1]? = some y →
    x.askedAt ≤ x.answeredAt ∧ x.answeredAt ≤ y.askedAt

/-- What may be exchanged from a place in the sources on, from some time on, in so many requests.
Nothing is said of the answers but what follows from them. -/
inductive Course (a : Attempt) (src : Sources) (policy : StatusPolicy) :
    Nat → Part → Nat → Nat → List Exchanged → Prop
  | spent {part : Part} {offset now : Nat} : Course a src policy 0 part offset now []
  | ended {limit : Nat} {part : Part} {offset now : Nat} {x : Exchanged}
      (due : (x.sent, x.request) = a.due src part offset)
      (asked : now ≤ x.askedAt ∧ x.askedAt ≤ x.answeredAt)
      (stops : a.resumption policy x.sent x.answer = none) :
      Course a src policy (limit + 1) part offset now [x]
  | goesOn {limit : Nat} {part part' : Part} {offset offset' now : Nat} {x : Exchanged}
      {xs : List Exchanged}
      (due : (x.sent, x.request) = a.due src part offset)
      (asked : now ≤ x.askedAt ∧ x.askedAt ≤ x.answeredAt)
      (resumes : a.resumption policy x.sent x.answer = some (part', offset'))
      (rest : Course a src policy limit part' offset' x.answeredAt xs) :
      Course a src policy (limit + 1) part offset now (x :: xs)

variable {a : Attempt} {src : Sources} {policy : StatusPolicy}

theorem judge_eq (policy : StatusPolicy) (request : String) (r : Response) :
    (judge policy request r).2.isOk = r.isTaken policy request := by
  unfold judge Response.isTaken
  split
  · rename_i hok
    rw [hok]
    rfl
  · rename_i hok
    rw [Bool.not_eq_true] at hok
    rw [hok, Bool.false_or]
    split <;> rename_i heq <;> rw [heq]

/-- Where `resumption` says to go on, the attempt goes on, and nowhere else. -/
theorem receive_sentAt (a : Attempt) (src : Sources) (policy : StatusPolicy)
    (stats : Metrics.TransferStats) (elapsed : Duration) (part : Part) (offset count : Nat)
    (r : Response) :
    (∀ place, a.resumption policy (sentAt src part offset count) (.ok r) = some place →
      (a.receive policy stats elapsed (sentAt src part offset count) r).result =
        .ok (some (stageAt src place.1 place.2))) ∧
    (a.resumption policy (sentAt src part offset count) (.ok r) = none →
      ∃ error, (a.receive policy stats elapsed (sentAt src part offset count) r).result =
        .error error) := by
  have hjudge := judge_eq policy (a.fileName part) r
  simp only [resumption, receive, sentAt, stageAt]
  cases r.resetOffset with
  | some target =>
      by_cases hseek : target ≤ maxSeek
      · simp [hseek, Nat.not_lt.mpr hseek]
      · simp [hseek, Nat.lt_of_not_le hseek]
  | none =>
      rw [← hjudge]
      cases hres : judge policy (a.fileName part) r with
      | mk judgement result => cases result <;> simp [Except.isOk, Except.toBool]

theorem isTaken_of_judge {policy : StatusPolicy} {request : String} {r : Response}
    (h : (judge policy request r).2 = .ok ()) :
    r.isTaken policy request = true := by
  rw [← judge_eq, h]
  rfl

theorem receive_complete {stats : Metrics.TransferStats} {elapsed : Duration} {sent : Sent}
    {r : Response} (h : (a.receive policy stats elapsed sent r).result = .ok none) :
    sent = .seal ∧ ∃ name, r.isTaken policy name = true := by
  cases sent with
  | piece part reader offset count =>
      simp only [receive] at h
      split at h
      · split at h <;> cases h
      · split at h <;> cases h
  | «seal» =>
      refine ⟨rfl, "seal " ++ a.dataName, isTaken_of_judge ?_⟩
      simp only [receive] at h
      split at h
      · rename_i heq
        rw [heq]
      · cases h

/-- What was sent leads on exactly where its answer says to go on. -/
theorem receive_sent {sent : Sent} (hsent : IsSentOf src sent) (stats : Metrics.TransferStats)
    (elapsed : Duration) (r : Response) (stage : Stage) :
    (a.receive policy stats elapsed sent r).result = .ok (some stage) ↔
      ∃ place, a.resumption policy sent (.ok r) = some place ∧
        stage = stageAt src place.1 place.2 := by
  rcases hsent with rfl | ⟨part, offset, count, rfl⟩
  · simp only [receive, resumption]
    split <;> simp
  · obtain ⟨hsome, hnone⟩ := receive_sentAt a src policy stats elapsed part offset count r
    cases hres : a.resumption policy (sentAt src part offset count) (.ok r) with
    | none =>
        obtain ⟨error, herror⟩ := hnone hres
        rw [herror]
        simp
    | some place =>
        rw [hsome place hres]
        simp [eq_comm]

/-- What is due while a data file is sent is a piece of it or the seal. -/
theorem due_data_cases (a : Attempt) (src : Sources) (offset : Nat) :
    (offset < (src.bytes .data).length ∧ a.due src .data offset =
      (sentAt src .data offset (Bytes.slice (src.bytes .data) offset a.bufferBytes).length,
        a.pieceOf src .data offset)) ∨
    a.due src .data offset = (.seal, a.sealOf src) := by
  by_cases hlt : offset < (src.bytes .data).length
  · exact .inl ⟨hlt, by simp only [due, pieceOr, hlt, if_true]⟩
  · exact .inr (by simp only [due, pieceOr, hlt, if_false])

/-- Past the end of the modifications, what is due is what is due at the beginning of the data. -/
theorem due_mods_cases (a : Attempt) (src : Sources) (offset : Nat) :
    (offset < (src.bytes .mods).length ∧ a.due src .mods offset =
      (sentAt src .mods offset (Bytes.slice (src.bytes .mods) offset a.bufferBytes).length,
        a.pieceOf src .mods offset)) ∨
    a.due src .mods offset = a.due src .data 0 := by
  by_cases hlt : offset < (src.bytes .mods).length
  · exact .inl ⟨hlt, by simp only [due, pieceOr, hlt, if_true]⟩
  · exact .inr (by simp only [due, pieceOr, hlt, if_false])

theorem due_sent (a : Attempt) (src : Sources) (part : Part) (offset : Nat) :
    IsSentOf src (a.due src part offset).1 := by
  have hdata (start : Nat) : IsSentOf src (a.due src .data start).1 := by
    rcases due_data_cases a src start with ⟨_, hpiece⟩ | hseal
    · exact .inr ⟨_, _, _, congrArg Prod.fst hpiece⟩
    · exact .inl (congrArg Prod.fst hseal)
  cases part with
  | data => exact hdata offset
  | mods =>
      rcases due_mods_cases a src offset with ⟨_, hpiece⟩ | hrest
      · exact .inr ⟨_, _, _, congrArg Prod.fst hpiece⟩
      · rw [hrest]
        exact hdata 0

theorem Pieces.nil {part : Part} (first : Nat) : a.Pieces src part first [] :=
  ⟨fun _ hx => absurd hx List.not_mem_nil, fun _ hx => by cases hx⟩

theorem Pieces.cons {part : Part} {offset first : Nat} {x : Exchanged} {xs : List Exchanged}
    (hlt : offset < (src.bytes part).length)
    (hx : (x.sent, x.request) =
      (sentAt src part offset (Bytes.slice (src.bytes part) offset a.bufferBytes).length,
        a.pieceOf src part offset))
    (hxs : a.Pieces src part first xs) :
    a.Pieces src part offset (x :: xs) := by
  obtain ⟨hsent, hrequest⟩ := Prod.mk.inj hx
  refine ⟨?_, ?_⟩
  · intro y hy
    cases hy with
    | head => exact ⟨offset, hlt, hsent, hrequest⟩
    | tail _ hy => exact hxs.1 y hy
  · intro y hy
    rw [← Option.some.inj hy]
    exact hrequest

theorem SealAtMost.nil : a.SealAtMost src [] :=
  ⟨Nat.zero_le 1, fun _ hx => absurd hx List.not_mem_nil⟩

theorem SealAtMost.one {x : Exchanged} (hx : (x.sent, x.request) = (.seal, a.sealOf src)) :
    a.SealAtMost src [x] := by
  refine ⟨Nat.le_refl 1, ?_⟩
  intro y hy
  rw [List.mem_singleton.mp hy]
  exact Prod.mk.inj hx

namespace Course

variable {limit : Nat} {part : Part} {offset now : Nat} {xs : List Exchanged}

theorem length_le (h : a.Course src policy limit part offset now xs) : xs.length ≤ limit := by
  induction h with
  | spent => exact Nat.le_refl 0
  | ended => exact Nat.succ_le_succ (Nat.zero_le _)
  | goesOn _ _ _ _ ih => exact Nat.succ_le_succ ih

theorem head_eq (h : a.Course src policy limit part offset now xs) (hpos : 0 < limit) :
    xs.head?.map (·.request) = some (a.due src part offset).2 := by
  cases h with
  | spent => exact absurd hpos (Nat.lt_irrefl 0)
  | ended hdue => rw [← hdue]; rfl
  | goesOn hdue => rw [← hdue]; rfl

theorem now_le_head (h : a.Course src policy limit part offset now xs) {x : Exchanged}
    (hx : xs[0]? = some x) :
    now ≤ x.askedAt := by
  cases h with
  | spent => cases hx
  | ended _ hasked => rw [← Option.some.inj hx]; exact hasked.1
  | goesOn _ hasked => rw [← Option.some.inj hx]; exact hasked.1

theorem follows (h : a.Course src policy limit part offset now xs) {i : Nat} {x : Exchanged}
    (hx : xs[i]? = some x) (hi : i + 1 < limit) :
    xs[i + 1]?.map (·.request) =
      (a.resumption policy x.sent x.answer).map fun place => (a.due src place.1 place.2).2 := by
  induction h generalizing i with
  | spent => cases hx
  | ended _ _ hstops =>
      cases i with
      | zero => rw [← Option.some.inj hx, hstops]; rfl
      | succ i => cases hx
  | goesOn _ _ hresumes hrest ih =>
      cases i with
      | zero =>
          -- What follows the first exchange is the head of the rest.
          have hhead := hrest.head_eq (Nat.lt_of_succ_lt_succ hi)
          rw [← Option.some.inj hx, hresumes, List.getElem?_cons_succ, ← List.head?_eq_getElem?]
          exact hhead
      | succ i => exact ih hx (Nat.lt_of_succ_lt_succ hi)

theorem paced (h : a.Course src policy limit part offset now xs) {i : Nat} {x y : Exchanged}
    (hx : xs[i]? = some x) (hy : xs[i + 1]? = some y) :
    x.askedAt ≤ x.answeredAt ∧ x.answeredAt ≤ y.askedAt := by
  induction h generalizing i with
  | spent => cases hx
  | ended => cases hy
  | goesOn _ hasked _ hrest ih =>
      cases i with
      | zero =>
          rw [← Option.some.inj hx]
          exact ⟨hasked.2, hrest.now_le_head hy⟩
      | succ i => exact ih hx hy

end Course
end Attempt
end Transfer
end Courier
