import Courier.Proofs.Transfer.Receiver
import Courier.Proofs.Transfer.Sources
import Courier.Transfer.Peer

/-!
A peer that takes every batch of tablets. Whatever it makes of files, a batch reaches its receiver
in time and is appended to the log, and nothing else is.
-/

namespace Courier
namespace Transfer

/-- The request is about a file. -/
def Request.isOfFile : Request → Bool
  | .piece _ | .seal _ => true
  | .tablets _ => false

section Receivers

variable {r : Receiver}

theorem Receiver.appendFailure?_appendTo (r : Receiver) (name other : String) (bytes : Bytes) :
    (r.appendTo name bytes).appendFailure? other = r.appendFailure? other := by
  unfold appendTo
  split <;> rfl

theorem Receiver.appendFailure?_receive (r : Receiver) (request : Request) (name : String) :
    (r.receive request).1.appendFailure? name = r.appendFailure? name := by
  match request with
  | .piece p =>
      simp only [receive, receivePiece]
      split
      · rfl
      · split
        · rfl
        · split
          · rfl
          · exact appendFailure?_appendTo r p.file name p.payload
  | .seal s =>
      simp only [receive, receiveSeal]
      split <;> rfl
  | .tablets b =>
      simp only [receive, receiveTablets]
      split
      · rfl
      · exact appendFailure?_appendTo r tabletLog name b.payload

/-- No file may take the name of the log. -/
theorem Receiver.log_receivePiece (r : Receiver) (p : FilePiece) :
    (r.receivePiece p).1.contents tabletLog = r.contents tabletLog := by
  unfold receivePiece
  split
  · rfl
  · rename_i length hlength
    have hname : p.file ≠ tabletLog := by
      intro hname
      have hchecked : checkName p.file = .error (.invalidRequest
          ("invalid file name '" ++ p.file ++ "'")) := by
        rw [checkName, hname, if_neg (by simp [isBareName])]
      rw [hchecked] at hlength
      cases hlength
    split
    · rfl
    · split
      · rfl
      · exact (contents_appendTo r p.file tabletLog p.payload).trans (if_neg (Ne.symm hname))

theorem Receiver.log_receive {request : Request} (file : request.isOfFile = true) :
    (r.receive request).1.contents tabletLog = r.contents tabletLog := by
  match request with
  | .piece p => exact r.log_receivePiece p
  | .seal s =>
      simp only [receive, receiveSeal]
      split <;> rfl

end Receivers

namespace Peer

variable {p p' : Peer} {limit : Nat}

/-- All outcomes that are listed under a key are as `P` says of it. -/
def Lists (P : String → Outcome → Prop) (p : Peer) : Prop :=
  ∀ key outcomes, (key, outcomes) ∈ p.script → ∀ o ∈ outcomes, P key o

theorem Lists.drawFrom? {P : String → Outcome → Prop} (h : p.Lists P) {key : String} {o : Outcome}
    (drawn : p.drawFrom? key = some (o, p')) :
    P key o ∧ ∃ script, p' = { p with script := script } ∧ p'.Lists P := by
  unfold Peer.drawFrom? at drawn
  split at drawn
  · rename_i outcome rest hrow
    cases drawn
    obtain ⟨before, after, hscript, -⟩ := List.lookup_eq_some_iff.mp hrow
    have hlisted : (key, o :: rest) ∈ p.script := by
      rw [hscript]
      exact List.mem_append_right _ (List.mem_cons_self ..)
    refine ⟨h key _ hlisted o (List.mem_cons_self ..), _, rfl, ?_⟩
    intro other outcomes hmem
    obtain ⟨row, hrow, hsame⟩ := List.mem_map.mp hmem
    split at hsame
    · cases hsame
      exact fun o' ho' => h _ _ hlisted o' (List.mem_cons_of_mem o ho')
    · cases hsame
      exact h _ _ hrow
  · cases drawn

/-- What is drawn is listed under its key or under the common one, or it is what never runs out;
what stays is listed as before. -/
theorem Lists.draw {P : String → Outcome → Prop} (h : p.Lists P) (key : String) :
    (P key (p.draw key).1 ∨ P commonKey (p.draw key).1 ∨
        (p.draw key).1 = { reaction := p.fallback }) ∧
      ∃ script, (p.draw key).2 = { p with script := script } ∧ (p.draw key).2.Lists P := by
  unfold Peer.draw
  split
  · rename_i hdrawn
    obtain ⟨hlisted, hrest⟩ := h.drawFrom? hdrawn
    exact ⟨.inl hlisted, hrest⟩
  · split
    · rename_i hdrawn
      obtain ⟨hlisted, hrest⟩ := h.drawFrom? hdrawn
      exact ⟨.inr (.inl hlisted), hrest⟩
    · exact ⟨.inr (.inr rfl), p.script, rfl, h⟩

/-- The bytes of all tablets that the receiver took. -/
def log (p : Peer) : Bytes := p.receiver.contents tabletLog

/-- Whatever outcome a batch may draw passes it on within the time limit, to a receiver that can
write its log. -/
structure Accepts (limit : Nat) (p : Peer) : Prop where
  fallback : p.fallback = .pass
  rows : ∀ key outcomes, (key, outcomes) ∈ p.script → key = "batch" ∨ key = commonKey →
    ∀ o ∈ outcomes, o.reaction = .pass ∧ o.delayMs ≤ limit
  apart : p.place = none
  writable : p.receiver.appendFailure? tabletLog = none

theorem Accepts.lists (h : p.Accepts limit) :
    p.Lists fun key o =>
      key = "batch" ∨ key = commonKey → o.reaction = .pass ∧ o.delayMs ≤ limit :=
  fun key outcomes hrow o ho hkey => h.rows key outcomes hrow hkey o ho

theorem Accepts.draw (h : p.Accepts limit) (key : String) :
    (p.draw key).2.Accepts limit ∧ (p.draw key).2.receiver = p.receiver := by
  obtain ⟨-, script, hsame, hlists⟩ := h.lists.draw key
  rw [hsame] at hlists ⊢
  exact ⟨⟨h.fallback, fun key outcomes hrow hkey o ho => hlists key outcomes hrow o ho hkey,
    h.apart, h.writable⟩, rfl⟩

theorem Accepts.draw_batch (h : p.Accepts limit) :
    (p.draw "batch").1.reaction = .pass ∧ (p.draw "batch").1.delayMs ≤ limit := by
  rcases (h.lists.draw "batch").1 with hlisted | hcommon | hlast
  · exact hlisted (.inl rfl)
  · exact hcommon (.inr rfl)
  · rw [hlast]
    exact ⟨h.fallback, Nat.zero_le _⟩

theorem Accepts.pass (h : p.Accepts limit) (d : Disk) (request : Request) :
    (p.pass d request).1.Accepts limit := by
  have happend := p.receiver.appendFailure?_receive request tabletLog
  simp only [Peer.pass, h.apart]
  exact ⟨h.fallback, h.rows, rfl, happend.trans h.writable⟩

theorem Accepts.log_pass (h : p.Accepts limit) (d : Disk) {request : Request}
    (file : request.isOfFile = true) : (p.pass d request).1.log = p.log := by
  simp only [Peer.pass, h.apart]
  exact Receiver.log_receive file

theorem Accepts.pass_batch (h : p.Accepts limit) (d : Disk) (b : TabletBatch) :
    (p.pass d (.tablets b)).2.2 = .ok .success ∧
      (p.pass d (.tablets b)).1.log = p.log ++ b.payload := by
  simp only [Peer.pass, h.apart, Receiver.receive, Receiver.receiveTablets, h.writable]
  exact ⟨trivial, (p.receiver.contents_appendTo tabletLog tabletLog b.payload).trans (if_pos rfl)⟩

end Peer

namespace Exchange

variable {x : Exchange} {p : Peer} {limit : Nat}

theorem accepts_look (h : p.Accepts limit) (d : Disk) (now : Nat)
    (file : x.request.isOfFile = true) :
    (x.look p d now).1.Accepts limit ∧ (x.look p d now).1.log = p.log := by
  have hconclude (reaction : Reaction) (d : Disk) :
      (p.conclude d x.request reaction).1.Accepts limit ∧
        (p.conclude d x.request reaction).1.log = p.log := by
    cases reaction with
    | pass => exact ⟨h.pass d x.request, h.log_pass d file⟩
    | _ => exact ⟨h, rfl⟩
  unfold look
  dsimp only
  split
  · have hafter := hconclude x.outcome.reaction (x.outcome.applyTo d)
    split <;> rename_i heq <;> rw [heq] at hafter <;> exact hafter
  · exact ⟨h, rfl⟩

/-- A batch on its way to the receiver, which it will reach in time. -/
structure Delivers (payload : Bytes) (x : Exchange) : Prop where
  batch : ∃ b, x.request = .tablets b ∧ b.payload = payload
  passes : x.outcome.reaction = .pass
  unsettled : x.settled = false
  inTime : x.dueAt ≤ x.deadline

theorem delivers_send (h : p.Accepts limit) {request : Request} {payload : Bytes}
    (batch : ∃ b, request = .tablets b ∧ b.payload = payload) (now : Nat) :
    (Exchange.send p request now limit).1.Delivers payload := by
  obtain ⟨b, rfl, rfl⟩ := batch
  obtain ⟨hpass, hdelay⟩ := h.draw_batch
  exact ⟨⟨b, rfl, rfl⟩, hpass, rfl, Nat.add_le_add_left hdelay now⟩

/-- Until it is there nothing happens to a batch, and then it is in the log. -/
theorem look_of_delivers {payload : Bytes} (hx : x.Delivers payload) (h : p.Accepts limit)
    (d : Disk) (now : Nat) :
    ((x.look p d now).2.2 = .pending x ∧ (x.look p d now).1 = p) ∨
      ((x.look p d now).2.2 = .done (.ok .success) ∧ (x.look p d now).1.Accepts limit ∧
        (x.look p d now).1.log = p.log ++ payload) := by
  obtain ⟨b, hrequest, rfl⟩ := hx.batch
  unfold look
  dsimp only
  by_cases hdue : x.dueAt ≤ now
  · right
    have hpassed := h.pass_batch (x.outcome.applyTo d) b
    have haccepts := h.pass (x.outcome.applyTo d) (.tablets b)
    rw [if_pos (by simp [hx.unsettled, hdue, hx.inTime])]
    simp only [Peer.conclude, hx.passes, hrequest]
    exact ⟨congrArg Progress.done hpassed.1, haccepts, hpassed.2⟩
  · left
    have hopen : ¬ x.deadline ≤ now := fun hle => hdue (Nat.le_trans hx.inTime hle)
    rw [if_neg (by simp [hdue]), if_neg hopen]
    exact ⟨rfl, rfl⟩

end Exchange

namespace Attempt

variable {a : Attempt} {d : Disk} {sent : Sent} {request : Request}

/-- An attempt asks for nothing but pieces and seals. -/
theorem next_isOfFile {stage : Stage} (h : a.next d stage = .ok (sent, request)) :
    request.isOfFile = true := by
  cases mayAsk_of_next h <;> rfl

end Attempt
end Transfer
end Courier
