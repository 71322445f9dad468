import Courier.Proofs.Pipe.Items
import Courier.Proofs.Pipe.Meter

/-!
What a pipe counts of the pieces that it sends. Whatever happens to it, and whatever its peer
answers, the counts are those of the answers that it heard. A piece that was refused with an offset
at which to go on is counted like one that was taken: the counts tell what the peer took only as
long as it asks nobody to go on elsewhere.
-/

namespace Courier

open Transfer

namespace Pipe

variable {P : Type} {p p' : Pipe P} {policy : StatusPolicy}

/-! ### What was asked for -/

section Asked

/-- What was asked for becomes the one who asked: an attempt asks for what it may, and tablets for
no file. -/
def Item.IsApt : Item → Prop
  | .attempt a (some next) => a.MayAsk next
  | .sending _ _ (some request) => request.isOfFile = false
  | _ => True

theorem isApt_lasts : Item.Lasts Item.IsApt where
  plain x plain := by
    cases x with
    | attempt => cases plain
    | sending events payload asked =>
        cases asked with
        | none => trivial
        | some request => cases plain
    | _ => trivial
  prepared _ := trivial
  asksPiece _ due := Attempt.mayAsk_of_next due
  asksTablets _ _ _ := rfl

/-- Whatever a task asked for becomes it. -/
def IsApt (p : Pipe P) : Prop := ∀ t ∈ p.tasks, ∀ x ∈ t.process.items, x.IsApt

/-! ### What changes the meter -/

theorem look_fields {x : Exchange} {progress : Exchange.Progress}
    (h : p.look x = (p', progress)) :
    p'.connector = p.connector ∧ p'.heard =
      match progress with
      | .pending _ => p.heard
      | .done result => ⟨x.request, result⟩ :: p.heard := by
  unfold look at h
  dsimp only at h
  split at h <;> cases h <;> exact ⟨rfl, rfl⟩

/-- To take an answer in changes the counts as the attempt says, and nothing else of the meter. -/
theorem meter_answerTransfer (p : Pipe P) (id : TaskId) (a : Attempt) (client : ClientId)
    (pending : Pending) (x : Exchange) (r : Response) :
    (p.answerTransfer id a client pending x r).meter = { p.meter with
      counts := (a.receive p.connector.statusPolicy p.connector.stats
        (p.commons.elapsed x.sentAt) pending.sent r).stats.pieceCounts } := by
  obtain ⟨verdict, hverdict⟩ : ∃ verdict, a.receive p.connector.statusPolicy p.connector.stats
      (p.commons.elapsed x.sentAt) pending.sent r = verdict := ⟨_, rfl⟩
  rw [answerTransfer_eq p id client hverdict, hverdict]
  have hjudged : ((p.withStats verdict.stats).noteJudgement verdict.judgement).meter =
      { p.meter with counts := verdict.stats.pieceCounts } := (Silent.noteJudgement _ _).meter
  rw [← hjudged]
  cases verdict.result with
  | error error => exact (Fares.endTransfer _ id a client _ _).meter
  | ok stage? =>
      have htaken := (Silent.noteTaken ((p.withStats verdict.stats).noteJudgement
        verdict.judgement) x r).meter
      cases stage? with
      | none => exact (Fares.endTransfer _ id a client _ _).meter.trans htaken
      | some stage => exact (Fares.proceed _ id a client _ _).meter.trans htaken

theorem isRight_runTransfer (p : Pipe P) (id : TaskId) (a : Attempt) {link : Link Pending}
    (apt : ∀ x ∈ (Process.transfer a link).items, x.IsApt) (right : p.meter.IsRight policy) :
    (p.runTransfer id a link).meter.IsRight policy := by
  cases link with
  | asking | waiting =>
      simp only [runTransfer, (Fares.askForTransfer p id a).meter]
      exact right
  | exchanging client x pending =>
      have hasked : a.MayAsk (pending.sent, x.request) := apt _ (Multiset.mem_singleton_self _)
      cases hlook : p.look x with
      | mk q progress =>
          obtain ⟨hconnector, hheard⟩ := look_fields hlook
          simp only [runTransfer, hlook]
          cases progress with
          | pending y =>
              have hq : q.meter = p.meter := by simp only [meter, hconnector, hheard]
              exact hq ▸ right
          | done result =>
              cases result with
              | error error =>
                  rw [(Fares.endTransfer q id a client pending.buffer _).meter]
                  simp only [meter, hconnector, hheard]
                  exact ⟨right.judges, right.counts.trans (PieceCounts.of_cons_error ..).symm⟩
              | ok r =>
                  rw [meter_answerTransfer]
                  simp only [meter, hconnector, hheard]
                  obtain ⟨rfl, hcounts⟩ := right
                  exact ⟨rfl, Attempt.pieceCounts_receive hasked hcounts _ r⟩

/-- Tablets are no pieces, whatever comes of them. -/
theorem isRight_runTablets (p : Pipe P) (id : TaskId) (t : TabletSend) {link : Link Unit}
    (apt : ∀ x ∈ (Process.tablets t link).items, x.IsApt) (right : p.meter.IsRight policy) :
    (p.runTablets id t link).meter.IsRight policy := by
  cases link with
  | asking | waiting =>
      simp only [runTablets, (Silent.askForTablets p id t).meter]
      exact right
  | exchanging client x more =>
      have hasked : x.request.isOfFile = false := apt _ (Multiset.mem_cons_self _ _)
      cases hlook : p.look x with
      | mk q progress =>
          obtain ⟨hconnector, hheard⟩ := look_fields hlook
          cases progress with
          | pending y =>
              rw [runTablets_of_pending id hlook]
              have hq : q.meter = p.meter := by simp only [meter, hconnector, hheard]
              exact hq ▸ right
          | done result =>
              rw [runTablets_of_done id hlook, (Silent.afterTablets _ id t.purpose _).meter,
                (Fares.settle q t client x result).meter]
              cases hrequest : x.request with
              | piece p => rw [hrequest] at hasked; cases hasked
              | «seal» s => rw [hrequest] at hasked; cases hasked
              | tablets b =>
                  simp only [meter, hconnector, hheard, hrequest]
                  exact ⟨right.judges, right.counts.trans (PieceCounts.of_cons_tablets ..).symm⟩

theorem isRight_run [Batch.Payload P] (p : Pipe P) (id : TaskId) (apt : p.IsApt)
    (right : p.meter.IsRight policy) : (p.run id).meter.IsRight policy :=
  run_requests p id
    (fun a _ task => isRight_runTransfer p id a (apt _ (mem_of_task? task)) right)
    (fun t _ task => isRight_runTablets p id t (apt _ (mem_of_task? task)) right)
    fun _ silent => silent.meter ▸ right

end Asked

/-! ### Runs -/

section Runs

variable [Batch.Payload P]

/-- What holds of a pipe and its meter at any time. -/
structure Metered (policy : StatusPolicy) (p : Pipe P) : Prop where
  numbered : (p.books none 0).Numbered
  apt : p.IsApt
  right : p.meter.IsRight policy

theorem metered_of_new (new : p.IsNew) (fresh : p.connector.stats = {}) :
    p.Metered p.connector.statusPolicy := by
  refine ⟨numbered_of_new new, fun t ht => ?_, rfl, ?_⟩
  · rw [new.tasks] at ht
    cases ht
  · simp only [meter, heard, new.trace, fresh]
    rfl

/-- Nothing but a task that runs hears of an answer. -/
theorem Happening.meter (h : Happening p p') :
    p'.meter = p.meter ∨ ∃ t ∈ p.tasks, p' = p.run t.id := by
  rcases h.silent with hsilent | ⟨e, rfl⟩ | ⟨t, ht, -, rfl⟩
  · exact .inl hsilent.meter
  · exact .inl (Hands.addFailure p e).meter
  · exact .inr ⟨t, ht, rfl⟩

theorem Metered.happens (h : p.Metered policy) (happening : Happening p p') :
    p'.Metered policy := by
  refine ⟨happening.numbered h.numbered, isApt_lasts.happens happening h.numbered h.apt, ?_⟩
  rcases happening.meter with hsame | ⟨t, _, rfl⟩
  · exact hsame ▸ h.right
  · exact isRight_run p t.id h.apt h.right

theorem Metered.reaches (h : p.Metered policy) (reach : Relation.ReflTransGen Happening p p') :
    p'.Metered policy := by
  induction reach with
  | refl => exact h
  | tail _ hstep ih => exact ih.happens hstep

/-- Whatever happens to a pipe and whatever it is answered, it counts the pieces that the peer took
and, like those, the ones whose refusal sent the reader to another offset; it counts the resets to
offsets where a reader can be. The counts are words.

When a receiver had these requests and no others, and all its answers were heard, what was taken is
what it counts, in a word, and what it appended to its files. -/
theorem pieces_counted (new : p.IsNew) (fresh : p.connector.stats = {})
    (reach : Relation.ReflTransGen Happening p p') :
    let taken := p'.heard.filterMap (Answered.taken? p.connector.statusPolicy)
    let moved := p'.heard.filterMap Answered.moved?
    let stats := p'.connector.stats
    stats.pieces = (taken.length + moved.length) % Word.size ∧
      stats.pieceBytes = (payloadBytes taken + payloadBytes moved) % Word.size ∧
      stats.offsetResets = moved.length % Word.size ∧
      ∀ (r : Receiver) (requests : List Request), (∀ request ∈ requests, r.Manages request) →
        (r.answers requests).Perm p'.heard →
        (r.pieces < Word.size →
            (r.after requests).pieces = (r.pieces + taken.length) % Word.size) ∧
          ∀ names : Finset String, tabletLog ∉ names →
            (∀ q, .piece q ∈ requests → isBareName q.file = true → q.file ∈ names) →
            r.growth names (r.after requests) = payloadBytes taken := by
  intro taken moved stats
  obtain ⟨-, hcounts⟩ := ((metered_of_new new fresh).reaches reach).right
  obtain ⟨hpieces, hbytes, hresets⟩ := PieceCounts.mk.inj hcounts
  refine ⟨hpieces, hbytes, hresets, fun r requests works delivered => ?_⟩
  obtain ⟨hreceived, hgrown⟩ := Receiver.taken_of_answers works p.connector.statusPolicy
  have hperm : ((r.answers requests).filterMap
      (Answered.taken? p.connector.statusPolicy)).Perm taken := delivered.filterMap _
  refine ⟨hperm.length_eq ▸ hreceived, fun names hlog hnames => ?_⟩
  rw [hgrown names hlog hnames]
  exact payloadBytes_perm hperm

end Runs

/-- A file of four bytes. -/
def parcel : EventRef := ⟨0, {
  content := .file { data := "/d", mods := none, flushPoints := 0 }, pipe := "", region := 0
  commit := .zero, progress := 0 }⟩

/-- A pipe that sends two bytes at a time, to a receiver that has the first two. -/
def relocating : Pipe Batch.PlainPayload where
  commons := {}
  queue := { pipe := "q", settings := {}, block := 0 }
  batch := { id := "b", maxDelayMs := 1, slice := 0, payload := {} }
  connector := .create "c" { readBufferBytes := 2 }
  clients := .ofClients [0]
  disk := { names := [(["d"], 0)], contents := #[[1, 2, 3, 4]] }
  peer := { fallback := .pass, receiver := { files := [("d", [1, 2])] } }

/-- The first piece was refused, then the second was accepted, then the seal. -/
def relocated : Pipe Batch.PlainPayload :=
  (((((relocating.built 0).perform (.transferFile parcel)).1.run 0).run 0).run 0).run 0

theorem reaches_relocated : Relation.ReflTransGen Happening relocating relocated := by
  have hbegun : Relation.ReflTransGen Happening relocating
      ((relocating.built 0).perform (.transferFile parcel)).1 :=
    .head (.retuned _) (.single (.performed _))
  refine (((hbegun.tail (.ran_of_any ?_)).tail (.ran_of_any ?_)).tail (.ran_of_any ?_)).tail
    (.ran_of_any ?_)
  all_goals decide +kernel

def parcelPiece (offset : Nat) (payload : Bytes) : FilePiece where
  file := "d"
  offset := offset
  payload := payload
  withMods := false
  commit := .zero
  region := 0
  node := 0

/-- What the receiver was asked for, one after the other. -/
def relocatedRequests : List Request :=
  [.piece (parcelPiece 0 [1, 2]), .piece (parcelPiece 2 [3, 4]), .seal
    { mods := none, data := ⟨"d", 4⟩, flushPoints := 0, commit := .zero, region := 0,
      progress := 0, node := 0 }]

theorem heard_relocated :
    relocated.heard = (relocating.peer.receiver.answers relocatedRequests).reverse := by
  decide +kernel

theorem receiver_relocated :
    relocated.peer.receiver = relocating.peer.receiver.after relocatedRequests := by
  decide +kernel

theorem manages_relocated : ∀ request ∈ relocatedRequests,
    relocating.peer.receiver.Manages request := by
  have hadmits : relocating.peer.receiver.Admits "d" :=
    ⟨by decide +kernel, by decide +kernel, by decide +kernel⟩
  have named (name : String) (hname : name ∈ ["d"]) :
      isBareName name = true → relocating.peer.receiver.Admits name :=
    fun _ => List.mem_singleton.mp hname ▸ hadmits
  intro request hrequest
  simp only [relocatedRequests, List.mem_cons, List.not_mem_nil, or_false] at hrequest
  rcases hrequest with rfl | rfl | rfl <;> exact named

theorem pieces_relocated :
    relocated.heard.filterMap (Answered.taken? relocating.connector.statusPolicy) =
        [parcelPiece 2 [3, 4]] ∧
      relocated.heard.filterMap Answered.moved? = [parcelPiece 0 [1, 2]] := by
  rw [heard_relocated]
  exact ⟨by decide +kernel, by decide +kernel⟩

theorem pieces_counted_relocated :
    let taken := relocated.heard.filterMap (Answered.taken? relocating.connector.statusPolicy)
    let moved := relocated.heard.filterMap Answered.moved?
    let stats := relocated.connector.stats
    (taken = [parcelPiece 2 [3, 4]] ∧ moved = [parcelPiece 0 [1, 2]]) ∧
      (stats.pieces = 2 ∧ stats.pieceBytes = 4 ∧ stats.offsetResets = 1) ∧
      relocated.peer.receiver.pieces = 0 + taken.length ∧
      relocating.peer.receiver.growth {"d"} relocated.peer.receiver = payloadBytes taken := by
  intro taken moved stats
  obtain ⟨htaken, hmoved⟩ := pieces_relocated
  have new : relocating.IsNew := ⟨rfl, rfl, rfl, rfl, rfl, rfl, rfl, rfl, rfl, rfl, rfl⟩
  have delivered : (relocating.peer.receiver.answers relocatedRequests).Perm relocated.heard :=
    heard_relocated ▸ (List.reverse_perm _).symm
  have hnames : ∀ q, .piece q ∈ relocatedRequests → isBareName q.file = true →
      q.file ∈ ({"d"} : Finset String) := by
    intro q hq _
    simp only [relocatedRequests, List.mem_cons, List.not_mem_nil, or_false, reduceCtorEq,
      Request.piece.injEq] at hq
    rcases hq with rfl | rfl <;> exact Finset.mem_singleton_self _
  obtain ⟨hpieces, hbytes, hresets, hreceived⟩ := pieces_counted new rfl reaches_relocated
  obtain ⟨hcount, hgrowth⟩ := hreceived _ relocatedRequests manages_relocated delivered
  rw [htaken, hmoved] at hpieces hbytes
  rw [hmoved] at hresets
  refine ⟨⟨htaken, hmoved⟩, ⟨hpieces.trans (by decide), hbytes.trans (by decide),
    hresets.trans (by decide)⟩, ?_⟩
  rw [receiver_relocated]
  have hfits : 0 + taken.length < Word.size := by
    rw [show taken.length = 1 from congrArg List.length htaken]
    decide
  exact ⟨(hcount (by decide)).trans (Nat.mod_eq_of_lt hfits), hgrowth {"d"} (by decide) hnames⟩

/-- The piece that was refused is counted as if it had been taken, and so are its bytes. -/
theorem refused_piece_counted :
    let taken := relocated.heard.filterMap (Answered.taken? relocating.connector.statusPolicy)
    Relation.ReflTransGen Happening relocating relocated ∧
      (relocated.connector.stats.pieces = 2 ∧ taken.length = 1 ∧
        relocated.peer.receiver.pieces = 1) ∧
      (relocated.connector.stats.pieceBytes = 4 ∧ payloadBytes taken = 2 ∧
        relocating.peer.receiver.growth {"d"} relocated.peer.receiver = 2) := by
  have hpieces : relocated.connector.stats.pieces = 2 := by decide +kernel
  have hbytes : relocated.connector.stats.pieceBytes = 4 := by decide +kernel
  have hreceived : (relocating.peer.receiver.after relocatedRequests).pieces = 1 := by
    decide +kernel
  have hgrowth : relocating.peer.receiver.growth {"d"}
      (relocating.peer.receiver.after relocatedRequests) = 2 := by
    rw [Receiver.growth, Finset.sum_singleton]
    decide +kernel
  rw [pieces_relocated.1, receiver_relocated]
  exact ⟨reaches_relocated, ⟨hpieces, rfl, hreceived⟩, hbytes, rfl, hgrowth⟩

end Pipe
end Courier
