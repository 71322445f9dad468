import Courier.Proofs.Transfer.Course
import Courier.Proofs.Transfer.Receiver
import Mathlib.Control.Monad.Basic
import Mathlib.Logic.Relation

/-!
Attempts and a receiver with an unreliable way between them. Attempts begin, go on and stop in any
order, and what they are answered is arbitrary. A request that was made is delivered at any later
time, any number of times or never; an answer that is lost is one that is not heard. Others may use
the same receiver as long as they write under no name of a source.

A source is known by its name: `origin` says what the file of that name contains. So the file of
modifications and the data file have different names unless they are the same.
-/

namespace Courier
namespace Transfer

/-- The name under which a request may write. -/
def Request.target? : Request → Option String
  | .piece p => some p.file
  | .seal _ => none
  | .tablets _ => some tabletLog

inductive Phase
  | ready (stage : Stage)
  | waiting (sent : Sent)
  | over

structure Sender where
  attempt : Attempt
  src : Sources
  phase : Phase

def Phase.after (result : Except TransferError (Option Stage)) : Phase :=
  match result with
  | .ok (some stage) => .ready stage
  | _ => .over

structure Traffic where
  receiver : Receiver
  senders : List Sender := []
  /-- The requests made so far, each with the attempt that made it. -/
  made : List (Attempt × Request) := []

namespace Traffic

inductive Step (origin : String → Option Bytes) : Traffic → Traffic → Prop
  | begins {w : Traffic} (e : EventRef) (settings : Settings) (now : Nat) {a : Attempt}
      {src : Sources} {d : Disk} {stage : Stage}
      (prepared : Attempt.prepare e settings now = .ok a)
      (named : ∀ part, origin (a.fileName part) = some (src.bytes part))
      (unchanged : a.ReadsFrom src d)
      (opened : a.start d = .ok stage) :
      Step origin w { w with senders := ⟨a, src, .ready stage⟩ :: w.senders }
  | asks {w : Traffic} (before after : List Sender) {a : Attempt} {src : Sources} {stage : Stage}
      {d : Disk} {sent : Sent} {request : Request}
      (here : w.senders = before ++ ⟨a, src, .ready stage⟩ :: after)
      (unchanged : a.ReadsFrom src d)
      (next : a.next d stage = .ok (sent, request)) :
      Step origin w { w with
        senders := before ++ ⟨a, src, .waiting sent⟩ :: after
        made := (a, request) :: w.made }
  | hears {w : Traffic} (before after : List Sender) {a : Attempt} {src : Sources} {sent : Sent}
      (policy : StatusPolicy) (stats : Metrics.TransferStats) (elapsed : Duration) (r : Response)
      (here : w.senders = before ++ ⟨a, src, .waiting sent⟩ :: after) :
      Step origin w { w with
        senders := before ++
          ⟨a, src, .after (a.receive policy stats elapsed sent r).result⟩ :: after }
  | stops {w : Traffic} (before after : List Sender) {s : Sender}
      (here : w.senders = before ++ s :: after) :
      Step origin w { w with senders := before ++ { s with phase := .over } :: after }
  | delivers {w : Traffic} {a : Attempt} {request : Request}
      (made : (a, request) ∈ w.made) :
      Step origin w { w with receiver := (w.receiver.receive request).1 }
  | interferes {w : Traffic} {request : Request}
      (elsewhere : ∀ name, request.target? = some name → origin name = none) :
      Step origin w { w with receiver := (w.receiver.receive request).1 }

abbrev Reaches (origin : String → Option Bytes) : Traffic → Traffic → Prop :=
  Relation.ReflTransGen (Step origin)

end Traffic

/-- What an attempt asks for says the truth about the sources: a piece is a slice of one, a seal
announces both with their lengths. -/
def Request.IsTrue (origin : String → Option Bytes) (a : Attempt) : Request → Prop
  | .piece p => ∃ bytes, origin p.file = some bytes ∧ p.payload <+: bytes.drop p.offset
  | .seal s => ∀ part, ∃ bytes, origin (a.fileName part) = some bytes ∧
      { name := a.fileName part, length := bytes.length } ∈ s.mods.toList ++ [s.data]
  | .tablets _ => False

/-- The reader of an attempt stands where its offset says. -/
def Phase.IsAligned (src : Sources) : Phase → Prop
  | .ready stage => ∃ part offset, stage = Attempt.stageAt src part offset
  | .waiting sent => Attempt.IsSentOf src sent
  | .over => True

structure Sender.IsFaithful (origin : String → Option Bytes) (s : Sender) : Prop where
  buffer : 0 < s.attempt.bufferBytes
  named : ∀ part, origin (s.attempt.fileName part) = some (s.src.bytes part)
  aligned : s.phase.IsAligned s.src

/-- Under the name of a source the receiver has nothing, or a file that is a prefix of it. -/
def Receiver.HoldsPrefixes (origin : String → Option Bytes) (r : Receiver) : Prop :=
  ∀ name bytes, origin name = some bytes → name ∉ r.directories ∧ r.contents name <+: bytes

structure Traffic.IsFaithful (origin : String → Option Bytes) (w : Traffic) : Prop where
  senders : ∀ s ∈ w.senders, s.IsFaithful origin
  made : ∀ x ∈ w.made, x.2.IsTrue origin x.1
  stored : w.receiver.HoldsPrefixes origin

variable {origin : String → Option Bytes} {a : Attempt} {src : Sources}

namespace Attempt

theorem isTrue_pieceOf {part : Part} (h : origin (a.fileName part) = some (src.bytes part))
    (offset : Nat) :
    (a.pieceOf src part offset).IsTrue origin a :=
  ⟨src.bytes part, h, Bytes.slice_prefix_drop _ _ _⟩

theorem isTrue_sealOf (h : ∀ part, origin (a.fileName part) = some (src.bytes part)) :
    (a.sealOf src).IsTrue origin a := by
  intro part
  refine ⟨src.bytes part, h part, ?_⟩
  cases part with
  | data => simp [fileName]
  | mods =>
      cases hname : a.modsName with
      | some name => simp [fileName, hname]
      | none =>
          -- Without modifications the data file stands for both parts.
          have hmods := h .mods
          have hdata := h .data
          simp only [fileName, hname, Option.getD_none] at hmods hdata
          rw [hmods] at hdata
          simp [fileName, hname, Option.some.inj hdata]

theorem isTrue_due (h : ∀ part, origin (a.fileName part) = some (src.bytes part)) (part : Part)
    (offset : Nat) :
    (a.due src part offset).2.IsTrue origin a := by
  have hdata (start : Nat) : (a.due src .data start).2.IsTrue origin a := by
    rcases due_data_cases a src start with ⟨_, hpiece⟩ | hseal
    · rw [hpiece]
      exact isTrue_pieceOf (h .data) start
    · rw [hseal]
      exact isTrue_sealOf h
  cases part with
  | data => exact hdata offset
  | mods =>
      rcases due_mods_cases a src offset with ⟨_, hpiece⟩ | hrest
      · rw [hpiece]
        exact isTrue_pieceOf (h .mods) offset
      · rw [hrest]
        exact hdata 0

theorem isAligned_after {sent : Sent} (hsent : IsSentOf src sent) (policy : StatusPolicy)
    (stats : Metrics.TransferStats) (elapsed : Duration) (r : Response) :
    (Phase.after (a.receive policy stats elapsed sent r).result).IsAligned src := by
  cases hresult : (a.receive policy stats elapsed sent r).result with
  | error error => trivial
  | ok left =>
      cases left with
      | none => trivial
      | some stage =>
          obtain ⟨place, _, hstage⟩ := (receive_sent hsent stats elapsed r stage).mp hresult
          exact ⟨place.1, place.2, hstage⟩

end Attempt

namespace Receiver

variable {r : Receiver}

/-- A true slice that goes on where the contents end leaves them a prefix of the source. -/
theorem prefix_append {contents payload bytes : Bytes} (h : contents <+: bytes)
    (hpayload : payload <+: bytes.drop contents.length) :
    contents ++ payload <+: bytes := by
  have hwhole : bytes = contents ++ bytes.drop contents.length := by
    obtain ⟨rest, rfl⟩ := h
    rw [List.drop_left]
  rw [hwhole]
  exact (List.prefix_append_right_inj contents).mpr hpayload

/-- A request keeps prefixes when it tells the truth about the sources that it writes to. -/
theorem HoldsPrefixes.receive (h : r.HoldsPrefixes origin) {request : Request}
    (hpiece : ∀ p bytes, request = .piece p → origin p.file = some bytes →
      p.payload <+: bytes.drop p.offset)
    (htablets : ∀ b, request = .tablets b → origin tabletLog = none) :
    (r.receive request).1.HoldsPrefixes origin := by
  intro name bytes hbytes
  obtain ⟨hdirectory, hprefix⟩ := h name bytes hbytes
  refine ⟨by rwa [directories_receive], ?_⟩
  rcases contents_receive r request name with
    hsame | ⟨p, hp, hfile, hoffset, happend⟩ | ⟨b, hb, hlog⟩
  · rw [hsame]
    exact hprefix
  · rw [happend]
    have hpayload := hpiece p bytes hp (by rw [hfile]; exact hbytes)
    rw [hoffset] at hpayload
    exact prefix_append hprefix hpayload
  · rw [hlog, htablets b hb] at hbytes
    cases hbytes

/-- A file that is a prefix of its source and as long as it is the source. -/
theorem contents_eq_of_length (h : r.HoldsPrefixes origin) {name : String} {bytes : Bytes}
    (hbytes : origin name = some bytes) (hlength : r.lengthOf name = .ok bytes.length) :
    r.contents name = bytes := by
  obtain ⟨hdirectory, hprefix⟩ := h name bytes hbytes
  rcases lengthOf_cases hlength hdirectory with hlen | ⟨_, hzero⟩
  · exact hprefix.eq_of_length hlen.symm
  · have hnil : bytes = [] := List.eq_nil_of_length_eq_zero hzero
    rw [hnil] at hprefix ⊢
    exact List.prefix_nil.mp hprefix

end Receiver

namespace Traffic

variable {w w' : Traffic}

theorem IsFaithful.of_replaced {s s' : Sender} {before after : List Sender}
    (h : w.IsFaithful origin) (here : w.senders = before ++ s :: after)
    (hs : s.IsFaithful origin → s'.IsFaithful origin) :
    ∀ x ∈ before ++ s' :: after, x.IsFaithful origin := by
  have hall := h.senders
  rw [here] at hall
  intro x hx
  rcases List.mem_append.mp hx with hx | hx
  · exact hall x (List.mem_append_left _ hx)
  · cases hx with
    | head => exact hs (hall s (List.mem_append_right _ (List.mem_cons_self ..)))
    | tail _ hx => exact hall x (List.mem_append_right _ (List.mem_cons_of_mem _ hx))

theorem IsFaithful.sender {s : Sender} {before after : List Sender} (h : w.IsFaithful origin)
    (here : w.senders = before ++ s :: after) :
    s.IsFaithful origin := by
  apply h.senders
  rw [here]
  exact List.mem_append_right _ (List.mem_cons_self ..)

theorem Step.preserves (hstep : Step origin w w') (h : w.IsFaithful origin) :
    w'.IsFaithful origin := by
  cases hstep with
  | @begins e settings now a src d stage prepared named unchanged opened =>
      have hb : 0 < a.bufferBytes := by
        rw [Attempt.prepare_bufferBytes prepared]
        exact Nat.le_max_right _ 1
      rw [Attempt.start_eq unchanged] at opened
      refine ⟨?_, h.made, h.stored⟩
      intro s hs
      cases hs with
      | head => exact ⟨hb, named, a.firstPart, 0, (Except.ok.inj opened).symm⟩
      | tail _ hs => exact h.senders s hs
  | @asks before after a src stage d sent request here unchanged next =>
      obtain ⟨hb, named, part, offset, hstage⟩ := h.sender here
      dsimp only at hstage
      rw [hstage, Attempt.next_stageAt unchanged hb] at next
      have hdue : a.due src part offset = (sent, request) := Except.ok.inj next
      refine ⟨h.of_replaced here fun hs => ⟨hs.buffer, hs.named, ?_⟩, ?_, h.stored⟩
      · have hsent := Attempt.due_sent a src part offset
        rw [hdue] at hsent
        exact hsent
      · intro x hx
        cases hx with
        | head =>
            have htrue := Attempt.isTrue_due named part offset
            rw [hdue] at htrue
            exact htrue
        | tail _ hx => exact h.made x hx
  | @hears before after a src sent policy stats elapsed r here =>
      exact ⟨h.of_replaced here fun hs =>
        ⟨hs.buffer, hs.named, Attempt.isAligned_after hs.aligned policy stats elapsed r⟩,
        h.made, h.stored⟩
  | stops before after here =>
      exact ⟨h.of_replaced here fun hs => ⟨hs.buffer, hs.named, trivial⟩, h.made, h.stored⟩
  | delivers made =>
      have htrue := h.made _ made
      refine ⟨h.senders, h.made, h.stored.receive ?_ ?_⟩
      · intro p bytes hp hbytes
        subst hp
        obtain ⟨bytes', hbytes', hpayload⟩ := htrue
        rw [hbytes] at hbytes'
        rw [Option.some.inj hbytes']
        exact hpayload
      · intro b hb
        subst hb
        exact htrue.elim
  | interferes elsewhere =>
      refine ⟨h.senders, h.made, h.stored.receive ?_ ?_⟩
      · intro p bytes hp hbytes
        rw [elsewhere p.file (by rw [hp]; rfl)] at hbytes
        cases hbytes
      · intro b hb
        exact elsewhere tabletLog (by rw [hb]; rfl)

theorem Reaches.preserves (hreach : Reaches origin w w') (h : w.IsFaithful origin) :
    w'.IsFaithful origin := by
  induction hreach with
  | refl => exact h
  | tail _ hstep ih => exact hstep.preserves ih

/-- Whatever is lost, repeated or late, the receiver's file is a prefix of the source, and once a
seal is accepted it is the source. -/
theorem stored_prefix_and_sealed_whole {start w : Traffic}
    (hsenders : start.senders = []) (hmade : start.made = [])
    (hstored : start.receiver.HoldsPrefixes origin) (hreach : Reaches origin start w) :
    (∀ name bytes, origin name = some bytes → w.receiver.contents name <+: bytes) ∧
    ∀ a s answer, (a, Request.seal s) ∈ w.made →
      (w.receiver.receive (.seal s)).2 = .ok answer → answer.isAccepted = true →
      ∀ part, origin (a.fileName part) =
        some ((w.receiver.receive (.seal s)).1.contents (a.fileName part)) := by
  have hstart : start.IsFaithful origin := by
    refine ⟨?_, ?_, hstored⟩
    · rw [hsenders]
      exact fun _ hs => absurd hs List.not_mem_nil
    · rw [hmade]
      exact fun _ hx => absurd hx List.not_mem_nil
  have hw := hreach.preserves hstart
  refine ⟨fun name bytes hbytes => (hw.stored name bytes hbytes).2, ?_⟩
  intro a s answer hseal hanswer haccepted part
  obtain ⟨bytes, hbytes, hannounced⟩ := hw.made _ hseal part
  have hlength := Receiver.lengthOf_of_seal_accepted hanswer haccepted hannounced
  have hcontents := Receiver.contents_eq_of_length hw.stored hbytes hlength
  have hsame : (w.receiver.receive (.seal s)).1.contents (a.fileName part) =
      w.receiver.contents (a.fileName part) := by
    rcases Receiver.contents_receive w.receiver (.seal s) (a.fileName part) with
      h | ⟨p, hp, _⟩ | ⟨b, hb, _⟩
    · exact h
    · cases hp
    · cases hb
  rw [hsame, hcontents]
  exact hbytes

/-- The receiver has the first of two bytes. The whole file is sent and refused, then the rest is
sent and delivered twice, then the seal. -/
theorem stored_whole_after_repeated_piece :
    let file : SealedFile := { data := "/d", mods := none, flushPoints := 0 }
    let event : Event := {
      content := .file file, pipe := "", region := 0, commit := .zero, progress := 0 }
    let a : Attempt := {
      event := ⟨0, event⟩, file, dataName := "d", modsName := none, bufferBytes := 8
      timeoutMs := 9, node := 0, createdAt := 0 }
    let src : Sources := { node := fun _ => 0, bytes := fun _ => [4, 5] }
    let origin : String → Option Bytes := fun name => if name = "d" then some [4, 5] else none
    let start : Traffic := { receiver := { files := [("d", [4])] } }
    let stop : Traffic := {
      receiver := { files := [("d", [4, 5])], pieces := 1 }
      senders := [⟨a, src, .waiting .seal⟩]
      made := [(a, a.sealOf src), (a, a.pieceOf src .data 1), (a, a.pieceOf src .data 0)] }
    start.receiver.HoldsPrefixes origin ∧ Reaches origin start stop ∧
      origin "d" = some ((stop.receiver.receive (a.sealOf src)).1.contents "d") := by
  intro file event a src origin start stop
  have hstored : start.receiver.HoldsPrefixes origin := by
    intro name bytes hbytes
    have hname : name = "d" := by
      by_cases h : name = "d"
      · exact h
      · simp [origin, h] at hbytes
    subst hname
    rw [← Option.some.inj hbytes]
    exact ⟨List.not_mem_nil, ⟨[5], rfl⟩⟩
  let settings : Settings := { readBufferBytes := 8, requestTimeoutMs := 9 }
  let d : Disk := { names := [(["d"], 0)], contents := #[[4, 5]] }
  have hreads : a.ReadsFrom src d := by
    intro part
    cases part <;> exact ⟨by decide +kernel, by decide +kernel⟩
  have hnamed (part : Part) : origin (a.fileName part) = some (src.bytes part) := by
    cases part <;> rfl
  have hnext (offset : Nat) := Attempt.next_stageAt hreads (by decide) .data offset
  have hreach : Reaches origin start stop := by
    have hprepared : Attempt.prepare ⟨0, event⟩ settings 0 = .ok a := by decide +kernel
    refine .head (.begins _ _ _ hprepared hnamed hreads (Attempt.start_eq hreads)) ?_
    refine .head (.asks [] [] rfl hreads (hnext 0)) ?_
    refine .head (.delivers (List.mem_cons_self ..)) ?_
    refine .head (.hears [] [] .rejectAll {} (.ofMillis 0) (.offsetReset 1) rfl) ?_
    refine .head (.asks [] [] rfl hreads (hnext 1)) ?_
    refine .head (.delivers (List.mem_cons_self ..)) ?_
    refine .head (.delivers (List.mem_cons_self ..)) ?_
    refine .head (.hears [] [] .rejectAll {} (.ofMillis 0) .success rfl) ?_
    refine .head (.asks [] [] rfl hreads (hnext 2)) ?_
    refine Eq.subst (motive := fun w => Reaches origin _ w) ?_ .refl
    -- Who sends and what was made is as written; what the receiver holds is computed.
    congr 1
    decide +kernel
  have hwhole := (stored_prefix_and_sealed_whole rfl rfl hstored hreach).2 a _ .success
    (List.mem_cons_self ..) (by decide +kernel) rfl .data
  exact ⟨hstored, hreach, hwhole⟩

end Traffic
end Transfer
end Courier
