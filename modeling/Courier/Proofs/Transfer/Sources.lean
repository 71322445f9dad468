import Courier.Transfer.Attempt

/-!
What an attempt reads. While its source files stay as they are, the reader of an attempt stands
where its offset says, a piece is the slice of the source at that offset, and the seal announces the
lengths of the sources. Nothing here is about the peer: the answers are arbitrary.
-/

namespace Courier

namespace Disk

/-- A path leads to this file, which has these contents. -/
def Holds (d : Disk) (path : String) (id : FileId) (bytes : Bytes) : Prop :=
  d.open? path = .ok (.file id) ∧ d.bytesOf id = bytes

variable {d : Disk} {path : String} {id : FileId} {bytes : Bytes}

theorem Holds.read (h : d.Holds path id bytes) (offset count : Nat) :
    d.read (.file id) offset count = .ok (Bytes.slice bytes offset count) := by
  simp only [Disk.read, h.2]

theorem Holds.length (h : d.Holds path id bytes) : d.length path = .ok bytes.length := by
  obtain ⟨hopen, hbytes⟩ := h
  unfold open? at hopen
  unfold Disk.length
  cases hres : d.resolve path with
  | error kind => rw [hres] at hopen; cases hopen
  | ok found =>
      rw [hres] at hopen
      have hnode : found.2 = .file id := by simpa [Except.map] using hopen
      simp [Except.map, hnode, hbytes]

end Disk

namespace Bytes

theorem slice_eq_nil_of_le {bs : Bytes} {offset count : Nat} (h : bs.length ≤ offset) :
    slice bs offset count = [] := by
  simp [slice, List.drop_eq_nil_of_le h]

theorem slice_ne_nil {bs : Bytes} {offset count : Nat} (h : offset < bs.length) (hc : 0 < count) :
    slice bs offset count ≠ [] := by
  have hlen : 0 < (slice bs offset count).length := by rw [length_slice]; omega
  exact List.ne_nil_of_length_pos hlen

theorem slice_prefix_drop (bs : Bytes) (offset count : Nat) :
    slice bs offset count <+: bs.drop offset := List.take_prefix _ _

end Bytes

namespace Transfer

/-- The files that an attempt reads: what the disk calls them and what is in them. -/
structure Sources where
  node : Part → FileId
  bytes : Part → Bytes

namespace Attempt

/-- The disk holds the sources where the attempt looks for them. -/
def ReadsFrom (a : Attempt) (src : Sources) (d : Disk) : Prop :=
  ∀ part, d.Holds (a.path part) (src.node part) (src.bytes part)

/-- The stage in which a part was sent up to an offset, with its reader there. -/
def stageAt (src : Sources) (part : Part) (offset : Nat) : Stage :=
  .sending part { node := .file (src.node part), position := offset } offset

def sentAt (src : Sources) (part : Part) (offset count : Nat) : Sent :=
  .piece part { node := .file (src.node part), position := offset + count } offset count

/-- What an attempt on the sources has sent: a piece, with the reader behind it, or the seal. -/
def IsSentOf (src : Sources) (sent : Sent) : Prop :=
  sent = .seal ∨ ∃ part offset count, sent = sentAt src part offset count

def pieceOf (a : Attempt) (src : Sources) (part : Part) (offset : Nat) : Request :=
  a.pieceRequest part offset (Bytes.slice (src.bytes part) offset a.bufferBytes)

def sealOf (a : Attempt) (src : Sources) : Request :=
  .seal {
    mods := a.modsName.map fun name => { name, length := (src.bytes .mods).length }
    data := { name := a.dataName, length := (src.bytes .data).length }
    flushPoints := a.file.flushPoints
    commit := a.event.event.commit
    region := a.event.event.region
    progress := a.event.event.progress
    node := a.node }

def firstPart (a : Attempt) : Part := if a.file.mods.isSome then .mods else .data

/-- The parts of a file event, in the order in which they are sent. -/
def parts (a : Attempt) : List Part := if a.file.mods.isSome then [.mods, .data] else [.data]

/-- The piece of a part at an offset, or something else when nothing is left there. -/
def pieceOr (a : Attempt) (src : Sources) (part : Part) (offset : Nat)
    (otherwise : Sent × Request) : Sent × Request :=
  if offset < (src.bytes part).length then
    (sentAt src part offset (Bytes.slice (src.bytes part) offset a.bufferBytes).length,
      a.pieceOf src part offset)
  else otherwise

/-- What is sent, and asked for, when a part was sent up to an offset: its next piece, or what comes
after it when nothing is left of it. -/
def due (a : Attempt) (src : Sources) : Part → Nat → Sent × Request
  | .data, offset => a.pieceOr src .data offset (.seal, a.sealOf src)
  | .mods, offset => a.pieceOr src .mods offset (a.pieceOr src .data 0 (.seal, a.sealOf src))

variable {a : Attempt} {src : Sources} {d : Disk}

theorem prepare_bufferBytes {e : EventRef} {settings : Settings} {now : Nat}
    (h : prepare e settings now = .ok a) :
    a.bufferBytes = max settings.readBufferBytes 1 := by
  unfold prepare at h
  split at h
  · split at h <;> cases h
    rfl
  · cases h

theorem prepare_event {e : EventRef} {settings : Settings} {now : Nat}
    (h : prepare e settings now = .ok a) : a.event = e ∧ e.event.isBulk = true := by
  unfold prepare at h
  split at h
  · rename_i f hcontent
    split at h
    · cases h
      exact ⟨rfl, Event.isBulk_of_file hcontent⟩
    all_goals cases h
  · cases h

theorem prepare_modsName {e : EventRef} {settings : Settings} {now : Nat}
    (h : prepare e settings now = .ok a) : a.modsName.isSome = a.file.mods.isSome := by
  unfold prepare at h
  split at h
  · rename_i f hcontent
    split at h
    · rename_i dataName modsName hdata hmods
      cases h
      unfold SealedFile.modsName at hmods
      split at hmods
      · rename_i hnone
        cases hmods
        rw [hnone]
      · rename_i path hsome
        cases hname : SealedFile.nameOf path with
        | error error => rw [hname] at hmods; cases hmods
        | ok name =>
            rw [hname] at hmods
            cases hmods
            rw [hsome]
            rfl
    all_goals cases h
  · cases h

/-- What an attempt may ask for, and why: a piece of one of its parts, or a seal of its event's
commit. -/
inductive MayAsk (a : Attempt) : Sent × Request → Prop
  | piece (part : Part) (reader : Reader) (offset : Nat) (payload : Bytes) :
      MayAsk a (.piece part reader offset payload.length, a.pieceRequest part offset payload)
  | seal (s : FileSeal) (commit : s.commit = a.event.event.commit) : MayAsk a (.seal, .seal s)

theorem mayAsk_of_nextSeal {next : Sent × Request} (h : a.nextSeal d = .ok next) :
    a.MayAsk next := by
  unfold nextSeal sealRequest at h
  cases hname : a.modsName <;> cases hmods : a.lengthOf d .mods <;>
    cases hdata : a.lengthOf d .data <;>
    simp [hname, hmods, hdata, Except.map, bind, Except.bind, pure, Except.pure] at h
  all_goals exact h ▸ .seal _ rfl

theorem mayAsk_of_nextPiece {part : Part} {reader : Reader} {offset : Nat} {next : Sent × Request}
    (h : a.nextPiece d part reader offset = .ok (some next)) :
    a.MayAsk next := by
  unfold nextPiece at h
  split at h <;> cases h
  exact .piece part _ offset _

theorem mayAsk_of_nextData {reader : Reader} {offset : Nat} {next : Sent × Request}
    (h : a.nextData d reader offset = .ok next) :
    a.MayAsk next := by
  unfold nextData at h
  split at h
  · cases h
  · rename_i hpiece
    exact mayAsk_of_nextPiece (hpiece.trans (congrArg (Except.ok ∘ some) (Except.ok.inj h)))
  · exact mayAsk_of_nextSeal h

/-- Whatever the files are, an attempt asks for pieces and seals of its own. -/
theorem mayAsk_of_next {stage : Stage} {next : Sent × Request} (h : a.next d stage = .ok next) :
    a.MayAsk next := by
  unfold Attempt.next at h
  split at h
  · exact mayAsk_of_nextSeal h
  · exact mayAsk_of_nextData h
  · split at h
    · cases h
    · rename_i hpiece
      exact mayAsk_of_nextPiece (hpiece.trans (congrArg (Except.ok ∘ some) (Except.ok.inj h)))
    · split at h
      · exact mayAsk_of_nextData h
      · exact mayAsk_of_nextSeal h
      · cases h

/-- What an attempt asks for as a seal is a seal of its event's commit. -/
theorem commit_of_next {stage : Stage} {request : Request}
    (h : a.next d stage = .ok (.seal, request)) :
    ∃ s, request = .seal s ∧ s.commit = a.event.event.commit := by
  cases mayAsk_of_next h with
  | «seal» s commit => exact ⟨s, rfl, commit⟩

theorem due_of_lt (a : Attempt) {part : Part} {offset : Nat}
    (lt : offset < (src.bytes part).length) :
    a.due src part offset =
      (sentAt src part offset (Bytes.slice (src.bytes part) offset a.bufferBytes).length,
        a.pieceOf src part offset) := by
  cases part <;> simp only [due, pieceOr, lt, if_true]

/-- A seal announces the parts that are sent, with their lengths. -/
theorem announced_of_sealOf (named : a.modsName.isSome = a.file.mods.isSome) {s : FileSeal}
    (h : a.sealOf src = .seal s) {f : FileMeta} (hf : f ∈ s.mods.toList ++ [s.data]) :
    ∃ part ∈ a.parts, f = { name := a.fileName part, length := (src.bytes part).length } := by
  cases h
  cases hname : a.modsName with
  | none =>
      rw [hname] at named
      simp only [hname, Option.map_none, Option.toList_none, List.nil_append,
        List.mem_singleton] at hf
      exact ⟨.data, by simp [parts, ← named], hf⟩
  | some name =>
      rw [hname] at named
      simp only [hname, Option.map_some, Option.toList_some, List.singleton_append,
        List.mem_cons, List.not_mem_nil, or_false] at hf
      rcases hf with rfl | rfl
      · exact ⟨.mods, by simp [parts, ← named], by simp [fileName, hname]⟩
      · exact ⟨.data, by simp [parts, ← named], rfl⟩

theorem openPart_eq (h : a.ReadsFrom src d) (part : Part) :
    a.openPart d part = .ok (stageAt src part 0) := by
  simp only [openPart, (h part).1, stageAt]

theorem start_eq (h : a.ReadsFrom src d) : a.start d = .ok (stageAt src a.firstPart 0) :=
  openPart_eq h _

theorem nextSeal_eq (h : a.ReadsFrom src d) : a.nextSeal d = .ok (.seal, a.sealOf src) := by
  have hlen (part : Part) : a.lengthOf d part = .ok (src.bytes part).length := by
    simp only [lengthOf, (h part).length]
  unfold nextSeal sealRequest
  cases hname : a.modsName with
  | none => simp [hlen, hname, sealOf, Except.map, bind, Except.bind, pure, Except.pure]
  | some name => simp [hlen, hname, sealOf, Except.map, bind, Except.bind, pure, Except.pure]

/-- With its reader at the offset, an attempt takes the slice of the source there. -/
theorem nextPiece_of_lt (h : a.ReadsFrom src d) (hb : 0 < a.bufferBytes) {part : Part}
    {offset : Nat} (hlt : offset < (src.bytes part).length) :
    a.nextPiece d part { node := .file (src.node part), position := offset } offset =
      .ok (some
        (sentAt src part offset (Bytes.slice (src.bytes part) offset a.bufferBytes).length,
          a.pieceOf src part offset)) := by
  unfold nextPiece
  rw [(h part).read]
  have hne := Bytes.slice_ne_nil hlt hb
  split
  · rename_i heq; cases heq
  · rename_i heq; exact absurd (Except.ok.inj heq) hne
  · rename_i payload _ heq
    rw [← Except.ok.inj heq]
    rfl

theorem nextPiece_of_le (h : a.ReadsFrom src d) {part : Part} {offset : Nat}
    (hle : (src.bytes part).length ≤ offset) :
    a.nextPiece d part { node := .file (src.node part), position := offset } offset = .ok none := by
  simp only [nextPiece, (h part).read, Bytes.slice_eq_nil_of_le hle]

theorem nextData_eq (h : a.ReadsFrom src d) (hb : 0 < a.bufferBytes) (offset : Nat) :
    a.nextData d { node := .file (src.node .data), position := offset } offset =
      .ok (a.due src .data offset) := by
  by_cases hlt : offset < (src.bytes .data).length
  · simp only [nextData, nextPiece_of_lt h hb hlt, due, pieceOr, hlt, if_true]
  · simp only [nextData, nextPiece_of_le h (Nat.le_of_not_lt hlt), nextSeal_eq h, due, pieceOr, hlt,
      if_false]

/-- What an attempt asks for next is what is due at the offset of its reader. -/
theorem next_stageAt (h : a.ReadsFrom src d) (hb : 0 < a.bufferBytes) (part : Part) (offset : Nat) :
    a.next d (stageAt src part offset) = .ok (a.due src part offset) := by
  cases part with
  | data => exact nextData_eq h hb offset
  | mods =>
      by_cases hlt : offset < (src.bytes .mods).length
      · simp only [next, stageAt, nextPiece_of_lt h hb hlt, due, pieceOr, hlt, if_true]
      · simp only [next, stageAt, nextPiece_of_le h (Nat.le_of_not_lt hlt), openPart_eq h]
        rw [nextData_eq h hb 0]
        simp only [due, pieceOr, hlt, if_false]

end Attempt
end Transfer
end Courier
