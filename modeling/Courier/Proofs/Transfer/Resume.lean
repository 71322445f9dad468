import Courier.Proofs.Transfer.Acceptance
import Courier.Proofs.Transfer.Delivery
import Courier.Proofs.Transfer.Protocol
import Mathlib.Algebra.Order.Floor.Div

/-!
What an attempt costs when nothing comes between it and a receiver that has a beginning of every
file. The receiver puts the sender back at most once in a file, at its first piece; from there on
every piece fits and takes the file a buffer further. So a run is followed part by part, and what it
asks for is known before it begins.
-/

namespace Courier
namespace Transfer

namespace Peer

variable {p : Peer} {limit : Nat}

/-- Whatever is drawn passes a request on within the time limit and leaves the source files alone.
The receiver has a directory of its own. -/
structure Relays (limit : Nat) (p : Peer) : Prop where
  fallback : p.fallback = .pass
  rows : p.Lists fun _ o =>
    o.reaction = .pass ∧ o.delayMs ≤ limit ∧ o.writes = [] ∧ o.removals = []
  apart : p.place = none

theorem Relays.draw (h : p.Relays limit) (key : String) :
    ((p.draw key).1.reaction = .pass ∧ (p.draw key).1.delayMs ≤ limit ∧
        (p.draw key).1.writes = [] ∧ (p.draw key).1.removals = []) ∧
      (p.draw key).2.Relays limit ∧ (p.draw key).2.receiver = p.receiver := by
  obtain ⟨hdrawn, script, hsame, hlists⟩ := h.rows.draw key
  refine ⟨?_, ?_⟩
  · rcases hdrawn with hlisted | hcommon | hlast
    · exact hlisted
    · exact hcommon
    · rw [hlast]
      exact ⟨h.fallback, Nat.zero_le _, rfl, rfl⟩
  · rw [hsame] at hlists ⊢
    exact ⟨⟨h.fallback, hlists, h.apart⟩, rfl⟩

end Peer

/-- An exchange that will be passed on in time is settled when something next happens to it. -/
theorem Exchange.look_of_passed {x : Exchange} {p : Peer} (d : Disk)
    (passes : x.outcome.reaction = .pass) (spares : x.outcome.writes = [] ∧ x.outcome.removals = [])
    (unsettled : x.settled = false) (inTime : x.dueAt ≤ x.deadline) (apart : p.place = none) :
    x.look p d x.wakeAt =
      ({ p with receiver := (p.receiver.receive x.request).1 }, d,
        .done (p.receiver.receive x.request).2) := by
  have hwake : x.wakeAt = x.dueAt := by
    rw [wakeAt, if_neg (by simp [unsettled]), Nat.min_eq_left inTime]
  have hdisk : x.outcome.applyTo d = d := by simp [Outcome.applyTo, spares]
  simp only [look, hwake, hdisk, unsettled, inTime, Nat.le_refl, decide_true, Bool.not_false,
    Bool.and_self, if_true, Peer.conclude, passes, Peer.pass, apart]

namespace Trial

/-- An exchange with a peer that relays is one with its receiver. -/
theorem exchange_relays {t : Trial} {timeoutMs : Nat} (h : t.peer.Relays timeoutMs)
    (request : Request) :
    (t.exchange request timeoutMs).2 = (t.peer.receiver.receive request).2 ∧
      (t.exchange request timeoutMs).1.peer.receiver = (t.peer.receiver.receive request).1 ∧
      (t.exchange request timeoutMs).1.peer.Relays timeoutMs ∧
      (t.exchange request timeoutMs).1.disk = t.disk ∧
      (t.exchange request timeoutMs).1.stats = t.stats := by
  obtain ⟨⟨hpass, hdelay, hspares⟩, hrelays, hreceiver⟩ := h.draw (Peer.keyOf request)
  have hlook := Exchange.look_of_passed (x := (Exchange.send t.peer request t.now timeoutMs).1)
    t.disk hpass hspares rfl (Nat.add_le_add_left hdelay t.now) hrelays.apart
  have hsent : (Exchange.send t.peer request t.now timeoutMs).2 =
      (t.peer.draw (Peer.keyOf request)).2 := rfl
  have hrequest : (Exchange.send t.peer request t.now timeoutMs).1.request = request := rfl
  simp only [exchange, hsent, hlook, hrequest, hreceiver]
  exact ⟨trivial, trivial, ⟨hrelays.fallback, hrelays.rows, hrelays.apart⟩, trivial, trivial⟩

end Trial

namespace Attempt

/-- The pieces of a part from an offset on. -/
def piecesFrom (a : Attempt) (src : Sources) (part : Part) (offset : Nat) : List Request :=
  (List.range (((src.bytes part).length - offset) ⌈/⌉ a.bufferBytes)).map fun i =>
    a.pieceOf src part (offset + i * a.bufferBytes)

/-- What is said while a part is sent to a receiver that holds so many bytes of it: unless it holds
none, the first piece is answered with where to go on. -/
def dialogue (a : Attempt) (src : Sources) (part : Part) (held : Nat) :
    List (Request × Except ClientError Response) :=
  (if 0 < held then [(a.pieceOf src part 0, .ok (.offsetReset held))] else []) ++
    (a.piecesFrom src part held).map fun request => (request, .ok .success)

variable {a : Attempt} {src : Sources} {part : Part} {offset : Nat}

theorem ceilDiv_eq_succ {n b : Nat} (hn : 0 < n) (hb : 0 < b) : n ⌈/⌉ b = (n - b) ⌈/⌉ b + 1 := by
  rw [Nat.ceilDiv_eq_add_pred_div, Nat.ceilDiv_eq_add_pred_div, ← Nat.add_div_right _ hb]
  rcases Nat.le_total b n with hle | hle
  · congr 1
    omega
  · rw [Nat.sub_eq_zero_of_le hle, Nat.div_eq_of_lt_le (k := 1) (by omega) (by omega),
      Nat.div_eq_of_lt_le (k := 1) (by omega) (by omega)]

theorem piecesFrom_of_lt (hb : 0 < a.bufferBytes) (hlt : offset < (src.bytes part).length) :
    a.piecesFrom src part offset = a.pieceOf src part offset :: a.piecesFrom src part
      (offset + (Bytes.slice (src.bytes part) offset a.bufferBytes).length) := by
  rw [piecesFrom, ceilDiv_eq_succ (Nat.sub_pos_of_lt hlt) hb, List.range_succ_eq_map,
    List.map_cons, List.map_map, Nat.zero_mul, Nat.add_zero, piecesFrom, Bytes.length_slice]
  rcases Nat.le_total a.bufferBytes ((src.bytes part).length - offset) with hle | hle
  · rw [Nat.min_eq_left hle, Nat.sub_sub]
    congr 2
    funext i
    simp only [Function.comp_apply, Nat.succ_mul]
    congr 1
    omega
  · rw [Nat.min_eq_right hle, Nat.sub_eq_zero_of_le hle,
      Nat.sub_eq_zero_of_le (m := offset + _) (by omega)]
    simp

theorem length_dialogue (a : Attempt) (src : Sources) (part : Part) (held : Nat) :
    (a.dialogue src part held).length =
      ((src.bytes part).length - held) ⌈/⌉ a.bufferBytes + if 0 < held then 1 else 0 := by
  unfold dialogue piecesFrom
  split <;> simp [Nat.add_comm]

end Attempt

/-- What was asked for, and what came of it. -/
def Exchanged.spoken (x : Exchanged) : Request × Except ClientError Response :=
  (x.request, x.answer)

namespace Trial

variable {a : Attempt} {src : Sources} {policy : StatusPolicy}

/-- From one stage to another an attempt speaks these words with a receiver, which puts it back so
many times. Of the receiver nothing changes but the files that were asked for. -/
structure Passes (a : Attempt) (policy : StatusPolicy) (stage : Stage) (t : Trial)
    (words : List (Request × Except ClientError Response)) (resets : Nat) (stage' : Stage)
    (t' : Trial) : Prop where
  run : ∀ limit,
    run (words.length + limit) a policy stage t = run limit a policy stage' t'
  spoken : ∀ limit,
    (transcript (words.length + limit) a policy stage t).map Exchanged.spoken =
      words ++ (transcript limit a policy stage' t').map Exchanged.spoken
  disk : t'.disk = t.disk
  relays : t'.peer.Relays a.timeoutMs
  counted : t.stats.offsetResets < Word.size →
    t'.stats.offsetResets = Word.add t.stats.offsetResets resets
  seals : t'.peer.receiver.seals = t.peer.receiver.seals
  admits : ∀ name, t.peer.receiver.Admits name → t'.peer.receiver.Admits name
  others : ∀ name, (∀ word ∈ words, word.1.target? ≠ some name) →
    t'.peer.receiver.contents name = t.peer.receiver.contents name

variable {stage stage' stage'' : Stage} {t t' t'' : Trial}
  {words words' : List (Request × Except ClientError Response)} {resets resets' : Nat}

/-- Stages that ask for the same are as good as one. -/
theorem Passes.of_next (relays : t.peer.Relays a.timeoutMs)
    (same : a.next t.disk stage = a.next t.disk stage') :
    Passes a policy stage t [] 0 stage' t := by
  have hadvance : t.advance a policy stage = t.advance a policy stage' := by
    rw [advance, advance, same]
  refine ⟨fun limit => ?_, fun limit => ?_, rfl, relays,
    fun hword => (Word.add_of_lt (b := 0) hword).symm, rfl, fun _ h => h, fun _ _ => rfl⟩
  · cases limit with
    | zero => rfl
    | succ limit => rw [List.length_nil, Nat.zero_add, Trial.run, Trial.run, hadvance]
  · cases limit with
    | zero => rfl
    | succ limit =>
        rw [List.length_nil, Nat.zero_add, List.nil_append, transcript, transcript, same, hadvance]

theorem Passes.trans (h : Passes a policy stage t words resets stage' t')
    (h' : Passes a policy stage' t' words' resets' stage'' t'') :
    Passes a policy stage t (words ++ words') (resets + resets') stage'' t'' where
  run limit := by rw [List.length_append, Nat.add_assoc, h.run, h'.run]
  spoken limit := by
    rw [List.length_append, Nat.add_assoc, h.spoken, h'.spoken, List.append_assoc]
  disk := h'.disk.trans h.disk
  relays := h'.relays
  counted hword := by
    have hbetween := h.counted hword
    rw [h'.counted (hbetween ▸ Word.add_lt _ _), hbetween, Word.add, Word.add, Word.add,
      Nat.mod_add_mod, Nat.add_assoc]
  seals := h'.seals.trans h.seals
  admits name hname := h'.admits name (h.admits name hname)
  others name hname := by
    obtain ⟨hfirst, hrest⟩ := List.forall_mem_append.mp hname
    exact (h'.others name hrest).trans (h.others name hfirst)

theorem advance_of_answered {sent : Sent} {request : Request} {r : Response}
    (policy : StatusPolicy) (next : a.next t.disk stage = .ok (sent, request))
    (answer : (t.exchange request a.timeoutMs).2 = .ok r) :
    t.advance a policy stage =
      (t.exchange request a.timeoutMs).1.receive a policy t.now sent r := by
  simp only [advance, next]
  split <;> rename_i heq <;> rw [heq] at answer ⊢ <;> cases answer
  rfl

/-- A piece whose answer leads on. -/
theorem passes_answered (policy : StatusPolicy) (stage' : Stage) (resets : Nat) {sent : Sent}
    {p : FilePiece} {r : Response} (relays : t.peer.Relays a.timeoutMs)
    (next : a.next t.disk stage = .ok (sent, .piece p))
    (answer : (t.peer.receiver.receive (.piece p)).2 = .ok r)
    (leads : ∀ stats elapsed,
      (a.receive policy stats elapsed sent r).result = .ok (some stage') ∧
      (stats.offsetResets < Word.size → (a.receive policy stats elapsed sent r).stats.offsetResets =
        Word.add stats.offsetResets resets)) :
    Passes a policy stage t [(.piece p, .ok r)] resets stage' (t.advance a policy stage).1 ∧
      (t.advance a policy stage).1.peer.receiver = (t.peer.receiver.receive (.piece p)).1 := by
  obtain ⟨hanswer, hreceiver, hrelays, hdisk, hstats⟩ := exchange_relays relays (.piece p)
  rw [answer] at hanswer
  have hadvance := advance_of_answered policy next hanswer
  have hgoes : (t.advance a policy stage).2 = .ok (some stage') := by
    rw [hadvance]
    exact (leads _ _).1
  have hspoken : (t.exchanged a (sent, .piece p)).spoken = (.piece p, .ok r) :=
    congrArg (Prod.mk _) hanswer
  have hpeer : (t.advance a policy stage).1.peer =
      (t.exchange (.piece p) a.timeoutMs).1.peer := by rw [hadvance]; rfl
  refine ⟨⟨fun limit => ?_, fun limit => ?_, ?_, ?_, fun hword => ?_, ?_, fun name hname => ?_,
    fun name hname => ?_⟩, hpeer ▸ hreceiver⟩
  · rw [Nat.add_comm]
    exact run_of_leads limit hgoes
  · rw [Nat.add_comm, List.length_singleton, transcript_of_leads limit next hgoes, List.map_cons,
      hspoken, List.singleton_append]
  · rw [hadvance]
    exact hdisk
  · rwa [hpeer]
  · rw [hadvance]
    exact hstats ▸ (leads _ _).2 (hstats.symm ▸ hword)
  · rw [hpeer, hreceiver]
    exact t.peer.receiver.seals_receivePiece p
  · rw [hpeer, hreceiver]
    refine ⟨hname.bare, hname.plain, ?_⟩
    rw [Receiver.appendFailure?_receive]
    exact hname.writable
  · rw [hpeer, hreceiver]
    have helse : p.file ≠ name := fun hfile =>
      hname _ List.mem_cons_self (congrArg some hfile)
    rcases t.peer.receiver.contents_receivePiece p name with hsame | ⟨hfile, -⟩
    · exact hsame
    · exact absurd hfile helse

/-- A piece that goes on where the receiver's file ends is taken. -/
theorem passes_piece (policy : StatusPolicy) {part : Part} {offset : Nat}
    (relays : t.peer.Relays a.timeoutMs) (reads : a.ReadsFrom src t.disk) (hb : 0 < a.bufferBytes)
    (lt : offset < (src.bytes part).length)
    (admits : t.peer.receiver.Admits (a.fileName part))
    (fits : offset = (t.peer.receiver.contents (a.fileName part)).length) :
    let payload := Bytes.slice (src.bytes part) offset a.bufferBytes
    ∃ t', Passes a policy (Attempt.stageAt src part offset) t
        [(a.pieceOf src part offset, .ok .success)] 0
        (Attempt.stageAt src part (offset + payload.length)) t' ∧
      t'.peer.receiver.contents (a.fileName part) =
        t.peer.receiver.contents (a.fileName part) ++ payload := by
  intro payload
  have hnext := Attempt.due_of_lt a lt ▸ Attempt.next_stageAt reads hb part offset
  have hreceive : t.peer.receiver.receive (a.pieceOf src part offset) = ({
      t.peer.receiver.appendTo (a.fileName part) payload with
      pieces := Word.add t.peer.receiver.pieces 1 }, .ok .success) :=
    Receiver.receive_piece admits fits
  obtain ⟨hpasses, hreceiver⟩ := passes_answered policy
    (Attempt.stageAt src part (offset + payload.length)) 0 relays hnext
    (congrArg Prod.snd hreceive)
    fun stats elapsed => ⟨rfl, fun hword => (Word.add_of_lt (b := 0) hword).symm⟩
  refine ⟨_, hpasses, ?_⟩
  rw [hreceiver.trans (congrArg Prod.fst hreceive)]
  exact (Receiver.contents_appendTo _ _ _ _).trans (if_pos rfl)

/-- The first piece of a file that the receiver has a beginning of is answered with its length. -/
theorem passes_reset (policy : StatusPolicy) {part : Part}
    (relays : t.peer.Relays a.timeoutMs) (reads : a.ReadsFrom src t.disk) (hb : 0 < a.bufferBytes)
    (admits : t.peer.receiver.Admits (a.fileName part)) {held : Nat}
    (holds : held = (t.peer.receiver.contents (a.fileName part)).length) (begun : 0 < held)
    (le : held ≤ (src.bytes part).length) (movable : held ≤ maxSeek) :
    ∃ t', Passes a policy (Attempt.stageAt src part 0) t
        [(a.pieceOf src part 0, .ok (.offsetReset held))] 1 (Attempt.stageAt src part held) t' ∧
      t'.peer.receiver = t.peer.receiver := by
  have hnext := Attempt.due_of_lt a (Nat.lt_of_lt_of_le begun le) ▸
    Attempt.next_stageAt reads hb part 0
  have hreceive : t.peer.receiver.receive (a.pieceOf src part 0) =
      (t.peer.receiver, .ok (.offsetReset held)) := by
    rw [holds]
    exact Receiver.receive_piece_elsewhere admits (holds ▸ Nat.ne_of_lt begun)
  obtain ⟨hpasses, hreceiver⟩ := passes_answered policy (Attempt.stageAt src part held) 1 relays
    hnext (congrArg Prod.snd hreceive) fun stats elapsed => by
      simp only [Attempt.receive, Attempt.sentAt, Response.resetOffset_offsetReset,
        if_neg (Nat.not_lt.mpr movable)]
      exact ⟨rfl, fun _ => rfl⟩
  exact ⟨_, hpasses, hreceiver.trans (congrArg Prod.fst hreceive)⟩

/-- From where the receiver's file ends, every piece is taken, until nothing is left. -/
theorem passes_pieces (policy : StatusPolicy) {part : Part} (hb : 0 < a.bufferBytes) (count : Nat)
    {t : Trial} {offset : Nat}
    (counts : ((src.bytes part).length - offset) ⌈/⌉ a.bufferBytes = count)
    (relays : t.peer.Relays a.timeoutMs) (reads : a.ReadsFrom src t.disk)
    (admits : t.peer.receiver.Admits (a.fileName part))
    (stored : t.peer.receiver.contents (a.fileName part) <+: src.bytes part)
    (fits : offset = (t.peer.receiver.contents (a.fileName part)).length) :
    ∃ t', Passes a policy (Attempt.stageAt src part offset) t
        ((a.piecesFrom src part offset).map fun request => (request, .ok .success)) 0
        (Attempt.stageAt src part (src.bytes part).length) t' ∧
      t'.peer.receiver.contents (a.fileName part) = src.bytes part := by
  induction count generalizing t offset with
  | zero =>
      have hle : (src.bytes part).length ≤ offset := Nat.le_of_sub_eq_zero
        (Nat.le_zero.mp (by simpa using (ceilDiv_le_iff_le_mul hb).mp (Nat.le_of_eq counts)))
      have hwhole : t.peer.receiver.contents (a.fileName part) = src.bytes part :=
        stored.eq_of_length (Nat.le_antisymm stored.length_le (fits ▸ hle))
      have hend : offset = (src.bytes part).length := fits.trans (congrArg List.length hwhole)
      rw [Attempt.piecesFrom, counts, hend]
      exact ⟨t, .of_next relays rfl, hwhole⟩
  | succ count ih =>
      have hlt : offset < (src.bytes part).length := by
        by_contra hle
        rw [Nat.sub_eq_zero_of_le (Nat.le_of_not_lt hle), zero_ceilDiv] at counts
        cases counts
      obtain ⟨t', hpiece, happend⟩ := passes_piece policy relays reads hb hlt admits fits
      have hrest : ((src.bytes part).length - (offset +
          (Bytes.slice (src.bytes part) offset a.bufferBytes).length)) ⌈/⌉ a.bufferBytes =
            count := by
        have hpieces := congrArg List.length (Attempt.piecesFrom_of_lt (a := a) hb hlt)
        simp only [Attempt.piecesFrom, List.length_map, List.length_range, List.length_cons,
          counts] at hpieces
        exact (Nat.succ.inj hpieces).symm
      have hprefix : t'.peer.receiver.contents (a.fileName part) <+: src.bytes part := by
        rw [happend]
        exact Receiver.prefix_append stored (fits ▸ Bytes.slice_prefix_drop _ _ _)
      obtain ⟨t'', hpieces, hwhole⟩ := ih hrest hpiece.relays (hpiece.disk ▸ reads)
        (hpiece.admits _ admits) hprefix (by rw [happend, List.length_append, ← fits])
      rw [Attempt.piecesFrom_of_lt hb hlt]
      exact ⟨t'', hpiece.trans hpieces, hwhole⟩

/-- A part is sent as its dialogue says, and then the receiver has the whole of it. -/
theorem passes_part (policy : StatusPolicy) {part : Part} (hb : 0 < a.bufferBytes)
    (relays : t.peer.Relays a.timeoutMs) (reads : a.ReadsFrom src t.disk)
    (admits : t.peer.receiver.Admits (a.fileName part))
    (stored : t.peer.receiver.contents (a.fileName part) <+: src.bytes part)
    (movable : (src.bytes part).length ≤ maxSeek) :
    let held := (t.peer.receiver.contents (a.fileName part)).length
    ∃ t', Passes a policy (Attempt.stageAt src part 0) t (a.dialogue src part held)
        (if 0 < held then 1 else 0) (Attempt.stageAt src part (src.bytes part).length) t' ∧
      t'.peer.receiver.contents (a.fileName part) = src.bytes part := by
  intro held
  unfold Attempt.dialogue
  split
  · rename_i hsome
    obtain ⟨t', hreset, hsame⟩ := passes_reset policy relays reads hb admits rfl hsome
      stored.length_le (Nat.le_trans stored.length_le movable)
    have hfits : held = (t'.peer.receiver.contents (a.fileName part)).length := by rw [hsame]
    rw [← hsame] at admits stored
    obtain ⟨t'', hpieces, hwhole⟩ := passes_pieces policy hb _ rfl hreset.relays
      (hreset.disk ▸ reads) admits stored hfits
    exact ⟨t'', hreset.trans hpieces, hwhole⟩
  · rename_i hnone
    have hempty : held = 0 := Nat.eq_zero_of_not_pos hnone
    rw [List.nil_append, hempty]
    exact passes_pieces policy hb _ rfl relays reads admits stored hempty.symm

/-- Once the receiver has all that a seal announces, the seal ends the attempt. -/
theorem run_sealed {s : FileSeal} (relays : t.peer.Relays a.timeoutMs)
    (next : a.next t.disk stage = .ok (.seal, .seal s))
    (whole : ∀ f ∈ s.mods.toList ++ [s.data], t.peer.receiver.Admits f.name ∧
      (t.peer.receiver.contents f.name).length = f.length) (policy : StatusPolicy) :
    ∃ t', (∀ limit, run (limit + 1) a policy stage t = (t', some (.ok ()))) ∧
      (∀ limit, (transcript (limit + 1) a policy stage t).map Exchanged.spoken =
        [(.seal s, .ok .success)]) ∧
      t'.peer.receiver = { t.peer.receiver with seals := t.peer.receiver.seals ++ [s] } ∧
      t'.stats = t.stats := by
  obtain ⟨hanswer, hreceiver, -, -, hstats⟩ := exchange_relays relays (.seal s)
  rw [Receiver.receive_seal whole] at hanswer hreceiver
  have hadvance := advance_of_answered policy next hanswer
  have hends : (t.advance a policy stage).2 = .ok none := by rw [hadvance]; rfl
  refine ⟨(t.advance a policy stage).1, fun limit => ?_, fun limit => ?_, ?_, ?_⟩
  · rw [run]
    split <;> rename_i heq <;> rw [heq] at hends ⊢ <;> cases hends
  · rw [transcript_of_stops limit next fun stage' hleads => by rw [hends] at hleads; cases hleads]
    exact congrArg (fun answer => [(Request.seal s, answer)]) hanswer
  · rw [hadvance]
    exact hreceiver
  · rw [hadvance]
    exact hstats

/-- The seal ends what came before it, and further requests are not made. -/
theorem Passes.sealed {s : FileSeal} (h : Passes a policy stage t words resets stage' t')
    (next : a.next t'.disk stage' = .ok (.seal, .seal s))
    (whole : ∀ f ∈ s.mods.toList ++ [s.data], t'.peer.receiver.Admits f.name ∧
      (t'.peer.receiver.contents f.name).length = f.length) :
    ∃ t'', t''.peer.receiver = { t'.peer.receiver with seals := t'.peer.receiver.seals ++ [s] } ∧
      t''.stats = t'.stats ∧
      ∀ limit, words.length < limit →
        Trial.run limit a policy stage t = (t'', some (.ok ())) ∧
        (transcript limit a policy stage t).map Exchanged.spoken =
          words ++ [(.seal s, .ok .success)] := by
  obtain ⟨t'', hrun, hspoken, hreceiver, hstats⟩ := run_sealed h.relays next whole policy
  refine ⟨t'', hreceiver, hstats, fun limit hlimit => ?_⟩
  obtain ⟨more, rfl⟩ := Nat.exists_eq_add_of_lt hlimit
  rw [Nat.add_assoc, h.run, h.spoken, hrun, hspoken]
  exact ⟨rfl, rfl⟩

end Trial

namespace Attempt

variable {a : Attempt} {src : Sources} {policy : StatusPolicy} {t : Trial}

theorem target_dialogue {part : Part} {held : Nat} {word : Request × Except ClientError Response}
    (h : word ∈ a.dialogue src part held) : word.1.target? = some (a.fileName part) := by
  rcases List.mem_append.mp h with hfirst | hrest
  · split at hfirst
    · rw [List.mem_singleton.mp hfirst]
      rfl
    · cases hfirst
  · obtain ⟨request, hrequest, rfl⟩ := List.mem_map.mp hrest
    obtain ⟨i, -, rfl⟩ := List.mem_map.mp hrequest
    rfl

end Attempt

namespace Trial

variable {a : Attempt} {src : Sources} {policy : StatusPolicy} {t : Trial}

/-- All parts of a file event are sent one after the other, and then its seal is due. -/
theorem passes_parts (policy : StatusPolicy) (hb : 0 < a.bufferBytes)
    (relays : t.peer.Relays a.timeoutMs) (reads : a.ReadsFrom src t.disk)
    (apart : a.file.mods.isSome = true → a.fileName .mods ≠ a.fileName .data)
    (admits : ∀ part ∈ a.parts, t.peer.receiver.Admits (a.fileName part))
    (stored : ∀ part ∈ a.parts, t.peer.receiver.contents (a.fileName part) <+: src.bytes part)
    (movable : ∀ part ∈ a.parts, (src.bytes part).length ≤ maxSeek) :
    let held part := (t.peer.receiver.contents (a.fileName part)).length
    ∃ t', Passes a policy (Attempt.stageAt src a.firstPart 0) t
        (a.parts.flatMap fun part => a.dialogue src part (held part))
        (a.parts.countP fun part => 0 < held part)
        (Attempt.stageAt src .data (src.bytes .data).length) t' ∧
      ∀ part ∈ a.parts, t'.peer.receiver.contents (a.fileName part) = src.bytes part := by
  intro held
  cases hmods : a.file.mods.isSome with
  | false =>
      have hparts : a.parts = [.data] := by rw [Attempt.parts, if_neg (by simp [hmods])]
      have hfirst : a.firstPart = .data := by rw [Attempt.firstPart, if_neg (by simp [hmods])]
      simp only [hparts, List.mem_singleton, forall_eq] at admits stored movable ⊢
      obtain ⟨t', hdata, hwhole⟩ := passes_part policy hb relays reads admits stored movable
      exact ⟨t', by simpa [hfirst, List.countP_cons] using hdata, hwhole⟩
  | true =>
      have hparts : a.parts = [.mods, .data] := by rw [Attempt.parts, if_pos hmods]
      have hfirst : a.firstPart = .mods := by rw [Attempt.firstPart, if_pos hmods]
      simp only [hparts, List.forall_mem_cons, List.not_mem_nil, false_imp_iff, implies_true,
        and_true] at admits stored movable ⊢
      obtain ⟨t', hsent, hwhole⟩ := passes_part policy hb relays reads admits.1 stored.1 movable.1
      -- What was said of the modifications leaves the data file alone, and the other way round.
      have hdata : t'.peer.receiver.contents (a.fileName .data) =
          t.peer.receiver.contents (a.fileName .data) := hsent.others _ fun word hword => by
        rw [Attempt.target_dialogue hword]
        exact fun hsame => apart hmods (Option.some.inj hsame)
      have hturn : a.next t'.disk (Attempt.stageAt src .mods (src.bytes .mods).length) =
          a.next t'.disk (Attempt.stageAt src .data 0) := by
        rw [hsent.disk, Attempt.next_stageAt reads hb, Attempt.next_stageAt reads hb]
        simp only [Attempt.due, Attempt.pieceOr, Nat.lt_irrefl, if_false]
      obtain ⟨t'', hrest, hall⟩ := passes_part policy hb hsent.relays
        (hsent.disk ▸ reads) (hsent.admits _ admits.2) (hdata ▸ stored.2) movable.2
      rw [hdata] at hrest
      have hboth := (hsent.trans (.of_next hsent.relays hturn)).trans hrest
      refine ⟨t'', by simpa [hfirst, List.countP_cons, held, Nat.add_comm] using hboth, ?_, hall⟩
      rw [hrest.others _ fun word hword => ?_, hwhole]
      rw [Attempt.target_dialogue hword]
      exact fun hsame => apart hmods (Option.some.inj hsame).symm

/-- What an attempt and a receiver say to one another when nothing comes between them: the dialogue
of every part in order, then one seal. -/
def conversation (a : Attempt) (src : Sources) (r : Receiver) :
    List (Request × Except ClientError Response) :=
  (a.parts.flatMap fun part => a.dialogue src part (r.contents (a.fileName part)).length) ++
    [(a.sealOf src, .ok .success)]

theorem length_conversation (a : Attempt) (src : Sources) (r : Receiver) :
    (conversation a src r).length = (a.parts.map fun part =>
      ((src.bytes part).length - (r.contents (a.fileName part)).length) ⌈/⌉ a.bufferBytes +
        if 0 < (r.contents (a.fileName part)).length then 1 else 0).sum + 1 := by
  simp [conversation, List.length_flatMap, Attempt.length_dialogue]

/-- An attempt on a file event whose files have different names, that the receiver accepts and of
which it holds a beginning, succeeds after this many requests and no others, however many more it
might make. Then the receiver has the files and one more seal, and the attempt was put back once for
every file that the receiver had something of. No file is longer than a reader can be moved. -/
theorem resumes_at_exact_cost {e : EventRef} {settings : Settings} {prepared : Nat} {a : Attempt}
    (ha : Attempt.prepare e settings prepared = .ok a) (src : Sources) (policy : StatusPolicy)
    (t : Trial) (reads : a.ReadsFrom src t.disk) (relays : t.peer.Relays a.timeoutMs)
    (distinct : a.modsName ≠ some a.dataName)
    (admits : ∀ part ∈ a.parts, t.peer.receiver.Admits (a.fileName part))
    (stored : ∀ part ∈ a.parts, t.peer.receiver.contents (a.fileName part) <+: src.bytes part)
    (movable : ∀ part ∈ a.parts, (src.bytes part).length ≤ maxSeek)
    (word : t.stats.offsetResets < Word.size) :
    let held part := (t.peer.receiver.contents (a.fileName part)).length
    let words := conversation a src t.peer.receiver
    a.bufferBytes = max settings.readBufferBytes 1 ∧
    words.length = (a.parts.map fun part =>
      ((src.bytes part).length - held part) ⌈/⌉ a.bufferBytes +
        if 0 < held part then 1 else 0).sum + 1 ∧
    ∀ limit, words.length ≤ limit →
      let ending := start limit a policy t
      ending.2 = some (.ok ()) ∧
      (exchanges limit a policy t).map Exchanged.spoken = words ∧
      ending.1.requests.map Prod.snd =
        (words.map Prod.fst).reverse ++ t.requests.map Prod.snd ∧
      (∀ part ∈ a.parts, ending.1.peer.receiver.contents (a.fileName part) = src.bytes part) ∧
      (∃ s, a.sealOf src = .seal s ∧
        ending.1.peer.receiver.seals = t.peer.receiver.seals ++ [s]) ∧
      ending.1.stats.offsetResets =
        Word.add t.stats.offsetResets (a.parts.countP fun part => 0 < held part) := by
  intro held words
  have hbuffer := Attempt.prepare_bufferBytes ha
  have hb : 0 < a.bufferBytes := by rw [hbuffer]; exact Nat.le_max_right _ 1
  refine ⟨hbuffer, length_conversation a src t.peer.receiver, fun limit hlimit => ?_⟩
  have hnamed := Attempt.prepare_modsName ha
  have hapart : a.file.mods.isSome = true → a.fileName .mods ≠ a.fileName .data := by
    intro hmods
    obtain ⟨name, hname⟩ := Option.isSome_iff_exists.mp (hnamed.trans hmods)
    rw [hname] at distinct
    exact fun hsame => distinct (congrArg some (by simpa [Attempt.fileName, hname] using hsame))
  obtain ⟨t', hparts, hwhole⟩ := passes_parts policy hb relays reads hapart admits stored movable
  have hnext : a.next t'.disk (Attempt.stageAt src .data (src.bytes .data).length) =
      .ok (.seal, a.sealOf src) := by
    rw [hparts.disk, Attempt.next_stageAt reads hb]
    simp only [Attempt.due, Attempt.pieceOr, Nat.lt_irrefl, if_false]
  obtain ⟨s, hseal⟩ : ∃ s, a.sealOf src = .seal s := ⟨_, rfl⟩
  rw [hseal] at hnext
  obtain ⟨t'', hreceiver, hstats, hends⟩ := hparts.sealed hnext (by
    intro f hf
    obtain ⟨part, hpart, rfl⟩ := Attempt.announced_of_sealOf hnamed hseal hf
    exact ⟨hparts.admits _ (admits part hpart), congrArg List.length (hwhole part hpart)⟩)
  obtain ⟨hrun, hspoken⟩ := hends limit
    (Nat.lt_of_succ_le (by simpa [words, conversation] using hlimit))
  have hstart : start limit a policy t = (t'', some (.ok ())) := by
    rw [start, Attempt.start_eq reads]
    exact hrun
  have hexchanges : (exchanges limit a policy t).map Exchanged.spoken = words := by
    rw [exchanges, Attempt.start_eq reads]
    exact hspoken.trans (by rw [← hseal]; rfl)
  have hrequests : (start limit a policy t).1.requests =
      ((exchanges limit a policy t).map fun x => (x.askedAt, x.request)).reverse ++ t.requests :=
    start_requests limit t
  rw [hstart] at hrequests
  simp only [hstart, hreceiver]
  refine ⟨trivial, hexchanges, ?_, hwhole, ⟨s, hseal, by rw [hparts.seals]⟩, ?_⟩
  · rw [hrequests, ← hexchanges]
    simp [Exchanged.spoken, Function.comp_def]
  · rw [hstats]
    exact hparts.counted word

/-- A buffer of two bytes, five bytes of modifications of which the receiver has one, and four bytes
of data of which it has none. The first answer takes as long as it may. -/
theorem resumes_at_exact_cost_of_two_files :
    let file : SealedFile := { data := "/d", mods := some "/m", flushPoints := 0 }
    let event : Event := {
      content := .file file, pipe := "", region := 0, commit := .zero, progress := 0 }
    let a : Attempt := {
      event := ⟨0, event⟩, file, dataName := "d", modsName := some "m", bufferBytes := 2
      timeoutMs := 9, node := 0, createdAt := 0 }
    let src : Sources := {
      node := fun | .mods => 0 | .data => 1
      bytes := fun | .mods => [1, 2, 3, 4, 5] | .data => [6, 7, 8, 9] }
    let t : Trial := {
      disk := {
        names := [(["m"], 0), (["d"], 1)], contents := #[[1, 2, 3, 4, 5], [6, 7, 8, 9]] }
      peer := {
        script := [("m", [{ reaction := .pass, delayMs := 9 }])], fallback := .pass
        receiver := { files := [("m", [1])] } } }
    let ending := start 6 a .rejectAll t
    Attempt.prepare ⟨0, event⟩ { readBufferBytes := 2, requestTimeoutMs := 9 } 0 = .ok a ∧
      (conversation a src t.peer.receiver).length = 6 ∧ ending.2 = some (.ok ()) ∧
      (exchanges 6 a .rejectAll t).map Exchanged.spoken = conversation a src t.peer.receiver ∧
      ending.1.peer.receiver.contents "m" = [1, 2, 3, 4, 5] ∧
      ending.1.peer.receiver.contents "d" = [6, 7, 8, 9] ∧
      ending.1.stats.offsetResets = 1 := by
  intro file event a src t ending
  have ha : Attempt.prepare ⟨0, event⟩ { readBufferBytes := 2, requestTimeoutMs := 9 } 0 = .ok a :=
    by decide +kernel
  have reads : a.ReadsFrom src t.disk := fun part => by
    cases part with
    | mods => exact ⟨by decide +kernel, by decide +kernel⟩
    | data => exact ⟨by decide +kernel, by decide +kernel⟩
  have relays : t.peer.Relays a.timeoutMs := ⟨rfl, by simp [Peer.Lists, t, a], rfl⟩
  have admits : ∀ part ∈ a.parts, t.peer.receiver.Admits (a.fileName part) := fun part _ => by
    cases part with
    | mods => exact ⟨by decide +kernel, by decide +kernel, by decide +kernel⟩
    | data => exact ⟨by decide +kernel, by decide +kernel, by decide +kernel⟩
  have stored : ∀ part ∈ a.parts,
      t.peer.receiver.contents (a.fileName part) <+: src.bytes part := fun part _ => by
    cases part <;> decide
  have movable : ∀ part ∈ a.parts, (src.bytes part).length ≤ maxSeek := fun part _ => by
    cases part <;> decide
  obtain ⟨-, hlength, hall⟩ := resumes_at_exact_cost ha src .rejectAll t reads relays (by decide)
    admits stored movable (by decide)
  have hsix : (conversation a src t.peer.receiver).length = 6 := hlength.trans (by decide +kernel)
  obtain ⟨hok, hspoken, -, hwhole, -, hresets⟩ := hall 6 (Nat.le_of_eq hsix)
  exact ⟨ha, hsix, hok, hspoken, hwhole .mods (by decide), hwhole .data (by decide), hresets⟩

end Trial
end Transfer
end Courier
