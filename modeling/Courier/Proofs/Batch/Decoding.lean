import Courier.Proofs.Batch.Payload
import Mathlib.Algebra.GroupWithZero.Nat

/-!
Whoever receives a payload has nothing but its bytes to find out which tablets were sent. Targets
and payloads are any bytes, also such that look like lengths, so what keeps them apart is that
every length stands in front of what it measures: the first block of some bytes is determined by
them, and with it all that follow.
-/

namespace Courier
namespace Bytes

theorem toList_loop (bs : ByteArray) (i : Nat) (read : Bytes) :
    ByteArray.toList.loop bs i read = read.reverse ++ bs.data.toList.drop i := by
  induction i, read using ByteArray.toList.loop.induct bs with
  | case1 i read hlt ih =>
      have hi : i < bs.data.toList.length := by simpa using hlt
      have hget : bs.get! i = bs.data.toList[i] := by
        rw [ByteArray.get!, Array.getElem_toList]
        exact getElem!_pos bs.data i hlt
      rw [ByteArray.toList.loop, if_pos hlt, ih, List.drop_eq_getElem_cons hi, hget,
        List.reverse_cons, List.append_assoc, List.singleton_append]
  | case2 i read hge =>
      have hend : bs.data.toList.length ≤ i := by simpa using hge
      rw [ByteArray.toList.loop, if_neg hge, List.drop_eq_nil_of_le hend, List.append_nil]

theorem ofText_eq (s : String) : ofText s = s.toByteArray.data.toList := by
  rw [ofText, ByteArray.toList, toList_loop]
  rfl

theorem length_ofText (s : String) : (ofText s).length = s.utf8ByteSize := by
  rw [ofText_eq]
  rfl

theorem ofText_injective {s t : String} (h : ofText s = ofText t) : s = t := by
  rw [ofText_eq, ofText_eq] at h
  exact String.toByteArray_inj.mp (ByteArray.ext (Array.toList_inj.mp h))

theorem bigEndian32_injective {m n : Nat} (hm : m < Nat.pow 2 32) (hn : n < Nat.pow 2 32)
    (h : bigEndian32 m = bigEndian32 n) : m = n := by
  simp only [bigEndian32, List.cons.injEq, and_true] at h
  obtain ⟨h3, h2, h1, h0⟩ := h
  have byte {a b : Nat} (h : a.toUInt8 = b.toUInt8) : a % 256 = b % 256 := by
    simpa using congrArg UInt8.toNat h
  have h3 := byte h3
  have h2 := byte h2
  have h1 := byte h1
  have h0 := byte h0
  simp only [Nat.pow_eq, Nat.reducePow] at hm hn h3 h2 h1
  omega

/-- Some bytes, with their length in front. -/
def block (bs : Bytes) : Bytes := bigEndian32 bs.length ++ bs

/-- A block says where it ends, whatever follows. -/
theorem block_append_inj {bs bs' rest rest' : Bytes} (hlen : bs.length < Nat.pow 2 32)
    (hlen' : bs'.length < Nat.pow 2 32) (h : block bs ++ rest = block bs' ++ rest') :
    bs = bs' ∧ rest = rest' := by
  simp only [block, List.append_assoc] at h
  obtain ⟨hfront, hback⟩ := List.append_inj h rfl
  exact List.append_inj hback (bigEndian32_injective hlen hlen' hfront)

end Bytes

namespace Batch

/-- A tablet with lengths that can be encoded. Its rows are counted in 32 bits. -/
structure Fits (t : Tablet) : Prop where
  target : t.target.utf8ByteSize < lengthBound
  rows : t.rows < lengthBound
  payload : t.payload.length < lengthBound

theorem encodeTablet_eq (t : Tablet) : encodeTablet t =
    Bytes.block (Bytes.ofText t.target) ++ (Bytes.bigEndian32 t.rows ++ Bytes.block t.payload) := by
  simp only [encodeTablet, Bytes.block, List.append_assoc]

/-- The tablet that comes first is determined by the bytes, and so is what follows it. -/
theorem encodeTablet_append_inj {t t' : Tablet} {rest rest' : Bytes} (ht : Fits t)
    (ht' : Fits t') (h : encodeTablet t ++ rest = encodeTablet t' ++ rest') :
    t = t' ∧ rest = rest' := by
  simp only [encodeTablet_eq, List.append_assoc] at h
  obtain ⟨htext, h⟩ := Bytes.block_append_inj
    (Bytes.length_ofText _ ▸ ht.target) (Bytes.length_ofText _ ▸ ht'.target) h
  obtain ⟨hcount, h⟩ := List.append_inj h rfl
  obtain ⟨hpayload, hrest⟩ := Bytes.block_append_inj ht.payload ht'.payload h
  have htarget := Bytes.ofText_injective htext
  have hrows := Bytes.bigEndian32_injective ht.rows ht'.rows hcount
  obtain ⟨target, rows, payload⟩ := t
  obtain ⟨target', rows', payload'⟩ := t'
  cases htarget
  cases hrows
  cases hpayload
  exact ⟨rfl, hrest⟩

theorem encodeTablet_ne_nil (t : Tablet) : encodeTablet t ≠ [] := by
  refine List.ne_nil_of_length_pos ?_
  rw [length_encodeTablet]
  omega

theorem prefix_of_encodings {ts us : List Tablet} (hts : ∀ t ∈ ts, Fits t)
    (hus : ∀ u ∈ us, Fits u) (h : ts.flatMap encodeTablet <+: us.flatMap encodeTablet) :
    ts <+: us := by
  induction ts generalizing us with
  | nil => exact List.nil_prefix
  | cons t ts ih =>
      obtain ⟨rest, hrest⟩ := h
      rw [List.flatMap_cons, List.append_assoc] at hrest
      cases us with
      | nil => exact absurd (List.append_eq_nil_iff.mp hrest).1 (encodeTablet_ne_nil t)
      | cons u us =>
          obtain ⟨ht, hlater⟩ := List.forall_mem_cons.mp hts
          obtain ⟨hu, hlater'⟩ := List.forall_mem_cons.mp hus
          rw [List.flatMap_cons] at hrest
          obtain ⟨hsame, htail⟩ := encodeTablet_append_inj ht hu hrest
          exact List.cons_prefix_cons.mpr ⟨hsame, ih hlater hlater' ⟨rest, htail⟩⟩

theorem prefix_flatMap {ts us : List Tablet} (h : ts <+: us) :
    ts.flatMap encodeTablet <+: us.flatMap encodeTablet := by
  obtain ⟨rest, rfl⟩ := h
  exact ⟨rest.flatMap encodeTablet, List.flatMap_append.symm⟩

namespace PlainPayload

/-- What is asked of a payload: to encode an event, or to hand out what it encoded. -/
inductive Call
  | construct (e : Event)
  | take

def Call.event? : Call → Option Event
  | .construct e => some e
  | .take => none

/-- Some calls, with the payloads that were handed out. -/
def serve (p : PlainPayload) : List Call → PlainPayload × List Bytes
  | [] => (p, [])
  | .construct e :: calls => serve (p.construct e).1 calls
  | .take :: calls =>
      let rest := serve (Payload.take p).1 calls
      (rest.1, (Payload.take p).2 :: rest.2)

/-- Some events, offered one after the other. -/
def fill (p : PlainPayload) (events : List Event) : PlainPayload :=
  events.foldl (fun p e => (p.construct e).1) p

variable {p : PlainPayload} {e : Event} {t : Tablet}

theorem construct_of_fits (p : PlainPayload) (content : e.content = .tablet t) (fits : Fits t) :
    p.construct e = (⟨p.bytes ++ encodeTablet t⟩, .ok true) := by
  simp only [construct, content, if_neg (Nat.not_le.mpr fits.target),
    if_neg (Nat.not_le.mpr fits.payload)]

theorem bytes_fill (p : PlainPayload) (events : List Event) :
    (p.fill events).bytes = p.bytes ++ events.flatMap written := by
  induction events generalizing p with
  | nil => exact (List.append_nil _).symm
  | cons e events ih =>
      change (fill (p.construct e).1 events).bytes = _
      rw [ih, construct_eq, List.flatMap_cons, List.append_assoc]

/-- A payload that was given tablets is their encodings, in order. -/
theorem bytes_fill_of_fits {events : List Event} {ts : List Tablet}
    (contents : events.map Event.content = ts.map .tablet) (fits : ∀ t ∈ ts, Fits t) :
    (fill {} events).bytes = ts.flatMap encodeTablet := by
  rw [bytes_fill, List.nil_append]
  induction ts generalizing events with
  | nil =>
      cases List.map_eq_nil_iff.mp contents
      rfl
  | cons t ts ih =>
      obtain ⟨e, events, rfl, hcontent, hcontents⟩ := List.map_eq_cons_iff.mp contents
      obtain ⟨ht, hts⟩ := List.forall_mem_cons.mp fits
      have hwritten : written e = encodeTablet t := by
        rw [written, construct_of_fits _ hcontent ht, List.nil_append]
      rw [List.flatMap_cons, List.flatMap_cons, hwritten, ih hcontents hts]

/-- Nothing is handed out twice, and nothing is lost: what was handed out, and what is left, is what
the payload would hold if it had never been asked for it. -/
theorem serve_flatten (p : PlainPayload) (calls : List Call) :
    (p.serve calls).2.flatten ++ (p.serve calls).1.bytes =
      (p.fill (calls.filterMap Call.event?)).bytes := by
  induction calls generalizing p with
  | nil => rfl
  | cons call calls ih =>
      cases call with
      | construct e => exact ih _
      | take =>
          have hrest := ih {}
          rw [bytes_fill, List.nil_append] at hrest
          change (p.bytes ++ (serve {} calls).2.flatten) ++ (serve {} calls).1.bytes = _
          rw [List.append_assoc, hrest, bytes_fill]
          rfl

theorem serve_take (p : PlainPayload) (calls : List Call) :
    p.serve (calls ++ [.take]) =
      ({}, (p.serve calls).2 ++ [(p.serve calls).1.bytes]) := by
  induction calls generalizing p with
  | nil => rfl
  | cons call calls ih =>
      cases call with
      | construct e => exact ih _
      | take =>
          change ((serve {} (calls ++ [.take])).1, p.bytes :: (serve {} (calls ++ [.take])).2) = _
          rw [ih]
          rfl

end PlainPayload

open PlainPayload in
/-- Tablets that a plain payload was given, one after the other, can be read from its bytes: if the
bytes of some are the beginning of those of others, the tablets are the beginning of theirs, in
target, rows and payload. Each takes twelve bytes and its lengths. What fails leaves no trace, and
what is handed out is all there is, so that payloads that were handed out in succession are the
bytes of all the tablets. -/
theorem decodable_of_fits {xs ys : List Event} {ts us : List Tablet}
    (hxs : xs.map Event.content = ts.map .tablet) (hys : ys.map Event.content = us.map .tablet)
    (hts : ∀ t ∈ ts, Fits t) (hus : ∀ u ∈ us, Fits u) :
    ((fill {} xs).bytes <+: (fill {} ys).bytes ↔ ts <+: us) ∧
      ((fill {} xs).bytes = (fill {} ys).bytes ↔ ts = us) ∧
      Payload.size (fill {} xs) =
        (ts.map fun t => 12 + t.target.utf8ByteSize + t.payload.length).sum ∧
      (∀ (p : PlainPayload), ∀ e ∈ xs, (p.construct e).2 = .ok true) ∧
      (∀ (p : PlainPayload) (e : Event) (error : BatchError),
        (p.construct e).2 = .error error → (p.construct e).1 = p) ∧
      (∀ p : PlainPayload, Payload.take p = (({} : PlainPayload), p.bytes)) ∧
      ∀ (p : PlainPayload) (calls : List Call),
        (p.serve calls).2.flatten ++ (p.serve calls).1.bytes =
          (p.fill (calls.filterMap Call.event?)).bytes ∧
        (p.serve (calls ++ [.take])).2.flatten =
          (p.fill (calls.filterMap Call.event?)).bytes ∧
        (p.serve (calls ++ [.take])).1 = {} := by
  have hbytes := bytes_fill_of_fits hxs hts
  have hbytes' := bytes_fill_of_fits hys hus
  refine ⟨?_, ?_, ?_, fun p e he => ?_, fun p e error herror => ?_,
    fun _ => rfl, fun p calls => ?_⟩
  · rw [hbytes, hbytes']
    exact ⟨prefix_of_encodings hts hus, prefix_flatMap⟩
  · rw [hbytes, hbytes']
    refine ⟨fun hsame => ?_, fun hsame => hsame ▸ rfl⟩
    -- Each is the beginning of the other.
    have hfirst : ts <+: us := prefix_of_encodings hts hus (hsame ▸ List.prefix_rfl)
    have hsecond : us <+: ts := prefix_of_encodings hus hts (hsame ▸ List.prefix_rfl)
    exact hfirst.eq_of_length (Nat.le_antisymm hfirst.length_le hsecond.length_le)
  · change (fill {} xs).bytes.length = _
    rw [hbytes, List.length_flatMap]
    simp only [length_encodeTablet, Bytes.length_ofText]
  · have hcontent := List.mem_map_of_mem (f := Event.content) he
    rw [hxs] at hcontent
    obtain ⟨t, ht, hcontent⟩ := List.mem_map.mp hcontent
    rw [construct_of_fits p hcontent.symm (hts t ht)]
  · have hnot : (p.construct e).2 ≠ .ok true := herror ▸ nofun
    exact construct_without rfl hnot
  · refine ⟨serve_flatten p calls, ?_, ?_⟩
    · rw [serve_take, List.flatten_append, List.flatten_singleton, serve_flatten]
    · rw [serve_take]

open PlainPayload in
/-- A tablet whose payload could be the beginning of another one, alone and with that other one. -/
theorem decodable_of_fits_of_length_in_payload :
    let event (t : Tablet) : Event :=
      { content := .tablet t, pipe := "p", region := 0, commit := .zero, progress := 0 }
    let sly : Tablet := { target := "", rows := 0, payload := [0, 0, 0, 1, 116] }
    let plain : Tablet := { target := "t", rows := 4294967295, payload := [0] }
    let calls : List Call := [.construct (event sly), .take, .construct (event plain)]
    (fill {} [event sly]).bytes <+: (fill {} [event sly, event plain]).bytes ∧
      ¬(fill {} [event sly, event plain]).bytes <+: (fill {} [event sly]).bytes ∧
      Payload.size (fill {} [event sly]) = 17 ∧
      (({} : PlainPayload).serve (calls ++ [.take])).2.flatten =
        (fill {} [event sly, event plain]).bytes := by
  intro event sly plain calls
  have hsly : Fits sly := ⟨by decide, by decide, by decide⟩
  have hplain : Fits plain := ⟨by decide, by decide, by decide⟩
  have hone : ∀ t ∈ [sly], Fits t := List.forall_mem_singleton.mpr hsly
  have htwo : ∀ t ∈ [sly, plain], Fits t :=
    List.forall_mem_cons.mpr ⟨hsly, List.forall_mem_singleton.mpr hplain⟩
  have hfirst : [event sly].map Event.content = [sly].map .tablet := rfl
  have hboth : [event sly, event plain].map Event.content = [sly, plain].map .tablet := rfl
  obtain ⟨hstarts, -, hsize, -, -, -, hserve⟩ := decodable_of_fits hfirst hboth hone htwo
  obtain ⟨hlonger, -⟩ := decodable_of_fits hboth hfirst htwo hone
  refine ⟨hstarts.mpr ⟨[plain], rfl⟩, fun h => ?_, hsize, ?_⟩
  · exact absurd (hlonger.mp h).length_le (by decide)
  · exact (hserve {} calls).2.1

end Batch
end Courier
