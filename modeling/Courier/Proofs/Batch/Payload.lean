import Courier.Batch.Payload

/-!
What the plain payload does with an event: a tablet whose lengths can be encoded is appended, a
heartbeat is passed over, and anything else is refused for good. Other payloads may write the same
and turn a tablet away now and then.
-/

namespace Courier
namespace Batch

/-- The bytes that an event adds to a batch. -/
def encoding (e : Event) : Bytes :=
  match e.content with
  | .tablet t => encodeTablet t
  | _ => []

namespace PlainPayload

variable {p p' : PlainPayload} {e : Event}

/-- The event is a tablet whose lengths can be encoded. -/
def Takes (e : Event) : Prop := (construct {} e).2 = .ok true

theorem construct_ok_true (h : construct p e = (p', .ok true)) :
    Takes e ∧ p'.bytes = p.bytes ++ encoding e := by
  unfold construct at h
  unfold Takes construct encoding
  split at h
  · split at h
    · cases h
    · split at h
      · cases h
      · rename_i hcontent htarget hpayload
        cases h
        simp only [hcontent, if_neg htarget, if_neg hpayload, and_self]
  · cases h
  · cases h

theorem Takes.content (h : Takes e) : ∃ t, e.content = .tablet t := by
  unfold Takes construct at h
  split at h
  · rename_i t hcontent
    exact ⟨t, hcontent⟩
  · cases h
  · cases h

theorem Takes.isBulk (h : Takes e) : e.isBulk = false := by
  obtain ⟨t, hcontent⟩ := h.content
  exact Event.isBulk_of_tablet hcontent

theorem construct_ok_false (h : (construct p e).2 = .ok false) :
    ∃ created, e.content = .heartbeat created := by
  unfold construct at h
  split at h
  · split at h
    · cases h
    · split at h <;> cases h
  · rename_i created hcontent
    exact ⟨created, hcontent⟩
  · cases h

theorem construct_error {error : BatchError} (h : (construct p e).2 = .error error) :
    error.isPermanent = true := by
  unfold construct at h
  split at h
  · split at h
    · cases h
      rfl
    · split at h <;> cases h
      rfl
  · cases h
  · cases h
    rfl

/-- What is not appended leaves no trace. -/
theorem construct_without {result : Except BatchError Bool} (h : construct p e = (p', result))
    (without : result ≠ .ok true) : p' = p := by
  unfold construct at h
  split at h
  · split at h
    · cases h
      rfl
    · split at h
      · cases h
        rfl
      · cases h
        exact absurd rfl without
  · cases h
    rfl
  · cases h
    rfl

end PlainPayload

/-- What a plain payload writes for an event: nothing if it has no encoding. -/
def written (e : Event) : Bytes := (PlainPayload.construct {} e).1.bytes

theorem written_eq_encoding {e : Event} (takes : PlainPayload.Takes e) :
    written e = encoding e :=
  (PlainPayload.construct_ok_true (Prod.ext rfl takes)).2

theorem written_eq_nil {e : Event} (without : (PlainPayload.construct {} e).2 ≠ .ok true) :
    written e = [] :=
  congrArg PlainPayload.bytes (PlainPayload.construct_without rfl without)

/-- What a plain payload writes for some events, one after the other. -/
def transcript (events : List EventRef) : Bytes := events.flatMap fun e => written e.event

theorem transcript_append (events more : List EventRef) :
    transcript (events ++ more) = transcript events ++ transcript more := List.flatMap_append

theorem transcript_singleton (e : EventRef) : transcript [e] = written e.event :=
  List.flatMap_singleton ..

/-- Payloads that write what the plain payload writes, one tablet after the other. They may turn a
tablet away for the time being, which leaves what they wrote as it is. -/
structure Encodes {P : Type} [Payload P] (bytes : P → Bytes) (able : P → Prop) : Prop where
  reset : ∀ p, able p → able (Payload.reset p) ∧ bytes (Payload.reset p) = []
  take : ∀ p, able p → able (Payload.take p).1 ∧ (Payload.take p).2 = bytes p
  construct : ∀ p e, able p → (∃ t, e.content = .tablet t) → able (Payload.construct p e).1 ∧
    ((Payload.construct p e).2 = (PlainPayload.construct {} e).2 ∧
        bytes (Payload.construct p e).1 = bytes p ++ written e ∨
      ∃ error, (Payload.construct p e).2 = .error error ∧ error.isPermanent = false ∧
        bytes (Payload.construct p e).1 = bytes p)

theorem PlainPayload.construct_eq (p : PlainPayload) (e : Event) :
    construct p e = (⟨p.bytes ++ written e⟩, (construct {} e).2) := by
  unfold written construct
  split
  · split
    · simp
    · split <;> simp
  · simp
  · simp

/-- A payload with nothing in its script but plain and busy constructions. -/
theorem encodes_scripted : Encodes (fun p : ScriptedPayload => p.plain.bytes) fun p =>
    ∀ o ∈ p.script, o = .plain ∨ o = .busy := by
  refine ⟨fun p hp => ⟨hp, rfl⟩, fun p hp => ⟨hp, rfl⟩, fun p e hp _ => ?_⟩
  obtain ⟨plain, script⟩ := p
  have hplain (script : List Outcome) : (ScriptedPayload.constructPlain ⟨plain, script⟩ e).2 =
      (PlainPayload.construct {} e).2 ∧
      (ScriptedPayload.constructPlain ⟨plain, script⟩ e).1.plain.bytes =
        plain.bytes ++ written e := by
    simp only [ScriptedPayload.constructPlain, plain.construct_eq e, and_self]
  cases script with
  | nil => exact ⟨hp, .inl (hplain [])⟩
  | cons o rest =>
      have hrest : ∀ o ∈ rest, o = .plain ∨ o = .busy :=
        fun o ho => hp o (List.mem_cons_of_mem _ ho)
      rcases hp o (List.mem_cons_self ..) with rfl | rfl
      · exact ⟨hrest, .inl (hplain rest)⟩
      · exact ⟨hrest, .inr ⟨.construct "encoder busy", rfl, rfl, rfl⟩⟩

/-- Payloads that are their tablets, one after the other. Which events they take is up to them, but
what they do not take leaves no trace. -/
structure Writes {P : Type} [Payload P] (bytes : P → Bytes) : Prop where
  size : ∀ p, Payload.size p = (bytes p).length
  reset : ∀ p, bytes (Payload.reset p) = []
  take : ∀ p, (Payload.take p).2 = bytes p
  taken : ∀ {p p' e}, Payload.construct p e = (p', .ok true) →
    (∃ t, e.content = .tablet t) ∧ bytes p' = bytes p ++ encoding e
  spared : ∀ {p p' e result}, Payload.construct p e = (p', result) → result ≠ .ok true →
    bytes p' = bytes p

theorem writes_plain : Writes PlainPayload.bytes where
  size _ := rfl
  reset _ := rfl
  take _ := rfl
  taken h := by
    obtain ⟨htakes, hbytes⟩ := PlainPayload.construct_ok_true h
    exact ⟨htakes.content, hbytes⟩
  spared h without := congrArg PlainPayload.bytes (PlainPayload.construct_without h without)

/-- A scripted payload does what the plain one does, or nothing. -/
theorem ScriptedPayload.construct_cases {p p' : ScriptedPayload} {e : Event}
    {result : Except BatchError Bool} (h : construct p e = (p', result)) :
    PlainPayload.construct p.plain e = (p'.plain, result) ∨
      p'.plain = p.plain ∧ result ≠ .ok true := by
  have hplain {p : ScriptedPayload} (h : p.constructPlain e = (p', result)) :
      PlainPayload.construct p.plain e = (p'.plain, result) := by
    cases h
    rfl
  obtain ⟨plain, script⟩ := p
  cases script with
  | nil => exact .inl (hplain h)
  | cons o rest =>
      cases o with
      | plain => exact .inl (hplain (p := ⟨plain, rest⟩) h)
      | _ =>
          cases h
          exact .inr ⟨rfl, by simp⟩

theorem writes_scripted : Writes fun p : ScriptedPayload => p.plain.bytes where
  size _ := rfl
  reset _ := rfl
  take _ := rfl
  taken h := by
    rcases ScriptedPayload.construct_cases h with hplain | ⟨-, hnot⟩
    · exact writes_plain.taken hplain
    · exact absurd rfl hnot
  spared h without := by
    rcases ScriptedPayload.construct_cases h with hplain | ⟨hsame, -⟩
    · exact writes_plain.spared hplain without
    · exact congrArg PlainPayload.bytes hsame

end Batch
end Courier
