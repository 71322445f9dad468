import Courier.Proofs.Queue.Conservation

/-!
How many heartbeats gather. A heartbeat is refused right behind another one, and what is served from
the front or taken out altogether brings no two together. A discard of one pipe instance can: it
takes tablets out of the middle, and nothing looks at what is left on either side. So two heartbeats
are adjacent at most once for every tablet that was discarded so.
-/

namespace Courier
namespace Queue

/-- How many heartbeats are right behind another one; `behind` says whether the first event is. -/
def doubled : Bool → List EventRef → Nat
  | _, [] => 0
  | behind, e :: rest => (behind && e.event.isHeartbeat).toNat + doubled e.event.isHeartbeat rest

section Doubled

variable {behind behind' : Bool} {e : EventRef} {events : List EventRef}

theorem doubled_append (behind : Bool) (events : List EventRef) (e : EventRef) :
    doubled behind (events ++ [e]) = doubled behind events +
      ((events.getLast?.elim behind fun last => last.event.isHeartbeat) &&
        e.event.isHeartbeat).toNat := by
  induction events generalizing behind with
  | nil => simp [doubled]
  | cons first rest ih =>
      have hlast : (rest.getLast?.elim first.event.isHeartbeat fun last => last.event.isHeartbeat) =
          (rest.getLast?.getD first).event.isHeartbeat := by
        cases rest.getLast? <;> rfl
      rw [List.cons_append, doubled, ih, hlast, doubled, List.getLast?_cons, Option.elim_some,
        Nat.add_assoc]

theorem doubled_le_of_behind (h : behind' = true → behind = true) :
    doubled behind' events ≤ doubled behind events := by
  cases events with
  | nil => exact Nat.le_refl _
  | cons e rest =>
      cases behind' <;> cases behind <;> simp [doubled] at h ⊢

/-- Every event that is left out from between may bring two heartbeats together, unless it is a
heartbeat itself. -/
theorem doubled_filter_le (keep : EventRef → Bool) (behind behind' : Bool)
    (events : List EventRef) :
    doubled behind' (events.filter keep) ≤ doubled behind events +
      (events.countP fun e => !e.event.isHeartbeat && !keep e) + (behind' && !behind).toNat := by
  induction events generalizing behind behind' with
  | nil => simp [doubled]
  | cons e rest ih =>
      by_cases hkeep : keep e = true
      · rw [List.filter_cons_of_pos hkeep, List.countP_cons_of_neg (by simp [hkeep])]
        have hrest := ih e.event.isHeartbeat e.event.isHeartbeat
        cases hbeat : e.event.isHeartbeat <;> cases behind <;> cases behind' <;>
          simp [doubled, hbeat] at hrest ⊢ <;> omega
      · rw [List.filter_cons_of_neg hkeep, List.countP_cons]
        have hrest := ih e.event.isHeartbeat behind'
        cases hbeat : e.event.isHeartbeat <;> cases behind <;> cases behind' <;>
          simp [doubled, hbeat, hkeep] at hrest ⊢ <;> omega

/-- Heartbeats that are not right behind another have an event of another kind between them. -/
theorem heartbeats_le (behind : Bool) (events : List EventRef) :
    (events.countP fun e => e.event.isHeartbeat) + behind.toNat ≤
      (events.countP fun e => !e.event.isHeartbeat) + 1 + doubled behind events := by
  induction events generalizing behind with
  | nil => cases behind <;> simp [doubled]
  | cons e rest ih =>
      have hrest := ih e.event.isHeartbeat
      cases hbeat : e.event.isHeartbeat <;> cases behind <;>
        simp [doubled, hbeat] at hrest ⊢ <;> omega

theorem isChain_of_doubled (h : doubled behind events = 0) :
    events.IsChain fun a b => ¬(a.event.isHeartbeat = true ∧ b.event.isHeartbeat = true) := by
  induction events generalizing behind with
  | nil => exact .nil
  | cons a rest ih =>
      have hrest : doubled a.event.isHeartbeat rest = 0 := (Nat.add_eq_zero_iff.mp h).2
      cases rest with
      | nil => exact .singleton a
      | cons b rest =>
          refine .cons_cons (fun ⟨ha, hb⟩ => ?_) (ih hrest)
          simp [doubled, ha, hb] at hrest

end Doubled

namespace Channels

variable {c c' : Channels} {e : EventRef}

theorem doubled_push (h : c.push? e = some c') : doubled false c'.live = doubled false c.live := by
  unfold push? at h
  split at h
  · cases h
    rfl
  · split at h
    · cases h
    · rename_i hapart
      cases h
      have hquiet : ((c.live.getLast?.elim false fun last => last.event.isHeartbeat) &&
          e.event.isHeartbeat) = false := by
        rw [Bool.and_comm, ← Bool.not_eq_true]
        unfold endsWithHeartbeat at hapart
        cases hlast : c.live.getLast? <;> simp_all
      rw [doubled_append, hquiet]
      rfl

theorem Gives.doubled_le {event : Option EventRef} (h : c.Gives c' event) :
    doubled false c'.live ≤ doubled false c.live := by
  cases h with
  | nothing live | bulk live => exact Nat.le_of_eq (congrArg (doubled false) live)
  | live live =>
      rw [live, doubled]
      exact Nat.le_trans (doubled_le_of_behind nofun) (Nat.le_add_left _ _)

end Channels

theorem kind_eq_heartbeat_iff {e : Event} : e.kind = .heartbeat ↔ e.isHeartbeat = true := by
  obtain ⟨_ | _ | _, _, _, _, _⟩ := e <;>
    simp [Event.isHeartbeat, Event.kind, Content.isHeartbeat, Content.kind]

/-- Only tablets and heartbeats are live. -/
theorem kind_eq_tablet_iff {e : Event} (h : e.isBulk = false) :
    e.kind = .tablet ↔ e.isHeartbeat = false := by
  obtain ⟨_ | _ | _, _, _, _, _⟩ := e <;>
    simp_all [Event.isBulk, Event.isHeartbeat, Event.kind, Content.isBulk, Content.isHeartbeat,
      Content.kind]

/-- Files are neither, and all files are in the channel of their own. -/
theorem countP_queued {r : Register} {c : Channels} (h : r.Accounts c) :
    (c.toList.countP fun e => e.event.kind = .tablet) =
        (c.live.countP fun e => !e.event.isHeartbeat) ∧
      (c.toList.countP fun e => e.event.kind = .heartbeat) =
        c.live.countP fun e => e.event.isHeartbeat := by
  have hfile : ∀ e ∈ c.bulk, e.event.kind = .file := fun e he => by
    obtain ⟨f, hcontent⟩ := Event.content_of_isBulk (h.heavy he)
    rw [Event.kind, hcontent]
    rfl
  have hnone : ∀ k, k ≠ .file → (c.bulk.countP fun e => e.event.kind = k) = 0 := fun k hk =>
    List.countP_eq_zero.mpr fun e he => by simp [hfile e he, Ne.symm hk]
  simp only [Channels.toList, List.countP_append, hnone _ (show Kind.tablet ≠ .file by decide),
    hnone _ (show Kind.heartbeat ≠ .file by decide), Nat.add_zero]
  exact ⟨List.countP_congr fun e he => by simp [kind_eq_tablet_iff (h.light he)],
    List.countP_congr fun e _ => by simp [kind_eq_heartbeat_iff]⟩

namespace Realtime

variable {q q' : Realtime} {commons commons' : Commons}

/-- How many tablets an operation takes out from among what stays queued. -/
def tabletsTaken (q : Realtime) : Operation → Nat
  | .discard pipe region =>
      q.channels.live.countP fun e => e.event.kind = .tablet && e.belongsTo pipe region
  | _ => 0

/-- How many tablets the discards of a history took out from among what stayed queued. -/
def tabletsDiscarded : Realtime → Commons → List Operation → Nat
  | _, _, [] => 0
  | q, commons, o :: ops =>
      q.tabletsTaken o + tabletsDiscarded (q.after commons [o]).1 (q.after commons [o]).2 ops

theorem Drains.doubled_le {events : List EventRef} (h : Drains q commons events q' commons') :
    doubled false q'.channels.live ≤ doubled false q.channels.live := by
  induction h with
  | out => exact Nat.le_refl _
  | stop polled => exact (gave_poll polled).channels.doubled_le
  | next polled _ ih => exact Nat.le_trans ih (gave_poll polled).channels.doubled_le

theorem doubled_perform {r : Register} (accounts : r.Accounts q.channels) (commons : Commons)
    (o : Operation) :
    doubled false (q.after commons [o]).1.channels.live ≤
      doubled false q.channels.live + q.tabletsTaken o := by
  cases o with
  | offer e =>
      cases hpush : q.channels.push? e with
      | none =>
          have hsame := (offer_of_refused commons hpush).1
          exact Nat.le_of_eq (congrArg (fun c : Channels => doubled false c.live) hsame :)
      | some channels =>
          have hnew := (offer_of_pushed commons hpush).1
          exact Nat.le_of_eq ((congrArg (fun c : Channels => doubled false c.live) hnew).trans
            (Channels.doubled_push hpush))
  | poll => exact (q.poll_fields commons).1.gives.doubled_le
  | drain => exact (q.drains_drain commons).doubled_le
  | clear | discardAll => exact Nat.zero_le _
  | discard pipe region =>
      have hchannels := (q.discardPipe_fields commons pipe region).1
      have hlive : (q.after commons [.discard pipe region]).1.channels.live =
          q.channels.live.filter fun e => !e.belongsTo pipe region :=
        congrArg Channels.live hchannels
      have htaken : (q.channels.live.countP fun e =>
          !e.event.isHeartbeat && !!e.belongsTo pipe region) =
            q.tabletsTaken (.discard pipe region) :=
        List.countP_congr fun e he => by simp [kind_eq_tablet_iff (accounts.light he)]
      have hfilter := doubled_filter_le (fun e => !e.belongsTo pipe region) false false
        q.channels.live
      rw [hlive, ← htaken]
      simpa using hfilter
  | peek | list | shutdown | shared => exact Nat.le_refl _

theorem doubled_after {r : Register} (accounts : r.Accounts q.channels) (commons : Commons)
    (ops : List Operation) :
    doubled false (q.after commons ops).1.channels.live ≤
      doubled false q.channels.live + q.tabletsDiscarded commons ops := by
  induction ops generalizing q commons r with
  | nil => exact Nat.le_refl _
  | cons o ops ih =>
      obtain ⟨r', -, hnext⟩ := accounts.moves commons o
      have haccounts : r'.Accounts (q.after commons [o]).1.channels := hnext
      calc doubled false ((q.after commons [o]).1.after (q.after commons [o]).2 ops).1.channels.live
          ≤ doubled false (q.after commons [o]).1.channels.live +
              tabletsDiscarded (q.after commons [o]).1 (q.after commons [o]).2 ops :=
            ih haccounts (q.after commons [o]).2
        _ ≤ doubled false q.channels.live + q.tabletsTaken o +
              tabletsDiscarded (q.after commons [o]).1 (q.after commons [o]).2 ops :=
            Nat.add_le_add_right (doubled_perform accounts commons o) _
        _ = doubled false q.channels.live + q.tabletsDiscarded commons (o :: ops) :=
            Nat.add_assoc ..

/-- Along every history of a new queue, two heartbeats are adjacent at most as often as a tablet was
discarded while other events stayed, and heartbeats outnumber tablets by at most one more. Where no
discard took out a tablet, no two are adjacent. -/
theorem heartbeats_bounded (pipe : String) (settings : Settings) (commons : Commons)
    (ops : List Operation) :
    let start := Realtime.create pipe settings commons
    let s := start.1.after start.2 ops
    let lost := start.1.tabletsDiscarded start.2 ops
    let queued := s.1.channels.toList
    doubled false s.1.channels.live ≤ lost ∧
      (queued.countP fun e => e.event.kind = .heartbeat) ≤
        (queued.countP fun e => e.event.kind = .tablet) + 1 + lost ∧
      (lost = 0 → s.1.channels.live.IsChain fun a b =>
        ¬(a.event.kind = .heartbeat ∧ b.event.kind = .heartbeat)) := by
  intro start s lost queued
  obtain ⟨r, -, haccounts⟩ := Register.accounts_new.follows (q := start.1) start.2 ops
  have hdoubled : doubled false s.1.channels.live ≤ lost := by
    have hafter := doubled_after (q := start.1) Register.accounts_new start.2 ops
    rwa [show doubled false start.1.channels.live = 0 from rfl, Nat.zero_add] at hafter
  obtain ⟨htablets, hbeats⟩ := countP_queued haccounts
  refine ⟨hdoubled, ?_, fun hnone => ?_⟩
  · have hbeat := heartbeats_le false s.1.channels.live
    rw [htablets, hbeats]
    exact Nat.le_trans hbeat (Nat.add_le_add_left hdoubled _)
  · simp only [kind_eq_heartbeat_iff]
    exact isChain_of_doubled (Nat.le_zero.mp (hnone ▸ hdoubled))

/-- A heartbeat comes right behind another, tablets are retrieved, and a discard finds a file. -/
theorem heartbeats_bounded_of_kept_tablets :
    let event (content : Content) (region : Int) : Event := {
      content := content, pipe := "p", region := region, commit := .zero, progress := 0 }
    let beat (id : EventId) : EventRef := ⟨id, event (.heartbeat 0) 1⟩
    let tablet (id : EventId) : EventRef :=
      ⟨id, event (.tablet { target := "", rows := 0, payload := [] }) 1⟩
    let file (id : EventId) : EventRef :=
      ⟨id, event (.file { data := "/d", mods := none, flushPoints := 0 }) 2⟩
    let ops : List Operation := [.offer (tablet 0), .offer (beat 1), .offer (beat 2),
      .offer (file 3), .offer (tablet 4), .offer (beat 5), .poll, .discard "p" 2]
    let start := Realtime.create "q" {} {}
    let queued := (start.1.after start.2 ops).1.channels
    queued.live = [beat 1, tablet 4, beat 5] ∧ start.1.tabletsDiscarded start.2 ops = 0 ∧
      queued.live.IsChain fun a b =>
        ¬(a.event.kind = .heartbeat ∧ b.event.kind = .heartbeat) := by
  intro event beat tablet file ops
  have hlost : (create "q" {} {}).1.tabletsDiscarded (create "q" {} {}).2 ops = 0 := by
    decide +kernel
  obtain ⟨-, -, hapart⟩ := heartbeats_bounded "q" {} {} ops
  exact ⟨by decide +kernel, hlost, hapart hlost⟩

/-- A tablet of one region between two heartbeats of another: its discard leaves them side by side,
and there are two with no tablet queued. -/
theorem heartbeats_joined :
    let event (content : Content) (region : Int) : Event := {
      content := content, pipe := "p", region := region, commit := .zero, progress := 0 }
    let beat (id : EventId) : EventRef := ⟨id, event (.heartbeat 0) 1⟩
    let tablet : EventRef := ⟨1, event (.tablet { target := "", rows := 0, payload := [] }) 2⟩
    let start := Realtime.create "q" {} {}
    let queued := (start.1.after start.2 [.offer (beat 0), .offer tablet, .offer (beat 2),
      .discard "p" 2]).1.channels
    queued.live = [beat 0, beat 2] ∧
      ¬(queued.live.IsChain fun a b =>
        ¬(a.event.kind = .heartbeat ∧ b.event.kind = .heartbeat)) ∧
      ¬((queued.toList.countP fun e => e.event.kind = .heartbeat) ≤
        (queued.toList.countP fun e => e.event.kind = .tablet) + 1) := by
  decide +kernel

end Realtime

end Queue
end Courier
