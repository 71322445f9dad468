import Courier.CommandLine.Program
import Courier.Proofs.Pipe.Items
import Courier.Proofs.Pipe.Settling
import Courier.Proofs.Transfer.Sources

/-!
What an accepted configuration is good for. Whatever happens to the pipe that is built from it, the
pipe divides by no zero, keeps room for clients and buffers, and reads files with a buffer that can
hold something. A reporter of metrics is another matter: its interval is not looked at.
-/

namespace Courier

open Transfer

theorem Bytes.slice_eq_nil_iff {bs : Bytes} {offset count : Nat} (room : count ≠ 0) :
    slice bs offset count = [] ↔ bs.length ≤ offset := by
  refine ⟨fun h => Nat.le_of_not_lt fun hlt => ?_, slice_eq_nil_of_le⟩
  exact slice_ne_nil hlt (Nat.pos_of_ne_zero room) h

namespace Transfer.Attempt

/-- A reader with room for something reaches its end where the file ends, and nowhere else. -/
theorem nextPiece_eq_none_iff {a : Attempt} (room : a.bufferBytes ≠ 0) (d : Disk) (part : Part)
    (id : FileId) (position offset : Nat) :
    a.nextPiece d part { node := .file id, position } offset = .ok none ↔
      (d.bytesOf id).length ≤ position := by
  have hread : d.read (.file id) position a.bufferBytes =
      .ok (Bytes.slice (d.bytesOf id) position a.bufferBytes) := rfl
  rw [← Bytes.slice_eq_nil_iff room, nextPiece, hread]
  cases Bytes.slice (d.bytesOf id) position a.bufferBytes <;> simp

end Transfer.Attempt

/-! ### What is accepted -/

/-- All that is looked at, and found to be fit. -/
structure Config.IsFit (c : Config) : Prop where
  threshold : c.queue.bulkThreshold ≠ 0
  inFlight : c.queue.maxInFlight ≠ 0
  batchDelay : c.batch.maxDelayMs ≠ 0
  batchSize : c.batch.maxBytes ≠ 0
  readBuffer : c.transfer.readBufferBytes ≠ 0
  clients : c.transfer.maxClients ≠ 0
  initialRetry : c.transfer.initialRetryMs ≠ 0
  memory : c.transfer.readBufferBytes ≤ c.memory.totalBytes

theorem Config.validate_eq_ok_iff (c : Config) : c.validate = .ok () ↔ c.IsFit := by
  have hproblems : c.validate = .ok () ↔ c.problems = [] := by
    unfold validate
    cases c.problems <;> simp
  rw [hproblems]
  simp only [problems, List.append_eq_nil_iff, ite_eq_right_iff, List.cons_ne_nil, imp_false,
    Nat.not_lt]
  constructor
  · rintro ⟨⟨⟨⟨⟨⟨⟨threshold, inFlight⟩, batchDelay⟩, batchSize⟩, readBuffer⟩, clients⟩,
      initialRetry⟩, memory⟩
    exact ⟨threshold, inFlight, batchDelay, batchSize, readBuffer, clients, initialRetry, memory⟩
  · rintro ⟨threshold, inFlight, batchDelay, batchSize, readBuffer, clients, initialRetry, memory⟩
    exact ⟨⟨⟨⟨⟨⟨⟨threshold, inFlight⟩, batchDelay⟩, batchSize⟩, readBuffer⟩, clients⟩,
      initialRetry⟩, memory⟩

namespace Pipe

variable {P : Type} [Batch.Payload P] {p p' : Pipe P}

/-! ### What a pipe keeps -/

theorem setup_run (p : Pipe P) (id : TaskId) : (p.run id).setup = p.setup := by
  refine run_requests p id (fun a link _ => ?_) (fun t link _ => ?_) fun _ silent => silent.setup
  · obtain ⟨q, hheard, hfares⟩ := fares_runTransfer p id a link
    exact hfares.setup.trans hheard.setup
  · obtain ⟨q, hheard, hfares⟩ := fares_runTablets p id t link
    exact hfares.setup.trans hheard.setup

/-- Whatever happens to a pipe, it stays as it was set up. -/
theorem Happening.setup (h : Happening p p') : p'.setup = p.setup := by
  rcases h.silent with hsilent | ⟨e, rfl⟩ | ⟨t, -, -, rfl⟩
  · exact hsilent.setup
  · exact (Hands.addFailure p e).setup
  · exact setup_run p t.id

/-- An attempt was prepared with some settings. -/
def Item.IsPrepared : Item → Prop
  | .attempt a _ => ∃ e settings now, Attempt.prepare e settings now = .ok a
  | _ => True

theorem isPrepared_lasts : Item.Lasts Item.IsPrepared where
  plain x plain := by
    cases x with
    | attempt => cases plain
    | _ => trivial
  prepared h := ⟨_, _, _, h⟩
  asksPiece h _ := h
  asksTablets _ _ _ := trivial

/-- The numbers of a configuration, as a pipe has them that is built from it. -/
def Setup.ofConfig (c : Config) : Setup where
  queue := c.queue
  transfer := c.transfer
  statusPolicy := .tolerateConflicts
  bufferLimit := c.transfer.maxClients
  bufferCapacity := c.transfer.readBufferBytes
  clients := c.transfer.maxClients

/-- What a pipe stands on that was built from a fit configuration. -/
structure Stands (c : Config) (p : Pipe P) : Prop where
  numbered : (p.books none 0).Numbered
  setup : p.setup = .ofConfig c
  prepared : ∀ t ∈ p.tasks, ∀ x ∈ t.process.items, x.IsPrepared

theorem stands_of_assembled {c : Config} (fit : c.IsFit) (names : Names) (payload : P)
    (disk : Disk) (peer : Peer) :
    Stands c (assemble names (CommandLine.SendOrder.settings c) payload disk peer) := by
  -- A pool has room for one at least; for a fit configuration that is no more than was asked for.
  refine ⟨numbered_of_tasks rfl, ?_, fun _ ht => absurd ht List.not_mem_nil⟩
  have hlimit : max c.transfer.maxClients 1 = c.transfer.maxClients :=
    Nat.max_eq_left (Nat.pos_of_ne_zero fit.clients)
  have hclients : (List.replicate c.transfer.maxClients 0).length = c.transfer.maxClients :=
    List.length_replicate
  unfold Pipe.setup Setup.ofConfig
  congr

theorem Stands.reaches {c : Config} (h : Stands c p)
    (reach : Relation.ReflTransGen Happening p p') : Stands c p' := by
  induction reach with
  | refl => exact h
  | tail _ happening ih =>
      exact ⟨happening.numbered ih.numbered, happening.setup.trans ih.setup,
        isPrepared_lasts.happens happening ih.numbered ih.prepared⟩

/-! ### What runs -/

/-- Nothing is zero that a pipe divides by, makes room for or reads at a time; so a transfer that
reads nothing is at the end of its file. -/
structure IsRunnable (p : Pipe P) : Prop where
  period : p.queue.settings.effectivePeriod ≠ 0
  clients : p.clients.size ≠ 0
  buffers : p.connector.buffers.limit ≠ 0
  capacity : p.connector.buffers.bufferCapacity ≠ 0
  room : ∀ t ∈ p.tasks, ∀ a link, t.process = .transfer a link → a.bufferBytes ≠ 0
  ends : ∀ t ∈ p.tasks, ∀ a link, t.process = .transfer a link →
    ∀ (d : Disk) (part : Part) (id : FileId) (position offset : Nat),
      a.nextPiece d part { node := .file id, position } offset = .ok none ↔
        (d.bytesOf id).length ≤ position

omit [Batch.Payload P] in
theorem Stands.runnable {c : Config} (fit : c.IsFit) (h : Stands c p) : p.IsRunnable := by
  have hroom : ∀ t ∈ p.tasks, ∀ a link, t.process = .transfer a link → a.bufferBytes ≠ 0 := by
    intro t ht a link hprocess
    have hitem : .attempt a link.asked? ∈ t.process.items := by
      rw [hprocess]
      exact Multiset.mem_singleton_self _
    obtain ⟨e, settings, now, hprepared⟩ := h.prepared t ht _ hitem
    rw [Attempt.prepare_bufferBytes hprepared]
    omega
  have hclients : p.clients.size = c.transfer.maxClients := congrArg Setup.clients h.setup
  have hlimit : p.connector.buffers.limit = c.transfer.maxClients :=
    congrArg Setup.bufferLimit h.setup
  have hcapacity : p.connector.buffers.bufferCapacity = c.transfer.readBufferBytes :=
    congrArg Setup.bufferCapacity h.setup
  refine ⟨?_, hclients ▸ fit.clients, hlimit ▸ fit.clients, hcapacity ▸ fit.readBuffer, hroom,
    fun t ht a link hprocess => Attempt.nextPiece_eq_none_iff (hroom t ht a link hprocess)⟩
  unfold Queue.Settings.effectivePeriod
  omega

end Pipe

theorem Metrics.Reporter.runs_iff (r : Metrics.Reporter) (snapshotAt : Nat → Metrics.Snapshot)
    (span : Nat) :
    (∃ lines, r.run snapshotAt span = .ok lines) ↔
      (r.settings.enabled = true → r.settings.interval.nanos ≠ 0) := by
  unfold run
  cases r.settings.enabled with
  | false => simp
  | true =>
      by_cases hzero : r.settings.interval.nanos = 0
      · simp [hzero]
      · simp [hzero]

namespace Pipe

/-- A pipe that is built from an accepted configuration keeps its numbers, whatever happens to it,
and can run: it divides by no zero, has room for clients and buffers, and takes no file to end
where it does not. A reporter with the same configuration runs if and only if it has nothing to
report or some time between its reports. -/
theorem accepted_runs {P : Type} [Batch.Payload P] {c : Config} (accepted : c.validate = .ok ())
    (names : Names) (payload : P) (disk : Disk) (peer : Peer) :
    (∀ p, Relation.ReflTransGen Happening
        (assemble names (CommandLine.SendOrder.settings c) payload disk peer) p →
      p.setup = .ofConfig c ∧ p.IsRunnable) ∧
    ∀ r : Metrics.Reporter, r.settings = c.metrics → ∀ snapshotAt span,
      (∃ lines, r.run snapshotAt span = .ok lines) ↔
        (c.metrics.enabled = true → c.metrics.interval.nanos ≠ 0) := by
  have hfit := c.validate_eq_ok_iff.mp accepted
  refine ⟨fun p reach => ?_, fun r hsettings snapshotAt span => ?_⟩
  · have hstands := (stands_of_assembled hfit names payload disk peer).reaches reach
    exact ⟨hstands.setup, hstands.runnable hfit⟩
  · rw [← hsettings]
    exact r.runs_iff snapshotAt span

/-- One client, and two bytes at a time. -/
def frugal : Config where
  transfer := { maxClients := 1, readBufferBytes := 2 }

/-- A file of four bytes. -/
def letter : EventRef := ⟨0, {
  content := .file { data := "/l", mods := none, flushPoints := 0 }, pipe := "", region := 0
  commit := .zero, progress := 0 }⟩

def idling : Pipe Batch.PlainPayload :=
  assemble ⟨"q", "b", "c"⟩ (CommandLine.SendOrder.settings frugal) {}
    { names := [(["l"], 0)], contents := #[[1, 2, 3, 4]] } { fallback := .pass }

/-- A pipe with a transfer under way that had its first piece taken. -/
def engaged : Pipe Batch.PlainPayload :=
  ((idling.withLedger ⟨.replicate 1 {}⟩).perform (.transferFile letter)).1.run 0

theorem reaches_engaged : Relation.ReflTransGen Happening idling engaged := by
  refine .head (.retuned _) (.head (.performed _) (.single (.ran_of_any ?_)))
  decide +kernel

theorem accepted_runs_frugal :
    (engaged.setup = .ofConfig frugal ∧ engaged.IsRunnable) ∧ engaged.tasks.length = 1 ∧
      ∃ lines, Metrics.Reporter.run {} (fun _ => {}) 1 = .ok lines := by
  have accepted : frugal.validate = .ok () := by decide
  obtain ⟨kept, reports⟩ := accepted_runs accepted ⟨"q", "b", "c"⟩ ({} : Batch.PlainPayload)
    { names := [(["l"], 0)], contents := #[[1, 2, 3, 4]] } { fallback := .pass }
  exact ⟨kept engaged reaches_engaged, by decide +kernel,
    (reports {} rfl (fun _ => {}) 1).mpr fun _ => by decide⟩

/-- Reports with no time between are accepted, and their reporter breaks down. -/
theorem zero_interval_accepted :
    let c : Config := { metrics := { interval := .zero } }
    c.validate = .ok () ∧ c.metrics.enabled = true ∧
      Metrics.Reporter.run { settings := c.metrics } (fun _ => {}) 1 = .error .zeroInterval ∧
      CommandLine.breaksReporter c = true := by
  decide

end Pipe
end Courier
