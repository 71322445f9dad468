import Courier.Proofs.Transfer.Course
import Courier.Transfer.Trial
import Mathlib.Control.Monad.Basic

/-!
The requests of one attempt keep to the protocol. The peer may answer anything, or nothing, for as
long as it is asked, so an endless script is met by its beginnings. What the attempt exchanges with
it is written down by `exchanges`; the source files stay as they are while the attempt lasts.
-/

namespace Courier
namespace Transfer
namespace Trial

def exchanged (t : Trial) (a : Attempt) (next : Sent × Request) : Exchanged where
  sent := next.1
  request := next.2
  askedAt := t.now
  answer := (t.exchange next.2 a.timeoutMs).2
  answeredAt := (t.exchange next.2 a.timeoutMs).1.now

/-- What a run exchanges from a stage on, oldest first. -/
def transcript : Nat → Attempt → StatusPolicy → Stage → Trial → List Exchanged
  | 0, _, _, _, _ => []
  | fuel + 1, a, policy, stage, t =>
      match a.next t.disk stage with
      | .error _ => []
      | .ok next =>
          t.exchanged a next ::
            match t.advance a policy stage with
            | (t', .ok (some stage')) => transcript fuel a policy stage' t'
            | _ => []

/-- What an attempt of at most so many requests exchanges. -/
def exchanges (fuel : Nat) (a : Attempt) (policy : StatusPolicy) (t : Trial) : List Exchanged :=
  match a.start t.disk with
  | .error _ => []
  | .ok stage => transcript fuel a policy stage t

variable {a : Attempt} {src : Sources} {policy : StatusPolicy}

theorem exchange_requests (t : Trial) (request : Request) (timeoutMs : Nat) :
    (t.exchange request timeoutMs).1.requests = (t.now, request) :: t.requests := by
  unfold exchange
  dsimp only
  split <;> rfl

/-- The requests and the clock after a step are those after its exchange. -/
theorem advance_of_next (policy : StatusPolicy) {t : Trial} {stage : Stage} {next : Sent × Request}
    (h : a.next t.disk stage = .ok next) :
    (t.advance a policy stage).1.requests = (t.now, next.2) :: t.requests ∧
      (t.advance a policy stage).1.now = (t.exchanged a next).answeredAt := by
  obtain ⟨sent, request⟩ := next
  have hrequests := exchange_requests t request a.timeoutMs
  simp only [advance, h, exchanged]
  split <;> rename_i heq <;> rw [heq] at hrequests ⊢ <;> exact ⟨hrequests, rfl⟩

theorem run_of_leads {t : Trial} {stage stage' : Stage} (limit : Nat)
    (h : (t.advance a policy stage).2 = .ok (some stage')) :
    run (limit + 1) a policy stage t = run limit a policy stage' (t.advance a policy stage).1 := by
  rw [run]
  split <;> rename_i heq <;> rw [heq] at h ⊢ <;> cases h
  rfl

theorem run_of_stops {t : Trial} {stage : Stage} (limit : Nat)
    (h : ∀ stage', (t.advance a policy stage).2 ≠ .ok (some stage')) :
    (run (limit + 1) a policy stage t).1 = (t.advance a policy stage).1 := by
  rw [run]
  split <;> rename_i heq <;> rw [heq] at h ⊢
  exact absurd rfl (h _)

theorem transcript_of_leads {t : Trial} {stage stage' : Stage} {next : Sent × Request}
    (limit : Nat) (hnext : a.next t.disk stage = .ok next)
    (h : (t.advance a policy stage).2 = .ok (some stage')) :
    transcript (limit + 1) a policy stage t =
      t.exchanged a next :: transcript limit a policy stage' (t.advance a policy stage).1 := by
  simp only [transcript, hnext]
  split
  · rename_i heq
    rw [heq] at h ⊢
    cases h
    rfl
  · rename_i hstops
    exact (hstops _ stage' (Prod.ext rfl h)).elim

theorem transcript_of_stops {t : Trial} {stage : Stage} {next : Sent × Request} (limit : Nat)
    (hnext : a.next t.disk stage = .ok next)
    (h : ∀ stage', (t.advance a policy stage).2 ≠ .ok (some stage')) :
    transcript (limit + 1) a policy stage t = [t.exchanged a next] := by
  simp only [transcript, hnext]
  split
  · rename_i heq
    rw [heq] at h
    exact absurd rfl (h _)
  · rfl

/-- The transcript of a run has every request it makes, at the time it is made. -/
theorem run_requests (limit : Nat) (stage : Stage) (t : Trial) :
    (run limit a policy stage t).1.requests =
      ((transcript limit a policy stage t).map fun x => (x.askedAt, x.request)).reverse ++
        t.requests := by
  induction limit generalizing stage t with
  | zero => rfl
  | succ limit ih =>
      cases hnext : a.next t.disk stage with
      | error error => simp [run, transcript, advance, hnext]
      | ok next =>
          have hrequests := (advance_of_next policy hnext).1
          by_cases h : ∃ stage', (t.advance a policy stage).2 = .ok (some stage')
          · obtain ⟨stage', hstage⟩ := h
            rw [run_of_leads limit hstage, transcript_of_leads limit hnext hstage, ih, hrequests]
            simp [exchanged]
          · have hstops := not_exists.mp h
            rw [run_of_stops limit hstops, transcript_of_stops limit hnext hstops, hrequests]
            rfl

theorem start_requests (limit : Nat) (t : Trial) :
    (start limit a policy t).1.requests =
      ((exchanges limit a policy t).map fun x => (x.askedAt, x.request)).reverse ++ t.requests := by
  unfold start exchanges
  cases a.start t.disk with
  | error error => rfl
  | ok stage => exact run_requests limit stage t

end Trial
end Transfer
end Courier
