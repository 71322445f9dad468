import Courier.Proofs.Queue.Channels
import Courier.Queue.Operation

/-!
Histories of a queue: operations on it and on what it shares with others, one after the other. What
single operations answer and leave behind, where the definitions do not say it at a glance.
-/

namespace Courier
namespace Queue
namespace Realtime

variable {q q' : Realtime} {commons commons' : Commons}

/-- The queue and what it shares with others, after operations on either. -/
def after (q : Realtime) (commons : Commons) (ops : List Operation) : Realtime × Commons :=
  ops.foldl (fun s o => ((s.1.perform s.2 o : Realtime × Commons × Reply Empty).1,
    (s.1.perform s.2 o : Realtime × Commons × Reply Empty).2.1)) (q, commons)

/-- What an operation is answered. -/
def answer (q : Realtime) (commons : Commons) (o : Operation) : Reply Empty :=
  (q.perform commons o).2.2

theorem offer_of_pushed (commons : Commons) {e : EventRef} {channels : Channels}
    (h : q.channels.push? e = some channels) :
    (q.offer commons e).1.channels = channels ∧ (q.offer commons e).2.1.ledger = commons.ledger ∧
      (q.offer commons e).2.2 = true := by
  simp [offer, h, withChannels]

theorem offer_of_refused (commons : Commons) {e : EventRef} (h : q.channels.push? e = none) :
    (q.offer commons e).1.channels = q.channels ∧
      (q.offer commons e).2.1.ledger = (commons.ledger.drop e.id).1 ∧
      (q.offer commons e).2.2 = false := by
  simp [offer, h, Commons.drop]

/-- Retrievals one after the other, as long as something comes. -/
inductive Drains : Realtime → Commons → List EventRef → Realtime → Commons → Prop
  | out {q : Realtime} {commons : Commons} : Drains q commons [] q commons
  | stop {q q' : Realtime} {commons commons' : Commons}
      (polled : q.poll commons = (q', commons', none)) : Drains q commons [] q' commons'
  | next {q q' q'' : Realtime} {commons commons' commons'' : Commons} {e : EventRef}
      {events : List EventRef} (polled : q.poll commons = (q', commons', some e))
      (rest : Drains q' commons' events q'' commons'') :
      Drains q commons (e :: events) q'' commons''

theorem drains_within (fuel : Nat) (q : Realtime) (commons : Commons) :
    Drains q commons (drainWithin fuel q commons).2.2 (drainWithin fuel q commons).1
      (drainWithin fuel q commons).2.1 := by
  induction fuel generalizing q commons with
  | zero => exact .out
  | succ fuel ih =>
      unfold drainWithin
      split
      · rename_i hpoll
        exact .stop hpoll
      · rename_i hpoll
        exact .next hpoll (ih _ _)

theorem drains_drain (q : Realtime) (commons : Commons) :
    Drains q commons (q.drain commons).2.2 (q.drain commons).1 (q.drain commons).2.1 :=
  drains_within (q.channels.size + 1) q commons

theorem Drains.settings {events : List EventRef} (h : Drains q commons events q' commons') :
    q'.settings = q.settings := by
  induction h with
  | out => rfl
  | stop polled => exact (gave_poll polled).settings
  | next polled _ ih => exact ih.trans (gave_poll polled).settings

theorem settings_perform (q : Realtime) (commons : Commons) (o : Operation) :
    ((q.perform commons o : Realtime × Commons × Reply Empty).1).settings = q.settings := by
  cases o with
  | offer e =>
      cases h : q.channels.push? e <;> simp [perform, offer, h, withChannels]
  | poll => exact (q.poll_fields commons).2.1
  | drain => exact (q.drains_drain commons).settings
  | discard pipe region => exact (q.discardPipe_fields commons pipe region).2.1
  | peek | list | clear | discardAll | shutdown | shared => rfl

theorem settings_after (q : Realtime) (commons : Commons) (ops : List Operation) :
    (q.after commons ops).1.settings = q.settings := by
  induction ops generalizing q commons with
  | nil => rfl
  | cons o ops ih => exact (ih _ _).trans (q.settings_perform commons o)

end Realtime
end Queue
end Courier
