import WindowTally.Delivery.Sink
import WindowTally.Settings.Delivery

/-!
# Delivering one word count

A delivery offers its word count to the sink until the sink takes it or the
retries run out, with a pause after each failure but the last. `Delivery.resolve`
is what one answer of the sink does to it.
-/
namespace WindowTally

/-- What a delivery does next: offer, wait until a time, or nothing more. -/
inductive DeliveryPhase where
  | offering
  | pausing (wake : Nat)
  | settled (outcome : Except DeliveryFault Unit)
  deriving Repr

/-- A word count on its way to the sink. -/
structure Delivery where
  count : WordCount
  attempts : UInt32 := 0
  phase : DeliveryPhase := .offering
  deriving Repr

namespace Delivery

/-- The delivery after an answer of the sink at time `now`.
mirrors `dispatcher.deliver_with_retry`, one turn of its loop -/
def resolve (d : Delivery) (settings : DeliverySettings) (now : Nat)
    (answer : Except DeliveryFault Unit) : Delivery :=
  let attempts := d.attempts + 1
  match answer with
  | .ok _ => { d with attempts := attempts, phase := .settled (.ok ()) }
  | .error fault =>
    if attempts ≤ settings.maxRetries then
      { d with attempts := attempts, phase := .pausing (now + (settings.backoff attempts).toNat) }
    else
      { d with
        attempts := attempts
        phase := .settled
          (.error (.exhausted d.count.word d.count.window.id attempts fault.message)) }

/-- How the delivery ended, if it has. -/
def outcome? (d : Delivery) : Option (Except DeliveryFault Unit) :=
  match d.phase with
  | .settled outcome => some outcome
  | _ => none

variable (d : Delivery) (settings : DeliverySettings) (now : Nat)
  (answer : Except DeliveryFault Unit)

@[simp]
theorem count_resolve : (d.resolve settings now answer).count = d.count := by
  unfold resolve
  cases answer with
  | ok u => rfl
  | error fault =>
    dsimp only
    split <;> rfl

@[simp]
theorem attempts_resolve : (d.resolve settings now answer).attempts = d.attempts + 1 := by
  unfold resolve
  cases answer with
  | ok u => rfl
  | error fault =>
    dsimp only
    split <;> rfl

/-- How an attempt ends depends on the word count, the counter and the answer. -/
theorem outcome_resolve : (d.resolve settings now answer).outcome? =
    match answer with
    | .ok _ => some (.ok ())
    | .error fault =>
      if d.attempts + 1 ≤ settings.maxRetries then none
      else some (.error
        (.exhausted d.count.word d.count.window.id (d.attempts + 1) fault.message)) := by
  unfold resolve
  cases answer with
  | ok u => rfl
  | error fault =>
    by_cases hle : d.attempts + 1 ≤ settings.maxRetries
    · simp only [if_pos hle]
      rfl
    · simp only [if_neg hle]
      rfl

end Delivery

end WindowTally
