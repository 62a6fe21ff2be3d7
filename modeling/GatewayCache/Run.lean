/-
  GatewayCache.Run

  Runs of a machine that takes one operation after the other.

  A machine is given by its step: an operation is taken at an instant, gets a reply and
  leaves the next state. The stores of entries, the caches and the sessions all run in
  this way. What one step keeps is kept by a whole run (`runSteps_induction`), and two
  runs behind each other are one (`runSteps_append`).
-/

import GatewayCache.Clock

namespace GatewayCache

variable {ω ρ σ : Type} (step : Instant → ω → σ → ρ × σ)

/-- Operations one after the other, each at its own instant, with the replies in
    order. -/
def runSteps : List (Instant × ω) → σ → List ρ × σ
  | [], s => ([], s)
  | (now, op) :: ops, s =>
      let (reply, s) := step now op s
      let (replies, s) := runSteps ops s
      (reply :: replies, s)

theorem runSteps_append (ops more : List (Instant × ω)) (s : σ) :
    runSteps step (ops ++ more) s =
      ((runSteps step ops s).1 ++ (runSteps step more (runSteps step ops s).2).1,
        (runSteps step more (runSteps step ops s).2).2) := by
  induction ops generalizing s with
  | nil => rfl
  | cons c ops ih => simp [runSteps, ih]

theorem runSteps_concat (ops : List (Instant × ω)) (c : Instant × ω) (s : σ) :
    runSteps step (ops ++ [c]) s =
      ((runSteps step ops s).1 ++ [(step c.1 c.2 (runSteps step ops s).2).1],
        (step c.1 c.2 (runSteps step ops s).2).2) :=
  runSteps_append step ops [c] s

theorem length_runSteps (ops : List (Instant × ω)) (s : σ) :
    (runSteps step ops s).1.length = ops.length := by
  induction ops generalizing s with
  | nil => rfl
  | cons c ops ih => exact congrArg Nat.succ (ih _)

variable {step}

/-- What every step keeps holds after a run. -/
theorem runSteps_induction {P : σ → Prop} (keeps : ∀ now op s, P s → P (step now op s).2)
    (ops : List (Instant × ω)) {s : σ} (h : P s) : P (runSteps step ops s).2 := by
  induction ops generalizing s with
  | nil => exact h
  | cons c ops ih => exact ih (keeps c.1 c.2 s h)

end GatewayCache
