import AtlasCore.Evidence.Reading
import Mathlib.Algebra.Order.Field.Rat

/-!
# The budget of a run

Limits a host declares, and the counters that are charged against them.  Reading the clock and
asking whether the run was cancelled are the host's, and each may answer anything at any time.

A call is reserved before it is made, so one that is refused is not counted, and what was counted
was allowed.  `check` comes first in each reservation: a run that was cancelled, or has no time
left, is told so before it is told of a counter.
-/

set_option autoImplicit false

namespace AtlasCore

open Py

/-- `RunLimits`: what a run may use of time, calls, tokens and bytes. -/
structure RunLimits where
  wallSeconds : ℚ
  modelCalls : ℕ
  toolCalls : ℕ
  tokens : ℕ
  outputBytes : ℕ
  /-- `__post_init__` refuses anything else. -/
  positive : 0 < wallSeconds

/-- `RunBudget`: the limits, the deadline and what was spent. -/
structure RunBudget where
  limits : RunLimits
  deadline : ℚ
  modelCalls : ℕ := 0
  toolCalls : ℕ := 0
  tokens : ℕ := 0
  outputBytes : ℕ := 0

/-- What a budget is measured with: the clock, and whether the caller asked to stop. -/
structure Meter (W : Type) where
  clock : Eff Exc W ℚ
  cancelled : Option (Eff Exc W Bool)

variable {W : Type} (meter : Meter W)

/-- A computation over the world, where a budget is at hand. -/
def ofWorld {α : Type} (m : Eff Exc W α) : Eff Exc (W × RunBudget) α :=
  m.zoom (·.1) fun w p ↦ (w, p.2)

/-- `cancelled is not None and cancelled()`: a run that cannot be cancelled is not. -/
def Meter.isCancelled : Eff Exc W Bool :=
  match meter.cancelled with
  | some cancelled => cancelled
  | none => return false

namespace RunBudget

/-- `RunBudget(limits)`: the deadline is fixed when the budget is made, and nothing is used yet. -/
def start (limits : RunLimits) : Eff Exc W RunBudget := do
  let now ← meter.clock
  return { limits, deadline := now + limits.wallSeconds }

/-- `RunBudget.check`: a cancelled run is told so before it is told of the time; nothing is charged.
-/
def check : Eff Exc (W × RunBudget) Unit := do
  if ← ofWorld meter.isCancelled then Eff.raise .runCancelled
  else
    let now ← ofWorld meter.clock
    let budget := (← Eff.read).2
    if now ≥ budget.deadline then Eff.raise (.budgetExceeded (str "wall_seconds"))
    else return ()

/-- Set the counters of the budget; the world does not notice. -/
def charge (f : RunBudget → RunBudget) : Eff Exc (W × RunBudget) Unit :=
  Eff.update fun p ↦ (p.1, f p.2)

/-- `RunBudget.reserve_model`: a model call is counted before it is made, and refused where there is
none left. -/
def reserveModel : Eff Exc (W × RunBudget) Unit := do
  check meter
  let budget := (← Eff.read).2
  if budget.modelCalls ≥ budget.limits.modelCalls then
    Eff.raise (.budgetExceeded (str "model_calls"))
  else charge fun b ↦ { b with modelCalls := b.modelCalls + 1 }

/-- `RunBudget.reserve_tool`: a tool call is counted before it is made, and refused where there is
none left. -/
def reserveTool : Eff Exc (W × RunBudget) Unit := do
  check meter
  let budget := (← Eff.read).2
  if budget.toolCalls ≥ budget.limits.toolCalls then
    Eff.raise (.budgetExceeded (str "tool_calls"))
  else charge fun b ↦ { b with toolCalls := b.toolCalls + 1 }

/-- `RunBudget.remaining_seconds`: what is left until the deadline, never below nothing. -/
def remainingSeconds : Eff Exc (W × RunBudget) ℚ := do
  check meter
  let now ← ofWorld meter.clock
  return max 0 ((← Eff.read).2.deadline - now)

/-- `RunBudget.charge_tokens`: the tokens are counted before the limit is looked at. -/
def chargeTokens (usage : Option ℕ) : Eff Exc (W × RunBudget) Unit := do
  check meter
  match usage with
  | none => Eff.raise .unmeteredUsage
  | some n =>
    charge fun b ↦ { b with tokens := b.tokens + n }
    let budget := (← Eff.read).2
    if budget.tokens > budget.limits.tokens then Eff.raise (.budgetExceeded (str "tokens"))
    else return ()

/-- `RunBudget.charge_output`: the bytes are counted before the limit is looked at. -/
def chargeOutput (output : Str) : Eff Exc (W × RunBudget) Unit := do
  check meter
  match encode output with
  | none => Eff.raise .unicodeEncodeError
  | some bytes =>
    charge fun b ↦ { b with outputBytes := b.outputBytes + bytes.length }
    let budget := (← Eff.read).2
    if budget.outputBytes > budget.limits.outputBytes then
      Eff.raise (.budgetExceeded (str "output_bytes"))
    else return ()

end RunBudget

end AtlasCore
