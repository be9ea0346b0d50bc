import AtlasCore.Evidence.Reading

/-!
# The state machine of a run

Which statuses there are, where a run may go from each, and how it may end.  A stop reason names its
own terminal status, so a run stops by naming a reason and never by setting the two fields.

The table is a function of the status, written as the source has it: the loop, and for every status
that is no end the ways in which it can be interrupted.  Nothing leaves a terminal status
(`not_isLegal_of_terminal`), and the status of every reason is one (`StopReason.isTerminal_status`).
-/

set_option autoImplicit false

namespace AtlasCore

open Py

/-- `Status`: where a run is.  The last four are its ends. -/
inductive Status where
  | new
  | observing
  | routing
  | planning
  | executing
  | evaluating
  | replanning
  | needUserApproval
  | done
  | failed
  | cancelled
  deriving DecidableEq

/-- `StopReason`: why a run ended.  Each reason belongs to one terminal status and to one class. -/
inductive StopReason where
  | passed
  | insufficientEvidence
  | blocked
  | approvalRequired
  | budgetExhausted
  | maxIterations
  | noProgress
  | toolError
  | cancelled
  deriving DecidableEq

namespace Status

/-- `TERMINAL_STATUSES`: a run in one of these is over. -/
def isTerminal : Status → Bool
  | needUserApproval | done | failed | cancelled => true
  | _ => false

/-- `_INTERRUPTIONS`: what a control bound, a failure or a cancellation leads to. -/
def interruptions : List Status := [done, failed, cancelled]

/-- `_LOOP`: the fixed order of the rest, from one stage of a pass to the next. -/
def loop : Status → List Status
  | new => [observing]
  | observing => [routing, replanning]
  | routing => [planning]
  | planning => [executing]
  | executing => [evaluating]
  | evaluating => [replanning, observing, done, needUserApproval]
  | replanning => [routing, done]
  | needUserApproval | done | failed | cancelled => []

/-- `TRANSITIONS`: the loop, and from every status that is no end the ways to be interrupted. -/
def transitions (s : Status) : List Status :=
  if s.isTerminal then s.loop else s.loop ++ interruptions

/-- `is_legal`: a status may follow another only if the table has it. -/
def isLegal (source target : Status) : Bool := target ∈ source.transitions

theorem isLegal_of_interruption {s t : Status} (hs : s.isTerminal = false)
    (ht : t ∈ interruptions) : s.isLegal t = true := by
  rw [isLegal, decide_eq_true_eq, transitions, hs]
  exact List.mem_append_right _ ht

/-- Nothing leaves a terminal status. -/
theorem not_isLegal_of_terminal {s t : Status} (hs : s.isTerminal = true) :
    s.isLegal t = false := by
  cases s <;> simp_all [isLegal, transitions, loop, isTerminal]

end Status

/-- The terminal status in `STOP_REASONS`: where a run is that ended for this reason. -/
def StopReason.status : StopReason → Status
  | approvalRequired => .needUserApproval
  | toolError => .failed
  | cancelled => .cancelled
  | _ => .done

/-- `StopClass`: what kind of thing ended a run. -/
inductive StopClass where
  | evaluation | runtime | control
  deriving DecidableEq

/-- The text of a stop class, as the document of the run has it. -/
def StopClass.text : StopClass → Str
  | evaluation => str "evaluation"
  | runtime => str "runtime"
  | control => str "control"

/-- The class in `STOP_REASONS`: whether the evaluation, the runtime or the control ended the run.
-/
def StopReason.stopClass : StopReason → StopClass
  | passed | insufficientEvidence => .evaluation
  | toolError => .runtime
  | _ => .control

theorem StopReason.isTerminal_status (r : StopReason) : r.status.isTerminal = true := by
  cases r <;> rfl

/-- Every reason but the approval is an interruption. -/
theorem StopReason.status_mem_interruptions {r : StopReason} (h : r ≠ approvalRequired) :
    r.status ∈ Status.interruptions := by
  cases r <;> simp_all [status, Status.interruptions]

/-- `classify_stop`.  The order is the priority: the first rule that matches is the most specific
true thing about the run. -/
def classifyStop
    (passed requiresApproval blocked gaps retryIsPossible iterationsLeft : Bool) : StopReason :=
  if requiresApproval then .approvalRequired
  else if passed then .passed
  else if blocked then .blocked
  else if retryIsPossible && !iterationsLeft then .maxIterations
  else if gaps then .insufficientEvidence
  else .noProgress

section classify

variable {passed approval blocked gaps retry left : Bool}

theorem classifyStop_eq_approvalRequired :
    classifyStop passed approval blocked gaps retry left = .approvalRequired ↔ approval = true := by
  rw [classifyStop]
  split_ifs <;> simp_all

theorem classifyStop_eq_passed :
    classifyStop passed approval blocked gaps retry left = .passed ↔
      approval = false ∧ passed = true := by
  rw [classifyStop]
  split_ifs <;> simp_all

theorem classifyStop_eq_maxIterations :
    classifyStop passed approval blocked gaps retry left = .maxIterations ↔
      approval = false ∧ passed = false ∧ blocked = false ∧ retry = true ∧ left = false := by
  rw [classifyStop]
  split_ifs <;> simp_all

/-- A graded run stops for a reason that is about the grade, or about what the grade rests on. -/
theorem classifyStop_mem :
    classifyStop passed approval blocked gaps retry left ∈
      [StopReason.approvalRequired, .passed, .blocked, .maxIterations, .insufficientEvidence,
        .noProgress] := by
  rw [classifyStop]
  split_ifs <;> simp

end classify

end AtlasCore
