import AtlasCore.Lib.Text

/-!
# What can be recorded

The closed vocabularies of the event log.

Each vocabulary is a type of its own, with the text that a record has for each of its values, so a
kind, a call kind or an outcome that the source would refuse cannot be written down.  The texts of
the kinds are distinct (`EventKind.text_injective`), so the kind of an event can be read back off
its record.
-/

set_option autoImplicit false

namespace AtlasCore

open Py

/-- `EVENT_KINDS`: what an event can be about, from the start of a run to its stop. -/
inductive EventKind where
  | runStarted
  | interrupted
  | resumed
  | planSelected
  | callStarted
  | callFinished
  | observationRecorded
  | decisionRecorded
  | approvalRecorded
  | writeVerified
  | runStopped
  deriving DecidableEq, Repr

/-- The text of a kind, as a record has it. -/
def EventKind.text : EventKind → Str
  | runStarted => str "run_started"
  | interrupted => str "interrupted"
  | resumed => str "resumed"
  | planSelected => str "plan_selected"
  | callStarted => str "call_started"
  | callFinished => str "call_finished"
  | observationRecorded => str "observation_recorded"
  | decisionRecorded => str "decision_recorded"
  | approvalRecorded => str "approval_recorded"
  | writeVerified => str "write_verified"
  | runStopped => str "run_stopped"

/-- `EVENT_KINDS`, in its order, which the search for a kind goes through. -/
def EVENT_KINDS : List EventKind :=
  [.runStarted, .interrupted, .resumed, .planSelected, .callStarted, .callFinished,
    .observationRecorded, .decisionRecorded, .approvalRecorded, .writeVerified, .runStopped]

/-- The kind a text names, if it names one; the texts of the kinds are distinct. -/
def EventKind.ofText (s : Str) : Option EventKind := EVENT_KINDS.find? fun kind ↦ kind.text = s

theorem EventKind.ofText_text (kind : EventKind) : ofText kind.text = some kind := by
  cases kind <;> decide

/-- A text names one kind. -/
theorem EventKind.text_injective : Function.Injective EventKind.text := fun a b h ↦ by
  have hab := congrArg ofText h
  rwa [ofText_text, ofText_text, Option.some.injEq] at hab

/-- `CALL_KINDS`: what a call reaches for, outside of the run. -/
inductive CallKind where
  | observe | modelCall | toolCall | memoryRead | memoryWrite
  deriving DecidableEq

/-- The text of a call kind, as the payload of a started call has it. -/
def CallKind.text : CallKind → Str
  | observe => str "observe"
  | modelCall => str "model_call"
  | toolCall => str "tool_call"
  | memoryRead => str "memory_read"
  | memoryWrite => str "memory_write"

/-- `CALL_OUTCOMES`: a call comes back, is refused before it is made, or fails. -/
inductive CallOutcome where
  | ok | denied | failed
  deriving DecidableEq

/-- The text of an outcome, as the payload of a finished call has it. -/
def CallOutcome.text : CallOutcome → Str
  | ok => str "ok"
  | denied => str "denied"
  | failed => str "failed"

end AtlasCore
