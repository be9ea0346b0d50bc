import AtlasCore.EventLog.Inspect
import AtlasCore.EventLog.Log

/-!
# The operations of a log

`append`, `start_call` and `finish_call` with whatever a caller can pass: any text for a kind, any
integer for an iteration, any keywords for a payload.  What an operation does is one of two things.
It is refused and nothing happens, or it makes one event, which is put into the log and then handed
to the sink (`perform_eq`).
-/

set_option autoImplicit false

namespace AtlasCore

open Py

namespace EventLog

/-- What a caller asks of a log.  `callInput` is `digest(call_input)`, or what that raises. -/
inductive Operation where
  | append (kind : Str) (iteration : ℤ) (callId : Option Str) (payload : Fields)
  | startCall (callKind : Str) (iteration : ℤ) (target : Option Str)
      (callInput : Except Exc (Option Str)) (payload : Fields)
  | finishCall (callId outcome : Str) (iteration : ℤ) (error : Option Str) (payload : Fields)

/-- A keyword that is a parameter already is a `TypeError`. -/
def keywords (names : List Str) (payload : Fields) : Except Exc Unit :=
  if payload.any fun p ↦ p.1 ∈ names then .error .typeError else .ok ()

section
variable {W : Type} (mask : Masking) (sink : Sink W)

/-- `append`, of a text and an integer, as a caller can pass them: the text may name no kind, the
integer may be negative. -/
def appendAny (kind : Str) (iteration : ℤ) (callId : Option Str) (payload : Fields) :
    Eff Exc (W × EventLog) Unit := do
  Eff.ofExcept (keywords [str "self", str "kind", str "iteration", str "call_id"] payload)
  match EventKind.ofText kind with
  | none => Eff.raise .valueError
  | some kind =>
    if iteration < 0 then Eff.raise .valueError
    else EventLog.append mask sink kind iteration.toNat callId payload

/-- `start_call`, of a text and an integer.  What the call was given is hashed before anything is
written. -/
def startAny (callKind : Str) (iteration : ℤ) (target : Option Str)
    (callInput : Except Exc (Option Str)) (payload : Fields) : Eff Exc (W × EventLog) Unit := do
  let log := (← Eff.read).2
  Eff.ofExcept (keywords
    [str "self", str "call_kind", str "iteration", str "target", str "call_input"] payload)
  let inputSha256 ← Eff.ofExcept callInput
  Eff.ofExcept (keywords [str "input_sha256"] payload)
  appendAny mask sink EventKind.callStarted.text iteration
    (some (log.callIdAt log.events.length))
    ([(str "call_kind", .str callKind), (str "target", textOrNull target),
      (str "input_sha256", textOrNull inputSha256)] ++ payload)

/-- The call was started, and the call was finished. -/
def holdsCall (kind : EventKind) (callId : Str) (log : EventLog) : Bool :=
  log.events.any fun e ↦ e.kind = kind ∧ e.callId = some callId

/-- `finish_call`, of two texts and an integer.  The pairing is checked before the outcome is. -/
def finishAny (callId outcome : Str) (iteration : ℤ) (error : Option Str) (payload : Fields) :
    Eff Exc (W × EventLog) Unit := do
  let log := (← Eff.read).2
  Eff.ofExcept (keywords [str "outcome", str "error"] payload)
  if holdsCall .callStarted callId log = false then Eff.raise .appendOnlyViolation
  else if holdsCall .callFinished callId log then Eff.raise .appendOnlyViolation
  else
    appendAny mask sink EventKind.callFinished.text iteration (some callId)
      ([(str "outcome", .str outcome), (str "error", textOrNull error)] ++ payload)

/-- The operation itself, on the log and on whatever the sink writes to. -/
def perform : Operation → Eff Exc (W × EventLog) Unit
  | .append kind iteration callId payload => appendAny mask sink kind iteration callId payload
  | .startCall callKind iteration target callInput payload =>
    startAny mask sink callKind iteration target callInput payload
  | .finishCall callId outcome iteration error payload =>
    finishAny mask sink callId outcome iteration error payload

end

/-! ## The event of an operation

What an operation adds to a log if it adds anything, and how it ends if nothing fails. -/

section
variable (mask : Masking) (log : EventLog)

/-- The event that `append` makes, or why it makes none. -/
def appended (kind : Str) (iteration : ℤ) (callId : Option Str) (payload : Fields) :
    Except Exc Event := do
  keywords [str "self", str "kind", str "iteration", str "call_id"] payload
  match EventKind.ofText kind with
  | none => .error .valueError
  | some kind =>
    if iteration < 0 then .error .valueError
    else
      match (log.next mask kind iteration.toNat callId payload).postInit with
      | .error e => .error e
      | .ok () => .ok (log.next mask kind iteration.toNat callId payload)

/-- The event that an operation makes, or why it makes none. -/
def Operation.event : Operation → Except Exc Event
  | .append kind iteration callId payload => appended mask log kind iteration callId payload
  | .startCall callKind iteration target callInput payload => do
    keywords [str "self", str "call_kind", str "iteration", str "target", str "call_input"] payload
    let inputSha256 ← callInput
    keywords [str "input_sha256"] payload
    appended mask log EventKind.callStarted.text iteration
      (some (log.callIdAt log.events.length))
      ([(str "call_kind", .str callKind), (str "target", textOrNull target),
        (str "input_sha256", textOrNull inputSha256)] ++ payload)
  | .finishCall callId outcome iteration error payload => do
    keywords [str "outcome", str "error"] payload
    if holdsCall .callStarted callId log = false then .error .appendOnlyViolation
    else if holdsCall .callFinished callId log then .error .appendOnlyViolation
    else
      appended mask log EventKind.callFinished.text iteration (some callId)
        ([(str "outcome", .str outcome), (str "error", textOrNull error)] ++ payload)

end

variable {W : Type} {mask : Masking} {sink : Sink W} {log : EventLog} {w : W}

/-- What is left when an operation has made an event, or none. -/
def outcome (sink : Sink W) (w : W) (log : EventLog) :
    Except Exc Event → Except Exc Unit × W × EventLog
  | .error e => (.error e, w, log)
  | .ok event => ((sink event w).1, (sink event w).2, log.snoc event)

/-- What is appended is the next event of some kind. -/
theorem appended_eq_next {kind : Str} {iteration : ℤ} {callId : Option Str} {payload : Fields}
    {event : Event} (h : appended mask log kind iteration callId payload = .ok event) :
    ∃ k, EventKind.ofText kind = some k ∧
      event = log.next mask k iteration.toNat callId payload ∧ event.postInit = .ok () := by
  obtain ⟨_, _, h⟩ := Except.bind_eq_ok.mp h
  cases hkind : EventKind.ofText kind with
  | none =>
    rw [hkind] at h
    cases h
  | some k =>
    rw [hkind] at h
    dsimp only at h
    split_ifs at h
    cases hpost : (log.next mask k iteration.toNat callId payload).postInit with
    | error e =>
      rw [hpost] at h
      cases h
    | ok _ =>
      rw [hpost] at h
      obtain rfl := Except.ok.inj h
      exact ⟨k, rfl, rfl, hpost⟩

theorem append_eq {kind : EventKind} {iteration : ℕ} {callId : Option Str} {payload : Fields} :
    append mask sink kind iteration callId payload (w, log) =
      outcome sink w log (match (log.next mask kind iteration callId payload).postInit with
        | .error e => .error e
        | .ok () => .ok (log.next mask kind iteration callId payload)) := by
  rw [append, Eff.read_bind_run, Eff.ofExcept_bind_run]
  cases (log.next mask kind iteration callId payload).postInit <;> rfl

theorem appendAny_eq {kind : Str} {iteration : ℤ} {callId : Option Str} {payload : Fields} :
    appendAny mask sink kind iteration callId payload (w, log) =
      outcome sink w log (appended mask log kind iteration callId payload) := by
  rw [appendAny, appended, Eff.ofExcept_bind_run]
  cases keywords [str "self", str "kind", str "iteration", str "call_id"] payload with
  | error e => rfl
  | ok _ =>
    show _ = outcome sink w log (match EventKind.ofText kind with
      | none => .error .valueError
      | some kind => _)
    cases EventKind.ofText kind with
    | none => rfl
    | some kind =>
      by_cases hneg : iteration < 0
      · simp only [if_pos hneg]
        rfl
      · simp only [if_neg hneg]
        exact append_eq

/-- **What an operation does.**  It is refused, or its event is in the log and then the sink's. -/
theorem perform_eq (op : Operation) :
    perform mask sink op (w, log) = outcome sink w log (op.event mask log) := by
  cases op with
  | append kind iteration callId payload => exact appendAny_eq
  | startCall callKind iteration target callInput payload =>
    rw [perform, startAny, Operation.event, Eff.read_bind_run, Eff.ofExcept_bind_run]
    cases keywords [str "self", str "call_kind", str "iteration", str "target",
        str "call_input"] payload with
    | error e => rfl
    | ok _ =>
      dsimp only
      rw [Eff.ofExcept_bind_run]
      cases callInput with
      | error e => rfl
      | ok inputSha256 =>
        dsimp only
        rw [Eff.ofExcept_bind_run]
        cases keywords [str "input_sha256"] payload with
        | error e => rfl
        | ok _ => exact appendAny_eq
  | finishCall callId outcome iteration error payload =>
    rw [perform, finishAny, Operation.event, Eff.read_bind_run, Eff.ofExcept_bind_run]
    cases keywords [str "outcome", str "error"] payload with
    | error e => rfl
    | ok _ =>
      show _ = EventLog.outcome sink w log (if _ then _ else if _ then _ else _)
      by_cases hstarted : holdsCall .callStarted callId log = false
      · simp only [if_pos hstarted]
        rfl
      · by_cases hfinished : holdsCall .callFinished callId log = true
        · simp only [if_neg hstarted, if_pos hfinished]
          rfl
        · simp only [if_neg hstarted, if_neg hfinished]
          exact appendAny_eq

end EventLog

end AtlasCore
