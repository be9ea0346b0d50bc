import AtlasCore.EventLog.Kinds
import AtlasCore.Evidence.Block

/-!
# The event log of a run

One event per thing that happened, in the order it happened.  The log assigns the sequence number,
a call is two events, and every payload is masked before it is kept.

An event stands here for the record of the file as well: that the file gives back the records that
were written is the subject of `AtlasCore.EventLog.Jsonl`.  The time of recording is left out.
-/

set_option autoImplicit false

namespace AtlasCore

open Py

/-! ## Masking

Every payload is masked before it is kept.  The keys of `VERBATIM_KEYS` are left alone, and so is
everything in which no pattern finds a secret. -/

/-- No pattern of `redaction` matches a text without these characters and without white space. -/
def isPlain (s : Str) : Bool :=
  s.all fun c ↦ !isSpace c && !(str "B_kKxz./@").contains c

/-- `redact_text`, of which this much is used: hex digits carry no secret, neither do the word for a
digest that is not known and that for a call that went well, every pattern needs a character of its
own, and what stands for a secret is not blank.  That the patterns of the source are such a masking
is proved in `AtlasCore.EventLog.Redaction`. -/
structure Masking where
  text : Str → Str
  text_hex : ∀ s, (∀ c ∈ s, isHex c = true ∨ c = lf) → text s = s
  text_unknown : text UNKNOWN = UNKNOWN
  text_ok : text (str "ok") = str "ok"
  text_plain : ∀ s, isPlain s = true → text s = s
  text_nonblank : ∀ s, isBlank s = false → isBlank (text s) = false

/-- A masking that finds nothing, under which a log says what it was told. -/
def noMasking : Masking where
  text := id
  text_hex := fun _ _ ↦ rfl
  text_unknown := rfl
  text_ok := rfl
  text_plain := fun _ _ ↦ rfl
  text_nonblank := fun _ h ↦ h

/-- `VERBATIM_KEYS`: the fields that hold ids, digests and enumerations, which a masking leaves as
they are. -/
def VERBATIM_KEYS : List Str :=
  [str "schema", str "source_id", str "snapshot_id", str "finding_id", str "run_id",
    str "content_sha256", str "commit", str "source_type", str "worktree_state",
    str "confidentiality", str "verification", str "is_evidence", str "line_start",
    str "line_end", str "collected_at", str "taken_at", str "created_at", str "status",
    str "stop_reason", str "stop_class", str "state_machine", str "verdict",
    str "verification_method"]

mutual
/-- `redact_document`: every text of a document is masked, except under the keys that are verbatim.
-/
def redactDocument (mask : Masking) : Json → Json
  | .str s => .str (mask.text s)
  | .arr items => .arr (redactItems mask items)
  | .obj fields => .obj (redactFields mask fields)
  | v => v

/-- `redact_document` of the items of a list, one by one. -/
def redactItems (mask : Masking) : List Json → List Json
  | [] => []
  | v :: rest => redactDocument mask v :: redactItems mask rest

/-- `redact_document` of the fields of a dict: what stands under a verbatim key is kept. -/
def redactFields (mask : Masking) : Fields → Fields
  | [] => []
  | (k, v) :: rest =>
    (k, if k ∈ VERBATIM_KEYS then v else redactDocument mask v) :: redactFields mask rest
end

/-! ## Events

One event and what its constructor checks.  A half of a call names the call; no other event does. -/

/-- `APPROVAL_DECISIONS`: what the record of an approval may say. -/
def APPROVAL_DECISIONS : List Str :=
  [str "requested", str "granted", str "refused", str "consumed", str "rejected"]

/-- `Event`: one recorded fact, with its place in the run and the call it belongs to. -/
structure Event where
  runId : Str
  sequence : ℕ
  kind : EventKind
  iteration : ℕ := 0
  callId : Option Str := none
  payload : Fields

/-- Whether the kind is one half of a call. -/
def EventKind.needsCall (kind : EventKind) : Bool := kind = .callStarted || kind = .callFinished

/-- Whether `payload.get(key)` is one of these texts; a value of another type is none. -/
def payloadIn (payload : Fields) (key : String) (texts : List Str) : Bool :=
  match getOrNull payload key with
  | .str s => s ∈ texts
  | _ => false

/-- `Event.__post_init__`: an event that breaks a rule of its kind is not made. -/
def Event.postInit (e : Event) : Except Exc Unit :=
  if e.runId = [] then .error .valueError
  else if e.kind.needsCall ∧ e.callId.getD [] = [] then .error .valueError
  else if ¬ e.kind.needsCall ∧ e.callId ≠ none then .error .valueError
  else if e.kind = .callStarted ∧ ¬ payloadIn e.payload "call_kind"
      ([CallKind.observe, .modelCall, .toolCall, .memoryRead, .memoryWrite].map (·.text)) then
    .error .valueError
  else if e.kind = .approvalRecorded ∧ ¬ payloadIn e.payload "decision" APPROVAL_DECISIONS then
    .error .valueError
  else if e.kind = .callFinished ∧ ¬ payloadIn e.payload "outcome"
      ([CallOutcome.ok, .denied, .failed].map (·.text)) then .error .valueError
  else .ok ()

/-- Only an event of a run is one. -/
theorem Event.runId_ne_nil {e : Event} (h : e.postInit = .ok ()) : e.runId ≠ [] := by
  intro hrun
  rw [postInit, if_pos hrun] at h
  cases h

/-- The end of a call is an event. -/
theorem Event.postInit_finished {e : Event} {call : Str} {outcome : CallOutcome}
    (hrun : e.runId ≠ []) (hkind : e.kind = .callFinished) (hid : e.callId = some call)
    (hcall : call ≠ []) (houtcome : getOrNull e.payload "outcome" = .str outcome.text) :
    e.postInit = .ok () := by
  have hin : payloadIn e.payload "outcome"
      ([CallOutcome.ok, .denied, .failed].map (·.text)) = true := by
    rw [payloadIn, houtcome]
    cases outcome <;> decide
  rw [postInit, if_neg hrun, hkind, hid, hin]
  simp [EventKind.needsCall, hcall]

/-! ## The log

A log appends, and it is the log that gives an event its number and a call its id.  Where the sink
fails after the event was kept, the event stays. -/

/-- `EventLog`, as far as it is not the sink. -/
structure EventLog where
  runId : Str
  events : List Event

/-- `EventLog(run_id, sink, previous=...)`: the events that were there are of this run and numbered
from 0 without a gap. -/
def EventLog.build (runId : Str) (previous : List Event) : Except Exc EventLog :=
  if runId = [] then .error .valueError
  else if previous.any fun e ↦ e.runId ≠ runId then .error .resumeRefused
  else if previous.map (·.sequence) ≠ List.range previous.length then .error .resumeRefused
  else .ok ⟨runId, previous⟩

/-- Where the records of a log go: `sink.write(record)`. -/
abbrev Sink (W : Type) := Event → Eff Exc W Unit

namespace EventLog

variable {W : Type} (mask : Masking) (sink : Sink W)

/-- The event that `append` makes: it has the next number, and its payload is masked. -/
def next (log : EventLog) (kind : EventKind) (iteration : ℕ) (callId : Option Str)
    (payload : Fields) : Event where
  runId := log.runId
  sequence := log.events.length
  kind := kind
  iteration := iteration
  callId := callId
  payload := redactFields mask payload

/-- `EventLog.append`: the event is in the log before the sink has it. -/
def append (kind : EventKind) (iteration : ℕ) (callId : Option Str) (payload : Fields) :
    Eff Exc (W × EventLog) Unit := do
  let log := (← Eff.read).2
  let event := log.next mask kind iteration callId payload
  Eff.ofExcept event.postInit
  Eff.update fun p ↦ (p.1, { p.2 with events := p.2.events ++ [event] })
  (sink event).zoom (·.1) fun w p ↦ (w, p.2)

/-- `null`, or a text: how a record has what may be missing. -/
def textOrNull : Option Str → Json
  | some s => .str s
  | none => .null

/-- `EventLog.start_call`.  `callInput` is the digest of what the call was given, and it is the
host's objects that are hashed, so computing it is a computation of its own. -/
def startCall (callKind : CallKind) (iteration : ℕ) (target : Option Str)
    (callInput : Eff Exc W (Option Str)) (payload : Fields) : Eff Exc (W × EventLog) Str := do
  let log := (← Eff.read).2
  let callId := log.runId ++ str ":" ++ decimal log.events.length
  let inputSha256 ← callInput.zoom (·.1) fun w p ↦ (w, p.2)
  append mask sink .callStarted iteration (some callId)
    ([(str "call_kind", .str callKind.text), (str "target", textOrNull target),
      (str "input_sha256", textOrNull inputSha256)] ++ payload)
  return callId

/-- `EventLog.finish_call`: only a call that was started, and not finished, can be finished. -/
def finishCall (callId : Str) (outcome : CallOutcome) (iteration : ℕ) (error : Option Str) :
    Eff Exc (W × EventLog) Unit := do
  let log := (← Eff.read).2
  if ¬ log.events.any fun e ↦ e.kind = .callStarted ∧ e.callId = some callId then
    Eff.raise .appendOnlyViolation
  else if log.events.any fun e ↦ e.kind = .callFinished ∧ e.callId = some callId then
    Eff.raise .appendOnlyViolation
  else
    append mask sink .callFinished iteration (some callId)
      [(str "outcome", .str outcome.text), (str "error", textOrNull error)]

end EventLog

/-! ## What an operation adds to a log

Every operation adds events at the end, or raises and adds none that the sink has not taken. -/

namespace EventLog

/-- What was added to a log: events, and none of them records an observation. -/
def Grows (log log' : EventLog) : Prop :=
  ∃ es, log'.events = log.events ++ es ∧ ∀ e ∈ es, e.kind ≠ .observationRecorded

theorem Grows.refl (log : EventLog) : Grows log log :=
  ⟨[], (List.append_nil _).symm, fun _ h ↦ absurd h List.not_mem_nil⟩

variable {W : Type} {mask : Masking} {sink : Sink W} {kind : EventKind} {iteration : ℕ}
  {callId : Option Str} {payload : Fields} {w : W} {log : EventLog}

/-- The event is in the log when the sink is asked, and whatever the sink does, it stays there. -/
theorem wp_append :
    (append mask sink kind iteration callId payload).wp
      (fun _ p ↦ p.2.events = log.events ++ [log.next mask kind iteration callId payload])
      (fun _ p ↦ p.2.events = log.events ∨
        p.2.events = log.events ++ [log.next mask kind iteration callId payload]) (w, log) := by
  rw [append, Eff.wp_bind, Eff.wp_read, Eff.wp_bind, Eff.wp_ofExcept]
  cases (log.next mask kind iteration callId payload).postInit with
  | error e => exact .inl rfl
  | ok _ =>
    rw [Eff.wp_bind, Eff.wp_update, Eff.wp_zoom]
    exact (Eff.wp_true _ _).mono (fun _ _ _ ↦ rfl) fun _ _ _ ↦ .inr rfl

/-- An event that is one is appended, and what is raised then is raised by the sink. -/
theorem wp_append_of_postInit
    (h : (log.next mask kind iteration callId payload).postInit = .ok ()) :
    (append mask sink kind iteration callId payload).wp
      (fun _ p ↦ p.2 =
        { log with events := log.events ++ [log.next mask kind iteration callId payload] })
      (fun e p ↦ p.2 =
        { log with events := log.events ++ [log.next mask kind iteration callId payload] } ∧
          (sink (log.next mask kind iteration callId payload) w).1 = .error e) (w, log) := by
  rw [append, Eff.wp_bind, Eff.wp_read, Eff.wp_bind, Eff.wp_ofExcept, h]
  refine Eff.wp_bind.mpr (Eff.wp_update.mpr (Eff.wp_zoom.mpr ?_))
  exact (Eff.wp_run _ _).mono (fun _ _ _ ↦ rfl) fun e _ he ↦ ⟨rfl, congrArg Prod.fst he⟩

end EventLog

/-! ## Calls in a log

Which calls a list of events names, and which of them it finishes. -/

namespace EventLog

variable {W : Type} {mask : Masking} {sink : Sink W} {kind : EventKind} {iteration : ℕ}
  {callId : Option Str} {payload : Fields} {w : W} {log : EventLog}

/-- The log with one more event, the only way in which a log changes. -/
def snoc (log : EventLog) (e : Event) : EventLog := { log with events := log.events ++ [e] }

/-- The id that `start_call` issues when the log has this many events. -/
def callIdAt (log : EventLog) (n : ℕ) : Str := log.runId ++ str ":" ++ decimal n

theorem callIdAt_injective (log : EventLog) : Function.Injective log.callIdAt := fun _ _ h ↦
  decimal_injective (List.append_cancel_left h)

/-- An event is in the log, or the log is what it was. -/
theorem wp_append_snoc :
    (append mask sink kind iteration callId payload).wp
      (fun _ p ↦ (log.next mask kind iteration callId payload).postInit = .ok () ∧
        p.2 = log.snoc (log.next mask kind iteration callId payload))
      (fun _ p ↦ p.2 = log ∨ p.2 = log.snoc (log.next mask kind iteration callId payload))
      (w, log) := by
  rw [append, Eff.wp_bind, Eff.wp_read, Eff.wp_bind, Eff.wp_ofExcept]
  cases h : (log.next mask kind iteration callId payload).postInit with
  | error e => exact .inl rfl
  | ok _ =>
    rw [Eff.wp_bind, Eff.wp_update, Eff.wp_zoom]
    exact (Eff.wp_true _ _).mono (fun _ _ _ ↦ ⟨rfl, rfl⟩) fun _ _ _ ↦ .inr rfl

/-- What holds of a log before an event is appended and with it holds afterwards, whatever the sink
does. -/
theorem wp_append_keeps {P : EventLog → Prop} (h : P log)
    (hsnoc : (log.next mask kind iteration callId payload).postInit = .ok () →
      P (log.snoc (log.next mask kind iteration callId payload))) :
    (append mask sink kind iteration callId payload).wp (fun _ p ↦ P p.2) (fun _ p ↦ P p.2)
      (w, log) := by
  rw [append, Eff.wp_bind, Eff.wp_read, Eff.wp_bind, Eff.wp_ofExcept]
  cases hpost : (log.next mask kind iteration callId payload).postInit with
  | error e => exact h
  | ok _ =>
    rw [Eff.wp_bind, Eff.wp_update, Eff.wp_zoom]
    exact (Eff.wp_true _ _).mono (fun _ _ _ ↦ hsnoc hpost) fun _ _ _ ↦ hsnoc hpost

/-- A call that is started gets the id of its place, and one event at most. -/
theorem wp_startCall {callKind : CallKind} {target : Option Str}
    {callInput : Eff Exc W (Option Str)} :
    (startCall mask sink callKind iteration target callInput payload).wp
      (fun id p ↦ id = log.callIdAt log.events.length ∧ log.runId ≠ [] ∧
        ∃ e, p.2 = log.snoc e ∧ e.kind = .callStarted ∧ e.callId = some id)
      (fun _ p ↦ p.2 = log ∨ ∃ e, p.2 = log.snoc e ∧ e.kind = .callStarted ∧
        e.callId = some (log.callIdAt log.events.length)) (w, log) := by
  rw [startCall, Eff.wp_bind, Eff.wp_read, Eff.wp_bind, Eff.wp_zoom]
  refine (Eff.wp_true _ _).mono (fun inputSha256 w' _ ↦ ?_) fun _ _ _ ↦ .inl rfl
  rw [Eff.wp_bind]
  refine wp_append_snoc.mono
    (fun _ p ⟨hpost, hp⟩ ↦ ⟨rfl, Event.runId_ne_nil hpost, _, hp, rfl, rfl⟩) fun _ p hp ↦ ?_
  exact hp.imp_right fun hp ↦ ⟨_, hp, rfl, rfl⟩

/-- One event more, which finishes the call with this outcome. -/
def Finishes (mask : Masking) (call : Str) (outcome : CallOutcome) (log log' : EventLog) : Prop :=
  ∃ e, log' = log.snoc e ∧ e.kind = .callFinished ∧ e.callId = some call ∧
    getOrNull e.payload "outcome" = .str (mask.text outcome.text)

theorem outcome_next {outcome : CallOutcome} {error : Option Str} :
    getOrNull (log.next mask kind iteration callId
      [(str "outcome", .str outcome.text), (str "error", textOrNull error)]).payload "outcome" =
        .str (mask.text outcome.text) := by
  have hkey : str "outcome" ∉ VERBATIM_KEYS := by decide
  rw [next, getOrNull, redactFields, if_neg hkey, Json.lookup, if_pos rfl]
  rfl

theorem next_finishes {call : Str} {outcome : CallOutcome} {error : Option Str} :
    Finishes mask call outcome log (log.snoc (log.next mask .callFinished iteration (some call)
      [(str "outcome", .str outcome.text), (str "error", textOrNull error)])) :=
  ⟨_, rfl, rfl, rfl, outcome_next⟩

/-- A call that is finished gets one event at most, with its id, and it was started. -/
theorem wp_finishCall {call : Str} {outcome : CallOutcome} {error : Option Str} :
    (finishCall mask sink call outcome iteration error).wp
      (fun _ p ↦ p.2 = log ∨
        Finishes mask call outcome log p.2 ∧ ∃ e ∈ log.events, e.callId = some call)
      (fun _ p ↦ p.2 = log ∨
        Finishes mask call outcome log p.2 ∧ ∃ e ∈ log.events, e.callId = some call) (w, log) := by
  rw [finishCall, Eff.wp_bind, Eff.wp_read, Eff.wp_ite, Eff.wp_ite]
  refine ⟨fun _ ↦ .inl rfl, fun hstarted ↦ ⟨fun _ ↦ .inl rfl, fun _ ↦ ?_⟩⟩
  have hstarted : ∃ e ∈ log.events, e.callId = some call := by
    obtain ⟨e, he, h⟩ := List.any_eq_true.mp (not_not.mp hstarted)
    exact ⟨e, he, (of_decide_eq_true h).2⟩
  refine wp_append_snoc.mono (fun _ p hp ↦ .inr ?_) fun _ p hp ↦ hp.imp_right fun hp ↦ ?_
  · rw [hp.2]
    exact ⟨next_finishes, hstarted⟩
  · rw [hp]
    exact ⟨next_finishes, hstarted⟩

/-- A call that was started and not finished is finished now, whatever the sink does. -/
theorem wp_finishCall_of_open {call : Str} {outcome : CallOutcome} {error : Option Str}
    (hrun : log.runId ≠ []) (hcall : call ≠ [])
    (hstarted : ∃ e ∈ log.events, e.kind = .callStarted ∧ e.callId = some call)
    (hopen : ∀ e ∈ log.events, e.kind = .callFinished → e.callId ≠ some call)
    (hmask : mask.text outcome.text = outcome.text) :
    (finishCall mask sink call outcome iteration error).wp
      (fun _ p ↦ Finishes mask call outcome log p.2)
      (fun _ p ↦ Finishes mask call outcome log p.2) (w, log) := by
  rw [finishCall, Eff.wp_bind, Eff.wp_read, Eff.wp_ite, Eff.wp_ite]
  refine ⟨fun h ↦ absurd ?_ h, fun _ ↦ ⟨fun h ↦ ?_, fun _ ↦ ?_⟩⟩
  · obtain ⟨e, he, h⟩ := hstarted
    exact List.any_eq_true.mpr ⟨e, he, decide_eq_true h⟩
  · obtain ⟨e, he, h⟩ := List.any_eq_true.mp h
    exact absurd (of_decide_eq_true h).2 (hopen e he (of_decide_eq_true h).1)
  · have hpost : (log.next mask .callFinished iteration (some call)
        [(str "outcome", .str outcome.text), (str "error", textOrNull error)]).postInit =
          .ok () :=
      Event.postInit_finished hrun rfl rfl hcall (hmask ▸ outcome_next)
    refine (wp_append_of_postInit hpost).mono (fun _ p hp ↦ ?_) fun _ p hp ↦ ?_
    · rw [hp]
      exact next_finishes
    · rw [hp.1]
      exact next_finishes

end EventLog

/-! ## Open calls

`call_states` and what is read off it. -/

/-- The states of `call_states`, in the order the calls were started: `none` is `unknown`. -/
abbrev CallStates := List (Str × Option CallOutcome)

/-- The outcome a text names, if it names one. -/
def CallOutcome.ofText (s : Str) : Option CallOutcome :=
  [CallOutcome.ok, .denied, .failed].find? fun o ↦ o.text = s

/-- `call_states`, one event on: the start of a call opens it, and its end gives it its outcome. -/
def callStep (started : CallStates) (e : Event) : CallStates :=
  match e.callId with
  | none => started
  | some callId =>
    let known := started.any fun p ↦ p.1 = callId
    if e.kind = .callStarted then
      if known then started else started ++ [(callId, none)]
    else if e.kind = .callFinished ∧ known then
      match getOrNull e.payload "outcome" with
      | .str s =>
        match CallOutcome.ofText s with
        | some outcome =>
          started.map fun p ↦ if p.1 = callId then (callId, some outcome) else p
        | none => started
      | _ => started
    else started

/-- `call_states`: what became of every call of a log. -/
def callStates (events : List Event) : CallStates := events.foldl callStep []

/-- `unfinished_calls`: the calls of which nobody knows whether they took effect. -/
def unfinishedCalls (events : List Event) : List Str :=
  (callStates events).filterMap fun p ↦ if p.2 = none then some p.1 else none

end AtlasCore
