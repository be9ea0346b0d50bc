import AtlasCore.EventLog.Growth
import AtlasCore.EventLog.Log
import AtlasCore.Evidence.Values
import AtlasCore.Lib.Effect

/-!
# `inspect_run`

A report on one run, made from the records a log file holds of it.  The records are whatever JSON
the file has, so each is checked first, alone and then against the others, and what contradicts
itself is refused.

Of the report this is what `run_status` reads, and everything that can be raised on the way to it.
-/

set_option autoImplicit false

namespace AtlasCore

open Py

namespace Inspect

/-- `InspectError`: the history cannot be trusted, and nothing is reported of it. -/
def inspectError : Exc := .other (str "InspectError")

/-- `AttributeError`: a method was called of something that does not have it, such as `get` of a
list. -/
def attributeError : Exc := .other (str "AttributeError")

/-- `record["kind"] == kind`: the kind of a record, whatever else stands in its place. -/
def isKind (kind : EventKind) (record : Fields) : Bool :=
  isText (getOrNull record "kind") kind.text

section
variable (rt : Runtime)

/-! ## One record

A record of the file is an event again, or it is refused. -/

/-- An event as `_event_from_record` reads it: what was an integer in the record may be any that
`int` makes of a value. -/
structure ReadEvent where
  runId : Str
  sequence : ℤ
  kind : EventKind
  iteration : ℤ
  callId : Json
  payload : Fields

/-- `Event.__post_init__` on what was read, with every rule an event has to meet. -/
def postInit (runId : Str) (sequence : ℤ) (kind : Str) (iteration : ℤ) (callId : Json)
    (payload : Fields) : Except Exc ReadEvent :=
  match EventKind.ofText kind with
  | none => .error .valueError
  | some kind =>
    if runId = [] then .error .valueError
    else if sequence < 0 then .error .valueError
    else if iteration < 0 then .error .valueError
    else if kind.needsCall ∧ isFalsy rt callId then .error .valueError
    else if ¬ kind.needsCall ∧ isNull callId = false then .error .valueError
    else if kind = .callStarted ∧ ¬ payloadIn payload "call_kind"
        ([CallKind.observe, .modelCall, .toolCall, .memoryRead, .memoryWrite].map (·.text)) then
      .error .valueError
    else if kind = .approvalRecorded ∧ ¬ payloadIn payload "decision" APPROVAL_DECISIONS then
      .error .valueError
    else if kind = .callFinished ∧ ¬ payloadIn payload "outcome"
        ([CallOutcome.ok, .denied, .failed].map (·.text)) then .error .valueError
    else .ok ⟨runId, sequence, kind, iteration, callId, payload⟩

/-- `EventLog._event_from_record`: fields that are missing have a default, and fields of another
type are converted or refused. -/
def eventFromRecord (record : Fields) : Except Exc ReadEvent := do
  if isText (getOrNull record "schema") (str "atlas-event.v1") = false then
    throw Exc.resumeRefused
  let sequence ← intValue rt ((Json.lookup (str "sequence") record).getD (.int (-1)))
  let iteration ← intValue rt ((Json.lookup (str "iteration") record).getD (.int 0))
  let payload ← dictValue ((Json.lookup (str "payload") record).getD (.obj []))
  postInit rt (strOr rt record "run_id" []) sequence (strOr rt record "kind" []) iteration
    (getOrNull record "call_id") payload

/-- `EventLog(run_id, previous=records)`: the records are all of this run, and numbered from 0
without a gap. -/
def eventLog (runId : Str) (records : List Fields) : Except Exc (List ReadEvent) := do
  let events ← records.mapM (eventFromRecord rt)
  if events.any fun e ↦ e.runId ≠ runId then throw Exc.resumeRefused
  if events.map (·.sequence) ≠ (List.range events.length).map Int.ofNat then
    throw Exc.resumeRefused
  return events

/-! ## The records together

What is asked of the records of a run as a whole: they are numbered without a gap, they begin and
end as they should, and every call is finished after it was started, and once. -/

/-- `_nonempty_text`: a text with something in it besides white space. -/
def nonemptyText : Json → Except Exc Str
  | .str s => if strip s = [] then .error inspectError else .ok s
  | _ => .error inspectError

/-- `payload.get(field)`; only a dict has `get`, so any other payload raises. -/
def payloadGet (payload : Json) (field : String) : Except Exc (Option Json) :=
  match payload with
  | .obj fields => .ok (Json.lookup (str field) fields)
  | _ => .error attributeError

/-- `_payload_list`: a list that is missing is empty, and anything else in its place is refused. -/
def payloadList (payload : Json) (field : String) : Except Exc (List Json) := do
  match ← payloadGet payload field with
  | none => return []
  | some (.arr items) => return items
  | some _ => throw inspectError

/-- A source that was added or superseded: it has an id, and a path that is not blank where it has
one. -/
def checkSource : Json → Except Exc Unit
  | .obj fields => do
    let _ ← nonemptyText (getOrNull fields "source_id")
    match Json.lookup (str "path") fields with
    | none => return ()
    | some path => do
      let _ ← nonemptyText path
  | _ => .error inspectError

/-- `f"{run_id}:{record['sequence']}"`: the id that a record of this place has to have. -/
def idAt (runId : Str) (record : Fields) : Except Exc Str :=
  match Json.lookup (str "sequence") record with
  | none => .error .keyError
  | some sequence => .ok (runId ++ str ":" ++ strValue rt sequence)

/-- The calls that were started and finished so far. -/
structure Calls where
  started : List Str
  finished : List Str

/-- What a stop says of itself: a status, a reason and a class, none of them blank. -/
def checkStop (payload : Json) : Except Exc Unit := do
  let status ← payloadGet payload "status"
  let _ ← nonemptyText (status.getD .null)
  let reason ← payloadGet payload "stop_reason"
  let _ ← nonemptyText (reason.getD .null)
  let cls ← payloadGet payload "stop_class"
  let _ ← nonemptyText (cls.getD .null)

/-- `record[key]`, which raises where there is no such key. -/
def field (record : Fields) (key : String) : Except Exc Json :=
  match Json.lookup (str key) record with
  | none => .error .keyError
  | some v => .ok v

/-- One round of the loop of `_validate_history`: the calls so far are held, and the rules of the
kind of the record are checked. -/
def checkRecord (runId : Str) (calls : Calls) (record : Fields) : Except Exc Calls := do
  let payload ← field record "payload"
  if isKind .callStarted record then
    let callId ← nonemptyText (getOrNull record "call_id")
    if callId ≠ (← idAt rt runId record) then throw inspectError
    if callId ∈ calls.started then throw inspectError
    return { calls with started := callId :: calls.started }
  else if isKind .callFinished record then
    let callId ← nonemptyText (getOrNull record "call_id")
    if callId ∉ calls.started then throw inspectError
    if callId ∈ calls.finished then throw inspectError
    return { calls with finished := callId :: calls.finished }
  else if isKind .observationRecorded record then
    let added ← payloadList payload "added"
    added.forM checkSource
    let superseded ← payloadList payload "superseded"
    superseded.forM checkSource
    let unchanged ← payloadList payload "unchanged"
    unchanged.forM fun item ↦ do let _ ← nonemptyText item
    return calls
  else if isKind .decisionRecorded record then
    let gaps ← payloadList payload "evidence_gaps"
    gaps.forM fun item ↦ do let _ ← nonemptyText item
    let unmet ← payloadList payload "unmet_criteria"
    unmet.forM fun item ↦ do let _ ← nonemptyText item
    return calls
  else if isKind .planSelected record then
    match ← payloadGet payload "route" with
    | none => return calls
    | some .null => return calls
    | some route => do
      let _ ← nonemptyText route
      return calls
  else if isKind .runStopped record then
    checkStop payload
    return calls
  else return calls

/-- The records are the events of a log. -/
def checkEvents (runId : Str) (records : List Fields) : Except Exc Unit :=
  match eventLog rt runId records with
  | .error e =>
    if e = .resumeRefused ∨ e = .typeError ∨ e = .valueError then .error inspectError else .error e
  | .ok _ => .ok ()

/-- Every record has the id that belongs to its place. -/
def checkId (runId : Str) (record : Fields) : Except Exc Unit := do
  if isText (getOrNull record "event_id") (← idAt rt runId record) = false then
    throw inspectError

/-- One start, at the beginning, and one stop at most, at the end. -/
def checkEnds (records : List Fields) : Except Exc Unit :=
  let stops := records.filter (isKind .runStopped)
  match records.filter (isKind .runStarted) with
  | [start] =>
    if equalsZero rt (getOrNull start "sequence") = false then .error inspectError
    else if stops.length > 1 then .error inspectError
    else if stops ≠ [] ∧ records.getLast?.any (isKind .runStopped) = false then .error inspectError
    else .ok ()
  | _ => .error inspectError

/-- `_validate_history`: events that can be read, ids of their places, one start and at most one
stop, and calls that are opened and closed in pairs. -/
def validateHistory (runId : Str) (records : List Fields) : Except Exc Unit := do
  checkEvents rt runId records
  records.forM (checkId rt runId)
  checkEnds rt records
  let _ ← records.foldlM (checkRecord rt runId) ⟨[], []⟩

end

/-! ## The report

What a reader of a log is told of the run. -/

/-- What of a report `run_status` reads; the rest of the report is computed from the same records.
-/
structure Inspection where
  status : Json
  iterations : Json
  stopReason : Json
  eventCount : ℕ
  finishedAt : Option Json

section
variable (rt : Runtime)
  -- `a > b`, where both are numbers and one of them is a float
  (floatGreater : Json → Json → Bool)

/-- An integer, or a truth value as the integer it is. -/
def wholeNumber : Json → Option ℤ
  | .int z => some z
  | .bool b => some (if b then 1 else 0)
  | _ => none

/-- Whether the value is a float, as JSON writes one: with a point or an exponent, or not a number.
-/
def isFloat : Json → Bool
  | .float _ => true
  | _ => false

/-- `a > b`, for what `int` can read. -/
def greater (a b : Json) : Except Exc Bool :=
  match a, b with
  | .str s, .str t => .ok (!Json.keyLe s t)
  | a, b =>
    match wholeNumber a, wholeNumber b with
    | some x, some y => .ok (y < x)
    | x, y =>
      if (x.isSome || isFloat a) && (y.isSome || isFloat b) then .ok (floatGreater a b)
      else .error .typeError

/-- `max(values)`: the first of the greatest, found by comparing with the best so far. -/
def maxOf : List Json → Except Exc Json
  | [] => .error .valueError
  | v :: rest => rest.foldlM (fun best v ↦ do
      return if ← greater floatGreater v best then v else best) v

/-- `record.get("run_id") == run_id`: the record belongs to this run; a file may hold others. -/
def isOf (runId : Str) (record : Fields) : Bool := isText (getOrNull record "run_id") runId

/-- `dict(record)`, if all records are dicts; one that is not makes the whole file unreadable. -/
def objects (values : List Json) : Option (List Fields) :=
  values.mapM fun
    | .obj fields => some fields
    | _ => none

/-- The payload of the stop, with which the report answers what it says of the end. -/
def stoppedPayload : List Fields → Except Exc Fields
  | [] => .ok []
  | stop :: _ => do
    match ← field stop "payload" with
    | .obj fields => return fields
    | _ => throw attributeError

/-- `records[-1]["recorded_at"] if stops else None`: when a run ended is when its last record was
written. -/
def finishTime (stops records : List Fields) : Except Exc (Option Json) :=
  if stops = [] then .ok none else some <$> field (records.getLastD []) "recorded_at"

/-- The report on the records of a run. -/
def reportOn (runId : Str) (records : List Fields) : Except Exc Inspection := do
  validateHistory rt runId records
  let stops := records.filter (isKind .runStopped)
  let stopped ← stoppedPayload stops
  let iterations ← maxOf floatGreater (← records.mapM (field · "iteration"))
  let _ ← field (records.headD []) "recorded_at"
  let finishedAt ← finishTime stops records
  return {
    status := if stops = [] then .str (str "interrupted") else getOrNull stopped "status"
    iterations := iterations
    stopReason := getOrNull stopped "stop_reason"
    eventCount := records.length
    finishedAt := finishedAt }

/-- `inspect_run`: the records of the run are picked out and validated, and what is reported is read
from them. -/
def inspectRun (runId : Str) (file : Option Bytes) : Except Exc Inspection :=
  if runId = [] then .error inspectError
  else
    match file.map readJsonl with
    | some (.ok values) =>
      match objects values with
      | some all =>
        if all.filter (isOf runId) = [] then .error inspectError
        else reportOn rt floatGreater runId (all.filter (isOf runId))
      | none => .error inspectError
    | _ => .error inspectError

/-! ## What a report says of the end

What of a report depends on the stop alone: that there is one, and the reason it gives. -/

variable {rt floatGreater} {runId : Str} {records : List Fields}

/-- A loop that returned went through every item. -/
theorem mem_of_foldlM {α β : Type} {f : β → α → Except Exc β} : ∀ {xs : List α} {b c : β},
    xs.foldlM f b = .ok c → ∀ x ∈ xs, ∃ b' c', f b' x = .ok c'
  | [], _, _, _, _, hx => absurd hx List.not_mem_nil
  | x :: xs, b, c, h, y, hy => by
    rw [List.foldlM_cons] at h
    obtain ⟨b', hb, h⟩ := Except.bind_eq_ok.mp h
    rcases List.mem_cons.mp hy with rfl | hy
    · exact ⟨b, b', hb⟩
    · exact mem_of_foldlM h y hy

/-- Records that are read of a beginning are the first that are read of the whole. -/
theorem objects_grows {xs ys : List Json} {a b : List Fields} (h : xs <+: ys)
    (ha : objects xs = some a) (hb : objects ys = some b) : a <+: b := by
  obtain ⟨more, rfl⟩ := h
  rw [objects] at ha hb
  rw [List.mapM_append, ha] at hb
  obtain ⟨_, ⟨⟩, hb⟩ := Option.bind_eq_some_iff.mp hb
  obtain ⟨rest, _, hrest⟩ := Option.bind_eq_some_iff.mp hb
  exact ⟨rest, Option.some.inj hrest⟩

theorem isKind_iff {kind : EventKind} {record : Fields} :
    isKind kind record = true ↔ getOrNull record "kind" = .str kind.text := isText_iff

theorem getOrNull_of_field {record : Fields} {key : String} {v : Json}
    (h : field record key = .ok v) : getOrNull record key = v := by
  rw [field] at h
  rw [getOrNull]
  split at h
  · cases h
  · rename_i w hw
    rw [hw, Except.ok.inj h]
    rfl

/-- A record has one kind. -/
theorem isKind_eq_false {kind other : EventKind} {record : Fields} (h : isKind kind record = true)
    (hne : kind ≠ other) : isKind other record = false := by
  rw [Bool.eq_false_iff]
  intro hother
  rw [isKind_iff] at h hother
  rw [h, Json.str.injEq] at hother
  exact hne (EventKind.text_injective hother)

theorem nonemptyText_eq_ok {v : Json} {s : Str} (h : nonemptyText v = .ok s) : v = .str s := by
  cases v with
  | str t =>
    rw [nonemptyText] at h
    split_ifs at h
    rw [Except.ok.inj h]
  | _ => cases h

/-- A stop says why. -/
theorem stopReason_of_checkStop {payload : Json} (h : checkStop payload = .ok ()) :
    ∃ fields s, payload = .obj fields ∧ getOrNull fields "stop_reason" = .str s := by
  obtain ⟨_, _, h⟩ := Except.bind_eq_ok.mp h
  obtain ⟨_, _, h⟩ := Except.bind_eq_ok.mp h
  obtain ⟨reason, hreason, h⟩ := Except.bind_eq_ok.mp h
  obtain ⟨s, hs, _⟩ := Except.bind_eq_ok.mp h
  cases payload with
  | obj fields =>
    cases hreason
    exact ⟨fields, s, rfl, nonemptyText_eq_ok hs⟩
  | _ => cases hreason

/-- A history that was validated has its stop at its end. -/
theorem stops_of_checkEnds (h : checkEnds rt records = .ok ()) {last : Fields}
    (hlast : records.getLast? = some last) :
    records.filter (isKind .runStopped) = [] ↔ isKind .runStopped last = false := by
  constructor
  · intro hnil
    exact Bool.eq_false_iff.mpr (List.filter_eq_nil_iff.mp hnil last (List.mem_of_getLast? hlast))
  · intro hfalse
    rw [checkEnds] at h
    split at h
    · split_ifs at h with _ _ hends
      by_contra hne
      exact hends ⟨hne, by rw [hlast]; exact hfalse⟩
    · cases h

/-- A record with the kind of a stop was checked as one. -/
theorem checkStop_of_checkRecord {calls calls' : Calls} {record : Fields}
    (h : checkRecord rt runId calls record = .ok calls')
    (hstop : isKind .runStopped record = true) :
    ∃ payload, field record "payload" = .ok payload ∧ checkStop payload = .ok () := by
  obtain ⟨payload, hpayload, h⟩ := Except.bind_eq_ok.mp h
  rw [isKind_eq_false hstop (by decide), isKind_eq_false hstop (by decide),
    isKind_eq_false hstop (by decide), isKind_eq_false hstop (by decide),
    isKind_eq_false hstop (by decide), hstop] at h
  obtain ⟨_, hcheck, _⟩ := Except.bind_eq_ok.mp h
  exact ⟨payload, hpayload, hcheck⟩

/-- What a report says of the end, read off the last record. -/
structure Inspection.Ends (report : Inspection) (records : List Fields) (last : Fields) : Prop where
  eventCount : report.eventCount = records.length
  stopped : isKind .runStopped last = true →
    report.stopReason ≠ .null ∧ report.finishedAt = some (getOrNull last "recorded_at")
  going : isKind .runStopped last = false → report.stopReason = .null ∧ report.finishedAt = none

theorem reportOn_ends {report : Inspection}
    (h : reportOn rt floatGreater runId records = .ok report) {last : Fields}
    (hlast : records.getLast? = some last) : report.Ends records last := by
  obtain ⟨⟨⟩, hvalid, h⟩ := Except.bind_eq_ok.mp h
  obtain ⟨stopped, hstopped, h⟩ := Except.bind_eq_ok.mp h
  obtain ⟨_, _, h⟩ := Except.bind_eq_ok.mp h
  obtain ⟨_, _, h⟩ := Except.bind_eq_ok.mp h
  obtain ⟨_, _, h⟩ := Except.bind_eq_ok.mp h
  obtain ⟨finishedAt, hfinished, h⟩ := Except.bind_eq_ok.mp h
  obtain rfl := Except.ok.inj h
  obtain ⟨_, _, hvalid⟩ := Except.bind_eq_ok.mp hvalid
  obtain ⟨_, _, hvalid⟩ := Except.bind_eq_ok.mp hvalid
  obtain ⟨⟨⟩, hends, hvalid⟩ := Except.bind_eq_ok.mp hvalid
  obtain ⟨calls, hcalls, _⟩ := Except.bind_eq_ok.mp hvalid
  have hstops := stops_of_checkEnds hends hlast
  refine ⟨rfl, fun hstop ↦ ?_, fun hgoing ↦ ?_⟩
  · have hne : records.filter (isKind .runStopped) ≠ [] := fun hnil ↦
      absurd (hstops.mp hnil) (by rw [hstop]; exact nofun)
    obtain ⟨stop, rest, hcons⟩ := List.exists_cons_of_ne_nil hne
    have hmem : stop ∈ records.filter (isKind .runStopped) := by
      rw [hcons]
      exact List.mem_cons_self
    obtain ⟨hrecord, hkind⟩ := List.mem_filter.mp hmem
    obtain ⟨_, _, hcheck⟩ := mem_of_foldlM hcalls stop hrecord
    obtain ⟨payload, hpayload, hcheck⟩ := checkStop_of_checkRecord hcheck hkind
    obtain ⟨fields, reason, rfl, hreason⟩ := stopReason_of_checkStop hcheck
    rw [hcons, stoppedPayload, hpayload] at hstopped
    obtain rfl := Except.ok.inj hstopped
    refine ⟨by rw [hreason]; exact nofun, ?_⟩
    rw [finishTime, if_neg hne, List.getLastD_eq_getLast?, hlast] at hfinished
    show finishedAt = _
    cases hfield : field last "recorded_at" with
    | error e =>
      rw [show (some last).getD [] = last from rfl, hfield] at hfinished
      cases hfinished
    | ok v =>
      rw [show (some last).getD [] = last from rfl, hfield] at hfinished
      rw [getOrNull_of_field hfield, ← Except.ok.inj hfinished]
  · have hnil := hstops.mpr hgoing
    rw [hnil] at hstopped
    rw [finishTime, if_pos hnil] at hfinished
    obtain rfl := Except.ok.inj hstopped
    obtain rfl := Except.ok.inj hfinished
    exact ⟨rfl, rfl⟩

end

end Inspect

end AtlasCore
