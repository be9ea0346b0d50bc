import AtlasCore.Controller.Run
import AtlasCore.EventLog.Written
import AtlasCore.HostApi.Status

/-!
# Sealing a lost run

A worker that was killed cannot write `run_stopped`, so its parent does: it drops the torn tail that
the kill left, and appends the stop, after a start if the worker did not get that far.  A stop that
the worker had written in full is the stop of the run, and nothing is appended.

What the parent writes of its own are the digest of the task and a text, the detail of the loss.
-/

set_option autoImplicit false

namespace AtlasCore

open Py

namespace HostApi

open Inspect

/-- `EventLogInUse`: another process holds the lock of the log. -/
def eventLogInUse : Exc := .other (str "EventLogInUse")

/-- A call of `seal_lost_run` for a run: its arguments, what taking either lock ends with, and what
the clock says when it appends. -/
structure SealCall where
  stopReason : Str
  detail : Str
  task : Str
  maxIterations : ℤ
  writerLock : Except Exc Unit
  runLock : Except Exc Unit
  startedAt : Timestamp
  stoppedAt : Timestamp

/-- `STOP_REASONS`, in its order, which the search for a reason goes through. -/
def STOP_REASONS : List StopReason :=
  [.passed, .insufficientEvidence, .blocked, .approvalRequired, .budgetExhausted, .maxIterations,
    .noProgress, .toolError, .cancelled]

/-- The file of a log, or none, as the state of a computation. -/
abbrev FileM := Eff Exc (Option Bytes)

/-! ## The sink

What the parent does to the log before it appends: the torn tail is dropped, and what is left is
read. -/

/-- `JsonlSink(log_path, truncate_torn_tail=True)`: the torn end of the file is cut off, and a
damage that is no torn end is refused. -/
def openSink : FileM Unit := do
  match JsonlSink.checkTail true (← Eff.read) with
  | .ok file => Eff.update fun _ ↦ file
  | .error _ => Eff.raise (.other (str "TornLogTail"))

/-- `JsonlSink.write`: the file is there before the line is encoded. -/
def writeRecord (record : Record) : FileM Unit := do
  let file ← Eff.read
  match JsonlSink.write file record with
  | .ok bytes => Eff.update fun _ ↦ some bytes
  | .error .unicodeEncodeError => do
    Eff.update fun _ ↦ some (file.getD [])
    Eff.raise .unicodeEncodeError
  | .error _ => Eff.raise .valueError

/-- `read_jsonl(log_path) if Path(log_path).exists() else []`: what is in the file, which need not
be there. -/
def presentIn : Option Bytes → Except Exc (List Json)
  | none => .ok []
  | some bytes =>
    match readJsonl bytes with
    | .error _ => .error .valueError
    | .ok values => .ok values

/-- `any(r.get("run_id") != run_id for r in present)`: the file also holds records of another run.
-/
def holdsAnother (runId : Str) : List Json → Except Exc Bool
  | [] => .ok false
  | .obj fields :: rest => if isOf runId fields then holdsAnother runId rest else .ok true
  | _ :: _ => .error attributeError

section
variable (rt : Runtime) (mask : Masking)

/-- The loop over the records: `str(record["payload"]["stop_reason"])` of the first stop. -/
def loggedStop (records : List Fields) : Except Exc (Option Str) :=
  match records.find? (isKind .runStopped) with
  | none => .ok none
  | some record => do
    match ← field record "payload" with
    | .obj payload => return some (strValue rt (← field payload "stop_reason"))
    | _ => throw .typeError

/-- `max((int(r.get("iteration", 0)) for r in records), default=0)`: the last pass that the log
tells of. -/
def lastIteration (records : List Fields) : Except Exc ℤ := do
  let iterations ← records.mapM fun r ↦
    intValue rt ((Json.lookup (str "iteration") r).getD (.int 0))
  return iterations.max?.getD 0

/-! ## Appending

The events the parent writes in the name of the worker. -/

/-- What the parent says of a start, of a run whose own process wrote nothing. -/
def startPayload (call : SealCall) : Except Exc Record := do
  let task ← orUnencodable (digest (.str call.task))
  let observations ← orUnencodable (digest (.arr []))
  return {
    fields := [(str "task_sha256", .str task), (str "max_iterations", .int call.maxIterations),
      (str "observations_sha256", .str observations), (str "snapshot_id", .null),
      (str "evidence_sha256", .null), (str "recorded_by", .str (str "cli_parent"))]
    wf := by
      have hkeys : [str "task_sha256", str "max_iterations", str "observations_sha256",
          str "snapshot_id", str "evidence_sha256", str "recorded_by"].Nodup := by decide
      exact ⟨hkeys, trivial, trivial, trivial, trivial, trivial, trivial, trivial⟩ }

/-- What it says of the stop: the reason, and that it was the parent who recorded it. -/
def stopPayload (reason : StopReason) (detail : Str) : Record where
  fields := [(str "stop_reason", .str reason.text), (str "stop_class", .str reason.stopClass.text),
    (str "status", .str reason.status.text), (str "recorded_by", .str (str "cli_parent")),
    (str "detail", .str detail)]
  wf := by
    have hkeys : [str "stop_reason", str "stop_class", str "status", str "recorded_by",
        str "detail"].Nodup := by decide
    exact ⟨hkeys, trivial, trivial, trivial, trivial, trivial, trivial⟩

/-- The event that `append` makes on a log of `n` events. -/
def eventAt (runId : Str) (n : ℕ) (kind : EventKind) (iteration : ℕ)
    (payload : Record) : Event where
  runId := runId
  sequence := n
  kind := kind
  iteration := iteration
  payload := (payload.masked mask).fields

/-- `log.append`, on a log of `n` events: the event is made and checked, and its record written. -/
def appendAt (runId : Str) (n : ℕ) (kind : EventKind) (iteration : ℤ) (payload : Record)
    (now : Timestamp) : FileM Unit :=
  if iteration < 0 then Eff.raise .valueError
  else do
    let event := eventAt mask runId n kind iteration.toNat payload
    Eff.ofExcept event.postInit
    writeRecord (event.record now.text (payload.masked mask).wf)

/-- The appends of `seal_lost_run`, to a log of `n` events that these records were read of. -/
def appendStop (runId : Str) (call : SealCall) (reason : StopReason) (records : List Fields)
    (n : ℕ) : FileM Unit := do
  let n ← if records = [] then do
      let payload ← Eff.ofExcept (startPayload call)
      appendAt mask runId n .runStarted 0 payload call.startedAt
      pure (n + 1)
    else pure n
  let iteration ← Eff.ofExcept (lastIteration rt records)
  appendAt mask runId n .runStopped iteration (stopPayload reason call.detail) call.stoppedAt

/-- `seal_lost_run`: the logged stop reason, and whether this call wrote it. -/
def sealLostRun (runId : Str) (call : SealCall) : FileM (Str × Bool) :=
  match STOP_REASONS.find? fun reason ↦ reason.text = call.stopReason with
  | none => Eff.raise .valueError
  | some reason => do
    Eff.ofExcept call.writerLock
    if isRunId runId = false then Eff.raise .valueError
    else do
      Eff.ofExcept call.runLock
      openSink
      let present ← Eff.ofExcept (presentIn (← Eff.read))
      if ← Eff.ofExcept (holdsAnother runId present) then Eff.raise eventLogInUse
      else do
        let records ← Eff.ofExcept (recordsOf runId (← Eff.read))
        match ← Eff.ofExcept (loggedStop rt records) with
        | some logged => return (logged, false)
        | none => do
          let events ← Eff.ofExcept (eventLog rt runId records)
          appendStop rt mask runId call reason records events.length
          return (call.stopReason, true)

end

/-! ## What is left of a worker

What a worker that was killed leaves, what the parent can do with it, and what it is to come to. -/

/-- The guards of `seal_lost_run` let the call through. -/
structure SealCall.Admitted (runId : Str) (call : SealCall) : Prop where
  known : ∃ reason : StopReason, reason.text = call.stopReason
  named : isRunId runId = true
  writer : call.writerLock = .ok ()
  run : call.runLock = .ok ()

/-- There is nothing for the parent to write, or it can write what it has so that it is read. -/
def CanStop (mask : Masking) (call : SealCall) (whole : List Record) : Prop :=
  (∃ r ∈ whole, isKind .runStopped r.fields = true) ∨
    encodable (mask.text call.detail) = true ∧
      Json.noneOf Json.isWideBreak (mask.text call.detail) = true ∧
      Json.intFits whole.length = true ∧
      (whole = [] → encodable call.task = true ∧ Json.intFits call.maxIterations = true)

/-- What sealing is to do where these records are whole: the file begins with them, it is accepted
as that of a run that finished with the reason that is returned, and sealing it again returns the
same reason and changes nothing. -/
def Seals (rt : Runtime) (mask : Masking) (floatGreater : Json → Json → Bool) (runId : Str)
    (whole : List Record) (first second : SealCall) (file : Option Bytes) : Prop :=
  ∃ reason wrote after report recordedAt more,
    sealLostRun rt mask runId first file = (.ok (reason, wrote), some after) ∧
      utf8 (logText whole) <+: after ∧
      recordsOf runId (some after) = .ok (whole.map Record.readFields ++ more) ∧
      Inspect.inspectRun rt floatGreater runId (some after) = .ok report ∧
      report.stopReason = .str reason ∧ report.finishedAt = some (.str recordedAt) ∧
      sealLostRun rt mask runId second (some after) = (.ok (reason, false), some after)

variable {rt : Runtime} {mask : Masking} {floatGreater : Json → Json → Bool} {runId : Str}
  {call : SealCall} {file kept : Option Bytes} {whole : List Record} {events : List Event}
  {e : Event} {r : Record}

/-! ## Texts that can be written

Which of the texts of a record depend on the caller, and which can always be written. -/

theorem printable_of_isRunId (h : isRunId runId = true) : Json.printable runId = true := by
  have hstart : ∀ c, isRunIdStart c = true → 32 ≤ c.val ∧ c.val < 128 := by
    intro c hc
    simp only [isRunIdStart, Bool.or_eq_true, Bool.and_eq_true, decide_eq_true_eq, Fin.le_def] at hc
    have h1 : (ch 'A').val = 65 ∧ (ch 'Z').val = 90 ∧ (ch 'a').val = 97 ∧ (ch 'z').val = 122 ∧
      (ch '0').val = 48 ∧ (ch '9').val = 57 := by decide
    omega
  have hrest : ∀ c, (isRunIdStart c || (str "._:-").contains c) = true →
      32 ≤ c.val ∧ c.val < 128 := by
    intro c hc
    rcases Bool.or_eq_true_iff.mp hc with hc | hc
    · exact hstart c hc
    · have hsigns : Json.printable (str "._:-") = true := by decide
      exact of_decide_eq_true (List.all_eq_true.mp hsigns c (List.contains_iff_mem.mp hc))
  cases runId with
  | nil => rfl
  | cons c rest =>
    rw [isRunId, Bool.and_eq_true, Bool.and_eq_true, List.all_eq_true] at h
    rw [Json.printable_cons, Bool.and_eq_true, Json.printable, List.all_eq_true]
    exact ⟨decide_eq_true (hstart c h.1.1), fun d hd ↦ decide_eq_true (hrest d (h.1.2 d hd))⟩

section
variable {p : ℤ → Bool} {q : Str → Bool} (hq : ∀ s, Json.printable s = true → q s = true)

include hq

/-- What holds of every printable text holds of the parts of a record that is not half a call, if it
holds of the payload. -/
theorem every_record {recordedAt : Str} (hrun : Json.printable e.runId = true)
    (hat : Json.printable recordedAt = true) (hcall : e.callId = none) :
    Json.every p q (.obj (e.toDict recordedAt)) =
      (p e.sequence && p e.iteration && Json.every p q (.obj e.payload)) := by
  have hid : q (e.runId ++ str ":" ++ decimal e.sequence) = true := by
    refine hq _ ?_
    rw [Json.printable_append, Json.printable_append, hrun, decimal, Json.printable_digits]
    decide
  have hkind : q e.kind.text = true := hq _ (by cases e.kind <;> decide)
  have hlit : ∀ s, Json.printable s = true → q s = true := hq
  simp only [Json.every, Event.toDict, Json.everyField, hcall, EventLog.textOrNull, hid, hkind,
    hq _ hrun, hq _ hat, Bool.true_and, Bool.and_true,
    hlit (str "schema") (by decide), hlit (str "atlas-event.v1") (by decide),
    hlit (str "event_id") (by decide), hlit (str "run_id") (by decide),
    hlit (str "sequence") (by decide), hlit (str "iteration") (by decide),
    hlit (str "kind") (by decide), hlit (str "recorded_at") (by decide),
    hlit (str "call_id") (by decide), hlit (str "payload") (by decide), Bool.and_assoc]

theorem every_stopPayload {reason : StopReason} {detail : Str} :
    Json.every p q (stopPayload reason detail).value = q detail := by
  have hreason : q reason.text = true := hq _ (by cases reason <;> decide)
  have hclass : q reason.stopClass.text = true := hq _ (by cases reason.stopClass <;> decide)
  have hstatus : q reason.status.text = true := hq _ (by cases reason.status <;> decide)
  simp only [Record.value, stopPayload, Json.every, Json.everyField, hreason, hclass, hstatus,
    hq (str "stop_reason") (by decide), hq (str "stop_class") (by decide),
    hq (str "status") (by decide), hq (str "recorded_by") (by decide),
    hq (str "cli_parent") (by decide), hq (str "detail") (by decide), Bool.true_and, Bool.and_true]

theorem every_startFields {task observations : Str} {bound : ℤ}
    (htask : Json.printable task = true) (hobservations : Json.printable observations = true) :
    Json.every p q (.obj [(str "task_sha256", .str task), (str "max_iterations", .int bound),
      (str "observations_sha256", .str observations), (str "snapshot_id", .null),
      (str "evidence_sha256", .null), (str "recorded_by", .str (str "cli_parent"))]) = p bound := by
  simp only [Json.every, Json.everyField, hq _ htask, hq _ hobservations,
    hq (str "task_sha256") (by decide), hq (str "max_iterations") (by decide),
    hq (str "observations_sha256") (by decide), hq (str "snapshot_id") (by decide),
    hq (str "evidence_sha256") (by decide), hq (str "recorded_by") (by decide),
    hq (str "cli_parent") (by decide), Bool.true_and, Bool.and_true]

end

/-! ## Reading what is left

The whole records of the file are what the parent reads, of this run and of others. -/

open EventLog in
theorem utf8_logText_eq_nil (h : utf8 (logText whole) = []) : whole = [] := by
  cases whole with
  | nil => rfl
  | cons r rest =>
    have hline := utf8_eq_nil h
    rw [logText_cons, Record.line, List.append_assoc] at hline
    exact absurd (List.append_eq_nil_iff.mp (List.append_eq_nil_iff.mp hline).2).1 (by simp)

/-- What the parent finds once the torn tail is dropped. -/
theorem openSink_cut {records : List Record} {k : ℕ}
    (hfile : file.getD [] = (utf8 (logText records)).take k) :
    ∃ kept, openSink file = (.ok (), kept) ∧
      kept.getD [] = utf8 (logText (wholeRecords records k)) := by
  have hcut := checkTail_cut records k
  rw [← hfile] at hcut
  cases file with
  | none =>
    refine ⟨none, rfl, ?_⟩
    exact Option.some.inj (Except.ok.inj hcut)
  | some bytes =>
    refine ⟨some (utf8 (logText (wholeRecords records k))), ?_, rfl⟩
    show (match JsonlSink.checkTail true (some bytes) with
      | .ok file => Eff.update fun _ ↦ file
      | .error _ => Eff.raise (.other (str "TornLogTail")) : FileM Unit) (some bytes) = _
    rw [show JsonlSink.checkTail true (some bytes) = _ from hcut]
    rfl

section
variable (h : EventLog.Written runId events whole) (hkept : kept.getD [] = utf8 (logText whole))

include h hkept

theorem presentIn_written : presentIn kept = .ok (whole.map fun r ↦ .obj r.readFields) := by
  cases kept with
  | none =>
    rw [utf8_logText_eq_nil hkept.symm]
    rfl
  | some bytes =>
    rw [presentIn, show bytes = utf8 (logText whole) from hkept, h.readJsonl_eq]

/-- What is read of a run, and of every other. -/
theorem recordsOf_left (id : Str) :
    recordsOf id kept = .ok ((whole.map Record.readFields).filter (isOf id)) := by
  cases kept with
  | none =>
    rw [utf8_logText_eq_nil hkept.symm]
    rfl
  | some bytes =>
    rw [recordsOf, show bytes = utf8 (logText whole) from hkept, h.readJsonl_eq]
    dsimp only
    rw [objects_map]

theorem recordsOf_written : recordsOf runId kept = .ok (whole.map Record.readFields) := by
  rw [recordsOf_left h hkept, h.filter_isOf]

theorem recordsOf_other {id : Str} (hid : id ≠ runId) : recordsOf id kept = .ok [] := by
  rw [recordsOf_left h hkept]
  refine congrArg _ (List.filter_eq_nil_iff.mpr fun fields hfields hof ↦ hid ?_)
  obtain ⟨r, hr, rfl⟩ := List.mem_map.mp hfields
  have howner := isText_iff.mp (h.isOf r hr)
  exact (Json.str.inj (howner.symm.trans (isText_iff.mp hof))).symm

end

/-- Nothing of another run is found where nothing of another run was written. -/
theorem holdsAnother_written (h : ∀ r ∈ whole, isOf runId r.readFields = true) :
    holdsAnother runId (whole.map fun r ↦ .obj r.readFields) = .ok false := by
  induction whole with
  | nil => rfl
  | cons r rest ih =>
    rw [List.map_cons, holdsAnother, if_pos (h r List.mem_cons_self)]
    exact ih fun r hr ↦ h r (List.mem_cons_of_mem _ hr)

theorem find_reason (h : ∃ reason : StopReason, reason.text = call.stopReason) : ∃ reason,
    (STOP_REASONS.find? fun reason ↦ reason.text = call.stopReason) = some reason ∧
      reason.text = call.stopReason := by
  obtain ⟨known, hknown⟩ := h
  have hmem : known ∈ STOP_REASONS := by cases known <;> decide
  have hsome : (STOP_REASONS.find? fun reason ↦ reason.text = call.stopReason).isSome = true :=
    List.find?_isSome.mpr ⟨known, hmem, decide_eq_true hknown⟩
  obtain ⟨reason, hreason⟩ := Option.isSome_iff_exists.mp hsome
  have hfound := List.find?_some hreason
  exact ⟨reason, hreason, of_decide_eq_true hfound⟩

variable (rt mask) in
/-- What a call that is let through does once it has read the file. -/
theorem sealLostRun_opened (hcall : call.Admitted runId) (hopen : openSink file = (.ok (), kept))
    {values : List Json} (hpresent : presentIn kept = .ok values) :
    ∃ reason : StopReason, reason.text = call.stopReason ∧
      sealLostRun rt mask runId call file =
        (do
          if ← Eff.ofExcept (holdsAnother runId values) then Eff.raise eventLogInUse
          else do
            let records ← Eff.ofExcept (recordsOf runId (← Eff.read))
            match ← Eff.ofExcept (loggedStop rt records) with
            | some logged => return (logged, false)
            | none => do
              let events ← Eff.ofExcept (eventLog rt runId records)
              appendStop rt mask runId call reason records events.length
              return (call.stopReason, true) : FileM (Str × Bool)) kept := by
  obtain ⟨reason, hfind, hreason⟩ := find_reason hcall.known
  refine ⟨reason, hreason, ?_⟩
  rw [sealLostRun, hfind, hcall.writer, hcall.run, hcall.named]
  dsimp only
  rw [Eff.ofExcept_bind_run]
  dsimp only
  rw [if_neg nofun, Eff.ofExcept_bind_run]
  dsimp only
  rw [Eff.bind_of_ok hopen, Eff.read_bind_run, hpresent, Eff.ofExcept_bind_run]

variable (rt mask) in
/-- The appends of an admitted call, or the stop that was logged. -/
theorem sealLostRun_eq (hcall : call.Admitted runId) (h : EventLog.Written runId events whole)
    (hopen : openSink file = (.ok (), kept)) (hkept : kept.getD [] = utf8 (logText whole)) :
    ∃ reason : StopReason, reason.text = call.stopReason ∧
      sealLostRun rt mask runId call file =
        (do
          match ← Eff.ofExcept (loggedStop rt (whole.map Record.readFields)) with
          | some logged => return (logged, false)
          | none => do
            let events ← Eff.ofExcept (eventLog rt runId (whole.map Record.readFields))
            appendStop rt mask runId call reason (whole.map Record.readFields) events.length
            return (call.stopReason, true) : FileM (Str × Bool)) kept := by
  obtain ⟨reason, hreason, heq⟩ :=
    sealLostRun_opened rt mask hcall hopen (presentIn_written h hkept)
  refine ⟨reason, hreason, ?_⟩
  rw [heq, holdsAnother_written h.isOf, Eff.ofExcept_bind_run]
  dsimp only
  rw [if_neg nofun, Eff.read_bind_run, recordsOf_written h hkept, Eff.ofExcept_bind_run]

theorem runId_ne_nil (h : isRunId runId = true) : runId ≠ [] := by
  rintro rfl
  cases h

/-- A call that returned was let through. -/
theorem Admitted.of_ok {result : Str × Bool} {after : Option Bytes}
    (h : sealLostRun rt mask runId call file = (.ok result, after)) : call.Admitted runId := by
  rw [sealLostRun] at h
  cases hreason : STOP_REASONS.find? fun reason ↦ reason.text = call.stopReason with
  | none =>
    rw [hreason] at h
    cases h
  | some reason =>
    rw [hreason] at h
    obtain ⟨⟨⟩, _, hlock, h⟩ := Eff.bind_eq_ok.mp h
    obtain ⟨hwriter, rfl⟩ := Eff.ofExcept_eq_ok.mp hlock
    split_ifs at h with hnamed
    · cases h
    · obtain ⟨⟨⟩, _, hlock, -⟩ := Eff.bind_eq_ok.mp h
      obtain ⟨hrun, -⟩ := Eff.ofExcept_eq_ok.mp hlock
      have hfound := List.find?_some hreason
      exact ⟨⟨reason, of_decide_eq_true hfound⟩, Bool.eq_true_of_not_eq_false hnamed, hwriter, hrun⟩

/-! ## The stop is there already

A lost run whose log has ended needs no stop, and is given none. -/

variable (rt) in
theorem loggedStop_stopped {records : List Record}
    (h : EventLog.Written runId (events ++ [e]) (records ++ [r])) (hk : e.kind = .runStopped) :
    ∃ reason, getOrNull e.canon.payload "stop_reason" = .str reason ∧
      loggedStop rt ((records ++ [r]).map Record.readFields) = .ok (some reason) := by
  have hstops := h.filter_stopped hk
  have hreads := EventLog.reads_readFields h.last.2
  have hreportable : Reportable .runStopped e.payload := by
    rw [← hk]
    exact (grown_concat.mp h.history).2.reportable
  obtain ⟨reason, hreason, -⟩ := hreportable.canon.2.1.eq_str
  refine ⟨reason, hreason, ?_⟩
  rw [loggedStop, ← List.head?_filter, hstops, List.head?_cons]
  dsimp only
  refine Except.bind_eq_ok.mpr ⟨_, EventLog.field_payload_reads hreads, ?_⟩
  have hfield : field e.canon.payload "stop_reason" = .ok (.str reason) := by
    rw [field, lookup_of_getOrNull (show getOrNull e.canon.payload "stop_reason" = _ from hreason)
      (fun hnull ↦ by cases hnull)]
  exact Except.bind_eq_ok.mpr ⟨_, hfield, rfl⟩

variable (rt mask) in
/-- **Where a stop was written, sealing returns it and changes nothing.** -/
theorem sealLostRun_stopped {records : List Record} (hcall : call.Admitted runId)
    (h : EventLog.Written runId (events ++ [e]) (records ++ [r])) (hk : e.kind = .runStopped)
    (hopen : openSink file = (.ok (), kept))
    (hkept : kept.getD [] = utf8 (logText (records ++ [r]))) :
    ∃ reason, getOrNull e.canon.payload "stop_reason" = .str reason ∧
      sealLostRun rt mask runId call file = (.ok (reason, false), kept) := by
  obtain ⟨logged, hlogged, hstop⟩ := loggedStop_stopped rt h hk
  obtain ⟨_, -, heq⟩ := sealLostRun_eq rt mask hcall h hopen hkept
  refine ⟨logged, hlogged, ?_⟩
  rw [heq, hstop]
  rfl

/-! ## The stop is not there

What is appended to a log that has not ended: a start where there is none, and then a stop. -/

variable (rt mask) in
/-- Where no stop was written, what an admitted call does is to append. -/
theorem sealLostRun_going (hcall : call.Admitted runId) (h : EventLog.Written runId events whole)
    (hgoing : ∀ e ∈ events, e.kind ≠ .runStopped) (hopen : openSink file = (.ok (), kept))
    (hkept : kept.getD [] = utf8 (logText whole)) :
    ∃ reason : StopReason, reason.text = call.stopReason ∧
      sealLostRun rt mask runId call file =
        (do
          appendStop rt mask runId call reason (whole.map Record.readFields) whole.length
          return (call.stopReason, true) : FileM (Str × Bool)) kept := by
  obtain ⟨reason, hreason, heq⟩ := sealLostRun_eq rt mask hcall h hopen hkept
  have hnone : loggedStop rt (whole.map Record.readFields) = .ok none := by
    rw [loggedStop, ← List.head?_filter, h.filter_going hgoing]
    rfl
  have hevents : eventLog rt runId (whole.map Record.readFields) =
      .ok ((events.map Event.canon).map readOf) :=
    eventLog_eq (h.history.canon.paired.each fun _ _ hf ↦ hf.postInit) h.reads
      (h.history.canon.build_eq (runId_ne_nil hcall.named))
  refine ⟨reason, hreason, ?_⟩
  rw [heq, hnone, Eff.ofExcept_bind_run]
  dsimp only
  rw [hevents, Eff.ofExcept_bind_run]
  dsimp only
  rw [List.length_map, List.length_map, h.length_eq]

/-! ## One append of the parent

When a record can be written, and what the file is afterwards. -/

theorem postInit_eventAt {n iteration : ℕ} {kind : EventKind} {payload : Record}
    (hrun : runId ≠ []) (hkind : kind = .runStarted ∨ kind = .runStopped) :
    (eventAt mask runId n kind iteration payload).postInit = .ok () := by
  rw [Event.postInit, if_neg (show ¬ (eventAt mask runId n kind iteration payload).runId = []
    from hrun)]
  rcases hkind with rfl | rfl <;> rfl

/-- The record that an append writes, with its payload masked. -/
def recordAt (mask : Masking) (runId : Str) (n : ℕ) (kind : EventKind) (iteration : ℕ)
    (payload : Record) (now : Timestamp) : Record :=
  (eventAt mask runId n kind iteration payload).record now.text (payload.masked mask).wf

/-- An append returns exactly when its record can be written, which is then the last of the file. -/
theorem appendAt_eq_ok {n iteration : ℕ} {kind : EventKind} {payload : Record} {now : Timestamp}
    {after : Option Bytes} (hrun : runId ≠ []) (hkind : kind = .runStarted ∨ kind = .runStopped) :
    appendAt mask runId n kind iteration payload now file = (.ok (), after) ↔
      (recordAt mask runId n kind iteration payload now).Writable ∧
        after = some (file.getD [] ++
          utf8 (recordAt mask runId n kind iteration payload now).line) := by
  rw [appendAt, if_neg (Int.not_lt.mpr (Int.natCast_nonneg _)), Int.toNat_natCast,
    postInit_eventAt hrun hkind, Eff.ofExcept_bind_run]
  show writeRecord (recordAt mask runId n kind iteration payload now) file = _ ↔ _
  rw [writeRecord, Eff.read_bind_run]
  constructor
  · intro h
    cases hwrite : JsonlSink.write file (recordAt mask runId n kind iteration payload now) with
    | ok bytes =>
      rw [hwrite] at h
      obtain ⟨hwritable, hbytes⟩ := JsonlSink.write_eq hwrite
      refine ⟨hwritable, ?_⟩
      rw [← hbytes]
      exact (congrArg Prod.snd h).symm
    | error e =>
      rw [hwrite] at h
      cases e <;> cases h
  · rintro ⟨hwritable, rfl⟩
    rw [JsonlSink.write_ok hwritable]
    rfl

/-- Whether the record can be written, and read, is a question about its payload. -/
theorem writable_recordAt {n iteration : ℕ} {kind : EventKind} {payload : Record}
    {now : Timestamp} (hrun : Json.printable runId = true) :
    (recordAt mask runId n kind iteration payload now).Writable ↔
      Json.intFits n = true ∧ Json.intFits iteration = true ∧ (payload.masked mask).Writable := by
  have hints := every_record (e := eventAt mask runId n kind iteration payload) (p := Json.intFits)
    (q := fun _ ↦ true) (fun _ _ ↦ rfl) hrun now.printable rfl
  have htexts := every_record (e := eventAt mask runId n kind iteration payload)
    (p := fun _ ↦ true) (fun _ ↦ encodable_of_printable) hrun now.printable rfl
  rw [Record.Writable, Record.Writable, Json.surrogateFree, Json.surrogateFree]
  show Json.every _ _ (.obj ((eventAt mask runId n kind iteration payload).toDict now.text)) =
    true ∧
    Json.every _ _ (.obj ((eventAt mask runId n kind iteration payload).toDict now.text)) = true ↔ _
  rw [hints, htexts, Bool.and_eq_true, Bool.and_eq_true, and_assoc, and_assoc]
  rfl

theorem breakFree_recordAt {n iteration : ℕ} {kind : EventKind} {payload : Record}
    {now : Timestamp} (hrun : Json.printable runId = true) :
    (recordAt mask runId n kind iteration payload now).breakFree =
      (payload.masked mask).breakFree := by
  have htexts := every_record (e := eventAt mask runId n kind iteration payload)
    (p := fun _ ↦ true) (fun _ ↦ noneOf_wideBreak_of_printable) hrun now.printable rfl
  exact htexts

theorem Record.ext {a b : Record} (h : a.fields = b.fields) : a = b := by
  cases a
  cases b
  cases h
  rfl

/-- A mask leaves what the parent says of a stop alone, except for the detail. -/
theorem masked_stopPayload {reason : StopReason} {detail : Str}
    (hparent : mask.text (str "cli_parent") = str "cli_parent") :
    (stopPayload reason detail).masked mask = stopPayload reason (mask.text detail) := by
  refine Record.ext ?_
  have hverbatim : str "stop_reason" ∈ VERBATIM_KEYS ∧ str "stop_class" ∈ VERBATIM_KEYS ∧
      str "status" ∈ VERBATIM_KEYS ∧ str "recorded_by" ∉ VERBATIM_KEYS ∧
      str "detail" ∉ VERBATIM_KEYS := by decide
  obtain ⟨hreason, hclass, hstatus, hby, hdetail⟩ := hverbatim
  simp only [Record.masked, stopPayload, redactFields, redactDocument, if_pos hreason,
    if_pos hclass, if_pos hstatus, if_neg hby, if_neg hdetail, hparent]

theorem digest_isHex {v : Json} {d : Str} (h : digest v = some d) : d.all isHex = true := by
  unfold digest at h
  split at h
  · exact (sha256Text_spec h).2
  · obtain ⟨text, -, htext⟩ := Option.bind_eq_some_iff.mp h
    exact (sha256Text_spec htext).2

theorem orUnencodable_eq_ok {α : Type} {x : Option α} {a : α} (h : orUnencodable x = .ok a) :
    x = some a := by
  cases x with
  | none => cases h
  | some b => exact congrArg some (Except.ok.inj h)

theorem encodable_of_digest {s d : Str} (h : digest (.str s) = some d) : encodable s = true := by
  by_contra hs
  rw [digest, sha256Text, encode, if_neg hs] at h
  cases h

theorem text_digest {v : Json} {d : Str} (h : digest v = some d) : mask.text d = d :=
  mask.text_hex d fun c hc ↦ .inl (List.all_eq_true.mp (digest_isHex h) c hc)

/-- A mask leaves a start alone, and whether it can be written is a question about the bound. -/
theorem startPayload_eq_ok {payload : Record}
    (hparent : mask.text (str "cli_parent") = str "cli_parent")
    (h : startPayload call = .ok payload) : encodable call.task = true ∧
      payload.masked mask = payload ∧
      (payload.Writable ↔ Json.intFits call.maxIterations = true) ∧ payload.breakFree = true := by
  obtain ⟨task, htask, h⟩ := Except.bind_eq_ok.mp h
  obtain ⟨observations, hobservations, h⟩ := Except.bind_eq_ok.mp h
  obtain rfl := Except.ok.inj h
  have htask := orUnencodable_eq_ok htask
  have hobservations := orUnencodable_eq_ok hobservations
  have hverbatim : str "task_sha256" ∉ VERBATIM_KEYS ∧ str "max_iterations" ∉ VERBATIM_KEYS ∧
      str "observations_sha256" ∉ VERBATIM_KEYS ∧ str "snapshot_id" ∈ VERBATIM_KEYS ∧
      str "evidence_sha256" ∉ VERBATIM_KEYS ∧ str "recorded_by" ∉ VERBATIM_KEYS := by
    decide
  obtain ⟨hkey₁, hkey₂, hkey₃, hkey₄, hkey₅, hkey₆⟩ := hverbatim
  refine ⟨encodable_of_digest htask, Record.ext ?_, ?_, ?_⟩
  · simp only [Record.masked, redactFields, redactDocument, if_neg hkey₁, if_neg hkey₂,
      if_neg hkey₃, if_pos hkey₄, if_neg hkey₅, if_neg hkey₆, hparent, text_digest htask,
      text_digest hobservations]
  · have hprintable := printable_of_isHex (digest_isHex htask)
    have hprintable' := printable_of_isHex (digest_isHex hobservations)
    rw [Record.Writable, Json.surrogateFree]
    show Json.every _ _ (.obj _) = true ∧ Json.every _ _ (.obj _) = true ↔ _
    rw [every_startFields (fun _ _ ↦ rfl) hprintable hprintable',
      every_startFields (fun _ ↦ encodable_of_printable) hprintable hprintable']
    exact and_iff_left rfl
  · exact every_startFields (fun _ ↦ noneOf_wideBreak_of_printable)
      (printable_of_isHex (digest_isHex htask)) (printable_of_isHex (digest_isHex hobservations))

theorem startPayload_ok (h : encodable call.task = true) :
    ∃ payload, startPayload call = .ok payload := by
  have htask : digest (.str call.task) = some (sha256 (utf8 call.task)) := by
    rw [digest, sha256Text, encode, if_pos h]
    rfl
  have hobservations : digest (.arr []) = some (sha256 (utf8 (str "[]"))) := by
    show (Json.dumps (.arr [])).bind sha256Text = _
    rw [show Json.dumps (.arr []) = some (str "[]") by decide, Option.bind_some, sha256Text, encode,
      if_pos (by decide)]
    rfl
  rw [startPayload, htask, hobservations]
  exact ⟨_, rfl⟩

/-! ## The iterations of a log

The pass of the stop is the last that the log tells of, which is a number it can write. -/

theorem iteration_fits (h : e.IsRecord r.fields) (hw : r.Writable) :
    Json.intFits e.iteration = true := by
  obtain ⟨recordedAt, hr⟩ := h
  have hall := hw.1
  rw [Record.value, hr, Json.every, Json.everyField_eq_all, List.all_eq_true] at hall
  exact (hall (str "iteration", .int e.iteration) (by simp [Event.toDict]))

variable (rt) in
theorem mapM_intValue {records : List Fields} (hr : List.Forall₂ Event.Reads events records) :
    records.mapM (fun r ↦ intValue rt ((Json.lookup (str "iteration") r).getD (.int 0))) =
      .ok (events.map fun e ↦ (e.iteration : ℤ)) := by
  induction hr with
  | nil => rfl
  | cons h _ ih =>
    obtain ⟨recordedAt, h⟩ := h
    rw [List.mapM_cons, ih, h]
    rfl

variable (rt) in
theorem lastIteration_written (h : EventLog.Written runId events whole) : ∃ m : ℕ,
    lastIteration rt (whole.map Record.readFields) = .ok (m : ℤ) ∧ Json.intFits m = true := by
  have hmap := mapM_intValue rt h.reads
  rw [List.map_map] at hmap
  cases hmax : (events.map fun e ↦ (e.iteration : ℤ)).max? with
  | none =>
    refine ⟨0, Except.bind_eq_ok.mpr ⟨_, hmap, ?_⟩, by decide⟩
    exact congrArg (fun m : Option ℤ ↦ Except.ok (m.getD 0)) hmax
  | some m =>
    obtain ⟨e, he, rfl⟩ := List.mem_map.mp (List.max?_mem hmax)
    obtain ⟨r, hr, hrecord⟩ := exists_of_forall₂_left h.ofEvents e he
    refine ⟨e.iteration, Except.bind_eq_ok.mpr ⟨_, hmap, ?_⟩,
      iteration_fits hrecord (h.writable r hr)⟩
    exact congrArg (fun m : Option ℤ ↦ Except.ok (m.getD 0)) hmax

/-! ## What the parent appends is admitted

The start and the stop of the parent are events that the validation of the log accepts. -/

theorem admits_start (hrun : runId ≠ []) {payload : Record} :
    EventLog.Admits runId [] (eventAt mask runId 0 .runStarted 0 payload) where
  follows := ⟨postInit_eventAt hrun (.inl rfl), rfl, rfl, nofun, nofun⟩
  starts := iff_of_true rfl rfl
  going := nofun
  reportable := trivial

theorem admits_stop (hrun : runId ≠ []) (hne : events ≠ [])
    (hgoing : ∀ e ∈ events, e.kind ≠ .runStopped) {iteration : ℕ} {reason : StopReason}
    {detail : Str} : EventLog.Admits runId events
      (eventAt mask runId events.length .runStopped iteration (stopPayload reason detail)) where
  follows := ⟨postInit_eventAt hrun (.inr rfl), rfl, rfl, nofun, nofun⟩
  starts := iff_of_false hne nofun
  going := hgoing
  reportable := by
    have hpayload : Reportable .runStopped (stopPayload reason detail).fields :=
      ⟨isNonempty_str (by cases reason <;> decide), isNonempty_str (by cases reason <;> decide),
        isNonempty_str (by cases reason <;> decide)⟩
    exact hpayload.masked

/-- The stop can be written exactly when its detail and its numbers can. -/
theorem writable_stop (hnamed : isRunId runId = true)
    (hparent : mask.text (str "cli_parent") = str "cli_parent") {n m : ℕ} {reason : StopReason}
    {detail : Str} {now : Timestamp} :
    (recordAt mask runId n .runStopped m (stopPayload reason detail) now).Writable ↔
      Json.intFits n = true ∧ Json.intFits m = true ∧ encodable (mask.text detail) = true := by
  have hpayload : (stopPayload reason (mask.text detail)).Writable ↔
      encodable (mask.text detail) = true := by
    rw [Record.Writable, Json.surrogateFree, every_stopPayload fun _ _ ↦ rfl,
      every_stopPayload fun _ ↦ encodable_of_printable]
    exact and_iff_right rfl
  rw [writable_recordAt (printable_of_isRunId hnamed), masked_stopPayload hparent, hpayload]

theorem appendAt_stop (hnamed : isRunId runId = true)
    (hparent : mask.text (str "cli_parent") = str "cli_parent")
    (hkept : kept.getD [] = utf8 (logText whole)) {m : ℕ} (hm : Json.intFits m = true)
    {reason : StopReason} {detail : Str} {now : Timestamp} {after : Option Bytes} :
    appendAt mask runId whole.length .runStopped m (stopPayload reason detail) now kept =
        (.ok (), after) ↔
      Json.intFits whole.length = true ∧ encodable (mask.text detail) = true ∧
        after = some (utf8 (logText (whole ++
          [recordAt mask runId whole.length .runStopped m (stopPayload reason detail) now]))) := by
  rw [appendAt_eq_ok (runId_ne_nil hnamed) (.inr rfl), writable_stop hnamed hparent, hkept,
    logText_append, utf8_append, logText, logText, List.flatMap_singleton]
  simp only [hm, true_and, and_assoc]

/-- The record of the stop is read exactly when the detail holds no line break. -/
theorem breakFree_stop (hnamed : isRunId runId = true)
    (hparent : mask.text (str "cli_parent") = str "cli_parent") {n m : ℕ} {reason : StopReason}
    {detail : Str} {now : Timestamp} :
    (recordAt mask runId n .runStopped m (stopPayload reason detail) now).breakFree =
      Json.noneOf Json.isWideBreak (mask.text detail) := by
  rw [breakFree_recordAt (printable_of_isRunId hnamed), masked_stopPayload hparent]
  exact every_stopPayload fun _ ↦ noneOf_wideBreak_of_printable

/-! ## The appends of a call

What each append of the parent leaves in the file. -/

/-- On a log that holds something, the stop is appended. -/
theorem appendStop_cons {reason : StopReason} {records : List Fields} {n m : ℕ}
    {after : Option Bytes} (hne : records ≠ []) (hm : lastIteration rt records = .ok (m : ℤ)) :
    appendStop rt mask runId call reason records n kept = (.ok (), after) ↔
      appendAt mask runId n .runStopped m (stopPayload reason call.detail) call.stoppedAt kept =
        (.ok (), after) := by
  rw [appendStop, if_neg hne, hm]
  rfl

/-- On a log that holds nothing, a start comes first. -/
theorem appendStop_nil {reason : StopReason} {after : Option Bytes} :
    appendStop rt mask runId call reason [] 0 kept = (.ok (), after) ↔
      ∃ payload middle, startPayload call = .ok payload ∧
        appendAt mask runId 0 .runStarted (0 : ℕ) payload call.startedAt kept = (.ok (), middle) ∧
        appendAt mask runId 1 .runStopped (0 : ℕ) (stopPayload reason call.detail) call.stoppedAt
          middle = (.ok (), after) := by
  rw [appendStop, if_pos rfl]
  constructor
  · intro h
    obtain ⟨payload, _, hmade, h⟩ := Eff.bind_eq_ok.mp h
    obtain ⟨hpayload, rfl⟩ := Eff.ofExcept_eq_ok.mp hmade
    obtain ⟨⟨⟩, middle, hstart, hstop⟩ := Eff.bind_eq_ok.mp h
    exact ⟨payload, middle, hpayload, hstart, hstop⟩
  · rintro ⟨payload, middle, hpayload, hstart, hstop⟩
    rw [hpayload]
    exact Eff.bind_eq_ok.mpr ⟨payload, kept, rfl, Eff.bind_eq_ok.mpr ⟨(), middle, hstart, hstop⟩⟩

/-- What the parent must be able to write where no stop was written. -/
def CanAppend (mask : Masking) (call : SealCall) (whole : List Record) : Prop :=
  Json.intFits whole.length = true ∧ encodable (mask.text call.detail) = true ∧
    (whole = [] → encodable call.task = true ∧ Json.intFits call.maxIterations = true)

theorem fits_zero : Json.intFits (0 : ℕ) = true := by decide

theorem fits_one : Json.intFits (1 : ℕ) = true := by decide

/-- The record of the stop of a call. -/
def SealCall.stopRecord (mask : Masking) (runId : Str) (call : SealCall) (reason : StopReason)
    (n m : ℕ) : Record :=
  recordAt mask runId n .runStopped m (stopPayload reason call.detail) call.stoppedAt

/-- A file that a call has appended a stop to. -/
structure Stopped (mask : Masking) (runId : Str) (call : SealCall) (reason : StopReason)
    (whole : List Record) (after : Option Bytes) (front : List Event) (back : List Record)
    (m : ℕ) : Prop where
  kept : whole <+: back
  written : EventLog.Written runId front back
  nonempty : front ≠ []
  going : ∀ e ∈ front, e.kind ≠ .runStopped
  fits : Json.intFits m = true ∧ Json.intFits back.length = true
  file : after = some (utf8 (logText (back ++ [call.stopRecord mask runId reason back.length m])))

section
variable (hnamed : isRunId runId = true)
  (hparent : mask.text (str "cli_parent") = str "cli_parent")

include hnamed hparent

/-- A start can be appended exactly when its bound can be written, and is then a history. -/
theorem appendAt_start {payload : Record} (hpayload : startPayload call = .ok payload)
    (hkept : kept.getD [] = []) {middle : Option Bytes} :
    appendAt mask runId 0 .runStarted (0 : ℕ) payload call.startedAt kept = (.ok (), middle) ↔
      Json.intFits call.maxIterations = true ∧ middle = some (utf8 (logText
        [recordAt mask runId 0 .runStarted 0 payload call.startedAt])) := by
  obtain ⟨-, hmasked, hwritable, -⟩ := startPayload_eq_ok hparent hpayload
  rw [appendAt_eq_ok (runId_ne_nil hnamed) (.inl rfl),
    writable_recordAt (printable_of_isRunId hnamed), hmasked, hwritable, hkept, List.nil_append,
    logText, List.flatMap_singleton]
  exact and_congr_left' ⟨fun h ↦ h.2.2, fun h ↦ ⟨by decide, by decide, h⟩⟩

theorem written_start {payload : Record} (hpayload : startPayload call = .ok payload)
    (hbound : Json.intFits call.maxIterations = true) :
    EventLog.Written runId [eventAt mask runId 0 .runStarted 0 payload]
      [recordAt mask runId 0 .runStarted 0 payload call.startedAt] := by
  obtain ⟨-, hmasked, hwritable, hfree⟩ := startPayload_eq_ok hparent hpayload
  have hnothing : EventLog.Written runId [] [] := ⟨grown_nil, .nil, nofun, nofun⟩
  refine hnothing.concat (admits_start (runId_ne_nil hnamed)) ⟨_, rfl⟩ ?_ ?_
  · refine (writable_recordAt (printable_of_isRunId hnamed)).mpr ⟨by decide, by decide, ?_⟩
    rw [hmasked]
    exact hwritable.mpr hbound
  · rw [breakFree_recordAt (printable_of_isRunId hnamed), hmasked, hfree]

theorem writable_stopRecord {reason : StopReason} {n m : ℕ} :
    (call.stopRecord mask runId reason n m).Writable ↔ Json.intFits n = true ∧
      Json.intFits m = true ∧ encodable (mask.text call.detail) = true :=
  writable_stop hnamed hparent

theorem breakFree_stopRecord {reason : StopReason} {n m : ℕ} :
    (call.stopRecord mask runId reason n m).breakFree =
      Json.noneOf Json.isWideBreak (mask.text call.detail) :=
  breakFree_stop hnamed hparent

/-- **What an append of a stop needs, and what it leaves.** -/
theorem appendStop_eq_ok (h : EventLog.Written runId events whole)
    (hgoing : ∀ e ∈ events, e.kind ≠ .runStopped) (hkept : kept.getD [] = utf8 (logText whole))
    {reason : StopReason} {after : Option Bytes}
    (hafter : appendStop rt mask runId call reason (whole.map Record.readFields) whole.length kept =
      (.ok (), after)) :
    CanAppend mask call whole ∧ ∃ front back m,
      Stopped mask runId call reason whole after front back m := by
  rcases List.eq_nil_or_concat whole with rfl | ⟨rest, r, rfl⟩
  · obtain ⟨payload, middle, hpayload, hstart, hstop⟩ := appendStop_nil.mp hafter
    obtain ⟨hbound, rfl⟩ := (appendAt_start hnamed hparent hpayload hkept).mp hstart
    have hmiddle : (some (utf8 (logText
        [recordAt mask runId 0 .runStarted 0 payload call.startedAt]))).getD [] = _ := rfl
    obtain ⟨-, hdetail, rfl⟩ := (appendAt_stop hnamed hparent hmiddle fits_zero).mp hstop
    refine ⟨⟨fits_zero, hdetail, fun _ ↦ ⟨(startPayload_eq_ok hparent hpayload).1, hbound⟩⟩,
      _, _, 0, List.nil_prefix, written_start hnamed hparent hpayload hbound, by simp, ?_,
      ⟨fits_zero, fits_one⟩, rfl⟩
    simp [eventAt]
  · obtain ⟨m, hm, hfits⟩ := lastIteration_written rt h
    have hstop := (appendStop_cons (by simp) hm).mp hafter
    obtain ⟨hnumber, hdetail, rfl⟩ := (appendAt_stop hnamed hparent hkept hfits).mp hstop
    refine ⟨⟨hnumber, hdetail, by simp⟩, _, _, m, List.prefix_rfl, h, ?_, hgoing,
      ⟨hfits, hnumber⟩, rfl⟩
    rintro rfl
    have hlength := h.length_eq
    simp at hlength

variable (rt) in
/-- Where it has what it needs, it returns. -/
theorem appendStop_ok (reason : StopReason) (h : EventLog.Written runId events whole)
    (hkept : kept.getD [] = utf8 (logText whole))
    (hcan : CanAppend mask call whole) : ∃ after,
      appendStop rt mask runId call reason (whole.map Record.readFields) whole.length kept =
        (.ok (), after) := by
  obtain ⟨hnumber, hdetail, hfresh⟩ := hcan
  rcases List.eq_nil_or_concat whole with rfl | ⟨rest, r, rfl⟩
  · obtain ⟨htask, hbound⟩ := hfresh rfl
    obtain ⟨payload, hpayload⟩ := startPayload_ok htask
    have hstart := (appendAt_start hnamed hparent hpayload hkept).mpr ⟨hbound, rfl⟩
    have hmiddle : (some (utf8 (logText
        [recordAt mask runId 0 .runStarted 0 payload call.startedAt]))).getD [] = _ := rfl
    exact ⟨_, appendStop_nil.mpr ⟨payload, _, hpayload, hstart,
      (appendAt_stop hnamed hparent hmiddle fits_zero).mpr ⟨fits_one, hdetail, rfl⟩⟩⟩
  · obtain ⟨m, hm, hfits⟩ := lastIteration_written rt h
    exact ⟨_, (appendStop_cons (by simp) hm).mpr
      ((appendAt_stop hnamed hparent hkept hfits).mpr ⟨hnumber, hdetail, rfl⟩)⟩

end

/-! ## An append that raises

What is left when the stop cannot be written: the history as it was, or with a start and nothing
else. -/

variable (file) in
/-- What an append raises, and that the file is then as it was. -/
theorem appendAt_raised {n m : ℕ} {kind : EventKind} {payload : Record} {now : Timestamp}
    (hrun : runId ≠ []) (hkind : kind = .runStarted ∨ kind = .runStopped) :
    (appendAt mask runId n kind m payload now).wp (fun _ _ ↦ True)
      (fun e after ↦ (e = .valueError ∨ e = .unicodeEncodeError) ∧ after.getD [] = file.getD [])
      file := by
  rw [appendAt, if_neg (Int.not_lt.mpr (Int.natCast_nonneg _)), Int.toNat_natCast]
  refine Eff.wp_bind.mpr (Eff.wp_ofExcept.mpr ?_)
  rw [postInit_eventAt hrun hkind]
  refine Eff.wp_bind.mpr (Eff.wp_read.mpr ?_)
  split
  · trivial
  · exact ⟨.inr rfl, rfl⟩
  · exact ⟨.inl rfl, rfl⟩

theorem orUnencodable_eq_error {α : Type} {x : Option α} {error : Exc}
    (h : orUnencodable x = .error error) : error = .unicodeEncodeError := by
  cases x with
  | none => exact (Except.error.inj h).symm
  | some _ => cases h

theorem startPayload_eq_error {error : Exc} (h : startPayload call = .error error) :
    error = .unicodeEncodeError := by
  rw [startPayload] at h
  cases htask : orUnencodable (digest (.str call.task)) with
  | error e =>
    rw [htask] at h
    obtain rfl : e = error := Except.error.inj h
    exact orUnencodable_eq_error htask
  | ok task =>
    cases hobservations : orUnencodable (digest (.arr [])) with
    | error e =>
      rw [htask, hobservations] at h
      obtain rfl : e = error := Except.error.inj h
      exact orUnencodable_eq_error hobservations
    | ok observations =>
      rw [htask, hobservations] at h
      cases h

variable (rt) in
/-- **A stop that cannot be appended leaves a history without one**, of a start at most. -/
theorem appendStop_raised (hnamed : isRunId runId = true)
    (hparent : mask.text (str "cli_parent") = str "cli_parent") (reason : StopReason)
    (h : EventLog.Written runId events whole) (hgoing : ∀ e ∈ events, e.kind ≠ .runStopped)
    (hkept : kept.getD [] = utf8 (logText whole)) :
    (appendStop rt mask runId call reason (whole.map Record.readFields) whole.length).wp
      (fun _ _ ↦ True)
      (fun e after ↦ (e = .valueError ∨ e = .unicodeEncodeError) ∧ ∃ front back,
        EventLog.Written runId front back ∧ (∀ e ∈ front, e.kind ≠ .runStopped) ∧
          after.getD [] = utf8 (logText back)) kept := by
  have hrun := runId_ne_nil hnamed
  rcases List.eq_nil_or_concat whole with rfl | ⟨rest, r, rfl⟩
  · rw [appendStop, if_pos List.map_nil]
    refine Eff.wp_bind.mpr (Eff.wp_ofExcept.mpr ?_)
    cases hpayload : startPayload call with
    | error e =>
      exact ⟨.inr (startPayload_eq_error hpayload), events, [], h, hgoing, hkept⟩
    | ok payload =>
      refine Eff.wp_bind.mpr ?_
      have hstart := (appendAt_raised kept hrun (.inl rfl)).and (Eff.wp_run
        (appendAt mask runId 0 .runStarted (0 : ℕ) payload call.startedAt) kept)
      refine hstart.mono ?_ ?_
      · rintro ⟨⟩ middle ⟨-, hmiddle⟩
        obtain ⟨hbound, rfl⟩ := (appendAt_start hnamed hparent hpayload hkept).mp hmiddle
        refine (appendAt_raised _ hrun (.inr rfl)).mono (fun _ _ _ ↦ trivial) ?_
        rintro e after ⟨herror, hafter⟩
        refine ⟨herror, _, _, written_start hnamed hparent hpayload hbound, ?_, hafter⟩
        exact List.forall_mem_singleton.mpr nofun
      · rintro e after ⟨⟨herror, hafter⟩, -⟩
        exact ⟨herror, events, [], h, hgoing, hafter.trans hkept⟩
  · obtain ⟨m, hm, -⟩ := lastIteration_written rt h
    rw [appendStop, if_neg (by simp), hm]
    refine (appendAt_raised _ hrun (.inr rfl)).mono (fun _ _ _ ↦ trivial) ?_
    rintro e after ⟨herror, hafter⟩
    exact ⟨herror, events, _, h, hgoing, hafter.trans hkept⟩

/-! ## Sealing, and sealing again

A second call finds the stop of the first and changes nothing. -/

/-- A file without a torn tail is left as it is. -/
theorem checkTail_logText (records : List Record) :
    JsonlSink.checkTail true (some (utf8 (logText records))) =
      .ok (some (utf8 (logText records))) := by
  have hrepair := JsonlSink.checkTail_append (t := []) List.not_mem_nil (logText_ends records)
  rwa [List.append_nil] at hrepair

theorem openSink_logText (records : List Record) :
    openSink (some (utf8 (logText records))) = (.ok (), some (utf8 (logText records))) := by
  rw [openSink, Eff.read_bind_run, checkTail_logText]
  rfl

theorem getOrNull_stop {n m : ℕ} {reason : StopReason} {detail : Str} : getOrNull
    (eventAt mask runId n .runStopped m (stopPayload reason detail)).canon.payload "stop_reason" =
      .str reason.text := by
  have hverbatim : str "stop_reason" ∈ VERBATIM_KEYS := by decide
  have hfirst : getOrNull (redactFields mask (stopPayload reason detail).fields) "stop_reason" =
      .str reason.text := by
    rw [stopPayload, redactFields, if_pos hverbatim]
    rfl
  rw [Event.canon, getOrNull_canon]
  show (getOrNull (redactFields mask (stopPayload reason detail).fields) "stop_reason").canon = _
  rw [hfirst, Json.canon]

/-- What a stop that was written in full makes of the file. -/
theorem seals_of_written {front : List Event} {back : List Record} {second : SealCall}
    {reason : Str} {wrote : Bool} (hsecond : second.Admitted runId)
    (h : EventLog.Written runId (front ++ [e]) (back ++ [r])) (hk : e.kind = .runStopped)
    (hreason : getOrNull e.canon.payload "stop_reason" = .str reason)
    (hwhole : whole <+: back ++ [r])
    (hseal : sealLostRun rt mask runId call file =
      (.ok (reason, wrote), some (utf8 (logText (back ++ [r]))))) :
    Seals rt mask floatGreater runId whole call second file := by
  obtain ⟨report, recordedAt, hreport, -, hstop, hfinished⟩ :=
    h.inspectRun_stopped rt floatGreater hk
  obtain ⟨again, hagain, hresult⟩ := sealLostRun_stopped rt mask hsecond h hk
    (openSink_logText _) rfl
  obtain rfl : reason = again := Json.str.inj (hreason.symm.trans hagain)
  obtain ⟨more, hmore⟩ := hwhole
  refine ⟨reason, wrote, _, report, recordedAt, more.map Record.readFields, hseal, ?_, ?_, hreport,
    hstop.trans hreason, hfinished, hresult⟩
  · rw [← hmore, logText_append, utf8_append]
    exact List.prefix_append _ _
  · rw [recordsOf_written h rfl, ← hmore, List.map_append]

/-- The events of the whole records: one of them is a stop, or none is. -/
theorem isKind_whole (h : EventLog.Written runId events whole) :
    (∃ r ∈ whole, isKind .runStopped r.fields = true) ↔ ∃ e ∈ events, e.kind = .runStopped := by
  constructor
  · rintro ⟨r, hr, hkind⟩
    obtain ⟨e, he, hrecord⟩ := exists_of_forall₂_right h.ofEvents r hr
    exact ⟨e, he, (EventLog.isKind_reads hrecord.reads).mp hkind⟩
  · rintro ⟨e, he, hkind⟩
    obtain ⟨r, hr, hrecord⟩ := exists_of_forall₂_left h.ofEvents e he
    exact ⟨r, hr, (EventLog.isKind_reads hrecord.reads).mpr hkind⟩

section
variable {reason : StopReason} {after : Option Bytes} {front : List Event} {back : List Record}
  {m : ℕ} (hstop : Stopped mask runId call reason whole after front back m)
  (hnamed : isRunId runId = true) (hparent : mask.text (str "cli_parent") = str "cli_parent")
  (hdetail : encodable (mask.text call.detail) = true)

include hstop hnamed hparent hdetail

/-- A stop whose detail holds no line break is the last event of a history. -/
theorem Stopped.written_stop
    (hbreak : Json.noneOf Json.isWideBreak (mask.text call.detail) = true) :
    EventLog.Written runId
      (front ++ [eventAt mask runId front.length .runStopped m (stopPayload reason call.detail)])
      (back ++ [call.stopRecord mask runId reason back.length m]) := by
  refine hstop.written.concat (admits_stop (runId_ne_nil hnamed) hstop.nonempty hstop.going) ?_
    ((writable_stopRecord hnamed hparent).mpr ⟨hstop.fits.2, hstop.fits.1, hdetail⟩)
    ((breakFree_stopRecord hnamed hparent).trans hbreak)
  rw [← hstop.written.length_eq]
  exact ⟨_, rfl⟩

/-- A line break in the detail makes the whole log unreadable. -/
theorem Stopped.unread (hbreak : Json.noneOf Json.isWideBreak (mask.text call.detail) = false) :
    ∃ e, recordsOf runId after = .error e := by
  have hunread := readJsonl_logText_break
    (List.forall_mem_append.mpr ⟨hstop.written.writable, List.forall_mem_singleton.mpr
      ((writable_stopRecord hnamed hparent).mpr ⟨hstop.fits.2, hstop.fits.1, hdetail⟩)⟩)
    ⟨call.stopRecord mask runId reason back.length m, List.mem_append_right _ List.mem_cons_self,
      (breakFree_stopRecord hnamed hparent).trans hbreak⟩
  rw [hstop.file, recordsOf, hunread]
  exact ⟨_, rfl⟩

end

section
variable {second : SealCall} (h : EventLog.Written runId events whole)
  (hparent : mask.text (str "cli_parent") = str "cli_parent")
  (hopen : openSink file = (.ok (), kept)) (hkept : kept.getD [] = utf8 (logText whole))

include h hparent hopen hkept

/-- What was sealed could be stopped. -/
theorem canStop_of_seals (hseals : Seals rt mask floatGreater runId whole call second file) :
    CanStop mask call whole := by
  obtain ⟨reason, wrote, after, _, _, _, hseal, -, hrecords, -⟩ := hseals
  have hcall := Admitted.of_ok hseal
  by_cases hstopped : ∃ e ∈ events, e.kind = .runStopped
  · exact .inl ((isKind_whole h).mpr hstopped)
  · have hgoing : ∀ e ∈ events, e.kind ≠ .runStopped := fun e he hk ↦ hstopped ⟨e, he, hk⟩
    obtain ⟨known, -, heq⟩ :=
      sealLostRun_going rt mask hcall h hgoing hopen hkept
    rw [heq] at hseal
    obtain ⟨⟨⟩, _, hafter, hreturn⟩ := Eff.bind_eq_ok.mp hseal
    obtain ⟨-, rfl⟩ := Eff.pure_eq_ok.mp hreturn
    obtain ⟨⟨hnumber, hdetail, hfresh⟩, front, back, m, hstop⟩ :=
      appendStop_eq_ok hcall.named hparent h hgoing hkept hafter
    refine .inr ⟨hdetail, ?_, hnumber, hfresh⟩
    -- a line break in the detail would have made the whole log unreadable
    by_contra hbreak
    obtain ⟨error, hunread⟩ :=
      hstop.unread hcall.named hparent hdetail (Bool.eq_false_iff.mpr hbreak)
    rw [hunread] at hrecords
    cases hrecords

/-- What can be stopped is sealed. -/
theorem seals_of_canStop (hcall : call.Admitted runId) (hsecond : second.Admitted runId)
    (hcan : CanStop mask call whole) : Seals rt mask floatGreater runId whole call second file := by
  by_cases hstopped : ∃ e ∈ events, e.kind = .runStopped
  · obtain ⟨e, he, hk⟩ := hstopped
    obtain ⟨front, back, r, rfl, rfl⟩ := h.ends he hk
    obtain ⟨reason, hreason, hresult⟩ :=
      sealLostRun_stopped rt mask hcall h hk hopen hkept
    have hsome : kept = some (utf8 (logText (back ++ [r]))) := by
      cases kept with
      | none => exact absurd (utf8_logText_eq_nil hkept.symm) (by simp)
      | some bytes => exact congrArg some hkept
    rw [hsome] at hresult
    exact seals_of_written hsecond h hk hreason List.prefix_rfl hresult
  · have hgoing : ∀ e ∈ events, e.kind ≠ .runStopped := fun e he hk ↦ hstopped ⟨e, he, hk⟩
    obtain ⟨hdetail, hbreak, hnumber, hfresh⟩ :=
      hcan.resolve_left fun hs ↦ hstopped ((isKind_whole h).mp hs)
    obtain ⟨reason, hreason, heq⟩ :=
      sealLostRun_going rt mask hcall h hgoing hopen hkept
    obtain ⟨after, hafter⟩ := appendStop_ok rt hcall.named hparent reason h hkept
      ⟨hnumber, hdetail, hfresh⟩
    obtain ⟨-, front, back, m, hstop⟩ :=
      appendStop_eq_ok hcall.named hparent h hgoing hkept hafter
    have hwritten := hstop.written_stop hcall.named hparent hdetail hbreak
    have hresult : sealLostRun rt mask runId call file = (.ok (reason.text, true),
        some (utf8 (logText (back ++ [call.stopRecord mask runId reason back.length m])))) := by
      rw [heq, Eff.bind_of_ok hafter, hstop.file, hreason]
      rfl
    exact seals_of_written hsecond hwritten rfl getOrNull_stop
      (hstop.kept.trans (List.prefix_append _ _)) hresult

end

theorem holdsAnother_other {values : List Json}
    (h : ∃ v ∈ values, ∀ fields, v = .obj fields → isOf runId fields = false) :
    holdsAnother runId values = .ok true ∨ holdsAnother runId values = .error attributeError := by
  induction values with
  | nil => exact absurd h (by simp)
  | cons v rest ih =>
    cases v with
    | obj fields =>
      rw [holdsAnother]
      split_ifs with hof
      · refine ih ?_
        obtain ⟨v, hv, hother⟩ := h
        rcases List.mem_cons.mp hv with rfl | hv
        · exact absurd hof (by rw [hother fields rfl]; exact Bool.false_ne_true)
        · exact ⟨v, hv, hother⟩
      · exact .inl rfl
    | _ => exact .inr rfl

variable (rt mask) in
/-- A call that is not let through raises, and the file is what it was. -/
theorem sealLostRun_refused (hcall : ¬ call.Admitted runId) : ∃ e,
    sealLostRun rt mask runId call file = (.error e, file) ∧
      (e = .valueError ∨ call.writerLock = .error e ∨ call.runLock = .error e) := by
  rw [sealLostRun]
  cases hfind : STOP_REASONS.find? fun reason ↦ reason.text = call.stopReason with
  | none => exact ⟨_, rfl, .inl rfl⟩
  | some reason =>
    dsimp only
    rw [Eff.ofExcept_bind_run]
    cases hwriter : call.writerLock with
    | error e => exact ⟨e, rfl, .inr (.inl rfl)⟩
    | ok _ =>
      dsimp only
      split_ifs with hnamed
      · exact ⟨_, rfl, .inl rfl⟩
      · rw [Eff.ofExcept_bind_run]
        cases hrun : call.runLock with
        | error e => exact ⟨e, rfl, .inr (.inr rfl)⟩
        | ok _ =>
          have hfound := List.find?_some hfind
          exact absurd ⟨⟨reason, of_decide_eq_true hfound⟩, Bool.eq_true_of_not_eq_false hnamed,
            hwriter, hrun⟩ hcall

variable (rt mask) in
/-- A call that is let through asks what the file holds. -/
theorem sealLostRun_admitted (hcall : call.Admitted runId) (hopen : openSink file = (.ok (), kept))
    {values : List Json} (hpresent : presentIn kept = .ok values) :
    (holdsAnother runId values = .ok true →
      sealLostRun rt mask runId call file = (.error eventLogInUse, kept)) ∧
    ∀ e, holdsAnother runId values = .error e →
      sealLostRun rt mask runId call file = (.error e, kept) := by
  obtain ⟨_, -, heq⟩ := sealLostRun_opened rt mask hcall hopen hpresent
  refine ⟨fun hother ↦ ?_, fun e hother ↦ ?_⟩
  · rw [heq, hother]
    rfl
  · rw [heq, hother]
    rfl

/-- **Where a record of another run is found, nothing is appended.** -/
theorem refuses_another {values : List Json} (hopen : openSink file = (.ok (), kept))
    (hpresent : presentIn kept = .ok values)
    (h : ∃ v ∈ values, ∀ fields, v = .obj fields → isOf runId fields = false) :
    ∃ e after, sealLostRun rt mask runId call file = (.error e, after) ∧
      (after = file ∨ after = kept) := by
  by_cases hcall : call.Admitted runId
  · have hseal := sealLostRun_admitted rt mask hcall hopen hpresent
    rcases holdsAnother_other h with hother | hother
    · exact ⟨_, kept, hseal.1 hother, .inr rfl⟩
    · exact ⟨_, kept, hseal.2 _ hother, .inr rfl⟩
  · obtain ⟨e, he, -⟩ := sealLostRun_refused rt mask hcall
    exact ⟨e, file, he, .inl rfl⟩

/-- **Sealing does what it is to do exactly when both calls are let through and the parent has
nothing to write, or can write what it has so that it is read.**  And where a record of another run
is found, it raises and appends nothing. -/
theorem seals_iff (rt : Runtime) (mask : Masking) (floatGreater : Json → Json → Bool) (runId : Str)
    (hparent : mask.text (str "cli_parent") = str "cli_parent") :
    (∀ (events : List Event) (records : List Record) (k : ℕ) (file : Option Bytes)
        (first second : SealCall), EventLog.Written runId events records →
        file.getD [] = (utf8 (logText records)).take k →
        (Seals rt mask floatGreater runId (wholeRecords records k) first second file ↔
          first.Admitted runId ∧ second.Admitted runId ∧
            CanStop mask first (wholeRecords records k))) ∧
    ∀ (call : SealCall) (file kept : Option Bytes) (values : List Json),
      JsonlSink.checkTail true file = .ok kept → presentIn kept = .ok values →
      (∃ v ∈ values, ∀ fields, v = .obj fields → isOf runId fields = false) →
      ∃ e after, sealLostRun rt mask runId call file = (.error e, after) ∧
        (after = file ∨ after = kept) := by
  constructor
  · intro events records k file first second h hfile
    obtain ⟨kept, hopen, hkept⟩ := openSink_cut hfile
    have hwhole := h.left (wholeRecords_isPrefix records k)
    constructor
    · intro hseals
      refine ⟨?_, ?_, canStop_of_seals hwhole hparent hopen hkept hseals⟩
      · obtain ⟨_, _, _, _, _, _, hseal, -⟩ := hseals
        exact Admitted.of_ok hseal
      · obtain ⟨_, _, _, _, _, _, -, -, -, -, -, -, hagain⟩ := hseals
        exact Admitted.of_ok hagain
    · rintro ⟨hfirst, hsecond, hcan⟩
      exact seals_of_canStop hwhole hparent hopen hkept hfirst hsecond hcan
  · intro call file kept values hcut hpresent hother
    refine refuses_another ?_ hpresent hother
    rw [openSink, Eff.read_bind_run, hcut]
    rfl

theorem printable_midnight : Json.printable (str "2026-01-01T00:00:00+00:00") = true := by decide

theorem printable_later : Json.printable (str "2026-01-01T00:00:01+00:00") = true := by decide

/-- A call for a run that was lost at its deadline. -/
def lostCall (task : Str) : SealCall where
  stopReason := str "budget_exhausted"
  detail := str "wall_seconds"
  task := task
  maxIterations := 2
  writerLock := .ok ()
  runLock := .ok ()
  startedAt := ⟨str "2026-01-01T00:00:00+00:00", printable_midnight⟩
  stoppedAt := ⟨str "2026-01-01T00:00:01+00:00", printable_later⟩

theorem lostCall_admitted (task : Str) : (lostCall task).Admitted (str "r") where
  known := ⟨.budgetExhausted, rfl⟩
  named := by decide
  writer := rfl
  run := rfl

theorem written_nothing : EventLog.Written (str "r") [] [] :=
  ⟨grown_nil, .nil, nofun, nofun⟩

/-- A worker that was killed before it wrote anything, and a task with a byte that is not UTF-8, as
`sys.argv` has it. -/
theorem lostTask_unsealed : EventLog.Written (str "r") [] [] ∧
    ¬ Seals asciiRuntime noMasking (fun _ _ ↦ false) (str "r") [] (lostCall [0xDCFF])
      (lostCall [0xDCFF]) none := by
  have hraises : (sealLostRun asciiRuntime noMasking (str "r") (lostCall [0xDCFF]) none).1.isOk =
      false := by decide
  refine ⟨written_nothing, ?_⟩
  rintro ⟨_, _, _, _, _, _, hseal, -⟩
  rw [hseal] at hraises
  cases hraises

/-- What a worker wrote until it was killed. -/
def killedEvents : List Event :=
  [⟨str "r", 0, .runStarted, 0, none, []⟩,
    ⟨str "r", 1, .callStarted, 0, some (str "r:1"), [(str "call_kind", .str (str "observe"))]⟩]

theorem wf_emptyPayload : (Json.obj []).WF := by decide

theorem wf_observeCall : (Json.obj [(str "call_kind", .str (str "observe"))]).WF := by decide

/-- Its log: the run started, and was observing when it was killed. -/
def killedLog : List Record :=
  [Event.record ⟨str "r", 0, .runStarted, 0, none, []⟩ (str "2026-01-01") wf_emptyPayload,
    Event.record
      ⟨str "r", 1, .callStarted, 0, some (str "r:1"), [(str "call_kind", .str (str "observe"))]⟩
      (str "2026-01-01") wf_observeCall]

/-- A record of another run, which is not in the way of sealing this one. -/
def otherRecord : Record :=
    ⟨[(str "run_id", .str (str "q"))], List.nodup_singleton _, trivial, trivial⟩

theorem killedLog_written : EventLog.Written (str "r") killedEvents killedLog where
  history := by
    refine grown_concat.mpr ⟨grown_concat.mpr ⟨grown_nil, ?_⟩, ?_⟩
    · exact ⟨⟨by decide, rfl, rfl, nofun, nofun⟩, iff_of_true rfl rfl, by decide, trivial⟩
    · exact ⟨⟨by decide, rfl, rfl, fun _ ↦ rfl, nofun⟩, iff_of_false (List.cons_ne_nil _ _) nofun,
        by decide, trivial⟩
  ofEvents := .cons ⟨_, rfl⟩ (.cons ⟨_, rfl⟩ .nil)
  writable := by decide
  breakFree := by decide

/-- The bytes of its first record, and of some of the second. -/
def killedAt : ℕ := (utf8 (logText (killedLog.take 1))).length + 9

/-- A worker that was killed inside a record, and a log of another run. -/
theorem seals_iff_lostCall :
    (wholeRecords killedLog killedAt = killedLog.take 1 ∧
      killedAt < (utf8 (logText killedLog)).length ∧
      Seals asciiRuntime noMasking (fun _ _ ↦ false) (str "r") (wholeRecords killedLog killedAt)
        (lostCall (str "t")) (lostCall (str "u"))
        (some ((utf8 (logText killedLog)).take killedAt))) ∧
    ∃ e after, sealLostRun asciiRuntime noMasking (str "r") (lostCall (str "t"))
      (some (utf8 (logText [otherRecord]))) = (.error e, after) ∧
        (after = some (utf8 (logText [otherRecord])) ∨
          after = some (utf8 (logText [otherRecord]))) := by
  have hread : presentIn (some (utf8 (logText [otherRecord]))) =
      .ok [.obj otherRecord.readFields] := by
    rw [presentIn, readJsonl_logText]
    · rfl
    · exact List.forall_mem_singleton.mpr ⟨by decide, by decide⟩
    · exact List.forall_mem_singleton.mpr (by decide)
  constructor
  · have hwhole : wholeRecords killedLog killedAt = killedLog.take 1 := by
      rw [killedLog, wholeRecords, if_pos (by decide +kernel), wholeRecords,
        if_neg (by decide +kernel)]
      rfl
    refine ⟨hwhole, by decide +kernel, ?_⟩
    have hcut : (some ((utf8 (logText killedLog)).take killedAt)).getD [] =
        (utf8 (logText killedLog)).take killedAt := Option.getD_some
    refine ((seals_iff asciiRuntime noMasking (fun _ _ ↦ false) (str "r") rfl).1 killedEvents
      killedLog killedAt _ (lostCall (str "t")) (lostCall (str "u")) killedLog_written hcut).mpr
      ⟨lostCall_admitted _, lostCall_admitted _, .inr ⟨by decide, by decide, ?_, ?_⟩⟩
    · rw [hwhole]
      decide
    · rw [hwhole]
      exact fun h ↦ absurd h (List.cons_ne_nil _ _)
  · refine (seals_iff asciiRuntime noMasking (fun _ _ ↦ false) (str "r") rfl).2
      (lostCall (str "t")) _ _ _ ?_ hread ⟨_, List.mem_cons_self, fun fields h ↦ ?_⟩
    · exact checkTail_logText [otherRecord]
    · rw [← Json.obj.inj h]
      decide

end HostApi

end AtlasCore
