import AtlasCore.HostApi.Seal

/-!
# The parent of a worker

`_run_worker` starts the loop in a process of its own.  Of that process it gets what it printed and
its exit code, or learns that it was lost; the log is written by the process and read by others.

A run that was lost is sealed, so that the document of the parent and the log name the same stop.  A
document that was printed is returned as it is, if its parts agree with one another and with the
exit code.  Whether it agrees with the log is not asked.
-/

set_option autoImplicit false

namespace AtlasCore

open Py

namespace Cli

open Inspect HostApi

/-- `EXIT_CODES`: what a host process ends with, which tells a pass from a stop and a stop from a
failure. -/
def exitCode : StopReason → ℤ
  | .passed => 0
  | .insufficientEvidence | .blocked | .budgetExhausted | .maxIterations | .noProgress => 2
  | .approvalRequired => 3
  | .toolError => 1
  | .cancelled => 4

/-- How `run_bounded_process` ends, as its caller can tell: one case for each `except`, and one
where it returns. -/
inductive Ending where
  /-- `WorkerDeadlineExceeded`. -/
  | deadline
  /-- `WorkerOutputExceeded`, with the name of the stream. -/
  | outputExceeded (stream : Str)
  /-- `KeyboardInterrupt`. -/
  | interrupted
  /-- An `OSError` or a `RuntimeError`, with its text. -/
  | failed (message : Str)
  | returned (stdout : Bytes) (returncode : ℤ)

/-- What the parent makes of it: the document of the worker, a loss with its reason, or an exception
that nothing catches. -/
inductive Verdict where
  /-- A run document. -/
  | accepted (run : Fields)
  /-- `_worker_failure` is called. -/
  | lost (reason : StopReason) (detail : Str)
  /-- What no `except` names. -/
  | escaped (e : Exc)

/-- What taking a lock ends with, after up to two seconds. -/
inductive Hold where
  | taken
  | refused
  | osError

/-- The outcome as the caller has it: a lock is held, is refused, or the file of it cannot be
opened. -/
def Hold.result : Hold → Except Exc Unit
  | taken => .ok ()
  | refused => .error .resumeRefused
  | osError => .error .osError

/-- The arguments that the parent knows the run by. -/
structure Args where
  runId : Str
  task : Str
  maxIterations : ℤ

/-- What the parent meets when it seals: who holds the two locks, and what the clock says. -/
structure Surroundings where
  writerLock : Hold
  runLock : Hold
  startedAt : Timestamp
  stoppedAt : Timestamp

/-- A document that is returned: the one the worker printed, or one that the parent makes because
there is none. -/
inductive Document where
  /-- What the worker printed. -/
  | emitted (run : Fields)
  /-- The state that `_worker_failure` makes, with `event_log_unsealed` in it or without. -/
  | own (runId : Str) (reason : StopReason) (unsealed : Bool)

namespace Document

/-- Its `run_id`.  The worker's document may hold anything there, so this is a JSON value. -/
def runId : Document → Json
  | emitted run => getOrNull run "run_id"
  | own runId _ _ => .str runId

/-- Its `stop_reason`.  The worker's document may hold anything there, so this is a JSON value. -/
def stopReason : Document → Json
  | emitted run => getOrNull run "stop_reason"
  | own _ reason _ => .str reason.text

/-- Whether it says that the log is not sealed. -/
def saysUnsealed : Document → Bool
  | emitted run =>
    match getOrNull run "metadata" with
    | .obj metadata => (Json.lookup (str "event_log_unsealed") metadata).isSome
    | _ => false
  | own _ _ unsealed => unsealed

end Document

/-- What the parent ends with: a document, or the error that the log has a result which was not
printed. -/
inductive Outcome where
  | document (doc : Document)
  /-- `WorkerResultUnavailable`, with `logged_stop_reason`. -/
  | unavailable (logged : Str)

section
variable (rt : Runtime) (mask : Masking)
  -- the text of what the checks of the printed bytes raise
  (protocolText : Bytes → ℤ → Str)

/-- The checks of what was printed; every exception but the last kind is a `WorkerProtocolError`. -/
def accept (stdout : Bytes) (returncode : ℤ) : Except Exc Fields :=
  match decode stdout with
  | none => .error .valueError
  | some text =>
    match Json.decode rt.nesting text with
    | .error (.gaveUp .tooDeep) => .error .recursionError
    | .error _ => .error .valueError
    | .ok (.obj run) =>
      if isText (getOrNull run "schema") (str "atlas-run.v1") = false then .error .valueError
      else
        match getOrNull run "stop_reason" with
        | .str text =>
          match STOP_REASONS.find? fun reason ↦ reason.text = text with
          | none => .error .valueError
          | some reason =>
            if isText (getOrNull run "status") reason.status.text = false ∨
              returncode ≠ exitCode reason then .error .valueError
            else .ok run
        | .arr _ | .obj _ => .error .typeError
        | _ => .error .valueError
    | .ok _ => .error .valueError

/-- The `try` of `_run_worker`: every way in which the child can be lost is given a reason, and what
it printed counts only if it is a run document. -/
def Ending.verdict : Ending → Verdict
  | deadline => .lost .budgetExhausted (str "wall_seconds")
  | outputExceeded stream => .lost .budgetExhausted (str "worker_" ++ stream ++ str "_bytes")
  | interrupted => .lost .cancelled (str "user_interrupt")
  | failed message => .lost .toolError message
  | returned stdout returncode =>
    match accept rt stdout returncode with
    | .ok run => .accepted run
    | .error .recursionError => .escaped .recursionError
    | .error _ => .lost .toolError (protocolText stdout returncode)

/-- `except (ResumeRefused, EventLogInUse, InspectError, OSError, ValueError)`: the log could not be
sealed, which the document then says. -/
def isCaught (e : Exc) : Bool :=
  e ∈ [.resumeRefused, eventLogInUse, inspectError, .osError, .notAFile, .valueError,
    .unicodeEncodeError]

/-- The call of `seal_lost_run`: the reason of the loss, the first 512 characters of the detail, and
what the parent knows of the run. -/
def sealCall (args : Args) (around : Surroundings) (reason : StopReason)
    (detail : Str) : SealCall where
  stopReason := reason.text
  detail := detail.take 512
  task := args.task
  maxIterations := args.maxIterations
  writerLock := around.writerLock.result
  runLock := around.runLock.result
  startedAt := around.startedAt
  stoppedAt := around.stoppedAt

/-- `_worker_failure`, with an event log.  What the log already has is said to be unavailable; else
the run is sealed, and the document says if it was not. -/
def workerFailure (args : Args) (around : Surroundings) (reason : StopReason) (detail : Str) :
    FileM Outcome := do
  match ← Eff.attempt (sealLostRun rt mask args.runId (sealCall args around reason detail)) with
  | .ok (logged, false) => return .unavailable logged
  | .ok (_, true) => return .document (.own args.runId reason false)
  | .error e =>
    if isCaught e then return .document (.own args.runId reason true) else Eff.raise e

/-- `_run_worker`, from the end of the worker to the document that is printed. -/
def runWorker (args : Args) (around : Surroundings) (ending : Ending) : FileM Outcome :=
  match ending.verdict rt protocolText with
  | .accepted run => return .document (.emitted run)
  | .lost reason detail => workerFailure rt mask args around reason detail
  | .escaped e => Eff.raise e

end

/-! ## One terminal state

What a document says of the end of a run, what its log says, and that the two are one. -/

/-- The log, without a torn tail, holds one `run_stopped` of the run, with this reason. -/
def LoggedStop (runId : Str) (file : Option Bytes) (reason : Str) : Prop :=
  ∃ kept records stop payload, JsonlSink.checkTail true file = .ok kept ∧
    recordsOf runId kept = .ok records ∧ records.filter (isKind .runStopped) = [stop] ∧
    field stop "payload" = .ok (.obj payload) ∧ getOrNull payload "stop_reason" = .str reason

/-- The document is that of the run and names the logged stop, or says that the log is not sealed;
and it contradicts no stop of its run. -/
structure Agrees (runId : Str) (doc : Document) (file : Option Bytes) : Prop where
  names : (doc.runId = .str runId ∧ ∃ reason, doc.stopReason = .str reason ∧
    LoggedStop runId file reason) ∨ doc.saysUnsealed = true
  same : ∀ id logged, doc.runId = .str id → LoggedStop id file logged →
    doc.stopReason = .str logged

/-- What the claim of one terminal state asks of what the parent ended with, and of the log. -/
def OneState (rt : Runtime) (runId : Str) (ending : Ending) :
    Except Exc Outcome × Option Bytes → Prop
  | (.ok (.document doc), file) => Agrees runId doc file ∧
      (doc.stopReason = .str StopReason.passed.text → ∃ stdout returncode run,
        ending = .returned stdout returncode ∧ accept rt stdout returncode = .ok run ∧
          doc = .emitted run)
  | (.ok (.unavailable logged), file) => LoggedStop runId file logged
  | (.error _, _) => False

/-! ## When they do

The condition, said of what the worker printed, of the log it left and of the call that seals it. -/

/-- What is left of a log, without its torn tail: these events of a run, in these records. -/
def Leaves (owner : Str) (events : List Event) (whole : List Record) (file : Option Bytes) : Prop :=
  EventLog.Written owner events whole ∧
    ∃ kept, JsonlSink.checkTail true file = .ok kept ∧ kept.getD [] = utf8 (logText whole)

/-- A stop among the events says this reason. -/
def Says (events : List Event) (reason : Str) : Prop :=
  ∃ e ∈ events, e.kind = .runStopped ∧ getOrNull e.payload "stop_reason" = .str reason

/-- What was printed says no other stop than the log of this run does, if it is of this run. -/
def Consistent (owner : Str) (events : List Event) (run : Fields) : Prop :=
  getOrNull run "run_id" = .str owner → ∀ logged, Says events logged →
    getOrNull run "stop_reason" = .str logged

section
variable (rt : Runtime) (mask : Masking) (protocolText : Bytes → ℤ → Str) (args : Args)
  (around : Surroundings) (ending : Ending)

/-- On a log of the run: what was printed names the run and the stop that the worker logged, or says
that the log is not sealed and names no other stop.  Of a worker that was lost, what the parent can
append to a log without a stop can be read, and a parent that is kept out of the log has no other
reason than the stop that the worker logged. -/
def Meets (events : List Event) (whole : List Record) : Prop :=
  match ending.verdict rt protocolText with
  | .accepted run =>
    (getOrNull run "run_id" = .str args.runId ∧ ∃ reason,
      getOrNull run "stop_reason" = .str reason ∧ Says events reason) ∨
      (Document.emitted run).saysUnsealed = true ∧ Consistent args.runId events run
  | .lost reason detail =>
    let call := sealCall args around reason detail
    (call.Admitted args.runId → (∀ e ∈ events, e.kind ≠ .runStopped) →
      CanAppend mask call whole → Json.noneOf Json.isWideBreak (mask.text call.detail) = true) ∧
    (¬ call.Admitted args.runId → ∀ logged, Says events logged → logged = reason.text)
  | .escaped _ => False

/-- On a log of another run: what was printed says that the log is not sealed, and no other stop
than the log if it is of that run. -/
def MeetsOther (owner : Str) (events : List Event) : Prop :=
  match ending.verdict rt protocolText with
  | .accepted run => (Document.emitted run).saysUnsealed = true ∧ Consistent owner events run
  | .lost _ _ => True
  | .escaped _ => False

end

variable {rt : Runtime} {mask : Masking} {protocolText : Bytes → ℤ → Str} {args : Args}
  {around : Surroundings} {ending : Ending} {owner id : Str} {events : List Event}
  {whole : List Record} {file : Option Bytes} {reason : Str} {front : List Event} {e : Event}

/-! ## The stop of a log

A log that has ended says so once, and what it says is the reason that the parent meets. -/

theorem canon_eq_str {v : Json} : v.canon = .str reason ↔ v = .str reason := by
  cases v <;> simp [Json.canon]

theorem reason_canon : getOrNull e.canon.payload "stop_reason" = .str reason ↔
    getOrNull e.payload "stop_reason" = .str reason := by
  rw [Event.canon, getOrNull_canon, canon_eq_str]

/-- The one stop of a history that ends with it. -/
theorem says_concat (h : EventLog.Written owner (front ++ [e]) whole) (hk : e.kind = .runStopped) :
    Says (front ++ [e]) reason ↔ getOrNull e.payload "stop_reason" = .str reason := by
  constructor
  · rintro ⟨stop, hstop, hkind, hreason⟩
    obtain ⟨_, _, _, hevents, -⟩ := h.ends hstop hkind
    obtain ⟨-, hlast⟩ := List.append_inj' hevents rfl
    rwa [List.singleton_inj.mp hlast]
  · exact fun hreason ↦ ⟨e, List.mem_append_right _ List.mem_cons_self, hk, hreason⟩

/-- **The stop that is read is the one that was written.** -/
theorem loggedStop_iff (h : Leaves owner events whole file) :
    LoggedStop owner file reason ↔ Says events reason := by
  obtain ⟨hwritten, kept, hcut, hkept⟩ := h
  have hrecords := recordsOf_written hwritten hkept
  by_cases hstopped : ∃ e ∈ events, e.kind = .runStopped
  · obtain ⟨e, he, hk⟩ := hstopped
    obtain ⟨front, back, r, rfl, rfl⟩ := hwritten.ends he hk
    have hstops := hwritten.filter_stopped hk
    have hpayload := EventLog.field_payload_reads (EventLog.reads_readFields hwritten.last.2)
    rw [says_concat hwritten hk, ← reason_canon]
    constructor
    · rintro ⟨kept', records, stop, payload, hcut', hrecords', hstop, hfield, hreason⟩
      obtain rfl := Except.ok.inj (hcut'.symm.trans hcut)
      obtain rfl := Except.ok.inj (hrecords'.symm.trans hrecords)
      obtain rfl := List.singleton_inj.mp (hstop.symm.trans hstops)
      obtain rfl := Json.obj.inj (Except.ok.inj (hfield.symm.trans hpayload))
      exact hreason
    · exact fun hreason ↦ ⟨kept, _, _, _, hcut, hrecords, hstops, hpayload, hreason⟩
  · have hgoing : ∀ e ∈ events, e.kind ≠ .runStopped := fun e he hk ↦ hstopped ⟨e, he, hk⟩
    constructor
    · rintro ⟨kept', records, stop, payload, hcut', hrecords', hstop, -⟩
      obtain rfl := Except.ok.inj (hcut'.symm.trans hcut)
      obtain rfl := Except.ok.inj (hrecords'.symm.trans hrecords)
      rw [hwritten.filter_going hgoing] at hstop
      cases hstop
    · rintro ⟨e, he, hk, -⟩
      exact absurd hk (hgoing e he)

/-- Of another run, a log holds no stop. -/
theorem not_loggedStop (h : Leaves owner events whole file) (hid : id ≠ owner) :
    ¬ LoggedStop id file reason := by
  rintro ⟨kept', records, stop, payload, hcut', hrecords', hstop, -⟩
  obtain ⟨hwritten, kept, hcut, hkept⟩ := h
  obtain rfl := Except.ok.inj (hcut'.symm.trans hcut)
  obtain rfl := Except.ok.inj (hrecords'.symm.trans (recordsOf_other hwritten hkept hid))
  cases hstop

/-- A history has one stop. -/
theorem Says.unique {other : Str} (h : EventLog.Written owner events whole)
    (hreason : Says events reason) (hother : Says events other) : reason = other := by
  obtain ⟨e, he, hk, -⟩ := id hreason
  obtain ⟨front, _, _, rfl, -⟩ := h.ends he hk
  exact Json.str.inj (((says_concat h hk).mp hreason).symm.trans ((says_concat h hk).mp hother))

/-! ## What a document is compared with

A document and a stop of the log can contradict each other only if they are of the same run. -/

section
variable (h : Leaves owner events whole file)

include h

/-- A document contradicts a stop of its run only if its run is that of the log. -/
theorem same_iff {doc : Document} :
    (∀ id logged, doc.runId = .str id → LoggedStop id file logged → doc.stopReason = .str logged) ↔
      (doc.runId = .str owner → ∀ logged, Says events logged → doc.stopReason = .str logged) := by
  constructor
  · exact fun hsame hrun logged hsays ↦ hsame owner logged hrun ((loggedStop_iff h).mpr hsays)
  · intro hsame id logged hrun hlogged
    by_cases hid : id = owner
    · subst hid
      exact hsame hrun logged ((loggedStop_iff h).mp hlogged)
    · exact absurd hlogged (not_loggedStop h hid)

theorem agrees_own_iff {doc : Document} : Agrees owner doc file ↔
    (doc.runId = .str owner ∧ ∃ reason, doc.stopReason = .str reason ∧ Says events reason) ∨
      doc.saysUnsealed = true ∧
        (doc.runId = .str owner → ∀ logged, Says events logged → doc.stopReason = .str logged) := by
  constructor
  · rintro ⟨⟨hrun, reason, hstop, hlogged⟩ | hunsealed, hsame⟩
    · exact .inl ⟨hrun, reason, hstop, (loggedStop_iff h).mp hlogged⟩
    · exact .inr ⟨hunsealed, (same_iff h).mp hsame⟩
  · rintro (⟨hrun, reason, hstop, hsays⟩ | ⟨hunsealed, hsame⟩)
    · refine ⟨.inl ⟨hrun, reason, hstop, (loggedStop_iff h).mpr hsays⟩, (same_iff h).mpr ?_⟩
      intro _ logged hlogged
      rw [hstop, hsays.unique h.1 hlogged]
    · exact ⟨.inr hunsealed, (same_iff h).mpr hsame⟩

theorem agrees_other_iff {doc : Document} (hid : id ≠ owner) : Agrees id doc file ↔
    doc.saysUnsealed = true ∧
      (doc.runId = .str owner → ∀ logged, Says events logged → doc.stopReason = .str logged) := by
  constructor
  · rintro ⟨⟨-, _, -, hlogged⟩ | hunsealed, hsame⟩
    · exact absurd hlogged (not_loggedStop h hid)
    · exact ⟨hunsealed, (same_iff h).mp hsame⟩
  · exact fun ⟨hunsealed, hsame⟩ ↦ ⟨.inr hunsealed, (same_iff h).mpr hsame⟩

end

/-! ## What the parent does with a loss

One lemma for each way a lost run can go on: its log has an end, gets one, or cannot be given one.
-/

section
variable {detail logged : Str} {wrote : Bool} {after : Option Bytes} {reason : StopReason} {e : Exc}

theorem workerFailure_logged
    (h : sealLostRun rt mask args.runId (sealCall args around reason detail) file =
      (.ok (logged, false), after)) :
    workerFailure rt mask args around reason detail file = (.ok (.unavailable logged), after) := by
  rw [workerFailure, Eff.attempt_bind h]
  rfl

theorem workerFailure_sealed
    (h : sealLostRun rt mask args.runId (sealCall args around reason detail) file =
      (.ok (logged, true), after)) :
    workerFailure rt mask args around reason detail file =
      (.ok (.document (.own args.runId reason false)), after) := by
  rw [workerFailure, Eff.attempt_bind h]
  rfl

theorem workerFailure_unsealed
    (h : sealLostRun rt mask args.runId (sealCall args around reason detail) file =
      (.error e, after)) (he : isCaught e = true) :
    workerFailure rt mask args around reason detail file =
      (.ok (.document (.own args.runId reason true)), after) := by
  rw [workerFailure, Eff.attempt_bind h]
  dsimp only
  rw [if_pos he]
  rfl

end

theorem ne_passed_of_lost {reason : StopReason} {detail : Str}
    (h : ending.verdict rt protocolText = .lost reason detail) : reason ≠ .passed := by
  rintro rfl
  cases ending with
  | returned stdout returncode =>
    rw [Ending.verdict] at h
    split at h <;> cases h
  | _ => cases h

theorem returned_of_accepted {run : Fields}
    (h : ending.verdict rt protocolText = .accepted run) :
    ∃ stdout returncode, ending = .returned stdout returncode ∧
      accept rt stdout returncode = .ok run := by
  cases ending with
  | returned stdout returncode =>
    rw [Ending.verdict] at h
    split at h
    · rename_i run' haccept
      obtain rfl : run' = run := Verdict.accepted.inj h
      exact ⟨stdout, returncode, rfl, haccept⟩
    all_goals cases h
  | _ => cases h

/-- What keeps the parent out of the log is caught. -/
theorem isCaught_refused {reason : StopReason} {detail : Str} {e : Exc}
    (h : e = .valueError ∨ (sealCall args around reason detail).writerLock = .error e ∨
      (sealCall args around reason detail).runLock = .error e) : isCaught e = true := by
  have hhold : ∀ hold : Hold, hold.result = .error e → isCaught e = true := by
    intro hold hresult
    cases hold with
    | taken => cases hresult
    | refused | osError =>
      obtain rfl := Except.error.inj hresult
      decide
  rcases h with rfl | h | h
  · decide
  · exact hhold _ h
  · exact hhold _ h

/-- A log without a torn tail is left as it is. -/
theorem Leaves.of_whole {kept : Option Bytes} (h : EventLog.Written owner events whole)
    (hkept : kept.getD [] = utf8 (logText whole)) : Leaves owner events whole kept := by
  refine ⟨h, kept, ?_, hkept⟩
  cases kept with
  | none => rfl
  | some bytes =>
    rw [show bytes = utf8 (logText whole) from hkept]
    exact checkTail_logText whole

theorem Leaves.open (h : Leaves owner events whole file) : ∃ kept,
    openSink file = (.ok (), kept) ∧ kept.getD [] = utf8 (logText whole) ∧
      Leaves owner events whole kept := by
  obtain ⟨hwritten, kept, hcut, hkept⟩ := h
  refine ⟨kept, ?_, hkept, .of_whole hwritten hkept⟩
  rw [openSink, Eff.read_bind_run, hcut]
  rfl

section
variable {reason : StopReason} {detail : Str} {e : Event}

/-- What the parent says of its own is never `passed`. -/
theorem oneState_own_iff {unsealed : Bool} (hne : reason ≠ .passed) :
    OneState rt args.runId ending (.ok (.document (.own args.runId reason unsealed)), file) ↔
      Agrees args.runId (.own args.runId reason unsealed) file := by
  refine and_iff_left fun hpassed ↦ absurd (Json.str.inj hpassed) ?_
  cases reason <;> first | exact absurd rfl hne | decide

/-- The worker logged its stop, and the parent names it. -/
theorem oneState_logged (hcall : (sealCall args around reason detail).Admitted args.runId)
    (h : Leaves args.runId events whole file) (he : e ∈ events) (hk : e.kind = .runStopped) :
    OneState rt args.runId ending (workerFailure rt mask args around reason detail file) := by
  obtain ⟨kept, hopen, hkept, hleft⟩ := h.open
  obtain ⟨front, back, r, rfl, rfl⟩ := h.1.ends he hk
  obtain ⟨logged, hlogged, hseal⟩ := sealLostRun_stopped rt mask hcall h.1 hk hopen hkept
  rw [workerFailure_logged hseal]
  exact (loggedStop_iff hleft).mpr ((says_concat h.1 hk).mpr (reason_canon.mp hlogged))

/-- The parent is kept out of the log: what it says is to be what the log says. -/
theorem oneState_refused_iff (hcall : ¬ (sealCall args around reason detail).Admitted args.runId)
    (h : Leaves args.runId events whole file) (hne : reason ≠ .passed) :
    OneState rt args.runId ending (workerFailure rt mask args around reason detail file) ↔
      ∀ logged, Says events logged → logged = reason.text := by
  obtain ⟨e, hseal, herror⟩ := sealLostRun_refused rt mask hcall
  rw [workerFailure_unsealed hseal (isCaught_refused herror), oneState_own_iff hne,
    agrees_own_iff h]
  constructor
  · rintro (⟨-, own, hown, hsays⟩ | ⟨-, hsame⟩) logged hlogged
    · rw [hlogged.unique h.1 hsays]
      exact (Json.str.inj hown).symm
    · exact (Json.str.inj (hsame rfl logged hlogged)).symm
  · intro hsame
    exact .inr ⟨rfl, fun _ logged hlogged ↦ congrArg Json.str (hsame logged hlogged).symm⟩

section
variable (hparent : mask.text (str "cli_parent") = str "cli_parent")
  (hcall : (sealCall args around reason detail).Admitted args.runId)
  (h : Leaves args.runId events whole file) (hgoing : ∀ e ∈ events, e.kind ≠ .runStopped)
  (hne : reason ≠ .passed)

include hparent hcall h hgoing hne

/-- The parent appends the stop, which is read exactly when its detail holds no line break. -/
theorem oneState_appended_iff (hcan : CanAppend mask (sealCall args around reason detail) whole) :
    OneState rt args.runId ending (workerFailure rt mask args around reason detail file) ↔
      Json.noneOf Json.isWideBreak (mask.text (sealCall args around reason detail).detail) =
        true := by
  obtain ⟨kept, hopen, hkept, -⟩ := h.open
  obtain ⟨known, hknown, hseal⟩ := sealLostRun_going rt mask hcall h.1 hgoing hopen hkept
  obtain ⟨after, hafter⟩ := appendStop_ok rt hcall.named hparent known h.1 hkept hcan
  rw [Eff.bind_of_ok hafter] at hseal
  obtain ⟨-, front, back, m, hstop⟩ :=
    appendStop_eq_ok hcall.named hparent h.1 hgoing hkept hafter
  rw [workerFailure_sealed hseal, oneState_own_iff hne]
  constructor
  · rintro ⟨⟨-, _, -, kept', _, _, _, hcut, hrecords, -⟩ | hunsealed, -⟩
    · -- with a line break, nothing could be read of the log any more
      by_contra hbreak
      obtain ⟨error, hunread⟩ :=
        hstop.unread hcall.named hparent hcan.2.1 (Bool.eq_false_iff.mpr hbreak)
      rw [hstop.file, checkTail_logText] at hcut
      rw [← Except.ok.inj hcut, ← hstop.file, hunread] at hrecords
      cases hrecords
    · cases hunsealed
  · intro hbreak
    have hwritten := hstop.written_stop hcall.named hparent hcan.2.1 hbreak
    have hsealed := Leaves.of_whole hwritten (congrArg (Option.getD · []) hstop.file)
    refine (agrees_own_iff hsealed).mpr (.inl ⟨rfl, _, rfl, ?_⟩)
    refine (says_concat hwritten rfl).mpr (reason_canon.mp ?_)
    rw [getOrNull_stop, hknown]
    rfl

/-- The parent cannot append the stop, and says so. -/
theorem oneState_unappended (hcan : ¬ CanAppend mask (sealCall args around reason detail) whole) :
    OneState rt args.runId ending (workerFailure rt mask args around reason detail file) := by
  obtain ⟨kept, hopen, hkept, -⟩ := h.open
  obtain ⟨known, -, hseal⟩ := sealLostRun_going rt mask hcall h.1 hgoing hopen hkept
  have hraised := fun call : SealCall ↦
    (appendStop_raised rt hcall.named hparent known h.1 hgoing hkept : Eff.wp
      (appendStop rt mask args.runId call known (whole.map Record.readFields) whole.length) _ _
        kept)
  replace hraised := hraised (sealCall args around reason detail)
  rw [Eff.wp] at hraised
  rcases happend : appendStop rt mask args.runId (sealCall args around reason detail) known
    (whole.map Record.readFields) whole.length kept with ⟨error | ⟨⟩, after⟩
  · rw [happend] at hraised
    obtain ⟨herror, front, back, hwritten, hstill, hafter⟩ := hraised
    rw [Eff.bind_of_error happend] at hseal
    have hcaught : isCaught error = true := by
      rcases herror with rfl | rfl <;> decide
    rw [workerFailure_unsealed hseal hcaught, oneState_own_iff hne,
      agrees_own_iff (.of_whole hwritten hafter)]
    refine .inr ⟨rfl, ?_⟩
    rintro - logged ⟨e, he, hk, -⟩
    exact absurd hk (hstill e he)
  · exact absurd (appendStop_eq_ok hcall.named hparent h.1 hgoing hkept happend).1 hcan

end

/-- **After a loss, on the log of another run.** -/
theorem oneState_lost_other (h : Leaves owner events whole file) (hid : args.runId ≠ owner)
    (hevents : events ≠ []) (hne : reason ≠ .passed) :
    OneState rt args.runId ending (workerFailure rt mask args around reason detail file) := by
  have hunsealed : ∀ {error after}, Leaves owner events whole after → isCaught error = true →
      sealLostRun rt mask args.runId (sealCall args around reason detail) file =
        (.error error, after) →
      OneState rt args.runId ending (workerFailure rt mask args around reason detail file) := by
    intro error after hleft hcaught hseal
    rw [workerFailure_unsealed hseal hcaught, oneState_own_iff hne, agrees_other_iff hleft hid]
    exact ⟨rfl, fun hrun ↦ absurd (Json.str.inj hrun) hid⟩
  by_cases hcall : (sealCall args around reason detail).Admitted args.runId
  · obtain ⟨kept, hopen, hkept, hleft⟩ := h.open
    have hother : holdsAnother args.runId (whole.map fun r ↦ .obj r.readFields) = .ok true := by
      obtain ⟨r, rest, rfl⟩ : ∃ r rest, whole = r :: rest := by
        refine List.exists_cons_of_ne_nil fun hwhole ↦ hevents ?_
        rw [← List.length_eq_zero_iff, ← h.1.length_eq, hwhole, List.length_nil]
      rw [List.map_cons, holdsAnother, if_neg]
      intro hof
      have howner := isText_iff.mp (h.1.isOf r List.mem_cons_self)
      exact hid (Json.str.inj ((isText_iff.mp hof).symm.trans howner))
    have hseal := (sealLostRun_admitted rt mask hcall hopen (presentIn_written h.1 hkept)).1 hother
    exact hunsealed hleft (by decide) hseal
  · obtain ⟨e, hseal, herror⟩ := sealLostRun_refused rt mask hcall
    exact hunsealed h (isCaught_refused herror) hseal

end

/-- **The parent and the log name one stop exactly when what was printed does, and after a loss when
what the parent appends can be read, or it is kept out of a log that names no other stop.**  On a
log of another run, exactly when what was printed says that the log is not sealed. -/
theorem oneState_iff (rt : Runtime) (mask : Masking) (protocolText : Bytes → ℤ → Str) (args : Args)
    (hparent : mask.text (str "cli_parent") = str "cli_parent") :
    (∀ (around : Surroundings) (ending : Ending) (events : List Event) (whole : List Record)
        (file : Option Bytes), Leaves args.runId events whole file →
      (OneState rt args.runId ending
        (runWorker rt mask protocolText args around ending file) ↔
          Meets rt mask protocolText args around ending events whole)) ∧
    ∀ (around : Surroundings) (ending : Ending) (owner : Str) (events : List Event)
      (whole : List Record) (file : Option Bytes), args.runId ≠ owner → events ≠ [] →
      Leaves owner events whole file →
      (OneState rt args.runId ending (runWorker rt mask protocolText args around ending file) ↔
        MeetsOther rt protocolText ending owner events) := by
  constructor
  · intro around ending events whole file h
    rw [runWorker, Meets]
    cases hverdict : ending.verdict rt protocolText with
    | accepted run =>
      have hemitted := returned_of_accepted hverdict
      refine (and_iff_left fun _ ↦ ?_).trans (agrees_own_iff h)
      obtain ⟨stdout, returncode, hending, haccept⟩ := hemitted
      exact ⟨stdout, returncode, run, hending, haccept, rfl⟩
    | lost reason detail =>
      have hne := ne_passed_of_lost hverdict
      dsimp only
      by_cases hcall : (sealCall args around reason detail).Admitted args.runId
      · rw [and_iff_left fun hout ↦ absurd hcall hout]
        by_cases hstopped : ∃ e ∈ events, e.kind = .runStopped
        · obtain ⟨e, he, hk⟩ := hstopped
          exact iff_of_true (oneState_logged hcall h he hk)
            fun _ hgoing ↦ absurd hk (hgoing e he)
        · have hgoing : ∀ e ∈ events, e.kind ≠ .runStopped :=
            fun e he hk ↦ hstopped ⟨e, he, hk⟩
          by_cases hcan : CanAppend mask (sealCall args around reason detail) whole
          · rw [oneState_appended_iff hparent hcall h hgoing hne hcan]
            exact ⟨fun hbreak _ _ _ ↦ hbreak, fun hbreak ↦ hbreak hcall hgoing hcan⟩
          · exact iff_of_true (oneState_unappended hparent hcall h hgoing hne hcan)
              fun _ _ hcan' ↦ absurd hcan' hcan
      · rw [oneState_refused_iff hcall h hne]
        exact ⟨fun hsame ↦ ⟨fun hin ↦ absurd hin hcall, fun _ ↦ hsame⟩, fun hmeets ↦ hmeets.2 hcall⟩
    | escaped e => exact Iff.rfl
  · intro around ending owner events whole file hid hevents h
    rw [runWorker, MeetsOther]
    cases hverdict : ending.verdict rt protocolText with
    | accepted run =>
      refine (and_iff_left fun _ ↦ ?_).trans (agrees_other_iff h hid)
      obtain ⟨stdout, returncode, hending, haccept⟩ := returned_of_accepted hverdict
      exact ⟨stdout, returncode, run, hending, haccept, rfl⟩
    | lost reason detail =>
      exact iff_of_true (oneState_lost_other h hid hevents (ne_passed_of_lost hverdict)) trivial
    | escaped e => exact Iff.rfl

/-! ## A worker that prints

A worker whose document nests deeper than the reader follows, and one that prints what it should. -/

/-- What the parent knows of a run before it starts a worker for it. -/
def sampleArgs : Args where
  runId := str "r"
  task := str "t"
  maxIterations := 2

/-- Nobody holds a lock, and the clock has moved by a second. -/
def sampleSurroundings : Surroundings where
  writerLock := .taken
  runLock := .taken
  startedAt := ⟨str "2026-01-01T00:00:00+00:00", printable_midnight⟩
  stoppedAt := ⟨str "2026-01-01T00:00:01+00:00", printable_later⟩

theorem leaves_nothing (runId : Str) : Leaves runId [] [] none :=
  ⟨⟨grown_nil, .nil, nofun, nofun⟩, none, rfl, rfl⟩

/-- What a worker prints that does nothing but open lists. -/
def nestedOutput (n : ℕ) : Bytes := utf8 (List.replicate n (ch '['))

/-- What `json.loads` raises of it is no `ValueError`. -/
theorem accept_nestedOutput {n : ℕ} {returncode : ℤ} (h : rt.nesting < n) :
    accept rt (nestedOutput n) returncode = .error .recursionError := by
  have hencodable : encodable (List.replicate n (ch '[')) = true := by
    rw [encodable, List.all_eq_true]
    intro c hc
    rw [List.eq_of_mem_replicate hc]
    rfl
  rw [accept, nestedOutput, decode_utf8_self hencodable]
  dsimp only
  rw [Json.decode_brackets h]

/-- A worker that opens one list more than can be nested, and a log that nothing was written to: the
parent raises what none of its handlers names, and does not seal the run. -/
theorem nestedOutput_escapes : Leaves sampleArgs.runId [] [] none ∧
    ¬ OneState asciiRuntime sampleArgs.runId (.returned (nestedOutput 1001) 0)
      (runWorker asciiRuntime noMasking (fun _ _ ↦ []) sampleArgs sampleSurroundings
        (.returned (nestedOutput 1001) 0) none) := by
  have haccept : accept asciiRuntime (nestedOutput 1001) 0 = .error .recursionError :=
    accept_nestedOutput (Nat.lt_succ_self 1000)
  refine ⟨leaves_nothing _, ?_⟩
  rw [runWorker, Ending.verdict, haccept]
  exact id

theorem written_another : ∃ events whole, events ≠ [] ∧
    EventLog.Written (str "q") events whole := by
  obtain ⟨payload, hpayload⟩ : ∃ payload, startPayload (lostCall (str "t")) = .ok payload :=
    startPayload_ok (by decide)
  have hnamed : isRunId (str "q") = true := by decide
  have hparent : noMasking.text (str "cli_parent") = str "cli_parent" := rfl
  exact ⟨_, _, List.cons_ne_nil _ _, written_start hnamed hparent hpayload (by decide)⟩

/-- A worker that is killed at its deadline before it wrote anything, and one whose log is that of
another run. -/
theorem oneState_iff_killed :
    OneState asciiRuntime sampleArgs.runId .deadline
      (runWorker asciiRuntime noMasking (fun _ _ ↦ []) sampleArgs sampleSurroundings
        .deadline none) ∧
    ∃ events whole, events ≠ [] ∧ EventLog.Written (str "q") events whole ∧
      OneState asciiRuntime sampleArgs.runId .deadline
        (runWorker asciiRuntime noMasking (fun _ _ ↦ []) sampleArgs sampleSurroundings .deadline
          (some (utf8 (logText whole)))) := by
  have hdetail : Json.noneOf Json.isWideBreak (str "wall_seconds") = true := by decide
  have hmeets : Meets asciiRuntime noMasking (fun _ _ ↦ []) sampleArgs sampleSurroundings .deadline
      [] [] := by
    refine ⟨fun _ _ _ ↦ hdetail, ?_⟩
    rintro - logged ⟨e, he, -⟩
    cases he
  obtain ⟨events, whole, hne, hother⟩ := written_another
  have hid : sampleArgs.runId ≠ str "q" := by decide
  constructor
  · have hiff := (oneState_iff asciiRuntime noMasking (fun _ _ ↦ []) sampleArgs rfl).1
      sampleSurroundings .deadline [] [] none (leaves_nothing _)
    rw [hiff]
    exact hmeets
  · refine ⟨events, whole, hne, hother, ?_⟩
    have hiff := (oneState_iff asciiRuntime noMasking (fun _ _ ↦ []) sampleArgs rfl).2
      sampleSurroundings .deadline (str "q") events whole (some (utf8 (logText whole))) hid hne
      (.of_whole hother rfl)
    rw [hiff]
    trivial

end Cli

end AtlasCore
