import AtlasCore.EventLog.Inspect
import AtlasCore.HostApi.Observers

/-!
# One status document

`run_status` reads the log twice: for the kind of the last record, and again, in `inspect_run`, for
everything else it says of the run.  What is appended between the two is in the second reading
only.

A document describes one moment if it is the one that two readings of the same file would have made.
What the two readings were is not seen in it; `oneMoment_iff` says when it is so nevertheless.
-/

set_option autoImplicit false

namespace AtlasCore

open Py

namespace HostApi

open Inspect

/-- A character of `_RUN_ID` that may come first. -/
def isRunIdStart (c : CodePoint) : Bool :=
  (ch 'A' ≤ c && c ≤ ch 'Z') || (ch 'a' ≤ c && c ≤ ch 'z') || (ch '0' ≤ c && c ≤ ch '9')

/-- `_RUN_ID.fullmatch(run_id)`: a letter or a digit, and up to 127 more of these or of four signs.
-/
def isRunId : Str → Bool
  | [] => false
  | c :: rest =>
    isRunIdStart c && rest.all (fun d ↦ isRunIdStart d || (str "._:-").contains d) &&
      rest.length ≤ 127

/-- `_records`, of the file as it is when it is read; `none` if it does not exist. -/
def recordsOf (runId : Str) : Option Bytes → Except Exc (List Fields)
  | none => .ok []
  | some bytes =>
    match readJsonl bytes with
    | .error _ => .error .valueError
    | .ok values =>
      match objects values with
      | none => .error attributeError
      | some all => .ok (all.filter (isOf runId))

/-- `records[-1]["kind"] if records else None`: what the log says last of the run. -/
def lastKind (records : List Fields) : Except Exc Json :=
  match records.getLast? with
  | none => .ok .null
  | some record => field record "kind"

/-- The status document: the state, and what the report has of the run. -/
structure StatusDocument where
  runId : Str
  state : StatusState
  status : Json
  stopReason : Json
  iteration : Json
  eventCount : ℕ
  lastEventKind : Json
  cancelRequested : Bool

/-- What of a report decides the state: whether it has a time at which the run finished. -/
def verdictOf (report : Inspection) : Report := ⟨report.finishedAt.any fun at_ ↦ !isNull at_⟩

section
variable (rt : Runtime) (floatGreater : Json → Json → Bool)

/-- The document, from the report, if there is one, and the kind of the last record. -/
def documentOf (runId : Str) (running cancelRequested : Bool) (report : Option Inspection)
    (kind : Json) : StatusDocument :=
  let state := statusState running (report.map verdictOf)
  { runId := runId
    state := state
    status := if state = .finished then (report.map (·.status)).getD .null else .null
    stopReason := (report.map (·.stopReason)).getD .null
    iteration := (report.map (·.iterations)).getD (.int 0)
    eventCount := (report.map (·.eventCount)).getD 0
    lastEventKind := kind
    cancelRequested := cancelRequested }

/-- `inspect_run(log_path, run_id) if records else None`: a run without records has no report. -/
def reportIf (runId : Str) (records : List Fields) (file : Option Bytes) :
    Except Exc (Option Inspection) :=
  if records = [] then .ok none else some <$> Inspect.inspectRun rt floatGreater runId file

/-- `run_status`: `first` is the file when `_records` reads it, `second` when `inspect_run` does. -/
def runStatus (runId : Str) (running cancelRequested : Bool) (first second : Option Bytes) :
    Except Exc StatusDocument :=
  if isRunId runId = false then .error .valueError
  else do
    let records ← recordsOf runId first
    let report ← reportIf rt floatGreater runId records second
    let kind ← lastKind records
    return documentOf runId running cancelRequested report kind

/-! ## One moment

The parts of a status are read one after the other, and are to be true at one time. -/

/-- The file at one time and at a later one. -/
def Grew : Option Bytes → Option Bytes → Prop
  | none, _ => True
  | some _, none => False
  | some a, some b => a <+: b

/-- What the document says is what the log held at one moment, of which `final` is what became. -/
structure OneMoment (runId : Str) (running cancelRequested : Bool) (final : Option Bytes)
    (doc : StatusDocument) : Prop where
  /-- It is the document of one beginning of the log, and counts the records it ends with. -/
  moment : ∃ file records, Grew file final ∧
    runStatus rt floatGreater runId running cancelRequested file file = .ok doc ∧
    recordsOf runId file = .ok records ∧ doc.eventCount = records.length ∧
    lastKind records = .ok doc.lastEventKind
  finished_iff : doc.state = .finished ↔ doc.lastEventKind = .str (str "run_stopped")
  stopReason_iff : doc.stopReason ≠ .null ↔ doc.state = .finished

/-- The condition: the first reading found nothing of the run, or nothing that the second reading
finds changes the last kind, and a stop it finds has a time. -/
def SameEnd (runId : Str) (first second : Option Bytes) : Prop :=
  recordsOf runId first = .ok [] ∨
    ∃ a b last, recordsOf runId first = .ok a ∧ recordsOf runId second = .ok b ∧
      lastKind a = lastKind b ∧ b.getLast? = some last ∧
      (isKind .runStopped last = true → getOrNull last "recorded_at" ≠ .null)

/-! ## The two readings

The lock is asked before the file is read, so the file may have grown in between. -/

section

variable {rt floatGreater} {runId : Str} {running cancelRequested : Bool}
  {first second final : Option Bytes} {doc : StatusDocument}

theorem recordsOf_some {bytes : Bytes} {records : List Fields}
    (h : recordsOf runId (some bytes) = .ok records) : ∃ values all, readJsonl bytes = .ok values ∧
      objects values = some all ∧ records = all.filter (isOf runId) := by
  rw [recordsOf] at h
  split at h
  · cases h
  · rename_i values hvalues
    split at h
    · cases h
    · rename_i all hall
      exact ⟨values, all, hvalues, hall, (Except.ok.inj h).symm⟩

theorem prefix_of_recordsOf_some {a b : Bytes} (h : a <+: b) {xs ys : List Fields}
    (hxs : recordsOf runId (some a) = .ok xs) (hys : recordsOf runId (some b) = .ok ys) :
    xs <+: ys := by
  obtain ⟨values, all, hvalues, hall, rfl⟩ := recordsOf_some hxs
  obtain ⟨values', all', hvalues', hall', rfl⟩ := recordsOf_some hys
  exact (objects_grows (readJsonl_grows h hvalues hvalues') hall hall').filter _

/-- Of two moments of a log, the records of one are the first records of the other. -/
theorem prefix_of_recordsOf {a b : Option Bytes} (ha : Grew a final) (hb : Grew b final)
    {xs ys : List Fields} (hxs : recordsOf runId a = .ok xs) (hys : recordsOf runId b = .ok ys) :
    xs <+: ys ∨ ys <+: xs := by
  match a, b, final with
  | none, _, _ =>
    obtain rfl := Except.ok.inj hxs
    exact .inl List.nil_prefix
  | some _, none, _ =>
    obtain rfl := Except.ok.inj hys
    exact .inr List.nil_prefix
  | some a, some b, some c =>
    rcases List.prefix_or_prefix_of_prefix (show a <+: c from ha) (show b <+: c from hb) with h | h
    · exact .inl (prefix_of_recordsOf_some h hxs hys)
    · exact .inr (prefix_of_recordsOf_some h hys hxs)
  | some _, some _, none => exact absurd ha id

/-- `inspect_run` reports on the records that `_records` would have found. -/
theorem inspectRun_eq_ok {report : Inspection}
    (h : Inspect.inspectRun rt floatGreater runId second = .ok report) :
    ∃ records, recordsOf runId second = .ok records ∧ records ≠ [] ∧
      reportOn rt floatGreater runId records = .ok report := by
  rw [Inspect.inspectRun] at h
  split_ifs at h
  split at h
  · rename_i values hvalues
    obtain ⟨bytes, rfl, hread⟩ := Option.map_eq_some_iff.mp hvalues
    split at h
    · rename_i all hall
      split_ifs at h with hne
      refine ⟨_, ?_, hne, h⟩
      rw [recordsOf, hread]
      show (match objects values with
        | none => _
        | some all => _) = _
      rw [hall]
    · cases h
  · cases h

/-- What a document was made of. -/
theorem runStatus_eq_ok :
    runStatus rt floatGreater runId running cancelRequested first second = .ok doc ↔
      isRunId runId = true ∧ ∃ records report kind, recordsOf runId first = .ok records ∧
        reportIf rt floatGreater runId records second = .ok report ∧
        lastKind records = .ok kind ∧
        doc = documentOf runId running cancelRequested report kind := by
  rw [runStatus]
  split_ifs with hid
  · simp [hid]
  · constructor
    · intro h
      obtain ⟨records, hrecords, h⟩ := Except.bind_eq_ok.mp h
      obtain ⟨report, hreport, h⟩ := Except.bind_eq_ok.mp h
      obtain ⟨kind, hkind, h⟩ := Except.bind_eq_ok.mp h
      exact ⟨Bool.eq_true_of_not_eq_false hid, records, report, kind, hrecords, hreport, hkind,
        (Except.ok.inj h).symm⟩
    · rintro ⟨-, records, report, kind, hrecords, hreport, hkind, rfl⟩
      exact Except.bind_eq_ok.mpr ⟨records, hrecords, Except.bind_eq_ok.mpr
        ⟨report, hreport, Except.bind_eq_ok.mpr ⟨kind, hkind, rfl⟩⟩⟩

theorem documentOf_finished {report : Inspection} {kind : Json} :
    (documentOf runId running cancelRequested (some report) kind).state = .finished ↔
      (verdictOf report).finished = true := by
  show statusState running (some (verdictOf report)) = .finished ↔ _
  rw [statusState]
  split_ifs <;> simp_all

/-- A report is of a finished run if the last record is a stop that has a time. -/
theorem verdictOf_finished {report : Inspection} {records : List Fields} {last : Fields}
    (h : report.Ends records last) : (verdictOf report).finished = true ↔
      isKind .runStopped last = true ∧ getOrNull last "recorded_at" ≠ .null := by
  rw [verdictOf]
  cases hstop : isKind .runStopped last with
  | true =>
    rw [(h.stopped hstop).2]
    cases getOrNull last "recorded_at" <;> simp [isNull]
  | false =>
    rw [(h.going hstop).2]
    simp

theorem lastKind_eq_ok {records : List Fields} {last : Fields} {kind : Json}
    (hlast : records.getLast? = some last) (h : lastKind records = .ok kind) :
    kind = .str (str "run_stopped") ↔ isKind .runStopped last = true := by
  have hkind : field last "kind" = .ok kind := by
    rw [← h, lastKind, hlast]
  rw [isKind_iff, getOrNull_of_field hkind]
  exact Iff.rfl

theorem Grew.trans (h : Grew first second) (h' : Grew second final) : Grew first final := by
  match first, second, final with
  | none, _, _ => trivial
  | some _, some _, some _ => exact List.IsPrefix.trans h h'
  | some _, some _, none => exact absurd h' id
  | some _, none, _ => exact absurd h id

/-- A document that says nothing of the run is what one reading would have given. -/
theorem oneMoment_of_nil (hid : isRunId runId = true) (hgrew : Grew first final)
    (hnil : recordsOf runId first = .ok []) :
    OneMoment rt floatGreater runId running cancelRequested final
      (documentOf runId running cancelRequested none .null) where
  moment := ⟨first, [], hgrew, runStatus_eq_ok.mpr
    ⟨hid, [], none, .null, hnil, if_pos rfl, rfl, rfl⟩, hnil, rfl, rfl⟩
  finished_iff := by
    show statusState running none = .finished ↔ Json.null = .str (str "run_stopped")
    rw [statusState]
    split_ifs <;> simp
  stopReason_iff := by
    show Json.null ≠ .null ↔ statusState running none = .finished
    rw [statusState]
    split_ifs <;> simp

/-- A document with the last kind of the second reading is what that reading would have given. -/
theorem oneMoment_of_report (hid : isRunId runId = true) (hgrew : Grew second final)
    {records : List Fields} (hrecords : recordsOf runId second = .ok records)
    {last : Fields} (hlast : records.getLast? = some last) {report : Inspection}
    (hreport : Inspect.inspectRun rt floatGreater runId second = .ok report)
    (hends : report.Ends records last) {kind : Json} (hkind : lastKind records = .ok kind)
    (htime : isKind .runStopped last = true → getOrNull last "recorded_at" ≠ .null) :
    OneMoment rt floatGreater runId running cancelRequested final
      (documentOf runId running cancelRequested (some report) kind) where
  moment := by
    have hne : records ≠ [] := by
      rintro rfl
      cases hlast
    refine ⟨second, records, hgrew, runStatus_eq_ok.mpr
      ⟨hid, records, some report, kind, hrecords, ?_, hkind, rfl⟩, hrecords, hends.eventCount,
      hkind⟩
    rw [reportIf, if_neg hne, hreport]
    rfl
  finished_iff := by
    rw [documentOf_finished, verdictOf_finished hends]
    show _ ↔ kind = .str (str "run_stopped")
    rw [lastKind_eq_ok hlast hkind]
    exact ⟨And.left, fun h ↦ ⟨h, htime h⟩⟩
  stopReason_iff := by
    rw [documentOf_finished, verdictOf_finished hends]
    show report.stopReason ≠ .null ↔ _
    cases hstop : isKind .runStopped last with
    | true => exact iff_of_true (hends.stopped hstop).1 ⟨rfl, htime hstop⟩
    | false =>
      rw [(hends.going hstop).1]
      simp

/-- **A document describes one moment exactly when both readings end alike.**  Whatever was appended
between the two readings and after them, a document that `run_status` returns is the one it would
have returned of a single beginning of the log, with fields that agree, if and only if the first
reading found no record of the run or a last one of the kind that the second reading found. -/
theorem oneMoment_iff (hfirst : Grew first second) (hsecond : Grew second final)
    (hdoc : runStatus rt floatGreater runId running cancelRequested first second = .ok doc) :
    OneMoment rt floatGreater runId running cancelRequested final doc ↔
      SameEnd runId first second := by
  obtain ⟨hid, a, report, kind, ha, hreport, hkind, rfl⟩ := runStatus_eq_ok.mp hdoc
  by_cases hnil : a = []
  · subst hnil
    rw [reportIf, if_pos rfl] at hreport
    obtain rfl := Except.ok.inj hreport
    obtain rfl := Except.ok.inj hkind
    exact iff_of_true (oneMoment_of_nil hid (hfirst.trans hsecond) ha) (.inl ha)
  rw [reportIf, if_neg hnil] at hreport
  cases hinspect : Inspect.inspectRun rt floatGreater runId second with
  | error e =>
    rw [hinspect] at hreport
    cases hreport
  | ok report =>
    rw [hinspect] at hreport
    obtain rfl := Except.ok.inj hreport
    obtain ⟨b, hb, hne, hon⟩ := inspectRun_eq_ok hinspect
    obtain ⟨last, hlast⟩ := Option.ne_none_iff_exists'.mp (List.getLast?_eq_none_iff.not.mpr hne)
    have hends := reportOn_ends hon hlast
    constructor
    · intro h
      -- the records that were counted are those of the second reading
      obtain ⟨file, records, hgrew, -, hrecords, hcount, hlastKind⟩ := h.moment
      have hlength : records.length = b.length := hcount.symm.trans hends.eventCount
      have hsame : records = b := by
        rcases prefix_of_recordsOf hgrew hsecond hrecords hb with hp | hp
        · exact hp.eq_of_length hlength
        · exact (hp.eq_of_length hlength.symm).symm
      subst hsame
      refine .inr ⟨a, records, last, ha, hb, hkind.trans hlastKind.symm, hlast, fun hstop ↦ ?_⟩
      have hfinished := h.finished_iff.mpr ((lastKind_eq_ok hlast hlastKind).mpr hstop)
      exact ((verdictOf_finished hends).mp (documentOf_finished.mp hfinished)).2
    · rintro (hempty | ⟨a', b', last', ha', hb', hkinds, hlast', htime⟩)
      · rw [ha] at hempty
        exact absurd (Except.ok.inj hempty) hnil
      · obtain rfl := Except.ok.inj (ha.symm.trans ha')
        obtain rfl := Except.ok.inj (hb.symm.trans hb')
        obtain rfl := Option.some.inj (hlast.symm.trans hlast')
        exact oneMoment_of_report hid hsecond hb hlast hinspect hends (hkinds.symm.trans hkind)
          htime

end

end

/-! ## A stop between the readings

A run that stops after the log was read and before the lock was tried. -/

/-- A line of the log of the run `r`. -/
def line (sequence : ℤ) (kind : EventKind) (payload : Fields) : Str :=
  (Json.obj
    [(str "schema", .str (str "atlas-event.v1")),
      (str "event_id", .str (str "r:" ++ decimalInt sequence)), (str "run_id", .str (str "r")),
      (str "sequence", .int sequence), (str "iteration", .int 0), (str "kind", .str kind.text),
      (str "recorded_at", .str (str "2026")), (str "call_id", .null),
      (str "payload", .obj payload)]).render ++ [lf]

/-- A log that was begun, and has nothing else in it. -/
def begun : Option Bytes := some (utf8 (line 0 .runStarted []))

/-- The same log when the run has stopped. -/
def stopped : Option Bytes := some (utf8 (line 0 .runStarted [] ++ line 1 .runStopped
  [(str "status", .str (str "done")), (str "stop_reason", .str (str "passed")),
    (str "stop_class", .str (str "success"))]))

/-- What there is to see in a document. -/
def StatusDocument.sees (doc : StatusDocument) : StatusState × Bool × ℕ × Bool :=
  (doc.state, isText doc.lastEventKind (str "run_started"), doc.eventCount, isNull doc.stopReason)

theorem grew_begun : Grew begun stopped :=
  ⟨utf8 (line 1 .runStopped _), (utf8_append _ _).symm⟩

/-- A document that is known by what is seen in it. -/
theorem exists_of_sees {x : Except Exc StatusDocument} {seen : StatusState × Bool × ℕ × Bool}
    (h : x.map (·.sees) = .ok seen) : ∃ doc, x = .ok doc ∧ doc.sees = seen := by
  cases x with
  | ok doc => exact ⟨doc, rfl, Except.ok.inj h⟩
  | error e => cases h

/-- The run stops between the readings: the document is of a finished run with two events and a
reason, of which the last is `run_started`. -/
theorem stopBetween_twoMoments : ∃ doc, Grew begun stopped ∧
    runStatus asciiRuntime (fun _ _ ↦ false) (str "r") false false begun stopped = .ok doc ∧
    doc.state = .finished ∧ doc.lastEventKind = .str (str "run_started") ∧ doc.eventCount = 2 ∧
    ¬ OneMoment asciiRuntime (fun _ _ ↦ false) (str "r") false false stopped doc := by
  have hseen : (runStatus asciiRuntime (fun _ _ ↦ false) (str "r") false false begun stopped).map
      (·.sees) = .ok (.finished, true, 2, false) := by decide +kernel
  obtain ⟨doc, hdoc, hsees⟩ := exists_of_sees hseen
  obtain ⟨hstate, hkind, hcount, -⟩ := by
    simpa only [StatusDocument.sees, Prod.mk.injEq] using hsees
  rw [isText_iff] at hkind
  refine ⟨doc, grew_begun, hdoc, hstate, hkind, hcount, fun h ↦ ?_⟩
  have hstopped := h.finished_iff.mp hstate
  rw [hkind, Json.str.injEq] at hstopped
  exact absurd hstopped (by decide)

/-- Nothing is appended between the readings, whatever is appended after them. -/
theorem oneMoment_iff_begun : ∃ doc,
    runStatus asciiRuntime (fun _ _ ↦ false) (str "r") false false begun begun = .ok doc ∧
      (OneMoment asciiRuntime (fun _ _ ↦ false) (str "r") false false stopped doc ↔
        SameEnd (str "r") begun begun) := by
  have hseen : (runStatus asciiRuntime (fun _ _ ↦ false) (str "r") false false begun begun).map
      (·.sees) = .ok (.interrupted, true, 1, true) := by decide +kernel
  obtain ⟨doc, hdoc, -⟩ := exists_of_sees hseen
  exact ⟨doc, hdoc, oneMoment_iff (List.prefix_refl _) grew_begun hdoc⟩

end HostApi

end AtlasCore
