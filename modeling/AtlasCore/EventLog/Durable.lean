import AtlasCore.EventLog.Operations
import AtlasCore.EventLog.Records

/-!
# A log and its sink

The log in memory and the records in the sink are changed in two steps, the log first.  A write that
fails leaves the event in the log, so the log has changed though the operation raised, and what is
written after it does not follow on what the sink has.
-/

set_option autoImplicit false

namespace AtlasCore

open Py

namespace EventLog

/-- One operation, and what the sink raises if it is asked to write. -/
structure Attempt where
  op : Operation
  failure : Option Exc

/-- What the sink has, and the log: the two places an event has to come to. -/
abbrev Store := List Event × EventLog

/-- `sink.write`: it fails before anything is written, or the record is added. -/
def flaky (failure : Option Exc) : Sink (List Event) := fun event records ↦
  match failure with
  | some e => (.error e, records)
  | none => (.ok (), records ++ [event])

section
variable (mask : Masking)

/-- The operation of an attempt, on a sink that fails as the attempt says. -/
def Attempt.perform (a : Attempt) : Eff Exc Store Unit :=
    EventLog.perform mask (flaky a.failure) a.op

/-- What is left after several attempts, each from where the one before it left off. -/
def after (s : Store) (attempts : List Attempt) : Store :=
  attempts.foldl (fun s a ↦ (a.perform mask s).2) s

end

/-- What a host starts from: a log that was built from what the sink has. -/
structure Opened (s : Store) : Prop where
  events : ∀ e ∈ s.1, e.postInit = .ok ()
  built : build s.2.runId s.1 = .ok s.2

/-- The records can be gone on from, and `inspect_run` finds a log in them. -/
def Readable (runId : Str) (events : List Event) : Prop :=
  build runId events = .ok ⟨runId, events⟩ ∧
    ∀ (rt : Runtime) records, List.Forall₂ Event.IsRecord events records →
      Inspect.checkEvents rt runId records = .ok ()

/-- What an attempt made in `s` leaves, if what fails changes nothing: the sink has a beginning of
the log and can be read, an operation that raised changed neither, and one that returned added the
event of the next number to both. -/
structure Clean (mask : Masking) (s : Store) (a : Attempt) : Prop where
  beginning : (a.perform mask s).2.1 <+: (a.perform mask s).2.2.events
  readable : Readable s.2.runId (a.perform mask s).2.1
  raised : ∀ e, (a.perform mask s).1 = .error e → (a.perform mask s).2 = s
  returned : (a.perform mask s).1 = .ok () → ∃ event : Event, event.sequence = s.1.length ∧
    (a.perform mask s).2.1 = s.1 ++ [event] ∧
    (a.perform mask s).2.2.events = s.2.events ++ [event]

variable {mask : Masking} {s : Store} {a : Attempt} {attempts : List Attempt}

/-! ## One attempt

An operation is refused, written, or fails while it is written; and each leaves the sink and the log
in one of two states. -/

/-- An attempt that is refused changes nothing. -/
theorem perform_refused {e : Exc} (h : a.op.event mask s.2 = .error e) :
    a.perform mask s = (.error e, s) := by
  rw [Attempt.perform, show s = (s.1, s.2) from rfl, perform_eq, h]
  rfl

/-- An attempt that is not refused and does not fail adds its event to both. -/
theorem perform_written {event : Event} (h : a.op.event mask s.2 = .ok event)
    (hfailure : a.failure = none) :
    a.perform mask s = (.ok (), s.1 ++ [event], s.2.snoc event) := by
  rw [Attempt.perform, show s = (s.1, s.2) from rfl, perform_eq, h, hfailure]
  rfl

/-- An attempt that fails has added its event to the log. -/
theorem perform_failed {event : Event} {e : Exc} (h : a.op.event mask s.2 = .ok event)
    (hfailure : a.failure = some e) : a.perform mask s = (.error e, s.1, s.2.snoc event) := by
  rw [Attempt.perform, show s = (s.1, s.2) from rfl, perform_eq, h, hfailure]
  rfl

theorem appended_eq_ok {log : EventLog} {kind : Str} {iteration : ℤ} {callId : Option Str}
    {payload : Fields} {event : Event}
    (h : appended mask log kind iteration callId payload = .ok event) :
    event.postInit = .ok () ∧ event.runId = log.runId ∧ event.sequence = log.events.length := by
  obtain ⟨k, -, rfl, hpost⟩ := appended_eq_next h
  exact ⟨hpost, rfl, rfl⟩

/-- The event of an operation is an event of the log, with the next number. -/
theorem Operation.event_eq_ok {log : EventLog} {op : Operation} {event : Event}
    (h : op.event mask log = .ok event) :
    event.postInit = .ok () ∧ event.runId = log.runId ∧ event.sequence = log.events.length := by
  cases op with
  | append kind iteration callId payload => exact appended_eq_ok h
  | startCall callKind iteration target callInput payload =>
    obtain ⟨_, _, h⟩ := Except.bind_eq_ok.mp h
    obtain ⟨_, _, h⟩ := Except.bind_eq_ok.mp h
    obtain ⟨_, _, h⟩ := Except.bind_eq_ok.mp h
    exact appended_eq_ok h
  | finishCall callId outcome iteration error payload =>
    obtain ⟨_, _, h⟩ := Except.bind_eq_ok.mp h
    split_ifs at h
    exact appended_eq_ok h

/-- A log that was built holds what it was built from. -/
theorem Opened.events_eq (h : Opened s) : s.2.events = s.1 := by
  have hbuilt := h.built
  rw [build] at hbuilt
  split_ifs at hbuilt
  rw [← Except.ok.inj hbuilt]

theorem Opened.built_eq (h : Opened s) : build s.2.runId s.1 = .ok ⟨s.2.runId, s.1⟩ := by
  rw [h.built, ← h.events_eq]

/-- What was opened can be read. -/
theorem Opened.readable (h : Opened s) : Readable s.2.runId s.1 := by
  refine ⟨h.built_eq, fun rt records hrecords ↦ ?_⟩
  rw [Inspect.checkEvents,
    Inspect.eventLog_eq h.events (hrecords.imp fun _ _ ↦ Event.IsRecord.reads) h.built_eq]

/-- One more event of the run, with the next number. -/
theorem Opened.snoc (h : Opened s) {event : Event} (hpost : event.postInit = .ok ())
    (hrun : event.runId = s.2.runId) (hsequence : event.sequence = s.1.length) :
    Opened (s.1 ++ [event], s.2.snoc event) := by
  refine ⟨fun e he ↦ ?_, ?_⟩
  · rcases List.mem_append.mp he with he | he
    · exact h.events e he
    · rw [List.mem_singleton.mp he]
      exact hpost
  · have hbuilt := h.built
    rw [build] at hbuilt
    split_ifs at hbuilt with hnil hother hnumbers
    have hnumbers := not_not.mp hnumbers
    rw [build, EventLog.snoc, if_neg hnil, if_neg, if_neg, h.events_eq]
    · rw [not_not, List.map_append, hnumbers, List.length_append, List.length_singleton,
        List.range_succ, List.map_singleton, hsequence]
    · rw [List.any_append, Bool.or_eq_true, not_or]
      exact ⟨hother, by simp [hrun]⟩

/-- An attempt that does not fail changes nothing or adds one event to both. -/
theorem Opened.clean (h : Opened s)
    (ha : (∃ event, a.op.event mask s.2 = .ok event) → a.failure = none) :
    Clean mask s a ∧ Opened (a.perform mask s).2 := by
  cases hevent : a.op.event mask s.2 with
  | error e =>
    rw [perform_refused hevent]
    refine ⟨⟨?_, ?_, ?_, ?_⟩, h⟩ <;> rw [perform_refused hevent]
    · rw [h.events_eq]
    · exact h.readable
    · exact fun _ _ ↦ rfl
    · exact nofun
  | ok event =>
    have hwritten := perform_written hevent (ha ⟨event, hevent⟩)
    obtain ⟨hpost, hrun, hsequence⟩ := Operation.event_eq_ok hevent
    rw [h.events_eq] at hsequence
    have hopened := h.snoc hpost hrun hsequence
    refine ⟨⟨?_, ?_, ?_, ?_⟩, by rw [hwritten]; exact hopened⟩ <;> rw [hwritten]
    · rw [hopened.events_eq]
    · exact hopened.readable
    · exact nofun
    · exact fun _ ↦ ⟨event, hsequence, rfl, rfl⟩

/-- An attempt that fails is not clean. -/
theorem Clean.failure_eq_none (h : Clean mask s a)
    (hevent : ∃ event, a.op.event mask s.2 = .ok event) : a.failure = none := by
  obtain ⟨event, hevent⟩ := hevent
  cases hfailure : a.failure with
  | none => rfl
  | some e =>
    have hfailed := perform_failed hevent hfailure
    have hsame := h.raised e (by rw [hfailed])
    rw [hfailed] at hsame
    have hlength := congrArg (fun t : Store ↦ t.2.events.length) hsame
    simp [EventLog.snoc] at hlength

/-! ## Every attempt

The sink and the log agree after any number of attempts, as long as no accepted write has failed. -/

/-- No write of an accepted operation fails; a failure where nothing is written does no harm. -/
def NoFailure (mask : Masking) (s : Store) (attempts : List Attempt) : Prop :=
  ∀ done a rest, attempts = done ++ a :: rest →
    (∃ event, a.op.event mask (after mask s done).2 = .ok event) → a.failure = none

/-- What holds of every attempt holds of those made first. -/
theorem NoFailure.left {more : List Attempt} (h : NoFailure mask s (attempts ++ more)) :
    NoFailure mask s attempts := fun done a rest ha ↦
  h done a (rest ++ more) (by rw [ha, List.append_assoc, List.cons_append])

theorem NoFailure.tail (h : NoFailure mask s (a :: attempts)) :
    NoFailure mask (a.perform mask s).2 attempts := fun done b rest hb ↦
  h (a :: done) b rest (by rw [hb, List.cons_append])

/-- Without a failure the log and the sink stay together. -/
theorem Opened.after (h : Opened s) (hnone : NoFailure mask s attempts) :
    Opened (after mask s attempts) := by
  induction attempts generalizing s with
  | nil => exact h
  | cons a rest ih => exact ih (h.clean (hnone [] a rest rfl)).2 hnone.tail

/-- **A failed append changes nothing exactly when none fails.**  From a log that was opened from
its sink, every attempt is clean if and only if the sink never fails on an operation that was
accepted. -/
theorem clean_iff_noFailure (mask : Masking) (s : Store) (hs : Opened s)
    (attempts : List Attempt) :
    (∀ done a rest, attempts = done ++ a :: rest → Clean mask (EventLog.after mask s done) a) ↔
      NoFailure mask s attempts := by
  constructor
  · exact fun hclean done a rest h hevent ↦ (hclean done a rest h).failure_eq_none hevent
  · rintro hnone done a rest rfl
    exact ((hs.after hnone.left).clean (hnone done a rest rfl)).1

/-- The start of a run that the sink does not take, and what follows on it. -/
def lostStart : List Attempt :=
  [⟨.append (str "run_started") 0 none [], some .osError⟩,
    ⟨.append (str "plan_selected") 1 none [], none⟩]

/-- The event of a write that failed is in the log, and the next record has the number after it. -/
theorem lostStart_gap : ¬ (∀ done a rest, lostStart = done ++ a :: rest →
      Clean noMasking (EventLog.after noMasking ([], ⟨str "r", []⟩) done) a) ∧
    build (str "r") (EventLog.after noMasking ([], ⟨str "r", []⟩) lostStart).1 =
      .error .resumeRefused := by
  refine ⟨fun h ↦ ?_, rfl⟩
  have hclean := h [] _ _ rfl
  exact absurd (hclean.failure_eq_none ⟨_, rfl⟩) nofun

/-- A log whose sink takes everything. -/
theorem clean_iff_noFailure_sound :
    (∀ done a rest, [⟨.append (str "run_started") 0 none [], none⟩] = done ++ a :: rest →
      Clean noMasking (EventLog.after noMasking ([], ⟨str "r", []⟩) done) a) ↔
    NoFailure noMasking ([], ⟨str "r", []⟩) [⟨.append (str "run_started") 0 none [], none⟩] :=
  clean_iff_noFailure noMasking ([], ⟨str "r", []⟩)
    ⟨fun _ h ↦ absurd h List.not_mem_nil, rfl⟩ _

end EventLog

end AtlasCore
