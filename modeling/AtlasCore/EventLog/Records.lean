import AtlasCore.EventLog.Inspect
import AtlasCore.EventLog.Log
import AtlasCore.Lib.Fields

/-!
# Events as records

`to_dict` and back: the readers of a log get the event that was written, so what `EventLog` refuses
to go on from and what `inspect_run` refuses to report on are the same (`eventLog_eq`).

A record is a dict that was read from a file, so a field of it can have any type, and both readers
convert before they compare.  On a record of `to_dict` the conversions do nothing, and the event
comes back with its kind, its numbers and its payload; in a payload the keys are in order, as the
file has them.
-/

set_option autoImplicit false

namespace AtlasCore

open Py

/-- `Event.to_dict`: the record of an event, with the time it was recorded at. -/
def Event.toDict (e : Event) (recordedAt : Str) : Fields :=
  [(str "schema", .str (str "atlas-event.v1")),
    (str "event_id", .str (e.runId ++ str ":" ++ decimal e.sequence)),
    (str "run_id", .str e.runId), (str "sequence", .int e.sequence),
    (str "iteration", .int e.iteration), (str "kind", .str e.kind.text),
    (str "recorded_at", .str recordedAt), (str "call_id", EventLog.textOrNull e.callId),
    (str "payload", .obj e.payload)]

/-- The record of an event, at some time. -/
def Event.IsRecord (e : Event) (record : Fields) : Prop :=
    ∃ recordedAt, record = e.toDict recordedAt

/-- A dict in which everything is found that is found in the record of the event. -/
def Event.Reads (e : Event) (record : Fields) : Prop :=
  ∃ recordedAt, ∀ key, Json.lookup key record = Json.lookup key (e.toDict recordedAt)

theorem Event.IsRecord.reads {e : Event} {record : Fields} (h : e.IsRecord record) :
    e.Reads record := by
  obtain ⟨recordedAt, rfl⟩ := h
  exact ⟨recordedAt, fun _ ↦ rfl⟩

/-- The event with its payload as a file gives it back. -/
def Event.canon (e : Event) : Event :=
  { e with payload := Json.sortFields (Json.canonFields e.payload) }

/-- The record of an event, as a file gives it back. -/
def Event.IsRead (e : Event) (record : Fields) : Prop :=
  ∃ recordedAt, Json.obj record = (Json.obj (e.toDict recordedAt)).canon

theorem Event.canonFields_toDict (e : Event) (recordedAt : Str) :
    Json.canonFields (e.toDict recordedAt) = e.canon.toDict recordedAt := by
  cases hcall : e.callId <;>
    simp only [toDict, Event.canon, Json.canonFields, Json.canon, EventLog.textOrNull, hcall]

/-- What a file gives back is read as the event. -/
theorem Event.IsRead.reads {e : Event} {record : Fields} (h : e.IsRead record) :
    e.canon.Reads record := by
  obtain ⟨recordedAt, h⟩ := h
  rw [Json.canon, Json.obj.injEq] at h
  refine ⟨recordedAt, fun key ↦ ?_⟩
  rw [h, Json.lookup_sortFields, e.canonFields_toDict]

namespace Inspect

/-- The event as a reader holds it, who has read its record back. -/
def readOf (e : Event) : ReadEvent where
  runId := e.runId
  sequence := e.sequence
  kind := e.kind
  iteration := e.iteration
  callId := EventLog.textOrNull e.callId
  payload := e.payload

variable {rt : Runtime} {e : Event} {record : Fields}

theorem isFalsy_textOrNull {s : Option Str} :
    isFalsy rt (EventLog.textOrNull s) = true ↔ s.getD [] = [] := by
  cases s with
  | none => exact ⟨fun _ ↦ rfl, fun _ ↦ rfl⟩
  | some t => exact decide_eq_true_iff

theorem isNull_textOrNull {s : Option Str} : isNull (EventLog.textOrNull s) = false ↔ s ≠ none := by
  cases s <;> simp [EventLog.textOrNull, isNull]

/-- What an event checks of itself is what a reader checks of it. -/
theorem postInit_readOf (h : e.postInit = .ok ()) :
    postInit rt e.runId e.sequence e.kind.text e.iteration
      (EventLog.textOrNull e.callId) e.payload =
      .ok (readOf e) := by
  rw [Event.postInit] at h
  split_ifs at h with hrun hcall hnone hstarted happroval hfinished
  rw [postInit, EventKind.ofText_text]
  dsimp only
  rw [if_neg hrun, if_neg (Int.not_lt.mpr (Int.natCast_nonneg _)),
    if_neg (Int.not_lt.mpr (Int.natCast_nonneg _)), if_neg, if_neg, if_neg hstarted,
    if_neg happroval, if_neg hfinished]
  · rfl
  · exact fun h ↦ hnone ⟨h.1, isNull_textOrNull.mp h.2⟩
  · exact fun h ↦ hcall ⟨h.1, isFalsy_textOrNull.mp h.2⟩

/-- The record of an event is read as the event. -/
theorem eventFromRecord_eq (h : e.postInit = .ok ()) (hrecord : e.Reads record) :
    eventFromRecord rt record = .ok (readOf e) := by
  obtain ⟨recordedAt, hlookup⟩ := hrecord
  have hsame : eventFromRecord rt record = eventFromRecord rt (e.toDict recordedAt) := by
    simp only [eventFromRecord, getOrNull, strOr, hlookup]
    rfl
  rw [hsame]
  exact postInit_readOf h

/-- The records of events are read as the events. -/
theorem mapM_eventFromRecord {events : List Event} {records : List Fields}
    (hevents : ∀ e ∈ events, e.postInit = .ok ())
    (hrecords : List.Forall₂ Event.Reads events records) :
    records.mapM (eventFromRecord rt) = .ok (events.map readOf) := by
  induction hrecords with
  | nil => rfl
  | cons hrecord _ ih =>
    rw [List.mapM_cons, eventFromRecord_eq (hevents _ List.mem_cons_self) hrecord,
      ih fun e he ↦ hevents e (List.mem_cons_of_mem _ he)]
    rfl

/-- **A reader of the records accepts what a log goes on from.** -/
theorem eventLog_eq {runId : Str} {events : List Event} {records : List Fields}
    (hevents : ∀ e ∈ events, e.postInit = .ok ())
    (hrecords : List.Forall₂ Event.Reads events records)
    (hbuild : EventLog.build runId events = .ok ⟨runId, events⟩) :
    eventLog rt runId records = .ok (events.map readOf) := by
  rw [EventLog.build] at hbuild
  split_ifs at hbuild with hrun hother hsequence
  have hother' : ¬ (events.map readOf).any (fun e ↦ e.runId ≠ runId) = true := by
    rw [List.any_map]
    exact hother
  have hsequence' : ¬ (events.map readOf).map (·.sequence) ≠
      (List.range (events.map readOf).length).map Int.ofNat := by
    rw [List.length_map, ← not_not.mp hsequence, List.map_map, List.map_map]
    exact not_not.mpr rfl
  refine Except.bind_eq_ok.mpr ⟨_, mapM_eventFromRecord hevents hrecords, ?_⟩
  rw [if_neg hother', if_neg hsequence']
  rfl

end Inspect

end AtlasCore
