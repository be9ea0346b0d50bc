import AtlasCore.EventLog.Crash
import AtlasCore.EventLog.History

/-!
# A history in a file

The records of a history, each on its line, are read back as the events they are of
(`Written.reads`), and a report can be made of them: of one that ends with a stop it says what the
stop says (`Written.inspectRun_stopped`).

`Written` says of a list of records that they are those of a history, that each can be written, and
that no text in them breaks a line.  Everything that is proved about readers of whole logs is proved
of such records, and of a file that holds those of other runs between them.
-/

set_option autoImplicit false

namespace AtlasCore

open Py

/-! ## Records of events

An event is written as a record, with the time added.  An event whose record can be written on one
line is what the reader of the file gives back. -/

theorem keys_redactFields {mask : Masking} :
    ∀ {fields : Fields}, (redactFields mask fields).map Prod.fst = fields.map Prod.fst := by
  intro fields
  induction fields with
  | nil => rfl
  | cons field rest ih =>
    obtain ⟨k, v⟩ := field
    rw [redactFields, List.map_cons, List.map_cons, ih]

mutual
/-- What is masked has the keys it had. -/
theorem wf_redactDocument {mask : Masking} : ∀ {v : Json}, v.WF → (redactDocument mask v).WF
  | .null, h | .bool _, h | .int _, h | .float _, h => by
    rw [redactDocument]
    · exact h
    all_goals exact nofun
  | .str _, _ => by
    rw [redactDocument]
    trivial
  | .arr items, h => by
    rw [redactDocument]
    exact wf_redactItems h
  | .obj fields, h => by
    rw [redactDocument]
    exact ⟨by rw [keys_redactFields]; exact h.1, wf_redactFields h.2⟩
theorem wf_redactItems {mask : Masking} :
    ∀ {items : List Json}, Json.WFItems items → Json.WFItems (redactItems mask items)
  | [], h => h
  | v :: rest, h => by
    rw [redactItems]
    exact ⟨wf_redactDocument h.1, wf_redactItems h.2⟩
theorem wf_redactFields {mask : Masking} :
    ∀ {fields : Fields}, Json.WFFields fields → Json.WFFields (redactFields mask fields)
  | [], h => h
  | (k, v) :: rest, h => by
    rw [redactFields]
    refine ⟨?_, wf_redactFields h.2⟩
    split
    · exact h.1
    · exact wf_redactDocument h.1
end

/-- A payload with its texts masked, which has the same keys. -/
def Record.masked (mask : Masking) (payload : Record) : Record where
  fields := redactFields mask payload.fields
  wf := wf_redactDocument (v := .obj payload.fields) payload.wf

/-- The record of an event, as a value that can be written: the keys of it are distinct. -/
def Event.record (e : Event) (recordedAt : Str) (h : (Json.obj e.payload).WF) : Record where
  fields := e.toDict recordedAt
  wf := by
    have hkeys : [str "schema", str "event_id", str "run_id", str "sequence", str "iteration",
        str "kind", str "recorded_at", str "call_id", str "payload"].Nodup := by decide
    refine ⟨hkeys, trivial, trivial, trivial, trivial, trivial, trivial, trivial, ?_, h, trivial⟩
    cases e.callId <;> trivial

/-- The event can be written, as one line. -/
def Event.Recordable (e : Event) : Prop :=
  ∃ h : (Json.obj e.payload).WF, (e.record [] h).Writable ∧ (e.record [] h).breakFree = true

instance (e : Event) : Decidable e.Recordable := inferInstanceAs (Decidable (∃ _, _))

/-- Events that can be written have records. -/
theorem exists_records : ∀ {events : List Event}, (∀ e ∈ events, e.Recordable) →
    ∃ records : List Record, List.Forall₂ (fun e r ↦ e.IsRecord r.fields) events records ∧
      (∀ r ∈ records, r.Writable) ∧ ∀ r ∈ records, r.breakFree = true
  | [], _ => ⟨[], .nil, nofun, nofun⟩
  | e :: rest, h => by
    obtain ⟨hwf, hw, hb⟩ := h e List.mem_cons_self
    obtain ⟨records, hrecords, hwritable, hbreakFree⟩ :=
      exists_records fun e' he' ↦ h e' (List.mem_cons_of_mem e he')
    exact ⟨e.record [] hwf :: records, .cons ⟨[], rfl⟩ hrecords,
      List.forall_mem_cons.mpr ⟨hw, hwritable⟩, List.forall_mem_cons.mpr ⟨hb, hbreakFree⟩⟩

/-- `datetime.now(timezone.utc).isoformat()`: digits and a few signs, none of which JSON escapes. -/
structure Timestamp where
  text : Str
  printable : Json.printable text = true

/-! ## What is read

A log that was written by the operations is read back as the events that were written. -/

/-- The fields of a record as the file gives them back. -/
def Record.readFields (r : Record) : Fields := Json.sortFields (Json.canonFields r.fields)

/-- What `read_jsonl` finds where records without line breaks were written. -/
theorem readJsonl_logText {records : List Record} (hw : ∀ r ∈ records, r.Writable)
    (hb : ∀ r ∈ records, r.breakFree = true) :
    readJsonl (utf8 (logText records)) = .ok (records.map fun r ↦ .obj r.readFields) := by
  have h := readLines_logText hw hb []
  rw [List.append_nil] at h
  rw [readJsonl_utf8 (encodable_logText hw) (cr_not_mem_logText records), h]
  show Except.ok ((records.map fun r ↦ r.value.canon) ++ []) = _
  rw [List.append_nil]
  refine congrArg Except.ok (List.map_congr_left fun r _ ↦ ?_)
  rw [Record.value, Json.canon, Record.readFields]

/-- What it finds where one of them holds a line break: nothing. -/
theorem readJsonl_logText_break {records : List Record} (hw : ∀ r ∈ records, r.Writable)
    (hb : ∃ r ∈ records, r.breakFree = false) :
    readJsonl (utf8 (logText records)) = .error .jsonDecodeError := by
  have h := readLines_logText_break hw hb []
  rw [List.append_nil] at h
  rw [readJsonl_utf8 (encodable_logText hw) (cr_not_mem_logText records), h]

/-- The whole records are the first records. -/
theorem wholeRecords_isPrefix :
    ∀ (records : List Record) (k : ℕ), wholeRecords records k <+: records
  | [], _ => List.prefix_rfl
  | r :: rs, k => by
    rw [wholeRecords]
    split
    · exact List.cons_prefix_cons.mpr ⟨rfl, wholeRecords_isPrefix rs _⟩
    · exact List.nil_prefix

namespace Inspect

theorem objects_map (records : List Record) :
    objects (records.map fun r ↦ .obj r.readFields) = some (records.map Record.readFields) := by
  induction records with
  | nil => rfl
  | cons r rs ih =>
    rw [objects] at ih
    rw [objects, List.map_cons, List.mapM_cons, ih]
    rfl

variable {floatGreater : Json → Json → Bool}

variable (floatGreater) in
/-- There is a greatest of some integers. -/
theorem maxOf_ints (z : ℤ) (rest : List ℤ) :
    ∃ m, maxOf floatGreater ((z :: rest).map Json.int) = .ok m := by
  suffices h : ∀ best : ℤ, ∃ m, (rest.map Json.int).foldlM (fun best v ↦ do
      return if ← greater floatGreater v best then v else best) (Json.int best) =
        (.ok m : Except Exc Json) from h z
  induction rest with
  | nil => exact fun best ↦ ⟨_, rfl⟩
  | cons y rest ih =>
    intro best
    obtain ⟨m, hm⟩ := ih (if best < y then y else best)
    refine ⟨m, ?_⟩
    rw [List.map_cons, List.foldlM_cons, ← hm]
    show (Except.ok _ >>= _) = _
    by_cases h : best < y <;> simp only [h, decide_true, decide_false, if_true] <;> rfl

end Inspect

namespace EventLog

open Inspect

/-- The records of the events of a history, as they can be written and read again. -/
structure Written (runId : Str) (events : List Event) (records : List Record) : Prop where
  history : History runId events
  ofEvents : List.Forall₂ (fun e r ↦ e.IsRecord r.fields) events records
  writable : ∀ r ∈ records, r.Writable
  breakFree : ∀ r ∈ records, r.breakFree = true

variable {runId : Str} {events : List Event} {records : List Record} {e : Event} {r : Record}

/-- One record more. -/
theorem Written.concat (h : Written runId events records) (ha : Admits runId events e)
    (hr : e.IsRecord r.fields) (hw : r.Writable) (hb : r.breakFree = true) :
    Written runId (events ++ [e]) (records ++ [r]) where
  history := grown_concat.mpr ⟨h.history, ha⟩
  ofEvents := List.rel_append h.ofEvents (.cons hr .nil)
  writable := List.forall_mem_append.mpr ⟨h.writable, List.forall_mem_singleton.mpr hw⟩
  breakFree := List.forall_mem_append.mpr ⟨h.breakFree, List.forall_mem_singleton.mpr hb⟩

/-- A stop is the last event. -/
theorem Written.ends (h : Written runId events records) (he : e ∈ events)
    (hk : e.kind = .runStopped) : ∃ front back r, events = front ++ [e] ∧
      records = back ++ [r] := by
  obtain ⟨front, after, rfl⟩ := List.append_of_mem he
  obtain rfl : after = [] := by
    cases after with
    | nil => rfl
    | cons x after =>
      have hadmits := h.history (front ++ [e]) x after (by simp)
      exact absurd hk (hadmits.going e (by simp))
  have hne : records ≠ [] := by
    rintro rfl
    have hlength := h.ofEvents.length_eq
    simp at hlength
  exact ⟨front, _, _, rfl, (List.dropLast_append_getLast hne).symm⟩

/-- What is read of the record of an event is read as the event. -/
theorem reads_readFields (h : e.IsRecord r.fields) : e.canon.Reads r.readFields := by
  obtain ⟨recordedAt, h⟩ := h
  refine Event.IsRead.reads ⟨recordedAt, ?_⟩
  rw [Record.readFields, Json.canon, h]

theorem field_iteration_reads {record : Fields} (h : e.Reads record) :
    field record "iteration" = .ok (.int e.iteration) := by
  obtain ⟨recordedAt, h⟩ := h
  rw [field, h]
  rfl

theorem field_recordedAt_reads {record : Fields} (h : e.Reads record) :
    ∃ recordedAt, field record "recorded_at" = .ok (.str recordedAt) := by
  obtain ⟨recordedAt, h⟩ := h
  refine ⟨recordedAt, ?_⟩
  rw [field, h]
  rfl

theorem field_headD_reads {records : List Fields} (hr : List.Forall₂ Event.Reads events records)
    (hne : events ≠ []) : ∃ v, field (records.headD []) "recorded_at" = .ok v := by
  cases hr with
  | nil => exact absurd rfl hne
  | cons h _ =>
    obtain ⟨recordedAt, hrecordedAt⟩ := field_recordedAt_reads h
    exact ⟨_, hrecordedAt⟩

theorem mapM_iteration {records : List Fields} (hr : List.Forall₂ Event.Reads events records) :
    records.mapM (field · "iteration") = .ok ((events.map fun e ↦ (e.iteration : ℤ)).map .int) := by
  induction hr with
  | nil => rfl
  | cons h _ ih =>
    rw [List.mapM_cons, field_iteration_reads h, ih]
    rfl

namespace Written

theorem left {more : List Record} (h : Written runId events records) (hp : more <+: records) :
    Written runId (events.take more.length) more where
  history := Grown.of_cut h.history (List.take_prefix _ _)
  ofEvents := by
    have htake := List.forall₂_take more.length h.ofEvents
    rwa [← List.prefix_iff_eq_take.mp hp] at htake
  writable := fun r hr ↦ h.writable r (hp.subset hr)
  breakFree := fun r hr ↦ h.breakFree r (hp.subset hr)

theorem length_eq (h : Written runId events records) : records.length = events.length :=
  h.ofEvents.length_eq.symm

theorem reads (h : Written runId events records) :
    List.Forall₂ Event.Reads (events.map Event.canon) (records.map Record.readFields) := by
  rw [List.forall₂_map_left_iff, List.forall₂_map_right_iff]
  exact h.ofEvents.imp fun _ _ ↦ reads_readFields

theorem isOf (h : Written runId events records) :
    ∀ r ∈ records, isOf runId r.readFields = true := by
  intro r hr
  obtain ⟨e, he, hrecord⟩ := exists_of_forall₂_right h.ofEvents r hr
  obtain ⟨recordedAt, hlookup⟩ := reads_readFields hrecord
  rw [Inspect.isOf, isText_iff, getOrNull, hlookup]
  show Json.str e.runId = Json.str runId
  rw [h.history.paired.wellFormed.ofRun e he]

theorem readJsonl_eq (h : Written runId events records) :
    readJsonl (utf8 (logText records)) = .ok (records.map fun r ↦ .obj r.readFields) :=
  readJsonl_logText h.writable h.breakFree

theorem filter_isOf (h : Written runId events records) :
    (records.map Record.readFields).filter (Inspect.isOf runId) =
      records.map Record.readFields := by
  refine List.filter_eq_self.mpr fun fields hfields ↦ ?_
  obtain ⟨r, hr, rfl⟩ := List.mem_map.mp hfields
  exact h.isOf r hr

/-- Nothing that is read is a stop where nothing was stopped. -/
theorem filter_going (h : Written runId events records)
    (hgoing : ∀ e ∈ events, e.kind ≠ .runStopped) :
    (records.map Record.readFields).filter (isKind .runStopped) = [] := by
  refine List.filter_eq_nil_iff.mpr fun fields hfields ↦ ?_
  obtain ⟨r, hr, rfl⟩ := List.mem_map.mp hfields
  obtain ⟨e, he, hrecord⟩ := exists_of_forall₂_right h.ofEvents r hr
  rw [isKind_reads_false (reads_readFields hrecord) (hgoing e he)]
  exact Bool.false_ne_true

/-- The event of the last record is the last event. -/
theorem last (h : Written runId (events ++ [e]) (records ++ [r])) :
    Written runId events records ∧ e.IsRecord r.fields := by
  have hlength := h.length_eq
  rw [List.length_append, List.length_append, List.length_singleton, List.length_singleton,
    Nat.add_right_cancel_iff] at hlength
  have hleft := h.left (List.prefix_append records [r])
  rw [hlength, List.take_left] at hleft
  refine ⟨hleft, ?_⟩
  have hdrop := List.forall₂_drop records.length h.ofEvents
  rw [List.drop_left, hlength, List.drop_left] at hdrop
  exact (List.forall₂_cons.mp hdrop).1

/-- The stop that is read is the last record. -/
theorem filter_stopped (h : Written runId (events ++ [e]) (records ++ [r]))
    (hk : e.kind = .runStopped) :
    ((records ++ [r]).map Record.readFields).filter (isKind .runStopped) = [r.readFields] := by
  obtain ⟨hleft, hrecord⟩ := h.last
  rw [List.map_append, List.filter_append,
    hleft.filter_going (grown_concat.mp h.history).2.going, List.nil_append]
  rw [List.map_singleton, List.filter_singleton,
    (isKind_reads (reads_readFields hrecord)).mpr hk, cond_true]

variable {rt : Runtime} {floatGreater : Json → Json → Bool}

variable (rt floatGreater) in
/-- **Of a history that ends with a stop, a report can be made, and it says what the stop says.** -/
theorem inspectRun_stopped (h : Written runId (events ++ [e]) (records ++ [r]))
    (hk : e.kind = .runStopped) : ∃ report recordedAt,
      inspectRun rt floatGreater runId (some (utf8 (logText (records ++ [r])))) = .ok report ∧
        report.status = getOrNull e.canon.payload "status" ∧
        report.stopReason = getOrNull e.canon.payload "stop_reason" ∧
        report.finishedAt = some (.str recordedAt) := by
  have hreads := reads_readFields h.last.2
  have hstops := h.filter_stopped hk
  have hall := h.reads
  obtain ⟨z, rest, hz⟩ : ∃ z rest,
      ((events ++ [e]).map Event.canon).map (fun e ↦ (e.iteration : ℤ)) = z :: rest :=
    List.exists_cons_of_ne_nil (by simp)
  have hiterations := mapM_iteration hall
  rw [hz] at hiterations
  obtain ⟨greatest, hgreatest⟩ := maxOf_ints floatGreater z rest
  obtain ⟨began, hbegan⟩ := field_headD_reads hall (by simp)
  obtain ⟨recordedAt, hrecordedAt⟩ := field_recordedAt_reads hreads
  have hfinish : finishTime [r.readFields] ((records ++ [r]).map Record.readFields) =
      .ok (some (.str recordedAt)) := by
    rw [finishTime, if_neg (List.cons_ne_nil _ _), List.map_append, List.map_singleton,
      List.getLastD_concat, hrecordedAt]
    rfl
  have hvalid : validateHistory rt runId ((records ++ [r]).map Record.readFields) = .ok () :=
    h.history.canon.validateHistory_eq (by simp) hall
  have hrun : runId ≠ [] := by
    have hlast := (grown_concat.mp h.history).2.follows
    rw [← hlast.ofRun]
    exact Event.runId_ne_nil hlast.postInit
  refine ⟨⟨getOrNull e.canon.payload "status", greatest, getOrNull e.canon.payload "stop_reason",
    ((records ++ [r]).map Record.readFields).length, some (.str recordedAt)⟩, recordedAt, ?_, rfl,
    rfl, rfl⟩
  rw [inspectRun, if_neg hrun, Option.map_some, h.readJsonl_eq]
  dsimp only
  rw [objects_map]
  dsimp only
  rw [h.filter_isOf, if_neg (by simp), reportOn, hvalid]
  refine Except.bind_eq_ok.mpr ⟨(), rfl, ?_⟩
  rw [hstops]
  refine Except.bind_eq_ok.mpr ⟨e.canon.payload, ?_, ?_⟩
  · exact Except.bind_eq_ok.mpr ⟨_, field_payload_reads hreads, rfl⟩
  refine Except.bind_eq_ok.mpr ⟨_, hiterations, Except.bind_eq_ok.mpr ⟨greatest, hgreatest, ?_⟩⟩
  exact Except.bind_eq_ok.mpr ⟨_, hbegan, Except.bind_eq_ok.mpr ⟨_, hfinish, rfl⟩⟩

end Written

end EventLog

end AtlasCore
