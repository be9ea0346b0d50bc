import AtlasCore.EventLog.Pairing
import AtlasCore.EventLog.Records

/-!
# Histories that `inspect_run` accepts

The writer of a log and its reader were written apart.  What an event must be to be appended
(`Admits`) is that it follows on the others, that the start of the run is the first and nothing
comes after its stop, and that its payload holds what a report is made of.  A log that grew so is a
`History` wherever it is cut, and `_validate_history` accepts the records of every history
(`History.validateHistory_eq`).
-/

set_option autoImplicit false

namespace AtlasCore

open Py

namespace Inspect

/-! ## Payloads

What an event of a kind has to carry for a report to be made of it. -/

/-- A text that is not blank, which is what the validation of a history asks of every name. -/
def IsNonempty (v : Json) : Prop := ∃ s, nonemptyText v = .ok s

/-- The payload has a list under the key, and each of its items is such. -/
def ItemsAre (payload : Fields) (key : String) (P : Json → Prop) : Prop :=
  ∃ items, Json.lookup (str key) payload = some (.arr items) ∧ ∀ v ∈ items, P v

/-- The payload of an event of the kind holds what a report takes from it. -/
def Reportable (kind : EventKind) (payload : Fields) : Prop :=
  match kind with
  | .observationRecorded =>
    ItemsAre payload "added" (checkSource · = .ok ()) ∧
      ItemsAre payload "superseded" (checkSource · = .ok ()) ∧
      ItemsAre payload "unchanged" IsNonempty
  | .decisionRecorded =>
    ItemsAre payload "evidence_gaps" IsNonempty ∧ ItemsAre payload "unmet_criteria" IsNonempty
  | .planSelected => IsNonempty (getOrNull payload "route")
  | .runStopped =>
    IsNonempty (getOrNull payload "status") ∧ IsNonempty (getOrNull payload "stop_reason") ∧
      IsNonempty (getOrNull payload "stop_class")
  | _ => True

theorem isNonempty_str {s : Str} (h : isBlank s = false) : IsNonempty (.str s) := by
  refine ⟨s, if_neg fun hnil ↦ ?_⟩
  rw [strip_eq_nil_iff.mp hnil] at h
  cases h

theorem IsNonempty.eq_str {v : Json} (h : IsNonempty v) : ∃ s, v = .str s ∧ isBlank s = false := by
  obtain ⟨s, hs⟩ := h
  obtain rfl := nonemptyText_eq_ok hs
  refine ⟨s, rfl, Bool.eq_false_iff.mpr fun hblank ↦ ?_⟩
  rw [nonemptyText, if_pos (strip_eq_nil_iff.mpr hblank)] at hs
  cases hs

/-- A source is described by an id and, if it has one, a path. -/
theorem checkSource_eq_ok {fields : Fields} (hid : IsNonempty (getOrNull fields "source_id"))
    (hpath : ∀ path, Json.lookup (str "path") fields = some path → IsNonempty path) :
    checkSource (.obj fields) = .ok () := by
  obtain ⟨id, hid⟩ := hid
  refine Except.bind_eq_ok.mpr ⟨id, hid, ?_⟩
  cases hlookup : Json.lookup (str "path") fields with
  | none => rfl
  | some path =>
    obtain ⟨s, hs⟩ := hpath path hlookup
    exact Except.bind_eq_ok.mpr ⟨s, hs, rfl⟩

theorem checkSource_inv {v : Json} (h : checkSource v = .ok ()) :
    ∃ fields, v = .obj fields ∧ IsNonempty (getOrNull fields "source_id") ∧
      ∀ path, Json.lookup (str "path") fields = some path → IsNonempty path := by
  cases v with
  | obj fields =>
    obtain ⟨id, hid, h⟩ := Except.bind_eq_ok.mp h
    refine ⟨fields, rfl, ⟨id, hid⟩, fun path hlookup ↦ ?_⟩
    rw [hlookup] at h
    obtain ⟨s, hs, -⟩ := Except.bind_eq_ok.mp h
    exact ⟨s, hs⟩
  | _ => cases h

/-! ## What a file gives back

A value that is written and read again has its keys in order, and otherwise says the same. -/

theorem IsNonempty.canon {v : Json} (h : IsNonempty v) : IsNonempty v.canon := by
  obtain ⟨s, rfl, hs⟩ := h.eq_str
  rw [Json.canon]
  exact isNonempty_str hs

theorem lookup_canon {key : Str} {payload : Fields} :
    Json.lookup key (Json.sortFields (Json.canonFields payload)) =
      (Json.lookup key payload).map Json.canon := by
  rw [Json.lookup_sortFields, Json.lookup_canonFields]

theorem getOrNull_canon {key : String} {payload : Fields} :
    getOrNull (Json.sortFields (Json.canonFields payload)) key = (getOrNull payload key).canon := by
  rw [getOrNull, lookup_canon, getOrNull]
  cases Json.lookup (str key) payload with
  | none => rw [Option.map_none, Option.getD_none, Json.canon]
  | some v => rfl

theorem checkSource_canon {v : Json} (h : checkSource v = .ok ()) :
    checkSource v.canon = .ok () := by
  obtain ⟨fields, rfl, hid, hpath⟩ := checkSource_inv h
  rw [Json.canon]
  refine checkSource_eq_ok ?_ fun path hlookup ↦ ?_
  · rw [getOrNull_canon]
    exact hid.canon
  · rw [lookup_canon, Option.map_eq_some_iff] at hlookup
    obtain ⟨original, horiginal, rfl⟩ := hlookup
    exact (hpath original horiginal).canon

theorem ItemsAre.canon {payload : Fields} {key : String} {P : Json → Prop}
    (h : ItemsAre payload key P) (hP : ∀ v, P v → P v.canon) :
    ItemsAre (Json.sortFields (Json.canonFields payload)) key P := by
  obtain ⟨items, hitems, hall⟩ := h
  refine ⟨items.map Json.canon, ?_, fun v hv ↦ ?_⟩
  · rw [lookup_canon, hitems, Option.map_some, Json.canon, Json.canonItems_eq_map]
  · obtain ⟨original, horiginal, rfl⟩ := List.mem_map.mp hv
    exact hP original (hall original horiginal)

theorem Reportable.canon {kind : EventKind} {payload : Fields} (h : Reportable kind payload) :
    Reportable kind (Json.sortFields (Json.canonFields payload)) := by
  have htext : ∀ {key}, IsNonempty (getOrNull payload key) →
      IsNonempty (getOrNull (Json.sortFields (Json.canonFields payload)) key) := by
    intro key hkey
    rw [getOrNull_canon]
    exact hkey.canon
  cases kind with
  | observationRecorded =>
    exact ⟨h.1.canon fun _ ↦ checkSource_canon, h.2.1.canon fun _ ↦ checkSource_canon,
      h.2.2.canon fun _ ↦ IsNonempty.canon⟩
  | decisionRecorded =>
    exact ⟨h.1.canon fun _ ↦ IsNonempty.canon, h.2.canon fun _ ↦ IsNonempty.canon⟩
  | planSelected => exact htext h
  | runStopped => exact ⟨htext h.1, htext h.2.1, htext h.2.2⟩
  | _ => trivial

/-! ## What masking leaves

A text that is not blank is not blank when it is masked, and ids and words of the log are left as
they are. -/

section
variable {mask : Masking} {payload : Fields}

theorem lookup_redactFields {key : Str} :
    Json.lookup key (redactFields mask payload) = (Json.lookup key payload).map fun v ↦
      if key ∈ VERBATIM_KEYS then v else redactDocument mask v := by
  induction payload with
  | nil => rfl
  | cons p rest ih =>
    obtain ⟨k, v⟩ := p
    rw [redactFields, Json.lookup, Json.lookup, ih]
    by_cases hk : k = key
    · rw [if_pos hk, if_pos hk, hk, Option.map_some]
    · rw [if_neg hk, if_neg hk]

/-- What stands for a text that is not blank is not blank. -/
theorem IsNonempty.masked {v : Json} (h : IsNonempty v) : IsNonempty (redactDocument mask v) := by
  obtain ⟨s, rfl, hs⟩ := h.eq_str
  rw [redactDocument]
  exact isNonempty_str (mask.text_nonblank s hs)

theorem IsNonempty.masked_field {key : String} (h : IsNonempty (getOrNull payload key)) :
    IsNonempty (getOrNull (redactFields mask payload) key) := by
  rw [getOrNull] at h ⊢
  rw [lookup_redactFields]
  cases hlookup : Json.lookup (str key) payload with
  | none =>
    rw [hlookup] at h
    exact h
  | some v =>
    rw [hlookup] at h
    rw [Option.map_some, Option.getD_some]
    split_ifs
    · exact h
    · exact h.masked

theorem checkSource_masked {v : Json} (h : checkSource v = .ok ()) :
    checkSource (redactDocument mask v) = .ok () := by
  obtain ⟨fields, rfl, hid, hpath⟩ := checkSource_inv h
  rw [redactDocument]
  refine checkSource_eq_ok hid.masked_field fun path hlookup ↦ ?_
  rw [lookup_redactFields, Option.map_eq_some_iff] at hlookup
  obtain ⟨original, horiginal, rfl⟩ := hlookup
  split_ifs
  · exact hpath original horiginal
  · exact (hpath original horiginal).masked

theorem redactItems_eq_map (items : List Json) :
    redactItems mask items = items.map (redactDocument mask) := by
  induction items with
  | nil => rw [redactItems, List.map_nil]
  | cons v rest ih => rw [redactItems, ih, List.map_cons]

theorem ItemsAre.masked {key : String} {P : Json → Prop} (h : ItemsAre payload key P)
    (hP : ∀ v, P v → P (redactDocument mask v)) : ItemsAre (redactFields mask payload) key P := by
  obtain ⟨items, hitems, hall⟩ := h
  rw [ItemsAre, lookup_redactFields, hitems, Option.map_some]
  split_ifs
  · exact ⟨items, rfl, hall⟩
  · refine ⟨items.map (redactDocument mask), ?_, fun v hv ↦ ?_⟩
    · rw [redactDocument, redactItems_eq_map]
    · obtain ⟨original, horiginal, rfl⟩ := List.mem_map.mp hv
      exact hP original (hall original horiginal)

/-- **A report can be made of what was masked.** -/
theorem Reportable.masked {kind : EventKind} (h : Reportable kind payload) :
    Reportable kind (redactFields mask payload) := by
  cases kind with
  | observationRecorded =>
    exact ⟨h.1.masked fun _ ↦ checkSource_masked, h.2.1.masked fun _ ↦ checkSource_masked,
      h.2.2.masked fun _ ↦ IsNonempty.masked⟩
  | decisionRecorded =>
    exact ⟨h.1.masked fun _ ↦ IsNonempty.masked, h.2.masked fun _ ↦ IsNonempty.masked⟩
  | planSelected => exact IsNonempty.masked_field h
  | runStopped => exact ⟨h.1.masked_field, h.2.1.masked_field, h.2.2.masked_field⟩
  | _ => trivial

end

end Inspect

/-! ## Histories

The logs that the validation accepts, told by their events. -/

namespace EventLog

open Inspect

/-- What an event is that may come after others in the history of a run. -/
structure Admits (runId : Str) (events : List Event) (e : Event) : Prop where
  follows : Follows runId events e
  starts : events = [] ↔ e.kind = .runStarted
  going : ∀ e' ∈ events, e'.kind ≠ .runStopped
  reportable : Reportable e.kind e.payload

/-- Every event was admitted by those before it. -/
abbrev History (runId : Str) (events : List Event) : Prop := Grown (Admits runId) events

variable {runId : Str} {events : List Event} {e : Event} {record : Fields} {records : List Fields}
  {rt : Runtime}

theorem History.paired (h : History runId events) : Paired runId events :=
  Grown.mono h fun _ _ ha ↦ ha.follows

/-- What is read of a payload is what was written, in another order. -/
theorem payloadIn_canon {payload : Fields} {key : String} {texts : List Str} :
    payloadIn (Json.sortFields (Json.canonFields payload)) key texts =
      payloadIn payload key texts := by
  rw [payloadIn, getOrNull_canon, payloadIn]
  cases getOrNull payload key <;> rw [Json.canon]

theorem postInit_canon : e.canon.postInit = e.postInit := by
  simp only [Event.postInit, Event.canon, payloadIn_canon]

theorem names_canon {kind : EventKind} {call : Str} :
    Names kind call (events.map Event.canon) ↔ Names kind call events := by
  simp only [Names, List.mem_map]
  constructor
  · rintro ⟨_, ⟨e, he, rfl⟩, hk, hc⟩
    exact ⟨e, he, hk, hc⟩
  · rintro ⟨e, he, hk, hc⟩
    exact ⟨_, ⟨e, he, rfl⟩, hk, hc⟩

theorem Admits.canon (h : Admits runId events e) :
    Admits runId (events.map Event.canon) e.canon where
  follows :=
    { postInit := postInit_canon.trans h.follows.postInit
      ofRun := h.follows.ofRun
      sequence := by rw [List.length_map]; exact h.follows.sequence
      started := fun hk ↦ by
        rw [List.length_map]
        exact h.follows.started hk
      finished := fun hk ↦ by
        simp only [names_canon]
        exact h.follows.finished hk }
  starts := List.map_eq_nil_iff.trans h.starts
  going := fun e' he' ↦ by
    obtain ⟨original, horiginal, rfl⟩ := List.mem_map.mp he'
    exact h.going original horiginal
  reportable := h.reportable.canon

theorem History.canon (h : History runId events) : History runId (events.map Event.canon) := by
  refine h.induction (R := fun events ↦ History runId (events.map Event.canon)) grown_nil
    fun before x _ ih hx ↦ ?_
  rw [List.map_append]
  exact grown_concat.mpr ⟨ih, hx.canon⟩

/-! ## The reader, record by record

Each field of a record is read back as the event had it. -/

theorem isKind_reads {kind : EventKind} (h : e.Reads record) :
    isKind kind record = true ↔ e.kind = kind := by
  obtain ⟨recordedAt, h⟩ := h
  have hkind : getOrNull record "kind" = .str e.kind.text := by
    rw [getOrNull, h]
    rfl
  rw [isKind_iff, hkind, Json.str.injEq]
  exact EventKind.text_injective.eq_iff

theorem isKind_reads_false {kind : EventKind} (h : e.Reads record) (hne : e.kind ≠ kind) :
    isKind kind record = false := Bool.eq_false_iff.mpr fun hk ↦ hne ((isKind_reads h).mp hk)

theorem callId_reads (h : e.Reads record) : getOrNull record "call_id" = textOrNull e.callId := by
  obtain ⟨recordedAt, h⟩ := h
  rw [getOrNull, h]
  rfl

theorem field_payload_reads (h : e.Reads record) :
    field record "payload" = .ok (.obj e.payload) := by
  obtain ⟨recordedAt, h⟩ := h
  rw [field, h]
  rfl

theorem lookup_sequence_reads (h : e.Reads record) :
    Json.lookup (str "sequence") record = some (.int e.sequence) := by
  obtain ⟨recordedAt, h⟩ := h
  rw [h]
  rfl

theorem idAt_reads (h : e.Reads record) :
    idAt rt runId record = .ok (placeId runId e.sequence) := by
  rw [idAt, lookup_sequence_reads h]
  show Except.ok (runId ++ str ":" ++ decimalInt e.sequence) = _
  rw [decimalInt, if_neg (Int.not_lt.mpr (Int.natCast_nonneg _)), Int.natAbs_natCast, placeId]

theorem checkId_reads (h : e.Reads record) (hrun : e.runId = runId) :
    checkId rt runId record = .ok () := by
  have hid : isText (getOrNull record "event_id") (placeId runId e.sequence) = true := by
    obtain ⟨recordedAt, h⟩ := h
    rw [isText_iff, getOrNull, h, ← hrun]
    rfl
  refine Except.bind_eq_ok.mpr ⟨_, idAt_reads h, ?_⟩
  rw [if_neg (by rw [hid]; exact Bool.true_eq_false.mp)]
  rfl

/-- The calls that the reader has seen are those of the events. -/
structure Tracks (calls : Calls) (events : List Event) : Prop where
  started : ∀ call, call ∈ calls.started ↔ Names .callStarted call events
  finished : ∀ call, call ∈ calls.finished ↔ Names .callFinished call events

theorem tracks_nil : Tracks ⟨[], []⟩ [] where
  started := fun _ ↦ iff_of_false List.not_mem_nil fun ⟨_, he, _⟩ ↦ absurd he List.not_mem_nil
  finished := fun _ ↦ iff_of_false List.not_mem_nil fun ⟨_, he, _⟩ ↦ absurd he List.not_mem_nil

variable {calls : Calls}

/-- An event that is not half a call leaves the calls as they are. -/
theorem Tracks.concat (h : Tracks calls events) (hs : e.kind ≠ .callStarted)
    (hf : e.kind ≠ .callFinished) : Tracks calls (events ++ [e]) where
  started := fun call ↦ by
    rw [names_concat, h.started]
    exact (or_iff_left fun hk ↦ hs hk.1).symm
  finished := fun call ↦ by
    rw [names_concat, h.finished]
    exact (or_iff_left fun hk ↦ hf hk.1).symm

/-- An id that an event has is a text that is not blank. -/
theorem nonemptyText_placeId (n : ℕ) :
    nonemptyText (.str (placeId runId n)) = .ok (placeId runId n) := by
  have hblank : isBlank (placeId runId n) = false := by
    rw [placeId, isBlank, List.all_append, List.all_append,
      show (str ":").all isSpace = false from by decide, Bool.and_false, Bool.false_and]
  exact if_neg fun hnil ↦ by
    rw [strip_eq_nil_iff.mp hnil] at hblank
    cases hblank

theorem checkRecord_started (hp : Paired runId events) (ha : Admits runId events e)
    (ht : Tracks calls events) (hr : e.Reads record) (hk : e.kind = .callStarted) :
    ∃ calls', checkRecord rt runId calls record = .ok calls' ∧ Tracks calls' (events ++ [e]) := by
  have hcall := ha.follows.started hk
  have hnew : placeId runId events.length ∉ calls.started :=
    fun h ↦ hp.not_names ((ht.started _).mp h)
  refine ⟨{ calls with started := placeId runId events.length :: calls.started },
    Except.bind_eq_ok.mpr ⟨_, field_payload_reads hr, ?_⟩, fun call ↦ ?_, fun call ↦ ?_⟩
  · rw [if_pos ((isKind_reads hr).mpr hk), callId_reads hr, hcall]
    refine Except.bind_eq_ok.mpr ⟨_, nonemptyText_placeId _, ?_⟩
    refine Except.bind_eq_ok.mpr ⟨_, idAt_reads hr, ?_⟩
    rw [if_neg (by rw [ha.follows.sequence]; exact fun h ↦ h rfl), if_neg hnew]
    rfl
  · rw [names_concat, hcall, List.mem_cons, ht.started, or_comm, Option.some.injEq]
    exact or_congr_right ⟨fun h ↦ ⟨hk, h.symm⟩, fun h ↦ h.2.symm⟩
  · rw [names_concat, ht.finished]
    exact (or_iff_left fun h ↦ by rw [hk] at h; exact absurd h.1 (by decide)).symm

theorem checkRecord_finished (hp : Paired runId events) (ha : Admits runId events e)
    (ht : Tracks calls events) (hr : e.Reads record) (hk : e.kind = .callFinished) :
    ∃ calls', checkRecord rt runId calls record = .ok calls' ∧ Tracks calls' (events ++ [e]) := by
  obtain ⟨call, hcall, hstarted, hopen⟩ := ha.follows.finished hk
  obtain ⟨n, rfl⟩ : ∃ n, call = placeId runId n := by
    obtain ⟨s, hs, hsk, hsc⟩ := hstarted
    exact ⟨s.sequence, Option.some.inj (hsc.symm.trans (hp.started s hs hsk))⟩
  refine ⟨{ calls with finished := placeId runId n :: calls.finished },
    Except.bind_eq_ok.mpr ⟨_, field_payload_reads hr, ?_⟩, fun other ↦ ?_, fun other ↦ ?_⟩
  · rw [isKind_reads_false hr (by rw [hk]; decide), (isKind_reads hr).mpr hk, callId_reads hr,
      hcall]
    refine Except.bind_eq_ok.mpr ⟨_, nonemptyText_placeId _, ?_⟩
    rw [if_neg (not_not.mpr ((ht.started _).mpr hstarted)),
      if_neg (mt (ht.finished _).mp hopen)]
    rfl
  · rw [names_concat, ht.started]
    exact (or_iff_left fun h ↦ by rw [hk] at h; exact absurd h.1 (by decide)).symm
  · rw [names_concat, hcall, List.mem_cons, ht.finished, or_comm, Option.some.injEq]
    exact or_congr_right ⟨fun h ↦ ⟨hk, h.symm⟩, fun h ↦ h.2.symm⟩

/-- A list of items that all pass is gone through. -/
theorem forM_eq_ok {items : List Json} {f : Json → Except Exc Unit}
    (h : ∀ v ∈ items, f v = .ok ()) : items.forM f = .ok () := by
  induction items with
  | nil => rfl
  | cons v rest ih =>
    exact Except.bind_eq_ok.mpr ⟨_, h v List.mem_cons_self,
      ih fun w hw ↦ h w (List.mem_cons_of_mem _ hw)⟩

theorem payloadList_eq_ok {payload : Fields} {key : String} {items : List Json}
    (h : Json.lookup (str key) payload = some (.arr items)) :
    payloadList (.obj payload) key = .ok items := by
  refine Except.bind_eq_ok.mpr ⟨some (.arr items), ?_, rfl⟩
  rw [payloadGet, h]

theorem forM_payloadList {payload : Fields} {key : String} {P : Json → Prop}
    {f : Json → Except Exc Unit} {next : Except Exc Calls} {calls : Calls}
    (h : ItemsAre payload key P) (hf : ∀ v, P v → f v = .ok ()) (hnext : next = .ok calls) :
    (payloadList (.obj payload) key >>= fun items ↦ items.forM f >>= fun _ ↦ next) = .ok calls := by
  obtain ⟨items, hitems, hall⟩ := h
  refine Except.bind_eq_ok.mpr ⟨items, payloadList_eq_ok hitems, ?_⟩
  exact Except.bind_eq_ok.mpr ⟨_, forM_eq_ok fun v hv ↦ hf v (hall v hv), hnext⟩

theorem nonemptyText_discarded {v : Json} (h : IsNonempty v) :
    (do let _ ← nonemptyText v) = (.ok () : Except Exc Unit) := by
  obtain ⟨s, hs⟩ := h
  exact Except.bind_eq_ok.mpr ⟨s, hs, rfl⟩

theorem checkStop_eq_ok {payload : Fields} (h : Reportable .runStopped payload) :
    checkStop (.obj payload) = .ok () := by
  obtain ⟨⟨status, hstatus⟩, ⟨reason, hreason⟩, ⟨cls, hcls⟩⟩ := h
  refine Except.bind_eq_ok.mpr ⟨_, rfl, Except.bind_eq_ok.mpr ⟨status, hstatus, ?_⟩⟩
  refine Except.bind_eq_ok.mpr ⟨_, rfl, Except.bind_eq_ok.mpr ⟨reason, hreason, ?_⟩⟩
  exact Except.bind_eq_ok.mpr ⟨_, rfl, Except.bind_eq_ok.mpr ⟨cls, hcls, rfl⟩⟩

/-- What is not half a call passes if its payload holds what a report takes from it. -/
theorem checkRecord_other (hr : e.Reads record) (h : Reportable e.kind e.payload)
    (hs : e.kind ≠ .callStarted) (hf : e.kind ≠ .callFinished) :
    checkRecord rt runId calls record = .ok calls := by
  refine Except.bind_eq_ok.mpr ⟨_, field_payload_reads hr, ?_⟩
  rw [isKind_reads_false hr hs, isKind_reads_false hr hf]
  by_cases hobserved : e.kind = .observationRecorded
  · rw [(isKind_reads hr).mpr hobserved]
    rw [hobserved] at h
    refine forM_payloadList h.1 (fun _ h ↦ h) ?_
    refine forM_payloadList h.2.1 (fun _ h ↦ h) ?_
    exact forM_payloadList h.2.2 (fun _ ↦ nonemptyText_discarded) rfl
  rw [isKind_reads_false hr hobserved]
  by_cases hdecided : e.kind = .decisionRecorded
  · rw [(isKind_reads hr).mpr hdecided]
    rw [hdecided] at h
    refine forM_payloadList h.1 (fun _ ↦ nonemptyText_discarded) ?_
    exact forM_payloadList h.2 (fun _ ↦ nonemptyText_discarded) rfl
  rw [isKind_reads_false hr hdecided]
  by_cases hplanned : e.kind = .planSelected
  · rw [(isKind_reads hr).mpr hplanned]
    rw [hplanned] at h
    obtain ⟨s, hs, -⟩ := IsNonempty.eq_str h
    obtain ⟨t, ht⟩ := h
    refine Except.bind_eq_ok.mpr ⟨Json.lookup (str "route") e.payload, rfl, ?_⟩
    rw [getOrNull] at hs ht
    cases hlookup : Json.lookup (str "route") e.payload with
    | none =>
      rw [hlookup] at hs
      cases hs
    | some route =>
      rw [hlookup] at hs ht
      obtain rfl : route = .str s := hs
      exact Except.bind_eq_ok.mpr ⟨t, ht, rfl⟩
  rw [isKind_reads_false hr hplanned]
  by_cases hstopped : e.kind = .runStopped
  · rw [(isKind_reads hr).mpr hstopped]
    rw [hstopped] at h
    exact Except.bind_eq_ok.mpr ⟨_, checkStop_eq_ok h, rfl⟩
  rw [isKind_reads_false hr hstopped]
  rfl

/-- One round of the loop of `_validate_history`. -/
theorem checkRecord_tracks (hp : Paired runId events) (ha : Admits runId events e)
    (ht : Tracks calls events) (hr : e.Reads record) :
    ∃ calls', checkRecord rt runId calls record = .ok calls' ∧ Tracks calls' (events ++ [e]) := by
  by_cases hs : e.kind = .callStarted
  · exact checkRecord_started hp ha ht hr hs
  by_cases hf : e.kind = .callFinished
  · exact checkRecord_finished hp ha ht hr hf
  exact ⟨calls, checkRecord_other hr ha.reportable hs hf, ht.concat hs hf⟩

theorem foldlM_checkRecord {after : List Event} (hr : List.Forall₂ Event.Reads after records) :
    ∀ {before : List Event} {calls : Calls}, History runId (before ++ after) →
      Tracks calls before → ∃ calls', records.foldlM (checkRecord rt runId) calls = .ok calls' := by
  induction hr with
  | nil => exact fun {_ calls} _ _ ↦ ⟨calls, rfl⟩
  | @cons e record after records hr _ ih =>
    intro before calls h ht
    have hbefore : History runId before := Grown.left h
    obtain ⟨calls', hcalls, ht'⟩ : ∃ calls', checkRecord rt runId calls record = .ok calls' ∧
        Tracks calls' (before ++ [e]) :=
      checkRecord_tracks hbefore.paired (h before e after rfl) ht hr
    rw [List.append_cons] at h
    obtain ⟨calls'', hrest⟩ := ih h ht'
    refine ⟨calls'', ?_⟩
    rw [List.foldlM_cons]
    exact Except.bind_eq_ok.mpr ⟨calls', hcalls, hrest⟩

/-! ## The ends

A history has one start and at most one stop, and the validation counts the same. -/

/-- The records of a kind are those of the events of the kind. -/
theorem filter_isKind (kind : EventKind) (hr : List.Forall₂ Event.Reads events records) :
    List.Forall₂ Event.Reads (events.filter fun e ↦ e.kind = kind)
      (records.filter (isKind kind)) := by
  refine List.rel_filter (R := Event.Reads) (fun e record hr ↦ ?_) hr
  show decide (e.kind = kind) = true ↔ isKind kind record = true
  rw [isKind_reads hr, decide_eq_true_eq]

/-- A history has one start, its first event. -/
theorem History.filter_started (h : History runId (e :: events)) :
    (e :: events).filter (fun e ↦ e.kind = .runStarted) = [e] := by
  have hfirst := (h [] e events rfl).starts.mp rfl
  rw [List.filter_cons, if_pos (decide_eq_true hfirst), List.filter_eq_nil_iff.mpr]
  intro x hx
  obtain ⟨before, after, rfl⟩ := List.append_of_mem hx
  have hx := h (e :: before) x after rfl
  simpa using fun hk ↦ List.cons_ne_nil _ _ (hx.starts.mpr hk)

/-- A history has one stop at most, its last event. -/
theorem History.filter_stopped (h : History runId (events ++ [e])) :
    (events ++ [e]).filter (fun e ↦ e.kind = .runStopped) =
      if e.kind = .runStopped then [e] else [] := by
  have hnone : events.filter (fun e ↦ e.kind = .runStopped) = [] := by
    refine List.filter_eq_nil_iff.mpr fun x hx ↦ ?_
    simpa using (grown_concat.mp h).2.going x hx
  rw [List.filter_append, hnone, List.nil_append, List.filter_singleton]
  by_cases hk : e.kind = .runStopped <;> simp [hk]

theorem checkEnds_reads (h : History runId events) (hne : events ≠ [])
    (hr : List.Forall₂ Event.Reads events records) : checkEnds rt records = .ok () := by
  have hstart : ∃ start, records.filter (isKind .runStarted) = [start] ∧
      Json.lookup (str "sequence") start = some (.int 0) := by
    obtain ⟨e, rest, rfl⟩ := List.exists_cons_of_ne_nil hne
    have hfilter := filter_isKind .runStarted hr
    rw [h.filter_started] at hfilter
    obtain ⟨start, rest', hreads, hnil, heq⟩ := List.forall₂_cons_left_iff.mp hfilter
    rw [List.forall₂_nil_left_iff] at hnil
    refine ⟨start, heq.trans (by rw [hnil]), ?_⟩
    rw [lookup_sequence_reads hreads, (h [] e rest rfl).follows.sequence]
    rfl
  obtain ⟨start, hstart, hzero⟩ := hstart
  obtain ⟨front, last, rfl⟩ : ∃ front last, events = front ++ [last] :=
    ⟨_, _, (List.dropLast_append_getLast hne).symm⟩
  obtain ⟨records, record, hlast, rfl⟩ : ∃ rs r, Event.Reads last r ∧ records = rs ++ [r] := by
    have hreverse := List.forall₂_reverse_iff.mpr hr
    rw [List.reverse_append] at hreverse
    obtain ⟨r, rs, hlast, -, heq⟩ := List.forall₂_cons_left_iff.mp hreverse
    exact ⟨rs.reverse, r, hlast, by rw [← List.reverse_cons, ← heq, List.reverse_reverse]⟩
  have hstops := filter_isKind .runStopped hr
  rw [h.filter_stopped] at hstops
  have hlength := hstops.length_eq
  rw [checkEnds, hstart]
  dsimp only
  have hequals : equalsZero rt (getOrNull start "sequence") = true := by
    rw [getOrNull, hzero]
    rfl
  rw [if_neg (by rw [hequals]; exact Bool.true_eq_false_eq_False), if_neg, if_neg]
  · rintro ⟨hsome, hnot⟩
    rw [List.getLast?_concat, Option.any_some] at hnot
    have hkind : last.kind ≠ .runStopped := fun hk ↦ by
      rw [(isKind_reads hlast).mpr hk] at hnot
      cases hnot
    rw [if_neg hkind, List.length_nil] at hlength
    exact hsome (List.length_eq_zero_iff.mp hlength.symm)
  · rw [← hlength]
    split_ifs <;> simp

/-- A log can be built from every history. -/
theorem History.build_eq (h : History runId events) (hrun : runId ≠ []) :
    build runId events = .ok ⟨runId, events⟩ := by
  rw [build, if_neg hrun, if_neg, if_neg (not_not.mpr h.paired.numbered)]
  rw [List.any_eq_true]
  rintro ⟨x, hx, hother⟩
  exact absurd (h.paired.wellFormed.ofRun x hx) (of_decide_eq_true hother)

/-- **`_validate_history` accepts the records of every history.** -/
theorem History.validateHistory_eq (h : History runId events) (hne : events ≠ [])
    (hr : List.Forall₂ Event.Reads events records) : validateHistory rt runId records = .ok () := by
  have hpost : ∀ e ∈ events, e.postInit = .ok () := h.paired.each fun _ _ hf ↦ hf.postInit
  have hrun : ∀ e ∈ events, e.runId = runId := h.paired.wellFormed.ofRun
  have hnil : runId ≠ [] := by
    obtain ⟨e, rest, rfl⟩ := List.exists_cons_of_ne_nil hne
    rw [← hrun e List.mem_cons_self]
    exact Event.runId_ne_nil (hpost e List.mem_cons_self)
  have hbuild := h.build_eq hnil
  have hevents : checkEvents rt runId records = .ok () := by
    rw [checkEvents, eventLog_eq hpost hr hbuild]
  have hids : records.forM (checkId rt runId) = .ok () := by
    clear hne hevents hbuild hpost h
    induction hr with
    | nil => rfl
    | @cons e record _ _ hr _ ih =>
      exact Except.bind_eq_ok.mpr ⟨_, checkId_reads hr (hrun e List.mem_cons_self),
        ih fun x hx ↦ hrun x (List.mem_cons_of_mem _ hx)⟩
  obtain ⟨calls, hcalls⟩ : ∃ calls, records.foldlM (checkRecord rt runId) ⟨[], []⟩ = .ok calls :=
    foldlM_checkRecord hr (show History runId ([] ++ events) from h) tracks_nil
  refine Except.bind_eq_ok.mpr ⟨_, hevents, Except.bind_eq_ok.mpr ⟨_, hids, ?_⟩⟩
  exact Except.bind_eq_ok.mpr ⟨_, checkEnds_reads h hne hr,
    Except.bind_eq_ok.mpr ⟨calls, hcalls, rfl⟩⟩

/-- A file gives back what was written, so its reader accepts it. -/
theorem History.validateHistory_read (h : History runId events) (hne : events ≠ [])
    (hr : List.Forall₂ Event.IsRead events records) : validateHistory rt runId records = .ok () :=
  h.canon.validateHistory_eq (by simpa using hne)
    (List.forall₂_map_left_iff.mpr (hr.imp fun _ _ ↦ Event.IsRead.reads))

end EventLog

end AtlasCore
