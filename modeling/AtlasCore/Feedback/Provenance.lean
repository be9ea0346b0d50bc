import AtlasCore.Controller.Logged
import AtlasCore.EventLog.Written
import AtlasCore.Lib.Dict

/-!
# What a run read

Two readers fold the observation rounds of a log into a list of sources.  `inspect_run` says for
every source which bytes the run went on with; `_provenance` says which bytes a verdict on the run
rests on, and follows only what the rounds added.  The former keeps a source under its id and gives
it the path that it had before, or the word `unknown`, where an entry names none; the latter keeps
it under its id and its digest and writes `None`.

Both folds are resolved into what the log says: the sources of a provenance are what was added last
under its key (`mem_sourcesOf_iff`), and a detail is the last entry about a source with the path
that was named for it since it was last added (`mem_entered_iff`).  So a provenance is complete
exactly when whatever the rounds adopted is accounted for by what they added
(`provenance_complete_iff`).
-/

set_option autoImplicit false

namespace AtlasCore

namespace Feedback

open Py Inspect

/-- `{"source_id": ..., "path": ..., "sha256": ...}`: a source that a run read, and the bytes it
read of it. -/
structure SourceRef where
  sourceId : Str
  path : Str
  sha256 : Str
  deriving DecidableEq

/-- The key under which `_provenance` keeps a source. -/
def SourceRef.key (s : SourceRef) : Str := s.sourceId ++ str ":" ++ s.sha256

/-- `(a["path"], a["sha256"]) <= (b["path"], b["sha256"])`: the order in which a provenance has its
sources. -/
def sourceLe (a b : SourceRef) : Prop :=
  if a.path = b.path then Json.keyLe a.sha256 b.sha256 = true else Json.keyLe a.path b.path = true

instance : DecidableRel sourceLe := fun _ _ ↦ inferInstanceAs (Decidable (ite _ _ _))

section
variable (rt : Runtime)

/-! ## `_provenance`

The provenance of an outcome, as the source collects it from the log. -/

/-- `(record.get("payload") or {}).get(key)`: a payload that is missing or empty has nothing; one
that is no mapping raises. -/
def payloadOrEmpty (record : Fields) (key : String) : Except Exc Json :=
  if isFalsy rt (getOrNull record "payload") then .ok .null
  else
    match getOrNull record "payload" with
    | .obj payload => .ok (getOrNull payload key)
    | _ => .error attributeError

/-- An item that has a `get`; any other raises. -/
def asDict : Json → Except Exc Fields
  | .obj fields => .ok fields
  | _ => .error attributeError

/-- The items of `value or []`, each of which has to have a `get`. -/
def itemsOrNone (value : Json) : Except Exc (List Fields) :=
  if isFalsy rt value then .ok []
  else
    match value with
    | .arr items => items.mapM asDict
    | .str _ | .obj _ => .error attributeError
    | _ => .error .typeError

/-- `record.get("payload", {}).get(key)`: here only a missing payload has nothing, and a `null`
raises. -/
def payloadIfAny (record : Fields) (key : String) : Except Exc Json :=
  match Json.lookup (str "payload") record with
  | none => .ok .null
  | some (.obj payload) => .ok (getOrNull payload key)
  | some _ => .error attributeError

/-- An item of `added`, as `_provenance` keeps it. -/
def addedRef (item : Fields) : SourceRef :=
  ⟨itemText rt item "source_id", itemText rt item "path", itemText rt item "sha256"⟩

/-- What `_provenance` says of a run: the log it is taken from, how the run stopped, and the sources
it read. -/
structure Provenance where
  eventLogSha256 : Str
  runStoppedEventId : Str
  stopReason : Json
  taskSha256 : Json
  route : Json
  sources : List SourceRef

/-- `read_jsonl(event_log)`: every line of the file as a value; a file that is missing or cannot be
read raises. -/
def readLog (eventLog : Option Bytes) : Except Exc (List Json) :=
  match eventLog with
  | none => .error .notAFile
  | some bytes =>
    match readJsonl bytes with
    | .error _ => .error .valueError
    | .ok values => .ok values

/-- A log of records that break no line reads back. -/
theorem readLog_logText {records : List Record} (hw : ∀ r ∈ records, r.Writable)
    (hb : ∀ r ∈ records, r.breakFree = true) :
    readLog (some (utf8 (logText records))) = .ok (records.map fun r ↦ .obj r.readFields) := by
  rw [readLog, readJsonl_logText hw hb]

/-- The items that the rounds added, in the order of the log. -/
def addedItems (records : List Fields) : Except Exc (List (List Fields)) :=
  (records.filter (isKind .observationRecorded)).mapM fun record ↦ do
    itemsOrNone rt (← payloadOrEmpty rt record "added")

/-- `sources.values()`, sorted: one source under each key, the last that was entered. -/
def sourcesOf (added : List SourceRef) : List SourceRef :=
  ((Dict.fill (added.map fun s ↦ (s.key, s)) []).map (·.2)).insertionSort sourceLe

/-- `_provenance`, where the log has a start and a stop of the run. -/
def provenanceOf (runId eventLogSha256 : Str) (records : List Fields) (started stopped : Fields) :
    Except Exc Provenance := do
  let routes ← (records.filter (isKind .planSelected)).mapM (payloadOrEmpty rt · "route")
  let added ← addedItems rt records
  return {
    eventLogSha256 := eventLogSha256
    runStoppedEventId := runId ++ str ":" ++ strValue rt (getOrNull stopped "sequence")
    stopReason := ← payloadIfAny stopped "stop_reason"
    taskSha256 := ← payloadIfAny started "task_sha256"
    route := routes.getLast?.getD .null
    sources := sourcesOf (added.flatten.map (addedRef rt)) }

/-- `_provenance`: the run has to be finished in this log, and what is kept of it is read from its
records. -/
def provenance (eventLog : Option Bytes) (runId : Str) : Except Exc Provenance := do
  match objects (← readLog eventLog) with
  | none => throw attributeError
  | some all =>
    let records := all.filter (isOf runId)
    match (records.filter (isKind .runStarted)).head?,
      (records.filter (isKind .runStopped)).getLast? with
    | some started, some stopped =>
      provenanceOf rt runId (sha256 (eventLog.getD [])) records started stopped
    | _, _ => throw Exc.valueError

/-! ## `source_details`

The sources of a run, as a report lists them.  Both readings are of the same records, and they do
not follow the same keys. -/

/-- `str(value or default)`: the default stands for anything that Python takes for nothing. -/
def textOr (value : Json) (default : Str) : Str :=
  if isFalsy rt value then default else strValue rt value

/-- The items of `payload.get(key, [])`; no character and no key is a `Mapping`. -/
def iterated (payload : Json) (key : String) : Except Exc (List Json) := do
  match ← payloadGet payload key with
  | none => return []
  | some (.arr items) => return items
  | some (.str _) | some (.obj _) => return []
  | some _ => throw Exc.typeError

/-- An item of `added`, as a report of the run has it: under its id, with its path and its digest.
-/
def addDetail (details : List (Str × SourceRef)) : Json → Except Exc (List (Str × SourceRef))
  | .obj item => do
    let id := strValue rt (← field item "source_id")
    return Dict.assign id
      ⟨id, textOr rt (getOrNull item "path") UNKNOWN, textOr rt (getOrNull item "sha256") UNKNOWN⟩
      details
  | _ => .ok details

/-- An item of `superseded`: an entry without a path keeps that of the entry before it. -/
def supersedeDetail (details : List (Str × SourceRef)) : Json → Except Exc (List (Str × SourceRef))
  | .obj item => do
    let id := strValue rt (← field item "source_id")
    let previous := ((Dict.get id details).map (·.path)).getD []
    return Dict.assign id
      ⟨id, textOr rt (getOrNull item "path") (if previous = [] then UNKNOWN else previous),
        textOr rt (getOrNull item "new_sha256") UNKNOWN⟩
      details
  | _ => .ok details

/-- One round of observation: what it added first, and then what it superseded. -/
def roundDetails (details : List (Str × SourceRef)) (record : Fields) :
    Except Exc (List (Str × SourceRef)) := do
  let payload ← field record "payload"
  let details ← (← iterated payload "added").foldlM (addDetail rt) details
  (← iterated payload "superseded").foldlM (supersedeDetail rt) details

/-- `source_details`: every source the run read, with the bytes it had last. -/
def sourceDetails (records : List Fields) : Except Exc (List SourceRef) := do
  let details ← (records.filter (isKind .observationRecorded)).foldlM (roundDetails rt) []
  return details.map (·.2)

end

/-! ## What the rounds of a log adopted

An entry of `added` or of `superseded` says which source was adopted, where it is and what bytes it
had.  Only the id is always there: a log may have been written before paths were recorded. -/

/-- An item that names a source, where it is, and its bytes. -/
def NamesSource (digest : String) (v : Json) : Prop :=
  ∃ item, v = .obj item ∧ IsNonempty (getOrNull item "source_id") ∧
    IsNonempty (getOrNull item "path") ∧ IsNonempty (getOrNull item digest)

/-- The dicts of a list; what else is in it is passed over. -/
def dicts (items : List Json) : List Fields :=
  items.filterMap fun
    | .obj fields => some fields
    | _ => none

/-- What a record holds under a key of its payload. -/
def entries (key : String) (record : Fields) : List Fields :=
  match getOrNull record "payload" with
  | .obj payload =>
    match getOrNull payload key with
    | .arr items => dicts items
    | _ => []
  | _ => []

/-- What a round adopted of one source: an entry of `added` or of `superseded`. -/
inductive Adoption where
  | added (item : Fields)
  | superseded (item : Fields)

namespace Adoption

/-- The entry, whichever list it stands in. -/
def item : Adoption → Fields
  | added item => item
  | superseded item => item

/-- The key under which the entry has the bytes that the run went on with. -/
def digestKey : Adoption → String
  | added _ => "sha256"
  | superseded _ => "new_sha256"

/-- What the entry says of the bytes: of those that were added, or of the new ones. -/
def digest (a : Adoption) : Json := getOrNull a.item a.digestKey

/-- What the entry says of the place; logs of an earlier form do not say it. -/
def path (a : Adoption) : Json := getOrNull a.item "path"

variable (rt : Runtime)

/-- The source that the entry is about, as a text. -/
def sourceId (a : Adoption) : Str := itemText rt a.item "source_id"

/-- The triple that the entry names, with every part written as a text. -/
def ref (a : Adoption) : SourceRef := ⟨a.sourceId rt, strValue rt a.path, strValue rt a.digest⟩

variable {rt} in
theorem ref_added {item : Fields} : (added item).ref rt = ⟨itemText rt item "source_id",
    itemText rt item "path", itemText rt item "sha256"⟩ := rfl

variable {rt} in
theorem ref_superseded {item : Fields} : (superseded item).ref rt = ⟨itemText rt item "source_id",
    itemText rt item "path", itemText rt item "new_sha256"⟩ := rfl

/-- The entry names a path and a digest. -/
def NamesBytes (a : Adoption) : Prop := isFalsy rt a.path = false ∧ isFalsy rt a.digest = false

end Adoption

/-- What one round adopted, in the order in which a report takes it. -/
def adoptionsOf (record : Fields) : List Adoption :=
  (entries "added" record).map .added ++ (entries "superseded" record).map .superseded

/-- What the rounds adopted, in the order of the log. -/
def adoptions (records : List Fields) : List Adoption :=
  (records.filter (isKind .observationRecorded)).flatMap adoptionsOf

/-- The path that an entry without one leaves to its source: what is added starts anew. -/
def Adoption.inherits (a : Adoption) (earlier : Str) : Str :=
  match a with
  | .added _ => UNKNOWN
  | .superseded _ => earlier

/-- The path last named for a source since it was last added, the newest entry first. -/
def pathSince (rt : Runtime) (id : Str) : List Adoption → Str
  | [] => UNKNOWN
  | a :: older =>
    if a.sourceId rt = id then textOr rt a.path (a.inherits (pathSince rt id older))
    else pathSince rt id older

section
variable (rt : Runtime) (records : List Fields)

/-- What some round added, in the order of the log. -/
def addedRefs : List SourceRef :=
  ((records.filter (isKind .observationRecorded)).flatMap (entries "added")).map (addedRef rt)

/-- What was added last under its key, which is what the dict of sources holds in the end. -/
def LastAdded (s : SourceRef) : Prop :=
  ((addedRefs rt records).filter fun t ↦ t.key = s.key).getLast? = some s

/-- The last that was adopted of its source, and what came before it, the newest first. -/
def IsLatest (a : Adoption) (older : List Adoption) : Prop :=
  ∃ newer, (adoptions records).reverse = newer ++ a :: older ∧
    ∀ b ∈ newer, b.sourceId rt ≠ a.sourceId rt

/-- What was adopted is accounted for by what was added. -/
structure Accounted : Prop where
  /-- Where a path and bytes were adopted, they were also the last to be added under their key. -/
  named : ∀ a ∈ adoptions records, a.NamesBytes rt → LastAdded rt records (a.ref rt)
  /-- So were the bytes of a source that it has in the end without a path of their own, with the
  path that was named for the source before. -/
  pathless : ∀ a older, IsLatest rt records a older → isFalsy rt a.path = true →
    isFalsy rt a.digest = false → strValue rt a.digest ≠ UNKNOWN →
      LastAdded rt records
        ⟨a.sourceId rt, pathSince rt (a.sourceId rt) (a :: older), strValue rt a.digest⟩

end

/-- The log of a run that ended, with these records of the run. -/
structure FinishedLog (rt : Runtime) (runId : Str) (eventLog : Bytes)
    (records : List Fields) : Prop where
  read : ∃ values all, readJsonl eventLog = .ok values ∧ objects values = some all ∧
    all.filter (isOf runId) = records
  valid : validateHistory rt runId records = .ok ()
  finished : ∃ r ∈ records, isKind .runStopped r = true
  /-- An event has a dict for its payload. -/
  payloads : ∀ r ∈ records, ∃ payload, Json.lookup (str "payload") r = some (.obj payload)

/-! ## The rounds of the controller

What the controller writes of a round: every entry has its id, its path and its digest. -/

theorem isBlank_of_mem {s : Str} {c : CodePoint} (hc : c ∈ s) (hspace : isSpace c = false) :
    isBlank s = false := by
  rw [isBlank, List.all_eq_false]
  exact ⟨c, hc, by rw [hspace]; exact Bool.false_ne_true⟩

theorem isBlank_contentSha256 (o : Observation) : isBlank o.contentSha256 = false := by
  rcases o.digest_ok with h | h
  · rw [h]
    decide
  · rw [matchesSha256, Bool.and_eq_true, beq_iff_eq] at h
    obtain ⟨c, hc⟩ := List.exists_mem_of_length_pos (lt_of_lt_of_eq (Nat.succ_pos 63) h.1.symm)
    refine isBlank_of_mem (c := c) ?_ (isSpace_of_isHex (List.all_eq_true.mp h.2 c hc))
    split_ifs at hc
    · exact List.mem_of_mem_dropLast hc
    · exact hc

/-- What stands in the place of older bytes is an observation. -/
def SupersededBy (round : ObservationRound) : Prop :=
  ∀ s ∈ round.superseded, ∃ o : Observation,
    s.sourceId = o.sourceId ∧ s.path = o.path ∧ s.newSha256 = o.contentSha256

theorem supersededBy_step {snapshot : Snapshot} {existing : List Observation} {m next : Merging}
    {item : Option Observation} (h : SupersededBy m.round)
    (hs : m.step snapshot existing item = .ok next) : SupersededBy next.round := by
  cases item with
  | none => cases hs
  | some item =>
    rw [Merging.step] at hs
    split_ifs at hs
    dsimp only at hs
    split at hs
    · obtain rfl := Except.ok.inj hs
      exact h
    · split_ifs at hs
      · obtain rfl := Except.ok.inj hs
        exact h
      · obtain ⟨merged, -, hs⟩ := Except.bind_eq_ok.mp hs
        obtain rfl := Except.ok.inj hs
        exact h
      · obtain ⟨merged, -, hs⟩ := Except.bind_eq_ok.mp hs
        obtain rfl := Except.ok.inj hs
        intro s hmem
        rcases List.mem_append.mp hmem with hmem | hmem
        · exact h s hmem
        · rw [List.mem_singleton.mp hmem]
          exact ⟨item, rfl, rfl, rfl⟩

theorem supersededBy_run {snapshot : Snapshot} {existing : List Observation} :
    ∀ {incoming : List (Option Observation)} {m next : Merging}, SupersededBy m.round →
      m.run snapshot existing incoming = .ok next → SupersededBy next.round
  | [], _, _, h, hrun => by
    rw [← Except.ok.inj hrun]
    exact h
  | item :: rest, m, next, h, hrun => by
    obtain ⟨m', hstep, hrest⟩ := Except.bind_eq_ok.mp hrun
    exact supersededBy_run (supersededBy_step h hstep) hrest

/-- Whatever a host answers, a round that is merged supersedes sources by observations. -/
theorem mergeObservations_supersededBy {snapshot : Snapshot} {existing : List Observation}
    {incoming : List (Option Observation)} {merged : List Observation} {round : ObservationRound}
    (h : mergeObservations snapshot existing incoming = .ok (merged, round)) :
    SupersededBy round := by
  obtain ⟨m, hm, h⟩ := Except.bind_eq_ok.mp h
  obtain ⟨rfl, rfl⟩ := Prod.mk.inj (Except.ok.inj h)
  exact supersededBy_run (fun _ hs ↦ absurd hs List.not_mem_nil) hm

/-- The payload of a round names the sources that were adopted in it. -/
def NamesRound (payload : Fields) : Prop :=
  ItemsAre payload "added" (NamesSource "sha256") ∧
    ItemsAre payload "superseded" (NamesSource "new_sha256")

theorem namesRound_payload {r : RoundRecord} (h : SupersededBy r.round) : NamesRound r.payload := by
  refine ⟨⟨_, rfl, fun v hv ↦ ?_⟩, ⟨_, rfl, fun v hv ↦ ?_⟩⟩
  · obtain ⟨o, -, rfl⟩ := List.mem_map.mp hv
    exact ⟨_, rfl, isNonempty_str o.isBlank_sourceId, isNonempty_str o.isBlank_path,
      isNonempty_str (isBlank_contentSha256 o)⟩
  · obtain ⟨s, hs, rfl⟩ := List.mem_map.mp hv
    obtain ⟨o, hid, hpath, hsha⟩ := h s hs
    exact ⟨_, rfl, isNonempty_str (hid ▸ o.isBlank_sourceId),
      isNonempty_str (hpath ▸ o.isBlank_path),
      isNonempty_str (hsha ▸ isBlank_contentSha256 o)⟩

theorem NamesSource.masked {mask : Masking} {digest : String} {v : Json}
    (h : NamesSource digest v) :
    NamesSource digest (redactDocument mask v) := by
  obtain ⟨item, rfl, hid, hpath, hsha⟩ := h
  exact ⟨_, by rw [redactDocument], hid.masked_field, hpath.masked_field, hsha.masked_field⟩

theorem NamesSource.canon {digest : String} {v : Json} (h : NamesSource digest v) :
    NamesSource digest v.canon := by
  obtain ⟨item, rfl, hid, hpath, hsha⟩ := h
  refine ⟨_, by rw [Json.canon], ?_, ?_, ?_⟩ <;> rw [getOrNull_canon]
  · exact hid.canon
  · exact hpath.canon
  · exact hsha.canon

theorem NamesRound.masked {mask : Masking} {payload : Fields} (h : NamesRound payload) :
    NamesRound (redactFields mask payload) :=
  ⟨h.1.masked fun _ ↦ NamesSource.masked, h.2.masked fun _ ↦ NamesSource.masked⟩

theorem NamesRound.canon {payload : Fields} (h : NamesRound payload) :
    NamesRound (Json.sortFields (Json.canonFields payload)) :=
  ⟨h.1.canon fun _ ↦ NamesSource.canon, h.2.canon fun _ ↦ NamesSource.canon⟩

/-- Masked, written and read again, a round of the controller names what it adopted. -/
theorem namesRound_of_round {e : Event} {mask : Masking} {r : RoundRecord}
    (he : e.payload = redactFields mask r.payload) (h : SupersededBy r.round) :
    NamesRound e.canon.payload := by
  show NamesRound (Json.sortFields (Json.canonFields e.payload))
  rw [he]
  exact (namesRound_payload h).masked.canon

/-! ## Rounds that were validated

What the validation of a log promises of a round, which is less. -/

/-- An item that a validated round may have. -/
def IsSource (item : Fields) : Prop :=
  IsNonempty (getOrNull item "source_id") ∧
    ∀ path, Json.lookup (str "path") item = some path → IsNonempty path

/-- The record of a round, as the validation of a history leaves it. -/
def IsRound (record : Fields) : Prop :=
  ∃ payload added superseded, field record "payload" = .ok (.obj payload) ∧
    payloadList (.obj payload) "added" = .ok added ∧
    payloadList (.obj payload) "superseded" = .ok superseded ∧
    ∀ v ∈ added ++ superseded, ∃ item, v = .obj item ∧ IsSource item

section
variable {rt : Runtime} {record payload item : Fields} {key : String} {items : List Json}

theorem payloadList_eq_ok (h : payloadList (.obj payload) key = .ok items) :
    Json.lookup (str key) payload = none ∧ items = [] ∨
      Json.lookup (str key) payload = some (.arr items) := by
  rw [payloadList, payloadGet] at h
  cases hlookup : Json.lookup (str key) payload with
  | none =>
    rw [hlookup] at h
    exact .inl ⟨rfl, (Except.ok.inj h).symm⟩
  | some v =>
    rw [hlookup] at h
    cases v with
    | arr items' => exact .inr (congrArg (fun items ↦ some (Json.arr items)) (Except.ok.inj h))
    | _ => cases h

theorem forM_eq_ok {α : Type} {f : α → Except Exc Unit} :
    ∀ {xs : List α}, xs.forM f = .ok () → ∀ x ∈ xs, f x = .ok ()
  | [], _, _, hx => absurd hx List.not_mem_nil
  | x :: xs, h, y, hy => by
    obtain ⟨⟨⟩, hx, hxs⟩ := Except.bind_eq_ok.mp h
    rcases List.mem_cons.mp hy with rfl | hy
    · exact hx
    · exact forM_eq_ok hxs y hy

theorem isRound_of_checkRecord {runId : Str} {calls calls' : Inspect.Calls}
    (hkind : isKind .observationRecorded record = true)
    (h : checkRecord rt runId calls record = .ok calls') : IsRound record := by
  rw [checkRecord, isKind_eq_false hkind (by decide), isKind_eq_false hkind (by decide), hkind] at h
  obtain ⟨payload, hpayload, h⟩ := Except.bind_eq_ok.mp h
  simp only [Bool.false_eq_true, if_false, if_true] at h
  obtain ⟨added, hadded, h⟩ := Except.bind_eq_ok.mp h
  obtain ⟨⟨⟩, hchecked, h⟩ := Except.bind_eq_ok.mp h
  obtain ⟨superseded, hsuperseded, h⟩ := Except.bind_eq_ok.mp h
  obtain ⟨⟨⟩, hchecked', h⟩ := Except.bind_eq_ok.mp h
  cases payload with
  | obj payload =>
    refine ⟨payload, added, superseded, hpayload, hadded, hsuperseded, fun v hv ↦ ?_⟩
    rcases List.mem_append.mp hv with hv | hv
    · exact checkSource_inv (forM_eq_ok hchecked v hv)
    · exact checkSource_inv (forM_eq_ok hchecked' v hv)
  | _ => cases hadded

theorem FinishedLog.isRound {runId : Str} {eventLog : Bytes} {records : List Fields}
    (h : FinishedLog rt runId eventLog records) :
    ∀ r ∈ records.filter (isKind .observationRecorded), IsRound r := by
  obtain ⟨_, _, hvalid⟩ := Except.bind_eq_ok.mp h.valid
  obtain ⟨_, _, hvalid⟩ := Except.bind_eq_ok.mp hvalid
  obtain ⟨_, _, hvalid⟩ := Except.bind_eq_ok.mp hvalid
  obtain ⟨_, hloop, -⟩ := Except.bind_eq_ok.mp hvalid
  intro r hr
  obtain ⟨calls, calls', hcheck⟩ := mem_of_foldlM hloop r (List.mem_of_mem_filter hr)
  exact isRound_of_checkRecord (List.of_mem_filter hr) hcheck

/-! ## What the readers find

Both readers on a history that was validated: neither raises. -/

theorem mapM_asDict (h : ∀ v ∈ items, ∃ fields, v = .obj fields) :
    items.mapM asDict = .ok (dicts items) := by
  induction items with
  | nil => rfl
  | cons v rest ih =>
    obtain ⟨fields, rfl⟩ := h v List.mem_cons_self
    rw [List.mapM_cons, ih fun w hw ↦ h w (List.mem_cons_of_mem _ hw)]
    rfl

theorem payloadOrEmpty_obj (h : getOrNull record "payload" = .obj payload) :
    payloadOrEmpty rt record key = .ok (getOrNull payload key) := by
  rw [payloadOrEmpty, h]
  cases payload <;> rfl

theorem itemsOrNone_arr (h : ∀ v ∈ items, ∃ fields, v = .obj fields) :
    itemsOrNone rt (.arr items) = .ok (dicts items) := by
  rw [itemsOrNone]
  cases items with
  | nil => rfl
  | cons v rest => exact (if_neg Bool.false_ne_true).trans (mapM_asDict h)

theorem entries_eq (hpayload : field record "payload" = .ok (.obj payload))
    (h : payloadList (.obj payload) key = .ok items) : entries key record = dicts items := by
  rw [entries, getOrNull_of_field hpayload]
  dsimp only
  rw [getOrNull]
  obtain ⟨hnone, rfl⟩ | hsome := payloadList_eq_ok h
  · rw [hnone]
    rfl
  · rw [hsome]
    rfl

theorem itemsOrNone_eq (h : payloadList (.obj payload) key = .ok items)
    (hdicts : ∀ v ∈ items, ∃ fields, v = .obj fields) :
    itemsOrNone rt (getOrNull payload key) = .ok (dicts items) := by
  obtain ⟨hnone, rfl⟩ | hsome := payloadList_eq_ok h
  · rw [getOrNull, hnone]
    rfl
  · rw [getOrNull_of_lookup hsome, itemsOrNone_arr hdicts]

theorem iterated_eq (h : payloadList (.obj payload) key = .ok items) :
    iterated (.obj payload) key = .ok items := by
  rw [iterated, payloadGet]
  obtain ⟨hnone, rfl⟩ | hsome := payloadList_eq_ok h
  · rw [hnone]
    rfl
  · rw [hsome]
    rfl

/-- **What `_provenance` gathers** is what the rounds added. -/
theorem addedItems_eq {records : List Fields}
    (h : ∀ r ∈ records.filter (isKind .observationRecorded), IsRound r) :
    addedItems rt records =
      .ok ((records.filter (isKind .observationRecorded)).map (entries "added")) := by
  rw [addedItems]
  revert h
  generalize records.filter (isKind .observationRecorded) = rounds
  intro hrounds
  induction rounds with
  | nil => rfl
  | cons r rest ih =>
    obtain ⟨payload, added, superseded, hpayload, hadded, -, hitems⟩ :=
      hrounds r List.mem_cons_self
    rw [List.mapM_cons, ih fun w hw ↦ hrounds w (List.mem_cons_of_mem _ hw),
      payloadOrEmpty_obj (getOrNull_of_field hpayload), List.map_cons, entries_eq hpayload hadded]
    show (itemsOrNone rt (getOrNull payload "added") >>= _) = _
    rw [itemsOrNone_eq hadded fun v hv ↦
      (hitems v (List.mem_append_left _ hv)).imp fun _ h ↦ h.1]
    rfl

theorem field_eq_ok (h : IsNonempty (getOrNull item key)) :
    field item key = .ok (getOrNull item key) := by
  rw [getOrNull] at h ⊢
  rw [field]
  cases hlookup : Json.lookup (str key) item with
  | none =>
    rw [hlookup] at h
    obtain ⟨s, hs⟩ := h
    cases hs
  | some _ => rfl

/-! ## The fold of a report

The report enters what was added and what superseded it, one entry after the other. -/

/-- What an entry makes of the dict of sources. -/
def Adoption.enter (rt : Runtime) (details : List (Str × SourceRef)) (a : Adoption) :
    List (Str × SourceRef) :=
  match a with
  | .added _ => Dict.assign (a.sourceId rt)
      ⟨a.sourceId rt, textOr rt a.path UNKNOWN, textOr rt a.digest UNKNOWN⟩ details
  | .superseded _ =>
    let previous := ((Dict.get (a.sourceId rt) details).map (·.path)).getD []
    Dict.assign (a.sourceId rt)
      ⟨a.sourceId rt, textOr rt a.path (if previous = [] then UNKNOWN else previous),
        textOr rt a.digest UNKNOWN⟩
      details

/-- The dict of sources after these entries, as the report has it. -/
def entered (rt : Runtime) (as : List Adoption) : List (Str × SourceRef) :=
  as.foldl (Adoption.enter rt) []

/-- Items that a loop enters one by one. -/
theorem foldlM_enter {f : List (Str × SourceRef) → Json → Except Exc (List (Str × SourceRef))}
    {adopt : Fields → Adoption} (h : ∀ item, .obj item ∈ items → ∀ d,
      f d (.obj item) = .ok ((adopt item).enter rt d))
    (hitems : ∀ v ∈ items, ∃ item, v = .obj item) (d : List (Str × SourceRef)) :
    items.foldlM f d = .ok (((dicts items).map adopt).foldl (Adoption.enter rt) d) := by
  induction items generalizing d with
  | nil => rfl
  | cons v rest ih =>
    obtain ⟨item, rfl⟩ := hitems v List.mem_cons_self
    rw [List.foldlM_cons, h item List.mem_cons_self]
    exact ih (fun item hitem ↦ h item (List.mem_cons_of_mem _ hitem))
      (fun v hv ↦ hitems v (List.mem_cons_of_mem _ hv)) _

/-- What a round makes of the dict. -/
theorem roundDetails_eq (h : IsRound record) (d : List (Str × SourceRef)) :
    roundDetails rt d record = .ok ((adoptionsOf record).foldl (Adoption.enter rt) d) := by
  obtain ⟨payload, added, superseded, hpayload, hadded, hsuperseded, hitems⟩ := h
  have hid : ∀ item, .obj item ∈ added ++ superseded → IsNonempty (getOrNull item "source_id") :=
    fun item hitem ↦ by
      obtain ⟨_, heq, hsource⟩ := hitems _ hitem
      exact Json.obj.inj heq ▸ hsource.1
  have hdict : ∀ v ∈ added ++ superseded, ∃ item, v = .obj item := fun v hv ↦
    (hitems v hv).imp fun _ h ↦ h.1
  refine Except.bind_eq_ok.mpr ⟨_, hpayload, Except.bind_eq_ok.mpr ⟨_, iterated_eq hadded, ?_⟩⟩
  have hadd : ∀ item, .obj item ∈ added → ∀ d,
      addDetail rt d (.obj item) = .ok ((Adoption.added item).enter rt d) := fun item hitem _ ↦
    Except.bind_eq_ok.mpr ⟨_, field_eq_ok (hid item (List.mem_append_left _ hitem)), rfl⟩
  have hsupersede : ∀ item, .obj item ∈ superseded → ∀ d,
      supersedeDetail rt d (.obj item) = .ok ((Adoption.superseded item).enter rt d) :=
    fun item hitem _ ↦
      Except.bind_eq_ok.mpr ⟨_, field_eq_ok (hid item (List.mem_append_right _ hitem)), rfl⟩
  refine Except.bind_eq_ok.mpr
    ⟨_, foldlM_enter hadd (fun v hv ↦ hdict v (List.mem_append_left _ hv)) d, ?_⟩
  refine Except.bind_eq_ok.mpr ⟨_, iterated_eq hsuperseded, ?_⟩
  rw [adoptionsOf, List.foldl_append, entries_eq hpayload hadded, entries_eq hpayload hsuperseded]
  exact foldlM_enter hsupersede (fun v hv ↦ hdict v (List.mem_append_right _ hv)) _

/-- **The details of a run** are made of what its rounds adopted. -/
theorem sourceDetails_eq {records : List Fields}
    (h : ∀ r ∈ records.filter (isKind .observationRecorded), IsRound r) :
    sourceDetails rt records = .ok ((entered rt (adoptions records)).map (·.2)) := by
  refine Except.bind_eq_ok.mpr ⟨_, ?_, rfl⟩
  rw [entered, adoptions]
  revert h
  generalize records.filter (isKind .observationRecorded) = rounds
  generalize ([] : List (Str × SourceRef)) = d
  intro hrounds
  induction rounds generalizing d with
  | nil => rfl
  | cons r rest ih =>
    rw [List.foldlM_cons, roundDetails_eq (hrounds r List.mem_cons_self), List.flatMap_cons,
      List.foldl_append]
    exact ih _ fun r hr ↦ hrounds r (List.mem_cons_of_mem _ hr)

/-! ## The fold, resolved

What the fold holds of a source in the end is what was said last about it. -/

theorem mem_dicts : item ∈ dicts items ↔ .obj item ∈ items := by
  rw [dicts, List.mem_filterMap]
  constructor
  · rintro ⟨v, hv, heq⟩
    cases v with
    | obj fields => exact Option.some.inj heq ▸ hv
    | _ => cases heq
  · exact fun h ↦ ⟨_, h, rfl⟩

theorem isSource_of_mem {a : Adoption} (h : IsRound record) (ha : a ∈ adoptionsOf record) :
    IsSource a.item := by
  obtain ⟨payload, added, superseded, hpayload, hadded, hsuperseded, hitems⟩ := h
  rw [adoptionsOf, entries_eq hpayload hadded, entries_eq hpayload hsuperseded] at ha
  have hsource : ∀ item, .obj item ∈ added ++ superseded → IsSource item := fun item hitem ↦ by
    obtain ⟨_, heq, hsource⟩ := hitems _ hitem
    exact Json.obj.inj heq ▸ hsource
  rcases List.mem_append.mp ha with ha | ha
  · obtain ⟨item, hitem, rfl⟩ := List.mem_map.mp ha
    exact hsource item (List.mem_append_left _ (mem_dicts.mp hitem))
  · obtain ⟨item, hitem, rfl⟩ := List.mem_map.mp ha
    exact hsource item (List.mem_append_right _ (mem_dicts.mp hitem))

theorem isFalsy_of_isNonempty {v : Json} (h : IsNonempty v) : isFalsy rt v = false := by
  obtain ⟨s, rfl, hblank⟩ := h.eq_str
  refine decide_eq_false fun hnil ↦ ?_
  rw [hnil] at hblank
  cases hblank

/-- A path that counts as true is a text, and not an empty one. -/
theorem strValue_path_ne_nil (h : IsSource item)
    (htrue : isFalsy rt (getOrNull item "path") = false) :
    strValue rt (getOrNull item "path") ≠ [] := by
  rw [getOrNull] at htrue ⊢
  cases hlookup : Json.lookup (str "path") item with
  | none =>
    rw [hlookup] at htrue
    cases htrue
  | some path =>
    obtain ⟨s, rfl, hblank⟩ := (h.2 path hlookup).eq_str
    show s ≠ []
    rintro rfl
    cases hblank

theorem pathSince_ne_nil {id : Str} {as : List Adoption} (h : ∀ a ∈ as, IsSource a.item) :
    pathSince rt id as ≠ [] := by
  induction as with
  | nil => exact (by decide : UNKNOWN ≠ [])
  | cons a older ih =>
    have hrest := ih fun a ha ↦ h a (List.mem_cons_of_mem _ ha)
    rw [pathSince, textOr]
    split_ifs with hid hpath
    · cases a with
      | added item => exact (by decide : UNKNOWN ≠ [])
      | superseded item => exact hrest
    · exact strValue_path_ne_nil (h a List.mem_cons_self) (Bool.eq_false_iff.mpr hpath)
    · exact hrest

/-- The entry that the last of these, the newest first, left under an id. -/
def latestDetail (rt : Runtime) (id : Str) : List Adoption → Option SourceRef
  | [] => none
  | a :: older =>
    if a.sourceId rt = id then
      some ⟨id, pathSince rt id (a :: older), textOr rt a.digest UNKNOWN⟩
    else latestDetail rt id older

theorem path_latestDetail {id : Str} {as : List Adoption} (h : ∀ a ∈ as, IsSource a.item) :
    (let previous := ((latestDetail rt id as).map (·.path)).getD []
      if previous = [] then UNKNOWN else previous) = pathSince rt id as := by
  induction as with
  | nil => rfl
  | cons a older ih =>
    rw [latestDetail]
    split_ifs with hid
    · exact if_neg (pathSince_ne_nil h)
    · rw [pathSince, if_neg hid]
      exact ih fun a ha ↦ h a (List.mem_cons_of_mem _ ha)

/-- What the dict has under an id. -/
theorem get_entered {id : Str} {as : List Adoption} (h : ∀ a ∈ as, IsSource a.item) :
    Dict.get id (entered rt as) = latestDetail rt id as.reverse := by
  induction as using List.reverseRecOn with
  | nil => rfl
  | append_singleton as a ih =>
    have hbefore : ∀ b ∈ as, IsSource b.item := fun b hb ↦ h b (List.mem_append_left _ hb)
    have hpath := @path_latestDetail rt id as.reverse fun b hb ↦
      hbefore b (List.mem_reverse.mp hb)
    rw [← ih hbefore] at hpath
    rw [entered, List.foldl_concat, List.reverse_concat, latestDetail, pathSince]
    show Dict.get id (Adoption.enter rt (entered rt as) a) = _
    by_cases hid : a.sourceId rt = id
    · rw [if_pos hid, if_pos hid]
      subst hid
      cases a with
      | added item =>
        rw [Adoption.enter, Dict.get_assign, if_pos rfl]
        rfl
      | superseded item =>
        rw [← hpath, Adoption.enter, Dict.get_assign, if_pos rfl]
        rfl
    · rw [if_neg hid, ← ih hbefore]
      cases a with
      | added item => rw [Adoption.enter, Dict.get_assign, if_neg hid]
      | superseded item => rw [Adoption.enter, Dict.get_assign, if_neg hid]

theorem latestDetail_eq_some {id : Str} {as : List Adoption} {d : SourceRef} :
    latestDetail rt id as = some d ↔ ∃ newer a older, as = newer ++ a :: older ∧
      (∀ b ∈ newer, b.sourceId rt ≠ id) ∧ a.sourceId rt = id ∧
        d = ⟨id, pathSince rt id (a :: older), textOr rt a.digest UNKNOWN⟩ := by
  induction as with
  | nil =>
    refine iff_of_false nofun ?_
    rintro ⟨newer, a, older, h, -⟩
    exact List.cons_ne_nil a older (List.append_eq_nil_iff.mp h.symm).2
  | cons b rest ih =>
    rw [latestDetail]
    split_ifs with hid
    · constructor
      · intro h
        exact ⟨[], b, rest, rfl, fun _ hb ↦ absurd hb List.not_mem_nil, hid,
          (Option.some.inj h).symm⟩
      · rintro ⟨newer, a, older, h, hnewer, -, rfl⟩
        cases newer with
        | nil =>
          obtain ⟨rfl, rfl⟩ := List.cons.inj h
          rfl
        | cons c newer => exact absurd ((List.cons.inj h).1 ▸ hid) (hnewer c List.mem_cons_self)
    · rw [ih]
      constructor
      · rintro ⟨newer, a, older, rfl, hnewer, hd⟩
        exact ⟨b :: newer, a, older, rfl, List.forall_mem_cons.mpr ⟨hid, hnewer⟩, hd⟩
      · rintro ⟨newer, a, older, h, hnewer, ha, hd⟩
        cases newer with
        | nil => exact absurd ((List.cons.inj h).1 ▸ ha) hid
        | cons c newer =>
          obtain ⟨rfl, hrest⟩ := List.cons.inj h
          exact ⟨newer, a, older, hrest, (List.forall_mem_cons.mp hnewer).2, ha, hd⟩

theorem nodup_entered {as : List Adoption} : ((entered rt as).map Prod.fst).Nodup := by
  induction as using List.reverseRecOn with
  | nil => exact List.nodup_nil
  | append_singleton as a ih =>
    rw [entered, List.foldl_concat]
    cases a <;> exact Dict.nodup_assign ih

/-- **A detail is the last entry about a source**, with the path that was named for it since it was
last added. -/
theorem mem_entered_iff {records : List Fields} {d : SourceRef}
    (h : ∀ r ∈ records.filter (isKind .observationRecorded), IsRound r) :
    d ∈ (entered rt (adoptions records)).map (·.2) ↔ ∃ a older, IsLatest rt records a older ∧
      d = ⟨a.sourceId rt, pathSince rt (a.sourceId rt) (a :: older),
        textOr rt a.digest UNKNOWN⟩ := by
  have hsources : ∀ a ∈ adoptions records, IsSource a.item := fun a ha ↦ by
    obtain ⟨r, hr, ha⟩ := List.mem_flatMap.mp ha
    exact isSource_of_mem (h r hr) ha
  have hget : d ∈ (entered rt (adoptions records)).map (·.2) ↔
      ∃ id, latestDetail rt id (adoptions records).reverse = some d := by
    simp only [← get_entered hsources, ← Dict.mem_iff_get nodup_entered, List.mem_map,
      Prod.exists, exists_eq_right]
  rw [hget]
  constructor
  · rintro ⟨id, hid⟩
    obtain ⟨newer, a, older, has, hnewer, rfl, rfl⟩ := latestDetail_eq_some.mp hid
    exact ⟨a, older, ⟨newer, has, hnewer⟩, rfl⟩
  · rintro ⟨a, older, ⟨newer, has, hnewer⟩, rfl⟩
    exact ⟨_, latestDetail_eq_some.mpr ⟨newer, a, older, has, hnewer, rfl, rfl⟩⟩

theorem IsLatest.mem {records : List Fields} {a : Adoption} {older : List Adoption}
    (h : IsLatest rt records a older) : a ∈ adoptions records := by
  obtain ⟨newer, has, -⟩ := h
  exact List.mem_reverse.mp (has ▸ List.mem_append_right _ List.mem_cons_self)

theorem pathSince_self {a : Adoption} {older : List Adoption} (h : isFalsy rt a.path = false) :
    pathSince rt (a.sourceId rt) (a :: older) = strValue rt a.path := by
  rw [pathSince, if_pos rfl, textOr, h]
  rfl

end

/-- **A history that ends with a stop** is the log of a finished run. -/
theorem finishedLog_of_written {rt : Runtime} {runId : Str} {events : List Event}
    {log : List Record}
    (h : EventLog.Written runId events log) (hend : ∃ e ∈ events, e.kind = .runStopped) :
    FinishedLog rt runId (utf8 (logText log)) (log.map Record.readFields) where
  read := ⟨_, _, h.readJsonl_eq, objects_map log, h.filter_isOf⟩
  valid := by
    obtain ⟨e, he, -⟩ := hend
    exact h.history.canon.validateHistory_eq
      (List.map_eq_nil_iff.not.mpr (List.ne_nil_of_mem he)) h.reads
  finished := by
    obtain ⟨e, he, hkind⟩ := hend
    obtain ⟨r, hr, hreads⟩ := exists_of_forall₂_left h.reads _ (List.mem_map_of_mem he)
    exact ⟨r, hr, (EventLog.isKind_reads hreads).mpr hkind⟩
  payloads := fun r hr ↦ by
    obtain ⟨e, -, recordedAt, hlookup⟩ := exists_of_forall₂_right h.reads r hr
    exact ⟨e.payload, hlookup _⟩

theorem namesBytes_of_items {rt : Runtime} {record payload : Fields} {key digest : String}
    {adopt : Fields → Adoption} {a : Adoption}
    (hpayload : getOrNull record "payload" = .obj payload)
    (h : ItemsAre payload key (NamesSource digest)) (hadopt : ∀ item, (adopt item).item = item)
    (hdigest : ∀ item, (adopt item).digestKey = digest)
    (ha : a ∈ (entries key record).map adopt) : a.NamesBytes rt := by
  obtain ⟨items, hitems, hall⟩ := h
  rw [entries, hpayload] at ha
  dsimp only at ha
  rw [getOrNull_of_lookup hitems] at ha
  obtain ⟨item, hitem, rfl⟩ := List.mem_map.mp ha
  obtain ⟨_, heq, -, hpath, hsha⟩ := hall _ (mem_dicts.mp hitem)
  obtain rfl := Json.obj.inj heq
  rw [Adoption.NamesBytes, Adoption.path, Adoption.digest, hadopt, hdigest]
  exact ⟨isFalsy_of_isNonempty hpath, isFalsy_of_isNonempty hsha⟩

/-- Where the rounds of a history name what they adopted, so do the entries of its log. -/
theorem named_of_written {rt : Runtime} {runId : Str} {events : List Event} {log : List Record}
    (h : EventLog.Written runId events log)
    (hrounds : ∀ e ∈ events, e.kind = .observationRecorded → NamesRound e.canon.payload) :
    ∀ a ∈ adoptions (log.map Record.readFields), a.NamesBytes rt := by
  intro a ha
  obtain ⟨r, hr, ha⟩ := List.mem_flatMap.mp ha
  obtain ⟨e', he', hreads⟩ := exists_of_forall₂_right h.reads r (List.mem_of_mem_filter hr)
  obtain ⟨e, he, rfl⟩ := List.mem_map.mp he'
  have hnames := hrounds e he ((EventLog.isKind_reads hreads).mp (List.of_mem_filter hr))
  have hpayload : getOrNull r "payload" = .obj e.canon.payload := by
    obtain ⟨recordedAt, hlookup⟩ := hreads
    rw [getOrNull, hlookup]
    rfl
  rcases List.mem_append.mp ha with ha | ha
  · exact namesBytes_of_items hpayload hnames.1 (fun _ ↦ rfl) (fun _ ↦ rfl) ha
  · exact namesBytes_of_items hpayload hnames.2 (fun _ ↦ rfl) (fun _ ↦ rfl) ha

/-! ## Which sources a provenance has

Those that were added, and of several under one key the last. -/

/-- **A source of a provenance** is what was added last under its key. -/
theorem mem_sourcesOf_iff {added : List SourceRef} {s : SourceRef} :
    s ∈ sourcesOf added ↔ (added.filter fun t ↦ t.key = s.key).getLast? = some s := by
  have hget : ∀ key, Dict.get key (Dict.fill (added.map fun s ↦ (s.key, s)) []) =
      (added.filter fun t ↦ t.key = key).getLast? := fun key ↦ by
    rw [Dict.get_fill_nil, List.filter_map, List.getLast?_map, Option.map_map]
    exact Option.map_id'
  rw [sourcesOf, List.mem_insertionSort, List.mem_map]
  constructor
  · rintro ⟨⟨key, t⟩, hp, rfl⟩
    have hlast := (hget key).symm.trans ((Dict.mem_iff_get Dict.nodup_fill).mp hp)
    have hkey : t.key = key :=
      of_decide_eq_true (List.mem_filter.mp (List.mem_of_getLast? hlast)).2
    rwa [← hkey] at hlast
  · intro h
    exact ⟨(s.key, s), (Dict.mem_iff_get Dict.nodup_fill).mpr ((hget s.key).trans h), rfl⟩

section
variable {rt : Runtime} {runId : Str} {eventLog : Bytes} {records : List Fields}

namespace FinishedLog

theorem exists_ends (h : FinishedLog rt runId eventLog records) : ∃ started stopped,
    (records.filter (isKind .runStarted)).head? = some started ∧
      (records.filter (isKind .runStopped)).getLast? = some stopped ∧
      started ∈ records ∧ stopped ∈ records := by
  obtain ⟨_, _, hvalid⟩ := Except.bind_eq_ok.mp h.valid
  obtain ⟨_, _, hvalid⟩ := Except.bind_eq_ok.mp hvalid
  obtain ⟨_, hends, _⟩ := Except.bind_eq_ok.mp hvalid
  obtain ⟨stop, hstop, hkind⟩ := h.finished
  have hne : records.filter (isKind .runStopped) ≠ [] :=
    List.ne_nil_of_mem (List.mem_filter.mpr ⟨hstop, hkind⟩)
  obtain ⟨stopped, hstopped⟩ :=
    Option.ne_none_iff_exists'.mp (List.getLast?_eq_none_iff.not.mpr hne)
  rw [checkEnds] at hends
  split at hends
  · rename_i started hstarted
    refine ⟨started, stopped, by rw [hstarted]; rfl, hstopped, ?_,
      List.mem_of_mem_filter (List.mem_of_getLast? hstopped)⟩
    exact List.mem_of_mem_filter (hstarted ▸ List.mem_singleton.mpr rfl)
  · cases hends

theorem payloadIfAny_eq_ok (h : FinishedLog rt runId eventLog records) {r : Fields}
    (hr : r ∈ records)
    (key : String) : ∃ v, payloadIfAny r key = .ok v := by
  obtain ⟨payload, hpayload⟩ := h.payloads r hr
  rw [payloadIfAny, hpayload]
  exact ⟨_, rfl⟩

theorem exists_routes (h : FinishedLog rt runId eventLog records) : ∃ routes,
    (records.filter (isKind .planSelected)).mapM (payloadOrEmpty rt · "route") = .ok routes := by
  have hplans : ∀ r ∈ records.filter (isKind .planSelected), r ∈ records := fun r hr ↦
    List.mem_of_mem_filter hr
  revert hplans
  generalize records.filter (isKind .planSelected) = plans
  intro hplans
  induction plans with
  | nil => exact ⟨[], rfl⟩
  | cons r rest ih =>
    obtain ⟨routes, hroutes⟩ := ih fun w hw ↦ hplans w (List.mem_cons_of_mem _ hw)
    obtain ⟨payload, hpayload⟩ := h.payloads r (hplans r List.mem_cons_self)
    refine ⟨getOrNull payload "route" :: routes, ?_⟩
    rw [List.mapM_cons, hroutes, payloadOrEmpty_obj (getOrNull_of_lookup hpayload)]
    rfl

/-- **A provenance of a run that ended**: its sources are what the rounds added. -/
theorem provenance_eq_ok (h : FinishedLog rt runId eventLog records) :
    ∃ p, provenance rt (some eventLog) runId = .ok p ∧
      p.sources = sourcesOf (addedRefs rt records) := by
  obtain ⟨values, all, hvalues, hall, hrecords⟩ := h.read
  obtain ⟨started, stopped, hstarted, hstopped, hmem, hmem'⟩ := h.exists_ends
  obtain ⟨routes, hroutes⟩ := h.exists_routes
  obtain ⟨reason, hreason⟩ := h.payloadIfAny_eq_ok hmem' "stop_reason"
  obtain ⟨task, htask⟩ := h.payloadIfAny_eq_ok hmem "task_sha256"
  have hlog : readLog (some eventLog) = .ok values := by
    rw [readLog, hvalues]
  obtain ⟨p, hp, hsources⟩ : ∃ p, provenanceOf rt runId (sha256 eventLog) records started stopped =
      .ok p ∧ p.sources = sourcesOf (addedRefs rt records) := by
    refine ⟨⟨sha256 eventLog, runId ++ str ":" ++ strValue rt (getOrNull stopped "sequence"),
      reason,
      task, routes.getLast?.getD .null, sourcesOf (addedRefs rt records)⟩, ?_, rfl⟩
    refine Except.bind_eq_ok.mpr
      ⟨_, hroutes, Except.bind_eq_ok.mpr ⟨_, addedItems_eq h.isRound, ?_⟩⟩
    rw [addedRefs, List.flatMap]
    exact Except.bind_eq_ok.mpr ⟨_, hreason, Except.bind_eq_ok.mpr ⟨_, htask, rfl⟩⟩
  refine ⟨p, Except.bind_eq_ok.mpr ⟨_, hlog, ?_⟩, hsources⟩
  rw [hall]
  dsimp only
  rw [hrecords, hstarted, hstopped]
  exact hp

end FinishedLog

/-! ## Completeness

When every adopted source is among them, and every entry of the report that names a digest. -/

/-- What a complete provenance has: whatever bytes some round adopted, and hence whatever the report
on the run says of them. -/
structure Complete (rt : Runtime) (records : List Fields) (p : Provenance)
    (details : List SourceRef) : Prop where
  adopted : ∀ a ∈ adoptions records, a.NamesBytes rt → a.ref rt ∈ p.sources
  details : ∀ s ∈ details, s.sha256 ≠ UNKNOWN → s ∈ p.sources

/-- **A provenance is complete exactly when what was adopted is accounted for by what was
added.** -/
theorem provenance_complete_iff (h : FinishedLog rt runId eventLog records) :
    ∃ p details, provenance rt (some eventLog) runId = .ok p ∧
      sourceDetails rt records = .ok details ∧
      (Complete rt records p details ↔ Accounted rt records) := by
  obtain ⟨p, hp, hsources⟩ := h.provenance_eq_ok
  have hmem : ∀ s, s ∈ p.sources ↔ LastAdded rt records s := fun s ↦ by
    rw [hsources, mem_sourcesOf_iff, LastAdded]
  refine ⟨p, _, hp, sourceDetails_eq h.isRound, ?_⟩
  constructor
  · intro hcomplete
    refine ⟨fun a ha hnames ↦ (hmem _).mp (hcomplete.adopted a ha hnames), ?_⟩
    intro a older hlatest hpath hdigest hknown
    have htext : textOr rt a.digest UNKNOWN = strValue rt a.digest := by
      rw [textOr, hdigest]
      rfl
    refine (hmem _).mp (hcomplete.details _ ((mem_entered_iff h.isRound).mpr ?_) hknown)
    exact ⟨a, older, hlatest, by rw [htext]⟩
  · intro haccounted
    refine ⟨fun a ha hnames ↦ (hmem _).mpr (haccounted.named a ha hnames), fun s hs hknown ↦ ?_⟩
    obtain ⟨a, older, hlatest, rfl⟩ := (mem_entered_iff h.isRound).mp hs
    cases hdigest : isFalsy rt a.digest with
    | true => exact absurd (by rw [textOr, hdigest]; rfl) hknown
    | false =>
      have htext : textOr rt a.digest UNKNOWN = strValue rt a.digest := by
        rw [textOr, hdigest]
        rfl
      rw [htext] at hknown ⊢
      cases hpath : isFalsy rt a.path with
      | true => exact (hmem _).mpr (haccounted.pathless a older hlatest hpath hdigest hknown)
      | false =>
        rw [pathSince_self hpath]
        exact (hmem _).mpr (haccounted.named a hlatest.mem ⟨hpath, hdigest⟩)

theorem addedRefs_eq : addedRefs rt records =
    ((records.filter (isKind .observationRecorded)).flatMap fun r ↦
      (entries "added" r).map fun item ↦ (Adoption.added item).ref rt) := by
  rw [addedRefs, List.map_flatMap]
  rfl

theorem exists_of_mem_addedRefs {s : SourceRef} (h : s ∈ addedRefs rt records) :
    ∃ a ∈ adoptions records, a.ref rt = s := by
  rw [addedRefs_eq] at h
  obtain ⟨r, hr, h⟩ := List.mem_flatMap.mp h
  obtain ⟨item, hitem, rfl⟩ := List.mem_map.mp h
  exact ⟨_, List.mem_flatMap.mpr ⟨r, hr, List.mem_append_left _ (List.mem_map_of_mem hitem)⟩, rfl⟩

theorem LastAdded.mem {s : SourceRef} (h : LastAdded rt records s) : s ∈ addedRefs rt records :=
  List.mem_of_mem_filter (List.mem_of_getLast? h)

/-- **Where every entry names a path and a digest**, as those of the controller do: whatever was
adopted was also added by some round, and no two sources that were added are told apart by their
paths alone. -/
theorem accounted_iff_of_named (h : ∀ a ∈ adoptions records, a.NamesBytes rt) :
    Accounted rt records ↔ (∀ a ∈ adoptions records, a.ref rt ∈ addedRefs rt records) ∧
      ∀ s ∈ addedRefs rt records, ∀ t ∈ addedRefs rt records, s.key = t.key → s = t := by
  constructor
  · intro haccounted
    have hlast : ∀ s ∈ addedRefs rt records, LastAdded rt records s := fun s hs ↦ by
      obtain ⟨a, ha, rfl⟩ := exists_of_mem_addedRefs hs
      exact haccounted.named a ha (h a ha)
    refine ⟨fun a ha ↦ (haccounted.named a ha (h a ha)).mem, fun s hs t ht hkey ↦ ?_⟩
    have hs := hlast s hs
    rw [LastAdded, hkey] at hs
    exact Option.some.inj (hs.symm.trans (hlast t ht))
  · rintro ⟨hadded, hkeys⟩
    refine ⟨fun a ha _ ↦ ?_, fun a older hlatest hpath _ _ ↦ ?_⟩
    · have hmem : a.ref rt ∈ (addedRefs rt records).filter fun t ↦ t.key = (a.ref rt).key :=
        List.mem_filter.mpr ⟨hadded a ha, decide_eq_true rfl⟩
      obtain ⟨last, hlast⟩ := Option.ne_none_iff_exists'.mp
        (List.getLast?_eq_none_iff.not.mpr (List.ne_nil_of_mem hmem))
      obtain ⟨ht, hkey⟩ := List.mem_filter.mp (List.mem_of_getLast? hlast)
      rw [LastAdded, hlast, hkeys last ht _ (hadded a ha) (of_decide_eq_true hkey)]
    · have htrue := (h a hlatest.mem).1
      rw [hpath] at htrue
      cases htrue

end

/-! ## A source that changed

A finished log whose second round superseded the one source of the first. -/

/-- A payload that names what one round adopted of one file. -/
def filePayload (added superseded : List Json) : Fields :=
  [(str "added", .arr added), (str "superseded", .arr superseded), (str "unchanged", .arr [])]

/-- The file as it was added, by the first round. -/
def addedFile : Fields :=
  [(str "source_id", .str (str "0123456789abcdef")), (str "path", .str (str "a.txt")),
    (str "sha256", .str (List.replicate 64 (ch 'a')))]

/-- The file as it came back, with other bytes. -/
def changedFile : Fields :=
  [(str "source_id", .str (str "0123456789abcdef")), (str "path", .str (str "a.txt")),
    (str "previous_sha256", .str (List.replicate 64 (ch 'a'))),
    (str "new_sha256", .str (List.replicate 64 (ch 'b')))]

/-- The end of the run, which passed. -/
def passedPayload : Fields :=
  [(str "status", .str StopReason.passed.status.text),
    (str "stop_reason", .str StopReason.passed.text),
    (str "stop_class", .str StopReason.passed.stopClass.text)]

/-- An event of the run, of the one pass it made. -/
def fileEvent (n : ℕ) (kind : EventKind) (payload : Fields) : Event where
  runId := str "run-1"
  sequence := n
  kind := kind
  iteration := 1
  callId := none
  payload := payload

/-- Two rounds: a file was added, and came back with other bytes. -/
def changedEvents : List Event :=
  [fileEvent 0 .runStarted [],
    fileEvent 1 .observationRecorded (filePayload [.obj addedFile] []),
    fileEvent 2 .observationRecorded (filePayload [] [.obj changedFile]),
    fileEvent 3 .runStopped passedPayload]

theorem wf_addedFile : (Json.obj addedFile).WF :=
  ⟨by decide, trivial, trivial, trivial, trivial⟩

theorem wf_changedFile : (Json.obj changedFile).WF :=
  ⟨by decide, trivial, trivial, trivial, trivial, trivial⟩

theorem wf_filePayload {added superseded : List Json} (h : Json.WFItems added)
    (h' : Json.WFItems superseded) : (Json.obj (filePayload added superseded)).WF := by
  have hkeys : [str "added", str "superseded", str "unchanged"].Nodup := by decide
  exact ⟨hkeys, h, h', trivial, trivial⟩

theorem wf_passedPayload : (Json.obj passedPayload).WF :=
  ⟨by decide, trivial, trivial, trivial, trivial⟩

theorem wf_noPayload : (([] : Fields).map Prod.fst).Nodup ∧ Json.WFFields [] :=
  ⟨List.nodup_nil, trivial⟩

/-- Its log: the file is added, comes back changed, and the run passes. -/
def changedLog : List Record :=
  [(fileEvent 0 .runStarted []).record (str "2026-01-01") wf_noPayload,
    (fileEvent 1 .observationRecorded (filePayload [.obj addedFile] [])).record (str "2026-01-01")
      (wf_filePayload ⟨wf_addedFile, trivial⟩ trivial),
    (fileEvent 2 .observationRecorded (filePayload [] [.obj changedFile])).record (str "2026-01-01")
      (wf_filePayload trivial ⟨wf_changedFile, trivial⟩),
    (fileEvent 3 .runStopped passedPayload).record (str "2026-01-01") wf_passedPayload]

theorem changedLog_readable : ∀ r ∈ changedLog, r.Writable ∧ r.breakFree = true := by
  have hall : (changedLog.all fun r ↦ r.value.every Json.intFits (fun _ ↦ true) &&
      r.value.surrogateFree && r.breakFree) = true := by decide
  intro r hr
  have h := List.all_eq_true.mp hall r hr
  rw [Bool.and_eq_true, Bool.and_eq_true] at h
  exact ⟨h.1, h.2⟩

theorem checkSource_of_names {digest : String} {v : Json} (h : NamesSource digest v) :
    checkSource v = .ok () := by
  obtain ⟨item, rfl, hid, hpath, -⟩ := h
  refine checkSource_eq_ok hid fun path hlookup ↦ ?_
  rwa [getOrNull_of_lookup hlookup] at hpath

section
variable {added superseded : List Json} (h : ∀ v ∈ added, NamesSource "sha256" v)
  (h' : ∀ v ∈ superseded, NamesSource "new_sha256" v)

include h h'

theorem namesRound_file : NamesRound (filePayload added superseded) := ⟨⟨_, rfl, h⟩, ⟨_, rfl, h'⟩⟩

theorem reportable_file : Reportable .observationRecorded (filePayload added superseded) :=
  ⟨⟨_, rfl, fun v hv ↦ checkSource_of_names (h v hv)⟩,
    ⟨_, rfl, fun v hv ↦ checkSource_of_names (h' v hv)⟩,
    [], rfl, fun _ hv ↦ absurd hv List.not_mem_nil⟩

end

theorem all_addedFile : ∀ v ∈ [Json.obj addedFile], NamesSource "sha256" v :=
  List.forall_mem_singleton.mpr
    ⟨_, rfl, isNonempty_str (by decide), isNonempty_str (by decide), isNonempty_str (by decide)⟩

theorem all_changedFile : ∀ v ∈ [Json.obj changedFile], NamesSource "new_sha256" v :=
  List.forall_mem_singleton.mpr
    ⟨_, rfl, isNonempty_str (by decide), isNonempty_str (by decide), isNonempty_str (by decide)⟩

theorem changedRound_names : ∀ e ∈ changedEvents, e.kind = .observationRecorded →
    NamesRound e.payload := by
  intro e he hkind
  rcases he with _ | ⟨_, _ | ⟨_, _ | ⟨_, _ | ⟨_, he⟩⟩⟩⟩
  · cases hkind
  · exact namesRound_file all_addedFile fun _ h ↦ absurd h List.not_mem_nil
  · exact namesRound_file (fun _ h ↦ absurd h List.not_mem_nil) all_changedFile
  · cases hkind
  · exact absurd he List.not_mem_nil

theorem changedLog_written : EventLog.Written (str "run-1") changedEvents changedLog where
  history := by
    refine grown_concat.mpr ⟨grown_concat.mpr ⟨grown_concat.mpr ⟨grown_concat.mpr
      ⟨grown_nil, ?_⟩, ?_⟩, ?_⟩, ?_⟩
    · exact ⟨⟨by decide, rfl, rfl, nofun, nofun⟩, iff_of_true rfl rfl, by decide, trivial⟩
    · exact ⟨⟨by decide, rfl, rfl, nofun, nofun⟩, iff_of_false (List.cons_ne_nil _ _) nofun,
        by decide, reportable_file all_addedFile fun _ h ↦ absurd h List.not_mem_nil⟩
    · exact ⟨⟨by decide, rfl, rfl, nofun, nofun⟩, iff_of_false (List.cons_ne_nil _ _) nofun,
        by decide, reportable_file (fun _ h ↦ absurd h List.not_mem_nil) all_changedFile⟩
    · exact ⟨⟨by decide, rfl, rfl, nofun, nofun⟩, iff_of_false (List.cons_ne_nil _ _) nofun,
        by decide, isNonempty_str (by decide), isNonempty_str (by decide),
          isNonempty_str (by decide)⟩
  ofEvents := .cons ⟨_, rfl⟩ (.cons ⟨_, rfl⟩ (.cons ⟨_, rfl⟩ (.cons ⟨_, rfl⟩ .nil)))
  writable := fun r hr ↦ (changedLog_readable r hr).1
  breakFree := fun r hr ↦ (changedLog_readable r hr).2

theorem changedLog_finished : FinishedLog asciiRuntime (str "run-1") (utf8 (logText changedLog))
    (changedLog.map Record.readFields) :=
  finishedLog_of_written changedLog_written
    ⟨_, List.mem_of_getLast? (show changedEvents.getLast? = some _ from rfl), rfl⟩

theorem changedLog_named : ∀ a ∈ adoptions (changedLog.map Record.readFields),
    a.NamesBytes asciiRuntime :=
  named_of_written changedLog_written fun e he hkind ↦ (changedRound_names e he hkind).canon

/-- The bytes that the run went on with are in the report, and not in the provenance. -/
theorem changedLog_incomplete : FinishedLog asciiRuntime (str "run-1") (utf8 (logText changedLog))
      (changedLog.map Record.readFields) ∧ ∃ p details,
    provenance asciiRuntime (some (utf8 (logText changedLog))) (str "run-1") = .ok p ∧
      sourceDetails asciiRuntime (changedLog.map Record.readFields) = .ok details ∧
      ¬ Complete asciiRuntime (changedLog.map Record.readFields) p details := by
  obtain ⟨p, hp, hsources⟩ := changedLog_finished.provenance_eq_ok
  refine ⟨changedLog_finished, p, _, hp, sourceDetails_eq changedLog_finished.isRound, ?_⟩
  intro hcomplete
  have hchanged : ∃ a ∈ adoptions (changedLog.map Record.readFields), a.ref asciiRuntime =
      ⟨str "0123456789abcdef", str "a.txt", List.replicate 64 (ch 'b')⟩ := by decide
  obtain ⟨a, ha, href⟩ := hchanged
  have hadded := hcomplete.adopted a ha (changedLog_named a ha)
  rw [hsources, mem_sourcesOf_iff, href] at hadded
  exact absurd (List.mem_of_mem_filter (List.mem_of_getLast? hadded)) (by decide)

/-- The theorem about that log. -/
theorem provenance_complete_iff_changed : ∃ p details,
    provenance asciiRuntime (some (utf8 (logText changedLog))) (str "run-1") = .ok p ∧
      sourceDetails asciiRuntime (changedLog.map Record.readFields) = .ok details ∧
      (Complete asciiRuntime (changedLog.map Record.readFields) p details ↔
        Accounted asciiRuntime (changedLog.map Record.readFields)) :=
  provenance_complete_iff changedLog_finished

end Feedback

end AtlasCore
