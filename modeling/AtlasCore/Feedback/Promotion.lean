import AtlasCore.Feedback.Gate

/-!
# Promotions

Over any sequence of calls on one store the two files hold exactly what the calls returned, and no
candidate is promoted twice, or without passing the gate in the call that promoted it.

A candidate that was recorded once and not promoted yet can be promoted exactly when the gate lets
it pass and no text of the store holds a line break that the writer copies (`feedback_iff`): one
such text, in anybody's lesson, makes its file unreadable.
-/

set_option autoImplicit false

namespace AtlasCore

namespace Feedback

open Py Inspect

/-! ## What is read of a log

The values of a log are documents, so what is taken out of them can be stored. -/

theorem WF_readLines : ∀ {lines : List Str} {values : List Json}, readLines lines = .ok values →
    ∀ v ∈ values, v.WF
  | [], _, h, v, hv => by
    rw [readLines] at h
    rw [← Except.ok.inj h] at hv
    exact absurd hv List.not_mem_nil
  | line :: rest, values, h, v, hv => by
    rw [readLines] at h
    split_ifs at h
    · rw [← Except.ok.inj h] at hv
      exact absurd hv List.not_mem_nil
    · exact WF_readLines h v hv
    · split at h
      · cases h
      · rename_i record hrecord
        cases hrest : readLines rest with
        | error e => rw [hrest] at h; cases h
        | ok more =>
          rw [hrest] at h
          rw [← Except.ok.inj h] at hv
          rcases List.mem_cons.mp hv with rfl | hv
          · exact Json.WF_of_loads hrecord
          · exact WF_readLines hrest v hv

theorem WF_readLog {eventLog : Option Bytes} {values : List Json}
    (h : readLog eventLog = .ok values) :
    ∀ v ∈ values, v.WF := by
  cases eventLog with
  | none => cases h
  | some bytes =>
    rw [readLog] at h
    cases hread : readJsonl bytes with
    | error e => rw [hread] at h; cases h
    | ok read =>
      rw [hread] at h
      obtain rfl := Except.ok.inj h
      rw [readJsonl] at hread
      split at hread
      · cases hread
      · exact WF_readLines hread

theorem mem_of_objects : ∀ {values : List Json} {all : List Fields}, objects values = some all →
    ∀ fields ∈ all, .obj fields ∈ values
  | [], all, h, fields, hf => by
    rw [objects, List.mapM_nil] at h
    obtain rfl := Option.some.inj h
    exact absurd hf List.not_mem_nil
  | v :: rest, all, h, fields, hf => by
    rw [objects, List.mapM_cons] at h
    obtain ⟨first, hfirst, h⟩ := Option.bind_eq_some_iff.mp h
    obtain ⟨more, hmore, h⟩ := Option.bind_eq_some_iff.mp h
    obtain rfl := Option.some.inj h
    rcases List.mem_cons.mp hf with rfl | hf
    · split at hfirst
      · rw [Option.some.inj hfirst]
        exact List.mem_cons_self
      · cases hfirst
    · exact List.mem_cons_of_mem _ (mem_of_objects hmore fields hf)

theorem WF_lookup {fields : Fields} (h : Json.WFFields fields) {key : Str} {v : Json}
    (hv : Json.lookup key fields = some v) : v.WF := by
  induction fields with
  | nil => cases hv
  | cons p rest ih =>
    obtain ⟨k, w⟩ := p
    rw [Json.lookup] at hv
    split_ifs at hv
    · rw [← Option.some.inj hv]
      exact h.1
    · exact ih h.2 hv

theorem WF_getOrNull {fields : Fields} (h : Json.WFFields fields) (key : String) :
    (getOrNull fields key).WF := by
  rw [getOrNull]
  cases hv : Json.lookup (str key) fields with
  | none => trivial
  | some v => exact WF_lookup h hv

theorem WF_payloadIfAny {record : Fields} (h : (Json.obj record).WF) {key : String} {v : Json}
    (hv : payloadIfAny record key = .ok v) : v.WF := by
  rw [payloadIfAny] at hv
  split at hv
  · rw [← Except.ok.inj hv]
    trivial
  · rename_i payload hpayload
    rw [← Except.ok.inj hv]
    exact WF_getOrNull (WF_lookup h.2 hpayload).2 key
  · cases hv

theorem WF_payloadOrEmpty {rt : Runtime} {record : Fields} (h : (Json.obj record).WF) {key : String}
    {v : Json} (hv : payloadOrEmpty rt record key = .ok v) : v.WF := by
  rw [payloadOrEmpty] at hv
  split_ifs at hv
  · rw [← Except.ok.inj hv]
    trivial
  · split at hv
    · rename_i payload hpayload
      rw [← Except.ok.inj hv]
      have hwf := WF_getOrNull h.2 "payload"
      rw [hpayload] at hwf
      exact WF_getOrNull hwf.2 key
    · cases hv

/-- What a provenance takes from a log are values that were read. -/
structure Provenance.WF (p : Provenance) : Prop where
  stopReason : p.stopReason.WF
  taskSha256 : p.taskSha256.WF
  route : p.route.WF

theorem matchesHex_of_hex {n : ℕ} {s : Str} (hlength : s.length = n) (hhex : s.all isHex = true) :
    matchesHex n s = true := by
  have hlast : s.getLast? ≠ some lf := fun h ↦
    absurd (List.all_eq_true.mp hhex lf (List.mem_of_getLast? h)) (by decide)
  rw [matchesHex, if_neg hlast, Bool.and_eq_true, beq_iff_eq]
  exact ⟨hlength, hhex⟩

variable {rt : Runtime}

theorem provenance_wf {eventLog : Option Bytes} {runId : Str} {p : Provenance}
    (h : provenance rt eventLog runId = .ok p) : p.WF ∧ matchesHex 64 p.eventLogSha256 = true := by
  obtain ⟨values, hvalues, h⟩ := Except.bind_eq_ok.mp h
  split at h
  · cases h
  · rename_i all hall
    have hwf : ∀ r ∈ all.filter (isOf runId), (Json.obj r).WF := fun r hr ↦
      WF_readLog hvalues _ (mem_of_objects hall r (List.mem_of_mem_filter hr))
    dsimp only at h
    split at h
    · rename_i started stopped hstarted hstopped
      obtain ⟨routes, hroutes, h⟩ := Except.bind_eq_ok.mp h
      obtain ⟨added, -, h⟩ := Except.bind_eq_ok.mp h
      obtain ⟨reason, hreason, h⟩ := Except.bind_eq_ok.mp h
      obtain ⟨task, htask, h⟩ := Except.bind_eq_ok.mp h
      obtain rfl := Except.ok.inj h
      have hstart := hwf _ (List.mem_of_mem_filter (List.mem_of_head? hstarted))
      have hstop := hwf _ (List.mem_of_mem_filter (List.mem_of_getLast? hstopped))
      refine ⟨⟨WF_payloadIfAny hstop hreason, WF_payloadIfAny hstart htask, ?_⟩,
        matchesHex_of_hex (sha256_length _) (sha256_isHex _)⟩
      show (routes.getLast?.getD .null).WF
      cases hlast : routes.getLast? with
      | none => trivial
      | some route =>
        obtain ⟨r, hr, hroute⟩ := Except.source_of_mapM hroutes route (List.mem_of_getLast? hlast)
        exact WF_payloadOrEmpty (hwf r (List.mem_of_mem_filter hr)) hroute
    · cases h

/-! ## What is recorded

What a candidate is, when it was made of a call. -/

/-- `record_outcome` made this candidate of the call: its words are masked, its id is that of its
content, and its provenance is that of the log. -/
structure Recorded (rt : Runtime) (mask : Masking) (call : OutcomeCall) (id : Str)
    (p : Provenance) : Prop where
  made : Made id call.outcome (mask.text (strip call.lesson)) call.recordedBy p
  ofContent : candidateId (bodyOf (.str call.runId) (.str call.outcome)
    (.str (mask.text (strip call.lesson))) (.obj p.toDict)) = .ok id
  ofLog : provenance rt call.eventLog call.runId = .ok p

/-- The candidate of a call, with the id and the provenance that it got. -/
def OutcomeCall.candidate (mask : Masking) (call : OutcomeCall) (id : Str)
    (p : Provenance) : Fields :=
  candidateDict id call.runId call.outcome (mask.text (strip call.lesson)) p call.recordedBy
    call.now.text

theorem isBlank_of_strip {s : Str} (h : strip s ≠ []) : isBlank s = false :=
  Bool.eq_false_iff.mpr fun hblank ↦ h (strip_eq_nil_iff.mpr hblank)

theorem sha256_take_hex (bs : Bytes) : matchesHex 32 ((sha256 bs).take 32) = true := by
  refine matchesHex_of_hex ?_ (List.all_eq_true.mpr fun c hc ↦ ?_)
  · rw [List.length_take, sha256_length]
    rfl
  · exact List.all_eq_true.mp (sha256_isHex bs) c (List.mem_of_mem_take hc)

theorem candidateOf_eq_ok {mask : Masking} {call : OutcomeCall} {candidate : Fields}
    (h : candidateOf rt mask call = .ok candidate) :
    ∃ id p, Recorded rt mask call id p ∧ candidate = call.candidate mask id p := by
  rw [candidateOf] at h
  by_cases houtcome : call.outcome ∉ OUTCOMES
  · rw [if_pos houtcome] at h
    cases h
  rw [if_neg houtcome] at h
  by_cases hlesson : strip (mask.text (strip call.lesson)) = []
  · rw [if_pos hlesson] at h
    cases h
  rw [if_neg hlesson] at h
  by_cases hshort : (mask.text (strip call.lesson)).length > MAX_LESSON
  · rw [if_pos hshort] at h
    cases h
  rw [if_neg hshort] at h
  by_cases hnamed : strip call.recordedBy = []
  · rw [if_pos hnamed] at h
    cases h
  rw [if_neg hnamed] at h
  obtain ⟨p, hp, h⟩ := Except.bind_eq_ok.mp h
  obtain ⟨id, hid, h⟩ := Except.bind_eq_ok.mp h
  refine ⟨id, p, ⟨⟨?_, not_not.mp houtcome, isBlank_of_strip hlesson, not_lt.mp hshort,
    isBlank_of_strip hnamed, (provenance_wf hp).2⟩, hid, hp⟩, (Except.ok.inj h).symm⟩
  obtain ⟨bytes, -, hid⟩ := Except.bind_eq_ok.mp hid
  rw [← Except.ok.inj hid]
  exact sha256_take_hex bytes

theorem wf_source (s : SourceRef) : (Json.obj s.toDict).WF :=
  ⟨show [str "source_id", str "path", str "sha256"].Nodup by decide,
    trivial, trivial, trivial, trivial⟩

theorem wf_provenance {p : Provenance} (h : p.WF) : (Json.obj p.toDict).WF := by
  have hkeys : [str "event_log_sha256", str "run_stopped_event_id", str "stop_reason",
      str "task_sha256", str "route", str "sources"].Nodup := by decide
  refine ⟨hkeys, trivial, trivial, h.stopReason, h.taskSha256, h.route, ?_, trivial⟩
  refine (Json.WFItems_iff _).mpr fun v hv ↦ ?_
  obtain ⟨s, -, rfl⟩ := List.mem_map.mp hv
  exact wf_source s

theorem wf_candidate {id runId outcome lesson recordedBy recordedAt : Str} {p : Provenance}
    (h : p.WF) : (Json.obj (candidateDict id runId outcome lesson p recordedBy recordedAt)).WF := by
  have hkeys : [str "schema", str "candidate_id", str "run_id", str "outcome", str "lesson",
      str "provenance", str "recorded_by", str "recorded_at"].Nodup := by decide
  exact ⟨hkeys, trivial, trivial, trivial, trivial, trivial, wf_provenance h, trivial, trivial,
    trivial⟩

theorem wf_learning {candidate : Fields} {call : PromoteCall} (h : (Json.obj candidate).WF) :
    (Json.obj (learningOf candidate call)).WF := by
  have hkeys : [str "schema", str "candidate", str "promoted_by", str "promoted_at"].Nodup := by
    decide
  exact ⟨hkeys, trivial, h, trivial, trivial, trivial⟩

/-- The texts of a dict, read again. -/
theorem everyField_readDict (pInt : ℤ → Bool) (pStr : Str → Bool) (d : Fields) :
    Json.everyField pInt pStr (readDict d) = Json.everyField pInt pStr d := by
  have hcanon := Json.every_canon pInt pStr (.obj d)
  rwa [Json.canon, Json.every, Json.every] at hcanon

theorem wf_readDict {d : Fields} (h : (Json.obj d).WF) : (Json.obj (readDict d)).WF :=
  Json.WF_canon h

/-! ## The files

Appending one record to a file that holds some: it then holds one more, at its end. -/

theorem append_eq_ok {file : Option Bytes} {r : Record} {bytes : Bytes} :
    append file r.fields = .ok bytes ↔ r.Writable ∧ bytes = file.getD [] ++ utf8 r.line := by
  have hencoded : ∀ line, encoded r.fields [lf] = .ok line ↔ r.Writable ∧ line = utf8 r.line := by
    intro line
    constructor
    · intro h
      have hwrite : JsonlSink.write none r = .ok line := by
        rw [encoded] at h
        unfold JsonlSink.write
        cases hdumps : (Json.obj r.fields).dumps with
        | none => rw [hdumps] at h; cases h
        | some text =>
          rw [hdumps] at h
          simp only [Record.value, hdumps]
          dsimp only at h ⊢
          cases hencode : encode (text ++ [lf]) with
          | none => rw [hencode] at h; cases h
          | some bytes =>
            rw [hencode] at h
            rw [← Except.ok.inj h]
            rfl
      obtain ⟨hw, rfl⟩ := JsonlSink.write_eq hwrite
      exact ⟨hw, rfl⟩
    · rintro ⟨hw, rfl⟩
      have hdumps : (Json.obj r.fields).dumps = some r.serialisation := if_pos hw.1
      have hencode : encode (r.serialisation ++ [lf]) = some (utf8 r.line) :=
        if_pos (Record.encodable_line hw)
      rw [encoded, hdumps]
      dsimp only
      rw [hencode]
  rw [append]
  constructor
  · intro h
    obtain ⟨line, hline, h⟩ := Except.bind_eq_ok.mp h
    obtain ⟨hw, rfl⟩ := (hencoded line).mp hline
    exact ⟨hw, (Except.ok.inj h).symm⟩
  · rintro ⟨hw, rfl⟩
    exact Except.bind_eq_ok.mpr ⟨_, (hencoded _).mpr ⟨hw, rfl⟩, rfl⟩

/-- A file of the store that holds these dicts, a line each. -/
structure Holds (file : Option Bytes) (ds : List Fields) (records : List Record) : Prop where
  fields : records.map Record.fields = ds
  writable : ∀ r ∈ records, r.Writable
  bytes : file.getD [] = utf8 (logText records)

theorem holds_nil : Holds none [] [] := ⟨rfl, fun _ h ↦ absurd h List.not_mem_nil, rfl⟩

section
variable {file : Option Bytes} {ds : List Fields} {records : List Record}

/-- One record more. -/
theorem Holds.append (h : Holds file ds records) {r : Record} {bytes : Bytes}
    (hbytes : Feedback.append file r.fields = .ok bytes) :
    Holds (some bytes) (ds ++ [r.fields]) (records ++ [r]) := by
  obtain ⟨hw, rfl⟩ := append_eq_ok.mp hbytes
  refine ⟨by rw [List.map_append, h.fields]; rfl,
    List.forall_mem_append.mpr ⟨h.writable, List.forall_mem_singleton.mpr hw⟩, ?_⟩
  have hline : logText [r] = r.line := List.flatMap_singleton _ _
  rw [Option.getD_some, h.bytes, logText_append, utf8_append, hline]

/-- What is found where no text breaks a line. -/
theorem Holds.read_eq (h : Holds file ds records) (hb : ∀ r ∈ records, r.breakFree = true) :
    read file = .ok (ds.map fun d ↦ .obj (readDict d)) := by
  have hread := readJsonl_logText h.writable hb
  have hds : ds.map (fun d ↦ Json.obj (readDict d)) = records.map fun r ↦ .obj r.readFields := by
    rw [← h.fields, List.map_map]
    rfl
  rw [hds]
  have hbytes := h.bytes
  cases file with
  | none =>
    have hnil : readJsonl [] = .ok [] := rfl
    rw [Option.getD_none] at hbytes
    rw [← hbytes, hnil] at hread
    exact congrArg Except.ok (Except.ok.inj hread)
  | some bytes =>
    rw [Option.getD_some] at hbytes
    rw [read, readLog, hbytes, hread]

/-- Where one does, nothing is found. -/
theorem Holds.read_break (h : Holds file ds records) (hb : ∃ r ∈ records, r.breakFree = false) :
    read file = .error .valueError := by
  have hread := readJsonl_logText_break h.writable hb
  have hbytes := h.bytes
  cases file with
  | none =>
    have hnil : readJsonl [] = .ok [] := rfl
    rw [Option.getD_none] at hbytes
    rw [← hbytes, hnil] at hread
    cases hread
  | some bytes =>
    rw [Option.getD_some] at hbytes
    rw [read, readLog, hbytes, hread]

end

/-! ## One promotion

What has to be true for a promotion to be made. -/

section
variable {store : Store} {call : PromoteCall} {candidate learning : Fields} {bytes : Bytes}
  {id : Str}
  {ds : List Fields}

/-- A promotion that was made: by somebody, of a candidate that is there, that was not promoted
before, and whose log still says the same. -/
structure Promoted (rt : Runtime) (store : Store) (call : PromoteCall) (candidate : Fields)
    (bytes : Bytes) : Prop where
  named : strip call.promotedBy ≠ []
  found : ∃ values, read store.candidates = .ok values ∧
    findCandidate values call.candidateId = .ok candidate
  fresh : ∃ values, read store.learnings = .ok values ∧
    isPromoted call.candidateId values = .ok false
  passed : gate rt candidate call.eventLog = .ok []
  written : append store.learnings (learningOf candidate call) = .ok bytes

theorem passing_eq_ok {α : Type} {x : Except Exc α} {a : α} : passing x = .ok a ↔ x = .ok a := by
  cases x <;> simp [passing]

/-- **What a promotion asks for, and what it leaves.** -/
theorem promote_eq_ok {x : Fields × Store} : promote rt store call = .ok x ↔
    ∃ candidate bytes, Promoted rt store call candidate bytes ∧
      x = (learningOf candidate call, { store with learnings := some bytes }) := by
  rw [promote]
  constructor
  · intro h
    by_cases hnamed : strip call.promotedBy = []
    · rw [if_pos hnamed] at h
      cases h
    rw [if_neg hnamed] at h
    obtain ⟨values, hvalues, h⟩ := Except.bind_eq_ok.mp h
    obtain ⟨candidate, hfound, h⟩ := Except.bind_eq_ok.mp h
    obtain ⟨promoted, hfresh, h⟩ := Except.bind_eq_ok.mp h
    obtain ⟨learnings, hlearnings, hfresh⟩ := Except.bind_eq_ok.mp (passing_eq_ok.mp hfresh)
    cases promoted with
    | true => cases h
    | false =>
      rw [if_neg Bool.false_ne_true] at h
      obtain ⟨problems, hgate, h⟩ := Except.bind_eq_ok.mp h
      by_cases hproblems : problems ≠ []
      · rw [if_pos hproblems] at h
        cases h
      rw [if_neg hproblems] at h
      obtain ⟨bytes, hwritten, h⟩ := Except.bind_eq_ok.mp h
      obtain rfl := not_not.mp hproblems
      exact ⟨candidate, bytes, ⟨hnamed, ⟨values, passing_eq_ok.mp hvalues, hfound⟩,
        ⟨learnings, hlearnings, hfresh⟩, passing_eq_ok.mp hgate, passing_eq_ok.mp hwritten⟩,
        (Except.ok.inj h).symm⟩
  · rintro ⟨candidate, bytes, h, rfl⟩
    obtain ⟨values, hvalues, hfound⟩ := h.found
    obtain ⟨learnings, hlearnings, hfresh⟩ := h.fresh
    rw [if_neg h.named]
    refine Except.bind_eq_ok.mpr ⟨_, passing_eq_ok.mpr hvalues, ?_⟩
    refine Except.bind_eq_ok.mpr ⟨_, hfound, Except.bind_eq_ok.mpr ⟨false,
      passing_eq_ok.mpr (Except.bind_eq_ok.mpr ⟨_, hlearnings, hfresh⟩), ?_⟩⟩
    refine Except.bind_eq_ok.mpr ⟨_, passing_eq_ok.mpr h.passed, ?_⟩
    exact Except.bind_eq_ok.mpr ⟨_, passing_eq_ok.mpr h.written, rfl⟩

theorem hasId_readDict {d : Fields} : hasId id (readDict d) = hasId id d := by
  rw [hasId, hasId, readDict, getOrNull_canon]
  cases getOrNull d "candidate_id" <;> simp [Json.canon, isText]

theorem objects_readDict : objects (ds.map fun d ↦ .obj (readDict d)) = some (ds.map readDict) := by
  induction ds with
  | nil => rfl
  | cons d ds ih =>
    rw [objects] at ih
    rw [objects, List.map_cons, List.mapM_cons, ih]
    rfl

theorem filter_readDict :
    (ds.map readDict).filter (hasId id) = (ds.filter (hasId id)).map readDict := by
  rw [List.filter_map]
  exact congrArg _ (List.filter_congr fun d _ ↦ hasId_readDict)

/-- The candidate that is found is the one that was recorded under the id. -/
theorem findCandidate_eq_ok :
    findCandidate (ds.map fun d ↦ .obj (readDict d)) id = .ok candidate ↔
      ∃ d, ds.filter (hasId id) = [d] ∧ candidate = readDict d := by
  rw [findCandidate, objects_readDict]
  dsimp only
  rw [filter_readDict]
  cases hfilter : ds.filter (hasId id) with
  | nil => simp
  | cons d rest =>
    cases rest with
    | nil =>
      rw [List.map_singleton]
      simp [eq_comm]
    | cons d' rest => simp

/-- The learning is one of a candidate with this id. -/
def ofCandidate (id : Str) (learning : Fields) : Bool :=
  match Json.lookup (str "candidate") learning with
  | some (.obj candidate) => hasId id candidate
  | _ => false

theorem ofCandidate_learningOf : ofCandidate id (learningOf candidate call) = hasId id candidate :=
    rfl

/-- The loop over the learnings finds whether one of them is of the candidate. -/
theorem isPromoted_readDict (h : ∀ d ∈ ds, ∃ candidate call, d = learningOf candidate call) :
    isPromoted id (ds.map fun d ↦ .obj (readDict d)) = .ok (ds.any (ofCandidate id)) := by
  induction ds with
  | nil => rfl
  | cons d ds ih =>
    obtain ⟨candidate, call, rfl⟩ := h d List.mem_cons_self
    have hlookup : Json.lookup (str "candidate") (readDict (learningOf candidate call)) =
        some (.obj (readDict candidate)) := rfl
    rw [List.map_cons, isPromoted, hlookup]
    dsimp only [Option.getD_some]
    rw [hasId_readDict, ih fun d hd ↦ h d (List.mem_cons_of_mem _ hd), List.any_cons,
      ofCandidate_learningOf]
    cases hasId id candidate <;> rfl

end

/-! ## Sequences of calls

The state that a sequence of calls reaches, in the words of the two files. -/

section
variable (rt : Runtime) (mask : Masking)

/-- The candidate that a call returned; a call that raised returned none. -/
def candidateAt (x : Store × Call) : Option Fields :=
  match x.2 with
  | .recordOutcome call => (recordOutcome rt mask x.1 call).toOption.map Prod.fst
  | .promote _ => none

/-- The learning that a call returned; a call that raised returned none. -/
def learningAt (x : Store × Call) : Option Fields :=
  match x.2 with
  | .recordOutcome _ => none
  | .promote call => (promote rt x.1 call).toOption.map Prod.fst

/-- The candidates that were returned, in order, which are those that the file should hold. -/
def candidatesOf (tr : List (Store × Call)) : List Fields := tr.filterMap (candidateAt rt mask)

/-- The learnings that were returned, in order, which are those that the file should hold. -/
def learningsOf (tr : List (Store × Call)) : List Fields := tr.filterMap (learningAt rt)

/-- What holds of a store after calls: both files hold what was returned, and no candidate was
promoted twice. -/
structure Kept (tr : List (Store × Call)) (store : Store) : Prop where
  candidates : ∃ records, Holds store.candidates (candidatesOf rt mask tr) records
  learnings : ∃ records, Holds store.learnings (learningsOf rt tr) records
  promoted : ∀ l ∈ learningsOf rt tr, ∃ candidate call, l = learningOf candidate call
  once : ∀ id, ((learningsOf rt tr).filter (ofCandidate id)).length ≤ 1

end

section
variable {mask : Masking} {tr : List (Store × Call)} {store store' : Store}

/-- What can be written is encoded. -/
theorem encoded_ok {fields : Fields} {ending : Str}
    (hfits : (Json.obj fields).every Json.intFits (fun _ ↦ true) = true)
    (hfree : (Json.obj fields).surrogateFree = true) (hending : encodable ending = true) :
    ∃ bytes, encoded fields ending = .ok bytes := by
  have hdumps : (Json.obj fields).dumps = some (Json.obj fields).canon.render := if_pos hfits
  have hencodable : encodable ((Json.obj fields).canon.render ++ ending) = true := by
    rw [encodable_append, Json.encodable_render, Json.surrogateFree, Json.every_canon, hending,
      Bool.and_true]
    exact hfree
  have hencode : encode ((Json.obj fields).canon.render ++ ending) = some _ := if_pos hencodable
  exact ⟨_, by rw [encoded, hdumps]; dsimp only; rw [hencode]⟩

/-- A verdict with a name and words on a run that ended is recorded, if it can be written. -/
theorem recordOutcome_ok {call : OutcomeCall} {p : Provenance} (houtcome : call.outcome ∈ OUTCOMES)
    (hlesson : strip (mask.text (strip call.lesson)) ≠ [])
    (hshort : (mask.text (strip call.lesson)).length ≤ MAX_LESSON)
    (hnamed : strip call.recordedBy ≠ [])
    (hp : provenance rt call.eventLog call.runId = .ok p)
    (hfits : ∀ id, (Json.obj (call.candidate mask id p)).every Json.intFits (fun _ ↦ true) = true)
    (hfree : ∀ id, encodable id = true →
      (Json.obj (call.candidate mask id p)).surrogateFree = true) :
    ∃ x, recordOutcome rt mask store call = .ok x := by
  have hbody : ∀ {pInt : ℤ → Bool} {pStr : Str → Bool} {id : Str},
      (Json.obj (call.candidate mask id p)).every pInt pStr = true →
      (Json.obj (bodyOf (.str call.runId) (.str call.outcome) (.str (mask.text (strip call.lesson)))
        (.obj p.toDict))).every pInt pStr = true := by
    intro pInt pStr id h
    rw [OutcomeCall.candidate, candidateDict, Json.every, Json.everyField_eq_all, List.all_append,
      List.all_append, Bool.and_eq_true, Bool.and_eq_true] at h
    rw [Json.every, Json.everyField_eq_all]
    exact h.1.2
  obtain ⟨body, hencoded⟩ := encoded_ok (hbody (hfits [])) (hbody (hfree [] rfl))
    (show encodable [] = true from rfl)
  have hid : encodable ((sha256 body).take 32) = true :=
    encodable_take (encodable_of_isHex (sha256_isHex body)) 32
  obtain ⟨line, hline⟩ := encoded_ok (hfits _) (hfree _ hid) (show encodable [lf] = true from rfl)
  have hmade : candidateOf rt mask call = .ok (call.candidate mask ((sha256 body).take 32) p) := by
    rw [candidateOf, if_neg (not_not.mpr houtcome), if_neg hlesson, if_neg (not_lt.mpr hshort),
      if_neg hnamed]
    exact Except.bind_eq_ok.mpr ⟨p, hp, Except.bind_eq_ok.mpr
      ⟨_, Except.bind_eq_ok.mpr ⟨body, hencoded, rfl⟩, rfl⟩⟩
  exact ⟨_, Except.bind_eq_ok.mpr ⟨_, hmade, Except.bind_eq_ok.mpr
    ⟨_, Except.bind_eq_ok.mpr ⟨line, hline, rfl⟩, rfl⟩⟩⟩

theorem recordOutcome_eq_ok {call : OutcomeCall} {candidate : Fields}
    (h : recordOutcome rt mask store call = .ok (candidate, store')) :
    candidateOf rt mask call = .ok candidate ∧ ∃ bytes,
      append store.candidates candidate = .ok bytes ∧
        store' = { store with candidates := some bytes } := by
  obtain ⟨made, hmade, h⟩ := Except.bind_eq_ok.mp h
  obtain ⟨bytes, hbytes, h⟩ := Except.bind_eq_ok.mp h
  obtain ⟨rfl, rfl⟩ := Prod.mk.inj (Except.ok.inj h)
  exact ⟨hmade, bytes, hbytes, rfl⟩

/-- Records that are read hold no line break. -/
theorem Holds.breakFree {file : Option Bytes} {ds : List Fields} {records : List Record}
    (h : Holds file ds records) {values : List Json} (hread : read file = .ok values) :
    (∀ r ∈ records, r.breakFree = true) ∧ values = ds.map fun d ↦ .obj (readDict d) := by
  have hb : ∀ r ∈ records, r.breakFree = true := by
    intro r hr
    by_contra hbreak
    have herror := h.read_break ⟨r, hr, Bool.eq_false_iff.mpr hbreak⟩
    rw [hread] at herror
    cases herror
  refine ⟨hb, ?_⟩
  rw [h.read_eq hb] at hread
  exact (Except.ok.inj hread).symm

/-- The dict that a candidate has in the file can be written again. -/
theorem Holds.exists_record {file : Option Bytes} {ds : List Fields} {records : List Record}
    (h : Holds file ds records) {d : Fields} (hd : d ∈ ds) : ∃ r ∈ records, r.fields = d := by
  rw [← h.fields] at hd
  exact List.mem_map.mp hd

/-! ### What a call adds to what was returned -/

theorem candidatesOf_recordOutcome {call : OutcomeCall} {candidate : Fields}
    (hcall : recordOutcome rt mask store call = .ok (candidate, store')) :
    candidatesOf rt mask (tr ++ [(store, .recordOutcome call)]) =
      candidatesOf rt mask tr ++ [candidate] := by
  rw [candidatesOf, List.filterMap_append, candidatesOf, List.filterMap_cons, candidateAt]
  dsimp only
  rw [hcall]
  rfl

theorem learningsOf_recordOutcome {call : OutcomeCall} :
    learningsOf rt (tr ++ [(store, .recordOutcome call)]) = learningsOf rt tr := by
  rw [learningsOf, List.filterMap_append]
  exact List.append_nil _

theorem candidatesOf_promote {call : PromoteCall} :
    candidatesOf rt mask (tr ++ [(store, .promote call)]) = candidatesOf rt mask tr := by
  rw [candidatesOf, List.filterMap_append]
  exact List.append_nil _

theorem learningsOf_promote {call : PromoteCall} {learning : Fields}
    (hcall : promote rt store call = .ok (learning, store')) :
    learningsOf rt (tr ++ [(store, .promote call)]) = learningsOf rt tr ++ [learning] := by
  rw [learningsOf, List.filterMap_append, learningsOf, List.filterMap_cons, learningAt]
  dsimp only
  rw [hcall]
  rfl

/-- A call that raises returns nothing. -/
theorem candidatesOf_raised {call : Call} (hcall : answer rt mask store call = none) :
    candidatesOf rt mask (tr ++ [(store, call)]) = candidatesOf rt mask tr := by
  cases call with
  | recordOutcome call =>
    rw [candidatesOf, List.filterMap_append, List.filterMap_cons, candidateAt]
    dsimp only
    rw [show (Feedback.recordOutcome rt mask store call).toOption = none from hcall]
    exact List.append_nil _
  | promote call => exact candidatesOf_promote

theorem learningsOf_raised {call : Call} (hcall : answer rt mask store call = none) :
    learningsOf rt (tr ++ [(store, call)]) = learningsOf rt tr := by
  cases call with
  | recordOutcome call => exact learningsOf_recordOutcome
  | promote call =>
    rw [learningsOf, List.filterMap_append, List.filterMap_cons, learningAt]
    dsimp only
    rw [show (Feedback.promote rt store call).toOption = none from hcall]
    exact List.append_nil _

theorem Kept.recordOutcome (h : Kept rt mask tr store) {call : OutcomeCall} {candidate : Fields}
    (hcall : recordOutcome rt mask store call = .ok (candidate, store')) :
    Kept rt mask (tr ++ [(store, .recordOutcome call)]) store' := by
  obtain ⟨hmade, bytes, hbytes, rfl⟩ := recordOutcome_eq_ok hcall
  obtain ⟨id, p, hrecorded, rfl⟩ := candidateOf_eq_ok hmade
  have hlearnings : learningsOf rt (tr ++ [(store, .recordOutcome call)]) = learningsOf rt tr :=
    learningsOf_recordOutcome
  obtain ⟨records, hholds⟩ := h.candidates
  refine ⟨?_, hlearnings ▸ h.learnings, hlearnings ▸ h.promoted, hlearnings ▸ h.once⟩
  rw [candidatesOf_recordOutcome hcall]
  exact ⟨_, hholds.append (r := ⟨_, wf_candidate (provenance_wf hrecorded.ofLog).1⟩) hbytes⟩

/-- **A candidate that was promoted is not promoted again.** -/
theorem Kept.promote (h : Kept rt mask tr store) {call : PromoteCall} {learning : Fields}
    (hcall : promote rt store call = .ok (learning, store')) :
    Kept rt mask (tr ++ [(store, .promote call)]) store' := by
  obtain ⟨candidate, bytes, hpromoted, he⟩ := promote_eq_ok.mp hcall
  obtain ⟨rfl, rfl⟩ := Prod.mk.inj he
  have hcandidates : candidatesOf rt mask (tr ++ [(store, .promote call)]) =
      candidatesOf rt mask tr := candidatesOf_promote
  have hlearnings : learningsOf rt (tr ++ [(store, .promote call)]) =
      learningsOf rt tr ++ [learningOf candidate call] := learningsOf_promote hcall
  obtain ⟨records, hholds⟩ := h.candidates
  obtain ⟨records', hholds'⟩ := h.learnings
  obtain ⟨values, hvalues, hfound⟩ := hpromoted.found
  obtain ⟨learnings, hread, hfresh⟩ := hpromoted.fresh
  rw [(hholds.breakFree hvalues).2] at hfound
  obtain ⟨d, hfilter, rfl⟩ := findCandidate_eq_ok.mp hfound
  obtain ⟨hd, hid⟩ := List.mem_filter.mp (hfilter ▸ List.mem_singleton.mpr rfl)
  obtain ⟨r, -, rfl⟩ := hholds.exists_record hd
  rw [(hholds'.breakFree hread).2, isPromoted_readDict h.promoted, Except.ok.injEq,
    List.any_eq_false] at hfresh
  refine ⟨hcandidates ▸ ⟨records, hholds⟩, ?_, ?_, fun id ↦ ?_⟩
  · rw [hlearnings]
    exact ⟨_, hholds'.append (r := ⟨_, wf_learning (wf_readDict r.wf)⟩) hpromoted.written⟩
  · rw [hlearnings]
    exact List.forall_mem_append.mpr ⟨h.promoted, List.forall_mem_singleton.mpr ⟨_, _, rfl⟩⟩
  · rw [hlearnings, List.filter_append, List.filter_singleton, ofCandidate_learningOf,
      hasId_readDict]
    by_cases hsame : hasId id r.fields = true
    · -- the candidate has one id, and no learning before it was of that
      have heq : id = call.candidateId := by
        have htext := isText_iff.mp hsame
        rw [isText_iff.mp hid, Json.str.injEq] at htext
        exact htext.symm
      rw [heq, List.filter_eq_nil_iff.mpr hfresh, List.nil_append]
      cases hasId call.candidateId r.fields <;> simp
    · rw [Bool.not_eq_true] at hsame
      rw [hsame, cond_false, List.append_nil]
      exact h.once id

/-- **Over any sequence of calls** the files hold what was returned, each candidate promoted once at
most. -/
theorem kept_run (run : (feedbackSystem rt mask).Run tr store) : Kept rt mask tr store := by
  induction run with
  | init => exact ⟨⟨[], holds_nil⟩, ⟨[], holds_nil⟩, nofun, fun _ ↦ Nat.zero_le 1⟩
  | @step tr store call store' run hstep ih =>
    obtain rfl := Option.some.inj hstep
    cases hcall : answer rt mask store call with
    | some x =>
      obtain ⟨returned, after⟩ := x
      cases call with
      | recordOutcome call =>
        exact ih.recordOutcome (Except.eq_ok_of_toOption hcall)
      | promote call => exact ih.promote (Except.eq_ok_of_toOption hcall)
    | none =>
      -- a call that raises leaves the store
      have hcandidates : candidatesOf rt mask (tr ++ [(store, call)]) = candidatesOf rt mask tr :=
        candidatesOf_raised hcall
      have hlearnings : learningsOf rt (tr ++ [(store, call)]) = learningsOf rt tr :=
        learningsOf_raised hcall
      exact ⟨hcandidates ▸ ih.candidates, hlearnings ▸ ih.learnings, hlearnings ▸ ih.promoted,
        hlearnings ▸ ih.once⟩

/-! ## Which candidates can be promoted

A candidate that waits, is sound, and can be read back. -/

/-- A candidate that a call recorded, once, and that was not promoted yet. -/
structure Waiting (rt : Runtime) (mask : Masking) (tr : List (Store × Call)) (call : OutcomeCall)
    (candidate : Fields) (id : Str) : Prop where
  recorded : ∃ t t', (t, Call.recordOutcome call) ∈ tr ∧
    recordOutcome rt mask t call = .ok (candidate, t')
  ofId : hasId id candidate = true
  once : ((candidatesOf rt mask tr).filter (hasId id)).length = 1
  waiting : ∀ l ∈ learningsOf rt tr, ofCandidate id l = false

/-- What the store has to be like, and the log, for a candidate to be promoted. -/
structure Promotable (rt : Runtime) (mask : Masking) (tr : List (Store × Call))
    (call : OutcomeCall) : Prop where
  named : isBlank call.runId = false
  texts : ∀ p, provenance rt call.eventLog call.runId = .ok p → p.Texts
  readable : ∀ d, d ∈ candidatesOf rt mask tr ∨ d ∈ learningsOf rt tr →
    (Json.obj d).breakFree = true

/-- What is asked of the store after calls. -/
structure Sound (rt : Runtime) (mask : Masking) (tr : List (Store × Call))
    (store : Store) : Prop where
  /-- The files are the lines of what was returned. -/
  contents : (∃ records, Holds store.candidates (candidatesOf rt mask tr) records) ∧
    ∃ records, Holds store.learnings (learningsOf rt tr) records
  once : ∀ id, ((learningsOf rt tr).filter (ofCandidate id)).length ≤ 1
  gated : ∀ t call l t', (t, Call.promote call) ∈ tr → promote rt t call = .ok (l, t') →
    ∃ candidate, l = learningOf candidate call ∧ gate rt candidate call.eventLog = .ok []
  /-- By anybody with a name that can be written, with the log as it was. -/
  promotable : ∀ call candidate id, Waiting rt mask tr call candidate id →
    ∀ promotion : PromoteCall, promotion.candidateId = id → promotion.eventLog = call.eventLog →
      strip promotion.promotedBy ≠ [] → encodable promotion.promotedBy = true →
      ∃ x, promote rt store promotion = .ok x

theorem mem_candidatesOf {call : OutcomeCall} {candidate : Fields} {t t' : Store}
    (hmem : (t, Call.recordOutcome call) ∈ tr)
    (hcall : recordOutcome rt mask t call = .ok (candidate, t')) :
    candidate ∈ candidatesOf rt mask tr := by
  refine List.mem_filterMap.mpr ⟨_, hmem, ?_⟩
  rw [candidateAt]
  dsimp only
  rw [hcall]
  rfl

/-- A learning of a candidate that was written can be written by anybody whose name can. -/
theorem writable_learning {r : Record} (hr : r.Writable) {call : PromoteCall}
    (hname : encodable call.promotedBy = true) :
    (⟨learningOf (readDict r.fields) call, wf_learning (wf_readDict r.wf)⟩ : Record).Writable := by
  have hnow : encodable call.now.text = true :=
    Json.noneOf_printable Json.offAscii_isSurrogate call.now.printable
  have hkeys : encodable (str "schema") = true ∧ encodable (str "candidate") = true ∧
      encodable (str "promoted_by") = true ∧ encodable (str "promoted_at") = true ∧
      encodable LEARNING_SCHEMA = true := by decide
  obtain ⟨hschema, hkey, hby, hat, hlearning⟩ := hkeys
  obtain ⟨hfits, hencodable⟩ := hr
  rw [Record.value, Json.every] at hfits
  rw [Json.surrogateFree, Record.value, Json.every] at hencodable
  constructor
  · simp only [Record.value, learningOf, Json.every, Json.everyField, everyField_readDict, hfits,
      Bool.and_true]
  · simp only [Record.value, Json.surrogateFree, learningOf, Json.every, Json.everyField,
      everyField_readDict, hencodable, hschema, hkey, hby, hat, hlearning, hname, hnow,
        Bool.and_true]

/-- A candidate that waits is promoted exactly when it is promotable. -/
theorem Kept.promotes_iff (h : Kept rt mask tr store) {call : OutcomeCall} {candidate : Fields}
    {id : Str} (hwaiting : Waiting rt mask tr call candidate id) {promotion : PromoteCall}
    (hid : promotion.candidateId = id) (hlog : promotion.eventLog = call.eventLog)
    (hnamed : strip promotion.promotedBy ≠ []) (hname : encodable promotion.promotedBy = true) :
    (∃ x, Feedback.promote rt store promotion = .ok x) ↔ Promotable rt mask tr call := by
  obtain ⟨t, t', hmem, hcall⟩ := hwaiting.recorded
  have hcandidate := mem_candidatesOf hmem hcall
  obtain ⟨hmade, -⟩ := recordOutcome_eq_ok hcall
  obtain ⟨id', p, hrecorded, rfl⟩ := candidateOf_eq_ok hmade
  have hfilter : (candidatesOf rt mask tr).filter (hasId id) = [call.candidate mask id' p] := by
    obtain ⟨d, hd⟩ := List.length_eq_one_iff.mp hwaiting.once
    have hin := List.mem_filter.mpr ⟨hcandidate, hwaiting.ofId⟩
    rw [hd] at hin ⊢
    rw [List.mem_singleton.mp hin]
  have hgate : gate rt (readDict (call.candidate mask id' p)) call.eventLog = .ok [] ↔
      isBlank call.runId = false ∧ p.Texts :=
    gate_eq_nil_iff hrecorded.made hrecorded.ofContent hrecorded.ofLog
  obtain ⟨records, hholds⟩ := h.candidates
  obtain ⟨records', hholds'⟩ := h.learnings
  constructor
  · rintro ⟨x, hx⟩
    obtain ⟨found, bytes, hpromoted, -⟩ := promote_eq_ok.mp hx
    obtain ⟨values, hvalues, hfound⟩ := hpromoted.found
    obtain ⟨learnings, hread, -⟩ := hpromoted.fresh
    obtain ⟨hbreaks, rfl⟩ := hholds.breakFree hvalues
    obtain ⟨hbreaks', -⟩ := hholds'.breakFree hread
    obtain ⟨d, hd, rfl⟩ := findCandidate_eq_ok.mp hfound
    rw [hid, hfilter, List.singleton_inj] at hd
    subst hd
    have hpassed := hpromoted.passed
    rw [hlog] at hpassed
    obtain ⟨hrun, htexts⟩ := hgate.mp hpassed
    refine ⟨hrun, fun p' hp' ↦ ?_, ?_⟩
    · rw [← Except.ok.inj (hrecorded.ofLog.symm.trans hp')]
      exact htexts
    · rintro d (hd | hd)
      · obtain ⟨r, hr, rfl⟩ := hholds.exists_record hd
        exact hbreaks r hr
      · obtain ⟨r, hr, rfl⟩ := hholds'.exists_record hd
        exact hbreaks' r hr
  · intro hpromotable
    have hbreaks : ∀ r ∈ records, r.breakFree = true := fun r hr ↦
      hpromotable.readable _ (.inl (hholds.fields ▸ List.mem_map_of_mem hr))
    have hbreaks' : ∀ r ∈ records', r.breakFree = true := fun r hr ↦
      hpromotable.readable _ (.inr (hholds'.fields ▸ List.mem_map_of_mem hr))
    obtain ⟨r, hr, hfields⟩ := hholds.exists_record hcandidate
    obtain ⟨bytes, hwritten⟩ : ∃ bytes, append store.learnings
        (learningOf (readDict r.fields) promotion) = .ok bytes :=
      ⟨_, append_eq_ok.mpr ⟨writable_learning (hholds.writable r hr) hname, rfl⟩⟩
    rw [hfields] at hwritten
    refine ⟨_, promote_eq_ok.mpr ⟨readDict (call.candidate mask id' p), _, ⟨hnamed,
      ⟨_, hholds.read_eq hbreaks, findCandidate_eq_ok.mpr ⟨_, hid ▸ hfilter, rfl⟩⟩,
      ⟨_, hholds'.read_eq hbreaks', ?_⟩, ?_, hwritten⟩, rfl⟩⟩
    · rw [isPromoted_readDict h.promoted, hid, List.any_eq_false.mpr fun l hl ↦
        Bool.eq_false_iff.mp (hwaiting.waiting l hl)]
    · rw [hlog]
      exact hgate.mpr ⟨hpromotable.named, hpromotable.texts p hrecorded.ofLog⟩

/-- **The feedback store is sound exactly when every candidate that waits is promotable.** -/
theorem feedback_iff (run : (feedbackSystem rt mask).Run tr store) : Sound rt mask tr store ↔
    ∀ call candidate id, Waiting rt mask tr call candidate id → Promotable rt mask tr call := by
  have hkept := kept_run run
  constructor
  · intro hsound call candidate id hwaiting
    have hnamed : strip (str "a") ≠ [] := by decide
    have hname : encodable (str "a") = true := by decide
    have hpromotes := hsound.promotable call candidate id hwaiting
      ⟨id, call.eventLog, str "a", call.now⟩ rfl rfl hnamed hname
    exact (hkept.promotes_iff hwaiting rfl rfl hnamed hname).mp hpromotes
  · intro hpromotable
    refine ⟨⟨hkept.candidates, hkept.learnings⟩, hkept.once, fun t call l t' _ hcall ↦ ?_,
      fun call candidate id hwaiting promotion hid hlog hnamed hname ↦
        (hkept.promotes_iff hwaiting hid hlog hnamed hname).mpr
          (hpromotable call candidate id hwaiting)⟩
    obtain ⟨candidate, bytes, hpromoted, he⟩ := promote_eq_ok.mp hcall
    exact ⟨candidate, (Prod.mk.inj he).1, hpromoted.passed⟩

end

/-! ## A line separator in a lesson

A lesson with a character that ends a line for the reader and not for the writer. -/

/-- The log of a run that passed, with nothing between its start and its stop. -/
def passedLog : List Record :=
  [(fileEvent 0 .runStarted []).record (str "2026-01-01") wf_noPayload,
    (fileEvent 1 .runStopped passedPayload).record (str "2026-01-01") wf_passedPayload]

/-- A verdict on it, with these words; they are the only thing in which two of them differ. -/
def verdict (lesson : Str) : OutcomeCall where
  eventLog := some (utf8 (logText passedLog))
  runId := str "run-1"
  outcome := str "confirmed"
  lesson := lesson
  recordedBy := str "m"
  now := ⟨str "2026-01-01", by decide⟩

/-- Two words with the character U+2028 between them. -/
def twoLines : Str := [ch 'a', 0x2028, ch 'b']

/-- The store after one call, on an empty one. -/
def storeAfter (call : Call) : Store :=
  ((answer asciiRuntime noMasking {} call).map Prod.snd).getD {}

theorem run_one (call : Call) :
    (feedbackSystem asciiRuntime noMasking).Run [({}, call)] (storeAfter call) := by
  have hrun := System.Run.init (S := feedbackSystem asciiRuntime noMasking)
  exact hrun.step (a := call) rfl

/-- The log of the run is read back. -/
theorem readLog_passed :
    readLog (some (utf8 (logText passedLog))) = .ok (passedLog.map fun r ↦ .obj r.readFields) := by
  have hall : (passedLog.all fun r ↦ r.value.every Json.intFits (fun _ ↦ true) &&
      r.value.surrogateFree && r.breakFree) = true := by decide
  have hboth : ∀ r ∈ passedLog, r.Writable ∧ r.breakFree = true := by
    intro r hr
    have h := List.all_eq_true.mp hall r hr
    rw [Bool.and_eq_true, Bool.and_eq_true] at h
    exact ⟨h.1, h.2⟩
  exact readLog_logText (fun r hr ↦ (hboth r hr).1) fun r hr ↦ (hboth r hr).2

/-- What a verdict on it refers to: the digest of the log, and the record of the stop. -/
def passedProvenance : Provenance where
  eventLogSha256 := sha256 (utf8 (logText passedLog))
  runStoppedEventId := str "run-1:1"
  stopReason := .str StopReason.passed.text
  taskSha256 := .null
  route := .null
  sources := []

theorem provenance_passed :
    provenance asciiRuntime (some (utf8 (logText passedLog))) (str "run-1") =
      .ok passedProvenance := by
  rw [provenance, readLog_passed, Option.getD_some, passedProvenance]
  generalize sha256 (utf8 (logText passedLog)) = digest
  rfl

theorem encodable_passedProvenance : encodable passedProvenance.eventLogSha256 = true :=
  encodable_of_isHex (sha256_isHex _)

/-- Such a verdict is recorded, whatever its words are. -/
theorem verdict_recorded {lesson : Str} (hlesson : strip (strip lesson) ≠ [])
    (hshort : (strip lesson).length ≤ MAX_LESSON) (hwords : encodable (strip lesson) = true) :
    ∃ x, recordOutcome asciiRuntime noMasking {} (verdict lesson) = .ok x := by
  refine recordOutcome_ok (show str "confirmed" ∈ OUTCOMES by decide) hlesson hshort
    (show strip (str "m") ≠ [] by decide) provenance_passed (fun _ ↦ rfl) fun id hid ↦ ?_
  have hwords : encodable (noMasking.text (strip lesson)) = true := hwords
  have hdigest := encodable_passedProvenance
  rw [Json.surrogateFree, OutcomeCall.candidate, candidateDict, Json.every, Json.everyField_eq_all,
    List.all_append, List.all_append]
  simp only [bodyOf, Provenance.toDict, verdict, List.all_cons, List.all_nil, Json.every,
    Json.everyField,
    hid, hwords, hdigest, Bool.and_true]
  rfl

/-- What is recorded first and holds a line separator cannot be promoted. -/
theorem not_sound_of_break {rt : Runtime} {mask : Masking} {call : OutcomeCall} {candidate : Fields}
    {after : Store} (hcall : recordOutcome rt mask {} call = .ok (candidate, after))
    (hbreak : Json.noneOf Json.isWideBreak (mask.text (strip call.lesson)) = false) :
    ¬ Sound rt mask [({}, .recordOutcome call)] after := by
  intro hsound
  obtain ⟨hmade, -⟩ := recordOutcome_eq_ok hcall
  obtain ⟨id, p, hrecorded, rfl⟩ := candidateOf_eq_ok hmade
  have hanswer :
      answer rt mask {} (.recordOutcome call) = some (call.candidate mask id p, after) := by
    rw [answer, hcall]
    rfl
  have hrun : (feedbackSystem rt mask).Run [({}, .recordOutcome call)] after := by
    have hinit := System.Run.init (S := feedbackSystem rt mask)
    refine hinit.step (a := .recordOutcome call) ?_
    show some (((answer rt mask {} (.recordOutcome call)).map Prod.snd).getD {}) = some after
    rw [hanswer]
    rfl
  have hcandidates :
      candidatesOf rt mask [({}, .recordOutcome call)] = [call.candidate mask id p] := by
    rw [candidatesOf, List.filterMap_cons, candidateAt]
    dsimp only
    rw [hcall]
    rfl
  have hid : hasId id (call.candidate mask id p) = true := isText_iff.mpr rfl
  have hwaiting : Waiting rt mask [({}, .recordOutcome call)] call (call.candidate mask id p) id :=
    { recorded := ⟨_, _, List.mem_singleton.mpr rfl, hcall⟩
      ofId := hid
      once := by
        rw [hcandidates, List.filter_singleton, hid]
        rfl
      waiting := nofun }
  have hnamed : strip (str "m") ≠ [] := by decide
  have hname : encodable (str "m") = true := by decide
  obtain ⟨x, hx⟩ := hsound.promotable _ _ _ hwaiting ⟨id, call.eventLog, str "m", call.now⟩ rfl rfl
    hnamed hname
  obtain ⟨found, bytes, hpromoted, -⟩ := promote_eq_ok.mp hx
  obtain ⟨values, hvalues, -⟩ := hpromoted.found
  obtain ⟨records, hholds⟩ := (kept_run hrun).candidates
  obtain ⟨r, hr, hfields⟩ := hholds.exists_record (hcandidates ▸ List.mem_singleton.mpr rfl)
  have hfree := (hholds.breakFree hvalues).1 r hr
  rw [Record.breakFree, Record.value, hfields, Json.breakFree, Json.every, Json.everyField_eq_all,
    List.all_eq_true] at hfree
  have hfield := hfree (str "lesson", .str (mask.text (strip call.lesson))) (by
    simp [OutcomeCall.candidate, candidateDict, bodyOf])
  exact absurd (Bool.and_eq_true_iff.mp hfield).2 (Bool.eq_false_iff.mp hbreak)

/-- Such a lesson is recorded, once, and cannot be promoted. -/
theorem twoLines_lost : (feedbackSystem asciiRuntime noMasking).Run
      [({}, .recordOutcome (verdict twoLines))] (storeAfter (.recordOutcome (verdict twoLines))) ∧
    ¬ Sound asciiRuntime noMasking [({}, .recordOutcome (verdict twoLines))]
      (storeAfter (.recordOutcome (verdict twoLines))) := by
  refine ⟨run_one _, ?_⟩
  obtain ⟨⟨candidate, after⟩, hcall⟩ :=
    verdict_recorded (show strip (strip twoLines) ≠ [] by decide) (by decide) (by decide)
  have hafter : storeAfter (.recordOutcome (verdict twoLines)) = after := by
    rw [storeAfter, answer, hcall]
    rfl
  rw [hafter]
  exact not_sound_of_break hcall (by decide)

/-- The theorem about a lesson of two plain words. -/
theorem feedback_iff_plain : Sound asciiRuntime noMasking
      [({}, .recordOutcome (verdict (str "a b")))]
      (storeAfter (.recordOutcome (verdict (str "a b")))) ↔
    ∀ call candidate id,
      Waiting asciiRuntime noMasking [({}, .recordOutcome (verdict (str "a b")))]
        call candidate id →
        Promotable asciiRuntime noMasking [({}, .recordOutcome (verdict (str "a b")))] call :=
  feedback_iff (run_one (.recordOutcome (verdict (str "a b"))))

end Feedback

end AtlasCore
