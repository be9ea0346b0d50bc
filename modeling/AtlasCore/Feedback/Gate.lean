import AtlasCore.Feedback.Store

/-!
# What passes the gate

A candidate that was recorded is written, read back, and held against its schema, its id and the log
it was made of.  Held against the same log it passes exactly when the run has a name that is not
blank and the log says of the stop, the task and the route nothing but texts (`gate_eq_nil_iff`):
everything else the gate asks was seen to when the outcome was recorded.
-/

set_option autoImplicit false

namespace AtlasCore

namespace Feedback

open Py Inspect

/-! ## Read again

A candidate that was stored is read back with the keys in order, and its parts are found under them.
-/

/-- A dict as a file gives it back. -/
def readDict (d : Fields) : Fields := Json.sortFields (Json.canonFields d)

section
variable {id runId outcome lesson recordedBy recordedAt : Str} {p : Provenance}

theorem readDict_candidate :
    readDict (candidateDict id runId outcome lesson p recordedBy recordedAt) =
    [(str "candidate_id", .str id), (str "lesson", .str lesson), (str "outcome", .str outcome),
      (str "provenance", .obj (readDict p.toDict)), (str "recorded_at", .str recordedAt),
      (str "recorded_by", .str recordedBy), (str "run_id", .str runId),
      (str "schema", .str CANDIDATE_SCHEMA)] := rfl

theorem readDict_source {s : SourceRef} : readDict s.toDict =
    [(str "path", .str s.path), (str "sha256", .str s.sha256),
      (str "source_id", .str s.sourceId)] := rfl

theorem readDict_provenance : readDict p.toDict =
    [(str "event_log_sha256", .str p.eventLogSha256), (str "route", p.route.canon),
      (str "run_stopped_event_id", .str p.runStoppedEventId),
      (str "sources", .arr (p.sources.map fun s ↦ .obj (readDict s.toDict))),
      (str "stop_reason", p.stopReason.canon), (str "task_sha256", p.taskSha256.canon)] := by
  have hitems : Json.canonItems (p.sources.map fun s ↦ .obj s.toDict) =
      p.sources.map fun s ↦ .obj (readDict s.toDict) := by
    rw [Json.canonItems_eq_map, List.map_map]
    rfl
  rw [← hitems]
  rfl

end

/-! ## The schema

What the gate asks of a candidate, one property for each of its checks. -/

section
variable {schema : Schema} {path : Str} {value : Json}

@[simp] theorem errorIf_eq_nil {c : Bool} {message : Str} : errorIf c path message = [] ↔
    c = false := by
  cases c <;> simp [errorIf]

theorem valueErrors_eq_nil {inside : List Str} :
    valueErrors schema path value inside = [] ↔
      (schema.type.any fun allowed ↦ !allowed.any (·.holds value)) = false ∧
        (schema.const.any fun text ↦ !isText value text) = false ∧
        (schema.enum.any fun texts ↦ !texts.any (isText value)) = false ∧ inside = [] := by
  rw [valueErrors]
  cases schema.type.any fun allowed ↦ !allowed.any (·.holds value)
  · rw [if_neg Bool.false_ne_true, List.append_eq_nil_iff, List.append_eq_nil_iff]
    simp [and_assoc]
  · simp

theorem textErrors_eq_nil {s : Str} : textErrors schema path s = [] ↔
    (schema.minLength.any fun n ↦ s.length < n) = false ∧
      (schema.maxLength.any fun n ↦ n < s.length) = false ∧
      (schema.pattern.any fun n ↦ !matchesHex n s) = false := by
  rw [textErrors, List.append_eq_nil_iff, List.append_eq_nil_iff]
  simp [and_assoc]

theorem stringSchema_str {s : Str} : schemaErrors stringSchema path (.str s) = [] := rfl

theorem nonemptyString_str {s : Str} : schemaErrors nonemptyString path (.str s) = [] ↔ s ≠ [] := by
  rw [schemaErrors, valueErrors_eq_nil, textErrors_eq_nil]
  cases s <;> simp [nonemptyString, TypeName.holds]

/-- A text or nothing, which is what the schema of a provenance has for a value that may be missing.
-/
def IsTextOrNull (v : Json) : Prop := v = .null ∨ ∃ s, v = .str s

theorem stringOrNull_iff : schemaErrors stringOrNull path value = [] ↔ IsTextOrNull value := by
  cases value <;>
    simp [schemaErrors, valueErrors_eq_nil, textErrors_eq_nil, stringOrNull, TypeName.holds,
      IsTextOrNull]

theorem isTextOrNull_canon : IsTextOrNull value.canon ↔ IsTextOrNull value := by
  cases value <;> simp [Json.canon, IsTextOrNull]

theorem IsTextOrNull.canon_eq (h : IsTextOrNull value) : value.canon = value := by
  rcases h with rfl | ⟨s, rfl⟩ <;> simp [Json.canon]

theorem pattern_str {n : ℕ} {s : Str} :
    schemaErrors { type := some [.string], pattern := some n } path (.str s) = [] ↔
      matchesHex n s = true := by
  rw [schemaErrors, valueErrors_eq_nil, textErrors_eq_nil]
  simp [TypeName.holds]

theorem lesson_str {s : Str} :
    schemaErrors { type := some [.string], minLength := some 1, maxLength := some 2000 } path
      (.str s) = [] ↔ s ≠ [] ∧ s.length ≤ MAX_LESSON := by
  rw [schemaErrors, valueErrors_eq_nil, textErrors_eq_nil]
  cases s <;> simp [TypeName.holds, MAX_LESSON]

theorem outcome_str {s : Str} :
    schemaErrors { enum := some OUTCOMES } path (.str s) = [] ↔ s ∈ OUTCOMES := by
  rw [schemaErrors, valueErrors_eq_nil, textErrors_eq_nil]
  simp [OUTCOMES, isText, or_iff_not_imp_left]

theorem sourceErrors_eq_nil {s : SourceRef} :
    schemaErrors SOURCE_JSON_SCHEMA path (.obj (readDict s.toDict)) = [] := by
  rw [readDict_source]
  rfl

theorem itemErrors_eq_nil {items : List Json} (h : ∀ v ∈ items, ∀ path,
    schemaErrors schema path v = []) : ∀ index, itemErrors (some schema) path index items = [] := by
  induction items with
  | nil => exact fun _ ↦ rfl
  | cons v rest ih =>
    intro index
    rw [itemErrors, List.append_eq_nil_iff]
    exact ⟨h v List.mem_cons_self _, ih (fun w hw ↦ h w (List.mem_cons_of_mem _ hw)) _⟩

theorem sourcesErrors_eq_nil {sources : List SourceRef} :
    schemaErrors { type := some [.array], items := some SOURCE_JSON_SCHEMA } path
      (.arr (sources.map fun s ↦ .obj (readDict s.toDict))) = [] := by
  rw [schemaErrors, valueErrors_eq_nil]
  refine ⟨rfl, rfl, rfl, itemErrors_eq_nil (fun v hv path ↦ ?_) 0⟩
  obtain ⟨s, -, rfl⟩ := List.mem_map.mp hv
  exact sourceErrors_eq_nil

theorem fieldErrors_provenance (a b c d e f : Json) :
    fieldErrors PROVENANCE_JSON_SCHEMA.properties path
      [(str "event_log_sha256", a), (str "route", b), (str "run_stopped_event_id", c),
        (str "sources", d), (str "stop_reason", e), (str "task_sha256", f)] =
      schemaErrors { type := some [.string], pattern := some 64 }
          (path ++ str "." ++ str "event_log_sha256") a ++
        (schemaErrors stringOrNull (path ++ str "." ++ str "route") b ++
        (schemaErrors stringSchema (path ++ str "." ++ str "run_stopped_event_id") c ++
        (schemaErrors { type := some [.array], items := some SOURCE_JSON_SCHEMA }
          (path ++ str "." ++ str "sources") d ++
        (schemaErrors stringOrNull (path ++ str "." ++ str "stop_reason") e ++
        (schemaErrors stringOrNull (path ++ str "." ++ str "task_sha256") f ++ []))))) := rfl

/-- What the log says of the run, where the schema lets it pass. -/
structure Provenance.Texts (p : Provenance) : Prop where
  stopReason : IsTextOrNull p.stopReason
  taskSha256 : IsTextOrNull p.taskSha256
  route : IsTextOrNull p.route

theorem provenanceSchema_iff {p : Provenance} (h : matchesHex 64 p.eventLogSha256 = true) :
    schemaErrors PROVENANCE_JSON_SCHEMA path (.obj (readDict p.toDict)) = [] ↔ p.Texts := by
  rw [schemaErrors, valueErrors_eq_nil, readDict_provenance, List.append_eq_nil_iff,
    fieldErrors_provenance]
  simp only [List.append_eq_nil_iff, pattern_str, h, stringOrNull_iff, isTextOrNull_canon,
    stringSchema_str, sourcesErrors_eq_nil, true_and, and_true]
  constructor
  · rintro ⟨-, -, -, -, hroute, hreason, htask⟩
    exact ⟨hreason, htask, hroute⟩
  · rintro ⟨hreason, htask, hroute⟩
    exact ⟨rfl, rfl, rfl, rfl, hroute, hreason, htask⟩

theorem fieldErrors_candidate (a b c d e f g h : Json) :
    fieldErrors CANDIDATE_JSON_SCHEMA.properties path
      [(str "candidate_id", a), (str "lesson", b), (str "outcome", c), (str "provenance", d),
        (str "recorded_at", e), (str "recorded_by", f), (str "run_id", g), (str "schema", h)] =
      schemaErrors { type := some [.string], pattern := some 32 }
          (path ++ str "." ++ str "candidate_id") a ++
        (schemaErrors { type := some [.string], minLength := some 1, maxLength := some 2000 }
          (path ++ str "." ++ str "lesson") b ++
        (schemaErrors { enum := some OUTCOMES } (path ++ str "." ++ str "outcome") c ++
        (schemaErrors PROVENANCE_JSON_SCHEMA (path ++ str "." ++ str "provenance") d ++
        (schemaErrors stringSchema (path ++ str "." ++ str "recorded_at") e ++
        (schemaErrors nonemptyString (path ++ str "." ++ str "recorded_by") f ++
        (schemaErrors nonemptyString (path ++ str "." ++ str "run_id") g ++
        (schemaErrors { const := some CANDIDATE_SCHEMA } (path ++ str "." ++ str "schema") h ++
          []))))))) := rfl

end

/-- What was seen to when a candidate was made. -/
structure Made (id outcome lesson recordedBy : Str) (p : Provenance) : Prop where
  hexId : matchesHex 32 id = true
  known : outcome ∈ OUTCOMES
  nonblank : isBlank lesson = false
  short : lesson.length ≤ MAX_LESSON
  named : isBlank recordedBy = false
  digest : matchesHex 64 p.eventLogSha256 = true

section
variable {id runId outcome lesson recordedBy recordedAt : Str} {p : Provenance}

variable (runId recordedAt) in
/-- **The schema lets a candidate pass** if the run has a name and the log says texts. -/
theorem candidateSchema_iff (h : Made id outcome lesson recordedBy p) :
    schemaErrors CANDIDATE_JSON_SCHEMA (str "$")
      (.obj (readDict (candidateDict id runId outcome lesson p recordedBy recordedAt))) = [] ↔
      runId ≠ [] ∧ p.Texts := by
  rw [schemaErrors, valueErrors_eq_nil, readDict_candidate, List.append_eq_nil_iff,
    fieldErrors_candidate]
  simp only [List.append_eq_nil_iff, pattern_str, h.hexId, lesson_str, ne_nil_of_isBlank h.nonblank,
    h.short, outcome_str, h.known, provenanceSchema_iff h.digest, stringSchema_str,
    nonemptyString_str, ne_nil_of_isBlank h.named, true_and, and_true, ne_eq, not_false_eq_true]
  constructor
  · rintro ⟨-, -, -, -, htexts, hrun, -⟩
    exact ⟨hrun, htexts⟩
  · rintro ⟨hrun, htexts⟩
    exact ⟨rfl, rfl, rfl, rfl, htexts, hrun, rfl⟩

/-! ## The id and the log

The id is derived again from what was read, and the provenance from the log as it is now. -/

theorem dumps_canon {fields fields' : Fields}
    (h : (Json.obj fields).canon = (Json.obj fields').canon)
    : (Json.obj fields).dumps = (Json.obj fields').dumps := by
  have hfits : (Json.obj fields).every Json.intFits (fun _ ↦ true) =
      (Json.obj fields').every Json.intFits (fun _ ↦ true) := by
    rw [← Json.every_canon, h, Json.every_canon]
  rw [Json.dumps, Json.dumps, hfits, h]

/-- The id of a candidate that was read is the id that it was given. -/
theorem candidateId_read : candidateId (bodyOf (.str runId) (.str outcome) (.str lesson)
      (.obj (readDict p.toDict))) =
    candidateId (bodyOf (.str runId) (.str outcome) (.str lesson) (.obj p.toDict)) := by
  have hcanon : (Json.obj (bodyOf (.str runId) (.str outcome) (.str lesson)
      (.obj (readDict p.toDict)))).canon =
      (Json.obj (bodyOf (.str runId) (.str outcome) (.str lesson) (.obj p.toDict))).canon := by
    have hobj : (Json.obj (readDict p.toDict)).canon = (Json.obj p.toDict).canon :=
      Json.canon_canon (.obj p.toDict)
    rw [Json.canon, Json.canon, bodyOf, bodyOf]
    simp only [Json.canonFields, hobj]
  rw [candidateId, candidateId, encoded, encoded, dumps_canon hcanon]

theorem strip_ne_nil {s : Str} (h : isBlank s = false) : strip s ≠ [] := fun hnil ↦ by
  rw [strip_eq_nil_iff.mp hnil] at h
  cases h

variable (runId recordedAt) in
/-- Of the texts, only the name of the run can be blank. -/
theorem contentErrors_eq_nil (rt : Runtime) (h : Made id outcome lesson recordedBy p) :
    contentErrors rt (readDict (candidateDict id runId outcome lesson p recordedBy recordedAt)) id =
      [] ↔ isBlank runId = false := by
  have hcontent : contentErrors rt
      (readDict (candidateDict id runId outcome lesson p recordedBy recordedAt)) id =
      (errorIf (strip runId = []) (str "$." ++ str "run_id") (str ": blank") ++
        (errorIf (strip lesson = []) (str "$." ++ str "lesson") (str ": blank") ++
          (errorIf (strip recordedBy = []) (str "$." ++ str "recorded_by") (str ": blank") ++
            []))) ++
        errorIf (!isText (.str id) id) [] (str "candidate_id does not match its content") := rfl
  rw [hcontent]
  simp only [List.append_eq_nil_iff, errorIf_eq_nil, decide_eq_false_iff_not,
    strip_ne_nil h.nonblank, strip_ne_nil h.named, isText_iff.mpr, Bool.not_true, and_true,
    not_false_eq_true, strip_eq_nil_iff, Bool.not_eq_true]

theorem sameText_self {v : Json} (h : IsTextOrNull v) : sameText v v = true := by
  rcases h with rfl | ⟨s, rfl⟩
  · rfl
  · exact decide_eq_true rfl

theorem areSources_self : ∀ sources : List SourceRef,
    areSources sources (sources.map fun s ↦ .obj (readDict s.toDict)) = true
  | [] => rfl
  | s :: rest => by
    have hs : isSource s (.obj (readDict s.toDict)) = true := by
      rw [readDict_source]
      show (true && decide (s.sourceId = s.sourceId) && decide (s.path = s.path) &&
        decide (s.sha256 = s.sha256)) = true
      simp
    rw [List.map_cons, areSources, hs, areSources_self rest, Bool.true_and]

/-- A provenance agrees with itself, as it was read. -/
theorem provenanceErrors_self (h : p.Texts) : provenanceErrors p (readDict p.toDict) = [] := by
  have hreason := sameText_self h.stopReason
  have htask := sameText_self h.taskSha256
  have hroute := sameText_self h.route
  rw [readDict_provenance, h.stopReason.canon_eq, h.taskSha256.canon_eq, h.route.canon_eq]
  have herrors : provenanceErrors p
      [(str "event_log_sha256", .str p.eventLogSha256), (str "route", p.route),
        (str "run_stopped_event_id", .str p.runStoppedEventId),
        (str "sources", .arr (p.sources.map fun s ↦ .obj (readDict s.toDict))),
        (str "stop_reason", p.stopReason), (str "task_sha256", p.taskSha256)] =
      errorIf (!sameText (.str p.eventLogSha256) (.str p.eventLogSha256)) []
          (str "event log changed since the outcome was recorded") ++
        errorIf (!sameText (.str p.runStoppedEventId) (.str p.runStoppedEventId))
          (str "provenance.run_stopped_event_id") (str " does not match the event log") ++
        errorIf (!sameText p.stopReason p.stopReason)
          (str "provenance.stop_reason") (str " does not match the event log") ++
        errorIf (!sameText p.taskSha256 p.taskSha256)
          (str "provenance.task_sha256") (str " does not match the event log") ++
        errorIf (!sameText p.route p.route)
          (str "provenance.route") (str " does not match the event log") ++
        errorIf (!areSources p.sources (p.sources.map fun s ↦ .obj (readDict s.toDict)))
          (str "provenance.sources") (str " does not match the event log") := rfl
  rw [herrors, hreason, htask, hroute, areSources_self, sameText_self (.inr ⟨_, rfl⟩),
    sameText_self (.inr ⟨_, rfl⟩)]
  rfl

/-- **The gate, for a candidate and the log it was made of.** -/
theorem gate_eq_nil_iff {rt : Runtime} {eventLog : Option Bytes}
    (h : Made id outcome lesson recordedBy p)
    (hid : candidateId (bodyOf (.str runId) (.str outcome) (.str lesson) (.obj p.toDict)) = .ok id)
    (hp : provenance rt eventLog runId = .ok p) :
    gate rt (readDict (candidateDict id runId outcome lesson p recordedBy recordedAt)) eventLog =
      .ok [] ↔ isBlank runId = false ∧ p.Texts := by
  have hschema := candidateSchema_iff runId recordedAt h
  rw [gate]
  split
  · rename_i problem problems hproblems
    rw [hproblems] at hschema
    refine iff_of_false (fun h ↦ nomatch Except.ok.inj h) fun ⟨hrun, htexts⟩ ↦ ?_
    cases hschema.mpr ⟨ne_nil_of_isBlank hrun, htexts⟩
  · rename_i hproblems
    obtain ⟨-, htexts⟩ := hschema.mp hproblems
    have hid' : candidateId (bodyOf
        (getOrNull (readDict (candidateDict id runId outcome lesson p recordedBy recordedAt))
          "run_id")
        (getOrNull (readDict (candidateDict id runId outcome lesson p recordedBy recordedAt))
          "outcome")
        (getOrNull (readDict (candidateDict id runId outcome lesson p recordedBy recordedAt))
          "lesson")
        (getOrNull (readDict (candidateDict id runId outcome lesson p recordedBy recordedAt))
          "provenance")) = .ok id := candidateId_read.trans hid
    have hcontent := contentErrors_eq_nil runId recordedAt rt h
    rw [hid']
    dsimp only [bind, Except.bind]
    split
    · rename_i problem problems hproblems
      rw [hproblems] at hcontent
      exact iff_of_false (fun h ↦ nomatch Except.ok.inj h) fun ⟨hrun, _⟩ ↦ nomatch hcontent.mpr hrun
    · rename_i hproblems
      refine iff_of_true ?_ ⟨hcontent.mp hproblems, htexts⟩
      have hrun : strValue rt (getOrNull
          (readDict (candidateDict id runId outcome lesson p recordedBy recordedAt)) "run_id") =
            runId := rfl
      rw [hrun, hp]
      exact congrArg Except.ok (provenanceErrors_self htexts)

end

end Feedback

end AtlasCore
