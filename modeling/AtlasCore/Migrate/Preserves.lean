import AtlasCore.Lib.Fields
import AtlasCore.Migrate.Run

/-!
# What a migration keeps

Of the document itself a migration loses nothing: a field is carried or parked.  Into each
evaluation it writes five fields of its own, and what the source had under one of these names is
lost unless it says the same.

Where it does is said exactly: `migrateRun_preserves_iff` for what is kept, and
`migrateRun_refuses_iff` for when there is a result at all.  What the report says of it, what is
missing, what is not filled and what was parked, is true of every result (`accounts_finish`).
-/

set_option autoImplicit false

namespace AtlasCore

open Py

namespace Migrate

/-! ## The result and its report

Which keys the result has, where they come from, and which of the source have no place in it. -/

section

variable {document graded : Fields} {migratedAt key : Str} {inconsistent : List Str} {g : Bool}

theorem lookup_carried : Json.lookup key (carried document) =
    if key ∈ CARRIED then Json.lookup key document else none := Json.lookup_filterMap

theorem mem_mappedKeys : key ∈ mappedKeys document g ↔
    key = str "schema" ∨ (key ∈ CARRIED ∧ (Json.lookup key document).isSome = true) ∨
      g = true ∧ key = str "evaluations" := by
  have hcarried : key ∈ (carried document).map (·.1) ↔
      key ∈ CARRIED ∧ (Json.lookup key document).isSome = true := by
    simp only [carried, List.mem_map, List.mem_filterMap, Option.map_eq_some_iff]
    constructor
    · rintro ⟨p, ⟨k, hk, v, hv, rfl⟩, rfl⟩
      exact ⟨hk, by rw [hv]; rfl⟩
    · rintro ⟨hk, hv⟩
      obtain ⟨v, hv⟩ := Option.isSome_iff_exists.mp hv
      exact ⟨(key, v), ⟨key, hk, v, hv, rfl⟩, rfl⟩
  rw [mappedKeys, List.cons_append, List.mem_cons, List.mem_append, hcarried]
  cases g <;> simp

/-- What is parked is what has no place in the result. -/
theorem lookup_unmapped (migratedAt : Str) :
    Json.lookup key (finish document migratedAt (mappedKeys document g) graded
        inconsistent).2.unmapped =
      if key = str "schema" ∨ key ∈ CARRIED ∨ g = true ∧ key = str "evaluations" then none
      else Json.lookup key document := by
  show Json.lookup key (document.filter fun p ↦ p.1 ∉ mappedKeys document g) = _
  rw [Json.lookup_filter fun k ↦ k ∉ mappedKeys document g]
  simp only [mem_mappedKeys, decide_not, Bool.not_eq_true', decide_eq_false_iff_not]
  by_cases hcarried : key ∈ CARRIED
  · cases hl : Json.lookup key document <;> simp [hcarried]
  · simp only [hcarried, false_and, false_or]
    split_ifs <;> simp_all

theorem lookup_finish (hschema : key ≠ str "schema") (hcontracts : key ≠ str "contracts")
    (hactions : key ≠ str "actions") (hmigration : key ≠ str "migration") :
    Json.lookup key (finish document migratedAt (mappedKeys document g) graded inconsistent).1 =
      ((Json.lookup key (carried document)).or (Json.lookup key graded)) := by
  show Json.lookup key (((_ :: _ :: carried document ++ graded) ++ [(str "actions", Json.null)]) ++
    [(str "migration", _)]) = _
  rw [Json.lookup_concat, Json.lookup_concat, Json.lookup_append, Json.lookup, Json.lookup,
    if_neg hschema.symm, if_neg hcontracts.symm, if_neg hactions.symm, if_neg hmigration.symm,
    Option.or_none, Option.or_none]

end

/-! ## An evaluation

What of an evaluation is to be there after the migration, and under which name. -/

section

variable {rt : Runtime} {runId value : Json} {number : ℕ} {item : Json} {items records : List Json}
  {source : Fields} {key : Str}

/-- A source with its identity written into it. -/
def identified (rt : Runtime) (runId : Json) (number : ℕ) (source : Fields) : Fields :=
  Json.setField (str "evaluation_id") (.str (stableId [strValue rt runId, decimal number]))
    (Json.setField (str "iteration") (.int number) (Json.setField (str "run_id") runId
      (Json.setField (str "schema") (.str EVALUATION_SCHEMA) source)))

/-- What `_migrate_evaluation` makes of a source that it read. -/
def recordOf (rt : Runtime) (runId : Json) (number : ℕ) (source : Fields) : Fields :=
  if isFalsy rt (getOrNull source "score_method") then
    Json.setField (str "score_method") (.str (str "unknown")) (identified rt runId number source)
  else identified rt runId number source

theorem lookup_identified : Json.lookup key (identified rt runId number source) =
    if str "evaluation_id" = key then some (.str (stableId [strValue rt runId, decimal number]))
    else if str "iteration" = key then some (.int number)
    else if str "run_id" = key then some runId
    else if str "schema" = key then some (.str EVALUATION_SCHEMA)
    else Json.lookup key source := by
  simp only [identified, Json.lookup_setField]

theorem getOrNull_identified : getOrNull (identified rt runId number source) "score_method" =
    getOrNull source "score_method" := by
  simp only [getOrNull, lookup_identified]
  rfl

/-- What is found in a record: five names are the migration's own. -/
theorem lookup_recordOf : Json.lookup key (recordOf rt runId number source) =
    if str "score_method" = key ∧ isFalsy rt (getOrNull source "score_method") = true then
      some (.str (str "unknown"))
    else Json.lookup key (identified rt runId number source) := by
  rw [recordOf]
  by_cases hfalsy : isFalsy rt (getOrNull source "score_method") = true
  · rw [if_pos hfalsy, Json.lookup_setField]
    simp only [hfalsy, and_true]
  · rw [if_neg hfalsy, if_neg fun h ↦ hfalsy h.2]

/-- `str` of the value meets no integer it cannot convert, and does not go deeper than it can. -/
def Printable (rt : Runtime) (v : Json) : Prop := textTrouble rt v = none

theorem textOf_eq_ok {text : Str} :
    textOf rt value = .ok text ↔ Printable rt value ∧ strValue rt value = text := by
  rw [textOf, Printable]
  cases textTrouble rt value <;> simp

theorem migrateEvaluation_eq_ok {record : Fields} :
    migrateEvaluation rt runId number item = .ok record ↔
      ∃ source, dictValue item = .ok source ∧ Printable rt runId ∧
        recordOf rt runId number source = record := by
  constructor
  · intro h
    obtain ⟨source, hsource, h⟩ := Except.bind_eq_ok.mp h
    obtain ⟨id, hid, h⟩ := Except.bind_eq_ok.mp h
    obtain ⟨hprint, rfl⟩ := textOf_eq_ok.mp hid
    refine ⟨source, hsource, hprint, ?_⟩
    rw [recordOf, ← getOrNull_identified]
    exact Except.ok.inj h
  · rintro ⟨source, hsource, hprint, rfl⟩
    refine Except.bind_eq_ok.mpr ⟨source, hsource, ?_⟩
    rw [recordOf, ← getOrNull_identified]
    exact Except.bind_eq_ok.mpr ⟨_, textOf_eq_ok.mpr ⟨hprint, rfl⟩, rfl⟩

theorem lookup_recordOf_ne (hkey : str "score_method" ≠ key) :
    Json.lookup key (recordOf rt runId number source) =
      Json.lookup key (identified rt runId number source) := by
  rw [lookup_recordOf, if_neg fun h ↦ hkey h.1]

theorem lookup_score_method (h : Json.lookup (str "score_method") source = some value) :
    Json.lookup (str "score_method") (recordOf rt runId number source) =
      some (if isFalsy rt value then .str (str "unknown") else value) := by
  rw [lookup_recordOf, getOrNull, h, Option.getD_some]
  by_cases hfalsy : isFalsy rt value = true
  · rw [if_pos ⟨rfl, hfalsy⟩, if_pos hfalsy]
  · rw [if_neg fun h ↦ hfalsy h.2, if_neg hfalsy, lookup_identified, if_neg (by decide),
      if_neg (by decide), if_neg (by decide), if_neg (by decide), h]

/-- Every evaluation has its record, at the same place. -/
theorem getElem?_migrateEvaluations
    (h : migrateEvaluations rt runId number items = .ok records) {i : ℕ}
    (hi : items[i]? = some item) : ∃ source, dictValue item = .ok source ∧
      records[i]? = some (.obj (recordOf rt runId (number + i) source)) := by
  induction items generalizing number records i with
  | nil => simp at hi
  | cons first rest ih =>
    obtain ⟨record, hrecord, h⟩ := Except.bind_eq_ok.mp h
    obtain ⟨later, hlater, h⟩ := Except.bind_eq_ok.mp h
    obtain rfl := Except.ok.inj h
    cases i with
    | zero =>
      obtain rfl : first = item := by simpa using hi
      obtain ⟨source, hsource, _, rfl⟩ := migrateEvaluation_eq_ok.mp hrecord
      exact ⟨source, hsource, by simp⟩
    | succ i =>
      obtain ⟨source, hsource, hfound⟩ := ih hlater (by simpa using hi)
      refine ⟨source, hsource, ?_⟩
      rw [List.getElem?_cons_succ, hfound, Nat.add_right_comm, Nat.add_assoc]

theorem length_migrateEvaluations (h : migrateEvaluations rt runId number items = .ok records) :
    records.length = items.length := by
  induction items generalizing number records with
  | nil => rw [← Except.ok.inj h]
  | cons first rest ih =>
    obtain ⟨record, _, h⟩ := Except.bind_eq_ok.mp h
    obtain ⟨later, hlater, h⟩ := Except.bind_eq_ok.mp h
    rw [← Except.ok.inj h, List.length_cons, List.length_cons, ih hlater]

/-- The items are dicts to `dict`, and if there is one the run has a printable id. -/
def Readable (rt : Runtime) (runId : Json) (items : List Json) : Prop :=
  (∀ item ∈ items, ∃ source, dictValue item = .ok source) ∧ (items ≠ [] → Printable rt runId)

theorem migrateEvaluations_ok_iff (rt : Runtime) (number : ℕ) :
    (∃ records, migrateEvaluations rt runId number items = .ok records) ↔
      Readable rt runId items := by
  induction items generalizing number with
  | nil => exact ⟨fun _ ↦ ⟨by simp, by simp⟩, fun _ ↦ ⟨[], rfl⟩⟩
  | cons item rest ih =>
    constructor
    · rintro ⟨records, h⟩
      obtain ⟨record, hrecord, h⟩ := Except.bind_eq_ok.mp h
      obtain ⟨later, hlater, h⟩ := Except.bind_eq_ok.mp h
      obtain ⟨source, hsource, hprint, _⟩ := migrateEvaluation_eq_ok.mp hrecord
      refine ⟨fun other hother ↦ ?_, fun _ ↦ hprint⟩
      rcases List.mem_cons.mp hother with rfl | hother
      · exact ⟨source, hsource⟩
      · exact ((ih _).mp ⟨later, hlater⟩).1 other hother
    · rintro ⟨hitems, hprint⟩
      have hprint := hprint (List.cons_ne_nil _ _)
      obtain ⟨source, hsource⟩ := hitems item List.mem_cons_self
      obtain ⟨later, hlater⟩ := (ih (number + 1)).mpr
        ⟨fun other hother ↦ hitems other (List.mem_cons_of_mem _ hother), fun _ ↦ hprint⟩
      refine ⟨_, Except.bind_eq_ok.mpr ⟨_, migrateEvaluation_eq_ok.mpr
        ⟨source, hsource, hprint, rfl⟩, Except.bind_eq_ok.mpr ⟨later, hlater, rfl⟩⟩⟩

/-- Approvals are derived for the items of a run that has a printable id. -/
theorem approvalsFrom_ok (rt : Runtime) (number : ℕ) (task : Option Json)
    (h : items ≠ [] → Printable rt runId) :
    ∃ approvals, approvalsFrom rt runId task number items = .ok approvals := by
  induction items generalizing number with
  | nil => exact ⟨[], rfl⟩
  | cons item rest ih =>
    have hprint := h (List.cons_ne_nil _ _)
    obtain ⟨later, hlater⟩ := ih (number + 1) fun _ ↦ hprint
    rw [approvalsFrom]
    split_ifs
    · exact ⟨_, Except.bind_eq_ok.mpr ⟨_, textOf_eq_ok.mpr ⟨hprint, rfl⟩,
        Except.bind_eq_ok.mpr ⟨later, hlater, rfl⟩⟩⟩
    · exact ⟨later, hlater⟩

end

/-! ## What the report says

What is missing, what is not filled, and what was parked, against the documents themselves. -/

/-- The report says exactly what is absent and whether anything was parked, and the result holds
it. -/
structure Accounts (document target : Fields) (report : MigrationReport) : Prop where
  missing : ∀ key, key ∈ report.missing ↔ key ∈ V1_REQUIRED ∧ Json.lookup key document = none
  unfilled : ∀ key, key ∈ report.unfilled ↔ key ∈ V2_REQUIRED ∧ Json.lookup key target = none
  complete : report.isComplete = true ↔ ∀ key ∈ V2_REQUIRED, Json.lookup key target ≠ none
  parked : ∀ key value, Json.lookup key report.unmapped = some value →
    Json.lookup key document = some value
  lossless : report.isLossless = true ↔ ∀ key, Json.lookup key report.unmapped = none
  embedded : ∃ migration, Json.lookup (str "migration") target = some (.obj migration) ∧
    Json.lookup (str "unmapped") migration = some (.obj report.unmapped) ∧
    Json.lookup (str "missing") migration = some (.arr (report.missing.map .str)) ∧
    Json.lookup (str "unfilled") migration = some (.arr (report.unfilled.map .str))

section

variable {document graded : Fields} {migratedAt : Str} {inconsistent : List Str} {g : Bool}

theorem isEmpty_iff_lookup {fields : Fields} :
    fields.isEmpty = true ↔ ∀ key, Json.lookup key fields = none := by
  cases fields with
  | nil => simp [Json.lookup]
  | cons p rest =>
    obtain ⟨k, v⟩ := p
    refine ⟨by simp, fun h ↦ ?_⟩
    have := h k
    rw [Json.lookup, if_pos rfl] at this
    cases this

theorem accounts_finish (hgraded : Json.lookup (str "migration") graded = none) :
    Accounts document (finish document migratedAt (mappedKeys document g) graded inconsistent).1
      (finish document migratedAt (mappedKeys document g) graded inconsistent).2 := by
  have hunfilled : ∀ key, key ∈ (finish document migratedAt (mappedKeys document g) graded
      inconsistent).2.unfilled ↔ key ∈ V2_REQUIRED ∧ Json.lookup key (finish document migratedAt
        (mappedKeys document g) graded inconsistent).1 = none := by
    intro key
    simp only [finish, List.mem_filter, Option.isNone_iff_eq_none]
    refine and_congr_right fun hkey ↦ ?_
    have hne : str "migration" ≠ key := by
      rintro rfl
      exact absurd hkey (by decide)
    rw [Json.lookup_concat, if_neg hne, Option.or_none]
  refine
    { missing := fun key ↦ by simp only [finish, List.mem_filter, Option.isNone_iff_eq_none]
      unfilled := hunfilled
      complete := ?_
      parked := ?_
      lossless := isEmpty_iff_lookup
      embedded := ⟨(finish document migratedAt (mappedKeys document g) graded
        inconsistent).2.toDict SOURCE_SCHEMA migratedAt, ?_, rfl, rfl, rfl⟩ }
  · rw [MigrationReport.isComplete, List.isEmpty_iff, List.eq_nil_iff_forall_not_mem]
    simp only [hunfilled, not_and, ne_eq]
  · intro key value h
    rw [lookup_unmapped] at h
    split_ifs at h
    exact h
  · show Json.lookup _ (((_ :: _ :: carried document ++ graded) ++ [(str "actions", Json.null)]) ++
      [(str "migration", _)]) = _
    rw [Json.lookup_concat, Json.lookup_concat, Json.lookup_append, hgraded, Json.lookup,
      if_neg (by decide), Json.lookup, if_neg (by decide), lookup_carried, if_neg (by decide),
      if_neg (by decide), if_pos rfl, Option.or_none, Option.or_none, Option.none_or]
    rfl

end

/-! ## A whole run

What comes back for a document with a list of evaluations, and for one without. -/

section

variable {rt : Runtime} {document target : Fields} {report : MigrationReport} {migratedAt : Str}
  {items : List Json}

/-- The `run_id` of the document, as it is written into a record. -/
def runIdOf (document : Fields) : Json := (Json.lookup (str "run_id") document).getD (.str [])

/-- The evaluations of a document that are read as evaluations. -/
def gradedBy (document : Fields) (items : List Json) : Prop :=
  Json.lookup (str "evaluations") document = some (.arr items)

/-- What `migrate_run` returns for a document with a list of evaluations. -/
theorem migrateRun_graded (hschema : Json.lookup (str "schema") document =
    some (.str SOURCE_SCHEMA)) (hitems : gradedBy document items) :
    migrateRun rt migratedAt document = .ok (target, report) ↔
      ∃ evaluations approvals inconsistent,
        migrateEvaluations rt (runIdOf document) 1 items = .ok evaluations ∧
        approvalsFrom rt (runIdOf document) (Json.lookup (str "task") document) 1 items =
          .ok approvals ∧
        inconsistent = (if outnumber items.length (getOrNull document "iteration") then
          [str "evaluations longer than iteration count"] else []) ∧
        finish document migratedAt (mappedKeys document true)
          [(str "evaluations", .arr evaluations),
          (str "approvals", .arr approvals)] inconsistent = (target, report) := by
  have hknown : ¬ isText (getOrNull document "schema") SOURCE_SCHEMA = false := by
    rw [getOrNull, hschema, Option.getD_some, isText_iff.mpr rfl]
    exact Bool.noConfusion
  rw [migrateRun, if_neg hknown, hitems]
  dsimp only
  constructor
  · intro h
    obtain ⟨_, hfields, h⟩ := Except.bind_eq_ok.mp h
    obtain ⟨evaluations, hevaluations, hfields⟩ := Except.bind_eq_ok.mp hfields
    obtain ⟨approvals, happrovals, hfields⟩ := Except.bind_eq_ok.mp hfields
    obtain rfl := Except.ok.inj hfields
    exact ⟨evaluations, approvals, _, hevaluations, happrovals, rfl, Except.ok.inj h⟩
  · rintro ⟨evaluations, approvals, _, hevaluations, happrovals, rfl, h⟩
    refine Except.bind_eq_ok.mpr ⟨_, Except.bind_eq_ok.mpr ⟨evaluations, hevaluations,
      Except.bind_eq_ok.mpr ⟨approvals, happrovals, rfl⟩⟩, ?_⟩
    exact congrArg Except.ok h

/-- What `migrate_run` returns for a document without one. -/
theorem migrateRun_ungraded (hschema : Json.lookup (str "schema") document =
    some (.str SOURCE_SCHEMA)) (hitems : ∀ items, ¬ gradedBy document items) :
    migrateRun rt migratedAt document = .ok (finish document migratedAt (mappedKeys document false)
      [(str "approvals", .null)] []) := by
  have hknown : ¬ isText (getOrNull document "schema") SOURCE_SCHEMA = false := by
    rw [getOrNull, hschema, Option.getD_some, isText_iff.mpr rfl]
    exact Bool.noConfusion
  rw [migrateRun, if_neg hknown]
  split
  · next items h => exact absurd h (hitems items)
  · rfl

end

/-! ## Nothing is dropped

Every key of the source and of its evaluations is in the result or parked, and when it is not. -/

/-- What the source document says is in the result or parked in its report: every field but
`schema`, and every field of every evaluation. -/
structure Preserves (document target : Fields) (report : MigrationReport) : Prop where
  accounts : Accounts document target report
  fields : ∀ key value, Json.lookup key document = some value → key ≠ str "schema" →
    (∀ items, gradedBy document items → key ≠ str "evaluations") →
    Json.lookup key target = some value ∨ Json.lookup key report.unmapped = some value
  evaluations : ∀ items, gradedBy document items → ∃ records,
    Json.lookup (str "evaluations") target = some (.arr records) ∧
    records.length = items.length ∧
    ∀ (i : ℕ) source, items[i]? = some (.obj source) → ∃ record, records[i]? = some (.obj record) ∧
      ∀ key value, Json.lookup key source = some value →
        Json.lookup key record = some value ∨ Json.lookup key report.unmapped = some value

/-- An evaluation holds nothing under the names the migration writes but what it writes there, or
what the document itself holds under a name that is parked. -/
structure SaysTheSame (rt : Runtime) (document : Fields) (number : ℕ) (source : Fields) : Prop where
  schema : ∀ v, Json.lookup (str "schema") source = some v → v = .str EVALUATION_SCHEMA
  runId : ∀ v, Json.lookup (str "run_id") source = some v → v = runIdOf document
  iteration : ∀ v, Json.lookup (str "iteration") source = some v → v = .int number
  evaluationId : ∀ v, Json.lookup (str "evaluation_id") source = some v →
    v = .str (stableId [strValue rt (runIdOf document), decimal number]) ∨
      Json.lookup (str "evaluation_id") document = some v
  scoreMethod : ∀ v, Json.lookup (str "score_method") source = some v →
    isFalsy rt v = false ∨ Json.lookup (str "score_method") document = some v

section

variable {rt : Runtime} {document target source unmapped : Fields} {report : MigrationReport}
  {migratedAt : Str} {items : List Json} {number : ℕ}

/-- A field of the document is carried or parked. -/
theorem carried_or_parked {graded : Fields} {inconsistent : List Str} {g : Bool} {key : Str}
    {value : Json} (hvalue : Json.lookup key document = some value) (hkey : key ≠ str "schema")
    (hgraded : g = true → key ≠ str "evaluations") :
    Json.lookup key (finish document migratedAt (mappedKeys document g) graded inconsistent).1 =
        some value ∨
      Json.lookup key (finish document migratedAt (mappedKeys document g) graded
        inconsistent).2.unmapped = some value := by
  by_cases hcarried : key ∈ CARRIED
  · left
    rw [lookup_finish hkey (by rintro rfl; exact absurd hcarried (by decide))
      (by rintro rfl; exact absurd hcarried (by decide))
      (by rintro rfl; exact absurd hcarried (by decide)), lookup_carried, if_pos hcarried, hvalue,
      Option.some_or]
  · right
    rw [lookup_unmapped, if_neg ?_, hvalue]
    rintro (h | h | ⟨hg, h⟩)
    · exact hkey h
    · exact hcarried h
    · exact hgraded hg h

theorem lookup_evaluations {evaluations approvals : Json} {inconsistent : List Str} :
    Json.lookup (str "evaluations") (finish document migratedAt (mappedKeys document true)
      [(str "evaluations", evaluations), (str "approvals", approvals)] inconsistent).1 =
        some evaluations := by
  rw [lookup_finish (by decide) (by decide) (by decide) (by decide), lookup_carried,
    if_neg (by decide), Option.none_or, Json.lookup, if_pos rfl]

/-- One evaluation is kept exactly when it says the same. -/
theorem recordOf_keeps_iff (hunmapped : ∀ key, Json.lookup key unmapped =
    if key = str "schema" ∨ key ∈ CARRIED ∨ true = true ∧ key = str "evaluations" then none
    else Json.lookup key document) :
    (∀ key value, Json.lookup key source = some value →
      Json.lookup key (recordOf rt (runIdOf document) number source) = some value ∨
        Json.lookup key unmapped = some value) ↔ SaysTheSame rt document number source := by
  have hparked : Json.lookup (str "score_method") unmapped =
      Json.lookup (str "score_method") document := by
    rw [hunmapped, if_neg (by decide)]
  constructor
  · intro h
    refine ⟨fun v hv ↦ ?_, fun v hv ↦ ?_, fun v hv ↦ ?_, fun v hv ↦ ?_, fun v hv ↦ ?_⟩
    · have := h _ v hv
      rw [lookup_recordOf_ne (by decide), lookup_identified, if_neg (by decide),
        if_neg (by decide), if_neg (by decide), if_pos rfl, hunmapped, if_pos (by decide)] at this
      exact this.elim (fun h ↦ (Option.some.inj h).symm) nofun
    · have := h _ v hv
      rw [lookup_recordOf_ne (by decide), lookup_identified, if_neg (by decide),
        if_neg (by decide), if_pos rfl, hunmapped, if_pos (by decide)] at this
      exact this.elim (fun h ↦ (Option.some.inj h).symm) nofun
    · have := h _ v hv
      rw [lookup_recordOf_ne (by decide), lookup_identified, if_neg (by decide), if_pos rfl,
        hunmapped, if_pos (by decide)] at this
      exact this.elim (fun h ↦ (Option.some.inj h).symm) nofun
    · have := h _ v hv
      rw [lookup_recordOf_ne (by decide), lookup_identified, if_pos rfl, hunmapped,
        if_neg (by decide)] at this
      exact this.imp_left fun h ↦ (Option.some.inj h).symm
    · have := h _ v hv
      rw [lookup_score_method hv, hparked] at this
      cases hfalsy : isFalsy rt v with
      | false => exact .inl rfl
      | true =>
        rw [hfalsy, if_pos rfl] at this
        refine .inr (this.resolve_left fun heq ↦ ?_)
        rw [← Option.some.inj heq] at hfalsy
        cases hfalsy
  · intro h key value hvalue
    by_cases hmethod : str "score_method" = key
    · subst hmethod
      rw [lookup_score_method hvalue, hparked]
      refine (h.scoreMethod value hvalue).imp_left fun hfalsy ↦ ?_
      rw [hfalsy, if_neg Bool.false_ne_true]
    · rw [lookup_recordOf_ne hmethod, lookup_identified]
      split_ifs with hid hiteration hrun hschema
      · subst hid
        rw [hunmapped, if_neg (by decide)]
        exact (h.evaluationId value hvalue).imp_left fun h ↦ congrArg some h.symm
      · subst hiteration
        exact .inl (congrArg some (h.iteration value hvalue).symm)
      · subst hrun
        exact .inl (congrArg some (h.runId value hvalue).symm)
      · subst hschema
        exact .inl (congrArg some (h.schema value hvalue).symm)
      · exact .inl hvalue

theorem gradedBy_unique {other : List Json} (hitems : gradedBy document items)
    (hother : gradedBy document other) : other = items := by
  rw [gradedBy, hitems] at hother
  exact (Json.arr.inj (Option.some.inj hother)).symm

/-- A migration without a loss has read the run's id, and every evaluation says the same. -/
theorem saysTheSame_of_preserves
    (hschema : Json.lookup (str "schema") document = some (.str SOURCE_SCHEMA))
    (hitems : gradedBy document items)
    (hrun : migrateRun rt migratedAt document = .ok (target, report))
    (hkeeps : Preserves document target report) :
    (items ≠ [] → Printable rt (runIdOf document)) ∧
      ∀ (i : ℕ) source, items[i]? = some (.obj source) →
        SaysTheSame rt document (i + 1) source := by
  obtain ⟨evaluations, approvals, _, hevaluations, -, -, hfinish⟩ :=
    (migrateRun_graded hschema hitems).mp hrun
  obtain rfl : _ = target := congrArg Prod.fst hfinish
  obtain rfl : _ = report := congrArg Prod.snd hfinish
  refine ⟨((migrateEvaluations_ok_iff rt 1).mp ⟨_, hevaluations⟩).2, fun i source hi ↦ ?_⟩
  obtain ⟨records, hrecords, -, hall⟩ := hkeeps.evaluations _ hitems
  rw [lookup_evaluations] at hrecords
  obtain rfl := Json.arr.inj (Option.some.inj hrecords)
  obtain ⟨record, hrecord, hkept⟩ := hall i source hi
  obtain ⟨_, hsource, hrecorded⟩ := getElem?_migrateEvaluations hevaluations hi
  obtain rfl := Except.ok.inj hsource
  rw [hrecord, Nat.add_comm 1 i] at hrecorded
  obtain rfl := Json.obj.inj (Option.some.inj hrecorded)
  exact (recordOf_keeps_iff fun _ ↦ lookup_unmapped migratedAt).mp hkept

/-- A document whose evaluations can be read is migrated, and its fields are kept. -/
theorem migrateRun_readable (rt : Runtime) (migratedAt : Str)
    (hschema : Json.lookup (str "schema") document = some (.str SOURCE_SCHEMA))
    (hitems : gradedBy document items) (hread : Readable rt (runIdOf document) items) :
    ∃ evaluations approvals inconsistent,
      migrateEvaluations rt (runIdOf document) 1 items = .ok evaluations ∧
      migrateRun rt migratedAt document = .ok (finish document migratedAt
        (mappedKeys document true) [(str "evaluations", .arr evaluations),
          (str "approvals", .arr approvals)] inconsistent) := by
  obtain ⟨evaluations, hevaluations⟩ := (migrateEvaluations_ok_iff rt 1).mpr hread
  obtain ⟨approvals, happrovals⟩ := approvalsFrom_ok rt 1
    (Json.lookup (str "task") document) hread.2
  exact ⟨evaluations, approvals, _, hevaluations, (migrateRun_graded hschema hitems).mpr
    ⟨evaluations, approvals, _, hevaluations, happrovals, rfl, rfl⟩⟩

/-- **What a migration drops.**  A document whose evaluations are objects is migrated without a loss
exactly when the run has a printable id, if there is an evaluation, and each evaluation says the
same as the migration where both use a name. -/
theorem migrateRun_preserves_iff (rt : Runtime) (migratedAt : Str) (document : Fields)
    (hschema : Json.lookup (str "schema") document = some (.str SOURCE_SCHEMA))
    (hobjects : ∀ items, gradedBy document items → ∀ item ∈ items, ∃ source, item = .obj source) :
    (∃ target report, migrateRun rt migratedAt document = .ok (target, report) ∧
      Preserves document target report) ↔
    ∀ items, gradedBy document items → (items ≠ [] → Printable rt (runIdOf document)) ∧
      ∀ (i : ℕ) source, items[i]? = some (.obj source) →
        SaysTheSame rt document (i + 1) source := by
  by_cases hgraded : ∃ items, gradedBy document items
  · obtain ⟨items, hitems⟩ := hgraded
    constructor
    · rintro ⟨target, report, hrun, hkeeps⟩ other hother
      exact saysTheSame_of_preserves hschema hother hrun hkeeps
    · intro hsame
      obtain ⟨hprint, hsame⟩ := hsame items hitems
      have hread : Readable rt (runIdOf document) items := by
        refine ⟨fun item hitem ↦ ?_, hprint⟩
        obtain ⟨source, rfl⟩ := hobjects items hitems item hitem
        exact ⟨source, rfl⟩
      obtain ⟨evaluations, approvals, inconsistent, hevaluations, hrun⟩ :=
        migrateRun_readable rt migratedAt hschema hitems hread
      refine ⟨_, _, hrun, accounts_finish (by rfl), ?_, fun other hother ↦ ?_⟩
      · exact fun key value hvalue hkey h ↦
          carried_or_parked hvalue hkey fun _ ↦ h items hitems
      · obtain rfl := gradedBy_unique hitems hother
        refine ⟨evaluations, lookup_evaluations, length_migrateEvaluations hevaluations,
          fun i source hi ↦ ?_⟩
        obtain ⟨_, hsource, hrecorded⟩ := getElem?_migrateEvaluations hevaluations hi
        obtain rfl := Except.ok.inj hsource
        rw [Nat.add_comm 1 i] at hrecorded
        exact ⟨_, hrecorded, (recordOf_keeps_iff fun _ ↦ lookup_unmapped migratedAt).mpr
          (hsame i source hi)⟩
  · have hnone : ∀ items, ¬ gradedBy document items := fun items h ↦ hgraded ⟨items, h⟩
    refine ⟨fun _ items h ↦ absurd h (hnone items), fun _ ↦ ?_⟩
    refine ⟨_, _, migrateRun_ungraded hschema hnone, accounts_finish (by decide), ?_,
      fun items h ↦ absurd h (hnone items)⟩
    exact fun key value hvalue hkey _ ↦ carried_or_parked hvalue hkey nofun

/-- An evaluation with a number of its own loses it. -/
theorem ownIteration_dropped : ¬ ∃ target report,
    migrateRun asciiRuntime [] [(str "schema", .str SOURCE_SCHEMA),
      (str "evaluations", .arr [.obj [(str "iteration", .int 7)]])] = .ok (target, report) ∧
    Preserves [(str "schema", .str SOURCE_SCHEMA),
      (str "evaluations", .arr [.obj [(str "iteration", .int 7)]])] target report := by
  rintro ⟨target, report, hrun, hkeeps⟩
  have hitems : gradedBy [(str "schema", .str SOURCE_SCHEMA),
      (str "evaluations", .arr [.obj [(str "iteration", .int 7)]])]
      [.obj [(str "iteration", .int 7)]] := rfl
  have hsame := (saysTheSame_of_preserves rfl hitems hrun hkeeps).2 0 _ rfl
  exact absurd (Json.int.inj (hsame.iteration _ rfl)) (by decide)

/-- An evaluation as the source wrote them keeps everything. -/
theorem migrateRun_preserves_iff_plain : ∃ target report,
    migrateRun asciiRuntime [] [(str "schema", .str SOURCE_SCHEMA),
      (str "evaluations", .arr [.obj [(str "passed", .bool true)]])] = .ok (target, report) ∧
    Preserves [(str "schema", .str SOURCE_SCHEMA),
      (str "evaluations", .arr [.obj [(str "passed", .bool true)]])] target report := by
  refine (migrateRun_preserves_iff asciiRuntime [] _ rfl fun items h item hitem ↦ ?_).mpr
    fun items h ↦ ⟨fun _ ↦ rfl, fun i source hi ↦ ?_⟩
  · obtain rfl := Json.arr.inj (Option.some.inj h)
    exact ⟨_, List.mem_singleton.mp hitem⟩
  · obtain rfl := Json.arr.inj (Option.some.inj h)
    match i, hi with
    | 0, hi =>
      obtain rfl := Json.obj.inj (Option.some.inj hi)
      exact ⟨nofun, nofun, nofun, nofun, nofun⟩

/-! ## What is refused

When a document is refused, and that another format is the only reason that is meant to be one. -/

/-- A migration raises for an unknown contract and for nothing else, and says what is absent. -/
structure RefusesOnlyUnknown (rt : Runtime) (migratedAt : Str) (document : Fields) : Prop where
  raises : (∃ e, migrateRun rt migratedAt document = .error e) ↔
    Json.lookup (str "schema") document ≠ some (.str SOURCE_SCHEMA)
  returns : Json.lookup (str "schema") document = some (.str SOURCE_SCHEMA) →
    ∃ target report, migrateRun rt migratedAt document = .ok (target, report) ∧
      Accounts document target report

/-- A document of another contract is refused. -/
theorem migrateRun_unknown (rt : Runtime) (migratedAt : Str)
    (hschema : Json.lookup (str "schema") document ≠ some (.str SOURCE_SCHEMA)) :
    migrateRun rt migratedAt document = .error unknownSourceSchema := by
  rw [migrateRun, if_pos ?_]
  rw [← Bool.not_eq_true, isText_iff, getOrNull]
  intro h
  cases hl : Json.lookup (str "schema") document with
  | none => rw [hl] at h; cases h
  | some v =>
    rw [hl, Option.getD_some] at h
    exact hschema (hl.trans (congrArg some h))

/-- **What a migration refuses.**  It refuses only an unknown contract exactly when the evaluations
of a known one, if they are a list, can each be made a dict, and the run has a printable id if there
is one. -/
theorem migrateRun_refuses_iff (rt : Runtime) (migratedAt : Str) (document : Fields) :
    RefusesOnlyUnknown rt migratedAt document ↔
      (Json.lookup (str "schema") document = some (.str SOURCE_SCHEMA) →
        ∀ items, gradedBy document items → Readable rt (runIdOf document) items) := by
  constructor
  · intro h hschema items hitems
    obtain ⟨target, report, hrun, -⟩ := h.returns hschema
    obtain ⟨evaluations, approvals, _, hevaluations, happrovals, -, -⟩ :=
      (migrateRun_graded hschema hitems).mp hrun
    exact (migrateEvaluations_ok_iff rt 1).mp ⟨_, hevaluations⟩
  · intro hread
    have hreturns : Json.lookup (str "schema") document = some (.str SOURCE_SCHEMA) →
        ∃ target report, migrateRun rt migratedAt document = .ok (target, report) ∧
          Accounts document target report := by
      intro hschema
      by_cases hgraded : ∃ items, gradedBy document items
      · obtain ⟨items, hitems⟩ := hgraded
        obtain ⟨_, _, _, _, hrun⟩ := migrateRun_readable rt migratedAt hschema hitems
          (hread hschema items hitems)
        exact ⟨_, _, hrun, accounts_finish rfl⟩
      · exact ⟨_, _, migrateRun_ungraded hschema fun items h ↦ hgraded ⟨items, h⟩,
          accounts_finish rfl⟩
    refine ⟨⟨?_, fun hschema ↦ ⟨_, migrateRun_unknown rt migratedAt hschema⟩⟩, hreturns⟩
    rintro ⟨e, he⟩ hschema
    obtain ⟨_, _, hrun, -⟩ := hreturns hschema
    rw [hrun] at he
    cases he

/-- An evaluation that is `null` is a `TypeError`. -/
theorem nullEvaluation_refused : ¬ RefusesOnlyUnknown asciiRuntime []
    [(str "schema", .str SOURCE_SCHEMA), (str "evaluations", .arr [.null])] := by
  intro h
  obtain ⟨target, report, hrun, -⟩ := h.returns rfl
  have hitems : gradedBy [(str "schema", .str SOURCE_SCHEMA), (str "evaluations", .arr [.null])]
      [.null] := rfl
  obtain ⟨evaluations, _, _, hevaluations, -⟩ := (migrateRun_graded rfl hitems).mp hrun
  obtain ⟨source, hsource, -⟩ := getElem?_migrateEvaluations hevaluations
    (show [Json.null][0]? = some .null from rfl)
  cases hsource

end

end Migrate

end AtlasCore
