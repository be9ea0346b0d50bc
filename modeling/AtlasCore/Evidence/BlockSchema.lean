import AtlasCore.Evidence.Fences
import AtlasCore.Lib.JsonDicts
import AtlasCore.Lib.JsonSchema

/-!
# The schema of a findings block

`schemas/atlas-findings-block` says what a producer may put in the block, and the parser is said to
read nothing else.  But `_build_finding` and `_build_reference` pass most values through `str` and
`int`, and only the outermost keys are checked: a number under `scope`, a key of its own in a
citation or an empty list of citations is read like anything else.

`PlainItem` says of an item that nothing in it is converted or passed over, and
`accepts_findingSchema_iff` that an item which is read is valid exactly when it is plain.
-/

set_option autoImplicit false

namespace AtlasCore

open Py

/-! ## `atlas-findings-block`

The published schema, as a value: what a block that is valid may hold. -/

/-- A citation: a source and its digest, a range of lines, and what is quoted of them. -/
def citationSchema : JsonSchema :=
  .object [str "source_id", str "content_sha256", str "line_start", str "line_end", str "quoted"]
    [(str "source_id", .anyText), (str "content_sha256", .text matchesSha256),
      (str "line_start", .integer 1), (str "line_end", .integer 1),
      (str "quoted", .minLength 1)]

/-- `claim_check`: a text is said to be present in a source, or absent from it. -/
def claimCheckSchema : JsonSchema :=
  .object [str "kind", str "source_id", str "text"]
    [(str "kind", .oneOf [str "absent", str "present"]), (str "source_id", .anyText),
      (str "text", .minLength 1)]

/-- The kinds a version has: the second one can also compare. -/
def typedClaimKinds (v2 : Bool) : List Str :=
  [str "source_contains_literal", str "source_lacks_literal"] ++
    if v2 then [str "command_targets_differ"] else []

/-- What the second version has besides: the other source, and the targets in both. -/
def comparisonProperties : List (Str × JsonSchema) :=
  [(str "other_source_id", .minLength 1), (str "source_targets", .array 0 (.minLength 1)),
    (str "other_targets", .array 0 (.minLength 1))]

/-- `typed_claim`: a kind, a source and a text, and what a comparison needs where the version has
one. -/
def typedClaimSchema (v2 : Bool) : JsonSchema :=
  .object [str "kind", str "source_id", str "text"]
    ([(str "kind", .oneOf (typedClaimKinds v2)), (str "source_id", .anyText),
      (str "text", .minLength 1)] ++ if v2 then comparisonProperties else [])

/-- What a finding has to have; the other keys have a default. -/
def findingRequired : List Str :=
  [str "claim", str "scope", str "severity_rationale", str "evidence"]

/-- A finding; `v2` is the version of the schema. -/
def findingSchema (v2 : Bool) : JsonSchema :=
  .object findingRequired
    [(str "claim", .minLength 1), (str "scope", .minLength 1),
      (str "severity", .oneOf [str "P0", str "P1", str "P2", str "unknown"]),
      (str "severity_rationale", .minLength 1), (str "evidence", .array 1 citationSchema),
      (str "claim_check", claimCheckSchema), (str "limitations", .array 0 .anyText),
      (str "reproducible_command", .anyText), (str "typed_claim", typedClaimSchema v2)]

/-- `schemas/atlas-findings-block.v1.json` and `schemas/atlas-findings-block.v2.json`: a list of
findings of the version. -/
def findingsBlockSchema (v2 : Bool) : JsonSchema := .array 0 (findingSchema v2)

/-! ## Plain items

The items in which nothing is converted and nothing passed over, said without the schema. -/

/-- `str` has nothing to convert under the key. -/
def PlainText (payload : Fields) (key : String) : Prop :=
  ∀ v, Json.lookup (str key) payload = some v → ∃ s, v = .str s

/-- `int` has nothing to convert under the key. -/
def PlainNumber (payload : Fields) (key : String) : Prop :=
  ∀ v, Json.lookup (str key) payload = some v → ∃ z, v = .int z

/-- The dict has no other keys than these. -/
def NoOther (keys : List Str) (payload : Fields) : Prop := ∀ p ∈ payload, p.1 ∈ keys

/-- A citation of which every key is read, and as it stands. -/
def PlainCitation : Json → Prop
  | .obj reference =>
    NoOther [str "source_id", str "content_sha256", str "line_start", str "line_end",
        str "quoted"] reference ∧
      PlainText reference "source_id" ∧ PlainText reference "content_sha256" ∧
      PlainNumber reference "line_start" ∧ PlainNumber reference "line_end" ∧
      PlainText reference "quoted"
  | _ => False

/-- A condition of which every key is read, and as it stands. -/
def PlainCheck : Json → Prop
  | .obj payload =>
    NoOther [str "kind", str "source_id", str "text"] payload ∧
      PlainText payload "kind" ∧ PlainText payload "source_id" ∧ PlainText payload "text"
  | _ => False

/-- The keys of a comparison are what a comparison reads there, also in a literal claim, which reads
none of them. -/
def PlainComparison (payload : Fields) : Prop :=
  (∀ v, Json.lookup (str "other_source_id") payload = some v → ∃ s, v = .str s ∧ s ≠ []) ∧
    (∀ v, Json.lookup (str "source_targets") payload = some v → ∃ ss, stringTuple v = .ok ss) ∧
    ∀ v, Json.lookup (str "other_targets") payload = some v → ∃ ss, stringTuple v = .ok ss

/-- The same of a typed claim: its keys are those of its version, and its values are texts. -/
def PlainTyped (v2 : Bool) : Json → Prop
  | .obj payload =>
    NoOther ([str "kind", str "source_id", str "text"] ++
        if v2 then [str "other_source_id", str "source_targets", str "other_targets"] else [])
      payload ∧
      PlainText payload "kind" ∧ PlainText payload "source_id" ∧ PlainText payload "text" ∧
      (v2 = true → PlainComparison payload)
  | _ => False

/-- An item in which nothing is converted and nothing passed over: a declaration that is there is no
`null`, the limitations are texts, and there is a citation. -/
def PlainItem (v2 : Bool) : Json → Prop
  | .obj item =>
    PlainText item "claim" ∧ PlainText item "scope" ∧ PlainText item "severity" ∧
      PlainText item "severity_rationale" ∧
      (∃ reference rest, getOrNull item "evidence" = .arr (reference :: rest) ∧
        ∀ r ∈ reference :: rest, PlainCitation r) ∧
      (∀ v, Json.lookup (str "claim_check") item = some v → PlainCheck v) ∧
      (∀ v, Json.lookup (str "limitations") item = some v →
        ∃ limits : List Str, v = .arr (limits.map .str)) ∧
      PlainText item "reproducible_command" ∧
      ∀ v, Json.lookup (str "typed_claim") item = some v → PlainTyped v2 v
  | _ => False

/-! ## One property

A required key with a value of its type is what the constructors of the source ask for too. -/

variable {rt : Runtime} {payload : Fields} {key : String} {required : List Str}

theorem requiredStr_eq_ok {s : Str} : requiredStr rt payload key = .ok s ↔
    ∃ v, Json.lookup (str key) payload = some v ∧ strValue rt v = s := by
  rw [requiredStr]
  cases Json.lookup (str key) payload <;> simp

/-- A property is what is said of it where it is there, and where it may be missing that is all. -/
theorem property_iff {schema : JsonSchema} {P : Json → Prop}
    (hthere : str key ∈ required → (Json.lookup (str key) payload).isSome = true)
    (h : ∀ v, Json.lookup (str key) payload = some v → (schema.accepts v = true ↔ P v)) :
    JsonSchema.Property required payload (str key, schema) ↔
      ∀ v, Json.lookup (str key) payload = some v → P v := by
  rw [JsonSchema.Property]
  cases hl : Json.lookup (str key) payload with
  | none =>
    refine iff_of_true (fun hmem ↦ ?_) fun _ hv ↦ by cases hv
    have hsome := hthere hmem
    rw [hl] at hsome
    cases hsome
  | some v =>
    refine (h v hl).trans ⟨fun hv w hw ↦ ?_, fun hall ↦ hall v rfl⟩
    obtain rfl := Option.some.inj hw
    exact hv

variable (rt) in
/-- A text that suits when converted suits as it stands, if it is one. -/
theorem property_text {holds : Str → Bool}
    (hthere : str key ∈ required → (Json.lookup (str key) payload).isSome = true)
    (h : ∀ v, Json.lookup (str key) payload = some v → holds (strValue rt v) = true) :
    JsonSchema.Property required payload (str key, .text holds) ↔ PlainText payload key := by
  refine property_iff hthere fun v hv ↦ JsonSchema.accepts_text.trans
    ⟨fun ⟨s, hs, _⟩ ↦ ⟨s, hs⟩, ?_⟩
  rintro ⟨s, rfl⟩
  exact ⟨s, rfl, h _ hv⟩

theorem property_requiredStr {holds : Str → Bool} {s : Str}
    (h : requiredStr rt payload key = .ok s) (hs : holds s = true) :
    JsonSchema.Property required payload (str key, .text holds) ↔ PlainText payload key := by
  obtain ⟨v, hv, rfl⟩ := requiredStr_eq_ok.mp h
  refine property_text rt (fun _ ↦ by rw [hv]; rfl) fun w hw ↦ ?_
  rw [hv] at hw
  obtain rfl := Option.some.inj hw
  exact hs

theorem property_anyText {s : Str} (h : requiredStr rt payload key = .ok s) :
    JsonSchema.Property required payload (str key, .anyText) ↔ PlainText payload key :=
  property_requiredStr h rfl

theorem property_minLength {s : Str} (h : requiredStr rt payload key = .ok s) (hs : s ≠ []) :
    JsonSchema.Property required payload (str key, .minLength 1) ↔ PlainText payload key :=
  property_requiredStr h (decide_eq_true (List.length_pos_iff.mpr hs))

/-- A text that is read with a default, but not without a value. -/
theorem property_strOr {holds : Str → Bool} (h : holds (strOr rt payload key []) = true)
    (hnil : holds [] = false) :
    JsonSchema.Property required payload (str key, .text holds) ↔ PlainText payload key := by
  rw [strOr] at h
  cases hl : Json.lookup (str key) payload with
  | none =>
    rw [hl, hnil] at h
    cases h
  | some v =>
    rw [hl] at h
    exact property_requiredStr (requiredStr_eq_ok.mpr ⟨v, hl, rfl⟩) h

theorem property_oneOf {words : List Str} (h : strOr rt payload key [] ∈ words)
    (hnil : [] ∉ words) :
    JsonSchema.Property required payload (str key, .oneOf words) ↔ PlainText payload key :=
  property_strOr (decide_eq_true h) (decide_eq_false hnil)

theorem property_requiredInt {minimum z : ℤ} (h : requiredInt rt payload key = .ok z)
    (hz : minimum ≤ z) :
    JsonSchema.Property required payload (str key, .integer minimum) ↔ PlainNumber payload key := by
  obtain ⟨v, hv, hint⟩ := requiredInt_eq_ok.mp h
  refine property_iff (fun _ ↦ by rw [hv]; rfl) fun w hw ↦ JsonSchema.accepts_integer.trans
    ⟨fun ⟨z, hz, _⟩ ↦ ⟨z, hz⟩, ?_⟩
  rintro ⟨z', rfl⟩
  rw [hv] at hw
  obtain rfl := Option.some.inj hw
  obtain rfl := Except.ok.inj hint
  exact ⟨z', rfl, hz⟩

/-! ## Citations and declarations

What is asked of the parts of a finding, here by the schema and there by the constructors. -/

/-- What a citation was built of. -/
theorem buildReference_eq_ok {v : Json} {ref : EvidenceRef} (h : buildReference rt v = .ok ref) :
    ∃ reference, v = .obj reference ∧ requiredStr rt reference "source_id" = .ok ref.sourceId ∧
      requiredStr rt reference "content_sha256" = .ok ref.contentSha256 ∧
      requiredInt rt reference "line_start" = .ok ref.lineStart ∧
      requiredInt rt reference "line_end" = .ok ref.lineEnd ∧
      requiredStr rt reference "quoted" = .ok ref.quoted := by
  cases v with
  | obj reference =>
    rw [buildReference] at h
    obtain ⟨sourceId, hsource, h⟩ := Except.bind_eq_ok.mp h
    obtain ⟨digest, hdigest, h⟩ := Except.bind_eq_ok.mp h
    obtain ⟨lineStart, hstart, h⟩ := Except.bind_eq_ok.mp h
    obtain ⟨lineEnd, hend, h⟩ := Except.bind_eq_ok.mp h
    obtain ⟨quoted, hquoted, h⟩ := Except.bind_eq_ok.mp h
    rw [EvidenceRef.build] at h
    split_ifs at h
    obtain rfl := Except.ok.inj h
    exact ⟨reference, rfl, hsource, hdigest, hstart, hend, hquoted⟩
  | null | bool | int | float | str | arr => cases h

/-- A citation that is read is valid where it is plain. -/
theorem accepts_citationSchema_iff {v : Json} (hw : v.WF) {ref : EvidenceRef}
    (h : buildReference rt v = .ok ref) :
    citationSchema.accepts v = true ↔ PlainCitation v := by
  obtain ⟨reference, rfl, hsource, hdigest, hstart, hend, hquoted⟩ := buildReference_eq_ok h
  have hforwards : 1 ≤ ref.lineEnd := ref.oneBased.trans ref.forwards
  rw [citationSchema, JsonSchema.accepts_object_iff (by decide) (by decide) hw.1]
  simp only [List.forall_mem_cons, List.not_mem_nil, false_implies, implies_true, and_true,
    property_anyText hsource, property_requiredStr hdigest ref.digestOk,
    property_requiredInt hstart ref.oneBased, property_requiredInt hend hforwards,
    property_minLength hquoted ref.quotes, PlainCitation, NoOther, List.map_cons, List.map_nil]

/-- What a condition was built of. -/
theorem buildCondition_eq_ok {v : Json} {c : ClaimCondition}
    (h : buildCondition rt v = .ok (some c)) :
    ∃ payload, v = .obj payload ∧ ConditionKind.ofStr (strOr rt payload "kind" []) = some c.kind ∧
      requiredStr rt payload "source_id" = .ok c.sourceId ∧
      requiredStr rt payload "text" = .ok c.text := by
  cases v with
  | obj payload =>
    rw [buildCondition] at h
    cases hkind : ConditionKind.ofStr (strOr rt payload "kind" []) with
    | none =>
      rw [hkind] at h
      cases h
    | some kind =>
      rw [hkind] at h
      obtain ⟨sourceId, hsource, h⟩ := Except.bind_eq_ok.mp h
      obtain ⟨text, htext, h⟩ := Except.bind_eq_ok.mp h
      obtain ⟨c', hc, h⟩ := Except.bind_eq_ok.mp h
      obtain rfl := Option.some.inj (Except.ok.inj h)
      rw [ClaimCondition.build] at hc
      split_ifs at hc
      obtain rfl := Except.ok.inj hc
      exact ⟨payload, rfl, hkind, hsource, htext⟩
  | null | bool | int | float | str | arr => cases h

/-- Nothing is declared by nothing but a `null`, or by no value. -/
theorem eq_null_of_buildCondition {v : Json} (h : buildCondition rt v = .ok none) : v = .null := by
  cases v with
  | null => rfl
  | obj payload =>
    rw [buildCondition] at h
    split at h
    · cases h
    · obtain ⟨_, -, h⟩ := Except.bind_eq_ok.mp h
      obtain ⟨_, -, h⟩ := Except.bind_eq_ok.mp h
      obtain ⟨_, -, h⟩ := Except.bind_eq_ok.mp h
      cases Except.ok.inj h
  | bool | int | float | str | arr => cases h

theorem mem_of_conditionKind {s : Str} {kind : ConditionKind}
    (h : ConditionKind.ofStr s = some kind) :
    s ∈ [str "absent", str "present"] := by
  have hmem := List.mem_of_find?_eq_some h
  obtain rfl : kind.text = s := by simpa using List.find?_some h
  cases kind <;> decide

/-- A condition that is read is valid where it is plain. -/
theorem accepts_claimCheckSchema_iff {v : Json} (hw : v.WF) {c : ClaimCondition}
    (h : buildCondition rt v = .ok (some c)) : claimCheckSchema.accepts v = true ↔
      PlainCheck v := by
  obtain ⟨payload, rfl, hkind, hsource, htext⟩ := buildCondition_eq_ok h
  rw [claimCheckSchema, JsonSchema.accepts_object_iff (by decide) (by decide) hw.1]
  simp only [List.forall_mem_cons, List.not_mem_nil, false_implies, implies_true, and_true,
    property_oneOf (mem_of_conditionKind hkind) (by decide), property_anyText hsource,
    property_minLength htext c.namesText, PlainCheck, NoOther, List.map_cons, List.map_nil]

/-- What a typed claim was built of. -/
theorem buildTypedClaim_eq_ok {v : Json} {c : TypedClaim}
    (h : buildTypedClaim rt v = .ok (some c)) :
    ∃ payload, v = .obj payload ∧ ClaimKind.ofStr (strOr rt payload "kind" []) = some c.kind ∧
      requiredStr rt payload "source_id" = .ok c.sourceId ∧
      requiredStr rt payload "text" = .ok c.text := by
  have hliteral : ∀ {payload : Fields} {kind : ClaimKind},
      (do let sourceId ← requiredStr rt payload "source_id"
          let text ← requiredStr rt payload "text"
          return some (← TypedClaim.literal kind sourceId text)) = Except.ok (some c) →
      kind = c.kind ∧ requiredStr rt payload "source_id" = .ok c.sourceId ∧
        requiredStr rt payload "text" = .ok c.text := by
    intro payload kind h
    obtain ⟨sourceId, hsource, h⟩ := Except.bind_eq_ok.mp h
    obtain ⟨text, htext, h⟩ := Except.bind_eq_ok.mp h
    obtain ⟨c', hc, h⟩ := Except.bind_eq_ok.mp h
    obtain rfl := Option.some.inj (Except.ok.inj h)
    rw [TypedClaim.literal] at hc
    split_ifs at hc
    obtain rfl := Except.ok.inj hc
    exact ⟨rfl, hsource, htext⟩
  cases v with
  | obj payload =>
    rw [buildTypedClaim] at h
    cases hkind : ClaimKind.ofStr (strOr rt payload "kind" []) with
    | none =>
      rw [hkind] at h
      cases h
    | some kind =>
      rw [hkind] at h
      refine ⟨payload, rfl, ?_⟩
      cases kind with
      | contains =>
        obtain ⟨hc, hread⟩ := hliteral h
        exact ⟨hkind.trans (congrArg some hc), hread⟩
      | lacks =>
        obtain ⟨hc, hread⟩ := hliteral h
        exact ⟨hkind.trans (congrArg some hc), hread⟩
      | commandTargetsDiffer =>
        obtain ⟨sourceId, hsource, h⟩ := Except.bind_eq_ok.mp h
        obtain ⟨text, htext, h⟩ := Except.bind_eq_ok.mp h
        obtain ⟨other, -, h⟩ := Except.bind_eq_ok.mp h
        obtain ⟨sourceTargets, -, h⟩ := Except.bind_eq_ok.mp h
        obtain ⟨otherTargets, -, h⟩ := Except.bind_eq_ok.mp h
        obtain ⟨c', hc, h⟩ := Except.bind_eq_ok.mp h
        obtain rfl := Option.some.inj (Except.ok.inj h)
        rw [TypedClaim.comparison] at hc
        split_ifs at hc
        obtain rfl := Except.ok.inj hc
        exact ⟨hkind, hsource, htext⟩
  | null | bool | int | float | str | arr => cases h

theorem eq_null_of_buildTypedClaim {v : Json} (h : buildTypedClaim rt v = .ok none) :
    v = .null := by
  cases v with
  | null => rfl
  | obj payload =>
    rw [buildTypedClaim] at h
    split at h
    · cases h
    · obtain ⟨_, -, h⟩ := Except.bind_eq_ok.mp h
      obtain ⟨_, -, h⟩ := Except.bind_eq_ok.mp h
      obtain ⟨_, -, h⟩ := Except.bind_eq_ok.mp h
      obtain ⟨_, -, h⟩ := Except.bind_eq_ok.mp h
      obtain ⟨_, -, h⟩ := Except.bind_eq_ok.mp h
      obtain ⟨_, -, h⟩ := Except.bind_eq_ok.mp h
      cases Except.ok.inj h
    · obtain ⟨_, -, h⟩ := Except.bind_eq_ok.mp h
      obtain ⟨_, -, h⟩ := Except.bind_eq_ok.mp h
      obtain ⟨_, -, h⟩ := Except.bind_eq_ok.mp h
      cases Except.ok.inj h
  | bool | int | float | str | arr => cases h

theorem mem_typedClaimKinds {s : Str} {kind : ClaimKind} {v2 : Bool}
    (h : ClaimKind.ofStr s = some kind) (hv2 : kind = .commandTargetsDiffer → v2 = true) :
    s ∈ typedClaimKinds v2 := by
  obtain rfl : kind.text = s := by simpa using List.find?_some h
  cases kind with
  | contains | lacks => cases v2 <;> decide
  | commandTargetsDiffer =>
    rw [hv2 rfl]
    decide

theorem accepts_minLength {v : Json} :
    (JsonSchema.minLength 1).accepts v = true ↔ ∃ s, v = .str s ∧ s ≠ [] := by
  rw [JsonSchema.minLength, JsonSchema.accepts_text]
  simp only [decide_eq_true_eq, Nat.one_le_iff_ne_zero, ne_eq, List.length_eq_zero_iff]

/-- `_string_tuple` reads lists of texts that are not empty. -/
theorem accepts_stringTuple {v : Json} :
    (JsonSchema.array 0 (.minLength 1)).accepts v = true ↔ ∃ ss, stringTuple v = .ok ss := by
  cases v with
  | arr items =>
    rw [JsonSchema.accepts_array, stringTuple]
    simp only [Nat.zero_le, true_and, accepts_minLength]
    induction items with
    | nil => exact iff_of_true (fun _ hv ↦ absurd hv List.not_mem_nil) ⟨[], rfl⟩
    | cons item rest ih =>
      rw [List.forall_mem_cons, ih, List.mapM_cons]
      constructor
      · rintro ⟨⟨s, rfl, hs⟩, ss, hss⟩
        obtain ⟨c, s, rfl⟩ := List.exists_cons_of_ne_nil hs
        refine ⟨(c :: s) :: ss, ?_⟩
        rw [hss]
        rfl
      · rintro ⟨ss, h⟩
        obtain ⟨s, hs, h⟩ := Except.bind_eq_ok.mp h
        obtain ⟨rest', hrest, -⟩ := Except.bind_eq_ok.mp h
        refine ⟨?_, rest', hrest⟩
        split at hs
        · cases hs
        · rename_i s' hne
          exact ⟨s', rfl, hne⟩
        · cases hs
  | null | bool | int | float | str | obj =>
    exact iff_of_false (by simp [JsonSchema.accepts]) fun h ↦ by cases h.choose_spec

/-- A typed claim that is read is valid where it is plain. -/
theorem accepts_typedClaimSchema_iff {v2 : Bool} {v : Json} (hw : v.WF) {c : TypedClaim}
    (h : buildTypedClaim rt v = .ok (some c)) (hv2 : c.kind = .commandTargetsDiffer → v2 = true) :
    (typedClaimSchema v2).accepts v = true ↔ PlainTyped v2 v := by
  obtain ⟨payload, rfl, hkind, hsource, htext⟩ := buildTypedClaim_eq_ok h
  have hwords := mem_typedClaimKinds hkind hv2
  rw [typedClaimSchema, JsonSchema.accepts_object_iff (by cases v2 <;> decide)
    (by cases v2 <;> decide) hw.1]
  have hother : ∀ {key : String} {schema : JsonSchema},
      str key ∉ [str "kind", str "source_id", str "text"] →
      (JsonSchema.Property [str "kind", str "source_id", str "text"] payload (str key, schema) ↔
        ∀ v, Json.lookup (str key) payload = some v → schema.accepts v = true) :=
    fun hkey ↦ property_iff (fun h ↦ absurd h hkey) fun _ _ ↦ Iff.rfl
  cases v2 with
  | false =>
    simp only [List.forall_mem_cons, List.not_mem_nil, false_implies, implies_true, and_true,
      property_oneOf hwords (by decide), property_anyText hsource,
      property_minLength htext c.namesText, PlainTyped, NoOther, List.map_cons, List.map_nil,
      Bool.false_eq_true, if_false, List.append_nil]
  | true =>
    simp only [List.forall_mem_cons, List.not_mem_nil, false_implies, implies_true, and_true,
      property_oneOf hwords (by decide), property_anyText hsource,
      property_minLength htext c.namesText, PlainTyped, NoOther, List.map_cons, List.map_nil,
      if_true, comparisonProperties, List.cons_append, List.nil_append, true_implies,
      PlainComparison, hother (show str "other_source_id" ∉ _ by decide),
      hother (show str "source_targets" ∉ _ by decide),
      hother (show str "other_targets" ∉ _ by decide), accepts_minLength, accepts_stringTuple]

/-! ## Items

What a finding and an entry were built of, and what the schema asks of the same keys. -/

variable {item : Fields}

/-- What a finding was built of. -/
theorem buildFinding_eq_ok {f : Finding} (h : buildFinding rt item = .ok f) :
    NoOther producerKeys item ∧ ∃ references evidence, getOrNull item "evidence" = .arr references ∧
      references.mapM (buildReference rt) = .ok evidence ∧
      requiredStr rt item "claim" = .ok f.claim ∧ requiredStr rt item "scope" = .ok f.scope ∧
      (∃ severity, Severity.ofStr (strOr rt item "severity" UNKNOWN) = some severity) ∧
      strOr rt item "severity_rationale" [] = f.severityRationale := by
  rw [buildFinding] at h
  split_ifs at h with hkeys
  have hno : NoOther producerKeys item := fun p hp ↦ by
    by_contra hmem
    exact hkeys (List.any_eq_true.mpr ⟨p, hp, decide_eq_true hmem⟩)
  refine ⟨hno, ?_⟩
  cases hev : getOrNull item "evidence" with
  | arr references =>
    rw [hev] at h
    obtain ⟨claim, hclaim, h⟩ := Except.bind_eq_ok.mp h
    obtain ⟨scope, hscope, h⟩ := Except.bind_eq_ok.mp h
    obtain ⟨evidence, hevidence, h⟩ := Except.bind_eq_ok.mp h
    obtain ⟨-, -, h⟩ := Except.bind_eq_ok.mp h
    rw [Finding.create] at h
    split at h
    · cases h
    · cases h
    · rename_i severity _ hseverity
      split_ifs at h
      obtain rfl := Except.ok.inj h
      exact ⟨references, evidence, rfl, hevidence, hclaim, hscope, ⟨_, hseverity⟩, rfl⟩
  | null | bool | int | float | str | obj =>
    rw [hev] at h
    cases h

/-- What an entry was built of. -/
theorem buildEntry_eq_ok {v2 : Bool} {v : Json} {entry : Entry}
    (h : buildEntry rt v2 v = .ok entry) :
    ∃ item, v = .obj item ∧ buildFinding rt item = .ok entry.finding ∧
      buildTypedClaim rt (getOrNull item "typed_claim") = .ok entry.typed ∧
      (entry.typed.map (·.kind) = some .commandTargetsDiffer → v2 = true) ∧
      buildCondition rt (getOrNull item "claim_check") = .ok entry.condition := by
  cases v with
  | obj item =>
    rw [buildEntry] at h
    obtain ⟨typed, htyped, h⟩ := Except.bind_eq_ok.mp h
    split_ifs at h with hversion
    obtain ⟨finding, hfinding, h⟩ := Except.bind_eq_ok.mp h
    obtain ⟨condition, hcondition, h⟩ := Except.bind_eq_ok.mp h
    obtain rfl := Except.ok.inj h
    refine ⟨item, rfl, hfinding, ?_, fun hkind ↦ ?_, hcondition⟩
    · rw [buildTyped] at htyped
      obtain ⟨typed', htyped', h⟩ := Except.bind_eq_ok.mp htyped
      split at h
      · obtain rfl := Except.ok.inj h
        exact htyped'
      · obtain rfl := Except.ok.inj h
        exact htyped'
      · cases h
    · by_contra hv2
      exact hversion ⟨hkind, by simpa using hv2⟩
  | null | bool | int | float | str | arr => cases h

theorem mem_of_severity {s : Str} {severity : Severity} (h : Severity.ofStr s = some severity) :
    s ∈ [str "P0", str "P1", str "P2", str "unknown"] := by
  rw [Severity.ofStr] at h
  split_ifs at h with h0 h1 h2 h3
  · rw [h0]; decide
  · rw [h1]; decide
  · rw [h2]; decide
  · rw [h3]; decide

theorem accepts_texts {v : Json} : (JsonSchema.array 0 .anyText).accepts v = true ↔
    ∃ texts : List Str, v = .arr (texts.map .str) := by
  cases v with
  | arr items =>
    rw [JsonSchema.accepts_array]
    simp only [Nat.zero_le, true_and, JsonSchema.anyText, JsonSchema.accepts_text, and_true,
      Json.arr.injEq]
    constructor
    · intro h
      choose! text htext using h
      refine ⟨items.map text, ?_⟩
      rw [List.map_map]
      exact (List.map_id items).symm.trans (List.map_congr_left htext)
    · rintro ⟨texts, rfl⟩ v hv
      obtain ⟨s, -, rfl⟩ := List.mem_map.mp hv
      exact ⟨s, rfl⟩
  | null | bool | int | float | str | obj =>
    exact iff_of_false (by simp [JsonSchema.accepts]) fun h ↦ by cases h.choose_spec

/-- The citations of a finding that is read. -/
theorem property_evidence {references : List Json} {evidence : List EvidenceRef}
    (hw : (Json.obj item).WF) (hev : getOrNull item "evidence" = .arr references)
    (hmap : references.mapM (buildReference rt) = .ok evidence) :
    JsonSchema.Property required item (str "evidence", .array 1 citationSchema) ↔
      ∃ reference rest, getOrNull item "evidence" = .arr (reference :: rest) ∧
        ∀ r ∈ reference :: rest, PlainCitation r := by
  have hl := lookup_of_getOrNull hev (by simp)
  have hitems : Json.WFItems references := (Json.WFFields_iff _).mp hw.2 _ (Json.mem_of_lookup hl)
  have heach : ∀ r ∈ references, (citationSchema.accepts r = true ↔ PlainCitation r) :=
    fun r hr ↦ by
      obtain ⟨ref, -, href⟩ := Except.result_of_mapM hmap r hr
      exact accepts_citationSchema_iff ((Json.WFItems_iff _).mp hitems r hr) href
  rw [JsonSchema.Property, hl, hev]
  dsimp only
  rw [JsonSchema.accepts_array]
  cases references with
  | nil => exact iff_of_false (by simp) (by simp)
  | cons reference rest =>
    constructor
    · rintro ⟨-, hall⟩
      exact ⟨reference, rest, rfl, fun r hr ↦ (heach r hr).mp (hall r hr)⟩
    · rintro ⟨_, _, heq, hall⟩
      obtain ⟨rfl, rfl⟩ := List.cons.inj (Json.arr.inj heq)
      exact ⟨by simp, fun r hr ↦ (heach r hr).mpr (hall r hr)⟩

/-- What a finding declares is valid where it is plain, and a `null` is neither. -/
theorem accepts_declared_iff {schema : JsonSchema} {P : Json → Prop} {α : Type} {v : Json}
    {build : Json → Except Exc (Option α)} {declared : Option α} (h : build v = .ok declared)
    (hnone : build v = .ok none → v = .null) (hnull : schema.accepts .null = true ↔ P .null)
    (hsome : ∀ c, build v = .ok (some c) → declared = some c → (schema.accepts v = true ↔ P v)) :
    schema.accepts v = true ↔ P v := by
  cases declared with
  | none =>
    obtain rfl := hnone h
    exact hnull
  | some c => exact hsome c h rfl

/-- **An item that is read is valid exactly where it is plain.** -/
theorem accepts_findingSchema_iff {v2 : Bool} {v : Json} (hw : v.WF) {entry : Entry}
    (h : buildEntry rt v2 v = .ok entry) :
    (findingSchema v2).accepts v = true ↔ PlainItem v2 v := by
  obtain ⟨item, rfl, hfinding, htyped, hv2, hcondition⟩ := buildEntry_eq_ok h
  obtain ⟨hno, references, evidence, hev, hmap, hclaim, hscope, ⟨severity, hseverity⟩,
    hrationale⟩ :=
    buildFinding_eq_ok hfinding
  have hvalue : ∀ {key : String} {v : Json}, Json.lookup (str key) item = some v → v.WF :=
    fun hl ↦ (Json.WFFields_iff _).mp hw.2 _ (Json.mem_of_lookup hl)
  have hother : ∀ {key : String} {schema : JsonSchema} {P : Json → Prop},
      str key ∉ findingRequired →
      (∀ v, Json.lookup (str key) item = some v → (schema.accepts v = true ↔ P v)) →
      (JsonSchema.Property findingRequired item (str key, schema) ↔
        ∀ v, Json.lookup (str key) item = some v → P v) :=
    fun hkey ↦ property_iff fun h ↦ absurd h hkey
  have hword : JsonSchema.Property findingRequired item
      (str "severity", .oneOf [str "P0", str "P1", str "P2", str "unknown"]) ↔
        PlainText item "severity" := by
    refine property_text rt (fun h ↦ absurd h (by decide)) fun v hv ↦ ?_
    rw [strOr, hv] at hseverity
    exact decide_eq_true (mem_of_severity hseverity)
  have hreason : JsonSchema.Property findingRequired item
      (str "severity_rationale", .minLength 1) ↔ PlainText item "severity_rationale" := by
    have hlong : decide (1 ≤ (strOr rt item "severity_rationale" []).length) = true := by
      rw [hrationale]
      exact decide_eq_true (List.length_pos_iff.mpr (ne_nil_of_isBlank entry.finding.hasRationale))
    exact property_strOr hlong rfl
  have hcheck : ∀ v, Json.lookup (str "claim_check") item = some v →
      (claimCheckSchema.accepts v = true ↔ PlainCheck v) := fun v hv ↦ by
    rw [getOrNull_of_lookup hv] at hcondition
    exact accepts_declared_iff hcondition eq_null_of_buildCondition
      (by simp [JsonSchema.accepts, PlainCheck])
      fun c hc _ ↦ accepts_claimCheckSchema_iff (hvalue hv) hc
  have hclaims : ∀ v, Json.lookup (str "typed_claim") item = some v →
      ((typedClaimSchema v2).accepts v = true ↔ PlainTyped v2 v) := fun v hv ↦ by
    rw [getOrNull_of_lookup hv] at htyped
    refine accepts_declared_iff htyped eq_null_of_buildTypedClaim
      (by simp [JsonSchema.accepts, PlainTyped])
      fun c hc hdeclared ↦ accepts_typedClaimSchema_iff (hvalue hv) hc fun hkind ↦ hv2 ?_
    rw [hdeclared, Option.map_some, hkind]
  have hcommand : JsonSchema.Property findingRequired item
      (str "reproducible_command", .anyText) ↔ PlainText item "reproducible_command" :=
    property_text rt (fun h ↦ absurd h (by decide)) fun _ _ ↦ rfl
  have hkeys : ∀ q ∈ item, q.1 ∈ [str "claim", str "scope", str "severity",
      str "severity_rationale", str "evidence", str "claim_check", str "limitations",
      str "reproducible_command", str "typed_claim"] := fun q hq ↦
    (show ∀ key ∈ producerKeys, key ∈ [str "claim", str "scope", str "severity",
      str "severity_rationale", str "evidence", str "claim_check", str "limitations",
      str "reproducible_command", str "typed_claim"] by decide) _ (hno q hq)
  rw [findingSchema, JsonSchema.accepts_object_iff (by cases v2 <;> decide)
    (by cases v2 <;> decide) hw.1]
  simp only [List.forall_mem_cons, List.not_mem_nil, false_implies, implies_true, and_true,
    List.map_cons, List.map_nil, PlainItem,
    property_minLength hclaim (ne_nil_of_isBlank entry.finding.hasClaim),
    property_minLength hscope (ne_nil_of_isBlank entry.finding.hasScope), hword, hreason,
    property_evidence hw hev hmap, hother (show str "claim_check" ∉ _ by decide) hcheck,
    hother (show str "limitations" ∉ _ by decide) fun _ _ ↦ accepts_texts, hcommand,
    hother (show str "typed_claim" ∉ _ by decide) hclaims]
  exact and_iff_right hkeys

/-! ## Blocks

The schema holds of a block if it holds of each of its items. -/

/-- The block of a text is a list of items. -/
def BlockHolds (text : Str) (v2 : Bool) (items : List Json) : Prop :=
  ∃ body, searchBlock true text = some (v2, body) ∧ Json.loads body = some (.arr items)

/-- There is a block, and the parser makes findings of it. -/
def Accepted (rt : Runtime) (text : Str) : Prop :=
  ∃ parsed, structuredFindings rt text = .ok parsed ∧ parsed.present = true ∧
    parsed.malformed = false

/-- What the parser makes of a block that is found and not malformed. -/
theorem items_of_parsed {text body : Str} {v2 : Bool} {parsed : ParsedFindings}
    (hs : searchBlock true text = some (v2, body)) (h : structuredFindings rt text = .ok parsed)
    (hm : parsed.malformed = false) :
    ∃ items, Json.loads body = some (.arr items) ∧
      items.mapM (buildEntry rt v2) = .ok parsed.entries := by
  have hreturns := structuredFindings_returns_iff.mp ⟨parsed, h⟩
  have ht : Json.trouble rt.nesting body = none := by
    by_contra ht
    exact hreturns ⟨v2, body, hs, .inl ht⟩
  exact reads_of_parsed hs ht h (by simp [hm])

/-- A list of items that are read is valid where each of them is plain. -/
theorem accepts_entries_iff {v2 : Bool} {items : List Json} {entries : List Entry}
    (hw : Json.WFItems items) (h : items.mapM (buildEntry rt v2) = .ok entries) :
    (findingsBlockSchema v2).accepts (.arr items) = true ↔ ∀ item ∈ items, PlainItem v2 item := by
  rw [findingsBlockSchema, JsonSchema.accepts_array, and_iff_right (Nat.zero_le _)]
  refine forall₂_congr fun item hitem ↦ ?_
  obtain ⟨entry, -, hentry⟩ := Except.result_of_mapM h item hitem
  exact accepts_findingSchema_iff ((Json.WFItems_iff _).mp hw item hitem) hentry

/-- An accepted block is valid exactly where its items are plain. -/
theorem blockHolds_valid_iff {text : Str} (h : Accepted rt text) :
    ∃ v2 items, BlockHolds text v2 items ∧
      ((findingsBlockSchema v2).accepts (.arr items) = true ↔
        ∀ item ∈ items, PlainItem v2 item) := by
  obtain ⟨parsed, hparsed, hpresent, hm⟩ := h
  cases hs : searchBlock true text with
  | none =>
    rw [structuredFindings, hs] at hparsed
    obtain rfl := Except.ok.inj hparsed
    cases hpresent
  | some found =>
    obtain ⟨v2, body⟩ := found
    obtain ⟨items, hl, hentries⟩ := items_of_parsed hs hparsed hm
    exact ⟨v2, items, ⟨body, hs, hl⟩, accepts_entries_iff (Json.WF_of_loads hl) hentries⟩

end AtlasCore
