import AtlasCore.Lib.Fields

/-!
# Schemas of closed records

The part of JSON Schema that a closed format is written in: texts, integers with a least value,
lists with a least length, and objects that name every property they may have and those they must
have.  Under `"type": "integer"` a value is an `int` that is no `bool`.

`accepts_object_iff` takes an object apart: nothing else is in it, and each property is what it
should be, or missing and not required.
-/

set_option autoImplicit false

namespace Py

/-- A schema, of those keywords that a block of findings and a reply need. -/
inductive JsonSchema where
  /-- `"type": "string"`, with what else is asked of the text. -/
  | text (holds : Str → Bool)
  /-- `"type": "integer"` with `"minimum"`. -/
  | integer (minimum : ℤ)
  /-- `"type": "array"` with `"minItems"` and `"items"`. -/
  | array (minItems : ℕ) (items : JsonSchema)
  /-- `"type": "object"` with `"required"`, `"properties"` and `"additionalProperties": false`. -/
  | object (required : List Str) (properties : List (Str × JsonSchema))

namespace JsonSchema

/-- `"type": "string"`, of which nothing else is asked. -/
def anyText : JsonSchema := text fun _ ↦ true

/-- `"type": "string"` with `"minLength"`, counted in characters. -/
def minLength (n : ℕ) : JsonSchema := text fun s ↦ n ≤ s.length

/-- `"type": "string"` with `"enum"`: one of these words. -/
def oneOf (words : List Str) : JsonSchema := text (· ∈ words)

mutual
/-- Whether a value is valid: it is of the type, and meets what the schema asks for besides. -/
def accepts (schema : JsonSchema) : Json → Bool
  | .str s => match schema with
    | text holds => holds s
    | _ => false
  | .int z => match schema with
    | integer minimum => minimum ≤ z
    | _ => false
  | .arr values => match schema with
    | array minItems items => minItems ≤ values.length && acceptsItems items values
    | _ => false
  | .obj fields => match schema with
    | object required properties =>
      required.all (fun key ↦ (Json.lookup key fields).isSome) && acceptsFields properties fields
    | _ => false
  | .null | .bool _ | .float _ => false

/-- Whether all of some values are valid, each against the same schema. -/
def acceptsItems (schema : JsonSchema) : List Json → Bool
  | [] => true
  | v :: rest => accepts schema v && acceptsItems schema rest

/-- Whether some fields are properties, and valid ones. -/
def acceptsFields (properties : List (Str × JsonSchema)) : Fields → Bool
  | [] => true
  | (key, v) :: rest =>
    (match properties.find? fun p ↦ p.1 = key with
      | some p => accepts p.2 v
      | none => false) && acceptsFields properties rest
end

variable {schema : JsonSchema} {required : List Str} {properties : List (Str × JsonSchema)}
  {fields : Fields} {v : Json}

theorem accepts_text {holds : Str → Bool} :
    accepts (text holds) v = true ↔ ∃ s, v = .str s ∧ holds s = true := by
  cases v <;> simp [accepts]

theorem accepts_integer {minimum : ℤ} :
    accepts (integer minimum) v = true ↔ ∃ z, v = .int z ∧ minimum ≤ z := by
  cases v <;> simp [accepts]

theorem acceptsItems_iff {values : List Json} :
    acceptsItems schema values = true ↔ ∀ v ∈ values, accepts schema v = true := by
  induction values with
  | nil => simp [acceptsItems]
  | cons v rest ih => rw [acceptsItems, Bool.and_eq_true, ih, List.forall_mem_cons]

theorem accepts_array {minItems : ℕ} {values : List Json} :
    accepts (array minItems schema) (.arr values) = true ↔
      minItems ≤ values.length ∧ ∀ v ∈ values, accepts schema v = true := by
  rw [accepts, Bool.and_eq_true, decide_eq_true_eq, acceptsItems_iff]

theorem acceptsFields_iff : acceptsFields properties fields = true ↔
    ∀ q ∈ fields, ∃ p, (properties.find? fun p ↦ p.1 = q.1) = some p ∧ accepts p.2 q.2 = true := by
  induction fields with
  | nil => simp [acceptsFields]
  | cons q rest ih =>
    obtain ⟨key, v⟩ := q
    rw [acceptsFields, Bool.and_eq_true, ih, List.forall_mem_cons]
    cases properties.find? fun p ↦ p.1 = key <;> simp

/-- A property is valid, or it is missing and need not be there. -/
def Property (required : List Str) (fields : Fields) (p : Str × JsonSchema) : Prop :=
  match Json.lookup p.1 fields with
  | some v => accepts p.2 v = true
  | none => p.1 ∉ required

/-- In a table of properties each is found under its name. -/
theorem find_of_mem (hnames : (properties.map Prod.fst).Nodup) {p : Str × JsonSchema}
    (hp : p ∈ properties) : (properties.find? fun q ↦ q.1 = p.1) = some p := by
  induction properties with
  | nil => cases hp
  | cons q rest ih =>
    rw [List.map_cons, List.nodup_cons] at hnames
    rw [List.find?_cons]
    rcases List.mem_cons.mp hp with rfl | hmem
    · rw [decide_eq_true rfl]
    · have hne : q.1 ≠ p.1 := fun heq ↦ hnames.1 (heq ▸ List.mem_map_of_mem hmem)
      rw [decide_eq_false hne]
      exact ih hnames.2 hmem

/-- **An object, property by property.** -/
theorem accepts_object_iff (hnames : (properties.map Prod.fst).Nodup)
    (hrequired : ∀ key ∈ required, key ∈ properties.map Prod.fst)
    (hkeys : (fields.map Prod.fst).Nodup) :
    accepts (object required properties) (.obj fields) = true ↔
      (∀ q ∈ fields, q.1 ∈ properties.map Prod.fst) ∧
        ∀ p ∈ properties, Property required fields p := by
  rw [accepts, Bool.and_eq_true, List.all_eq_true, acceptsFields_iff]
  constructor
  · rintro ⟨hpresent, hfields⟩
    refine ⟨fun q hq ↦ ?_, fun p hp ↦ ?_⟩
    · obtain ⟨p, hfind, -⟩ := hfields q hq
      have hname : p.1 = q.1 := by simpa using List.find?_some hfind
      exact hname ▸ List.mem_map_of_mem (List.mem_of_find?_eq_some hfind)
    · rw [Property]
      cases hl : Json.lookup p.1 fields with
      | none =>
        intro hmem
        have hsome := hpresent _ hmem
        rw [hl] at hsome
        cases hsome
      | some v =>
        obtain ⟨p', hfind, hv⟩ := hfields _ (Json.mem_of_lookup hl)
        rw [find_of_mem hnames hp] at hfind
        obtain rfl := Option.some.inj hfind
        exact hv
  · rintro ⟨hdeclared, hproperties⟩
    refine ⟨fun key hkey ↦ ?_, fun q hq ↦ ?_⟩
    · obtain ⟨p, hp, rfl⟩ := List.mem_map.mp (hrequired key hkey)
      have hproperty := hproperties p hp
      rw [Property] at hproperty
      cases hl : Json.lookup p.1 fields with
      | none =>
        rw [hl] at hproperty
        exact absurd hkey hproperty
      | some v => rfl
    · obtain ⟨p, hp, hname⟩ := List.mem_map.mp (hdeclared q hq)
      have hproperty := hproperties p hp
      rw [Property, hname, Json.lookup_of_mem hkeys hq] at hproperty
      exact ⟨p, hname ▸ find_of_mem hnames hp, hproperty⟩

end JsonSchema

end Py
