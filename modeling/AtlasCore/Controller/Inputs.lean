import AtlasCore.Controller.Identity

/-!
# What the digest of an input tells

A log keeps the digest of what a call was given, and a replay compares digests and nothing else.  A
dataclass is hashed by its fields, so an input is the JSON value it is written as, whatever the
order of the keys.  A text is hashed as it is, and anything else as the text of its JSON, and the
two can be one text.
-/

set_option autoImplicit false

namespace AtlasCore

open Py

/-! ## Inputs

What a call is given, as a value that can be hashed.  A text is its own material and everything
else is written as JSON first, which is why two different inputs can have one material. -/

/-- A value that is hashed: what `json` knows, and a dataclass of such values. -/
inductive InputValue where
  | null
  | bool (b : Bool)
  | int (z : ℤ)
  | float (f : Py.Float)
  | str (s : Str)
  | list (items : List InputValue)
  | mapping (entries : List (Str × InputValue))
  | dataclass (name : Str) (fields : List (Str × InputValue))

namespace InputValue

mutual
/-- What `json.dumps(.., default=_canonical)` writes: of a dataclass its fields, as `asdict` has
them. -/
def plain : InputValue → Json
  | null => .null
  | bool b => .bool b
  | int z => .int z
  | float f => .float f
  | str s => .str s
  | list items => .arr (plainItems items)
  | mapping entries => .obj (plainFields entries)
  | dataclass _ fields => .obj (plainFields fields)

/-- `plain` of the items of a list, in their order. -/
def plainItems : List InputValue → List Json
  | [] => []
  | v :: rest => plain v :: plainItems rest

/-- `plain` of the values of a mapping, under the keys they have. -/
def plainFields : List (Str × InputValue) → Fields
  | [] => []
  | (k, v) :: rest => (k, plain v) :: plainFields rest
end

/-- What is hashed: a text is taken as it is, anything else as the JSON of its plain form. -/
def material : InputValue → Option Str
  | str s => some s
  | v => Json.dumps v.plain

/-- `digest`: the digest of what is hashed, where that can be written and encoded. -/
def digest (v : InputValue) : Option Str := v.material.bind sha256Text

end InputValue

/-- An input: no mapping has a key twice. -/
structure Input where
  value : InputValue
  wellFormed : value.plain.WF

/-- The digest of an input is that of the JSON it is written as. -/
theorem InputValue.digest_eq (v : InputValue) : v.digest = AtlasCore.digest v.plain := by
  cases v <;> rfl

namespace Input

variable (v w : Input)

/-- The inputs are equal as structured values; the order of the keys says nothing. -/
def Same : Prop := v.value.plain.canon = w.value.plain.canon

/-- What is hashed of the two is a collision of SHA-256. -/
def Collide : Prop :=
  ∃ s t, v.value.material = some s ∧ w.value.material = some t ∧ s ≠ t ∧
    sha256 (utf8 s) = sha256 (utf8 t)

/-- A digest says "same" only for the same input, and always for the same input. -/
structure Faithful : Prop where
  tells : ∀ d, v.value.digest = some d → w.value.digest = some d → v.Same w ∨ v.Collide w
  agrees : v.Same w → v.value.digest = w.value.digest

/-- The input is a text, and is hashed without quotes. -/
def IsText : Prop := ∃ s, v.value = .str s

/-- The one is a text that spells what is hashed of the other, which is none. -/
def Spells : Prop :=
  ∃ s, v.value = .str s ∧ encodable s = true ∧ ¬ w.IsText ∧ Json.dumps w.value.plain = some s

/-! ## What is hashed

A text is hashed without its quotes, so a text that looks like the JSON of another value has the
digest of that value. -/

variable {v w}

theorem material_of_not_text (h : ¬ v.IsText) : v.value.material = Json.dumps v.value.plain := by
  rw [InputValue.material.eq_def]
  split
  · rename_i s hs
    exact absurd ⟨s, hs⟩ h
  · rfl

/-- Only a text is written as a text. -/
theorem isText_of_canon {s : Str} (h : v.value.plain.canon = .str s) : v.value = .str s := by
  cases hv : v.value with
  | str t =>
    rw [hv] at h
    rw [Json.str.inj h]
  | _ =>
    rw [hv] at h
    cases h

theorem Same.symm (h : v.Same w) : w.Same v := Eq.symm h

theorem Same.isText (h : v.Same w) (hv : v.IsText) : w.value = v.value := by
  obtain ⟨s, hs⟩ := hv
  rw [hs]
  refine isText_of_canon (h.symm.trans ?_)
  rw [hs]
  rfl

/-- Two values are written alike exactly if they are equal up to the order of the keys. -/
theorem same_of_dumps {s : Str} (hv : Json.dumps v.value.plain = some s)
    (hw : Json.dumps w.value.plain = some s) : v.Same w := by
  have h := (Json.loads_dumps v.wellFormed hv).symm.trans (Json.loads_dumps w.wellFormed hw)
  exact Option.some.inj h

theorem Same.dumps (h : v.Same w) : Json.dumps v.value.plain = Json.dumps w.value.plain := by
  rw [Json.dumps, Json.dumps, ← Json.every_canon, h, Json.every_canon]

/-- What is hashed alike is the same, but for a text that spells a value. -/
theorem same_of_material {s : Str} (hs : encodable s = true) (hv : v.value.material = some s)
    (hw : w.value.material = some s) (hvw : ¬ v.Spells w) (hwv : ¬ w.Spells v) : v.Same w := by
  have htext : ∀ {u : Input} {t : Str}, u.value = .str t → u.value.material = some s → t = s := by
    intro u t hu hm
    rw [hu] at hm
    exact Option.some.inj hm
  by_cases hvt : v.IsText <;> by_cases hwt : w.IsText
  · obtain ⟨t, ht⟩ := hvt
    obtain ⟨t', ht'⟩ := hwt
    rw [Same, ht, ht', htext ht hv, htext ht' hw]
  · obtain ⟨t, ht⟩ := hvt
    obtain rfl := htext ht hv
    exact absurd ⟨t, ht, hs, hwt, (material_of_not_text hwt).symm.trans hw⟩ hvw
  · obtain ⟨t, ht⟩ := hwt
    obtain rfl := htext ht hw
    exact absurd ⟨t, ht, hs, hvt, (material_of_not_text hvt).symm.trans hv⟩ hwv
  · exact same_of_dumps ((material_of_not_text hvt).symm.trans hv)
      ((material_of_not_text hwt).symm.trans hw)

/-- A digest is that of a text which can be encoded. -/
theorem digest_eq_some {d : Str} (h : v.value.digest = some d) :
    ∃ s, v.value.material = some s ∧ encodable s = true ∧ sha256 (utf8 s) = d := by
  obtain ⟨s, hs, hd⟩ := Option.bind_eq_some_iff.mp h
  obtain ⟨bytes, hbytes, hsha⟩ := Option.map_eq_some_iff.mp hd
  rw [encode, Option.ite_none_right_eq_some] at hbytes
  obtain ⟨hencodable, hutf8⟩ := hbytes
  exact ⟨s, hs, hencodable, (Option.some.inj hutf8) ▸ hsha⟩

/-- A text that spells a value has its digest, and is not the same. -/
theorem Spells.not_faithful (h : v.Spells w) : ∃ d, v.value.digest = some d ∧
    w.value.digest = some d ∧ ¬ v.Same w ∧ ¬ v.Collide w := by
  obtain ⟨s, hs, hencodable, hnot, hdumps⟩ := h
  have hv : v.value.material = some s := by rw [hs]; rfl
  have hw : w.value.material = some s := (material_of_not_text hnot).trans hdumps
  have hsha :
      sha256Text s = some (sha256 (utf8 s)) := by rw [sha256Text, encode, if_pos hencodable]; rfl
  refine ⟨sha256 (utf8 s), ?_, ?_, fun hsame ↦ ?_, ?_⟩
  · rw [InputValue.digest, hv, Option.bind_some, hsha]
  · rw [InputValue.digest, hw, Option.bind_some, hsha]
  · exact hnot ⟨s, (hsame.isText ⟨s, hs⟩).trans hs⟩
  · rintro ⟨a, b, ha, hb, hne, -⟩
    rw [hv] at ha
    rw [hw] at hb
    exact hne (Option.some.inj (ha.symm.trans hb))

end Input

/-! ## When a digest is faithful

The inputs that share a digest are those that are the same, and the texts that are the JSON of
another. -/

/-- **A digest tells two inputs apart, and agrees on equal ones, exactly if** neither is a text that
spells the JSON of the other, which is none. -/
theorem digest_faithful_iff (v w : Input) : v.Faithful w ↔ ¬ v.Spells w ∧ ¬ w.Spells v := by
  constructor
  · intro h
    constructor
    · intro hspells
      obtain ⟨d, hv, hw, hsame, hcollide⟩ := hspells.not_faithful
      exact (h.tells d hv hw).elim hsame hcollide
    · intro hspells
      obtain ⟨d, hw, hv, hsame, hcollide⟩ := hspells.not_faithful
      refine (h.tells d hv hw).elim (fun hs ↦ hsame hs.symm) fun ⟨s, t, hs, ht, hne, heq⟩ ↦ ?_
      exact hcollide ⟨t, s, ht, hs, hne.symm, heq.symm⟩
  · rintro ⟨hvw, hwv⟩
    refine ⟨fun d hv hw ↦ ?_, fun h ↦ ?_⟩
    · obtain ⟨s, hs, hencodable, hsha⟩ := Input.digest_eq_some hv
      obtain ⟨t, ht, -, hsha'⟩ := Input.digest_eq_some hw
      by_cases heq : s = t
      · subst heq
        exact .inl (Input.same_of_material hencodable hs ht hvw hwv)
      · exact .inr ⟨s, t, hs, ht, heq, hsha.trans hsha'.symm⟩
    · by_cases hv : v.IsText
      · rw [h.isText hv]
      · have hw : ¬ w.IsText := fun hw ↦ hv (by rwa [Input.IsText, h.symm.isText hw])
        rw [InputValue.digest, InputValue.digest, Input.material_of_not_text hv,
          Input.material_of_not_text hw, h.dumps]

/-- The text `null`, and no input at all. -/
def nullText : Input := ⟨.str (str "null"), trivial⟩

def nullValue : Input := ⟨.null, trivial⟩

/-- They have one digest. -/
theorem nullText_confused : ¬ nullText.Faithful nullValue := by
  intro h
  have hencode : encode (str "null") = some (utf8 (str "null")) := by decide
  have hdigest : sha256Text (str "null") = some (sha256 (utf8 (str "null"))) := by
    rw [sha256Text, hencode]
    rfl
  rcases h.tells _ hdigest hdigest with hsame | ⟨s, t, hs, ht, hne, -⟩
  · cases hsame
  · exact hne (Option.some.inj (hs.symm.trans ht))

end AtlasCore
