import AtlasCore.Approval.Operation

/-!
# What a tool is given and what it gives back

A host object can change at any time; `PyVal` is what one contains at a moment.  The gateway copies
arguments through `json`, and checks them and results against the schemas of the tool.

`toJson` is the first half of that copy, with what it raises: a key that is no text, a number that
has none, a value that goes too deep.  The validation is defined on `PyVal` and not on JSON, because
results are validated before anything is copied, and an object of the host is not always what JSON
could say.
-/

set_option autoImplicit false

namespace AtlasCore

open Py

/-- What an object contains: the values of Python that a schema or a digest can tell apart, and one
case for all others. -/
inductive PyVal where
  | none
  | bool (b : Bool)
  | int (z : ℤ)
  | float (f : Py.Float)
  | str (s : Str)
  | list (items : List PyVal)
  | tuple (items : List PyVal)
  | dict (entries : List (PyVal × PyVal))
  /-- An object of a class that neither `json` nor a schema knows: whether it has a hash, and which
  objects of such classes it can be sorted with. -/
  | other (hashed : Bool) (order : Option ℕ)

namespace PyVal

/-! ## `json`

The objects of a host as JSON and back, with what `json.dumps` refuses. -/

mutual
/-- The value a JSON text is read as. -/
def ofJson : Json → PyVal
  | .null => none
  | .bool b => bool b
  | .int z => int z
  | .float f => float f
  | .str s => str s
  | .arr items => list (ofJsonItems items)
  | .obj fields => dict (ofJsonFields fields)

/-- `ofJson` of the items of a list, in their order. -/
def ofJsonItems : List Json → List PyVal
  | [] => []
  | v :: rest => ofJson v :: ofJsonItems rest

/-- `ofJson` of the fields of a dict, whose keys become texts. -/
def ofJsonFields : Fields → List (PyVal × PyVal)
  | [] => []
  | (k, v) :: rest => (str k, ofJson v) :: ofJsonFields rest
end

/-- What `json.dumps(.., allow_nan=False)` writes for a key: a text, or the text of a number or a
constant. -/
def jsonKey : PyVal → Except Exc Str
  | str s => .ok s
  | none => .ok (Py.str "null")
  | bool b => .ok (if b then Py.str "true" else Py.str "false")
  | int z => if Json.intFits z then .ok (decimalInt z) else .error .valueError
  | float (.decimal d) => .ok (Json.renderDecimal d)
  | float _ => .error .valueError
  | _ => .error .typeError

mutual
/-- What `json.dumps(.., allow_nan=False)` writes, with this many containers inside each other at
most. -/
def toJson : ℕ → PyVal → Except Exc Json
  | _, none => .ok .null
  | _, bool b => .ok (.bool b)
  | _, int z => if Json.intFits z then .ok (.int z) else .error .valueError
  | _, float (.decimal d) => .ok (.float (.decimal d))
  | _, float _ => .error .valueError
  | _, str s => .ok (.str s)
  | 0, list _ | 0, tuple _ | 0, dict _ => .error .recursionError
  | nesting + 1, list items => do return .arr (← toJsonItems nesting items)
  | nesting + 1, tuple items => do return .arr (← toJsonItems nesting items)
  | nesting + 1, dict entries => do return .obj (← toJsonEntries nesting entries)
  | _, other _ _ => .error .typeError

/-- `toJson` of the items of a list, each one level further down. -/
def toJsonItems : ℕ → List PyVal → Except Exc (List Json)
  | _, [] => .ok []
  | nesting, v :: rest => do return (← toJson nesting v) :: (← toJsonItems nesting rest)

/-- `toJson` of the entries of a dict, each one level further down; two keys may be written alike.
-/
def toJsonEntries : ℕ → List (PyVal × PyVal) → Except Exc Fields
  | _, [] => .ok []
  | nesting, (k, v) :: rest => do
    return (← jsonKey k, ← toJson nesting v) :: (← toJsonEntries nesting rest)
end

/-- The escapes of two surrogates that make a pair are read as one character. -/
def joinSurrogates : Str → Str
  | high :: low :: rest =>
    if 0xD800 ≤ high.val ∧ high.val < 0xDC00 ∧ 0xDC00 ≤ low.val ∧ low.val < 0xE000 then
      ⟨(0x10000 + (high.val - 0xD800) * 0x400 + (low.val - 0xDC00)) % 0x110000,
        Nat.mod_lt _ (by decide)⟩ :: joinSurrogates rest
    else high :: joinSurrogates (low :: rest)
  | s => s

mutual
/-- What a text that `json.dumps` wrote in ASCII is read as: of a repeated key the last value
stays. -/
def readBack : Json → Json
  | .str s => .str (joinSurrogates s)
  | .arr items => .arr (readBackItems items)
  | .obj fields => .obj (Json.dictOf (readBackFields fields))
  | v => v

/-- `readBack` of the items of a list, in their order. -/
def readBackItems : List Json → List Json
  | [] => []
  | v :: rest => readBack v :: readBackItems rest

/-- `readBack` of the fields of a dict; the keys are texts that are read back too. -/
def readBackFields : Fields → Fields
  | [] => []
  | (k, v) :: rest => (joinSurrogates k, readBack v) :: readBackFields rest
end

/-- `json.loads(json.dumps(v, allow_nan=False))`: a copy that shares nothing, of what JSON can say
of the value. -/
def jsonCopy (nesting : ℕ) (v : PyVal) : Except Exc Json := (toJson nesting v).map readBack

/-- `json.dumps(v, ensure_ascii=False, allow_nan=False)`, with what it raises where the value has no
JSON. -/
def dumps (nesting : ℕ) (v : PyVal) : Except Exc Str := (toJson nesting v).map Json.render

/-- `isinstance(v, dict) and all(isinstance(key, str) for key in v)`. -/
def isStringKeyed : PyVal → Bool
  | dict entries => entries.all fun p ↦
    match p.1 with
    | str _ => true
    | _ => false
  | _ => false

/-! ## `_validate_schema`

The schema of a tool, checked on any object, with what Python raises where a keyword does not
fit. -/

section schema

-- `==` of Python, of which nothing is used
variable (equal : PyVal → PyVal → Bool)

/-- `matches[name](v)`: the types of a schema, and which values are of them; no other name is a
type. -/
def hasType (v : PyVal) (name : Str) : Option Bool :=
  if name = Py.str "object" then some (match v with | dict _ => true | _ => false)
  else if name = Py.str "array" then some (match v with | list _ => true | _ => false)
  else if name = Py.str "string" then some (match v with | str _ => true | _ => false)
  else if name = Py.str "integer" then some (match v with | int _ => true | _ => false)
  else if name = Py.str "number" then
    some (match v with | int _ => true | float _ => true | _ => false)
  else if name = Py.str "boolean" then some (match v with | bool _ => true | _ => false)
  else if name = Py.str "null" then some (match v with | none => true | _ => false)
  else Option.none

/-- `any(item not in matches for item in allowed)`: the first that is no name of a type decides, and
a list or a dict has no hash to be looked up by. -/
def anyUnknown (v : PyVal) : List Json → Except Exc Bool
  | [] => .ok false
  | .str s :: rest => if hasType v s = Option.none then .ok true else anyUnknown v rest
  | .arr _ :: _ | .obj _ :: _ => .error .typeError
  | _ :: _ => .ok true

/-- `matches[item](value)`: the value is of one of the types that a schema names. -/
def isAllowed (v : PyVal) : Json → Bool
  | .str s => hasType v s = some true
  | _ => false

/-- The `type` of a schema: one name or several, or nothing, which allows everything; a name that is
no type raises. -/
def checkType (v : PyVal) (schema : Fields) : Except Exc Unit :=
  let allowed : Except Exc (Option (List Json)) :=
    match Json.lookup (Py.str "type") schema with
    | Option.none => .ok Option.none
    | some .null => .ok Option.none
    | some (.str s) => .ok (some [.str s])
    | some (.arr items) => .ok (some items)
    | some (.obj fields) => .ok (some (fields.map fun p ↦ .str p.1))
    | some _ => .error .typeError
  match allowed with
  | .error e => .error e
  | .ok Option.none => .ok ()
  | .ok (some names) => do
    if names = [] ∨ (← anyUnknown v names) = true then .error .valueError
    else if names.any (isAllowed v) then .ok ()
    else .error .toolSchemaError

mutual
/-- `hash(v)` is there, which looking the value up in a mapping needs. -/
def hashable : PyVal → Bool
  | list _ | dict _ => false
  | tuple items => hashableItems items
  | other hashed _ => hashed
  | _ => true

/-- `hashable` of the items of a tuple: each of them. -/
def hashableItems : List PyVal → Bool
  | [] => true
  | v :: rest => hashable v && hashableItems rest
end

/-- The `enum` of a schema; a value is looked up in a mapping by its hash. -/
def checkEnum (v : PyVal) (schema : Fields) : Except Exc Unit :=
  match Json.lookup (Py.str "enum") schema with
  | Option.none => .ok ()
  | some (.arr items) =>
    if items.any fun item ↦ equal v (ofJson item) then .ok () else .error .toolSchemaError
  | some (.obj fields) =>
    if hashable v = false then .error .typeError
    else if fields.any fun p ↦ equal v (str p.1) then .ok ()
    else .error .toolSchemaError
  | some (.str s) =>
    match v with
    | str t => if t <:+: s then .ok () else .error .toolSchemaError
    | _ => .error .typeError
  | some _ => .error .typeError

/-- `name in value`; a list or a dict is no key. -/
def hasKey (entries : List (PyVal × PyVal)) : Json → Except Exc Bool
  | .arr _ | .obj _ => .error .typeError
  | name => .ok (entries.any fun p ↦ equal p.1 (ofJson name))

/-- The values that are compared as numbers, the booleans among them. -/
def isNumeric : PyVal → Bool
  | int _ | float _ | bool _ => true
  | _ => false

mutual
/-- `v < w` raises nothing: two texts, two numbers, or tuples of such. -/
def comparable : PyVal → PyVal → Bool
  | str _, str _ => true
  | tuple items, tuple items' => comparableItems items items'
  | other _ (some order), other _ (some order') => order = order'
  | v, w => isNumeric v && isNumeric w

/-- Tuples are compared at the first place where they differ. -/
def comparableItems : List PyVal → List PyVal → Bool
  | v :: rest, w :: rest' =>
    if equal v w then comparableItems rest rest' else comparable v w
  | _, _ => true
end

/-- `sorted` raises nothing: it compares any two of them, directly or through others. -/
def sortable : List PyVal → Bool
  | [] => true
  | key :: rest => rest.all (comparable equal key) && sortable rest

/-- What a schema says of the keys of a dict; `properties` is what is returned. -/
def checkKeys (entries : List (PyVal × PyVal)) (schema : Fields) : Except Exc Fields := do
  let properties ← match Json.lookup (Py.str "properties") schema with
    | Option.none => .ok []
    | some (.obj fields) => .ok fields
    | some _ => .error .valueError
  let required ← match Json.lookup (Py.str "required") schema with
    | Option.none => .ok []
    | some (.arr items) => .ok items
    | some _ => .error .valueError
  let present ← required.mapM (hasKey equal entries)
  if false ∈ present then .error .toolSchemaError
  else
    let extra := (entries.map (·.1)).filter fun k ↦ !properties.any fun p ↦ equal k (str p.1)
    match Json.lookup (Py.str "additionalProperties") schema with
    | some (.bool false) =>
      if extra.isEmpty then .ok properties
      else .error (if sortable equal extra then .toolSchemaError else .typeError)
    | _ => .ok properties

mutual
/-- `_validate_schema`: the type first, then the enumeration, and then what is in the value. -/
def validateSchema : PyVal → Fields → Except Exc Unit
  | dict entries, schema => do
    checkType (dict entries) schema
    checkEnum equal (dict entries) schema
    validateEntries entries (← checkKeys equal entries schema)
  | list items, schema => do
    checkType (list items) schema
    checkEnum equal (list items) schema
    match Json.lookup (Py.str "items") schema with
    | some (.obj child) => validateItems items child
    | _ => .ok ()
  | v, schema => do
    checkType v schema
    checkEnum equal v schema

/-- Every entry against the schema of its property. -/
def validateEntries : List (PyVal × PyVal) → Fields → Except Exc Unit
  | [], _ => .ok ()
  | (k, v) :: rest, properties => do
    match k with
    | str s =>
      match Json.lookup s properties with
      | some (.obj child) => validateSchema v child
      | _ => .ok ()
    | _ => .ok ()
    validateEntries rest properties

/-- Every item against the schema of the items. -/
def validateItems : List PyVal → Fields → Except Exc Unit
  | [], _ => .ok ()
  | v :: rest, child => do
    validateSchema v child
    validateItems rest child
end

end schema

end PyVal

end AtlasCore
