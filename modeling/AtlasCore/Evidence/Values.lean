import AtlasCore.Evidence.Block

/-!
# JSON values as Python sees them

A record or a document that was read holds whatever JSON the file had.  This is what the code asks
of such a value before it knows what it is: whether it is a text, whether it counts as true, and
what `dict` makes of it.

`isFalsy`, `equalsZero` and `dictValue` are where Python's own rules enter: zero is false and so is
an empty text, `False` equals 0, and a list of pairs is as good as a mapping.  A file can hold any
of these, whoever wrote it.
-/

set_option autoImplicit false

namespace AtlasCore

open Py

/-- `v is None`: the `null` of JSON, and nothing else. -/
def isNull : Json → Bool
  | .null => true
  | _ => false

/-- `v == text`: a value that is no text equals none. -/
def isText (v : Json) (text : Str) : Bool :=
  match v with
  | .str s => s = text
  | _ => false

theorem isText_iff {v : Json} {text : Str} : isText v text = true ↔ v = .str text := by
  cases v <;> simp [isText]

section
variable (rt : Runtime)

/-- `not v`: what Python takes for nothing, from `null` to an empty list. -/
def isFalsy : Json → Bool
  | .null => true
  | .bool b => !b
  | .int z => z = 0
  | .float (.decimal d) => rt.isZero d
  | .float _ => false
  | .str s => s = []
  | .arr items => items.isEmpty
  | .obj fields => fields.isEmpty

/-- `v == 0`, which `False` and the float also are. -/
def equalsZero : Json → Bool
  | .bool b => !b
  | .int z => z = 0
  | .float (.decimal d) => rt.isZero d
  | _ => false

/-- An entry of `dict(pairs)`; only a text can be asked for. -/
def dictEntry (key value : Json) : Except Exc Fields :=
  match key with
  | .str s => .ok [(s, value)]
  | .arr _ | .obj _ => .error .typeError
  | _ => .ok []

/-- An item of `dict(pairs)`: anything of which two items can be taken, a text of two characters
among them. -/
def dictItem : Json → Except Exc Fields
  | .arr [key, value] => dictEntry key value
  | .str [a, b] => .ok [([a], .str [b])]
  | .obj [(a, _), (b, _)] => .ok [(a, .str b)]
  | .arr _ | .str _ | .obj _ => .error .valueError
  | _ => .error .typeError

/-- `dict(v)`: a mapping as it is, or a list of pairs of which the last of a key counts. -/
def dictValue : Json → Except Exc Fields
  | .obj fields => .ok fields
  | .arr items => do return Json.dictOf (← items.mapM dictItem).flatten
  | .str [] => .ok []
  | .str _ => .error .valueError
  | _ => .error .typeError

end

end AtlasCore
