import AtlasCore.Evidence.Reading
import AtlasCore.Lib.JsonRoundTrip

/-!
# One exact write

An `Operation` is what a person approves: tool, arguments, repository, ref and the clean commit it
was proposed against.  Its digest is taken once, from a copy made at construction, and the fields
of an `Operation` here carry the proof that the digest is theirs.

A JSON value has no identity, so the read-only copy of `_freeze` and the plain copy of `thaw` are
the value itself.
-/

set_option autoImplicit false

namespace Py

namespace Json

mutual
/-- No float in the value is `NaN` or infinite. -/
def isFinite : Json → Bool
  | .float (.decimal _) => true
  | .float _ => false
  | .arr items => isFiniteItems items
  | .obj fields => isFiniteFields fields
  | _ => true

/-- `isFinite` of the items of a list: each of them, at every depth. -/
def isFiniteItems : List Json → Bool
  | [] => true
  | v :: rest => isFinite v && isFiniteItems rest

/-- `isFinite` of the values of a dict; its keys are texts and need no check. -/
def isFiniteFields : Fields → Bool
  | [] => true
  | (_, v) :: rest => isFinite v && isFiniteFields rest
end

/-- `json.dumps(v, ensure_ascii=False, sort_keys=True, allow_nan=False)`: the text that is hashed,
or nothing where a number in it has none. -/
def dumpsStrict (v : Json) : Option Str := if isFinite v then dumps v else none

end Json

end Py

namespace AtlasCore

open Py

/-- `OPERATION_KINDS`: what an operation would write. -/
inductive OperationKind where
  | diff | command | ref
  deriving DecidableEq

/-- The text of a kind, as the document that is hashed has it. -/
def OperationKind.text : OperationKind → Str
  | diff => str "diff"
  | command => str "command"
  | ref => str "ref"

/-- `_COMMIT.fullmatch`: 40 or 64 hexadecimal digits, which is a full commit id of either kind. -/
def isCommit (s : Str) : Bool := (s.length == 40 || s.length == 64) && s.all isHex

/-- What the digest of an operation is taken of. -/
def operationDocument (kind : OperationKind) (tool : Str) (arguments : Fields)
    (repo ref head : Str) : Json :=
  .obj [(str "kind", .str kind.text), (str "tool", .str tool), (str "arguments", .obj arguments),
    (str "repo", .str repo), (str "ref", .str ref), (str "head", .str head)]

/-- The digest, where the document can be written and encoded. -/
def operationDigest (kind : OperationKind) (tool : Str) (arguments : Fields)
    (repo ref head : Str) : Option Str :=
  (Json.dumpsStrict (operationDocument kind tool arguments repo ref head)).bind sha256Text

/-- One exact write: the tool, its arguments, and the repository, ref and commit it was proposed
against.  It is made once and never changed. -/
structure Operation where
  kind : OperationKind
  tool : Str
  arguments : Fields
  repo : Str
  ref : Str
  /-- The clean commit it was proposed against. -/
  head : Str
  sha256 : Str
  named : tool ≠ [] ∧ repo ≠ [] ∧ ref ≠ []
  pinned : isCommit head = true
  /-- The digest is the digest of these fields: the arguments are the copy that
  `json.loads(canonical)` gives back, which has the keys in order. -/
  sealed : ∃ given, Json.WF (.obj given) ∧
    arguments = Json.sortFields (Json.canonFields given) ∧
    operationDigest kind tool given repo ref head = some sha256

/-- `Operation(...)`; a dict has no key twice, so `given` comes with the proof. -/
def Operation.build (kind : OperationKind) (tool : Str) (given : Fields)
    (wellFormed : Json.WF (.obj given)) (repo ref head : Str) : Except Exc Operation :=
  if named : tool ≠ [] ∧ repo ≠ [] ∧ ref ≠ [] then
    if pinned : isCommit head = true then
      match sealed : operationDigest kind tool given repo ref head with
      | some sha256 =>
        .ok ⟨kind, tool, Json.sortFields (Json.canonFields given), repo, ref, head, sha256, named,
          pinned, given, wellFormed, rfl, sealed⟩
      | none => .error .valueError
    else .error .valueError
  else .error .valueError

theorem Operation.sha256_spec (o : Operation) : o.sha256.length = 64 ∧
    o.sha256.all isHex = true := by
  obtain ⟨_, -, -, hdigest⟩ := o.sealed
  obtain ⟨text, -, h⟩ := Option.bind_eq_some_iff.mp hdigest
  exact sha256Text_spec h

end AtlasCore
