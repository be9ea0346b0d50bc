import AtlasCore.Approval.Operation
import AtlasCore.Controller.Identity
import AtlasCore.Lib.Fields
import AtlasCore.Lib.Objects

/-!
# What a person says yes to

`Operation` of `Approval/Operation.lean` knows its arguments as JSON.  The caller of the class has
objects, which it may share and go on changing, so `HeldOperation.make` is the constructor over the
objects that exist: the arguments are copied, written in one canonical text, read back from it and
frozen, and the digest is taken of that text.

`HeldOperation.make_seals`: one digest is one operation, the frozen arguments contain the JSON value
of what was passed in, and nobody can change that afterwards.
-/

set_option autoImplicit false

namespace AtlasCore

open Py

/-- What is written, hashed, and read back: everything that tells one write from another. -/
def writeDocument (kind : OperationKind) (tool : Str) (arguments : Json)
    (repo ref head : Str) : Json :=
  .obj [(str "kind", .str kind.text), (str "tool", .str tool), (str "arguments", arguments),
    (str "repo", .str repo), (str "ref", .str ref), (str "head", .str head)]

/-- `json.loads(canonical)["arguments"]`: the arguments as they come back from the text that was
hashed. -/
def argumentsOf : Json → Option Json
  | .obj fields => Json.lookup (str "arguments") fields
  | _ => none

/-- An `Operation` with its arguments as the object they are. -/
structure HeldOperation where
  kind : OperationKind
  tool : Str
  arguments : Value
  repo : Str
  ref : Str
  head : Str
  sha256 : Str

/-- `Operation(...)`: the operation, and the objects that exist afterwards; nothing where it
raises.  `nesting` is how many containers may be inside each other. -/
def HeldOperation.make (nesting : ℕ) (heap : Heap) (kind : OperationKind) (tool : Str)
    (arguments : Value) (repo ref head : Str) : Option (HeldOperation × Heap) :=
  if tool = [] ∨ repo = [] ∨ ref = [] then none
  else if isCommit head = false then none
  else do
    let given ← heap.thaw nesting arguments
    let canonical ← Json.dumpsStrict (writeDocument kind tool given repo ref head)
    let copy ← (Json.loads canonical).bind argumentsOf
    let (frozen, heap) := heap.freeze copy
    let digest ← sha256Text canonical
    return (⟨kind, tool, frozen, repo, ref, head, digest⟩, heap)

/-- The two are the same write: every part is the same, the arguments as JSON, where the order of
the fields of an object says nothing. -/
def SameWrite (a b : HeldOperation) (given given' : Json) : Prop :=
  a.kind = b.kind ∧ a.tool = b.tool ∧ given.canon = given'.canon ∧ a.repo = b.repo ∧
    a.ref = b.ref ∧ a.head = b.head

/-- The digest does not confuse the canonical texts of two values. -/
def DigestTells (a b : Json) : Prop :=
  ∀ s t, Json.dumpsStrict a = some s → Json.dumpsStrict b = some t →
    Py.sha256 (utf8 s) = Py.sha256 (utf8 t) → s = t

/-- What the digest of an operation is taken of, given what its arguments contain. -/
def HeldOperation.document (o : HeldOperation) (arguments : Json) : Json :=
  writeDocument o.kind o.tool arguments o.repo o.ref o.head

/-! ## The canonical text

The text that is hashed determines the write: two documents with one text are one document, once
their keys are in order. -/

theorem operationDocument_eq (kind : OperationKind) (tool : Str) (arguments : Fields)
    (repo ref head : Str) : operationDocument kind tool arguments repo ref head =
      writeDocument kind tool (.obj arguments) repo ref head := rfl

theorem WF_writeDocument {kind : OperationKind} {tool repo ref head : Str} {arguments : Json}
    (h : arguments.WF) : (writeDocument kind tool arguments repo ref head).WF := by
  rw [writeDocument, Json.WF]
  refine ⟨by simp; decide, ?_⟩
  simp [Json.WFFields, Json.WF, h]

/-- The document written canonically has its parts under their names. -/
theorem canon_writeDocument (kind : OperationKind) (tool : Str) (arguments : Json)
    (repo ref head : Str) :
    ∃ fields, (writeDocument kind tool arguments repo ref head).canon = .obj fields ∧
      ∀ key, Json.lookup key fields = (Json.lookup key [(str "kind", .str kind.text),
        (str "tool", .str tool), (str "arguments", arguments), (str "repo", .str repo),
        (str "ref", .str ref), (str "head", .str head)]).map Json.canon := by
  rw [writeDocument, Json.canon]
  exact ⟨_, rfl, fun key ↦ by rw [Json.lookup_sortFields, Json.lookup_canonFields]⟩

/-- The arguments are read back in the order of their keys. -/
theorem argumentsOf_canon {kind : OperationKind} {tool repo ref head : Str} {arguments : Json} :
    argumentsOf (writeDocument kind tool arguments repo ref head).canon = some arguments.canon := by
  obtain ⟨fields, hfields, hlookup⟩ := canon_writeDocument kind tool arguments repo ref head
  rw [hfields, argumentsOf, hlookup]
  rfl

theorem OperationKind.text_injective {a b : OperationKind} (h : a.text = b.text) : a = b := by
  cases a <;> cases b <;> first | rfl | exact absurd h (by decide)

/-- **The canonical document has every part of the write in it.** -/
theorem writeDocument_canon_iff {kind kind' : OperationKind} {tool tool' repo repo' ref ref' head
    head' : Str} {given given' : Json} :
    (writeDocument kind tool given repo ref head).canon =
        (writeDocument kind' tool' given' repo' ref' head').canon ↔
      kind = kind' ∧ tool = tool' ∧ given.canon = given'.canon ∧ repo = repo' ∧ ref = ref' ∧
        head = head' := by
  constructor
  · intro h
    obtain ⟨fields, hfields, hlookup⟩ := canon_writeDocument kind tool given repo ref head
    obtain ⟨fields', hfields', hlookup'⟩ := canon_writeDocument kind' tool' given' repo' ref'
      head'
    obtain rfl := Json.obj.inj (hfields.symm.trans (h.trans hfields'))
    have hpart := fun key ↦ (hlookup key).symm.trans (hlookup' key)
    refine ⟨OperationKind.text_injective ?_, ?_, ?_, ?_, ?_, ?_⟩
    · exact Json.str.inj (Option.some.inj (hpart (str "kind")))
    · exact Json.str.inj (Option.some.inj (hpart (str "tool")))
    · exact Option.some.inj (hpart (str "arguments"))
    · exact Json.str.inj (Option.some.inj (hpart (str "repo")))
    · exact Json.str.inj (Option.some.inj (hpart (str "ref")))
    · exact Json.str.inj (Option.some.inj (hpart (str "head")))
  · rintro ⟨rfl, rfl, hgiven, rfl, rfl, rfl⟩
    simp only [writeDocument, Json.canon, Json.canonFields, hgiven]

/-- A canonical text is read as the value it was written of. -/
theorem loads_dumpsStrict {v : Json} (hv : v.WF) {s : Str} (hs : Json.dumpsStrict v = some s) :
    Json.loads s = some v.canon := by
  rw [Json.dumpsStrict, Option.ite_none_right_eq_some, Json.dumps,
    Option.ite_none_right_eq_some] at hs
  obtain ⟨-, hints, htext⟩ := hs
  rw [← Option.some.inj htext, ← Json.write_compact 0, ← List.append_nil (Json.write _ 0 v.canon)]
  exact Json.loads_write (Json.WF_canon hv) (by rw [Json.every_canon]; exact hints) rfl

mutual
/-- Sorting changes no float. -/
theorem isFinite_canon : ∀ v : Json, v.canon.isFinite = v.isFinite
  | .null | .bool _ | .int _ | .float _ | .str _ => by rw [Json.canon]
  | .arr items => by rw [Json.canon, Json.isFinite, Json.isFinite, isFinite_canonItems items]
  | .obj fields => by
    rw [Json.canon, Json.isFinite, Json.isFinite, ← isFinite_canonFields fields,
      isFiniteFields_eq_all, isFiniteFields_eq_all]
    exact (Json.sortFields_perm _).all_eq

theorem isFinite_canonItems : ∀ items : List Json,
    Json.isFiniteItems (Json.canonItems items) = Json.isFiniteItems items
  | [] => by rw [Json.canonItems]
  | v :: rest => by
    rw [Json.canonItems, Json.isFiniteItems, Json.isFiniteItems, isFinite_canon v,
      isFinite_canonItems rest]

theorem isFinite_canonFields : ∀ fields : Fields,
    Json.isFiniteFields (Json.canonFields fields) = Json.isFiniteFields fields
  | [] => by rw [Json.canonFields]
  | (k, v) :: rest => by
    rw [Json.canonFields, Json.isFiniteFields, Json.isFiniteFields, isFinite_canon v,
      isFinite_canonFields rest]

theorem isFiniteFields_eq_all : ∀ fields : Fields,
    Json.isFiniteFields fields = fields.all fun p ↦ p.2.isFinite
  | [] => by rw [Json.isFiniteFields, List.all_nil]
  | (k, v) :: rest => by rw [Json.isFiniteFields, isFiniteFields_eq_all rest, List.all_cons]
end

/-- What is written of a value depends on its canonical form only. -/
theorem dumpsStrict_congr {v w : Json} (h : v.canon = w.canon) :
    Json.dumpsStrict v = Json.dumpsStrict w := by
  have hfinite : v.isFinite = w.isFinite := by rw [← isFinite_canon v, h, isFinite_canon]
  have hints : v.every Json.intFits (fun _ ↦ true) = w.every Json.intFits (fun _ ↦ true) := by
    rw [← Json.every_canon, h, Json.every_canon]
  rw [Json.dumpsStrict, Json.dumpsStrict, Json.dumps, Json.dumps, hfinite, hints, h]

/-! ## The constructor

What `Operation.make` does to what it is given, step by step, and what it refuses. -/

namespace HeldOperation

variable {n : ℕ} {heap heap' : Heap} {kind : OperationKind} {tool repo ref head : Str}
  {arguments : Value} {o : HeldOperation}

/-- **What the constructor makes**: the frozen copy of what the canonical text is read as, and the
digest of that text. -/
theorem make_spec (hs : heap.Sound)
    (h : make n heap kind tool arguments repo ref head = some (o, heap')) :
    ∃ given text, heap.thaw n arguments = some given ∧ given.WF ∧
      Json.dumpsStrict (o.document given) = some text ∧ sha256Text text = some o.sha256 ∧
      heap.freeze given.canon = (o.arguments, heap') := by
  rw [make] at h
  split_ifs at h
  simp only [Option.bind_eq_bind, Option.bind_eq_some_iff] at h
  obtain ⟨given, hgiven, text, htext, copy, ⟨value, hvalue, hcopy⟩, digest, hdigest, hmade⟩ := h
  have hwf : given.WF := Heap.thaw_wf hs hgiven
  rw [loads_dumpsStrict (WF_writeDocument hwf) htext, Option.some.injEq] at hvalue
  rw [← hvalue, argumentsOf_canon, Option.some.injEq] at hcopy
  obtain ⟨rfl, rfl⟩ := Prod.mk.inj (Option.some.inj hmade)
  exact ⟨given, text, hgiven, hwf, htext, hdigest, by rw [hcopy]⟩

/-- Texts with one digest are one text, where the digest does not confuse them. -/
theorem text_eq_of_digest {s t d : Str} (hs : sha256Text s = some d) (ht : sha256Text t = some d)
    (htells : Py.sha256 (utf8 s) = Py.sha256 (utf8 t) → s = t) : s = t := by
  obtain ⟨bytes, hbytes, rfl⟩ := Option.map_eq_some_iff.mp hs
  obtain ⟨bytes', hbytes', hd⟩ := Option.map_eq_some_iff.mp ht
  rw [encode, Option.ite_none_right_eq_some] at hbytes hbytes'
  rw [← Option.some.inj hbytes.2, ← Option.some.inj hbytes'.2] at hd
  exact htells hd.symm

/-- **One digest is one write.** -/
theorem sha256_eq_iff {m : ℕ} {other other' : Heap} {kind' : OperationKind}
    {tool' repo' ref' head' : Str} {arguments' : Value} {p : HeldOperation} {given given' : Json}
    (hs : heap.Sound) (ho : make n heap kind tool arguments repo ref head = some (o, heap'))
    (hs' : other.Sound)
    (hp : make m other kind' tool' arguments' repo' ref' head' = some (p, other'))
    (hgiven : heap.thaw n arguments = some given) (hgiven' : other.thaw m arguments' = some given')
    (htells : DigestTells (o.document given) (p.document given')) :
    o.sha256 = p.sha256 ↔ SameWrite o p given given' := by
  obtain ⟨g, s, hg, hwf, hdump, hdigest, -⟩ := make_spec hs ho
  obtain ⟨g', t, hg', hwf', hdump', hdigest', -⟩ := make_spec hs' hp
  obtain rfl := Option.some.inj (hgiven.symm.trans hg)
  obtain rfl := Option.some.inj (hgiven'.symm.trans hg')
  rw [SameWrite, ← writeDocument_canon_iff]
  constructor
  · intro h
    obtain rfl := text_eq_of_digest hdigest (h ▸ hdigest') (htells s t hdump hdump')
    have hread := loads_dumpsStrict (WF_writeDocument hwf) hdump
    exact Option.some.inj (hread.symm.trans (loads_dumpsStrict (WF_writeDocument hwf') hdump'))
  · intro h
    obtain rfl := Option.some.inj (hdump.symm.trans ((dumpsStrict_congr h).trans hdump'))
    exact Option.some.inj (hdigest.symm.trans hdigest')

/-- **The frozen arguments contain what was passed in**, and go on to, whatever the holder of
everything that existed before does with it and with them. -/
theorem thaw_arguments {w : World} (hs : heap.Sound)
    (ho : make n heap kind tool arguments repo ref head = some (o, heap'))
    (hlater : World.Later ⟨heap', {a | a < heap.length ∨ o.arguments = .ref a}⟩ w) :
    ∃ given, heap.thaw n arguments = some given ∧
      w.heap.thaw n o.arguments = some given.canon := by
  obtain ⟨given, -, hgiven, -, -, -, hfrozen⟩ := make_spec hs ho
  have hmade := World.thaw_freeze_later (w := w) hs (Heap.thaw_fits hgiven).canon
  rw [hfrozen] at hmade
  exact ⟨given, hgiven, hmade hlater⟩

/-- The operation with its arguments as JSON is the one of `Operation.build`. -/
theorem make_build (hs : heap.Sound)
    (ho : make n heap kind tool arguments repo ref head = some (o, heap')) {given : Fields}
    (hgiven : heap.thaw n arguments = some (.obj given)) :
    ∃ (hwf : Json.WF (.obj given)) (operation : Operation),
      Operation.build kind tool given hwf repo ref head = .ok operation ∧
        operation.sha256 = o.sha256 ∧
          heap'.thaw n o.arguments = some (.obj operation.arguments) := by
  obtain ⟨g, text, hg, hwf, hdump, hdigest, -⟩ := make_spec hs ho
  obtain rfl := Option.some.inj (hgiven.symm.trans hg)
  obtain ⟨g, hg, hthaw⟩ := thaw_arguments hs ho .refl
  obtain rfl := Option.some.inj (hgiven.symm.trans hg)
  have hparts : o.kind = kind ∧ o.tool = tool ∧ o.repo = repo ∧ o.ref = ref ∧ o.head = head ∧
      (tool ≠ [] ∧ repo ≠ [] ∧ ref ≠ []) ∧ isCommit head = true := by
    rw [make] at ho
    split_ifs at ho with hnamed hpinned
    simp only [Option.bind_eq_bind, Option.bind_eq_some_iff] at ho
    obtain ⟨_, -, _, -, _, -, _, -, hmade⟩ := ho
    rw [← (Prod.mk.inj (Option.some.inj hmade)).1]
    rw [not_or, not_or] at hnamed
    exact ⟨rfl, rfl, rfl, rfl, rfl, hnamed, by simpa using hpinned⟩
  obtain ⟨hkind, htool, hrepo, href, hhead, hnamed, hpinned⟩ := hparts
  have hsealed : operationDigest kind tool given repo ref head = some o.sha256 := by
    rw [operationDigest, operationDocument_eq, ← hkind, ← htool, ← hrepo, ← href, ← hhead]
    exact Option.bind_eq_some_iff.mpr ⟨text, hdump, hdigest⟩
  refine ⟨hwf, ⟨kind, tool, Json.sortFields (Json.canonFields given), repo, ref, head, o.sha256,
    hnamed, hpinned, given, hwf, rfl, hsealed⟩, ?_, rfl, hthaw⟩
  rw [Operation.build, dif_pos hnamed, dif_pos hpinned]
  split
  · rename_i digest hd
    obtain rfl := Option.some.inj (hsealed.symm.trans hd)
    rfl
  · rename_i hnone
    exact absurd (hsealed.symm.trans hnone) (by simp)

/-- What the digest of an operation is taken of, when its arguments are read now. -/
def digestNow (o : HeldOperation) (n : ℕ) (heap : Heap) : Option Str := do
  let shown ← heap.thaw n o.arguments
  let canonical ← Json.dumpsStrict (o.document shown)
  sha256Text canonical

/-- **What was approved is what is shown and hashed.**  Of an operation and any other: they have one
digest when they are one write.  The frozen arguments contain the JSON value of what was passed in;
and whatever the holder of everything that existed before does, with the operation in its hands,
they contain it still, and the digest is of them. -/
theorem make_seals (hs : heap.Sound)
    (ho : make n heap kind tool arguments repo ref head = some (o, heap')) :
    ∃ given, heap.thaw n arguments = some given ∧
      (∀ {m : ℕ} {other other' : Heap} {kind' : OperationKind} {tool' repo' ref' head' : Str}
        {arguments' : Value} {p : HeldOperation} {given' : Json}, other.Sound →
        make m other kind' tool' arguments' repo' ref' head' = some (p, other') →
        other.thaw m arguments' = some given' →
        DigestTells (o.document given) (p.document given') →
        (o.sha256 = p.sha256 ↔ SameWrite o p given given')) ∧
      (∃ shown, heap'.thaw n o.arguments = some shown ∧ shown.canon = given.canon) ∧
      ∀ w, World.Later ⟨heap', {a | a < heap.length ∨ o.arguments = .ref a}⟩ w →
        w.heap.thaw n o.arguments = heap'.thaw n o.arguments ∧
          o.digestNow n w.heap = some o.sha256 := by
  obtain ⟨given, text, hgiven, -, hdump, hdigest, -⟩ := make_spec hs ho
  have hthaw : ∀ {w}, World.Later ⟨heap', {a | a < heap.length ∨ o.arguments = .ref a}⟩ w →
      w.heap.thaw n o.arguments = some given.canon := by
    intro w hlater
    obtain ⟨g, hg, hw⟩ := thaw_arguments hs ho hlater
    rwa [Option.some.inj (hgiven.symm.trans hg)]
  refine ⟨given, hgiven, fun hs' hp hgiven' htells ↦
    sha256_eq_iff hs ho hs' hp hgiven hgiven' htells,
    ⟨given.canon, hthaw .refl, Json.canon_canon given⟩, fun w hlater ↦ ?_⟩
  have hsame : (o.document given.canon).canon = (o.document given).canon :=
    writeDocument_canon_iff.mpr ⟨rfl, rfl, Json.canon_canon given, rfl, rfl, rfl⟩
  refine ⟨(hthaw hlater).trans (hthaw .refl).symm, ?_⟩
  rw [digestNow, hthaw hlater]
  exact Option.bind_eq_some_iff.mpr ⟨given.canon, rfl, Option.bind_eq_some_iff.mpr
    ⟨text, (dumpsStrict_congr hsame).trans hdump, hdigest⟩⟩

/-- A list that is under two keys of a dict. -/
def sharedList : Heap :=
  [.list [.atom (.int 1), .atom (.bool true)], .dict [(str "paths", .ref 0), (str "and", .ref 0)]]

theorem sound_sharedList : sharedList.Sound where
  keys := by simp [sharedList]; decide
  closed := by simp [sharedList, Object.values]

/-- The arguments of an operation are as they were when the list is emptied. -/
theorem make_seals_sharedList : ∃ o heap',
    make 1000 sharedList .command (str "run") (.ref 1) (str "/repo") (str "main")
      (List.replicate 40 (ch 'a')) = some (o, heap') ∧
    Heap.thaw (heap'.set 0 (.list [])) 1000 o.arguments = heap'.thaw 1000 o.arguments := by
  have hmade : (make 1000 sharedList .command (str "run") (.ref 1) (str "/repo") (str "main")
      (List.replicate 40 (ch 'a'))).isSome = true := by decide +kernel
  obtain ⟨⟨o, heap'⟩, ho⟩ := Option.isSome_iff_exists.mp hmade
  obtain ⟨given, -, -, -, hlater⟩ := make_seals sound_sharedList ho
  have hlist : heap'[0]? = some (.list [.atom (.int 1), .atom (.bool true)]) := by
    obtain ⟨given, _, _, _, _, _, hfrozen⟩ := make_spec sound_sharedList ho
    have hmore := (Heap.freeze_spec sharedList given.canon).1
    rw [hfrozen] at hmore
    exact Heap.getElem?_of_prefix hmore rfl
  have hempties : World.Later ⟨heap', {a | a < sharedList.length ∨ o.arguments = .ref a}⟩
      ⟨heap'.set 0 (.list []), {a | a < sharedList.length ∨ o.arguments = .ref a}⟩ :=
    .single (.assign (.inl (by decide)) hlist trivial fun v hv ↦ nomatch hv)
  exact ⟨o, heap', ho, (hlater _ hempties).1⟩

end HeldOperation

end AtlasCore
