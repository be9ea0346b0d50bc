import AtlasCore.Evidence.Block
import AtlasCore.Lib.Effect

/-!
# The findings parser fails closed

`structured_findings` reads what a model wrote.  It reports a block it cannot use as malformed,
and it does so by catching `TypeError`, `KeyError` and `ValueError` around the constructors of one
item, and `JSONDecodeError` around `json.loads`.

Of everything that is called, three things raise something else: `int` of an infinite line number
(`OverflowError`), `json.loads` of an integer that is too long (a `ValueError`, but not a
`JSONDecodeError`), and `json.loads` of containers that are nested too deep (`RecursionError`).
`failsClosed_iff` says that there is nothing besides.
-/

set_option autoImplicit false

namespace AtlasCore

open Py

variable (rt : Runtime)

/-! ## Where an exception gets out

An infinite line number is the only thing in a block that raises what nobody catches.  The
conditions say where in the block it has to stand to be reached. -/

/-- `int(value)` meets an infinity: a float that JSON reads as one, or writes as one. -/
def isInfinite : Json → Bool
  | .float (.infinity _) => true
  | .float (.decimal d) => (rt.intOfFloat d).isNone
  | _ => false

/-- The first thing in a citation that cannot be used is an infinite line number. -/
def EndlessReference : Json → Prop
  | .obj reference =>
    (Json.lookup (str "source_id") reference).isSome = true ∧
      (Json.lookup (str "content_sha256") reference).isSome = true ∧
      ∃ v, Json.lookup (str "line_start") reference = some v ∧
        (isInfinite rt v = true ∨ (∃ z, intValue rt v = .ok z) ∧
          ∃ u, Json.lookup (str "line_end") reference = some u ∧ isInfinite rt u = true)
  | _ => False

/-- The first thing in an item that cannot be used is an infinite line number of a citation. -/
def EndlessItem (v2 : Bool) : Json → Prop
  | .obj item =>
    (∃ typed, buildTyped rt item = .ok typed ∧
      ¬ (typed.map (·.kind) = some .commandTargetsDiffer ∧ v2 = false)) ∧
    (∀ p ∈ item, p.1 ∈ producerKeys) ∧
    (Json.lookup (str "claim") item).isSome = true ∧
    (Json.lookup (str "scope") item).isSome = true ∧
    ∃ pre reference post, getOrNull item "evidence" = .arr (pre ++ reference :: post) ∧
      (∀ r ∈ pre, ∃ ref, buildReference rt r = .ok ref) ∧ EndlessReference rt reference
  | _ => False

/-- The first thing in a list of items that cannot be used is an infinite line number. -/
def EndlessBlock (v2 : Bool) (payload : List Json) : Prop :=
  ∃ pre item post, payload = pre ++ item :: post ∧
    (∀ p ∈ pre, ∃ entry, buildEntry rt v2 p = .ok entry) ∧ EndlessItem rt v2 item

/-- Reading the block of a text runs into something that is not caught: an integer or a container
that `json.loads` gives up on, or an infinite line number. -/
def Escapes (text : Str) : Prop :=
  ∃ v2 body, searchBlock true text = some (v2, body) ∧
    (Json.trouble rt.nesting body ≠ none ∨
      ∃ payload, Json.loads body = some (.arr payload) ∧ EndlessBlock rt v2 payload)

/-- The text is read to an end, and a block with an item that is not a finding is malformed. -/
def FailsClosed (text : Str) : Prop :=
  ∃ parsed, structuredFindings rt text = .ok parsed ∧
    ∀ v2 body payload, searchBlock true text = some (v2, body) →
      Json.loads body = some (.arr payload) →
      (∃ item ∈ payload, ∀ entry, buildEntry rt v2 item ≠ .ok entry) →
        parsed.malformed = true ∧ parsed.entries = []

/-! ## What is caught

The errors that the parser turns into a refusal, and what it returns then. -/

/-- The handler of `structured_findings` catches what is raised. -/
def Caught {α : Type*} (x : Except Exc α) : Prop := ∀ e, x = .error e → e.isUnusable = true

variable {α β : Type}

@[simp] theorem caught_ok (a : α) : Caught (.ok a : Except Exc α) := fun _ h ↦ by cases h

@[simp] theorem caught_error {e : Exc} :
    Caught (.error e : Except Exc α) ↔ e.isUnusable = true :=
  ⟨fun h ↦ h e rfl, fun h e' he ↦ by cases he; exact h⟩

@[simp] theorem caught_pure (a : α) : Caught (pure a : Except Exc α) := caught_ok a

theorem caught_bind {x : Except Exc α} {f : α → Except Exc β} :
    Caught (x >>= f) ↔ Caught x ∧ ∀ a, x = .ok a → Caught (f a) := by
  cases x with
  | ok a => simp [bind, Except.bind]
  | error e =>
    show Caught (Except.error e : Except Exc β) ↔ _
    simp

/-- A list is read up to the first item that raises. -/
theorem caught_mapM {f : α → Except Exc β} {xs : List α} :
    Caught (xs.mapM f) ↔ ¬ ∃ pre x post, xs = pre ++ x :: post ∧
      (∀ y ∈ pre, ∃ b, f y = .ok b) ∧ ¬ Caught (f x) := by
  induction xs with
  | nil => simp
  | cons x xs ih =>
    rw [List.mapM_cons, caught_bind]
    constructor
    · rintro ⟨hx, hrest⟩ ⟨pre, y, post, hsplit, hpre, hy⟩
      cases pre with
      | nil =>
        obtain ⟨rfl, -⟩ := List.cons.inj hsplit
        exact hy hx
      | cons p pre =>
        obtain ⟨rfl, htail⟩ := List.cons.inj hsplit
        obtain ⟨b, hb⟩ := hpre x List.mem_cons_self
        exact ih.mp (caught_bind.mp (hrest b hb)).1
          ⟨pre, y, post, htail, fun z hz ↦ hpre z (List.mem_cons_of_mem _ hz), hy⟩
    · intro h
      refine ⟨by_contra fun hx ↦ h ⟨[], x, xs, rfl, by simp, hx⟩, fun b hb ↦ ?_⟩
      rw [caught_bind]
      refine ⟨ih.mpr ?_, fun _ _ ↦ caught_pure _⟩
      rintro ⟨pre, y, post, rfl, hpre, hy⟩
      refine h ⟨x :: pre, y, post, rfl, fun z hz ↦ ?_, hy⟩
      rcases List.mem_cons.mp hz with rfl | hz
      · exact ⟨b, hb⟩
      · exact hpre z hz

variable {rt}

theorem caught_intValue {v : Json} : Caught (intValue rt v) ↔ isInfinite rt v = false := by
  cases v with
  | float x =>
    cases x with
    | decimal d => cases h : rt.intOfFloat d <;> simp [intValue, isInfinite, h, Exc.isUnusable]
    | nan | infinity => simp [intValue, isInfinite, Exc.isUnusable]
  | str s => cases h : rt.intOfStr s <;> simp [intValue, isInfinite, h, Exc.isUnusable]
  | null | bool | int | arr | obj => simp [intValue, isInfinite, Exc.isUnusable]

theorem caught_requiredStr (payload : Fields) (key : String) :
    Caught (requiredStr rt payload key) := by
  rw [requiredStr]
  split <;> simp [Exc.isUnusable]

theorem exists_requiredStr {payload : Fields} {key : String} :
    (∃ s, requiredStr rt payload key = .ok s) ↔ (Json.lookup (str key) payload).isSome = true := by
  rw [requiredStr]
  cases Json.lookup (str key) payload <;> simp

theorem caught_requiredInt {payload : Fields} {key : String} :
    Caught (requiredInt rt payload key) ↔
      ∀ v, Json.lookup (str key) payload = some v → isInfinite rt v = false := by
  rw [requiredInt]
  cases Json.lookup (str key) payload with
  | none => simp [Exc.isUnusable]
  | some v => simpa using caught_intValue

theorem requiredInt_eq_ok {payload : Fields} {key : String} {z : ℤ} :
    requiredInt rt payload key = .ok z ↔
      ∃ v, Json.lookup (str key) payload = some v ∧ intValue rt v = .ok z := by
  rw [requiredInt]
  cases Json.lookup (str key) payload <;> simp

theorem caught_build (sourceId digest : Str) (lineStart lineEnd : ℤ) (quoted : Str) :
    Caught (EvidenceRef.build sourceId digest lineStart lineEnd quoted) := by
  rw [EvidenceRef.build]
  split <;> simp [Exc.isUnusable]

/-! ## The constructors

None of the constructors raises anything that is not caught, except for a number without an end. -/

theorem caught_buildReference {v : Json} :
    Caught (buildReference rt v) ↔ ¬ EndlessReference rt v := by
  cases v with
  | obj reference =>
    simp only [buildReference, caught_bind, caught_requiredStr, caught_build, true_and,
      implies_true, and_true, caught_requiredInt, requiredInt_eq_ok, EndlessReference]
    constructor
    · rintro h ⟨hsource, hdigest, v, hv, hbad⟩
      obtain ⟨s, hs⟩ := exists_requiredStr.mpr hsource
      obtain ⟨d, hd⟩ := exists_requiredStr.mpr hdigest
      obtain ⟨hstart, hend⟩ := h s hs d hd
      rcases hbad with hbad | ⟨⟨z, hz⟩, u, hu, hbad⟩
      · exact absurd hbad (by simp [hstart v hv])
      · exact absurd hbad (by simp [hend z ⟨v, hv, hz⟩ u hu])
    · intro h s hs d hd
      have hsource := exists_requiredStr.mp ⟨s, hs⟩
      have hdigest := exists_requiredStr.mp ⟨d, hd⟩
      refine ⟨fun v hv ↦ Bool.eq_false_iff.mpr fun hbad ↦ ?_, ?_⟩
      · exact h ⟨hsource, hdigest, v, hv, .inl hbad⟩
      · rintro z ⟨v, hv, hz⟩ u hu
        exact Bool.eq_false_iff.mpr fun hbad ↦
          h ⟨hsource, hdigest, v, hv, .inr ⟨⟨z, hz⟩, u, hu, hbad⟩⟩
  | null | bool | int | float | str | arr => simp [buildReference, EndlessReference, Exc.isUnusable]

theorem caught_checkLimitations (v : Json) : Caught (checkLimitations rt v) := by
  cases v with
  | bool b => cases b <;> simp [checkLimitations, Exc.isUnusable]
  | int z => rw [checkLimitations]; split <;> simp [Exc.isUnusable]
  | float x =>
    cases x with
    | decimal d => rw [checkLimitations]; split <;> simp [Exc.isUnusable]
    | nan | infinity => simp [checkLimitations, Exc.isUnusable]
  | null | str | arr | obj => simp [checkLimitations]

theorem caught_create (claim scope severity rationale : Str) (evidence : List EvidenceRef)
    (command : Str) : Caught (Finding.create claim scope severity rationale evidence command) := by
  rw [Finding.create]
  split
  · simp [Exc.isUnusable]
  · simp [Exc.isUnusable]
  · split <;> simp [Exc.isUnusable]

theorem caught_buildFinding {item : Fields} :
    Caught (buildFinding rt item) ↔ ¬ ((∀ p ∈ item, p.1 ∈ producerKeys) ∧
      (Json.lookup (str "claim") item).isSome = true ∧
      (Json.lookup (str "scope") item).isSome = true ∧
      ∃ pre reference post, getOrNull item "evidence" = .arr (pre ++ reference :: post) ∧
        (∀ r ∈ pre, ∃ ref, buildReference rt r = .ok ref) ∧ EndlessReference rt reference) := by
  rw [buildFinding]
  split
  · rename_i hkeys
    obtain ⟨p, hp, hp'⟩ := List.any_eq_true.mp hkeys
    rw [caught_error]
    refine iff_of_true rfl fun h ↦ ?_
    exact absurd (h.1 p hp) (of_decide_eq_true hp')
  · rename_i hkeys
    have hdeclared : ∀ p ∈ item, p.1 ∈ producerKeys := fun p hp ↦ by_contra fun hn ↦
      hkeys (List.any_eq_true.mpr ⟨p, hp, decide_eq_true hn⟩)
    cases hev : getOrNull item "evidence" with
    | arr references =>
      simp only [caught_bind, caught_requiredStr, caught_mapM, caught_buildReference, not_not,
        caught_checkLimitations, caught_create, true_and, implies_true, and_true,
        Json.arr.injEq]
      constructor
      · rintro h ⟨-, hclaim, hscope, pre, reference, post, hsplit, hpre, hbad⟩
        obtain ⟨c, hc⟩ := exists_requiredStr.mpr hclaim
        obtain ⟨s, hs⟩ := exists_requiredStr.mpr hscope
        exact h c hc s hs ⟨pre, reference, post, hsplit, hpre, hbad⟩
      · rintro h c hc s hs ⟨pre, reference, post, hsplit, hpre, hbad⟩
        exact h ⟨hdeclared, exists_requiredStr.mp ⟨c, hc⟩, exists_requiredStr.mp ⟨s, hs⟩,
          pre, reference, post, hsplit, hpre, hbad⟩
    | null | bool | int | float | str | obj => simp [Exc.isUnusable]

theorem caught_stringTuple (v : Json) : Caught (stringTuple v) := by
  cases v with
  | arr items =>
    rw [stringTuple, caught_mapM]
    rintro ⟨pre, x, post, -, -, hx⟩
    apply hx
    split <;> simp [Exc.isUnusable]
  | null | bool | int | float | str | obj => simp [stringTuple, Exc.isUnusable]

theorem caught_comparison (sourceId text other : Str) (targets otherTargets : List Str) :
    Caught (TypedClaim.comparison sourceId text other targets otherTargets) := by
  rw [TypedClaim.comparison]
  split <;> simp [Exc.isUnusable]

theorem caught_literal (kind : ClaimKind) (sourceId text : Str) :
    Caught (TypedClaim.literal kind sourceId text) := by
  rw [TypedClaim.literal]
  split <;> simp [Exc.isUnusable]

theorem caught_buildTypedClaim (v : Json) : Caught (buildTypedClaim rt v) := by
  cases v with
  | obj payload =>
    rw [buildTypedClaim]
    split
    · simp [Exc.isUnusable]
    · simp only [caught_bind, caught_requiredStr, caught_stringTuple, caught_comparison,
        caught_pure, implies_true, and_self]
    · simp only [caught_bind, caught_requiredStr, caught_literal, caught_pure, implies_true,
        and_self]
  | null | bool | int | float | str | arr => simp [buildTypedClaim, Exc.isUnusable]

theorem caught_buildTyped (item : Fields) : Caught (buildTyped rt item) := by
  rw [buildTyped, caught_bind]
  refine ⟨caught_buildTypedClaim _, fun typed _ ↦ ?_⟩
  split <;> simp [Exc.isUnusable]

theorem caught_buildCondition (v : Json) : Caught (buildCondition rt v) := by
  cases v with
  | obj payload =>
    rw [buildCondition]
    split
    · simp [Exc.isUnusable]
    · simp only [caught_bind, caught_requiredStr, caught_pure, implies_true, and_true, true_and]
      intro sourceId _ text _
      rw [ClaimCondition.build]
      split <;> simp [Exc.isUnusable]
  | null | bool | int | float | str | arr => simp [buildCondition, Exc.isUnusable]

/-- One item raises something that is not caught exactly for an infinite line number. -/
theorem caught_buildEntry {v2 : Bool} {v : Json} :
    Caught (buildEntry rt v2 v) ↔ ¬ EndlessItem rt v2 v := by
  cases v with
  | obj item =>
    rw [buildEntry, caught_bind]
    constructor
    · rintro ⟨-, h⟩ ⟨⟨typed, htyped, hversion⟩, hfinding⟩
      have hrest := h typed htyped
      rw [if_neg hversion, caught_bind] at hrest
      exact caught_buildFinding.mp hrest.1 hfinding
    · intro h
      refine ⟨caught_buildTyped item, fun typed htyped ↦ ?_⟩
      split
      · simp [Exc.isUnusable]
      · rename_i hversion
        simp only [caught_bind, caught_buildCondition, caught_pure, implies_true, and_true]
        exact caught_buildFinding.mpr fun hfinding ↦ h ⟨⟨typed, htyped, hversion⟩, hfinding⟩
  | null | bool | int | float | str | arr => simp [buildEntry, EndlessItem, Exc.isUnusable]

theorem caught_items {v2 : Bool} {payload : List Json} :
    Caught (payload.mapM (buildEntry rt v2)) ↔ ¬ EndlessBlock rt v2 payload := by
  simp only [caught_mapM, caught_buildEntry, not_not, EndlessBlock]

/-! ## The parser

A block is read, or it is malformed, or something escapes; and when that is. -/

/-- What the parser makes of a block, once its text has been read. -/
theorem structuredFindings_of_loads {text body : Str} {v2 : Bool} {payload : List Json}
    (hs : searchBlock true text = some (v2, body)) (ht : Json.trouble rt.nesting body = none)
    (hl : Json.loads body = some (.arr payload)) :
    structuredFindings rt text =
      match payload.mapM (buildEntry rt v2) with
      | .ok entries => .ok { entries, present := true }
      | .error e =>
        if e.isUnusable then .ok { malformed := true, present := true } else .error e := by
  cases hentries : payload.mapM (buildEntry rt v2) with
  | ok entries => simp only [structuredFindings, hs, Json.decode_of_loads ht hl, hentries]
  | error e => simp only [structuredFindings, hs, Json.decode_of_loads ht hl, hentries]

/-- A block that is not a list of items is reported as malformed. -/
theorem structuredFindings_of_not_list {text body : Str} {v2 : Bool}
    (hs : searchBlock true text = some (v2, body)) (ht : Json.trouble rt.nesting body = none)
    (hl : ∀ payload, Json.loads body ≠ some (.arr payload)) :
    structuredFindings rt text = .ok { malformed := true, present := true } := by
  rw [structuredFindings, hs]
  simp only [Json.decode, ht]
  cases hv : Json.loads body with
  | none => rfl
  | some v =>
    cases v with
    | arr payload => exact absurd hv (hl payload)
    | null | bool | int | float | str | obj => rfl

/-- `structured_findings` raises exactly where something escapes. -/
theorem structuredFindings_returns_iff {text : Str} :
    (∃ parsed, structuredFindings rt text = .ok parsed) ↔ ¬ Escapes rt text := by
  cases hs : searchBlock true text with
  | none => simp [structuredFindings, hs, Escapes]
  | some p =>
    obtain ⟨v2, body⟩ := p
    have hescapes : Escapes rt text ↔ Json.trouble rt.nesting body ≠ none ∨
        ∃ payload, Json.loads body = some (.arr payload) ∧ EndlessBlock rt v2 payload := by
      simp [Escapes, hs]
    rw [hescapes, not_or, not_not]
    cases ht : Json.trouble rt.nesting body with
    | some t =>
      simp only [structuredFindings, hs, Json.decode_of_trouble ht]
      cases t <;> simp
    | none =>
      by_cases hl : ∃ payload, Json.loads body = some (.arr payload)
      · obtain ⟨payload, hl⟩ := hl
        rw [structuredFindings_of_loads hs ht hl]
        simp only [hl, Option.some.injEq, Json.arr.injEq, exists_eq_left', true_and,
          ← caught_items]
        cases payload.mapM (buildEntry rt v2) with
        | ok entries => simp
        | error e => cases he : e.isUnusable <;> simp [he]
      · rw [structuredFindings_of_not_list hs ht fun payload h ↦ hl ⟨payload, h⟩]
        simp only [not_exists] at hl
        simp [hl]

/-- **The parser is total and fails closed** exactly where nothing escapes: it returns on every
text whose block holds no over-long integer, no over-deep container and no infinite line number
that is reached, and there a block with an unusable item is malformed and has no entries. -/
theorem failsClosed_iff (text : Str) : FailsClosed rt text ↔ ¬ Escapes rt text := by
  rw [← structuredFindings_returns_iff]
  refine ⟨fun ⟨parsed, h, _⟩ ↦ ⟨parsed, h⟩, fun ⟨parsed, h⟩ ↦ ⟨parsed, h, ?_⟩⟩
  rintro v2 body payload hs hl ⟨item, hitem, hbad⟩
  have ht : Json.trouble rt.nesting body = none := by
    by_contra ht
    exact structuredFindings_returns_iff.mp ⟨parsed, h⟩ ⟨v2, body, hs, .inl ht⟩
  rw [structuredFindings_of_loads hs ht hl] at h
  cases hm : payload.mapM (buildEntry rt v2) with
  | ok entries =>
    obtain ⟨entry, -, hentry⟩ := Except.result_of_mapM hm item hitem
    exact absurd hentry (hbad entry)
  | error e =>
    rw [hm] at h
    simp only at h
    split at h
    · obtain rfl := Except.ok.inj h
      exact ⟨rfl, rfl⟩
    · exact absurd h (by simp)

/-! ## A line number without an end

A block in which `int` meets an infinity, which nothing catches. -/

/-- One finding with a citation that starts at the line `Infinity`. -/
def endlessItem : Json :=
  .obj [(str "claim", .str (str "c")), (str "scope", .str (str "s")),
    (str "evidence", .arr [.obj [(str "source_id", .str (str "i")),
      (str "content_sha256", .str (str "d")), (str "line_start", .float (.infinity false)),
      (str "line_end", .int 1), (str "quoted", .str (str "q"))]])]

/-- A block that holds the finding whose citation goes on without end. -/
def endlessBlock : Str :=
  fence ++ FINDINGS_FENCE ++ [lf] ++ Json.render (.arr [endlessItem]) ++ [lf] ++ fence ++ [lf]

/-- `int(float("inf"))` gets out of the parser. -/
theorem endlessBlock_raises : ¬ ∀ text, FailsClosed asciiRuntime text := by
  intro h
  obtain ⟨parsed, hparsed, -⟩ := h endlessBlock
  have hraised : (match structuredFindings asciiRuntime endlessBlock with
      | .ok _ => true
      | .error _ => false) = false := by decide +kernel
  rw [hparsed] at hraised
  exact absurd hraised (by simp)

end AtlasCore
