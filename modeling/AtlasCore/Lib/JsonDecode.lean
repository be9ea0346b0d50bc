import AtlasCore.Lib.Json

/-!
# What `json.loads` raises

A text that is not JSON is a `JSONDecodeError`, and that is what callers expect.  Two other
exceptions come out of the same call: the `ValueError` of `int` for a numeral of more than 4300
digits, and the `RecursionError` of a container inside too many others.  Both are raised where the
scanner stands when it meets the numeral or the bracket, so a text that stops being JSON further
on raises them all the same, and one that stopped before does not.
-/

set_option autoImplicit false

namespace Py

namespace Json

/-- What the scanner gives up on, before it knows whether the text is JSON. -/
inductive Trouble where
  /-- The `ValueError` of `int`. -/
  | tooLong
  /-- `RecursionError`. -/
  | tooDeep
  deriving DecidableEq

/-- What `json.loads` raises: that the text is none, or what the scanner gave up on. -/
inductive LoadError where
  /-- `JSONDecodeError`. -/
  | malformed
  | gaveUp (trouble : Trouble)
  deriving DecidableEq

/-- A text starts with an integer that `int` does not convert. -/
def overlong (s : Str) : Bool :=
  match scanWhole s with
  | none => false
  | some (ds, r) =>
    decide ((scanFrac r).1 = []) && (scanExp (scanFrac r).2).1.isNone && decide
      (maxDigits < ds.length)

mutual
/-- What is raised while the value at the start of a text is read, other than `JSONDecodeError`.
`depth` is how many containers may still be opened; `fuel` bounds the number of values. -/
def troubleValue : ℕ → ℕ → Str → Option Trouble
  | _, 0, _ => none
  | _, _ + 1, [] => none
  | depth, fuel + 1, c :: rest =>
    if c = quote then none
    else if c = ch '[' ∨ c = ch '{' then
      match depth with
      | 0 => some .tooDeep
      | depth + 1 =>
        if c = ch '[' then
          match skipWs rest with
          | [] => none
          | d :: after => if d = ch ']' then none else troubleItems depth fuel (d :: after)
        else
          match skipWs rest with
          | [] => none
          | d :: after => if d = ch '}' then none else troubleFields depth fuel (d :: after)
    else if overlong ((dropPrefix (Py.str "-") (c :: rest)).getD (c :: rest)) then some .tooLong
    else none

/-- The same of the items of a list. -/
def troubleItems : ℕ → ℕ → Str → Option Trouble
  | _, 0, _ => none
  | depth, fuel + 1, s =>
    (troubleValue depth fuel s).orElse fun _ ↦
      match scanValue fuel s with
      | none => none
      | some (_, r) =>
        match skipWs r with
        | [] => none
        | c :: after => if c = ch ',' then troubleItems depth fuel (skipWs after) else none

/-- The same of the fields of a dict. -/
def troubleFields : ℕ → ℕ → Str → Option Trouble
  | _, 0, _ => none
  | _, _ + 1, [] => none
  | depth, fuel + 1, q :: s =>
    if q ≠ quote then none
    else match scanString (.text none) s with
      | none => none
      | some (_, r) =>
        match skipWs r with
        | [] => none
        | colon :: r1 =>
          if colon ≠ ch ':' then none
          else (troubleValue depth fuel (skipWs r1)).orElse fun _ ↦
            match scanValue fuel (skipWs r1) with
            | none => none
            | some (_, r2) =>
              match skipWs r2 with
              | [] => none
              | c :: after => if c = ch ',' then troubleFields depth fuel (skipWs after) else none
end

/-- The first over-long integer or over-deep container that the scanner reaches in a text.  An open
bracket takes two steps, and nothing says that it is closed. -/
def trouble (nesting : ℕ) (s : Str) : Option Trouble :=
  troubleValue nesting (2 * s.length + 2) (skipWs s)

/-- `json.loads(s)` with what it raises, where `nesting` containers may be open at once. -/
def decode (nesting : ℕ) (s : Str) : Except LoadError Json :=
  match trouble nesting s with
  | some t => .error (.gaveUp t)
  | none =>
    match loads s with
    | some v => .ok v
    | none => .error .malformed

theorem decode_of_trouble {nesting : ℕ} {s : Str} {t : Trouble} (h : trouble nesting s = some t) :
    decode nesting s = .error (.gaveUp t) := by rw [decode, h]

theorem decode_of_loads {nesting : ℕ} {s : Str} (h : trouble nesting s = none) {v : Json}
    (hv : loads s = some v) : decode nesting s = .ok v := by rw [decode, h, hv]

/-- Brackets that nest too deep are met before it is known whether they are closed. -/
theorem loads_of_decode {nesting : ℕ} {s : Str} {v : Json} (h : decode nesting s = .ok v) :
    loads s = some v := by
  rw [decode] at h
  split at h
  · cases h
  · split at h
    · rename_i hl
      obtain rfl := Except.ok.inj h
      exact hl
    · cases h

theorem troubleValue_brackets : ∀ {depth fuel n : ℕ}, depth < n → 2 * depth < fuel →
    troubleValue depth fuel (List.replicate n (ch '[')) = some .tooDeep := by
  intro depth
  induction depth with
  | zero =>
    intro fuel n hn hfuel
    obtain ⟨n, rfl⟩ := Nat.exists_eq_add_of_lt hn
    obtain ⟨fuel, rfl⟩ := Nat.exists_eq_add_of_lt hfuel
    rw [List.replicate_succ, troubleValue, if_neg (by decide), if_pos (.inl rfl)]
  | succ depth ih =>
    intro fuel n hn hfuel
    obtain ⟨n, rfl⟩ : ∃ m, n = m + 2 := ⟨n - 2, by omega⟩
    obtain ⟨fuel, rfl⟩ : ∃ m, fuel = m + 2 := ⟨fuel - 2, by omega⟩
    have hinner := ih (show depth < n + 1 by omega) (show 2 * depth < fuel by omega)
    have hbracket :
        skipWs (List.replicate (n + 1) (ch '[')) = ch '[' :: List.replicate n (ch '[') :=
      rfl
    rw [List.replicate_succ, troubleValue, if_neg (by decide), if_pos (.inl rfl), if_pos rfl,
      hbracket]
    dsimp only
    rw [if_neg (by decide), troubleItems, ← List.replicate_succ, hinner]
    rfl

/-- **What nests too deep is not read.** -/
theorem decode_brackets {nesting n : ℕ} (h : nesting < n) :
    decode nesting (List.replicate n (ch '[')) = .error (.gaveUp .tooDeep) := by
  refine decode_of_trouble ?_
  have hbrackets : skipWs (List.replicate n (ch '[')) = List.replicate n (ch '[') := by
    cases n <;> rfl
  rw [trouble, List.length_replicate, hbrackets]
  exact troubleValue_brackets h (by omega)

/-! ## What is not JSON

The texts at which the scanner stops at once. -/

/-- The characters a value starts with; on any other the scanner stops. -/
def startsValue (c : CodePoint) : Bool :=
  [quote, ch '[', ch '{', ch 'n', ch 't', ch 'f', ch 'N', ch 'I', ch '-'].contains c ||
    (digitOf c).isSome

theorem dropPrefix_ne {c d : CodePoint} {lit : Str} (hlit : lit.head? = some d) (h : c ≠ d)
    (s : Str) : dropPrefix lit (c :: s) = none := by
  cases lit with
  | nil => exact absurd hlit (by simp)
  | cons e lit =>
    obtain rfl := Option.some.inj hlit
    rw [dropPrefix, if_neg (Ne.symm h)]

theorem scanValue_other {c : CodePoint} (h : startsValue c = false) (fuel : ℕ) (s : Str) :
    scanValue fuel (c :: s) = none := by
  cases fuel with
  | zero => rfl
  | succ fuel =>
    rw [startsValue, Bool.or_eq_false_iff, List.contains_eq_mem, decide_eq_false_iff_not] at h
    simp only [List.mem_cons, List.not_mem_nil, or_false, not_or, Option.isSome_eq_false_iff,
      Option.isNone_iff_eq_none] at h
    obtain ⟨⟨hq, hb, hc, hn, ht, hf, hN, hI, hm⟩, hd⟩ := h
    rw [scanValue, if_neg hq, if_neg hb, if_neg hc, scanAtom, dropPrefix_ne (by decide) hn,
      dropPrefix_ne (by decide) ht, dropPrefix_ne (by decide) hf, dropPrefix_ne (by decide) hN,
      dropPrefix_ne (by decide) hI, dropPrefix_ne (by decide) hm, dropPrefix_ne (by decide) hm]
    simp only [scanNumber, scanWhole, hd]

/-- A text whose first character starts no value is not JSON. -/
theorem loads_other {s : Str} (h : ∀ c rest, skipWs s = c :: rest → startsValue c = false) :
    loads s = none := by
  rw [loads]
  cases hs : skipWs s with
  | nil => rfl
  | cons c rest => rw [scanValue_other (h c rest hs)]

/-- White space alone is not JSON, in whatever sense it is white. -/
theorem loads_blank {s : Str} (h : isBlank s = true) : loads s = none := by
  refine loads_other fun c rest hs ↦ ?_
  have hc : c ∈ s := by
    have hmem : c ∈ skipWs s := by rw [hs]; exact List.mem_cons_self
    exact (List.dropWhile_sublist _).mem hmem
  have hspace : isSpace c = true := List.all_eq_true.mp h c hc
  by_contra hstart
  rw [Bool.not_eq_false, startsValue, Bool.or_eq_true, List.contains_iff_mem] at hstart
  rcases hstart with hmem | hdigit
  · simp only [List.mem_cons, List.not_mem_nil, or_false] at hmem
    rcases hmem with rfl | rfl | rfl | rfl | rfl | rfl | rfl | rfl | rfl <;>
      exact absurd hspace (by decide)
  · rw [digitOf] at hdigit
    split at hdigit
    · rename_i hrange
      simp only [isSpace, Bool.or_eq_true, Bool.and_eq_true, decide_eq_true_eq,
        beq_iff_eq] at hspace
      omega
    · exact absurd hdigit (by simp)

end Json

end Py
