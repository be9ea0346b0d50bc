import AtlasCore.Lib.Text
import Mathlib.Data.List.Dedup
import Mathlib.Data.List.Sort

/-!
# JSON as Python's `json` writes and reads it

The values, `json.dumps(v, ensure_ascii=False, sort_keys=True)` and `json.loads`.

* A dict is a list of fields in insertion order; `Json.WF` says that no key occurs twice.  Two
  dicts with the same fields in another order are equal in Python, so equality of values is
  equality of `canon`, which is also what `sort_keys=True` writes.
* A float is known by the text `repr` writes for it (`Decimal`, or one of the three constants that
  `json` accepts beyond the standard).
* An integer of more than 4300 digits is refused in both directions, as `int` and `str` refuse it.

`ensure_ascii=False` makes the writer escape as little as possible: the quote, the backslash and
the control characters below the space, and nothing else.
-/

set_option autoImplicit false

namespace Py

/-! ## Values

JSON as Python has it: the integers are exact, the floats are kept as they are written, and a dict
has its order. -/

/-- The text of a finite float: digits before the point, after it, and the exponent. -/
structure Decimal where
  neg : Bool
  whole : ℕ
  frac : List (Fin 10)
  exp : Option (Bool × Fin 10 × List (Fin 10))
  /-- Otherwise it would be the text of an integer. -/
  isFloat : frac ≠ [] ∨ exp ≠ none

/-- A float: a decimal as it is written, or one of the three values that have no number. -/
inductive Float where
  | decimal (d : Decimal)
  | nan
  | infinity (neg : Bool)

/-- A JSON value, a `dict` as its fields in insertion order. -/
inductive Json where
  | null
  | bool (b : Bool)
  | int (z : ℤ)
  | float (f : Float)
  | str (s : Str)
  | arr (items : List Json)
  | obj (fields : List (Str × Json))

/-- The fields of a `dict`, in the order they were put in. -/
abbrev Fields := List (Str × Json)

namespace Json

/-- The value under a key: `d.get(key)`, the first of that key. -/
def lookup (key : Str) : Fields → Option Json
  | [] => none
  | (k, v) :: rest => if k = key then some v else lookup key rest

/-- `d[key] = value`: an existing key keeps its place. -/
def setField (key : Str) (value : Json) : Fields → Fields
  | [] => [(key, value)]
  | (k, v) :: rest => if k = key then (k, value) :: rest else (k, v) :: setField key value rest

/-- `dict(pairs)`: a repeated key keeps its first place and its last value. -/
def dictOf (pairs : Fields) : Fields := pairs.foldl (fun d p ↦ setField p.1 p.2 d) []

/-! ## Properties of every part

`Every pInt pStr v` asks `pInt` of every integer and `pStr` of every string and key in `v`. -/

mutual
/-- Every integer satisfies `pInt`, every string and key `pStr`. -/
def every (pInt : ℤ → Bool) (pStr : Str → Bool) : Json → Bool
  | null => true
  | bool _ => true
  | int z => pInt z
  | float _ => true
  | str s => pStr s
  | arr items => everyItem pInt pStr items
  | obj fields => everyField pInt pStr fields

/-- `every` of the items of a list: each of them satisfies it. -/
def everyItem (pInt : ℤ → Bool) (pStr : Str → Bool) : List Json → Bool
  | [] => true
  | v :: rest => every pInt pStr v && everyItem pInt pStr rest

/-- `every` of the fields of a dict, their keys included. -/
def everyField (pInt : ℤ → Bool) (pStr : Str → Bool) : Fields → Bool
  | [] => true
  | (k, v) :: rest => pStr k && every pInt pStr v && everyField pInt pStr rest
end

mutual
/-- No dict in the value has a key twice. -/
def WF : Json → Prop
  | null => True
  | bool _ => True
  | int _ => True
  | float _ => True
  | str _ => True
  | arr items => WFItems items
  | obj fields => (fields.map Prod.fst).Nodup ∧ WFFields fields

/-- `WF` of the items of a list: each of them is. -/
def WFItems : List Json → Prop
  | [] => True
  | v :: rest => WF v ∧ WFItems rest

/-- `WF` of the values of a dict: each of them is. -/
def WFFields : Fields → Prop
  | [] => True
  | (_, v) :: rest => WF v ∧ WFFields rest
end

mutual
/-- Whether a value is `WF`, which goes through all of it. -/
def decideWF : (v : Json) → Decidable v.WF
  | null | bool _ | int _ | float _ | str _ => .isTrue trivial
  | arr items => decideWFItems items
  | obj fields => @instDecidableAnd _ _ _ (decideWFFields fields)

/-- Whether the items of a list are, one after the other. -/
def decideWFItems : (items : List Json) → Decidable (WFItems items)
  | [] => .isTrue trivial
  | v :: rest => @instDecidableAnd _ _ (decideWF v) (decideWFItems rest)

/-- Whether the values of a dict are, one after the other. -/
def decideWFFields : (fields : Fields) → Decidable (WFFields fields)
  | [] => .isTrue trivial
  | (_, v) :: rest => @instDecidableAnd _ _ (decideWF v) (decideWFFields rest)
end

instance (v : Json) : Decidable v.WF := decideWF v

/-! ## The order of keys

`sort_keys=True` orders by code point.  Two values with one canonical form are written as one
text. -/

/-- `a <= b` for texts: by code point, and a prefix first. -/
def keyLe : Str → Str → Bool
  | [], _ => true
  | _ :: _, [] => false
  | c :: s, d :: t => c < d || (c == d && keyLe s t)

theorem keyLe_total : ∀ a b : Str, keyLe a b = true ∨ keyLe b a = true
  | [], _ => .inl (by rw [keyLe])
  | _ :: _, [] => .inr (by rw [keyLe])
  | c :: s, d :: t => by
    rcases lt_trichotomy c d with h | rfl | h
    · exact .inl (by simp [keyLe, h])
    · simpa [keyLe] using keyLe_total s t
    · exact .inr (by simp [keyLe, h])

theorem keyLe_trans : ∀ {a b c : Str}, keyLe a b = true → keyLe b c = true → keyLe a c = true
  | [], _, _, _, _ => by rw [keyLe]
  | _ :: _, [], _, h, _ => absurd h (by simp [keyLe])
  | _ :: _, _ :: _, [], _, h => absurd h (by simp [keyLe])
  | x :: a, y :: b, z :: c, h1, h2 => by
    simp only [keyLe, Bool.or_eq_true, Bool.and_eq_true, decide_eq_true_eq, beq_iff_eq] at h1 h2 ⊢
    rcases h1 with h1 | ⟨rfl, h1⟩ <;> rcases h2 with h2 | ⟨rfl, h2⟩
    · exact .inl (lt_trans h1 h2)
    · exact .inl h1
    · exact .inl h2
    · exact .inr ⟨rfl, keyLe_trans h1 h2⟩

theorem keyLe_antisymm : ∀ {a b : Str}, keyLe a b = true → keyLe b a = true → a = b
  | [], [], _, _ => rfl
  | [], _ :: _, _, h => absurd h (by simp [keyLe])
  | _ :: _, [], h, _ => absurd h (by simp [keyLe])
  | x :: a, y :: b, h1, h2 => by
    simp only [keyLe, Bool.or_eq_true, Bool.and_eq_true, decide_eq_true_eq, beq_iff_eq] at h1 h2
    rcases h1 with h1 | ⟨rfl, h1⟩
    · rcases h2 with h2 | ⟨rfl, -⟩
      · exact absurd h1 (lt_asymm h2)
      · exact absurd h1 (lt_irrefl _)
    · rw [keyLe_antisymm h1 (h2.resolve_left (lt_irrefl _)).2]

/-- A set that is sorted equals a list that is sorted when the list holds the set, each item
once. -/
theorem sort_dedup_eq_sort {xs ys : List Str} :
    xs.dedup.insertionSort (keyLe · ·) = ys.insertionSort (keyLe · ·) ↔
      ys.Nodup ∧ ∀ x, x ∈ xs ↔ x ∈ ys := by
  constructor
  · intro h
    have hperm : xs.dedup.Perm ys := by
      refine (List.perm_insertionSort (keyLe · ·) _).symm.trans ?_
      rw [h]
      exact List.perm_insertionSort _ _
    exact ⟨hperm.nodup_iff.mp (List.nodup_dedup xs),
      fun x ↦ by rw [← hperm.mem_iff, List.mem_dedup]⟩
  · rintro ⟨hnodup, hmem⟩
    have hperm : xs.dedup.Perm ys := (List.perm_ext_iff_of_nodup (List.nodup_dedup xs) hnodup).mpr
      fun x ↦ by rw [List.mem_dedup, hmem]
    have : Std.Total fun a b : Str ↦ keyLe a b = true := ⟨keyLe_total⟩
    have : IsTrans Str fun a b ↦ keyLe a b = true := ⟨fun _ _ _ ↦ keyLe_trans⟩
    refine List.Perm.eq_of_pairwise (fun _ _ _ _ ↦ keyLe_antisymm)
      (List.pairwise_insertionSort _ _) (List.pairwise_insertionSort _ _) ?_
    exact (List.perm_insertionSort _ _).trans (hperm.trans (List.perm_insertionSort _ _).symm)

/-- Fields in the order of their keys, as code points are ordered. -/
def fieldLe (a b : Str × Json) : Prop := keyLe a.1 b.1 = true

instance : DecidableRel fieldLe := fun a b ↦ inferInstanceAs (Decidable (keyLe a.1 b.1 = true))

instance : Std.Total fieldLe := ⟨fun a b ↦ keyLe_total a.1 b.1⟩

instance : IsTrans (Str × Json) fieldLe := ⟨fun _ _ _ h1 h2 ↦ keyLe_trans h1 h2⟩

/-- `sorted(d.items())` as the writer uses it; the keys of a dict are distinct, so their values are
not compared. -/
def sortFields (fields : Fields) : Fields := fields.insertionSort fieldLe

mutual
/-- The value with the fields of every dict in the order of their keys. -/
def canon : Json → Json
  | null => null
  | bool b => bool b
  | int z => int z
  | float f => float f
  | str s => str s
  | arr items => arr (canonItems items)
  | obj fields => obj (sortFields (canonFields fields))

/-- `canon` of every item; a list keeps its order. -/
def canonItems : List Json → List Json
  | [] => []
  | v :: rest => canon v :: canonItems rest

/-- `canon` of every value; the order of the fields is left to `canon`. -/
def canonFields : Fields → Fields
  | [] => []
  | (k, v) :: rest => (k, canon v) :: canonFields rest
end

/-! ## Writing

`json.dumps` with its default separators. -/

/-- The quote, which begins and ends a string. -/
def quote : CodePoint := 0x22

/-- The backslash, which begins an escape. -/
def backslash : CodePoint := 0x5C

/-- What stands for a character inside a JSON string. -/
def escapeChar (c : CodePoint) : Str :=
  if c = quote then [backslash, quote]
  else if c = backslash then [backslash, backslash]
  else if c = 10 then [backslash, ch 'n']
  else if c = 13 then [backslash, ch 'r']
  else if c = 9 then [backslash, ch 't']
  else if c = 12 then [backslash, ch 'f']
  else if c = 8 then [backslash, ch 'b']
  else if h : c.val < 32 then
    [backslash, ch 'u', ch '0', ch '0', hexDigit ⟨c.val / 16, by omega⟩,
      hexDigit ⟨c.val % 16, by omega⟩]
  else [c]

/-- A text with its characters escaped, as the inside of a string. -/
def escape : Str → Str
  | [] => []
  | c :: rest => escapeChar c ++ escape rest

/-- A JSON string: the escaped text between two quotes. -/
def renderString (s : Str) : Str := quote :: escape s ++ [quote]

/-- The exponent of a float, which always has a sign. -/
def renderExp : Option (Bool × Fin 10 × List (Fin 10)) → Str
  | none => []
  | some (neg, d, ds) => ch 'e' :: (if neg then ch '-' else ch '+') :: (d :: ds).map digitChar

/-- What follows the point of a float; without digits there is no point. -/
def renderFrac (frac : List (Fin 10)) : Str :=
  if frac = [] then [] else ch '.' :: frac.map digitChar

/-- The text of a finite float, from its sign to its exponent. -/
def renderDecimal (d : Decimal) : Str :=
  (if d.neg then [ch '-'] else []) ++ decimal d.whole ++ renderFrac d.frac ++ renderExp d.exp

/-- The text of a float; what is no number has a word. -/
def renderFloat : Float → Str
  | .decimal d => renderDecimal d
  | .nan => Py.str "NaN"
  | .infinity false => Py.str "Infinity"
  | .infinity true => Py.str "-Infinity"

mutual
/-- The text of a value, its dicts in the order they have. -/
def render : Json → Str
  | null => Py.str "null"
  | bool true => Py.str "true"
  | bool false => Py.str "false"
  | int z => decimalInt z
  | float f => renderFloat f
  | str s => renderString s
  | arr [] => Py.str "[]"
  | arr (v :: rest) => ch '[' :: (render v ++ renderItems rest)
  | obj [] => Py.str "\x7b\x7d"
  | obj ((k, v) :: rest) =>
    ch '{' :: (renderString k ++ Py.str ": " ++ (render v ++ renderFields rest))

/-- The rest of a list, from the separator on. -/
def renderItems : List Json → Str
  | [] => [ch ']']
  | v :: rest => Py.str ", " ++ (render v ++ renderItems rest)

/-- The rest of a dict, from the separator on. -/
def renderFields : Fields → Str
  | [] => [ch '}']
  | (k, v) :: rest =>
    Py.str ", " ++ (renderString k ++ Py.str ": " ++ (render v ++ renderFields rest))
end

/-- How many digits `int` and `str` convert; beyond that both raise. -/
def maxDigits : ℕ := 4300

/-- `str` converts the integer: it has no more digits than that. -/
def intFits (z : ℤ) : Bool := (digits z.natAbs).length ≤ maxDigits

/-- `json.dumps(v, ensure_ascii=False, sort_keys=True)`, or `none` where it raises. -/
def dumps (v : Json) : Option Str :=
  if every intFits (fun _ ↦ true) v then some (render (canon v)) else none

/-! ## Reading

`json.loads`, from left to right; what is read of a text and what is left of it. -/

/-- The white space JSON knows, which is less than `str.isspace` does. -/
def isWs (c : CodePoint) : Bool := c.val == 32 || c.val == 9 || c.val == 10 || c.val == 13

/-- What follows the white space, which JSON allows between any two tokens. -/
def skipWs (s : Str) : Str := s.dropWhile isWs

/-- What follows a literal, if the text starts with it. -/
def dropPrefix : Str → Str → Option Str
  | [], s => some s
  | _ :: _, [] => none
  | c :: lit, d :: s => if c = d then dropPrefix lit s else none

/-- The value of a hexadecimal digit, of either case. -/
def hexValue (c : CodePoint) : Option ℕ :=
  if 48 ≤ c.val ∧ c.val < 58 then some (c.val - 48)
  else if 97 ≤ c.val ∧ c.val < 103 then some (c.val - 87)
  else if 65 ≤ c.val ∧ c.val < 71 then some (c.val - 55)
  else none

/-- The character a one-letter escape stands for, if it stands for one. -/
def unescape (c : CodePoint) : Option CodePoint :=
  if c = quote then some quote
  else if c = backslash then some backslash
  else if c = ch '/' then some (ch '/')
  else if c = ch 'b' then some 8
  else if c = ch 'f' then some 12
  else if c = ch 'n' then some 10
  else if c = ch 'r' then some 13
  else if c = ch 't' then some 9
  else none

/-- Where the reader of a string is.  A high surrogate that an escape denoted is held back, because
an escaped low surrogate right after it makes one character of the two. -/
inductive InString where
  /-- Between characters. -/
  | text (high : Option (Fin 0x400))
  /-- After a backslash. -/
  | escape (high : Option (Fin 0x400))
  /-- In a `\u` escape: `due + 1` digits are still due, `acc` is the value so far. -/
  | hex (high : Option (Fin 0x400)) (due : ℕ) (acc : ℕ)

/-- The surrogate that was held back, as a character. -/
def heldBack : Option (Fin 0x400) → Str
  | none => []
  | some h => [⟨0xD800 + h.val, by omega⟩]

/-- The end of a `\u` escape: what is written now, and what is held back. -/
def hexDone (high : Option (Fin 0x400)) (v : ℕ) : Str × Option (Fin 0x400) :=
  match high with
  | some h =>
    if 0xDC00 ≤ v ∧ v < 0xE000 then
      ([⟨(0x10000 + h.val * 0x400 + (v - 0xDC00)) % 0x110000, Nat.mod_lt _ (by decide)⟩], none)
    else if hv : 0xD800 ≤ v ∧ v < 0xDC00 then (heldBack high, some ⟨v - 0xD800, by omega⟩)
    else (heldBack high ++ [⟨v % 0x110000, Nat.mod_lt _ (by decide)⟩], none)
  | none =>
    if hv : 0xD800 ≤ v ∧ v < 0xDC00 then ([], some ⟨v - 0xD800, by omega⟩)
    else ([⟨v % 0x110000, Nat.mod_lt _ (by decide)⟩], none)

/-- Put `pre` in front of the text that was read. -/
def prepend (pre : Str) (r : Option (Str × Str)) : Option (Str × Str) :=
  r.map fun p ↦ (pre ++ p.1, p.2)

/-- The rest of a string after its opening quote, and what follows the closing one. -/
def scanString : InString → Str → Option (Str × Str)
  | _, [] => none
  | .text high, c :: rest =>
    if c = quote then some (heldBack high, rest)
    else if c = backslash then scanString (.escape high) rest
    else if c.val < 32 then none
    else prepend (heldBack high ++ [c]) (scanString (.text none) rest)
  | .escape high, c :: rest =>
    if c = ch 'u' then scanString (.hex high 3 0) rest
    else match unescape c with
      | some d => prepend (heldBack high ++ [d]) (scanString (.text none) rest)
      | none => none
  | .hex high due acc, c :: rest =>
    match hexValue c with
    | none => none
    | some d =>
      match due with
      | 0 => prepend (hexDone high (16 * acc + d)).1
          (scanString (.text (hexDone high (16 * acc + d)).2) rest)
      | due + 1 => scanString (.hex high due (16 * acc + d)) rest

/-- The digits a text starts with, and what follows them. -/
def spanDigits : Str → List (Fin 10) × Str
  | [] => ([], [])
  | c :: rest =>
    match digitOf c with
    | some d => (d :: (spanDigits rest).1, (spanDigits rest).2)
    | none => ([], c :: rest)

/-- The digits of a fraction, if a point and a digit are there. -/
def scanFrac : Str → List (Fin 10) × Str
  | [] => ([], [])
  | c :: rest =>
    if c = ch '.' ∧ (spanDigits rest).1 ≠ [] then spanDigits rest else ([], c :: rest)

/-- The sign of an exponent, and what follows it. -/
def scanSign : Str → Bool × Str
  | [] => (false, [])
  | c :: rest =>
    if c = ch '-' then (true, rest) else if c = ch '+' then (false, rest) else (false, c :: rest)

/-- The exponent, if an `e` and a digit are there. -/
def scanExp : Str → Option (Bool × Fin 10 × List (Fin 10)) × Str
  | [] => (none, [])
  | c :: rest =>
    if c = ch 'e' ∨ c = ch 'E' then
      match spanDigits (scanSign rest).2 with
      | (d :: ds, after) => (some ((scanSign rest).1, d, ds), after)
      | ([], _) => (none, c :: rest)
    else (none, c :: rest)

/-- The digits before the point: a single zero, or digits that do not start with one. -/
def scanWhole (s : Str) : Option (List (Fin 10) × Str) :=
  match s with
  | [] => none
  | c :: rest =>
    match digitOf c with
    | none => none
    | some d => if d = 0 then some ([0], rest) else some (spanDigits (c :: rest))

/-- The number a sign and digits denote; there is no negative zero among the integers. -/
def signed (neg : Bool) (n : ℕ) : ℤ := if neg then -(n : ℤ) else n

/-- A number after its sign: an integer, or a float where it has a fraction or an exponent. -/
def scanNumber (neg : Bool) (s : Str) : Option (Json × Str) :=
  match scanWhole s with
  | none => none
  | some (ds, r) =>
    let frac := scanFrac r
    let exp := scanExp frac.2
    if h : frac.1 ≠ [] ∨ exp.1 ≠ none then
      some (float (.decimal ⟨neg, ofDigits 0 ds, frac.1, exp.1, h⟩), exp.2)
    else if ds.length ≤ maxDigits then some (int (signed neg (ofDigits 0 ds)), exp.2)
    else none

/-- A value that is neither a string nor a container. -/
def scanAtom (s : Str) : Option (Json × Str) :=
  match dropPrefix (Py.str "null") s, dropPrefix (Py.str "true") s, dropPrefix (Py.str "false") s,
      dropPrefix (Py.str "NaN") s, dropPrefix (Py.str "Infinity") s,
      dropPrefix (Py.str "-Infinity") s, dropPrefix (Py.str "-") s with
  | some r, _, _, _, _, _, _ => some (null, r)
  | none, some r, _, _, _, _, _ => some (bool true, r)
  | none, none, some r, _, _, _, _ => some (bool false, r)
  | none, none, none, some r, _, _, _ => some (float .nan, r)
  | none, none, none, none, some r, _, _ => some (float (.infinity false), r)
  | none, none, none, none, none, some r, _ => some (float (.infinity true), r)
  | none, none, none, none, none, none, some r => scanNumber true r
  | none, none, none, none, none, none, none => scanNumber false s

mutual
/-- A value at the start of a text, and what follows it.  `fuel` bounds the number of values. -/
def scanValue : ℕ → Str → Option (Json × Str)
  | 0, _ => none
  | _ + 1, [] => none
  | fuel + 1, c :: rest =>
    if c = quote then (scanString (.text none) rest).map fun p ↦ (str p.1, p.2)
    else if c = ch '[' then
      match skipWs rest with
      | [] => none
      | d :: after =>
        if d = ch ']' then some (arr [], after)
        else (scanItems fuel (d :: after)).map fun p ↦ (arr p.1, p.2)
    else if c = ch '{' then
      match skipWs rest with
      | [] => none
      | d :: after =>
        if d = ch '}' then some (obj [], after)
        else (scanFields fuel (d :: after)).map fun p ↦ (obj (dictOf p.1), p.2)
    else scanAtom (c :: rest)

/-- The items of a list that is not empty, its closing bracket included. -/
def scanItems : ℕ → Str → Option (List Json × Str)
  | 0, _ => none
  | fuel + 1, s =>
    match scanValue fuel s with
    | none => none
    | some (v, r) =>
      match skipWs r with
      | [] => none
      | c :: after =>
        if c = ch ']' then some ([v], after)
        else if c = ch ',' then
          (scanItems fuel (skipWs after)).map fun p ↦ (v :: p.1, p.2)
        else none

/-- The fields of a dict that is not empty, its closing brace included. -/
def scanFields : ℕ → Str → Option (Fields × Str)
  | 0, _ => none
  | _ + 1, [] => none
  | fuel + 1, q :: s =>
    if q ≠ quote then none
    else match scanString (.text none) s with
      | none => none
      | some (k, r) =>
        match skipWs r with
        | [] => none
        | colon :: r1 =>
          if colon ≠ ch ':' then none
          else match scanValue fuel (skipWs r1) with
            | none => none
            | some (v, r2) =>
              match skipWs r2 with
              | [] => none
              | c :: after =>
                if c = ch '}' then some ([(k, v)], after)
                else if c = ch ',' then
                  (scanFields fuel (skipWs after)).map fun p ↦ ((k, v) :: p.1, p.2)
                else none
end

/-- `json.loads(s)`, or `none` where it raises: one value, with white space around it and nothing
else. -/
def loads (s : Str) : Option Json :=
  match scanValue (s.length + 1) (skipWs s) with
  | some (v, r) => if skipWs r = [] then some v else none
  | none => none

end Json

end Py
