import Mathlib.Data.List.Basic
import Mathlib.Data.List.Infix
import Mathlib.Data.List.TakeWhile
import Mathlib.Algebra.GroupWithZero.Nat
import Mathlib.Data.Int.Notation
import Mathlib.Tactic.Common

/-!
# Text as Python sees it

A Python `str` is a sequence of code points, and unlike a Lean `String` it may hold a lone
surrogate: `json.loads` produces one from an escape, and it can travel a long way before
something tries to encode it.  So text here is a list of *code points*, and whether a text can be
encoded is a question to be asked, not an invariant of the type.

Only the operations that have a definition short enough to check against the language reference
are here.  What rests on a Unicode table (`str.lower`, `repr`) is a parameter of whoever needs it.
-/

set_option autoImplicit false

namespace Py

/-- A Python character: any code point, surrogates included. -/
abbrev CodePoint := Fin 0x110000

/-- A Python `str`: any list of code points, lone surrogates among them. -/
abbrev Str := List CodePoint

instance CodePoint.neZero : NeZero 0x110000 := ⟨by decide⟩

instance CodePoint.lawfulBEq : LawfulBEq CodePoint := inferInstance

instance Str.lawfulBEq : LawfulBEq Str := inferInstance

/-- The code point of a character, of those that Lean has. -/
def ch (c : Char) : CodePoint := ⟨c.toNat % 0x110000, Nat.mod_lt _ (by decide)⟩

/-- A text literal, as the list of its code points. -/
def str (s : String) : Str := s.toList.map ch

/-- A code point no UTF-8 text can hold. -/
def isSurrogate (c : CodePoint) : Bool := 0xD800 ≤ c.val && c.val ≤ 0xDFFF

/-- `str.isspace` for one character: the Unicode white space. -/
def isSpace (c : CodePoint) : Bool :=
  (9 ≤ c.val && c.val ≤ 13) || (28 ≤ c.val && c.val ≤ 32) || c.val == 0x85 || c.val == 0xA0 ||
    c.val == 0x1680 || (0x2000 ≤ c.val && c.val ≤ 0x200A) || c.val == 0x2028 || c.val == 0x2029 ||
    c.val == 0x202F || c.val == 0x205F || c.val == 0x3000

/-- The characters `str.splitlines` ends a line at; there are more of them than the two of most
files. -/
def isLineBreak (c : CodePoint) : Bool :=
  (10 ≤ c.val && c.val ≤ 13) || (28 ≤ c.val && c.val ≤ 30) || c.val == 0x85 ||
    c.val == 0x2028 || c.val == 0x2029

/-- The line feed, U+000A. -/
def lf : CodePoint := 10

/-- The carriage return, U+000D. -/
def cr : CodePoint := 13

/-! ## Searching and trimming

The methods of `str` that are used, on lists of code points. -/

/-- `str.startswith`, with one beginning. -/
def startsWith (s pre : Str) : Bool := pre.isPrefixOf s

/-- `str.endswith`, with one end. -/
def endsWith (s suf : Str) : Bool := suf.isSuffixOf s

/-- `needle in hay`: some end of the text starts with it. -/
def contains (needle hay : Str) : Bool := hay.tails.any needle.isPrefixOf

theorem contains_iff {needle hay : Str} : contains needle hay = true ↔ needle <:+: hay := by
  rw [contains, List.any_eq_true, List.infix_iff_prefix_suffix]
  exact exists_congr fun t ↦ by rw [List.mem_tails, List.isPrefixOf_iff_prefix, and_comm]

/-- `str.lstrip` with a set of characters: those at the beginning go. -/
def lstripBy (p : CodePoint → Bool) (s : Str) : Str := s.dropWhile p

/-- `str.rstrip` with a set of characters: those at the end go. -/
def rstripBy (p : CodePoint → Bool) (s : Str) : Str := (s.reverse.dropWhile p).reverse

/-- `str.strip` with a set of characters: those at both ends go. -/
def stripBy (p : CodePoint → Bool) (s : Str) : Str := rstripBy p (lstripBy p s)

/-- `str.strip`, of white space as Python knows it. -/
def strip (s : Str) : Str := stripBy isSpace s

/-- Whether anything but white space is there: the truth value of `s.strip()`. -/
def isBlank (s : Str) : Bool := s.all isSpace

theorem ne_nil_of_isBlank {s : Str} (h : isBlank s = false) : s ≠ [] := by
  rintro rfl
  cases h

/-- Nothing is left of a text that is stripped exactly if it is blank. -/
theorem strip_eq_nil_iff {s : Str} : strip s = [] ↔ isBlank s = true := by
  rw [strip, stripBy, rstripBy, lstripBy, isBlank, List.reverse_eq_nil_iff,
    List.dropWhile_eq_nil_iff, List.all_eq_true]
  constructor
  · intro h c hc
    by_contra hne
    have hdrop : s.dropWhile isSpace ≠ [] := fun hnil ↦
      hne (List.dropWhile_eq_nil_iff.mp hnil c hc)
    have hhead := List.head_dropWhile_not isSpace hdrop
    rw [h _ (List.mem_reverse.mpr (List.head_mem hdrop))] at hhead
    cases hhead
  · intro h c hc
    exact h c ((List.dropWhile_sublist isSpace).mem (List.mem_reverse.mp hc))

/-- `sep.join(parts)`: the separator stands between two parts only. -/
def join (sep : Str) : List Str → Str
  | [] => []
  | [s] => s
  | s :: rest => s ++ sep ++ join sep rest

theorem join_cons {sep s : Str} {rest : List Str} (h : rest ≠ []) :
    join sep (s :: rest) = s ++ sep ++ join sep rest := by
  cases rest with
  | nil => exact absurd rfl h
  | cons t rest => rfl

/-- Every text that is joined takes its length and that of a separator, of which the last has
none. -/
theorem length_join {sep : Str} : ∀ {ss : List Str}, ss ≠ [] →
    (join sep ss).length + sep.length = (ss.map fun s ↦ s.length + sep.length).sum
  | [], h => absurd rfl h
  | [s], _ => by simp [join]
  | s :: t :: rest, _ => by
    rw [join_cons (List.cons_ne_nil t rest), List.map_cons, List.sum_cons,
      ← length_join (List.cons_ne_nil t rest)]
    simp only [List.length_append]
    omega

/-- What is joined is there. -/
theorem infix_join {sep s : Str} : ∀ {ss : List Str}, s ∈ ss → s <:+: join sep ss
  | [], h => absurd h List.not_mem_nil
  | [t], h => by
    rw [List.mem_singleton.mp h]
    exact List.infix_rfl
  | t :: u :: rest, h => by
    rw [join_cons (List.cons_ne_nil u rest)]
    rcases List.mem_cons.mp h with rfl | h
    · rw [List.append_assoc]
      exact (List.prefix_append _ _).isInfix
    · exact (infix_join h).trans (List.suffix_append _ _).isInfix

/-- The text before the first `c`, and what follows it, if there is one. -/
def splitAtChar (c : CodePoint) : Str → Str × Option Str
  | [] => ([], none)
  | d :: rest =>
    if d = c then ([], some rest)
    else ((d :: (splitAtChar c rest).1), (splitAtChar c rest).2)

/-- `str.split()`: the runs of text between white space.  `cur` is the run being read. -/
def wordsFrom (cur : Str) : Str → List Str
  | [] => if cur = [] then [] else [cur]
  | c :: rest =>
    if isSpace c then (if cur = [] then wordsFrom [] rest else cur :: wordsFrom [] rest)
    else wordsFrom (cur ++ [c]) rest

/-- `str.split()`: the parts between white space, none of them empty. -/
def words (s : Str) : List Str := wordsFrom [] s

/-- `str.replace(old, new)` for an `old` that is not empty.  `skip` counts what is left of an
occurrence that was replaced. -/
def replaceFrom (old new : Str) : ℕ → Str → Str
  | _, [] => []
  | skip + 1, _ :: rest => replaceFrom old new skip rest
  | 0, c :: rest =>
    if old.isPrefixOf (c :: rest) then new ++ replaceFrom old new (old.length - 1) rest
    else c :: replaceFrom old new 0 rest

/-- `str.replace`, of every occurrence from the left. -/
def replace (old new s : Str) : Str := replaceFrom old new 0 s

/-- Where a slice bound falls in a sequence of `len` items. -/
def sliceBound (len : ℕ) (i : ℤ) : ℕ := if i < 0 then (i + len).toNat else min i.toNat len

/-- `xs[a:b]`, where a negative bound counts from the end and one that is too large is the end. -/
def slice {α : Type*} (xs : List α) (a b : ℤ) : List α :=
  (xs.take (sliceBound xs.length b)).drop (sliceBound xs.length a)

/-! ## Decimal numerals

`str(int)` and back. -/

/-- The digits of `n`, most significant first; `fuel` bounds their number. -/
def digitsAux : ℕ → ℕ → List (Fin 10)
  | 0, _ => []
  | fuel + 1, n =>
    if h : n < 10 then [⟨n, h⟩] else digitsAux fuel (n / 10) ++ [⟨n % 10, Nat.mod_lt _ (by decide)⟩]

/-- The decimal digits of `n`, the first of which is 0 only of 0 itself. -/
def digits (n : ℕ) : List (Fin 10) := digitsAux (n + 1) n

/-- The number a list of digits denotes, read on from `acc`. -/
def ofDigits (acc : ℕ) : List (Fin 10) → ℕ
  | [] => acc
  | d :: ds => ofDigits (10 * acc + d.val) ds

/-- A decimal digit as a character, of those of ASCII. -/
def digitChar (d : Fin 10) : CodePoint := ⟨48 + d.val, by omega⟩

/-- The digit a character is, if it is an ASCII one. -/
def digitOf (c : CodePoint) : Option (Fin 10) :=
  if h : 48 ≤ c.val ∧ c.val < 58 then some ⟨c.val - 48, by omega⟩ else none

/-- A hexadecimal digit, in lower case. -/
def hexDigit (n : Fin 16) : CodePoint :=
  if n.val < 10 then ⟨48 + n.val, by omega⟩ else ⟨87 + n.val, by omega⟩

/-- `str(n)` for a natural number, of whatever length. -/
def decimal (n : ℕ) : Str := (digits n).map digitChar

/-- `str(z)` for an integer: a sign only where it is negative. -/
def decimalInt (z : ℤ) : Str :=
  if z < 0 then ch '-' :: decimal z.natAbs else decimal z.natAbs

theorem ofDigits_append (acc : ℕ) (xs ys : List (Fin 10)) :
    ofDigits acc (xs ++ ys) = ofDigits (ofDigits acc xs) ys := by
  induction xs generalizing acc with
  | nil => rfl
  | cons d xs ih => exact ih _

theorem ofDigits_digitsAux : ∀ fuel n : ℕ, n < fuel → ofDigits 0 (digitsAux fuel n) = n
  | 0, _, h => absurd h (Nat.not_lt_zero _)
  | fuel + 1, n, h => by
    rw [digitsAux]
    split
    · simp [ofDigits]
    · rename_i hn
      rw [ofDigits_append, ofDigits_digitsAux fuel (n / 10) (by omega)]
      simp only [ofDigits]
      omega

/-- The digits of a number denote it. -/
theorem ofDigits_digits (n : ℕ) : ofDigits 0 (digits n) = n :=
  ofDigits_digitsAux _ _ (Nat.lt_succ_self n)

/-- A larger number has no fewer digits. -/
theorem length_digitsAux_le : ∀ {fuel fuel' m n : ℕ}, m < fuel → n < fuel' → m ≤ n →
    (digitsAux fuel m).length ≤ (digitsAux fuel' n).length
  | 0, _, _, _, h, _, _ => absurd h (Nat.not_lt_zero _)
  | _, 0, _, _, _, h, _ => absurd h (Nat.not_lt_zero _)
  | fuel + 1, fuel' + 1, m, n, hm, hn, hle => by
    rw [digitsAux, digitsAux]
    split_ifs with hsmall hsmall'
    · exact le_rfl
    · rw [List.length_append]
      exact Nat.le_add_left 1 _
    · omega
    · rw [List.length_append, List.length_append]
      exact Nat.add_le_add_right
        (length_digitsAux_le (by omega) (by omega) (Nat.div_le_div_right hle)) 1

theorem length_decimal_mono {m n : ℕ} (h : m ≤ n) : (decimal m).length ≤ (decimal n).length := by
  rw [decimal, decimal, List.length_map, List.length_map]
  exact length_digitsAux_le (Nat.lt_succ_self m) (Nat.lt_succ_self n) h

theorem digitChar_injective : Function.Injective digitChar := by
  intro d e h
  have hval : 48 + d.val = 48 + e.val := congrArg Fin.val h
  exact Fin.ext (by omega)

theorem decimal_injective : Function.Injective decimal := by
  intro m n h
  have hdigits : digits m = digits n := List.map_injective_iff.mpr digitChar_injective h
  rw [← ofDigits_digits m, hdigits, ofDigits_digits]

theorem digitsAux_ne_nil {fuel : ℕ} (hf : 0 < fuel) (n : ℕ) : digitsAux fuel n ≠ [] := by
  cases fuel with
  | zero => exact absurd hf (Nat.lt_irrefl 0)
  | succ fuel => rw [digitsAux]; split <;> simp

theorem digits_ne_nil (n : ℕ) : digits n ≠ [] := digitsAux_ne_nil (Nat.succ_pos n) n

/-- A numeral of several digits does not start with a zero. -/
theorem digitsAux_head : ∀ fuel n : ℕ, n < fuel → ∀ d ds, digitsAux fuel n = d :: ds → d = 0 →
    ds = []
  | 0, _, h => absurd h (Nat.not_lt_zero _)
  | fuel + 1, n, h => by
    intro d ds he hd
    rw [digitsAux] at he
    split at he
    · simp only [List.cons.injEq] at he; exact he.2.symm
    · rename_i hn
      have hlt : n / 10 < fuel := by omega
      cases hq : digitsAux fuel (n / 10) with
      | nil => exact absurd hq (digitsAux_ne_nil (by omega) _)
      | cons e es =>
        rw [hq, List.cons_append, List.cons.injEq] at he
        obtain ⟨rfl, -⟩ := he
        have hes := digitsAux_head fuel (n / 10) hlt _ _ hq hd
        have hval := ofDigits_digitsAux fuel (n / 10) hlt
        rw [hq, hes, hd] at hval
        simp only [ofDigits] at hval
        simp at hval
        omega

theorem digits_head {n : ℕ} {d : Fin 10} {ds : List (Fin 10)} (h : digits n = d :: ds)
    (hd : d = 0) : ds = [] :=
  digitsAux_head _ n (Nat.lt_succ_self n) d ds h hd

@[simp] theorem digitOf_digitChar (d : Fin 10) : digitOf (digitChar d) = some d := by
  have hd := d.isLt
  rw [digitOf, dif_pos ⟨by simp [digitChar], by simp only [digitChar]; omega⟩]
  simp [digitChar]

theorem digitChar_ne (d : Fin 10) {c : CodePoint} (hc : digitOf c = none) : c ≠ digitChar d := by
  rintro rfl
  rw [digitOf_digitChar] at hc
  exact absurd hc (by simp)

theorem not_mem_decimal {n : ℕ} {c : CodePoint} (hc : digitOf c = none) :
    c ∉ decimal n := fun hmem ↦ by
  obtain ⟨d, -, rfl⟩ := List.mem_map.mp hmem
  exact digitChar_ne d hc rfl

/-- A numeral is digits, after a minus perhaps. -/
theorem not_mem_decimalInt {z : ℤ} {c : CodePoint} (hc : digitOf c = none) (hminus : c ≠ ch '-') :
    c ∉ decimalInt z := by
  rw [decimalInt]
  split_ifs
  · exact List.not_mem_cons_of_ne_of_not_mem hminus (not_mem_decimal hc)
  · exact not_mem_decimal hc

theorem decimalInt_injective : Function.Injective decimalInt := by
  have hsign : ∀ {m n : ℕ}, ch '-' :: decimal m ≠ decimal n := fun {m n} h ↦
    not_mem_decimal (n := n) (by decide : digitOf (ch '-') = none) (h ▸ List.mem_cons_self)
  intro x y h
  rw [decimalInt, decimalInt] at h
  split_ifs at h
  · have := decimal_injective (List.cons.inj h).2
    omega
  · exact absurd h hsign
  · exact absurd h.symm hsign
  · have := decimal_injective h
    omega

end Py
