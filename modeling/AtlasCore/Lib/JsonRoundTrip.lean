import AtlasCore.Lib.JsonCanon
import AtlasCore.Lib.JsonDecode
import AtlasCore.Lib.JsonLayout
import Mathlib.Data.List.TakeWhile

/-!
# Reading back what was written

`loads_dumps`: whatever `dumps` writes for a value, `loads` reads as that value again, its dicts in
the order of their keys.  The proof follows the grammar.  A scanner that stops by itself (a string,
a container) is exact whatever follows; a number goes on as long as digits do, so its lemma asks of
what follows that it `Stops` a number, and everything the writer puts after a value does.  All of it
holds of every `Layout`; `dumps` has the one of a single line.

`dumps` is therefore injective on values that differ in more than the order of their fields
(`dumps_injective`), which is what makes a digest of it a digest of the value.
-/

set_option autoImplicit false

namespace Py

namespace Json

/-! ## Strings

A string that was written is read back, character by character and escape by escape. -/

theorem hexValue_hexDigit (n : Fin 16) : hexValue (hexDigit n) = some n.val := by
  revert n; decide

theorem renderString_append (s r : Str) :
    renderString s ++ r = quote :: (escape s ++ quote :: r) := by
  simp [renderString]

theorem scanString_plain {c : CodePoint} (h1 : c ≠ quote) (h2 : c ≠ backslash)
    (h3 : ¬ c.val < 32) (r : Str) :
    scanString (.text none) (c :: r) = prepend [c] (scanString (.text none) r) := by
  rw [scanString, if_neg h1, if_neg h2, if_neg h3]
  rfl

theorem scanString_escape {e d : CodePoint} (hu : e ≠ ch 'u') (hd : unescape e = some d)
    (r : Str) :
    scanString (.text none) (backslash :: e :: r) = prepend [d] (scanString (.text none) r) := by
  rw [scanString, if_neg (by decide), if_pos rfl, scanString, if_neg hu, hd]
  rfl

theorem scanString_hex {a b c d : CodePoint} {na nb nc nd : ℕ} (ha : hexValue a = some na)
    (hb : hexValue b = some nb) (hc : hexValue c = some nc) (hd : hexValue d = some nd)
    (hs : 16 * (16 * (16 * (16 * 0 + na) + nb) + nc) + nd < 0xD800) (r : Str) :
    scanString (.text none) (backslash :: ch 'u' :: a :: b :: c :: d :: r)
      = prepend [⟨(16 * (16 * (16 * (16 * 0 + na) + nb) + nc) + nd) % 0x110000,
          Nat.mod_lt _ (by decide)⟩] (scanString (.text none) r) := by
  rw [scanString, if_neg (by decide), if_pos rfl, scanString, if_pos rfl]
  simp only [scanString, ha, hb, hc, hd, hexDone]
  rw [dif_neg (by omega)]

/-- A character comes back from what stands for it. -/
theorem scanString_escapeChar (c : CodePoint) (r : Str) :
    scanString (.text none) (escapeChar c ++ r) = prepend [c] (scanString (.text none) r) := by
  rw [escapeChar]
  split_ifs with h1 h2 h3 h4 h5 h6 h7 h8
  · rw [h1]; exact scanString_escape (by decide) (by decide) r
  · rw [h2]; exact scanString_escape (by decide) (by decide) r
  · rw [h3]; exact scanString_escape (by decide) (by decide) r
  · rw [h4]; exact scanString_escape (by decide) (by decide) r
  · rw [h5]; exact scanString_escape (by decide) (by decide) r
  · rw [h6]; exact scanString_escape (by decide) (by decide) r
  · rw [h7]; exact scanString_escape (by decide) (by decide) r
  · have hz : hexValue (ch '0') = some 0 := by decide
    refine (scanString_hex hz hz (hexValue_hexDigit _) (hexValue_hexDigit _) ?_ r).trans ?_
    · simp only; omega
    · congr 2
      apply Fin.ext
      simp only
      omega
  · exact scanString_plain h1 h2 h8 r

/-- **A string is read back**, up to its closing quote and no further. -/
theorem scanString_render (s : Str) (r : Str) :
    scanString (.text none) (escape s ++ quote :: r) = some (s, r) := by
  induction s with
  | nil => rw [escape, List.nil_append, scanString, if_pos rfl]; rfl
  | cons c s ih =>
    rw [escape, List.append_assoc, scanString_escapeChar, ih]
    rfl

/-! ## Numbers

A number that was written is read back, if what follows it does not go on as one. -/

/-- What follows cannot be read as more of a number. -/
def Stops (s : Str) : Prop :=
  ∀ c ∈ s.head?, digitOf c = none ∧ c ≠ ch '.' ∧ c ≠ ch 'e' ∧ c ≠ ch 'E'

theorem Stops.nil : Stops [] := by
  intro c hc
  exact absurd hc (by simp)

theorem Stops.cons {c : CodePoint} {r : Str}
    (h : digitOf c = none ∧ c ≠ ch '.' ∧ c ≠ ch 'e' ∧ c ≠ ch 'E') : Stops (c :: r) := by
  intro d hd
  rw [List.head?_cons, Option.mem_some_iff] at hd
  exact hd ▸ h

/-- What follows is no digit, so that a number before it ends there. -/
def NoDigit (s : Str) : Prop := ∀ c ∈ s.head?, digitOf c = none

theorem Stops.noDigit {s : Str} (h : Stops s) : NoDigit s := fun c hc ↦ (h c hc).1

theorem spanDigits_map (ds : List (Fin 10)) {r : Str} (hr : NoDigit r) :
    spanDigits (ds.map digitChar ++ r) = (ds, r) := by
  induction ds with
  | nil =>
    cases r with
    | nil => rfl
    | cons c r =>
      rw [List.map_nil, List.nil_append, spanDigits, hr c rfl]
  | cons d ds ih => rw [List.map_cons, List.cons_append, spanDigits, digitOf_digitChar, ih]

theorem noDigit_renderExp (exp : Option (Bool × Fin 10 × List (Fin 10))) {r : Str} (hr : Stops r) :
    NoDigit (renderExp exp ++ r) := by
  rcases exp with _ | ⟨neg, d, ds⟩
  · exact hr.noDigit
  · intro c hc
    simp only [renderExp, List.cons_append, List.head?_cons, Option.mem_some_iff] at hc
    rw [← hc]
    decide

theorem noDigit_renderFrac (frac : List (Fin 10)) {r : Str} (hr : NoDigit r) :
    NoDigit (renderFrac frac ++ r) := by
  rw [renderFrac]
  split
  · exact hr
  · intro c hc
    simp only [List.cons_append, List.head?_cons, Option.mem_some_iff] at hc
    rw [← hc]
    decide

/-- The digits before the point are read back. -/
theorem scanWhole_decimal (n : ℕ) {r : Str} (hr : NoDigit r) :
    scanWhole (decimal n ++ r) = some (digits n, r) := by
  rw [decimal]
  cases h : digits n with
  | nil => exact absurd h (digits_ne_nil n)
  | cons d ds =>
    rw [List.map_cons, List.cons_append, scanWhole]
    simp only [digitOf_digitChar]
    split
    · rename_i hd
      rw [digits_head h hd, hd]
      rfl
    · rw [← List.cons_append, ← List.map_cons, spanDigits_map _ hr]

theorem scanFrac_render (frac : List (Fin 10)) {r : Str} (hr : NoDigit r)
    (hdot : frac = [] → ∀ c ∈ r.head?, c ≠ ch '.') :
    scanFrac (renderFrac frac ++ r) = (frac, r) := by
  rw [renderFrac]
  split
  · rename_i h
    cases r with
    | nil => rw [h]; rfl
    | cons c r =>
      rw [List.nil_append, scanFrac, if_neg (fun hc ↦ hdot h c rfl hc.1), h]
  · rename_i h
    rw [List.cons_append, scanFrac, spanDigits_map _ hr, if_pos ⟨rfl, h⟩]

theorem scanSign_render (neg : Bool) (r : Str) :
    scanSign ((if neg then ch '-' else ch '+') :: r) = (neg, r) := by
  cases neg
  · rw [scanSign, if_neg (by decide), if_pos (by decide)]
  · rw [scanSign, if_pos (by decide)]

theorem scanExp_render (exp : Option (Bool × Fin 10 × List (Fin 10))) {r : Str} (hr : Stops r) :
    scanExp (renderExp exp ++ r) = (exp, r) := by
  rcases exp with _ | ⟨neg, d, ds⟩
  · cases r with
    | nil => rfl
    | cons c r =>
      obtain ⟨-, -, he, hE⟩ := hr c rfl
      rw [renderExp, List.nil_append, scanExp, if_neg (by simp [he, hE])]
  · rw [renderExp, List.cons_append, scanExp, if_pos (.inl rfl), List.cons_append,
      scanSign_render, spanDigits_map _ hr.noDigit]

theorem not_dot_renderExp (exp : Option (Bool × Fin 10 × List (Fin 10))) {r : Str} (hr : Stops r) :
    ∀ c ∈ (renderExp exp ++ r).head?, c ≠ ch '.' := by
  rcases exp with _ | ⟨neg, d, ds⟩
  · exact fun c hc ↦ (hr c hc).2.1
  · intro c hc
    simp only [renderExp, List.cons_append, List.head?_cons, Option.mem_some_iff] at hc
    rw [← hc]
    decide

/-- A finite float is read back. -/
theorem scanNumber_decimal (d : Decimal) {r : Str} (hr : Stops r) :
    scanNumber d.neg (decimal d.whole ++ (renderFrac d.frac ++ (renderExp d.exp ++ r)))
      = some (float (.decimal d), r) := by
  have hexp := noDigit_renderExp d.exp hr
  rw [scanNumber, scanWhole_decimal _ (noDigit_renderFrac _ hexp)]
  simp only [scanFrac_render d.frac hexp fun _ ↦ not_dot_renderExp d.exp hr,
    scanExp_render d.exp hr, ofDigits_digits]
  rw [dif_pos d.isFloat]

/-- An integer is read back, unless it has too many digits. -/
theorem scanNumber_int {n : ℕ} (hn : (digits n).length ≤ maxDigits) (neg : Bool) {r : Str}
    (hr : Stops r) : scanNumber neg (decimal n ++ r) = some (int (signed neg n), r) := by
  have hf : scanFrac r = ([], r) := scanFrac_render [] hr.noDigit fun _ c hc ↦ (hr c hc).2.1
  have he : scanExp r = (none, r) := scanExp_render none hr
  rw [scanNumber, scanWhole_decimal _ hr.noDigit]
  simp only [hf, he, ofDigits_digits]
  rw [dif_neg (by simp), if_pos hn]

/-! ## Atoms

The words and the strings: whatever follows them, they are read back. -/

theorem dropPrefix_none {lit s : Str} {c d : CodePoint} (hl : lit.head? = some c)
    (hs : s.head? = some d) (h : c ≠ d) : dropPrefix lit s = none := by
  cases lit with
  | nil => exact absurd hl (by simp)
  | cons c' lit =>
    cases s with
    | nil => exact absurd hs (by simp)
    | cons d' s =>
      simp only [List.head?_cons, Option.some.injEq] at hl hs
      rw [dropPrefix, hl, hs, if_neg h]

/-- A numeral starts with a digit. -/
theorem decimal_cons (n : ℕ) : ∃ d t, decimal n = digitChar d :: t := by
  rw [decimal]
  cases h : digits n with
  | nil => exact absurd h (digits_ne_nil n)
  | cons d ds => exact ⟨d, ds.map digitChar, rfl⟩

/-- A text that starts with a digit is a number. -/
theorem scanAtom_digit (d : Fin 10) (t : Str) :
    scanAtom (digitChar d :: t) = scanNumber false (digitChar d :: t) := by
  have hno : ∀ (lit : Str) (c : CodePoint), lit.head? = some c → digitOf c = none →
      dropPrefix lit (digitChar d :: t) = none :=
    fun _ _ hl hc ↦ dropPrefix_none hl rfl (digitChar_ne d hc)
  rw [scanAtom, hno _ (ch 'n') (by decide) (by decide),
    hno _ (ch 't') (by decide) (by decide), hno _ (ch 'f') (by decide) (by decide),
    hno _ (ch 'N') (by decide) (by decide), hno _ (ch 'I') (by decide) (by decide),
    hno (Py.str "-Infinity") (ch '-') (by decide) (by decide),
    hno (Py.str "-") (ch '-') (by decide) (by decide)]

/-- A text that starts with a minus and a digit is a negative number. -/
theorem scanAtom_minus (d : Fin 10) (t : Str) :
    scanAtom (ch '-' :: digitChar d :: t) = scanNumber true (digitChar d :: t) := by
  have hno : ∀ (lit : Str) (c : CodePoint), lit.head? = some c → c ≠ ch '-' →
      dropPrefix lit (ch '-' :: digitChar d :: t) = none :=
    fun _ _ hl hc ↦ dropPrefix_none hl rfl hc
  have hinf : dropPrefix (Py.str "-Infinity") (ch '-' :: digitChar d :: t) = none := by
    have hl : Py.str "-Infinity" = ch '-' :: Py.str "Infinity" := by decide
    rw [hl, dropPrefix, if_pos rfl]
    exact dropPrefix_none (c := ch 'I') (by decide) rfl (digitChar_ne d (by decide))
  rw [scanAtom, hno _ (ch 'n') (by decide) (by decide),
    hno _ (ch 't') (by decide) (by decide), hno _ (ch 'f') (by decide) (by decide),
    hno _ (ch 'N') (by decide) (by decide), hno _ (ch 'I') (by decide) (by decide), hinf]
  exact congrArg _ rfl

/-- A number is read back. -/
theorem scanAtom_int {z : ℤ} (hz : intFits z = true) {r : Str} (hr : Stops r) :
    scanAtom (decimalInt z ++ r) = some (int z, r) := by
  have hn : (digits z.natAbs).length ≤ maxDigits := by simpa [intFits] using hz
  obtain ⟨d, t, hd⟩ := decimal_cons z.natAbs
  rw [decimalInt]
  split
  · rename_i hneg
    rw [List.cons_append, hd, List.cons_append, scanAtom_minus, ← List.cons_append, ← hd,
      scanNumber_int hn true hr, signed, if_pos rfl]
    congr 3
    omega
  · rename_i hneg
    rw [hd, List.cons_append, scanAtom_digit, ← List.cons_append, ← hd, scanNumber_int hn false hr,
      signed, if_neg (by simp)]
    congr 3
    omega

/-- A float is read back. -/
theorem scanAtom_float (f : Float) {r : Str} (hr : Stops r) :
    scanAtom (renderFloat f ++ r) = some (float f, r) := by
  rcases f with d | _ | neg
  · have hs := scanNumber_decimal d hr
    obtain ⟨x, t, hx⟩ := decimal_cons d.whole
    rw [renderFloat, renderDecimal, List.append_assoc, List.append_assoc, List.append_assoc]
    cases hneg : d.neg
    · rw [if_neg (by simp), List.nil_append, hx, List.cons_append, scanAtom_digit,
        ← List.cons_append, ← hx, ← hneg, hs]
    · rw [if_pos rfl, List.singleton_append, hx, List.cons_append, scanAtom_minus,
        ← List.cons_append, ← hx, ← hneg, hs]
  · rfl
  · cases neg <;> rfl

/-! ## White space

What the layout puts between two tokens is passed over. -/

theorem skipWs_cons {c : CodePoint} (h : isWs c = false) (t : Str) : skipWs (c :: t) = c :: t := by
  rw [skipWs, List.dropWhile_cons, if_neg (by simp [h])]

theorem skipWs_space (s : Str) : skipWs (ch ' ' :: s) = skipWs s := by
  rw [skipWs, List.dropWhile_cons, if_pos (by decide)]
  rfl

theorem skipWs_blank {ws : Str} (h : ws.all isWs = true) (s : Str) :
    skipWs (ws ++ s) = skipWs s := by
  rw [skipWs, skipWs, List.dropWhile_append_of_pos fun c hc ↦ List.all_eq_true.mp h c hc]

/-- White space is one of four characters. -/
theorem isWs_cases {c : CodePoint} (h : isWs c = true) : c = 32 ∨ c = 9 ∨ c = 10 ∨ c = 13 := by
  simp only [isWs, Bool.or_eq_true, beq_iff_eq] at h
  simp only [Fin.ext_iff]
  exact or_assoc.mp (or_assoc.mp h)

/-- White space ends a number. -/
theorem Stops.blank {ws s : Str} (h : ws.all isWs = true) (hs : Stops s) : Stops (ws ++ s) := by
  cases ws with
  | nil => exact hs
  | cons c ws =>
    rw [List.all_cons, Bool.and_eq_true] at h
    refine Stops.cons ?_
    rcases isWs_cases h.1 with rfl | rfl | rfl | rfl <;> decide

/-! ## Containers

`Reads L v` is the statement about one value; a list or a dict of values that are read is read.
The layout does not matter: the reader skips white space wherever a layout puts it. -/

mutual
/-- How much fuel reading the value takes: one for each value in it. -/
def size : Json → ℕ
  | null => 1
  | bool _ => 1
  | int _ => 1
  | float _ => 1
  | str _ => 1
  | arr items => 1 + sizeItems items
  | obj fields => 1 + sizeFields fields

/-- The fuel of the items of a list. -/
def sizeItems : List Json → ℕ
  | [] => 0
  | v :: rest => 1 + size v + sizeItems rest

/-- The fuel of the fields of a dict. -/
def sizeFields : Fields → ℕ
  | [] => 0
  | (_, v) :: rest => 1 + size v + sizeFields rest
end

variable {L : Layout} {level : ℕ}

/-- The value is read back whatever follows it that does not go on a number. -/
def Reads (L : Layout) (v : Json) : Prop :=
  ∀ level n r, size v ≤ n → Stops r → scanValue n (write L level v ++ r) = some (v, r)

theorem startsValue_digit (d : Fin 10) : startsValue (digitChar d) = true := by
  revert d
  decide

/-- The text of a value starts with a character that belongs to it. -/
theorem write_cons (L : Layout) (level : ℕ) (v : Json) :
    ∃ c t, write L level v = c :: t ∧ startsValue c = true := by
  match v with
  | .null => exact ⟨_, _, by rw [write, render]; rfl, by decide⟩
  | .bool true => exact ⟨_, _, by rw [write, render]; rfl, by decide⟩
  | .bool false => exact ⟨_, _, by rw [write, render]; rfl, by decide⟩
  | .int z =>
    obtain ⟨d, t, hd⟩ := decimal_cons z.natAbs
    rw [write, render, decimalInt]
    split
    · exact ⟨_, _, rfl, by decide⟩
    · exact ⟨_, _, hd, startsValue_digit d⟩
  | .float (.decimal d) =>
    obtain ⟨x, t, hx⟩ := decimal_cons d.whole
    rw [write, render, renderFloat, renderDecimal, hx]
    cases d.neg
    · exact ⟨_, _, rfl, startsValue_digit x⟩
    · exact ⟨_, _, rfl, by decide⟩
  | .float .nan => exact ⟨_, _, by rw [write, render]; rfl, by decide⟩
  | .float (.infinity true) => exact ⟨_, _, by rw [write, render]; rfl, by decide⟩
  | .float (.infinity false) => exact ⟨_, _, by rw [write, render]; rfl, by decide⟩
  | .str s => exact ⟨quote, escape s ++ [quote], by rw [write, render]; rfl, by decide⟩
  | .arr [] => exact ⟨_, _, by rw [write, render]; rfl, by decide⟩
  | .arr (v :: rest) => exact ⟨_, _, by rw [write], by decide⟩
  | .obj [] => exact ⟨_, _, by rw [write, render]; rfl, by decide⟩
  | .obj ((k, v) :: rest) => exact ⟨_, _, by rw [write], by decide⟩

/-- White space starts no value, and neither does what closes a list. -/
theorem not_startsValue {c : CodePoint}
    (h : isWs c = true ∨ c = ch ']') : startsValue c = false := by
  rcases h with h | rfl
  · rcases isWs_cases h with rfl | rfl | rfl | rfl <;> decide
  · decide

theorem isWs_of_startsValue {c : CodePoint} (h : startsValue c = true) : isWs c = false := by
  by_contra hc
  rw [not_startsValue (.inl (by simpa using hc))] at h
  cases h

theorem ne_close_of_startsValue {c : CodePoint} (h : startsValue c = true) : c ≠ ch ']' := by
  intro hc
  rw [not_startsValue (.inr hc)] at h
  cases h

theorem skipWs_write (L : Layout) (level : ℕ) (v : Json) (r : Str) :
    skipWs (write L level v ++ r) = write L level v ++ r := by
  obtain ⟨c, t, hv, hc⟩ := write_cons L level v
  rw [hv, List.cons_append, skipWs_cons (isWs_of_startsValue hc)]

theorem stops_writeItems (items : List Json) (r : Str) :
    Stops (writeItems L level items ++ r) := by
  cases items with
  | nil =>
    rw [writeItems, List.append_assoc]
    exact Stops.blank (L.closes level) (Stops.cons (by decide))
  | cons v rest => rw [writeItems]; exact Stops.cons (by decide)

theorem stops_writeFields (fields : Fields) (r : Str) :
    Stops (writeFields L level fields ++ r) := by
  cases fields with
  | nil =>
    rw [writeFields, List.append_assoc]
    exact Stops.blank (L.closes level) (Stops.cons (by decide))
  | cons p rest => obtain ⟨k, v⟩ := p; rw [writeFields]; exact Stops.cons (by decide)

theorem colon_str : Py.str ": " = [ch ':', ch ' '] := by decide

theorem scanItems_close {n : ℕ} {s r after : Str} {v : Json} (h : scanValue n s = some (v, r))
    (hr : skipWs r = ch ']' :: after) : scanItems (n + 1) s = some ([v], after) := by
  rw [scanItems, h]
  simp only [hr, if_true]

theorem scanItems_comma {n : ℕ} {s r after : Str} {v : Json} (h : scanValue n s = some (v, r))
    (hr : skipWs r = ch ',' :: after) :
    scanItems (n + 1) s = (scanItems n (skipWs after)).map fun p ↦ (v :: p.1, p.2) := by
  rw [scanItems, h]
  simp only [hr, if_true, if_neg (show ch ',' ≠ ch ']' by decide)]

/-- The items of a list are read back, its closing bracket with them. -/
theorem scanItems_write :
    ∀ (rest : List Json) (v : Json), Reads L v → (∀ w ∈ rest, Reads L w) → ∀ n r,
      sizeItems (v :: rest) ≤ n →
      scanItems n (write L (level + 1) v ++ (writeItems L level rest ++ r)) = some (v :: rest, r)
  | rest, v, hv, hrest, n, r, hn => by
    rw [sizeItems] at hn
    obtain ⟨n, rfl⟩ : ∃ m, n = m + 1 := ⟨n - 1, by omega⟩
    have hread := hv (level + 1) n (writeItems L level rest ++ r) (by omega)
      (stops_writeItems rest r)
    cases rest with
    | nil =>
      refine scanItems_close hread ?_
      rw [writeItems, List.append_assoc, skipWs_blank (L.closes level)]
      exact skipWs_cons (by decide) r
    | cons w rest =>
      have ih := scanItems_write rest w (hrest w List.mem_cons_self)
        (fun x hx ↦ hrest x (List.mem_cons_of_mem w hx)) n r (by omega)
      rw [writeItems, List.cons_append] at hread ⊢
      rw [scanItems_comma hread (skipWs_cons (by decide) _), List.append_assoc,
        skipWs_blank (L.separates level), List.append_assoc, skipWs_write, ih]
      rfl

/-- The reader at a field: the key, and the value that follows it. -/
theorem scanFields_field {k : Str} {v : Json} {n : ℕ} {s r : Str}
    (h : scanValue n (write L level v ++ s) = some (v, r)) :
    scanFields (n + 1) (renderString k ++ (Py.str ": " ++ (write L level v ++ s)))
      = match skipWs r with
        | [] => none
        | c :: after =>
          if c = ch '}' then some ([(k, v)], after)
          else if c = ch ',' then
            (scanFields n (skipWs after)).map fun p ↦ ((k, v) :: p.1, p.2)
          else none := by
  rw [renderString_append, colon_str, scanFields, if_neg (by simp), scanString_render]
  cases hr : skipWs r with
  | nil =>
    simp only [List.cons_append, List.nil_append,
      skipWs_cons (show isWs (ch ':') = false by decide),
      skipWs_space, skipWs_write, h, hr, ne_eq, not_true_eq_false, if_false]
  | cons c after =>
    simp only [List.cons_append, List.nil_append,
      skipWs_cons (show isWs (ch ':') = false by decide),
      skipWs_space, skipWs_write, h, hr, ne_eq, not_true_eq_false, if_false]

theorem skipWs_renderString (k r : Str) : skipWs (renderString k ++ r) = renderString k ++ r := by
  rw [renderString_append, skipWs_cons (by decide)]

/-- The fields of a dict are read back, its closing brace with them. -/
theorem scanFields_write :
    ∀ (rest : Fields) (k : Str) (v : Json), Reads L v → (∀ p ∈ rest, Reads L p.2) → ∀ n r,
      sizeFields ((k, v) :: rest) ≤ n →
      scanFields n (renderString k ++ (Py.str ": " ++
        (write L (level + 1) v ++ (writeFields L level rest ++ r)))) = some ((k, v) :: rest, r)
  | rest, k, v, hv, hrest, n, r, hn => by
    rw [sizeFields] at hn
    obtain ⟨n, rfl⟩ : ∃ m, n = m + 1 := ⟨n - 1, by omega⟩
    rw [scanFields_field (hv (level + 1) n (writeFields L level rest ++ r) (by omega)
      (stops_writeFields rest r))]
    cases rest with
    | nil =>
      rw [writeFields, List.append_assoc, skipWs_blank (L.closes level), List.singleton_append,
        skipWs_cons (by decide)]
      simp only [if_true]
    | cons p rest =>
      obtain ⟨l, w⟩ := p
      have ih := scanFields_write rest l w (hrest (l, w) List.mem_cons_self)
        (fun x hx ↦ hrest x (List.mem_cons_of_mem (l, w) hx)) n r (by omega)
      rw [writeFields, List.cons_append, skipWs_cons (by decide)]
      simp only [List.append_assoc, skipWs_blank (L.separates level), skipWs_renderString, if_true,
        if_neg (show ch ',' ≠ ch '}' by decide), ih, Option.map_some]

theorem reads_atom {v : Json} (hv : size v = 1) (hw : ∀ level, write L level v = render v)
    (hc : ∃ c t, render v = c :: t ∧ c ≠ quote ∧ c ≠ ch '[' ∧ c ≠ ch '{')
    (h : ∀ r, Stops r → scanAtom (render v ++ r) = some (v, r)) : Reads L v := by
  intro level n r hn hr
  obtain ⟨m, rfl⟩ : ∃ m, n = m + 1 := ⟨n - 1, by omega⟩
  obtain ⟨c, t, ht, h1, h2, h3⟩ := hc
  have hs := h r hr
  rw [hw, ht, List.cons_append]
  rw [ht, List.cons_append] at hs
  rw [scanValue, if_neg h1, if_neg h2, if_neg h3, hs]

theorem reads_int {z : ℤ} (hz : intFits z = true) : Reads L (.int z) := by
  refine reads_atom (by rw [size]) (fun _ ↦ by rw [write]) ?_
    fun r hr ↦ by rw [render]; exact scanAtom_int hz hr
  obtain ⟨d, t, hd⟩ := decimal_cons z.natAbs
  rw [render, decimalInt]
  split
  · exact ⟨_, _, rfl, by decide, by decide, by decide⟩
  · exact ⟨_, _, hd, (digitChar_ne d (by decide)).symm, (digitChar_ne d (by decide)).symm,
      (digitChar_ne d (by decide)).symm⟩

theorem reads_float (f : Float) : Reads L (.float f) := by
  refine reads_atom (by rw [size]) (fun _ ↦ by rw [write]) ?_
    fun r hr ↦ by rw [render]; exact scanAtom_float f hr
  rw [render]
  rcases f with d | _ | neg
  · obtain ⟨x, t, hx⟩ := decimal_cons d.whole
    rw [renderFloat, renderDecimal, hx]
    cases d.neg
    · exact ⟨_, _, rfl, (digitChar_ne x (by decide)).symm, (digitChar_ne x (by decide)).symm,
        (digitChar_ne x (by decide)).symm⟩
    · exact ⟨_, _, rfl, by decide, by decide, by decide⟩
  · exact ⟨_, _, rfl, by decide, by decide, by decide⟩
  · cases neg <;> exact ⟨_, _, rfl, by decide, by decide, by decide⟩

mutual
/-- **Every value is read back.** -/
theorem reads : ∀ {v : Json}, WF v → every intFits (fun _ ↦ true) v = true → Reads L v
  | .null, _, _ => reads_atom (by rw [size]) (fun _ ↦ by rw [write])
      ⟨_, _, by rw [render]; rfl, by decide, by decide, by decide⟩ fun _ _ ↦ by rw [render]; rfl
  | .bool true, _, _ => reads_atom (by rw [size]) (fun _ ↦ by rw [write])
      ⟨_, _, by rw [render]; rfl, by decide, by decide, by decide⟩ fun _ _ ↦ by rw [render]; rfl
  | .bool false, _, _ => reads_atom (by rw [size]) (fun _ ↦ by rw [write])
      ⟨_, _, by rw [render]; rfl, by decide, by decide, by decide⟩ fun _ _ ↦ by rw [render]; rfl
  | .int z, _, h => reads_int (by rwa [every] at h)
  | .float f, _, _ => reads_float f
  | .str s, _, _ => by
    intro level n r hn _
    rw [size] at hn
    obtain ⟨m, rfl⟩ : ∃ m, n = m + 1 := ⟨n - 1, by omega⟩
    rw [write, render, renderString_append, scanValue, if_pos rfl, scanString_render]
    rfl
  | .arr [], _, _ => by
    intro level n r hn _
    rw [size] at hn
    obtain ⟨m, rfl⟩ : ∃ m, n = m + 1 := ⟨n - 1, by omega⟩
    rw [write, render]
    rfl
  | .arr (v :: rest), hw, hf => by
    intro level n r hn _
    rw [size] at hn
    obtain ⟨m, rfl⟩ : ∃ m, n = m + 1 := ⟨n - 1, by omega⟩
    rw [WF] at hw
    rw [every] at hf
    have hall := readsItems hw hf
    have hitems := @scanItems_write L level rest v (hall v List.mem_cons_self)
      (fun w hm ↦ hall w (List.mem_cons_of_mem v hm)) m r (by omega)
    obtain ⟨c, t, hv, hc⟩ := write_cons L (level + 1) v
    rw [hv, List.cons_append] at hitems
    rw [write, hv, List.cons_append, scanValue, if_neg (by decide), if_pos rfl, List.append_assoc,
      skipWs_blank (L.opens level), List.cons_append, List.cons_append, List.append_assoc,
      skipWs_cons (isWs_of_startsValue hc)]
    simp only
    rw [if_neg (ne_close_of_startsValue hc), hitems]
    rfl
  | .obj [], _, _ => by
    intro level n r hn _
    rw [size] at hn
    obtain ⟨m, rfl⟩ : ∃ m, n = m + 1 := ⟨n - 1, by omega⟩
    rw [write, render]
    rfl
  | .obj ((k, v) :: rest), hw, hf => by
    intro level n r hn _
    rw [size] at hn
    obtain ⟨m, rfl⟩ : ∃ m, n = m + 1 := ⟨n - 1, by omega⟩
    rw [WF] at hw
    rw [every] at hf
    have hall := readsFields hw.2 hf
    have hfields := @scanFields_write L level rest k v (hall (k, v) List.mem_cons_self)
      (fun p hm ↦ hall p (List.mem_cons_of_mem (k, v) hm)) m r (by omega)
    rw [write, List.cons_append, scanValue, if_neg (by decide), if_neg (by decide), if_pos rfl,
      List.append_assoc, skipWs_blank (L.opens level), List.append_assoc, List.append_assoc,
      List.append_assoc]
    rw [skipWs_renderString]
    rw [renderString_append] at hfields ⊢
    simp only [if_neg (show quote ≠ ch '}' by decide), hfields, Option.map_some, dictOf_eq hw.1]

theorem readsItems : ∀ {items : List Json}, WFItems items →
    everyItem intFits (fun _ ↦ true) items = true → ∀ v ∈ items, Reads L v
  | [], _, _ => fun v hv ↦ absurd hv List.not_mem_nil
  | v :: rest, hw, hf => by
    rw [WFItems] at hw
    rw [everyItem, Bool.and_eq_true] at hf
    intro w hm
    rcases List.mem_cons.mp hm with heq | hm
    · rw [heq]; exact reads hw.1 hf.1
    · exact readsItems hw.2 hf.2 w hm

theorem readsFields : ∀ {fields : Fields}, WFFields fields →
    everyField intFits (fun _ ↦ true) fields = true → ∀ p ∈ fields, Reads L p.2
  | [], _, _ => fun p hp ↦ absurd hp List.not_mem_nil
  | (k, v) :: rest, hw, hf => by
    rw [WFFields] at hw
    rw [everyField, Bool.and_eq_true, Bool.and_eq_true] at hf
    intro p hm
    rcases List.mem_cons.mp hm with heq | hm
    · rw [heq]; exact reads hw.1 hf.1.2
    · exact readsFields hw.2 hf.2 p hm
end

/-! ## The whole text

A value that was written is read back, and nothing of the text is left. -/

theorem length_write_pos (L : Layout) (level : ℕ) (v : Json) : 1 ≤ (write L level v).length := by
  obtain ⟨c, t, h, -⟩ := write_cons L level v
  rw [h, List.length_cons]
  omega

mutual
theorem size_le_length : ∀ (level : ℕ) (v : Json), size v ≤ (write L level v).length
  | level, .null => length_write_pos L level .null
  | level, .bool b => length_write_pos L level (.bool b)
  | level, .int z => length_write_pos L level (.int z)
  | level, .float f => length_write_pos L level (.float f)
  | level, .str s => length_write_pos L level (.str s)
  | level, .arr [] => length_write_pos L level (.arr [])
  | level, .arr (v :: rest) => by
    have hv := size_le_length (level + 1) v
    have hrest := sizeItems_le_length level rest
    rw [write, size, sizeItems, List.length_cons, List.length_append, List.length_append]
    omega
  | level, .obj [] => length_write_pos L level (.obj [])
  | level, .obj ((k, v) :: rest) => by
    have hv := size_le_length (level + 1) v
    have hrest := sizeFields_le_length level rest
    rw [write, size, sizeFields, List.length_cons, List.length_append, List.length_append,
      List.length_append, List.length_append, colon_str]
    simp only [List.length_cons, List.length_nil]
    omega

theorem sizeItems_le_length : ∀ (level : ℕ) (items : List Json),
    sizeItems items + 1 ≤ (writeItems L level items).length
  | level, [] => by rw [sizeItems, writeItems]; simp
  | level, v :: rest => by
    have hv := size_le_length (level + 1) v
    have hrest := sizeItems_le_length level rest
    have hpos := length_write_pos L (level + 1) v
    rw [sizeItems, writeItems, List.length_cons, List.length_append, List.length_append]
    omega

theorem sizeFields_le_length : ∀ (level : ℕ) (fields : Fields),
    sizeFields fields + 1 ≤ (writeFields L level fields).length
  | level, [] => by rw [sizeFields, writeFields]; simp
  | level, (k, v) :: rest => by
    have hv := size_le_length (level + 1) v
    have hrest := sizeFields_le_length level rest
    rw [sizeFields, writeFields, List.length_cons, List.length_append, List.length_append,
      List.length_append, List.length_append, colon_str]
    simp only [List.length_cons, List.length_nil]
    omega
end

/-- **A value is the whole of its text**, however it is laid out, and of that text with white space
after it. -/
theorem loads_write {v : Json} (hw : WF v) (hf : every intFits (fun _ ↦ true) v = true)
    {ws : Str} (hws : ws.all isWs = true) : loads (write L level v ++ ws) = some v := by
  have hsize : size v ≤ (write L level v).length := size_le_length level v
  have hstop : Stops ws := by simpa using Stops.blank hws Stops.nil
  rw [loads, skipWs_write, reads hw hf level _ ws (by rw [List.length_append]; omega) hstop]
  simp only
  rw [if_pos]
  rw [skipWs]
  exact List.dropWhile_eq_nil_iff.mpr (fun c hc ↦ List.all_eq_true.mp hws c hc)

/-- **What `dumps` writes, `loads` reads**, here with the newline a writer puts after it. -/
theorem loads_dumps {v : Json} (hw : WF v) {s : Str} (hs : dumps v = some s) :
    loads (s ++ [lf]) = some (canon v) := by
  rw [dumps] at hs
  split at hs
  · rename_i hf
    obtain rfl := Option.some.inj hs
    rw [← write_compact 0]
    exact loads_write (WF_canon hw) (by rw [every_canon]; exact hf) (by decide)
  · exact absurd hs (by simp)

/-- What is written with an indentation is read as the value itself. -/
theorem loads_dumpsIndented {indent : ℕ} {v : Json} (hw : WF v) {s : Str}
    (hs : dumpsIndented indent v = some s) : loads s = some v := by
  rw [dumpsIndented] at hs
  split at hs
  · rename_i hf
    obtain rfl := Option.some.inj hs
    rw [← List.append_nil (write _ 0 v)]
    exact loads_write hw hf rfl
  · exact absurd hs (by simp)

/-- Values that are written alike are equal. -/
theorem dumps_injective {v w : Json} (hv : WF v) (hw : WF w) {s : Str} (h1 : dumps v = some s)
    (h2 : dumps w = some s) : canon v = canon w := by
  have h := (loads_dumps hv h1).symm.trans (loads_dumps hw h2)
  exact Option.some.inj h

end Json

end Py
