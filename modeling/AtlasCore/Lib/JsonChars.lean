import AtlasCore.Lib.JsonRoundTrip
import AtlasCore.Lib.Lines
import AtlasCore.Lib.Utf8
import Mathlib.Data.List.Chain

/-!
# The characters of a JSON text

The writer escapes the control characters and copies everything beyond ASCII.  So whether a
character of either kind occurs in the text of a value is a question about the strings and keys of
the value (`render_all`), and the two questions a line-based file asks are instances of it: whether
the text is one line (`oneLine_render`), and whether it can be encoded (`encodable_render`).
-/

set_option autoImplicit false

namespace Py

namespace Json

/-- A predicate that no printable ASCII character satisfies. -/
def OffAscii (p : CodePoint → Bool) : Prop :=
  ∀ c : CodePoint, 32 ≤ c.val → c.val < 128 → p c = false

/-- No character of a text satisfies `p`, which can be computed. -/
def noneOf (p : CodePoint → Bool) (s : Str) : Bool := s.all fun c ↦ !p c

/-- No character that is copied as it is satisfies `p`: the control characters are escaped. -/
def noneCopied (p : CodePoint → Bool) (s : Str) : Bool := s.all fun c ↦ decide (c.val < 32) || !p c

theorem noneOf_append (p : CodePoint → Bool) (s t : Str) :
    noneOf p (s ++ t) = (noneOf p s && noneOf p t) := List.all_append

theorem noneOf_cons (p : CodePoint → Bool) (c : CodePoint) (s : Str) :
    noneOf p (c :: s) = (!p c && noneOf p s) := List.all_cons

/-- Printable ASCII, which is written without an escape except for two characters. -/
def printable (s : Str) : Bool := s.all fun c ↦ decide (32 ≤ c.val ∧ c.val < 128)

theorem printable_digits (ds : List (Fin 10)) : printable (ds.map digitChar) = true := by
  have hdigit : ∀ d : Fin 10, decide (32 ≤ (digitChar d).val ∧ (digitChar d).val < 128) = true := by
    decide
  rw [printable, List.all_eq_true]
  intro c hc
  obtain ⟨d, -, rfl⟩ := List.mem_map.mp hc
  exact hdigit d

theorem printable_append (s t : Str) : printable (s ++ t) = (printable s && printable t) :=
  List.all_append

theorem printable_cons (c : CodePoint) (s : Str) :
    printable (c :: s) = (decide (32 ≤ c.val ∧ c.val < 128) && printable s) := List.all_cons

theorem colon_printable : printable (Py.str ": ") = true := by decide

theorem printable_decimalInt (z : ℤ) : printable (decimalInt z) = true := by
  rw [decimalInt]
  split
  · rw [printable_cons, decimal, printable_digits]; decide
  · exact printable_digits _

theorem printable_renderFloat (f : Float) : printable (renderFloat f) = true := by
  rcases f with d | _ | neg
  · have hfrac : printable (renderFrac d.frac) = true := by
      rw [renderFrac]
      split
      · rfl
      · rw [printable_cons, printable_digits]; decide
    have hexp : printable (renderExp d.exp) = true := by
      rcases d.exp with _ | ⟨neg, x, xs⟩
      · rfl
      · rw [renderExp, printable_cons, printable_cons, printable_digits]
        cases neg <;> decide
    rw [renderFloat, renderDecimal, printable_append, printable_append, printable_append, hfrac,
      hexp, decimal, printable_digits]
    cases d.neg <;> decide
  · decide
  · cases neg <;> decide

section

variable {p : CodePoint → Bool} (hp : OffAscii p)

include hp

theorem noneOf_printable {s : Str} (h : printable s = true) : noneOf p s = true := by
  rw [printable, List.all_eq_true] at h
  rw [noneOf, List.all_eq_true]
  intro c hc
  have := h c hc
  rw [decide_eq_true_eq] at this
  rw [hp c this.1 this.2]
  rfl

theorem noneOf_lit {s t : Str} (h : printable s = true) : noneOf p (s ++ t) = noneOf p t := by
  rw [noneOf_append, noneOf_printable hp h, Bool.true_and]

theorem noneOf_escapeChar (c : CodePoint) :
    noneOf p (escapeChar c) = (decide (c.val < 32) || !p c) := by
  have hhex : ∀ n : Fin 16, 32 ≤ (hexDigit n).val ∧ (hexDigit n).val < 128 := by decide
  rw [escapeChar]
  split_ifs with h1 h2 h3 h4 h5 h6 h7 h8
  · rw [noneOf_printable hp (by decide), h1, hp quote (by decide) (by decide)]
    rfl
  · rw [noneOf_printable hp (by decide), h2, hp backslash (by decide) (by decide)]
    rfl
  · rw [noneOf_printable hp (by decide), h3]; rfl
  · rw [noneOf_printable hp (by decide), h4]; rfl
  · rw [noneOf_printable hp (by decide), h5]; rfl
  · rw [noneOf_printable hp (by decide), h6]; rfl
  · rw [noneOf_printable hp (by decide), h7]; rfl
  · rw [decide_eq_true h8, Bool.true_or]
    refine noneOf_printable hp ?_
    rw [printable, List.all_eq_true]
    simp only [List.mem_cons, List.not_mem_nil, or_false]
    rintro d (rfl | rfl | rfl | rfl | rfl | rfl)
    · decide
    · decide
    · decide
    · decide
    · exact decide_eq_true (hhex _)
    · exact decide_eq_true (hhex _)
  · rw [decide_eq_false h8, Bool.false_or, noneOf_cons, noneOf, List.all_nil, Bool.and_true]

theorem noneOf_escape (s : Str) : noneOf p (escape s) = noneCopied p s := by
  induction s with
  | nil => rfl
  | cons c s ih => rw [escape, noneOf_append, noneOf_escapeChar hp, ih, noneCopied, noneCopied,
      List.all_cons]

theorem noneOf_renderString (s : Str) : noneOf p (renderString s) = noneCopied p s := by
  have hq : noneOf p [quote] = true := noneOf_printable hp (by decide)
  have hs : renderString s = [quote] ++ (escape s ++ [quote]) := by simp [renderString]
  rw [hs, noneOf_append, noneOf_append, hq, noneOf_escape hp, Bool.true_and, Bool.and_true]

mutual
/-- **The characters of a text are those of its strings and keys**, as far as the writer copies
them. -/
theorem render_all : ∀ v : Json, noneOf p (render v) = every (fun _ ↦ true) (noneCopied p) v
  | .null => by rw [render, every, noneOf_printable hp (by decide)]
  | .bool true => by rw [render, every, noneOf_printable hp (by decide)]
  | .bool false => by rw [render, every, noneOf_printable hp (by decide)]
  | .int z => by rw [render, every, noneOf_printable hp (printable_decimalInt z)]
  | .float f => by rw [render, every, noneOf_printable hp (printable_renderFloat f)]
  | .str s => by rw [render, every, noneOf_renderString hp]
  | .arr [] => by rw [render, every, everyItem, noneOf_printable hp (by decide)]
  | .arr (v :: rest) => by
    rw [render, every, everyItem, noneOf_cons, noneOf_append, render_all v, renderItems_all rest,
      hp _ (by decide) (by decide), Bool.not_false, Bool.true_and]
  | .obj [] => by rw [render, every, everyField, noneOf_printable hp (by decide)]
  | .obj ((k, v) :: rest) => by
    rw [render, every, everyField, noneOf_cons, noneOf_append, noneOf_append, noneOf_append,
      noneOf_renderString hp, noneOf_printable hp colon_printable, render_all v,
      renderFields_all rest, hp _ (by decide) (by decide), Bool.not_false, Bool.true_and,
      Bool.and_true, Bool.and_assoc]

theorem renderItems_all :
    ∀ items : List Json, noneOf p (renderItems items) =
      everyItem (fun _ ↦ true) (noneCopied p) items
  | [] => by rw [renderItems, everyItem, noneOf_printable hp (by decide)]
  | v :: rest => by
    rw [renderItems, everyItem, noneOf_lit hp (by decide), noneOf_append, render_all v,
      renderItems_all rest]

theorem renderFields_all :
    ∀ fields : Fields,
      noneOf p (renderFields fields) = everyField (fun _ ↦ true) (noneCopied p) fields
  | [] => by rw [renderFields, everyField, noneOf_printable hp (by decide)]
  | (k, v) :: rest => by
    rw [renderFields, everyField, noneOf_lit hp (by decide), noneOf_append, noneOf_append,
      noneOf_append, noneOf_renderString hp, noneOf_printable hp colon_printable,
      render_all v, renderFields_all rest, Bool.and_true, Bool.and_assoc]
end

end

/-! ## Line breaks and surrogates

A written value has no line feed in it.  Other characters that end a line for Python may stand in
its strings, and a lone surrogate cannot be encoded. -/

theorem offAscii_isLineBreak : OffAscii isLineBreak := by
  intro c h1 h2
  simp only [isLineBreak, Bool.or_eq_false_iff, Bool.and_eq_false_iff, decide_eq_false_iff_not,
    beq_eq_false_iff_ne]
  omega

theorem offAscii_isSurrogate : OffAscii isSurrogate := by
  intro c h1 h2
  simp only [isSurrogate, Bool.and_eq_false_iff, decide_eq_false_iff_not]
  omega

/-- The line breaks the writer does not escape: next line, line separator, paragraph separator. -/
def isWideBreak (c : CodePoint) : Bool := c.val == 0x85 || c.val == 0x2028 || c.val == 0x2029

theorem offAscii_isWideBreak : OffAscii isWideBreak := by
  intro c h1 h2
  simp only [isWideBreak, Bool.or_eq_false_iff, beq_eq_false_iff_ne]
  omega

/-- No string and no key holds a line break the writer copies. -/
def breakFree (v : Json) : Bool := every (fun _ ↦ true) (noneOf isWideBreak) v

/-- No string and no key holds a surrogate. -/
def surrogateFree (v : Json) : Bool := every (fun _ ↦ true) encodable v

theorem noneCopied_isLineBreak (s : Str) : noneCopied isLineBreak s = noneOf isWideBreak s := by
  rw [noneCopied, noneOf]
  congr 1
  funext c
  rw [Bool.eq_iff_iff]
  simp only [isLineBreak, isWideBreak, Bool.or_eq_true, decide_eq_true_eq, Bool.not_eq_true',
    Bool.or_eq_false_iff, Bool.and_eq_false_iff, decide_eq_false_iff_not, beq_eq_false_iff_ne]
  omega

theorem noneCopied_isSurrogate (s : Str) : noneCopied isSurrogate s = encodable s := by
  rw [noneCopied, encodable]
  congr 1
  funext c
  rw [Bool.eq_iff_iff]
  simp only [isSurrogate, Bool.or_eq_true, decide_eq_true_eq, Bool.not_eq_true',
    Bool.and_eq_false_iff, decide_eq_false_iff_not]
  omega

/-- The text of a value is one line exactly when it holds no line break that is copied. -/
theorem oneLine_render (v : Json) : oneLine (render v) = breakFree v := by
  have h := render_all offAscii_isLineBreak v
  rw [funext noneCopied_isLineBreak] at h
  exact h

/-- The text of a value can be encoded exactly when it holds no surrogate. -/
theorem encodable_render (v : Json) : encodable (render v) = surrogateFree v := by
  have h := render_all offAscii_isSurrogate v
  rw [funext noneCopied_isSurrogate] at h
  exact h

/-- The control characters are escaped. -/
theorem render_printable {v : Json} {c : CodePoint} (hc : c ∈ render v) : 32 ≤ c.val := by
  have hcontrol : OffAscii fun c ↦ decide (c.val < 32) := fun d h1 _ ↦ decide_eq_false (by omega)
  have hcopied : noneCopied (fun c ↦ decide (c.val < 32)) = fun _ ↦ true := by
    funext s
    rw [noneCopied, List.all_eq_true]
    exact fun d _ ↦ Bool.or_not_self _
  have hnone := render_all hcontrol v
  rw [hcopied, every_true, noneOf, List.all_eq_true] at hnone
  simpa using hnone c hc

/-- A line break in the text of a value is one of the three. -/
theorem lineBreak_render {v : Json} {c : CodePoint} (hc : c ∈ render v)
    (hb : isLineBreak c = true) : isWideBreak c = true := by
  have hlow := render_printable hc
  simp only [isLineBreak, isWideBreak, Bool.or_eq_true, Bool.and_eq_true, decide_eq_true_eq,
    beq_iff_eq] at hb ⊢
  omega

/-! ## The lines of a laid-out text

A text that is written over several lines breaks only where the layout does. -/

/-- No line of the text starts with `d`, the first included. -/
def NoLine (d : CodePoint) (s : Str) : Prop := (lf :: s).IsChain fun a b ↦ a = lf → b ≠ d

section
variable {d : CodePoint} {s t : Str}

theorem noLine_append (hs : NoLine d s) (ht : NoLine d t) : NoLine d (s ++ t) := by
  obtain ⟨hhead, htail⟩ := List.isChain_cons.mp ht
  exact List.IsChain.append hs htail fun _ _ c hc _ ↦ hhead c hc rfl

theorem noLine_cons {c : CodePoint} (hc : c ≠ d) (hs : NoLine d s) : NoLine d (c :: s) :=
  noLine_append (List.isChain_pair.mpr fun _ ↦ hc) hs

theorem noLine_nil : NoLine d [] := List.isChain_singleton _

/-- A text without a line feed is one line. -/
theorem noLine_of_printable (hs : ∀ c ∈ s, 32 ≤ c.val) (hd : ∀ c ∈ s.head?, c ≠ d) :
    NoLine d s := by
  refine List.IsChain.cons (List.Pairwise.isChain ?_) fun c hc _ ↦ hd c hc
  refine List.pairwise_of_forall_mem_list fun a ha _ _ hlf ↦ ?_
  have hlow := hs a ha
  rw [hlf] at hlow
  exact absurd hlow (by decide)

/-- A character that starts no value, and that no layout puts anywhere. -/
def Foreign (d : CodePoint) : Prop :=
  startsValue d = false ∧ ch ',' ≠ d ∧ ch ':' ≠ d ∧ ch ']' ≠ d ∧ ch '}' ≠ d ∧ ch ' ' ≠ d ∧ lf ≠ d

theorem ne_of_startsValue {c : CodePoint} (hc : startsValue c = true) (hd : Foreign d) : c ≠ d := by
  rintro rfl
  rw [hd.1] at hc
  cases hc

theorem noLine_render (hd : Foreign d) (v : Json) : NoLine d (render v) := by
  refine noLine_of_printable (fun c hc ↦ render_printable hc) fun c hc ↦ ?_
  obtain ⟨c', t, hv, hstarts⟩ := write_cons .compact 0 v
  rw [write_compact] at hv
  rw [hv, List.head?_cons, Option.mem_some_iff] at hc
  exact hc ▸ ne_of_startsValue hstarts hd

theorem noLine_key (hd : Foreign d) (k : Str) (hs : NoLine d s) :
    NoLine d (renderString k ++ (Py.str ": " ++ s)) := by
  have hk := noLine_render hd (.str k)
  rw [render] at hk
  rw [colon_str]
  exact noLine_append hk (noLine_cons hd.2.2.1 (noLine_cons hd.2.2.2.2.2.1 hs))

theorem noLine_newline (hd : Foreign d) (indent level : ℕ) (hs : NoLine d s) :
    NoLine d (newline indent level ++ s) := by
  refine noLine_append (noLine_cons hd.2.2.2.2.2.2 ?_) hs
  refine noLine_of_printable (fun c hc ↦ ?_) fun c hc ↦ ?_
  · rw [List.eq_of_mem_replicate hc]
    decide
  · rw [List.eq_of_mem_replicate (List.mem_of_mem_head? hc)]
    exact hd.2.2.2.2.2.1

variable {indent : ℕ}

mutual
/-- A value that is laid out with an indentation starts its lines with nothing foreign. -/
theorem noLine_write (hd : Foreign d) : ∀ (level : ℕ) (v : Json),
    NoLine d (write (.indented indent) level v)
  | _, .null => by rw [write]; exact noLine_render hd _
  | _, .bool _ => by rw [write]; exact noLine_render hd _
  | _, .int _ => by rw [write]; exact noLine_render hd _
  | _, .float _ => by rw [write]; exact noLine_render hd _
  | _, .str _ => by rw [write]; exact noLine_render hd _
  | _, .arr [] => by rw [write]; exact noLine_render hd _
  | level, .arr (v :: rest) => by
    rw [write]
    exact noLine_cons (ne_of_startsValue (by decide) hd) (noLine_newline hd indent (level + 1)
      (noLine_append (noLine_write hd (level + 1) v) (noLine_writeItems hd level rest)))
  | _, .obj [] => by rw [write]; exact noLine_render hd _
  | level, .obj ((k, v) :: rest) => by
    rw [write]
    exact noLine_cons (ne_of_startsValue (by decide) hd) (noLine_newline hd indent (level + 1)
      (noLine_key hd k
        (noLine_append (noLine_write hd (level + 1) v) (noLine_writeFields hd level rest))))

theorem noLine_writeItems (hd : Foreign d) : ∀ (level : ℕ) (items : List Json),
    NoLine d (writeItems (.indented indent) level items)
  | level, [] => by
    rw [writeItems]
    exact noLine_newline hd indent level (noLine_cons hd.2.2.2.1 noLine_nil)
  | level, v :: rest => by
    rw [writeItems]
    exact noLine_cons hd.2.1 (noLine_newline hd indent (level + 1)
      (noLine_append (noLine_write hd (level + 1) v) (noLine_writeItems hd level rest)))

theorem noLine_writeFields (hd : Foreign d) : ∀ (level : ℕ) (fields : Fields),
    NoLine d (writeFields (.indented indent) level fields)
  | level, [] => by
    rw [writeFields]
    exact noLine_newline hd indent level (noLine_cons hd.2.2.2.2.1 noLine_nil)
  | level, (k, v) :: rest => by
    rw [writeFields]
    exact noLine_cons hd.2.1 (noLine_newline hd indent (level + 1) (noLine_key hd k
      (noLine_append (noLine_write hd (level + 1) v) (noLine_writeFields hd level rest))))
end

end

end Json

end Py
