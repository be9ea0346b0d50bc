import AtlasCore.Lib.Lines
import AtlasCore.Lib.Sha256

/-!
# Characters that are spelled out

`char.encode("unicode_escape")` writes a character in printable ASCII.  A text in which some
characters are spelled out and the others stay (`spellOut`) has none of the former, has the lines it
had before, and does not change when it is done again: what a spelling is made of is kept.
-/

set_option autoImplicit false

namespace Py

/-- The general categories `Cc` and `Cf`: the characters that control something and the characters
that format something. -/
def isControl (c : CodePoint) : Bool :=
  c.val ≤ 0x1F || (0x7F ≤ c.val && c.val ≤ 0x9F) || c.val = 0xAD ||
    (0x600 ≤ c.val && c.val ≤ 0x605) || c.val = 0x61C || c.val = 0x6DD || c.val = 0x70F ||
    c.val = 0x890 || c.val = 0x891 || c.val = 0x8E2 || c.val = 0x180E ||
    (0x200B ≤ c.val && c.val ≤ 0x200F) || (0x202A ≤ c.val && c.val ≤ 0x202E) ||
    (0x2060 ≤ c.val && c.val ≤ 0x2064) || (0x2066 ≤ c.val && c.val ≤ 0x206F) ||
    c.val = 0xFEFF || (0xFFF9 ≤ c.val && c.val ≤ 0xFFFB) || c.val = 0x110BD || c.val = 0x110CD ||
    (0x13430 ≤ c.val && c.val ≤ 0x1343F) || (0x1BCA0 ≤ c.val && c.val ≤ 0x1BCA3) ||
    (0x1D173 ≤ c.val && c.val ≤ 0x1D17A) || c.val = 0xE0001 ||
    (0xE0020 ≤ c.val && c.val ≤ 0xE007F)

/-- Printable ASCII: what a terminal shows as it is. -/
def isPrintableAscii (c : CodePoint) : Bool := 0x20 ≤ c.val && c.val < 0x7F

/-- `char.encode("unicode_escape").decode("ascii")`: the shortest escape that Python has for the
character. -/
def unicodeEscape (c : CodePoint) : Str :=
  if c.val = 9 then str "\\t"
  else if c.val = 10 then str "\\n"
  else if c.val = 13 then str "\\r"
  else if c.val = 92 then str "\\\\"
  else if isPrintableAscii c then [c]
  else if c.val < 0x100 then str "\\x" ++ Sha256.hex 2 c.val
  else if c.val < 0x10000 then str "\\u" ++ Sha256.hex 4 c.val
  else str "\\U" ++ Sha256.hex 8 c.val

/-- The characters that are not kept are spelled out. -/
def spellOut (kept : CodePoint → Bool) (s : Str) : Str :=
  s.flatMap fun c ↦ if kept c then [c] else unicodeEscape c

theorem isControl_of_isPrintableAscii {c : CodePoint} (h : isPrintableAscii c = true) :
    isControl c = false := by
  simp only [isPrintableAscii, Bool.and_eq_true, decide_eq_true_eq] at h
  simp only [isControl, Bool.or_eq_false_iff, Bool.and_eq_false_iff, decide_eq_false_iff_not]
  omega

theorem isPrintableAscii_hexDigit : ∀ n : Fin 16, isPrintableAscii (hexDigit n) = true := by decide

theorem isPrintableAscii_hex (n x : ℕ) : (Sha256.hex n x).all isPrintableAscii = true := by
  induction n generalizing x with
  | zero => rfl
  | succ n ih => simp [Sha256.hex, ih, isPrintableAscii_hexDigit]

/-- A spelling is printable ASCII. -/
theorem isPrintableAscii_unicodeEscape (c : CodePoint) :
    (unicodeEscape c).all isPrintableAscii = true := by
  rw [unicodeEscape]
  split_ifs with _ _ _ _ hprintable
  · decide
  · decide
  · decide
  · decide
  · simp [hprintable]
  all_goals
    rw [List.all_append, isPrintableAscii_hex, Bool.and_true]
    decide

section
variable {kept : CodePoint → Bool}

theorem spellOut_append (s t : Str) : spellOut kept (s ++ t) = spellOut kept s ++ spellOut kept t :=
  List.flatMap_append

/-- A text of characters that are kept stays as it is. -/
theorem spellOut_eq_self {s : Str} (h : ∀ c ∈ s, kept c = true) : spellOut kept s = s := by
  induction s with
  | nil => rfl
  | cons c s ih =>
    have hrest := ih fun d hd ↦ h d (List.mem_cons_of_mem c hd)
    rw [spellOut] at hrest ⊢
    rw [List.flatMap_cons, if_pos (h c List.mem_cons_self), hrest, List.singleton_append]

/-- Each line is spelled out on its own, so a text keeps its lines. -/
theorem linesAtLf_spellOut (hlf : kept lf = true) (s : Str) :
    linesAtLf (spellOut kept s) = (linesAtLf s).map (spellOut kept) := by
  have hline : ∀ {l : Str}, lf ∉ l → lf ∉ spellOut kept l := by
    intro l hl hmem
    obtain ⟨c, hc, hmem⟩ := List.mem_flatMap.mp hmem
    split_ifs at hmem
    · exact hl (List.mem_singleton.mp hmem ▸ hc)
    · exact absurd (List.all_eq_true.mp (isPrintableAscii_unicodeEscape c) lf hmem) (by decide)
  induction s using lines_induction with
  | last l hl => rw [linesAtLf_last hl, linesAtLf_last (hline hl), List.map_singleton]
  | line l rest hl ih =>
    have hcons : spellOut kept (lf :: rest) = lf :: spellOut kept rest := by
      rw [spellOut, List.flatMap_cons, if_pos hlf, List.singleton_append, spellOut]
    rw [spellOut_append, hcons, linesAtLf_line (hline hl), linesAtLf_line hl, ih, List.map_cons]

variable (hkept : ∀ c, isPrintableAscii c = true → kept c = true)
include hkept

/-- What is left is kept. -/
theorem kept_of_mem_spellOut {s : Str} {c : CodePoint} (h : c ∈ spellOut kept s) :
    kept c = true := by
  obtain ⟨d, -, hc⟩ := List.mem_flatMap.mp h
  by_cases hd : kept d = true
  · rw [if_pos hd, List.mem_singleton] at hc
    rwa [hc]
  · rw [if_neg hd] at hc
    exact hkept c (List.all_eq_true.mp (isPrintableAscii_unicodeEscape d) c hc)

/-- Once is enough. -/
theorem spellOut_spellOut (s : Str) : spellOut kept (spellOut kept s) = spellOut kept s :=
  spellOut_eq_self fun _ hc ↦ kept_of_mem_spellOut hkept hc

end

end Py
