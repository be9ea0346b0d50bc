import AtlasCore.Lib.JsonRoundTrip

/-!
# Quoted text inside other text

A JSON string says itself where it ends, and so does a list of strings, so what follows one in a
text is known from the left (`renderString_left`, `renderTexts_left`).  It is known from the right
as well: a quote inside a string follows a backslash, so what comes before the last string of a text
cannot be mistaken for a part of it (`renderString_right`, `renderTexts_right`).
-/

set_option autoImplicit false

namespace Py

namespace Json

/-! ## Cuts

Where a text can be cut in two ways at one character, and where it cannot. -/

section
variable {α : Type*} {x y a b : List α} {c : α}

/-- Of two ends of a text the longer one has the shorter one in it. -/
theorem ends_cases (h : x ++ a = y ++ b) :
    (∃ z, b = z ++ a ∧ x = y ++ z) ∨ ∃ z, a = z ++ b ∧ y = x ++ z := by
  rcases List.append_eq_append_iff.mp h with ⟨z, hy, ha⟩ | ⟨z, hx, hb⟩
  · exact .inr ⟨z, ha, hy⟩
  · exact .inl ⟨z, hb, hx⟩

/-- A text is cut at the last of its separators. -/
theorem last_cut (ha : c ∉ a) (hb : c ∉ b) (h : x ++ c :: a = y ++ c :: b) : x = y ∧ a = b := by
  rcases ends_cases h with ⟨z, hz, rfl⟩ | ⟨z, hz, rfl⟩
  · cases z with
    | nil => exact ⟨List.append_nil y, (List.cons.inj hz).2.symm⟩
    | cons d z =>
      exact absurd ((List.cons.inj hz).2 ▸ List.mem_append_right _ List.mem_cons_self) hb
  · cases z with
    | nil => exact ⟨(List.append_nil x).symm, (List.cons.inj hz).2⟩
    | cons d z =>
      exact absurd ((List.cons.inj hz).2 ▸ List.mem_append_right _ List.mem_cons_self) ha

/-- A text is cut at the first of its separators. -/
theorem first_cut (hx : c ∉ x) (hy : c ∉ y) (h : x ++ c :: a = y ++ c :: b) : x = y ∧ a = b := by
  have h := congrArg List.reverse h
  simp only [List.reverse_append, List.reverse_cons, List.append_assoc, List.singleton_append] at h
  obtain ⟨ha, hx⟩ := last_cut (mt List.mem_reverse.mp hx) (mt List.mem_reverse.mp hy) h
  exact ⟨List.reverse_injective hx, List.reverse_injective ha⟩

end

/-! ## Lists of strings

The text of a list of strings, one string after the other. -/

/-- A list of strings, as one JSON text. -/
def renderTexts (ss : List Str) : Str := render (.arr (ss.map .str))

/-- The rest of one, from a separator on. -/
def renderRest (ss : List Str) : Str := renderItems (ss.map .str)

theorem renderTexts_nil : renderTexts [] = [ch '[', ch ']'] := rfl

theorem renderTexts_cons (s : Str) (ss : List Str) :
    renderTexts (s :: ss) = ch '[' :: quote :: (escape s ++ quote :: renderRest ss) := by
  rw [renderTexts, List.map_cons, render, render, renderString, renderRest]
  simp

theorem renderRest_nil : renderRest [] = [ch ']'] := rfl

theorem renderRest_cons (s : Str) (ss : List Str) :
    renderRest (s :: ss) = ch ',' :: ch ' ' :: quote :: (escape s ++ quote :: renderRest ss) := by
  rw [renderRest, List.map_cons, renderItems, render, renderString, renderRest]
  simp [Py.str]

/-! ## From the left

Reading from the left, a string ends at the first quote that is not escaped, and a list at its
bracket. -/

/-- A string ends at its quote. -/
theorem escape_left {s t x y : Str} (h : escape s ++ quote :: x = escape t ++ quote :: y) :
    s = t ∧ x = y := by
  have hs := scanString_render s x
  rw [h, scanString_render t y, Option.some.injEq, Prod.mk.injEq] at hs
  exact ⟨hs.1.symm, hs.2.symm⟩

theorem renderString_left {s t x y : Str} (h : renderString s ++ x = renderString t ++ y) :
    s = t ∧ x = y := by
  simp only [renderString, List.cons_append, List.append_assoc, List.nil_append, List.cons.injEq,
    true_and] at h
  exact escape_left h

theorem renderRest_left : ∀ {ss ts : List Str} {x y : Str},
    renderRest ss ++ x = renderRest ts ++ y → ss = ts ∧ x = y
  | [], [], x, y, h => ⟨rfl, by simpa [renderRest_nil] using h⟩
  | [], t :: ts, x, y, h => by
    rw [renderRest_nil, renderRest_cons] at h
    exact absurd (List.cons.inj h).1 (by decide)
  | s :: ss, [], x, y, h => by
    rw [renderRest_nil, renderRest_cons] at h
    exact absurd (List.cons.inj h).1 (by decide)
  | s :: ss, t :: ts, x, y, h => by
    rw [renderRest_cons, renderRest_cons] at h
    simp only [List.cons_append, List.append_assoc, List.cons.injEq, true_and] at h
    obtain ⟨rfl, hrest⟩ := escape_left h
    obtain ⟨rfl, rfl⟩ := renderRest_left hrest
    exact ⟨rfl, rfl⟩

/-- A list of strings ends at its bracket. -/
theorem renderTexts_left {ss ts : List Str} {x y : Str}
    (h : renderTexts ss ++ x = renderTexts ts ++ y) : ss = ts ∧ x = y := by
  cases ss with
  | nil =>
    cases ts with
    | nil => exact ⟨rfl, by simpa [renderTexts_nil] using h⟩
    | cons t ts =>
      rw [renderTexts_nil, renderTexts_cons] at h
      simp only [List.cons_append, List.cons.injEq, true_and] at h
      exact absurd h.1 (by decide)
  | cons s ss =>
    cases ts with
    | nil =>
      rw [renderTexts_nil, renderTexts_cons] at h
      simp only [List.cons_append, List.cons.injEq, true_and] at h
      exact absurd h.1 (by decide)
    | cons t ts =>
      rw [renderTexts_cons, renderTexts_cons] at h
      simp only [List.cons_append, List.append_assoc, List.cons.injEq, true_and] at h
      obtain ⟨rfl, hrest⟩ := escape_left h
      obtain ⟨rfl, rfl⟩ := renderRest_left hrest
      exact ⟨rfl, rfl⟩

/-! ## From the right

Reading from the right, a string begins at a quote that no backslash stands before. -/

/-- A quote stands for a quote only. -/
theorem quote_mem_escapeChar {c : CodePoint} (h : quote ∈ escapeChar c) : c = quote := by
  have hhex : ∀ n : Fin 16, quote ≠ hexDigit n := by decide
  rw [escapeChar] at h
  split_ifs at h with h1 h2 h3 h4 h5 h6 h7 h8
  · exact h1
  · exact absurd h (by decide)
  · exact absurd h (by decide)
  · exact absurd h (by decide)
  · exact absurd h (by decide)
  · exact absurd h (by decide)
  · exact absurd h (by decide)
  · simp only [List.mem_cons, List.not_mem_nil, or_false] at h
    rcases h with h | h | h | h | h | h
    · exact absurd h (by decide)
    · exact absurd h (by decide)
    · exact absurd h (by decide)
    · exact absurd h (by decide)
    · exact absurd h (hhex _)
    · exact absurd h (hhex _)
  · exact (List.mem_singleton.mp h).symm

theorem escapeChar_split {c : CodePoint} {a b : Str} (h : escapeChar c = a ++ quote :: b) :
    a = [backslash] := by
  have hc : c = quote := quote_mem_escapeChar (h ▸ List.mem_append_right _ List.mem_cons_self)
  rw [hc, show escapeChar quote = [backslash, quote] from rfl] at h
  match a with
  | [] => exact absurd (List.cons.inj h).1 (by decide)
  | [x] => rw [(List.cons.inj h).1]
  | x :: y :: a => exact absurd (congrArg List.length h) (by simp)

/-- A quote inside a string follows a backslash. -/
theorem quote_escaped : ∀ {s a b : Str}, escape s = a ++ quote :: b → ∃ a', a = a' ++ [backslash]
  | [], a, b, h => absurd h (by simp [escape])
  | c :: s, a, b, h => by
    rw [escape, List.append_eq_append_iff] at h
    rcases h with ⟨more, rfl, hs⟩ | ⟨more, hc, hb⟩
    · -- the quote is behind what stands for the first character
      obtain ⟨a', rfl⟩ := quote_escaped hs
      exact ⟨escapeChar c ++ a', by rw [List.append_assoc]⟩
    cases more with
    | nil =>
      obtain ⟨a', ha'⟩ := quote_escaped (s := s) (a := []) (b := b) hb.symm
      exact absurd ha' (by simp)
    | cons d more =>
      obtain rfl := (List.cons.inj hb).1
      exact ⟨[], escapeChar_split hc⟩

/-- So no quote follows another character. -/
theorem escape_ne {s a b : Str} {c : CodePoint} (hc : c ≠ backslash) :
    escape s ≠ a ++ c :: quote :: b := by
  intro h
  obtain ⟨a', ha'⟩ := quote_escaped (a := a ++ [c]) (by rw [h, List.append_assoc]; rfl)
  exact hc (List.singleton_inj.mp (List.append_inj' ha' rfl).2)

section
variable {c : CodePoint} (hq : c ≠ quote)
include hq

/-- A string is not the end of another one, with another character before it. -/
theorem renderString_not_inside (hb : c ≠ backslash) (s t z : Str) :
    renderString t ≠ z ++ c :: renderString s := by
  intro h
  cases z with
  | nil => exact hq (List.cons.inj h).1.symm
  | cons d z =>
    have hend : escape t ++ [quote] = (z ++ c :: quote :: escape s) ++ [quote] := by
      have h := (List.cons.inj h).2
      simpa [renderString] using h
    exact escape_ne hb (List.append_inj' hend rfl).1

/-- The last string of a text is known from the right. -/
theorem renderString_right (hb : c ≠ backslash) {x y s t : Str}
    (h : x ++ c :: renderString s = y ++ c :: renderString t) : x = y ∧ s = t := by
  have hinj : ∀ {s t : Str}, renderString s = renderString t → s = t := fun h ↦
    (renderString_left (x := []) (y := []) (by rw [h])).1
  rcases ends_cases h with ⟨z, hz, rfl⟩ | ⟨z, hz, rfl⟩
  · cases z with
    | nil => exact ⟨List.append_nil y, hinj (List.cons.inj hz).2.symm⟩
    | cons d z => exact absurd (List.cons.inj hz).2 (renderString_not_inside hq hb s t z)
  · cases z with
    | nil => exact ⟨(List.append_nil x).symm, hinj (List.cons.inj hz).2⟩
    | cons d z => exact absurd (List.cons.inj hz).2 (renderString_not_inside hq hb t s z)

end

/-- What is inside a string where another list is between two of its strings goes on like that: one
of the two is inside a string at the end as well. -/
theorem alternate :
    ∀ (ss ts : List Str) (s : Str), escape s ++ quote :: renderRest ss ≠ renderRest ts
  | ss, [], s, h => by
    have hmem : quote ∈ renderRest [] := h ▸ List.mem_append_right _ List.mem_cons_self
    exact absurd hmem (by decide)
  | ss, t :: ts, s, h => by
    rw [renderRest_cons] at h
    match hs : escape s with
    | [] =>
      rw [hs] at h
      exact absurd (List.cons.inj h).1 (by decide)
    | [_] =>
      rw [hs] at h
      exact absurd (List.cons.inj (List.cons.inj h).2).1 (by decide)
    | [_, _] =>
      rw [hs] at h
      exact alternate ts ss t (List.cons.inj (List.cons.inj (List.cons.inj h).2).2).2.symm
    | a :: b :: d :: more =>
      rw [hs] at h
      have hd : d = quote := (List.cons.inj (List.cons.inj (List.cons.inj h).2).2).1
      have hblank : b = ch ' ' := (List.cons.inj (List.cons.inj h).2).1
      have hne := escape_ne (s := s) (a := [a]) (b := more) (c := ch ' ') (by decide)
      exact hne (by rw [hs, hd, hblank]; rfl)
  termination_by ss ts => ss.length + ts.length

theorem renderRest_end : ∀ ts, ∃ w, quote :: renderRest ts = w ++ [quote, ch ']']
  | [] => ⟨[], rfl⟩
  | t :: ts => by
    obtain ⟨w, hw⟩ := renderRest_end ts
    exact ⟨quote :: ch ',' :: ch ' ' :: quote :: (escape t ++ w), by rw [renderRest_cons, hw]; simp⟩

/-- A list with a string in it ends in the quote of the last one. -/
theorem renderTexts_end (t : Str) (ts : List Str) :
    ∃ w, renderTexts (t :: ts) = w ++ [quote, ch ']'] := by
  obtain ⟨w, hw⟩ := renderRest_end ts
  exact ⟨ch '[' :: quote :: (escape t ++ w), by rw [renderTexts_cons, hw]; simp⟩

/-- A list ends in a bracket. -/
theorem renderTexts_bracket (ts : List Str) : ∃ w, renderTexts ts = w ++ [ch ']'] := by
  cases ts with
  | nil => exact ⟨[ch '['], rfl⟩
  | cons t ts =>
    obtain ⟨w, hw⟩ := renderTexts_end t ts
    exact ⟨w ++ [quote], by rw [hw]; simp⟩

/-- A character that stands before a list, and not between the strings of one. -/
structure Before (c : CodePoint) : Prop where
  quote : c ≠ quote
  bracket : c ≠ ch '['
  comma : c ≠ ch ','
  blank : c ≠ ch ' '

section
variable {c : CodePoint} (hc : Before c)
include hc

/-- Where a list begins inside another one: not in one of its strings, when it is not after one. -/
theorem not_inside_of_rest {ss ts : List Str} {s : Str}
    (hrest : ∀ w, renderRest ts ≠ w ++ c :: ch '[' :: quote :: (escape s ++ quote :: renderRest ss))
    (t z : Str) : escape t ++ quote :: renderRest ts ≠
      z ++ c :: ch '[' :: quote :: (escape s ++ quote :: renderRest ss) := by
  intro h
  have h : escape t ++ quote :: renderRest ts =
      (z ++ [c, ch '[']) ++ quote :: (escape s ++ quote :: renderRest ss) := by
    rw [h, List.append_assoc]
    rfl
  rcases List.append_eq_append_iff.mp h with ⟨a, hz, ha⟩ | ⟨a, ht, ha⟩
  · cases a with
    | nil => exact alternate ss ts s (List.cons.inj ha).2.symm
    | cons d a =>
      -- the string ends before the character
      obtain ⟨rfl, hr⟩ := List.cons.inj ha
      have hz : z ++ [c, ch '['] = (escape t ++ [quote]) ++ a := by
        rw [hz, List.append_assoc]
        rfl
      rcases ends_cases hz with ⟨w, rfl, -⟩ | ⟨w, hw, hend⟩
      · exact hrest w (by rw [hr]; simp)
      · match w with
        | [] =>
          obtain rfl : [c, ch '['] = a := hw
          exact hrest [] hr
        | [b] =>
          obtain rfl := (List.cons.inj hw).1
          exact hc.quote (List.singleton_inj.mp (List.append_inj' hend rfl).2).symm
        | [b, d] =>
          obtain rfl := (List.cons.inj (List.cons.inj hw).2).1
          have hlast : escape t ++ [quote] = (z ++ [b]) ++ [ch '['] := by simpa using hend
          exact absurd (List.singleton_inj.mp (List.append_inj' hlast rfl).2) (by decide)
        | b :: d :: e :: w => exact absurd (congrArg List.length hw) (by simp)
  · cases a with
    | nil => exact alternate ss ts s (List.cons.inj ha).2
    | cons d a =>
      obtain rfl := (List.cons.inj ha).1
      have hne := escape_ne (s := t) (a := z ++ [c]) (b := a) (c := ch '[') (by decide)
      exact hne (by rw [ht]; simp)

/-- A list does not begin in the middle of another one. -/
theorem rest_not_inside (ss : List Str) (s : Str) : ∀ (ts : List Str) (t z : Str),
    escape t ++ quote :: renderRest ts ≠
      z ++ c :: ch '[' :: quote :: (escape s ++ quote :: renderRest ss)
  | [], t, z => not_inside_of_rest hc
      (fun w h ↦ absurd (congrArg List.length h) (by simp [renderRest_nil]; omega)) t z
  | t' :: ts, t, z => by
    refine not_inside_of_rest hc (fun w h ↦ ?_) t z
    rw [renderRest_cons] at h
    match w with
    | [] => exact hc.comma (List.cons.inj h).1.symm
    | [_] => exact hc.blank (List.cons.inj (List.cons.inj h).2).1.symm
    | [_, _] => exact hc.quote (List.cons.inj (List.cons.inj (List.cons.inj h).2).2).1.symm
    | _ :: _ :: _ :: w =>
      exact rest_not_inside ss s ts t' w (List.cons.inj (List.cons.inj (List.cons.inj h).2).2).2

/-- No list of strings ends in a character and another such list. -/
theorem renderTexts_not_inside (ss ts : List Str) (z : Str) :
    renderTexts ts ≠ z ++ c :: renderTexts ss := by
  intro h
  cases ss with
  | nil =>
    have h : renderTexts ts = (z ++ [c]) ++ [ch '[', ch ']'] := by simpa [renderTexts_nil] using h
    cases ts with
    | nil =>
      have hlen := congrArg List.length h
      simp [renderTexts_nil] at hlen
    | cons t ts =>
      obtain ⟨w, hw⟩ := renderTexts_end t ts
      exact absurd (List.append_inj' (hw.symm.trans h) rfl).2 (by decide)
  | cons s ss =>
    rw [renderTexts_cons] at h
    cases ts with
    | nil =>
      have hlen := congrArg List.length h
      simp [renderTexts_nil] at hlen
      omega
    | cons t ts =>
      rw [renderTexts_cons] at h
      match z with
      | [] => exact hc.bracket (List.cons.inj h).1.symm
      | [_] => exact hc.quote (List.cons.inj (List.cons.inj h).2).1.symm
      | _ :: _ :: z => exact rest_not_inside hc ss s ts t z (List.cons.inj (List.cons.inj h).2).2

/-- The last list of a text is known from the right. -/
theorem renderTexts_right {x y : Str} {ss ts : List Str}
    (h : x ++ c :: renderTexts ss = y ++ c :: renderTexts ts) : x = y ∧ ss = ts := by
  have hinj : ∀ {ss ts : List Str}, renderTexts ss = renderTexts ts → ss = ts := fun h ↦
    (renderTexts_left (x := []) (y := []) (by rw [h])).1
  rcases ends_cases h with ⟨z, hz, rfl⟩ | ⟨z, hz, rfl⟩
  · cases z with
    | nil => exact ⟨List.append_nil y, hinj (List.cons.inj hz).2.symm⟩
    | cons d z => exact absurd (List.cons.inj hz).2 (renderTexts_not_inside hc ss ts z)
  · cases z with
    | nil => exact ⟨(List.append_nil x).symm, hinj (List.cons.inj hz).2⟩
    | cons d z => exact absurd (List.cons.inj hz).2 (renderTexts_not_inside hc ts ss z)

end

end Json

end Py
