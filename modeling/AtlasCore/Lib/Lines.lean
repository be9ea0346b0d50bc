import AtlasCore.Lib.Text

/-!
# Lines

Two notions of a line meet when a text file is read: opening it in text mode turns `\r\n` and `\r`
into `\n`, and `str.splitlines` then ends a line at *any* of the Unicode line breaks, of which the
line feed is only one.  A text without the others is split exactly at its line feeds
(`splitlinesKeep_line`), and a text with one of them is split there first (`splitlinesKeep_break`).
-/

set_option autoImplicit false

namespace Py

/-! ## Universal newlines

The three line ends of Python's text files, which all become a line feed. -/

/-- Text-mode reading; `afterCr` says the character before was a carriage return. -/
def newlinesFrom : Bool → Str → Str
  | _, [] => []
  | afterCr, c :: rest =>
    if c = lf ∧ afterCr then newlinesFrom false rest
    else if c = cr then lf :: newlinesFrom true rest
    else c :: newlinesFrom false rest

/-- What reading in text mode makes of `\r\n` and `\r`. -/
def universalNewlines (s : Str) : Str := newlinesFrom false s

/-- A text without carriage returns is read as it is. -/
theorem universalNewlines_eq {s : Str} (h : cr ∉ s) : universalNewlines s = s := by
  rw [universalNewlines]
  induction s with
  | nil => rfl
  | cons c s ih =>
    rw [List.mem_cons, not_or] at h
    rw [newlinesFrom, if_neg (by simp), if_neg (fun hc ↦ h.1 hc.symm), ih h.2]

/-- What is read of a beginning of a text is a beginning of what is read of all of it. -/
theorem newlinesFrom_grows : ∀ (afterCr : Bool) (s more : Str),
    newlinesFrom afterCr s <+: newlinesFrom afterCr (s ++ more)
  | _, [], _ => List.nil_prefix
  | afterCr, c :: rest, more => by
    rw [List.cons_append, newlinesFrom, newlinesFrom]
    split_ifs
    · exact newlinesFrom_grows false rest more
    · exact List.cons_prefix_cons.mpr ⟨rfl, newlinesFrom_grows true rest more⟩
    · exact List.cons_prefix_cons.mpr ⟨rfl, newlinesFrom_grows false rest more⟩

theorem universalNewlines_grows {s t : Str} (h : s <+: t) :
    universalNewlines s <+: universalNewlines t := by
  obtain ⟨more, rfl⟩ := h
  exact newlinesFrom_grows false s more

/-- No carriage return is left. -/
theorem cr_not_mem_newlinesFrom : ∀ (afterCr : Bool) (s : Str), cr ∉ newlinesFrom afterCr s
  | _, [] => List.not_mem_nil
  | afterCr, c :: rest => by
    rw [newlinesFrom]
    split_ifs with h1 h2
    · exact cr_not_mem_newlinesFrom false rest
    · exact fun h ↦ (List.mem_cons.mp h).elim (fun h ↦ absurd h (by decide))
        (cr_not_mem_newlinesFrom true rest)
    · exact fun h ↦ (List.mem_cons.mp h).elim (fun h ↦ h2 h.symm)
        (cr_not_mem_newlinesFrom false rest)

/-! ## `str.splitlines`

The lines of a text, cut at every character that Python counts as the end of one. -/

/-- `splitlines(keepends=True)`; `cur` is the line being read.  A carriage return ends a line unless
a line feed follows it, which then does. -/
def splitlinesFrom (cur : Str) : Str → List Str
  | [] => if cur = [] then [] else [cur]
  | c :: rest =>
    if isLineBreak c && !(c == cr && rest.head? == some lf) then
      (cur ++ [c]) :: splitlinesFrom [] rest
    else splitlinesFrom (cur ++ [c]) rest

/-- `s.splitlines(keepends=True)`: the lines with their ends, which together are the text. -/
def splitlinesKeep (s : Str) : List Str := splitlinesFrom [] s

/-- A line without its end, which may be two characters. -/
def dropLineEnd (line : Str) : Str :=
  if endsWith line [cr, lf] then line.dropLast.dropLast
  else if line.getLast?.any isLineBreak then line.dropLast
  else line

/-- `s.splitlines()`: Python breaks a text at more characters than line feeds. -/
def splitlines (s : Str) : List Str := (splitlinesKeep s).map dropLineEnd

theorem splitlinesFrom_eq_nil {s cur : Str} (h : splitlinesFrom cur s = []) :
    cur = [] ∧ s = [] := by
  induction s generalizing cur with
  | nil =>
    rw [splitlinesFrom] at h
    split_ifs at h with hcur
    exact ⟨hcur, rfl⟩
  | cons c rest ih =>
    rw [splitlinesFrom] at h
    split_ifs at h
    exact absurd (ih h).1 (List.append_ne_nil_of_right_ne_nil _ (List.cons_ne_nil _ _))

/-- Only the empty text has no line. -/
theorem splitlines_eq_nil {s : Str} (h : splitlines s = []) : s = [] :=
  (splitlinesFrom_eq_nil (List.map_eq_nil_iff.mp h)).2

/-- Whether no character of a text ends a line. -/
def oneLine (s : Str) : Bool := s.all fun c ↦ !isLineBreak c

theorem oneLine_append (s t : Str) : oneLine (s ++ t) = (oneLine s && oneLine t) :=
  List.all_append

theorem splitlinesFrom_append {l : Str} (hl : oneLine l = true) (cur rest : Str) :
    splitlinesFrom cur (l ++ rest) = splitlinesFrom (cur ++ l) rest := by
  induction l generalizing cur with
  | nil => rw [List.nil_append, List.append_nil]
  | cons c l ih =>
    rw [oneLine, List.all_cons, Bool.and_eq_true, Bool.not_eq_true'] at hl
    rw [List.cons_append, splitlinesFrom, hl.1, Bool.false_and, if_neg (by simp), ih hl.2,
      List.append_assoc, List.singleton_append]

/-- The first line break of a text ends its first line. -/
theorem splitlinesKeep_break {l : Str} (hl : oneLine l = true) {c : CodePoint}
    (hc : isLineBreak c = true) (hcr : c ≠ cr) (rest : Str) :
    splitlinesKeep (l ++ c :: rest) = (l ++ [c]) :: splitlinesKeep rest := by
  rw [splitlinesKeep, splitlinesFrom_append hl, List.nil_append, splitlinesFrom, hc, Bool.true_and,
    if_pos (by simp [hcr])]
  rfl

/-- A line feed ends a line. -/
theorem splitlinesKeep_line {l : Str} (hl : oneLine l = true) (rest : Str) :
    splitlinesKeep (l ++ lf :: rest) = (l ++ [lf]) :: splitlinesKeep rest :=
  splitlinesKeep_break hl (by decide) (by decide) rest

/-- What follows the last line break is a line without an end. -/
theorem splitlinesKeep_tail {l : Str} (hl : oneLine l = true) :
    splitlinesKeep l = if l = [] then [] else [l] := by
  have h := splitlinesFrom_append hl [] []
  rw [List.append_nil, List.nil_append, splitlinesFrom] at h
  exact h

theorem splitlinesFrom_ne_nil : ∀ {cur s : Str}, cur ≠ [] ∨ s ≠ [] → splitlinesFrom cur s ≠ []
  | cur, [], h => by
    rw [splitlinesFrom, if_neg (h.resolve_right (by simp))]
    simp
  | cur, c :: s, _ => by
    rw [splitlinesFrom]
    split
    · simp
    · exact splitlinesFrom_ne_nil (.inl (by simp))

theorem splitlinesKeep_ne_nil {s : Str} (h : s ≠ []) : splitlinesKeep s ≠ [] :=
  splitlinesFrom_ne_nil (.inr h)

/-- The lines of a text that goes on: those that are done, and the rest of the last. -/
theorem splitlinesFrom_grows {more : Str} : ∀ {cur s : Str}, oneLine cur = true → cr ∉ s →
    ∃ done last, oneLine last = true ∧
      splitlinesFrom cur s = done ++ (if last = [] then [] else [last]) ∧
      splitlinesFrom cur (s ++ more) = done ++ splitlinesFrom last more
  | cur, [], hcur, _ => ⟨[], cur, hcur, rfl, rfl⟩
  | cur, c :: s, hcur, hcr => by
    rw [List.mem_cons, not_or] at hcr
    have hne : (c == cr) = false := beq_eq_false_iff_ne.mpr (Ne.symm hcr.1)
    by_cases hc : isLineBreak c = true
    · obtain ⟨done, last, hlast, hs, hmore⟩ := @splitlinesFrom_grows more [] s rfl hcr.2
      refine ⟨(cur ++ [c]) :: done, last, hlast, ?_, ?_⟩
      · rw [splitlinesFrom, hc, hne, Bool.false_and, Bool.not_false, Bool.and_self, if_pos rfl, hs,
          List.cons_append]
      · rw [List.cons_append, splitlinesFrom, hc, hne, Bool.false_and, Bool.not_false,
          Bool.and_self, if_pos rfl, hmore, List.cons_append]
    · rw [Bool.not_eq_true] at hc
      have hcur' : oneLine (cur ++ [c]) = true := by
        rw [oneLine_append, hcur, Bool.true_and, oneLine, List.all_cons, hc]
        rfl
      obtain ⟨done, last, hlast, hs, hmore⟩ := @splitlinesFrom_grows more _ s hcur' hcr.2
      refine ⟨done, last, hlast, ?_, ?_⟩
      · rw [splitlinesFrom, hc, Bool.false_and, if_neg (by simp), hs]
      · rw [List.cons_append, splitlinesFrom, hc, Bool.false_and, if_neg (by simp), hmore]

/-- A text that is not one line has a first line break. -/
theorem exists_lineBreak {s : Str} (h : oneLine s = false) :
    ∃ l c rest, s = l ++ c :: rest ∧ oneLine l = true ∧ isLineBreak c = true := by
  induction s with
  | nil => exact absurd h (by simp [oneLine])
  | cons c s ih =>
    by_cases hc : isLineBreak c = true
    · exact ⟨[], c, s, rfl, rfl, hc⟩
    · have hs : oneLine s = false := by
        rw [oneLine, List.all_cons] at h
        simpa [hc, oneLine] using h
      obtain ⟨l, d, rest, rfl, hl, hd⟩ := ih hs
      refine ⟨c :: l, d, rest, rfl, ?_, hd⟩
      rw [oneLine, List.all_cons, Bool.and_eq_true]
      exact ⟨by simpa using hc, hl⟩

theorem oneLine_cr {s : Str} (h : oneLine s = true) : cr ∉ s := by
  intro hm
  rw [oneLine, List.all_eq_true] at h
  exact absurd (h cr hm) (by decide)

theorem oneLine_lf {s : Str} (h : oneLine s = true) : lf ∉ s := by
  intro hm
  rw [oneLine, List.all_eq_true] at h
  exact absurd (h lf hm) (by decide)

/-! ## Texts put together at a line feed

The lines of two texts with a line feed between them are the lines of the one and those of the
other. -/

/-- A line feed ends the lines before it, whatever follows. -/
theorem splitlinesFrom_lf (rest : Str) : ∀ (s cur : Str),
    splitlinesFrom cur (s ++ lf :: rest) = splitlinesFrom cur (s ++ [lf]) ++ splitlinesFrom [] rest
  | [], cur => by
    have hlf : ∀ t, splitlinesFrom cur (lf :: t) = (cur ++ [lf]) :: splitlinesFrom [] t :=
      fun t ↦ by
      rw [splitlinesFrom, show isLineBreak lf = true from rfl, show (lf == cr) = false from rfl,
        Bool.false_and, Bool.not_false, Bool.and_self, if_pos rfl]
    rw [List.nil_append, List.nil_append, hlf, hlf, splitlinesFrom, if_pos rfl, List.cons_append,
      List.nil_append]
  | c :: s, cur => by
    have hhead : (s ++ lf :: rest).head? = (s ++ [lf]).head? := by cases s <;> rfl
    rw [List.cons_append, List.cons_append, splitlinesFrom, splitlinesFrom, hhead]
    split_ifs
    · rw [splitlinesFrom_lf rest s, List.cons_append]
    · exact splitlinesFrom_lf rest s _

theorem splitlines_lf (s rest : Str) :
    splitlines (s ++ lf :: rest) = splitlines (s ++ [lf]) ++ splitlines rest := by
  rw [splitlines, splitlinesKeep, splitlinesFrom_lf, List.map_append]
  rfl

/-- A line without a line break, and then one. -/
theorem dropLineEnd_break {l : Str} {c : CodePoint} (hl : oneLine l = true)
    (hc : isLineBreak c = true) : dropLineEnd (l ++ [c]) = l := by
  have hcrlf : endsWith (l ++ [c]) [cr, lf] = false := by
    rw [Bool.eq_false_iff]
    intro h
    rw [endsWith, List.isSuffixOf_iff_suffix] at h
    obtain ⟨t, ht⟩ := h
    have hinit := congrArg List.dropLast ht
    rw [List.dropLast_concat, show t ++ [cr, lf] = (t ++ [cr]) ++ [lf] by simp,
      List.dropLast_concat] at hinit
    exact oneLine_cr hl (by rw [← hinit]; simp)
  rw [dropLineEnd, hcrlf, if_neg Bool.false_ne_true, List.getLast?_concat, Option.any_some, hc,
    if_pos rfl, List.dropLast_concat]

theorem dropLineEnd_crlf {l : Str} : dropLineEnd (l ++ [cr] ++ [lf]) = l := by
  have hcrlf : endsWith (l ++ [cr] ++ [lf]) [cr, lf] = true := by
    rw [endsWith, List.isSuffixOf_iff_suffix]
    exact ⟨l, by simp⟩
  rw [dropLineEnd, hcrlf, if_pos rfl, List.dropLast_concat, List.dropLast_concat]

/-- A line that has no end is all of it. -/
theorem dropLineEnd_oneLine {l : Str} (hl : oneLine l = true) : dropLineEnd l = l := by
  have hcrlf : endsWith l [cr, lf] = false := by
    rw [Bool.eq_false_iff]
    intro h
    rw [endsWith, List.isSuffixOf_iff_suffix] at h
    exact oneLine_lf hl (h.subset (by simp))
  have hlast : l.getLast?.any isLineBreak = false := by
    rw [Bool.eq_false_iff]
    intro h
    obtain ⟨c, hc, hbreak⟩ := (Option.any_eq_true _ _).mp h
    have hall := List.all_eq_true.mp hl c (List.mem_of_getLast? hc)
    rw [hbreak] at hall
    cases hall
  rw [dropLineEnd, hcrlf, hlast]
  rfl

/-- What ends a line of a text that goes on with `rest`: a line break that no line feed completes,
or the two of them. -/
def IsLineEnd (e rest : Str) : Prop :=
  (∃ c, isLineBreak c = true ∧ e = [c] ∧ ¬ (c = cr ∧ rest.head? = some lf)) ∨ e = [cr, lf]

theorem isLineEnd_lf (rest : Str) : IsLineEnd [lf] rest :=
  .inl ⟨lf, rfl, rfl, fun h ↦ absurd h.1 (by decide)⟩

theorem splitlines_lineEnd {l e rest : Str} (hl : oneLine l = true) (he : IsLineEnd e rest) :
    splitlines (l ++ e ++ rest) = l :: splitlines rest := by
  rw [splitlines, splitlinesKeep, List.append_assoc, splitlinesFrom_append hl, List.nil_append]
  obtain ⟨c, hc, rfl, hcr⟩ | rfl := he
  · have hend : (isLineBreak c && !(c == cr && rest.head? == some lf)) = true := by
      rw [hc, Bool.true_and, Bool.not_eq_true', Bool.eq_false_iff]
      simpa using hcr
    rw [List.singleton_append, splitlinesFrom, if_pos hend, List.map_cons,
      dropLineEnd_break hl hc]
    rfl
  · rw [List.cons_append, List.singleton_append, splitlinesFrom, if_neg (by simp), splitlinesFrom,
      show (lf == cr) = false from rfl, Bool.false_and, Bool.not_false, Bool.and_true,
      if_pos (show isLineBreak lf = true from rfl), List.map_cons, dropLineEnd_crlf]
    rfl

theorem splitlines_oneLine {l : Str} (hl : oneLine l = true) :
    splitlines l = if l = [] then [] else [l] := by
  rw [splitlines, splitlinesKeep_tail hl]
  split
  · rfl
  · rw [List.map_singleton, dropLineEnd_oneLine hl]

/-- Induction over the lines `splitlines` sees. -/
theorem splitlines_induction {P : Str → Prop} (last : ∀ l, oneLine l = true → P l)
    (line : ∀ l e rest, oneLine l = true → IsLineEnd e rest → P rest → P (l ++ e ++ rest))
    (s : Str) : P s := by
  by_cases hs : oneLine s = true
  · exact last s hs
  · obtain ⟨l, c, rest, rfl, hl, hc⟩ := exists_lineBreak (Bool.eq_false_iff.mpr hs)
    by_cases hcr : c = cr ∧ rest.head? = some lf
    · obtain ⟨rfl, hhead⟩ := hcr
      obtain ⟨rest, rfl⟩ := List.head?_eq_some_iff.mp hhead
      have h := line l [cr, lf] rest hl (.inr rfl) (splitlines_induction last line rest)
      rwa [List.append_assoc] at h
    · have h := line l [c] rest hl (.inl ⟨c, hc, rfl, hcr⟩) (splitlines_induction last line rest)
      rwa [List.append_assoc] at h
  termination_by s.length
  decreasing_by all_goals (subst_vars; simp; omega)

/-- No line holds a line break. -/
theorem oneLine_of_mem_splitlines {line : Str} (s : Str) :
    line ∈ splitlines s → oneLine line = true := by
  induction s using splitlines_induction with
  | last l hl =>
    rw [splitlines_oneLine hl]
    split
    · exact fun h ↦ absurd h List.not_mem_nil
    · exact fun h ↦ List.mem_singleton.mp h ▸ hl
  | line l e rest hl he ih =>
    rw [splitlines_lineEnd hl he]
    exact fun h ↦ (List.mem_cons.mp h).elim (fun h ↦ h ▸ hl) ih

/-- A line feed at the end of a text adds at most an empty line. -/
theorem splitlines_end (s : Str) :
    splitlines (s ++ [lf]) = splitlines s ∨ splitlines (s ++ [lf]) = splitlines s ++ [[]] := by
  induction s using splitlines_induction with
  | last l hl =>
    have hend := splitlines_lineEnd hl (isLineEnd_lf [])
    rw [List.append_nil] at hend
    rw [hend, splitlines_oneLine hl]
    split
    · rename_i h
      exact .inr (by rw [h]; rfl)
    · exact .inl rfl
  | line l e rest hl he ih =>
    rw [splitlines_lineEnd hl he, List.append_assoc]
    by_cases hcr : e = [cr] ∧ rest = []
    · -- the line feed completes the last line end
      obtain ⟨rfl, rfl⟩ := hcr
      have h : splitlines (l ++ [cr, lf] ++ []) = l :: splitlines [] :=
        splitlines_lineEnd hl (.inr rfl)
      rw [List.append_nil] at h
      rw [List.append_assoc]
      exact .inl h
    · have he' : IsLineEnd e (rest ++ [lf]) := by
        obtain ⟨c, hc, rfl, hcr'⟩ | h := he
        · refine .inl ⟨c, hc, rfl, fun h ↦ ?_⟩
          cases rest with
          | nil => exact hcr ⟨by rw [h.1], rfl⟩
          | cons d rest => exact hcr' h
        · exact .inr h
      rw [splitlines_lineEnd hl he', List.cons_append]
      exact ih.imp (congrArg (l :: ·)) (congrArg (l :: ·))

/-! ## Lines between line feeds

What a regular expression knows as a line: with `re.MULTILINE` a line starts after a line feed, and
after nothing else. -/

/-- `s.split("\n")`: broken at line feeds only, with an empty last line where the text ends in one.
-/
def linesAtLf (s : Str) : List Str := s.splitOn lf

theorem linesAtLf_last {l : Str} (hl : lf ∉ l) : linesAtLf l = [l] := List.splitOn_eq_singleton hl

theorem linesAtLf_line {l : Str} (hl : lf ∉ l) (rest : Str) :
    linesAtLf (l ++ lf :: rest) = l :: linesAtLf rest :=
  List.splitOn_append_cons_self_of_not_mem hl rest

theorem linesAtLf_ne_nil (s : Str) : linesAtLf s ≠ [] := List.splitOn_ne_nil lf s

/-- Induction over what is between the separators of a list. -/
theorem splitOn_induction {α : Type*} [DecidableEq α] (x : α) {P : List α → Prop}
    (last : ∀ l, x ∉ l → P l) (line : ∀ l rest, x ∉ l → P rest → P (l ++ x :: rest))
    (s : List α) : P s := by
  suffices h : ∀ l, x ∉ l → P (l ++ s) from h [] List.not_mem_nil
  induction s with
  | nil =>
    intro l hl
    rw [List.append_nil]
    exact last l hl
  | cons c s ih =>
    intro l hl
    by_cases hc : c = x
    · rw [hc]
      exact line l s hl (ih [] List.not_mem_nil)
    · have hmem : x ∉ l ++ [c] := by
        rw [List.mem_append, List.mem_singleton, not_or]
        exact ⟨hl, fun h ↦ hc h.symm⟩
      have h := ih (l ++ [c]) hmem
      rwa [List.append_assoc, List.singleton_append] at h

/-- Induction over the lines of a text. -/
theorem lines_induction {P : Str → Prop} (last : ∀ l, lf ∉ l → P l)
    (line : ∀ l rest, lf ∉ l → P rest → P (l ++ lf :: rest)) (s : Str) : P s :=
  splitOn_induction lf last line s

/-- What starts a list and does not hold the separator starts its first part. -/
theorem isPrefixOf_line {α : Type*} [DecidableEq α] {x : α} : ∀ {p l : List α}, x ∉ p → ∀ rest,
    p.isPrefixOf (l ++ x :: rest) = p.isPrefixOf l
  | [], _, _, _ => by rw [List.isPrefixOf_nil_left, List.isPrefixOf_nil_left]
  | c :: p, [], hp, rest => by
    rw [List.mem_cons, not_or] at hp
    show (c == x && _) = false
    rw [beq_eq_false_iff_ne.mpr (Ne.symm hp.1), Bool.false_and]
  | c :: p, d :: l, hp, rest => by
    rw [List.mem_cons, not_or] at hp
    rw [List.cons_append, List.isPrefixOf, List.isPrefixOf, isPrefixOf_line hp.2]

end Py
