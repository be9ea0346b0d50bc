import AtlasCore.Lib.JsonQuoting
import AtlasCore.Evidence.Decisive

/-!
# The sentence of a typed claim

A typed claim is settled for the finding whose text is the sentence the claim is rendered to, so two
claims with one sentence are one claim to a reader.  The sentence has the path of the source as it
is, next to fixed words and to what is quoted.

For a literal claim that is enough: the quoted text is the last thing in it (`renderString_right`),
and the lines before it are digits, so the path is what is left (`render_inj`).  In a comparison
each path is followed by `=` and a list, and a path may have both of them in it.  Then the first
path may go on over the list of another claim (`Shifts`), and `sentence_determines_iff` has it that
this is the only way.  The lines are not in the sentence of a comparison at all.
-/

set_option autoImplicit false

namespace AtlasCore

open Py Py.Json

/-- What a sentence is rendered for: the lines of a source and, in a comparison, the second path. -/
structure Window where
  path : Str
  lineStart : ℤ
  lineEnd : ℤ
  otherPath : Option Str := none

/-- `TypedClaim.render`: one sentence or the other, by the kind of the claim; a comparison needs the
path of its second source. -/
def TypedClaim.sentence (c : TypedClaim) (w : Window) : Except Exc Str :=
  if c.kind = .commandTargetsDiffer then
    match w.otherPath with
    | none => .error .valueError
    | some other => .ok (c.renderCommands w.path other)
  else .ok (c.render w.path w.lineStart w.lineEnd)

/-! ## Literal claims

The sentence is cut from the right: the text is a JSON string, and before it stand a verb and two
numbers. -/

/-- The verb of a literal claim, the only word in which the two kinds differ. -/
def TypedClaim.verb (c : TypedClaim) : Str :=
  if c.kind = .contains then str "contain" else str "do not contain"

/-- The lines of a sentence: the first and the last, with a hyphen between them. -/
def linesText (a b : ℤ) : Str := decimalInt a ++ ch '-' :: decimalInt b

theorem decimal_cut {n m : ℕ} {x y : Str}
    (h : decimal n ++ ch '-' :: x = decimal m ++ ch '-' :: y) : n = m ∧ x = y := by
  obtain ⟨hnum, hrest⟩ := first_cut (not_mem_decimal (by decide)) (not_mem_decimal (by decide)) h
  exact ⟨decimal_injective hnum, hrest⟩

theorem decimal_ne_minus {n m : ℕ} {x y : Str} :
    decimal n ++ ch '-' :: x ≠ ch '-' :: (decimal m ++ ch '-' :: y) := by
  intro h
  cases hn : decimal n with
  | nil => exact digits_ne_nil n (List.map_eq_nil_iff.mp hn)
  | cons d ds =>
    rw [hn] at h
    have hmem : ch '-' ∈ decimal n := by
      rw [hn, (List.cons.inj h).1]
      exact List.mem_cons_self
    exact not_mem_decimal (by decide) hmem

/-- The number of the first line ends at the hyphen after it, its own sign apart. -/
theorem decimalInt_cut {a b : ℤ} {x y : Str}
    (h : decimalInt a ++ ch '-' :: x = decimalInt b ++ ch '-' :: y) : a = b ∧ x = y := by
  rw [decimalInt, decimalInt] at h
  split_ifs at h with ha hb hb
  · obtain ⟨hnum, hrest⟩ := decimal_cut (List.cons.inj h).2
    exact ⟨by omega, hrest⟩
  · exact absurd h.symm decimal_ne_minus
  · exact absurd h decimal_ne_minus
  · obtain ⟨hnum, hrest⟩ := decimal_cut h
    exact ⟨by omega, hrest⟩

theorem blank_not_mem_linesText (a b : ℤ) : ch ' ' ∉ linesText a b := by
  have hnum : ∀ z, ch ' ' ∉ decimalInt z := fun z ↦ not_mem_decimalInt (by decide) (by decide)
  rw [linesText, List.mem_append, List.mem_cons, not_or, not_or]
  exact ⟨hnum a, by decide, hnum b⟩

theorem linesText_inj {a b a' b' : ℤ} (h : linesText a b = linesText a' b') : a = a' ∧ b = b' := by
  obtain ⟨rfl, hb⟩ := decimalInt_cut h
  exact ⟨rfl, decimalInt_injective hb⟩

theorem TypedClaim.render_eq (c : TypedClaim) (p : Str) (a b : ℤ) :
    c.render p a b =
      ((p ++ str " lines") ++ ch ' ' :: linesText a b) ++ ch ' ' :: c.verb ++
        ch ' ' :: renderString c.text := by
  have hlines : str " lines " = str " lines" ++ [ch ' '] := by decide
  rw [render, verb, linesText, quoted, hlines]
  simp only [List.append_assoc, List.cons_append, List.nil_append]

/-- What is before the verb of one claim is not before the other verb. -/
theorem verb_ne {x y : Str} {a b : ℤ} :
    (x ++ ch ' ' :: linesText a b) ++ ch ' ' :: str "contain" ≠ y ++ ch ' ' :: str
      "do not contain" := by
  intro h
  have hverb : ch ' ' :: str "do not contain" =
      ch ' ' :: str "do" ++ ch ' ' :: str "not" ++ ch ' ' :: str "contain" := by decide
  rw [hverb, ← List.append_assoc, ← List.append_assoc] at h
  obtain ⟨h, -⟩ := last_cut (by decide) (by decide) h
  obtain ⟨-, h⟩ := last_cut (blank_not_mem_linesText a b) (by decide) h
  have hmem : ch '-' ∈ str "not" := h ▸ List.mem_append_right _ List.mem_cons_self
  exact absurd hmem (by decide)

/-- The sentence of a literal claim is of that claim and of those lines only. -/
theorem TypedClaim.render_inj {c c' : TypedClaim} (hc : c.kind ≠ .commandTargetsDiffer)
    (hc' : c'.kind ≠ .commandTargetsDiffer) {p p' : Str} {a b a' b' : ℤ}
    (h : c.render p a b = c'.render p' a' b') :
    c.kind = c'.kind ∧ c.text = c'.text ∧ p = p' ∧ a = a' ∧ b = b' := by
  rw [render_eq, render_eq] at h
  obtain ⟨h, htext⟩ := renderString_right (by decide) (by decide) h
  have hkind : c.kind = c'.kind := by
    rw [verb, verb] at h
    split_ifs at h with hk hk' hk'
    · rw [hk, hk']
    · exact absurd h verb_ne
    · exact absurd h.symm verb_ne
    · cases hcase : c.kind <;> cases hcase' : c'.kind <;> first | rfl | contradiction
  have hverb : c.verb = c'.verb := by rw [verb, verb, hkind]
  rw [hverb] at h
  obtain ⟨hwords, hlines⟩ :=
    last_cut (blank_not_mem_linesText a b) (blank_not_mem_linesText a' b')
      (List.append_cancel_right h)
  exact ⟨hkind, htext, List.append_cancel_right hwords, linesText_inj hlines⟩

/-! ## Comparisons

Of a comparison the command and the last list can be read off the sentence; what is between them can
be read in more than one way. -/

/-- What is between the first path of a comparison and its second list. -/
def TypedClaim.between (c : TypedClaim) (other : Str) : Str :=
  quotedList c.sourceTargets ++ str "; " ++ other

theorem TypedClaim.between_inj {c c' : TypedClaim} {o o' : Str} (h : c.between o = c'.between o') :
    c.sourceTargets = c'.sourceTargets ∧ o = o' := by
  rw [between, between, List.append_assoc, List.append_assoc] at h
  obtain ⟨htargets, h⟩ := renderTexts_left h
  exact ⟨htargets, List.append_cancel_left h⟩

theorem TypedClaim.renderCommands_eq (c : TypedClaim) (p o : Str) :
    c.renderCommands p o = str "command " ++ (renderString c.text ++ (str " targets differ: " ++
      ((p ++ ch '=' :: c.between o) ++ ch '=' :: renderTexts c.otherTargets))) := by
  rw [renderCommands, between, quoted, quotedList, quotedList, renderTexts]
  simp only [List.append_assoc, List.cons_append, List.nil_append]

/-- Of a comparison the text and the second list are in the sentence, and what is between them
is. -/
theorem TypedClaim.renderCommands_eq_iff {c c' : TypedClaim} {p o p' o' : Str} :
    c.renderCommands p o = c'.renderCommands p' o' ↔
      c.text = c'.text ∧ c.otherTargets = c'.otherTargets ∧
        p ++ ch '=' :: c.between o = p' ++ ch '=' :: c'.between o' := by
  rw [renderCommands_eq, renderCommands_eq]
  constructor
  · intro h
    obtain ⟨htext, h⟩ := renderString_left (List.append_cancel_left h)
    obtain ⟨hbetween, htargets⟩ :=
      renderTexts_right ⟨by decide, by decide, by decide, by decide⟩ (List.append_cancel_left h)
    exact ⟨htext, htargets, hbetween⟩
  · rintro ⟨htext, htargets, hbetween⟩
    rw [htext, htargets, hbetween]

/-- A literal claim ends in a quote, a comparison in a bracket. -/
theorem TypedClaim.render_ne_renderCommands {c c' : TypedClaim} {p p' o : Str} {a b : ℤ} :
    c.render p a b ≠ c'.renderCommands p' o := by
  intro h
  obtain ⟨w, hw⟩ := renderTexts_bracket c'.otherTargets
  rw [render_eq, renderCommands_eq, renderString, hw] at h
  simp only [← List.append_assoc, ← List.cons_append] at h
  exact absurd (List.append_inj' h rfl).2 (by decide)

/-! ## Two claims with one sentence

When a sentence says the same of two claims, in spite of the separators between its parts. -/

section
variable (c : TypedClaim) (w : Window) (c' : TypedClaim) (w' : Window)

/-- Two claims are the same to a reader, as far as their sentences name what they are about. -/
structure SameWords : Prop where
  kind : c.kind = c'.kind
  text : c.text = c'.text
  path : w.path = w'.path
  lines : c.kind ≠ .commandTargetsDiffer → w.lineStart = w'.lineStart ∧ w.lineEnd = w'.lineEnd
  otherPath : c.kind = .commandTargetsDiffer → w.otherPath = w'.otherPath
  sourceTargets : c.sourceTargets = c'.sourceTargets
  otherTargets : c.otherTargets = c'.otherTargets

/-- The first path of the second comparison goes on over the first list of the first one. -/
structure Shifts : Prop where
  comparison : c.kind = .commandTargetsDiffer ∧ c'.kind = .commandTargetsDiffer
  text : c.text = c'.text
  otherTargets : c.otherTargets = c'.otherTargets
  path : ∃ o o' z, w.otherPath = some o ∧ w'.otherPath = some o' ∧
    w'.path = w.path ++ ch '=' :: z ∧ c.between o = z ++ ch '=' :: c'.between o'

/-- One comparison, of other lines of its first source. -/
structure OtherLines : Prop where
  comparison : c.kind = .commandTargetsDiffer ∧ c'.kind = .commandTargetsDiffer
  text : c.text = c'.text
  paths : w.path = w'.path ∧ ∃ o, w.otherPath = some o ∧ w'.otherPath = some o
  targets : c.sourceTargets = c'.sourceTargets ∧ c.otherTargets = c'.otherTargets
  lines : ¬ (w.lineStart = w'.lineStart ∧ w.lineEnd = w'.lineEnd)

end

section
variable {c c' : TypedClaim} {w w' : Window}

theorem TypedClaim.sentence_comparison (hc : c.kind = .commandTargetsDiffer) {s : Str} :
    c.sentence w = .ok s ↔ ∃ o, w.otherPath = some o ∧ c.renderCommands w.path o = s := by
  rw [sentence, if_pos hc]
  cases w.otherPath with
  | none => exact iff_of_false nofun (by simp)
  | some o => simp

theorem TypedClaim.sentence_literal (hc : c.kind ≠ .commandTargetsDiffer) :
    c.sentence w = .ok (c.render w.path w.lineStart w.lineEnd) := by
  rw [sentence, if_neg hc]

theorem TypedClaim.targets_literal (hc : c.kind ≠ .commandTargetsDiffer) :
    c.sourceTargets = [] ∧ c.otherTargets = [] := by
  have hfits := c.fits
  rw [if_neg hc] at hfits
  exact hfits.2

/-- Of two comparisons with one sentence the paths are the same, or one goes on over a list. -/
theorem comparison_cases (hc : c.kind = .commandTargetsDiffer)
    (hc' : c'.kind = .commandTargetsDiffer)
    {o o' : Str} (ho : w.otherPath = some o) (ho' : w'.otherPath = some o')
    (h : c.renderCommands w.path o = c'.renderCommands w'.path o') :
    SameWords c w c' w' ∨ Shifts c w c' w' ∨ Shifts c' w' c w := by
  obtain ⟨htext, htargets, hbetween⟩ := TypedClaim.renderCommands_eq_iff.mp h
  rcases ends_cases hbetween with ⟨z, hz, hpath⟩ | ⟨z, hz, hpath⟩
  all_goals cases z with
    | nil =>
      obtain ⟨hsource, rfl⟩ := TypedClaim.between_inj (List.cons.inj hz).2
      rw [List.append_nil] at hpath
      exact .inl ⟨hc.trans hc'.symm, htext, by rw [hpath], fun hne ↦ absurd hc hne,
        fun _ ↦ ho.trans ho'.symm, by rw [hsource], htargets⟩
    | cons d z =>
      obtain ⟨rfl, hrest⟩ := List.cons.inj hz
      right
      first
        | exact .inr ⟨⟨hc', hc⟩, htext.symm, htargets.symm, o', o, z, ho', ho, hpath, hrest⟩
        | exact .inl ⟨⟨hc, hc'⟩, htext, htargets, o, o', z, ho, ho', hpath, hrest⟩

/-- What two claims with one sentence are. -/
theorem sentence_cases {s : Str} (h : c.sentence w = .ok s) (h' : c'.sentence w' = .ok s) :
    SameWords c w c' w' ∨ Shifts c w c' w' ∨ Shifts c' w' c w := by
  by_cases hc : c.kind = .commandTargetsDiffer <;> by_cases hc' : c'.kind = .commandTargetsDiffer
  · obtain ⟨o, ho, rfl⟩ := (TypedClaim.sentence_comparison hc).mp h
    obtain ⟨o', ho', heq⟩ := (TypedClaim.sentence_comparison hc').mp h'
    exact comparison_cases hc hc' ho ho' heq.symm
  · obtain ⟨o, ho, rfl⟩ := (TypedClaim.sentence_comparison hc).mp h
    rw [TypedClaim.sentence_literal hc', Except.ok.injEq] at h'
    exact absurd h' TypedClaim.render_ne_renderCommands
  · obtain ⟨o', ho', rfl⟩ := (TypedClaim.sentence_comparison hc').mp h'
    rw [TypedClaim.sentence_literal hc, Except.ok.injEq] at h
    exact absurd h TypedClaim.render_ne_renderCommands
  · rw [TypedClaim.sentence_literal hc, Except.ok.injEq] at h
    rw [TypedClaim.sentence_literal hc', Except.ok.injEq] at h'
    obtain ⟨hkind, htext, hpath, hlines⟩ := TypedClaim.render_inj hc hc' (h.trans h'.symm)
    obtain ⟨hs, ho⟩ := TypedClaim.targets_literal hc
    obtain ⟨hs', ho'⟩ := TypedClaim.targets_literal hc'
    exact .inl ⟨hkind, htext, hpath, fun _ ↦ hlines, fun h ↦ absurd h hc, by rw [hs, hs'],
      by rw [ho, ho']⟩

/-- Where a path goes on over a list the sentences are one. -/
theorem Shifts.sentence (h : Shifts c w c' w') :
    ∃ s, c.sentence w = .ok s ∧ c'.sentence w' = .ok s := by
  obtain ⟨⟨hc, hc'⟩, htext, htargets, o, o', z, ho, ho', hpath, hbetween⟩ := h
  refine ⟨c.renderCommands w.path o, (TypedClaim.sentence_comparison hc).mpr ⟨o, ho, rfl⟩,
    (TypedClaim.sentence_comparison hc').mpr ⟨o', ho', ?_⟩⟩
  refine TypedClaim.renderCommands_eq_iff.mpr ⟨htext.symm, htargets.symm, ?_⟩
  rw [hpath, hbetween, List.append_assoc, List.cons_append]

/-- … and the claims are not. -/
theorem Shifts.path_ne (h : Shifts c w c' w') : w.path ≠ w'.path := by
  obtain ⟨-, -, -, -, -, z, -, -, hpath, -⟩ := h
  intro heq
  rw [hpath] at heq
  have hlen := congrArg List.length heq
  rw [List.length_append, List.length_cons] at hlen
  omega

/-- A path without `=` goes on over nothing. -/
theorem not_shifts_of_path (h : ch '=' ∉ w'.path) : ¬ Shifts c w c' w' := by
  rintro ⟨-, -, -, -, -, z, -, -, hpath, -⟩
  exact h (hpath ▸ List.mem_append_right _ List.mem_cons_self)

theorem OtherLines.sentence (h : OtherLines c w c' w') :
    ∃ s, c.sentence w = .ok s ∧ c'.sentence w' = .ok s := by
  obtain ⟨⟨hc, hc'⟩, htext, ⟨hpath, o, ho, ho'⟩, ⟨hsource, htargets⟩, -⟩ := h
  refine ⟨c.renderCommands w.path o, (TypedClaim.sentence_comparison hc).mpr ⟨o, ho, rfl⟩,
    (TypedClaim.sentence_comparison hc').mpr ⟨o, ho', ?_⟩⟩
  refine TypedClaim.renderCommands_eq_iff.mpr ⟨htext.symm, htargets.symm, ?_⟩
  rw [hpath, TypedClaim.between, TypedClaim.between, hsource]

theorem sameWords_iff :
    (∀ s, c.sentence w = .ok s → c'.sentence w' = .ok s → SameWords c w c' w') ↔
      ¬ Shifts c w c' w' ∧ ¬ Shifts c' w' c w := by
  constructor
  · refine fun h ↦ ⟨fun hshift ↦ ?_, fun hshift ↦ ?_⟩
    · obtain ⟨s, hs, hs'⟩ := hshift.sentence
      exact hshift.path_ne (h s hs hs').path
    · obtain ⟨s, hs', hs⟩ := hshift.sentence
      exact hshift.path_ne (h s hs hs').path.symm
  · rintro ⟨hleft, hright⟩ s hs hs'
    rcases sentence_cases hs hs' with h | h | h
    · exact h
    · exact absurd h hleft
    · exact absurd h hright

/-- The lines of two claims that say the same, unless they are comparisons of other lines. -/
theorem SameWords.lines_of {s : Str} (h : SameWords c w c' w') (hs : c.sentence w = .ok s)
    (hlines : ¬ OtherLines c w c' w') : w.lineStart = w'.lineStart ∧ w.lineEnd = w'.lineEnd := by
  by_cases hc : c.kind = .commandTargetsDiffer
  · obtain ⟨o, ho, -⟩ := (TypedClaim.sentence_comparison hc).mp hs
    by_contra hne
    exact hlines ⟨⟨hc, h.kind ▸ hc⟩, h.text, ⟨h.path, o, ho, h.otherPath hc ▸ ho⟩,
      ⟨h.sourceTargets, h.otherTargets⟩, hne⟩
  · exact h.lines hc

end

/-! ## What a verdict is about

From the sentence of a finding to the claim and the window that were checked. -/

section
variable {c c' : TypedClaim} {observations observations' : List Observation} {finding : Finding}
  {v v' : ClaimVerdict}

/-- A comparison is decided for its own sentence only. -/
theorem settleCommands_sentence {other : Str} {left right : Observation}
    (h : (settleCommands finding c other left right).isDecisive = true) :
    strip finding.claim = c.renderCommands left.path right.path := by
  by_contra hne
  rw [settleCommands] at h
  split at h
  · dsimp only at h
    rw [if_pos hne] at h
    cases h
  · cases h

/-- The lines of the first source of a claim, as they were observed. -/
def Window.IsOf (w : Window) (observations : List Observation) (c : TypedClaim) : Prop :=
  ∃ o, byId observations c.sourceId = some o ∧ w.path = o.path ∧ w.lineStart = o.lineStart ∧
    w.lineEnd = o.lineEnd

/-- A claim is decided for its own sentence only, at the lines that were observed. -/
theorem SoundVerdict.sentence (h : SoundVerdict observations finding (some c) v)
    (hv : v.isDecisive = true) :
    ∃ w : Window, w.IsOf observations c ∧ c.sentence w = .ok (strip finding.claim) := by
  by_cases hc : c.kind = .commandTargetsDiffer
  · obtain ⟨other, left, right, -, hleft, -, rfl⟩ := h.comparison c rfl hc hv
    refine ⟨⟨left.path, left.lineStart, left.lineEnd, some right.path⟩,
      ⟨left, hleft, rfl, rfl, rfl⟩, ?_⟩
    exact (TypedClaim.sentence_comparison hc).mpr ⟨_, rfl, (settleCommands_sentence hv).symm⟩
  · have hrests : ∃ P, RestsOnExcerpt observations finding c P := by
      obtain ⟨hverified, hcontradicted⟩ := h.literal c rfl hc
      rcases isDecisive_iff.mp hv with hv | hv
      · exact ⟨_, hverified hv⟩
      · exact ⟨_, hcontradicted hv⟩
    obtain ⟨-, -, o, hfound, htext, -⟩ := hrests
    refine ⟨⟨o.path, o.lineStart, o.lineEnd, none⟩, ⟨o, hfound, rfl, rfl, rfl⟩, ?_⟩
    rw [TypedClaim.sentence_literal hc, htext]

/-- One finding decided under two claims: they are the same, unless a path goes on over a list. -/
theorem settled_cases (h : SoundVerdict observations finding (some c) v) (hv : v.isDecisive = true)
    (h' : SoundVerdict observations' finding (some c') v') (hv' : v'.isDecisive = true) :
    ∃ w w' : Window, w.IsOf observations c ∧ w'.IsOf observations' c' ∧
      (SameWords c w c' w' ∨ Shifts c w c' w' ∨ Shifts c' w' c w) := by
  obtain ⟨w, hw, hs⟩ := h.sentence hv
  obtain ⟨w', hw', hs'⟩ := h'.sentence hv'
  exact ⟨w, w', hw, hw', sentence_cases hs hs'⟩

end

/-- A sentence determines the claim if and only if no path of it goes on over a list, and not one
comparison of two line ranges is asked about; without the lines of a comparison, if and only if no
path goes on over a list. -/
theorem sentence_determines_iff (c : TypedClaim) (w : Window) (c' : TypedClaim) (w' : Window) :
    ((∀ s, c.sentence w = .ok s → c'.sentence w' = .ok s → SameWords c w c' w' ∧
        w.lineStart = w'.lineStart ∧ w.lineEnd = w'.lineEnd) ↔
      ¬ Shifts c w c' w' ∧ ¬ Shifts c' w' c w ∧ ¬ OtherLines c w c' w') ∧
    ((∀ s, c.sentence w = .ok s → c'.sentence w' = .ok s → SameWords c w c' w') ↔
      ¬ Shifts c w c' w' ∧ ¬ Shifts c' w' c w) := by
  refine ⟨⟨fun h ↦ ?_, ?_⟩, sameWords_iff⟩
  · obtain ⟨hleft, hright⟩ := sameWords_iff.mp fun s hs hs' ↦ (h s hs hs').1
    refine ⟨hleft, hright, fun hlines ↦ ?_⟩
    obtain ⟨s, hs, hs'⟩ := hlines.sentence
    exact hlines.lines (h s hs hs').2
  · rintro ⟨hleft, hright, hlines⟩ s hs hs'
    have hwords := sameWords_iff.mpr ⟨hleft, hright⟩ s hs hs'
    exact ⟨hwords, hwords.lines_of hs hlines⟩

theorem lint_ne_nil : str "lint" ≠ [] := by decide

theorem named_E2 : ∃ other, some (str "E2") = some other ∧ other ≠ [] ∧ other ≠ str "E1" :=
  ⟨str "E2", rfl, by decide, by decide⟩

/-- A comparison of what `ci.yml` lints with what a file of a telling name does. -/
def lintsDocs : TypedClaim where
  kind := .commandTargetsDiffer
  sourceId := str "E1"
  text := str "lint"
  otherSourceId := some (str "E2")
  sourceTargets := [str "src"]
  otherTargets := [str "docs"]
  namesText := lint_ne_nil
  namesSource := by decide
  fits := named_E2

/-- The same, of other targets, which are chosen so that the sentence comes out the same. -/
def lintsTests : TypedClaim where
  kind := .commandTargetsDiffer
  sourceId := str "E1"
  text := str "lint"
  otherSourceId := some (str "E2")
  sourceTargets := [str "tests"]
  otherTargets := [str "docs"]
  namesText := lint_ne_nil
  namesSource := by decide
  fits := named_E2

/-- Two comparisons of other files and other targets have one sentence. -/
theorem lintsDocs_confused :
    let w : Window := ⟨str "ci.yml", 1, 3, some (str "a=[\"tests\"]; Makefile")⟩
    let w' : Window := ⟨str "ci.yml=[\"src\"]; a", 1, 3, some (str "Makefile")⟩
    lintsDocs.sentence w =
        .ok
          (str
            "command \"lint\" targets differ: ci.yml=[\"src\"]; a=[\"tests\"]; Makefile=[\"docs\"]") ∧
      lintsTests.sentence w' = lintsDocs.sentence w ∧
        w.path ≠ w'.path ∧ w.otherPath ≠ w'.otherPath ∧
          lintsDocs.sourceTargets ≠ lintsTests.sourceTargets := by
  decide +kernel

end AtlasCore
