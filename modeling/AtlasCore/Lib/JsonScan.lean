import AtlasCore.Lib.JsonRoundTrip

/-!
# Inside and outside strings

A scan of a JSON text by one of four states says where each character stands: outside the strings,
in one, right after a backslash in one, or somewhere no JSON text can have it.  Two facts make the
scan useful:

* whatever the reader accepts leaves the scan outside the strings (`scanValue_lex`), so a text that
  stops inside a string is refused (`loads_lex`);
* a character beyond ASCII that the reader accepts stands inside a string (`lex_take_of_loads`).

Together: a text cut right after such a character cannot be read (`loads_cut`).  That is what
happens when a JSON line is split at a line break that the writer did not escape.
-/

set_option autoImplicit false

namespace Py

namespace Json

/-- Where the next character of a JSON text stands. -/
inductive Lex where
  | out
  | inString
  | escaped
  /-- No JSON text has the characters so far. -/
  | bad
  deriving DecidableEq

/-- One character: quotes turn strings on and off, and after a backslash the next character is
passed over. -/
def Lex.step : Lex → CodePoint → Lex
  | .out, c => if c = quote then .inString else if c.val < 128 then .out else .bad
  | .inString, c => if c = quote then .out else if c = backslash then .escaped else .inString
  | .escaped, c => if c.val < 128 then .inString else .bad
  | .bad, _ => .bad

/-- A whole text, from a given state of the reader. -/
def lex (q : Lex) (s : Str) : Lex := s.foldl Lex.step q

theorem lex_nil (q : Lex) : lex q [] = q := rfl

theorem lex_cons (q : Lex) (c : CodePoint) (s : Str) : lex q (c :: s) = lex (q.step c) s := rfl

theorem lex_append (q : Lex) (s t : Str) : lex q (s ++ t) = lex (lex q s) t := List.foldl_append

theorem lex_bad (s : Str) : lex .bad s = .bad := by
  induction s with
  | nil => rfl
  | cons c s ih => exact ih

/-- A character outside the strings that opens none. -/
theorem lex_out {c : CodePoint} (hq : c ≠ quote) (hc : c.val < 128) (s : Str) :
    lex .out (c :: s) = lex .out s := by
  rw [lex_cons, Lex.step, if_neg hq, if_pos hc]

/-! ## What the scanners consume

Whatever is read was consumed from the beginning of the text, and leaves the coarse automaton where
it was. -/

theorem lex_skipWs (s : Str) : lex .out (skipWs s) = lex .out s := by
  induction s with
  | nil => rfl
  | cons c s ih =>
    rw [skipWs, List.dropWhile_cons]
    split
    · rename_i hc
      have hw : c.val = 32 ∨ c.val = 9 ∨ c.val = 10 ∨ c.val = 13 := by
        simpa [isWs, or_assoc] using hc
      have hq : c ≠ quote := by
        rintro rfl
        rcases hw with h | h | h | h <;> exact absurd h (by decide)
      rw [lex_out hq (by omega)]
      exact ih
    · rfl

theorem lex_dropPrefix : ∀ {lit s r : Str}, (lit.all fun c ↦ c != quote && decide (c.val < 128)) →
    dropPrefix lit s = some r → lex .out s = lex .out r
  | [], s, r, _, h => by rw [dropPrefix, Option.some.injEq] at h; rw [h]
  | _ :: _, [], _, _, h => absurd h (by simp [dropPrefix])
  | c :: lit, d :: s, r, hl, h => by
    rw [List.all_cons, Bool.and_eq_true, Bool.and_eq_true, bne_iff_ne, decide_eq_true_eq] at hl
    rw [dropPrefix] at h
    split at h
    · rename_i hcd
      rw [← hcd, lex_out hl.1.1 hl.1.2, lex_dropPrefix hl.2 h]
    · exact absurd h (by simp)

theorem lex_spanDigits (s : Str) : lex .out (spanDigits s).2 = lex .out s := by
  induction s with
  | nil => rfl
  | cons c s ih =>
    rw [spanDigits]
    cases hd : digitOf c with
    | none => rfl
    | some d =>
      have hc : 48 ≤ c.val ∧ c.val < 58 := by
        rw [digitOf] at hd
        split at hd
        · assumption
        · exact absurd hd (by simp)
      have hq : c ≠ quote := by rintro rfl; exact absurd hc.1 (by decide)
      rw [lex_out hq (by omega)]
      exact ih

theorem lex_ascii {c d : CodePoint} (h : c = d) (hq : d ≠ quote) (hd : d.val < 128) (s : Str) :
    lex .out (c :: s) = lex .out s := by
  rw [h, lex_out hq hd]

theorem lex_scanFrac (s : Str) : lex .out (scanFrac s).2 = lex .out s := by
  cases s with
  | nil => rfl
  | cons c s =>
    rw [scanFrac]
    split
    · rename_i h
      rw [lex_spanDigits, lex_ascii h.1 (by decide) (by decide)]
    · rfl

theorem lex_scanSign (s : Str) : lex .out (scanSign s).2 = lex .out s := by
  cases s with
  | nil => rfl
  | cons c s =>
    rw [scanSign]
    split_ifs with h1 h2
    · exact (lex_ascii h1 (by decide) (by decide) s).symm
    · exact (lex_ascii h2 (by decide) (by decide) s).symm
    · rfl

theorem lex_scanExp (s : Str) : lex .out (scanExp s).2 = lex .out s := by
  cases s with
  | nil => rfl
  | cons c s =>
    rw [scanExp]
    split
    · rename_i he
      have hc : lex .out (c :: s) = lex .out s := by
        rcases he with he | he
        · exact lex_ascii he (by decide) (by decide) s
        · exact lex_ascii he (by decide) (by decide) s
      have hd := (lex_spanDigits (scanSign s).2).trans (lex_scanSign s)
      split
      · rename_i d ds after heq
        rw [heq] at hd
        rw [hc, ← hd]
      · rfl
    · rfl

theorem lex_scanWhole {s r : Str} {ds : List (Fin 10)} (h : scanWhole s = some (ds, r)) :
    lex .out s = lex .out r := by
  cases s with
  | nil => exact absurd h (by simp [scanWhole])
  | cons c s =>
    have hspan := lex_spanDigits (c :: s)
    rw [scanWhole] at h
    cases hd : digitOf c with
    | none => rw [hd] at h; exact absurd h (by simp)
    | some d =>
      rw [hd] at h
      simp only at h
      split at h
      · simp only [Option.some.injEq, Prod.mk.injEq] at h
        have hc : 48 ≤ c.val ∧ c.val < 58 := by
          rw [digitOf] at hd
          split at hd
          · assumption
          · exact absurd hd (by simp)
        rw [← h.2, lex_out (by rintro rfl; exact absurd hc.1 (by decide)) (by omega)]
      · rw [Option.some.injEq] at h
        rw [h] at hspan
        exact hspan.symm

theorem lex_scanNumber {neg : Bool} {s r : Str} {v : Json} (h : scanNumber neg s = some (v, r)) :
    lex .out s = lex .out r := by
  rw [scanNumber] at h
  cases hw : scanWhole s with
  | none => rw [hw] at h; exact absurd h (by simp)
  | some p =>
    obtain ⟨ds, r'⟩ := p
    have hr : r = (scanExp (scanFrac r').2).2 := by
      rw [hw] at h
      simp only at h
      split_ifs at h
      · simp only [Option.some.injEq, Prod.mk.injEq] at h; exact h.2.symm
      · simp only [Option.some.injEq, Prod.mk.injEq] at h; exact h.2.symm
    rw [hr, lex_scanExp, lex_scanFrac, lex_scanWhole hw]

theorem lex_scanAtom {s r : Str} {v : Json} (h : scanAtom s = some (v, r)) :
    lex .out s = lex .out r := by
  rw [scanAtom] at h
  split at h
  -- The six literals, then the two kinds of number.
  iterate 6
    rename_i hl
    simp only [Option.some.injEq, Prod.mk.injEq] at h
    rw [← h.2]
    refine lex_dropPrefix ?_ hl
    decide
  · rename_i hl
    rw [lex_dropPrefix (by decide) hl, lex_scanNumber h]
  · exact lex_scanNumber h

/-! ## Strings

Inside a string the automaton and the scanner agree on where the string ends. -/

/-- Where the reader of a string stands, as the coarser automaton sees it. -/
def InString.lex : InString → Lex
  | .text _ => .inString
  | .escape _ => .escaped
  | .hex _ _ _ => .inString

theorem prepend_some {pre : Str} {r : Option (Str × Str)} {p : Str × Str}
    (h : prepend pre r = some p) : ∃ t, r = some (t, p.2) := by
  rw [prepend, Option.map_eq_some_iff] at h
  obtain ⟨⟨t, r'⟩, hr, rfl⟩ := h
  exact ⟨t, hr⟩

theorem hexValue_ascii {c : CodePoint} {n : ℕ} (h : hexValue c = some n) :
    c.val < 128 ∧ c ≠ quote ∧ c ≠ backslash := by
  have hc : (48 ≤ c.val ∧ c.val < 58) ∨ (97 ≤ c.val ∧ c.val < 103) ∨ (65 ≤ c.val ∧ c.val < 71) := by
    rw [hexValue] at h
    split_ifs at h with h1 h2 h3
    · exact .inl h1
    · exact .inr (.inl h2)
    · exact .inr (.inr h3)
  have hq : quote.val = 34 := by decide
  have hb : backslash.val = 92 := by decide
  refine ⟨by omega, ?_, ?_⟩
  · rintro rfl; omega
  · rintro rfl; omega

theorem unescape_ascii {c d : CodePoint} (h : unescape c = some d) : c.val < 128 := by
  rw [unescape] at h
  split_ifs at h <;> subst c <;> decide

/-- What the reader of a string accepts ends outside it. -/
theorem lex_scanString : ∀ {s : Str} {st : InString} {p : Str × Str},
    scanString st s = some p → lex st.lex s = lex .out p.2
  | [], st, p, h => absurd h (by simp [scanString])
  | c :: s, .text high, p, h => by
    rw [scanString] at h
    rw [InString.lex, lex_cons, Lex.step]
    split_ifs at h ⊢ with h1 h2 h3
    · rw [Option.some.injEq] at h; rw [← h]
    · exact lex_scanString h
    · obtain ⟨t, ht⟩ := prepend_some h
      exact lex_scanString ht
  | c :: s, .escape high, p, h => by
    rw [scanString] at h
    rw [InString.lex, lex_cons, Lex.step]
    split_ifs at h with h1
    · rw [if_pos (by rw [h1]; decide)]
      exact lex_scanString h
    · cases hu : unescape c with
      | none => rw [hu] at h; exact absurd h (by simp)
      | some d =>
        rw [hu] at h
        obtain ⟨t, ht⟩ := prepend_some h
        rw [if_pos (unescape_ascii hu)]
        exact lex_scanString ht
  | c :: s, .hex high due acc, p, h => by
    rw [scanString] at h
    cases hv : hexValue c with
    | none => rw [hv] at h; exact absurd h (by simp)
    | some d =>
      obtain ⟨-, hq, hb⟩ := hexValue_ascii hv
      rw [InString.lex, lex_cons, Lex.step, if_neg hq, if_neg hb]
      rw [hv] at h
      cases due with
      | zero =>
        obtain ⟨t, ht⟩ := prepend_some h
        exact lex_scanString ht
      | succ due => exact lex_scanString h

/-! ## Values

A value is read from outside of strings to outside of strings. -/

theorem lex_quote (s : Str) : lex .out (quote :: s) = lex .inString s := rfl

theorem lex_of_skipWs {s r : Str} {c d : CodePoint} (h : skipWs s = c :: r) (hc : c = d)
    (hq : d ≠ quote) (hd : d.val < 128) : lex .out s = lex .out r := by
  rw [← lex_skipWs, h, lex_ascii hc hq hd]

mutual
/-- **Whatever the reader accepts leaves the scan outside the strings.** -/
theorem scanValue_lex : ∀ {n : ℕ} {s r : Str} {v : Json}, scanValue n s = some (v, r) →
    lex .out s = lex .out r
  | 0, _, _, _, h => absurd h (by simp [scanValue])
  | _ + 1, [], _, _, h => absurd h (by simp [scanValue])
  | n + 1, c :: s, r, v, h => by
    rw [scanValue] at h
    split_ifs at h with h1 h2 h3
    · obtain ⟨p, hp, he⟩ := Option.map_eq_some_iff.mp h
      simp only [Prod.mk.injEq] at he
      rw [h1, lex_quote, ← he.2]
      exact lex_scanString hp
    · rw [lex_ascii h2 (by decide) (by decide)]
      cases hs : skipWs s with
      | nil => rw [hs] at h; exact absurd h (by simp)
      | cons d after =>
        rw [hs] at h
        simp only at h
        split_ifs at h with h4
        · simp only [Option.some.injEq, Prod.mk.injEq] at h
          rw [← h.2]
          exact lex_of_skipWs hs h4 (by decide) (by decide)
        · obtain ⟨p, hp, he⟩ := Option.map_eq_some_iff.mp h
          simp only [Prod.mk.injEq] at he
          rw [← lex_skipWs, hs, ← he.2]
          exact scanItems_lex hp
    · rw [lex_ascii h3 (by decide) (by decide)]
      cases hs : skipWs s with
      | nil => rw [hs] at h; exact absurd h (by simp)
      | cons d after =>
        rw [hs] at h
        simp only at h
        split_ifs at h with h4
        · simp only [Option.some.injEq, Prod.mk.injEq] at h
          rw [← h.2]
          exact lex_of_skipWs hs h4 (by decide) (by decide)
        · obtain ⟨p, hp, he⟩ := Option.map_eq_some_iff.mp h
          simp only [Prod.mk.injEq] at he
          rw [← lex_skipWs, hs, ← he.2]
          exact scanFields_lex hp
    · exact lex_scanAtom h

theorem scanItems_lex : ∀ {n : ℕ} {s : Str} {p : List Json × Str}, scanItems n s = some p →
    lex .out s = lex .out p.2
  | 0, _, _, h => absurd h (by simp [scanItems])
  | n + 1, s, p, h => by
    rw [scanItems] at h
    cases hv : scanValue n s with
    | none => rw [hv] at h; exact absurd h (by simp)
    | some q =>
      obtain ⟨v, r⟩ := q
      rw [hv] at h
      rw [scanValue_lex hv]
      cases hs : skipWs r with
      | nil => simp only [hs] at h; exact absurd h (by simp)
      | cons d after =>
        simp only [hs] at h
        split_ifs at h with h4 h5
        · rw [Option.some.injEq] at h
          rw [← h]
          exact lex_of_skipWs hs h4 (by decide) (by decide)
        · obtain ⟨q, hq, he⟩ := Option.map_eq_some_iff.mp h
          have hrest : lex .out (skipWs after) = lex .out q.2 := scanItems_lex hq
          rw [← he, lex_of_skipWs hs h5 (by decide) (by decide), ← lex_skipWs, hrest]

theorem scanFields_lex : ∀ {n : ℕ} {s : Str} {p : Fields × Str}, scanFields n s = some p →
    lex .out s = lex .out p.2
  | 0, _, _, h => absurd h (by simp [scanFields])
  | _ + 1, [], _, h => absurd h (by simp [scanFields])
  | n + 1, q :: s, p, h => by
    rw [scanFields] at h
    split_ifs at h with h1
    rw [ne_eq, not_not] at h1
    rw [h1, lex_quote]
    cases hk : scanString (.text none) s with
    | none => rw [hk] at h; exact absurd h (by simp)
    | some kr =>
      obtain ⟨k, r⟩ := kr
      have hkey : lex .inString s = lex .out r := lex_scanString hk
      rw [hkey]
      rw [hk] at h
      simp only at h
      cases hs : skipWs r with
      | nil => simp only [hs] at h; exact absurd h (by simp)
      | cons colon r1 =>
        simp only [hs] at h
        split_ifs at h with h2
        rw [ne_eq, not_not] at h2
        rw [lex_of_skipWs hs h2 (by decide) (by decide), ← lex_skipWs]
        cases hv : scanValue n (skipWs r1) with
        | none => rw [hv] at h; exact absurd h (by simp)
        | some vr =>
          obtain ⟨v, r2⟩ := vr
          rw [scanValue_lex hv]
          rw [hv] at h
          simp only at h
          cases hs2 : skipWs r2 with
          | nil => simp only [hs2] at h; exact absurd h (by simp)
          | cons d after =>
            simp only [hs2] at h
            split_ifs at h with h4 h5
            · rw [Option.some.injEq] at h
              rw [← h]
              exact lex_of_skipWs hs2 h4 (by decide) (by decide)
            · obtain ⟨q, hq, he⟩ := Option.map_eq_some_iff.mp h
              have hrest : lex .out (skipWs after) = lex .out q.2 := scanFields_lex hq
              rw [← he, lex_of_skipWs hs2 h5 (by decide) (by decide), ← lex_skipWs, hrest]
end

/-- A JSON text ends outside its strings. -/
theorem loads_lex {s : Str} {v : Json} (h : loads s = some v) : lex .out s = .out := by
  rw [loads] at h
  cases hs : scanValue (s.length + 1) (skipWs s) with
  | none => rw [hs] at h; exact absurd h (by simp)
  | some p =>
    obtain ⟨w, r⟩ := p
    rw [hs] at h
    simp only at h
    split_ifs at h with hr
    rw [← lex_skipWs, scanValue_lex hs, ← lex_skipWs, hr, lex_nil]

/-! ## Cutting at a character beyond ASCII

Such a character can only be in a string, so a text that ends there is not complete. -/

/-- A character beyond ASCII is inside a string, or nowhere. -/
theorem step_wide (q : Lex) {c : CodePoint} (hc : 128 ≤ c.val) :
    q.step c = .inString ∨ q.step c = .bad := by
  have hq : c ≠ quote := by rintro rfl; exact absurd hc (by decide)
  have hb : c ≠ backslash := by rintro rfl; exact absurd hc (by decide)
  have hlt : ¬ c.val < 128 := by omega
  cases q
  · exact .inr (by rw [Lex.step, if_neg hq, if_neg hlt])
  · exact .inl (by rw [Lex.step, if_neg hq, if_neg hb])
  · exact .inr (by rw [Lex.step, if_neg hlt])
  · exact .inr rfl

/-- **A JSON text cut right after a character beyond ASCII cannot be read.** -/
theorem loads_cut {p q : Str} {c : CodePoint} (hc : 128 ≤ c.val) {v : Json}
    (h : loads (p ++ c :: q) = some v) : loads (p ++ [c]) = none := by
  have hlex := loads_lex h
  have hsplit : p ++ c :: q = (p ++ [c]) ++ q := by simp
  have hcut : lex .out (p ++ [c]) = (lex .out p).step c := by rw [lex_append]; rfl
  rw [hsplit, lex_append, hcut] at hlex
  cases hr : loads (p ++ [c]) with
  | none => rfl
  | some w =>
    have hout := loads_lex hr
    rw [hcut] at hout
    rcases step_wide (lex .out p) hc with h' | h'
    · rw [h'] at hout; exact absurd hout (by simp)
    · rw [h', lex_bad] at hlex; exact absurd hlex (by simp)

end Json

end Py
