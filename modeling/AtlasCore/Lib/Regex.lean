import Mathlib.Data.List.Infix
import Mathlib.Tactic.Common

/-!
# Regular expressions that backtrack

What `re.sub` does with an expression is settled by the order in which a backtracking matcher tries
things: the first way to match at a place is the one that counts, an alternative is tried from left
to right, and a loop tries to go on before it stops, or, if it is lazy, the other way round.  So an
expression is given here the list of all places at which a match may end, the preferred one first
(`Regex.ends`), and a match is the head of that list.  There are no groups that capture and no
anchors but the border of a word, which needs the character before a place as well as the text after
it; this is why a `Place` has both.  A turn of a loop that takes no character is not taken.

To show that a text is left alone it is rarely necessary to look at the matcher.  Some characters
cannot be done without: every match takes one of each class in `Regex.required`, so a text that has
none of one class is its own substitution (`sub_eq_self`).  And where a substitution does change a
text, the replacement is in the result (`sub_eq_or_contains`).
-/

set_option autoImplicit false

variable {α : Type*}

/-- A regular expression over characters of a type. -/
inductive Regex (α : Type*) where
  /-- One character of a class. -/
  | one (cls : α → Bool)
  /-- The border of a word: `\b`. -/
  | border (isWord : α → Bool)
  | seq (r s : Regex α)
  | alt (r s : Regex α)
  /-- So many times at least, and at most so many where there is a bound; a loop that is not greedy
  stops as soon as it may. -/
  | loop (r : Regex α) (least : ℕ) (most : Option ℕ) (greedy : Bool)

namespace Regex

/-- A place in a text: the character before it, and the text after it. -/
structure Place (α : Type*) where
  before : Option α
  rest : List α

/-! ## Matching

All ways in which a pattern can match from a place, in the order in which they are tried. -/

/-- The ends of a loop, with so many turns left that could take a character. -/
def turns (step : Place α → List (Place α)) (greedy : Bool) :
    ℕ → ℕ → Option ℕ → Place α → List (Place α)
  | 0, least, _, p => if least = 0 then [p] else []
  | n + 1, least, most, p =>
    let on := if most = some 0 then [] else
      ((step p).filter fun q ↦ q.rest.length < p.rest.length).flatMap
        (turns step greedy n (least - 1) (most.map (· - 1)))
    if 0 < least then on else if greedy then on ++ [p] else p :: on

/-- Where a match that begins at a place may end, the preferred end first. -/
def ends : Regex α → Place α → List (Place α)
  | one cls, ⟨_, c :: rest⟩ => if cls c then [⟨some c, rest⟩] else []
  | one _, ⟨_, []⟩ => []
  | border isWord, p => if p.before.any isWord != p.rest.head?.any isWord then [p] else []
  | seq r s, p => (r.ends p).flatMap s.ends
  | alt r s, p => r.ends p ++ s.ends p
  | loop r least most greedy, p => turns r.ends greedy p.rest.length least most p

/-- `re.sub` from a place on, for an expression that does not match the empty text: this many
characters are looked at. -/
def subFrom (r : Regex α) (replacement : List α) : ℕ → Place α → List α
  | 0, p => p.rest
  | n + 1, p =>
    match p.rest with
    | [] => []
    | c :: rest =>
      match (r.ends p).head? with
      | some q => replacement ++ subFrom r replacement n q
      | none => c :: subFrom r replacement n ⟨some c, rest⟩

/-- `re.sub`: every match is replaced, from the left, and the search goes on after each. -/
def sub (r : Regex α) (replacement text : List α) : List α :=
  r.subFrom replacement text.length ⟨none, text⟩

/-! ## What a match cannot do without

The classes of which every match takes a character. -/

/-- Classes of which every match takes a character. -/
def required : Regex α → List (α → Bool)
  | one cls => [cls]
  | border _ => []
  | seq r s => r.required ++ s.required
  | alt _ _ => []
  | loop r least _ _ => if least = 0 then [] else r.required

/-- From one place to another some text was taken, with a character of each of these classes. -/
def Takes (classes : List (α → Bool)) (p q : Place α) : Prop :=
  ∃ taken, p.rest = taken ++ q.rest ∧ ∀ cls ∈ classes, ∃ c ∈ taken, cls c = true

theorem Takes.refl (p : Place α) : Takes [] p p := ⟨[], rfl, nofun⟩

theorem Takes.trans {classes classes' : List (α → Bool)} {p q r : Place α}
    (h : Takes classes p q) (h' : Takes classes' q r) : Takes (classes ++ classes') p r := by
  obtain ⟨taken, hrest, hall⟩ := h
  obtain ⟨taken', hrest', hall'⟩ := h'
  refine ⟨taken ++ taken', by rw [hrest, hrest', List.append_assoc], fun cls hcls ↦ ?_⟩
  rcases List.mem_append.mp hcls with hcls | hcls
  · obtain ⟨c, hc, hmatch⟩ := hall cls hcls
    exact ⟨c, List.mem_append_left _ hc, hmatch⟩
  · obtain ⟨c, hc, hmatch⟩ := hall' cls hcls
    exact ⟨c, List.mem_append_right _ hc, hmatch⟩

theorem Takes.mono {classes classes' : List (α → Bool)} {p q : Place α} (h : Takes classes p q)
    (hsub : classes' ⊆ classes) : Takes classes' p q := by
  obtain ⟨taken, hrest, hall⟩ := h
  exact ⟨taken, hrest, fun cls hcls ↦ hall cls (hsub hcls)⟩

/-- A loop that turns at least once takes what one turn takes. -/
theorem takes_turns {step : Place α → List (Place α)} {classes : List (α → Bool)} {greedy : Bool}
    (hstep : ∀ p, ∀ q ∈ step p, Takes classes p q) :
    ∀ (n least : ℕ) (most : Option ℕ) (p q : Place α), q ∈ turns step greedy n least most p →
      Takes (if least = 0 then [] else classes) p q
  | 0, least, most, p, q, hq => by
    rw [turns] at hq
    split at hq
    · rename_i hleast
      rw [if_pos hleast, List.mem_singleton.mp hq]
      exact .refl p
    · exact absurd hq List.not_mem_nil
  | n + 1, least, most, p, q, hq => by
    have hon : q ∈ (if most = some 0 then [] else
        ((step p).filter fun q ↦ q.rest.length < p.rest.length).flatMap
          (turns step greedy n (least - 1) (most.map (· - 1)))) → Takes classes p q := by
      intro hq
      split at hq
      · exact absurd hq List.not_mem_nil
      · obtain ⟨m, hm, hq⟩ := List.mem_flatMap.mp hq
        have hturn := hstep p m (List.mem_filter.mp hm).1
        exact (hturn.trans (takes_turns hstep n _ _ m q hq)).mono (List.subset_append_left _ _)
    rw [turns] at hq
    split at hq
    · rename_i hleast
      rw [if_neg (Nat.pos_iff_ne_zero.mp hleast)]
      exact hon hq
    · rename_i hleast
      rw [if_pos (Nat.eq_zero_of_not_pos hleast)]
      have hstop : q = p ∨ Takes classes p q := by
        split at hq
        · exact (List.mem_append.mp hq).elim (fun h ↦ .inr (hon h)) fun h ↦
            .inl (List.mem_singleton.mp h)
        · exact (List.mem_cons.mp hq).imp id hon
      rcases hstop with rfl | h
      · exact .refl q
      · exact h.mono (List.nil_subset _)

/-- Every match takes a character of each class that is required. -/
theorem takes_ends : ∀ (r : Regex α) (p q : Place α), q ∈ r.ends p → Takes r.required p q
  | one cls, ⟨_, []⟩, q, hq => absurd hq List.not_mem_nil
  | one cls, ⟨b, c :: rest⟩, q, hq => by
    rw [ends] at hq
    split at hq
    · rename_i hc
      rw [List.mem_singleton.mp hq]
      refine ⟨[c], rfl, fun cls' hcls ↦ ⟨c, List.mem_singleton_self c, ?_⟩⟩
      rw [List.mem_singleton.mp hcls]
      exact hc
    · exact absurd hq List.not_mem_nil
  | border isWord, p, q, hq => by
    rw [ends] at hq
    split at hq
    · rw [List.mem_singleton.mp hq]
      exact .refl p
    · exact absurd hq List.not_mem_nil
  | seq r s, p, q, hq => by
    obtain ⟨m, hm, hq⟩ := List.mem_flatMap.mp hq
    exact (takes_ends r p m hm).trans (takes_ends s m q hq)
  | alt r s, p, q, hq => by
    rcases List.mem_append.mp hq with hq | hq
    · exact (takes_ends r p q hq).mono (List.nil_subset _)
    · exact (takes_ends s p q hq).mono (List.nil_subset _)
  | loop r least most greedy, p, q, hq => by
    rw [ends] at hq
    exact takes_turns (takes_ends r) _ _ _ p q hq

/-! ## Substitution

What is left of a text in which nothing matches, and what is in a text in which something did. -/

section
variable {r : Regex α} {replacement : List α}

/-- Without a class that is required there is no match. -/
theorem ends_eq_nil {cls : α → Bool} (hcls : cls ∈ r.required) {p : Place α}
    (hnone : ∀ c ∈ p.rest, cls c = false) : r.ends p = [] := by
  refine List.eq_nil_iff_forall_not_mem.mpr fun q hq ↦ ?_
  obtain ⟨taken, hrest, hall⟩ := takes_ends r p q hq
  obtain ⟨c, hc, hmatch⟩ := hall cls hcls
  rw [hnone c (hrest ▸ List.mem_append_left _ hc)] at hmatch
  cases hmatch

theorem subFrom_eq_self {cls : α → Bool} (hcls : cls ∈ r.required) :
    ∀ (n : ℕ) (p : Place α), (∀ c ∈ p.rest, cls c = false) → r.subFrom replacement n p = p.rest
  | 0, _, _ => rfl
  | n + 1, ⟨_, []⟩, _ => rfl
  | n + 1, ⟨b, c :: rest⟩, hnone => by
    simp only [subFrom, ends_eq_nil hcls hnone, List.head?_nil]
    rw [subFrom_eq_self hcls n ⟨some c, rest⟩ fun d hd ↦ hnone d (List.mem_cons_of_mem c hd)]

/-- A text without a character that every match takes is left as it is. -/
theorem sub_eq_self {cls : α → Bool} (hcls : cls ∈ r.required) {text : List α}
    (hnone : ∀ c ∈ text, cls c = false) : r.sub replacement text = text :=
  subFrom_eq_self hcls _ ⟨none, text⟩ hnone

theorem subFrom_eq_or_contains : ∀ (n : ℕ) (p : Place α),
    r.subFrom replacement n p = p.rest ∨ replacement <:+: r.subFrom replacement n p
  | 0, _ => .inl rfl
  | n + 1, ⟨_, []⟩ => .inl rfl
  | n + 1, ⟨b, c :: rest⟩ => by
    simp only [subFrom]
    split
    · exact .inr (List.prefix_append _ _).isInfix
    · refine (subFrom_eq_or_contains n ⟨some c, rest⟩).imp (fun h ↦ by rw [h]) fun h ↦ ?_
      exact h.trans (List.suffix_cons _ _).isInfix

/-- A text is left as it is, or the replacement is in it. -/
theorem sub_eq_or_contains (text : List α) :
    r.sub replacement text = text ∨ replacement <:+: r.sub replacement text :=
  subFrom_eq_or_contains _ ⟨none, text⟩

end

end Regex
