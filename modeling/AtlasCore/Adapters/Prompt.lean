import AtlasCore.Review.Plan

/-!
# The prompt of a live model

What a producer is told is put together from the task, the route, the plan, the feedback and the
observations.  Only the observations give way to the bound: each is cut on its own, and the first
that cannot be shown ends what is shown.  A prompt that is returned keeps its bound and tells of
every cut (`buildPrompt_bounded`).

The room for the sources is what the bound leaves when everything else has been written at its
longest.  The invariant of the selection is that the texts that were kept, each with a separator,
take no more than the room and one separator (`select_fits`).
-/

set_option autoImplicit false

namespace AtlasCore

open Py

/-! ## Limits

How long a prompt and one observation in it may be, with the defaults of the source.  A limit that
cannot be kept is refused when it is made, so a `PromptLimits` is one that can. -/

/-- `PromptLimits`.  Both bounds are positive, and one observation that is as long as it may be fits
into a prompt. -/
structure PromptLimits where
  maxPromptChars : ℤ
  maxObservationChars : ℤ
  positive : 1 ≤ maxPromptChars ∧ 1 ≤ maxObservationChars
  oneFits : maxObservationChars ≤ maxPromptChars

/-- `PromptLimits(...)`: bounds that do not fit together are refused where they are made, so no
prompt is built over them. -/
def PromptLimits.build (maxPromptChars maxObservationChars : ℤ) : Except Exc PromptLimits :=
  if h : 1 ≤ maxPromptChars ∧ 1 ≤ maxObservationChars then
    if h' : maxObservationChars ≤ maxPromptChars then
      .ok ⟨maxPromptChars, maxObservationChars, h, h'⟩
    else .error .valueError
  else .error .valueError

/-- `DEFAULT_MAX_PROMPT_CHARS`: how long the whole prompt may be, in characters. -/
def DEFAULT_MAX_PROMPT_CHARS : ℤ := 24000

/-- `DEFAULT_MAX_OBSERVATION_CHARS`: how much of one observed source is shown, in characters. -/
def DEFAULT_MAX_OBSERVATION_CHARS : ℤ := 4000

/-- `PromptLimits()`: the bounds a prompt has where the caller says nothing. -/
def PromptLimits.default : PromptLimits where
  maxPromptChars := DEFAULT_MAX_PROMPT_CHARS
  maxObservationChars := DEFAULT_MAX_OBSERVATION_CHARS
  positive := by decide
  oneFits := by decide

/-- `BoundedPrompt`: the text, with how many of the observed sources are shown in part and how many
not at all. -/
structure BoundedPrompt where
  text : Str
  truncatedObservations : ℕ := 0
  omittedObservations : ℕ := 0

/-- `BoundedPrompt.is_complete`: every observed source is shown, and in full. -/
def BoundedPrompt.isComplete (p : BoundedPrompt) : Bool :=
  p.truncatedObservations = 0 && p.omittedObservations = 0

/-- `_OBSERVED_HEADING`: the line above what was observed. -/
def OBSERVED_HEADING : Str := str "Observed sources:"

/-- `_MIN_USEFUL_OBSERVATION`: with less room than this, a source is left out rather than cut. -/
def MIN_USEFUL_OBSERVATION : ℤ := 200

/-- `_cut_notice`: what stands in a prompt where a source was cut, with how much of it is not shown.
-/
def cutNotice (full kept : ℕ) : Str :=
  str "\n[... " ++ decimal (full - kept) ++ str " of " ++ decimal full ++
    str " characters of this source are not " ++
    str "shown; anything said about it is about the part above]"

/-- `_omission_notice`: what stands at the end of the sources where some were left out, with their
number. -/
def omissionNotice (count : ℕ) : Str :=
  decimal count ++ str " further observed source(s) did not fit in this prompt and " ++
    str "are not shown. Any conclusion here is about what is above."

/-! ## The instruction

Everything in a prompt but the observations: what comes before them and what comes after.  It is
never cut, and its length is what the observations have to leave room for. -/

/-- What is read of a plan: its steps, and the review it belongs to, if there is one. -/
structure PromptPlan where
  steps : List Str
  review : Option ReviewPlan

/-- What is read of an evaluation: the criteria, and the kind and the details of the next action. -/
structure PromptFeedback where
  unmetCriteria : List Str
  nextAction : Option (Str × Fields)

/-- `", "`, between the items of a list that a prompt names. -/
def listSep : Str := str ", "

/-- `head`: the task, the route and the steps, and of a review its question and what it is to be
answered from. -/
def promptHead (task routeName : Str) (plan : PromptPlan) : List Str :=
  [str "Task: " ++ task, str "Route: " ++ routeName, str "Steps: " ++ join listSep plan.steps] ++
    match plan.review with
    | none => []
    | some review =>
      (str "Question: " ++ review.question) ::
        if review.patterns.isEmpty then []
        else [str "Sources the question needs: " ++ join listSep review.patterns]

/-- `json.dumps(details, ensure_ascii=False)`, which refuses an integer of too many digits. -/
def dumpsDetails (details : Fields) : Except Exc Str :=
  if Json.every Json.intFits (fun _ ↦ true) (.obj details) then .ok (Json.render (.obj details))
  else .error .valueError

/-- `tail`: what the pass before left unmet and what is to be done about it.  A first pass has none.
-/
def promptTail : Option PromptFeedback → Except Exc (List Str)
  | none => .ok []
  | some feedback => do
    let unmet :=
      if feedback.unmetCriteria.isEmpty then []
      else [str "Unmet criteria: " ++ join listSep feedback.unmetCriteria]
    match feedback.nextAction with
    | none => return unmet
    | some (kind, details) =>
      return unmet ++ [str "Next action: " ++ kind ++ str " — " ++ (← dumpsDetails details)]

/-! ## Choosing the sources

The loop that takes one observation after the other until the room is used up, and the text that
is put together from what it took. -/

/-- `kept`, `truncated` and `omitted`: what becomes of the observations while the room is given
away. -/
structure Selection where
  kept : List Str := []
  truncated : ℕ := 0
  omitted : ℕ := 0

/-- The loop over the observations; `room` is what the bound leaves for them. -/
def select (limits : PromptLimits) : ℤ → List Str → Selection
  | _, [] => {}
  | room, observation :: rest =>
    if room ≤ 0 then { omitted := (observation :: rest).length }
    else
      let allowed := min limits.maxObservationChars room
      if observation.length > allowed then
        let reserved := (cutNotice observation.length 0).length
        let usable := allowed - reserved
        if usable < MIN_USEFUL_OBSERVATION then { omitted := (observation :: rest).length }
        else
          let text := observation.take usable.toNat ++ cutNotice observation.length usable.toNat
          let next := select limits (room - (text.length + 2)) rest
          { next with kept := text :: next.kept, truncated := next.truncated + 1 }
      else
        let next := select limits (room - (observation.length + 2)) rest
        { next with kept := observation :: next.kept }

/-- `"\n\n"`, between the parts of a prompt. -/
def blankLine : Str := str "\n\n"

/-- What is shown of the observations: nothing, or the heading and under it the texts that were
kept. -/
def sourcesPart (kept : List Str) : List Str :=
  if kept.isEmpty then [] else [OBSERVED_HEADING ++ str "\n" ++ join blankLine kept]

/-- What is stated about the observations that are not shown. -/
def omissionPart (omitted : ℕ) : List Str := if omitted = 0 then [] else [omissionNotice omitted]

/-- `fixed`: what the prompt takes before any source is shown. -/
def promptFixed (head tail observations : List Str) : ℤ :=
  let reserve := if observations.isEmpty then 0 else (omissionNotice observations.length).length + 2
  (join blankLine (head ++ tail)).length + OBSERVED_HEADING.length + 4 + reserve

/-- `build_prompt`: head and tail are always whole, and the observations share the room that is
left, in their order.  Where even the fixed parts do not fit, it raises. -/
def buildPrompt (task routeName : Str) (plan : PromptPlan) (observations : List Str)
    (feedback : Option PromptFeedback) (limits : Option PromptLimits) :
      Except Exc BoundedPrompt := do
  let limits := limits.getD .default
  let head := promptHead task routeName plan
  let tail ← promptTail feedback
  let fixed := promptFixed head tail observations
  if fixed > limits.maxPromptChars then .error .valueError
  else
    let chosen := select limits (limits.maxPromptChars - fixed) observations
    return {
      text :=
        join blankLine (head ++ sourcesPart chosen.kept ++ omissionPart chosen.omitted ++ tail)
      truncatedObservations := chosen.truncated
      omittedObservations := chosen.omitted }

/-! ## What is shown

The specification of a prompt: which sources are in it, which of these were cut, and that it says
how much is missing. -/

/-- The beginning of an observation, and a notice of how much of it is left out. -/
def IsCut (observation text : Str) : Prop :=
  ∃ kept < observation.length,
    text = observation.take kept ++ cutNotice observation.length kept ∧ text ≠ observation

/-- The observations of a prefix, each as it is or cut, and the counts of what was cut and of what
was left out. -/
structure PromptShows (observations shown : List Str) (truncated omitted : ℕ) : Prop where
  each : List.Forall₂ (fun observation text ↦ text = observation ∨ IsCut observation text)
    (observations.take shown.length) shown
  counted : shown.length + omitted = observations.length
  cuts : (observations.zip shown).countP (fun p ↦ p.2 ≠ p.1) = truncated

section
variable {observation text : Str} {rest shown observations : List Str} {truncated omitted : ℕ}

theorem shows_nil : PromptShows observations [] 0 observations.length where
  each := List.Forall₂.nil
  counted := Nat.zero_add _
  cuts := by
    rw [List.zip_nil_right]
    rfl

theorem PromptShows.whole (h : PromptShows rest shown truncated omitted) :
    PromptShows (observation :: rest) (observation :: shown) truncated omitted where
  each := List.Forall₂.cons (.inl rfl) h.each
  counted := by
    have hcounted := h.counted
    simp only [List.length_cons]
    omega
  cuts := by
    rw [List.zip_cons_cons, List.countP_cons_of_neg (by simp)]
    exact h.cuts

theorem PromptShows.cut (hcut : IsCut observation text)
    (h : PromptShows rest shown truncated omitted) :
    PromptShows (observation :: rest) (text :: shown) (truncated + 1) omitted where
  each := List.Forall₂.cons (.inr hcut) h.each
  counted := by
    have hcounted := h.counted
    simp only [List.length_cons]
    omega
  cuts := by
    obtain ⟨_, _, _, hne⟩ := hcut
    rw [List.zip_cons_cons, List.countP_cons_of_pos (by simpa using hne)]
    exact congrArg (· + 1) h.cuts

/-- Nothing is cut exactly where the texts are the beginning of the observations. -/
theorem PromptShows.complete_iff (h : PromptShows observations shown truncated omitted) :
    truncated = 0 ∧ omitted = 0 ↔ shown = observations := by
  constructor
  · rintro ⟨rfl, rfl⟩
    have hlength : shown.length = observations.length := h.counted
    have hsame := List.countP_eq_zero.mp h.cuts
    refine List.ext_getElem hlength fun i hi hi' ↦ ?_
    have hmem : (observations[i], shown[i]) ∈ observations.zip shown :=
      List.mem_iff_getElem.mpr ⟨i, by rw [List.length_zip]; omega, List.getElem_zip⟩
    have hnot := hsame _ hmem
    rw [decide_eq_true_eq, not_not] at hnot
    exact hnot
  · rintro rfl
    refine ⟨?_, by have hcounted := h.counted; omega⟩
    rw [← h.cuts, List.countP_eq_zero]
    intro p hp
    rw [decide_eq_true_eq, not_not]
    obtain ⟨i, hi, rfl⟩ := List.mem_iff_getElem.mp hp
    rw [List.getElem_zip]

end

/-! ## The loop

What one observation adds to a prompt is never more than the room that was left for it, the notices
included. -/

/-- The longest a notice can be is where nothing is kept. -/
theorem length_cutNotice_le (full kept : ℕ) :
    (cutNotice full kept).length ≤ (cutNotice full 0).length := by
  have hdigits := length_decimal_mono (Nat.sub_le full kept)
  simp only [cutNotice, List.length_append, Nat.sub_zero]
  omega

theorem length_omissionNotice_mono {m n : ℕ} (h : m ≤ n) :
    (omissionNotice m).length ≤ (omissionNotice n).length := by
  have hdigits := length_decimal_mono h
  simp only [omissionNotice, List.length_append]
  omega

variable {limits : PromptLimits}

/-- A text that is cut takes no more than it is allowed. -/
theorem length_cut_le {observation : Str} {allowed : ℤ}
    (huseful : ¬ allowed - (cutNotice observation.length 0).length < MIN_USEFUL_OBSERVATION) :
    ((observation.take (allowed - (cutNotice observation.length 0).length).toNat ++
      cutNotice observation.length
        (allowed - (cutNotice observation.length 0).length).toNat).length : ℤ)
        ≤ allowed := by
  have hnotice := length_cutNotice_le observation.length
    (allowed - (cutNotice observation.length 0).length).toNat
  rw [MIN_USEFUL_OBSERVATION] at huseful
  rw [List.length_append, List.length_take]
  omega

/-- What is shown is a prefix, and every cut is counted. -/
theorem select_shows : ∀ (room : ℤ) (observations : List Str),
    PromptShows observations (select limits room observations).kept
      (select limits room observations).truncated (select limits room observations).omitted
  | _, [] => shows_nil
  | room, observation :: rest => by
    rw [select]
    dsimp only
    split_ifs with hroom hlong huseful
    · exact shows_nil
    · exact shows_nil
    · refine PromptShows.cut ⟨_, ?_, rfl, ?_⟩ (select_shows _ _)
      · rw [MIN_USEFUL_OBSERVATION] at huseful
        omega
      · intro heq
        have hle := length_cut_le huseful
        rw [heq] at hle
        omega
    · exact PromptShows.whole (select_shows _ _)

/-- What a list of parts takes, each with a separator. -/
def weight (parts : List Str) : ℕ := (parts.map fun s ↦ s.length + blankLine.length).sum

/-- The texts that are kept fit into the room, but for the separator after the last. -/
theorem select_fits : ∀ (room : ℤ) (observations : List Str),
    (weight (select limits room observations).kept : ℤ) ≤ max 0 (room + 2)
  | _, [] => le_max_left _ _
  | room, observation :: rest => by
    have hnext : ∀ text : Str, (text.length : ℤ) ≤ room →
        (weight (text :: (select limits (room - (text.length + 2)) rest).kept) : ℤ) ≤
          max 0 (room + 2) := by
      intro text hlength
      have ih := select_fits (room - (text.length + 2)) rest
      have hblank : blankLine.length = 2 := rfl
      rw [weight] at ih
      rw [weight, List.map_cons, List.sum_cons, hblank]
      rw [hblank] at ih
      push_cast at ih ⊢
      omega
    rw [select]
    dsimp only
    split_ifs with hroom hlong huseful
    · exact le_max_left _ _
    · exact le_max_left _ _
    · exact hnext _ ((length_cut_le huseful).trans (min_le_right _ _))
    · exact hnext _ ((not_lt.mp hlong).trans (min_le_right _ _))

/-! ## The whole

The parts put together: the text is as long as it may be at most, and what it says about itself is
true. -/

/-- A prompt that keeps its bound and tells of every cut. -/
structure BoundedPrompt.Honest (limits : PromptLimits) (head tail observations : List Str)
    (p : BoundedPrompt) : Prop where
  bound : (p.text.length : ℤ) ≤ limits.maxPromptChars
  /-- The instruction and the feedback are there, uncut. -/
  instruction : ∀ part ∈ head ++ tail, part <:+: p.text
  /-- The notice of what is left out stands after the sources, if anything is left out. -/
  shows : ∃ shown, PromptShows observations shown p.truncatedObservations p.omittedObservations ∧
    p.text = join blankLine
      (head ++ sourcesPart shown ++ omissionPart p.omittedObservations ++ tail) ∧
    (p.isComplete = true ↔ shown = observations)

theorem weight_append (parts parts' : List Str) :
    weight (parts ++ parts') = weight parts + weight parts' := by
  rw [weight, weight, weight, List.map_append, List.sum_append]

theorem length_join_weight (parts : List Str) (h : parts ≠ []) :
    (join blankLine parts).length + 2 = weight parts := length_join h

theorem weight_sourcesPart (kept : List Str) (room : ℤ) (hroom : 0 ≤ room)
    (h : (weight kept : ℤ) ≤ max 0 (room + 2)) :
    (weight (sourcesPart kept) : ℤ) ≤ OBSERVED_HEADING.length + 3 + room := by
  rw [sourcesPart]
  split_ifs with hkept
  · rw [weight, List.map_nil, List.sum_nil]
    push_cast
    omega
  · have hjoin := length_join_weight kept fun hnil ↦ hkept (by rw [hnil]; rfl)
    have hnewline : (str "\n").length = 1 := rfl
    have hblank : blankLine.length = 2 := rfl
    rw [weight, List.map_singleton, List.sum_singleton, List.length_append, List.length_append,
      hnewline, hblank]
    push_cast
    omega

theorem weight_omissionPart {omitted : ℕ} {observations : List Str}
    (h : omitted ≤ observations.length) :
    weight (omissionPart omitted) ≤
      if observations.isEmpty then 0 else (omissionNotice observations.length).length + 2 := by
  rw [omissionPart]
  by_cases homitted : omitted = 0
  · rw [if_pos homitted]
    exact Nat.zero_le _
  · have hsome : ¬ observations.isEmpty = true := fun hempty ↦ by
      rw [List.isEmpty_iff.mp hempty, List.length_nil] at h
      omega
    rw [if_neg homitted, if_neg hsome, weight, List.map_singleton, List.sum_singleton]
    exact Nat.add_le_add_right (length_omissionNotice_mono h) 2

theorem promptHead_ne_nil (task routeName : Str) (plan : PromptPlan) :
    promptHead task routeName plan ≠ [] := List.cons_ne_nil _ _

/-- With the sources that were chosen, and the notice, the text is as long as the bound at most. -/
theorem length_prompt_le {head tail observations : List Str} (hhead : head ≠ [])
    (hfixed : promptFixed head tail observations ≤ limits.maxPromptChars) {kept : List Str}
    {omitted : ℕ} (hkept : (weight kept : ℤ) ≤
      max 0 (limits.maxPromptChars - promptFixed head tail observations + 2))
    (homitted : omitted ≤ observations.length) :
    ((join blankLine (head ++ sourcesPart kept ++ omissionPart omitted ++ tail)).length : ℤ) ≤
      limits.maxPromptChars := by
  have hsources := weight_sourcesPart kept _ (Int.sub_nonneg_of_le hfixed) hkept
  have homission := weight_omissionPart homitted
  have htext := length_join_weight (head ++ sourcesPart kept ++ omissionPart omitted ++ tail)
    (by simp [hhead])
  have hinstruction := length_join_weight (head ++ tail) (by simp [hhead])
  rw [weight_append, weight_append, weight_append] at htext
  rw [weight_append] at hinstruction
  rw [promptFixed] at hsources
  omega

theorem promptTail_error {feedback : Option PromptFeedback} {e : Exc}
    (h : promptTail feedback = .error e) : e = .valueError := by
  cases feedback with
  | none => cases h
  | some feedback =>
    rw [promptTail] at h
    cases hnext : feedback.nextAction with
    | none =>
      rw [hnext] at h
      cases h
    | some action =>
      obtain ⟨kind, details⟩ := action
      rw [hnext] at h
      dsimp only at h
      rw [dumpsDetails] at h
      split_ifs at h <;> cases h <;> rfl

/-- **The bound holds and the cuts are honest.**  A prompt is refused, or it has at most as many
characters as it may, holds every part of the instruction and of the feedback, shows the
observations of a prefix, and says and counts what it leaves out. -/
theorem buildPrompt_bounded (task routeName : Str) (plan : PromptPlan) (observations : List Str)
    (feedback : Option PromptFeedback) (limits : Option PromptLimits) :
    buildPrompt task routeName plan observations feedback limits = .error .valueError ∨
      ∃ tail p, promptTail feedback = .ok tail ∧
        buildPrompt task routeName plan observations feedback limits = .ok p ∧
          p.Honest (limits.getD .default) (promptHead task routeName plan) tail observations := by
  cases htail : promptTail feedback with
  | error e =>
    obtain rfl := promptTail_error htail
    left
    rw [buildPrompt, htail]
    rfl
  | ok tail =>
    by_cases hfixed : promptFixed (promptHead task routeName plan) tail observations >
        (limits.getD .default).maxPromptChars
    · left
      rw [buildPrompt, htail]
      exact if_pos hfixed
    · right
      have hbuilt := buildPrompt.eq_1 task routeName plan observations feedback limits
      rw [htail] at hbuilt
      refine ⟨tail, _, rfl, hbuilt.trans (if_neg hfixed), ?_⟩
      have hshows := @select_shows (limits.getD .default) ((limits.getD .default).maxPromptChars -
        promptFixed (promptHead task routeName plan) tail observations) observations
      refine ⟨?_, fun part hpart ↦ ?_, _, hshows, rfl, ?_⟩
      · have hcounted := hshows.counted
        exact length_prompt_le (promptHead_ne_nil _ _ _) (not_lt.mp hfixed) (select_fits _ _)
          (by omega)
      · refine infix_join ?_
        rcases List.mem_append.mp hpart with hpart | hpart
        · exact List.mem_append_left _ (List.mem_append_left _ (List.mem_append_left _ hpart))
        · exact List.mem_append_right _ hpart
      · rw [← hshows.complete_iff, BoundedPrompt.isComplete, Bool.and_eq_true, decide_eq_true_eq,
          decide_eq_true_eq]

end AtlasCore
