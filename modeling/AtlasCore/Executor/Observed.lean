import AtlasCore.Evaluator.Criteria
import AtlasCore.Executor.Parts
import AtlasCore.Lib.Agree
import AtlasCore.Lib.Lines

/-!
# Observed text and findings

The block of findings is read from the producer's section alone, but the bullets are read from the
whole output, and the whole output lists the observed texts as they are.  A findings heading inside
an observed text is one for `findings_in`, and each bullet below it counts as a finding that nobody
can check.

Two grades that differ only in the observations consider the same findings exactly when the texts
add the same unmatched bullets (`sameFindings_iff`).
-/

set_option autoImplicit false

namespace AtlasCore

open Py

/-! ## Bullets, section by section

Bullets are read from a whole output.  Where nothing that was observed begins a section or ends
one, they are the bullets of the producer. -/

section Bullets

variable {headings : List Str}

/-- Whether a findings heading was the last one after some lines. -/
def collectingAfter (headings : List Str) : Bool → List Str → Bool
  | collecting, [] => collecting
  | collecting, line :: rest =>
    collectingAfter headings
      (if startsWith (strip line) [ch '#'] then headings.any (startsWith (strip line))
        else collecting) rest

theorem findingsFrom_append (b : List Str) : ∀ (collecting : Bool) (a : List Str),
    findingsFrom headings collecting (a ++ b) =
      findingsFrom headings collecting a ++
        findingsFrom headings (collectingAfter headings collecting a) b
  | _, [] => rfl
  | collecting, line :: a => by
    rw [List.cons_append, findingsFrom, findingsFrom, collectingAfter]
    split_ifs
    · exact findingsFrom_append b _ a
    · rw [findingsFrom_append b _ a, List.cons_append]
    · exact findingsFrom_append b _ a

/-- A line feed at the end adds no bullet. -/
theorem findingsIn_end (text : Str) :
    findingsIn (text ++ [lf]) headings = findingsIn text headings := by
  rw [findingsIn, findingsIn]
  rcases splitlines_end text with h | h
  · rw [h]
  · rw [h, findingsFrom_append]
    have hnil : ∀ b, findingsFrom headings b [[]] = [] := by
      intro b
      cases b <;> rfl
    rw [hnil, List.append_nil]

/-- A heading on a line of its own starts anew, and the bullets below it are not collected. -/
theorem findingsIn_heading {before line after : Str} (hline : oneLine line = true)
    (hash : startsWith (strip line) [ch '#'] = true)
    (hno : headings.any (startsWith (strip line)) = false) :
    findingsIn (before ++ lf :: line ++ lf :: after) headings =
      findingsIn before headings ++ findingsIn after headings := by
  have hlines : splitlines (line ++ lf :: after) = line :: splitlines after := by
    have h := splitlines_lineEnd hline (isLineEnd_lf after)
    rwa [List.append_assoc] at h
  rw [List.append_assoc, List.cons_append, findingsIn, splitlines_lf, hlines, findingsFrom_append,
    findingsFrom, if_pos hash, hno]
  exact congrArg (· ++ _) (findingsIn_end before)

/-- A title no findings are collected under: it is one line, is taken for a heading, and is none of
those of findings. -/
structure IsPlain (headings : List Str) (title : Str) : Prop where
  line : oneLine (str "## " ++ title) = true
  hash : startsWith (strip (str "## " ++ title)) [ch '#'] = true
  other : headings.any (startsWith (strip (str "## " ++ title))) = false

theorem findingsIn_titled {title : Str} (h : IsPlain headings title) (before text after : Str) :
    findingsIn (before ++ (titled title text ++ after)) headings =
      findingsIn before headings ++ findingsIn (text ++ lf :: after) headings := by
  rw [← findingsIn_heading h.line h.hash h.other, titled]
  simp only [List.append_assoc, List.cons_append, List.nil_append]

/-- The text neither continues the findings before it nor takes any of them away. -/
def Apart (headings : List Str) (text : Str) : Prop :=
  ∀ before, findingsIn (before ++ text) headings =
    findingsIn before headings ++ findingsIn text headings

theorem apart_nil : Apart headings [] := by
  intro before
  rw [List.append_nil, show findingsIn [] headings = [] from rfl, List.append_nil]

theorem apart_titled {title : Str} (h : IsPlain headings title) (text after : Str) :
    Apart headings (titled title text ++ after) := by
  intro before
  have hnil := findingsIn_titled h [] text after
  rw [List.nil_append, show findingsIn [] headings = [] from rfl, List.nil_append] at hnil
  rw [findingsIn_titled h, hnil]

theorem findingsIn_section {title : Str} (h : IsPlain headings title) (text : Str) :
    findingsIn (titled title text) headings = findingsIn text headings := by
  have hs := findingsIn_titled h [] text []
  rw [List.nil_append, List.append_nil, show findingsIn [] headings = [] from rfl,
    List.nil_append, findingsIn_end] at hs
  exact hs

/-! ## Lists without a heading

A list of texts in which no line is a heading of findings has no finding in it. -/

theorem strip_cons {c : CodePoint} (hc : isSpace c = false) (s : Str) :
    ∃ t, strip (c :: s) = c :: t := by
  rw [strip, stripBy, lstripBy, List.dropWhile_cons_of_neg (by simp [hc]), rstripBy,
    List.reverse_cons, List.dropWhile_append]
  split
  · exact ⟨[], by rw [List.dropWhile_cons_of_neg (by simp [hc])]; rfl⟩
  · exact ⟨_, by rw [List.reverse_append]; rfl⟩

/-- A line that starts with something other than white space or a hash. -/
def plainLine (line : Str) : Bool :=
  (line.head?.any fun c ↦ !isSpace c && c != ch '#') && oneLine line

/-- Outside a findings section such a line changes nothing. -/
theorem findingsIn_skip {line : Str} (h : plainLine line = true) (after : Str) :
    findingsIn (line ++ lf :: after) headings = findingsIn after headings := by
  rw [plainLine, Bool.and_eq_true, Option.any_eq_true] at h
  obtain ⟨⟨c, hhead, hc⟩, hline⟩ := h
  obtain ⟨line, rfl⟩ := List.head?_eq_some_iff.mp hhead
  rw [Bool.and_eq_true, Bool.not_eq_true', bne_iff_ne] at hc
  have hlines : splitlines (c :: line ++ lf :: after) = (c :: line) :: splitlines after := by
    have h := splitlines_lineEnd hline (isLineEnd_lf after)
    rwa [List.append_assoc] at h
  obtain ⟨t, ht⟩ := strip_cons hc.1 line
  have hhash : startsWith (strip (c :: line)) [ch '#'] = false := by
    rw [ht, startsWith, List.isPrefixOf, beq_eq_false_iff_ne.mpr (Ne.symm hc.2), Bool.false_and]
  rw [findingsIn, hlines, findingsFrom, hhash]
  rfl

theorem findingsIn_plainLines : ∀ lines : List Str, (∀ l ∈ lines, plainLine l = true) →
    findingsIn (join [lf] lines) headings = []
  | [], _ => rfl
  | [l], h => by
    have hl : findingsIn (l ++ [lf]) headings = findingsIn [] headings :=
      findingsIn_skip (h l List.mem_cons_self) []
    rw [findingsIn_end] at hl
    exact hl
  | l :: m :: lines, h => by
    rw [show join [lf] (l :: m :: lines) = l ++ [lf] ++ join [lf] (m :: lines) from rfl,
      List.append_assoc, List.singleton_append, findingsIn_skip (h l List.mem_cons_self)]
    exact findingsIn_plainLines (m :: lines) fun l hl ↦ h l (List.mem_cons_of_mem _ hl)

end Bullets

/-! ## The labels of the sources

A label is one line of an observation, so it brings no heading into the output. -/

theorem oneLine_of_sublist {s t : Str} (h : s.Sublist t) (ht : oneLine t = true) :
    oneLine s = true := by
  rw [oneLine, List.all_eq_true] at ht ⊢
  exact fun c hc ↦ ht c (h.subset hc)

theorem strip_sublist (s : Str) : (strip s).Sublist s := by
  refine List.Sublist.trans ?_ (List.dropWhile_sublist isSpace)
  rw [← List.reverse_sublist, strip, stripBy, rstripBy, List.reverse_reverse]
  exact List.dropWhile_sublist isSpace

/-- The label of an observed text stands on one line of it. -/
theorem oneLine_of_sourceLabel {observation label : Str}
    (h : sourceLabel observation = some label) :
    oneLine label = true := by
  rw [sourceLabel] at h
  obtain ⟨line, hline, h⟩ := List.exists_of_findSome?_eq_some h
  rw [Option.ite_none_right_eq_some] at h
  rw [← Option.some.inj h.2]
  exact oneLine_of_sublist
    (((strip_sublist _).trans (List.dropLast_sublist _)).trans (strip_sublist _))
    (oneLine_of_mem_splitlines observation hline)

theorem oneLine_of_mem_observedSources {source : Str} (observations : List Str) :
    source ∈ observedSources observations → oneLine source = true := by
  suffices h : ∀ s ∈ observedSources observations, oneLine s = true from h source
  rw [observedSources]
  refine List.foldlRecOn (motive := fun sources ↦ ∀ s ∈ sources, oneLine s = true) _ _
    (fun s hs ↦ absurd hs List.not_mem_nil) fun sources h observation _ s hs ↦ ?_
  split at hs
  · exact h s hs
  · split at hs
    · exact h s hs
    · rename_i label hlabel
      split at hs
      · exact h s hs
      · rcases List.mem_append.mp hs with hs | hs
        · exact h s hs
        · rw [List.mem_singleton.mp hs]
          exact oneLine_of_sourceLabel hlabel

/-! ## What an output adopts

Which findings and which names of sources a text adds to an output that quotes it. -/

section Adopted

/-- The headings findings stand under in a review. -/
def findingHeadings : List Str := repoReview.findingHeadings

theorem plain_sources : IsPlain findingHeadings (str "Sources inspected") :=
  ⟨by decide, by decide, by decide⟩

theorem plain_observed : IsPlain findingHeadings (str "Observed sources") :=
  ⟨by decide, by decide, by decide⟩

theorem plain_unverified : IsPlain findingHeadings (str "Unverified claims") :=
  ⟨by decide, by decide, by decide⟩

theorem plain_improvement : IsPlain findingHeadings (str "Loop improvement") :=
  ⟨by decide, by decide, by decide⟩

/-- The list of the sources holds no finding, whatever they are called. -/
theorem findingsIn_namedSources (observations : List Str) :
    findingsIn (observedNote ++ lf :: namedSources (observedSources observations)) findingHeadings =
      [] := by
  have hnote : plainLine observedNote = true := by decide +kernel
  rw [findingsIn_skip hnote, namedSources]
  refine findingsIn_plainLines _ fun l hl ↦ ?_
  obtain ⟨source, hs, rfl⟩ := List.mem_map.mp hl
  have hline := oneLine_of_mem_observedSources observations (List.mem_of_mem_take hs)
  rw [plainLine, oneLine_append, oneLine_append, hline]
  rfl

/-- Whether the section of the observed sources is written. -/
def namesSources (feedback : AtlasEvaluation) (observations : List Str) : Bool :=
  feedback.evidenceGaps.any (· ∈ EVIDENCE_GAPS) && !(observedSources observations).isEmpty

/-- The bullets that the unverified claims of the feedback hold below headings of their own. -/
def claimedAgain (feedback : AtlasEvaluation) : List Str :=
  findingsIn (namedClaims feedback.unverifiedClaims) findingHeadings

/-- The bullets of an output that are there because of what was observed. -/
def adopted (feedback : Option AtlasEvaluation) (observations : List Str) : List Str :=
  findingsIn (listedSources observations) findingHeadings ++
    match feedback with
    | some feedback => if namesSources feedback observations then claimedAgain feedback else []
    | none => []

theorem evidenceSection_apart (feedback : AtlasEvaluation) (observations : List Str) :
    Apart findingHeadings (evidenceSection feedback observations) ∧
      findingsIn (evidenceSection feedback observations) findingHeadings =
        if namesSources feedback observations then claimedAgain feedback else [] := by
  rw [evidenceSection, namesSources]
  cases hgap : feedback.evidenceGaps.any (· ∈ EVIDENCE_GAPS)
  · exact ⟨apart_nil, rfl⟩
  · by_cases hs : observedSources observations = []
    · rw [hs]
      exact ⟨apart_nil, rfl⟩
    · have hnames : (!(observedSources observations).isEmpty) = true := by simpa using hs
      simp only [hnames, hs, Bool.not_true, Bool.false_eq_true, ↓reduceIte, Bool.and_self]
      refine ⟨apart_titled plain_observed _ _, ?_⟩
      by_cases hclaims : feedback.unverifiedClaims = []
      · rw [if_pos hclaims, List.append_nil, findingsIn_section plain_observed,
          findingsIn_namedSources, claimedAgain, hclaims]
        rfl
      · have hnote : plainLine unverifiedNote = true := by decide
        have happ := apart_titled plain_unverified
          (unverifiedNote ++ lf :: namedClaims feedback.unverifiedClaims) []
        rw [List.append_nil] at happ
        rw [if_neg hclaims, happ, findingsIn_section plain_observed, findingsIn_namedSources,
          findingsIn_section plain_unverified, findingsIn_skip hnote, List.nil_append, claimedAgain]

theorem gapSections_apart (plan : ExecutionPlan) (gaps : List Section) :
    Apart findingHeadings (gapSections plan gaps) := by
  rw [gapSections]
  split
  · exact apart_nil
  · exact apart_titled plain_improvement _ _

theorem sourcesSection_apart (observations : List Str) :
    Apart findingHeadings (if observations = [] then [] else sourcesSection observations) ∧
      findingsIn (if observations = [] then [] else sourcesSection observations) findingHeadings =
        findingsIn (listedSources observations) findingHeadings := by
  split
  · rename_i h
    rw [h]
    exact ⟨apart_nil, rfl⟩
  · have happ := apart_titled plain_sources (listedSources observations) []
    rw [List.append_nil] at happ
    exact ⟨happ, findingsIn_section plain_sources _⟩

end Adopted

/-! ## Two grades of one review

One review with two lists of observed texts, and what it means that they make no difference. -/

/-- What a review hands to the executor and the evaluator, the observed texts apart. -/
structure Review where
  produceRepoReview : Str → ExecutionPlan → EvidenceBase → Str
  task : Str
  plan : ExecutionPlan
  base : EvidenceBase
  feedback : Option AtlasEvaluation
  iteration : ℕ
  maxIterations : ℕ
  resolvedPatterns : List Str
  structuredOutputRequired : Bool
  onRoute : plan.routeName = .repoReview

namespace Review

/-- The output and the producer's section, as they are put together for this review. -/
def parts (r : Review) (observations : List Str) : Str × Str :=
  executePlanParts r.produceRepoReview r.task r.plan observations r.feedback (some r.base)

/-- The producer's section, the only text that the producer writes. -/
def produced (r : Review) : Str := r.produceRepoReview r.task r.plan r.base

/-- The call that grades the output, with the producer's section as the source of findings. -/
def call (r : Review) (observations : List Str) : Call where
  task := r.task
  output := (r.parts observations).1
  iteration := r.iteration
  maxIterations := r.maxIterations
  route := some r.plan.routeName
  observations := observations
  evidenceBase := some r.base
  review := r.plan.review
  resolvedPatterns := r.resolvedPatterns
  structuredOutputRequired := r.structuredOutputRequired
  findingsSource := (r.parts observations).2

end Review

/-- The findings a call considers: the entries of its block, and the bullets that no claim of the
block equals; none at all without a source or a block that can be read. -/
def Call.considered (rt : Runtime) (c : Call) (base : EvidenceBase) :
    Except Exc (Option (List Entry × List Str)) :=
  if base.isEmpty then return none
  else do
    let parsed ← structuredFindings rt c.findingsSource
    if c.unreadable parsed then return none
    else return some (parsed.entries, c.uncheckable parsed)

/-- The criteria about findings: those of the evidence, and those of the question. -/
def findingCriteria : List Criterion :=
  evidenceCriteria ++ [.findingsAreOnTopic, .findingsAnswerTheQuestion]

/-- Two evaluations that say the same of the findings. -/
structure SameVerdicts (e₁ e₂ : AtlasEvaluation) : Prop where
  checks : e₁.citationChecks = e₂.citationChecks
  met : ∀ k ∈ findingCriteria, k ∈ e₁.metCriteria ↔ k ∈ e₂.metCriteria
  unmet : ∀ k ∈ findingCriteria, k ∈ e₁.unmetCriteria ↔ k ∈ e₂.unmetCriteria

/-- Graded with either list of observed texts, a review considers the same findings: the same
entries and unmatched bullets, and from any state of the sources the same verdicts. -/
def Review.SameFindings (rt : Runtime) (r : Review)
    (observations observations' : List Str) : Prop :=
  (r.call observations).considered rt r.base = (r.call observations').considered rt r.base ∧
    ∀ (W : Type) (src : Sources W) (w : W),
      Eff.Agree SameVerdicts (· = ·) (evaluate src rt (r.call observations) w)
        (evaluate src rt (r.call observations') w)

/-- Where the findings are graded at all, the two lists bring in the same bullets that no claim of
the producer's block equals. -/
def Review.AdoptSame (rt : Runtime) (r : Review) (observations observations' : List Str) : Prop :=
  r.base.isEmpty = false → ∀ parsed, structuredFindings rt r.produced = .ok parsed →
    parsed.malformed = false → (r.structuredOutputRequired = true → parsed.present = true) →
      (adopted r.feedback observations).filter (· ∉ parsed.claims) =
        (adopted r.feedback observations').filter (· ∉ parsed.claims)

/-! ## What is considered

The bullets that are considered are those of the route and the producer, those that the output
adopts, and those of the plan. -/

section Considered

variable {rt : Runtime} {r : Review} {observations : List Str}

/-- The bullets of an output are those of the route and the producer, those it adopts, and those of
the plan. -/
theorem findingsIn_parts (r : Review) (observations : List Str) :
    findingsIn (r.parts observations).1 findingHeadings =
      findingsIn (routeBody r.plan.routeName r.task ++ r.produced) findingHeadings ++
        (adopted r.feedback observations ++
          (r.feedback.map fun feedback ↦ findingsIn
            (gapSections r.plan feedback.missingSections) findingHeadings).getD []) := by
  obtain ⟨happ, hlisted⟩ := sourcesSection_apart observations
  unfold Review.parts executePlanParts adopted
  dsimp only
  cases hf : r.feedback with
  | none =>
    rw [List.append_nil, happ, hlisted, Option.map_none, Option.getD_none, List.append_nil,
      List.append_nil]
    rfl
  | some feedback =>
    obtain ⟨hev, hclaims⟩ := evidenceSection_apart feedback observations
    dsimp only
    rw [refinementSection, ← List.append_assoc, gapSections_apart, hev, happ, hlisted, hclaims,
      Option.map_some, Option.getD_some, List.append_assoc, List.append_assoc, List.append_assoc]
    rfl

theorem unreadable_call {parsed : ParsedFindings} :
    (r.call observations).unreadable parsed = false ↔
    parsed.malformed = false ∧ (r.structuredOutputRequired = true → parsed.present = true) := by
  show (parsed.malformed || (r.structuredOutputRequired && !parsed.present)) = false ↔ _
  cases parsed.malformed <;> cases r.structuredOutputRequired <;> cases parsed.present <;> simp

/-- The same findings are considered exactly when the same bullets are adopted. -/
theorem considered_eq_iff {observations' : List Str} :
    (r.call observations).considered rt r.base = (r.call observations').considered rt r.base ↔
      r.AdoptSame rt observations observations' := by
  have hsource : ∀ os, (r.call os).findingsSource = r.produced := fun _ ↦ rfl
  rw [Call.considered, Call.considered, Review.AdoptSame, hsource, hsource]
  cases hbase : r.base.isEmpty
  · rw [if_neg Bool.false_ne_true, if_neg Bool.false_ne_true]
    cases hp : structuredFindings rt r.produced with
    | error e => exact ⟨fun _ _ _ h ↦ absurd h (by simp), fun _ ↦ rfl⟩
    | ok parsed =>
      have hunreadable : (r.call observations').unreadable parsed =
          (r.call observations).unreadable parsed := rfl
      show (if _ then _ else _) = (if _ then _ else _) ↔ _
      rw [hunreadable]
      cases hu : (r.call observations).unreadable parsed
      · obtain ⟨hm, hpresent⟩ := unreadable_call.mp hu
        have hcancel : (r.call observations).uncheckable parsed =
            (r.call observations').uncheckable parsed ↔
            (adopted r.feedback observations).filter (· ∉ parsed.claims) =
              (adopted r.feedback observations').filter (· ∉ parsed.claims) := by
          show (findingsIn (r.parts observations).1 findingHeadings).filter (· ∉ parsed.claims) =
            (findingsIn (r.parts observations').1 findingHeadings).filter (· ∉ parsed.claims) ↔ _
          simp only [findingsIn_parts, List.filter_append, List.append_cancel_left_eq,
            List.append_cancel_right_eq]
        rw [if_neg Bool.false_ne_true, if_neg Bool.false_ne_true]
        constructor
        · intro h _ parsed' hp' _ _
          obtain rfl := Except.ok.inj hp'
          exact hcancel.mp (Prod.mk.inj (Option.some.inj (Except.ok.inj h))).2
        · intro h
          rw [hcancel.mpr (h rfl parsed rfl hm hpresent)]
      · refine ⟨fun _ _ parsed' hp' hm hpresent ↦ ?_, fun _ ↦ rfl⟩
        obtain rfl := Except.ok.inj hp'
        rw [unreadable_call.mpr ⟨hm, hpresent⟩] at hu
        exact absurd hu Bool.false_ne_true
  · exact ⟨fun _ h ↦ absurd h (by simp), fun _ ↦ rfl⟩

end Considered

/-! ## What is graded

The texts of an output that the evaluator looks at. -/

/-- Two grades of the evidence that differ at most in whether the sources are documented. -/
structure Alike (evidence evidence' : Evidence) : Prop where
  checks : evidence.citationChecks = evidence'.citationChecks
  gaps : ∀ g, g ≠ .sourcesNotDocumented → (g ∈ evidence.gaps ↔ g ∈ evidence'.gaps)
  ofEvidence : ∀ g ∈ evidence.gaps, g.isOfEvidence = true
  ofEvidence' : ∀ g ∈ evidence'.gaps, g.isOfEvidence = true

section Graded

variable {rt : Runtime} {r : Review} {observations observations' : List Str}

theorem isOfEvidence_gradeChecks {contract : RouteEvaluator} {output : Str} {bullets : List Str}
    {checks : List CheckedFinding} :
    ∀ g ∈ (gradeChecks rt contract output bullets checks).gaps, g.isOfEvidence = true := by
  intro g hg
  rcases mem_gaps_gradeChecks.mp hg with h | h | h | h | h | h <;> (rw [h.1]; rfl)

/-- The text decides only whether it documents its sources. -/
theorem gradeChecks_alike {contract : RouteEvaluator} {output output' : Str} {bullets : List Str}
    {checks : List CheckedFinding} :
    Alike (gradeChecks rt contract output bullets checks)
      (gradeChecks rt contract output' bullets checks) where
  checks := by
    rw [gradeChecks, gradeChecks]
    split
    · split <;> split <;> rfl
    · rfl
  gaps g hg := by
    simp only [mem_gaps_gradeChecks, hg, false_and, false_or]
  ofEvidence := isOfEvidence_gradeChecks
  ofEvidence' := isOfEvidence_gradeChecks

/-- The grade of the evidence follows what is considered. -/
theorem evidence_call {W : Type} (src : Sources W) :
    (r.call observations).evidence src rt =
      Eff.ofExcept ((r.call observations).considered rt r.base) >>= fun considered ↦
        match considered with
        | none => pure (if r.base.isEmpty then { gaps := [.noSourcesObserved] } else missingBlock)
        | some (entries, bullets) => checkEntries src r.base repoReview entries >>= fun checks ↦
          pure (gradeChecks rt repoReview (r.call observations).output bullets checks) := by
  show gradeEvidence src rt (routeEvaluator (some r.plan.routeName)) _ _ (some r.base) _ _ = _
  rw [r.onRoute, routeEvaluator_repoReview, gradeEvidence, gradeAgainstEvidence, Call.considered]
  funext w
  cases hbase : r.base.isEmpty
  · rw [if_neg Bool.false_ne_true, if_neg Bool.false_ne_true, Eff.ofExcept_bind_run,
      Eff.ofExcept_bind_run]
    cases structuredFindings rt (r.call observations).findingsSource with
    | error e => rfl
    | ok parsed =>
      have hunreadable : (parsed.malformed ||
          (r.call observations).structuredOutputRequired && !parsed.present) =
            (r.call observations).unreadable parsed := rfl
      have hbind : ∀ f : ParsedFindings → Except Exc (Option (List Entry × List Str)),
          (Except.ok parsed >>= f) = f parsed := fun _ ↦ rfl
      show (if _ then _ else _ : Eff Exc W Evidence) w = _
      rw [hunreadable, hbind]
      cases (r.call observations).unreadable parsed <;> rfl
  · rfl

/-- Where the same is considered, the evidence is graded alike. -/
theorem evidence_agree
    (h : (r.call observations).considered rt r.base = (r.call observations').considered rt r.base)
    {W : Type} (src : Sources W) (w : W) :
    Eff.Agree Alike (· = ·) ((r.call observations).evidence src rt w)
      ((r.call observations').evidence src rt w) := by
  rw [evidence_call, evidence_call, h, Eff.ofExcept_bind_run, Eff.ofExcept_bind_run]
  cases (r.call observations').considered rt r.base with
  | error e => exact ⟨rfl, rfl⟩
  | ok considered =>
    cases considered with
    | none =>
      have hev : ∀ g ∈ (if r.base.isEmpty then ({ gaps := [.noSourcesObserved] } : Evidence)
          else missingBlock).gaps, g.isOfEvidence = true := by
        cases r.base.isEmpty <;> simp [missingBlock, Gap.isOfEvidence]
      exact ⟨⟨rfl, fun _ _ ↦ Iff.rfl, hev, hev⟩, rfl⟩
    | some considered =>
      refine (Eff.Agree.refl _).bind fun checks checks' w w' hc hw ↦ ?_
      rw [hc]
      exact ⟨gradeChecks_alike, hw⟩

theorem blamed_iff {evidence evidence' : Evidence} (h : Alike evidence evidence') {k : Criterion}
    (hk : k ∈ findingCriteria) :
    k ∈ (r.call observations).blamed rt evidence ↔
      k ∈ (r.call observations').blamed rt evidence' := by
  rw [findingCriteria, List.mem_append] at hk
  rcases hk with hk | hk
  · have hgap : ∀ g, k ∈ criterionForGap g → g ≠ .sourcesNotDocumented := by
      rintro g hg rfl
      obtain rfl := List.mem_singleton.mp hg
      exact absurd hk (by decide)
    rw [mem_blamed_of_evidence hk, mem_blamed_of_evidence hk]
    exact exists_congr fun g ↦ and_congr_left fun hg ↦ h.gaps g (hgap g hg)
  · have hq : k = .findingsAreOnTopic ∨ k = .findingsAnswerTheQuestion := by simpa using hk
    have hon : ∀ review base, onTopicFinding review evidence base =
        onTopicFinding review evidence' base := by
      intro review base
      unfold onTopicFinding
      rw [h.checks]
    have hans : ∀ review base, answeringFinding rt review evidence base =
        answeringFinding rt review evidence' base := by
      intro review base
      unfold answeringFinding
      rw [h.checks]
    have honGap : .noOnTopicFinding ∈ (r.call observations).gapCodes rt evidence ↔
        .noOnTopicFinding ∈ (r.call observations').gapCodes rt evidence' := by
      rw [noOnTopic_mem h.ofEvidence, noOnTopic_mem h.ofEvidence', hon]
      exact Iff.rfl
    have hansGap : .noAnsweringFinding ∈ (r.call observations).gapCodes rt evidence ↔
        .noAnsweringFinding ∈ (r.call observations').gapCodes rt evidence' := by
      rw [noAnswering_mem h.ofEvidence, noAnswering_mem h.ofEvidence', honGap, hans]
      exact Iff.rfl
    rw [mem_blamed_of_question hq, mem_blamed_of_question hq]
    refine exists_congr fun g ↦ ?_
    constructor
    · rintro ⟨hg, rfl | rfl, hkg⟩
      · exact ⟨honGap.mp hg, .inl rfl, hkg⟩
      · exact ⟨hansGap.mp hg, .inr rfl, hkg⟩
    · rintro ⟨hg, rfl | rfl, hkg⟩
      · exact ⟨honGap.mpr hg, .inl rfl, hkg⟩
      · exact ⟨hansGap.mpr hg, .inr rfl, hkg⟩

theorem mem_unmetCriteria {c : Call} {evidence : Evidence} {k : Criterion} :
    k ∈ (c.assess rt evidence).unmetCriteria ↔ k ∈ c.declared ∧ k ∈ c.blamed rt evidence := by
  show k ∈ sortCriteria _ ↔ _
  rw [mem_sortCriteria, List.mem_filter]
  simp

/-- Evidence graded alike says the same of the findings. -/
theorem sameVerdicts {evidence evidence' : Evidence} (h : Alike evidence evidence') :
    SameVerdicts ((r.call observations).assess rt evidence)
      ((r.call observations').assess rt evidence') where
  checks := h.checks
  met k hk := by
    rw [mem_metCriteria, mem_metCriteria, blamed_iff h hk]
    exact Iff.rfl
  unmet k hk := by
    rw [mem_unmetCriteria, mem_unmetCriteria, blamed_iff h hk]
    exact Iff.rfl

end Graded

/-- **Two lists of observed texts lead to the same findings exactly where they bring in the same
unmatched bullets.** -/
theorem sameFindings_iff (rt : Runtime) (r : Review) (observations observations' : List Str) :
    r.SameFindings rt observations observations' ↔ r.AdoptSame rt observations observations' := by
  constructor
  · exact fun h ↦ considered_eq_iff.mp h.1
  · intro h
    have hconsidered := considered_eq_iff.mpr h
    exact ⟨hconsidered, fun W src w ↦
      (evidence_agree hconsidered src w).map fun _ _ halike ↦ sameVerdicts halike⟩

/-- A review whose producer has nothing to say. -/
def silentReview : Review where
  produceRepoReview := fun _ _ _ ↦ []
  task := str "Granska repot"
  plan := ⟨⟨str "Granska repot", .repoReview, none⟩, [], []⟩
  base := firstLine
  feedback := none
  iteration := 1
  maxIterations := 2
  resolvedPatterns := []
  structuredOutputRequired := false
  onRoute := rfl

/-- A file of the repository with a heading and a bullet. -/
def bulletText : Str := str "a.txt:\n## Findings\n- The release is safe."

/-- The bullet of the file becomes a finding. -/
theorem bulletText_found : ¬ silentReview.SameFindings asciiRuntime [bulletText] [] := by
  intro h
  have hsame := considered_eq_iff.mp h.1 rfl {} rfl rfl fun h ↦ absurd h Bool.false_ne_true
  revert hsame
  decide

end AtlasCore
