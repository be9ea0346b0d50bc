import AtlasCore.Evaluator.Criteria

/-!
# What a passing answer establishes

A passing review leaves no gap, so its citations hold, its bullets are claims of the block, and the
findings that decide for their ids are verified.  A finding whose id a later one shares is recorded
with the verdict of the later one; nothing is said of its own.
-/

set_option autoImplicit false

namespace AtlasCore

open Py

variable {W : Type} (src : Sources W) (rt : Runtime) (base : EvidenceBase)

/-- What the gate promises of a passing answer: there were sources, every finding was checked on its
own and verified, and every bullet under a findings heading is the claim of one of them. -/
structure Established (c : Call) (w : W) : Prop where
  hasSources : base.isEmpty = false
  verified : ∃ parsed checks w', structuredFindings rt c.findingsSource = .ok parsed ∧
    checkEntries src base repoReview parsed.entries w = (.ok checks, w') ∧
    checks.map (·.entry) = parsed.entries ∧ (∀ f ∈ checks, f.isVerified = true) ∧
    ∀ b ∈ findingsIn c.output repoReview.findingHeadings, ∃ f ∈ checks, f.finding.claim = b

/-- The gate is sound for a block in a state of the world: whatever the task, the text and the rest
of the call, an answer that passes is established. -/
def GateSound (findingsSource : Str) (w : W) : Prop :=
  ∀ c : Call, c.route = some .repoReview → c.evidenceBase = some base →
    c.findingsSource = findingsSource → ∀ e w', evaluate src rt c w = (.ok e, w') →
      e.passed = true → Established src rt base c w

/-- No finding hides behind another: where all citations hold and the last finding of every id is
verified, all findings are. -/
def NothingHidden (checks : List CheckedFinding) : Prop :=
  (∀ f ∈ checks, f.isSound = true) → (∀ f, IsLast checks f → f.isVerified = true) →
    ∀ f ∈ checks, f.isVerified = true

/-! ## From a passing grade

A grade that has passed has no gap, so every finding of it was checked and none was blamed. -/

section Passed

variable {rt} {c : Call} {evidence : Evidence}

theorem passed_iff : (c.assess rt evidence).passed = true ↔
    (∀ k ∈ c.declared, k ∉ c.blamed rt evidence) ∧ requiresWriteApproval rt c.task = false := by
  show ((c.declared.filter (· ∈ c.blamed rt evidence)).isEmpty &&
    !requiresWriteApproval rt c.task) = true ↔ _
  simp [List.filter_eq_nil_iff]

/-- On a review every gap of the evidence blames a criterion that is declared. -/
theorem exists_blamed (hr : c.route = some .repoReview) {g : Gap} (hg : g.isOfEvidence = true) :
    ∃ k ∈ criterionForGap g, k ∈ c.declared := by
  have hdec : ∀ k ∈ exitCriteria (some .repoReview), k ∈ c.declared := by
    intro k hk
    exact mem_declared_of_route (hr ▸ hk)
  cases g with
  | planTargetsUnread | noOnTopicFinding | noAnsweringFinding => exact absurd hg (by decide)
  | noSourcesObserved | sourcesNotDocumented =>
    exact ⟨.sourcesDocumented, by decide, hdec _ (by decide)⟩
  | uncitedFindings | uncheckableFindings | malformedFindings =>
    exact ⟨.findingsAreCheckable, by decide, hdec _ (by decide)⟩
  | unsoundCitations => exact ⟨.citationsHold, by decide, hdec _ (by decide)⟩
  | contradictedFindings | unverifiedFindings | claimTextMismatch | claimsNotChecked =>
    exact ⟨.claimsAreSettled, by decide, hdec _ (by decide)⟩

/-- A review that passes has no gap in its evidence. -/
theorem gaps_of_passed (hr : c.route = some .repoReview)
    (hev : ∀ g ∈ evidence.gaps, g.isOfEvidence = true)
    (hp : (c.assess rt evidence).passed = true) : evidence.gaps = [] := by
  refine List.eq_nil_iff_forall_not_mem.mpr fun g hg ↦ ?_
  obtain ⟨k, hk, hdec⟩ := exists_blamed hr (hev g hg)
  refine (passed_iff.mp hp).1 k hdec ?_
  simp only [Call.blamed, Call.gapCodes, List.mem_append, List.mem_flatMap]
  exact .inr ⟨g, .inl (.inr hg), hk⟩

/-- Checks without a gap: nothing unmatched, all citations sound, and no complaint. -/
theorem gaps_gradeChecks_eq_nil {contract : RouteEvaluator} {output : Str} {uncheckable : List Str}
    {checks : List CheckedFinding}
    (h : (gradeChecks rt contract output uncheckable checks).gaps = []) :
    uncheckable = [] ∧ (∀ f ∈ checks, f.isSound = true) ∧ NoComplaint checks := by
  have hno : ∀ g, g ∉ (gradeChecks rt contract output uncheckable checks).gaps := by
    intro g
    rw [h]
    exact List.not_mem_nil
  simp only [mem_gaps_gradeChecks] at hno
  refine ⟨?_, ?_, ?_, ?_, ?_⟩
  · by_contra hu
    exact hno .uncheckableFindings (.inr (.inl ⟨rfl, hu⟩))
  · intro f hf
    by_contra hs
    exact hno .unsoundCitations (.inr (.inr (.inl ⟨rfl, f, hf, Bool.eq_false_iff.mpr hs⟩)))
  · by_contra hc
    exact hno .contradictedFindings (.inr (.inr (.inr (.inl ⟨rfl, hc⟩))))
  · by_contra hc
    exact hno .claimTextMismatch (.inr (.inr (.inr (.inr (.inl ⟨rfl, hc⟩)))))
  · by_contra hc
    exact hno .unverifiedFindings (.inr (.inr (.inr (.inr (.inr ⟨rfl, hc⟩)))))

end Passed

/-! ## To a passing grade

An output that meets everything but the findings, to which any findings can be added. -/

/-- A text with the sections a route owes, and no findings. -/
def bareSections : Str := str "## Recommendation\n## Next step\n## Confidence\n"

/-- A call that owes nothing but its findings. -/
def bareCall (findingsSource : Str) : Call where
  task := []
  output := bareSections
  iteration := 1
  maxIterations := 1
  route := some .repoReview
  observations := []
  evidenceBase := some base
  review := none
  resolvedPatterns := []
  structuredOutputRequired := false
  findingsSource := findingsSource

theorem findingsIn_bareSections : findingsIn bareSections repoReview.findingHeadings = [] := by
  decide +kernel

theorem missingSections_bareSections : missingSections bareSections = [] := by decide +kernel

/-- Nothing but the evidence can keep the bare call from passing. -/
theorem bareCall_passed {fs : Str} {evidence : Evidence} (h : evidence.gaps = []) :
    ((bareCall base fs).assess rt evidence).passed = true := by
  rw [passed_iff]
  have hblamed : ∀ k ∈ (bareCall base fs).blamed rt evidence, k = .substance := by
    intro k hk
    have hdec : Criterion.findingsAreOnTopic ∉ (bareCall base fs).declared ∧
        Criterion.findingsAnswerTheQuestion ∉ (bareCall base fs).declared := by
      show _ ∉ exitCriteria (some .repoReview) ∧ _ ∉ exitCriteria (some .repoReview)
      decide
    have hwait : (bareCall base fs).waitingOn = [] := rfl
    simp only [Call.blamed, Call.gapCodes, h, hwait, hdec.1, hdec.2, false_and, ↓reduceIte,
      List.append_nil, ne_eq, not_true_eq_false, List.flatMap_nil, List.mem_append,
      List.mem_map] at hk
    rcases hk with hk | ⟨s, hs, -⟩
    · split at hk
      · exact List.mem_singleton.mp hk
      · exact absurd hk List.not_mem_nil
    · rw [show (bareCall base fs).output = bareSections from rfl,
        missingSections_bareSections] at hs
      exact absurd hs List.not_mem_nil
  constructor
  · intro k hk hb
    obtain rfl := hblamed k hb
    exact absurd (show Criterion.substance ∈ exitCriteria (some .repoReview) from hk) (by decide)
  · show WRITE_KEYWORDS.any (contains · (rt.lower [])) = false
    rw [rt.lowerNil]
    decide

theorem bareCall_uncheckable (fs : Str) (parsed : ParsedFindings) :
    (bareCall base fs).uncheckable parsed = [] := by
  rw [Call.uncheckable, uncheckableBullets]
  rw [show (bareCall base fs).output = bareSections from rfl, findingsIn_bareSections]
  rfl

/-- A block that cannot be read has no entries. -/
theorem entries_of_malformed {rt : Runtime} {source : Str} {parsed : ParsedFindings}
    (h : structuredFindings rt source = .ok parsed) (hm : parsed.malformed = true) :
    parsed.entries = [] := by
  rw [structuredFindings] at h
  split at h
  · obtain rfl := Except.ok.inj h
    rfl
  · split at h
    · split at h
      · obtain rfl := Except.ok.inj h
        exact absurd hm (by simp)
      · split at h
        · obtain rfl := Except.ok.inj h
          rfl
        · exact absurd h (by simp)
    · obtain rfl := Except.ok.inj h
      rfl
    · obtain rfl := Except.ok.inj h
      rfl
    · exact absurd h (by simp)
    · exact absurd h (by simp)

/-- A readable block in a base with sources is graded by its checks. -/
theorem bareCall_evidence (hbase : base.isEmpty = false) {fs : Str} {parsed : ParsedFindings}
    (hp : structuredFindings rt fs = .ok parsed) (hm : parsed.malformed = false)
    {checks : List CheckedFinding} {w w' : W}
    (hc : checkEntries src base repoReview parsed.entries w = (.ok checks, w')) :
    (bareCall base fs).evidence src rt w =
      (.ok (gradeChecks rt repoReview bareSections [] checks), w') := by
  have hu := bareCall_uncheckable base fs parsed
  rw [Call.uncheckable] at hu
  show gradeAgainstEvidence src base rt repoReview bareSections false fs w = _
  rw [gradeAgainstEvidence, hbase, if_neg Bool.false_ne_true, Eff.bind_eq_ok]
  refine ⟨parsed, w, Eff.ofExcept_eq_ok.mpr ⟨hp, rfl⟩, ?_⟩
  rw [hm, Bool.false_or, Bool.false_and, if_neg Bool.false_ne_true, Eff.bind_eq_ok]
  refine ⟨checks, w', hc, Eff.pure_eq_ok.mpr ⟨?_, rfl⟩⟩
  rw [← hu]
  rfl

/-- **The gate is sound for a block exactly when nothing in it is hidden.** -/
theorem gateSound_iff (findingsSource : Str) (w : W) :
    GateSound src rt base findingsSource w ↔
      (base.isEmpty = false → ∀ parsed checks w', structuredFindings rt findingsSource =
        .ok parsed →
        checkEntries src base repoReview parsed.entries w = (.ok checks, w') →
          NothingHidden checks) := by
  constructor
  · intro hsound hbase parsed checks w' hp hc hall hlast f hf
    obtain ⟨hentries, hs⟩ := (checkEntries_spec src base parsed.entries w).of_run hc
    have hm : parsed.malformed = false := by
      by_contra hm
      rw [entries_of_malformed hp (Bool.not_eq_false _ ▸ hm), List.map_eq_nil_iff] at hentries
      rw [hentries] at hf
      exact absurd hf List.not_mem_nil
    -- the bare call on this block has no gap, so it passes
    have hgaps : (gradeChecks rt repoReview bareSections [] checks).gaps = [] := by
      obtain ⟨hr, hmm, hu⟩ := (noComplaint_iff hs).mpr hlast
      refine List.eq_nil_iff_forall_not_mem.mpr fun g hg ↦ ?_
      rcases mem_gaps_gradeChecks.mp hg with ⟨-, h, -⟩ | ⟨-, h⟩ | ⟨-, g, hg, h⟩ | ⟨-, h⟩ | ⟨-, h⟩ |
        ⟨-, h⟩
      · rw [h] at hf
        exact absurd hf List.not_mem_nil
      · exact h rfl
      · rw [hall g hg] at h
        exact absurd h (by decide)
      · exact h hr
      · exact h hmm
      · exact h hu
    have hrun := evaluate_eq_ok.mpr ⟨_, bareCall_evidence src rt base hbase hp hm hc, rfl⟩
    obtain ⟨-, parsed', checks', t, hp', hc', -, hver, -⟩ :=
      hsound (bareCall base findingsSource) rfl rfl rfl _ _ hrun (bareCall_passed rt base hgaps)
    obtain rfl := Except.ok.inj (hp.symm.trans hp')
    obtain rfl := Except.ok.inj (Prod.mk.inj (hc.symm.trans hc')).1
    exact hver f hf
  · intro hhidden c hr hb hfs e w' h hpass
    obtain ⟨evidence, hev, rfl⟩ := evaluate_eq_ok.mp h
    have hgaps := gaps_of_passed hr (gaps_ofEvidence hb hev) hpass
    rcases evidence_cases hr hb hev with ⟨-, rfl⟩ | ⟨-, _, -, -, rfl⟩ |
        ⟨hbase, parsed, checks, hp, -, hc, rfl⟩
    · exact absurd hgaps (by simp)
    · exact absurd hgaps (by simp [missingBlock])
    · obtain ⟨hentries, hs⟩ := (checkEntries_spec src base parsed.entries w).of_run hc
      obtain ⟨huncheckable, hall, hno⟩ := gaps_gradeChecks_eq_nil hgaps
      have hver := hhidden hbase parsed checks w' (hfs ▸ hp) hc hall ((noComplaint_iff hs).mp hno)
      refine ⟨hbase, parsed, checks, w', hp, hc, hentries, hver, fun b hbullet ↦ ?_⟩
      -- a bullet that is not unmatched is the claim of an entry, and every entry was checked
      have hclaim : b ∈ parsed.claims := by
        by_contra hno
        have hmem : b ∈ c.uncheckable parsed :=
          List.mem_filter.mpr ⟨hbullet, decide_eq_true hno⟩
        rw [huncheckable] at hmem
        exact absurd hmem List.not_mem_nil
      rw [ParsedFindings.claims, ← hentries, List.map_map] at hclaim
      obtain ⟨f, hf, rfl⟩ := List.mem_map.mp hclaim
      exact ⟨f, hf, rfl⟩

/-! ## Two findings with one id

A review with a finding that fails and another that hides it. -/

/-- The id of the file as a source. -/
def fileId : Json := .str (str "f2c5ff7e" ++ str "50b5a28a")

/-- The digest of the file, as a citation of it names it. -/
def fileDigest : Json :=
  .str (["09834d48", "8008f5f1", "ef589a2d", "7cedc524", "25bee9dd", "23b2212e", "4c1d673c",
    "5cbb54e4"].flatMap str)

/-- A finding about the first line of the file; `declared` is what it says about itself. -/
def findingItem (declared : Fields) : Json :=
  .obj ([(str "claim", .str (str "a.txt lines 1-1 " ++ str "contain \"x\"")),
    (str "scope", .str (str "s")), (str "severity_rationale", .str (str "r")),
    (str "evidence", .arr [.obj [(str "source_id", fileId), (str "content_sha256", fileDigest),
      (str "line_start", .int 1), (str "line_end", .int 1), (str "quoted", .str (str "x"))]])] ++
    declared)

/-- A typed claim about the first line: that it contains an `x`, which it does. -/
def containsX : Json :=
  .obj [(str "kind", .str (str "source_contains_" ++ str "literal")), (str "source_id", fileId),
    (str "text", .str (str "x"))]

/-- A block of two findings with one claim and one scope: free text first, then the typed claim. -/
def hidingBlock : Str :=
  str "```" ++ FINDINGS_FENCE ++ str "\n" ++
    Json.render (.arr [findingItem [], findingItem [(str "typed_claim", containsX)]]) ++
    str "\n```\n"

/-- The answer passes. -/
theorem hidingBlock_passes :
    (match (evaluate twoLineDisk asciiRuntime (bareCall firstLine hidingBlock) ()).1 with
      | .ok e => e.passed
      | .error _ => false) = true := by decide +kernel

/-- The free text was not verified. -/
theorem hidingBlock_hides :
    (match structuredFindings asciiRuntime hidingBlock with
      | .ok parsed =>
        match (checkEntries twoLineDisk firstLine repoReview parsed.entries ()).1 with
        | .ok checks => checks.all (·.isVerified)
        | .error _ => true
      | .error _ => true) = false := by decide +kernel

/-- A finding that was never settled passes with the verdict of a later one. -/
theorem gate_passes_free_text : ¬ GateSound twoLineDisk asciiRuntime firstLine hidingBlock () := by
  intro h
  have hpass := hidingBlock_passes
  have hhide := hidingBlock_hides
  cases he : evaluate twoLineDisk asciiRuntime (bareCall firstLine hidingBlock) () with
  | mk result w' =>
    rw [he] at hpass
    cases result with
    | error e => exact absurd hpass (by simp)
    | ok e =>
      obtain ⟨-, parsed, checks, w'', hp, hc, -, hver, -⟩ := h _ rfl rfl rfl e w' he hpass
      have hp : structuredFindings asciiRuntime hidingBlock = .ok parsed := hp
      rw [hp] at hhide
      simp only [hc] at hhide
      rw [List.all_eq_true.mpr hver] at hhide
      exact absurd hhide (by decide)

end AtlasCore
