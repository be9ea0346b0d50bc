import AtlasCore.Evaluator.Evaluate
import Mathlib.Data.List.Induction

/-!
# Which verdict a finding is recorded with

The verdicts of one call are kept in a dict with the finding ids as keys.  An id derives from the
claim and the scope alone, so two findings of a block can share one, and then both are recorded
with the verdict of the later one.  The findings that decide are the last of their id whose claim
was checked; `IsLast` names them, and everything the grade says about claims it says about them.
-/

set_option autoImplicit false

namespace AtlasCore

open Py

/-- The id of a checked finding, which is derived from its claim and its citations. -/
def CheckedFinding.id (c : CheckedFinding) : Str := c.finding.findingId

/-- Its citations hold, and its own claim was settled in its favour. -/
def CheckedFinding.isVerified (c : CheckedFinding) : Bool :=
  c.isSound && c.own.any (·.result = .verified)

/-- `c` has a verdict of its own, and no later finding with its id has one. -/
def IsLast (checks : List CheckedFinding) (c : CheckedFinding) : Prop :=
  ∃ before after, checks = before ++ c :: after ∧ c.own ≠ none ∧
    ∀ d ∈ after, d.id = c.id → d.own = none

theorem IsLast.mem {checks : List CheckedFinding} {c : CheckedFinding} (h : IsLast checks c) :
    c ∈ checks := by
  obtain ⟨before, after, rfl, -⟩ := h
  simp

theorem IsLast.concat_of_ne {checks : List CheckedFinding} {c d : CheckedFinding}
    (h : IsLast checks c) (hd : d.id = c.id → d.own = none) : IsLast (checks ++ [d]) c := by
  obtain ⟨before, after, rfl, hc, hafter⟩ := h
  refine ⟨before, after ++ [d], by simp, hc, ?_⟩
  intro e he
  rcases List.mem_append.mp he with he | he
  · exact hafter e he
  · rw [List.mem_singleton.mp he]
    exact hd

theorem isLast_concat {checks : List CheckedFinding} {c : CheckedFinding} (h : c.own ≠ none) :
    IsLast (checks ++ [c]) c :=
  ⟨checks, [], rfl, h, fun _ h _ ↦ absurd h List.not_mem_nil⟩

/-- A finding that decides in a longer block decides in the shorter one, or is the last. -/
theorem IsLast.of_concat {checks : List CheckedFinding} {c d : CheckedFinding}
    (h : IsLast (checks ++ [d]) c) :
    (c = d ∧ d.own ≠ none) ∨ (IsLast checks c ∧ (d.id = c.id → d.own = none)) := by
  obtain ⟨before, after, he, hc, hafter⟩ := h
  rcases List.eq_nil_or_concat after with rfl | ⟨after, e, rfl⟩
  · obtain ⟨-, hcd⟩ := List.append_inj' he rfl
    obtain rfl := (List.cons.inj hcd).1
    exact .inl ⟨rfl, hc⟩
  · rw [List.concat_eq_append] at he hafter
    rw [← List.cons_append, ← List.append_assoc] at he
    obtain ⟨rfl, hde⟩ := List.append_inj' he rfl
    obtain rfl := (List.cons.inj hde).1
    refine .inr ⟨⟨before, after, rfl, hc, fun f hf ↦ hafter f ?_⟩, hafter d (by simp)⟩
    exact List.mem_append_left _ hf

theorem claimVerdicts_concat (checks : List CheckedFinding) (c : CheckedFinding) (id : Str) :
    claimVerdicts (checks ++ [c]) id =
      if c.id = id ∧ c.own ≠ none then c.own else claimVerdicts checks id := by
  simp only [claimVerdicts, List.foldl_append, List.foldl_cons, List.foldl_nil]
  cases c.own with
  | none => simp
  | some v =>
    by_cases h : c.id = id
    · have h' : id = c.finding.findingId := h.symm
      simp [h, h']
    · have h' : ¬ id = c.finding.findingId := fun he ↦ h he.symm
      simp [h, h']

/-- **The dict of verdicts** holds, under an id, the verdict of the finding that decides for it. -/
theorem claimVerdicts_eq_some (checks : List CheckedFinding) {id : Str} {v : ClaimVerdict} :
    claimVerdicts checks id = some v ↔ ∃ c, IsLast checks c ∧ c.id = id ∧ c.own = some v := by
  induction checks using List.reverseRecOn with
  | nil =>
    constructor
    · intro h
      exact absurd h (by simp [claimVerdicts])
    · rintro ⟨c, h, -⟩
      exact absurd h.mem List.not_mem_nil
  | append_singleton checks d ih =>
    rw [claimVerdicts_concat]
    constructor
    · intro h
      split at h
      · rename_i hd
        exact ⟨d, isLast_concat hd.2, hd.1, h⟩
      · rename_i hd
        obtain ⟨c, hc, rfl, hv⟩ := ih.mp h
        refine ⟨c, hc.concat_of_ne fun hid ↦ ?_, rfl, hv⟩
        by_contra hown
        exact hd ⟨hid, hown⟩
    · rintro ⟨c, hc, rfl, hv⟩
      rcases hc.of_concat with ⟨rfl, hown⟩ | ⟨hc, hd⟩
      · rw [if_pos ⟨rfl, hown⟩, hv]
      · rw [if_neg (fun h ↦ h.2 (hd h.1))]
        exact ih.mpr ⟨c, hc, rfl, hv⟩

/-- A finding that decides is recorded with its own verdict. -/
theorem IsLast.recordedVerdict {checks : List CheckedFinding} {c : CheckedFinding}
    (h : IsLast checks c) : recordedVerdict checks c = c.own := by
  cases hv : c.own with
  | none =>
    obtain ⟨_, _, _, hown, _⟩ := h
    exact absurd hv hown
  | some v => exact (claimVerdicts_eq_some checks).mpr ⟨c, h, rfl, hv⟩

/-- Every finding with a verdict of its own has one that decides for its id. -/
theorem exists_isLast {checks : List CheckedFinding} {c : CheckedFinding} (hc : c ∈ checks)
    (hown : c.own ≠ none) : ∃ d, IsLast checks d ∧ d.id = c.id := by
  induction checks using List.reverseRecOn with
  | nil => exact absurd hc List.not_mem_nil
  | append_singleton checks e ih =>
    by_cases he : e.id = c.id ∧ e.own ≠ none
    · exact ⟨e, isLast_concat he.2, he.1⟩
    · rcases List.mem_append.mp hc with hc | hc
      · obtain ⟨d, hd, hid⟩ := ih hc
        refine ⟨d, hd.concat_of_ne fun h ↦ ?_, hid⟩
        by_contra hne
        exact he ⟨h.trans hid, hne⟩
      · obtain rfl := List.mem_singleton.mp hc
        exact absurd ⟨rfl, hown⟩ he

/-! ## What the grade complains about

Which verdicts of the checks stand in the gaps of a grade, and which it passes over. -/

/-- No gap blames a claim: nothing is refuted, misstated or left unsettled. -/
def NoComplaint (checks : List CheckedFinding) : Prop :=
  withResult checks .contradicted = [] ∧ withResult checks .claimTextMismatch = [] ∧
    uncheckedOf checks = []

/-- The own verdict is there exactly where the citations hold: what `checkEntries` returns for a
route that requires claim checks. -/
def OwnWhereSound (checks : List CheckedFinding) : Prop :=
  ∀ c ∈ checks, c.own.isSome = c.isSound

theorem mem_withResult {checks : List CheckedFinding} {r : ClaimResult} {c : CheckedFinding} :
    c ∈ withResult checks r ↔
      c ∈ checks ∧ ∃ v, recordedVerdict checks c = some v ∧ v.result = r := by
  simp [withResult, List.mem_filter, Option.any_eq_true]

theorem mem_uncheckedOf {checks : List CheckedFinding} {c : CheckedFinding} :
    c ∈ uncheckedOf checks ↔ c ∈ checks ∧ c.isSound = true ∧ ∃ v,
      recordedVerdict checks c = some v ∧ v.isDecisive = false ∧ v.result ≠ .claimTextMismatch := by
  simp [uncheckedOf, List.mem_filter, Option.any_eq_true]

/-- The grade has no complaint exactly when the findings that decide are verified. -/
theorem noComplaint_iff {checks : List CheckedFinding} (hs : OwnWhereSound checks) :
    NoComplaint checks ↔ ∀ c, IsLast checks c → c.isVerified = true := by
  constructor
  · rintro ⟨hr, hm, hu⟩ c hc
    have hrec := hc.recordedVerdict
    have hsound := hs c hc.mem
    obtain ⟨_, _, _, hown, _⟩ := id hc
    obtain ⟨v, hv⟩ := Option.ne_none_iff_exists'.mp hown
    rw [hv] at hrec hsound
    rw [CheckedFinding.isVerified, ← hsound, hv]
    simp only [Option.isSome_some, Bool.true_and, Option.any_some, decide_eq_true_eq]
    cases hres : v.result with
    | verified => rfl
    | contradicted =>
      exact absurd (mem_withResult.mpr ⟨hc.mem, v, hrec, hres⟩) (by simp [hr])
    | claimTextMismatch =>
      exact absurd (mem_withResult.mpr ⟨hc.mem, v, hrec, hres⟩) (by simp [hm])
    | _ =>
      refine absurd (mem_uncheckedOf.mpr ⟨hc.mem, hsound.symm, v, hrec, ?_, ?_⟩) (by simp [hu])
      · simp [ClaimVerdict.isDecisive, hres, ClaimResult.isDecisive]
      · simp [hres]
  · intro h
    -- a recorded verdict is the own verdict of a finding that decides
    have hver : ∀ c v, recordedVerdict checks c = some v → v.result = .verified := by
      intro c v hv
      obtain ⟨d, hd, -, hown⟩ := (claimVerdicts_eq_some checks).mp hv
      have hd := h d hd
      rw [CheckedFinding.isVerified, hown] at hd
      simpa using (Bool.and_eq_true_iff.mp hd).2
    refine ⟨?_, ?_, ?_⟩
    · refine List.eq_nil_iff_forall_not_mem.mpr fun c hc ↦ ?_
      obtain ⟨-, v, hv, hres⟩ := mem_withResult.mp hc
      exact absurd (hver c v hv) (by simp [hres])
    · refine List.eq_nil_iff_forall_not_mem.mpr fun c hc ↦ ?_
      obtain ⟨-, v, hv, hres⟩ := mem_withResult.mp hc
      exact absurd (hver c v hv) (by simp [hres])
    · refine List.eq_nil_iff_forall_not_mem.mpr fun c hc ↦ ?_
      obtain ⟨-, -, v, hv, hdec, -⟩ := mem_uncheckedOf.mp hc
      rw [ClaimVerdict.isDecisive, hver c v hv] at hdec
      exact absurd hdec (by decide)

/-! ## What the checks of a call return

The checks that a call makes are those of the findings in its block, each against the base. -/

variable {W : Type} (src : Sources W) (base : EvidenceBase)

/-- The contract of the `repo_review` route: findings need sources, and their claims are checked. -/
def repoReview : RouteEvaluator where
  evidenceHeading := str "## Observed sources"
  findingHeadings := [str "## Findings", str "## Verified findings"]
  requiresSources := true
  requiresClaimCheck := true

theorem routeEvaluator_repoReview : routeEvaluator (some .repoReview) = some repoReview := rfl

/-- Each entry is checked once, and its claim where its citations hold. -/
theorem checkEntries_spec (entries : List Entry) (w : W) :
    (checkEntries src base repoReview entries).wp
      (fun checks _ ↦ checks.map (·.entry) = entries ∧ OwnWhereSound checks)
      (fun _ _ ↦ True) w := by
  rw [checkEntries, Eff.wp_bind]
  refine (Eff.wp_mapM (E := fun _ _ ↦ True) (I := fun _ ↦ True)
    (R := fun entry p ↦ p.1 = entry) trivial fun entry _ s _ ↦ ?_).mono (fun ps t hps ↦
      ?_) fun _ _ _ ↦ trivial
  · rw [Eff.wp_bind]
    refine (Eff.wp_true _ s).mono (fun _ _ _ ↦ ?_) fun _ _ _ ↦ trivial
    exact ⟨rfl, trivial⟩
  refine (Eff.wp_mapM (E := fun _ _ ↦ True) (I := fun _ ↦ True)
    (R := fun p (c : CheckedFinding) ↦ c.entry = p.1 ∧ c.own.isSome = c.isSound) trivial
    fun p _ s _ ↦ ?_).mono (fun cs t hcs ↦ ?_) fun _ _ _ ↦ trivial
  · simp only [repoReview, Bool.true_and]
    split
    · rename_i hsound
      rw [Eff.wp_bind]
      refine (Eff.wp_true _ s).mono (fun _ _ _ ↦ ?_) fun _ _ _ ↦ trivial
      exact ⟨⟨rfl, hsound.symm⟩, trivial⟩
    · rename_i hsound
      exact ⟨⟨rfl, (Bool.not_eq_true _ ▸ hsound).symm⟩, trivial⟩
  · constructor
    · rw [Eff.map_eq_of_forall₂ (hcs.1.imp fun _ _ h ↦ h.1)]
      exact (Eff.map_eq_of_forall₂ hps.1).trans (List.map_id' _)
    · exact Eff.forall_mem_of_forall₂ (hcs.1.imp fun _ _ h ↦ h.2)

end AtlasCore
