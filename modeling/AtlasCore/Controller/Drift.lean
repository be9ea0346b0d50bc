import AtlasCore.Controller.Sound
import AtlasCore.Evidence.Freshness
import AtlasCore.Lib.Grown

/-!
# The drift gate and the readers

A run has a reader for each source type: local files always, another type if the host gave one.  The
drift gate knows local files only.  It reports every other source as one that cannot be verified,
whatever its reader would say, and it lets an error through that the checks of citations catch.
-/

set_option autoImplicit false

namespace AtlasCore

open Py RunM

variable {W : Type}

/-- What the readers of a run answer while the gate looks: `I` holds of every world it meets, in it
each reader answers the same, and HEAD has moved or not. -/
structure Still (src : Sources W) (checkout : Checkout W) (base : EvidenceBase) (I : W → Prop)
    (reread : Observation → Except Exc Str) (moved : Bool) : Prop where
  reads : ∀ o ∈ base.observations, ∀ read, readerFor src base o = some read →
    ∀ w, I w → (read w).1 = reread o ∧ I (read w).2
  head : ∀ w, I w → (base.snapshot.hasMoved checkout w).1 = .ok moved ∧
    I (base.snapshot.hasMoved checkout w).2

section
variable (src : Sources W) (base : EvidenceBase) (reread : Observation → Except Exc Str)

/-- The run has a reader for the source, and what it returns has the digest and the lines. -/
def StillHolds (o : Observation) : Prop :=
  (readerFor src base o).isSome = true ∧ ∃ text, reread o = .ok text ∧
    sha256Text text = some o.contentSha256 ∧ linesOf text o.lineStart o.lineEnd = o.excerpt

/-- An outcome of a read that `verify_observation` does not turn into a result. -/
def escapes : Except Exc Str → Bool
  | .ok text => (sha256Text text).isNone
  | .error .pathRefused | .error .notAFile => false
  | .error _ => true

/-- The gate reads the source, and the read ends it. -/
def Breaks (o : Observation) : Prop :=
  o.sourceType = .localFile ∧ o.isVerifiable = true ∧ escapes (reread o) = true

end

/-- The gate agrees with the readers: it finds nothing where everything holds, so an answer that
passes ends the run as passed, and it reports every source that does not hold. -/
structure GateAgrees (env : Setting W) (base : EvidenceBase) (reread : Observation → Except Exc Str)
    (moved : Bool) (r : Run W) : Prop where
  quiet : moved = false → (∀ o ∈ base.observations, StillHolds env.sources base reread o) →
    (driftReport env r).1 = .ok none
  passes : moved = false → (∀ o ∈ base.observations, StillHolds env.sources base reread o) →
    ∀ (recorded : List Material) (plan : AtlasPlan) (c : Call) (evidence : Evidence),
      r.inside.state.status = .evaluating → (c.assess env.rt evidence).passed = true →
        (judge env recorded plan (c.assess env.rt evidence)).wp
          (fun flow r' ↦ flow = .leave ∧ r'.inside.state.stopReason = some .passed)
          (fun _ _ ↦ False) r
  reports : ∀ o ∈ base.observations, ¬ StillHolds env.sources base reread o →
    ∃ report, (driftReport env r).1 = .ok (some report) ∧
      o.sourceId ∈ report.notEvidence.map (·.1)

/-! ## One source

What verifying one source answers, against what holds of it.  A report on a base is these answers,
one after the other. -/

section

variable {src : Sources W} {checkout : Checkout W} {base : EvidenceBase} {I : W → Prop}
  {reread : Observation → Except Exc Str} {moved : Bool} {o : Observation} {w : W}

/-- What is said of a source: it is fresh exactly when it is a local file that still holds. -/
def Told (src : Sources W) (base : EvidenceBase) (reread : Observation → Except Exc Str)
    (o : Observation) (v : Verification) : Prop :=
  v.isEvidence = true ↔ o.sourceType = .localFile ∧ StillHolds src base reread o

theorem told_of_not (hnot : ¬ StillHolds src base reread o) {v : Verification}
    (hv : v.isEvidence = false) : Told src base reread o v := by
  refine ⟨fun h ↦ ?_, fun h ↦ absurd h.2 hnot⟩
  rw [hv] at h
  cases h

theorem escapes_error {e : Exc} (hrefused : e ≠ .pathRefused) (hmissing : e ≠ .notAFile) :
    escapes (.error e) = true := by
  unfold escapes
  split
  · next h => cases h
  · next h => exact absurd (Except.error.inj h) hrefused
  · next h => exact absurd (Except.error.inj h) hmissing
  · rfl

theorem sha256Text_ne_unknown {text : Str} : sha256Text text ≠ some UNKNOWN := by
  intro h
  obtain ⟨bytes, _, hbytes⟩ := Option.map_eq_some_iff.mp h
  exact sha256_ne_unknown bytes hbytes

theorem StillHolds.isVerifiable (h : StillHolds src base reread o) : o.isVerifiable = true := by
  obtain ⟨-, text, -, hdigest, -⟩ := h
  rw [ObservationFields.isVerifiable, bne_iff_ne]
  intro hunknown
  exact sha256Text_ne_unknown (hunknown ▸ hdigest)

/-- A source is verified or the gate breaks on it. -/
theorem wp_verify (hstill : Still src checkout base I reread moved) (ho : o ∈ base.observations)
    (hw : I w) :
    (verifyObservation src o base.snapshot.root).wp
      (fun v w' ↦ ¬ Breaks reread o ∧ Told src base reread o v ∧ I w')
      (fun _ _ ↦ Breaks reread o) w := by
  rw [verifyObservation]
  cases hv : o.isVerifiable with
  | false =>
    have hnot : ¬ StillHolds src base reread o := fun h ↦ by
      rw [h.isVerifiable] at hv
      cases hv
    refine ⟨fun h ↦ ?_, ⟨fun h ↦ (by cases h), fun h ↦ absurd h.2 hnot⟩, hw⟩
    rw [h.2.1] at hv
    cases hv
  | true =>
    by_cases hlocal : o.sourceType = .localFile
    · obtain ⟨hread, hworld⟩ := hstill.reads o ho _ (readerFor_local src base hlocal) w hw
      have hreader : (readerFor src base o).isSome = true := by
        rw [readerFor_local src base hlocal]
        rfl
      have hrun := run_eq_of_fst hread
      simp only [Bool.not_true, Bool.false_eq_true, if_false, ne_eq, hlocal, not_true_eq_false,
        rereadWithin, Eff.wp_bind, Eff.wp_handle]
      rw [Eff.wp, hrun]
      cases hreread : reread o with
      | error e =>
        have hnot : ¬ StillHolds src base reread o := by
          rintro ⟨-, text, htext, -⟩
          rw [hreread] at htext
          cases htext
        dsimp only
        split
        · refine Eff.wp_pure.mpr ⟨fun h ↦ ?_, told_of_not hnot (by decide), hworld⟩
          rw [Breaks, hreread] at h
          cases h.2.2
        · refine Eff.wp_pure.mpr ⟨fun h ↦ ?_, told_of_not hnot (by decide), hworld⟩
          rw [Breaks, hreread] at h
          cases h.2.2
        · next hrefused hmissing =>
          refine ⟨hlocal, hv, ?_⟩
          rw [hreread]
          exact escapes_error hrefused hmissing
      | ok text =>
        dsimp only
        rw [Eff.wp_pure]
        dsimp only
        rw [Eff.wp_bind, sha256OrRaise]
        cases hdigest : sha256Text text with
        | none =>
          refine ⟨hlocal, hv, ?_⟩
          rw [hreread, escapes, hdigest]
          rfl
        | some digest =>
          have hcalm : ¬ Breaks reread o := fun h ↦ by
            have hescapes := h.2.2
            rw [hreread, escapes, hdigest] at hescapes
            cases hescapes
          have hnot : digest = o.contentSha256 ∧ linesOf text o.lineStart o.lineEnd = o.excerpt ↔
              StillHolds src base reread o := by
            refine ⟨fun h ↦ ⟨hreader, text, hreread, by rw [hdigest, h.1], h.2⟩, ?_⟩
            rintro ⟨-, other, hother, hsame, hlines⟩
            obtain rfl := Except.ok.inj (hreread.symm.trans hother)
            exact ⟨Option.some.inj (hdigest.symm.trans hsame), hlines⟩
          rw [Eff.wp_pure]
          by_cases hsame : digest = o.contentSha256
          · by_cases hlines : linesOf text o.lineStart o.lineEnd = o.excerpt
            · rw [if_neg (not_not.mpr hsame), if_neg (not_not.mpr hlines), Eff.wp_pure]
              exact ⟨hcalm, ⟨fun _ ↦ ⟨hlocal, hnot.mp ⟨hsame, hlines⟩⟩, fun _ ↦ rfl⟩, hworld⟩
            · rw [if_neg (not_not.mpr hsame), if_pos hlines, Eff.wp_pure]
              exact ⟨hcalm, told_of_not (fun h ↦ hlines (hnot.mpr h).2) rfl, hworld⟩
          · rw [if_pos hsame, Eff.wp_pure]
            exact ⟨hcalm, told_of_not (fun h ↦ hsame (hnot.mpr h).1) rfl, hworld⟩
    · simp only [Bool.not_true, Bool.false_eq_true, if_false, ne_eq, hlocal, not_false_eq_true,
        if_true]
      exact Eff.wp_pure.mpr ⟨fun h ↦ hlocal h.1,
        ⟨fun h ↦ absurd h (by decide), fun h ↦ absurd h.1 hlocal⟩, hw⟩

/-- Every source is verified or the gate breaks on one. -/
theorem wp_verifyAll (hstill : Still src checkout base I reread moved) :
    ∀ {os : List Observation} {w : W}, (∀ o ∈ os, o ∈ base.observations) → I w →
      (verifyAll src os base.snapshot.root).wp
        (fun vs w' ↦ (∀ o ∈ os, ¬ Breaks reread o) ∧
          List.Forall₂ (fun o p ↦ p.1 = o.sourceId ∧ Told src base reread o p.2) os vs ∧ I w')
        (fun _ _ ↦ ∃ o ∈ os, Breaks reread o) w
  | [], w, _, hw => ⟨fun _ h ↦ absurd h List.not_mem_nil, .nil, hw⟩
  | o :: os, w, hos, hw => by
    rw [verifyAll, List.mapM_cons, Eff.wp_bind, Eff.wp_bind]
    refine (wp_verify hstill (hos o List.mem_cons_self) hw).mono (fun v w' hv ↦ ?_)
      fun _ _ h ↦ ⟨o, List.mem_cons_self, h⟩
    obtain ⟨hcalm, htold, hw'⟩ := hv
    rw [Eff.wp_pure, Eff.wp_bind]
    refine (wp_verifyAll hstill (fun p hp ↦ hos p (List.mem_cons_of_mem _ hp)) hw').mono
      (fun vs w'' hvs ↦ ?_) fun _ _ h ↦ ?_
    · exact Eff.wp_pure.mpr ⟨List.forall_mem_cons.mpr ⟨hcalm, hvs.1⟩,
        .cons ⟨rfl, htold⟩ hvs.2.1, hvs.2.2⟩
    · obtain ⟨p, hp, hbreaks⟩ := h
      exact ⟨p, List.mem_cons_of_mem _ hp, hbreaks⟩

/-- What the report names: every source that is not a local file that still holds. -/
theorem wp_detectDrift (hstill : Still src checkout base I reread moved) (hw : I w) :
    (detectDrift src checkout base.snapshot base.observations).wp
      (fun report w' ↦ (∀ o ∈ base.observations, ¬ Breaks reread o) ∧ report.headMoved = moved ∧
        (∀ id, id ∈ report.notEvidence.map (·.1) ↔ ∃ o ∈ base.observations,
          o.sourceId = id ∧ ¬ (o.sourceType = .localFile ∧ StillHolds src base reread o)) ∧ I w')
      (fun _ _ ↦ ∃ o ∈ base.observations, Breaks reread o) w := by
  rw [detectDrift, Eff.wp_bind]
  refine (wp_verifyAll hstill (fun _ h ↦ h) hw).mono (fun vs w' hvs ↦ ?_) fun _ _ h ↦ h
  obtain ⟨hcalm, htold, hw'⟩ := hvs
  obtain ⟨hhead, hw''⟩ := hstill.head w' hw'
  rw [Eff.wp_bind, Eff.wp, run_eq_of_fst hhead]
  refine Eff.wp_pure.mpr ⟨hcalm, rfl, fun id ↦ ?_, hw''⟩
  simp only [List.mem_map, List.mem_filter, Bool.not_eq_true']
  constructor
  · rintro ⟨p, ⟨hp, hfalse⟩, rfl⟩
    obtain ⟨o, ho, hid, hverdict⟩ := exists_of_forall₂_right htold p hp
    refine ⟨o, ho, hid.symm, fun h ↦ ?_⟩
    rw [hverdict.mpr h] at hfalse
    cases hfalse
  · rintro ⟨o, ho, rfl, hnot⟩
    obtain ⟨p, hp, hid, hverdict⟩ := exists_of_forall₂_left htold o ho
    exact ⟨p, ⟨hp, Bool.eq_false_iff.mpr fun h ↦ hnot (hverdict.mp h)⟩, hid⟩

/-- A report is consistent if HEAD is where it was and it names nothing. -/
theorem isConsistent_iff {report : DriftReport} :
    report.isConsistent = true ↔ report.headMoved = false ∧ report.notEvidence.map (·.1) = [] := by
  rw [DriftReport.isConsistent, Bool.and_eq_true, Bool.not_eq_true', List.isEmpty_iff,
    List.map_eq_nil_iff]

variable {env : Setting W} {r : Run W}

/-- The sources the gate stands behind: local files, each of which still reads as it was observed.
-/
abbrev Stands (env : Setting W) (base : EvidenceBase) (reread : Observation → Except Exc Str)
    (o : Observation) : Prop := o.sourceType = .localFile ∧ StillHolds env.sources base reread o

/-- What the gate finds. -/
theorem wp_driftReport (hstill : Still env.sources env.checkout base I reread moved)
    (hbase : r.inside.state.evidenceBase = some base) (hw : I r.world) :
    (driftReport env).wp
      (fun found r' ↦ r'.inside.state = r.inside.state ∧
        (∀ o ∈ base.observations, ¬ Breaks reread o) ∧
        (found = none ↔ base.observations = [] ∨
          moved = false ∧ ∀ o ∈ base.observations, Stands env base reread o) ∧
        ∀ report, found = some report → ∀ o ∈ base.observations, ¬ Stands env base reread o →
          o.sourceId ∈ report.notEvidence.map (·.1))
      (fun _ _ ↦ ∃ o ∈ base.observations, Breaks reread o) r := by
  have hstate : ∀ {Q : AtlasRunState → Run W → Prop} {E : Exc → Run W → Prop},
      (state : RunM W AtlasRunState).wp Q E r ↔ Q r.inside.state r := Iff.rfl
  rw [driftReport, Eff.wp_bind, hstate]
  simp only [hbase]
  by_cases hempty : base.isEmpty = true
  · have hnil : base.observations = [] := List.isEmpty_iff.mp hempty
    rw [if_pos hempty]
    refine ⟨rfl, ?_, ⟨fun _ ↦ .inl hnil, fun _ ↦ rfl⟩, fun report h ↦ by cases h⟩
    rw [hnil]
    exact fun _ h ↦ absurd h List.not_mem_nil
  · rw [if_neg hempty, Eff.wp_bind, outside, Eff.wp_zoom]
    refine (wp_detectDrift hstill hw).mono (fun report w' hreport ↦ ?_) fun _ _ h ↦ h
    obtain ⟨hcalm, hmoved, hnamed, -⟩ := hreport
    have hnames : report.notEvidence.map (·.1) = [] ↔
        ∀ o ∈ base.observations, Stands env base reread o := by
      rw [List.eq_nil_iff_forall_not_mem]
      constructor
      · intro h o ho
        by_contra hnot
        exact h o.sourceId ((hnamed _).mpr ⟨o, ho, rfl, hnot⟩)
      · intro h id hid
        obtain ⟨o, ho, -, hnot⟩ := (hnamed id).mp hid
        exact hnot (h o ho)
    have hconsistent : report.isConsistent = true ↔
        moved = false ∧ ∀ o ∈ base.observations, Stands env base reread o := by
      rw [isConsistent_iff, hmoved, hnames]
    refine ⟨rfl, hcalm, ?_, fun found hfound o ho hnot ↦ ?_⟩
    · have hne : base.observations ≠ [] := fun h ↦ hempty (List.isEmpty_iff.mpr h)
      rw [← hconsistent, or_iff_right hne]
      by_cases hc : report.isConsistent = true
      · simp [hc]
      · simp [hc]
    · have hsame : found = report := by
        split_ifs at hfound
        exact (Option.some.inj hfound).symm
      rw [hsame]
      exact (hnamed _).mpr ⟨o, ho, rfl, hnot⟩

/-- A stop for an answer that passed, of a run that is evaluating. -/
theorem wp_stop_passed (hstatus : r.inside.state.status = .evaluating) :
    (stop (W := W) .passed).wp (fun _ r' ↦ r'.inside.state.stopReason = some .passed)
      (fun _ _ ↦ False) r := by
  have hlegal : r.inside.state.status.isLegal StopReason.passed.status = true := by
    rw [hstatus]
    rfl
  rw [stop, if_neg (by decide), Eff.wp_bind, enter, Eff.wp_bind]
  show Eff.wp (if r.inside.state.status.isLegal StopReason.passed.status = true then _ else _) _ _ r
  rw [if_pos hlegal]
  rfl

/-- An answer that passes and finds no drift ends the run. -/
theorem wp_settle_passed {e : AtlasEvaluation} (hpassed : e.passed = true)
    (happroval : e.requiresUserApproval = false) (hretry : e.retryIsPossible = false)
    (hstatus : r.inside.state.status = .evaluating) :
    (settle env e).wp
      (fun flow r' ↦ flow = .leave ∧ r'.inside.state.stopReason = some .passed)
      (fun _ _ ↦ False) r := by
  have hoff : ¬ (isInvestigation e && !e.passed && !e.requiresUserApproval) = true := by
    simp [hpassed]
  have houtput : ¬ repeatedOutput env r.inside.state r.budget.isSome e = true := by
    simp [repeatedOutput, hretry]
  have hfailure : ¬ repeatedFailure r.inside.state e = true := by
    simp [repeatedFailure, hretry]
  have hends : (e.requiresUserApproval || e.passed || !e.shouldRetry) = true := by
    simp [hpassed]
  have hreason : ∀ blocked gaps retry left,
      classifyStop e.passed e.requiresUserApproval blocked gaps retry left = .passed :=
    fun _ _ _ _ ↦ classifyStop_eq_passed.mpr ⟨happroval, hpassed⟩
  rw [settle, Eff.wp_bind, Eff.wp_read]
  dsimp only
  rw [if_neg hoff, if_neg houtput, if_neg hfailure, if_pos hends, hreason, Eff.wp_bind]
  exact (wp_stop_passed hstatus).mono (fun _ _ h ↦ Eff.wp_pure.mpr ⟨rfl, h⟩) fun _ _ h ↦ h

/-- The gate knows what the readers know: no read breaks it, and where HEAD has not moved and every
source still holds, every source is a local file. -/
def LocalOnly (src : Sources W) (base : EvidenceBase) (reread : Observation → Except Exc Str)
    (moved : Bool) : Prop :=
  (∀ o ∈ base.observations, ¬ Breaks reread o) ∧
    (moved = false → (∀ o ∈ base.observations, StillHolds src base reread o) →
      ∀ o ∈ base.observations, o.sourceType = .localFile)

theorem LocalOnly.agrees (h : LocalOnly env.sources base reread moved)
    (hstill : Still env.sources env.checkout base I reread moved)
    (hbase : r.inside.state.evidenceBase = some base) (hw : I r.world) :
    GateAgrees env base reread moved r := by
  have hgate := wp_driftReport hstill hbase hw
  have hnone : moved = false → (∀ o ∈ base.observations, StillHolds env.sources base reread o) →
      (driftReport env).wp (fun found r' ↦ found = none ∧ r'.inside.state = r.inside.state)
        (fun _ _ ↦ False) r := fun hmoved hholds ↦
    hgate.mono
      (fun found r' hfound ↦ ⟨hfound.2.2.1.mpr
        (.inr ⟨hmoved, fun o ho ↦ ⟨h.2 hmoved hholds o ho, hholds o ho⟩⟩), hfound.1⟩)
      fun _ _ ⟨o, ho, hbreaks⟩ ↦ h.1 o ho hbreaks
  refine ⟨fun hmoved hholds ↦ ?_, fun hmoved hholds recorded plan c evidence hstatus hpassed ↦ ?_,
    fun o ho hnot ↦ ?_⟩
  · obtain ⟨_, _, hfound, rfl, -⟩ := (hnone hmoved hholds).exists_ok
    rw [hfound]
  · have hfair : Fair c.maxIterations c.iteration (c.assess env.rt evidence) := fair_assess
    rw [judge, Eff.wp_bind]
    refine (hnone hmoved hholds).mono (fun found r' hfound ↦ ?_) fun _ _ h ↦ h
    obtain ⟨rfl, hstate⟩ := hfound
    have hreads : ¬ wantsReading env r'.inside.state (c.assess env.rt evidence) none = true := by
      simp [wantsReading, hpassed]
    rw [Eff.wp_bind]
    show Eff.wp (if wantsReading env r'.inside.state (c.assess env.rt evidence) none = true
      then _ else _) _ _ r'
    rw [if_neg hreads, settleDrift]
    exact wp_settle_passed hpassed (hfair.approval hpassed) (hfair.retry hpassed)
      (by rw [hstate, hstatus])
  · have hne : ¬ Stands env base reread o := fun h ↦ hnot h.2
    have hsome : (driftReport env).wp (fun found _ ↦ ∃ report, found = some report ∧
        o.sourceId ∈ report.notEvidence.map (·.1)) (fun _ _ ↦ False) r := by
      refine hgate.mono ?_ fun _ _ ⟨p, hp, hbreaks⟩ ↦ h.1 p hp hbreaks
      rintro found r' ⟨-, -, hnone, hnamed⟩
      cases found with
      | some report => exact ⟨report, rfl, hnamed report rfl o ho hne⟩
      | none =>
        rcases hnone.mp rfl with hnil | ⟨-, hall⟩
        · rw [hnil] at ho
          exact absurd ho List.not_mem_nil
        · exact absurd (hall o ho) hne
    obtain ⟨_, _, hfound, report, rfl, hnamed⟩ := hsome.exists_ok
    rw [hfound]
    exact ⟨report, rfl, hnamed⟩

theorem GateAgrees.localOnly (h : GateAgrees env base reread moved r)
    (hstill : Still env.sources env.checkout base I reread moved)
    (hbase : r.inside.state.evidenceBase = some base) (hw : I r.world) :
    LocalOnly env.sources base reread moved := by
  have hgate := (wp_driftReport hstill hbase hw).outcome.1
  refine ⟨fun o ho hbreaks ↦ ?_, fun hmoved hholds o ho ↦ ?_⟩
  · have hnot : ¬ StillHolds env.sources base reread o := by
      rintro ⟨-, text, htext, hdigest, -⟩
      have hescapes := hbreaks.2.2
      rw [htext, escapes, hdigest] at hescapes
      cases hescapes
    obtain ⟨report, hreport, -⟩ := h.reports o ho hnot
    exact (hgate _ hreport).2.1 o ho hbreaks
  · rcases (hgate _ (h.quiet hmoved hholds)).2.2.1.mp rfl with hnil | ⟨-, hall⟩
    · rw [hnil] at ho
      exact absurd ho List.not_mem_nil
    · exact (hall o ho).1

/-- **Where the drift gate agrees with the readers.**  It does exactly when no read of a local file
fails in a way that `verify_observation` lets through, and whenever HEAD has not moved and every
source still holds there is no source of another type. -/
theorem gateAgrees_iff (env : Setting W) (base : EvidenceBase) (I : W → Prop)
    (reread : Observation → Except Exc Str) (moved : Bool) (r : Run W)
    (hstill : Still env.sources env.checkout base I reread moved)
    (hbase : r.inside.state.evidenceBase = some base) (hw : I r.world) :
    GateAgrees env base reread moved r ↔ LocalOnly env.sources base reread moved :=
  ⟨fun h ↦ h.localOnly hstill hbase hw, fun h ↦ h.agrees hstill hbase hw⟩

end

/-! ## A conclusion of CI

A source that is not a file is verified by nobody.  On this machine everything reads as it did,
and a report still names it. -/

/-- A machine without git, on which every file and every CI run reads as `{}`. -/
def plainSetting : Setting Unit where
  rt := asciiRuntime
  mask := noMasking
  isDecimal := fun _ ↦ false
  typeName := fun _ ↦ []
  clock := return 0
  sources := ⟨fun _ _ ↦ return str "{}", fun _ ↦ return str "{}"⟩
  checkout := ⟨fun root ↦ return root, fun _ _ ↦ return UNKNOWN⟩
  callDigest := return none
  executePlanParts := fun _ _ _ _ _ ↦ return ([], [])
  saveLocalMemory := fun _ _ ↦ return none
  maxIterations := 1
  positive := Nat.zero_lt_one
  memoryDir := none
  modelAdapter := none
  memoryAdapter := none
  tools := false
  events := none
  task := []
  runId := str "r"
  initial := []
  evidence := none
  limits := none
  cancelled := none
  readers := []
  observer := none
  readFirst := false
  resumeRecords := none

/-- The snapshot of that machine, of a checkout without a commit. -/
def plainSnapshot : Snapshot where
  snapshotId := (deriveSnapshotId (str "/repo") UNKNOWN .unknown).getD []
  root := str "/repo"

/-- A source that reads as `{}`, of any type and under any path. -/
def plainSource (sourceType : SourceType) (path : Str) : ObservationFields where
  sourceId := (deriveSourceId plainSnapshot.snapshotId sourceType path).getD []
  sourceType := sourceType
  path := path
  collectedAt := str "2024-01-01T00:00:00+00:00"
  contentSha256 := (sha256Text (str "{}")).getD []
  excerpt := str "{}"
  lineStart := 1
  lineEnd := 1
  snapshotId := plainSnapshot.snapshotId

/-- A base with one source, and readers for CI. -/
def plainBase (o : Observation) (h : o.snapshotId = plainSnapshot.snapshotId) : EvidenceBase where
  snapshot := plainSnapshot
  observations := [o]
  readers := [str "ci"]
  sameSnapshot := by simpa using h
  distinct := nodup_singleId o

/-- A run that has read the source and nothing else. -/
def plainRun (base : EvidenceBase) : Run Unit where
  inside :=
    { state := { task := [], runId := str "r", maxIterations := 1, evidenceBase := some base } }
  budget := none
  world := ()

/-- The conclusion of a CI run, which no file of the checkout stands behind. -/
def ciBase : EvidenceBase :=
  plainBase ⟨plainSource .ci (str "ci://github/ci.yml@main"), by decide +kernel⟩ rfl

/-- A file of the checkout with the same content. -/
def fileBase : EvidenceBase :=
  plainBase ⟨plainSource .localFile (str "a.json"), by decide +kernel⟩ rfl

theorem still_plain {o : Observation} {h : o.snapshotId = plainSnapshot.snapshotId} :
    Still plainSetting.sources plainSetting.checkout (plainBase o h) (fun _ ↦ True)
      (fun _ ↦ .ok (str "{}")) false where
  reads := by
    intro p _ read hread w _
    refine ⟨?_, trivial⟩
    rw [readerFor] at hread
    split_ifs at hread <;> rw [← Option.some.inj hread] <;> rfl
  head := fun _ _ ↦
    ⟨show (plainSnapshot.hasMoved plainSetting.checkout ()).1 = .ok false by decide +kernel,
      trivial⟩

/-- A CI run that is unchanged is drift to the gate. -/
theorem unchangedCi_reported :
    (∀ o ∈ ciBase.observations,
      StillHolds plainSetting.sources ciBase (fun _ ↦ .ok (str "{}")) o) ∧
    ¬ GateAgrees plainSetting ciBase (fun _ ↦ .ok (str "{}")) false (plainRun ciBase) := by
  have hholds : ∀ o ∈ ciBase.observations,
      StillHolds plainSetting.sources ciBase (fun _ ↦ .ok (str "{}")) o := by
    intro o ho
    rw [List.mem_singleton.mp ho]
    exact ⟨by decide +kernel, str "{}", rfl, by decide +kernel, by decide +kernel⟩
  refine ⟨hholds, fun h ↦ ?_⟩
  exact absurd ((h.localOnly still_plain rfl trivial).2 rfl hholds _ (List.mem_singleton_self _))
    (by decide)

/-- A file that is unchanged is not. -/
theorem gateAgrees_iff_file :
    GateAgrees plainSetting fileBase (fun _ ↦ .ok (str "{}")) false (plainRun fileBase) ↔
      LocalOnly plainSetting.sources fileBase (fun _ ↦ .ok (str "{}")) false :=
  gateAgrees_iff plainSetting fileBase (fun _ ↦ True) _ false (plainRun fileBase) still_plain rfl
    trivial

end AtlasCore
