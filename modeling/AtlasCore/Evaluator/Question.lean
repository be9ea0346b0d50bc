import AtlasCore.Evaluator.Gate
import AtlasCore.Evidence.Decisive

/-!
# What a passing answer says about the question

A review that narrowed to a topic passes when its sources were read, and one finding was settled in
its favour on a source that the plan named.  The records of the findings are what is looked at, and
a record has the verdict of the last finding with its id; the finding that decides is that one, with
the typed claim that was searched for (`passed_restsOnFinding`).

Whether the plan was read is asked of reviews alone, and while something is unread the question is
not asked at all; so a call of another route can pass with both left open (`unread_passes`).
-/

set_option autoImplicit false

namespace AtlasCore

open Py

variable {W : Type}

/-! ## What a settled claim was checked on

A claim is settled on the source it names, which is one that the finding cites. -/

/-- A claim that was settled was searched for in the source that it names. -/
def NamesItsSource (observations : List Observation) (typed : Option TypedClaim)
    (v : ClaimVerdict) : Prop :=
  v.isDecisive = true → ∃ claim checked o, typed = some claim ∧ v.checked = some checked ∧
    checked.sourceId = some claim.sourceId ∧ checked.text = some claim.text ∧
    byId observations claim.sourceId = some o

section
variable {reader : Observation → Option (Eff Exc W Str)} {observations : List Observation}
  {finding : Finding} {claim : TypedClaim}

theorem NamesItsSource.of_open {typed : Option TypedClaim} {v : ClaimVerdict}
    (h : v.isDecisive = false) : NamesItsSource observations typed v := fun h' ↦ by
  rw [h] at h'
  cases h'

theorem namesItsSource_settleLiteral {o : Observation} {observed : Str}
    (hfound : byId observations claim.sourceId = some o) :
    NamesItsSource observations (some claim) (settleLiteral finding claim o observed) := by
  rw [settleLiteral]
  dsimp only
  split_ifs
  · exact .of_open rfl
  all_goals exact fun _ ↦ ⟨claim, _, o, rfl, rfl, rfl, rfl, hfound⟩

theorem namesItsSource_settleCommands {other : Str} {left right : Observation}
    (hfound : byId observations claim.sourceId = some left) :
    NamesItsSource observations (some claim) (settleCommands finding claim other left right) := by
  rw [settleCommands]
  split
  · dsimp only
    split_ifs
    · exact .of_open rfl
    all_goals exact fun _ ↦ ⟨claim, _, left, rfl, rfl, rfl, rfl, hfound⟩
  · exact .of_open rfl

theorem wp_checkClaimOf_names (typed : Option TypedClaim) (condition : Option ClaimCondition)
    (w : W) :
    (checkClaimOf reader observations finding typed condition).wp
      (fun v _ ↦ NamesItsSource observations typed v) (fun _ _ ↦ True) w := by
  cases typed with
  | none => exact (wp_checkCondition condition w).mono (fun v _ hv ↦ .of_open hv) fun _ _ h ↦ h
  | some claim =>
    rw [checkClaimOf, checkTypedClaim]
    split_ifs with hkind
    · refine (wp_checkCommandTargetsDiffer w).mono (fun v _ hv hdecisive ↦ ?_) fun _ _ h ↦ h
      obtain ⟨other, left, right, -, hleft, -, rfl⟩ := hv hdecisive
      exact namesItsSource_settleCommands hleft hdecisive
    · rw [Eff.wp_bind]
      refine (wp_observedTextOf claim.sourceId w).mono (fun r t hr ↦ ?_) fun _ _ h ↦ h
      cases r with
      | error v => exact .of_open (hr.1 v rfl)
      | ok p => exact namesItsSource_settleLiteral (hr.2 p.1 p.2 rfl).2.1

end

/-- The verdict of every finding of a block is about its own typed claim. -/
theorem checkEntries_names (src : Sources W) (base : EvidenceBase) (entries : List Entry) (w : W) :
    (checkEntries src base repoReview entries).wp
      (fun checks _ ↦ ∀ c ∈ checks, ∀ v, c.own = some v →
        NamesItsSource base.observations c.entry.typed v) (fun _ _ ↦ True) w := by
  rw [checkEntries, Eff.wp_bind]
  refine (Eff.wp_true _ w).mono (fun ps t _ ↦ ?_) fun _ _ h ↦ h
  refine (Eff.wp_mapM (E := fun _ _ ↦ True) (I := fun _ ↦ True)
    (R := fun _ (c : CheckedFinding) ↦ ∀ v, c.own = some v →
      NamesItsSource base.observations c.entry.typed v) trivial
    fun p _ s _ ↦ ?_).mono (fun cs t hcs ↦ ?_) fun _ _ h ↦ h
  · dsimp only
    split
    · rw [Eff.wp_bind]
      refine (wp_checkClaimOf_names p.1.typed p.1.condition s).mono (fun v _ hv ↦ ?_) fun _ _ h ↦ h
      refine ⟨fun v' hv' ↦ ?_, trivial⟩
      obtain rfl := Option.some.inj hv'
      exact hv
    · rw [Eff.wp_pure]
      exact ⟨fun v hv ↦ (by cases hv), trivial⟩
  · exact Eff.forall_mem_of_forall₂ hcs.1

/-! ## What the answer rests on

A finding that answers the question does so in the text that was checked, and on a source the review
asks about. -/

/-- The finding was verified, and the claim that was searched for is about a source the plan
named. -/
structure SettledOnTopic (base : EvidenceBase) (review : ReviewPlan) (f : CheckedFinding)
    (claim : TypedClaim) : Prop where
  verified : f.isVerified = true
  typed : f.entry.typed = some claim
  onTopic : ∃ o, byId base.observations claim.sourceId = some o ∧
    review.patterns.any (fnmatch o.path) = true

/-- The sources of the plan were read, and one finding was settled on one of them; where the plan
says what an answer names, one such finding `names` it. -/
structure RestsOnFinding (names : Str → Str → Prop) (src : Sources W) (rt : Runtime) (c : Call)
    (base : EvidenceBase) (review : ReviewPlan) (w : W) : Prop where
  read : ∀ p ∈ review.patterns,
    p ∈ c.resolvedPatterns ∨ ∃ o ∈ base.observations, fnmatch o.path p = true
  settled : ∃ parsed checks w', structuredFindings rt c.findingsSource = .ok parsed ∧
    checkEntries src base repoReview parsed.entries w = (.ok checks, w') ∧
    (∃ f ∈ checks, ∃ claim, SettledOnTopic base review f claim) ∧
    (review.answering ≠ [] → ∃ f ∈ checks, ∃ claim, SettledOnTopic base review f claim ∧
      ∃ literal ∈ review.answering, names literal claim.text)

section
variable {src : Sources W} {rt : Runtime} {c : Call} {base : EvidenceBase} {review : ReviewPlan}
  {w w' : W} {evidence : Evidence}

/-- A record that counts comes from a finding that was settled, the last of its id. -/
theorem exists_settled {checks : List CheckedFinding} {record : CitationRecord}
    (hs : OwnWhereSound checks)
    (hnames : ∀ c ∈ checks, ∀ v, c.own = some v → NamesItsSource base.observations c.entry.typed v)
    (hmem : ∃ c ∈ checks, record = citationRecord c.finding c.check (recordedVerdict checks c))
    (hrecord : recordOnTopic review base record = true) :
    ∃ f, IsLast checks f ∧
      ∃ claim, SettledOnTopic base review f claim ∧ checkedText record = claim.text := by
  obtain ⟨c, -, rfl⟩ := hmem
  rw [recordOnTopic, Bool.and_eq_true, decide_eq_true_eq] at hrecord
  obtain ⟨hverdict, hpath⟩ := hrecord
  cases hrecorded : recordedVerdict checks c with
  | none =>
    rw [hrecorded] at hverdict
    cases hverdict
  | some v =>
    rw [hrecorded] at hverdict hpath
    obtain ⟨f, hlast, -, hown⟩ := (claimVerdicts_eq_some checks).mp hrecorded
    have hresult : v.result = .verified := (applyVerdict_verified.mp hverdict).2
    have hsound : f.isSound = true := by rw [← hs f hlast.mem, hown]; rfl
    have hdecisive : v.isDecisive = true := by rw [ClaimVerdict.isDecisive, hresult]; rfl
    obtain ⟨claim, checked, o, htyped, hchecked, hsource, htext, hfound⟩ :=
      hnames f hlast.mem v hown hdecisive
    have hat : checkedPath base (citationRecord c.finding c.check (some v)) = some o.path := by
      simp only [checkedPath, citationRecord, hchecked, hsource, hfound, Option.bind_eq_bind,
        Option.bind_some]
      rfl
    rw [hat, Option.any_some, Bool.and_eq_true] at hpath
    refine ⟨f, hlast, claim, ⟨?_, htyped, o, hfound, hpath.2⟩, ?_⟩
    · rw [CheckedFinding.isVerified, hsound, hown]
      simpa using hresult
    · simp only [checkedText, citationRecord, hchecked, htext, Option.bind_some, Option.getD_some]

/-- The record of a finding that was settled counts, where it is the last of its id. -/
theorem record_of_settled {checks : List CheckedFinding}
    (hnames : ∀ c ∈ checks, ∀ v, c.own = some v → NamesItsSource base.observations c.entry.typed v)
    {f : CheckedFinding} {claim : TypedClaim} (hlast : IsLast checks f)
    (h : SettledOnTopic base review f claim) :
    recordOnTopic review base (citationRecord f.finding f.check (recordedVerdict checks f)) = true ∧
      checkedText (citationRecord f.finding f.check (recordedVerdict checks f)) = claim.text := by
  obtain ⟨hsound, hverified⟩ := Bool.and_eq_true_iff.mp h.verified
  obtain ⟨v, hown, hv⟩ := (Option.any_eq_true _ _).mp hverified
  have hresult : v.result = .verified := of_decide_eq_true hv
  have hdecisive : v.isDecisive = true := by rw [ClaimVerdict.isDecisive, hresult]; rfl
  obtain ⟨claim', checked, o, htyped, hchecked, hsource, htext, hfound⟩ :=
    hnames f hlast.mem v hown hdecisive
  obtain rfl := Option.some.inj (h.typed.symm.trans htyped)
  obtain ⟨o', hfound', hpath⟩ := h.onTopic
  obtain rfl := Option.some.inj (hfound.symm.trans hfound')
  have hat : checkedPath base (citationRecord f.finding f.check (some v)) = some o.path := by
    simp only [checkedPath, citationRecord, hchecked, hsource, hfound, Option.bind_eq_bind,
      Option.bind_some]
    rfl
  have hne : (o.path != []) = true := by
    rw [bne_iff_ne]
    intro hnil
    have hblank := o.isBlank_path
    rw [hnil] at hblank
    cases hblank
  rw [hlast.recordedVerdict, hown, recordOnTopic, hat, Option.any_some, hne, hpath, Bool.true_and,
    Bool.and_true, decide_eq_true_eq]
  refine ⟨applyVerdict_verified.mpr ⟨hsound, hresult⟩, ?_⟩
  simp only [checkedText, citationRecord, hchecked, htext, Option.bind_some, Option.getD_some]

/-- Nothing of the plan is waited on: every pattern was answered. -/
theorem read_of_waitingOn (hb : c.evidenceBase = some base) (hreview : c.review = some review)
    (h : c.waitingOn = []) : ∀ p ∈ review.patterns,
      p ∈ c.resolvedPatterns ∨ ∃ o ∈ base.observations, fnmatch o.path p = true := by
  intro p hp
  rw [Call.waitingOn, hreview, hb] at h
  have hpatterns := List.filter_eq_nil_iff.mp h
  have hanswered := hpatterns p hp
  rw [Bool.and_eq_true, decide_eq_true_eq, Bool.not_eq_true', not_and_or, not_not,
    Bool.not_eq_false, List.any_eq_true] at hanswered
  refine hanswered.imp_right ?_
  rintro ⟨path, hpath, hmatch⟩
  obtain ⟨o, ho, rfl⟩ := List.mem_map.mp hpath
  exact ⟨o, ho, hmatch⟩

/-- A review that passes waits for nothing. -/
theorem waitingOn_of_passed (hr : c.route = some .repoReview)
    (hp : (c.assess rt evidence).passed = true) : c.waitingOn = [] := by
  by_contra hwaiting
  have hdeclared : Criterion.planTargetsRead ∈ c.declared :=
    mem_declared_of_route (by rw [hr]; exact List.mem_cons_self)
  refine (passed_iff.mp hp).1 _ hdeclared ?_
  rw [Call.blamed, List.mem_append, List.mem_flatMap]
  refine .inr ⟨.planTargetsUnread, ?_, List.mem_singleton_self _⟩
  rw [Call.gapCodes, if_pos hwaiting]
  exact List.mem_append_left _ (List.mem_append_left _ (List.mem_singleton_self _))

/-- A call that passes and waits for nothing was asked the question, and answered it. -/
theorem onTopic_of_passed (hev : ∀ g ∈ evidence.gaps, g.isOfEvidence = true)
    (hn : c.narrowed = true) (hwaiting : c.waitingOn = [])
    (hp : (c.assess rt evidence).passed = true) :
    onTopicFinding c.review evidence c.evidenceBase = true ∧
      (.findingsAnswerTheQuestion ∈ c.declared →
        answeringFinding rt c.review evidence c.evidenceBase = true) := by
  have hdeclared := onTopic_declared.mpr hn
  have hblamed := (passed_iff.mp hp).1
  have hno : .noOnTopicFinding ∉ c.gapCodes rt evidence := fun hgap ↦
    hblamed _ hdeclared ((mem_blamed_of_question (.inl rfl)).mpr ⟨_, hgap, .inl rfl, by decide⟩)
  constructor
  · by_contra hfalse
    exact hno ((noOnTopic_mem hev).mpr ⟨hn, hwaiting, Bool.eq_false_iff.mpr hfalse⟩)
  · intro hanswers
    by_contra hfalse
    have hgap := (noAnswering_mem hev).mpr ⟨hno, hanswers, hwaiting, Bool.eq_false_iff.mpr hfalse⟩
    exact hblamed _ hanswers
      ((mem_blamed_of_question (.inr rfl)).mpr ⟨_, hgap, .inr rfl, by decide⟩)

/-- What a record that counts gives, in a call that was graded against a base. -/
theorem settled_of_record (review : ReviewPlan) (hb : c.evidenceBase = some base)
    (hev : c.evidence src rt w = (.ok evidence, w')) {record : CitationRecord}
    (hmem : record ∈ evidence.citationChecks) :
    ∃ parsed checks w'', structuredFindings rt c.findingsSource = .ok parsed ∧
      checkEntries src base repoReview parsed.entries w = (.ok checks, w'') ∧
      ∀ record ∈ evidence.citationChecks, recordOnTopic review base record = true →
        ∃ f ∈ checks, ∃ claim, SettledOnTopic base review f claim ∧
          checkedText record = claim.text := by
  by_cases hr : c.route = some .repoReview
  · rcases evidence_cases hr hb hev with ⟨-, rfl⟩ | ⟨-, _, -, -, rfl⟩ |
        ⟨-, parsed, checks, hparsed, -, hchecks, rfl⟩
    · exact absurd hmem List.not_mem_nil
    · exact absurd hmem List.not_mem_nil
    · refine ⟨parsed, checks, w', hparsed, hchecks, fun record hmem hrecord ↦ ?_⟩
      have hs := ((checkEntries_spec src base parsed.entries w).of_run hchecks).2
      have hnames := (checkEntries_names src base parsed.entries w).of_run hchecks
      obtain ⟨f, hlast, hsettled⟩ :=
        exists_settled hs hnames (mem_citationChecks_gradeChecks hmem) hrecord
      exact ⟨f, hlast.mem, hsettled⟩
  · rw [Call.evidence, routeEvaluator_eq_none hr, gradeEvidence] at hev
    obtain ⟨rfl, -⟩ := Eff.pure_eq_ok.mp hev
    exact absurd hmem List.not_mem_nil

/-- **Relevance and answer rest on one settled finding**, in a review that passes, and in any call
that passes and waits for nothing. -/
theorem passed_restsOnFinding {e : AtlasEvaluation} (hb : c.evidenceBase = some base)
    (hreview : c.review = some review) (hn : review.narrowed = true)
    (hasked : c.route = some .repoReview ∨ c.waitingOn = [])
    (h : evaluate src rt c w = (.ok e, w')) (hp : e.passed = true) :
    RestsOnFinding (fun literal text ↦ contains (rt.lower literal) (rt.lower text) = true)
      src rt c base review w := by
  obtain ⟨evidence, hev, rfl⟩ := evaluate_eq_ok.mp h
  have hwaiting : c.waitingOn = [] := hasked.elim (fun hr ↦ waitingOn_of_passed hr hp) id
  have hnarrowed : c.narrowed = true := by
    rw [Call.narrowed, hreview]
    exact hn
  obtain ⟨hon, hanswering⟩ := onTopic_of_passed (gaps_ofEvidence hb hev) hnarrowed hwaiting hp
  rw [hreview, hb] at hon hanswering
  rw [show onTopicFinding (some review) evidence (some base) =
      (!review.narrowed || evidence.citationChecks.any (recordOnTopic review base)) from rfl,
    hn, Bool.not_true, Bool.false_or, List.any_eq_true] at hon
  obtain ⟨record, hmem, hrecord⟩ := hon
  obtain ⟨parsed, checks, w'', hparsed, hchecks, hsettled⟩ :=
    settled_of_record review hb hev hmem
  refine ⟨read_of_waitingOn hb hreview hwaiting, parsed, checks, w'', hparsed, hchecks, ?_,
    fun hsome ↦ ?_⟩
  · obtain ⟨f, hf, claim, hclaim, -⟩ := hsettled record hmem hrecord
    exact ⟨f, hf, claim, hclaim⟩
  · have hnil : review.answering.isEmpty = false := List.isEmpty_eq_false_iff.mpr hsome
    have hdeclared : .findingsAnswerTheQuestion ∈ c.declared := by
      rw [Call.declared, hreview, criteriaFor, if_pos hn, hnil]
      exact List.mem_append_right _ (List.mem_singleton_self _)
    have hanswer := hanswering hdeclared
    rw [show answeringFinding rt (some review) evidence (some base) =
        (!review.narrowed || review.answering.isEmpty || evidence.citationChecks.any fun record ↦
          recordOnTopic review base record && answersQuestion rt review
            (checkedText record)) from rfl,
      hn, hnil, Bool.not_true, Bool.false_or, Bool.false_or, List.any_eq_true] at hanswer
    obtain ⟨record, hmem, hanswer⟩ := hanswer
    obtain ⟨hrecord, hliteral⟩ := Bool.and_eq_true_iff.mp hanswer
    rw [answersQuestion, hnil, Bool.false_or, List.any_eq_true] at hliteral
    obtain ⟨literal, hliteral, hcontains⟩ := hliteral
    obtain ⟨f, hf, claim, hclaim, htext⟩ := hsettled record hmem hrecord
    exact ⟨f, hf, claim, hclaim, literal, hliteral, htext ▸ hcontains⟩

end

/-! ## An answer in the other case, and a question that was not asked

The two calls on which the question's criteria are met by an answer to something else. -/

/-- A question about one file, and what an answer to it names. -/
def fileQuestion (path : Str) (answering : List Str) : ReviewPlan where
  snapshotId := str "s1"
  topic := str "secrets"
  question := str "Is there an x?"
  patterns := [path]
  answering := answering
  hasQuestion := by decide
  hasSnapshot := by decide
  bounded := Nat.le_of_ble_eq_true rfl

/-- A block with one finding, that the file contains `x`. -/
def containsBlock : Str :=
  str "```" ++ FINDINGS_FENCE ++ str "\n" ++
    Json.render (.arr [findingItem [(str "typed_claim", containsX)]]) ++ str "\n```\n"

/-- A review of the file, asked for an `X`. -/
def askedForX : Call :=
  { bareCall firstLine containsBlock with review := some (fileQuestion (str "a.txt") [str "X"]) }

/-- An answer that was not asked for by a review, with a question about a file that nobody read. -/
def unreadQuestion : Call :=
  { bareCall firstLine [] with
    output := bareSections ++ List.replicate 300 (ch 'x')
    route := none
    review := some (fileQuestion (str "b.txt") []) }

/-- The call passes: it returns, and what it returns has passed. -/
def Call.passes (c : Call) : Prop :=
  (match (evaluate twoLineDisk asciiRuntime c ()).1 with
    | .ok e => e.passed
    | .error _ => false) = true

theorem askedForX_passes : askedForX.passes := by
  rw [Call.passes]
  decide +kernel

theorem unreadQuestion_passes : unreadQuestion.passes := by
  rw [Call.passes]
  decide +kernel

theorem Call.passes.exists_run {c : Call} (h : c.passes) :
    ∃ e w', evaluate twoLineDisk asciiRuntime c () = (.ok e, w') ∧ e.passed = true := by
  rw [Call.passes] at h
  cases hrun : evaluate twoLineDisk asciiRuntime c () with
  | mk result w' =>
    rw [hrun] at h
    cases result with
    | error e => cases h
    | ok e => exact ⟨e, w', rfl, h⟩

theorem passed_restsOnFinding_x :
    RestsOnFinding (fun literal text ↦
        contains (asciiRuntime.lower literal) (asciiRuntime.lower text) = true)
      twoLineDisk asciiRuntime askedForX firstLine (fileQuestion (str "a.txt") [str "X"]) () := by
  obtain ⟨e, w', hrun, hpassed⟩ := askedForX_passes.exists_run
  exact passed_restsOnFinding rfl rfl (by decide) (.inl rfl) hrun hpassed

/-- Every claim of the block is for an `x`. -/
theorem containsBlock_typed :
    (match structuredFindings asciiRuntime containsBlock with
      | .ok parsed => parsed.entries.all fun entry ↦ entry.typed.all (·.text = str "x")
      | .error _ => true) = true := by decide +kernel

/-- A claim for an `x` passes where the plan declared `X`; and where the route is no review, an
answer without a finding passes, and the file of the question was not read. -/
theorem passed_without_finding :
    (askedForX.passes ∧ ¬ RestsOnFinding (· <:+: ·) twoLineDisk asciiRuntime askedForX firstLine
      (fileQuestion (str "a.txt") [str "X"]) ()) ∧
    unreadQuestion.passes ∧ ¬ RestsOnFinding (· <:+: ·) twoLineDisk asciiRuntime unreadQuestion
      firstLine (fileQuestion (str "b.txt") []) () := by
  refine ⟨⟨askedForX_passes, fun h ↦ ?_⟩, unreadQuestion_passes, fun h ↦ ?_⟩
  · obtain ⟨parsed, checks, w', hparsed, hchecks, -, hanswers⟩ := h.settled
    obtain ⟨f, hf, claim, hclaim, literal, hliteral, hnamed⟩ := hanswers (by decide)
    obtain ⟨hentries, -⟩ :=
      (checkEntries_spec twoLineDisk firstLine parsed.entries ()).of_run hchecks
    have htyped := containsBlock_typed
    rw [show structuredFindings asciiRuntime containsBlock = .ok parsed from hparsed] at htyped
    have hentry := List.all_eq_true.mp htyped f.entry (hentries ▸ List.mem_map_of_mem hf)
    rw [hclaim.typed, Option.all_some, decide_eq_true_eq] at hentry
    rw [List.mem_singleton.mp hliteral, hentry, ← contains_iff] at hnamed
    exact absurd hnamed (by decide)
  · rcases h.read (str "b.txt") (List.mem_singleton_self _) with hresolved | ⟨o, ho, hmatch⟩
    · exact absurd hresolved List.not_mem_nil
    · obtain rfl := List.mem_singleton.mp ho
      exact absurd hmatch (by decide)

end AtlasCore
