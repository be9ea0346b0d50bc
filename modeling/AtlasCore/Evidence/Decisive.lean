import AtlasCore.Evidence.ClaimCheck
import Mathlib.Data.Finset.Dedup

/-!
# What a decisive verdict rests on

A verdict is decisive when it says `verified` or `contradicted`.  What it then says is about the
lines that were recorded: the source was read again and compared with the record first, so of the
answer of a reader nothing else is left (`wp_observedTextOf`), however often the reader changes its
answer.

A comparison of command lines rests on the finding's own citations.  The targets of each line are a
set, what is declared of them is a list, and the two are compared sorted: with the sets when nothing
is declared twice (`commandVerdicts_iff`).
-/

set_option autoImplicit false

namespace AtlasCore

open Py

variable {W : Type} {reader : Observation → Option (Eff Exc W Str)}
  {observations : List Observation}
  {finding : Finding}

/-! ## Reading a source for a check

What the checker reads of a source is what was observed of it, while the source still reads the
same. -/

/-- A source that is established is cited, and its lines are the recorded ones; one that is not
decides nothing in either direction. -/
theorem wp_observedTextOf (sourceId : Str) (w : W) :
    (observedTextOf reader observations finding sourceId).wp
      (fun r _ ↦ (∀ v, r = .error v → v.isDecisive = false) ∧
        ∀ o observed, r = .ok (o, observed) → sourceId ∈ finding.evidence.map (·.sourceId) ∧
          byId observations sourceId = some o ∧ observed = o.excerpt)
      (fun _ _ ↦ True) w := by
  have refused : ∀ v' : ClaimVerdict, v'.isDecisive = false →
      (∀ v, (Except.error v' : Except ClaimVerdict (Observation × Str)) = .error v →
        v.isDecisive = false) ∧
      ∀ o observed, (Except.error v' : Except ClaimVerdict (Observation × Str)) =
        .ok (o, observed) →
        sourceId ∈ finding.evidence.map (·.sourceId) ∧ byId observations sourceId = some o ∧
          observed = o.excerpt := by
    refine fun v' h ↦ ⟨fun v hv ↦ ?_, fun o observed hok ↦ by cases hok⟩
    obtain rfl := Except.error.inj hv
    exact h
  rw [observedTextOf]
  split
  · exact refused _ rfl
  · rename_i hcited
    split
    · exact refused _ rfl
    · rename_i o hfound
      split
      · exact refused _ rfl
      · rename_i read _
        rw [Eff.wp_bind, tryRead, Eff.wp_handle, Eff.wp_bind]
        refine (Eff.wp_true read w).mono (fun content t _ ↦ ?_) (fun e t _ ↦ ?_)
        · rw [Eff.wp_pure, Eff.wp_bind]
          refine (Eff.wp_true _ t).mono (fun digest t _ ↦ ?_) (fun _ _ _ ↦ trivial)
          split
          · exact refused _ rfl
          · dsimp only
            split
            · exact refused _ rfl
            · rename_i hlines
              rw [Eff.wp_pure]
              refine ⟨fun v hv ↦ absurd hv (by simp), fun o' observed hok ↦ ?_⟩
              obtain ⟨rfl, rfl⟩ := Prod.mk.inj (Except.ok.inj hok)
              exact ⟨not_not.mp hcited, hfound, not_not.mp hlines⟩
        · cases e <;> first | exact trivial | exact refused _ rfl

/-! ## Literal claims

Whether a text is in a file, and what is known of that from an excerpt. -/

/-- What a literal claim says of an excerpt. -/
def TypedClaim.SaysOf (claim : TypedClaim) (excerpt : Str) : Prop :=
  if claim.kind = .contains then claim.text <:+: excerpt else ¬ claim.text <:+: excerpt

/-- A decisive verdict on a literal claim: the finding cites the source and says what the typed
claim says of the recorded range, and the literal is where the verdict has it. -/
structure RestsOnExcerpt (observations : List Observation) (finding : Finding) (claim : TypedClaim)
    (holds : Prop) : Prop where
  cited : claim.sourceId ∈ finding.evidence.map (·.sourceId)
  recorded : ∃ o, byId observations claim.sourceId = some o ∧
    strip finding.claim = claim.render o.path o.lineStart o.lineEnd ∧
      (claim.SaysOf o.excerpt ↔ holds)

theorem TypedClaim.holdsFor_iff {claim : TypedClaim} {observed : Str} :
    claim.holdsFor observed = true ↔ claim.SaysOf observed := by
  rw [holdsFor, SaysOf]
  split_ifs
  · exact contains_iff
  · rw [Bool.not_eq_true', ← Bool.not_eq_true, contains_iff]

/-- What a literal claim comes to, when its lines are the recorded ones. -/
theorem settleLiteral_decisive {claim : TypedClaim} {o : Observation}
    (hcited : claim.sourceId ∈ finding.evidence.map (·.sourceId))
    (hfound : byId observations claim.sourceId = some o) :
    ((settleLiteral finding claim o o.excerpt).result = .verified →
      RestsOnExcerpt observations finding claim True) ∧
    ((settleLiteral finding claim o o.excerpt).result = .contradicted →
      RestsOnExcerpt observations finding claim False) := by
  rw [settleLiteral]
  dsimp only
  by_cases htext : strip finding.claim = claim.render o.path o.lineStart o.lineEnd
  · rw [if_neg (not_not.mpr htext)]
    by_cases hholds : claim.holdsFor o.excerpt = true
    · rw [if_pos hholds]
      exact ⟨fun _ ↦ ⟨hcited, o, hfound, htext, iff_true_intro (TypedClaim.holdsFor_iff.mp hholds)⟩,
        nofun⟩
    · rw [if_neg hholds]
      exact ⟨nofun, fun _ ↦ ⟨hcited, o, hfound, htext,
        iff_false_intro fun h ↦ hholds (TypedClaim.holdsFor_iff.mpr h)⟩⟩
  · rw [if_pos htext]
    exact ⟨nofun, nofun⟩

theorem wp_checkTypedClaim_literal {claim : TypedClaim} (hkind : claim.kind ≠ .commandTargetsDiffer)
    (w : W) :
    (checkTypedClaim reader observations finding claim).wp
      (fun v _ ↦ (v.result = .verified → RestsOnExcerpt observations finding claim True) ∧
        (v.result = .contradicted → RestsOnExcerpt observations finding claim False))
      (fun _ _ ↦ True) w := by
  rw [checkTypedClaim, if_neg hkind, Eff.wp_bind]
  refine (wp_observedTextOf claim.sourceId w).mono (fun r t hr ↦ ?_) fun _ _ _ ↦ trivial
  obtain ⟨hrefused, hread⟩ := hr
  cases r with
  | error v =>
    have hopen := hrefused v rfl
    refine ⟨fun h ↦ ?_, fun h ↦ ?_⟩ <;>
    · rw [ClaimVerdict.isDecisive, h] at hopen
      cases hopen
  | ok p =>
    obtain ⟨hcited, hfound, hlines⟩ := hread p.1 p.2 rfl
    show _ ∧ _
    rw [hlines]
    exact settleLiteral_decisive hcited hfound

/-! ## Comparisons of command lines

When two lists of targets, compared as they are, agree with the two sets that they stand for. -/

/-- The one citation of the source that names the command. -/
def NamesOnce (finding : Finding) (sourceId command : Str) (ref : EvidenceRef) : Prop :=
  (finding.evidence.filter fun ref ↦
    ref.sourceId = sourceId && quoteNamesCommand ref.quoted command) = [ref]

theorem NamesOnce.unique {sourceId command : Str} {ref ref' : EvidenceRef}
    (h : NamesOnce finding sourceId command ref) (h' : NamesOnce finding sourceId command ref') :
    ref = ref' := List.singleton_inj.mp (h.symm.trans h')

theorem NamesOnce.targets {sourceId command : Str} {ref : EvidenceRef}
    (h : NamesOnce finding sourceId command ref) :
    targetsFromCitedCommand finding sourceId command =
      some (commandTargets ref.quoted command) := by
  rw [targetsFromCitedCommand, h]

theorem targetsFromCitedCommand_eq_none {sourceId command : Str}
    (h : ∀ ref, ¬ NamesOnce finding sourceId command ref) :
    targetsFromCitedCommand finding sourceId command = none := by
  rw [targetsFromCitedCommand]
  split
  · rename_i ref hone
    exact absurd hone (h ref)
  · rfl

/-- The set of the targets on a command line. -/
def targetSet (quote command : Str) : Finset Str := (commandTargets quote command).toFinset

/-- The sets on the two lines are the declared ones, and differ. -/
structure DriftHolds (claim : TypedClaim) (left right : EvidenceRef) : Prop where
  source : targetSet left.quoted claim.text = claim.sourceTargets.toFinset
  other : targetSet right.quoted claim.text = claim.otherTargets.toFinset
  differ : targetSet left.quoted claim.text ≠ targetSet right.quoted claim.text

instance (claim : TypedClaim) (left right : EvidenceRef) :
    Decidable (DriftHolds claim left right) :=
  decidable_of_iff (targetSet left.quoted claim.text = claim.sourceTargets.toFinset ∧
      targetSet right.quoted claim.text = claim.otherTargets.toFinset ∧
      targetSet left.quoted claim.text ≠ targetSet right.quoted claim.text)
    ⟨fun ⟨h1, h2, h3⟩ ↦ ⟨h1, h2, h3⟩, fun h ↦ ⟨h.source, h.other, h.differ⟩⟩

/-- What a verdict on a comparison says of the cited lines. -/
structure CommandVerdicts (finding : Finding) (claim : TypedClaim) (other : Str)
    (result : ClaimResult) : Prop where
  verified : result = .verified ↔ ∃ left right, NamesOnce finding claim.sourceId claim.text left ∧
    NamesOnce finding other claim.text right ∧ DriftHolds claim left right
  contradicted : result = .contradicted ↔
    ∃ left right, NamesOnce finding claim.sourceId claim.text left ∧
      NamesOnce finding other claim.text right ∧ ¬ DriftHolds claim left right

theorem exists_commandTargets_eq (quote command : Str) :
    ∃ xs : List Str, commandTargets quote command = xs.dedup.insertionSort (Json.keyLe · ·) := by
  rw [commandTargets]
  split
  · exact ⟨[], rfl⟩
  · exact ⟨_, rfl⟩

/-- A list of targets is taken for the set on the line when it holds the set, each target once. -/
theorem commandTargets_eq_sort {quote command : Str} {declared : List Str} :
    commandTargets quote command = declared.insertionSort (Json.keyLe · ·) ↔
      declared.Nodup ∧ targetSet quote command = declared.toFinset := by
  obtain ⟨xs, hxs⟩ := exists_commandTargets_eq quote command
  rw [targetSet, hxs, Json.sort_dedup_eq_sort, Finset.ext_iff]
  simp only [List.mem_toFinset, List.mem_insertionSort, List.mem_dedup]

theorem commandTargets_inj {quote quote' command : Str} :
    commandTargets quote command = commandTargets quote' command ↔
      targetSet quote command = targetSet quote' command := by
  obtain ⟨xs, hxs⟩ := exists_commandTargets_eq quote command
  obtain ⟨ys, hys⟩ := exists_commandTargets_eq quote' command
  rw [targetSet, targetSet, hxs, hys, Json.sort_dedup_eq_sort, Finset.ext_iff]
  simp only [List.mem_toFinset, List.mem_insertionSort, List.mem_dedup, List.nodup_dedup, true_and]

/-- What a comparison comes to, once the sentence is the rendered one. -/
theorem settleCommands_result {claim : TypedClaim} {other : Str} {left right : Observation}
    (htext : strip finding.claim = claim.renderCommands left.path right.path) {l r : EvidenceRef}
    (hl : NamesOnce finding claim.sourceId claim.text l)
    (hr : NamesOnce finding other claim.text r) :
    (settleCommands finding claim other left right).result =
      if claim.sourceTargets.Nodup ∧ claim.otherTargets.Nodup ∧ DriftHolds claim l r then .verified
      else .contradicted := by
  have hholds : (commandTargets l.quoted claim.text =
        claim.sourceTargets.insertionSort (Json.keyLe · ·) ∧
      commandTargets r.quoted claim.text = claim.otherTargets.insertionSort (Json.keyLe · ·) ∧
      commandTargets l.quoted claim.text ≠ commandTargets r.quoted claim.text) ↔
        claim.sourceTargets.Nodup ∧ claim.otherTargets.Nodup ∧ DriftHolds claim l r := by
    rw [commandTargets_eq_sort, commandTargets_eq_sort, ne_eq, commandTargets_inj]
    exact ⟨fun ⟨⟨h1, h2⟩, ⟨h3, h4⟩, h5⟩ ↦ ⟨h1, h3, h2, h4, h5⟩,
      fun ⟨h1, h3, h⟩ ↦ ⟨⟨h1, h.source⟩, ⟨h3, h.other⟩, h.differ⟩⟩
  rw [settleCommands, hl.targets, hr.targets]
  dsimp only
  rw [if_neg (not_not.mpr htext)]
  by_cases h : claim.sourceTargets.Nodup ∧ claim.otherTargets.Nodup ∧ DriftHolds claim l r
  · rw [if_pos (hholds.mpr h), if_pos h]
  · rw [if_neg (hholds.not.mpr h), if_neg h]

/-- Without a line of the command in each source nothing is settled. -/
theorem settleCommands_unsettled {claim : TypedClaim} {other : Str} {left right : Observation}
    (h : (∀ l, ¬ NamesOnce finding claim.sourceId claim.text l) ∨
      ∀ r, ¬ NamesOnce finding other claim.text r) :
    (settleCommands finding claim other left right).result = .unsupportedKind := by
  rw [settleCommands]
  rcases h with h | h
  · rw [targetsFromCitedCommand_eq_none h]
  · rw [targetsFromCitedCommand_eq_none h]
    split
    · rename_i hnone
      cases hnone
    · rfl

/-- The declared targets say nothing twice, where the sets alone would do. -/
def DeclaredOnce (finding : Finding) (claim : TypedClaim) (other : Str) : Prop :=
  ∀ left right, NamesOnce finding claim.sourceId claim.text left →
    NamesOnce finding other claim.text right → DriftHolds claim left right →
      claim.sourceTargets.Nodup ∧ claim.otherTargets.Nodup

/-- A result that settles nothing agrees with the lines when they are not there. -/
theorem commandVerdicts_of_unsettled {claim : TypedClaim} {other : Str} {result : ClaimResult}
    (hresult : result ≠ .verified ∧ result ≠ .contradicted)
    (h : (∀ l, ¬ NamesOnce finding claim.sourceId claim.text l) ∨
      ∀ r, ¬ NamesOnce finding other claim.text r) :
    CommandVerdicts finding claim other result := by
  have hno : ∀ l r, NamesOnce finding claim.sourceId claim.text l →
      ¬ NamesOnce finding other claim.text r := by
    intro l r hl hr
    rcases h with h | h
    · exact h l hl
    · exact h r hr
  exact ⟨⟨fun h ↦ absurd h hresult.1, fun ⟨l, r, hl, hr, _⟩ ↦ absurd hr (hno l r hl)⟩,
    ⟨fun h ↦ absurd h hresult.2, fun ⟨l, r, hl, hr, _⟩ ↦ absurd hr (hno l r hl)⟩⟩

theorem settleCommands_iff {claim : TypedClaim} {other : Str} {left right : Observation}
    (htext : strip finding.claim = claim.renderCommands left.path right.path) :
    CommandVerdicts finding claim other (settleCommands finding claim other left right).result ↔
      DeclaredOnce finding claim other := by
  by_cases hlines : (∃ l, NamesOnce finding claim.sourceId claim.text l) ∧
      ∃ r, NamesOnce finding other claim.text r
  · obtain ⟨⟨l, hl⟩, r, hr⟩ := hlines
    rw [settleCommands_result htext hl hr]
    constructor
    · intro h l' r' hl' hr' hholds
      obtain rfl := hl.unique hl'
      obtain rfl := hr.unique hr'
      by_contra hdeclared
      have hverified := h.verified.mpr ⟨l, r, hl, hr, hholds⟩
      rw [if_neg fun hall ↦ hdeclared ⟨hall.1, hall.2.1⟩] at hverified
      cases hverified
    · intro h
      by_cases hholds : DriftHolds claim l r
      · obtain ⟨hsource, hother⟩ := h l r hl hr hholds
        rw [if_pos ⟨hsource, hother, hholds⟩]
        refine ⟨iff_of_true rfl ⟨l, r, hl, hr, hholds⟩, iff_of_false nofun ?_⟩
        rintro ⟨l', r', hl', hr', hnot⟩
        obtain rfl := hl.unique hl'
        obtain rfl := hr.unique hr'
        exact hnot hholds
      · rw [if_neg fun hall ↦ hholds hall.2.2]
        refine ⟨iff_of_false nofun ?_, iff_of_true rfl ⟨l, r, hl, hr, hholds⟩⟩
        rintro ⟨l', r', hl', hr', hdrift⟩
        obtain rfl := hl.unique hl'
        obtain rfl := hr.unique hr'
        exact hholds hdrift
  · have hmissing : (∀ l, ¬ NamesOnce finding claim.sourceId claim.text l) ∨
        ∀ r, ¬ NamesOnce finding other claim.text r := by
      rwa [not_and_or, not_exists, not_exists] at hlines
    rw [settleCommands_unsettled hmissing]
    refine iff_of_true (commandVerdicts_of_unsettled ⟨nofun, nofun⟩ hmissing) fun l r hl hr ↦ ?_
    rcases hmissing with h | h
    · exact absurd hl (h l)
    · exact absurd hr (h r)

/-! ## The checks as a whole

What a verdict that settles a claim rests on: the excerpts of the observations and nothing else. -/

/-- The source is read in `w`, leaving `w'`, and is what was observed. -/
def Unchanged (reader : Observation → Option (Eff Exc W Str)) (o : Observation) (w w' : W) : Prop :=
  ∃ read content, reader o = some read ∧ read w = (.ok content, w') ∧
    sha256Text content = some o.contentSha256 ∧ linesOf content o.lineStart o.lineEnd = o.excerpt

theorem observedTextOf_unchanged {sourceId : Str} {o : Observation} {w w' : W}
    (hcited : sourceId ∈ finding.evidence.map (·.sourceId))
    (hfound : byId observations sourceId = some o) (h : Unchanged reader o w w') :
    observedTextOf reader observations finding sourceId w = (.ok (.ok (o, o.excerpt)), w') := by
  obtain ⟨read, content, hreader, hread, hdigest, hlines⟩ := h
  have htried : (tryRead read (⟨.sourceUnavailable, .outsideRoot o.path, none⟩ : ClaimVerdict)
      ⟨.sourceUnavailable, .unreadable o.path, none⟩) w = (.ok (.ok content), w') := by
    have hret : (do return Except.ok (← read) : Eff Exc W (Except ClaimVerdict Str)) w =
        (.ok (.ok content), w') := Eff.bind_of_ok hread
    rw [tryRead, Eff.handle, hret]
  rw [observedTextOf, if_neg (not_not.mpr hcited), hfound]
  dsimp only
  rw [hreader]
  dsimp only
  rw [Eff.bind_of_ok htried]
  dsimp only
  rw [sha256OrRaise, hdigest, pure_bind, if_neg (not_not.mpr rfl), if_neg (not_not.mpr hlines),
    hlines]
  rfl

theorem observedTextOf_uncited {sourceId : Str}
    (hcited : sourceId ∉ finding.evidence.map (·.sourceId))
    (w : W) : observedTextOf reader observations finding sourceId w =
      (.ok (.error ⟨.sourceNotCited, .notCited sourceId, none⟩), w) := by
  rw [observedTextOf, if_pos hcited]
  rfl

theorem NamesOnce.cited {sourceId command : Str} {ref : EvidenceRef}
    (h : NamesOnce finding sourceId command ref) :
      sourceId ∈ finding.evidence.map (·.sourceId) := by
  have hmem : ref ∈ finding.evidence.filter fun ref ↦
      ref.sourceId = sourceId && quoteNamesCommand ref.quoted command := by
    rw [h]
    exact List.mem_singleton_self ref
  obtain ⟨hmem, hnames⟩ := List.mem_filter.mp hmem
  rw [Bool.and_eq_true, decide_eq_true_eq] at hnames
  exact List.mem_map.mpr ⟨ref, hmem, hnames.1⟩

/-- A comparison is settled from the finding and the recorded paths alone. -/
theorem wp_checkCommandTargetsDiffer {claim : TypedClaim} (w : W) :
    (checkCommandTargetsDiffer reader observations finding claim).wp
      (fun v _ ↦ v.isDecisive = true → ∃ other left right, claim.otherSourceId = some other ∧
        byId observations claim.sourceId = some left ∧ byId observations other = some right ∧
        v = settleCommands finding claim other left right)
      (fun _ _ ↦ True) w := by
  have hopen : ∀ {v : ClaimVerdict} {P : Prop}, v.isDecisive = false → v.isDecisive = true → P := by
    intro v P h h'
    rw [h] at h'
    cases h'
  rw [checkCommandTargetsDiffer]
  split
  · exact fun h ↦ hopen rfl h
  · rename_i other hother
    rw [Eff.wp_bind]
    refine (wp_observedTextOf claim.sourceId w).mono (fun r t hr ↦ ?_) fun _ _ _ ↦ trivial
    cases r with
    | error v => exact hopen (hr.1 v rfl)
    | ok p =>
      obtain ⟨left, observed⟩ := p
      obtain ⟨-, hleft, -⟩ := hr.2 left observed rfl
      dsimp only
      rw [Eff.wp_bind]
      refine (wp_observedTextOf other t).mono (fun r t hr ↦ ?_) fun _ _ _ ↦ trivial
      cases r with
      | error v => exact hopen (hr.1 v rfl)
      | ok p =>
        obtain ⟨right, observed⟩ := p
        obtain ⟨-, hright, -⟩ := hr.2 right observed rfl
        exact fun _ ↦ ⟨other, left, right, hother, hleft, hright, rfl⟩

/-- Only a typed claim is ever settled: without one no verdict is decisive. -/
theorem wp_checkCondition (condition : Option ClaimCondition) (w : W) :
    (checkCondition reader observations finding condition).wp (fun v _ ↦ v.isDecisive = false)
      (fun _ _ ↦ True) w := by
  cases condition with
  | none => rfl
  | some c =>
    rw [checkCondition, Eff.wp_bind]
    refine (wp_observedTextOf c.sourceId w).mono (fun r t hr ↦ ?_) fun _ _ h ↦ h
    cases r with
    | error v => exact hr.1 v rfl
    | ok p =>
      show ClaimVerdict.isDecisive _ = false
      simp only [ClaimVerdict.isDecisive]
      split <;> rfl

/-- What a verdict of `check_claim` rests on: a decisive one is about a typed claim, and on lines
that were observed and still read the same. -/
structure SoundVerdict (observations : List Observation) (finding : Finding)
    (typed : Option TypedClaim) (v : ClaimVerdict) : Prop where
  isTyped : v.isDecisive = true → typed.isSome = true
  literal : ∀ claim, typed = some claim → claim.kind ≠ .commandTargetsDiffer →
    (v.result = .verified → RestsOnExcerpt observations finding claim True) ∧
    (v.result = .contradicted → RestsOnExcerpt observations finding claim False)
  comparison : ∀ claim, typed = some claim → claim.kind = .commandTargetsDiffer →
    v.isDecisive = true → ∃ other left right, claim.otherSourceId = some other ∧
      byId observations claim.sourceId = some left ∧ byId observations other = some right ∧
      v = settleCommands finding claim other left right

theorem wp_checkClaimOf (typed : Option TypedClaim) (condition : Option ClaimCondition) (w : W) :
    (checkClaimOf reader observations finding typed condition).wp
      (fun v _ ↦ SoundVerdict observations finding typed v) (fun _ _ ↦ True) w := by
  cases typed with
  | none =>
    refine (wp_checkCondition condition w).mono
      (fun v _ hv ↦ ⟨fun h ↦ ?_, nofun, nofun⟩) fun _ _ h ↦ h
    rw [hv] at h
    cases h
  | some claim =>
    rw [checkClaimOf]
    by_cases hkind : claim.kind = .commandTargetsDiffer
    · rw [checkTypedClaim, if_pos hkind]
      refine (wp_checkCommandTargetsDiffer w).mono (fun v _ hv ↦ ?_) fun _ _ h ↦ h
      refine ⟨fun _ ↦ rfl, fun c hc hne ↦ ?_, fun c hc _ ↦ ?_⟩ <;> obtain rfl := Option.some.inj hc
      · exact absurd hkind hne
      · exact hv
    · refine (wp_checkTypedClaim_literal hkind w).mono (fun v _ hv ↦ ?_) fun _ _ h ↦ h
      refine ⟨fun _ ↦ rfl, fun c hc _ ↦ ?_, fun c hc heq ↦ ?_⟩ <;> obtain rfl := Option.some.inj hc
      · exact hv
      · exact absurd heq hkind

theorem isDecisive_iff {v : ClaimVerdict} :
    v.isDecisive = true ↔ v.result = .verified ∨ v.result = .contradicted := by
  rw [ClaimVerdict.isDecisive]
  cases v.result <;> simp [ClaimResult.isDecisive]

/-- The observations decide between the two decisive verdicts. -/
theorem SoundVerdict.not_contradicted {typed : Option TypedClaim} {v v' : ClaimVerdict}
    (h : SoundVerdict observations finding typed v)
    (h' : SoundVerdict observations finding typed v') (hv : v.result = .verified) :
    v'.result ≠ .contradicted := by
  intro hv'
  obtain ⟨claim, rfl⟩ := Option.isSome_iff_exists.mp (h.isTyped (isDecisive_iff.mpr (.inl hv)))
  by_cases hkind : claim.kind = .commandTargetsDiffer
  · obtain ⟨other, left, right, hother, hleft, hright, heq⟩ :=
      h.comparison claim rfl hkind (isDecisive_iff.mpr (.inl hv))
    obtain ⟨other', left', right', hother', hleft', hright', heq'⟩ :=
      h'.comparison claim rfl hkind (isDecisive_iff.mpr (.inr hv'))
    obtain rfl := Option.some.inj (hother.symm.trans hother')
    obtain rfl := Option.some.inj (hleft.symm.trans hleft')
    obtain rfl := Option.some.inj (hright.symm.trans hright')
    rw [heq] at hv
    rw [heq', hv] at hv'
    cases hv'
  · obtain ⟨o, ho, -, hholds⟩ := ((h.literal claim rfl hkind).1 hv).recorded
    obtain ⟨o', ho', -, hfails⟩ := ((h'.literal claim rfl hkind).2 hv').recorded
    obtain rfl := Option.some.inj (ho.symm.trans ho')
    exact hfails.mp (hholds.mpr trivial)

/-- A finding is settled with a typed claim and sound citations, and severe when it is verified. -/
structure SettledFinding (typed : Option TypedClaim) (evidence : EvidenceCheck)
    (f : Finding) : Prop where
  isTyped : f.verdict = .verified ∨ f.verdict = .contradicted → typed.isSome = true
  sound : f.verdict = .verified ∨ f.verdict = .contradicted → evidence.citationsAreSound = true
  severity : f.severity ≠ .unknown → f.verdict = .verified

theorem settledFinding_applyVerdict {typed : Option TypedClaim} {v : ClaimVerdict}
    (h : SoundVerdict observations finding typed v) (evidence : EvidenceCheck) :
    SettledFinding typed evidence (applyVerdict finding evidence v) := by
  have hseverity : ∀ verdict method, (finding.decided verdict method).severity ≠ .unknown →
      (finding.decided verdict method).verdict = .verified := by
    intro verdict method hne
    by_contra hverdict
    exact hne (if_neg hverdict)
  rw [applyVerdict]
  split_ifs with hsettled
  · rw [Bool.and_eq_true] at hsettled
    exact ⟨fun _ ↦ h.isTyped hsettled.2, fun _ ↦ hsettled.1, hseverity _ _⟩
  · have hopen : ¬ ((finding.decided .insufficientEvidence .deterministicEvidenceCheck).verdict =
          .verified ∨
        (finding.decided .insufficientEvidence .deterministicEvidenceCheck).verdict =
          .contradicted) := by
      rintro (hv | hv) <;> cases hv
    exact ⟨fun hv ↦ absurd hv hopen, fun hv ↦ absurd hv hopen, hseverity _ _⟩

/-- **A decisive verdict is about the recorded lines**, whatever the readers answer: two checks of
one finding against the same observations never decide both ways, and a finding that is settled has
a typed claim and sound citations. -/
theorem decisive_about_excerpt {W' : Type} {reader' : Observation → Option (Eff Exc W' Str)}
    {typed : Option TypedClaim} {condition : Option ClaimCondition} {w : W} {w' : W'}
    {v v' : ClaimVerdict}
    (h : (checkClaimOf reader observations finding typed condition w).1 = .ok v)
    (h' : (checkClaimOf reader' observations finding typed condition w').1 = .ok v') :
    (∀ claim, typed = some claim → claim.kind ≠ .commandTargetsDiffer →
      (v.result = .verified → RestsOnExcerpt observations finding claim True) ∧
      (v.result = .contradicted → RestsOnExcerpt observations finding claim False)) ∧
    ¬ (v.result = .verified ∧ v'.result = .contradicted) ∧
    ∀ evidence, SettledFinding typed evidence (applyVerdict finding evidence v) := by
  have hsound : SoundVerdict observations finding typed v :=
    (wp_checkClaimOf typed condition w).of_run (Prod.ext h rfl)
  have hsound' : SoundVerdict observations finding typed v' :=
    (wp_checkClaimOf typed condition w').of_run (Prod.ext h' rfl)
  exact ⟨hsound.literal, fun hboth ↦ hsound.not_contradicted hsound' hboth.1 hboth.2,
    settledFinding_applyVerdict hsound⟩

/-- A finding about one line of a file. -/
def lineFinding (o : Observation) (hdigest : matchesSha256 o.contentSha256 = true)
    (claim quoted : Str)
    (hclaim : isBlank claim = false) (hquoted : quoted ≠ []) : Finding where
  findingId := []
  claim := claim
  scope := str "s"
  severity := .unknown
  severityRationale := str "r"
  evidence := [⟨o.sourceId, o.contentSha256, 1, 1, quoted, hdigest, le_rfl, le_rfl, hquoted⟩]
  hasClaim := hclaim
  hasScope := rfl
  hasRationale := rfl
  hasCommand := by decide

/-- The first line of `a.txt`, as it was observed. -/
def lineX : Observation := ⟨lineOfFile 1 (str "x"), lineOfFile_x⟩

/-- The finding that it holds an `x`, in the sentence of its typed claim. -/
def findsX : Finding :=
  lineFinding lineX (by decide +kernel) (str "a.txt lines 1-1 contain \"x\"") (str "x") (by decide)
    (by decide)

/-- The claim of that finding, as the checker takes it. -/
def claimsX : TypedClaim where
  kind := .contains
  sourceId := lineX.sourceId
  text := str "x"
  namesText := by decide
  namesSource := by decide
  fits := by decide

/-- The finding is verified, and a host that reads something else settles nothing. -/
theorem decisive_about_excerpt_line :
    ∃ v v' : ClaimVerdict, v.result = .verified ∧ v'.result = .sourceUnavailable ∧
      RestsOnExcerpt [lineX] findsX claimsX True ∧
      ∀ evidence, SettledFinding (some claimsX) evidence (applyVerdict findsX evidence v) := by
  have hverified : (checkClaimOf (fun _ ↦ some (return str "x\ny\n")) [lineX] findsX (some claimsX)
      none ()).1.toOption.map (·.result) = some .verified := by decide +kernel
  have hchanged : (checkClaimOf (fun _ ↦ some (return str "z\n")) [lineX] findsX (some claimsX)
      none ()).1.toOption.map (·.result) = some .sourceUnavailable := by decide +kernel
  obtain ⟨v, hv, hresult⟩ := Option.map_eq_some_iff.mp hverified
  obtain ⟨v', hv', hresult'⟩ := Option.map_eq_some_iff.mp hchanged
  obtain ⟨hliteral, -, hsettled⟩ := decisive_about_excerpt (Except.eq_ok_of_toOption hv)
    (Except.eq_ok_of_toOption hv')
  exact ⟨v, v', hresult, hresult', (hliteral claimsX rfl (by decide)).1 hresult, hsettled⟩

/-- **A verdict on a comparison is the one the cited lines give, exactly when no declared target is
repeated** where the declared sets are those on the lines and differ. -/
theorem commandVerdicts_iff {claim : TypedClaim} {other : Str} {left right : Observation}
    {w w₁ w₂ : W}
    (hkind : claim.kind = .commandTargetsDiffer) (hother : claim.otherSourceId = some other)
    (hleft : byId observations claim.sourceId = some left)
    (hright : byId observations other = some right) (hreads : Unchanged reader left w w₁)
    (hreads' : Unchanged reader right w₁ w₂)
    (htext : strip finding.claim = claim.renderCommands left.path right.path)
    (condition : Option ClaimCondition) :
    ∃ v w', checkClaimOf reader observations finding (some claim) condition w = (.ok v, w') ∧
      (CommandVerdicts finding claim other v.result ↔ DeclaredOnce finding claim other) := by
  have hrun : checkClaimOf reader observations finding (some claim) condition =
      checkCommandTargetsDiffer reader observations finding claim := by
    rw [checkClaimOf, checkTypedClaim, if_pos hkind]
  have huncited : ∀ {v : ClaimVerdict}, (v.result ≠ .verified ∧ v.result ≠ .contradicted) →
      ((∀ l, ¬ NamesOnce finding claim.sourceId claim.text l) ∨
        ∀ r, ¬ NamesOnce finding other claim.text r) →
      (CommandVerdicts finding claim other v.result ↔ DeclaredOnce finding claim other) := by
    refine fun hv h ↦ iff_of_true (commandVerdicts_of_unsettled hv h) fun l r hl hr ↦ ?_
    rcases h with h | h
    · exact absurd hl (h l)
    · exact absurd hr (h r)
  rw [hrun, checkCommandTargetsDiffer, hother]
  dsimp only
  by_cases hcited : claim.sourceId ∈ finding.evidence.map (·.sourceId)
  · rw [Eff.bind_of_ok (observedTextOf_unchanged hcited hleft hreads)]
    dsimp only
    by_cases hcited' : other ∈ finding.evidence.map (·.sourceId)
    · rw [Eff.bind_of_ok (observedTextOf_unchanged hcited' hright hreads')]
      exact ⟨_, _, rfl, settleCommands_iff htext⟩
    · rw [Eff.bind_of_ok (observedTextOf_uncited hcited' _)]
      exact ⟨_, _, rfl, huncited ⟨nofun, nofun⟩ (.inr fun r hr ↦ hcited' hr.cited)⟩
  · rw [Eff.bind_of_ok (observedTextOf_uncited hcited _)]
    exact ⟨_, _, rfl, huncited ⟨nofun, nofun⟩ (.inl fun l hl ↦ hcited hl.cited)⟩

/-! ## Two command lines

A workflow and a makefile that lint different targets, and the claim that they do. -/

/-- A file that is one line, observed in full. -/
def oneLineFile (path line : Str) : ObservationFields where
  sourceId := (deriveSourceId (str "s1") .localFile path).getD []
  sourceType := .localFile
  path := path
  collectedAt := str "2024-01-01T00:00:00+00:00"
  contentSha256 := (sha256Text (line ++ [lf])).getD []
  excerpt := line
  lineStart := 1
  lineEnd := 1
  snapshotId := str "s1"
  totalLines := some 1

/-- The line of the gate, which lints two directories. -/
def gateLine : Observation :=
  ⟨oneLineFile (str "gate.sh") (str "lint src/ tests/"), by decide +kernel⟩

/-- The line of the workflow, which lints one of them. -/
def workflowLine : Observation := ⟨oneLineFile (str "ci.yml") (str "lint src/"), by decide +kernel⟩

/-- The two lines, as the observations of one base. -/
def commandBase : EvidenceBase where
  snapshot := ⟨str "s1", str "/repo"⟩
  observations := [gateLine, workflowLine]
  readers := []
  sameSnapshot := by decide
  distinct := by decide +kernel

/-- The disk they are on, unchanged since. -/
def commandDisk : Sources Unit where
  readWithin := fun _ path ↦
    return if path = str "gate.sh" then str "lint src/ tests/\n" else str "lint src/\n"
  reader := fun _ ↦ Eff.raise .osError

/-- The claim that `lint` is run on other targets, with these for the gate. -/
def lintDiffers (targets : List Str) : TypedClaim where
  kind := .commandTargetsDiffer
  sourceId := gateLine.sourceId
  text := str "lint"
  otherSourceId := some workflowLine.sourceId
  sourceTargets := targets
  otherTargets := [str "src"]
  namesText := by decide
  namesSource := by decide
  fits := by
    rw [if_pos rfl]
    exact ⟨_, rfl, by decide +kernel, by decide +kernel⟩

/-- The finding that says so, and cites both lines. -/
def lintFinding (targets : List Str) : Finding where
  findingId := []
  claim := (lintDiffers targets).renderCommands gateLine.path workflowLine.path
  scope := str "s"
  severity := .unknown
  severityRationale := str "r"
  evidence := [
    ⟨gateLine.sourceId, gateLine.contentSha256, 1, 1, gateLine.excerpt, by decide +kernel, le_rfl,
      le_rfl, by decide⟩,
    ⟨workflowLine.sourceId, workflowLine.contentSha256, 1, 1,
      workflowLine.excerpt, by decide +kernel,
      le_rfl, le_rfl, by decide⟩]
  hasClaim := rfl
  hasScope := rfl
  hasRationale := rfl
  hasCommand := by decide

/-- The finding cites soundly and declares the two targets of the gate, one of them twice: it is
contradicted, although the sets are those on the lines and differ. -/
theorem repeated_target_contradicted :
    (checkFinding commandDisk commandBase
      (lintFinding [str "src", str "tests", str "tests"]) ()).1.toOption.map
        (·.citationsAreSound) = some true ∧
    ∃ v, (checkClaim commandDisk commandBase (lintFinding [str "src", str "tests", str "tests"])
        (some (lintDiffers [str "src", str "tests", str "tests"])) none ()).1 = .ok v ∧
      ¬ CommandVerdicts (lintFinding [str "src", str "tests", str "tests"])
        (lintDiffers [str "src", str "tests", str "tests"]) workflowLine.sourceId v.result := by
  refine ⟨by decide +kernel, ?_⟩
  have hresult : (checkClaim commandDisk commandBase
      (lintFinding [str "src", str "tests", str "tests"])
      (some (lintDiffers [str "src", str "tests", str "tests"])) none
      ()).1.toOption.map (·.result) =
        some .contradicted := by decide +kernel
  obtain ⟨v, hv, hcontradicted⟩ := Option.map_eq_some_iff.mp hresult
  refine ⟨v, Except.eq_ok_of_toOption hv, fun h ↦ ?_⟩
  obtain ⟨left, right, hleft, hright, hnot⟩ := h.contradicted.mp hcontradicted
  have hgate : left = (lintFinding [str "src", str "tests", str "tests"]).evidence[0] :=
    hleft.unique (by unfold NamesOnce; decide +kernel)
  have hworkflow : right = (lintFinding [str "src", str "tests", str "tests"]).evidence[1] :=
    hright.unique (by unfold NamesOnce; decide +kernel)
  rw [hgate, hworkflow] at hnot
  exact hnot (by decide)

/-- Declared once, it is verified. -/
theorem commandVerdicts_iff_lint : ∃ v w',
    checkClaimOf (readerFor commandDisk commandBase) commandBase.observations
      (lintFinding [str "tests", str "src"]) (some (lintDiffers [str "tests", str "src"])) none () =
        (.ok v, w') ∧
    (CommandVerdicts (lintFinding [str "tests", str "src"]) (lintDiffers [str "tests", str "src"])
        workflowLine.sourceId v.result ↔
      DeclaredOnce (lintFinding [str "tests", str "src"]) (lintDiffers [str "tests", str "src"])
        workflowLine.sourceId) := by
  have hunchanged : ∀ o content, o.sourceType = .localFile →
      (commandDisk.readWithin commandBase.snapshot.root o.path ()).1 = .ok content →
      sha256Text content = some o.contentSha256 →
        linesOf content o.lineStart o.lineEnd = o.excerpt →
      Unchanged (readerFor commandDisk commandBase) o () () := by
    intro o content hlocal hread hdigest hlines
    exact ⟨_, content, if_pos hlocal, Prod.ext hread rfl, hdigest, hlines⟩
  have hgate : byId commandBase.observations (lintDiffers [str "tests", str "src"]).sourceId =
      some gateLine := by
    unfold lintDiffers
    exact byId_self commandBase List.mem_cons_self
  have hworkflow : byId commandBase.observations workflowLine.sourceId = some workflowLine :=
    byId_self commandBase (List.mem_cons_of_mem _ List.mem_cons_self)
  exact commandVerdicts_iff rfl rfl hgate hworkflow
    (hunchanged gateLine (str "lint src/ tests/\n") rfl rfl (by decide +kernel) (by decide +kernel))
    (hunchanged workflowLine (str "lint src/\n") rfl rfl (by decide +kernel) (by decide +kernel))
    (by decide) none

end AtlasCore
