import AtlasCore.Adapters.Windows
import AtlasCore.Evidence.Merging
import AtlasCore.Lib.Pages
import Mathlib.Algebra.Order.BigOperators.Group.List

/-!
# Reading on, round after round

In a round the windows over a base are asked for, the observer answers, and what it read takes the
place of the excerpts.  While the files do not change, a run of rounds reads each source in pages
(`RoundsOn.paged`), and there are no more rounds than lines that are left (`RoundsOn.length_le`).

In a file that one window does not hold, a last window of one blank line is never read: the excerpt
goes back to the head of the file, and the same windows are proposed for ever (`blankEnd_back`).
-/

set_option autoImplicit false

namespace AtlasCore

open Py

/-! ## Rounds

A run asks again for the windows of a file it has read in part.  These relations say what one such
round of asking and reading is, of a file that stays as it is, and what a sequence of them is. -/

section
variable {W : Type} (fs : FileSystem W) (meter : Meter W) (classify : Str → Confidentiality)
  (observer : RepoObserver) (snapshot : TakenSnapshot) (review : ReviewPlan)

/-- A round that reads on: the windows over the base are asked for, the observer answers, and the
answer is merged into the base. -/
def ReadsOn (base : EvidenceBase) (answer : List Observation) (next : EvidenceBase) : Prop :=
  ∃ evaluation iteration report request patterns s s' merged round, Asks base review evaluation ∧
    readAgainRequest base iteration evaluation report (some review) = .ok (request, patterns) ∧
    observe fs meter classify observer snapshot request s = (.ok answer, s') ∧
    mergeObservations base.snapshot base.observations (answer.map some) = .ok (merged, round) ∧
    base.withObservations merged = some next

/-- One round after another, with the answers there were. -/
inductive RoundsOn : EvidenceBase → List (List Observation) → EvidenceBase → Prop
  | done {base : EvidenceBase} : RoundsOn base [] base
  | round {base next last : EvidenceBase} {answer : List Observation}
      {answers : List (List Observation)}
      (first : ReadsOn fs meter classify observer snapshot review base answer next)
      (rest : RoundsOn next answers last) : RoundsOn base (answer :: answers) last

/-- The files that were read in part do not change, and their lines were counted. -/
structure Stable (files : Str → Bytes) (base : EvidenceBase) : Prop where
  unchanged : ∀ o ∈ base.observations, (nextWindow review o).isSome →
    UnchangedFile fs observer base.snapshot.root o.path (files o.path)
  counted : ∀ o ∈ base.observations, (nextWindow review o).isSome →
    o.totalLines = some (lineCount (files o.path))

/-- The snapshot of a base, as it was taken. -/
def takenFor (state : Snapshot) : TakenSnapshot := { snapshot with toSnapshot := state }

/-- What was read of a source: the answer to the window over it. -/
def RereadOf (files : Str → Bytes) (base : EvidenceBase) (o r : Observation) : Prop :=
  r.sourceId = o.sourceId ∧ ∃ window : LineWindow,
    nextWindow review o = some window.toWindowRequest ∧
      ReadOf classify observer (takenFor snapshot base.snapshot) (readText (files o.path)) window r

/-- What a round comes to while the files do not change. -/
structure ReadRound (files : Str → Bytes) (base : EvidenceBase) (answer : List Observation)
    (next : EvidenceBase) : Prop where
  snapshot_eq : next.snapshot = base.snapshot
  /-- Every source keeps its place, as what was read of it now. -/
  observations : next.observations =
    base.observations.map (Keyed.overlay (·.sourceId) SameReading answer)
  distinct : (answer.map (·.sourceId)).Nodup
  /-- What was read is of sources of the base. -/
  answers : ∀ r ∈ answer, ∃ o ∈ base.observations,
    RereadOf classify observer snapshot review files base o r
  /-- Something was read. -/
  reads : 1 ≤ observer.maxFilesPerRound → answer ≠ []

end

section
variable {W : Type} {fs : FileSystem W} {meter : Meter W} {classify : Str → Confidentiality}
  {observer : RepoObserver} {snapshot : TakenSnapshot} {review : ReviewPlan} {files : Str → Bytes}
  {base next : EvidenceBase} {answer : List Observation} {answers : List (List Observation)}
  {o r : Observation}

/-- An observation of the base may be made again. -/
theorem nameable_of_mem (href : checkKnownOrUnknown .ref snapshot.ref = .ok ())
    (hcommit : checkKnownOrUnknown .commit snapshot.commit = .ok ()) (ho : o ∈ base.observations)
    (hlocal : o.sourceType = .localFile) : Nameable (takenFor snapshot base.snapshot) o.path := by
  have haccepted := o.accepted
  simp only [ObservationFields.postInit, andThen_eq_ok, refuseIf_eq_ok] at haccepted
  have hsame := base.sameSnapshot o ho
  have hid := o.deriveSourceId_eq
  rw [hlocal, hsame] at hid
  exact
    { notBlank := haccepted.1
      contained := haccepted.2.1
      ref := href
      commit := hcommit
      snapshotId := (congrArg (checkKnownOrUnknown .snapshotId) hsame).symm.trans
        haccepted.2.2.2.2.2.2.1
      derives := Option.isSome_iff_exists.mpr ⟨_, hid⟩ }

/-- What answers a window over a source has its id. -/
theorem sourceId_of_readOf {window : LineWindow} {bytes : Bytes} (ho : o ∈ base.observations)
    (hwindow : nextWindow review o = some window.toWindowRequest)
    (h : ReadOf classify observer (takenFor snapshot base.snapshot) (readText bytes) window r) :
    r.sourceId = o.sourceId := by
  obtain ⟨htype, hpath, hsnapshot, -⟩ := h.source
  refine Option.some.inj ?_
  rw [← r.deriveSourceId_eq, ← o.deriveSourceId_eq, htype, (nextWindow_eq_some hwindow).1, hpath,
    path_nextWindow hwindow, hsnapshot, base.sameSnapshot o ho]
  rfl

/-- The windows of a request to read on are over sources of the base. -/
theorem exists_source {windows : List LineWindow} {window : LineWindow}
    (h : windows.map (·.toWindowRequest) = nextPartialWindows (some base) review)
    (hmem : window ∈ windows) :
    ∃ o ∈ base.observations, nextWindow review o = some window.toWindowRequest := by
  refine List.mem_filterMap.mp ?_
  show window.toWindowRequest ∈ nextPartialWindows (some base) review
  rw [← h]
  exact List.mem_map_of_mem hmem

section
variable (hstable : Stable fs observer review files base)

include hstable

variable (meter classify snapshot) in
/-- What the observer makes of the windows over a base whose files do not change. -/
theorem wp_observe_stable {request : ObservationRequest} (s : Observing W)
    (hwindows : request.lineWindows.map (·.toWindowRequest) = nextPartialWindows (some base) review)
    (hsnapshot : request.snapshot = base.snapshot) (hpaths : request.paths = [])
    (hpatterns : request.patterns = []) (hne : request.lineWindows ≠ []) :
    (observe fs meter classify observer snapshot request).wp
      (fun answer _ ↦ List.Forall₂ (fun window o ↦ ReadOf classify observer
          (takenFor snapshot base.snapshot) (readText (files window.path)) window o)
        (request.lineWindows.take observer.maxFilesPerRound) answer)
      (fun e _ ↦ BudgetRaises meter e ∨ e = .valueError ∧ Foreign fs observer request s.world ∨
        ∃ o ∈ base.observations, (nextWindow review o).isSome ∧
          ¬ HeadReads classify observer (takenFor snapshot base.snapshot) o.path (files o.path))
      s := by
  have htaken : boundTo snapshot request = takenFor snapshot base.snapshot := by
    rw [boundTo, hsnapshot, takenFor]
  rw [← htaken]
  refine (wp_observe_windows s hpaths hpatterns hne fun window hwindow ↦ ?_).mono
    (fun _ _ h ↦ h) ?_
  · obtain ⟨o, ho, hnext⟩ := exists_source hwindows hwindow
    rw [hsnapshot, path_nextWindow hnext]
    exact hstable.unchanged o ho (Option.isSome_of_eq_some hnext)
  · rintro e t (hraises | hforeign | ⟨window, hwindow, hhead⟩)
    · exact .inl hraises
    · exact .inr (.inl hforeign)
    · obtain ⟨o, ho, hnext⟩ := exists_source hwindows hwindow
      rw [path_nextWindow hnext] at hhead
      exact .inr (.inr ⟨o, ho, Option.isSome_of_eq_some hnext, hhead⟩)

omit hstable in
/-- What answers the windows over a base is read of its sources. -/
theorem source_of_reads {windows : List LineWindow}
    (hwindows : windows.map (·.toWindowRequest) = nextPartialWindows (some base) review) {n : ℕ}
    (hreads : List.Forall₂ (fun window o ↦ ReadOf classify observer
      (takenFor snapshot base.snapshot) (readText (files window.path)) window o)
      (windows.take n) answer) : ∀ r ∈ answer, ∃ o ∈ base.observations,
        RereadOf classify observer snapshot review files base o r := by
  intro r hr
  obtain ⟨window, hwindow, hread'⟩ := hreads.flip.exists_of_mem r hr
  obtain ⟨o, ho, hover⟩ := exists_source hwindows (List.mem_of_mem_take hwindow)
  have hread : ReadOf classify observer (takenFor snapshot base.snapshot)
      (readText (files o.path)) window r := path_nextWindow hover ▸ hread'
  exact ⟨o, ho, sourceId_of_readOf ho hover hread, window, hover, hread⟩

omit hstable in
/-- It can be merged into the base. -/
theorem isAnswer_of_reads {windows : List LineWindow}
    (hwindows : windows.map (·.toWindowRequest) = nextPartialWindows (some base) review) {n : ℕ}
    (hreads : List.Forall₂ (fun window o ↦ ReadOf classify observer
      (takenFor snapshot base.snapshot) (readText (files window.path)) window o)
      (windows.take n) answer) : IsAnswer base.snapshot answer := by
  have hsources := source_of_reads hwindows hreads
  have hpaths : answer.map (·.path) = (windows.take n).map (·.path) :=
    Eff.map_eq_of_forall₂ (hreads.imp fun _ _ h ↦ h.source.2.1)
  have hnodup : (answer.map (·.path)).Nodup := by
    rw [hpaths]
    refine List.Nodup.sublist ((List.take_sublist n windows).map _) ?_
    rw [show windows.map (·.path) = (windows.map (·.toWindowRequest)).map (·.path) from
      (List.map_map).symm, hwindows]
    exact nodup_nextPartialWindows
  constructor
  · intro r hr
    obtain ⟨_, _, _, _, _, hread⟩ := hsources r hr
    exact hread.source.2.2.1
  · rw [List.Nodup, List.pairwise_map] at hnodup ⊢
    refine hnodup.imp_of_mem fun hr hr' hne hid ↦ hne ?_
    obtain ⟨o, ho, hsame, _, hwindow, hread⟩ := hsources _ hr
    obtain ⟨o', ho', hsame', _, hwindow', hread'⟩ := hsources _ hr'
    rw [hread.source.2.1, hread'.source.2.1, path_nextWindow hwindow, path_nextWindow hwindow',
      base.eq_of_sourceId ho ho' (hsame.symm.trans (hid.trans hsame'))]

/-- **A round**, while the files do not change. -/
theorem ReadsOn.round (h : ReadsOn fs meter classify observer snapshot review base answer next) :
    ReadRound classify observer snapshot review files base answer next := by
  obtain ⟨evaluation, iteration, report, request, patterns, s, s', merged, round, hasks, hrequest,
    hobserve, hmerge, hnext⟩ := h
  obtain ⟨hwindows, hsnapshot, hpaths, hpatterns, hne⟩ := request_of_asks hasks hrequest
  have hreads := (wp_observe_stable meter classify snapshot hstable s hwindows hsnapshot hpaths
    hpatterns hne).of_run hobserve
  have hanswers := source_of_reads hwindows hreads
  obtain ⟨-, hrefused⟩ | ⟨-, items, hitems, hanswer, hmerged⟩ :=
    merge_or_refuse base (answer.map some)
  · rw [hrefused] at hmerge
    cases hmerge
  obtain rfl := List.map_injective_iff.mpr (Option.some_injective _) hitems
  obtain ⟨rfl, -⟩ := Prod.mk.inj (Except.ok.inj (hmerge.symm.trans hmerged))
  rw [EvidenceBase.withObservations, EvidenceBase.build] at hnext
  split_ifs at hnext
  obtain rfl := Option.some.inj hnext
  refine ⟨rfl, ?_, hanswer.distinct, hanswers, fun hroom hnil ↦ ?_⟩
  · have hknown : Py.Keyed.fresh (·.sourceId) base.observations answer = [] := by
      rw [List.eq_nil_iff_forall_not_mem]
      intro r hr
      obtain ⟨hmem, hnew⟩ := Keyed.mem_fresh.mp hr
      obtain ⟨o, ho, hid, -⟩ := hanswers r hmem
      exact hnew (hid ▸ List.mem_map_of_mem ho)
    show Keyed.merged _ _ _ _ = _
    rw [Keyed.merged, hknown, List.append_nil]
  · rw [hnil] at hreads
    have htake := List.eq_nil_of_length_eq_zero hreads.length_eq
    rw [List.take_eq_nil_iff] at htake
    rcases htake with h | h
    · omega
    · exact hne h

end

section
variable (h : ReadRound classify observer snapshot review files base answer next)

include h

/-- What a source is after the round. -/
theorem ReadRound.mem_next (ho : o ∈ next.observations) : o ∈ base.observations ∨
    ∃ o' ∈ base.observations, RereadOf classify observer snapshot review files base o' o := by
  rw [h.observations] at ho
  obtain ⟨o', ho', rfl⟩ := List.mem_map.mp ho
  obtain heq | ⟨r, hr, hid, -, heq⟩ := current_eq_or answer o'
  · rw [heq]
    exact .inl ho'
  · rw [heq]
    obtain ⟨o'', ho'', hreread⟩ := h.answers r hr
    obtain rfl := base.eq_of_sourceId ho' ho'' (hid.symm.trans hreread.1)
    exact .inr ⟨o', ho', hreread⟩

/-- The files that are left are files that were left before. -/
theorem ReadRound.stable (hstable : Stable fs observer review files base) :
    Stable fs observer review files next := by
  have hof : ∀ o ∈ next.observations, (nextWindow review o).isSome →
      UnchangedFile fs observer base.snapshot.root o.path (files o.path) ∧
        o.totalLines = some (lineCount (files o.path)) := by
    intro o ho hsome
    obtain ho | ⟨o', ho', -, window, hwindow, hread⟩ := h.mem_next ho
    · exact ⟨hstable.unchanged o ho hsome, hstable.counted o ho hsome⟩
    · obtain ⟨-, hpath, -, htotal⟩ := hread.source
      rw [path_nextWindow hwindow] at hpath
      rw [hpath]
      exact ⟨hstable.unchanged o' ho' (Option.isSome_of_eq_some hwindow), htotal⟩
  refine ⟨fun o ho hsome ↦ ?_, fun o ho hsome ↦ (hof o ho hsome).2⟩
  rw [h.snapshot_eq]
  exact (hof o ho hsome).1

/-- A source is read once in a round, or it is left as it is. -/
theorem ReadRound.source (ho : o ∈ base.observations) :
    (answer.filter (·.sourceId = o.sourceId) = [] ∧ o ∈ next.observations) ∨
      ∃ r, answer.filter (·.sourceId = o.sourceId) = [r] ∧
        (if SameReading o r then o else r) ∈ next.observations ∧
          RereadOf classify observer snapshot review files base o r := by
  have hcurrent : Keyed.overlay (·.sourceId) SameReading answer o ∈ next.observations := by
    rw [h.observations]
    exact List.mem_map_of_mem ho
  by_cases hread : o.sourceId ∈ answer.map (·.sourceId)
  · obtain ⟨r, hr, hid⟩ := List.mem_map.mp hread
    obtain ⟨o', ho', hreread⟩ := h.answers r hr
    obtain rfl := base.eq_of_sourceId ho ho' (hid.symm.trans hreread.1)
    rw [Keyed.overlay_of_mem h.distinct hr hid] at hcurrent
    exact .inr ⟨r, hid ▸ Keyed.filter_key h.distinct hr, hcurrent, hreread⟩
  · rw [Keyed.overlay_of_not_mem hread] at hcurrent
    refine .inl ⟨List.filter_eq_nil_iff.mpr fun r hr hid ↦ hread ?_, hcurrent⟩
    rw [← of_decide_eq_true hid]
    exact List.mem_map_of_mem hr

end

end

/-! ## A source over a run

The rounds of a run, seen from one source: the lines that are asked for next begin where the last
ones ended. -/

/-- The source is one that is read on, line after line. -/
structure Followed (review : ReviewPlan) (bytes : Bytes) (o : Observation) : Prop where
  type : o.sourceType = .localFile
  named : review.patterns.any (fnmatch o.path) = true
  counted : o.totalLines = some (lineCount bytes)
  plain : ¬ IsAnchored review o
  ends : ¬ EndsBlank bytes o.lineEnd

section
variable {review : ReviewPlan} {bytes : Bytes} {o r : Observation}

theorem lineEnd_le {total : ℤ} (h : o.totalLines = some total) : o.lineEnd ≤ total := by
  have haccepted := o.accepted
  simp only [ObservationFields.postInit, andThen_eq_ok, h, checkTotalLines, refuseIf_eq_ok,
    decide_eq_false_iff_not] at haccepted
  have := haccepted.2.2.2.2.2.2.2.2.2.1.2
  omega

/-- As long as lines are left, there is a window. -/
theorem Followed.isSome_iff (h : Followed review bytes o) :
    (nextWindow review o).isSome ↔ o.lineEnd < lineCount bytes := by
  have hend := lineEnd_nonneg o
  rw [isSome_nextWindow h.counted]
  exact ⟨fun hsome ↦ hsome.2.2.1, fun hleft ↦ ⟨h.type, by omega, hleft, h.named⟩⟩

theorem followed_of_isSome (hsome : (nextWindow review o).isSome)
    (hcounted : o.totalLines = some (lineCount bytes)) (hplain : ¬ IsAnchored review o)
    (hends : ¬ EndsBlank bytes o.lineEnd) : Followed review bytes o := by
  obtain ⟨htype, -, -, hnamed⟩ := (isSome_nextWindow hcounted).mp hsome
  exact ⟨htype, hnamed, hcounted, hplain, hends⟩

variable {classify : Str → Confidentiality} {observer : RepoObserver} {taken : TakenSnapshot}
  {window : LineWindow}

/-- What was read of a source is followed as the source was. -/
theorem Followed.next (h : Followed review bytes o) (hnamed : Nameable taken window.path)
    (hwindow : nextWindow review o = some window.toWindowRequest)
    (hread : ReadOf classify observer taken (readText bytes) window r) :
    Followed review bytes r ∧ r.path = o.path := by
  obtain ⟨htype, hpath, -, htotal⟩ := hread.source
  rw [path_nextWindow hwindow] at hpath
  refine ⟨⟨htype, hpath ▸ h.named, htotal, fun hanchored ↦ h.plain ?_, ?_⟩, hpath⟩
  · exact ⟨hanchored.1, hpath ▸ hanchored.2⟩
  · rw [(hread.next hnamed hwindow h.plain h.counted h.ends).1]
    exact not_endsBlank_next h.ends

end

/-- How many lines are left of a source that is read on. -/
def leftOf (review : ReviewPlan) (o : Observation) : ℕ :=
  if (nextWindow review o).isSome then ((o.totalLines.getD 0) - o.lineEnd).toNat else 0

section
variable {W : Type} {fs : FileSystem W} {meter : Meter W} {classify : Str → Confidentiality}
  {observer : RepoObserver} {snapshot : TakenSnapshot} {review : ReviewPlan} {files : Str → Bytes}
  {base next last : EvidenceBase} {answer : List Observation} {answers : List (List Observation)}
  {o r : Observation} (href : checkKnownOrUnknown .ref snapshot.ref = .ok ())
  (hcommit : checkKnownOrUnknown .commit snapshot.commit = .ok ())

include href hcommit

/-- **A round reads a source on**, if it reads it at all. -/
theorem ReadRound.advance (h : ReadRound classify observer snapshot review files base answer next)
    (ho : o ∈ base.observations) (hfollowed : Followed review (files o.path) o) :
    (answer.filter (·.sourceId = o.sourceId) = [] ∧ o ∈ next.observations) ∨
      ∃ r ∈ next.observations, answer.filter (·.sourceId = o.sourceId) = [r] ∧
        r.sourceId = o.sourceId ∧ r.path = o.path ∧ Followed review (files o.path) r ∧
        o.lineEnd < lineCount (files o.path) ∧
        r.lineEnd = min (lineCount (files o.path)) (o.lineEnd + DEFAULT_MAX_LINES) ∧
        (r.lineStart = o.lineEnd + 1 ∨
          r.lineStart ≤ o.lineEnd + 1 ∧ lineCount (files o.path) ≤ DEFAULT_MAX_LINES) := by
  refine (h.source ho).imp_right ?_
  rintro ⟨r, hanswer, hcurrent, hid, window, hwindow, hread⟩
  have hleft := hfollowed.isSome_iff.mp (Option.isSome_of_eq_some hwindow)
  have hnamed : Nameable (takenFor snapshot base.snapshot) window.path := by
    rw [path_nextWindow hwindow]
    exact nameable_of_mem href hcommit ho hfollowed.type
  obtain ⟨hfollowed', hpath⟩ := hfollowed.next hnamed hwindow hread
  obtain ⟨hend, hstart⟩ :=
    hread.next hnamed hwindow hfollowed.plain hfollowed.counted hfollowed.ends
  have hother : ¬ SameReading o r := by
    rintro ⟨-, -, hsame, -⟩
    have hmax : DEFAULT_MAX_LINES = 80 := rfl
    omega
  rw [if_neg hother] at hcurrent
  exact ⟨r, hcurrent, hanswer, hid, hpath, hfollowed', hleft, hend, hstart⟩

/-- **A run reads a source in pages.** -/
theorem RoundsOn.paged
    (h : RoundsOn fs meter classify observer snapshot review base answers last) :
    Stable fs observer review files base → ∀ o ∈ base.observations,
      Followed review (files o.path) o → ∃ o' ∈ last.observations, o'.sourceId = o.sourceId ∧
        o' = ((answers.flatten.filter (·.sourceId = o.sourceId)).getLast?).getD o ∧
        Followed review (files o.path) o' ∧
        Paged DEFAULT_MAX_LINES (lineCount (files o.path)) o.lineEnd
          ((answers.flatten.filter (·.sourceId = o.sourceId)).map fun v ↦ (v.lineStart, v.lineEnd))
          o'.lineEnd := by
  induction h with
  | done => exact fun _ o ho hfollowed ↦ ⟨o, ho, rfl, rfl, hfollowed, .stop⟩
  | @round base next last answer answers first rest ih =>
    intro hstable o ho hfollowed
    have hround : ReadRound classify observer snapshot review files base answer next :=
      first.round hstable
    rw [List.flatten_cons, List.filter_append]
    obtain ⟨hnone, hsame⟩ | ⟨r, hr, hone, hid, hpath, hfollowed', hleft, hend, hstart⟩ :=
      hround.advance href hcommit ho hfollowed
    · rw [hnone, List.nil_append]
      exact ih (hround.stable hstable) o hsame hfollowed
    · obtain ⟨o', ho', hid', hlast, hafter, hpaged⟩ :=
        ih (hround.stable hstable) r hr (hpath ▸ hfollowed')
      rw [hpath] at hafter hpaged
      rw [hid] at hid' hlast hpaged
      rw [hone, List.singleton_append]
      refine ⟨o', ho', hid', ?_, hafter, ?_⟩
      · rw [List.getLast?_cons]
        exact hlast
      · rw [hend] at hpaged
        rw [List.map_cons, hend]
        exact .page hleft hstart hpaged

omit href hcommit in
theorem Followed.leftOf_eq {bytes : Bytes} (h : Followed review bytes o) :
    (leftOf review o : ℤ) = lineCount bytes - o.lineEnd := by
  have hle := lineEnd_le h.counted
  by_cases hsome : (nextWindow review o).isSome
  · rw [leftOf, if_pos hsome, h.counted, Option.getD_some]
    omega
  · rw [leftOf, if_neg hsome]
    have hend := h.isSome_iff.not.mp hsome
    omega

section
variable (h : ReadRound classify observer snapshot review files base answer next)
  (hstable : Stable fs observer review files base)
  (hall : ∀ o ∈ base.observations, (nextWindow review o).isSome →
    ¬ IsAnchored review o ∧ ¬ EndsBlank (files o.path) o.lineEnd)

include h hstable hall

/-- Of a source that was read, fewer lines are left. -/
theorem ReadRound.reread (ho : o ∈ base.observations) (hr : r ∈ answer)
    (hid : r.sourceId = o.sourceId) : Followed review (files o.path) r ∧ r.path = o.path ∧
      leftOf review r < leftOf review o ∧
        Keyed.overlay (·.sourceId) SameReading answer o = r := by
  obtain ⟨o', ho', hid', window, hwindow, -⟩ := h.answers r hr
  obtain rfl := base.eq_of_sourceId ho ho' (hid.symm.trans hid')
  have hsome := Option.isSome_of_eq_some hwindow
  obtain ⟨hplain, hends⟩ := hall o ho hsome
  have hfollowed := followed_of_isSome hsome (hstable.counted o ho hsome) hplain hends
  obtain ⟨hnone, -⟩ | ⟨r', -, hone, -, hpath, hfollowed', hbefore, hend, -⟩ :=
    h.advance href hcommit ho hfollowed
  · exact absurd (decide_eq_true hid) (List.filter_eq_nil_iff.mp hnone r hr)
  · have hmem : r ∈ answer.filter (·.sourceId = o.sourceId) :=
      List.mem_filter.mpr ⟨hr, decide_eq_true hid⟩
    rw [hone, List.mem_singleton] at hmem
    subst hmem
    have hmax : DEFAULT_MAX_LINES = 80 := rfl
    have hleft := hfollowed.leftOf_eq
    have hleft' := hfollowed'.leftOf_eq
    have hother : ¬ SameReading o r := by
      rintro ⟨-, -, hsame, -⟩
      omega
    refine ⟨hfollowed', hpath, by omega, ?_⟩
    rw [Keyed.overlay_of_mem h.distinct hr hid, if_neg hother]

/-- In a round that reads something, fewer lines are left afterwards. -/
theorem ReadRound.left_lt (hroom : 1 ≤ observer.maxFilesPerRound) :
    (next.observations.map (leftOf review)).sum < (base.observations.map (leftOf review)).sum := by
  have hle : ∀ o ∈ base.observations,
      leftOf review (Keyed.overlay (·.sourceId) SameReading answer o) ≤ leftOf review o := by
    intro o ho
    obtain heq | ⟨r, hr, hid, -, -⟩ := current_eq_or answer o
    · rw [heq]
    · obtain ⟨-, -, hlt, heq⟩ := h.reread href hcommit hstable hall ho hr hid
      rw [heq]
      exact hlt.le
  obtain ⟨r, hr⟩ := List.exists_mem_of_ne_nil _ (h.reads hroom)
  obtain ⟨o, ho, hid, -⟩ := h.answers r hr
  obtain ⟨-, -, hlt, heq⟩ := h.reread href hcommit hstable hall ho hr hid
  rw [h.observations, List.map_map]
  refine List.sum_lt_sum _ _ hle ⟨o, ho, ?_⟩
  rw [Function.comp_apply, heq]
  exact hlt

/-- And no source has become one that ends on a blank line. -/
theorem ReadRound.all_next : ∀ o ∈ next.observations, (nextWindow review o).isSome →
    ¬ IsAnchored review o ∧ ¬ EndsBlank (files o.path) o.lineEnd := by
  intro o ho hsome
  rw [h.observations] at ho
  obtain ⟨o', ho', rfl⟩ := List.mem_map.mp ho
  obtain heq | ⟨r, hr, hid, -, -⟩ := current_eq_or answer o'
  · rw [heq] at hsome ⊢
    exact hall o' ho' hsome
  · obtain ⟨hfollowed, hpath, -, heq⟩ := h.reread href hcommit hstable hall ho' hr hid
    rw [heq, hpath]
    exact ⟨hfollowed.plain, hfollowed.ends⟩

end

/-- **A run of rounds ends**: there are no more of them than lines that are left. -/
theorem RoundsOn.length_le
    (h : RoundsOn fs meter classify observer snapshot review base answers last)
    (hroom : 1 ≤ observer.maxFilesPerRound) : Stable fs observer review files base →
    (∀ o ∈ base.observations, (nextWindow review o).isSome →
      ¬ IsAnchored review o ∧ ¬ EndsBlank (files o.path) o.lineEnd) →
    answers.length + (last.observations.map (leftOf review)).sum ≤
        (base.observations.map (leftOf review)).sum ∧
      Stable fs observer review files last ∧
      ∀ o ∈ last.observations, (nextWindow review o).isSome →
        ¬ IsAnchored review o ∧ ¬ EndsBlank (files o.path) o.lineEnd := by
  induction h with
  | done => exact fun hstable hall ↦ ⟨(Nat.zero_add _).le, hstable, hall⟩
  | round first _ ih =>
    intro hstable hall
    have hround := first.round hstable
    have hless := hround.left_lt href hcommit hstable hall hroom
    obtain ⟨hlength, hrest⟩ :=
      ih (hround.stable hstable) (hround.all_next href hcommit hstable hall)
    refine ⟨?_, hrest⟩
    rw [List.length_cons]
    omega

end

/-! ## The run as a whole

What a whole run of rounds comes to, and what it is allowed to stop for. -/

/-- What is claimed of the excerpts of a source, from one to another. -/
structure Covers (review : ReviewPlan) (bytes : Bytes) (o : Observation)
    (visits : List Observation) (o' : Observation) : Prop where
  /-- What was read is the excerpt. -/
  current : o' = (visits.getLast?).getD o
  /-- Every excerpt ends strictly later than the one before. -/
  later : ((o :: visits).map (·.lineEnd)).IsChain (· < ·)
  /-- Every line behind the first excerpt was visited exactly once, up to the end of the last. -/
  once : ∀ line, o.lineEnd < line →
    (visits.countP fun v ↦ v.lineStart ≤ line ∧ line ≤ v.lineEnd) =
      if line ≤ o'.lineEnd then 1 else 0
  /-- Nothing more is proposed once every line was visited, and not before. -/
  ended : nextWindow review o' = none ↔ o'.lineEnd = lineCount bytes

section
variable {W : Type} (fs : FileSystem W) (meter : Meter W) (classify : Str → Confidentiality)
  (observer : RepoObserver) (snapshot : TakenSnapshot) (review : ReviewPlan)

/-- Only the budget stops the observer, and what it answers is merged. -/
def OnlyBudgetStops (base : EvidenceBase) : Prop :=
  ∀ evaluation iteration report request patterns s, Asks base review evaluation →
    readAgainRequest base iteration evaluation report (some review) = .ok (request, patterns) →
      (∀ e, (observe fs meter classify observer snapshot request s).1 = .error e →
        BudgetRaises meter e ∨ e = .valueError ∧ Foreign fs observer request s.world) ∧
      ∀ answer, (observe fs meter classify observer snapshot request s).1 = .ok answer →
        ∃ next, ReadsOn fs meter classify observer snapshot review base answer next

/-- The source becomes what was read of it, in every run that starts from the base. -/
def SourceAdvances (files : Str → Bytes) (base : EvidenceBase) (o : Observation) : Prop :=
  ∀ answers last, RoundsOn fs meter classify observer snapshot review base answers last →
    ∃ o' ∈ last.observations, o'.sourceId = o.sourceId ∧ Covers review (files o.path) o
      (answers.flatten.filter (·.sourceId = o.sourceId)) o'

end

section
variable {W : Type} {fs : FileSystem W} {meter : Meter W} {classify : Str → Confidentiality}
  {observer : RepoObserver} {snapshot : TakenSnapshot} {review : ReviewPlan} {files : Str → Bytes}
  {base : EvidenceBase} {o : Observation}

/-- A source that does not end on a blank line of its own can be read at its head. -/
theorem headReads_of_isSome (href : checkKnownOrUnknown .ref snapshot.ref = .ok ())
    (hcommit : checkKnownOrUnknown .commit snapshot.commit = .ok ()) (ho : o ∈ base.observations)
    (hsome : (nextWindow review o).isSome) {bytes : Bytes}
    (hcounted : o.totalLines = some (lineCount bytes)) (hends : ¬ EndsBlank bytes o.lineEnd) :
    HeadReads classify observer (takenFor snapshot base.snapshot) o.path bytes := by
  have hend := lineEnd_nonneg o
  obtain ⟨htype, -, hleft, -⟩ := (isSome_nextWindow hcounted).mp hsome
  refine headReads (nameable_of_mem href hcommit ho htype) (by omega) fun hone ↦ hends ?_
  refine ⟨hone.2, ?_, .inr hone.1⟩
  rw [show DEFAULT_MAX_LINES = 80 from rfl]
  omega

section
variable {evaluation : AtlasEvaluation} {iteration : ℕ} {report : Option DriftReport}
  {request : ObservationRequest} {patterns : List Str} (hasks : Asks base review evaluation)
  (hrequest : readAgainRequest base iteration evaluation report (some review) =
    .ok (request, patterns))

include hasks hrequest

/-- Whatever the observer answers is merged. -/
theorem exists_next (hstable : Stable fs observer review files base) {s : Observing W}
    {answer : List Observation}
    (h : (observe fs meter classify observer snapshot request s).1 = .ok answer) :
    ∃ next, ReadsOn fs meter classify observer snapshot review base answer next := by
  obtain ⟨hwindows, hsnapshot, hpaths, hpatterns, hne⟩ := request_of_asks hasks hrequest
  have hreads := isAnswer_of_reads hwindows ((wp_observe_stable meter classify snapshot hstable s
    hwindows hsnapshot hpaths hpatterns hne).outcome.1 answer h)
  obtain ⟨next, hnext⟩ := adopted_mergedList hreads
  obtain ⟨hrefused, -⟩ | ⟨-, items, hitems, -, hmerged⟩ := merge_or_refuse base (answer.map some)
  · exact absurd hrefused hreads.not_refused
  · obtain rfl := List.map_injective_iff.mpr (Option.some_injective _) hitems
    exact ⟨next, evaluation, iteration, report, request, patterns, s, _, _, _, hasks, hrequest,
      run_eq_of_fst h, hmerged, hnext⟩

end

/-- The observer answers, as far as the budget goes. -/
theorem onlyBudgetStops (href : checkKnownOrUnknown .ref snapshot.ref = .ok ())
    (hcommit : checkKnownOrUnknown .commit snapshot.commit = .ok ())
    (hstable : Stable fs observer review files base)
    (hends : ∀ o ∈ base.observations, (nextWindow review o).isSome →
      ¬ EndsBlank (files o.path) o.lineEnd) :
    OnlyBudgetStops fs meter classify observer snapshot review base := by
  intro evaluation iteration report request patterns s hasks hrequest
  obtain ⟨hwindows, hsnapshot, hpaths, hpatterns, hne⟩ := request_of_asks hasks hrequest
  refine ⟨fun e he ↦ ?_, fun _ ↦ exists_next hasks hrequest hstable⟩
  obtain hraises | hforeign | ⟨o, ho, hpartial, hhead⟩ := (wp_observe_stable meter classify snapshot
    hstable s hwindows hsnapshot hpaths hpatterns hne).outcome.2 e he
  · exact .inl hraises
  · exact .inr hforeign
  · exact absurd (headReads_of_isSome href hcommit ho hpartial (hstable.counted o ho hpartial)
      (hends o ho hpartial)) hhead

/-- What was read in pages advances. -/
theorem covers_of_paged {bytes : Bytes} {visits : List Observation} {o' : Observation}
    (hcurrent : o' = (visits.getLast?).getD o) (hfollowed : Followed review bytes o')
    (h : Paged DEFAULT_MAX_LINES (lineCount bytes) o.lineEnd
      (visits.map fun v ↦ (v.lineStart, v.lineEnd)) o'.lineEnd) :
    Covers review bytes o visits o' where
  current := hcurrent
  later := by
    have hchain := h.later (by decide)
    rwa [List.map_map] at hchain
  once line hline := by
    rw [← h.once (by decide) (lineEnd_nonneg o) hline, List.countP_map]
    rfl
  ended := by
    have hle := lineEnd_le hfollowed.counted
    have hsome := hfollowed.isSome_iff
    rw [← Option.not_isSome_iff_eq_none, hsome]
    omega

end

/-- **Partial windows advance and cover.**  What is proposed can be asked for, whatever the base.
While the files do not change, every source that does not end on a window of one blank line is read
on, line after line; and where no source does, the rounds come to an end and only the budget stops
them. -/
theorem partialWindows_advance {W : Type} (fs : FileSystem W) (meter : Meter W)
    (classify : Str → Confidentiality) (observer : RepoObserver) (snapshot : TakenSnapshot)
    (review : ReviewPlan) (files : Str → Bytes) (hroom : 1 ≤ observer.maxFilesPerRound)
    (href : checkKnownOrUnknown .ref snapshot.ref = .ok ())
    (hcommit : checkKnownOrUnknown .commit snapshot.commit = .ok ()) :
    (∀ base, Proposes base review) ∧ ∀ base, Stable fs observer review files base →
      (∀ o ∈ base.observations, (nextWindow review o).isSome → ¬ IsAnchored review o →
        ¬ EndsBlank (files o.path) o.lineEnd →
          SourceAdvances fs meter classify observer snapshot review files base o) ∧
      ((∀ o ∈ base.observations, (nextWindow review o).isSome →
          ¬ IsAnchored review o ∧ ¬ EndsBlank (files o.path) o.lineEnd) →
        ∀ answers last, RoundsOn fs meter classify observer snapshot review base answers last →
          answers.length ≤ (base.observations.map (leftOf review)).sum ∧
            OnlyBudgetStops fs meter classify observer snapshot review last) := by
  refine ⟨fun base ↦ proposes base review, fun base hstable ↦ ⟨?_, ?_⟩⟩
  · intro o ho hsome hplain hends answers last hrounds
    obtain ⟨o', ho', hid, hcurrent, hfollowed, hpaged⟩ := hrounds.paged href hcommit hstable o ho
      (followed_of_isSome hsome (hstable.counted o ho hsome) hplain hends)
    exact ⟨o', ho', hid, covers_of_paged hcurrent hfollowed hpaged⟩
  · intro hall answers last hrounds
    obtain ⟨hlength, hstable', hall'⟩ := hrounds.length_le href hcommit hroom hstable hall
    exact ⟨by omega, onlyBudgetStops href hcommit hstable' fun o ho hsome ↦ (hall' o ho hsome).2⟩

/-! ## A file of 81 lines

A file with one line more than a window has.  Whether its last line is blank decides whether the
run advances, and the two cases are run here. -/

/-- A file of 81 lines, whose last line is blank or not. -/
def longReadme (blank : Bool) : Bytes :=
  utf8 ((List.replicate 80 (str "x\n")).flatten ++ if blank then str "\n" else str "y\n")

/-- The observation of its first 80 lines, as a first round makes it. -/
def longReadmeHead (blank : Bool) : ObservationFields where
  sourceId := ((deriveSourceId (str "s1") .localFile (str "README.md"))).getD []
  sourceType := .localFile
  path := str "README.md"
  collectedAt := noon.text
  contentSha256 := (sha256Text (readText (longReadme blank))).getD []
  excerpt := join [lf] (List.replicate 80 (str "x"))
  lineStart := 1
  lineEnd := 80
  snapshotId := str "s1"
  totalLines := some 81

theorem longReadmeHead_accepted : ∀ blank, (longReadmeHead blank).postInit = .ok () := by
  decide +kernel

/-- The base that holds it, and nothing else: what the next round starts from. -/
def longReadmeBase (blank : Bool) : EvidenceBase :=
  oneObservation ⟨longReadmeHead blank, longReadmeHead_accepted blank⟩

theorem readmeReview_named : isBlank (str "s1") = false := by decide

/-- A review of it, by a question that the file is to answer. -/
def readmeReview : ReviewPlan where
  snapshotId := str "s1"
  topic := UNKNOWN_TOPIC
  question := str "What is in it?"
  patterns := [str "README.md"]
  answering := []
  hasQuestion := by decide
  hasSnapshot := readmeReview_named
  bounded := by decide

/-- The details name windows to read, the only request that reads on in a file that was read before.
-/
def ActionDetails.asksWindows : ActionDetails → Bool
  | windows _ _ => true
  | _ => false

/-- The action to read on, as the evaluation of such a base gives it. -/
def readOnAction (blank : Bool) : Option NextAction :=
  nextActionOf [] { gaps := [] } [] (some (longReadmeBase blank)) (some readmeReview) [] true

/-- An evaluation that asks for it, and is otherwise empty. -/
def readOnEvaluation (blank : Bool) : AtlasEvaluation where
  qualityScore := 0
  passed := false
  metCriteria := []
  unmetCriteria := []
  missingSections := []
  requiresUserApproval := false
  shouldRetry := true
  retryIsPossible := true
  nextAction := readOnAction blank
  evidenceGaps := []
  unverifiedClaims := []
  evidenceCoverage := none
  citationChecks := []
  blockedBy := []

theorem readOnEvaluation_asks (blank : Bool) :
    Asks (longReadmeBase blank) readmeReview (readOnEvaluation blank) := by
  have hwindows : ∀ blank, (readOnAction blank).any (fun action ↦ action.details.asksWindows) =
      true := by decide
  specialize hwindows blank
  cases haction : readOnAction blank with
  | none =>
    rw [haction] at hwindows
    cases hwindows
  | some action =>
    rw [haction, Option.any_some] at hwindows
    cases hdetails : action.details with
    | windows windows question =>
      exact ⟨[], { gaps := [] }, [], [], true, action, windows, question, haction, haction,
        hdetails⟩
    | _ =>
      rw [hdetails] at hwindows
      cases hwindows

theorem longReadme_stable (blank : Bool) : Stable (readmeOnly (longReadme blank)) repoObserver
    readmeReview (fun _ ↦ longReadme blank) (longReadmeBase blank) := by
  have hfacts : ∀ blank,
      (isPresent (readmeOnly (longReadme blank)) (str "/repo") (str "README.md") ()).1 = .ok true ∧
      ((readmeOnly (longReadme blank)).resolveWithin (str "/repo") (str "README.md") ()).1 =
        .ok (str "/repo/README.md") ∧
      ((readmeOnly (longReadme blank)).readBytes (str "/repo") (str "README.md") ()).1 =
        .ok (longReadme blank) ∧
      (readmeOnly (longReadme blank)).refusal (some 262144) (longReadme blank) = none ∧
        lineCount (longReadme blank) = 81 := by decide +kernel
  obtain ⟨hhere, htarget, hserves, hsmall, hcount⟩ := hfacts blank
  constructor
  · intro o ho _
    obtain rfl := List.mem_singleton.mp ho
    refine ⟨fun _ ↦ hhere, fun _ _ target resolved hresolve hroot ↦ ?_, fun _ ↦ hserves, hsmall⟩
    obtain rfl := Except.ok.inj (htarget.symm.trans hresolve)
    obtain rfl := Except.ok.inj hroot
    exact (by decide : relativeTo (str "/repo") (str "/repo/README.md") =
      some (str "README.md"))
  · intro o ho _
    obtain rfl := List.mem_singleton.mp ho
    rw [hcount]
    rfl

/-- What the observer answers to the request to read on. -/
def longReadmeAnswer (blank : Bool) : Except Exc (List Observation) := do
  let (request, _) ← readAgainRequest (longReadmeBase blank) 1 (readOnEvaluation blank) none
    (some readmeReview)
  (observe (readmeOnly (longReadme blank)) stillMeter (fun _ ↦ .unknown) repoObserver bareSnapshot
    request aMinute).1

/-- A round over the file, and the lines that are read. -/
theorem longReadme_round (blank : Bool) : ∃ answer next,
    ReadsOn (readmeOnly (longReadme blank)) stillMeter (fun _ ↦ .unknown) repoObserver bareSnapshot
      readmeReview (longReadmeBase blank) answer next ∧
    answer.map (fun r ↦ (r.sourceId, r.lineEnd)) =
      [((longReadmeHead blank).sourceId, if blank then 80 else 81)] := by
  have hlines : ∀ blank, (longReadmeAnswer blank).toOption.any (fun answer ↦
      answer.map (fun r ↦ (r.sourceId, r.lineEnd)) =
        [((longReadmeHead blank).sourceId, if blank then 80 else 81)]) = true := by decide +kernel
  specialize hlines blank
  obtain ⟨request, hrequest, -⟩ := (proposes (longReadmeBase blank) readmeReview).requested 1
    (readOnEvaluation blank) none (readOnEvaluation_asks blank)
  cases hanswer : longReadmeAnswer blank with
  | error e =>
    rw [hanswer] at hlines
    cases hlines
  | ok answer =>
    rw [hanswer] at hlines
    rw [longReadmeAnswer, hrequest] at hanswer
    obtain ⟨next, hnext⟩ := exists_next (readOnEvaluation_asks blank) hrequest
      (longReadme_stable blank) hanswer
    exact ⟨answer, next, hnext, of_decide_eq_true hlines⟩

/-- The observation of the head, in the base. -/
def longReadmeSource (blank : Bool) : Observation :=
  ⟨longReadmeHead blank, longReadmeHead_accepted blank⟩

theorem longReadmeSource_isSome : ∀ blank,
    (nextWindow readmeReview (longReadmeSource blank)).isSome = true ∧
      ¬ IsAnchored readmeReview (longReadmeSource blank) := by decide

/-- Where line 81 is blank, the head is read again, and nothing has advanced. -/
theorem blankEnd_back : Stable (readmeOnly (longReadme true)) repoObserver readmeReview
      (fun _ ↦ longReadme true) (longReadmeBase true) ∧
    ∃ o ∈ (longReadmeBase true).observations, (nextWindow readmeReview o).isSome ∧
      ¬ IsAnchored readmeReview o ∧
      ¬ SourceAdvances (readmeOnly (longReadme true)) stillMeter (fun _ ↦ .unknown) repoObserver
        bareSnapshot readmeReview (fun _ ↦ longReadme true) (longReadmeBase true) o := by
  refine ⟨longReadme_stable true, longReadmeSource true, List.mem_singleton_self _,
    (longReadmeSource_isSome true).1, (longReadmeSource_isSome true).2, fun hadvances ↦ ?_⟩
  obtain ⟨answer, next, hround, hanswer⟩ := longReadme_round true
  obtain ⟨r, rfl, hr⟩ := List.map_eq_singleton_iff.mp hanswer
  obtain ⟨hid, hend⟩ := Prod.mk.inj hr
  obtain ⟨o', -, -, hadvanced⟩ := hadvances [[r]] next (.round hround .done)
  have hlater := hadvanced.later
  have hvisits : [[r]].flatten.filter (·.sourceId = (longReadmeSource true).sourceId) = [r] :=
    List.filter_eq_self.mpr fun v hv ↦ by
      rw [List.mem_singleton.mp hv]
      exact decide_eq_true hid
  rw [hvisits, List.map_cons, List.map_singleton, List.isChain_pair, hend] at hlater
  exact absurd hlater (by decide)

/-- Where it is not, the file is read to its end. -/
theorem partialWindows_advance_readme : ∃ answers last, RoundsOn (readmeOnly (longReadme false))
      stillMeter (fun _ ↦ .unknown) repoObserver bareSnapshot readmeReview (longReadmeBase false)
      answers last ∧ answers.length = 1 ∧
    ∃ o' ∈ last.observations, Covers readmeReview (longReadme false) (longReadmeSource false)
      (answers.flatten.filter (·.sourceId = (longReadmeSource false).sourceId)) o' := by
  obtain ⟨answer, next, hround, -⟩ := longReadme_round false
  have hends : ¬ EndsBlank (longReadme false) 80 := fun h ↦
    absurd h.1 (by decide)
  have hadvance := (partialWindows_advance (readmeOnly (longReadme false)) stillMeter
    (fun _ ↦ .unknown) repoObserver bareSnapshot readmeReview (fun _ ↦ longReadme false) (by decide)
    (by decide) (by decide)).2 (longReadmeBase false) (longReadme_stable false)
  obtain ⟨o', ho', -, hadvanced⟩ := hadvance.1 (longReadmeSource false) (List.mem_singleton_self _)
    (longReadmeSource_isSome false).1 (longReadmeSource_isSome false).2 hends [answer] next
    (.round hround .done)
  exact ⟨[answer], next, .round hround .done, rfl, o', ho', hadvanced⟩

end AtlasCore
