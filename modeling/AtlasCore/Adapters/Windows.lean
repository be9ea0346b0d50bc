import AtlasCore.Adapters.FilesystemRepo
import AtlasCore.Controller.Round

/-!
# Windows

A source that was read in part is read on in windows.  The evaluator proposes the lines that follow
the excerpt, and the controller asks for them: every window that is proposed can be asked for
(`proposes`).

Whether it becomes the next excerpt is another matter.  A window of one blank line is refused, and
the observer, which takes the refusal for a file that changed, reads the head of the file again.
Where that does not happen, the next excerpt follows the last one (`ReadOf.next`).
-/

set_option autoImplicit false

namespace AtlasCore

open Py

/-! ## What is proposed

What `next_partial_windows` proposes, said without its loop: for which sources a window is asked
for, and which one. -/

/-- The changelog is read at the heading of its newest release, and not line after line. -/
def IsAnchored (review : ReviewPlan) (o : Observation) : Prop :=
  review.topic = str "release_changelog" ∧ o.path = str "CHANGELOG.md"

instance (review : ReviewPlan) (o : Observation) : Decidable (IsAnchored review o) :=
  inferInstanceAs (Decidable (_ ∧ _))

/-- The action that `_next_action` chose over the base is to read on. -/
def Asks (base : EvidenceBase) (review : ReviewPlan) (evaluation : AtlasEvaluation) : Prop :=
  ∃ gaps evidence sources waitingOn offTopic action windows question,
    nextActionOf gaps evidence sources (some base) (some review) waitingOn offTopic = some action ∧
      evaluation.nextAction = some action ∧ action.details = .windows windows question

/-- What is claimed of the windows that are proposed over a base, before they are read. -/
structure Proposes (base : EvidenceBase) (review : ReviewPlan) : Prop where
  /-- `LineWindow` accepts them. -/
  accepted : ∀ w ∈ nextPartialWindows (some base) review, w.isLineWindow = true
  apart : ((nextPartialWindows (some base) review).map (·.path)).Nodup
  /-- They start after an excerpt of the base, the changelog excepted. -/
  follows : ∀ w ∈ nextPartialWindows (some base) review, ∃ o ∈ base.observations,
    w.path = o.path ∧ (IsAnchored review o ∨ w.anchorPrefix = none ∧ w.lineStart = o.lineEnd + 1)
  /-- `read_again` asks for them. -/
  requested : ∀ iteration evaluation report, Asks base review evaluation → ∃ request,
    readAgainRequest base iteration evaluation report (some review) = .ok (request, []) ∧
      request.lineWindows.map (·.toWindowRequest) = nextPartialWindows (some base) review

section
variable {base : EvidenceBase} {review : ReviewPlan} {o : Observation} {w : WindowRequest}
  {evaluation : AtlasEvaluation}

/-- The window over an observation, where there is one. -/
theorem nextWindow_eq_some (h : nextWindow review o = some w) : o.sourceType = .localFile ∧
    ∃ total, o.totalLines = some total ∧ o.lineEnd < total ∧
      (IsAnchored review o ∧ w = ⟨o.path, 1, DEFAULT_MAX_LINES, some (str "## v")⟩ ∨
        ¬ IsAnchored review o ∧
          w = ⟨o.path, o.lineEnd + 1, min DEFAULT_MAX_LINES (total - o.lineEnd), none⟩) := by
  rw [nextWindow] at h
  cases htotal : o.totalLines with
  | none =>
    rw [htotal] at h
    cases h
  | some total =>
    rw [htotal] at h
    dsimp only at h
    split_ifs at h with hnone hanchored
    all_goals
      simp only [not_or, not_not, not_le, ge_iff_le] at hnone
      refine ⟨hnone.1, total, rfl, hnone.2.2.1, ?_⟩
    · exact .inl ⟨hanchored, (Option.some.inj h).symm⟩
    · exact .inr ⟨hanchored, (Option.some.inj h).symm⟩

/-- Whether there is a window is decided by the type, the path and the lines that are left. -/
theorem isSome_nextWindow {total : ℤ} (htotal : o.totalLines = some total) :
    (nextWindow review o).isSome ↔ o.sourceType = .localFile ∧ total ≠ 0 ∧ o.lineEnd < total ∧
      review.patterns.any (fnmatch o.path) = true := by
  rw [nextWindow, htotal]
  dsimp only
  split_ifs with hnone hanchored
  all_goals
    simp only [not_or, not_not, not_le, ge_iff_le, Bool.not_eq_true'] at hnone
    simp only [Option.isSome_none, Option.isSome_some, Bool.false_eq_true, false_iff, true_iff]
  · rintro ⟨hlocal, hne, hleft, hpattern⟩
    rcases hnone with h | h | h | h
    · exact h hlocal
    · exact hne h
    · omega
    · rw [h] at hpattern
      cases hpattern
  · exact ⟨hnone.1, hnone.2.1, hnone.2.2.1, Bool.not_eq_false _ ▸ hnone.2.2.2⟩
  · exact ⟨hnone.1, hnone.2.1, hnone.2.2.1, Bool.not_eq_false _ ▸ hnone.2.2.2⟩

theorem path_nextWindow (h : nextWindow review o = some w) : w.path = o.path := by
  obtain ⟨-, _, -, -, ⟨-, rfl⟩ | ⟨-, rfl⟩⟩ := nextWindow_eq_some h
  · rfl
  · rfl

theorem lineEnd_nonneg (o : Observation) : 0 ≤ o.lineEnd := by
  rcases o.lineRange_ok with ⟨-, h, h'⟩ | ⟨-, -, h⟩
  · omega
  · omega

theorem isLineWindow_nextWindow (h : nextWindow review o = some w) : w.isLineWindow = true := by
  have hpath : isBlank o.path = false := by
    have haccepted := o.accepted
    simp only [ObservationFields.postInit, andThen_eq_ok, refuseIf_eq_ok] at haccepted
    exact haccepted.1
  have hend := lineEnd_nonneg o
  obtain ⟨-, total, -, hleft, ⟨-, rfl⟩ | ⟨-, rfl⟩⟩ := nextWindow_eq_some h
  · simp only [WindowRequest.isLineWindow, hpath]
    rfl
  · have hmax : DEFAULT_MAX_LINES = 80 := rfl
    simp only [WindowRequest.isLineWindow, hpath, Bool.not_false, Bool.true_and, Bool.and_true,
      Bool.and_eq_true, decide_eq_true_eq]
    omega

/-- Two sources of a base that are read in part have two paths. -/
theorem eq_of_path {o' : Observation} (ho : o ∈ base.observations) (ho' : o' ∈ base.observations)
    (hlocal : o.sourceType = .localFile) (hlocal' : o'.sourceType = .localFile)
    (hpath : o.path = o'.path) : o = o' := by
  refine base.eq_of_sourceId ho ho' (Option.some.inj ?_)
  rw [← o.deriveSourceId_eq, ← o'.deriveSourceId_eq, hlocal, hlocal', hpath,
    base.sameSnapshot o ho, base.sameSnapshot o' ho']

theorem nodup_nextPartialWindows :
    ((nextPartialWindows (some base) review).map (·.path)).Nodup := by
  rw [nextPartialWindows, List.Nodup, List.pairwise_map, List.pairwise_filterMap]
  refine (List.pairwise_map.mp base.distinct).imp_of_mem fun ho ho' hne w hw w' hw' hpath ↦ ?_
  rw [path_nextWindow hw, path_nextWindow hw'] at hpath
  refine hne (congrArg (·.sourceId) (eq_of_path ho ho' ?_ ?_ hpath))
  · exact (nextWindow_eq_some hw).1
  · exact (nextWindow_eq_some hw').1

/-- An action with windows asks for what is proposed, and there is something to ask for. -/
theorem windows_of_chooseAction {gaps : List Section} {evidence : Evidence} {sources : List Str}
    {waitingOn : List Str} {offTopic : Bool} {windows : List WindowRequest} {question : Str}
    (h : (chooseAction gaps evidence sources (some base) (some review) waitingOn offTopic).2.2 =
      .windows windows question) :
    (chooseAction gaps evidence sources (some base) (some review) waitingOn offTopic).1 =
        .observeAgain ∧
      windows = nextPartialWindows (some base) review ∧ windows ≠ [] := by
  revert h
  unfold chooseAction
  extract_lets question ids refuted expected unsound broken asked
  -- every other action has other details
  split_ifs with _ _ _ _ _ _ _ hread
  all_goals intro h
  any_goals cases h
  · obtain ⟨rfl, -⟩ := ActionDetails.windows.inj h
    refine ⟨rfl, ?_, hread.1⟩
    cases offTopic with
    | false => exact absurd rfl hread.1
    | true => rfl
  · cases offTopic <;> cases h

theorem Asks.exists_action (h : Asks base review evaluation) : ∃ action question,
    evaluation.nextAction = some action ∧ action.kind = .observeAgain ∧
      action.details = .windows (nextPartialWindows (some base) review) question ∧
        nextPartialWindows (some base) review ≠ [] := by
  obtain ⟨gaps, evidence, sources, waitingOn, offTopic, action, windows, question, hchosen, hnext,
    hdetails⟩ := h
  unfold nextActionOf at hchosen
  extract_lets codes at hchosen
  split_ifs at hchosen
  obtain rfl := Option.some.inj hchosen
  obtain ⟨hkind, rfl, hne⟩ := windows_of_chooseAction hdetails
  exact ⟨_, question, hnext, hkind, hdetails, hne⟩

/-- What `LineWindow` accepts is built. -/
theorem mapM_build : ∀ (windows : List WindowRequest), (∀ w ∈ windows, w.isLineWindow = true) →
    ∃ built, windows.mapM WindowRequest.build = .ok built ∧
      built.map (·.toWindowRequest) = windows
  | [], _ => ⟨[], rfl, rfl⟩
  | w :: rest, h => by
    obtain ⟨built, hbuilt, hsame⟩ := mapM_build rest fun v hv ↦ h v (List.mem_cons_of_mem _ hv)
    have hw : w.build = .ok ⟨w, h w List.mem_cons_self⟩ := dif_pos _
    refine ⟨⟨w, h w List.mem_cons_self⟩ :: built, ?_, ?_⟩
    · rw [List.mapM_cons, hw, hbuilt]
      rfl
    · rw [List.map_cons, hsame]

/-- A request to read on names neither paths nor patterns. -/
theorem readAgainRequest_windows (iteration : ℕ) (report : Option DriftReport)
    (h : Asks base review evaluation) : ∃ request,
      readAgainRequest base iteration evaluation report (some review) = .ok (request, []) ∧
        request.lineWindows.map (·.toWindowRequest) = nextPartialWindows (some base) review ∧
        request.snapshot = base.snapshot ∧ request.paths = [] ∧ request.patterns = [] := by
  obtain ⟨action, question, hnext, hkind, hdetails, hne⟩ := h.exists_action
  obtain ⟨built, hbuilt, hsame⟩ := mapM_build (nextPartialWindows (some base) review) fun w hw ↦ by
    obtain ⟨o, -, ho⟩ := List.mem_filterMap.mp hw
    exact isLineWindow_nextWindow ho
  have hpaths : (built.map (·.path)).Nodup := by
    rw [show built.map (·.path) = (built.map (·.toWindowRequest)).map (·.path) from
      (List.map_map).symm, hsame]
    exact nodup_nextPartialWindows
  have hsome : built.isEmpty = false := by
    rw [List.isEmpty_eq_false_iff]
    rintro rfl
    exact hne hsame.symm
  rw [readAgainRequest, hnext]
  simp only [Option.map_some, Option.getD_some, hdetails, ActionDetails.lineWindows,
    ActionDetails.patterns]
  rw [hbuilt]
  have hrequest : ∀ {blockedBy claims : List Str} {question : Str}, ∃ request,
      requestFrom base.snapshot base.observations blockedBy claims iteration [] built built.isEmpty
        question = .ok request ∧ request.lineWindows = built ∧ request.snapshot = base.snapshot ∧
          request.paths = [] ∧ request.patterns = [] := by
    intro blockedBy claims question
    rw [hsome]
    exact ⟨_, dif_pos hpaths, rfl, rfl, rfl, rfl⟩
  obtain ⟨request, hbuild, rfl, hfields⟩ := hrequest
  exact ⟨request, congrArg (· >>= fun request ↦ pure (request, [])) hbuild, hsame, hfields⟩

/-- A request to read on is for the windows over the base, and for nothing else. -/
theorem request_of_asks {iteration : ℕ} {report : Option DriftReport} {request : ObservationRequest}
    {patterns : List Str} (hasks : Asks base review evaluation)
    (hrequest : readAgainRequest base iteration evaluation report (some review) =
      .ok (request, patterns)) : request.lineWindows.map (·.toWindowRequest) =
      nextPartialWindows (some base) review ∧
    request.snapshot = base.snapshot ∧ request.paths = [] ∧ request.patterns = [] ∧
      request.lineWindows ≠ [] := by
  obtain ⟨request', hrequest', hwindows, hsnapshot, hpaths, hpatterns⟩ :=
    readAgainRequest_windows iteration report hasks
  obtain rfl := (Prod.mk.inj (Except.ok.inj (hrequest.symm.trans hrequest'))).1
  obtain ⟨-, -, -, -, -, hsome⟩ := hasks.exists_action
  refine ⟨hwindows, hsnapshot, hpaths, hpatterns, fun hnil ↦ ?_⟩
  rw [hnil] at hwindows
  exact hsome hwindows.symm

/-- **Whatever is proposed can be asked for.** -/
theorem proposes (base : EvidenceBase) (review : ReviewPlan) : Proposes base review where
  accepted w hw := by
    obtain ⟨o, -, ho⟩ := List.mem_filterMap.mp hw
    exact isLineWindow_nextWindow ho
  apart := nodup_nextPartialWindows
  follows w hw := by
    obtain ⟨o, ho, hwindow⟩ := List.mem_filterMap.mp hw
    refine ⟨o, ho, path_nextWindow hwindow, ?_⟩
    obtain ⟨-, _, -, -, ⟨hanchored, -⟩ | ⟨-, rfl⟩⟩ := nextWindow_eq_some hwindow
    · exact .inl hanchored
    · exact .inr ⟨rfl, rfl⟩
  requested iteration evaluation report h := by
    obtain ⟨request, hrequest, hwindows, -⟩ := readAgainRequest_windows iteration report h
    exact ⟨request, hrequest, hwindows⟩

end

/-! ## What is read

What reading a proposed window gives on a file that has not changed, and what is read instead
where the window cannot be. -/

/-- The file at a path does not change: it is there, its path leads to itself, these bytes are what
is read of it, and the limit of the observer, for which there is a buffer, does not refuse them. -/
structure UnchangedFile {W : Type} (fs : FileSystem W) (observer : RepoObserver) (root path : Str)
    (bytes : Bytes) : Prop where
  here : ∀ w, (isPresent fs observer.repoPath path w).1 = .ok true
  itself : ∀ v w target resolved, (fs.resolveWithin root path v).1 = .ok target →
    (fs.resolve root w).1 = .ok resolved → relativeTo resolved target = some path
  serves : ∀ w, fs.Serves root path w bytes
  small : fs.refusal (some observer.maxBytesPerFile) bytes = none

section
variable (classify : Str → Confidentiality) (observer : RepoObserver) (taken : TakenSnapshot)

/-- What is collected for a window of a content. -/
def collectedWindow (window : LineWindow) (now : Moment) (content : Str) : Except Exc Observation :=
  collected classify taken window.path (readArgs observer [] (window.path, some window)) now content

/-- What is collected where the window is refused. -/
def collectedHead (path : Str) (now : Moment) (content : Str) : Except Exc Observation :=
  collected classify taken path (headArgs observer) now content

/-- The observation that answers a window: that of the window, or else that of the head. -/
def ReadOf (content : Str) (window : LineWindow) (o : Observation) : Prop :=
  (∃ now, collectedWindow classify observer taken window now content = .ok o) ∨
    (∃ now e, collectedWindow classify observer taken window now content = .error e) ∧
      ∃ now, collectedHead classify observer taken window.path now content = .ok o

end

section
variable {W : Type} {fs : FileSystem W} {meter : Meter W} {classify : Str → Confidentiality}
  {observer : RepoObserver} {taken : TakenSnapshot} {path : Str} {bytes : Bytes} {w : W}

/-- What is read below a root has been resolved below it. -/
theorem resolves_of_serves {disk : Disk W} {root : Str} (h : disk.Serves root path w bytes) :
    (∃ resolved v, disk.resolve root w = (.ok resolved, v)) ∧
      ∃ target v, disk.resolveWithin root path w = (.ok target, v) := by
  have hread := run_eq_of_fst h
  rw [Disk.readBytes] at hread
  obtain ⟨target, v, htarget, -⟩ := Eff.bind_eq_ok.mp hread
  refine ⟨?_, target, v, htarget⟩
  rw [Disk.resolveWithin] at htarget
  obtain ⟨resolved, u, hresolved, -⟩ := Eff.bind_eq_ok.mp htarget
  exact ⟨resolved, u, hresolved⟩

/-- Reading a file that does not change is collecting from its content. -/
theorem collectSafely_run (h : UnchangedFile fs observer taken.root path bytes) {args : CollectArgs}
    (hsize : args.maxBytes = some observer.maxBytesPerFile) (w : W) : ∃ now v,
      collectSafely fs classify taken path args w =
        (collected classify taken path args now (readText bytes), v) := by
  obtain ⟨-, target, v, htarget⟩ := resolves_of_serves (h.serves w)
  obtain ⟨⟨resolved, u, hresolved⟩, -⟩ := resolves_of_serves (h.serves v)
  have hwithin : fs.refusal args.maxBytes bytes = none := by
    rw [hsize]
    exact h.small
  have hread := run_eq_of_fst (readWithin_of_serves (h.serves u) hwithin)
  have hitself := h.itself w v target resolved (congrArg Prod.fst htarget)
    (congrArg Prod.fst hresolved)
  rw [collectSafely, Eff.bind_of_ok htarget, Eff.bind_of_ok hresolved, hitself]
  show ∃ now v, collectObservation _ _ _ _ _ u = _
  rw [collectObservation, Eff.bind_of_ok hread, Eff.read_bind_run]
  have hvalue : ∀ (x : Except Exc Observation) (v : W), Eff.ofExcept x v = (x, v) := by
    rintro (e | o) v <;> rfl
  exact ⟨_, _, hvalue _ _⟩

/-- One window of a file that does not change. -/
theorem wp_tryWindow {window : LineWindow}
    (h : UnchangedFile fs observer taken.root window.path bytes) (s : Observing W) :
    (tryCollect fs classify observer taken [] (window.path, some window)).wp
      (fun o _ ↦ ∃ o', o = some o' ∧ ReadOf classify observer taken (readText bytes) window o')
      (fun e _ ↦ ∃ now, collectedHead classify observer taken window.path now (readText bytes) =
        .error e) s := by
  have hrun : ∀ (args : CollectArgs), args.maxBytes = some observer.maxBytesPerFile →
      ∀ {Q : Observation → Observing W → Prop} {E : Exc → Observing W → Prop} (t : Observing W),
        (∀ now v, ∀ o, collected classify taken window.path args now (readText bytes) = .ok o →
          Q o v) →
        (∀ now v, ∀ e, collected classify taken window.path args now (readText bytes) = .error e →
          E e v) →
        (readOnce fs classify taken window.path args).wp Q E t := by
    intro args hargs Q E t hok herror
    rw [readOnce]
    refine Eff.wp_bind.mpr (Eff.wp_update.mpr (Eff.wp_zoom.mpr ?_))
    obtain ⟨now, v, hv⟩ := collectSafely_run h hargs t.world
    rw [Eff.wp, hv]
    cases hcollected : collected classify taken window.path args now (readText bytes) with
    | ok o => exact hok now _ o hcollected
    | error e => exact herror now _ e hcollected
  rw [tryCollect, Eff.wp_handle]
  refine Eff.wp_bind.mpr (hrun _ (maxBytes_readArgs _ _) s (fun now v o ho ↦ ?_)
    fun now v e he ↦ ?_)
  · exact ⟨o, rfl, .inl ⟨now, ho⟩⟩
  · refine Eff.wp_ite.mpr ⟨fun _ ↦ ?_, fun hother ↦ absurd (isValueError_of_collected he) hother⟩
    refine Eff.wp_bind.mpr (hrun _ rfl v (fun now' v' o ho ↦ ?_) fun now' v' e' he' ↦ ⟨now', he'⟩)
    exact ⟨o, rfl, .inr ⟨⟨now, e, he⟩, now', ho⟩⟩

section
variable {root : Str} {files : Str → Bytes}

/-- The paths of files that do not change are there. -/
theorem wp_presentWindows_unchangedFile : ∀ {windows : List LineWindow} (s : W),
    (∀ window ∈ windows, UnchangedFile fs observer root window.path (files window.path)) →
    (presentWindows fs observer.repoPath windows).wp (fun r _ ↦ r = windows) (fun _ _ ↦ False) s
  | [], s, _ => rfl
  | window :: rest, s, h => by
    have hhere := run_eq_of_fst ((h window List.mem_cons_self).here s)
    have hpresent : present fs observer.repoPath [window.path] s =
        (.ok [window.path], (isPresent fs observer.repoPath window.path s).2) := by
      rw [present, Eff.bind_of_ok hhere]
      rfl
    rw [presentWindows, Eff.wp_bind, Eff.wp, hpresent]
    refine Eff.wp_bind.mpr ((wp_presentWindows_unchangedFile _ fun other hother ↦
      h other (List.mem_cons_of_mem _ hother)).mono (fun r v hr ↦ ?_) fun _ _ ↦ False.elim)
    rw [hr]
    exact Eff.wp_pure.mpr (if_pos (List.mem_singleton_self _))

/-- A request of windows alone comes to those windows, and nothing else. -/
theorem wp_resolveRequest_windows {request : ObservationRequest} (s : W)
    (hpaths : request.paths = []) (hpatterns : request.patterns = [])
    (hne : request.lineWindows ≠ [])
    (h : ∀ window ∈ request.lineWindows,
      UnchangedFile fs observer root window.path (files window.path)) :
    (resolveRequest fs request observer.repoPath).wp
      (fun r _ ↦ r = (request.lineWindows.map fun window ↦ (window.path, some window), []))
      (fun _ _ ↦ False) s := by
  rw [resolveRequest, hpaths, hpatterns]
  refine Eff.wp_bind.mpr ((wp_presentWindows_unchangedFile s h).mono ?_ fun _ _ ↦ False.elim)
  rintro _ v rfl
  refine Eff.wp_ite.mpr ⟨fun hnone ↦ absurd hnone.2.2 hne, fun _ ↦ ?_⟩
  exact Eff.wp_pure.mpr (congrArg (·, [])
    ((List.append_nil _).trans (List.append_nil _)))

end

/-- Nothing is asked of the budget but that it raises what it raises. -/
theorem wp_onBudget (s : Observing W) :
    (onBudgetOf (RunBudget.check meter)).wp (fun _ _ ↦ True) (fun e _ ↦ BudgetRaises meter e) s ∧
      (onBudgetOf (RunBudget.reserveTool meter)).wp (fun _ _ ↦ True)
        (fun e _ ↦ BudgetRaises meter e) s := by
  have hkeeps : ∀ {α : Type} (m : Eff Exc W α), Eff.Keeps (fun _ ↦ True) m := fun m w _ ↦
    Eff.wp_true m w
  constructor
  · exact Eff.wp_zoom.mpr ((wp_check (hkeeps _) (hkeeps _) trivial).mono (fun _ _ _ ↦ trivial)
      fun _ _ h ↦ h.1)
  · exact Eff.wp_zoom.mpr ((wp_reserveTool (hkeeps _) (hkeeps _) trivial).mono (fun _ _ _ ↦ trivial)
      fun _ _ h ↦ h.1)

/-- The head of the file is an excerpt. -/
def HeadReads (classify : Str → Confidentiality) (observer : RepoObserver) (taken : TakenSnapshot)
    (path : Str) (bytes : Bytes) : Prop :=
  ∀ now, ∃ o, collectedHead classify observer taken path now (readText bytes) = .ok o

section
variable {files : Str → Bytes}

/-- **The loop over windows** answers the first of them, as many as a round may have. -/
theorem wp_observeWindows : ∀ (windows : List LineWindow) (observations : List Observation)
    (seen : List Str) (s : Observing W),
    (∀ window ∈ windows, UnchangedFile fs observer taken.root window.path (files window.path)) →
    (windows.map (·.path)).Nodup → (∀ window ∈ windows, window.path ∉ seen) →
    (observeAll fs meter classify observer taken [] (windows.map fun window ↦
        (window.path, some window)) observations seen).wp
      (fun r _ ↦ ∃ more, r = observations ++ more ∧ List.Forall₂
        (fun window o ↦ ReadOf classify observer taken (readText (files window.path)) window o)
        (windows.take (observer.maxFilesPerRound - observations.length)) more)
      (fun e _ ↦ BudgetRaises meter e ∨ ∃ window ∈ windows,
        ¬ HeadReads classify observer taken window.path (files window.path)) s
  | [], observations, seen, s, _, _, _ => by
    refine ⟨[], (List.append_nil _).symm, ?_⟩
    rw [List.take_nil]
    exact .nil
  | window :: rest, observations, seen, s, hfiles, hnodup, hnew => by
    rw [List.map_cons, List.nodup_cons] at hnodup
    rw [List.map_cons, observeAll, if_neg (hnew window List.mem_cons_self)]
    refine Eff.wp_ite.mpr ⟨fun hfull ↦ ?_, fun hroom ↦ ?_⟩
    · refine ⟨[], (List.append_nil _).symm, ?_⟩
      rw [Nat.sub_eq_zero_of_le hfull, List.take_zero]
      exact .nil
    refine Eff.wp_bind.mpr ((wp_onBudget s).1.mono (fun _ t _ ↦ ?_) fun _ _ h ↦ .inl h)
    refine Eff.wp_bind.mpr ((wp_onBudget t).2.mono (fun _ u _ ↦ ?_) fun _ _ h ↦ .inl h)
    refine Eff.wp_bind.mpr ((wp_tryWindow (hfiles window List.mem_cons_self) u).mono ?_ ?_)
    · rintro _ v ⟨o, rfl, hread⟩
      refine Eff.wp_bind.mpr ((wp_onBudget v).1.mono (fun _ r _ ↦ ?_) fun _ _ h ↦ .inl h)
      refine (wp_observeWindows rest (observations ++ [o]) (window.path :: seen) r
        (fun other hother ↦ hfiles other (List.mem_cons_of_mem _ hother)) hnodup.2
        (fun other hother ↦ ?_)).mono ?_ ?_
      · refine List.not_mem_cons_of_ne_of_not_mem (fun heq ↦ hnodup.1 ?_)
          (hnew other (List.mem_cons_of_mem _ hother))
        rw [← heq]
        exact List.mem_map_of_mem hother
      · rintro answer - ⟨more, rfl, hmore⟩
        refine ⟨o :: more, by rw [List.append_assoc, List.singleton_append], ?_⟩
        obtain ⟨left, hleft⟩ : ∃ left, observer.maxFilesPerRound - observations.length = left + 1 :=
          ⟨observer.maxFilesPerRound - observations.length - 1, by omega⟩
        rw [hleft, List.take_succ_cons]
        refine .cons hread ?_
        rw [List.length_append, List.length_singleton, ← Nat.sub_sub, hleft,
          Nat.add_sub_cancel] at hmore
        exact hmore
      · rintro e - (hraises | ⟨other, hother, hhead⟩)
        · exact .inl hraises
        · exact .inr ⟨other, List.mem_cons_of_mem _ hother, hhead⟩
    · rintro e - ⟨now, he⟩
      refine .inr ⟨window, List.mem_cons_self, fun hhead ↦ ?_⟩
      obtain ⟨o, ho⟩ := hhead now
      rw [ho] at he
      cases he

/-- **What the observer makes of a request to read on.** -/
theorem wp_observe_windows {snapshot : TakenSnapshot} {request : ObservationRequest}
    (s : Observing W) (hpaths : request.paths = []) (hpatterns : request.patterns = [])
    (hne : request.lineWindows ≠ [])
    (hfiles : ∀ window ∈ request.lineWindows,
      UnchangedFile fs observer request.snapshot.root window.path (files window.path)) :
    (observe fs meter classify observer snapshot request).wp
      (fun answer _ ↦ List.Forall₂ (fun window o ↦
          ReadOf classify observer (boundTo snapshot request) (readText (files window.path)) window
            o)
        (request.lineWindows.take observer.maxFilesPerRound) answer)
      (fun e _ ↦ BudgetRaises meter e ∨ e = .valueError ∧ Foreign fs observer request s.world ∨
        ∃ window ∈ request.lineWindows, ¬ HeadReads classify observer (boundTo snapshot request)
          window.path (files window.path)) s := by
  obtain ⟨window, hwindow⟩ := List.exists_mem_of_ne_nil _ hne
  obtain ⟨⟨root, v, hroot⟩, -⟩ := resolves_of_serves ((hfiles window hwindow).serves s.world)
  have hresolve : onDisk (fs.resolve request.snapshot.root) s = (.ok root, { s with world := v }) :=
    Eff.zoom_eq hroot
  rw [observe, Eff.wp_bind, Eff.wp, hresolve]
  refine Eff.wp_ite.mpr ⟨fun hforeign ↦ .inr (.inl ⟨rfl, root, congrArg Prod.fst hroot, hforeign⟩),
    fun hsame ↦ ?_⟩
  rw [not_not.mp hsame]
  refine Eff.wp_bind.mpr (Eff.wp_zoom.mpr ((wp_resolveRequest_windows v hpaths hpatterns hne
    hfiles).mono ?_ fun _ _ ↦ False.elim))
  rintro _ u rfl
  refine (wp_observeWindows request.lineWindows [] [] _ hfiles request.onePerPath
    fun _ _ ↦ List.not_mem_nil).mono ?_ ?_
  · rintro answer - ⟨more, rfl, hmore⟩
    exact hmore
  · rintro e - (hraises | hhead)
    · exact .inl hraises
    · exact .inr (.inr hhead)

end

end

/-! ## A source, read on

What the windows that follow one another have read of a file, and where the last of them ends. -/

/-- The number of lines of a file, as `str.splitlines` counts them in its decoded text. -/
def lineCount (bytes : Bytes) : ℤ := (splitlines (readText bytes)).length

/-- The last window over the lines that are left is one blank line, and the head of the file is that
line or ends before it. -/
def EndsBlank (bytes : Bytes) (lineEnd : ℤ) : Prop :=
  (splitlines (readText bytes)).getLast? = some [] ∧
    (lineCount bytes - lineEnd) % DEFAULT_MAX_LINES = 1 ∧
      (DEFAULT_MAX_LINES < lineCount bytes ∨ lineCount bytes = 1)

section
variable {classify : Str → Confidentiality} {observer : RepoObserver} {taken : TakenSnapshot}
  {path : Str} {bytes : Bytes} {window : LineWindow} {review : ReviewPlan} {o r : Observation}

/-- What is collected from a content has its path, its snapshot and its lines. -/
theorem collected_source {args : CollectArgs} {now : Moment}
    (h : collected classify taken path args now (readText bytes) = .ok r) :
    r.sourceType = .localFile ∧ r.path = path ∧ r.snapshotId = taken.snapshotId ∧
      r.totalLines = some (lineCount bytes) ∧ ∃ start window,
        windowStart args (readText bytes) = .ok start ∧
        excerptOf (readText bytes) args.maxLines start = .ok window ∧
          r.lineStart = window.2.1 ∧ r.lineEnd = window.2.2 := by
  obtain ⟨start, hstart, h⟩ := Except.bind_eq_ok.mp h
  obtain ⟨window, hwindow, h⟩ := Except.bind_eq_ok.mp h
  rw [sha256Text_readText] at h
  obtain ⟨sourceId, hfields⟩ := createOrRaise_eq_ok h
  rw [hfields]
  exact ⟨rfl, rfl, rfl, rfl, start, window, hstart, hwindow, rfl, rfl⟩

/-- Whichever lines were read, they are of the source. -/
theorem ReadOf.source (h : ReadOf classify observer taken (readText bytes) window r) :
    r.sourceType = .localFile ∧ r.path = window.path ∧ r.snapshotId = taken.snapshotId ∧
      r.totalLines = some (lineCount bytes) := by
  rcases h with ⟨now, h⟩ | ⟨-, now, h⟩
  · obtain ⟨htype, hpath, hsnapshot, htotal, -⟩ := collected_source h
    exact ⟨htype, hpath, hsnapshot, htotal⟩
  · obtain ⟨htype, hpath, hsnapshot, htotal, -⟩ := collected_source h
    exact ⟨htype, hpath, hsnapshot, htotal⟩

section
variable {content : Str} {start maxLines : ℤ}

/-- A window that holds one blank line ends where it starts. -/
theorem lastLine_of_blank (hstart : 1 ≤ start) (hmax : 1 ≤ maxLines)
    (hend : start ≤ (splitlines content).length) (h : linesIn content start maxLines = [[]]) :
    lastLine content start maxLines = start := by
  have hlength := length_linesIn hstart hmax hend
  rw [h, List.length_singleton] at hlength
  omega

/-- If it is on the last line, then this is blank. -/
theorem getLast_of_blank (hmax : 1 ≤ maxLines) (hstart : 1 ≤ start)
    (hend : start = (splitlines content).length) (h : linesIn content start maxLines = [[]]) :
    (splitlines content).getLast? = some [] := by
  rw [linesIn_eq hstart hmax, List.take_of_length_le (by omega)] at h
  rw [← List.take_append_drop (start - 1).toNat (splitlines content), h]
  exact List.getLast?_concat

end

/-- After a window the same one is the last, if any is. -/
theorem not_endsBlank_next {lineEnd : ℤ} (h : ¬ EndsBlank bytes lineEnd) :
    ¬ EndsBlank bytes (min (lineCount bytes) (lineEnd + DEFAULT_MAX_LINES)) := by
  rintro ⟨hblank, hrest, hlong⟩
  refine h ⟨hblank, ?_, hlong⟩
  rw [show DEFAULT_MAX_LINES = 80 from rfl] at hrest ⊢
  omega

/-- The head is read, unless the file is one blank line. -/
theorem headReads (hnamed : Nameable taken path) (hlines : 1 ≤ lineCount bytes)
    (hblank : ¬ (lineCount bytes = 1 ∧ (splitlines (readText bytes)).getLast? = some [])) :
    HeadReads classify observer taken path bytes := by
  intro now
  have hmax : (1 : ℤ) ≤ DEFAULT_MAX_LINES := by decide
  have hshows : Shows (headArgs observer) (readText bytes) := by
    refine ⟨1, rfl, .inl ⟨le_refl 1, hlines⟩, fun hwindow ↦ hblank ?_⟩
    have hlast := lastLine_of_blank (le_refl 1) hmax hlines hwindow
    have hone : lineCount bytes = 1 := by
      rw [lastLine, ← lineCount, show DEFAULT_MAX_LINES = 80 from rfl] at hlast
      omega
    exact ⟨hone, getLast_of_blank hmax (le_refl 1) hone.symm hwindow⟩
  obtain ⟨o, ho, -⟩ := collected_of_shows classify now hnamed hmax hshows
  exact ⟨o, ho⟩

/-- **The next excerpt.**  It ends as far as a window reaches, and it starts after the last one
unless a window holds the whole file. -/
theorem ReadOf.next (hnamed : Nameable taken window.path)
    (h : ReadOf classify observer taken (readText bytes) window r)
    (hwindow : nextWindow review o = some window.toWindowRequest)
    (hplain : ¬ IsAnchored review o) (htotal : o.totalLines = some (lineCount bytes))
    (hends : ¬ EndsBlank bytes o.lineEnd) :
    r.lineEnd = min (lineCount bytes) (o.lineEnd + DEFAULT_MAX_LINES) ∧
      (r.lineStart = o.lineEnd + 1 ∨
        r.lineStart ≤ o.lineEnd + 1 ∧ lineCount bytes ≤ DEFAULT_MAX_LINES) := by
  have hmax : DEFAULT_MAX_LINES = 80 := rfl
  have hend := lineEnd_nonneg o
  obtain ⟨-, total, htotal', hleft, ⟨hanchored, -⟩ | ⟨-, hfields⟩⟩ := nextWindow_eq_some hwindow
  · exact absurd hanchored hplain
  obtain rfl := Option.some.inj (htotal.symm.trans htotal')
  have hstart : window.lineStart = o.lineEnd + 1 := congrArg (·.lineStart) hfields
  have hlines : window.maxLines = min DEFAULT_MAX_LINES (lineCount bytes - o.lineEnd) :=
    congrArg (·.maxLines) hfields
  have hanchor : window.anchorPrefix = none := congrArg (·.anchorPrefix) hfields
  have hfrom : windowStart (readArgs observer [] (window.path, some window)) (readText bytes) =
      .ok (o.lineEnd + 1) := by
    have hanchored : (readArgs observer [] (window.path, some window)).anchorPrefix = none :=
      hanchor
    rw [windowStart, hanchored, ← hstart]
    rfl
  -- what is read from a line on, whichever arguments asked for it
  have hread : ∀ {args : CollectArgs} {now : Moment} {start : ℤ},
      collected classify taken window.path args now (readText bytes) = .ok r →
      windowStart args (readText bytes) = .ok start → 1 ≤ start → 1 ≤ args.maxLines →
      start ≤ lineCount bytes →
        r.lineStart = start ∧ r.lineEnd = min (lineCount bytes) (start + args.maxLines - 1) := by
    intro args now start hcollected hargs hone hmaxLines hinside
    obtain ⟨-, -, -, -, _, _, hargs', hexcerpt, hfirst, hlast⟩ := collected_source hcollected
    obtain rfl := Except.ok.inj (hargs.symm.trans hargs')
    obtain rfl := Except.ok.inj ((excerptOf_eq hone hmaxLines hinside).symm.trans hexcerpt)
    exact ⟨hfirst, hlast⟩
  rcases h with ⟨now, h⟩ | ⟨⟨now, e, he⟩, now', h⟩
  · obtain ⟨hfirst, hlast⟩ : r.lineStart = o.lineEnd + 1 ∧
        r.lineEnd = min (lineCount bytes) (o.lineEnd + 1 + window.maxLines - 1) :=
      hread h hfrom (by omega) (show 1 ≤ window.maxLines by omega) (by omega)
    exact ⟨by omega, .inl hfirst⟩
  · -- the window was refused, so it is the last line, and the file is not longer than the head
    have hone : 1 ≤ window.maxLines := by
      rw [hlines]
      omega
    have hblank : linesIn (readText bytes) (o.lineEnd + 1) window.maxLines = [[]] := by
      by_contra hshows
      have hwithin : Shows (readArgs observer [] (window.path, some window)) (readText bytes) :=
        ⟨o.lineEnd + 1, hfrom, .inl ⟨by omega, show o.lineEnd + 1 ≤ lineCount bytes by omega⟩,
          hshows⟩
      obtain ⟨o', ho', -⟩ := collected_of_shows classify now hnamed hone hwithin
      rw [collectedWindow, ho'] at he
      cases he
    have hlast := lastLine_of_blank (by omega) hone (show o.lineEnd + 1 ≤ lineCount bytes by omega)
      hblank
    rw [lastLine, ← lineCount, hlines] at hlast
    have hrest : lineCount bytes = o.lineEnd + 1 := by omega
    have hshort : lineCount bytes ≤ DEFAULT_MAX_LINES := by
      by_contra hlong
      refine hends ⟨getLast_of_blank hone (by omega) hrest.symm hblank, ?_, .inl (by omega)⟩
      rw [hrest, hmax]
      omega
    obtain ⟨hfirst, hhead⟩ : r.lineStart = 1 ∧
        r.lineEnd = min (lineCount bytes) (1 + DEFAULT_MAX_LINES - 1) :=
      hread h rfl (le_refl 1) (show 1 ≤ DEFAULT_MAX_LINES by omega) (by omega)
    exact ⟨by omega, .inr ⟨by omega, hshort⟩⟩

end

end AtlasCore
