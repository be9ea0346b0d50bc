import AtlasCore.HostApi.Observers

/-!
# What an observer says about a run

Both observers look at the lock first and at the log second.  That keeps a run that *stops* between
the two from being called interrupted.  It does nothing about a run that *starts* between the two:
the lock was free, and then the log has a history without a stop.

`interrupted_sound` is what the order of checks does achieve.  If no `run_started` is appended while
an observer stands between a probe that found the lock free and its next read, then "interrupted" is
only said of a run that has ended without `run_stopped`.  The invariant gives each observer what it
may rely on wherever it stands (`StatusOk`, `FollowOk`); a step of the run keeps that because an
ended run does nothing more, and a step of another observer because it touches neither the run nor
the log.
-/

set_option autoImplicit false
set_option linter.unusedSectionVars false

namespace AtlasCore

namespace HostApi

section

variable {I K : Type*} [DecidableEq I] [DecidableEq K]

/-! ## What each observer may rely on

The invariant of the lock, the run and the observers together. -/

/-- What a call of `run_status` knows about the run, wherever it is. -/
def StatusOk (run : RunPhase) (log : List EventKind) : StatusPhase → Prop
  | .probed false => log ≠ [] → run = .ended
  | .read false => run = .ended
  | .answered .interrupted => run = .ended ∧ .runStopped ∉ log
  | _ => True

/-- What a call of `follow_events` knows about the run, wherever it is. -/
def FollowOk (run : RunPhase) (log : List EventKind) : FollowPhase → Prop
  | .polling seen => .runStopped ∉ log.take seen ∧ seen ≤ log.length
  | .probed seen alive =>
    (.runStopped ∉ log.take seen ∧ seen ≤ log.length) ∧
      (alive = false → log ≠ [] → run = .ended)
  | .read alive records =>
    (.runStopped ∉ records ∧ records <+: log) ∧
      (alive = false → records ≠ [] → run = .ended ∧ records = log)
  | .interrupted => run = .ended ∧ .runStopped ∉ log
  | .returned => True
  | .timedOut => True

/-- An observer stands between a probe that found the lock free and its next read. -/
def StatusPhase.betweenFree (ph : StatusPhase) : Prop := ph = .probed false

/-- An observer stands between a probe that found the lock free and its next read. -/
def FollowPhase.betweenFree (ph : FollowPhase) : Prop := ∃ seen, ph = .probed seen false

/-- What an observer knows survives a step of the run: an ended run does nothing more, and a log
that was not begun when the lock was free is not begun before the read. -/
theorem StatusOk.mono {run run' : RunPhase} {log log' : List EventKind} {ph : StatusPhase}
    (h : StatusOk run log ph) (hend : run = .ended → run' = .ended ∧ log' = log)
    (hnew : ph.betweenFree → log = [] → log' ≠ [] → run' = .ended) : StatusOk run' log' ph := by
  match ph with
  | .probed false =>
    intro hne
    by_cases hl : log = []
    · exact hnew rfl hl hne
    · exact (hend (h hl)).1
  | .read false => exact (hend h).1
  | .answered .interrupted =>
    obtain ⟨hrun, hlog⟩ := hend h.1
    exact ⟨hrun, by rw [hlog]; exact h.2⟩
  | .asking => trivial
  | .probed true => trivial
  | .read true => trivial
  | .answered .notFound => trivial
  | .answered .running => trivial
  | .answered .finished => trivial
  | .raised => trivial

theorem FollowOk.mono {run run' : RunPhase} {log log' : List EventKind} {ph : FollowPhase}
    (h : FollowOk run log ph) (hend : run = .ended → run' = .ended ∧ log' = log)
    (hnew : ph.betweenFree → log = [] → log' ≠ [] → run' = .ended) (hlog : log <+: log') :
    FollowOk run' log' ph := by
  have htake : ∀ {seen}, (EventKind.runStopped ∉ log.take seen ∧ seen ≤ log.length) →
      EventKind.runStopped ∉ log'.take seen ∧ seen ≤ log'.length := by
    rintro seen ⟨hno, hle⟩
    obtain ⟨t, rfl⟩ := hlog
    rw [List.take_append_of_le_length hle, List.length_append]
    exact ⟨hno, by omega⟩
  match ph with
  | .polling seen => exact htake h
  | .probed seen alive =>
    refine ⟨htake h.1, fun ha hne ↦ ?_⟩
    by_cases hl : log = []
    · exact hnew ⟨seen, by rw [ha]⟩ hl hne
    · exact (hend (h.2 ha hl)).1
  | .read alive records =>
    refine ⟨⟨h.1.1, h.1.2.trans hlog⟩, fun ha hne ↦ ?_⟩
    obtain ⟨hrun, hrec⟩ := h.2 ha hne
    exact ⟨(hend hrun).1, by rw [(hend hrun).2]; exact hrec⟩
  | .interrupted =>
    obtain ⟨hrun, hl⟩ := hend h.1
    exact ⟨hrun, by rw [hl]; exact h.2⟩
  | .returned => trivial
  | .timedOut => trivial

/-- The invariant of a run and its observers. -/
structure HostInv (s : HostState I K) : Prop where
  lockInv : LockInv s.lock
  /-- Before it has the lock, and right after, the run has written nothing. -/
  log_nil : s.run = .waiting ∨ s.run = .locked → s.log = []
  /-- A run that has started has written. -/
  log_ne_nil : s.run = .started → s.log ≠ []
  /-- From the lock to the end, the run holds it. -/
  holds : s.run = .locked ∨ s.run = .started ∨ s.run = .stopped → s.lock.writer () = .holding
  /-- Before and after, it does not. -/
  free : s.run = .waiting ∨ s.run = .ended → s.lock.writer () ≠ .holding
  /-- Without a lock file there was no run. -/
  no_file : s.lock.lockFile = false → s.run = .waiting ∧ s.lock.writer () = .idle
  status : ∀ i, StatusOk s.run s.log (s.status i)
  follow : ∀ k, FollowOk s.run s.log (s.follow k)

theorem hostInv_init : HostInv (hostInit : HostState I K) where
  lockInv := lockInv_init
  log_nil := fun _ ↦ rfl
  log_ne_nil := fun h ↦ absurd h (by simp [hostInit])
  holds := fun h ↦ absurd h (by simp [hostInit])
  free := fun _ ↦ by simp [hostInit, lockInit]
  no_file := fun _ ↦ ⟨rfl, rfl⟩
  status := fun _ ↦ trivial
  follow := fun _ ↦ ⟨by simp, Nat.zero_le _⟩

/-- **A probe that finds the lock free is right**: a run that has written has ended. -/
theorem HostInv.free_is_ended {s : HostState I K} (h : HostInv s) {p : I ⊕ K} {call : ProbeCall}
    {lock : LockState Unit (I ⊕ K)} (hstep : lockStep s.lock (probeAction p call) = some lock)
    (hfree : isLockedReturns s.lock (probeAction p call) = some false) (hlog : s.log ≠ []) :
    s.run = .ended := by
  have hno : s.run = .waiting ∨ s.run = .ended := by
    cases call with
    | openLock =>
      simp only [probeAction, isLockedReturns] at hfree
      split at hfree
      · exact absurd hfree (by simp)
      · rename_i hfile
        exact .inl (h.no_file (by simpa using hfile)).1
    | flock =>
      simp only [probeAction, isLockedReturns] at hfree
      split at hfree <;> exact absurd hfree (by simp)
    | unlock =>
      simp only [probeAction, lockStep, Option.ite_none_right_eq_some] at hstep
      have hw := (h.lockInv.inside hstep.1).2
      cases hr : s.run with
      | waiting => exact .inl rfl
      | ended => exact .inr rfl
      | locked => exact absurd ⟨(), h.holds (.inl hr)⟩ hw
      | started => exact absurd ⟨(), h.holds (.inr (.inl hr))⟩ hw
      | stopped => exact absurd ⟨(), h.holds (.inr (.inr hr))⟩ hw
  rcases hno with hw | he
  · exact absurd (h.log_nil (.inl hw)) hlog
  · exact he

/-! ## The condition, and the steps

What must not happen between a probe and the next read, and what each step keeps if it does not. -/

/-- The condition: `run_started` is not appended while an observer stands between a probe that found
the lock free and its next read. -/
def QuietStart (s : HostState I K) : HostAction I K → Prop
  | .appendStarted => (∀ i, ¬ (s.status i).betweenFree) ∧ ∀ k, ¬ (s.follow k).betweenFree
  | _ => True

/-- A step of an observer leaves the run and its log alone. -/
theorem HostInv.observe {s : HostState I K} (h : HostInv s) {lock : LockState Unit (I ⊕ K)}
    (hl : LockInv lock) (hw : lock.writer = s.lock.writer) (hf : lock.lockFile = s.lock.lockFile)
    {status : I → StatusPhase} {follow : K → FollowPhase}
    (hs : ∀ i, StatusOk s.run s.log (status i)) (hk : ∀ k, FollowOk s.run s.log (follow k)) :
    HostInv { s with lock := lock, status := status, follow := follow } where
  lockInv := hl
  log_nil := h.log_nil
  log_ne_nil := h.log_ne_nil
  holds := fun hr ↦ by simp only [hw]; exact h.holds hr
  free := fun hr ↦ by simp only [hw]; exact h.free hr
  no_file := fun hn ↦ by simp only [hw]; exact h.no_file (by rw [← hf]; exact hn)
  status := hs
  follow := hk

theorem HostInv.update_status {s : HostState I K} (h : HostInv s) {i : I} {ph : StatusPhase}
    (hp : StatusOk s.run s.log ph) :
      ∀ j, StatusOk s.run s.log (Function.update s.status i ph j) := by
  intro j
  by_cases hj : j = i
  · subst hj; rw [Function.update_self]; exact hp
  · rw [Function.update_of_ne hj]; exact h.status j

theorem HostInv.update_follow {s : HostState I K} (h : HostInv s) {k : K} {ph : FollowPhase}
    (hp : FollowOk s.run s.log ph) :
      ∀ j, FollowOk s.run s.log (Function.update s.follow k ph j) := by
  intro j
  by_cases hj : j = k
  · subst hj; rw [Function.update_self]; exact hp
  · rw [Function.update_of_ne hj]; exact h.follow j

theorem statusOk_afterInspect {log : List EventKind} {run : RunPhase} {running : Bool}
    (h : StatusOk run log (.read running)) :
    StatusOk run log (statusAfterInspect running log) := by
  rw [statusAfterInspect, inspectRun]
  split_ifs with hv
  · cases running with
    | true =>
      simp only [statusState]
      split <;> trivial
    | false =>
      simp only [statusState]
      split
      · trivial
      · rename_i hstop
        exact ⟨h, by simpa using hstop⟩
  · trivial

theorem followOk_afterRead {log : List EventKind} {run : RunPhase} {seen : ℕ} {alive : Bool}
    (h : FollowOk run log (.probed seen alive)) :
    FollowOk run log (followAfterRead seen alive log) := by
  rw [followAfterRead]
  split_ifs with hs
  · trivial
  · refine ⟨⟨?_, List.prefix_refl log⟩, fun ha hne ↦ ⟨h.2 ha hne, rfl⟩⟩
    intro hm
    rw [← List.take_append_drop seen log, List.mem_append] at hm
    exact hm.elim h.1.1 hs

theorem followOk_afterCheck {log records : List EventKind} {run : RunPhase}
    {alive lockFile deadline : Bool} (h : FollowOk run log (.read alive records)) :
    FollowOk run log (followAfterCheck alive records lockFile deadline) := by
  rw [followAfterCheck]
  split_ifs with hi hd
  · obtain ⟨hrun, hrec⟩ := h.2 hi.2.1 hi.1
    exact ⟨hrun, by rw [← hrec]; exact h.1.1⟩
  · trivial
  · obtain ⟨t, rfl⟩ := h.1.2
    exact ⟨by rw [List.take_left']; exact h.1.1; rfl, by rw [List.length_append]; omega⟩

/-- A step of the run: what it must bring about for the invariant to stand, given what the observers
may rely on. -/
theorem HostInv.advance {s : HostState I K} (h : HostInv s) {lock : LockState Unit (I ⊕ K)}
    {run : RunPhase} {log : List EventKind} (hl : LockInv lock)
    (hnil : run = .waiting ∨ run = .locked → log = []) (hne : run = .started → log ≠ [])
    (hholds : run = .locked ∨ run = .started ∨ run = .stopped → lock.writer () = .holding)
    (hfree : run = .waiting ∨ run = .ended → lock.writer () ≠ .holding)
    (hfile : lock.lockFile = false → run = .waiting ∧ lock.writer () = .idle)
    (hgrow : s.log <+: log) (hend : s.run ≠ .ended)
    (hnew : (∀ i, (s.status i).betweenFree → s.log = [] → log ≠ [] → run = .ended) ∧
      ∀ k, (s.follow k).betweenFree → s.log = [] → log ≠ [] → run = .ended) :
    HostInv { s with lock := lock, run := run, log := log } where
  lockInv := hl
  log_nil := hnil
  log_ne_nil := hne
  holds := hholds
  free := hfree
  no_file := hfile
  status := fun i ↦ (h.status i).mono (fun he ↦ absurd he hend) (hnew.1 i)
  follow := fun k ↦ (h.follow k).mono (fun he ↦ absurd he hend) (hnew.2 k) hgrow

/-- A log that is not begun by the step begins for nobody. -/
theorem not_begun {s : HostState I K} {log : List EventKind} {run : RunPhase}
    (h : s.log = [] → log = []) :
    (∀ i, (s.status i).betweenFree → s.log = [] → log ≠ [] → run = .ended) ∧
      ∀ k, (s.follow k).betweenFree → s.log = [] → log ≠ [] → run = .ended :=
  ⟨fun _ _ hl hne ↦ absurd (h hl) hne, fun _ _ hl hne ↦ absurd (h hl) hne⟩

theorem HostInv.lockFile_eq {s : HostState I K} (h : HostInv s)
    (hw : s.run ≠ .waiting ∨ s.lock.writer () ≠ .idle) : s.lock.lockFile = true := by
  by_contra hf
  obtain ⟨h1, h2⟩ := h.no_file (by simpa using hf)
  exact hw.elim (fun hr ↦ hr h1) fun hi ↦ hi h2

/-- Every step that meets the condition keeps the invariant. -/
theorem hostInv_step {s s' : HostState I K} {a : HostAction I K} (h : HostInv s)
    (hq : QuietStart s a) (hs : hostStep s a = some s') : HostInv s' := by
  cases a with
  | openLock =>
    simp only [hostStep, Option.ite_none_right_eq_some] at hs
    obtain ⟨hrun, hs⟩ := hs
    obtain ⟨lock, hl, rfl⟩ := Option.map_eq_some_iff.mp hs
    have hlock := lockInv_step h.lockInv hl
    simp only [lockStep, Option.ite_none_right_eq_some, Option.some.injEq] at hl
    obtain ⟨-, rfl⟩ := hl
    exact h.advance hlock h.log_nil h.log_ne_nil (by simp [hrun]) (by simp) (by simp)
      (List.prefix_refl _) (by simp [hrun]) (not_begun id)
  | acquire =>
    simp only [hostStep, Option.ite_none_right_eq_some] at hs
    obtain ⟨hrun, hs⟩ := hs
    obtain ⟨lock, hl, rfl⟩ := Option.map_eq_some_iff.mp hs
    have hlock := lockInv_step h.lockInv hl
    have hlog := h.log_nil (.inl hrun)
    simp only [lockStep, Option.ite_none_right_eq_some] at hl
    obtain ⟨hopened, hl⟩ := hl
    have hfile := h.lockFile_eq (.inr (by simp [hopened]))
    split at hl
    · rename_i hnone
      rw [Option.some.injEq] at hl
      subst hl
      simp only [acquireRefused, hnone, Option.isSome_none, Bool.false_eq_true, if_false]
      exact h.advance hlock (fun _ ↦ hlog) (by simp) (by simp) (by simp) (by simp [hfile])
        (List.prefix_refl _) (by simp [hrun]) (not_begun id)
    · rename_i hsome
      have href : acquireRefused s.lock (.flock ()) = true := by simp [acquireRefused, hsome]
      rw [Option.some.injEq] at hl
      subst hl
      simp only [href, if_true]
      exact h.advance hlock (by simp) (by simp) (by simp) (by simp) (by simp [hfile])
        (List.prefix_refl _) (by simp [hrun]) (not_begun id)
  | appendStarted =>
    simp only [hostStep, Option.ite_none_right_eq_some, Option.some.injEq] at hs
    obtain ⟨hrun, rfl⟩ := hs
    have hholds := h.holds (.inl hrun)
    have hfile := h.lockFile_eq (.inl (by simp [hrun]))
    exact h.advance h.lockInv (by simp) (by simp) (fun _ ↦ hholds) (by simp) (by simp [hfile])
      (List.prefix_append _ _) (by simp [hrun])
      ⟨fun i hb ↦ absurd hb (hq.1 i), fun k hb ↦ absurd hb (hq.2 k)⟩
  | append kind =>
    simp only [hostStep, Option.ite_none_right_eq_some, Option.some.injEq] at hs
    obtain ⟨⟨hrun, -⟩, rfl⟩ := hs
    have hholds := h.holds (.inr (.inl hrun))
    have hfile := h.lockFile_eq (.inl (by simp [hrun]))
    exact h.advance h.lockInv (by simp [hrun]) (by simp) (fun _ ↦ hholds) (by simp [hrun])
      (by simp [hfile]) (List.prefix_append _ _) (by simp [hrun])
      (not_begun fun hl ↦ absurd hl (h.log_ne_nil hrun))
  | appendStopped =>
    simp only [hostStep, Option.ite_none_right_eq_some, Option.some.injEq] at hs
    obtain ⟨hrun, rfl⟩ := hs
    have hholds := h.holds (.inr (.inl hrun))
    have hfile := h.lockFile_eq (.inl (by simp [hrun]))
    exact h.advance h.lockInv (by simp) (by simp) (fun _ ↦ hholds) (by simp) (by simp [hfile])
      (List.prefix_append _ _) (by simp [hrun])
      (not_begun fun hl ↦ absurd hl (h.log_ne_nil hrun))
  | release =>
    simp only [hostStep, Option.ite_none_left_eq_some] at hs
    obtain ⟨hrun, hs⟩ := hs
    obtain ⟨lock, hl, rfl⟩ := Option.map_eq_some_iff.mp hs
    have hlock := lockInv_step h.lockInv hl
    simp only [lockStep] at hl
    split at hl
    · exact absurd hl (by simp)
    · rename_i hopened
      have hfile := h.lockFile_eq (.inr (by simp [hopened]))
      rw [Option.some.injEq] at hl
      subst hl
      exact h.advance hlock (by simp) (by simp) (by simp) (by simp) (by simp [hfile])
        (List.prefix_refl _) hrun (not_begun id)
    · rename_i hholding
      have hfile := h.lockFile_eq (.inr (by simp [hholding]))
      rw [Option.some.injEq] at hl
      subst hl
      exact h.advance hlock (by simp) (by simp) (by simp) (by simp) (by simp [hfile])
        (List.prefix_refl _) hrun (not_begun id)
  | statusProbe i call =>
    simp only [hostStep, Option.ite_none_right_eq_some] at hs
    obtain ⟨-, hs⟩ := hs
    obtain ⟨lock, hl, rfl⟩ := Option.map_eq_some_iff.mp hs
    obtain ⟨hw, hf⟩ := probe_frame hl
    refine h.observe (lockInv_step h.lockInv hl) hw hf (h.update_status ?_) h.follow
    rcases hret : isLockedReturns s.lock (probeAction (.inl i) call) with _ | locked
    · trivial
    · cases locked
      · exact h.free_is_ended hl hret
      · trivial
  | statusRead i =>
    simp only [hostStep] at hs
    split at hs
    · rename_i running hph
      rw [Option.some.injEq] at hs
      subst hs
      have hi := h.status i
      rw [hph] at hi
      refine h.observe h.lockInv rfl rfl (h.update_status ?_) h.follow
      rw [statusAfterRead]
      split_ifs with hl
      · cases running <;> trivial
      · cases running with
        | true => trivial
        | false => exact hi hl
    · exact absurd hs (by simp)
  | statusInspect i =>
    simp only [hostStep] at hs
    split at hs
    · rename_i running hph
      rw [Option.some.injEq] at hs
      subst hs
      have hi := h.status i
      rw [hph] at hi
      exact h.observe h.lockInv rfl rfl (h.update_status (statusOk_afterInspect hi)) h.follow
    · exact absurd hs (by simp)
  | followProbe k call =>
    simp only [hostStep] at hs
    split at hs
    · rename_i seen hph
      obtain ⟨lock, hl, rfl⟩ := Option.map_eq_some_iff.mp hs
      obtain ⟨hw, hf⟩ := probe_frame hl
      have hk := h.follow k
      rw [hph] at hk
      refine h.observe (lockInv_step h.lockInv hl) hw hf h.status (h.update_follow ?_)
      rcases hret : isLockedReturns s.lock (probeAction (.inr k) call) with _ | locked
      · exact hk
      · cases locked
        · exact ⟨hk, fun _ ↦ h.free_is_ended hl hret⟩
        · exact ⟨hk, fun ha ↦ absurd ha (by simp)⟩
    · exact absurd hs (by simp)
  | followRead k =>
    simp only [hostStep] at hs
    split at hs
    · rename_i seen alive hph
      rw [Option.some.injEq] at hs
      subst hs
      have hk := h.follow k
      rw [hph] at hk
      exact h.observe h.lockInv rfl rfl h.status (h.update_follow (followOk_afterRead hk))
    · exact absurd hs (by simp)
  | followCheck k deadline =>
    simp only [hostStep] at hs
    split at hs
    · rename_i alive records hph
      rw [Option.some.injEq] at hs
      subst hs
      have hk := h.follow k
      rw [hph] at hk
      exact h.observe h.lockInv rfl rfl h.status (h.update_follow (followOk_afterCheck hk))
    · exact absurd hs (by simp)

/-! ## The verdict

What follows for those who are told that a run was interrupted. -/

/-- Nobody calls the run interrupted unless it has ended without appending `run_stopped`. -/
def VerdictSound (s : HostState I K) : Prop :=
  ((∃ i, s.status i = .answered .interrupted) ∨ ∃ k, s.follow k = .interrupted) →
    s.run = .ended ∧ .runStopped ∉ s.log

theorem HostInv.verdictSound {s : HostState I K} (h : HostInv s) : VerdictSound s := by
  rintro (⟨i, hi⟩ | ⟨k, hk⟩)
  · have := h.status i
    rw [hi] at this
    exact this
  · have := h.follow k
    rw [hk] at this
    exact this

/-- **The verdict is sound in every interleaving without a start in the gap.**  In every run whose
steps all meet `QuietStart`, and in every state of it, "interrupted" is said only of a run that has
ended without `run_stopped`. -/
theorem interrupted_sound {tr : List (HostState I K × HostAction I K)} {s : HostState I K}
    (run : (hostSystem I K).Run tr s) (hq : ∀ x ∈ tr, QuietStart x.1 x.2) :
    VerdictSound s ∧ ∀ x ∈ tr, VerdictSound x.1 := by
  obtain ⟨hs, htr⟩ := run.invariant_of_guard (P := HostInv) (G := QuietStart) hostInv_init
    (fun _ _ _ h hg hstep ↦ hostInv_step h hg hstep) hq
  exact ⟨hs.verdictSound, fun x hx ↦ (htr x hx).verdictSound⟩

end

/-! ## A start in the gap

A run that starts between the two questions of an observer. -/

/-- A `run_status` and a follower find the lock free before the run has started, the run takes the
lock and appends `run_started`, and then they read the log. -/
def startInGap : List (HostAction Unit Unit) :=
  [.statusProbe () .openLock, .followProbe () .openLock,
    .openLock, .acquire, .appendStarted,
    .statusRead (), .statusInspect (), .followRead (), .followCheck () false]

/-- What they do: the states they go through, and the one they come to. -/
def startInGapRun : List (HostState Unit Unit × HostAction Unit Unit) × HostState Unit Unit :=
  ((hostSystem Unit Unit).trace hostInit startInGap).getD ([], hostInit)

/-- Both say "interrupted" of a run that is alive and holds its lock. -/
theorem startInGap_interrupted :
    (hostSystem Unit Unit).Run startInGapRun.1 startInGapRun.2 ∧
      startInGapRun.2.status () = .answered .interrupted ∧
      startInGapRun.2.follow () = .interrupted ∧
      startInGapRun.2.run = .started ∧ ¬ VerdictSound startInGapRun.2 := by
  refine ⟨System.run_of_trace
    (show (hostSystem Unit Unit).trace hostInit startInGap = _ from rfl), rfl, rfl, rfl, ?_⟩
  intro h
  exact absurd (h (.inl ⟨(), rfl⟩)).1 (by decide)

/-- A run that dies after `run_started`, before anybody looks. -/
def deadRun : List (HostAction Unit Unit) :=
  [.openLock, .acquire, .appendStarted, .release,
    .statusProbe () .openLock, .statusProbe () .flock, .statusProbe () .unlock,
    .statusRead (), .statusInspect ()]

/-- What it leaves, and what `run_status` makes of it. -/
def deadRunTrace : List (HostState Unit Unit × HostAction Unit Unit) × HostState Unit Unit :=
  ((hostSystem Unit Unit).trace hostInit deadRun).getD ([], hostInit)

/-- It is called interrupted, rightly. -/
theorem interrupted_sound_deadRun :
    deadRunTrace.2.status () = .answered .interrupted ∧
      (VerdictSound deadRunTrace.2 ∧ ∀ x ∈ deadRunTrace.1, VerdictSound x.1) := by
  refine ⟨rfl, interrupted_sound (System.run_of_trace
    (show (hostSystem Unit Unit).trace hostInit deadRun = _ from rfl)) ?_⟩
  refine List.forall_mem_cons.mpr ⟨trivial, List.forall_mem_cons.mpr ⟨trivial, ?_⟩⟩
  refine List.forall_mem_cons.mpr ⟨⟨fun _ h ↦ ?_, fun _ h ↦ ?_⟩, ?_⟩
  · exact StatusPhase.noConfusion (show StatusPhase.asking = .probed false from h)
  · obtain ⟨seen, h⟩ := h
    exact FollowPhase.noConfusion (show FollowPhase.polling 0 = .probed seen false from h)
  iterate 6 refine List.forall_mem_cons.mpr ⟨trivial, ?_⟩
  exact fun x hx ↦ absurd hx List.not_mem_nil

end HostApi

end AtlasCore
