import AtlasCore.Lib.Transition
import Mathlib.Logic.Function.Basic

/-!
# The run lock, and the observers that look at it

A run, a resume and a seal hold an advisory lock on `<log>.<digest>.lock` for their whole life, and
a held lock is the only evidence that a process is alive.  The parties here are any number of
*writers* that take it (`RunLock.acquire`, `RunLock.release`) and any number of *probes* that ask
about it (`is_locked`).

A probe has nothing to ask the kernel with but the lock itself: it takes the lock and drops it
again.  So there is a window in which a probe is the holder, and in that window it looks like a
writer to everybody else.  `undisturbed_iff` says exactly when nobody notices.
-/

set_option autoImplicit false
set_option linter.unusedSectionVars false

namespace AtlasCore

namespace HostApi

/-! ## The parties

A writer holds the lock while its run is alive, and a probe takes it for a moment to see whether
it is free.  Every step is one call of the operating system. -/

/-- Who can hold the lock: a writer, or a probe in the middle of `is_locked`. -/
inductive Party (W P : Type*) where
  | writer (w : W)
  | probe (p : P)
  deriving DecidableEq

/-- Where a writer is, between opening the lock file and giving the lock up. -/
inductive WriterPhase where
  | idle
  /-- `RunLock.acquire` has opened the lock file. -/
  | opened
  /-- `RunLock.acquire` has returned, and `release` has not been called. -/
  | holding
  deriving DecidableEq, Repr

/-- Where a probe is; it has to take the lock for a moment to find out whether it is free. -/
inductive ProbePhase where
  | idle
  /-- `is_locked` has opened the lock file. -/
  | opened
  /-- `is_locked` has taken the lock, and has not dropped it yet. -/
  | inside
  deriving DecidableEq, Repr

/-- The lock file, the advisory lock on it, and where everybody is. -/
structure LockState (W P : Type*) where
  /-- Whether the lock file exists; nothing ever removes it. -/
  lockFile : Bool
  /-- Who holds the lock. -/
  holder : Option (Party W P)
  /-- Where each writer is. -/
  writer : W → WriterPhase
  /-- Where each probe is. -/
  probe : P → ProbePhase

/-- One system call of one party, which is what can be interleaved. -/
inductive LockAction (W P : Type*) where
  /-- `self.path.open("a+")` in `RunLock.acquire`: creates the file. -/
  | openLock (w : W)
  /-- `fcntl.flock(.., LOCK_EX | LOCK_NB)` in `RunLock.acquire`. -/
  | flock (w : W)
  /-- `RunLock.release`, or the kernel when the process dies. -/
  | release (w : W)
  /-- `path.open("r")` in `is_locked`: does not create the file. -/
  | openProbe (p : P)
  /-- `fcntl.flock(.., LOCK_EX | LOCK_NB)` in `is_locked`. -/
  | flockProbe (p : P)
  /-- `fcntl.flock(.., LOCK_UN)` in `is_locked`. -/
  | unlockProbe (p : P)

section

variable {W P : Type*} [DecidableEq W] [DecidableEq P]

/-- What a system call does to the lock. -/
def lockStep (s : LockState W P) : LockAction W P → Option (LockState W P)
  | .openLock w =>
    if s.writer w = .idle then
      some { s with lockFile := true, writer := Function.update s.writer w .opened }
    else none
  | .flock w =>
    if s.writer w = .opened then
      match s.holder with
      | none =>
        some { s with
          holder := some (.writer w), writer := Function.update s.writer w .holding }
      | some _ => some { s with writer := Function.update s.writer w .idle }
    else none
  | .release w =>
    match s.writer w with
    | .idle => none
    | .opened => some { s with writer := Function.update s.writer w .idle }
    | .holding => some { s with holder := none, writer := Function.update s.writer w .idle }
  | .openProbe p =>
    if s.probe p = .idle then
      if s.lockFile then some { s with probe := Function.update s.probe p .opened } else some s
    else none
  | .flockProbe p =>
    if s.probe p = .opened then
      match s.holder with
      | none =>
        some { s with holder := some (.probe p), probe := Function.update s.probe p .inside }
      | some _ => some { s with probe := Function.update s.probe p .idle }
    else none
  | .unlockProbe p =>
    if s.probe p = .inside then
      some { s with holder := none, probe := Function.update s.probe p .idle }
    else none

/-- What `is_locked` returns with a system call, if it returns with it. -/
def isLockedReturns (s : LockState W P) : LockAction W P → Option Bool
  | .openProbe _ => if s.lockFile then none else some false
  | .flockProbe _ => if s.holder.isSome then some true else none
  | .unlockProbe _ => some false
  | .openLock _ => none
  | .flock _ => none
  | .release _ => none

/-- Whether `RunLock.acquire` raises `ResumeRefused` with a system call. -/
def acquireRefused (s : LockState W P) : LockAction W P → Bool
  | .flock _ => s.holder.isSome
  | .openLock _ => false
  | .release _ => false
  | .openProbe _ => false
  | .flockProbe _ => false
  | .unlockProbe _ => false

/-- Whether a system call tries to take the lock. -/
def tries : LockAction W P → Bool
  | .flock _ => true
  | .flockProbe _ => true
  | .openLock _ => false
  | .release _ => false
  | .openProbe _ => false
  | .unlockProbe _ => false

/-- Nobody has started: there is no lock file, and nobody holds anything. -/
def lockInit : LockState W P := ⟨false, none, fun _ ↦ .idle, fun _ ↦ .idle⟩

variable (W P) in
/-- Writers and probes on one lock, in any order of their system calls. -/
def lockSystem : System (LockState W P) (LockAction W P) := ⟨lockInit, lockStep⟩

/-! ## Mutual exclusion

At most one party is inside the lock, and the lock knows which one it is. -/

/-- The holder is the one who thinks so. -/
structure LockInv (s : LockState W P) : Prop where
  /-- A writer holds the lock exactly while it is between `acquire` and `release`. -/
  writer_iff : ∀ w, s.holder = some (.writer w) ↔ s.writer w = .holding
  /-- A probe holds the lock exactly while it is inside its window. -/
  probe_iff : ∀ p, s.holder = some (.probe p) ↔ s.probe p = .inside

theorem lockInv_init : LockInv (lockInit : LockState W P) :=
  ⟨fun w ↦ by simp [lockInit], fun p ↦ by simp [lockInit]⟩

/-- A writer that does not hold the lock moves to another phase in which it does not. -/
theorem LockInv.update_writer {s : LockState W P} (h : LockInv s) {w : W} {ph : WriterPhase}
    (hw : s.writer w ≠ .holding) (hph : ph ≠ .holding) (file : Bool) :
    LockInv { s with lockFile := file, writer := Function.update s.writer w ph } := by
  refine ⟨fun v ↦ ?_, h.probe_iff⟩
  by_cases hv : v = w
  · subst hv
    simp only [Function.update_self]
    exact ⟨fun hh ↦ absurd ((h.writer_iff v).mp hh) hw, fun hh ↦ absurd hh hph⟩
  · simp only [Function.update_of_ne hv]
    exact h.writer_iff v

/-- The same of a probe. -/
theorem LockInv.update_probe {s : LockState W P} (h : LockInv s) {p : P} {ph : ProbePhase}
    (hp : s.probe p ≠ .inside) (hph : ph ≠ .inside) :
    LockInv { s with probe := Function.update s.probe p ph } := by
  refine ⟨h.writer_iff, fun q ↦ ?_⟩
  by_cases hq : q = p
  · subst hq
    simp only [Function.update_self]
    exact ⟨fun hh ↦ absurd ((h.probe_iff q).mp hh) hp, fun hh ↦ absurd hh hph⟩
  · simp only [Function.update_of_ne hq]
    exact h.probe_iff q

/-- Nobody holds a free lock. -/
theorem LockInv.free {s : LockState W P} (h : LockInv s) (hfree : s.holder = none) :
    (∀ w, s.writer w ≠ .holding) ∧ ∀ p, s.probe p ≠ .inside := by
  constructor
  · intro w hw
    rw [← h.writer_iff, hfree] at hw
    exact absurd hw (by simp)
  · intro p hp
    rw [← h.probe_iff, hfree] at hp
    exact absurd hp (by simp)

/-- A free lock is taken by a writer. -/
theorem LockInv.take_writer {s : LockState W P} (h : LockInv s) (hfree : s.holder = none) (w : W) :
    LockInv { s with
      holder := some (.writer w), writer := Function.update s.writer w .holding } := by
  obtain ⟨hw, hp⟩ := h.free hfree
  refine ⟨fun v ↦ ?_, fun p ↦ ?_⟩
  · by_cases hv : v = w
    · subst hv; simp
    · simp only [Function.update_of_ne hv, Option.some.injEq, Party.writer.injEq]
      exact ⟨fun hh ↦ absurd hh.symm hv, fun hh ↦ absurd hh (hw v)⟩
  · exact ⟨fun hh ↦ absurd hh (by simp), fun hh ↦ absurd hh (hp p)⟩

/-- A free lock is taken by a probe. -/
theorem LockInv.take_probe {s : LockState W P} (h : LockInv s) (hfree : s.holder = none) (p : P) :
    LockInv { s with
      holder := some (.probe p), probe := Function.update s.probe p .inside } := by
  obtain ⟨hw, hp⟩ := h.free hfree
  refine ⟨fun w ↦ ?_, fun q ↦ ?_⟩
  · exact ⟨fun hh ↦ absurd hh (by simp), fun hh ↦ absurd hh (hw w)⟩
  · by_cases hq : q = p
    · subst hq; simp
    · simp only [Function.update_of_ne hq, Option.some.injEq, Party.probe.injEq]
      exact ⟨fun hh ↦ absurd hh.symm hq, fun hh ↦ absurd hh (hp q)⟩

/-- Whoever holds the lock drops it. -/
theorem LockInv.drop_writer {s : LockState W P} (h : LockInv s) {w : W}
    (hw : s.writer w = .holding) :
    LockInv { s with holder := none, writer := Function.update s.writer w .idle } := by
  have hholder := (h.writer_iff w).mpr hw
  refine ⟨fun v ↦ ?_, fun p ↦ ?_⟩
  · by_cases hv : v = w
    · subst hv; simp
    · simp only [Function.update_of_ne hv]
      refine ⟨fun hh ↦ absurd hh (by simp), fun hh ↦ ?_⟩
      rw [← h.writer_iff, hholder, Option.some.injEq, Party.writer.injEq] at hh
      exact absurd hh.symm hv
  · refine ⟨fun hh ↦ absurd hh (by simp), fun hh ↦ ?_⟩
    rw [← h.probe_iff, hholder] at hh
    exact absurd hh (by simp)

theorem LockInv.drop_probe {s : LockState W P} (h : LockInv s) {p : P}
    (hp : s.probe p = .inside) :
    LockInv { s with holder := none, probe := Function.update s.probe p .idle } := by
  have hholder := (h.probe_iff p).mpr hp
  refine ⟨fun w ↦ ?_, fun q ↦ ?_⟩
  · refine ⟨fun hh ↦ absurd hh (by simp), fun hh ↦ ?_⟩
    rw [← h.writer_iff, hholder] at hh
    exact absurd hh (by simp)
  · by_cases hq : q = p
    · subst hq; simp
    · simp only [Function.update_of_ne hq]
      refine ⟨fun hh ↦ absurd hh (by simp), fun hh ↦ ?_⟩
      rw [← h.probe_iff, hholder, Option.some.injEq, Party.probe.injEq] at hh
      exact absurd hh.symm hq

/-- Every system call keeps the invariant. -/
theorem lockInv_step {s s' : LockState W P} {a : LockAction W P} (h : LockInv s)
    (hs : lockStep s a = some s') : LockInv s' := by
  cases a with
  | openLock w =>
    simp only [lockStep, Option.ite_none_right_eq_some, Option.some.injEq] at hs
    obtain ⟨hw, rfl⟩ := hs
    exact h.update_writer (by simp [hw]) (by simp) true
  | flock w =>
    simp only [lockStep, Option.ite_none_right_eq_some] at hs
    obtain ⟨hw, hs⟩ := hs
    split at hs
    · rename_i hfree
      rw [Option.some.injEq] at hs
      rw [← hs]
      exact h.take_writer hfree w
    · rw [Option.some.injEq] at hs
      rw [← hs]
      exact h.update_writer (by simp [hw]) (by simp) s.lockFile
  | release w =>
    simp only [lockStep] at hs
    split at hs
    · exact absurd hs (by simp)
    · rename_i hw
      rw [Option.some.injEq] at hs
      rw [← hs]
      exact h.update_writer (by simp [hw]) (by simp) s.lockFile
    · rename_i hw
      rw [Option.some.injEq] at hs
      rw [← hs]
      exact h.drop_writer hw
  | openProbe p =>
    simp only [lockStep, Option.ite_none_right_eq_some] at hs
    obtain ⟨hp, hs⟩ := hs
    split at hs
    · rw [Option.some.injEq] at hs
      rw [← hs]
      exact h.update_probe (by simp [hp]) (by simp)
    · rw [Option.some.injEq] at hs
      rw [← hs]
      exact h
  | flockProbe p =>
    simp only [lockStep, Option.ite_none_right_eq_some] at hs
    obtain ⟨hp, hs⟩ := hs
    split at hs
    · rename_i hfree
      rw [Option.some.injEq] at hs
      rw [← hs]
      exact h.take_probe hfree p
    · rw [Option.some.injEq] at hs
      rw [← hs]
      exact h.update_probe (by simp [hp]) (by simp)
  | unlockProbe p =>
    simp only [lockStep, Option.ite_none_right_eq_some, Option.some.injEq] at hs
    obtain ⟨hp, rfl⟩ := hs
    exact h.drop_probe hp

/-- The invariant holds in every state of every run. -/
theorem lockInv_run {tr : List (LockState W P × LockAction W P)} {s : LockState W P}
    (run : (lockSystem W P).Run tr s) : LockInv s ∧ ∀ x ∈ tr, LockInv x.1 :=
  run.invariant (P := LockInv) lockInv_init fun _ _ _ h hs ↦ lockInv_step h hs

/-- Two parties never hold the lock at once. -/
theorem LockInv.exclusive {s : LockState W P} (h : LockInv s) {w v : W}
    (hw : s.writer w = .holding) (hv : s.writer v = .holding) : w = v := by
  have hh := (h.writer_iff w).mpr hw
  rw [(h.writer_iff v).mpr hv, Option.some.injEq, Party.writer.injEq] at hh
  exact hh.symm

/-! ## Who notices a probe

Two that try the lock at once see each other and not the writer. -/

/-- A system call tells the truth about the writers: `is_locked` says `True`, and
`RunLock.acquire` refuses, only if a writer holds the lock at that moment. -/
def Undisturbed (s : LockState W P) (a : LockAction W P) : Prop :=
  (isLockedReturns s a = some true → ∃ w, s.writer w = .holding) ∧
    (acquireRefused s a = true → ∃ w, s.writer w = .holding)

/-- Nobody tries to take the lock while a probe is inside its window. -/
def NoProbeInside (s : LockState W P) (a : LockAction W P) : Prop :=
  tries a = true → ∀ p, s.probe p ≠ .inside

/-- A held lock is held by a writer, unless a probe is inside its window. -/
theorem LockInv.held_by_writer {s : LockState W P} (h : LockInv s) (hheld : s.holder.isSome = true)
    (hp : ∀ p, s.probe p ≠ .inside) : ∃ w, s.writer w = .holding := by
  cases hh : s.holder with
  | none => rw [hh] at hheld; exact absurd hheld (by simp)
  | some party =>
    cases party with
    | writer w => exact ⟨w, (h.writer_iff w).mp hh⟩
    | probe p => exact absurd ((h.probe_iff p).mp hh) (hp p)

/-- While a probe is inside its window, no writer holds the lock, and the lock is held. -/
theorem LockInv.inside {s : LockState W P} (h : LockInv s) {p : P} (hp : s.probe p = .inside) :
    s.holder.isSome = true ∧ ¬ ∃ w, s.writer w = .holding := by
  have hh := (h.probe_iff p).mpr hp
  refine ⟨by rw [hh]; rfl, ?_⟩
  rintro ⟨w, hw⟩
  rw [← h.writer_iff, hh] at hw
  exact absurd hw (by simp)

/-- One system call is undisturbed exactly when it does not meet a probe in its window. -/
theorem LockInv.undisturbed_step {s : LockState W P} (h : LockInv s) (a : LockAction W P) :
    Undisturbed s a ↔ NoProbeInside s a := by
  cases a with
  | flock w =>
    simp only [Undisturbed, NoProbeInside, isLockedReturns, acquireRefused, tries]
    constructor
    · rintro ⟨-, hr⟩ - p hp
      obtain ⟨hheld, hno⟩ := h.inside hp
      exact hno (hr hheld)
    · intro hn
      exact ⟨fun hh ↦ absurd hh (by simp), fun hheld ↦ h.held_by_writer hheld (hn trivial)⟩
  | flockProbe q =>
    simp only [Undisturbed, NoProbeInside, isLockedReturns, acquireRefused, tries]
    constructor
    · rintro ⟨hl, -⟩ - p hp
      obtain ⟨hheld, hno⟩ := h.inside hp
      exact hno (hl (if_pos hheld))
    · intro hn
      refine ⟨fun hl ↦ ?_, fun hh ↦ absurd hh (by simp)⟩
      split at hl
      · rename_i hheld
        exact h.held_by_writer hheld (hn trivial)
      · exact absurd hl (by simp)
  | openLock w => simp [Undisturbed, NoProbeInside, isLockedReturns, acquireRefused, tries]
  | release w => simp [Undisturbed, NoProbeInside, isLockedReturns, acquireRefused, tries]
  | openProbe p =>
    simp only [Undisturbed, NoProbeInside, isLockedReturns, acquireRefused, tries]
    split <;> simp
  | unlockProbe p => simp [Undisturbed, NoProbeInside, isLockedReturns, acquireRefused, tries]

/-- **When observers do not disturb the lock.**  In a run of any writers and any probes, every
`is_locked` and every `RunLock.acquire` is right about the writers exactly when none of them was
tried inside the window of a probe. -/
theorem undisturbed_iff {tr : List (LockState W P × LockAction W P)} {s : LockState W P}
    (run : (lockSystem W P).Run tr s) :
    (∀ x ∈ tr, Undisturbed x.1 x.2) ↔ ∀ x ∈ tr, NoProbeInside x.1 x.2 := by
  have hinv := (lockInv_run run).2
  constructor
  · exact fun h x hx ↦ ((hinv x hx).undisturbed_step x.2).mp (h x hx)
  · exact fun h x hx ↦ ((hinv x hx).undisturbed_step x.2).mpr (h x hx)

end

/-- The calls of a run that comes and goes, and then of a probe whose window a second probe and a
second run fall into. -/
def probeWindow : List (LockAction Bool Bool) :=
  [.openLock false, .flock false, .release false,
    .openProbe false, .openProbe true, .flockProbe false, .flockProbe true,
    .openLock true, .flock true, .unlockProbe false]

/-- What they do: the states they go through, and the one they come to. -/
def probeWindowRun : List (LockState Bool Bool × LockAction Bool Bool) × LockState Bool Bool :=
  ((lockSystem Bool Bool).trace lockInit probeWindow).getD ([], lockInit)

theorem probeWindow_run :
    (lockSystem Bool Bool).Run probeWindowRun.1 probeWindowRun.2 :=
  System.run_of_trace (show (lockSystem Bool Bool).trace lockInit probeWindow = _ from rfl)

/-- While no writer holds the lock, a second probe answers `True` and a run is refused, because a
first probe is inside its window. -/
theorem probe_disturbs :
    (lockSystem Bool Bool).Run probeWindowRun.1 probeWindowRun.2 ∧
      (∃ x ∈ probeWindowRun.1,
        isLockedReturns x.1 x.2 = some true ∧ ¬ ∃ w, x.1.writer w = .holding) ∧
      ∃ x ∈ probeWindowRun.1, acquireRefused x.1 x.2 = true ∧ ¬ ∃ w, x.1.writer w = .holding := by
  refine ⟨probeWindow_run, ?_, ?_⟩
  · refine ⟨_, List.mem_of_getElem? (i := 6) rfl, rfl, ?_⟩
    rintro ⟨_ | _, h⟩ <;> exact absurd h (by decide)
  · refine ⟨_, List.mem_of_getElem? (i := 8) rfl, rfl, ?_⟩
    rintro ⟨_ | _, h⟩ <;> exact absurd h (by decide)

/-- The rule at that run. -/
theorem undisturbed_iff_probeWindow :
    (∀ x ∈ probeWindowRun.1, Undisturbed x.1 x.2) ↔
      ∀ x ∈ probeWindowRun.1, NoProbeInside x.1 x.2 :=
  undisturbed_iff probeWindow_run

end HostApi

end AtlasCore
