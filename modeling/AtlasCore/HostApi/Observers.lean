import AtlasCore.EventLog.Kinds
import AtlasCore.HostApi.Lock

/-!
# A run and its observers

`run_status` and `follow_events` decide whether a run is alive from two things they look at one
after the other: the lock, and the log.  The run goes on in between.

Here one run, any number of `run_status` calls and any number of followers take their steps in any
order.  The run takes the lock, appends `run_started`, further events and `run_stopped`, and
releases the lock; it may die, and lose the lock, wherever it is.  A reader sees the whole records
that are in the log at that moment.  The lock is that of `AtlasCore.HostApi.Lock`, with the run as
its only writer and the observers as its probes: `hostLock` is the simulation, and
`host_undisturbed_iff` what follows from it.
-/

set_option autoImplicit false
set_option linter.unusedSectionVars false

namespace AtlasCore

namespace HostApi

/-! ## What the observers compute

What `status` and `follow` make of the readings, without the steps in between. -/

/-- `STATES`: what a host is told of a run. -/
inductive StatusState where
  | notFound
  | running
  | finished
  | interrupted
  deriving DecidableEq, Repr

/-- The part of an inspection report that the verdict is made from: `finished_at is not None`. -/
structure Report where
  finished : Bool
  deriving DecidableEq, Repr

/-- What `_validate_history` asks of the kinds of a history: one `run_started`, first, and at most
one `run_stopped`, last. -/
def validHistory (records : List EventKind) : Bool :=
  records.count .runStarted == 1 && records.head? == some .runStarted &&
    (records.count .runStopped ≤ 1 &&
      (!records.contains .runStopped || records.getLast? == some .runStopped))

/-- `inspect_run` on the kinds of a history, with `none` where it raises `InspectError`. -/
def inspectRun (records : List EventKind) : Option Report :=
  if records ≠ [] ∧ validHistory records then some ⟨records.contains .runStopped⟩ else none

/-- The state `run_status` answers, from the probe and the report, if there is one. -/
def statusState (running : Bool) : Option Report → StatusState
  | none => if running then .running else .notFound
  | some report =>
    if report.finished then .finished else if running then .running else .interrupted

/-! ## The parties

The run and its observers as one system, in which any of them may take the next step. -/

/-- Where the run's process is, as far as its lock and its log show. -/
inductive RunPhase where
  /-- It has not taken the lock. -/
  | waiting
  /-- It holds the lock and has appended nothing. -/
  | locked
  /-- It has appended `run_started`. -/
  | started
  /-- It has appended `run_stopped`. -/
  | stopped
  /-- It has released the lock, or is dead. -/
  | ended
  deriving DecidableEq, Repr

/-- Where a call of `run_status` is, between the questions it asks. -/
inductive StatusPhase where
  /-- Before or inside `is_locked`. -/
  | asking
  /-- `is_locked` has answered. -/
  | probed (running : Bool)
  /-- `_records` has answered, with records. -/
  | read (running : Bool)
  | answered (state : StatusState)
  /-- `inspect_run` has raised. -/
  | raised
  deriving DecidableEq, Repr

/-- Where a call of `follow_events` is, in a round of its loop. -/
inductive FollowPhase where
  /-- At the top of the loop, or inside `is_locked`; `seen` events have been yielded. -/
  | polling (seen : ℕ)
  /-- `is_locked` has answered. -/
  | probed (seen : ℕ) (alive : Bool)
  /-- The records are read and yielded, none of the new ones a `run_stopped`. -/
  | read (alive : Bool) (records : List EventKind)
  /-- A `run_stopped` was yielded. -/
  | returned
  /-- `FollowEnded("interrupted")`. -/
  | interrupted
  /-- `FollowEnded("timed out")`. -/
  | timedOut
  deriving DecidableEq, Repr

/-- One system call of `is_locked`, which between them leaves the lock taken. -/
inductive ProbeCall where
  | openLock
  | flock
  | unlock
  deriving DecidableEq, Repr

/-- The lock, the run, its log and its observers. -/
structure HostState (I K : Type*) where
  /-- The lock; the run is its only writer. -/
  lock : LockState Unit (I ⊕ K)
  /-- Where the run is. -/
  run : RunPhase
  /-- The kinds of the records that the log holds of the run. -/
  log : List EventKind
  /-- The calls of `run_status`. -/
  status : I → StatusPhase
  /-- The calls of `follow_events`. -/
  follow : K → FollowPhase

/-- One step of one party: the run, a call of `run_status`, or a call of `follow_events`. -/
inductive HostAction (I K : Type*) where
  /-- The run opens the lock file. -/
  | openLock
  /-- The run takes the lock, or is refused and raises. -/
  | acquire
  | appendStarted
  /-- The run appends an event that is neither its first nor its last. -/
  | append (kind : EventKind)
  | appendStopped
  /-- The run releases the lock, having stopped; or it dies, or raises, wherever it is. -/
  | release
  | statusProbe (i : I) (call : ProbeCall)
  | statusRead (i : I)
  | statusInspect (i : I)
  | followProbe (k : K) (call : ProbeCall)
  | followRead (k : K)
  /-- The end of the loop's body; `deadline` says whether the time is up. -/
  | followCheck (k : K) (deadline : Bool)

section

variable {I K : Type*} [DecidableEq I] [DecidableEq K]

/-- The system call of a probe as a step of the lock. -/
def probeAction (p : I ⊕ K) : ProbeCall → LockAction Unit (I ⊕ K)
  | .openLock => .openProbe p
  | .flock => .flockProbe p
  | .unlock => .unlockProbe p

/-- A call of `run_status` after a system call of its `is_locked`. -/
def statusAfterProbe : Option Bool → StatusPhase
  | none => .asking
  | some running => .probed running

/-- A call of `follow_events` after a system call of its `is_locked`. -/
def followAfterProbe (seen : ℕ) : Option Bool → FollowPhase
  | none => .polling seen
  | some alive => .probed seen alive

/-- `run_status` after `_records`: without records there is nothing to inspect. -/
def statusAfterRead (running : Bool) (records : List EventKind) : StatusPhase :=
  if records = [] then .answered (statusState running none) else .read running

/-- `run_status` after `inspect_run`: a history that cannot be trusted raises. -/
def statusAfterInspect (running : Bool) (records : List EventKind) : StatusPhase :=
  match inspectRun records with
  | none => .raised
  | some report => .answered (statusState running (some report))

/-- `follow_events` after the records are read: it yields the new ones, up to a `run_stopped`. -/
def followAfterRead (seen : ℕ) (alive : Bool) (records : List EventKind) : FollowPhase :=
  if .runStopped ∈ records.drop seen then .returned else .read alive records

/-- `follow_events` at the end of the loop's body. -/
def followAfterCheck (alive : Bool) (records : List EventKind)
    (lockFile deadline : Bool) : FollowPhase :=
  if records ≠ [] ∧ alive = false ∧ lockFile = true then .interrupted
  else if deadline then .timedOut
  else .polling records.length

/-- One step, where the party can take it; `none` where it is not at that point. -/
def hostStep (s : HostState I K) : HostAction I K → Option (HostState I K)
  | .openLock =>
    if s.run = .waiting then
      (lockStep s.lock (.openLock ())).map fun lock ↦ { s with lock := lock }
    else none
  | .acquire =>
    if s.run = .waiting then
      (lockStep s.lock (.flock ())).map fun lock ↦
        { s with
          lock := lock
          run := if acquireRefused s.lock (.flock ()) then .ended else .locked }
    else none
  | .appendStarted =>
    if s.run = .locked then some { s with run := .started, log := s.log ++ [.runStarted] } else none
  | .append kind =>
    if s.run = .started ∧ kind ≠ .runStarted ∧ kind ≠ .runStopped then
      some { s with log := s.log ++ [kind] }
    else none
  | .appendStopped =>
    if s.run =
      .started then some { s with run := .stopped, log := s.log ++ [.runStopped] } else none
  | .release =>
    if s.run = .ended then none
    else
      (lockStep s.lock (.release ())).map fun lock ↦ { s with lock := lock, run := .ended }
  | .statusProbe i call =>
    if s.status i = .asking then
      (lockStep s.lock (probeAction (.inl i) call)).map fun lock ↦
        { s with
          lock := lock
          status := Function.update s.status i
            (statusAfterProbe (isLockedReturns s.lock (probeAction (.inl i) call))) }
    else none
  | .statusRead i =>
    match s.status i with
    | .probed running =>
      some { s with status := Function.update s.status i (statusAfterRead running s.log) }
    | _ => none
  | .statusInspect i =>
    match s.status i with
    | .read running =>
      some { s with status := Function.update s.status i (statusAfterInspect running s.log) }
    | _ => none
  | .followProbe k call =>
    match s.follow k with
    | .polling seen =>
      (lockStep s.lock (probeAction (.inr k) call)).map fun lock ↦
        { s with
          lock := lock
          follow := Function.update s.follow k
            (followAfterProbe seen (isLockedReturns s.lock (probeAction (.inr k) call))) }
    | _ => none
  | .followRead k =>
    match s.follow k with
    | .probed seen alive =>
      some { s with follow := Function.update s.follow k (followAfterRead seen alive s.log) }
    | _ => none
  | .followCheck k deadline =>
    match s.follow k with
    | .read alive records =>
      some { s with
        follow := Function.update s.follow k
          (followAfterCheck alive records s.lock.lockFile deadline) }
    | _ => none

/-- Before anybody has taken a step: the run waits, the log is empty, and every observer is at its
beginning. -/
def hostInit : HostState I K :=
  ⟨lockInit, .waiting, [], fun _ ↦ .asking, fun _ ↦ .polling 0⟩

variable (I K) in
/-- A run and its observers, in any order of their steps. -/
def hostSystem : System (HostState I K) (HostAction I K) := ⟨hostInit, hostStep⟩

/-! ## The lock below

Seen from the lock, the run is a writer and its observers are probes. -/

/-- What the lock sees of a step; appending to the log and reading it are not seen. -/
def lockActionOf : HostAction I K → Option (LockAction Unit (I ⊕ K))
  | .openLock => some (.openLock ())
  | .acquire => some (.flock ())
  | .release => some (.release ())
  | .statusProbe i call => some (probeAction (.inl i) call)
  | .followProbe k call => some (probeAction (.inr k) call)
  | .appendStarted => none
  | .append _ => none
  | .appendStopped => none
  | .statusRead _ => none
  | .statusInspect _ => none
  | .followRead _ => none
  | .followCheck _ _ => none

/-- A run and its observers are a writer and probes on one lock. -/
def hostLock : System.Simulation (hostSystem I K) (lockSystem Unit (I ⊕ K)) where
  state := HostState.lock
  action := fun _ a ↦ lockActionOf a
  init_eq := rfl
  step_eq := by
    intro s a s' h
    cases a <;> simp only [hostSystem, hostStep, lockSystem, lockActionOf] at h ⊢
    case openLock =>
      split at h
      · obtain ⟨lock, hl, rfl⟩ := Option.map_eq_some_iff.mp h; exact hl
      · exact absurd h (by simp)
    case acquire =>
      split at h
      · obtain ⟨lock, hl, rfl⟩ := Option.map_eq_some_iff.mp h; exact hl
      · exact absurd h (by simp)
    case release =>
      split at h
      · exact absurd h (by simp)
      · obtain ⟨lock, hl, rfl⟩ := Option.map_eq_some_iff.mp h; exact hl
    case statusProbe i call =>
      split at h
      · obtain ⟨lock, hl, rfl⟩ := Option.map_eq_some_iff.mp h; exact hl
      · exact absurd h (by simp)
    case followProbe k call =>
      split at h
      · obtain ⟨lock, hl, rfl⟩ := Option.map_eq_some_iff.mp h; exact hl
      · exact absurd h (by simp)
    all_goals
      split at h
      · rw [Option.some.injEq] at h; rw [← h]
      · exact absurd h (by simp)

/-- Of the run and its observers: every probe is right about the run, and the run is never refused,
exactly when none of them tries the lock inside the window of a probe. -/
theorem host_undisturbed_iff {tr : List (HostState I K × HostAction I K)} {s : HostState I K}
    (run : (hostSystem I K).Run tr s) :
    (∀ x ∈ tr, ∀ a, lockActionOf x.2 = some a → Undisturbed x.1.lock a) ↔
      ∀ x ∈ tr, ∀ a, lockActionOf x.2 = some a → NoProbeInside x.1.lock a := by
  have hinv : ∀ x ∈ tr, ∀ a, lockActionOf x.2 = some a → LockInv x.1.lock := by
    intro x hx a ha
    refine (lockInv_run (hostLock.run run)).2 (x.1.lock, a) (List.mem_filterMap.mpr ⟨x, hx, ?_⟩)
    exact Option.map_eq_some_iff.mpr ⟨a, ha, rfl⟩
  constructor
  · exact fun h x hx a ha ↦ ((hinv x hx a ha).undisturbed_step a).mp (h x hx a ha)
  · exact fun h x hx a ha ↦ ((hinv x hx a ha).undisturbed_step a).mpr (h x hx a ha)

/-- A probe changes neither the lock file nor where the run is. -/
theorem probe_frame {s s' : LockState Unit (I ⊕ K)} {p : I ⊕ K} {call : ProbeCall}
    (h : lockStep s (probeAction p call) = some s') :
    s'.writer = s.writer ∧ s'.lockFile = s.lockFile := by
  cases call with
  | openLock =>
    simp only [probeAction, lockStep, Option.ite_none_right_eq_some] at h
    obtain ⟨-, h⟩ := h
    split at h <;> (rw [Option.some.injEq] at h; rw [← h]; exact ⟨rfl, rfl⟩)
  | flock =>
    simp only [probeAction, lockStep, Option.ite_none_right_eq_some] at h
    obtain ⟨-, h⟩ := h
    split at h <;> (rw [Option.some.injEq] at h; rw [← h]; exact ⟨rfl, rfl⟩)
  | unlock =>
    simp only [probeAction, lockStep, Option.ite_none_right_eq_some, Option.some.injEq] at h
    obtain ⟨-, rfl⟩ := h
    exact ⟨rfl, rfl⟩

end

end HostApi

end AtlasCore
