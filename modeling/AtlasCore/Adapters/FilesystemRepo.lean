import AtlasCore.Controller.Budget
import AtlasCore.Evidence.Collect
import AtlasCore.Evidence.Observer
import AtlasCore.Review.Plan

/-!
# Observing a local checkout

The host half of the observer.  A request names paths to read again, patterns and windows; what they
resolve to is read one after another, each against the budget, and what cannot be read is skipped.

Between any two steps the files may be anything: every step is a question to the machine, in
whatever state it is by then.  Here is what the observer does with the answers, what the budget may
raise in between, and what is made of a content once it has been read.
-/

set_option autoImplicit false

namespace AtlasCore

open Py

/-- The file system of a checkout: a disk that can also be asked whether a path is a file, and for
the paths that a pattern matches. -/
structure FileSystem (W : Type) extends Disk W where
  /-- `path.is_file()`. -/
  isFile : Str → Eff Exc W Bool
  /-- `root.glob(pattern)`, each path relative to the root. -/
  glob : Str → Str → Eff Exc W (List Str)

/-- `CANDIDATE_FILES`: what a first look at a checkout reads, in this order, where it is there. -/
def CANDIDATE_FILES : List Str :=
  [str "README.md", str "pyproject.toml", str "package.json", str "docs/architecture.md",
    str "docs/CONTEXT_CONTRACT.md", str "docs/TOKEN_BUDGET.md",
    str "docs/context-export-contract.md", str "docs/memory-model.md",
    str "docs/roadmap-token-reduction.md", str ".github/workflows/test.yml",
    str ".github/workflows/run-atlas.yml"]

/-- `EXACT_PATTERN_MAX_LINES`: how many lines are read of a file that a pattern names without
wildcards. -/
def EXACT_PATTERN_MAX_LINES : ℤ := 200

/-- `FilesystemRepoObserver`: the checkout it reads, and how much of a file and how many files it
returns of one request. -/
structure RepoObserver where
  repoPath : Str
  maxBytesPerFile : ℕ
  maxFilesPerRound : ℕ

/-- `except ValueError` catches it: the errors that Python derives from `ValueError`, among them
those of encoding and of a schema. -/
def Exc.isValueError : Exc → Bool
  | valueError | unicodeEncodeError | toolSchemaError => true
  | _ => false

/-- `except (PathRefused, SourceTooLarge, OSError)` catches it: the path is passed over, and the
call goes on with the next one. -/
def Exc.isSkipped (e : Exc) : Bool := e = .pathRefused || e = sourceTooLarge || e.isOSError

variable {W : Type}

/-! ## Names

What a request names is a path or a pattern, and which files it leads to is settled before any
file is read.  These decide what is looked at and in which order, so that one pattern with many
files does not crowd out the next. -/

/-- `_ignored_repo_path`: a file that the system leaves in every directory is nobody's source. -/
def ignoredRepoPath (name : Str) : Bool := (posix.parts name).getLast? = some (str ".DS_Store")

/-- `_is_exact_pattern`: a pattern without a wildcard is the name of one file, and more of it is
read. -/
def isExactPattern (pattern : Str) : Bool := !pattern.any (str "*?[]").contains

/-- `zip_longest(*by_pattern)`, without the places that are empty: every pattern with a match gets a
read before any gets a second. -/
def takeTurns : ℕ → List (List Str) → List Str
  | 0, _ => []
  | fuel + 1, names => names.filterMap List.head? ++ takeTurns fuel (names.map List.tail)

/-- The names of all patterns, taking turns: each pattern gives its first name before any gives its
second, so no pattern crowds the others out. -/
def ranked (names : List (List Str)) : List Str := takeTurns (names.map List.length).sum names

/-! ## The observer

The observer as its source has it, one definition for each of its steps.  It works on the state of
the machine and on the budget, and whatever it asks of either may raise; what it makes of an
exception is part of the definitions and not of a theorem about them. -/

/-- What an observer works on: the world, the budget, and how often it collected. -/
structure Observing (W : Type) where
  world : W
  budget : RunBudget
  reads : ℕ := 0

/-- A computation of an observer, over the file system, the budget and the count of what was read.
-/
abbrev ObserveM (W : Type) := Eff Exc (Observing W)

/-- A computation over the file system, as a step of an observer: the budget and the count of reads
stay as they are. -/
def onDisk {α : Type} (m : Eff Exc W α) : ObserveM W α :=
  m.zoom Observing.world fun w s ↦ { s with world := w }

/-- A computation over the budget, as a step of an observer: the budget has its own clock, and no
file is touched. -/
def onBudgetOf {α : Type} (m : Eff Exc (W × RunBudget) α) : ObserveM W α :=
  m.zoom (fun s ↦ (s.world, s.budget)) fun p s ↦ { s with world := p.1, budget := p.2 }

section
variable (fs : FileSystem W) (meter : Meter W) (classify : Str → Confidentiality)

/-- One name of `_present`: it leads to a file below the root.  A name that leads outside, or that
the system does not answer for, counts as absent. -/
def isPresent (root name : Str) : Eff Exc W Bool :=
  if ignoredRepoPath name then return false
  else Eff.handle (do fs.isFile (← fs.resolveWithin root name)) fun e ↦
    if e = .pathRefused ∨ e.isOSError then return false else Eff.raise e

/-- `_present`: the names that are there, in the order they were given. -/
def present (root : Str) : List Str → Eff Exc W (List Str)
  | [] => return []
  | name :: rest => do
    let here ← isPresent fs root name
    let more ← present root rest
    return if here then name :: more else more

/-- The windows on paths that are present.  Each is asked about by itself, so a window that is gone
does not take the others with it. -/
def presentWindows (root : Str) : List LineWindow → Eff Exc W (List LineWindow)
  | [] => return []
  | window :: rest => do
    let here ← present fs root [window.path]
    let more ← presentWindows root rest
    return if window.path ∈ here then window :: more else more

/-- The paths that `_matching` keeps: what the pattern matched also has to be a file, and one that
is not ignored. -/
def onlyFiles (root : Str) : List Str → Eff Exc W (List Str)
  | [] => return []
  | name :: rest => do
    let here ← fs.isFile (joinPath root name)
    let more ← onlyFiles root rest
    return if here && !ignoredRepoPath name then name :: more else more

/-- `_matching`: the files that a pattern matches, in their order by name.  A pattern that starts at
the root, climbs out of it or goes down without a bound matches nothing. -/
def matching (root pattern : Str) : Eff Exc W (List Str) := do
  if posix.parts pattern = [] ∨ startsWith pattern (str "/") ∨ str ".." ∈ posix.parts pattern ∨
      contains (str "**") pattern then return []
  else
    let names ← onlyFiles fs root (← fs.glob root pattern)
    return names.insertionSort fun a b ↦ Json.keyLe a b = true

/-- `collect_observation_safely`: the path is resolved first, and it is the resolved path, below the
root, that the observation names. -/
def collectSafely (snapshot : TakenSnapshot) (path : Str) (args : CollectArgs) :
    Eff Exc W Observation := do
  let resolved ← fs.resolveWithin snapshot.root path
  let root ← fs.resolve snapshot.root
  match relativeTo root resolved with
  | none => Eff.raise .valueError
  | some concrete => collectObservation fs.toDisk classify snapshot concrete args

/-- What is wanted: a path, and the window of it that was asked for. -/
abbrev Wanted := Str × Option LineWindow

variable (observer : RepoObserver) (snapshot : TakenSnapshot)

/-- A read of a head: the first lines of a file, up to the number that is read by default. -/
def headArgs : CollectArgs where
  maxLines := DEFAULT_MAX_LINES
  maxBytes := some observer.maxBytesPerFile

/-- What is collected of a wanted path: its window where one is asked for, else its head, which is
longer where a pattern named the file exactly. -/
def readArgs (expanded : List Str) (wanted : Wanted) : CollectArgs :=
  match wanted.2 with
  | none =>
    if wanted.1 ∈ expanded then { headArgs observer with maxLines := EXACT_PATTERN_MAX_LINES }
    else headArgs observer
  | some window =>
    { headArgs observer with
      maxLines := window.maxLines
      lineStart := window.lineStart
      anchorPrefix := window.anchorPrefix }

/-- A call of `collect_observation_safely`, counted: how often it is made is what the tool calls of
the budget are reserved for. -/
def readOnce (path : Str) (args : CollectArgs) : ObserveM W Observation := do
  Eff.update fun s ↦ { s with reads := s.reads + 1 }
  onDisk (collectSafely fs classify snapshot path args)

/-- The `except` clauses of one wanted path: where a window was asked for, the head is read
again. -/
def exceptClauses (wanted : Wanted) (e : Exc) : ObserveM W (Option Observation) :=
  if e.isValueError then
    match wanted.2 with
    | none => Eff.raise e
    | some _ => do
      return some (← readOnce fs classify snapshot wanted.1 (headArgs observer))
  else if e.isSkipped then return none
  else Eff.raise e

/-- The `try` of one wanted path: an observation, or nothing where it is skipped. -/
def tryCollect (expanded : List Str) (wanted : Wanted) : ObserveM W (Option Observation) :=
  Eff.handle (do return some (← readOnce fs classify snapshot wanted.1
      (readArgs observer expanded wanted))) (exceptClauses fs classify observer snapshot wanted)

/-- The loop over what is wanted, with what was collected and the names that were seen. -/
def observeAll (expanded : List Str) : List Wanted → List Observation → List Str →
    ObserveM W (List Observation)
  | [], observations, _ => return observations
  | wanted :: rest, observations, seen =>
    if wanted.1 ∈ seen then observeAll expanded rest observations seen
    else if observations.length ≥ observer.maxFilesPerRound then return observations
    else do
      onBudgetOf (RunBudget.check meter)
      onBudgetOf (RunBudget.reserveTool meter)
      match ← tryCollect fs classify observer snapshot expanded wanted with
      | none => observeAll expanded rest observations (wanted.1 :: seen)
      | some o => do
        onBudgetOf (RunBudget.check meter)
        observeAll expanded rest (observations ++ [o]) (wanted.1 :: seen)

/-- What a request comes to: the paths that are wanted, and those whose excerpts are longer. -/
def resolveRequest (request : ObservationRequest) (root : Str) :
    Eff Exc W (List Wanted × List Str) := do
  let windows ← presentWindows fs root request.lineWindows
  let reread ← present fs root (request.paths.filter fun path ↦
    path ∉ windows.map (·.path))
  let byPattern ← request.patterns.mapM fun pattern ↦ do
    return (pattern, ← present fs root (← matching fs root pattern))
  let expanded := byPattern.flatMap fun p ↦
    if isExactPattern p.1 then p.2.filter (· ∈ GATE_PARITY_PATHS) else []
  let asked := windows.map fun window ↦ (window.path, some window)
  let again := reread.map fun path ↦ (path, none)
  if request.paths = [] ∧ request.patterns = [] ∧ request.lineWindows = [] then
    let surface ← present fs root CANDIDATE_FILES
    return (surface.map fun path ↦ (path, none), [])
  else
    return (asked ++ again ++ (ranked (byPattern.map Prod.snd)).map fun path ↦ (path, none),
      expanded)

/-- `FilesystemRepoObserver.observe`: the snapshot has to be of this checkout, the request is turned
into the paths that are wanted, and these are read one after the other. -/
def observe (request : ObservationRequest) : ObserveM W (List Observation) := do
  let root ← onDisk (fs.resolve request.snapshot.root)
  if root ≠ observer.repoPath then Eff.raise .valueError
  else do
    let (wanted, expanded) ← onDisk (resolveRequest fs request root)
    observeAll fs meter classify observer { snapshot with toSnapshot := request.snapshot } expanded
      wanted [] []

end

/-! ## What the budget raises

A budget raises two exceptions of its own.  Everything else that comes out of a step of the
observer comes from the files, and the theorems about a call need to tell the two apart. -/

section
variable (fs : FileSystem W) (meter : Meter W) (observer : RepoObserver) (snapshot : TakenSnapshot)
  (request : ObservationRequest)

/-- The budget raises this, at some point: when it is checked, or when a tool call is reserved. -/
def BudgetRaises (e : Exc) : Prop :=
  ∃ p, (RunBudget.check meter p).1 = .error e ∨ (RunBudget.reserveTool meter p).1 = .error e

/-- The request is of another checkout: the root of its snapshot resolves to a directory that is not
the one of the observer. -/
def Foreign (w : W) : Prop :=
  ∃ root, (fs.resolve request.snapshot.root w).1 = .ok root ∧ root ≠ observer.repoPath

/-- The snapshot that observations are bound to: the one that was taken, under the id of the one in
the request. -/
def boundTo : TakenSnapshot := { snapshot with toSnapshot := request.snapshot }

end

variable {fs : FileSystem W} {meter : Meter W} {classify : Str → Confidentiality}
  {observer : RepoObserver} {snapshot : TakenSnapshot} {request : ObservationRequest} {I : W → Prop}
  {w : W}

section
variable (hclock : Eff.Keeps I meter.clock) (hcancelled : Eff.Keeps I meter.isCancelled)

include hclock hcancelled

theorem wp_check {b : RunBudget} (hw : I w) : (RunBudget.check meter).wp
    (fun _ p ↦ I p.1 ∧ p.2 = b) (fun e p ↦ BudgetRaises meter e ∧ I p.1 ∧ p.2 = b) (w, b) := by
  have hkeeps : (RunBudget.check meter).wp (fun _ p ↦ I p.1 ∧ p.2 = b)
      (fun _ p ↦ I p.1 ∧ p.2 = b) (w, b) := by
    rw [RunBudget.check]
    refine Eff.wp_bind.mpr (Eff.wp_zoom.mpr ((hcancelled w hw).mono ?_ fun _ _ hv ↦ ⟨hv, rfl⟩))
    intro stopped v hv
    refine Eff.wp_ite.mpr ⟨fun _ ↦ ⟨hv, rfl⟩, fun _ ↦ ?_⟩
    refine Eff.wp_bind.mpr (Eff.wp_zoom.mpr ((hclock v hv).mono ?_ fun _ _ hu ↦ ⟨hu, rfl⟩))
    intro now u hu
    refine Eff.wp_bind.mpr (Eff.wp_read.mpr (Eff.wp_ite.mpr ⟨fun _ ↦ ⟨hu, rfl⟩, fun _ ↦ ⟨hu, rfl⟩⟩))
  refine (hkeeps.and (Eff.wp_run _ _)).mono (fun _ _ h ↦ h.1) fun e p h ↦ ⟨⟨(w, b), .inl ?_⟩, h.1⟩
  rw [h.2]

theorem wp_reserveTool {b : RunBudget} (hw : I w) : (RunBudget.reserveTool meter).wp
    (fun _ p ↦ I p.1 ∧ p.2 = { b with toolCalls := b.toolCalls + 1 })
    (fun e p ↦ BudgetRaises meter e ∧ I p.1 ∧ p.2 = b) (w, b) := by
  have hkeeps : (RunBudget.reserveTool meter).wp
      (fun _ p ↦ I p.1 ∧ p.2 = { b with toolCalls := b.toolCalls + 1 })
      (fun _ p ↦ I p.1 ∧ p.2 = b) (w, b) := by
    rw [RunBudget.reserveTool]
    refine Eff.wp_bind.mpr ((wp_check hclock hcancelled hw).mono ?_ fun _ _ h ↦ h.2)
    rintro - ⟨v, b'⟩ ⟨hv, rfl⟩
    refine Eff.wp_bind.mpr (Eff.wp_read.mpr (Eff.wp_ite.mpr ⟨fun _ ↦ ⟨hv, rfl⟩, fun _ ↦ ?_⟩))
    exact Eff.wp_update.mpr ⟨hv, rfl⟩
  refine (hkeeps.and (Eff.wp_run _ _)).mono (fun _ _ h ↦ h.1) fun e p h ↦ ⟨⟨(w, b), .inr ?_⟩, h.1⟩
  rw [h.2]

end

/-! ## What is made of a content

A content that was read becomes an observation exactly if the path can be named and the window that
was asked for is there.  Everything else is a `ValueError` of one kind or another. -/

/-- The window that is asked for is in the content, and it is not one blank line. -/
def Shows (args : CollectArgs) (content : Str) : Prop :=
  ∃ start, windowStart args content = .ok start ∧
    (1 ≤ start ∧ start ≤ (splitlines content).length ∨ content = [] ∧ start = 1) ∧
    linesIn content start args.maxLines ≠ [[]]

theorem one_le_maxLines (expanded : List Str) (wanted : Wanted) :
    1 ≤ (readArgs observer expanded wanted).maxLines := by
  rw [readArgs]
  cases wanted.2 with
  | none =>
    dsimp only
    split_ifs
    · exact (by decide : (1 : ℤ) ≤ EXACT_PATTERN_MAX_LINES)
    · exact (by decide : (1 : ℤ) ≤ DEFAULT_MAX_LINES)
  | some window =>
    have haccepted := window.accepted
    simp only [WindowRequest.isLineWindow, Bool.and_eq_true, decide_eq_true_eq] at haccepted
    exact haccepted.1.1.2

theorem maxBytes_readArgs (expanded : List Str) (wanted : Wanted) :
    (readArgs observer expanded wanted).maxBytes = some observer.maxBytesPerFile := by
  rw [readArgs]
  split
  · split_ifs <;> rfl
  · rfl

variable (classify) in
/-- What is read of a window that is there is an observation of it. -/
theorem collected_of_shows (now : Moment) {taken : TakenSnapshot} {path : Str} {args : CollectArgs}
    {bytes : Bytes} (hnamed : Nameable taken path) (hmax : 1 ≤ args.maxLines)
    (hshows : Shows args (readText bytes)) :
    ∃ o, collected classify taken path args now (readText bytes) = .ok o ∧
      o.snapshotId = taken.snapshotId ∧
      deriveSourceId taken.snapshotId .localFile path = some o.sourceId := by
  obtain ⟨start, hstart, hinside, hlines⟩ := hshows
  obtain ⟨window, hwindow⟩ := exists_window hmax hinside
  obtain ⟨o, sourceId, ho, hfields⟩ := collected_eq_ok hnamed hstart sha256Text_readText
    hwindow.excerptOf (hwindow.accepted.mpr hlines) hwindow.total
  refine ⟨o, ho, by rw [hfields]; rfl, ?_⟩
  have hid := o.deriveSourceId_eq
  rw [hfields] at hid ⊢
  exact hid

section
variable {taken : TakenSnapshot} {path : Str} {bytes : Bytes}

/-- Nothing else is collected. -/
theorem nameable_and_shows {args : CollectArgs} {now : Moment} {o : Observation}
    (h : collected classify taken path args now (readText bytes) = .ok o) :
    Nameable taken path ∧ Shows args (readText bytes) := by
  have hcollected := h
  obtain ⟨start, hstart, h⟩ := Except.bind_eq_ok.mp h
  obtain ⟨window, hwindow, h⟩ := Except.bind_eq_ok.mp h
  rw [sha256Text_readText] at h
  have hid := o.deriveSourceId_eq
  have haccepted := o.accepted
  obtain ⟨sourceId, hfields⟩ := createOrRaise_eq_ok h
  rw [hfields] at hid haccepted
  simp only [ObservationFields.postInit, andThen_eq_ok, refuseIf_eq_ok] at haccepted
  obtain ⟨hblank, hcontained, -, -, href, hcommit, hsnapshot, -⟩ := haccepted
  have hderives : deriveSourceId taken.snapshotId .localFile path = some sourceId := hid
  have hnamed : Nameable taken path :=
    ⟨hblank, hcontained, href, hcommit, hsnapshot, by rw [hderives]; rfl⟩
  obtain ⟨hmax, hbounds⟩ := bounds_of_excerptOf hwindow
  have hinside : 1 ≤ start ∧ start ≤ (splitlines (readText bytes)).length ∨
      readText bytes = [] ∧ start = 1 :=
    hbounds.imp_right fun hempty ↦ ⟨splitlines_eq_nil hempty.1, hempty.2⟩
  refine ⟨hnamed, start, hstart, hinside, fun hline ↦ ?_⟩
  obtain ⟨_, hshown⟩ := exists_window hmax hinside
  refine collected_ne_ok hnamed hstart sha256Text_readText hshown.excerptOf (fun hrange ↦ ?_)
    hcollected
  exact hshown.accepted.mp hrange hline

/-- What is not collected is refused with a `ValueError`. -/
theorem isValueError_of_collected {args : CollectArgs} {now : Moment} {e : Exc}
    (h : collected classify taken path args now (readText bytes) = .error e) :
    e.isValueError = true := by
  have hstart : ∀ {start : Exc}, windowStart args (readText bytes) = .error start →
      start.isValueError = true := by
    intro start hstart
    rw [windowStart] at hstart
    split at hstart
    · cases hstart
    · rw [firstPrefixedLine] at hstart
      split_ifs at hstart
      any_goals cases hstart; rfl
      split at hstart <;> cases hstart
      rfl
  have hexcerpt : ∀ {start : ℤ} {refused : Exc},
      excerptOf (readText bytes) args.maxLines start = .error refused →
        refused.isValueError = true := by
    intro start refused hrefused
    rw [excerptOf] at hrefused
    dsimp only at hrefused
    split_ifs at hrefused <;> cases hrefused <;> rfl
  have hcreate : ∀ {fields : ObservationFields} {refused : Exc},
      createOrRaise fields = .error refused → refused.isValueError = true := by
    intro fields refused hrefused
    rw [createOrRaise] at hrefused
    split at hrefused
    · cases hrefused
    · cases hrefused
      rename_i error _
      cases error <;> rfl
  rw [collected, sha256Text_readText] at h
  rcases Except.bind_eq_error.mp h with hfrom | ⟨start, -, h⟩
  · exact hstart hfrom
  · rcases Except.bind_eq_error.mp h with hwindow | ⟨window, -, h⟩
    · exact hexcerpt hwindow
    · exact hcreate h

end

/-! ## A checkout of one file

The smallest machine on which the observer has something to read.  The witnesses of this part of
the development run on it. -/

/-- A checkout whose only file is `README.md`, and does not change. -/
def readmeOnly (bytes : Bytes) : FileSystem Unit where
  resolve := fun path ↦ return path
  openNoFollow := fun path ↦
    if path = str "/repo/README.md" then return some bytes else Eff.raise .notAFile
  now := fun _ ↦ noon
  memory := 2 ^ 32
  isFile := fun path ↦ return path = str "/repo/README.md"
  glob := fun _ _ ↦ return []

/-- A clock that stands still, and nobody who cancels: a budget over it is only used up by what is
reserved. -/
def stillMeter : Meter Unit where
  clock := return 0
  cancelled := none

/-- The observer of this checkout, with the bounds that the source takes by default. -/
def repoObserver : RepoObserver where
  repoPath := str "/repo"
  maxBytesPerFile := 262144
  maxFilesPerRound := 8

/-- A first request, which names nothing: what it asks for are the files of `CANDIDATE_FILES`. -/
def firstRequest : ObservationRequest where
  snapshot := bareSnapshot.toSnapshot
  sourceIds := []
  paths := []
  blockedBy := []
  claims := []
  patterns := []
  lineWindows := []
  question := []
  iteration := 1
  onePerPath := List.nodup_nil

/-- The start of a call, with a minute and ten reads. -/
def aMinute : Observing Unit where
  world := ()
  budget :=
    { limits := ⟨60, 1, 10, 1, 1, by decide⟩
      deadline := 60 }

end AtlasCore
