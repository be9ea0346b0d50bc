import Mathlib.Algebra.Order.Field.Rat
import Mathlib.Data.List.Dedup
import AtlasCore.Evidence.Reading
import AtlasCore.Lib.Effect

/-!
# The guard of a worker process

`run_bounded_process` starts a worker in a session of its own and reads what it prints, until both
of its pipes are at their end, it printed too much, or the deadline has passed.  What the machine
does in between is not known: which pipe is ready when, how much of it can be read at once, how fast
the clock goes, and what else is raised.

Whatever it does, no more than one byte over the cap of a pipe is ever read.  A guard that returns
has read both pipes to their end, gives back what was read, all of it, and has killed nobody.  One
that raises has killed the session of the worker, but in two cases: the selector, which is made
before anything is tried, could not be made, and then the worker goes on; or the kill that was asked
for raised itself (`runBoundedProcess_guards`).
-/

set_option autoImplicit false

namespace AtlasCore

open Py

namespace Guard

/-- The pipes of a worker, the only two places where the guard hears from it. -/
inductive Pipe where
  | stdout
  | stderr
  deriving DecidableEq

/-- What the guard raises: its own refusals, the deadline, too much output, and whatever the machine
raises under it. -/
inductive GuardExc where
  /-- `RuntimeError`, where there are no process groups. -/
  | notPosix
  /-- `ValueError`. -/
  | invalidConfiguration
  /-- `WorkerDeadlineExceeded`. -/
  | deadline
  /-- `WorkerOutputExceeded`. -/
  | outputExceeded (name : Pipe)
  /-- What the machine raised. -/
  | foreign (e : Exc)

/-- What the guard did to the worker, in the order it did it.  The guard never reads these notes;
they are what is proved about it. -/
inductive Deed where
  | spawned (argv : List Str)
  /-- A read of a pipe; nothing is read at its end only. -/
  | read (name : Pipe) (block : Bytes)
  /-- `os.killpg(process.pid, signal.SIGKILL)` was asked for. -/
  | killing
  /-- And it came back. -/
  | killedGroup
  /-- The selector and the pipes were closed. -/
  | closed

/-- A world, and what the guard did in it. -/
structure Scene (W : Type) where
  world : W
  deeds : List Deed := []

/-- The machine: the operations of the system that the guard calls, each of which may raise. -/
structure Host (W : Type) where
  /-- `os.name == 'posix'`. -/
  posix : Bool
  /-- `time.monotonic`. -/
  monotonic : Eff Exc W ℚ
  /-- `subprocess.Popen`. -/
  popen : List Str → Eff Exc W Unit
  /-- `selectors.DefaultSelector()`. -/
  defaultSelector : Eff Exc W Unit
  /-- `selector.register(pipe, selectors.EVENT_READ, name)`. -/
  register : Pipe → Eff Exc W Unit
  /-- `selector.select(timeout)`, with the pipes that are registered. -/
  select : List Pipe → ℚ → Eff Exc W (List Pipe)
  /-- `os.read(fd, n)`. -/
  read : Pipe → ℕ → Eff Exc W Bytes
  /-- `process.wait(timeout=..)`, with `none` for `TimeoutExpired`. -/
  wait : ℚ → Eff Exc W (Option ℤ)
  /-- `os.killpg(process.pid, signal.SIGKILL)`; a `ProcessLookupError`, which says that there is no
  such group any more, is passed over. -/
  killpg : Eff Exc W Unit
  /-- `process.poll() is None`. -/
  isRunning : Eff Exc W Bool
  /-- `process.kill()`. -/
  kill : Eff Exc W Unit
  /-- `process.wait()`. -/
  reap : Eff Exc W Unit
  /-- `selector.close()`, and the pipes. -/
  close : Eff Exc W Unit

/-- A computation of the guard, over the machine and the deeds so far. -/
abbrev GuardM (W : Type) : Type → Type := Eff GuardExc (Scene W)

section
variable {W α : Type}

/-- What the machine does, as a step of the guard: where it raises, the exception passes through the
guard under its own name. -/
def ask (m : Eff Exc W α) : GuardM W α := fun s ↦
  (((m s.world).1).mapError .foreign, { s with world := (m s.world).2 })

/-- Take a note of a deed.  It cannot raise, so what was done is noted also where the next step
fails. -/
def note (d : Deed) : GuardM W Unit := Eff.update fun s ↦ { s with deeds := s.deeds ++ [d] }

variable (host : Host W)

/-- The process is waited for, and killed again where that takes too long. -/
def reapProcess : GuardM W Unit := do
  match ← ask (host.wait 2) with
  | some _ => return ()
  | none => do
    ask host.kill
    ask host.reap

/-- What `_kill_group` does once the session is killed. -/
def stopProcess : GuardM W Unit := do
  if ← ask host.isRunning then ask host.kill
  reapProcess host

/-- `_kill_group`: the whole session is killed, for a descendant may outlive the process. -/
def killGroup : GuardM W Unit := do
  note .killing
  ask host.killpg
  note .killedGroup
  stopProcess host

/-- `os.read`, which gives no more than it is asked for. -/
def readPipe (name : Pipe) (n : ℕ) : GuardM W Bytes := do
  let block ← ask (host.read name n)
  note (.read name (block.take n))
  return block.take n

/-- What the loop holds: the pipes that are still registered, and of each pipe the blocks that came
and their length. -/
structure Held where
  /-- `selector.get_map()`. -/
  registered : List Pipe
  chunks : Pipe → List Bytes
  sizes : Pipe → ℕ

/-- Before the first round: both pipes are registered and nothing was read. -/
def Held.empty : Held := ⟨[.stdout, .stderr], fun _ ↦ [], fun _ ↦ 0⟩

/-- `selector.unregister(key.fileobj)`: the pipe is at its end and is not waited for any more. -/
def Held.unregister (h : Held) (name : Pipe) : Held :=
  { h with registered := h.registered.filter (· ≠ name) }

/-- `sizes[name] += len(block)` and `chunks[name].append(block)`: a block is kept at the end of its
pipe. -/
def Held.keep (h : Held) (name : Pipe) (block : Bytes) : Held where
  registered := h.registered
  chunks := Function.update h.chunks name (h.chunks name ++ [block])
  sizes := Function.update h.sizes name (h.sizes name + block.length)

variable (caps : Pipe → ℕ)

/-- A pipe that is ready.  At most one byte more than there is room for is asked for, so that too
much output shows and is never held. -/
def readReady (h : Held) (name : Pipe) : GuardM W Held := do
  let block ← readPipe host name (min 65536 (caps name - h.sizes name + 1))
  if block = [] then return h.unregister name
  else if h.sizes name + block.length > caps name then Eff.raise (.outputExceeded name)
  else return h.keep name block

/-- The registered pipes that are ready, each once. -/
def keysOf (h : Held) (ready : List Pipe) : List Pipe := ready.dedup.filter (· ∈ h.registered)

/-- `while selector.get_map()`, for as many rounds; `none` where it goes on after them. -/
def loop (deadline : ℚ) : ℕ → Held → GuardM W (Option Held)
  | 0, _ => return none
  | n + 1, h =>
    if h.registered = [] then return some h
    else do
      let remaining := deadline - (← ask host.monotonic)
      if remaining ≤ 0 then Eff.raise .deadline
      else do
        let ready ← ask (host.select h.registered remaining)
        let h ← (keysOf h ready).foldlM (readReady host caps) h
        loop deadline n h

/-- `WorkerResult`: both outputs in full, and the status that the worker returned. -/
structure WorkerResult where
  stdout : Bytes
  stderr : Bytes
  returncode : ℤ

/-- What is tried, once the worker is started. -/
def superviseWorker (deadline : ℚ) (rounds : ℕ) : GuardM W (Option WorkerResult) := do
  ask (host.register .stdout)
  ask (host.register .stderr)
  match ← loop host caps deadline rounds .empty with
  | none => return none
  | some h => do
    let remaining := deadline - (← ask host.monotonic)
    if remaining ≤ 0 then Eff.raise .deadline
    else
      match ← ask (host.wait remaining) with
      | none => Eff.raise .deadline
      | some returncode =>
        return some ⟨(h.chunks .stdout).flatten, (h.chunks .stderr).flatten, returncode⟩

/-- `except BaseException: _kill_group(process); raise`: whatever goes wrong while the worker is
watched, the group is killed before the guard raises. -/
def superviseOrKill (deadline : ℚ) (rounds : ℕ) : GuardM W (Option WorkerResult) :=
  Eff.handle (superviseWorker host caps deadline rounds) fun e ↦ do
    killGroup host
    Eff.raise e

end

/-- The caps of the pipes, one for each, as the caller gave them. -/
def capsOf (stdoutLimit stderrLimit : ℕ) : Pipe → ℕ
  | .stdout => stdoutLimit
  | .stderr => stderrLimit

/-- `run_bounded_process`, with at most so many rounds of its loop. -/
def runBoundedProcess {W : Type} (host : Host W) (argv : List Str) (timeout : ℚ)
    (stdoutLimit stderrLimit rounds : ℕ) : GuardM W (Option WorkerResult) := do
  if host.posix = false then Eff.raise .notPosix
  else if argv = [] ∨ timeout ≤ 0 ∨ stdoutLimit < 1 ∨ stderrLimit < 1 then
    Eff.raise .invalidConfiguration
  else do
    let deadline := (← ask host.monotonic) + timeout
    ask (host.popen argv)
    note (.spawned argv)
    -- before the `try`: where this raises, the worker is left as it is
    ask host.defaultSelector
    match ← Eff.attempt
      (superviseOrKill host (capsOf stdoutLimit stderrLimit) deadline rounds) with
    -- it is still in its loop
    | .ok none => return none
    | outcome => do
      note .closed
      ask host.close
      Eff.ofExcept outcome

/-! ## What was read

The blocks that came from a pipe are what the loop holds of it, so its bounds are bounds on what was
read. -/

/-- What the reads of a pipe gave, block by block, the reads of the other pipe left out. -/
def blocksOf (name : Pipe) (deeds : List Deed) : List Bytes :=
  deeds.filterMap fun d ↦
    match d with
    | .read other block => if other = name then some block else none
    | _ => none

/-- Whether the worker was started: before that there is nothing to kill. -/
def Started (deeds : List Deed) : Prop := ∃ argv, .spawned argv ∈ deeds

section
variable {deeds : List Deed} {name other : Pipe} {block : Bytes}

theorem blocksOf_read : blocksOf name (deeds ++ [.read other block]) =
    blocksOf name deeds ++ if other = name then [block] else [] := by
  rw [blocksOf, List.filterMap_append]
  by_cases h : other = name <;> simp [blocksOf, h]

theorem blocksOf_concat {d : Deed} (h : ∀ other block, d ≠ .read other block) :
    blocksOf name (deeds ++ [d]) = blocksOf name deeds := by
  rw [blocksOf, List.filterMap_append]
  cases d with
  | read other block => exact absurd rfl (h other block)
  | _ => simp [blocksOf]

end

/-! ## The loop

What the loop over the pipes keeps, whatever becomes ready and however much of it is read: no pipe
gave more than its cap and one byte, and a pipe that was shut gave what it had. -/

/-- What the loop keeps: its chunks are what was read, up to the empty read at the end of a pipe. -/
structure Reading (caps : Pipe → ℕ) (h : Held) (deeds : List Deed) : Prop where
  started : Started deeds
  unharmed : .killing ∉ deeds ∧ .killedGroup ∉ deeds
  chunks : ∀ name, blocksOf name deeds =
    h.chunks name ++ if name ∈ h.registered then [] else [[]]
  filled : ∀ name, [] ∉ h.chunks name
  sizes : ∀ name, h.sizes name = (h.chunks name).flatten.length
  within : ∀ name, h.sizes name ≤ caps name

/-- What is known where something was raised while the worker ran. -/
structure Broken (caps : Pipe → ℕ) (e : GuardExc) (deeds : List Deed) : Prop where
  started : Started deeds
  bounded : ∀ name, (blocksOf name deeds).flatten.length ≤ caps name + 1
  exceeded : ∀ name, e = .outputExceeded name →
    (blocksOf name deeds).flatten.length = caps name + 1

/-- What a pipe gave, of the result that is returned. -/
def WorkerResult.output (r : WorkerResult) : Pipe → Bytes
  | .stdout => r.stdout
  | .stderr => r.stderr

/-- Nobody was killed, and the result is what the pipes gave until they were at their end. -/
structure Complete (caps : Pipe → ℕ) (r : WorkerResult) (deeds : List Deed) : Prop where
  unharmed : .killing ∉ deeds ∧ .killedGroup ∉ deeds
  atEnd : ∀ name, ∃ blocks, blocksOf name deeds = blocks ++ [[]] ∧ [] ∉ blocks ∧
    blocks.flatten = r.output name
  within : ∀ name, (r.output name).length ≤ caps name

/-- The exception is the machine's, and not one of the guard's own. -/
def GuardExc.IsForeign (e : GuardExc) : Prop := ∃ cause, e = .foreign cause

/-- What became of a worker that was started, where the guard raises. -/
inductive Left (caps : Pipe → ℕ) (e : GuardExc) (deeds : List Deed) : Prop where
  | killed (h : .killedGroup ∈ deeds)
  /-- It had ended, and closing its pipes raised. -/
  | ended (r : WorkerResult) (h : Complete caps r deeds)
  /-- The kill was asked for, and raised. -/
  | unkilled (h : .killing ∈ deeds) (hnot : .killedGroup ∉ deeds) (he : e.IsForeign)
  /-- There was no selector: nothing was done to it. -/
  | alone (argv : List Str) (h : deeds = [.spawned argv]) (he : e.IsForeign)

/-- What is known where the guard raises: what became of a worker that was started, and that no pipe
was read beyond its cap and one byte. -/
structure Shut (caps : Pipe → ℕ) (e : GuardExc) (deeds : List Deed) : Prop where
  stopped : Started deeds → Left caps e deeds
  bounded : ∀ name, (blocksOf name deeds).flatten.length ≤ caps name + 1
  exceeded : ∀ name, e = .outputExceeded name →
    (blocksOf name deeds).flatten.length = caps name + 1

section
variable {W α : Type} {host : Host W} {caps : Pipe → ℕ} {h : Held} {deeds : List Deed}
  {s : Scene W} {name other : Pipe} {e : GuardExc} {r : WorkerResult}

theorem wp_ask {m : Eff Exc W α} {Q : α → Scene W → Prop} {E : GuardExc → Scene W → Prop}
    (hQ : ∀ a w, Q a { s with world := w }) (hE : ∀ e w, E (.foreign e) { s with world := w }) :
    (ask m).wp Q E s := by
  rw [Eff.wp, ask]
  rcases m s.world with ⟨e | a, w⟩
  · exact hE e w
  · exact hQ a w

theorem wp_note {d : Deed} {Q : Unit → Scene W → Prop} {E : GuardExc → Scene W → Prop} :
    (note d).wp Q E s ↔ Q () { s with deeds := s.deeds ++ [d] } := Iff.rfl

theorem Reading.length_blocksOf (hr : Reading caps h deeds) :
    (blocksOf name deeds).flatten.length = h.sizes name := by
  rw [hr.chunks, hr.sizes]
  split_ifs <;> simp

theorem Reading.bounded (hr : Reading caps h deeds) (name : Pipe) :
    (blocksOf name deeds).flatten.length ≤ caps name + 1 := by
  rw [hr.length_blocksOf]
  exact (hr.within name).trans (Nat.le_succ _)

/-- Nothing but a read can break a cap. -/
theorem Reading.broken (hr : Reading caps h deeds) {e : GuardExc}
    (he : ∀ name, e ≠ .outputExceeded name) : Broken caps e deeds where
  started := hr.started
  bounded := hr.bounded
  exceeded := fun name heq ↦ absurd heq (he name)

/-- A deadline has passed before anything was read over its cap. -/
theorem Reading.late (hr : Reading caps h deeds) : Broken caps .deadline deeds :=
  hr.broken fun _ heq ↦ GuardExc.noConfusion heq

/-- The machine may raise whatever it likes. -/
theorem Reading.wp_ask (hr : Reading caps h deeds) {m : Eff Exc W α} {Q : α → Scene W → Prop}
    {w : W} (hQ : ∀ a w, Q a ⟨w, deeds⟩) :
    (ask m).wp Q (fun e t ↦ Broken caps e t.deeds) ⟨w, deeds⟩ :=
  Guard.wp_ask hQ fun _ _ ↦ hr.broken fun _ heq ↦ GuardExc.noConfusion heq

theorem Started.concat {d : Deed} (hs : Started deeds) : Started (deeds ++ [d]) :=
  hs.imp fun _ hmem ↦ List.mem_append_left _ hmem

theorem Reading.unregister (hr : Reading caps h deeds) (hname : name ∈ h.registered) :
    Reading caps (h.unregister name) (deeds ++ [.read name []]) where
  started := hr.started.concat
  unharmed := by simp [hr.unharmed]
  chunks := fun other ↦ by
    rw [blocksOf_read, hr.chunks, Held.unregister]
    by_cases heq : name = other
    · subst heq
      simp [hname]
    · simp [heq, Ne.symm heq]
  filled := hr.filled
  sizes := hr.sizes
  within := hr.within

theorem Held.chunks_keep {block : Bytes} : (h.keep name block).chunks other =
    h.chunks other ++ if name = other then [block] else [] := by
  rw [Held.keep]
  by_cases heq : name = other
  · subst heq
    simp
  · simp [heq, Function.update_of_ne (Ne.symm heq)]

theorem Held.sizes_keep {block : Bytes} : (h.keep name block).sizes other =
    h.sizes other + if name = other then block.length else 0 := by
  rw [Held.keep]
  by_cases heq : name = other
  · subst heq
    simp
  · simp [heq, Function.update_of_ne (Ne.symm heq)]

theorem Reading.keep {block : Bytes} (hr : Reading caps h deeds) (hname : name ∈ h.registered)
    (hblock : block ≠ []) (hcap : h.sizes name + block.length ≤ caps name) :
    Reading caps (h.keep name block) (deeds ++ [.read name block]) where
  started := hr.started.concat
  unharmed := by simp [hr.unharmed]
  chunks := fun other ↦ by
    have hregistered : (h.keep name block).registered = h.registered := rfl
    rw [blocksOf_read, hr.chunks, Held.chunks_keep, hregistered]
    -- the pipe that was read is still registered, and the other one has given nothing
    by_cases heq : name = other
    · subst heq
      rw [if_pos hname, List.append_nil, List.append_nil]
    · rw [if_neg heq, List.append_nil, List.append_nil]
  filled := fun other ↦ by
    rw [Held.chunks_keep, List.mem_append, not_or]
    refine ⟨hr.filled other, ?_⟩
    split_ifs
    · simpa using Ne.symm hblock
    · exact List.not_mem_nil
  sizes := fun other ↦ by
    rw [Held.sizes_keep, Held.chunks_keep, List.flatten_append, List.length_append, hr.sizes]
    split_ifs <;> simp
  within := fun other ↦ by
    rw [Held.sizes_keep]
    split_ifs with heq
    · exact heq ▸ hcap
    · exact hr.within other

/-- One byte over the cap is the most that is read. -/
theorem Reading.exceeded {block : Bytes} (hr : Reading caps h deeds)
    (hlength : block.length ≤ caps name - h.sizes name + 1)
    (hcap : caps name < h.sizes name + block.length) :
    Broken caps (.outputExceeded name) (deeds ++ [.read name block]) := by
  have hexact : (blocksOf name (deeds ++ [.read name block])).flatten.length = caps name + 1 := by
    rw [blocksOf_read, if_pos rfl, List.flatten_append, List.length_append, hr.length_blocksOf]
    have hwithin := hr.within name
    simp
    omega
  refine ⟨hr.started.concat, fun other ↦ ?_, fun other heq ↦ ?_⟩
  · by_cases heq : name = other
    · exact heq ▸ hexact.le
    · rw [blocksOf_read, if_neg heq, List.append_nil, hr.length_blocksOf]
      exact (hr.within other).trans (Nat.le_succ _)
  · obtain rfl := GuardExc.outputExceeded.inj heq
    exact hexact

/-- A pipe that is ready is read once; the other stays as it is. -/
theorem wp_readReady (hr : Reading caps h s.deeds) (hname : name ∈ h.registered) :
    (readReady host caps h name).wp
      (fun h' t ↦ Reading caps h' t.deeds ∧
        ∀ other ∈ h.registered, other ≠ name → other ∈ h'.registered)
      (fun e t ↦ Broken caps e t.deeds) s := by
  rw [readReady, Eff.wp_bind, readPipe, Eff.wp_bind]
  refine hr.wp_ask fun block w ↦ ?_
  rw [Eff.wp_bind, wp_note, Eff.wp_pure, Eff.wp_ite]
  refine ⟨fun hempty ↦ ?_, fun hblock ↦ ?_⟩
  · rw [hempty]
    refine ⟨hr.unregister hname, fun other hother hne ↦ ?_⟩
    exact List.mem_filter.mpr ⟨hother, decide_eq_true hne⟩
  · rw [Eff.wp_ite]
    refine ⟨fun hcap ↦ hr.exceeded ?_ hcap, fun hcap ↦ ?_⟩
    · exact (List.length_take_le _ _).trans (min_le_right _ _)
    · exact ⟨hr.keep hname hblock (not_lt.mp hcap), fun other hother _ ↦ hother⟩

theorem wp_readAll {keys : List Pipe} (hr : Reading caps h s.deeds) (hn : keys.Nodup)
    (hkeys : ∀ name ∈ keys, name ∈ h.registered) :
    (keys.foldlM (readReady host caps) h).wp (fun h' t ↦ Reading caps h' t.deeds)
      (fun e t ↦ Broken caps e t.deeds) s := by
  induction keys generalizing h s with
  | nil => exact hr
  | cons name rest ih =>
    rw [List.foldlM_cons, Eff.wp_bind]
    rw [List.nodup_cons] at hn
    refine (wp_readReady hr (hkeys name List.mem_cons_self)).mono (fun h' t ht ↦ ?_) fun _ _ h ↦ h
    refine ih ht.1 hn.2 fun other hother ↦
      ht.2 other (hkeys other (List.mem_cons_of_mem _ hother)) ?_
    rintro rfl
    exact hn.1 hother

/-- **The loop** goes on reading, and ends with both pipes read to their end. -/
theorem wp_loop {deadline : ℚ} (rounds : ℕ) (hr : Reading caps h s.deeds) :
    (loop host caps deadline rounds h).wp
      (fun ended t ↦ ∃ h', Reading caps h' t.deeds ∧
        ∀ last, ended = some last → last = h' ∧ h'.registered = [])
      (fun e t ↦ Broken caps e t.deeds) s := by
  induction rounds generalizing h s with
  | zero =>
    refine ⟨h, hr, fun last hsome ↦ ?_⟩
    cases hsome
  | succ n ih =>
    rw [loop, Eff.wp_ite]
    refine ⟨fun hempty ↦ ⟨h, hr, fun last hsome ↦ ?_⟩, fun _ ↦ ?_⟩
    · exact ⟨(Option.some.inj hsome).symm, hempty⟩
    rw [Eff.wp_bind]
    refine hr.wp_ask fun now w ↦ ?_
    rw [Eff.wp_ite]
    refine ⟨fun _ ↦ hr.late, fun _ ↦ ?_⟩
    rw [Eff.wp_bind]
    refine hr.wp_ask fun ready w ↦ ?_
    rw [Eff.wp_bind]
    have hkeys : (keysOf h ready).Nodup := (List.nodup_dedup ready).filter _
    refine (wp_readAll (s := ⟨w, s.deeds⟩) hr hkeys fun name hname ↦ ?_).mono
      (fun h' t ht ↦ ih ht) fun _ _ h ↦ h
    exact of_decide_eq_true (List.mem_filter.mp hname).2

/-! ## The whole guard

From the loop to the call: what is returned is complete and within the caps, and where something is
raised, nothing is left running. -/

theorem Reading.complete (hr : Reading caps h deeds) (hempty : h.registered = [])
    (houtput : ∀ name, r.output name = (h.chunks name).flatten) : Complete caps r deeds where
  unharmed := hr.unharmed
  atEnd := fun name ↦ ⟨h.chunks name, by rw [hr.chunks, hempty, if_neg List.not_mem_nil],
    hr.filled name, (houtput name).symm⟩
  within := fun name ↦ by
    rw [houtput, ← hr.sizes]
    exact hr.within name

theorem Complete.bounded (hc : Complete caps r deeds) (name : Pipe) :
    (blocksOf name deeds).flatten.length ≤ caps name + 1 := by
  obtain ⟨blocks, hblocks, -, houtput⟩ := hc.atEnd name
  have hwithin := hc.within name
  rw [hblocks, List.flatten_append, houtput]
  simp
  omega

/-- What is tried ends with everything read, or breaks off. -/
theorem wp_superviseWorker {deadline : ℚ} {rounds : ℕ} (hr : Reading caps .empty s.deeds) :
    (superviseWorker host caps deadline rounds).wp
      (fun ended t ↦ (∀ name, (blocksOf name t.deeds).flatten.length ≤ caps name + 1) ∧
        ∀ r, ended = some r → Complete caps r t.deeds)
      (fun e t ↦ Broken caps e t.deeds) s := by
  rw [superviseWorker, Eff.wp_bind]
  refine hr.wp_ask fun _ w ↦ ?_
  rw [Eff.wp_bind]
  refine hr.wp_ask fun _ w ↦ ?_
  rw [Eff.wp_bind]
  refine (wp_loop (s := ⟨w, s.deeds⟩) rounds hr).mono (fun ended t ht ↦ ?_) fun _ _ h ↦ h
  obtain ⟨h, hr, hlast⟩ := ht
  cases ended with
  | none =>
    refine ⟨hr.bounded, fun r hsome ↦ ?_⟩
    cases hsome
  | some last =>
    obtain ⟨rfl, hempty⟩ := hlast last rfl
    dsimp only
    rw [Eff.wp_bind]
    refine hr.wp_ask fun now w ↦ ?_
    rw [Eff.wp_ite]
    refine ⟨fun _ ↦ hr.late, fun _ ↦ ?_⟩
    rw [Eff.wp_bind]
    refine hr.wp_ask fun code w ↦ ?_
    cases code with
    | none => exact hr.late
    | some returncode =>
      refine ⟨hr.bounded, fun r hsome ↦ ?_⟩
      obtain rfl := Option.some.inj hsome
      refine hr.complete hempty fun name ↦ ?_
      cases name <;> rfl

theorem keeps_ask {P : Scene W → Prop} (hP : ∀ t w, P t → P { t with world := w })
    (m : Eff Exc W α) : Eff.Keeps P (ask m) := fun t ht ↦
  wp_ask (fun _ w ↦ hP t w ht) fun _ w ↦ hP t w ht

theorem raises_ask (m : Eff Exc W α) : Eff.Raises GuardExc.IsForeign (ask m) :=
  fun _ ↦ wp_ask (fun _ _ ↦ trivial) fun e _ ↦ ⟨e, rfl⟩

theorem keeps_stopProcess {P : Scene W → Prop} (hP : ∀ t w, P t → P { t with world := w }) :
    Eff.Keeps P (stopProcess host) := by
  have hreap : Eff.Keeps P (reapProcess host) := by
    refine (keeps_ask hP _).bind fun ended ↦ ?_
    cases ended with
    | none => exact (keeps_ask hP _).bind fun _ ↦ keeps_ask hP _
    | some code => exact Eff.Keeps.pure _
  refine (keeps_ask hP _).bind fun running ↦ ?_
  exact Eff.Keeps.ite (fun _ ↦ (keeps_ask hP _).bind fun _ ↦ hreap) fun _ ↦ hreap

theorem raises_stopProcess : Eff.Raises GuardExc.IsForeign (stopProcess host) := by
  have hreap : Eff.Raises GuardExc.IsForeign (reapProcess host) := by
    refine (raises_ask _).bind fun ended ↦ ?_
    cases ended with
    | none => exact (raises_ask _).bind fun _ ↦ raises_ask _
    | some code => exact Eff.Raises.pure _
  refine (raises_ask _).bind fun running ↦ ?_
  exact Eff.Raises.ite (fun _ ↦ (raises_ask _).bind fun _ ↦ hreap) fun _ ↦ hreap

theorem Broken.concat (hb : Broken caps e deeds) {d : Deed}
    (hd : ∀ other block, d ≠ .read other block) : Broken caps e (deeds ++ [d]) where
  started := hb.started.concat
  bounded := fun name ↦ by
    rw [blocksOf_concat hd]
    exact hb.bounded name
  exceeded := fun name heq ↦ by
    rw [blocksOf_concat hd]
    exact hb.exceeded name heq

/-- Another exception in the place of the one that was raised. -/
theorem Broken.foreign (hb : Broken caps e deeds) {e' : GuardExc} (he : e'.IsForeign) :
    Broken caps e' deeds := by
  obtain ⟨cause, rfl⟩ := he
  exact ⟨hb.started, hb.bounded, fun _ heq ↦ by cases heq⟩

/-- Something was raised while the worker ran, and its session was to be killed. -/
structure Struck (caps : Pipe → ℕ) (e : GuardExc) (deeds : List Deed) : Prop where
  broken : Broken caps e deeds
  asked : .killing ∈ deeds
  killed : .killedGroup ∈ deeds ∨ e.IsForeign

theorem Struck.shut (hs : Struck caps e deeds) : Shut caps e deeds where
  stopped := fun _ ↦ by
    by_cases hkilled : .killedGroup ∈ deeds
    · exact .killed hkilled
    · exact .unkilled hs.asked hkilled (hs.killed.resolve_left hkilled)
  bounded := hs.broken.bounded
  exceeded := hs.broken.exceeded

theorem Struck.closed (hs : Struck caps e deeds) : Struck caps e (deeds ++ [.closed]) where
  broken := hs.broken.concat fun _ _ h ↦ Deed.noConfusion h
  asked := List.mem_append_left _ hs.asked
  killed := hs.killed.imp_left fun h ↦ List.mem_append_left _ h

theorem Struck.foreign (hs : Struck caps e deeds) {e' : GuardExc} (he : e'.IsForeign) :
    Struck caps e' deeds where
  broken := hs.broken.foreign he
  asked := hs.asked
  killed := hs.killed.imp_right fun _ ↦ he

/-- A worker that broke off is killed, and what was raised is raised again, if killing it raises
nothing in its turn. -/
theorem wp_killGroup (hb : Broken caps e s.deeds) :
    (killGroup host).wp (fun _ t ↦ Struck caps e t.deeds)
    (fun e' t ↦ Struck caps e' t.deeds) s := by
  have hkilling : Broken caps e (s.deeds ++ [.killing]) := hb.concat fun _ _ h ↦ Deed.noConfusion h
  have hasked : .killing ∈ s.deeds ++ [.killing] := List.mem_append_right _ List.mem_cons_self
  rw [killGroup, Eff.wp_bind, wp_note, Eff.wp_bind]
  refine wp_ask (fun _ w ↦ ?_) fun cause w ↦ ?_
  · have hkilled : Struck caps e (s.deeds ++ [.killing] ++ [.killedGroup]) :=
      ⟨hkilling.concat fun _ _ h ↦ Deed.noConfusion h, List.mem_append_left _ hasked,
        .inl (List.mem_append_right _ List.mem_cons_self)⟩
    have hkeeps : Eff.Keeps (fun t : Scene W ↦ t.deeds = s.deeds ++ [.killing] ++ [.killedGroup])
        (stopProcess host) := keeps_stopProcess fun _ _ h ↦ h
    rw [Eff.wp_bind, wp_note]
    refine ((hkeeps _ rfl).and (raises_stopProcess _)).mono (fun _ t h ↦ ?_) fun e' t h ↦ ?_
    · rw [h.1]
      exact hkilled
    · obtain ⟨hdeeds, hforeign⟩ := h
      rw [hdeeds]
      exact hkilled.foreign hforeign
  · have hforeign : GuardExc.IsForeign (.foreign cause) := ⟨cause, rfl⟩
    exact ⟨hkilling.foreign hforeign, hasked, .inr hforeign⟩

/-- The worker is killed before anything that broke off goes on. -/
theorem wp_superviseOrKill {deadline : ℚ} {rounds : ℕ} (hr : Reading caps .empty s.deeds) :
    (superviseOrKill host caps deadline rounds).wp
      (fun ended t ↦ (∀ name, (blocksOf name t.deeds).flatten.length ≤ caps name + 1) ∧
        ∀ r, ended = some r → Complete caps r t.deeds)
      (fun e t ↦ Struck caps e t.deeds) s := by
  rw [superviseOrKill, Eff.wp_handle]
  refine (wp_superviseWorker hr).mono (fun _ _ h ↦ h) fun e t hb ↦ ?_
  rw [Eff.wp_bind]
  exact wp_killGroup hb

theorem Complete.closed (hc : Complete caps r deeds) : Complete caps r (deeds ++ [.closed]) where
  unharmed := by simp [hc.unharmed]
  atEnd := fun name ↦ by
    rw [blocksOf_concat fun _ _ h ↦ Deed.noConfusion h]
    exact hc.atEnd name
  within := hc.within

/-- The worker was just started. -/
theorem reading_spawned (argv : List Str) : Reading caps .empty [.spawned argv] where
  started := ⟨argv, List.mem_cons_self⟩
  unharmed := by simp
  chunks := fun name ↦ by cases name <;> rfl
  filled := fun _ ↦ List.not_mem_nil
  sizes := fun _ ↦ rfl
  within := fun _ ↦ Nat.zero_le _

/-- Where closing raises after everything was read. -/
theorem Complete.shut (hc : Complete caps r deeds) {cause : Exc} :
    Shut caps (.foreign cause) deeds where
  stopped := fun _ ↦ .ended r hc
  bounded := hc.bounded
  exceeded := fun name heq ↦ by cases heq

/-- Without a selector nothing is done to the worker. -/
theorem shut_spawned {argv : List Str} {cause : Exc} :
    Shut caps (.foreign cause) [.spawned argv] where
  stopped := fun _ ↦ .alone argv rfl ⟨cause, rfl⟩
  bounded := (reading_spawned argv).bounded
  exceeded := fun name heq ↦ by cases heq

/-- Before the worker is started nothing was done. -/
theorem shut_nil (he : ∀ name, e ≠ .outputExceeded name) : Shut caps e [] where
  stopped := fun h ↦ by
    obtain ⟨argv, h⟩ := h
    cases h
  bounded := fun _ ↦ Nat.zero_le _
  exceeded := fun name heq ↦ absurd heq (he name)

end

/-- **A worker is read to its end, or stopped.**  Whatever the machine does, however long the loop
goes on, no more than one byte over its cap is read of a pipe; a guard that returns has killed
nobody and gives back all that the pipes gave until they were at their end; and where it raises, a
worker that was started was killed, if it had not ended, unless there was no selector for it or the
kill itself raised. -/
theorem runBoundedProcess_guards {W : Type} (host : Host W) (argv : List Str) (timeout : ℚ)
    (stdoutLimit stderrLimit rounds : ℕ) (w : W) :
    (runBoundedProcess host argv timeout stdoutLimit stderrLimit rounds).wp
      (fun ended t ↦ (∀ name, (blocksOf name t.deeds).flatten.length ≤
          capsOf stdoutLimit stderrLimit name + 1) ∧
        ∀ r, ended = some r →
          Complete (capsOf stdoutLimit stderrLimit) r t.deeds ∧ .closed ∈ t.deeds)
      (fun e t ↦ Shut (capsOf stdoutLimit stderrLimit) e t.deeds) { world := w } := by
  rw [runBoundedProcess, Eff.wp_ite]
  refine ⟨fun _ ↦ shut_nil fun _ h ↦ GuardExc.noConfusion h, fun _ ↦ ?_⟩
  rw [Eff.wp_ite]
  refine ⟨fun _ ↦ shut_nil fun _ h ↦ GuardExc.noConfusion h, fun _ ↦ ?_⟩
  rw [Eff.wp_bind]
  refine wp_ask (fun now w ↦ ?_) fun e w ↦ shut_nil fun _ h ↦ GuardExc.noConfusion h
  rw [Eff.wp_bind]
  refine wp_ask (fun _ w ↦ ?_) fun e w ↦ shut_nil fun _ h ↦ GuardExc.noConfusion h
  rw [Eff.wp_bind, wp_note, Eff.wp_bind]
  refine wp_ask (fun _ w ↦ ?_) fun e w ↦ shut_spawned
  rw [Eff.wp_bind, Eff.wp_attempt]
  refine (wp_superviseOrKill (reading_spawned argv)).mono (fun ended t ht ↦ ?_) fun e t ht ↦ ?_
  · cases ended with
    | none =>
      refine ⟨ht.1, fun r hsome ↦ ?_⟩
      cases hsome
    | some r =>
      have hclosed := (ht.2 r rfl).closed
      dsimp only
      rw [Eff.wp_bind, wp_note, Eff.wp_bind]
      refine wp_ask (fun _ w ↦ ⟨hclosed.bounded, fun r' hsome ↦ ?_⟩) fun e w ↦ hclosed.shut
      obtain rfl := Option.some.inj hsome
      exact ⟨hclosed, List.mem_append_right _ List.mem_cons_self⟩
  · dsimp only
    rw [Eff.wp_bind, wp_note, Eff.wp_bind]
    exact wp_ask (fun _ w ↦ ht.closed.shut) fun cause w ↦ (ht.closed.foreign ⟨cause, rfl⟩).shut

end Guard

end AtlasCore
