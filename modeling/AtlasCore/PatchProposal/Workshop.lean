import AtlasCore.Evidence.Drift
import AtlasCore.Gateway.Invoke
import AtlasCore.Lib.Replacing
import AtlasCore.Lib.View
import AtlasCore.PatchProposal.Paths

/-!
# The workshop of a proposal

A proposal is built, tested, shown, approved and written by programs outside of this one: git, the
test command, the file system, the person who is asked.  `Workshop` is what they are to this
program, and nothing is assumed of what they answer or do to the world.

What was asked of them is kept in `Yard.deeds`, in the order it was asked, with what the person was
shown and what the tests gave.  Nothing reads it: it is what the properties of a proposal are stated
with.
-/

set_option autoImplicit false

namespace AtlasCore

open Py

/-! ## Tests

A test run, and how the program that runs it may end. -/

/-- `TestRun`: the command, how it ended, how long it took, and the end of what it printed. -/
structure TestRun where
  argv : List Str
  exitCode : Option ℤ
  /-- Rounded. -/
  seconds : ℚ
  output : Str
  timedOut : Bool
  deriving DecidableEq

/-- `TestRun.passed`: it ended by itself, with 0. -/
def TestRun.passed (t : TestRun) : Bool := t.exitCode = some 0 && !t.timedOut

/-- How `subprocess.run` of a test command ends: with both outputs, out of time, or not at all. -/
inductive TestEnd where
  | finished (code : ℤ) (output : Bytes)
  | timedOut (output : Bytes)
  /-- An `OSError`, with its text. -/
  | notRun (text : Str)

/-! ## What was asked for

The world a proposal is made in, and what is kept of what was asked of it. -/

/-- Something a proposal asked of the world, one case for each kind of thing. -/
inductive Deed where
  | git (act : Act)
  /-- `git check-ref-format`. -/
  | checkRefFormat (name : Str)
  /-- `git -C repo update-ref --stdin`, with this text on its standard input. -/
  | transaction (repo text : Str)
  /-- A directory of its own was made. -/
  | made (dir : Str)
  | removed (dir : Str)
  /-- The tests ran in a directory. -/
  | tested (run : TestRun) (cwd : Str)
  /-- A person was shown this, and answered that. -/
  | asked (shown answer : Str)
  deriving DecidableEq

/-- A world, and what was asked for in it. -/
structure Yard (W : Type) where
  world : W
  deeds : List Deed := []

/-- The machine a proposal is made on; an instant of a clock of the authority is a `τ`. -/
structure Workshop (W τ : Type) extends Site W where
  /-- `subprocess.run(["git", "-C", repo, "update-ref", .., "--stdin"], input=..)`: the code. -/
  updateRefs : Str → Bytes → Eff Exc W ℤ
  /-- `subprocess.run(["git", "check-ref-format", name])`: the code. -/
  checkRefFormat : Str → Eff Exc W ℤ
  /-- `Path(repo).expanduser().resolve()`. -/
  resolve : Str → Eff Exc W Str
  /-- `tempfile.mkdtemp`. -/
  mkdtemp : Eff Exc W Str
  /-- `shutil.rmtree(.., ignore_errors=True)`. -/
  rmtree : Str → Eff Exc W Unit
  /-- `Path.write_bytes`. -/
  writeBytes : Str → Bytes → Eff Exc W Unit
  runTests : List Str → Str → Eff Exc W TestEnd
  /-- `time.monotonic`. -/
  monotonic : Eff Exc W ℚ
  /-- `round(.., 3)`. -/
  round3 : ℚ → ℚ
  /-- `str` of what `round` gives. -/
  secondsText : ℚ → Str
  /-- What `take_snapshot` asks git. -/
  checkout : Checkout W
  /-- The authority a proposal makes, on this machine; its `head_of` is `clean_head`, and that of
  `office` is not asked. -/
  office : Office W τ
  /-- `GRANT_TTL_SECONDS`, on its clocks. -/
  grantTtl : τ
  /-- `type(exc).__name__`. -/
  typeName : Exc → Str
  /-- `"JSON" in str(exc)`. -/
  mentionsJson : Exc → Bool
  /-- How many containers `json.dumps` opens inside each other. -/
  nesting : ℕ
  /-- `==`. -/
  equal : PyVal → PyVal → Bool
  /-- `digest` of what is no JSON. -/
  digest : PyVal → Eff Exc W Str

variable {W τ : Type}

/-- `clean_head`: the commit that pins the bytes of a repository. -/
def cleanHead (checkout : Checkout W) (root : Str) : Eff Exc W Str := do
  let snapshot ← takeSnapshot checkout root
  if snapshot.commit = UNKNOWN ∨ snapshot.worktreeState ≠ .clean then
    Eff.raise (.approvalRejected (str "state_unpinned"))
  else return snapshot.commit

/-- What the world does, of which no note is taken. -/
def outdoors {α : Type} (m : Eff Exc W α) : Eff Exc (Yard W) α :=
  m.zoom (·.world) fun w y ↦ { y with world := w }

/-- Take a note of a deed.  No step reads the notes; they are what is proved about a proposal. -/
def deed (d : Deed) : Eff Exc (Yard W) Unit := Eff.update fun y ↦ { y with deeds := y.deeds ++ [d] }

/-- A computation of the shop: the commands it ran are deeds. -/
def inShop {α : Type} (m : Eff Exc (Shop W) α) : Eff Exc (Yard W) α :=
  m.zoom (fun y ↦ ⟨y.world, []⟩) fun s y ↦ ⟨s.world, y.deeds ++ s.acts.map .git⟩

namespace Workshop

variable (shop : Workshop W τ)

/-! ## The small steps

The commands and files of a proposal, one definition for each helper of the source. -/

/-- `_git`, in the yard: the command is noted before it is run. -/
def git (cwd : Str) (args : List Str) (check : Bool) : Eff Exc (Yard W) Completed :=
  inShop (shop.toSite.git cwd args check)

/-- `_git(..).stdout.decode()`: what git printed, which has to be UTF-8. -/
def gitText (cwd : Str) (args : List Str) (check : Bool) : Eff Exc (Yard W) Str := do
  Eff.ofExcept (decoded (← shop.git cwd args check).stdout)

/-- `_git(..).stdout.decode().strip()`: one word that git printed, without the line feed after it.
-/
def gitWord (cwd : Str) (args : List Str) (check : Bool) : Eff Exc (Yard W) Str :=
  strip <$> shop.gitText cwd args check

/-- The arguments of `git diff` between two commits. -/
def diffArgs (base commit : Str) : List Str :=
  [str "diff", str "--binary", str "--no-color", str "--no-ext-diff", str "--no-renames", base,
    commit]

/-- `_diff`: what a commit changes; bytes that are no UTF-8 are replaced. -/
def diff (cwd base commit : Str) : Eff Exc (Yard W) Str := do
  return decodeReplacing (← shop.git cwd (diffArgs base commit) true).stdout

/-- `hashlib.sha256(text.encode("utf-8")).hexdigest()`, which raises where the text cannot be
encoded. -/
def hashed (text : Str) : Eff Exc (Yard W) Str :=
  match sha256Text text with
  | some digest => return digest
  | none => Eff.raise .unicodeEncodeError

/-- `tempfile.mkdtemp`: a directory of its own, which is noted once it is there. -/
def makeDir : Eff Exc (Yard W) Str := do
  let dir ← outdoors shop.mkdtemp
  deed (.made dir)
  return dir

/-- `shutil.rmtree`, noted before it is asked for. -/
def removeDir (dir : Str) : Eff Exc (Yard W) Unit := do
  deed (.removed dir)
  outdoors (shop.rmtree dir)

/-- `MAX_TEST_OUTPUT`: how much of what the tests printed is kept. -/
def MAX_TEST_OUTPUT : ℕ := 8 * 1024

/-- The last so many characters: `text[-n:]`, of a positive number. -/
def lastChars (n : ℕ) (text : Str) : Str := text.drop (text.length - n)

/-- What is kept of how the tests ended. -/
def testRun (argv : List Str) (seconds : ℚ) : TestEnd → Except Exc TestRun
  | .finished code raw => .ok ⟨argv, some code, seconds, kept raw, false⟩
  | .timedOut raw => .ok ⟨argv, none, seconds, kept raw, true⟩
  | .notRun text =>
    match encode text with
    | some raw => .ok ⟨argv, some 127, seconds, kept raw, false⟩
    | none => .error .unicodeEncodeError
where
  /-- `redact_text(raw.decode("utf-8", "replace")[-MAX_TEST_OUTPUT:])`. -/
  kept (raw : Bytes) : Str :=
    shop.office.mask.text (lastChars MAX_TEST_OUTPUT (decodeReplacing raw))

/-- `_run_tests`: the command is run in a directory, and its end and its time become a `TestRun`. -/
def testIn (argv : List Str) (cwd : Str) : Eff Exc (Yard W) TestRun := do
  let started ← outdoors shop.monotonic
  let ending ← outdoors (shop.runTests argv cwd)
  let finished ← outdoors shop.monotonic
  let run ← Eff.ofExcept (shop.testRun argv (shop.round3 (finished - started)) ending)
  deed (.tested run cwd)
  return run

/-- `_check_ref`: the name is that of a branch, has no white space, and git takes it for one. -/
def checkRef (name : Str) : Eff Exc (Yard W) Str := do
  if ¬ startsWith name (str "refs/heads/") ∨ name.any isSpace then Eff.raise .proposalRefused
  else
    deed (.checkRefFormat name)
    if (← outdoors (shop.checkRefFormat name)) ≠ 0 then Eff.raise .proposalRefused else return name

end Workshop

end AtlasCore
