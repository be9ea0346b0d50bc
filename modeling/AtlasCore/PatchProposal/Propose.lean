import AtlasCore.PatchProposal.Write

/-!
# Proposing

`propose` prepares, tests, shows and asks, and writes only on an exact answer.  Afterwards it reads
the repository again, and takes the branch back where a reading does not agree with what was
approved.

Whatever the machine does and however a run of it ends, everything that was asked of the world was
warranted when it was asked (`Grown Warranted`); and where it returns, its report says what was
written (`propose_accounts`).
-/

set_option autoImplicit false

namespace AtlasCore

open Py

/-! ## Verification

After the write the branch is looked at again, and the tests run on what is there. -/

/-- One check of the write; one that could not be made was skipped, and has not passed. -/
structure Check where
  name : Str
  passed : Bool
  skipped : Bool
  detail : Str
  deriving DecidableEq

/-- Everything the write must leave alone, as git tells it. -/
structure RepoState where
  refs : Str
  head : Str
  headRef : Str
  status : Str
  deriving DecidableEq

/-- `try: m finally: cleanup`: the clean-up comes in any case, and where it raises, that is what is
raised. -/
def tryFinally {ε σ α : Type} (m : Eff ε σ α) (cleanup : Eff ε σ Unit) : Eff ε σ α := do
  let outcome ← Eff.attempt m
  cleanup
  Eff.ofExcept outcome

/-- `str(Path(path).parent)`, of a path below the root. -/
def parentOf (path : Str) : Str := ((path.reverse.dropWhile (· ≠ ch '/')).drop 1).reverse

/-- The checks that need the branch, which are skipped where it is not there. -/
def branchChecks : List Str :=
  [str "parent_is_base", str "diff_is_approved", str "only_this_ref_changed",
    str "head_and_worktree_untouched", str "tests_pass_on_branch"]

namespace Workshop

variable {W τ : Type} (shop : Workshop W τ)

/-- `_repo_state`: the refs, where `HEAD` is and what it points to, and the state of the worktree.
-/
def repoState (repo : Str) : Eff Exc (Yard W) RepoState := do
  let refs ← shop.gitText repo [str "for-each-ref", str "--format=%(refname) %(objectname)"] true
  let head ← shop.gitWord repo [str "rev-parse", str "HEAD"] true
  let headRef ← shop.gitWord repo [str "symbolic-ref", str "-q", str "HEAD"] false
  let status ← shop.gitText repo
    [str "status", str "--porcelain", str "--untracked-files=all"] true
  return ⟨refs, head, headRef, status⟩

/-- The tests, on the branch, in a fresh clone that is removed again. -/
def retest (p : Proposal) (commit : Str) : Eff Exc (Yard W) TestRun := do
  let dir ← shop.makeDir
  tryFinally
    (do
      shop.cloneAt dir p.repo commit
      shop.testIn p.tests.argv (cloneOf dir))
    (shop.removeDir dir)

/-- The checks of a branch that is where it should be. -/
def checksOf (p : Proposal) (before after : RepoState) (commit parent shown : Str)
    (t : TestRun) : List Check :=
  -- sorted lists are equal when one is a permutation of the other
  let refsAsExpected := (splitlines after.refs).isPerm
    (splitlines before.refs ++ [p.ref ++ str " " ++ p.commit])
  let untouched := after.head = before.head ∧ after.headRef = before.headRef ∧
    after.status = before.status
  [⟨str "ref_points_at_commit", true, false, commit⟩,
    ⟨str "parent_is_base", parent = p.base, false, parent⟩,
    ⟨str "diff_is_approved", shown = p.diffSha256, false, shown⟩,
    ⟨str "only_this_ref_changed", refsAsExpected, false, []⟩,
    ⟨str "head_and_worktree_untouched", untouched, false, []⟩,
    ⟨str "tests_pass_on_branch", t.passed, false, verdictText t⟩]

/-- The checks where the branch is not at the commit. -/
def checksMissing (commit : Str) : List Check :=
  ⟨str "ref_points_at_commit", false, false, commit⟩ ::
    branchChecks.map fun name ↦ ⟨name, false, true, str "ref does not point at the commit"⟩

/-- `verify_created`: the branch that was made is compared with what was approved, and tested again.
-/
def verifyCreated (p : Proposal) (before : RepoState) :
    Eff Exc (Yard W) (List Check × Option TestRun) := do
  let commit ← shop.gitWord p.repo [str "rev-parse", str "--verify", str "--quiet", p.ref] false
  if commit ≠ p.commit then return (checksMissing commit, none)
  else
    let parent ← shop.gitWord p.repo [str "rev-parse", commit ++ str "^"] true
    let shown ← hashed (← shop.diff p.repo p.base commit)
    let after ← shop.repoState p.repo
    let t ← shop.retest p commit
    return (checksOf p before after commit parent shown t, some t)

/-- `rollback`: the branch is deleted, if it still stands where it was made. -/
def rollback (p : Proposal) : Eff Exc (Yard W) Bool := do
  let deleted ← shop.git p.arguments.deleteAct.cwd p.arguments.deleteAct.args false
  return deleted.returncode = 0

end Workshop

/-! ## The report

What is reported of a proposal, however far it came. -/

/-- `OUTCOMES`: how a proposal can end. -/
inductive ProposalOutcome where
  | branchCreated | verificationFailed | testsFailed | approvalRequired | refused
  deriving DecidableEq

/-- The exit code an outcome gives; only a branch that was made and verified gives 0. -/
def ProposalOutcome.exitCode : ProposalOutcome → ℕ
  | branchCreated => 0
  | verificationFailed => 4
  | testsFailed => 2
  | approvalRequired => 3
  | refused => 3

/-- How many of the writes of a proposal are behind an outcome. -/
def ProposalOutcome.writeCount : ProposalOutcome → ℕ
  | branchCreated => 2
  | verificationFailed => 3
  | _ => 0

/-- An entry of `side_effects`: what was done, and how it can be undone. -/
structure SideEffect where
  what : Str
  reversible : Bool
  undo : Str
  deriving DecidableEq

/-- `side_effects`: the branch, which can be deleted, and the objects, which stay until git collects
them. -/
def sideEffects (p : Proposal) (rolledBack : Bool) : List SideEffect :=
  [⟨str "created " ++ p.ref ++ str " at " ++ p.commit, true,
      if rolledBack then str "rolled back"
      else str "git update-ref -d " ++ p.ref ++ str " " ++ p.commit⟩,
    ⟨str "fetched the proposal's objects into the repository", false,
      str ("not exactly: the objects become unreachable once the branch is deleted, " ++
        "but Core cannot restore the object store to its earlier bytes, and an " ++
        "eventual git gc is broader and later than an undo")⟩,
    ⟨str "ran " ++ join [ch ' '] p.tests.argv ++ str " twice, in throwaway clones", false,
      str ("not tracked by Core: the command ran with the user's privileges, and " ++
        "anything it did outside its clone is its own")⟩,
    ⟨str "contacted no remote; pushed and merged nothing", true, str "nothing to undo"⟩]

/-- `post_action`: what was found out about the write after it was made. -/
structure PostAction where
  verified : Bool
  checks : List Check
  retest : Option TestRun
  /-- `rollback.succeeded`; it was attempted where there is an answer. -/
  rolledBack : Option Bool
  sideEffects : List SideEffect

/-- What `propose` returns: the proposal, how it ended, and what was done. -/
structure ProposalReport where
  proposal : Proposal
  operation : Operation
  approvalId : Option Str
  outcome : ProposalOutcome
  postAction : Option PostAction

/-- The payload of `write_verified`: the checks and their results, without their details. -/
def verifiedPayload (p : Proposal) (post : PostAction) : Fields :=
  [(str "verified", .bool post.verified),
    (str "checks", .arr (post.checks.map fun c ↦
      .obj [(str "name", .str c.name), (str "passed", .bool c.passed),
        (str "skipped", .bool c.skipped)])),
    (str "ref", .str p.ref), (str "commit", .str p.commit),
    (str "rolled_back", (post.rolledBack.map Json.bool).getD .null)]

/-! ## `propose`

The whole course: prepare, ask, write, verify. -/

theorem proposalLimits_positive : (0 : ℚ) < 120 := by decide

/-- The limits of the gateway of a proposal. -/
def proposalLimits : RunLimits := ⟨120, 0, 1, 0, 4096, proposalLimits_positive⟩

/-- A computation of the gateway, from what the authority works on. -/
def onFloor {H τ α : Type} (budget : RunBudget) (m : FloorM H τ α) : DeskM H τ α :=
  m.zoom (fun d ↦ ⟨d, none, budget, none, false, [], 0⟩) fun s _ ↦ s.desk

/-- `log.append(..)`, if there is a log. -/
def recordInLog {W τ : Type} (office : Office W τ) (kind : EventKind) (payload : Fields) :
    DeskM W τ Unit := do
  match (← Eff.read).log with
  | none => return ()
  | some log =>
    (EventLog.append office.mask office.sink kind 0 none payload).zoom (fun d ↦ (d.world, log))
      fun p d ↦ { d with world := p.1, log := some p.2 }

namespace Workshop

variable {W τ : Type} (shop : Workshop W τ)

/-- `ask(render(proposal))`: a person is shown the proposal and answers; both are noted. -/
def consult (ask : Str → Eff Exc W Str) (shown : Str) : Eff Exc (Yard W) Str := do
  let answer ← outdoors (ask shown)
  deed (.asked shown answer)
  return answer

/-- The readings after the write, and what follows from them. -/
def settleWrite (p : Proposal) (before : RepoState) : Eff Exc (Yard W) PostAction := do
  let (checks, retest) ← shop.verifyCreated p before
  let verified := checks.all (·.passed)
  let rolledBack ← if verified then pure none else some <$> shop.rollback p
  return ⟨verified, checks, retest, rolledBack, sideEffects p (rolledBack = some true)⟩

/-- What follows an exact answer: a grant, the write with its token, and then the verification. -/
def writeApproved (p : Proposal) (op : Operation) (id grantedBy : Str) :
    DeskM (Yard W) τ ProposalReport := do
  let token ← Authority.grant shop.authority id grantedBy shop.grantTtl
  let budget ← asks (RunBudget.start shop.gateway.meter proposalLimits)
  let before ← asks (shop.repoState p.repo)
  -- the handler calls nothing of the gateway
  let _ ← onFloor budget (shop.gateway.invokeWrite (shop.gateway.callsAt 0) (str "create_branch")
    (.ofJson (.obj p.arguments.fields)) token 0)
  let post ← asks (shop.settleWrite p before)
  recordInLog shop.authority .writeVerified (verifiedPayload p post)
  let outcome := if post.verified then ProposalOutcome.branchCreated else .verificationFailed
  return ⟨p, op, some id, outcome, some post⟩

/-- The `try` of `propose`: no person is asked about a proposal whose tests failed. -/
def proposeWith (p : Proposal) (ask : Option (Str → Eff Exc W Str)) (grantedBy : Str) :
    DeskM (Yard W) τ ProposalReport := do
  let op ← Eff.ofExcept p.operation
  if p.tests.passed = false then return ⟨p, op, none, .testsFailed, none⟩
  else
    Eff.update fun d ↦ { d with approvals := [] }
    let id ← Authority.request shop.authority op 0
    match ask with
    | none => return ⟨p, op, some id, .approvalRequired, none⟩
    | some ask =>
      let answer ← asks (consult ask (shop.render p op))
      if strip answer ≠ op.sha256.take 12 then
        Authority.refuse shop.authority id grantedBy
        return ⟨p, op, some id, .refused, none⟩
      else shop.writeApproved p op id grantedBy

/-- `propose`: the proposal is prepared, decided and carried out, and its directory is removed
however that ends. -/
def propose (r : ProposalRequest) (ask : Option (Str → Eff Exc W Str)) (grantedBy : Str) :
    DeskM (Yard W) τ ProposalReport := do
  let p ← asks (shop.prepare r)
  tryFinally (shop.proposeWith p ask grantedBy) (asks (shop.removeDir (parentOf p.workdir)))

end Workshop

end AtlasCore
