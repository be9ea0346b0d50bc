import AtlasCore.PatchProposal.Propose

/-!
# A proposal accounts for what it wrote

Nothing is assumed of the machine, of git or of the person.  Everything that a proposal asks of the
world is warranted when it is asked, whether the run returns or raises; and where it returns, the
report, the log and what was written agree.

The proof goes through `propose` in its order, with what is known at each point: that a write which
was asked for was approved by an exact answer, and that the report of a write agrees with the checks
that were made.  `propose_accounts` puts this together, for a run that returns and for one that
raises.
-/

set_option autoImplicit false

namespace AtlasCore

open Py

variable {W τ : Type} {shop : Workshop W τ} {ws known : List Deed} {y : Yard W}

/-! ## The handler

What the handler writes is what the proposal says it may, in that order, and it may stop on the way.
-/

/-- What was written so far is a beginning of the writes of the proposal. -/
def Underway (shop : Workshop W τ) (p : Proposal) (known : List Deed) (y : Yard W) : Prop :=
  ∃ n, Kept shop (p.writes.take n) known y

theorem Underway.of_kept {p : Proposal} {n : ℕ} (h : Kept shop (p.writes.take n) known y) :
    Underway shop p known y := ⟨n, h⟩

theorem steady_underway {p : Proposal} : Steady (Underway shop p known) := fun _ w h ↦
  h.imp fun _ hn ↦ hn.world w

theorem keeps_describe (v : PyVal) :
    Eff.Keeps (Kept shop ws known) (shop.describeCreateBranch v) := by
  refine (Eff.Keeps.ofExcept _).bind fun a ↦ keeps_checkRef.bind fun _ ↦
    Eff.Keeps.ite (fun _ ↦ Eff.Keeps.raise _) fun _ ↦ (Eff.Keeps.ofExcept _).bind fun _ ↦
    Eff.Keeps.ofExcept _

/-- The transaction is the next write of a proposal, if it comes to that. -/
theorem wp_transact {repo text : Str} {p : Proposal} {op : Operation} (hy : Kept shop ws known y)
    (happroved : Approved shop known p op) (hnext : ws ++ [.transaction repo text] <+: p.writes) :
    (shop.transact repo text).wp (fun _ t ↦ Kept shop (ws ++ [.transaction repo text]) known t)
      (fun _ t ↦ Kept shop ws known t ∨ Kept shop (ws ++ [.transaction repo text]) known t) y := by
  rw [Workshop.transact]
  split
  · exact .inl hy
  · rw [Eff.wp_bind]
    refine wp_deed ?_
    have hwritten := (hy.write happroved hnext rfl rfl y.world).forget
    exact (keeps_outdoors _ _ hwritten).mono (fun _ _ h ↦ h) fun _ _ h ↦ .inr h

/-- The handler writes what the proposal says, in order. -/
theorem wp_createBranch {p : Proposal} {op : Operation} (happroved : Approved shop known p op)
    (hy : Kept shop [] known y) :
    (shop.createBranch (.ofJson (.obj p.arguments.fields))).wp
      (fun _ t ↦ Kept shop (p.writes.take 2) known t) (fun _ t ↦ Underway shop p known t) y := by
  have hfetch : Kept shop (p.writes.take 1) known
      { y with deeds := y.deeds ++ [.git p.arguments.fetchAct] } :=
    (hy.write happroved ⟨_, rfl⟩ rfl rfl y.world).forget
  rw [Workshop.createBranch, Eff.wp_bind, read_arguments]
  show ((do
    let _ ← shop.git p.arguments.fetchAct.cwd p.arguments.fetchAct.args true
    _) : Eff Exc (Yard W) PyVal).wp _ _ y
  rw [Eff.wp_bind]
  have hgit : ∀ t : Yard W, t.deeds = y.deeds ++ [.git p.arguments.fetchAct] →
      Kept shop (p.writes.take 1) known t := by
    rintro ⟨w, deeds⟩ ht
    obtain rfl : deeds = y.deeds ++ [.git p.arguments.fetchAct] := ht
    exact hfetch.world w
  refine wp_git.mono (fun _ y hy ↦ ?_) fun _ t ht ↦ .of_kept (hgit t ht)
  replace hy := hgit y hy
  rw [Eff.wp_bind]
  refine (keeps_gitWord (safe_reading rfl) y hy).mono (fun parent y hy ↦ ?_) fun _ _ h ↦ .of_kept h
  refine Eff.wp_ite.mpr ⟨fun _ ↦ .of_kept hy, fun _ ↦ ?_⟩
  rw [Eff.wp_bind]
  refine (keeps_diff y hy).mono (fun shown y hy ↦ ?_) fun _ _ h ↦ .of_kept h
  rw [Eff.wp_bind]
  refine (keeps_hashed y hy).mono (fun digest y hy ↦ ?_) fun _ _ h ↦ .of_kept h
  refine Eff.wp_ite.mpr ⟨fun _ ↦ .of_kept hy, fun _ ↦ ?_⟩
  rw [Eff.wp_bind]
  refine (keeps_checkRef y hy).mono (fun _ y hy ↦ ?_) fun _ _ h ↦ .of_kept h
  rw [Eff.wp_bind]
  refine (wp_transact hy happroved ⟨_, rfl⟩).mono (fun code y hy ↦ ?_) fun _ t ht ↦ ?_
  · exact Eff.wp_ite.mpr ⟨fun _ ↦ .of_kept (n := 2) hy, fun _ ↦ hy⟩
  · exact ht.elim .of_kept fun h ↦ .of_kept (n := 2) h

/-! ## Verification

What a report says of a write: that it agrees with itself, and with what was done. -/

theorem keeps_repoState {repo : Str} : Eff.Keeps (Kept shop ws known) (shop.repoState repo) :=
  (keeps_gitText (safe_reading rfl)).bind fun _ ↦ (keeps_gitWord (safe_reading rfl)).bind fun _ ↦
    (keeps_gitWord (safe_reading rfl)).bind fun _ ↦ (keeps_gitText (safe_reading rfl)).bind fun _ ↦
    Eff.Keeps.pure _

/-- The tests run again, in a directory of their own. -/
theorem wp_retest {p : Proposal} {commit : Str} (hy : Kept shop ws known y) :
    (shop.retest p commit).wp
      (fun run t ↦ ∃ dir, Kept shop ws (.tested run (cloneOf dir) :: known) t)
      (fun _ t ↦ Kept shop ws known t) y := by
  rw [Workshop.retest, Eff.wp_bind]
  refine (wp_makeDir hy).mono (fun dir y hy ↦ ?_) fun _ _ h ↦ h
  have htests : (do
      shop.cloneAt dir p.repo commit
      shop.testIn p.tests.argv (cloneOf dir) : Eff Exc (Yard W) TestRun).wp
        (fun run t ↦ Kept shop ws (.tested run (cloneOf dir) :: .made dir :: known) t)
        (fun _ t ↦ Kept shop ws (.made dir :: known) t) y := by
    rw [Eff.wp_bind]
    refine (keeps_cloneAt List.mem_cons_self y hy).mono (fun _ y hy ↦ ?_) fun _ _ h ↦ h
    exact wp_testIn hy List.mem_cons_self
  rw [tryFinally, Eff.wp_bind, Eff.wp_attempt]
  refine htests.mono (fun run y hy ↦ ?_) fun e y hy ↦ ?_
  · rw [Eff.wp_bind]
    refine (keeps_removeDir (List.mem_cons_of_mem _ List.mem_cons_self) y hy).mono
      (fun _ y hy ↦ ⟨dir, hy.weaken ?_⟩) fun _ _ h ↦ h.forget.forget
    exact List.cons_subset_cons _ (List.subset_cons_self _ _)
  · rw [Eff.wp_bind]
    exact (keeps_removeDir List.mem_cons_self y hy).mono (fun _ _ h ↦ h.forget) fun _ _ h ↦ h.forget

/-- Where every check passed, the tests ran again and passed. -/
structure Verified (deeds : List Deed) (checks : List Check) (retest : Option TestRun) : Prop where
  retested : checks.all (·.passed) = true →
    ∃ t dir, retest = some t ∧ t.passed = true ∧ .tested t (cloneOf dir) ∈ deeds

theorem wp_verifyCreated {p : Proposal} {before : RepoState} (hy : Kept shop ws known y) :
    (shop.verifyCreated p before).wp
      (fun found t ↦ Kept shop ws known t ∧ Verified t.deeds found.1 found.2)
      (fun _ t ↦ Kept shop ws known t) y := by
  rw [Workshop.verifyCreated, Eff.wp_bind]
  refine (keeps_gitWord (safe_reading rfl) y hy).mono (fun commit y hy ↦ ?_) fun _ _ h ↦ h
  refine Eff.wp_ite.mpr ⟨fun _ ↦ ⟨hy, ⟨fun h ↦ ?_⟩⟩, fun _ ↦ ?_⟩
  · simp [Workshop.checksMissing] at h
  rw [Eff.wp_bind]
  refine (keeps_gitWord (safe_reading rfl) y hy).mono (fun parent y hy ↦ ?_) fun _ _ h ↦ h
  rw [Eff.wp_bind]
  refine (keeps_diff y hy).mono (fun text y hy ↦ ?_) fun _ _ h ↦ h
  rw [Eff.wp_bind]
  refine (keeps_hashed y hy).mono (fun shown y hy ↦ ?_) fun _ _ h ↦ h
  rw [Eff.wp_bind]
  refine (keeps_repoState y hy).mono (fun after y hy ↦ ?_) fun _ _ h ↦ h
  rw [Eff.wp_bind]
  refine (wp_retest hy).mono (fun t y hy ↦ ?_) fun _ _ h ↦ h
  obtain ⟨dir, hy⟩ := hy
  refine ⟨hy.forget, ⟨fun h ↦ ⟨t, dir, rfl, ?_, hy.known _ List.mem_cons_self⟩⟩⟩
  simp only [Workshop.checksOf, List.all_cons, Bool.and_eq_true] at h
  exact h.2.2.2.2.2.1

/-- What is known of the report of a write: how it agrees with itself and with what was asked. -/
structure BorneOut (deeds : List Deed) (post : PostAction) : Prop where
  verified : post.verified = post.checks.all (·.passed)
  rolledBack : post.rolledBack.isSome = !post.verified
  retested : post.verified = true →
    ∃ t dir, post.retest = some t ∧ t.passed = true ∧ .tested t (cloneOf dir) ∈ deeds

theorem BorneOut.mono {before after : List Deed} {post : PostAction} (h : BorneOut before post)
    (hsub : ∀ d ∈ before, d ∈ after) : BorneOut after post :=
  ⟨h.verified, h.rolledBack, fun hv ↦ by
    obtain ⟨t, dir, hsome, hpassed, htested⟩ := h.retested hv
    exact ⟨t, dir, hsome, hpassed, hsub _ htested⟩⟩

/-- The write is verified, or taken back. -/
theorem wp_settleWrite {p : Proposal} {op : Operation} {before : RepoState}
    (happroved : Approved shop known p op) (hy : Kept shop (p.writes.take 2) known y) :
    (shop.settleWrite p before).wp
      (fun post t ↦ Kept shop (p.writes.take (if post.verified then 2 else 3)) known t ∧
        BorneOut t.deeds post)
      (fun _ t ↦ Underway shop p known t) y := by
  rw [Workshop.settleWrite, Eff.wp_bind]
  refine (wp_verifyCreated hy).mono (fun found y hy ↦ ?_) fun _ _ h ↦ .of_kept h
  obtain ⟨checks, retest⟩ := found
  obtain ⟨hy, hverified⟩ := hy
  dsimp only at hverified ⊢
  refine Eff.wp_ite.mpr ⟨fun hall ↦ ?_, fun hall ↦ ?_⟩
  · rw [Eff.wp_bind, Eff.wp_pure, Eff.wp_pure, hall]
    exact ⟨hy, hall.symm, rfl, fun _ ↦ hverified.retested hall⟩
  · rw [Bool.not_eq_true] at hall
    rw [Eff.wp_bind, map_eq_pure_bind, Eff.wp_bind, Workshop.rollback, Eff.wp_bind, hall]
    have hnext : ∀ t : Yard W, t.deeds = y.deeds ++ [.git p.arguments.deleteAct] →
        Kept shop (p.writes.take 3) known t := by
      rintro ⟨w, deeds⟩ ht
      obtain rfl : deeds = y.deeds ++ [.git p.arguments.deleteAct] := ht
      exact (hy.write happroved List.prefix_rfl rfl rfl w).forget
    refine wp_git.mono (fun deleted t ht ↦ ?_) fun _ t ht ↦ .of_kept (n := 3) (hnext t ht)
    exact ⟨hnext t ht, hall.symm, rfl, fun h ↦ by cases h⟩

/-! ## The whole

What a report says was done, against the deeds. -/

variable {d : Desk (Yard W) τ}

theorem wp_asks {α : Type} {m : Eff Exc (Yard W) α} {Q : α → Yard W → Prop}
    {E : Exc → Yard W → Prop} (h : m.wp Q E d.world) :
    (asks m : DeskM (Yard W) τ α).wp (fun a t ↦ Q a t.world ∧ t.log = d.log)
      (fun e t ↦ E e t.world ∧ t.log = d.log) d :=
  Eff.wp_zoom.mpr (h.mono (fun _ _ h ↦ ⟨h, rfl⟩) fun _ _ h ↦ ⟨h, rfl⟩)

/-- The last event of the log says whether the write was verified. -/
def ToldVerified (post : PostAction) (found : Option EventLog) : Prop :=
  ∀ log, found = some log → ∃ e, log.events.getLast? = some e ∧ e.kind = .writeVerified ∧
    getOrNull e.payload "verified" = .bool post.verified

theorem wp_recordInLog {J : Yard W → Prop} (hJ : Steady J) {p : Proposal} {post : PostAction}
    (hd : J d.world) :
    (recordInLog shop.authority .writeVerified (verifiedPayload p post)).wp
      (fun _ t ↦ J t.world ∧ ToldVerified post t.log) (fun _ t ↦ J t.world) d := by
  rw [recordInLog, Eff.wp_bind, Eff.wp_read]
  split
  · rename_i hlog
    refine ⟨hd, fun log h ↦ ?_⟩
    rw [hlog] at h
    cases h
  · rename_i log hlog
    rw [Eff.wp_zoom]
    refine ((hJ.append (d.world, log) hd).and EventLog.wp_append_snoc).mono (fun _ q hq ↦ ?_)
      fun _ _ h ↦ h.1
    obtain ⟨hworld, -, hsnoc⟩ := hq
    refine ⟨hworld, fun log' hlog' ↦ ?_⟩
    obtain rfl : q.2 = log' := Option.some.inj hlog'
    refine ⟨_, by rw [hsnoc, EventLog.snoc, List.getLast?_concat], rfl, ?_⟩
    have hkey : str "verified" ∉ VERBATIM_KEYS := by decide
    rw [EventLog.next, getOrNull, verifiedPayload, redactFields, if_neg hkey, Json.lookup,
      if_pos rfl]
    rfl

/-- How a report agrees with what was asked for, and with the log. -/
structure Accounts (shop : Workshop W τ) (asks : Bool) (report : ProposalReport)
    (d : Desk (Yard W) τ) : Prop where
  lawful : Py.Grown (Warranted shop) d.world.deeds
  operation : report.proposal.operation = .ok report.operation
  writes : writesIn d.world.deeds = report.proposal.writes.take report.outcome.writeCount
  tests : report.outcome = .testsFailed ↔ report.proposal.tests.passed = false
  unasked : asks = false → report.outcome.writeCount = 0
  acted : report.postAction.isSome = true ↔ report.outcome.writeCount ≠ 0
  settled : ∀ post, report.postAction = some post → BorneOut d.world.deeds post ∧
    (report.outcome = .branchCreated ↔ post.verified = true) ∧ ToldVerified post d.log

/-- What is said of a report before the directory of its proposal is removed. -/
def Reported (shop : Workshop W τ) (asks : Bool) (known : List Deed) (p : Proposal)
    (report : ProposalReport) (d : Desk (Yard W) τ) : Prop :=
  report.proposal = p ∧ Kept shop (writesIn d.world.deeds) known d.world ∧
    Accounts shop asks report d

theorem Reported.of_unwritten {asks : Bool} {p : Proposal} {report : ProposalReport}
    (hp : report.proposal = p) (hop : p.operation = .ok report.operation)
    (hd : Kept shop [] known d.world) (hcount : report.outcome.writeCount = 0)
    (htests : report.outcome = .testsFailed ↔ p.tests.passed = false)
    (hpost : report.postAction = none) : Reported shop asks known p report d := by
  subst hp
  refine ⟨rfl, by rwa [hd.writes], hd.lawful, hop, ?_, htests, fun _ ↦ hcount, ?_, ?_⟩
  · rw [hd.writes, hcount, List.take_zero]
  · simp [hpost, hcount]
  · intro post h
    rw [hpost] at h
    cases h

/-- What follows an exact answer. -/
theorem wp_writeApproved {p : Proposal} {op : Operation} {id grantedBy : Str}
    (happroved : Approved shop known p op) (hd : Kept shop [] known d.world) :
    (shop.writeApproved p op id grantedBy).wp (fun report t ↦ Reported shop true known p report t)
      (fun _ t ↦ Underway shop p known t.world) d := by
  have hnone : ∀ t : Desk (Yard W) τ, Kept shop [] known t.world → Underway shop p known t.world :=
    fun _ h ↦ .of_kept (n := 0) h
  rw [Workshop.writeApproved, Eff.wp_bind]
  refine (steady_kept.grant d hd).mono (fun token d hd ↦ ?_) fun _ t h ↦ hnone t h
  rw [Eff.wp_bind]
  have hstart : Eff.Keeps (Kept shop [] known)
      (RunBudget.start shop.gateway.meter proposalLimits) :=
    (keeps_outdoors _).bind fun _ ↦ Eff.Keeps.pure _
  refine (wp_asks (hstart d.world hd)).mono (fun budget d hd ↦ ?_) fun _ t h ↦ hnone t h.1
  rw [Eff.wp_bind]
  refine (wp_asks (keeps_repoState d.world hd.1)).mono (fun before d hd ↦ ?_)
    fun _ t h ↦ hnone t h.1
  rw [Eff.wp_bind, onFloor, Eff.wp_zoom]
  have hwrite : (shop.gateway.invokeWrite (shop.gateway.callsAt 0) (str "create_branch")
      (.ofJson (.obj p.arguments.fields)) token 0).wp
        (fun _ t ↦ Kept shop (p.writes.take 2) known t.desk.world)
        (fun _ t ↦ Underway shop p known t.desk.world) ⟨d, none, budget, none, false, [], 0⟩ :=
    wp_invokeWrite steady_kept steady_kept steady_underway (fun _ h ↦ .of_kept (n := 0) h)
      (fun _ h ↦ .of_kept (n := 2) h) (fun v ↦ keeps_describe v)
      (fun y hy ↦ wp_createBranch happroved hy) happroved.operation hd.1
  refine hwrite.mono (fun result s hs ↦ ?_) fun _ _ h ↦ h
  rw [Eff.wp_bind]
  refine (wp_asks (wp_settleWrite happroved hs)).mono (fun post d hd ↦ ?_) fun _ _ h ↦ h.1
  obtain ⟨⟨hkept, hsettled⟩, -⟩ := hd
  rw [Eff.wp_bind]
  have hsteady : Steady fun y : Yard W ↦
      Kept shop (p.writes.take (if post.verified then 2 else 3)) known y ∧ BorneOut y.deeds post :=
    fun y w h ↦ ⟨h.1.world w, h.2⟩
  refine (wp_recordInLog hsteady ⟨hkept, hsettled⟩).mono (fun _ t ht ↦ ?_)
    fun _ _ h ↦ .of_kept h.1
  obtain ⟨⟨hkept, hsettled⟩, htold⟩ := ht
  have hcount : (if post.verified then ProposalOutcome.branchCreated
      else .verificationFailed).writeCount = if post.verified then 2 else 3 := by
    split_ifs <;> rfl
  refine ⟨rfl, by rwa [hkept.writes], hkept.lawful, happroved.operation, ?_, ?_, ?_, ?_, ?_⟩
  · show writesIn _ = _
    rw [hkept.writes, hcount]
  · refine iff_of_false ?_ (by rw [happroved.passed]; exact Bool.noConfusion)
    split_ifs <;> simp
  · exact fun h ↦ by cases h
  · refine iff_of_true rfl ?_
    rw [hcount]
    split_ifs <;> decide
  · rintro _ ⟨⟩
    refine ⟨hsettled, ?_, htold⟩
    split_ifs with hverified <;> simp [hverified]

/-- The `try` of `propose`. -/
theorem wp_proposeWith {r : ProposalRequest} {p : Proposal} {ask : Option (Str → Eff Exc W Str)}
    {grantedBy : Str} (hp : Prepared r known p) (hd : Kept shop [] known d.world) :
    (shop.proposeWith p ask grantedBy).wp
      (fun report t ↦ Reported shop ask.isSome known p report t)
      (fun _ t ↦ Underway shop p known t.world) d := by
  have hnone : ∀ t : Desk (Yard W) τ, Kept shop [] known t.world → Underway shop p known t.world :=
    fun _ h ↦ .of_kept (n := 0) h
  rw [Workshop.proposeWith, Eff.wp_bind, Eff.wp_ofExcept]
  split
  · rename_i op hop
    refine Eff.wp_ite.mpr ⟨fun hfailed ↦ ?_, fun hpassed ↦ ?_⟩
    · exact .of_unwritten rfl hop hd rfl (iff_of_true rfl hfailed) rfl
    have hpassed : p.tests.passed = true := by rwa [Bool.not_eq_false] at hpassed
    have hnot : ∀ outcome : ProposalOutcome, outcome ≠ .testsFailed →
        (outcome = .testsFailed ↔ p.tests.passed = false) := fun outcome hne ↦
      iff_of_false hne (by rw [hpassed]; exact Bool.noConfusion)
    rw [Eff.wp_bind, Eff.wp_update, Eff.wp_bind]
    have hfresh : Kept shop [] known ({ d with approvals := [] } : Desk (Yard W) τ).world := hd
    refine (steady_kept.request { d with approvals := [] } hfresh).mono (fun id d hd ↦ ?_)
      fun _ t h ↦ hnone t h
    rcases ask with _ | ask
    · have happroval := hnot .approvalRequired ProposalOutcome.noConfusion
      dsimp only
      rw [Eff.wp_pure]
      exact .of_unwritten rfl hop hd rfl happroval rfl
    · dsimp only
      rw [Eff.wp_bind]
      have hconsult : (Workshop.consult ask (shop.render p op)).wp
          (fun answer t ↦ Kept shop [] (.asked (shop.render p op) answer :: known) t)
          (fun _ t ↦ Kept shop [] known t) d.world := by
        rw [Workshop.consult, Eff.wp_bind]
        refine (keeps_outdoors _ d.world hd).mono (fun answer y hy ↦ ?_) fun _ _ h ↦ h
        exact hy.add ⟨rfl, fun place hplace ↦ by cases hplace⟩ y.world
      refine (wp_asks hconsult).mono (fun answer d hd ↦ ?_) fun _ t h ↦ hnone t h.1
      refine Eff.wp_ite.mpr ⟨fun hother ↦ ?_, fun hsame ↦ ?_⟩
      · rw [Eff.wp_bind]
        refine (steady_kept.refuse d hd.1.forget).mono (fun _ t ht ↦ ?_) fun _ t h ↦ hnone t h
        exact .of_unwritten rfl hop ht rfl (hnot .refused ProposalOutcome.noConfusion) rfl
      · have happroved : Approved shop (.asked (shop.render p op) answer :: known) p op :=
          ⟨hop, List.mem_cons_of_mem _ hp.tested, hpassed, answer, List.mem_cons_self,
            not_not.mp hsame⟩
        refine (wp_writeApproved happroved hd.1).mono (fun report t ht ↦ ?_) fun _ t ht ↦ ?_
        · exact ⟨ht.1, ht.2.1.forget, ht.2.2⟩
        · exact ht.imp fun _ h ↦ h.forget
  · exact hnone d hd

theorem parentOf_cloneOf (dir : Str) : parentOf (cloneOf dir) = dir := by
  have hclone : (cloneOf dir).reverse = str "enolc" ++ ch '/' :: dir.reverse := by
    rw [cloneOf, List.reverse_append]
    rfl
  have hdrop : ((str "enolc" ++ ch '/' :: dir.reverse).dropWhile (· ≠ ch '/')) =
      ch '/' :: dir.reverse := rfl
  rw [parentOf, hclone, hdrop, List.drop_one, List.tail_cons, List.reverse_reverse]

/-- **A proposal accounts for what it wrote.**  Whatever the machine, git and the person do, however
the run ends, everything that was asked for was warranted when it was asked; and where the run
returns, its report, its log and what was written agree, on the branch that was asked for. -/
theorem propose_accounts (shop : Workshop W τ) (r : ProposalRequest)
    (ask : Option (Str → Eff Exc W Str)) (grantedBy : Str) (w : W) (log : Option EventLog) :
    (shop.propose r ask grantedBy).wp
      (fun report d ↦ Accounts shop ask.isSome report d ∧ Prepared r d.world.deeds report.proposal)
      (fun _ d ↦ Py.Grown (Warranted shop) d.world.deeds) ⟨{ world := w }, log, []⟩ := by
  have hstart : Kept shop [] [] ({ world := w } : Yard W) :=
    ⟨grown_nil, rfl, fun _ h ↦ absurd h List.not_mem_nil⟩
  rw [Workshop.propose, Eff.wp_bind]
  refine (wp_asks (wp_prepareKept hstart)).mono (fun p d hd ↦ ?_) fun _ _ h ↦ h.1.lawful
  obtain ⟨⟨more, hkept, hp⟩, -⟩ := hd
  rw [List.append_nil] at hkept hp
  obtain ⟨dir, hworkdir, hmade⟩ := hp.made
  have hparent : parentOf p.workdir = dir := by rw [hworkdir, parentOf_cloneOf]
  have hremove : ∀ {ws known : List Deed} {d : Desk (Yard W) τ}, Kept shop ws known d.world →
      .made dir ∈ known → (asks (shop.removeDir (parentOf p.workdir)) : DeskM (Yard W) τ Unit).wp
        (fun _ t ↦ Kept shop ws known t.world ∧ t.log = d.log)
        (fun _ t ↦ Kept shop ws known t.world ∧ t.log = d.log) d := by
    intro ws known d hd hmade
    rw [hparent]
    exact wp_asks (keeps_removeDir hmade d.world hd)
  rw [tryFinally, Eff.wp_bind, Eff.wp_attempt]
  refine (wp_proposeWith hp hkept).mono (fun report d hd ↦ ?_) fun e d hd ↦ ?_
  · obtain ⟨rfl, hkept, haccounts⟩ := hd
    rw [Eff.wp_bind]
    -- whatever was asked for before is known when the directory is removed
    have hall : Kept shop (writesIn d.world.deeds) d.world.deeds d.world :=
      ⟨hkept.lawful, rfl, fun _ h ↦ h⟩
    refine (hremove hall (hkept.known _ hmade)).mono (fun _ t ht ↦ ?_) fun _ _ h ↦ h.1.lawful
    obtain ⟨ht, hlog⟩ := ht
    refine ⟨{ haccounts with
      lawful := ht.lawful
      writes := ht.writes.trans haccounts.writes
      settled := fun post hpost ↦ ?_ }, hp.mono fun d hd ↦ ht.known d (hkept.known d hd)⟩
    obtain ⟨hsettled, houtcome, htold⟩ := haccounts.settled post hpost
    exact ⟨hsettled.mono ht.known, houtcome, hlog ▸ htold⟩
  · obtain ⟨n, hn⟩ := hd
    rw [Eff.wp_bind]
    exact (hremove hn hmade).mono (fun _ _ h ↦ h.1.lawful) fun _ _ h ↦ h.1.lawful

end AtlasCore
