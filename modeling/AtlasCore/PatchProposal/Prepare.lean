import AtlasCore.PatchProposal.Deeds

/-!
# Preparing a proposal

`prepare` builds and tests a proposal in a clone.  It asks the repository of the user for nothing
but readings, and leaves a directory behind only if it returns.

The proof is told in deeds: each command that is run is building in a directory that was made for
it, and what is removed was made (`wp_prepareKept`).  Where one of the commands fails, the directory
goes and the exception passes; where all succeed, the directory is the proposal's, with one commit
in its clone.
-/

set_option autoImplicit false

namespace AtlasCore

open Py

/-! ## Names

Which names a proposal may have for its branch and its commits. -/

/-- `[a-z0-9]`, with which a branch name goes on after its prefix. -/
def isLowerOrDigit (c : CodePoint) : Bool :=
  (97 ≤ c.val && c.val ≤ 122) || (48 ≤ c.val && c.val ≤ 57)

/-- `[a-z0-9._-]`, of which the rest of a branch name is made. -/
def isBranchChar (c : CodePoint) : Bool := isLowerOrDigit c || c ∈ [ch '.', ch '_', ch '-']

/-- `BRANCH.fullmatch(name)`: the prefix, and up to 63 characters. -/
def matchesBranch (name : Str) : Bool :=
  startsWith name (str "atlas/") &&
    match name.drop 6 with
    | [] => false
    | c :: rest => isLowerOrDigit c && rest.length ≤ 62 && rest.all isBranchChar

/-- `validate_branch`: the pattern, and what git refuses of a name that matches it. -/
def validateBranch (name : Str) : Except Exc Str :=
  if ¬ matchesBranch name ∨ contains (str "..") name ∨ endsWith name (str ".lock") ∨
      endsWith name (str ".") then
    .error .proposalRefused
  else .ok name

/-- `_OID.fullmatch(commit)`: 40 or 64 hexadecimal digits. -/
def isOid (s : Str) : Bool := (s.length = 40 || s.length = 64) && s.all isHex

/-- `MAX_PATCH_BYTES`: a longer patch is refused before anything is done with it. -/
def MAX_PATCH_BYTES : ℕ := 256 * 1024

/-! ## `prepare`

A proposal is built and tested in a clone of its own; the repository is only read. -/

/-- What `prepare` is called with: a repository, a patch, the branch to make, and how to test it. -/
structure ProposalRequest where
  repo : Str
  patch : Bytes
  branch : Str
  testArgv : List Str

namespace Workshop

variable {W τ : Type} (shop : Workshop W τ)

/-- What is refused before anything is asked of the world. -/
def admitRequest (r : ProposalRequest) : Except Exc Unit := do
  let _ ← validateBranch r.branch
  if r.testArgv = [] then .error .proposalRefused
  else if r.patch.all isBlankByte then .error .proposalRefused
  else if r.patch.length > MAX_PATCH_BYTES then .error .proposalRefused
  else .ok ()

/-- The readings of the repository: the root, the commit and the branch it is on. -/
def surveyBase (r : ProposalRequest) : Eff Exc (Yard W) (Str × Str × Str) := do
  let root ← outdoors (shop.resolve r.repo)
  let base ← outdoors (cleanHead shop.checkout root)
  let baseRef ← shop.gitWord root [str "symbolic-ref", str "-q", str "HEAD"] false
  if ¬ startsWith baseRef (str "refs/heads/") then Eff.raise .proposalRefused
  else
    let found ← shop.git root
      [str "rev-parse", str "--verify", str "--quiet", str "refs/heads/" ++ r.branch] false
    if found.returncode = 0 then Eff.raise .proposalRefused else return (root, base, baseRef)

/-- A clone of the repository at a commit. -/
def cloneAt (dir root commit : Str) : Eff Exc (Yard W) Unit := do
  let _ ← shop.git dir
    [str "clone", str "-q", str "--shared", str "--no-checkout", root, cloneOf dir] true
  let _ ← shop.git (cloneOf dir) [str "checkout", str "-q", str "--detach", commit] true
  return ()

/-- The arguments of the commit, under a name of its own and without the hooks of the repository. -/
def commitArgs (branch : Str) : List Str :=
  [str "-c", str "user.name=Atlas Core", str "-c", str "user.email=atlas-core@localhost",
    str "commit", str "-q", str "--no-verify", str "-m",
    str "atlas: proposed change on " ++ branch]

/-- The `try` of `prepare`: build the commit in a clone, and test it there. -/
def build (r : ProposalRequest) (dir root base baseRef : Str) : Eff Exc (Yard W) Proposal := do
  let clone := cloneOf dir
  let patchFile := dir ++ str "/change.patch"
  shop.cloneAt dir root base
  outdoors (shop.writeBytes patchFile r.patch)
  inShop (shop.toSite.applyPatch clone patchFile r.patch)
  let _ ← shop.git clone (commitArgs r.branch) true
  let commit ← shop.gitWord clone [str "rev-parse", str "HEAD"] true
  let shown ← shop.diff clone base commit
  let tests ← shop.testIn r.testArgv clone
  let diffSha256 ← hashed shown
  return {
    repo := root, base, baseRef, branch := r.branch, commit, diff := shown, diffSha256, tests,
    workdir := clone }

/-- `prepare`.  The digest is taken after the `try` in the source, where it cannot fail. -/
def prepare (r : ProposalRequest) : Eff Exc (Yard W) Proposal := do
  Eff.ofExcept (admitRequest r)
  let (root, base, baseRef) ← shop.surveyBase r
  let dir ← shop.makeDir
  Eff.handle (shop.build r dir root base baseRef) fun e ↦ do
    shop.removeDir dir
    Eff.raise e

end Workshop

/-! ## What it does

Preparing a proposal only builds: in a directory of its own, and with commands that write nothing
elsewhere. -/

variable {W τ : Type} {shop : Workshop W τ} {ws known : List Deed} {y : Yard W}

/-- A command that builds, in a directory that is known to be made. -/
theorem safe_building {act : Act} {dir : Str} (hmade : .made dir ∈ known)
    (hcwd : act.cwd = dir ∨ act.cwd = cloneOf dir)
    (h : (gitCommand act.args).any (fun c ↦ c ∈ writeCommands) = false) :
      Unassuming known (.git act) := by
  refine ⟨h, fun place hplace ↦ ⟨dir, hmade, ?_⟩⟩
  rw [Deed.place] at hplace
  split_ifs at hplace
  exact Option.some.inj hplace ▸ hcwd

theorem keeps_cloneAt {dir root commit : Str} (hmade : .made dir ∈ known) :
    Eff.Keeps (Kept shop ws known) (shop.cloneAt dir root commit) :=
  (keeps_git (safe_building hmade (.inl rfl) rfl)).bind fun _ ↦
    (keeps_git (safe_building hmade (.inr rfl) rfl)).bind fun _ ↦ Eff.Keeps.pure _

/-- The commands of a computation in the shop are deeds. -/
theorem keeps_inShop {α : Type} {m : Eff Exc (Shop W) α} (acts : List Act → Prop)
    (hm : ∀ w, m.wp (fun _ s ↦ acts s.acts) (fun _ s ↦ acts s.acts) ⟨w, []⟩)
    (hsafe : ∀ more, acts more → ∀ act ∈ more, Unassuming known (.git act)) :
    Eff.Keeps (Kept shop ws known) (inShop m) := by
  intro y hy
  have hall : ∀ (more : List Act) (y : Yard W), Kept shop ws known y →
      (∀ act ∈ more, Unassuming known (.git act)) → ∀ w,
        Kept shop ws known ⟨w, y.deeds ++ more.map .git⟩ := by
    intro more
    induction more with
    | nil =>
      intro y hy _ w
      simpa using hy.world w
    | cons act more ih =>
      intro y hy hmore w
      have hfirst := (hy.add (hmore act List.mem_cons_self) y.world).forget
      have hrest := ih _ hfirst (fun x hx ↦ hmore x (List.mem_cons_of_mem _ hx)) w
      simpa using hrest
  refine Eff.wp_zoom.mpr ((hm y.world).mono (fun _ s hs ↦ ?_) fun _ s hs ↦ ?_) <;>
  · exact hall s.acts y hy (hsafe s.acts hs) s.world

/-- The patch is listed and applied, in the clone. -/
theorem wp_applyPatch {site : Site W} {clone patchFile : Str} {raw : Bytes} (w : W) :
    (site.applyPatch clone patchFile raw).wp
      (fun _ s ↦ ∀ act ∈ s.acts,
        act ∈ [⟨clone, Site.numstat patchFile⟩, ⟨clone, Site.applyIndex patchFile⟩])
      (fun _ s ↦ ∀ act ∈ s.acts,
        act ∈ [⟨clone, Site.numstat patchFile⟩, ⟨clone, Site.applyIndex patchFile⟩])
      ⟨w, []⟩ := by
  have hgit : ∀ (args : List Str) (s : Shop W), (site.git clone args true).wp
      (fun _ t ↦ t.acts = s.acts ++ [⟨clone, args⟩])
      (fun _ t ↦ t.acts = s.acts ++ [⟨clone, args⟩]) s := fun args s ↦
    site.wp_git.mono (fun _ _ h ↦ h.1) fun _ _ h ↦ h.1
  have hlist : (site.patchPaths clone patchFile raw).wp
      (fun _ s ↦ s.acts = [⟨clone, Site.numstat patchFile⟩])
      (fun _ s ↦ ∀ act ∈ s.acts, act ∈ [⟨clone, Site.numstat patchFile⟩]) ⟨w, []⟩ := by
    rw [Site.patchPaths]
    refine Eff.wp_ite.mpr ⟨fun _ ↦ fun act hact ↦ absurd hact List.not_mem_nil, fun _ ↦ ?_⟩
    rw [Eff.wp_bind]
    refine (hgit _ _).mono (fun listed t ht ↦ ?_) fun _ t ht ↦ ?_
    · rw [Eff.wp_ofExcept]
      split
      · exact ht
      · rw [ht]
        exact fun act hact ↦ hact
    · rw [ht]
      exact fun act hact ↦ hact
  rw [Site.applyPatch, Eff.wp_bind]
  refine hlist.mono (fun _ t ht ↦ ?_) fun _ t ht act hact ↦ List.mem_cons.mpr
    (.inl (List.mem_singleton.mp (ht act hact)))
  rw [Eff.wp_bind]
  refine (hgit _ t).mono (fun _ u hu act hact ↦ ?_) fun _ u hu act hact ↦ ?_ <;>
  · have hacts : u.acts =
        [⟨clone, Site.numstat patchFile⟩, ⟨clone, Site.applyIndex patchFile⟩] := by
      rw [hu, ht]
      rfl
    exact hacts ▸ hact

/-- What is known of a proposal that was prepared: it is for the request, and its tests ran in the
clone. -/
structure Prepared (r : ProposalRequest) (known : List Deed) (p : Proposal) : Prop where
  branch : p.branch = r.branch
  valid : matchesBranch p.branch = true
  baseRef : startsWith p.baseRef (str "refs/heads/") = true
  digest : sha256Text p.diff = some p.diffSha256
  tested : .tested p.tests p.workdir ∈ known
  made : ∃ dir, p.workdir = cloneOf dir ∧ .made dir ∈ known

theorem Prepared.mono {r : ProposalRequest} {known more : List Deed} {p : Proposal}
    (h : Prepared r known p) (hsub : ∀ d ∈ known, d ∈ more) : Prepared r more p :=
  { h with
    tested := hsub _ h.tested
    made := h.made.imp fun _ hdir ↦ ⟨hdir.1, hsub _ hdir.2⟩ }

theorem validateBranch_eq_ok {name branch : Str} (h : validateBranch name = .ok branch) :
    branch = name ∧ matchesBranch name = true := by
  rw [validateBranch] at h
  split_ifs at h with hbad
  simp only [not_or, not_not] at hbad
  exact ⟨(Except.ok.inj h).symm, hbad.1⟩

theorem admitRequest_eq_ok {r : ProposalRequest} (h : Workshop.admitRequest r = .ok ()) :
    matchesBranch r.branch = true := by
  obtain ⟨branch, hbranch, -⟩ := Except.bind_eq_ok.mp h
  exact (validateBranch_eq_ok hbranch).2

theorem wp_surveyBase {r : ProposalRequest} (hy : Kept shop ws known y) :
    (shop.surveyBase r).wp
      (fun found t ↦ Kept shop ws known t ∧ startsWith found.2.2 (str "refs/heads/") = true)
      (fun _ t ↦ Kept shop ws known t) y := by
  rw [Workshop.surveyBase, Eff.wp_bind]
  refine (keeps_outdoors _ y hy).mono (fun root y hy ↦ ?_) fun _ _ h ↦ h
  rw [Eff.wp_bind]
  refine (keeps_outdoors _ y hy).mono (fun base y hy ↦ ?_) fun _ _ h ↦ h
  rw [Eff.wp_bind]
  refine (keeps_gitWord (safe_reading rfl) y hy).mono (fun baseRef y hy ↦ ?_) fun _ _ h ↦ h
  refine Eff.wp_ite.mpr ⟨fun _ ↦ hy, fun hstarts ↦ ?_⟩
  rw [Eff.wp_bind]
  refine (keeps_git (safe_reading rfl) y hy).mono (fun found y hy ↦ ?_) fun _ _ h ↦ h
  exact Eff.wp_ite.mpr ⟨fun _ ↦ hy, fun _ ↦ ⟨hy, not_not.mp hstarts⟩⟩

theorem wp_build {r : ProposalRequest} {dir root base baseRef : Str} (hy : Kept shop ws known y)
    (hmade : .made dir ∈ known) (hvalid : matchesBranch r.branch = true)
    (hbase : startsWith baseRef (str "refs/heads/") = true) :
    (shop.build r dir root base baseRef).wp
      (fun p t ↦ ∃ run, Kept shop ws (.tested run (cloneOf dir) :: known) t ∧
        Prepared r (.tested run (cloneOf dir) :: known) p)
      (fun _ t ↦ Kept shop ws known t) y := by
  rw [Workshop.build, Eff.wp_bind]
  refine (keeps_cloneAt hmade y hy).mono (fun _ y hy ↦ ?_) fun _ _ h ↦ h
  rw [Eff.wp_bind]
  refine (keeps_outdoors _ y hy).mono (fun _ y hy ↦ ?_) fun _ _ h ↦ h
  rw [Eff.wp_bind]
  refine (keeps_inShop (fun more ↦ ∀ act ∈ more, act ∈
    [⟨cloneOf dir, Site.numstat (dir ++ str "/change.patch")⟩,
      ⟨cloneOf dir, Site.applyIndex (dir ++ str "/change.patch")⟩]) wp_applyPatch
    (fun more hmore act hact ↦ ?_) y hy).mono (fun _ y hy ↦ ?_) fun _ _ h ↦ h
  · rcases List.mem_cons.mp (hmore act hact) with rfl | hact
    · exact safe_building hmade (.inr rfl) rfl
    · obtain rfl := List.mem_singleton.mp hact
      exact safe_building hmade (.inr rfl) rfl
  rw [Eff.wp_bind]
  refine (keeps_git (safe_building hmade (.inr rfl) rfl) y hy).mono (fun _ y hy ↦ ?_) fun _ _ h ↦ h
  rw [Eff.wp_bind]
  refine (keeps_gitWord (safe_reading rfl) y hy).mono (fun commit y hy ↦ ?_) fun _ _ h ↦ h
  rw [Eff.wp_bind]
  refine (keeps_diff y hy).mono (fun shown y hy ↦ ?_) fun _ _ h ↦ h
  rw [Eff.wp_bind]
  refine (wp_testIn hy hmade).mono (fun run y hy ↦ ?_) fun _ _ h ↦ h
  rw [Eff.wp_bind, Workshop.hashed]
  cases hdigest : sha256Text shown with
  | none => exact hy.forget
  | some digest =>
    refine ⟨run, hy, ?_⟩
    exact {
      branch := rfl
      valid := hvalid
      baseRef := hbase
      digest := hdigest
      tested := List.mem_cons_self
      made := ⟨dir, rfl, List.mem_cons_of_mem _ hmade⟩ }

/-- Preparing writes nothing; what it returns was built and tested in a directory that was made for
it. -/
theorem wp_prepareKept {r : ProposalRequest} (hy : Kept shop ws known y) :
    (shop.prepare r).wp
      (fun p t ↦ ∃ more, Kept shop ws (more ++ known) t ∧ Prepared r (more ++ known) p)
      (fun _ t ↦ Kept shop ws known t) y := by
  rw [Workshop.prepare, Eff.wp_bind, Eff.wp_ofExcept]
  split
  · rename_i hadmit
    rw [Eff.wp_bind]
    refine (wp_surveyBase hy).mono (fun found y hy ↦ ?_) fun _ _ h ↦ h
    obtain ⟨hy, hbase⟩ := hy
    rw [Eff.wp_bind]
    refine (wp_makeDir hy).mono (fun dir y hy ↦ ?_) fun _ _ h ↦ h
    rw [Eff.wp_handle]
    refine (wp_build hy List.mem_cons_self (admitRequest_eq_ok hadmit) hbase).mono
      (fun p t ht ↦ ?_) fun e t ht ↦ ?_
    · obtain ⟨run, ht, hp⟩ := ht
      exact ⟨[.tested run (cloneOf dir), .made dir], ht, hp⟩
    · rw [Eff.wp_bind]
      exact (keeps_removeDir List.mem_cons_self t ht).mono (fun _ _ h ↦ h.forget) fun _ _ h ↦
        h.forget
  · exact hy

end AtlasCore
