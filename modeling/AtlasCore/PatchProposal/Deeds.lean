import AtlasCore.Lib.Grown
import AtlasCore.PatchProposal.Proposal

/-!
# What a proposal may do

Of everything a proposal asks for, three things change the repository of the user: a fetch, one
transaction of its references, and the deletion of the reference that was made.  `Warranted` says
when each may be asked for: in this order, each at most once, for one proposal whose tests passed
and whose operation was shown and answered with the beginning of its digest.  What is built, tested
or removed is in directories that were made for it.

`Kept` is the invariant of a proposal, and there is one lemma for each small step.
-/

set_option autoImplicit false

namespace AtlasCore

open Py

/-! ## The kinds of deeds

Which commands write to a repository, and to which one. -/

/-- The command of git behind the settings that stand in front of it. -/
def gitCommand : List Str → Option Str
  | flag :: _ :: rest => if flag = str "-c" then gitCommand rest else some flag
  | args => args.head?

/-- The commands that change a repository they are run in. -/
def writeCommands : List Str := [str "fetch", str "update-ref"]

/-- The commands that build something in the directory they are run in. -/
def buildCommands : List Str := [str "clone", str "checkout", str "apply", str "commit"]

/-- The repository of the user is changed by it, or may be. -/
def Deed.isWrite : Deed → Bool
  | git act => (gitCommand act.args).any (· ∈ writeCommands)
  | transaction _ _ => true
  | _ => false

/-- The directory in which something is built, tested or removed. -/
def Deed.place : Deed → Option Str
  | git act => if (gitCommand act.args).any (· ∈ buildCommands) then some act.cwd else none
  | tested _ cwd => some cwd
  | removed dir => some dir
  | _ => none

/-- `str(Path(workdir) / "clone")`: where the repository is cloned to, apart from the user's. -/
def cloneOf (dir : Str) : Str := dir ++ str "/clone"

/-- What was written, in order, among everything that was done. -/
def writesIn (deeds : List Deed) : List Deed := deeds.filter (·.isWrite)

/-! ## The writes of a proposal

The writes that a proposal may make, and what has to have come before them. -/

namespace WriteArgs

variable (a : WriteArgs)

/-- The fetch of the commit, which brings its objects and moves no ref. -/
def fetchAct : Act :=
  ⟨a.repo,
    [str "fetch", str "-q", str "--no-tags", str "--no-write-fetch-head", a.source, a.commit]⟩

/-- The instructions for `git update-ref --stdin`: the base has to stand where it stood, and the
branch must not be there. -/
def transactionText : Str :=
  str "verify " ++ a.baseRef ++ str " " ++ a.base ++ str "\n" ++
    (str "create " ++ a.ref ++ str " " ++ a.commit ++ str "\n")

/-- The deletion of the branch, where it still is at the commit. -/
def deleteAct : Act :=
  ⟨a.repo, [str "update-ref", str "-m", str "atlas: roll back unverified proposal", str "-d", a.ref,
    a.commit]⟩

end WriteArgs

/-- Everything a proposal may write, in order: the objects, the branch, and its removal. -/
def Proposal.writes (p : Proposal) : List Deed :=
  [.git p.arguments.fetchAct, .transaction p.repo p.arguments.transactionText,
    .git p.arguments.deleteAct]

section
variable {W τ : Type} (shop : Workshop W τ)

/-- The proposal is for this operation, its tests passed, and a person who was shown it answered
with the first characters of the digest. -/
structure Approved (before : List Deed) (p : Proposal) (op : Operation) : Prop where
  operation : p.operation = .ok op
  tested : .tested p.tests p.workdir ∈ before
  passed : p.tests.passed = true
  answered : ∃ answer, .asked (shop.render p op) answer ∈ before ∧
    strip answer = op.sha256.take 12

/-- What may be asked for after all that was asked for before. -/
structure Warranted (before : List Deed) (d : Deed) : Prop where
  write : d.isWrite = true → ∃ p op, Approved shop before p op ∧
    writesIn before ++ [d] <+: p.writes
  place : ∀ place, d.place = some place →
    ∃ dir, .made dir ∈ before ∧ (place = dir ∨ place = cloneOf dir)

/-- Everything that was asked for was warranted; `ws` was written, and `known` is among the rest. -/
structure Kept (ws known : List Deed) (y : Yard W) : Prop where
  lawful : Py.Grown (Warranted shop) y.deeds
  writes : writesIn y.deeds = ws
  known : ∀ d ∈ known, d ∈ y.deeds

end

variable {W τ : Type} {shop : Workshop W τ} {ws known : List Deed} {y : Yard W}

/-! ## The steps

What one deed more does to what is known of a proposal. -/

theorem Approved.mono {before after : List Deed} {p : Proposal} {op : Operation}
    (h : Approved shop before p op) (hsub : ∀ d ∈ before, d ∈ after) :
    Approved shop after p op where
  operation := h.operation
  tested := hsub _ h.tested
  passed := h.passed
  answered := h.answered.imp fun _ ha ↦ ⟨hsub _ ha.1, ha.2⟩

/-- A deed that writes nothing, in a directory that is known to be made for it. -/
structure Unassuming (known : List Deed) (d : Deed) : Prop where
  reads : d.isWrite = false
  place : ∀ place, d.place = some place →
    ∃ dir, .made dir ∈ known ∧ (place = dir ∨ place = cloneOf dir)

theorem Kept.weaken {known' : List Deed} (h : Kept shop ws known y)
    (hsub : ∀ d ∈ known', d ∈ known) : Kept shop ws known' y :=
  { h with known := fun d hd ↦ h.known d (hsub d hd) }

theorem Kept.forget {d : Deed} (h : Kept shop ws (d :: known) y) : Kept shop ws known y :=
  h.weaken fun _ hd ↦ List.mem_cons_of_mem _ hd

theorem Kept.world (h : Kept shop ws known y) (w : W) : Kept shop ws known { y with world := w } :=
  ⟨h.lawful, h.writes, h.known⟩

theorem known_concat {d : Deed} (h : ∀ x ∈ known, x ∈ y.deeds) :
    ∀ x ∈ d :: known, x ∈ y.deeds ++ [d] := by
  rintro x (_ | ⟨_, hx⟩)
  · exact List.mem_append_right _ (List.mem_singleton_self _)
  · exact List.mem_append_left _ (h x hx)

/-- A safe deed more. -/
theorem Kept.add {d : Deed} (h : Kept shop ws known y) (hd : Unassuming known d) (w : W) :
    Kept shop ws (d :: known) { world := w, deeds := y.deeds ++ [d] } where
  lawful := by
    refine grown_concat.mpr ⟨h.lawful, fun hw ↦ ?_, fun place hplace ↦ ?_⟩
    · rw [hd.reads] at hw
      cases hw
    · obtain ⟨dir, hmade, hdir⟩ := hd.place place hplace
      exact ⟨dir, h.known _ hmade, hdir⟩
  writes := by simp [writesIn, hd.reads, ← h.writes]
  known := known_concat h.known

/-- The next write of a proposal that is known to be approved. -/
theorem Kept.write {d : Deed} {p : Proposal} {op : Operation} (h : Kept shop ws known y)
    (happroved : Approved shop known p op) (hnext : ws ++ [d] <+: p.writes)
    (hwrite : d.isWrite = true) (hplace : d.place = none) (w : W) :
    Kept shop (ws ++ [d]) (d :: known) { world := w, deeds := y.deeds ++ [d] } where
  lawful := by
    refine grown_concat.mpr ⟨h.lawful, fun _ ↦ ⟨p, op, happroved.mono h.known, ?_⟩, ?_⟩
    · rwa [h.writes]
    · rw [hplace]
      exact fun place hp ↦ by cases hp
  writes := by simp [writesIn, hwrite, ← h.writes]
  known := known_concat h.known

/-! ## Rules for computations

The same for whole computations, which only have to be put together. -/

/-- What the world does is no deed. -/
theorem keeps_outdoors {α : Type} (m : Eff Exc W α) :
    Eff.Keeps (Kept shop ws known) (outdoors m) := by
  refine Eff.Keeps.zoom ?_ m
  exact fun w y h ↦ h.world w

/-- A deed that is noted. -/
theorem wp_deed {d : Deed} {Q : Unit → Yard W → Prop} {E : Exc → Yard W → Prop}
    (h : Q () { y with deeds := y.deeds ++ [d] }) : (deed d).wp Q E y := h

/-- A command of git is a deed, however it ends. -/
theorem wp_git {cwd : Str} {args : List Str} {check : Bool} :
    (shop.git cwd args check).wp (fun _ t ↦ t.deeds = y.deeds ++ [.git ⟨cwd, args⟩])
      (fun _ t ↦ t.deeds = y.deeds ++ [.git ⟨cwd, args⟩]) y := by
  rw [Workshop.git, inShop, Eff.wp_zoom, Site.git, Eff.wp_bind, Eff.wp_update, Eff.wp_bind, onWorld,
    Eff.wp_zoom]
  refine (Eff.wp_true _ _).mono (fun result w _ ↦ ?_) fun _ _ _ ↦ rfl
  exact Eff.wp_ite.mpr ⟨fun _ ↦ rfl, fun _ ↦ rfl⟩

/-- A safe command of git. -/
theorem keeps_git {cwd : Str} {args : List Str} {check : Bool}
    (hsafe : Unassuming known (.git ⟨cwd, args⟩)) :
    Eff.Keeps (Kept shop ws known) (shop.git cwd args check) := by
  intro y hy
  have hnext : ∀ t : Yard W, t.deeds = y.deeds ++ [.git ⟨cwd, args⟩] → Kept shop ws known t := by
    rintro ⟨w, deeds⟩ ht
    obtain rfl : deeds = y.deeds ++ [.git ⟨cwd, args⟩] := ht
    exact (hy.add hsafe w).forget
  exact wp_git.mono (fun _ t ht ↦ hnext t ht) fun _ t ht ↦ hnext t ht

theorem keeps_gitText {cwd : Str} {args : List Str} {check : Bool}
    (hsafe : Unassuming known (.git ⟨cwd, args⟩)) :
    Eff.Keeps (Kept shop ws known) (shop.gitText cwd args check) :=
  (keeps_git hsafe).bind fun _ ↦ Eff.Keeps.ofExcept _

theorem keeps_gitWord {cwd : Str} {args : List Str} {check : Bool}
    (hsafe : Unassuming known (.git ⟨cwd, args⟩)) :
    Eff.Keeps (Kept shop ws known) (shop.gitWord cwd args check) := by
  rw [Workshop.gitWord, map_eq_pure_bind]
  exact (keeps_gitText hsafe).bind fun _ ↦ Eff.Keeps.pure _

/-- A command that neither writes nor builds may be run anywhere. -/
theorem safe_reading {act : Act}
    (h : (gitCommand act.args).any (fun c ↦ c ∈ writeCommands ++ buildCommands) = false) :
    Unassuming known (.git act) := by
  have hnot : ∀ c, gitCommand act.args = some c → c ∉ writeCommands ∧ c ∉ buildCommands := by
    intro c hc
    simpa [hc] using h
  refine ⟨?_, fun place hplace ↦ ?_⟩
  · rw [Deed.isWrite]
    exact Option.any_eq_false_iff_get _ _ |>.mpr fun hc ↦ by
      simpa using (hnot _ (Option.some_get hc).symm).1
  · rw [Deed.place] at hplace
    split_ifs at hplace with hbuild
    obtain ⟨c, hc, hmem⟩ := Option.any_eq_true _ _ |>.mp hbuild
    exact absurd (of_decide_eq_true hmem) (hnot c hc).2

theorem keeps_diff {cwd base commit : Str} :
    Eff.Keeps (Kept shop ws known) (shop.diff cwd base commit) :=
  (keeps_git (safe_reading rfl)).bind fun _ ↦ Eff.Keeps.pure _

theorem keeps_hashed {text : Str} :
    Eff.Keeps (Kept shop ws known) (Workshop.hashed text : Eff Exc (Yard W) Str) := by
  rw [Workshop.hashed]
  rcases sha256Text text with _ | digest
  · exact Eff.Keeps.raise _
  · exact Eff.Keeps.pure _

/-- A directory that was made is known from then on. -/
theorem wp_makeDir (hy : Kept shop ws known y) :
    shop.makeDir.wp (fun dir t ↦ Kept shop ws (.made dir :: known) t)
      (fun _ t ↦ Kept shop ws known t) y := by
  rw [Workshop.makeDir, Eff.wp_bind]
  refine (keeps_outdoors shop.mkdtemp y hy).mono (fun dir t ht ↦ ?_) fun _ _ h ↦ h
  exact ht.add ⟨rfl, fun place hplace ↦ by cases hplace⟩ t.world

/-- What is removed was made. -/
theorem keeps_removeDir {dir : Str} (hmade : .made dir ∈ known) :
    Eff.Keeps (Kept shop ws known) (shop.removeDir dir) := by
  refine Eff.Keeps.bind (fun y hy ↦ ?_) fun _ ↦ keeps_outdoors _
  have hsafe : Unassuming known (.removed dir) :=
    ⟨rfl, fun place hplace ↦ ⟨dir, hmade, .inl (Option.some.inj hplace).symm⟩⟩
  exact (hy.add hsafe y.world).forget

/-- A run of the tests is known from then on, and the directory it was in. -/
theorem wp_testIn {argv : List Str} {dir : Str} (hy : Kept shop ws known y)
    (hmade : .made dir ∈ known) :
    (shop.testIn argv (cloneOf dir)).wp
      (fun run t ↦ Kept shop ws (.tested run (cloneOf dir) :: known) t)
      (fun _ t ↦ Kept shop ws known t) y := by
  rw [Workshop.testIn, Eff.wp_bind]
  refine (keeps_outdoors _ y hy).mono (fun _ y hy ↦ ?_) fun _ _ h ↦ h
  rw [Eff.wp_bind]
  refine (keeps_outdoors _ y hy).mono (fun ending y hy ↦ ?_) fun _ _ h ↦ h
  rw [Eff.wp_bind]
  refine (keeps_outdoors _ y hy).mono (fun _ y hy ↦ ?_) fun _ _ h ↦ h
  rw [Eff.wp_bind, Eff.wp_ofExcept]
  split
  · rename_i run hrun
    have hsafe : Unassuming known (.tested run (cloneOf dir)) :=
      ⟨rfl, fun place hplace ↦ ⟨dir, hmade, .inr (Option.some.inj hplace).symm⟩⟩
    exact hy.add hsafe y.world
  · exact hy

/-- A name of a reference is looked at. -/
theorem keeps_checkRef {name : Str} : Eff.Keeps (Kept shop ws known) (shop.checkRef name) := by
  refine Eff.Keeps.ite (fun _ ↦ Eff.Keeps.raise _) fun _ ↦ Eff.Keeps.bind (fun y hy ↦ ?_) fun _ ↦ ?_
  · have hsafe :
        Unassuming known (.checkRefFormat name) := ⟨rfl, fun place hplace ↦ by cases hplace⟩
    exact (hy.add hsafe y.world).forget
  · exact (keeps_outdoors _).bind fun code ↦
      Eff.Keeps.ite (fun _ ↦ Eff.Keeps.raise _) fun _ ↦ Eff.Keeps.pure _

end AtlasCore
