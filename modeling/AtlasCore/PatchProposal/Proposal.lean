import AtlasCore.Lib.Escape
import AtlasCore.PatchProposal.Workshop

/-!
# What is proposed, and what a person is shown of it

A proposal is a commit in a clone, with its diff and what the tests gave.  The write it asks for is
one `Operation`, and the text a person reads before the answer ends in the digest of that operation.
Patch and test output come from the change that is to be approved, so in that text every character
that could move a cursor is spelled out: each line of the diff is shown as one line, and the last
line is the one this program wrote.
-/

set_option autoImplicit false

namespace AtlasCore

open Py

/-! ## The proposal

A proposal and the operation that a person is asked to approve. -/

/-- The arguments of `create_branch`: everything that is approved about the write. -/
structure WriteArgs where
  repo : Str
  branch : Str
  commit : Str
  base : Str
  baseRef : Str
  diffSha256 : Str
  source : Str
  deriving DecidableEq

namespace WriteArgs

variable (a : WriteArgs)

/-- The arguments as a dict, in the order of the source. -/
def fields : Fields :=
  [(str "repo", .str a.repo), (str "branch", .str a.branch), (str "commit", .str a.commit),
    (str "base", .str a.base), (str "base_ref", .str a.baseRef),
    (str "diff_sha256", .str a.diffSha256), (str "source", .str a.source)]

/-- `f"refs/heads/{branch}"`: the ref that is made. -/
def ref : Str := str "refs/heads/" ++ a.branch

theorem fields_wf : Json.WF (.obj a.fields) := by
  have hkeys : (a.fields.map Prod.fst).Nodup := by
    have heq : a.fields.map Prod.fst = [str "repo", str "branch", str "commit", str "base",
        str "base_ref", str "diff_sha256", str "source"] := rfl
    rw [heq]
    decide
  rw [Json.WF]
  exact ⟨hkeys, by simp [fields, Json.WFFields, Json.WF]⟩

/-- `Operation(kind="ref", tool="create_branch", ..)`: what the authority is asked about. -/
def operation : Except Exc Operation :=
  Operation.build .ref (str "create_branch") a.fields a.fields_wf a.repo a.ref a.base

end WriteArgs

/-- `Proposal`: a commit in a clone of its own, with what it was made from and how its tests ended.
-/
structure Proposal where
  repo : Str
  base : Str
  /-- The local branch `HEAD` was on. -/
  baseRef : Str
  branch : Str
  commit : Str
  diff : Str
  diffSha256 : Str
  tests : TestRun
  /-- The clone the commit lives in. -/
  workdir : Str
  deriving DecidableEq

namespace Proposal

variable (p : Proposal)

/-- `Proposal.arguments`: what the tool will be given. -/
def arguments : WriteArgs :=
  ⟨p.repo, p.branch, p.commit, p.base, p.baseRef, p.diffSha256, p.workdir⟩

/-- `Proposal.operation`. -/
def operation : Except Exc Operation := p.arguments.operation

/-- `f"refs/heads/{proposal.branch}"`. -/
def ref : Str := p.arguments.ref

end Proposal

/-! ## What is shown

The text a person is shown, without the characters that a terminal would act on. -/

/-- The characters that are shown as they are. -/
def isShown (c : CodePoint) : Bool := c ∈ [lf, ch '\t'] || !isControl c

/-- `_printable`: what a terminal would not show as it is, is spelled out. -/
def printable (text : Str) : Str := spellOut isShown text

/-- `text.rstrip()`: the white space at the end goes, that at the ends of the lines before stays. -/
def rstrip (text : Str) : Str := rstripBy isSpace text

namespace Workshop

variable {W τ : Type} (shop : Workshop W τ)

/-- How the tests ended, in words: by their time, or with a code. -/
def verdictText (t : TestRun) : Str :=
  if t.timedOut then str "timed out"
  else str "exit " ++ (t.exitCode.map decimalInt).getD (str "None")

/-- The line about the tests: the command, how it ended, and how long it took. -/
def testsLine (t : TestRun) : Str :=
  str "tests      : " ++ join [ch ' '] t.argv ++ str " (" ++ verdictText t ++ str ", " ++
    shop.secondsText t.seconds ++ str "s)"

/-- `render`: what a person is shown before they answer, everything of the operation and the diff.
-/
def render (p : Proposal) (op : Operation) : Str :=
  printable (join [lf]
    [str "repository : " ++ p.repo,
      str "base       : " ++ p.base,
      str "new branch : " ++ p.branch ++ str " -> " ++ p.commit,
      shop.testsLine p.tests,
      rstrip p.tests.output,
      [],
      rstrip p.diff,
      [],
      str "operation  : " ++ op.sha256])

end Workshop

/-! ## Nothing moves the cursor

What is shown is printable, line by line, and a text that was printable is shown as it is. -/

theorem isShown_of_isPrintableAscii {c : CodePoint} (h : isPrintableAscii c = true) :
    isShown c = true := by simp [isShown, isControl_of_isPrintableAscii h]

theorem printable_eq_self {text : Str} (h : ∀ c ∈ text, isPrintableAscii c = true) :
    printable text = text := spellOut_eq_self fun c hc ↦ isShown_of_isPrintableAscii (h c hc)

theorem linesAtLf_printable (text : Str) :
    linesAtLf (printable text) = (linesAtLf text).map printable := linesAtLf_spellOut rfl text

/-- The lines of two texts with a line feed between them. -/
theorem linesAtLf_append (s t : Str) : linesAtLf (s ++ lf :: t) = linesAtLf s ++ linesAtLf t := by
  induction s using lines_induction with
  | last l hl => rw [linesAtLf_line hl, linesAtLf_last hl, List.singleton_append]
  | line l rest hl ih =>
    rw [List.append_assoc, List.cons_append, linesAtLf_line hl, linesAtLf_line hl, ih,
      List.cons_append]

/-- The lines of texts that are put under each other. -/
theorem linesAtLf_join {parts : List Str} (h : parts ≠ []) :
    linesAtLf (join [lf] parts) = parts.flatMap linesAtLf := by
  induction parts with
  | nil => exact absurd rfl h
  | cons part rest ih =>
    by_cases hrest : rest = []
    · simp [hrest, join]
    · rw [join_cons hrest, List.append_assoc, List.singleton_append, linesAtLf_append,
        ih hrest, List.flatMap_cons]

/-- The digest is shown as it is. -/
theorem printable_digestLine (op : Operation) :
    printable (str "operation  : " ++ op.sha256) = str "operation  : " ++ op.sha256 := by
  refine printable_eq_self fun c hc ↦ ?_
  rcases List.mem_append.mp hc with hc | hc
  · have hall : (str "operation  : ").all isPrintableAscii = true := by rfl
    exact List.all_eq_true.mp hall c hc
  · have hhex := List.all_eq_true.mp op.sha256_spec.2 c hc
    simp only [isHex, Bool.or_eq_true, Bool.and_eq_true, decide_eq_true_eq] at hhex
    simp only [isPrintableAscii, Bool.and_eq_true, decide_eq_true_eq]
    omega

/-- The lines that are shown. -/
theorem linesAtLf_render {W τ : Type} (shop : Workshop W τ) (p : Proposal) (op : Operation) :
    ∃ before, linesAtLf (shop.render p op) =
      before ++ ((linesAtLf (rstrip p.diff)).map printable ++
        [[], str "operation  : " ++ op.sha256]) := by
  have hlast :
      linesAtLf (str "operation  : " ++ op.sha256) = [str "operation  : " ++ op.sha256] := by
    refine linesAtLf_last fun h ↦ ?_
    have hmem : lf ∈ printable (str "operation  : " ++ op.sha256) := by
      rwa [printable_digestLine]
    rcases List.mem_append.mp h with h | h
    · exact absurd h (by decide)
    · exact absurd (List.all_eq_true.mp op.sha256_spec.2 lf h) (by decide)
  refine ⟨([str "repository : " ++ p.repo, str "base       : " ++ p.base,
    str "new branch : " ++ p.branch ++ str " -> " ++ p.commit, shop.testsLine p.tests,
    rstrip p.tests.output, []].flatMap linesAtLf).map printable, ?_⟩
  rw [Workshop.render, linesAtLf_printable, linesAtLf_join (List.cons_ne_nil _ _)]
  have hnil : linesAtLf [] = [[]] := rfl
  have hblank : printable [] = [] := rfl
  simp [hlast, hnil, hblank, printable_digestLine]

/-- **What a person reads is what there is to approve.**  Nothing in the text moves the cursor, the
whole diff is there line by line, and the last line is the digest of the operation. -/
theorem render_faithful {W τ : Type} (shop : Workshop W τ) (p : Proposal) (op : Operation) :
    (∀ c ∈ shop.render p op, c = lf ∨ c = ch '\t' ∨ isControl c = false) ∧
    printable (shop.render p op) = shop.render p op ∧
    (linesAtLf (rstrip p.diff)).map printable <:+: linesAtLf (shop.render p op) ∧
    (linesAtLf (shop.render p op)).getLast? = some (str "operation  : " ++ op.sha256) := by
  have hshown : ∀ c, isPrintableAscii c = true → isShown c = true := fun _ ↦
    isShown_of_isPrintableAscii
  obtain ⟨before, hlines⟩ := linesAtLf_render shop p op
  refine ⟨fun c hc ↦ ?_, spellOut_spellOut hshown _, ?_, ?_⟩
  · have h := kept_of_mem_spellOut hshown hc
    rw [isShown, Bool.or_eq_true, decide_eq_true_eq, List.mem_cons, List.mem_singleton,
      Bool.not_eq_true', or_assoc] at h
    exact h
  · rw [hlines]
    exact ⟨before, [[], str "operation  : " ++ op.sha256], by rw [List.append_assoc]⟩
  · simp [hlines]

end AtlasCore
