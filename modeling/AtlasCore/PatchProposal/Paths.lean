import AtlasCore.Lib.Lines
import AtlasCore.PatchProposal.Git

/-!
# The paths of a patch

Before a patch is applied it is searched for lines that make or change a link, and the paths that
git lists for it are checked.  The search knows eight lines, spelled in one way.  Git reads the mode
of a header as an octal number, however it is spelled, and it reads the mode of an `index` line too
(`headerMode`), so what the search refuses is less than what git takes for a link.
-/

set_option autoImplicit false

namespace AtlasCore

open Py

/-! ## The search

The search for the modes of a link in the text of a patch. -/

/-- The headers `_REFUSED_MODES` knows, each of which a mode follows. -/
def modeHeaders : List Str :=
  [str "new file mode ", str "deleted file mode ", str "old mode ", str "new mode "]

/-- The lines that `_REFUSED_MODES` matches: each header with the mode of a link or of a submodule.
-/
def REFUSED_MODES : List Bytes :=
  modeHeaders.flatMap fun header ↦
    [str "120000", str "160000"].map fun mode ↦ utf8 (header ++ mode)

/-- `$` in a multi-line pattern: the end, or before a line feed. -/
def atLineEnd (rest : Bytes) : Bool := rest.head?.all (· = lfByte)

/-- One of the refused lines is next, and is the whole line. -/
def refusedNext (rest : Bytes) : Bool :=
  REFUSED_MODES.any fun line ↦ line.isPrefixOf rest && atLineEnd (rest.drop line.length)

/-- `_REFUSED_MODES.search` from some place on; `^` in a multi-line pattern is the beginning, or
after a line feed. -/
def refusedFrom (lineStart : Bool) : Bytes → Bool
  | [] => lineStart && refusedNext []
  | b :: rest => (lineStart && refusedNext (b :: rest)) || refusedFrom (b = lfByte) rest

/-- `_REFUSED_MODES.search(raw)`: some line of the patch is one of them. -/
def searchRefusedModes (raw : Bytes) : Bool := refusedFrom true raw

/-- `raw.split(b"\n")`: the lines of a patch, as bytes. -/
def patchLines (raw : Bytes) : List Bytes := raw.splitOn lfByte

theorem lfByte_not_mem_refused : ∀ line ∈ REFUSED_MODES, lfByte ∉ line := by decide

theorem atLineEnd_append {more : Bytes} (h : lfByte ∉ more) (rest : Bytes) :
    atLineEnd (more ++ rest) = true ↔ more = [] ∧ atLineEnd rest = true := by
  cases more with
  | nil => simp
  | cons b more =>
    rw [List.mem_cons, not_or] at h
    simp [atLineEnd, Ne.symm h.1]

/-- At the beginning of a line one of the refused lines is next if it is that line. -/
theorem refusedNext_line {l rest : Bytes} (hl : lfByte ∉ l)
    (hrest : rest = [] ∨ ∃ t, rest = lfByte :: t) :
    refusedNext (l ++ rest) = true ↔ l ∈ REFUSED_MODES := by
  have hprefix : ∀ line ∈ REFUSED_MODES, line.isPrefixOf (l ++ rest) = line.isPrefixOf l := by
    intro line hline
    rcases hrest with rfl | ⟨t, rfl⟩
    · rw [List.append_nil]
    · exact isPrefixOf_line (lfByte_not_mem_refused line hline) t
  have hend : atLineEnd rest = true := by
    rcases hrest with rfl | ⟨t, rfl⟩ <;> rfl
  rw [refusedNext, List.any_eq_true]
  constructor
  · rintro ⟨line, hline, hnext⟩
    rw [Bool.and_eq_true, hprefix line hline, List.isPrefixOf_iff_prefix] at hnext
    obtain ⟨⟨more, rfl⟩, hdrop⟩ := hnext
    rw [List.append_assoc, List.drop_left] at hdrop
    have hmore : lfByte ∉ more := fun h ↦ hl (List.mem_append_right _ h)
    rw [((atLineEnd_append hmore rest).mp hdrop).1, List.append_nil]
    exact hline
  · intro hline
    refine ⟨l, hline, ?_⟩
    rw [Bool.and_eq_true, List.isPrefixOf_iff_prefix, List.drop_left]
    exact ⟨⟨rest, rfl⟩, hend⟩

/-- Only the beginning tells a place at the start of a line from another. -/
theorem refusedFrom_true (raw : Bytes) :
    refusedFrom true raw = (refusedNext raw || refusedFrom false raw) := by
  cases raw with
  | nil => rw [refusedFrom, refusedFrom, Bool.true_and, Bool.false_and, Bool.or_false]
  | cons b rest =>
    rw [refusedFrom, refusedFrom, Bool.true_and, Bool.false_and, Bool.false_or]

/-- In the middle of a line nothing is found, up to its end. -/
theorem refusedFrom_last {l : Bytes} (hl : lfByte ∉ l) : refusedFrom false l = false := by
  induction l with
  | nil => rfl
  | cons b l ih =>
    rw [List.mem_cons, not_or] at hl
    rw [refusedFrom, Bool.false_and, Bool.false_or, decide_eq_false (Ne.symm hl.1), ih hl.2]

theorem refusedFrom_line {l : Bytes} (hl : lfByte ∉ l) (rest : Bytes) :
    refusedFrom false (l ++ lfByte :: rest) = refusedFrom true rest := by
  induction l with
  | nil => rw [List.nil_append, refusedFrom, Bool.false_and, Bool.false_or, decide_eq_true rfl]
  | cons b l ih =>
    rw [List.mem_cons, not_or] at hl
    rw [List.cons_append, refusedFrom, Bool.false_and, Bool.false_or,
      decide_eq_false (Ne.symm hl.1), ih hl.2]

/-- The search finds what it looks for exactly if some line of the patch is one of the eight. -/
theorem searchRefusedModes_iff (raw : Bytes) :
    searchRefusedModes raw = true ↔ ∃ line ∈ patchLines raw, line ∈ REFUSED_MODES := by
  rw [searchRefusedModes]
  induction raw using splitOn_induction lfByte with
  | last l hl =>
    rw [refusedFrom_true, refusedFrom_last hl, Bool.or_false, patchLines,
      List.splitOn_eq_singleton hl]
    have h := refusedNext_line hl (.inl rfl)
    rw [List.append_nil] at h
    rw [h]
    simp
  | line l rest hl ih =>
    rw [refusedFrom_true, refusedFrom_line hl, patchLines,
      List.splitOn_append_cons_self_of_not_mem hl, Bool.or_eq_true,
      refusedNext_line hl (.inr ⟨rest, rfl⟩), ih, patchLines]
    simp

/-! ## The listing

The paths that git lists for a patch, and which of them are refused. -/

/-- `b.split(sep, n)`: at most that many cuts, from the left. -/
def splitAtMost (sep : Byte) : ℕ → Bytes → List Bytes
  | 0, b => [b]
  | n + 1, b =>
    match b.dropWhile (· ≠ sep) with
    | [] => [b]
    | _ :: rest => b.takeWhile (· ≠ sep) :: splitAtMost sep n rest

/-- `b.decode("utf-8")`, which raises where the bytes are none. -/
def decoded (b : Bytes) : Except Exc Str :=
  match decode b with
  | some s => .ok s
  | none => .error .unicodeDecodeError

/-- The paths in the fields of `git apply --numstat -z`; so many of the next fields are names of a
rename. -/
def listedPaths : ℕ → List Bytes → Except Exc (List Str)
  | _, [] => .ok []
  | names + 1, field :: rest => do
    let name ← decoded field
    let more ← listedPaths names rest
    return name :: more
  | 0, field :: rest =>
    if field = [] then .ok []
    else
      match splitAtMost 9 2 field with
      | [_, _, path] =>
        if path = [] then listedPaths 2 rest
        else do
          let name ← decoded path
          let more ← listedPaths 0 rest
          return name :: more
      | _ => .error .proposalRefused

/-- `part.lower() == ".git"`: of no other characters is the lower case `g`, `i` or `t`. -/
def isDotGit (part : Str) : Bool :=
  part.length = 4 && (part.zip [str ".", str "gG", str "iI", str "tT"]).all fun p ↦ p.1 ∈ p.2

/-- `PurePosixPath(path).parts` of a relative path: empty parts and single points go. -/
def pureParts (path : Str) : List Str :=
  (path.splitOn (ch '/')).filter fun part ↦ part ≠ [] ∧ part ≠ str "."

/-- `_safe_path`: the path is relative, does not climb, and does not lead into the directory of git.
-/
def safePath (path : Str) : Except Exc Unit :=
  if path = [] ∨ path.head? = some (ch '/') ∨ (92 : CodePoint) ∈ path then .error .proposalRefused
  else if (path.splitOn (ch '/')).any fun part ↦ part = str ".." || part = [] then
    .error .proposalRefused
  else if (pureParts path).any isDotGit then .error .proposalRefused
  else .ok ()

/-- What `patch_paths` makes of the listing: its paths, where there are any and all are safe. -/
def checkListing (listed : Bytes) : Except Exc (List Str) := do
  let paths ← listedPaths 0 (listed.splitOn 0)
  if paths = [] then .error .proposalRefused
  else
    let _ ← paths.mapM safePath
    return paths

/-! ## `patch_paths`

The two checks together, before the patch is applied. -/

namespace Site

variable {W : Type} (site : Site W)

/-- The command that lists the paths of a patch. -/
def numstat (patchFile : Str) : List Str := [str "apply", str "--numstat", str "-z", patchFile]

/-- The command that applies a patch, to the worktree and to the index. -/
def applyIndex (patchFile : Str) : List Str := [str "apply", str "--index", patchFile]

/-- `patch_paths`; `raw` is what the file holds.  The modes are looked for in the patch itself, the
paths are git's own reading of it. -/
def patchPaths (workdir patchFile : Str) (raw : Bytes) : Eff Exc (Shop W) (List Str) := do
  if searchRefusedModes raw then Eff.raise .proposalRefused
  else
    let listed ← site.git workdir (numstat patchFile) true
    Eff.ofExcept (checkListing listed.stdout)

/-- The part of `prepare` in which the patch is checked and applied. -/
def applyPatch (clone patchFile : Str) (raw : Bytes) : Eff Exc (Shop W) Unit := do
  let _ ← site.patchPaths clone patchFile raw
  let _ ← site.git clone (applyIndex patchFile) true
  return ()

/-- Git refuses to list the paths, or what it lists is refused. -/
def ListingRefused (workdir patchFile : Str) (w : W) : Prop :=
  ∃ result, (site.run workdir (numstat patchFile) w).1 = .ok result ∧
    (result.returncode ≠ 0 ∨ checkListing result.stdout = .error .proposalRefused)

/-- The patch is refused, and nothing is applied. -/
structure RefusesUnapplied (workdir patchFile : Str) (raw : Bytes) (s : Shop W) : Prop where
  refused : (site.patchPaths workdir patchFile raw s).1 = .error .proposalRefused
  stopped : (site.applyPatch workdir patchFile raw s).1 = .error .proposalRefused
  unapplied : ∃ more, (site.applyPatch workdir patchFile raw s).2.acts = s.acts ++ more ∧
    ∀ act ∈ more, ∀ file, act.args ≠ applyIndex file

/-- How `patch_paths` ends, and what it asked of git. -/
theorem wp_patchPaths (workdir patchFile : Str) (raw : Bytes) (s : Shop W) :
    (site.patchPaths workdir patchFile raw).wp
      (fun _ _ ↦ ¬ (searchRefusedModes raw = true ∨ site.ListingRefused workdir patchFile s.world))
      (fun e t ↦
        (e = .proposalRefused ↔
          searchRefusedModes raw = true ∨ site.ListingRefused workdir patchFile s.world) ∧
        ∃ more, t.acts = s.acts ++ more ∧ ∀ act ∈ more, act.args = numstat patchFile) s := by
  rw [patchPaths]
  refine Eff.wp_ite.mpr ⟨fun hsearch ↦ ?_, fun hsearch ↦ ?_⟩
  · exact ⟨⟨fun _ ↦ .inl hsearch, fun _ ↦ rfl⟩, [], (List.append_nil _).symm, by simp⟩
  have hacts : ∀ act ∈ [(⟨workdir, numstat patchFile⟩ : Act)], act.args = numstat patchFile :=
    fun act hact ↦ by rw [List.mem_singleton.mp hact]
  rw [Eff.wp_bind]
  refine site.wp_git.mono (fun listed t ⟨hasked, hok, hcode⟩ ↦ ?_) fun e t ⟨hasked, he⟩ ↦ ?_
  · have hrefused : site.ListingRefused workdir patchFile s.world ↔
        checkListing listed.stdout = .error .proposalRefused := by
      rw [ListingRefused, hok]
      constructor
      · rintro ⟨_, ⟨⟩, h | h⟩
        · exact absurd hcode h
        · exact h
      · exact fun h ↦ ⟨listed, rfl, .inr h⟩
    rw [hrefused]
    cases checkListing listed.stdout with
    | ok paths => exact fun h ↦ h.elim hsearch nofun
    | error e =>
      refine ⟨⟨fun he ↦ .inr (congrArg _ he), fun h ↦ ?_⟩, _, hasked, hacts⟩
      exact Except.error.inj (h.resolve_left hsearch)
  · refine ⟨?_, _, hasked, hacts⟩
    rcases he with ⟨herror, hne⟩ | ⟨rfl, result, hok, hcode⟩
    · refine ⟨fun h ↦ absurd h hne, fun h ↦ ?_⟩
      obtain ⟨result, hok, -⟩ := h.resolve_left hsearch
      rw [herror] at hok
      cases hok
    · exact ⟨fun _ ↦ .inr ⟨result, hok, .inl hcode⟩, fun _ ↦ rfl⟩

/-- What `patch_paths` raises, nothing is applied after. -/
theorem refusesUnapplied_iff {workdir patchFile : Str} {raw : Bytes} {s : Shop W} :
    site.RefusesUnapplied workdir patchFile raw s ↔
      searchRefusedModes raw = true ∨ site.ListingRefused workdir patchFile s.world := by
  have h := site.wp_patchPaths workdir patchFile raw s
  rcases hrun : site.patchPaths workdir patchFile raw s with ⟨e | paths, t⟩
  · have happly : site.applyPatch workdir patchFile raw s = (.error e, t) := by
      show Eff.bind (site.patchPaths workdir patchFile raw) _ s = _
      rw [Eff.bind, hrun]
    rw [Eff.wp, hrun] at h
    obtain ⟨he, more, hmore, hargs⟩ := h
    rw [← he]
    refine ⟨fun h ↦ ?_, fun he ↦ ⟨by rw [hrun, he], by rw [happly, he], more, ?_, ?_⟩⟩
    · have hrefused := h.refused
      rw [hrun] at hrefused
      exact Except.error.inj hrefused
    · rw [happly, hmore]
    · intro act hact file hfile
      rw [hargs act hact] at hfile
      exact absurd (congrArg List.length hfile) (Nat.succ_ne_self 3)
  · rw [Eff.wp, hrun] at h
    refine iff_of_false (fun hrefuses ↦ ?_) h
    have hrefused := hrefuses.refused
    rw [hrun] at hrefused
    cases hrefused

end Site

/-! ## What git reads

The lines of a patch in which git may be told of a mode. -/

/-- `isspace` of the C locale, which is what git goes by. -/
def isBlankByte (b : Byte) : Bool := b = 32 || (9 ≤ b.val && b.val ≤ 13)

/-- The octal number up to the next whitespace. -/
def readOctal (rest : Bytes) : Option ℕ :=
  let word := (rest.dropWhile isBlankByte).takeWhile fun b ↦ !isBlankByte b
  if word ≠ [] ∧ word.all fun b ↦ 48 ≤ b.val && b.val ≤ 55 then
    some (word.foldl (fun n b ↦ 8 * n + (b.val - 48)) 0)
  else none

/-- What follows the object ids of an `index` line. -/
def afterObjectIds (line : Bytes) : Option Bytes :=
  let index := utf8 (str "index ")
  if index.isPrefixOf line then
    match (line.drop index.length).dropWhile (· ≠ 46) with
    | 46 :: 46 :: ids =>
      match ids.dropWhile (· ≠ 32) with
      | [] => none
      | _ :: mode => some mode
    | _ => none
  else none

/-- The mode that git reads in a header of a file. -/
def headerMode (line : Bytes) : Option ℕ :=
  match (modeHeaders.map utf8).find? fun header ↦ header.isPrefixOf line with
  | some header => readOctal (line.drop header.length)
  | none => (afterObjectIds line).bind readOctal

/-- A header with the mode of a symlink or of a submodule. -/
def NamesLink (line : Bytes) : Prop :=
  headerMode line = some 0o120000 ∨ headerMode line = some 0o160000

/-- Which lines of a patch git reads as headers of its files. -/
structure HeaderReader where
  headers : Bytes → List Bytes
  headers_lines : ∀ raw, ∀ line ∈ headers raw, line ∈ patchLines raw

/-- Git reads the mode of a link in some header of a file. -/
def TouchesLink (reader : HeaderReader) (raw : Bytes) : Prop :=
  ∃ line ∈ reader.headers raw, NamesLink line

instance (line : Bytes) : Decidable (NamesLink line) := inferInstanceAs (Decidable (_ ∨ _))

instance (reader : HeaderReader) (raw : Bytes) : Decidable (TouchesLink reader raw) :=
  inferInstanceAs (Decidable (∃ line ∈ reader.headers raw, NamesLink line))

/-- What the search knows are headers with the mode of a link. -/
theorem namesLink_of_refused : ∀ line ∈ REFUSED_MODES, NamesLink line := by decide

/-- A header that is spelled as the search knows it is refused. -/
theorem Site.refuses_of_spelled {W : Type} (site : Site W) (reader : HeaderReader)
    {workdir patchFile : Str} {raw line : Bytes} (hline : line ∈ reader.headers raw)
    (hspelled : line ∈ REFUSED_MODES) (s : Shop W) :
    site.RefusesUnapplied workdir patchFile raw s :=
  site.refusesUnapplied_iff.mpr
    (.inl ((searchRefusedModes_iff raw).mpr ⟨line, reader.headers_lines raw line hline, hspelled⟩))

/-! ## Which links are refused

When the search in the patch meets every link and every submodule that the patch touches. -/

/-- **A patch that touches a link is refused exactly if** a line of it is spelled as one of the
eight, or git refuses to list its paths, or what it lists is refused. -/
theorem links_refused_iff {W : Type} (site : Site W) (reader : HeaderReader)
    (workdir patchFile : Str) (raw : Bytes) (s : Shop W) :
    (TouchesLink reader raw → site.RefusesUnapplied workdir patchFile raw s) ↔
      ¬ TouchesLink reader raw ∨ (∃ line ∈ patchLines raw, line ∈ REFUSED_MODES) ∨
        site.ListingRefused workdir patchFile s.world := by
  rw [site.refusesUnapplied_iff, searchRefusedModes_iff, imp_iff_not_or]

/-! ## A link that is not refused

A patch that changes where a link leads, without a mode line of its own. -/

/-- The target of a symlink is changed: the mode is in the `index` line. -/
def linkPatch : Bytes :=
  utf8 (Py.join [lf] [str "diff --git a/link b/link", str "index 489a8c4..3a3c5d1 120000",
    str "--- a/link", str "+++ b/link", str "@@ -1 +1 @@", str "-old",
    str "\\ No newline at end of file", str "+new", str "\\ No newline at end of file", []])

/-- The headers of a patch of one file: what is before its first hunk. -/
def headersBeforeHunk : HeaderReader where
  headers raw := (patchLines raw).takeWhile fun line ↦ !(utf8 (str "@@ ")).isPrefixOf line
  headers_lines _ _ h := (List.takeWhile_prefix _).subset h

/-- Git lists one path, whatever it is asked. -/
def linkSite : Site Unit where
  run _ _ := return ⟨0, utf8 (str "1\t1\tlink") ++ [0]⟩
  run_foreign _ _ _ h := nomatch h

theorem linkPatch_passes :
    TouchesLink headersBeforeHunk linkPatch ∧
      (linkSite.patchPaths (str "/clone") (str "/change.patch") linkPatch ⟨(), []⟩).1.toOption =
        some [str "link"] := by
  decide

/-- The change of a symlink is not refused. -/
theorem linkPatch_unrefused :
    ¬ (TouchesLink headersBeforeHunk linkPatch →
      linkSite.RefusesUnapplied (str "/clone") (str "/change.patch") linkPatch ⟨(), []⟩) := by
  intro h
  have hpasses := linkPatch_passes.2
  rw [(h linkPatch_passes.1).refused] at hpasses
  cases hpasses

end AtlasCore
