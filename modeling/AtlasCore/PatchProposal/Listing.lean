import AtlasCore.PatchProposal.Paths

/-!
# The listing of a patch is read exactly

`git apply --numstat -z` writes a record for every file: two counts and a path, or two counts, an
empty field and the two names of a rename.  Whatever the paths hold besides NUL, `patch_paths` reads
all of them, in order, so none gets past the check of the paths.
-/

set_option autoImplicit false

namespace AtlasCore

open Py

/-! ## Records

What `git apply --numstat -z` prints, as the records it is made of. -/

/-- A path as git lists it: not empty, without the byte that ends it, and in UTF-8. -/
structure GitPath where
  text : Str
  nonempty : text ≠ []
  nulFree : (0 : CodePoint) ∉ text
  encodable : Py.encodable text = true

/-- How many lines were added or deleted; `-` for a binary file. -/
inductive LineCount where
  | lines (n : ℕ)
  | binary

/-- A count as it is listed: a number, or a hyphen for a binary file. -/
def LineCount.text : LineCount → Str
  | lines n => decimal n
  | binary => str "-"

/-- A record of `git apply --numstat -z`: one path, or two where a file is renamed. -/
inductive NumstatRecord where
  | plain (added deleted : LineCount) (path : GitPath)
  | rename (added deleted : LineCount) (old new : GitPath)

namespace NumstatRecord

/-- The paths of a record, all of which the patch touches. -/
def paths : NumstatRecord → List Str
  | plain _ _ path => [path.text]
  | rename _ _ old new => [old.text, new.text]

/-- The counts, with a tab after each, as every record begins. -/
def counts (added deleted : LineCount) : Bytes :=
  utf8 added.text ++ 9 :: (utf8 deleted.text ++ [9])

/-- A record as git writes it: of a rename, the place of the path is empty and the two paths follow.
-/
def bytes : NumstatRecord → Bytes
  | plain added deleted path => counts added deleted ++ utf8 path.text ++ [0]
  | rename added deleted old new =>
    counts added deleted ++ 0 :: (utf8 old.text ++ 0 :: (utf8 new.text ++ [0]))

end NumstatRecord

/-- The records, one after the other, as the output of the command. -/
def listing (records : List NumstatRecord) : Bytes := records.flatMap (·.bytes)

/-! ## Reading them back

Each part of a record ends where the next begins, so the fields can be cut apart. -/

/-- What is before the separator is the first part. -/
theorem splitAtMost_cons {sep : Byte} {pre : Bytes} (h : sep ∉ pre) (n : ℕ) (rest : Bytes) :
    splitAtMost sep (n + 1) (pre ++ sep :: rest) = pre :: splitAtMost sep n rest := by
  have hpre : ∀ b ∈ pre, decide (b ≠ sep) = true := fun b hb ↦
    decide_eq_true fun heq ↦ h (heq ▸ hb)
  have hstop : (sep :: rest).dropWhile (fun b ↦ decide (b ≠ sep)) = sep :: rest := by
    rw [List.dropWhile_cons_of_neg (by simp)]
  have htake : (pre ++ sep :: rest).takeWhile (fun b ↦ decide (b ≠ sep)) = pre := by
    rw [List.takeWhile_append_of_pos hpre, List.takeWhile_cons_of_neg (by simp), List.append_nil]
  rw [splitAtMost, List.dropWhile_append_of_pos hpre, hstop, htake]

/-- A count holds neither a tab nor NUL. -/
theorem not_mem_count {b : Byte} (hb : b.val < 0x2D) (c : LineCount) : b ∉ utf8 c.text := by
  intro h
  obtain ⟨d, hd, heq⟩ := ascii_mem_utf8 (by omega) h
  cases c with
  | lines n =>
    refine not_mem_decimal ?_ hd
    rw [digitOf, dif_neg (by omega)]
  | binary =>
    have hminus : d.val = 0x2D := by
      rw [List.mem_singleton.mp (hd : d ∈ [ch '-'])]
      decide
    omega

theorem nul_not_mem_path (path : GitPath) : (0 : Byte) ∉ utf8 path.text := fun h ↦ by
  obtain ⟨c, hc, heq⟩ := ascii_mem_utf8 (by decide) h
  exact path.nulFree ((Fin.ext heq : c = 0) ▸ hc)

theorem decoded_path (path : GitPath) : decoded (utf8 path.text) = .ok path.text := by
  rw [decoded, decode_utf8_self path.encodable]

theorem utf8_path_ne_nil (path : GitPath) : utf8 path.text ≠ [] := fun h ↦
  path.nonempty (utf8_eq_nil h)

namespace NumstatRecord

variable (added deleted : LineCount)

theorem nul_not_mem_counts : (0 : Byte) ∉ counts added deleted := by
  simp [counts, not_mem_count (b := 0) (by decide)]

theorem counts_ne_nil : counts added deleted ≠ [] := by simp [counts]

/-- The two counts are split off. -/
theorem splitAtMost_counts (rest : Bytes) :
    splitAtMost 9 2 (counts added deleted ++ rest) =
      [utf8 added.text, utf8 deleted.text, rest] := by
  have htab : ∀ c : LineCount, (9 : Byte) ∉ utf8 c.text := not_mem_count (by decide)
  rw [counts, List.append_assoc, List.cons_append, List.append_assoc,
    splitAtMost_cons (htab added), List.singleton_append, splitAtMost_cons (htab deleted),
    splitAtMost]

/-- A record is read, and the loop stands at the next. -/
theorem listedPaths_bytes (r : NumstatRecord) (rest : Bytes) :
    listedPaths 0 ((r.bytes ++ rest).splitOn 0) =
      (listedPaths 0 (rest.splitOn 0)).map (r.paths ++ ·) := by
  cases r with
  | plain added deleted path =>
    have hfield : (0 : Byte) ∉ counts added deleted ++ utf8 path.text := by
      rw [List.mem_append, not_or]
      exact ⟨nul_not_mem_counts added deleted, nul_not_mem_path path⟩
    rw [bytes, List.append_assoc, List.singleton_append,
      List.splitOn_append_cons_self_of_not_mem hfield, listedPaths,
      if_neg (List.append_ne_nil_of_left_ne_nil (counts_ne_nil added deleted) _),
      splitAtMost_counts]
    dsimp only
    rw [if_neg (utf8_path_ne_nil path), decoded_path]
    cases listedPaths 0 (rest.splitOn 0) <;> rfl
  | rename added deleted old new =>
    rw [bytes, List.append_assoc, List.cons_append, List.append_assoc, List.cons_append,
      List.append_assoc, List.singleton_append,
      List.splitOn_append_cons_self_of_not_mem (nul_not_mem_counts added deleted),
      List.splitOn_append_cons_self_of_not_mem (nul_not_mem_path old),
      List.splitOn_append_cons_self_of_not_mem (nul_not_mem_path new), listedPaths,
      if_neg (counts_ne_nil added deleted)]
    have hcounts := splitAtMost_counts added deleted []
    rw [List.append_nil] at hcounts
    rw [hcounts]
    dsimp only
    rw [if_pos rfl, listedPaths, listedPaths, decoded_path, decoded_path]
    cases listedPaths 0 (rest.splitOn 0) <;> rfl

end NumstatRecord

/-- The loop of `patch_paths` reads all the paths of all the records, in order. -/
theorem listedPaths_listing (records : List NumstatRecord) :
    listedPaths 0 ((listing records).splitOn 0) = .ok (records.flatMap (·.paths)) := by
  induction records with
  | nil => rfl
  | cons r records ih =>
    rw [listing, List.flatMap_cons, NumstatRecord.listedPaths_bytes, ← listing, ih]
    rfl

/-! ## Unsafe paths

The paths that a patch must not touch, by what they mean and not by how the check finds them. -/

/-- The lower case of an ASCII letter; other characters stay as they are. -/
def lowerLetter (c : CodePoint) : CodePoint :=
  if h : 65 ≤ c.val ∧ c.val ≤ 90 then ⟨c.val + 32, by omega⟩ else c

/-- A path that a patch may not name: it is absolute, or holds a backslash, an empty component, `..`
or `.git` in any case. -/
def UnsafePath (path : Str) : Prop :=
  path.head? = some (ch '/') ∨ (92 : CodePoint) ∈ path ∨
    ∃ part ∈ path.splitOn (ch '/'), part = [] ∨ part = str ".." ∨
      part.map lowerLetter = str ".git"

theorem lowerLetter_letter {low up : CodePoint} (hlow : 97 ≤ low.val ∧ low.val ≤ 122)
    (hup : up.val + 32 = low.val) (c : CodePoint) : lowerLetter c = low ↔ c ∈ [low, up] := by
  rw [lowerLetter, List.mem_cons, List.mem_singleton]
  split_ifs with h <;> simp only [Fin.ext_iff] <;> omega

theorem lowerLetter_dot (c : CodePoint) : lowerLetter c = ch '.' ↔ c ∈ str "." := by
  have hdot : (ch '.').val = 46 := by decide
  rw [lowerLetter, show str "." = [ch '.'] from rfl, List.mem_singleton]
  split_ifs with h
  · simp only [Fin.ext_iff]
    omega
  · exact Iff.rfl

/-- `_safe_path` knows `.git` in any case. -/
theorem isDotGit_iff (part : Str) : isDotGit part = true ↔ part.map lowerLetter = str ".git" := by
  have hg : ∀ c, lowerLetter c = ch 'g' ↔ c ∈ [ch 'g', ch 'G'] :=
    lowerLetter_letter (by decide) (by decide)
  have hi : ∀ c, lowerLetter c = ch 'i' ↔ c ∈ [ch 'i', ch 'I'] :=
    lowerLetter_letter (by decide) (by decide)
  have ht : ∀ c, lowerLetter c = ch 't' ↔ c ∈ [ch 't', ch 'T'] :=
    lowerLetter_letter (by decide) (by decide)
  rw [show str ".git" = [ch '.', ch 'g', ch 'i', ch 't'] from rfl]
  match part with
  | [a, b, c, d] =>
    rw [List.map_cons, List.map_cons, List.map_cons, List.map_cons, List.map_nil, List.cons.injEq,
      List.cons.injEq, List.cons.injEq, List.cons.injEq, lowerLetter_dot, hg, hi, ht]
    simp [isDotGit, show str "gG" = [ch 'g', ch 'G'] from rfl,
      show str "iI" = [ch 'i', ch 'I'] from rfl, show str "tT" = [ch 't', ch 'T'] from rfl]
  | [] | [_] | [_, _] | [_, _, _] | _ :: _ :: _ :: _ :: _ :: _ => simp [isDotGit]

/-- What `_safe_path` refuses is what a patch may not name, of a path that is there. -/
theorem safePath_refuses {path : Str} (h : UnsafePath path) :
    safePath path = .error .proposalRefused := by
  rw [safePath]
  split_ifs with h1 h2 h3
  · rfl
  · rfl
  · rfl
  · exfalso
    rw [not_or, not_or] at h1
    rcases h with h | h | ⟨part, hpart, h⟩
    · exact h1.2.1 h
    · exact h1.2.2 h
    have hfine : part ≠ str ".." ∧ part ≠ [] := by
      rw [Bool.not_eq_true, List.any_eq_false] at h2
      simpa using h2 part hpart
    rcases h with h | h | h
    · exact hfine.2 h
    · exact hfine.1 h
    refine h3
      (List.any_eq_true.mpr ⟨part, List.mem_filter.mpr ⟨hpart, ?_⟩, (isDotGit_iff part).mpr h⟩)
    refine decide_eq_true ⟨hfine.2, fun hdot ↦ ?_⟩
    rw [hdot] at h
    exact absurd h (by decide)

/-- What `_safe_path` raises is that the proposal is refused. -/
theorem safePath_error {path : Str} {e : Exc} (h : safePath path = .error e) :
    e = .proposalRefused := by
  rw [safePath] at h
  split_ifs at h <;> cases h <;> rfl

/-- One path is enough. -/
theorem mapM_safePath {paths : List Str} (h : ∃ path ∈ paths, UnsafePath path) :
    paths.mapM safePath = .error .proposalRefused := by
  induction paths with
  | nil =>
    obtain ⟨path, hmem, -⟩ := h
    exact absurd hmem List.not_mem_nil
  | cons path paths ih =>
    rw [List.mapM_cons]
    cases hsafe : safePath path with
    | error e =>
      rw [safePath_error hsafe]
      rfl
    | ok _ =>
      obtain ⟨bad, hmem, hbad⟩ := h
      rcases List.mem_cons.mp hmem with rfl | hmem
      · rw [safePath_refuses hbad] at hsafe
        cases hsafe
      · show (paths.mapM safePath >>= _) = _
        rw [ih ⟨bad, hmem, hbad⟩]
        rfl

/-! ## The listing is read exactly

All records, one after the other, and the rename among them. -/

/-- **Every path that git lists is read, and checked.**  The loop recovers the paths of all records
in their order; and where git prints this listing, an unsafe path among them is refused. -/
theorem listing_exact (records : List NumstatRecord) :
    listedPaths 0 ((listing records).splitOn 0) = .ok (records.flatMap (·.paths)) ∧
      ∀ (W : Type) (site : Site W) (workdir patchFile : Str) (raw : Bytes) (s : Shop W),
        (site.run workdir (Site.numstat patchFile) s.world).1 = .ok ⟨0, listing records⟩ →
          (∃ r ∈ records, ∃ path ∈ r.paths, UnsafePath path) →
            (site.patchPaths workdir patchFile raw s).1 = .error .proposalRefused := by
  refine ⟨listedPaths_listing records, fun W site workdir patchFile raw s hlisted hunsafe ↦ ?_⟩
  have hsome : ∃ path ∈ records.flatMap (·.paths), UnsafePath path := by
    obtain ⟨r, hr, path, hpath, hbad⟩ := hunsafe
    exact ⟨path, List.mem_flatMap.mpr ⟨r, hr, hpath⟩, hbad⟩
  have hcheck : checkListing (listing records) = .error .proposalRefused := by
    rw [checkListing, listedPaths_listing]
    show (if records.flatMap (·.paths) = [] then _ else _) = _
    rw [if_neg, mapM_safePath hsome]
    · rfl
    · intro hnil
      obtain ⟨path, hpath, -⟩ := hsome
      rw [hnil] at hpath
      exact List.not_mem_nil hpath
  exact (site.refusesUnapplied_iff.mpr (.inr ⟨_, hlisted, .inr hcheck⟩)).refused

/-- A file is changed, and another is moved into the repository of git. -/
def movedRecords : List NumstatRecord :=
  [.plain (.lines 12) .binary ⟨str "a\tb\nc", by decide, by decide, by decide⟩,
    .rename (.lines 0) (.lines 0) ⟨str "hook", by decide, by decide, by decide⟩
      ⟨str "sub/.GIT/hooks/x", by decide, by decide, by decide⟩]

/-- Git lists them, whatever it is asked. -/
def movedSite : Site Unit where
  run _ _ := return ⟨0, listing movedRecords⟩
  run_foreign _ _ _ h := nomatch h

theorem listing_exact_moved :
    listedPaths 0 ((listing movedRecords).splitOn 0) =
        .ok [str "a\tb\nc", str "hook", str "sub/.GIT/hooks/x"] ∧
      (movedSite.patchPaths (str "/clone") (str "/change.patch") [] ⟨(), []⟩).1 =
        .error .proposalRefused := by
  refine ⟨(listing_exact movedRecords).1, (listing_exact movedRecords).2 Unit movedSite _ _ _ _ rfl
    ⟨_, List.mem_cons_of_mem _ List.mem_cons_self, str "sub/.GIT/hooks/x",
      List.mem_cons_of_mem _ List.mem_cons_self, .inr (.inr ⟨str ".GIT", ?_, .inr (.inr ?_)⟩)⟩⟩
  · decide
  · decide

end AtlasCore
