import AtlasCore.Evidence.FailsClosed
import AtlasCore.Lib.Lines

/-!
# No findings block is silently absent

`structured_findings` finds a block with one search of one regular expression.  Seen line by line,
a text has *blocks*: a line that opens one, and everything down to the next line that starts with
three backticks, or to the end of the text.

The search sees the first block, and only if a fence stands somewhere below the line right under
the opening one.  So a block that never ends is absent, an empty one is absent unless a fence
follows further down, and the second block of a text always is.  `noneAbsent_iff` says when that
does not matter.
-/

set_option autoImplicit false

namespace AtlasCore

open Py

/-! ## The blocks of a text

What a block is, without the search: a fence that opens, lines that are no fence, and a fence that
closes.  The parser is compared with this list of all blocks. -/

/-- A line is a fence: three backquotes, and anything after them. -/
def isFence (line : Str) : Bool := fence.isPrefixOf line

/-- A line is the fence with this name, and white space. -/
def opensAs (name line : Str) : Bool :=
  (fence ++ name).isPrefixOf line && isBlank (line.drop (fence ++ name).length)

/-- The version a line opens a block of. -/
def opens (line : Str) : Option Bool :=
  if opensAs FINDINGS_FENCE line then some false
  else if opensAs FINDINGS_FENCE_V2 line then some true
  else none

/-- A block as a reader sees it: its version, the lines in it, and whether it is closed. -/
structure FindingsBlock where
  v2 : Bool
  lines : List Str
  closed : Bool
  deriving DecidableEq

/-- The blocks of some lines; `current` is the block that is being read. -/
def blocksFrom : Option (Bool × List Str) → List Str → List FindingsBlock
  | none, [] => []
  | some (v2, body), [] => [⟨v2, body, false⟩]
  | none, line :: rest => blocksFrom ((opens line).map (·, [])) rest
  | some (v2, body), line :: rest =>
    if isFence line then ⟨v2, body, true⟩ :: blocksFrom none rest
    else blocksFrom (some (v2, body ++ [line])) rest

/-- The blocks of a text, read line by line: a fence opens a block or closes the one that is open.
-/
def findingsBlocks (text : Str) : List FindingsBlock := blocksFrom none (linesAtLf text)

/-- What a block holds, without the blank lines it starts with. -/
def FindingsBlock.body (b : FindingsBlock) : Str := join [lf] (b.lines.dropWhile isBlank)

variable (rt : Runtime)

/-- The block ends, it is a list, and each of its items is among the findings. -/
def FindingsBlock.AccountedFor (entries : List Entry) (b : FindingsBlock) : Prop :=
  b.closed = true ∧ ∃ payload, Json.loads b.body = some (.arr payload) ∧
    ∀ item ∈ payload, ∃ entry ∈ entries, buildEntry rt b.v2 item = .ok entry

/-- The text is read to an end, and each of its blocks is accounted for or the result is
malformed. -/
def NoneAbsent (text : Str) : Prop :=
  ∃ parsed, structuredFindings rt text = .ok parsed ∧
    ∀ b ∈ findingsBlocks text, parsed.malformed = true ∨ b.AccountedFor rt parsed.entries

/-- A fence stands below the line right under the first one that opens a block. -/
def FenceBelow (text : Str) : Prop :=
  (((linesAtLf text).dropWhile fun line ↦ (opens line).isNone).drop 2).any isFence = true

/-- The block is a list of findings, and these are its entries. -/
def FindingsBlock.Reads (b : FindingsBlock) (entries : List Entry) : Prop :=
  ∃ payload, Json.loads b.body = some (.arr payload) ∧
    payload.mapM (buildEntry rt b.v2) = .ok entries

/-- There is no block; or the first one is seen, nothing escapes from it, and where it is a list
of findings they account for every later block. -/
def AllSeen (text : Str) : Prop :=
  match findingsBlocks text with
  | [] => True
  | first :: later => FenceBelow text ∧ ¬ Escapes rt text ∧
      ∀ entries, first.Reads rt entries → ∀ b ∈ later, b.AccountedFor rt entries

/-! ## The search, line by line

The pattern of the source is a search for a line that opens a block and the next that closes it. -/

theorem lf_notMem_fence : lf ∉ fence := by decide

theorem bodyOf_last {l : Str} (hl : lf ∉ l) : bodyOf l = none := by
  induction l with
  | nil => rw [bodyOf, if_neg (by decide)]
  | cons c l ih =>
    rw [List.mem_cons, not_or] at hl
    rw [bodyOf, List.isPrefixOf, beq_eq_false_iff_ne.mpr hl.1, Bool.false_and, if_neg (by simp),
      ih hl.2]
    rfl

/-- The body ends where the next line is a fence. -/
theorem bodyOf_line {l : Str} (hl : lf ∉ l) (rest : Str) :
    bodyOf (l ++ lf :: rest) =
      if isFence rest then some l else (bodyOf rest).map (l ++ lf :: ·) := by
  induction l with
  | nil =>
    rw [List.nil_append, bodyOf, List.isPrefixOf, beq_self_eq_true, Bool.true_and]
    rfl
  | cons c l ih =>
    rw [List.mem_cons, not_or] at hl
    rw [List.cons_append, bodyOf, List.isPrefixOf, beq_eq_false_iff_ne.mpr hl.1, Bool.false_and,
      if_neg (by simp), ih hl.2]
    cases h : isFence rest with
    | true => rfl
    | false => cases bodyOf rest <;> rfl

theorem afterFence_last {l : Str} (hl : lf ∉ l) : afterFence l = none := by
  induction l with
  | nil => rfl
  | cons c l ih =>
    rw [List.mem_cons, not_or] at hl
    rw [afterFence, ih hl.2, if_neg (Ne.symm hl.1)]
    split <;> rfl

/-- The body below an opening line: after as many blank lines as leave one to be found. -/
def bodyBelow (s : Str) : Option Str := (afterFence s).orElse fun _ ↦ bodyOf s

theorem isBlank_cons (c : CodePoint) (l : Str) : isBlank (c :: l) = (isSpace c && isBlank l) :=
  List.all_cons

theorem afterFence_line {l : Str} (hl : lf ∉ l) (rest : Str) :
    afterFence (l ++ lf :: rest) = if isBlank l then bodyBelow rest else none := by
  induction l with
  | nil => rfl
  | cons c l ih =>
    rw [List.mem_cons, not_or] at hl
    rw [List.cons_append, afterFence, ih hl.2, if_neg (Ne.symm hl.1), isBlank_cons]
    cases isSpace c with
    | false => rfl
    | true => cases isBlank l <;> cases bodyBelow rest <;> rfl

theorem isSome_bodyOf_line {l : Str} (hl : lf ∉ l) {rest : Str} (h : (bodyOf rest).isSome = true) :
    (bodyOf (l ++ lf :: rest)).isSome = true := by
  rw [bodyOf_line hl]
  split
  · rfl
  · rwa [Option.isSome_map]

/-- Blank lines hide no body: what is found below them is found with them. -/
theorem isSome_bodyOf_of_afterFence (s : Str) :
    (afterFence s).isSome = true → (bodyOf s).isSome = true := by
  induction s using lines_induction with
  | last l hl =>
    rw [afterFence_last hl]
    exact fun h ↦ absurd h (by simp)
  | line l rest hl ih =>
    intro h
    rw [afterFence_line hl] at h
    split at h
    · rw [bodyBelow, Option.orElse_eq_or, Option.isSome_or, Bool.or_eq_true] at h
      exact isSome_bodyOf_line hl (h.elim ih id)
    · exact absurd h (by simp)

theorem isSome_bodyBelow (s : Str) : (bodyBelow s).isSome = (bodyOf s).isSome := by
  rw [bodyBelow, Option.orElse_eq_or, Option.isSome_or, Bool.eq_iff_iff, Bool.or_eq_true]
  exact ⟨fun h ↦ h.elim (isSome_bodyOf_of_afterFence s) id, .inr⟩

/-- A text is a fence where its first line is. -/
theorem isFence_eq (s : Str) :
    isFence s = ((linesAtLf s).head (linesAtLf_ne_nil s) |> isFence) := by
  induction s using lines_induction with
  | last l hl => simp only [linesAtLf_last hl, List.head_cons]
  | line l rest hl ih =>
    simp only [linesAtLf_line hl, List.head_cons]
    exact isPrefixOf_line lf_notMem_fence rest

/-- The lines of a text are the first and the others. -/
theorem exists_linesAtLf (s : Str) :
    ∃ l ls, linesAtLf s = l :: ls ∧ isFence s = isFence l := by
  obtain ⟨l, ls, h⟩ := List.exists_cons_of_ne_nil (linesAtLf_ne_nil s)
  refine ⟨l, ls, h, ?_⟩
  rw [isFence_eq]
  simp only [h, List.head_cons]

/-- There is a body where some line but the first is a fence. -/
theorem isSome_bodyOf (s : Str) : (bodyOf s).isSome = (linesAtLf s).tail.any isFence := by
  induction s using lines_induction with
  | last l hl =>
    rw [bodyOf_last hl, linesAtLf_last hl]
    rfl
  | line l rest hl ih =>
    obtain ⟨l', ls, hlines, hfence⟩ := exists_linesAtLf rest
    rw [bodyOf_line hl, linesAtLf_line hl, List.tail_cons, hlines, List.any_cons, hfence]
    rw [hlines, List.tail_cons] at ih
    cases isFence l' with
    | true => rfl
    | false =>
      rw [if_neg (by simp), Option.isSome_map, ih]
      rfl

/-- The body is the first line, and the others up to a fence. -/
theorem bodyOf_eq {s body : Str} : bodyOf s = some body → ∀ l ls, linesAtLf s = l :: ls →
    body = join [lf] (l :: ls.takeWhile fun line ↦ !isFence line) := by
  induction s using lines_induction generalizing body with
  | last l hl =>
    rw [bodyOf_last hl]
    exact fun h ↦ absurd h (by simp)
  | line l rest hl ih =>
    intro h l₁ ls₁ hlines₁
    rw [linesAtLf_line hl] at hlines₁
    obtain ⟨rfl, rfl⟩ := List.cons.inj hlines₁
    obtain ⟨l', ls, hlines, hfence⟩ := exists_linesAtLf rest
    rw [bodyOf_line hl, hfence] at h
    rw [hlines, List.takeWhile_cons]
    cases hf : isFence l' with
    | true =>
      rw [hf, if_pos rfl, Option.some.injEq] at h
      rw [← h]
      rfl
    | false =>
      rw [hf, if_neg (by simp), Option.map_eq_some_iff] at h
      obtain ⟨body', hbody', rfl⟩ := h
      rw [ih hbody' l' ls hlines]
      simp [join]

/-! ## The first block

The block that is read is the first that is closed, of whichever version. -/

/-- A line opens a block of one version. -/
theorem opensAs_v1_of_v2 {line : Str} (h : opensAs FINDINGS_FENCE_V2 line = true) :
    opensAs FINDINGS_FENCE line = false := by
  rw [opensAs, Bool.and_eq_true, List.isPrefixOf_iff_prefix] at h
  obtain ⟨rest, hrest⟩ := h.1
  have hname : fence ++ FINDINGS_FENCE_V2 = (fence ++ FINDINGS_FENCE) ++ (ch '.' :: str "v2") := by
    decide
  rw [opensAs, Bool.and_eq_false_iff]
  refine .inr ?_
  rw [← hrest, hname, List.append_assoc, List.drop_left]
  rfl

/-- One version of the expression, at the start of a line. -/
theorem blockHere_line {line : Str} (hline : lf ∉ line) (below : Str) :
    blockHere (line ++ lf :: below) = (opens line).bind fun v2 ↦ (bodyBelow below).map (v2, ·) := by
  have hbody : ∀ name : Str, lf ∉ fence ++ name →
      (if (fence ++ name).isPrefixOf (line ++ lf :: below) then
        afterFence ((line ++ lf :: below).drop (fence ++ name).length) else none) =
      if opensAs name line then bodyBelow below else none := by
    intro name hname
    rw [isPrefixOf_line hname, opensAs]
    cases hp : (fence ++ name).isPrefixOf line with
    | false => rfl
    | true =>
      have hlen := (List.isPrefixOf_iff_prefix.mp hp).length_le
      rw [if_pos rfl, Bool.true_and, List.drop_append_of_le_length hlen,
        afterFence_line fun h ↦ hline (List.mem_of_mem_drop h)]
  simp only [blockHere, hbody _ (show lf ∉ fence ++ FINDINGS_FENCE by decide),
    hbody _ (show lf ∉ fence ++ FINDINGS_FENCE_V2 by decide), opens]
  cases h2 : opensAs FINDINGS_FENCE_V2 line with
  | true =>
    rw [opensAs_v1_of_v2 h2]
    cases bodyBelow below <;> rfl
  | false =>
    cases opensAs FINDINGS_FENCE line <;> cases bodyBelow below <;> rfl

theorem blockHere_last {line : Str} (hline : lf ∉ line) : blockHere line = none := by
  have hbody : ∀ name : Str, (if (fence ++ name).isPrefixOf line then
      afterFence (line.drop (fence ++ name).length) else none) = none := by
    intro name
    split
    · exact afterFence_last fun h ↦ hline (List.mem_of_mem_drop h)
    · rfl
  simp only [blockHere, hbody]
  rfl

theorem searchBlock_false_last {line : Str} (hline : lf ∉ line) :
    searchBlock false line = none := by
  induction line with
  | nil => rfl
  | cons c line ih =>
    rw [List.mem_cons, not_or] at hline
    rw [searchBlock, decide_eq_false (Ne.symm hline.1), ih hline.2]
    rfl

theorem searchBlock_false_line {line : Str} (hline : lf ∉ line) (below : Str) :
    searchBlock false (line ++ lf :: below) = searchBlock true below := by
  induction line with
  | nil => rfl
  | cons c line ih =>
    rw [List.mem_cons, not_or] at hline
    rw [List.cons_append, searchBlock, decide_eq_false (Ne.symm hline.1), ih hline.2]
    rfl

theorem searchBlock_last {line : Str} (hline : lf ∉ line) : searchBlock true line = none := by
  have hhere := blockHere_last hline
  cases line with
  | nil => rfl
  | cons c line =>
    rw [List.mem_cons, not_or] at hline
    rw [searchBlock, if_pos rfl, hhere, decide_eq_false (Ne.symm hline.1),
      searchBlock_false_last hline.2]
    rfl

/-- The search goes from line to line. -/
theorem searchBlock_line {line : Str} (hline : lf ∉ line) (below : Str) :
    searchBlock true (line ++ lf :: below) =
      ((opens line).bind fun v2 ↦ (bodyBelow below).map (v2, ·)).or (searchBlock true below) := by
  rw [← blockHere_line hline]
  cases line with
  | nil => rw [List.nil_append, searchBlock, if_pos rfl, Option.orElse_eq_or]; rfl
  | cons c line =>
    rw [List.mem_cons, not_or] at hline
    rw [List.cons_append, searchBlock, if_pos rfl, decide_eq_false (Ne.symm hline.1),
      searchBlock_false_line hline.2, Option.orElse_eq_or]

/-- Where no body is to be found, the search finds none further down. -/
theorem isSome_bodyOf_of_searchBlock (s : Str) :
    (searchBlock true s).isSome = true → (bodyOf s).isSome = true := by
  induction s using lines_induction with
  | last l hl =>
    rw [searchBlock_last hl]
    exact fun h ↦ absurd h (by simp)
  | line l rest hl ih =>
    intro h
    rw [searchBlock_line hl, Option.isSome_or, Bool.or_eq_true] at h
    refine isSome_bodyOf_line hl (h.elim (fun h ↦ ?_) ih)
    rw [← isSome_bodyBelow]
    cases ho : opens l with
    | none => exact absurd h (by simp [ho])
    | some v2 => simpa [ho] using h

/-- A block is read up to a fence, and the lines after it hold the next ones. -/
theorem blocksFrom_some (v2 : Bool) (body ls : List Str) :
    blocksFrom (some (v2, body)) ls =
      ⟨v2, body ++ ls.takeWhile fun line ↦ !isFence line, ls.any isFence⟩ ::
        blocksFrom none (ls.dropWhile fun line ↦ !isFence line).tail := by
  induction ls generalizing body with
  | nil => simp [blocksFrom]
  | cons line ls ih =>
    rw [blocksFrom, List.takeWhile_cons, List.dropWhile_cons, List.any_cons]
    cases hf : isFence line with
    | true => simp
    | false =>
      rw [if_neg (by simp), ih, List.append_assoc]
      rfl

/-- What a block below an opening line holds. -/
def blockBody (below : Str) : Str :=
  join [lf] (((linesAtLf below).takeWhile fun line ↦ !isFence line).dropWhile isBlank)

/-- The first block of a text, and the one the search finds. -/
theorem findingsBlocks_cases (text : Str) :
    (findingsBlocks text = [] ∧ searchBlock true text = none) ∨
      ∃ below first later, findingsBlocks text = first :: later ∧
        first.closed = (linesAtLf below).any isFence ∧ first.body = blockBody below ∧
        searchBlock true text = (bodyBelow below).map (first.v2, ·) ∧
        (FenceBelow text ↔ (bodyBelow below).isSome = true) := by
  induction text using lines_induction with
  | last l hl =>
    rw [findingsBlocks, FenceBelow, linesAtLf_last hl, searchBlock_last hl]
    cases ho : opens l with
    | none => exact .inl ⟨by simp [blocksFrom, ho], rfl⟩
    | some v2 =>
      refine .inr ⟨[], ⟨v2, [], false⟩, [], by simp [blocksFrom, ho], rfl, rfl, rfl, ?_⟩
      rw [List.dropWhile_cons, ho]
      exact Iff.rfl
  | line l rest hl ih =>
    rw [findingsBlocks, FenceBelow, linesAtLf_line hl, searchBlock_line hl]
    cases ho : opens l with
    | none =>
      simp only [blocksFrom, ho, Option.map_none, Option.bind_none, Option.none_or,
        List.dropWhile_cons, Option.isNone_none, if_true]
      exact ih
    | some v2 =>
      refine .inr ⟨rest, ⟨v2, (linesAtLf rest).takeWhile fun line ↦ !isFence line,
        (linesAtLf rest).any isFence⟩,
        blocksFrom none ((linesAtLf rest).dropWhile fun line ↦ !isFence line).tail, ?_, rfl, rfl,
        ?_, ?_⟩
      · rw [blocksFrom, ho, Option.map_some, blocksFrom_some, List.nil_append]
      · rw [Option.bind_some]
        cases hb : bodyBelow rest with
        | some body => rfl
        | none =>
          have hsearch : searchBlock true rest = none := by
            rw [← Option.not_isSome_iff_eq_none]
            intro h
            have hsome := isSome_bodyOf_of_searchBlock rest h
            rw [← isSome_bodyBelow, hb] at hsome
            exact absurd hsome (by simp)
          rw [hsearch]
          rfl
      · rw [List.dropWhile_cons, ho, isSome_bodyBelow, isSome_bodyOf]
        simp

/-- A text that starts with a fence is not JSON. -/
theorem loads_fence {s : Str} (h : isFence s = true) : Json.loads s = none := by
  obtain ⟨rest, rfl⟩ := List.isPrefixOf_iff_prefix.mp h
  refine Json.loads_other fun c tail hs ↦ ?_
  have hhead : c = ch '`' := by
    have hskip : Json.skipWs (fence ++ rest) = fence ++ rest := rfl
    rw [hskip] at hs
    exact (List.cons.inj hs).1.symm
  rw [hhead]
  decide

/-- The body that is found and the block that is there are the same JSON, if any. -/
theorem loads_bodyBelow {below body : Str} (h : bodyBelow below = some body) :
    Json.loads body = Json.loads (blockBody below) := by
  induction below using lines_induction generalizing body with
  | last l hl =>
    rw [bodyBelow, afterFence_last hl, bodyOf_last hl] at h
    exact absurd h (by simp)
  | line l rest hl ih =>
    have hsome : (bodyOf (l ++ lf :: rest)).isSome = true := by
      rw [← isSome_bodyBelow, h]
      rfl
    rw [bodyBelow, afterFence_line hl, Option.orElse_eq_or] at h
    rw [blockBody, linesAtLf_line hl, List.takeWhile_cons]
    cases hf : isFence l with
    | true =>
      -- an empty block: what is found below it starts with its own fence
      have hblank : isBlank l = false := by
        obtain ⟨tail, rfl⟩ := List.isPrefixOf_iff_prefix.mp hf
        rfl
      rw [hblank, if_neg (by simp), Option.none_or] at h
      have hbody := bodyOf_eq h l _ (linesAtLf_line hl rest)
      have hfence : isFence body = true := by
        have hl : fence <+: l := List.isPrefixOf_iff_prefix.mp hf
        rw [hbody, isFence, List.isPrefixOf_iff_prefix]
        cases (linesAtLf rest).takeWhile fun line ↦ !isFence line with
        | nil => exact hl
        | cons l' ls =>
          rw [join, List.append_assoc]
          exact hl.trans (List.prefix_append l _)
          · simp
      rw [loads_fence hfence]
      rfl
    | false =>
      rw [Bool.not_false, if_pos rfl, List.dropWhile_cons]
      cases hblank : isBlank l with
      | true =>
        rw [hblank, if_pos rfl] at h
        rw [if_pos rfl]
        cases hb : bodyBelow rest with
        | some body' =>
          rw [hb, Option.some_or] at h
          obtain rfl := Option.some.inj h
          exact ih hb
        | none =>
          -- only blank lines: the last of them is the body
          rw [hb, Option.none_or] at h
          have hrest : bodyOf rest = none := by
            rw [← Option.not_isSome_iff_eq_none, ← isSome_bodyBelow, hb]
            simp
          rw [bodyOf_line hl, hrest] at h
          split at h
          · rename_i hfence
            obtain rfl := Option.some.inj h
            obtain ⟨l', ls, hlines, hf'⟩ := exists_linesAtLf rest
            rw [Json.loads_blank hblank, hlines, List.takeWhile_cons, ← hf', hfence]
            rfl
          · exact absurd h (by simp)
      | false =>
        rw [hblank, if_neg (by simp), Option.none_or] at h
        rw [if_neg (by simp), bodyOf_eq h l _ (linesAtLf_line hl rest)]

/-! ## Whether every block is accounted for

A block is read, or refused, or nobody sees it; and when that is. -/

variable {rt}

theorem any_isFence_of_tail {ls : List Str} (h : ls.tail.any isFence = true) :
    ls.any isFence = true := by
  cases ls with
  | nil => exact h
  | cons l ls => rw [List.any_cons, show ls.any isFence = true from h, Bool.or_true]

/-- A closed block without a fence further down holds no line. -/
theorem loads_blockBody_of_empty {below : Str} (hclosed : (linesAtLf below).any isFence = true)
    (htail : (linesAtLf below).tail.any isFence = false) : Json.loads (blockBody below) = none := by
  obtain ⟨l, ls, hlines, -⟩ := exists_linesAtLf below
  rw [hlines, List.tail_cons] at htail
  rw [hlines, List.any_cons, htail, Bool.or_false] at hclosed
  rw [blockBody, hlines, List.takeWhile_cons, hclosed]
  rfl

/-- A result that is not malformed is what its block was read as. -/
theorem reads_of_parsed {text body : Str} {v2 : Bool} {parsed : ParsedFindings}
    (hs : searchBlock true text = some (v2, body)) (ht : Json.trouble rt.nesting body = none)
    (hparsed : structuredFindings rt text = .ok parsed) (hm : parsed.malformed ≠ true) :
    ∃ payload, Json.loads body = some (.arr payload) ∧
      payload.mapM (buildEntry rt v2) = .ok parsed.entries := by
  by_cases hl : ∃ payload, Json.loads body = some (.arr payload)
  · obtain ⟨payload, hl⟩ := hl
    rw [structuredFindings_of_loads hs ht hl] at hparsed
    refine ⟨payload, hl, ?_⟩
    cases hmap : payload.mapM (buildEntry rt v2) with
    | ok entries =>
      rw [hmap] at hparsed
      obtain rfl := Except.ok.inj hparsed
      rfl
    | error e =>
      rw [hmap] at hparsed
      simp only at hparsed
      split at hparsed
      · obtain rfl := Except.ok.inj hparsed
        exact absurd rfl hm
      · exact absurd hparsed (by simp)
  · rw [structuredFindings_of_not_list hs ht fun payload h ↦ hl ⟨payload, h⟩] at hparsed
    obtain rfl := Except.ok.inj hparsed
    exact absurd rfl hm

/-- **No findings block is silently absent** exactly where all of them are seen. -/
theorem noneAbsent_iff (text : Str) : NoneAbsent rt text ↔ AllSeen rt text := by
  rcases findingsBlocks_cases text with
    ⟨hblocks, hsearch⟩ | ⟨below, first, later, hblocks, hclosed, hbody, hsearch, hfence⟩
  · simp [NoneAbsent, AllSeen, hblocks, structuredFindings, hsearch]
  · simp only [NoneAbsent, AllSeen, hblocks, List.forall_mem_cons]
    cases hb : bodyBelow below with
    | none =>
      rw [hb] at hsearch hfence
      have hparsed : structuredFindings rt text = .ok {} := by rw [structuredFindings, hsearch]; rfl
      refine iff_of_false ?_ fun h ↦ absurd (hfence.mp h.1) (by simp)
      rintro ⟨parsed, h, hfirst, -⟩
      rw [hparsed] at h
      obtain rfl := Except.ok.inj h
      obtain ⟨hclose, payload, hpayload, -⟩ := hfirst.resolve_left (by simp)
      rw [hclosed] at hclose
      have htail : (linesAtLf below).tail.any isFence = false := by
        rw [← isSome_bodyOf, ← isSome_bodyBelow, hb]
        rfl
      rw [hbody, loads_blockBody_of_empty hclose htail] at hpayload
      exact absurd hpayload (by simp)
    | some body =>
      rw [hb] at hsearch hfence
      have hloads : Json.loads body = Json.loads first.body := by rw [hbody, loads_bodyBelow hb]
      have hclose : first.closed = true := by
        rw [hclosed]
        refine any_isFence_of_tail ?_
        rw [← isSome_bodyOf, ← isSome_bodyBelow, hb]
        rfl
      rw [hfence, ← structuredFindings_returns_iff]
      simp only [Option.isSome_some, true_and]
      constructor
      · rintro ⟨parsed, hparsed, -, hlater⟩
        refine ⟨⟨parsed, hparsed⟩, ?_⟩
        rintro entries ⟨payload, hpayload, hentries⟩ b hmem
        have hreturns := structuredFindings_returns_iff.mp ⟨parsed, hparsed⟩
        have ht : Json.trouble rt.nesting body = none := by
          by_contra ht
          exact hreturns ⟨first.v2, body, hsearch, .inl ht⟩
        rw [structuredFindings_of_loads hsearch ht (hloads.trans hpayload), hentries] at hparsed
        obtain rfl := Except.ok.inj hparsed
        exact (hlater b hmem).resolve_left (by simp)
      · rintro ⟨⟨parsed, hparsed⟩, hlater⟩
        have hreturns := structuredFindings_returns_iff.mp ⟨parsed, hparsed⟩
        have ht : Json.trouble rt.nesting body = none := by
          by_contra ht
          exact hreturns ⟨first.v2, body, hsearch, .inl ht⟩
        refine ⟨parsed, hparsed, ?_⟩
        by_cases hmalformed : parsed.malformed = true
        · exact ⟨.inl hmalformed, fun _ _ ↦ .inl hmalformed⟩
        · obtain ⟨payload, hpayload, hentries⟩ := reads_of_parsed hsearch ht hparsed hmalformed
          refine ⟨.inr ⟨hclose, payload, hloads ▸ hpayload, Except.result_of_mapM hentries⟩,
            fun b hmem ↦ ?_⟩
          exact .inr (hlater parsed.entries ⟨payload, hloads ▸ hpayload, hentries⟩ b hmem)

/-! ## A block that nobody sees

One that is never closed. -/

/-- A block that is never closed, which the source does not see at all. -/
def unclosedBlock : Str := fence ++ FINDINGS_FENCE ++ [lf] ++ str "[1]"

/-- The parser answers that the text asserts nothing. -/
theorem unclosedBlock_absent : ¬ ∀ text, NoneAbsent asciiRuntime text := by
  intro h
  obtain ⟨parsed, hparsed, hall⟩ := h unclosedBlock
  have hsearch : searchBlock true unclosedBlock = none := by decide
  have hblocks : findingsBlocks unclosedBlock = [⟨false, [str "[1]"], false⟩] := by decide
  rw [structuredFindings, hsearch] at hparsed
  obtain rfl := Except.ok.inj hparsed
  rw [hblocks, List.forall_mem_singleton] at hall
  exact absurd (hall.resolve_left (by simp)).1 (by simp)

end AtlasCore
