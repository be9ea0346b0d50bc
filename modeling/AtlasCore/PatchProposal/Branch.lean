import AtlasCore.PatchProposal.Prepare

/-!
# The one write

`create_branch` fetches one commit and creates one reference, in one transaction that also verifies
the branch the commit was cut from.  What goes into the transaction is text, read by git line by
line and word by word, so `describe_create_branch` admits nothing that could be read as another
instruction.

`instructions` are the lines and the words of that text, and `instructions_transactionText` says
that of everything that is admitted they are the two that were meant.  The tool itself is put into a
gateway with an authority of its own, whose head is that of a clean checkout.
-/

set_option autoImplicit false

namespace AtlasCore

open Py

/-! ## Code of the host that only computes

A handler that calls nothing of the gateway is a computation of its own. -/

/-- A computation over the state of the host, as code of the host. -/
def Prog.ofEff {H Ref τ β : Type} (m : Eff Exc H β) : Prog H Ref τ β :=
  .host id fun h ↦ .host (fun _ ↦ (m h).2) fun _ ↦
    match (m h).1 with
    | .ok b => .ret b
    | .error e => .raise e

theorem Prog.run_ofEff {H Ref τ β : Type} (gateway : Gateway H Ref τ) (calls : Calls H Ref τ)
    (nestedAllowed : Bool) (m : Eff Exc H β) :
    (Prog.ofEff m).run gateway calls nestedAllowed = onHost m := by
  funext s
  rw [Prog.ofEff, Prog.run, onHost, Eff.zoom]
  show (Prog.run gateway calls nestedAllowed _ _ : Except Exc β × Floor H τ) = _
  rw [Prog.run]
  show (Prog.run gateway calls nestedAllowed _ _ : Except Exc β × Floor H τ) = _
  rcases hm : m s.desk.world with ⟨e | b, h⟩
  · show (Prog.run gateway calls nestedAllowed _ _ : Except Exc β × Floor H τ) = _
    simp only [id, hm]
    rfl
  · simp only [id, hm]
    rfl

/-! ## The arguments

What the tool reads from its arguments, and raises where they are not these. -/

/-- Whether a key of a dict is this text. -/
def PyVal.isKey (key : Str) : PyVal → Bool
  | .str k => k = key
  | _ => false

/-- `args[key]`, a text, as the handler takes it out of the arguments it is given. -/
def PyVal.textAt (key : String) : PyVal → Except Exc Str
  | .dict entries =>
    match entries.find? fun p ↦ p.1.isKey (Py.str key) with
    | some (_, .str s) => .ok s
    | some _ => .error .typeError
    | Option.none => .error .keyError
  | _ => .error .typeError

/-- The arguments of `create_branch`, as a handler finds them. -/
def WriteArgs.read (v : PyVal) : Except Exc WriteArgs := do
  return {
    repo := ← v.textAt "repo"
    branch := ← v.textAt "branch"
    commit := ← v.textAt "commit"
    base := ← v.textAt "base"
    baseRef := ← v.textAt "base_ref"
    diffSha256 := ← v.textAt "diff_sha256"
    source := ← v.textAt "source" }

namespace Workshop

variable {W τ : Type} (shop : Workshop W τ)

/-! ## The tool

The one tool a proposal is written with, its `describe`, and the gateway it is registered in. -/

/-- `git update-ref --stdin`, which takes all instructions of the text or none. -/
def transact (repo text : Str) : Eff Exc (Yard W) ℤ :=
  match encode text with
  | none => Eff.raise .unicodeEncodeError
  | some input => do
    deed (.transaction repo text)
    outdoors (shop.updateRefs repo input)

/-- `_create_branch`: the commit is fetched, and everything that was approved about it is checked
again before the ref is made. -/
def createBranch (v : PyVal) : Eff Exc (Yard W) PyVal := do
  let a ← Eff.ofExcept (WriteArgs.read v)
  let _ ← shop.git a.fetchAct.cwd a.fetchAct.args true
  let parent ← shop.gitWord a.repo [str "rev-parse", a.commit ++ str "^"] true
  if parent ≠ a.base then Eff.raise .proposalRefused
  else
    let shown ← hashed (← shop.diff a.repo a.base a.commit)
    if shown ≠ a.diffSha256 then Eff.raise .proposalRefused
    else
      let _ ← shop.checkRef a.baseRef
      if (← shop.transact a.repo a.transactionText) ≠ 0 then Eff.raise .proposalRefused
      else
        return .dict [(.str (str "ref"), .str a.ref), (.str (str "commit"), .str a.commit)]

/-- `describe_create_branch`; keys beyond the seven are refused by the schema before. -/
def describeCreateBranch (v : PyVal) : Eff Exc (Yard W) Operation := do
  let a ← Eff.ofExcept (WriteArgs.read v)
  let _ ← shop.checkRef a.baseRef
  if ¬ isOid a.commit then Eff.raise .proposalRefused
  else
    let _ ← Eff.ofExcept (validateBranch a.branch)
    Eff.ofExcept a.operation

/-- The names of the arguments, every one of which is required. -/
def argumentNames : List Str :=
  [str "repo", str "branch", str "commit", str "base", str "base_ref", str "diff_sha256",
    str "source"]

/-- `CREATE_BRANCH.input_schema`: seven texts, and nothing else. -/
def inputSchema : Fields :=
  [(str "type", .str (str "object")), (str "additionalProperties", .bool false),
    (str "required", .arr (argumentNames.map .str)),
    (str "properties", .obj (argumentNames.map fun name ↦
      (name, .obj [(str "type", .str (str "string"))])))]

/-- `CREATE_BRANCH.output_schema`: what was made, and at which commit. -/
def outputSchema : Fields :=
  [(str "type", .str (str "object")),
    (str "required", .arr [.str (str "ref"), .str (str "commit")])]

theorem createBranch_named : isToolName (str "create_branch") = true := by decide

theorem createBranch_routed : ([str "*"] : List Str) ≠ [] ∧ ([] : Str) ∉ [str "*"] := by decide

theorem createBranch_timed : (0 : ℚ) < 60 := by decide

theorem createBranch_tried : (1 : ℕ) ≤ 1 := le_rfl

theorem createBranch_retried : (1 : ℕ) < 1 → (none : Option Bool) = some true := by decide

theorem createBranch_once : Capability.write = .write → (1 : ℕ) = 1 := fun _ ↦ rfl

/-- `CREATE_BRANCH`: the one tool that writes, for every route, in this process. -/
def CREATE_BRANCH : ToolDefinition (Yard W) PyVal τ where
  name := str "create_branch"
  capability := .write
  handler r := .ofEff (shop.createBranch r)
  allowedRoutes := [str "*"]
  inputSchema := inputSchema
  outputSchema := outputSchema
  timeoutSeconds := 60
  sandbox := .inProcess
  idempotent := none
  maxAttempts := 1
  retryOn := Exc.isOSError
  describe := some fun r ↦ .ofEff (shop.describeCreateBranch r)
  named := createBranch_named
  routed := createBranch_routed
  timed := createBranch_timed
  tried := createBranch_tried
  retried := createBranch_retried
  once := createBranch_once

/-- The authority, in the yard: its clocks are the machine's, and the head is that of a clean
checkout. -/
def authority : Office (Yard W) τ where
  headOf repo := outdoors (cleanHead shop.checkout repo)
  clock := outdoors shop.office.clock
  wallClock := outdoors shop.office.wallClock
  tokenUrlsafe := outdoors shop.office.tokenUrlsafe
  plus := shop.office.plus
  atLeast := shop.office.atLeast
  before := shop.office.before
  allowedTtl := shop.office.allowedTtl
  iso := shop.office.iso
  mask := shop.office.mask
  sink e := outdoors (shop.office.sink e)
  sink_rejects e y := shop.office.sink_rejects e y.world

theorem createBranch_registered :
    ∀ p ∈ [(str "create_branch", shop.CREATE_BRANCH)], p.1 = p.2.name := fun p hp ↦ by
  rw [List.mem_singleton.mp hp]
  rfl

/-- The gateway of `propose`, over one log with the authority.  Nothing is isolated in it, so how a
forked process ends is never asked. -/
def gateway : Gateway (Yard W) PyVal τ where
  tools := [(str "create_branch", shop.CREATE_BRANCH)]
  registered := shop.createBranch_registered
  approvals := some shop.authority
  meter := ⟨outdoors shop.monotonic, none⟩
  mask := shop.office.mask
  sink e := outdoors (shop.office.sink e)
  sharesLog := true
  typeName := shop.typeName
  mentionsJson := shop.mentionsJson
  monotonic := outdoors shop.monotonic
  posix := true
  nesting := shop.nesting
  equal := shop.equal
  view v _ := v
  alloc v y := (v, y)
  view_alloc _ _ := rfl
  dictCopy v y := (v, y)
  digest v := outdoors (shop.digest v)
  childEnd := return .answered
  rejoin _ y := y

end Workshop

/-! ## One transaction

A branch is created in one transaction, of which the text is all that git gets.  Its lines and
words are those that were approved. -/

/-- The lines of a text that are not empty, each cut at its spaces into words.  One instruction a
line, in words, is what the text of a transaction is written to be. -/
def instructions (text : Str) : List (List Str) :=
  ((linesAtLf text).filter (· ≠ [])).map fun line ↦ line.splitOn (ch ' ')

theorem splitOn_three {α : Type*} [DecidableEq α] {x : α} {a b c : List α} (ha : x ∉ a) (hb : x ∉ b)
    (hc : x ∉ c) : (a ++ x :: (b ++ x :: c)).splitOn x = [a, b, c] := by
  rw [List.splitOn_append_cons_self_of_not_mem ha, List.splitOn_append_cons_self_of_not_mem hb,
    List.splitOn_eq_singleton hc]

/-- A text that can be a word of an instruction. -/
def IsWord (s : Str) : Prop := ch ' ' ∉ s ∧ lf ∉ s

theorem isWord_of_noSpace {s : Str} (h : s.any isSpace = false) : IsWord s := by
  have hnot := List.any_eq_false.mp h
  exact ⟨fun hmem ↦ hnot _ hmem (by decide), fun hmem ↦ hnot _ hmem (by decide)⟩

theorem IsWord.append {s t : Str} (hs : IsWord s) (ht : IsWord t) : IsWord (s ++ t) := by
  simp only [IsWord, List.mem_append, not_or] at *
  tauto

theorem isWord_of_isHex {s : Str} (h : s.all isHex = true) : IsWord s := by
  have hall := List.all_eq_true.mp h
  exact ⟨fun hmem ↦ absurd (hall _ hmem) (by decide), fun hmem ↦ absurd (hall _ hmem) (by decide)⟩

theorem isWord_of_matchesBranch {name : Str} (h : matchesBranch name = true) : IsWord name := by
  rw [matchesBranch, Bool.and_eq_true] at h
  obtain ⟨hstarts, hrest⟩ := h
  obtain ⟨rest, rfl⟩ := List.isPrefixOf_iff_prefix.mp hstarts
  have hdrop : (str "atlas/" ++ rest).drop 6 = rest := rfl
  rw [hdrop] at hrest
  have hchars : ∀ c ∈ rest, isBranchChar c = true := by
    rcases rest with _ | ⟨c, rest⟩
    · exact fun c hc ↦ absurd hc List.not_mem_nil
    · simp only [Bool.and_eq_true] at hrest
      rintro d (_ | ⟨_, hd⟩)
      · simp [isBranchChar, hrest.1.1]
      · exact List.all_eq_true.mp hrest.2 d hd
  refine IsWord.append (isWord_of_noSpace rfl) ⟨fun hmem ↦ ?_, fun hmem ↦ ?_⟩
  · exact absurd (hchars _ hmem) (by decide)
  · exact absurd (hchars _ hmem) (by decide)

/-- A line of three words, and what follows it. -/
theorem instructions_line {name a b rest : Str} (hname : IsWord name) (hne : name ≠ [])
    (ha : IsWord a) (hb : IsWord b) :
    instructions (name ++ ch ' ' :: (a ++ ch ' ' :: b) ++ lf :: rest) =
      [name, a, b] :: instructions rest := by
  have hline : lf ∉ name ++ ch ' ' :: (a ++ ch ' ' :: b) := by
    have hspace : lf ≠ ch ' ' := by decide
    simp [hname.2, ha.2, hb.2, hspace]
  rw [instructions, linesAtLf_line hline, List.filter_cons_of_pos (by simp [hne]), List.map_cons,
    splitOn_three hname.1 ha.1 hb.1, instructions]

variable {W τ : Type} {shop : Workshop W τ}

/-- What `describe_create_branch` admits: a write whose names have the forms that git's commands are
built from. -/
structure Admitted (a : WriteArgs) (op : Operation) : Prop where
  operation : a.operation = .ok op
  branch : matchesBranch a.branch = true
  commit : isOid a.commit = true
  baseRef : startsWith a.baseRef (str "refs/heads/") = true ∧ a.baseRef.any isSpace = false

theorem wp_checkRef {name : Str} {y : Yard W} :
    (shop.checkRef name).wp
      (fun _ _ ↦ startsWith name (str "refs/heads/") = true ∧ name.any isSpace = false)
      (fun _ _ ↦ True) y := by
  refine Eff.wp_ite.mpr ⟨fun _ ↦ trivial, fun hname ↦ ?_⟩
  simp only [not_or, Bool.not_eq_true, Bool.not_eq_false] at hname
  rw [Eff.wp_bind]
  refine wp_deed ?_
  rw [Eff.wp_bind]
  exact (Eff.wp_true _ _).mono
    (fun code _ _ ↦ Eff.wp_ite.mpr ⟨fun _ ↦ trivial, fun _ ↦ hname⟩) fun _ _ _ ↦ trivial

theorem wp_describeCreateBranch {v : PyVal} {y : Yard W} :
    (shop.describeCreateBranch v).wp
      (fun op _ ↦ ∃ a, WriteArgs.read v = .ok a ∧ Admitted a op) (fun _ _ ↦ True) y := by
  rw [Workshop.describeCreateBranch, Eff.wp_bind, Eff.wp_ofExcept]
  split
  · rename_i a ha
    rw [Eff.wp_bind]
    refine wp_checkRef.mono (fun _ y hbase ↦ ?_) fun _ _ _ ↦ trivial
    refine Eff.wp_ite.mpr ⟨fun _ ↦ trivial, fun hcommit ↦ ?_⟩
    rw [Eff.wp_bind, Eff.wp_ofExcept]
    split
    · rename_i branch hbranch
      rw [Eff.wp_ofExcept]
      split
      · rename_i op hop
        exact ⟨a, ha, hop, (validateBranch_eq_ok hbranch).2, not_not.mp hcommit, hbase⟩
      · trivial
    · trivial
  · trivial

/-- The commit an operation was proposed against is one word. -/
theorem Admitted.base {a : WriteArgs} {op : Operation} (h : Admitted a op) :
    isCommit a.base = true := by
  have hop := h.operation
  rw [WriteArgs.operation, Operation.build] at hop
  split_ifs at hop with _ hpinned
  exact hpinned

/-- **The transaction of an admitted write says two things and nothing else**, whatever the patch,
the task or the repository is called. -/
theorem instructions_transactionText (shop : Workshop W τ) (v : PyVal) (y : Yard W) :
    (shop.describeCreateBranch v).wp
      (fun op _ ↦ ∃ a, WriteArgs.read v = .ok a ∧ a.operation = .ok op ∧
        instructions a.transactionText =
          [[str "verify", a.baseRef, a.base],
            [str "create", str "refs/heads/" ++ a.branch, a.commit]])
      (fun _ _ ↦ True) y := by
  refine wp_describeCreateBranch.mono (fun op _ h ↦ ?_) fun _ _ _ ↦ trivial
  obtain ⟨a, ha, hadmitted⟩ := h
  refine ⟨a, ha, hadmitted.operation, ?_⟩
  have hbaseRef := isWord_of_noSpace hadmitted.baseRef.2
  have hbase : IsWord a.base := by
    have h := hadmitted.base
    rw [isCommit, Bool.and_eq_true] at h
    exact isWord_of_isHex h.2
  have hcommit : IsWord a.commit := by
    have h := hadmitted.commit
    rw [isOid, Bool.and_eq_true] at h
    exact isWord_of_isHex h.2
  have href : IsWord a.ref :=
    (isWord_of_noSpace rfl).append (isWord_of_matchesBranch hadmitted.branch)
  have htext : a.transactionText =
      str "verify" ++ ch ' ' :: (a.baseRef ++ ch ' ' :: a.base) ++
        lf :: (str "create" ++ ch ' ' :: (a.ref ++ ch ' ' :: a.commit) ++ lf :: []) := by
    have hverify : str "verify " = str "verify" ++ [ch ' '] := rfl
    have hcreate : str "create " = str "create" ++ [ch ' '] := rfl
    have hspace : str " " = [ch ' '] := rfl
    have hbreak : str "\n" = [lf] := rfl
    simp [WriteArgs.transactionText, hverify, hcreate, hspace, hbreak]
  have hnil : instructions [] = [] := rfl
  rw [htext, instructions_line (isWord_of_noSpace rfl) (by decide) hbaseRef hbase,
    instructions_line (isWord_of_noSpace rfl) (by decide) href hcommit, hnil]
  rfl

end AtlasCore
