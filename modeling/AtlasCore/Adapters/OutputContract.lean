import AtlasCore.Evidence.BlockSchema
import AtlasCore.Lib.JsonChars
import AtlasCore.Lib.JsonDepth

/-!
# What a provider is asked to return

The schema that is sent asks for one object, `report` and `findings`.  `read_envelope` checks the
wrapper itself and leaves the findings to their parser: it writes them as a block, and reports the
reply as conformed if that block is not malformed.

What it writes is read back as it was (`searchBlock_renderFindingsBlock`), so a reply conforms as
far as the parser looks, and `conformed_valid_iff` says how far that is.
-/

set_option autoImplicit false

namespace AtlasCore

open Py

/-- `output_schema`: a reply is a report that is not empty and a list of findings, each as a block
of findings has it. -/
def outputSchema : JsonSchema :=
  .object [str "report", str "findings"]
    [(str "report", .minLength 1), (str "findings", .array 0 (findingSchema false))]

/-- `ENVELOPE_FIELDS`: the two keys of a reply, and no others. -/
def ENVELOPE_FIELDS : List Str := [str "report", str "findings"]

/-- Why a reply did not match the schema. -/
inductive EnvelopeReason where
  | notJson
  | notAnObject (typeName : Str)
  | unknownFields (names : List Str)
  | noReport
  | findingsMissing
  | findingsNotAList
  | findingsUnusable
  deriving DecidableEq

/-- What the local check made of a reply. -/
structure ReadEnvelope where
  text : Str
  envelopeConformed : Bool
  reason : Option EnvelopeReason := none
  findingsBlock : Option Str := none
  deriving DecidableEq

/-- `ReadEnvelope.conformed`: there is no reason against it. -/
def ReadEnvelope.conformed (e : ReadEnvelope) : Bool := e.reason.isNone

/-- `type(payload).__name__`, which the message about a reply that is no object quotes. -/
def typeName : Json → Str
  | .null => str "NoneType"
  | .bool _ => str "bool"
  | .int _ => str "int"
  | .float _ => str "float"
  | .str _ => str "str"
  | .arr _ => str "list"
  | .obj _ => str "dict"

/-- `render_findings_block`: the findings between two fences, indented.  What `json.dumps` gives up
on, too deep or not a number, is raised. -/
def renderFindingsBlock (rt : Runtime) (findings : List Json) : Except Exc Str :=
  if rt.rendering < Json.depth (.arr findings) then .error .recursionError
  else
    match Json.dumpsIndented 2 (.arr findings) with
    | some block => .ok ((fence ++ FINDINGS_FENCE) ++ lf :: (block ++ lf :: fence))
    | none => .error .valueError

/-- `render_output`: the report without the white space at its end, an empty line, and the block of
findings. -/
def renderOutput (rt : Runtime) (report : Str) (findings : List Json) : Except Exc Str := do
  return rstripBy isSpace report ++ str "\n\n" ++ (← renderFindingsBlock rt findings)

/-- `read_envelope`: a reply that conforms is taken apart and rendered as the text of an output; any
other comes back as it is, with the reason. -/
def readEnvelope (rt : Runtime) (text : Str) : Except Exc ReadEnvelope :=
  let refuse (reason : EnvelopeReason) : Except Exc ReadEnvelope :=
    .ok { text, envelopeConformed := false, reason := some reason }
  match Json.decode rt.nesting text with
  | .error .malformed => refuse .notJson
  -- only `JSONDecodeError` is caught
  | .error (.gaveUp .tooLong) => .error .valueError
  | .error (.gaveUp .tooDeep) => .error .recursionError
  | .ok (.obj payload) =>
    let unknown := ((payload.map Prod.fst).filter fun key ↦ key ∉ ENVELOPE_FIELDS).insertionSort
      fun a b ↦ Json.keyLe a b = true
    if unknown ≠ [] then refuse (.unknownFields unknown)
    else
      match getOrNull payload "report" with
      | .str report =>
        if strip report = [] then refuse .noReport
        else
          match getOrNull payload "findings" with
          | .arr findings => do
            let block ← renderFindingsBlock rt findings
            let rendered ← renderOutput rt report findings
            let parsed ← structuredFindings rt block
            if parsed.malformed then
              return { text := rendered, envelopeConformed := true, reason := some .findingsUnusable
                       findingsBlock := some block }
            else
              return { text := rendered, envelopeConformed := true, findingsBlock := some block }
          | .null => refuse .findingsMissing
          | _ => refuse .findingsNotAList
      | _ => refuse .noReport
  | .ok payload => refuse (.notAnObject (typeName payload))

/-! ## The block is read back

A rendered block has no line in it that would close it early, so the search for a block finds all of
it. -/

/-- A text no line of which is a fence is what stands before the fence that follows it. -/
theorem bodyOf_of_noLine {body : Str} (h : Json.NoLine (ch '`') body) :
    bodyOf (body ++ lf :: fence) = some body := by
  have hchain := (List.isChain_cons.mp h).2
  clear h
  induction body with
  | nil => rfl
  | cons c body ih =>
    obtain ⟨hnext, hrest⟩ := List.isChain_cons.mp hchain
    have hnot : (lf :: fence).isPrefixOf (c :: (body ++ lf :: fence)) = false := by
      rw [List.isPrefixOf, Bool.and_eq_false_iff, beq_eq_false_iff_ne]
      by_cases hc : c = lf
      · right
        cases body with
        | nil => rfl
        | cons b body =>
          have hb : ch '`' ≠ b := (hnext b rfl hc).symm
          exact Bool.and_eq_false_iff.mpr (.inl (beq_eq_false_iff_ne.mpr hb))
      · exact .inl fun heq ↦ hc heq.symm
    rw [List.cons_append, bodyOf, hnot, if_neg Bool.false_ne_true, ih hrest]
    rfl

theorem foreign_backtick : Json.Foreign (ch '`') := by
  rw [Json.Foreign]
  decide

/-- The search finds the findings that were written, and nothing else. -/
theorem searchBlock_renderFindingsBlock {rt : Runtime} {findings : List Json} {block : Str}
    (h : renderFindingsBlock rt findings = .ok block) :
    ∃ body, Json.dumpsIndented 2 (.arr findings) = some body ∧
      searchBlock true block = some (false, body) := by
  rw [renderFindingsBlock] at h
  split_ifs at h
  cases hbody : Json.dumpsIndented 2 (.arr findings) with
  | none =>
    rw [hbody] at h
    cases h
  | some body =>
    rw [hbody] at h
    obtain rfl := Except.ok.inj h
    refine ⟨body, rfl, ?_⟩
    have hwritten : body = Json.write (.indented 2) 0 (.arr findings) := by
      rw [Json.dumpsIndented] at hbody
      split_ifs at hbody
      exact (Option.some.inj hbody).symm
    have hclosed : bodyOf (body ++ lf :: fence) = some body := by
      rw [hwritten]
      exact bodyOf_of_noLine (Json.noLine_write foreign_backtick 0 _)
    obtain ⟨tail, htail⟩ : ∃ tail, body = ch '[' :: tail := by
      rw [hwritten]
      cases findings with
      | nil =>
        rw [Json.write, Json.render]
        exact ⟨_, rfl⟩
      | cons v rest =>
        rw [Json.write]
        exact ⟨_, rfl⟩
    have hspace : afterFence (body ++ lf :: fence) = none := by
      rw [htail, List.cons_append, afterFence, if_neg (by decide)]
    have hopens : opens (fence ++ FINDINGS_FENCE) = some false := by decide
    rw [searchBlock_line (by decide), hopens, Option.bind_some, bodyBelow, hspace, hclosed]
    rfl

/-! ## Conformed replies

A reply of a model is text in an envelope, and what is promised of it is said of the text that
comes out of the envelope.  The replies here are the ones on which the promise is kept, and
broken. -/

variable {rt : Runtime} {text : Str} {e : ReadEnvelope}

/-- No field is named that the schema does not have. -/
theorem unknown_eq_nil_iff {payload : Fields} :
    ((payload.map Prod.fst).filter fun key ↦ key ∉ ENVELOPE_FIELDS).insertionSort
        (fun a b ↦ Json.keyLe a b = true) = [] ↔
      ∀ p ∈ payload, p.1 ∈ ENVELOPE_FIELDS := by
  rw [← List.length_eq_zero_iff, List.length_insertionSort, List.length_eq_zero_iff,
    List.filter_eq_nil_iff, List.forall_mem_map]
  exact forall₂_congr fun p _ ↦ by rw [decide_eq_true_eq, not_not]

/-- What a reply that conforms is, and what its findings were read as. -/
theorem readEnvelope_conformed (h : readEnvelope rt text = .ok e) (hc : e.conformed = true) :
    ∃ payload report findings, Json.loads text = some (.obj payload) ∧
      (∀ p ∈ payload, p.1 ∈ ENVELOPE_FIELDS) ∧ getOrNull payload "report" = .str report ∧
      isBlank report = false ∧ getOrNull payload "findings" = .arr findings ∧
      ∃ entries, findings.mapM (buildEntry rt false) = .ok entries := by
  have hrefused : ∀ {reason : EnvelopeReason}, (Except.ok
      { text, envelopeConformed := false, reason := some reason } :
        Except Exc ReadEnvelope) = .ok e →
      False := by
    intro reason heq
    obtain rfl := Except.ok.inj heq
    cases hc
  rw [readEnvelope] at h
  dsimp only at h
  split at h
  · exact (hrefused h).elim
  · cases h
  · cases h
  · rename_i payload hdecode
    have hl := Json.loads_of_decode hdecode
    split_ifs at h with hunknown
    · exact (hrefused h).elim
    have hno := unknown_eq_nil_iff.mp (not_not.mp hunknown)
    split at h
    · rename_i report hreport
      split_ifs at h with hblank
      · exact (hrefused h).elim
      rw [strip_eq_nil_iff, Bool.not_eq_true] at hblank
      split at h
      · rename_i findings hfindings
        obtain ⟨block, hblock, h⟩ := Except.bind_eq_ok.mp h
        obtain ⟨rendered, -, h⟩ := Except.bind_eq_ok.mp h
        obtain ⟨parsed, hparsed, h⟩ := Except.bind_eq_ok.mp h
        split_ifs at h with hm
        · obtain rfl := Except.ok.inj h
          cases hc
        rw [Bool.not_eq_true] at hm
        obtain ⟨body, hbody, hs⟩ := searchBlock_renderFindingsBlock hblock
        obtain ⟨items, hitems, hentries⟩ := items_of_parsed hs hparsed hm
        have hw : (Json.arr findings).WF := by
          have hfield := lookup_of_getOrNull hfindings (by simp)
          exact (Json.WFFields_iff _).mp (Json.WF_of_loads hl).2 _ (Json.mem_of_lookup hfield)
        rw [Json.loads_dumpsIndented hw hbody] at hitems
        obtain rfl := Json.arr.inj (Option.some.inj hitems)
        exact ⟨payload, report, findings, hl, hno, hreport, hblank, hfindings, _, hentries⟩
      · exact (hrefused h).elim
      · exact (hrefused h).elim
    · exact (hrefused h).elim
  · exact (hrefused h).elim

/-- A reply that conforms is valid exactly where its findings are plain. -/
theorem conformed_valid_iff (h : readEnvelope rt text = .ok e) (hc : e.conformed = true) :
    ∃ payload findings, Json.loads text = some (.obj payload) ∧
      getOrNull payload "findings" = .arr findings ∧
      (outputSchema.accepts (.obj payload) = true ↔ ∀ item ∈ findings, PlainItem false item) := by
  obtain ⟨payload, report, findings, hl, hno, hreport, hblank, hfindings, entries, hentries⟩ :=
    readEnvelope_conformed h hc
  refine ⟨payload, findings, hl, hfindings, ?_⟩
  have hw : (Json.obj payload).WF := Json.WF_of_loads hl
  have hthere := lookup_of_getOrNull hreport (by simp)
  have hlist := lookup_of_getOrNull hfindings (by simp)
  have hitems : Json.WFItems findings := (Json.WFFields_iff _).mp hw.2 _ (Json.mem_of_lookup hlist)
  have hprose : JsonSchema.Property [str "report", str "findings"] payload
      (str "report", .minLength 1) := by
    rw [JsonSchema.Property, hthere]
    exact accepts_minLength.mpr ⟨report, rfl, ne_nil_of_isBlank hblank⟩
  have hblock : JsonSchema.Property [str "report", str "findings"] payload
      (str "findings", .array 0 (findingSchema false)) ↔
        ∀ item ∈ findings, PlainItem false item := by
    rw [JsonSchema.Property, hlist]
    exact accepts_entries_iff hitems hentries
  rw [outputSchema, JsonSchema.accepts_object_iff (by decide) (by decide) hw.1]
  simp only [List.forall_mem_cons, List.not_mem_nil, false_implies, implies_true, and_true,
    List.map_cons, List.map_nil, hprose, true_and, hblock]
  exact and_iff_right hno

/-- **What is accepted and what the schema allows.**  A block that is accepted is valid against the
schema of its fence exactly where each of its items is plain, and a reply that conforms is valid
against the schema that was sent exactly where each of its findings is. -/
theorem accepted_valid_iff (rt : Runtime) :
    (∀ text, Accepted rt text → ∃ v2 items, BlockHolds text v2 items ∧
      ((findingsBlockSchema v2).accepts (.arr items) = true ↔ ∀ item ∈ items, PlainItem v2 item)) ∧
    ∀ text e, readEnvelope rt text = .ok e → e.conformed = true →
      ∃ payload findings, Json.loads text = some (.obj payload) ∧
        getOrNull payload "findings" = .arr findings ∧
        (outputSchema.accepts (.obj payload) = true ↔ ∀ item ∈ findings, PlainItem false item) :=
  ⟨fun _ h ↦ blockHolds_valid_iff h, fun _ _ h hc ↦ conformed_valid_iff h hc⟩

/-- A finding with this scope and these citations. -/
def findingOf (scope : Json) (evidence : List Json) : Json :=
  .obj [(str "claim", .str (str "c")), (str "scope", scope),
    (str "severity_rationale", .str (str "r")), (str "evidence", .arr evidence)]

/-- A citation of one line, with every field that the schema of a finding asks for. -/
def citationOfLine : Json :=
  .obj
    [(str "source_id", .str (str "s")), (str "content_sha256", .str (List.replicate 64 (ch 'a'))),
    (str "line_start", .int 1), (str "line_end", .int 1), (str "quoted", .str (str "q"))]

/-- A text that is one block: the findings between their fences, and nothing before or after. -/
def fencedFindings (findings : List Json) : Str :=
  (fence ++ FINDINGS_FENCE) ++ lf :: (Json.render (.arr findings) ++ lf :: fence)

/-- A reply: one object with a report and these findings, as a provider sends it. -/
def replyOf (findings : List Json) : Str :=
  Json.render (.obj [(str "report", .str (str "a")), (str "findings", .arr findings)])

/-- What is asked of a result is asked of what was returned. -/
theorem exists_ok_of_any {α : Type} {x : Except Exc α} {p : α → Bool}
    (h : x.toOption.any p = true) : ∃ a, x = .ok a ∧ p a = true := by
  obtain ⟨a, ha, hp⟩ := (Option.any_eq_true p _).mp h
  exact ⟨a, Except.eq_ok_of_toOption ha, hp⟩

theorem accepted_of_run (h : (structuredFindings rt text).toOption.any
    (fun parsed ↦ parsed.present && !parsed.malformed) = true) : Accepted rt text := by
  obtain ⟨parsed, hparsed, hflags⟩ := exists_ok_of_any h
  rw [Bool.and_eq_true, Bool.not_eq_true'] at hflags
  exact ⟨parsed, hparsed, hflags⟩

theorem accepted_valid_iff_plain :
    (∃ v2 items,
      BlockHolds (fencedFindings [findingOf (.str (str "s")) [citationOfLine]]) v2 items ∧
      ((findingsBlockSchema v2).accepts (.arr items) = true ↔ ∀ item ∈ items, PlainItem v2 item)) ∧
    ∃ payload findings,
      Json.loads (replyOf [findingOf (.str (str "s")) [citationOfLine]]) = some (.obj payload) ∧
        getOrNull payload "findings" = .arr findings ∧
        (outputSchema.accepts (.obj payload) = true ↔ ∀ item ∈ findings, PlainItem false item) := by
  have haccepted :
      Accepted asciiRuntime (fencedFindings [findingOf (.str (str "s")) [citationOfLine]]) :=
    accepted_of_run (by decide +kernel)
  obtain ⟨e, he, hc⟩ : ∃ e, readEnvelope asciiRuntime
      (replyOf [findingOf (.str (str "s")) [citationOfLine]]) = .ok e ∧ e.conformed = true :=
    exists_ok_of_any (by decide +kernel)
  exact ⟨(accepted_valid_iff asciiRuntime).1 _ haccepted,
    (accepted_valid_iff asciiRuntime).2 _ e he hc⟩

/-- `isinstance(value, list)`, which decides whether findings are looked at one by one. -/
def isListValue : Json → Bool
  | .arr _ => true
  | _ => false

/-- A number for a scope, and no citation: the parser takes it, and the reply conforms. -/
theorem accepted_invalid :
    (¬ ∀ text, Accepted asciiRuntime text → ∀ v2 items, BlockHolds text v2 items →
      (findingsBlockSchema v2).accepts (.arr items) = true) ∧
    ¬ ∀ text e, readEnvelope asciiRuntime text = .ok e → e.conformed = true →
      ∀ payload, Json.loads text = some payload → outputSchema.accepts payload = true := by
  constructor
  · intro h
    have haccepted : Accepted asciiRuntime (fencedFindings [findingOf (.int 5) []]) :=
      accepted_of_run (by decide +kernel)
    have hblock : (searchBlock true (fencedFindings [findingOf (.int 5) []])).any (fun found ↦
        (Json.loads found.2).any fun value ↦
          isListValue value && !(findingsBlockSchema found.1).accepts value) = true := by
      decide +kernel
    obtain ⟨⟨v2, body⟩, hs, hbody⟩ := (Option.any_eq_true _ _).mp hblock
    obtain ⟨value, hl, hinvalid⟩ := (Option.any_eq_true _ _).mp hbody
    cases value with
    | arr items =>
      rw [h _ haccepted v2 items ⟨body, hs, hl⟩] at hinvalid
      cases hinvalid
    | null | bool | int | float | str | obj => cases hinvalid
  · intro h
    obtain ⟨e, he, hc⟩ : ∃ e, readEnvelope asciiRuntime (replyOf [findingOf (.int 5) []]) = .ok e ∧
        e.conformed = true := exists_ok_of_any (by decide +kernel)
    have hreply : (Json.loads (replyOf [findingOf (.int 5) []])).any
        (fun payload ↦ !outputSchema.accepts payload) = true := by decide +kernel
    obtain ⟨payload, hl, hinvalid⟩ := (Option.any_eq_true _ _).mp hreply
    rw [h _ e he hc payload hl] at hinvalid
    cases hinvalid

end AtlasCore
