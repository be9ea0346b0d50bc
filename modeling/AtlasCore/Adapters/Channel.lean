import AtlasCore.Adapters.OutputContract
import AtlasCore.Evidence.FailsClosed

/-!
# The envelope as a channel

What a model states as its findings is written as a block, and the block is what is graded.  So the
findings reach the evaluator as they were stated, and the report reaches no finding: of two replies
with the same findings the same is graded, whatever their reports hold.

`read_envelope` is said to raise nothing.  It calls `json.loads` on the reply, `json.dumps` on the
findings and `structured_findings` on the block, and each of the three can raise what is not caught
there: `json.loads` for an integer of too many digits or containers nested too deep, `json.dumps`
for containers nested too deep for it, and `structured_findings` for an infinite line number.
`faithful_iff` says that there is nothing besides.
-/

set_option autoImplicit false

namespace AtlasCore

open Py

/-- The reply is an object with a report and a list of findings, and nothing else. -/
def States (text report : Str) (findings : List Json) : Prop :=
  ∃ payload, Json.loads text = some (.obj payload) ∧ (∀ p ∈ payload, p.1 ∈ ENVELOPE_FIELDS) ∧
    getOrNull payload "report" = .str report ∧ isBlank report = false ∧
    getOrNull payload "findings" = .arr findings

/-- What `LiveModelAdapter.execute` and the controller after it take for the source of the findings;
`schemaSent` says whether the provider was given the schema. -/
def findingsSource (schemaSent : Bool) (e : ReadEnvelope) : Str :=
  e.findingsBlock.getD (if schemaSent then [] else e.text)

/-- Each item became an entry, or the whole block is malformed. -/
def Recovered (rt : Runtime) (findings : List Json) (parsed : ParsedFindings) : Prop :=
  parsed.malformed = true ∧ parsed.entries = [] ∨
    parsed.malformed = false ∧
      List.Forall₂ (fun item entry ↦ buildEntry rt false item = .ok entry) findings parsed.entries

/-- What a reply states arrives, and nothing else does. -/
structure Faithful (rt : Runtime) (text : Str) : Prop where
  returns : ∃ e, readEnvelope rt text = .ok e
  arrives : ∀ report findings, States text report findings →
    ∃ e body parsed, readEnvelope rt text = .ok e ∧
      (∀ schemaSent, e.findingsBlock = some (findingsSource schemaSent e) ∧
        searchBlock true (findingsSource schemaSent e) = some (false, body) ∧
        structuredFindings rt (findingsSource schemaSent e) = .ok parsed) ∧
      Json.loads body = some (.arr findings) ∧ parsed.present = true ∧ Recovered rt findings parsed
  reportAside : ∀ report report' findings text' e e' schemaSent, States text report findings →
    States text' report' findings → readEnvelope rt text = .ok e → readEnvelope rt text' = .ok e' →
      structuredFindings rt (findingsSource schemaSent e) =
        structuredFindings rt (findingsSource schemaSent e')

/-- Nothing in the reply makes the reader give up. -/
def ReplyLegible (rt : Runtime) (text : Str) : Prop :=
  Json.trouble rt.nesting text = none ∧
    ∀ report findings, States text report findings →
      Json.depth (.arr findings) ≤ rt.rendering ∧ ¬ EndlessBlock rt false findings

variable {rt : Runtime} {text report : Str} {findings : List Json} {e : ReadEnvelope}

/-! ## What `read_envelope` does -/

/-- What `json.loads` gives up on is not caught. -/
theorem trouble_of_returns (he : readEnvelope rt text = .ok e) :
    Json.trouble rt.nesting text = none := by
  by_contra htrouble
  obtain ⟨trouble, htrouble⟩ := Option.ne_none_iff_exists'.mp htrouble
  rw [readEnvelope, Json.decode_of_trouble htrouble] at he
  cases trouble <;> cases he

/-- What is not a statement of findings is passed through, and has no block. -/
theorem readEnvelope_of_not_states (ht : Json.trouble rt.nesting text = none)
    (h : ∀ report findings, ¬ States text report findings) :
    ∃ reason, readEnvelope rt text =
      .ok { text, envelopeConformed := false, reason := some reason } := by
  rw [readEnvelope, Json.decode, ht]
  dsimp only
  cases hl : Json.loads text with
  | none => exact ⟨_, rfl⟩
  | some payload =>
    cases payload with
    | null | bool | int | float | str | arr => exact ⟨_, rfl⟩
    | obj payload =>
      dsimp only
      split_ifs with hunknown
      · exact ⟨_, rfl⟩
      · split
        · rename_i report hreport
          split_ifs with hblank
          · exact ⟨_, rfl⟩
          · split
            · rename_i findings hfindings
              have hblank' : isBlank report = false := by
                rwa [strip_eq_nil_iff, Bool.not_eq_true] at hblank
              exact (h report findings ⟨payload, hl, unknown_eq_nil_iff.mp (not_not.mp hunknown),
                hreport, hblank', hfindings⟩).elim
            · exact ⟨_, rfl⟩
            · exact ⟨_, rfl⟩
        · exact ⟨_, rfl⟩

/-- Of a statement of findings the block is written and read. -/
theorem readEnvelope_of_states (ht : Json.trouble rt.nesting text = none)
    (h : States text report findings) :
    readEnvelope rt text = do
      let block ← renderFindingsBlock rt findings
      let rendered ← renderOutput rt report findings
      let parsed ← structuredFindings rt block
      if parsed.malformed then
        return { text := rendered, envelopeConformed := true, reason := some .findingsUnusable
                 findingsBlock := some block }
      else
        return { text := rendered, envelopeConformed := true, findingsBlock := some block } := by
  obtain ⟨payload, hl, hdeclared, hreport, hblank, hfindings⟩ := h
  rw [readEnvelope, Json.decode_of_loads ht hl]
  dsimp only
  rw [if_neg (not_not.mpr (unknown_eq_nil_iff.mpr hdeclared)), hreport]
  dsimp only
  rw [if_neg (by rw [strip_eq_nil_iff, hblank]; exact Bool.false_ne_true), hfindings]

/-- What is returned for a statement of findings has the block of them. -/
theorem findingsBlock_of_states (h : States text report findings)
    (he : readEnvelope rt text = .ok e) :
    ∃ block, renderFindingsBlock rt findings = .ok block ∧ e.findingsBlock = some block := by
  have ht := trouble_of_returns he
  rw [readEnvelope_of_states ht h] at he
  obtain ⟨block, hblock, he⟩ := Except.bind_eq_ok.mp he
  obtain ⟨rendered, -, he⟩ := Except.bind_eq_ok.mp he
  obtain ⟨parsed, -, he⟩ := Except.bind_eq_ok.mp he
  refine ⟨block, hblock, ?_⟩
  split_ifs at he
  · rw [← Except.ok.inj he]
  · rw [← Except.ok.inj he]

theorem findingsSource_of_block {block : Str} (h : e.findingsBlock = some block)
    (schemaSent : Bool) : findingsSource schemaSent e = block := by
  rw [findingsSource, h, Option.getD_some]

/-! ## The block

The findings of the reply, rendered between fences and read again, are the findings that the reply
stated. -/

/-- What was stated is what JSON makes of the reply, so it can be written and read. -/
theorem findings_of_states (ht : Json.trouble rt.nesting text = none)
    (h : States text report findings) :
    (Json.arr findings).WF ∧ Json.every Json.intFits (fun _ ↦ true) (.arr findings) = true ∧
      Json.depth (.arr findings) ≤ rt.nesting := by
  obtain ⟨payload, hl, -, -, -, hfindings⟩ := h
  have hfield := Json.mem_of_lookup (lookup_of_getOrNull hfindings (by simp))
  refine ⟨(Json.WFFields_iff _).mp (Json.WF_of_loads hl).2 _ hfield,
    Json.every_of_mem (Json.every_of_loads hl) hfield, ?_⟩
  calc Json.depth (.arr findings) ≤ Json.depthFields payload := Json.depth_le_depthFields hfield
    _ ≤ Json.depth (.obj payload) := Nat.le_succ _
    _ ≤ rt.nesting := Json.depth_le_of_decode (Json.decode_of_loads ht hl)

/-- The block of findings that are not too deep, and what a reader finds in it. -/
theorem exists_block (ht : Json.trouble rt.nesting text = none) (h : States text report findings)
    (hdepth : Json.depth (.arr findings) ≤ rt.rendering) :
    ∃ block body, renderFindingsBlock rt findings = .ok block ∧
      searchBlock true block = some (false, body) ∧ Json.trouble rt.nesting body = none ∧
      Json.loads body = some (.arr findings) := by
  obtain ⟨hw, hf, hn⟩ := findings_of_states ht h
  obtain ⟨block, hblock⟩ : ∃ block, renderFindingsBlock rt findings = .ok block := by
    rw [renderFindingsBlock, if_neg (Nat.not_lt.mpr hdepth), Json.dumpsIndented, if_pos hf]
    exact ⟨_, rfl⟩
  obtain ⟨body, hbody, hs⟩ := searchBlock_renderFindingsBlock hblock
  exact ⟨block, body, hblock, hs, Json.trouble_dumpsIndented hw hbody hn,
    Json.loads_dumpsIndented hw hbody⟩

/-- A block in which no line number is infinite is read item by item, or is malformed. -/
theorem recovered_of_block {block body : Str} (hs : searchBlock true block = some (false, body))
    (ht : Json.trouble rt.nesting body = none) (hl : Json.loads body = some (.arr findings))
    (hends : ¬ EndlessBlock rt false findings) :
    ∃ parsed, structuredFindings rt block = .ok parsed ∧ parsed.present = true ∧
      Recovered rt findings parsed := by
  have hcaught := caught_items.mpr hends
  rw [structuredFindings_of_loads hs ht hl]
  cases hm : findings.mapM (buildEntry rt false) with
  | ok entries => exact ⟨_, rfl, rfl, .inr ⟨rfl, Except.forall₂_of_mapM hm⟩⟩
  | error e =>
    dsimp only
    rw [if_pos (hcaught e hm)]
    exact ⟨_, rfl, rfl, .inl ⟨rfl, rfl⟩⟩

/-! ## When the channel is faithful

Reading a reply can only fail on what Python gives up on; everything else arrives as it was stated.
-/

/-- A reply that is returned for is readable. -/
theorem replyLegible_of_returns (he : readEnvelope rt text = .ok e) : ReplyLegible rt text := by
  have ht := trouble_of_returns he
  refine ⟨ht, fun report findings hstates ↦ ?_⟩
  rw [readEnvelope_of_states ht hstates] at he
  obtain ⟨block, hblock, he⟩ := Except.bind_eq_ok.mp he
  obtain ⟨rendered, -, he⟩ := Except.bind_eq_ok.mp he
  obtain ⟨parsed, hparsed, -⟩ := Except.bind_eq_ok.mp he
  have hdepth : Json.depth (.arr findings) ≤ rt.rendering := by
    by_contra hdeep
    rw [renderFindingsBlock, if_pos (Nat.lt_of_not_le hdeep)] at hblock
    cases hblock
  refine ⟨hdepth, fun hendless ↦ ?_⟩
  obtain ⟨block', body, hblock', hs, -, hl⟩ := exists_block ht hstates hdepth
  obtain rfl := Except.ok.inj (hblock.symm.trans hblock')
  exact structuredFindings_returns_iff.mp ⟨parsed, hparsed⟩
    ⟨false, body, hs, .inr ⟨findings, hl, hendless⟩⟩

/-- Of a readable statement of findings the block is returned, and read as it was stated. -/
theorem arrives_of_replyLegible (hr : ReplyLegible rt text) (h : States text report findings) :
    ∃ e block body parsed, readEnvelope rt text = .ok e ∧ e.findingsBlock = some block ∧
      searchBlock true block = some (false, body) ∧ structuredFindings rt block = .ok parsed ∧
      Json.loads body = some (.arr findings) ∧ parsed.present = true ∧
      Recovered rt findings parsed := by
  obtain ⟨ht, hitems⟩ := hr
  obtain ⟨hdepth, hends⟩ := hitems report findings h
  obtain ⟨block, body, hblock, hs, hbody, hl⟩ := exists_block ht h hdepth
  obtain ⟨parsed, hparsed, hpresent, hrecovered⟩ := recovered_of_block hs hbody hl hends
  obtain ⟨e, he, hb⟩ : ∃ e, readEnvelope rt text = .ok e ∧ e.findingsBlock = some block := by
    rw [readEnvelope_of_states ht h, renderOutput, hblock]
    simp only [bind, Except.bind, pure, Except.pure, hparsed]
    split_ifs <;> exact ⟨_, rfl, rfl⟩
  exact ⟨e, block, body, parsed, he, hb, hs, hparsed, hl, hpresent, hrecovered⟩

/-- **The channel is faithful exactly for what is readable**: the reply has no integer of too many
digits and no containers nested too deep, and the first thing in its findings that cannot be used is
no infinite line number. -/
theorem faithful_iff (rt : Runtime) (text : Str) : Faithful rt text ↔ ReplyLegible rt text := by
  refine ⟨fun h ↦ replyLegible_of_returns h.returns.choose_spec, fun hr ↦ ⟨?_, ?_, ?_⟩⟩
  · by_cases hstates : ∃ report findings, States text report findings
    · obtain ⟨report, findings, hstates⟩ := hstates
      obtain ⟨e, -, -, -, he, -⟩ := arrives_of_replyLegible hr hstates
      exact ⟨e, he⟩
    · push Not at hstates
      obtain ⟨reason, he⟩ := readEnvelope_of_not_states hr.1 hstates
      exact ⟨_, he⟩
  · intro report findings hstates
    obtain ⟨e, block, body, parsed, he, hb, hs, hparsed, hl, hpresent, hrecovered⟩ :=
      arrives_of_replyLegible hr hstates
    refine ⟨e, body, parsed, he, fun schemaSent ↦ ?_, hl, hpresent, hrecovered⟩
    rw [findingsSource_of_block hb]
    exact ⟨hb, hs, hparsed⟩
  · intro report report' findings text' e e' schemaSent hstates hstates' he he'
    obtain ⟨block, hblock, hb⟩ := findingsBlock_of_states hstates he
    obtain ⟨block', hblock', hb'⟩ := findingsBlock_of_states hstates' he'
    obtain rfl := Except.ok.inj (hblock.symm.trans hblock')
    rw [findingsSource_of_block hb, findingsSource_of_block hb']

/-- A reply with a citation that starts at the line `Infinity`: reading it raises. -/
theorem endlessReply_unfaithful : ¬ ∀ text, Faithful asciiRuntime text := by
  intro h
  obtain ⟨e, he⟩ := (h (replyOf [endlessItem])).returns
  have hraised : (readEnvelope asciiRuntime (replyOf [endlessItem])).toOption.isSome = false := by
    decide +kernel
  rw [he] at hraised
  cases hraised

end AtlasCore
