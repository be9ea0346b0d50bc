import AtlasCore.EventLog.Crash
import AtlasCore.Feedback.Promotion

/-!
# A torn append

A process that is killed while it appends leaves a piece of a line at the end of its file.  Reading
drops such a piece.  `_append` does not look at it, unlike the sink of the event log: the next line
is joined to it, and from then on the file cannot be read, with all that was in it.

What is lost is the piece alone as long as nothing is appended to that file again, if the piece ends
between two characters and no text breaks a line (`undamaged_of_harmless`).
-/

set_option autoImplicit false

namespace AtlasCore

namespace Feedback

open Py Inspect

/-! ## Killed in the middle of an append

A process may be killed while it appends, and leaves a beginning of the line. -/

/-- The two files of a store, either of which a kill can leave torn. -/
inductive StoreFile where
  | candidates | learnings
  deriving DecidableEq

/-- A file of the store, with the bytes it holds now. -/
def Store.file (store : Store) : StoreFile → Option Bytes
  | .candidates => store.candidates
  | .learnings => store.learnings

/-- The bytes of a file, replaced; the other file stays. -/
def Store.withFile (store : Store) (bytes : Bytes) : StoreFile → Store
  | .candidates => { store with candidates := some bytes }
  | .learnings => { store with learnings := some bytes }

/-- The store that a process leaves which is killed after it wrote `k` bytes of the line of a
record. -/
def Store.tornAt (store : Store) (file : StoreFile) (r : Record) (k : ℕ) : Store :=
  store.withFile ((store.file file).getD [] ++ (utf8 r.line).take k) file

/-- What was completed in a file of a line that was cut: the record, if it is the file that was
written to and nothing of the line is missing. -/
def completed (which file : StoreFile) (r : Record) (k : ℕ) : List Fields :=
  if which = file then (wholeRecords [r] k).map Record.fields else []

/-- The store after a kill, and the calls that come then. -/
def feedbackFrom (rt : Runtime) (mask : Masking) (store : Store) : System Store Call :=
  { feedbackSystem rt mask with init := store }

/-- What is asked of a store: each file gives back all the dicts that were completed in it, in
order, as they were written. -/
structure Undamaged (store : Store) (candidates learnings : List Fields) : Prop where
  candidates : read store.candidates = .ok (candidates.map fun d ↦ .obj (readDict d))
  learnings : read store.learnings = .ok (learnings.map fun d ↦ .obj (readDict d))

/-! ## Where it does no harm

The condition: a file that is appended to ends with a whole line, and no text breaks a line. -/

/-- What was written of a line ends between two characters, and breaks no line before the last of
them. -/
def CleanCut (r : Record) (k : ℕ) : Prop :=
  ∃ text, decode ((utf8 r.line).take k) = some text ∧ oneLine text.dropLast = true

/-- The file that a call appends to, and the only one that it can tear. -/
def Call.file : Call → StoreFile
  | .recordOutcome _ => .candidates
  | .promote _ => .learnings

/-- No text that a call writes breaks a line. -/
def Call.BreakFree (rt : Runtime) (mask : Masking) : Call → Prop
  | .recordOutcome call =>
    Json.noneOf Json.isWideBreak call.runId = true ∧
      Json.noneOf Json.isWideBreak (mask.text (strip call.lesson)) = true ∧
      Json.noneOf Json.isWideBreak call.recordedBy = true ∧
      ∀ p, provenance rt call.eventLog call.runId = .ok p → (Json.obj p.toDict).breakFree = true
  | .promote call => Json.noneOf Json.isWideBreak call.promotedBy = true

/-- What a call that appends has to find, and to write: the file ends with a whole line, which is
what the sink of the event log asks, and no text breaks a line. -/
structure Harmless (rt : Runtime) (mask : Masking) (store : Store) (call : Call) : Prop where
  tail : JsonlSink.checkTail false (store.file call.file) = .ok (store.file call.file)
  breakFree : call.BreakFree rt mask

/-! ## A file with a piece of a line -/

/-- A file that holds these dicts, a line each, and then a piece of a line that reading drops. -/
structure Keeps (file : Option Bytes) (ds : List Fields) (records : List Record)
    (piece : Str) : Prop where
  fields : records.map Record.fields = ds
  writable : ∀ r ∈ records, r.Writable
  breakFree : ∀ r ∈ records, r.breakFree = true
  bytes : file.getD [] = utf8 (logText records) ++ utf8 piece
  encodable : encodable piece = true
  oneLine : oneLine piece.dropLast = true
  noCr : cr ∉ piece
  noLf : lf ∉ piece

/-- What follows the last newline is dropped, also where it ends with another line break. -/
theorem readLines_piece {s : Str} (hs : oneLine s.dropLast = true) (hcr : cr ∉ s) (hlf : lf ∉ s) :
    readLines (splitlinesKeep s) = .ok [] := by
  rcases List.eq_nil_or_concat' s with rfl | ⟨l, c, rfl⟩
  · rfl
  rw [List.dropLast_concat] at hs
  rw [List.mem_append, not_or, List.mem_singleton] at hcr hlf
  cases hc : isLineBreak c with
  | false =>
    refine readLines_fragment ?_
    rw [oneLine_append, hs, oneLine, List.all_cons, hc]
    rfl
  | true =>
    have hsplit := splitlinesKeep_break hs hc (Ne.symm hcr.2) []
    rw [hsplit, readLines, if_pos]
    refine ⟨?_, rfl⟩
    rw [Bool.eq_false_iff, ne_eq, endsWith, List.isSuffixOf_iff_suffix]
    intro hsuffix
    rcases List.mem_append.mp (hsuffix.subset List.mem_cons_self) with h | h
    · exact hlf.1 h
    · exact hlf.2 (List.mem_singleton.mp h)

section
variable {file : Option Bytes} {ds : List Fields} {records : List Record} {piece : Str}

/-- **Reading finds the whole lines.** -/
theorem Keeps.read_eq (h : Keeps file ds records piece) :
    read file = .ok (ds.map fun d ↦ .obj (readDict d)) := by
  have hencodable : Py.encodable (logText records ++ piece) = true := by
    rw [Py.encodable, List.all_append, Bool.and_eq_true]
    exact ⟨encodable_logText h.writable, h.encodable⟩
  have hcr : cr ∉ logText records ++ piece := by
    rw [List.mem_append, not_or]
    exact ⟨cr_not_mem_logText _, h.noCr⟩
  have hread : readJsonl (file.getD []) = .ok (ds.map fun d ↦ .obj (readDict d)) := by
    rw [h.bytes, ← utf8_append, readJsonl_utf8 hencodable hcr,
      readLines_logText h.writable h.breakFree, readLines_piece h.oneLine h.noCr h.noLf, ← h.fields,
      List.map_map]
    exact congrArg Except.ok (List.append_nil _)
  cases file with
  | none =>
    have hnil : readJsonl [] = .ok [] := rfl
    rw [Option.getD_none, hnil] at hread
    exact congrArg Except.ok (Except.ok.inj hread)
  | some bytes =>
    rw [Option.getD_some] at hread
    rw [read, readLog, hread]

/-- A file without a piece. -/
theorem Holds.keeps (h : Holds file ds records) (hb : ∀ r ∈ records, r.breakFree = true) :
    Keeps file ds records [] :=
  ⟨h.fields, h.writable, hb, by rw [h.bytes]; exact (List.append_nil _).symm, rfl, rfl,
    List.not_mem_nil, List.not_mem_nil⟩

theorem Keeps.holds (h : Keeps file ds records []) : Holds file ds records :=
  ⟨h.fields, h.writable, by rw [h.bytes]; exact List.append_nil _⟩

/-- A file that ends with a whole line has no piece. -/
theorem Keeps.piece_eq_nil (h : Keeps file ds records piece)
    (htail : JsonlSink.checkTail false file = .ok file) : piece = [] := by
  by_contra hne
  have hbytes : utf8 piece ≠ [] := fun hnil ↦ hne (utf8_eq_nil hnil)
  cases file with
  | none =>
    have hnil := h.bytes.symm
    rw [Option.getD_none, List.append_eq_nil_iff] at hnil
    exact hbytes hnil.2
  | some bytes =>
    have hraw := h.bytes
    rw [Option.getD_some] at hraw
    have hlast : bytes.getLast? ≠ some lfByte := by
      rw [hraw, List.getLast?_append_of_ne_nil _ hbytes]
      exact fun hlf ↦ h.noLf (lfByte_mem_utf8 (List.mem_of_getLast? hlf))
    rw [JsonlSink.checkTail, if_neg (by rw [hraw]; simp [hbytes]), if_neg hlast] at htail
    cases htail

/-- One record more, where the file ends with a whole line. -/
theorem Keeps.append (h : Keeps file ds records piece)
    (htail : JsonlSink.checkTail false file = .ok file) {r : Record} (hr : r.breakFree = true)
    {bytes : Bytes} (hbytes : Feedback.append file r.fields = .ok bytes) :
    Keeps (some bytes) (ds ++ [r.fields]) (records ++ [r]) [] := by
  obtain rfl := h.piece_eq_nil htail
  exact (h.holds.append hbytes).keeps
    (List.forall_mem_append.mpr ⟨h.breakFree, List.forall_mem_singleton.mpr hr⟩)

/-- **What a killed process leaves** of a clean cut. -/
theorem Holds.torn (h : Holds file ds records) (hb : ∀ r ∈ records, r.breakFree = true) {r : Record}
    (hw : r.Writable) {k : ℕ} (hcut : CleanCut r k) :
    ∃ records' piece, Keeps (some (file.getD [] ++ (utf8 r.line).take k))
      (ds ++ (wholeRecords [r] k).map Record.fields) records' piece := by
  obtain ⟨text, htext, hone⟩ := hcut
  have hline : utf8 r.line = utf8 r.serialisation ++ [lfByte] := by
    rw [Record.line, utf8_append]
    rfl
  rw [wholeRecords]
  split_ifs with hk
  · -- the whole line was written
    rw [List.take_of_length_le hk, decode_utf8_self (Record.encodable_line hw)] at htext
    have hfree : r.breakFree = true := by
      rw [← oneLine_serialisation, ← hone, ← Option.some.inj htext, Record.line,
        List.dropLast_concat]
    rw [List.take_of_length_le hk]
    exact ⟨_, [], (h.append (append_eq_ok.mpr ⟨hw, rfl⟩)).keeps
      (List.forall_mem_append.mpr ⟨hb, List.forall_mem_singleton.mpr hfree⟩)⟩
  · have hserialisation : (utf8 r.line).take k = (utf8 r.serialisation).take k := by
      rw [hline, List.length_append, List.length_singleton] at hk
      rw [hline, List.take_append_of_le_length (by omega)]
    have hencodable : encodable r.serialisation = true := by
      have hall := Record.encodable_line hw
      rw [Record.line, encodable, List.all_append, Bool.and_eq_true] at hall
      exact hall.1
    rw [hserialisation] at htext
    obtain ⟨j, hj⟩ := (decode_utf8_take hencodable k).mp (by rw [htext]; rfl)
    rw [hj, decode_utf8_self (encodable_take hencodable j)] at htext
    obtain rfl := Option.some.inj htext
    refine ⟨records, r.serialisation.take j, ?_, h.writable, hb, ?_, encodable_take hencodable j,
      hone,
      fun hmem ↦ control_not_mem (by decide) (List.mem_of_mem_take hmem),
      fun hmem ↦ control_not_mem (by decide) (List.mem_of_mem_take hmem)⟩
    · rw [h.fields]
      exact (List.append_nil _).symm
    · rw [Option.getD_some, h.bytes, hserialisation, hj]

end

/-! ## What the calls write

A candidate and a learning break no line where the texts that they are made of break none. -/

theorem noneOf_hex {n : ℕ} {s : Str} (h : matchesHex n s = true) :
    Json.noneOf Json.isWideBreak s = true := by
  have hhex : ∀ c : CodePoint, isHex c = true → (!Json.isWideBreak c) = true := by
    intro c hc
    simp only [isHex, Bool.or_eq_true, Bool.and_eq_true, decide_eq_true_eq] at hc
    simp only [Json.isWideBreak, Bool.not_eq_true', Bool.or_eq_false_iff, beq_eq_false_iff_ne]
    omega
  rw [matchesHex, Bool.and_eq_true] at h
  have hdigits := List.all_eq_true.mp h.2
  rw [Json.noneOf, List.all_eq_true]
  intro c hc
  split_ifs at hdigits with hlast
  · obtain ⟨digits, rfl⟩ := List.getLast?_eq_some_iff.mp hlast
    rw [List.dropLast_concat] at hdigits
    rcases List.mem_append.mp hc with hc | hc
    · exact hhex c (hdigits c hc)
    · rw [List.mem_singleton.mp hc]
      rfl
  · exact hhex c (hdigits c hc)

theorem breakFree_candidate {id runId outcome lesson recordedBy : Str} {p : Provenance}
    {now : Timestamp}
    (hmade : Made id outcome lesson recordedBy p)
    (hrun : Json.noneOf Json.isWideBreak runId = true)
    (hlesson : Json.noneOf Json.isWideBreak lesson = true)
    (hby : Json.noneOf Json.isWideBreak recordedBy = true)
    (hp : (Json.obj p.toDict).breakFree = true) :
    (Json.obj (candidateDict id runId outcome lesson p recordedBy now.text)).breakFree = true := by
  have houtcome : Json.noneOf Json.isWideBreak outcome = true := by
    have hall : ∀ o ∈ OUTCOMES, Json.noneOf Json.isWideBreak o = true := by decide
    exact hall outcome hmade.known
  have hnow := Json.noneOf_printable Json.offAscii_isWideBreak now.printable
  have hkeys : ∀ key ∈ [str "schema", str "candidate_id", str "run_id", str "outcome", str "lesson",
      str "provenance", str "recorded_by", str "recorded_at", CANDIDATE_SCHEMA],
      Json.noneOf Json.isWideBreak key = true := by decide
  rw [Json.breakFree, Json.every] at hp
  simp only [List.forall_mem_cons] at hkeys
  simp only [Json.breakFree, candidateDict, bodyOf, List.cons_append, List.nil_append, Json.every,
    Json.everyField, hkeys, noneOf_hex hmade.hexId, hrun, houtcome, hlesson, hp, hby, hnow,
    Bool.and_true]

theorem breakFree_learning {r : Record} (hr : r.breakFree = true) {call : PromoteCall}
    (hby : Json.noneOf Json.isWideBreak call.promotedBy = true) :
    (Json.obj (learningOf (readDict r.fields) call)).breakFree = true := by
  have hnow := Json.noneOf_printable Json.offAscii_isWideBreak call.now.printable
  have hkeys : ∀ key ∈ [str "schema", str "candidate", str "promoted_by", str "promoted_at",
      LEARNING_SCHEMA], Json.noneOf Json.isWideBreak key = true := by decide
  rw [Record.breakFree, Record.value, Json.breakFree, Json.every] at hr
  simp only [List.forall_mem_cons] at hkeys
  simp only [Json.breakFree, learningOf, Json.every, Json.everyField, everyField_readDict, hkeys,
    hr, hby, hnow, Bool.and_true]

/-! ## The calls that come later

What the files give back after later calls: what was completed before the kill, and what the later
calls appended. -/

/-- A file whose texts break no line: each of its lines is read. -/
def Intact (file : Option Bytes) (ds : List Fields) : Prop :=
  ∃ records, Holds file ds records ∧ ∀ r ∈ records, r.breakFree = true

/-- What holds of a store whose files hold these dicts, and a piece each. -/
structure Mended (store : Store) (candidates learnings : List Fields) : Prop where
  candidates : ∃ records piece, Keeps store.candidates candidates records piece
  learnings : ∃ records piece, Keeps store.learnings learnings records piece

theorem Mended.undamaged {store : Store} {cs ls : List Fields} (h : Mended store cs ls) :
    Undamaged store cs ls := by
  obtain ⟨_, _, hcandidates⟩ := h.candidates
  obtain ⟨_, _, hlearnings⟩ := h.learnings
  exact ⟨hcandidates.read_eq, hlearnings.read_eq⟩

theorem Intact.keeps {file : Option Bytes} {ds : List Fields} (h : Intact file ds) :
    ∃ records piece, Keeps file ds records piece := by
  obtain ⟨records, hholds, hb⟩ := h
  exact ⟨records, [], hholds.keeps hb⟩

section
variable {rt : Runtime} {mask : Masking} {store store' : Store} {cs ls : List Fields}
  {file : StoreFile}
  {r : Record} {k : ℕ} {tr : List (Store × Call)}

/-- The store that the killed process left. -/
theorem mended_tornAt (hc : Intact store.candidates cs) (hl : Intact store.learnings ls)
    (hw : r.Writable) (hcut : CleanCut r k) :
    Mended (store.tornAt file r k) (cs ++ completed .candidates file r k)
      (ls ++ completed .learnings file r k) := by
  cases file with
  | candidates =>
    obtain ⟨records, hholds, hb⟩ := hc
    refine ⟨hholds.torn hb hw hcut, ?_⟩
    rw [completed, if_neg (by decide), List.append_nil]
    exact hl.keeps
  | learnings =>
    obtain ⟨records, hholds, hb⟩ := hl
    refine ⟨?_, hholds.torn hb hw hcut⟩
    rw [completed, if_neg (by decide), List.append_nil]
    exact hc.keeps

theorem Mended.recordOutcome (h : Mended store cs ls) {call : OutcomeCall} {candidate : Fields}
    (hcall : recordOutcome rt mask store call = .ok (candidate, store'))
    (hsafe : Harmless rt mask store (.recordOutcome call)) :
    Mended store' (cs ++ [candidate]) ls := by
  obtain ⟨hmade, bytes, hbytes, rfl⟩ := recordOutcome_eq_ok hcall
  obtain ⟨id, p, hrecorded, rfl⟩ := candidateOf_eq_ok hmade
  obtain ⟨hrun, hlesson, hby, hp⟩ := hsafe.breakFree
  obtain ⟨records, piece, hkeeps⟩ := h.candidates
  refine ⟨⟨_, _, hkeeps.append hsafe.tail (r := ⟨_, wf_candidate (provenance_wf hrecorded.ofLog).1⟩)
    ?_ hbytes⟩, h.learnings⟩
  exact breakFree_candidate hrecorded.made hrun hlesson hby (hp p hrecorded.ofLog)

theorem Mended.promote (h : Mended store cs ls) {call : PromoteCall} {learning : Fields}
    (hcall : Feedback.promote rt store call = .ok (learning, store'))
    (hsafe : Harmless rt mask store (.promote call)) : Mended store' cs (ls ++ [learning]) := by
  obtain ⟨candidate, bytes, hpromoted, he⟩ := promote_eq_ok.mp hcall
  obtain ⟨rfl, rfl⟩ := Prod.mk.inj he
  obtain ⟨records, piece, hkeeps⟩ := h.candidates
  obtain ⟨records', piece', hkeeps'⟩ := h.learnings
  obtain ⟨values, hvalues, hfound⟩ := hpromoted.found
  obtain rfl := Except.ok.inj (hkeeps.read_eq.symm.trans hvalues)
  obtain ⟨d, hfilter, rfl⟩ := findCandidate_eq_ok.mp hfound
  obtain ⟨hd, -⟩ := List.mem_filter.mp (hfilter ▸ List.mem_singleton.mpr rfl)
  rw [← hkeeps.fields] at hd
  obtain ⟨r, hr, rfl⟩ := List.mem_map.mp hd
  refine ⟨h.candidates, ⟨_, _, hkeeps'.append hsafe.tail
    (r := ⟨_, wf_learning (wf_readDict r.wf)⟩) ?_ hpromoted.written⟩⟩
  exact breakFree_learning (hkeeps.breakFree r hr) hsafe.breakFree

/-- **A torn append does no harm** as long as no call appends to a file that does not end with a
whole line, the line was cut between two characters and no text breaks a line: in every state of
every run the files give back what was completed before the kill, and what was appended since. -/
theorem undamaged_of_harmless (hc : Intact store.candidates cs) (hl : Intact store.learnings ls)
    (hw : r.Writable) (hcut : CleanCut r k)
    (run : (feedbackFrom rt mask (store.tornAt file r k)).Run tr store')
    (hsafe : ∀ x ∈ tr, (answer rt mask x.1 x.2).isSome = true → Harmless rt mask x.1 x.2) :
    Undamaged store' (cs ++ completed .candidates file r k ++ candidatesOf rt mask tr)
      (ls ++ completed .learnings file r k ++ learningsOf rt tr) := by
  refine Mended.undamaged ?_
  induction run with
  | init =>
    rw [candidatesOf, learningsOf, List.filterMap_nil, List.filterMap_nil, List.append_nil,
      List.append_nil]
    exact mended_tornAt hc hl hw hcut
  | @step tr store call store' run hstep ih =>
    obtain rfl := Option.some.inj hstep
    have hbefore := ih fun x hx ↦ hsafe x (List.mem_append_left _ hx)
    have hharmless := hsafe (store, call) (List.mem_append_right _ (List.mem_singleton.mpr rfl))
    cases hcall : answer rt mask store call with
    | none =>
      rw [candidatesOf_raised hcall, learningsOf_raised hcall]
      exact hbefore
    | some x =>
      obtain ⟨returned, after⟩ := x
      have hharmless := hharmless (by rw [hcall]; rfl)
      cases call with
      | recordOutcome call =>
        have hcall := Except.eq_ok_of_toOption hcall
        rw [candidatesOf_recordOutcome hcall, learningsOf_recordOutcome, ← List.append_assoc]
        exact hbefore.recordOutcome hcall hharmless
      | promote call =>
        have hcall := Except.eq_ok_of_toOption hcall
        rw [candidatesOf_promote, learningsOf_promote hcall, ← List.append_assoc]
        exact hbefore.promote hcall hharmless

end

/-! ## A brace at the end of the file -/

theorem plain_recorded : ∃ x, recordOutcome asciiRuntime noMasking {} (verdict (str "a b")) =
    .ok x :=
  verdict_recorded (show strip (strip (str "a b")) ≠ [] by decide) (by decide) (by decide)

theorem breakFree_plain :
    Call.BreakFree asciiRuntime noMasking (.recordOutcome (verdict (str "a b"))) := by
  refine ⟨by decide, by decide, by decide, fun p hp ↦ ?_⟩
  obtain rfl := Except.ok.inj (provenance_passed.symm.trans hp)
  have hdigest : Json.noneOf Json.isWideBreak passedProvenance.eventLogSha256 = true :=
    noneOf_hex (provenance_wf provenance_passed).2
  simp only [Json.breakFree, Provenance.toDict, Json.every, Json.everyField, hdigest, Bool.and_true]
  rfl

theorem loads_braces (s : Str) : Json.loads (ch '{' :: ch '{' :: s) = none := rfl

/-- A line that a brace stands before is no line of JSON. -/
theorem readJsonl_brace {r : Record} (hw : r.Writable) (hb : r.breakFree = true) :
    readJsonl ((utf8 r.line).take 1 ++ utf8 r.line) = .error .jsonDecodeError := by
  obtain ⟨t, ht⟩ := r.serialisation_cons
  have hbrace : (utf8 r.line).take 1 = utf8 [ch '{'] := by
    rw [Record.line, ht]
    rfl
  have hencodable : encodable (ch '{' :: r.line) = true := by
    rw [encodable, List.all_cons, Bool.and_eq_true]
    exact ⟨rfl, Record.encodable_line hw⟩
  have hcr : cr ∉ ch '{' :: r.line := by
    have hline : logText [r] = r.line := List.flatMap_singleton _ _
    rw [List.mem_cons, not_or, ← hline]
    exact ⟨by decide, cr_not_mem_logText _⟩
  have hone : oneLine (ch '{' :: r.serialisation) = true := by
    rw [oneLine, List.all_cons, ← oneLine, oneLine_serialisation, hb]
    rfl
  have hsplit : splitlinesKeep (ch '{' :: r.line) = [ch '{' :: r.serialisation ++ [lf]] :=
    splitlinesKeep_line hone []
  have hloads : Json.loads (ch '{' :: r.serialisation ++ [lf]) = none := by
    rw [ht]
    exact loads_braces _
  rw [hbrace, ← utf8_append, List.singleton_append, readJsonl_utf8 hencodable hcr, hsplit,
    readLines,
    if_neg (by rw [endsWith_lf]; simp), if_neg (by rw [not_blank_of_brace rfl]; simp), hloads]

/-- The process that records a verdict on an empty store is killed after one byte.  The same verdict
is then recorded again, and the file cannot be read. -/
theorem torn_then_lost : ∃ r : Record,
    candidateOf asciiRuntime noMasking (verdict (str "a b")) = .ok r.fields ∧ r.Writable ∧
    ∃ s, (feedbackFrom asciiRuntime noMasking (({} : Store).tornAt .candidates r 1)).Run
        [(({} : Store).tornAt .candidates r 1, .recordOutcome (verdict (str "a b")))] s ∧
      ¬ Undamaged s ([] ++ completed .candidates .candidates r 1 ++ [r.fields])
        ([] ++ completed .learnings .candidates r 1 ++ []) := by
  obtain ⟨⟨candidate, after⟩, hcall⟩ := plain_recorded
  obtain ⟨hmade, bytes, hbytes, -⟩ := recordOutcome_eq_ok hcall
  obtain ⟨id, p, hrecorded, rfl⟩ := candidateOf_eq_ok hmade
  obtain ⟨hrun, hlesson, hby, hp⟩ := breakFree_plain
  let r : Record := ⟨(verdict (str "a b")).candidate noMasking id p,
    wf_candidate (provenance_wf hrecorded.ofLog).1⟩
  have hfree : r.breakFree = true :=
    breakFree_candidate hrecorded.made hrun hlesson hby (hp p hrecorded.ofLog)
  obtain ⟨hw, -⟩ := (append_eq_ok (r := r)).mp hbytes
  have hstep : recordOutcome asciiRuntime noMasking (({} : Store).tornAt .candidates r 1)
      (verdict (str "a b")) = .ok (r.fields,
        { candidates := some ((utf8 r.line).take 1 ++ utf8 r.line) }) := by
    refine Except.bind_eq_ok.mpr ⟨_, hmade, Except.bind_eq_ok.mpr ⟨_, ?_, rfl⟩⟩
    exact append_eq_ok.mpr ⟨hw, rfl⟩
  refine ⟨r, hmade, hw, { candidates := some ((utf8 r.line).take 1 ++ utf8 r.line) }, ?_,
    fun h ↦ ?_⟩
  · have hinit := System.Run.init
      (S := feedbackFrom asciiRuntime noMasking (({} : Store).tornAt .candidates r 1))
    refine hinit.step (a := .recordOutcome (verdict (str "a b"))) ?_
    have hanswer : answer asciiRuntime noMasking (({} : Store).tornAt .candidates r 1)
        (.recordOutcome (verdict (str "a b"))) = some (r.fields,
          { candidates := some ((utf8 r.line).take 1 ++ utf8 r.line) }) := by
      rw [answer, hstep, Except.toOption]
    rw [feedbackFrom, feedbackSystem]
    dsimp only
    rw [hanswer, Option.map_some, Option.getD_some]
  · have hread := h.candidates
    rw [read, readLog, readJsonl_brace hw hfree] at hread
    cases hread

/-- The theorem about a process that was killed while it promoted: what is recorded then is read. -/
theorem undamaged_of_harmless_learnings :
    Undamaged (((answer asciiRuntime noMasking (({} : Store).tornAt .learnings (noteEvent 0xE9) 104)
        (.recordOutcome (verdict (str "a b")))).map Prod.snd).getD
          (({} : Store).tornAt .learnings (noteEvent 0xE9) 104))
      ([] ++ completed .candidates .learnings (noteEvent 0xE9) 104 ++
        candidatesOf asciiRuntime noMasking [(({} : Store).tornAt .learnings (noteEvent 0xE9) 104,
          .recordOutcome (verdict (str "a b")))])
      ([] ++ completed .learnings .learnings (noteEvent 0xE9) 104 ++
        learningsOf asciiRuntime [(({} : Store).tornAt .learnings (noteEvent 0xE9) 104,
          .recordOutcome (verdict (str "a b")))]) := by
  have hinit := System.Run.init
    (S := feedbackFrom asciiRuntime noMasking (({} : Store).tornAt .learnings (noteEvent 0xE9) 104))
  refine undamaged_of_harmless ⟨[], holds_nil, nofun⟩ ⟨[], holds_nil, nofun⟩
    ⟨by decide, by decide⟩ ?_
    (hinit.step (a := .recordOutcome (verdict (str "a b"))) rfl) ?_
  · have hcut : (decode ((utf8 (noteEvent 0xE9).line).take 104)).any
        fun text ↦ oneLine text.dropLast := by decide +kernel
    exact (Option.any_eq_true _ _).mp hcut
  · rintro x hx -
    obtain rfl := List.mem_singleton.mp hx
    exact ⟨rfl, breakFree_plain⟩

end Feedback

end AtlasCore
