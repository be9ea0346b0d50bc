import AtlasCore.Lib.JsonChars
import AtlasCore.Lib.JsonScan

/-!
# The log file

`JsonlSink` writes one JSON object a line, in append mode; `read_jsonl` reads the whole records
back.  Everything that outlives a run's process is in that file, so what was written must be read:
all of it, in order, and nothing else.

It is, exactly when no string of any record holds one of the three line breaks that the writer
copies and `str.splitlines` ends a line at (`readsBack_iff`).  A record that holds one is cut in two
there, and its first piece is a line that is not the last and is not JSON, so the whole log is
refused (`readLines_break`).
-/

set_option autoImplicit false

namespace AtlasCore

open Py

/-! ## Records

What is written to a file is a JSON object in which no key occurs twice. -/

/-- A record as the sink takes it: a dict, so no key occurs twice anywhere in it. -/
structure Record where
  /-- Its fields. -/
  fields : Fields
  /-- A dict has each of its keys once. -/
  wf : (Json.obj fields).WF

/-- The record as a JSON value, which is what a line of the log says. -/
def Record.value (r : Record) : Json := .obj r.fields

/-- The line that is written for a record, without its newline. -/
def Record.serialisation (r : Record) : Str := r.value.canon.render

/-- No string and no key of the record holds U+0085, U+2028 or U+2029. -/
def Record.breakFree (r : Record) : Bool := r.value.breakFree

/-! ## Writing

How a sink is opened and a record is appended.  A fragment at the end of a file that a crash left
is dropped or refused when the sink is opened, and not when it is read. -/

/-- Why a sink could not be opened, or a record not written. -/
inductive SinkError where
  | tornLogTail
  /-- `json.dumps` refused an integer. -/
  | valueError
  | unicodeEncodeError
  deriving DecidableEq, Repr

namespace JsonlSink

/-- `raw[: raw.rindex(b"\n") + 1] if b"\n" in raw else b""`. -/
def dropFragment (raw : Bytes) : Bytes := (raw.reverse.dropWhile fun b ↦ b != lfByte).reverse

/-- `JsonlSink._check_tail`, with `none` for a file that does not exist. -/
def checkTail (truncate : Bool) : Option Bytes → Except SinkError (Option Bytes)
  | none => .ok none
  | some raw =>
    if raw = [] then .ok (some raw)
    else if raw.getLast? = some lfByte then .ok (some raw)
    else if !truncate then .error .tornLogTail
    else .ok (some (dropFragment raw))

/-- `JsonlSink.write`: the contents of the file after it. -/
def write (file : Option Bytes) (record : Record) : Except SinkError Bytes :=
  match record.value.dumps with
  | none => .error .valueError
  | some line =>
    match encode (line ++ [lf]) with
    | none => .error .unicodeEncodeError
    | some bytes => .ok (file.getD [] ++ bytes)

/-- Several records, one after another, each after the bytes that are there; the first that fails
ends it. -/
def writeAll (file : Option Bytes) : List Record → Except SinkError (Option Bytes)
  | [] => .ok file
  | record :: rest =>
    match write file record with
    | .error e => .error e
    | .ok bytes => writeAll (some bytes) rest

end JsonlSink

/-! ## Reading

The reader takes a file as text, cut into lines where Python cuts it. -/

/-- Why a log file could not be read. -/
inductive ReadError where
  | unicodeDecodeError
  | jsonDecodeError
  deriving DecidableEq, Repr

/-- The loop of `read_jsonl` over the lines of the file. -/
def readLines : List Str → Except ReadError (List Json)
  | [] => .ok []
  | line :: rest =>
    if endsWith line [lf] = false ∧ rest = [] then .ok []
    else if isBlank line then readLines rest
    else
      match Json.loads line with
      | none => .error .jsonDecodeError
      | some record => (record :: ·) <$> readLines rest

/-- `read_jsonl`: the file is decoded, read in text mode and split before any line is looked at. -/
def readJsonl (file : Bytes) : Except ReadError (List Json) :=
  match decode file with
  | none => .error .unicodeDecodeError
  | some text => readLines (splitlinesKeep (universalNewlines text))

/-- Reading the file gives exactly these records, in this order. -/
def ReadsBack (file : Bytes) (records : List Record) : Prop :=
  ∃ got, readJsonl file = .ok got ∧ got.map Json.canon = records.map fun r ↦ r.value.canon

/-! ## The text of a log

The records that can be written, and the text they make. -/

/-- A record that the sink can write: its integers can be written, and its texts encoded. -/
def Record.Writable (r : Record) : Prop :=
  r.value.every Json.intFits (fun _ ↦ true) = true ∧ r.value.surrogateFree = true

instance (r : Record) : Decidable r.Writable := inferInstanceAs (Decidable (_ ∧ _))

/-- The line of a record, with its newline. -/
def Record.line (r : Record) : Str := r.serialisation ++ [lf]

/-- The text of several records, each on a line of its own. -/
def logText (records : List Record) : Str := records.flatMap Record.line

theorem logText_cons (r : Record) (rs : List Record) :
    logText (r :: rs) = r.line ++ logText rs := by
  rw [logText, List.flatMap_cons]
  rfl

theorem logText_append (rs more : List Record) :
    logText (rs ++ more) = logText rs ++ logText more := by
  rw [logText, List.flatMap_append]
  rfl

theorem Record.encodable_line {r : Record} (h : r.Writable) : encodable r.line = true := by
  have hs : encodable r.serialisation = true := by
    rw [Record.serialisation, Json.encodable_render, Json.surrogateFree, Json.every_canon]
    exact h.2
  rw [Record.line, encodable, List.all_append, Bool.and_eq_true]
  exact ⟨hs, by decide⟩

theorem JsonlSink.write_eq {file : Option Bytes} {r : Record} {bytes : Bytes}
    (h : JsonlSink.write file r = .ok bytes) :
      r.Writable ∧ bytes = file.getD [] ++ utf8 r.line := by
  rw [JsonlSink.write, Json.dumps] at h
  split at h
  · exact absurd h (by simp)
  · rename_i line hd
    split at hd
    · rename_i hf
      obtain rfl := Option.some.inj hd
      rw [encode] at h
      split at h
      · exact absurd h (by simp)
      · rename_i out he
        split at he
        · rename_i henc
          obtain rfl := Option.some.inj he
          simp only [Except.ok.injEq] at h
          refine ⟨⟨hf, ?_⟩, h.symm⟩
          rw [encodable, List.all_append, Bool.and_eq_true] at henc
          have hs := henc.1
          rw [← encodable, Json.encodable_render, Json.surrogateFree, Json.every_canon] at hs
          exact hs
        · exact absurd he (by simp)
    · exact absurd hd (by simp)

/-- What writing leaves in the file: what was there, and the text of the records. -/
theorem JsonlSink.writeAll_eq : ∀ {records : List Record} {file after : Option Bytes},
    JsonlSink.writeAll file records = .ok after →
      (∀ r ∈ records, r.Writable) ∧ after.getD [] = file.getD [] ++ utf8 (logText records)
  | [], file, after, h => by
    rw [JsonlSink.writeAll, Except.ok.injEq] at h
    refine ⟨fun r hr ↦ absurd hr List.not_mem_nil, ?_⟩
    rw [h, logText, List.flatMap_nil, utf8, List.append_nil]
  | r :: rest, file, after, h => by
    rw [JsonlSink.writeAll] at h
    split at h
    · exact absurd h (by simp)
    · rename_i bytes hw
      obtain ⟨hr, hbytes⟩ := JsonlSink.write_eq hw
      obtain ⟨hrest, hafter⟩ := JsonlSink.writeAll_eq h
      refine ⟨?_, ?_⟩
      · intro s hs
        rcases List.mem_cons.mp hs with rfl | hs
        · exact hr
        · exact hrest s hs
      · rw [hafter, Option.getD_some, hbytes, logText_cons, utf8_append, List.append_assoc]

theorem JsonlSink.write_ok {file : Option Bytes} {r : Record} (h : r.Writable) :
    JsonlSink.write file r = .ok (file.getD [] ++ utf8 r.line) := by
  have hd : r.value.dumps = some r.serialisation := if_pos h.1
  have he : encode (r.serialisation ++ [lf]) = some (utf8 r.line) :=
    if_pos (Record.encodable_line h)
  rw [JsonlSink.write, hd]
  simp only
  rw [he]

/-- Records that can be written are. -/
theorem JsonlSink.writeAll_ok : ∀ {records : List Record} {file : Option Bytes},
    (∀ r ∈ records, r.Writable) → records ≠ [] →
      JsonlSink.writeAll file records = .ok (some (file.getD [] ++ utf8 (logText records)))
  | [], _, _, h => absurd rfl h
  | [r], file, hw, _ => by
    rw [JsonlSink.writeAll, JsonlSink.write_ok (hw r List.mem_cons_self)]
    simp only
    rw [JsonlSink.writeAll, logText, List.flatMap_cons, List.flatMap_nil, List.append_nil]
  | r :: s :: rest, file, hw, _ => by
    rw [JsonlSink.writeAll, JsonlSink.write_ok (hw r List.mem_cons_self)]
    simp only
    rw [JsonlSink.writeAll_ok (fun x hx ↦ hw x (List.mem_cons_of_mem r hx)) (by simp),
      Option.getD_some, logText_cons r, utf8_append, List.append_assoc]

theorem encodable_logText {records : List Record} (h : ∀ r ∈ records, r.Writable) :
    encodable (logText records) = true := by
  rw [encodable, List.all_eq_true]
  intro c hc
  obtain ⟨r, hr, hm⟩ := List.mem_flatMap.mp hc
  exact List.all_eq_true.mp (Record.encodable_line (h r hr)) c hm

/-! ## Reading one line

A record is one line, without a line end in it, and the line says when it ends. -/

theorem Record.serialisation_cons (r : Record) : ∃ t, r.serialisation = ch '{' :: t := by
  rw [Record.serialisation, Record.value, Json.canon]
  cases h : Json.sortFields (Json.canonFields r.fields) with
  | nil => exact ⟨_, by rw [Json.render]; rfl⟩
  | cons p rest => obtain ⟨k, v⟩ := p; exact ⟨_, by rw [Json.render]⟩

theorem oneLine_serialisation (r : Record) : oneLine r.serialisation = r.breakFree := by
  rw [Record.serialisation, Json.oneLine_render, Json.breakFree, Json.every_canon]
  rfl

theorem control_not_mem {r : Record} {c : CodePoint} (hc : c.val < 32) : c ∉ r.serialisation :=
  fun h ↦ absurd (Json.render_printable h) (by omega)

theorem cr_not_mem_logText (records : List Record) : cr ∉ logText records := by
  intro h
  obtain ⟨r, -, hm⟩ := List.mem_flatMap.mp h
  rcases List.mem_append.mp hm with hm | hm
  · exact control_not_mem (by decide) hm
  · exact absurd hm (by decide)

theorem not_blank_of_brace {s : Str} (h : s.head? = some (ch '{')) : isBlank s = false := by
  cases s with
  | nil => exact absurd h (by simp)
  | cons c s =>
    rw [List.head?_cons, Option.some.injEq] at h
    rw [isBlank, List.all_cons, h]
    rfl

theorem endsWith_lf (s : Str) : endsWith (s ++ [lf]) [lf] = true := by
  rw [endsWith, List.isSuffixOf_iff_suffix]
  exact List.suffix_append s [lf]

theorem Record.loads_line {r : Record} (h : r.Writable) :
    Json.loads r.line = some r.value.canon := by
  refine Json.loads_dumps r.wf (s := r.serialisation) ?_
  rw [Json.dumps]
  exact if_pos h.1

/-- A record without line breaks is one line of the file, and is read. -/
theorem readLines_line {r : Record} (hw : r.Writable) (hb : r.breakFree = true) (rest : Str) :
    readLines (splitlinesKeep (r.line ++ rest))
      = (r.value.canon :: ·) <$> readLines (splitlinesKeep rest) := by
  obtain ⟨t, ht⟩ := r.serialisation_cons
  have hsplit : r.line ++ rest = r.serialisation ++ lf :: rest := by
    rw [Record.line, List.append_assoc, List.singleton_append]
  have hline : r.serialisation ++ [lf] = r.line := rfl
  rw [hsplit, splitlinesKeep_line (by rw [oneLine_serialisation, hb]), readLines,
    if_neg (by rw [endsWith_lf]; simp), if_neg (by rw [not_blank_of_brace (by rw [ht]; rfl)]; simp),
    hline, r.loads_line hw]

/-- A record with a line break is split there, and the file cannot be read. -/
theorem readLines_break {r : Record} (hw : r.Writable) (hb : r.breakFree = false) (rest : Str) :
    readLines (splitlinesKeep (r.line ++ rest)) = .error .jsonDecodeError := by
  obtain ⟨t, ht⟩ := r.serialisation_cons
  obtain ⟨l, c, q, hlcq, hl, hc⟩ := exists_lineBreak (s := r.serialisation)
    (by rw [oneLine_serialisation, hb])
  have hwide : 128 ≤ c.val := by
    have h := Json.lineBreak_render (v := r.value.canon) (c := c)
      (by rw [← Record.serialisation, hlcq]; simp) hc
    simp only [Json.isWideBreak, Bool.or_eq_true, beq_iff_eq] at h
    omega
  have hloads := r.loads_line hw
  have hcut : Json.loads (l ++ [c]) = none := by
    rw [Record.line, hlcq, List.append_assoc, List.cons_append] at hloads
    exact Json.loads_cut hwide hloads
  have hhead : (l ++ [c]).head? = some (ch '{') := by
    rw [hlcq] at ht
    cases l with
    | nil =>
      rw [List.nil_append, List.cons.injEq] at ht
      rw [ht.1] at hc
      exact absurd hc (by decide)
    | cons d l =>
      rw [List.cons_append, List.cons.injEq] at ht
      rw [ht.1]
      rfl
  have hsplit : r.line ++ rest = l ++ c :: (q ++ lf :: rest) := by
    rw [Record.line, hlcq]
    simp
  rw [hsplit, splitlinesKeep_break hl hc (by rintro rfl; exact absurd hwide (by decide)), readLines,
    if_neg (fun h ↦ absurd h.2 (splitlinesKeep_ne_nil (by simp))),
    if_neg (by rw [not_blank_of_brace hhead]; simp), hcut]

/-- What follows the last newline is dropped, if it is one line. -/
theorem readLines_fragment {s : Str} (hs : oneLine s = true) :
    readLines (splitlinesKeep s) = .ok [] := by
  rw [splitlinesKeep_tail hs]
  split
  · rfl
  · rw [readLines, if_pos]
    refine ⟨?_, rfl⟩
    rw [Bool.eq_false_iff]
    intro h
    rw [endsWith, List.isSuffixOf_iff_suffix] at h
    exact oneLine_lf hs (h.subset List.mem_cons_self)

/-- The records of a log are read, and what is left after them too. -/
theorem readLines_logText : ∀ {records : List Record}, (∀ r ∈ records, r.Writable) →
    (∀ r ∈ records, r.breakFree = true) → ∀ rest,
      readLines (splitlinesKeep (logText records ++ rest))
        = ((records.map fun r ↦ r.value.canon) ++ ·) <$> readLines (splitlinesKeep rest)
  | [], _, _, rest => by
    rw [logText, List.flatMap_nil, List.nil_append]
    cases readLines (splitlinesKeep rest) <;> rfl
  | r :: rs, hw, hb, rest => by
    rw [logText_cons, List.append_assoc, readLines_line (hw r List.mem_cons_self)
      (hb r List.mem_cons_self), readLines_logText (fun s hs ↦ hw s (List.mem_cons_of_mem r hs))
      (fun s hs ↦ hb s (List.mem_cons_of_mem r hs))]
    cases readLines (splitlinesKeep rest) <;> rfl

/-- One record with a line break makes the whole log unreadable. -/
theorem readLines_logText_break : ∀ {records : List Record}, (∀ r ∈ records, r.Writable) →
    (∃ r ∈ records, r.breakFree = false) → ∀ rest,
      readLines (splitlinesKeep (logText records ++ rest)) = .error .jsonDecodeError
  | [], _, hb, _ => by obtain ⟨r, hr, -⟩ := hb; exact absurd hr List.not_mem_nil
  | r :: rs, hw, hb, rest => by
    rw [logText_cons, List.append_assoc]
    cases h : r.breakFree with
    | false => exact readLines_break (hw r List.mem_cons_self) h _
    | true =>
      have hrest : ∃ s ∈ rs, s.breakFree = false := by
        obtain ⟨s, hs, hsb⟩ := hb
        rcases List.mem_cons.mp hs with rfl | hs
        · rw [h] at hsb; exact absurd hsb (by simp)
        · exact ⟨s, hs, hsb⟩
      rw [readLines_line (hw r List.mem_cons_self) h,
        readLines_logText_break (fun s hs ↦ hw s (List.mem_cons_of_mem r hs)) hrest]
      rfl

/-! ## The round trip

What was written is read back, record by record, with the keys in order. -/

theorem map_canon_canon (records : List Record) :
    (records.map fun r ↦ r.value.canon).map Json.canon = records.map fun r ↦ r.value.canon := by
  rw [List.map_map]
  exact List.map_congr_left fun r _ ↦ Json.canon_canon r.value

theorem readJsonl_utf8 {text : Str} (he : encodable text = true) (hcr : cr ∉ text) :
    readJsonl (utf8 text) = readLines (splitlinesKeep text) := by
  rw [readJsonl, decode_utf8_self he]
  simp only
  rw [universalNewlines_eq hcr]

/-- The log of records without line breaks reads back. -/
theorem readsBack_logText {records : List Record} (hw : ∀ r ∈ records, r.Writable)
    (hb : ∀ r ∈ records, r.breakFree = true) : ReadsBack (utf8 (logText records)) records := by
  refine ⟨records.map fun r ↦ r.value.canon, ?_, map_canon_canon records⟩
  have h := readLines_logText hw hb []
  rw [List.append_nil] at h
  rw [readJsonl_utf8 (encodable_logText hw) (cr_not_mem_logText records), h]
  change Except.ok ((records.map fun r ↦ r.value.canon) ++ []) = _
  rw [List.append_nil]

/-- The log of records one of which holds a line break does not. -/
theorem not_readsBack_of_break {records : List Record} (hw : ∀ r ∈ records, r.Writable)
    (hb : ∃ r ∈ records, r.breakFree = false) :
    ¬ ReadsBack (utf8 (logText records)) records := by
  rintro ⟨got, hgot, -⟩
  have hbreak := readLines_logText_break hw hb []
  rw [List.append_nil] at hbreak
  rw [readJsonl_utf8 (encodable_logText hw) (cr_not_mem_logText records), hbreak] at hgot
  exact absurd hgot (by simp)

/-- **The round trip, and exactly when it holds.**  Records that were written to a fresh file are
read back unless one of their strings holds a line break that the writer does not escape. -/
theorem readsBack_iff {records : List Record} {file : Option Bytes}
    (h : JsonlSink.writeAll none records = .ok file) :
    ReadsBack (file.getD []) records ↔ ∀ r ∈ records, r.breakFree = true := by
  obtain ⟨hw, hfile⟩ := JsonlSink.writeAll_eq h
  rw [Option.getD_none, List.nil_append] at hfile
  rw [hfile]
  constructor
  · intro hread r hr
    by_contra hb
    exact not_readsBack_of_break hw ⟨r, hr, by simpa using hb⟩ hread
  · exact readsBack_logText hw

/-- An event of a run whose payload holds the character `c` in the middle of a text. -/
def noteEvent (c : CodePoint) : Record where
  fields :=
    [(str "schema", .str (str "atlas-event.v1")), (str "event_id", .str (str "r:0")),
      (str "run_id", .str (str "r")), (str "sequence", .int 0), (str "iteration", .int 0),
      (str "kind", .str (str "decision_recorded")), (str "recorded_at", .str (str "2026-01-01")),
      (str "call_id", .null), (str "payload", .obj [(str "note", .str [ch 'a', c, ch 'b'])])]
  wf := by
    have hkeys : [str "schema", str "event_id", str "run_id", str "sequence", str "iteration",
        str "kind", str "recorded_at", str "call_id", str "payload"].Nodup := by decide
    simp only [Json.WF, Json.WFFields, List.map_cons, List.map_nil, and_true, true_and]
    exact ⟨hkeys, List.nodup_singleton _⟩

/-- A payload with the character U+0085 (next line) is written and then cannot be read. -/
theorem nextLine_lost :
    JsonlSink.writeAll none [noteEvent 0x85] = .ok (some (utf8 (logText [noteEvent 0x85]))) ∧
      ¬ ReadsBack (utf8 (logText [noteEvent 0x85])) [noteEvent 0x85] := by
  have hw : ∀ r ∈ [noteEvent 0x85], r.Writable := by
    rintro r (_ | ⟨_, h⟩)
    · exact ⟨by decide, by decide⟩
    · exact absurd h List.not_mem_nil
  exact ⟨JsonlSink.writeAll_ok hw (by simp), not_readsBack_of_break hw
    ⟨_, List.mem_cons_self, by decide⟩⟩

/-- A payload with an ordinary character beyond ASCII. -/
theorem readsBack_iff_eAcute :
    ReadsBack (utf8 (logText [noteEvent 0xE9])) [noteEvent 0xE9] ↔
      ∀ r ∈ [noteEvent 0xE9], r.breakFree = true :=
  @readsBack_iff [noteEvent 0xE9] (some (utf8 (logText [noteEvent 0xE9])))
    (JsonlSink.writeAll_ok (by
      rintro r (_ | ⟨_, h⟩)
      · exact ⟨by decide, by decide⟩
      · exact absurd h List.not_mem_nil) (by simp))

end AtlasCore
