import AtlasCore.EventLog.Jsonl

/-!
# What a killed process leaves

A process that is killed in the middle of an append leaves a byte prefix of the file.  Two parties
meet it: `read_jsonl`, which drops what follows the last newline, and `JsonlSink` with
`truncate_torn_tail=True`, which cuts it off so that appending is safe again.  Both should keep
exactly the whole records (`CrashTolerant`).

* Repairing does, at every offset (`repair_cut`): a newline byte never occurs inside a character,
  so looking for the last one in the bytes finds the end of a line.
* Reading does exactly when the cut is not inside a character (`crashTolerant_iff`), because the
  whole file is decoded before it is split into lines.
-/

set_option autoImplicit false

namespace AtlasCore

open Py

/-! ## A process killed in the middle of an append -/

/-- The records whose lines lie wholly in the first `k` bytes. -/
def wholeRecords : List Record → ℕ → List Record
  | [], _ => []
  | r :: rs, k =>
    if (utf8 r.line).length ≤ k then r :: wholeRecords rs (k - (utf8 r.line).length) else []

/-- What crash tolerance asks of one byte prefix of a log: reading it gives the whole records, and
so does repairing it, also after more records are appended to the repaired file. -/
structure CrashTolerant (records : List Record) (file : Bytes) (k : ℕ) : Prop where
  /-- `read_jsonl` on the prefix. -/
  reads : ReadsBack (file.take k) (wholeRecords records k)
  /-- `JsonlSink(path, truncate_torn_tail=True)` on the prefix. -/
  repairs : ∃ kept, JsonlSink.checkTail true (some (file.take k)) = .ok (some kept) ∧
    ReadsBack kept (wholeRecords records k) ∧
    ∀ more after, (∀ r ∈ more, r.breakFree = true) →
      JsonlSink.writeAll (some kept) more = .ok after →
      ReadsBack (after.getD []) (wholeRecords records k ++ more)

theorem wholeRecords_subset : ∀ (records : List Record) (k : ℕ), wholeRecords records k ⊆ records
  | [], _ => by rw [wholeRecords]; exact List.Subset.refl _
  | r :: rs, k => by
    rw [wholeRecords]
    split
    · exact List.cons_subset_cons r (wholeRecords_subset rs _)
    · exact List.nil_subset _

theorem wholeRecords_zero (records : List Record) : wholeRecords records 0 = [] := by
  cases records with
  | nil => rfl
  | cons r rs =>
    rw [wholeRecords, if_neg]
    rw [Record.line, utf8_append, List.length_append, utf8_lf, List.length_singleton]
    omega

/-- More bytes hold more whole records. -/
theorem wholeRecords_mono (records : List Record) {k k' : ℕ} (h : k ≤ k') :
    wholeRecords records k <+: wholeRecords records k' := by
  induction records generalizing k k' with
  | nil => exact List.prefix_rfl
  | cons r rs ih =>
    rw [wholeRecords, wholeRecords]
    split_ifs with hk hk'
    · exact List.cons_prefix_cons.mpr ⟨rfl, ih (Nat.sub_le_sub_right h _)⟩
    · exact absurd (hk.trans h) hk'
    · exact List.nil_prefix
    · exact List.nil_prefix

/-- A byte prefix of a log: whole records, and then a piece of the line of one more. -/
theorem logText_take : ∀ (records : List Record) (k : ℕ),
    (utf8 (logText records)).take k = utf8 (logText (wholeRecords records k)) ∨
    ∃ r ∈ records, ∃ i, (utf8 (logText records)).take k
      = utf8 (logText (wholeRecords records k)) ++ (utf8 r.serialisation).take i
  | [], k => .inl (by simp [logText, wholeRecords, utf8])
  | r :: rs, k => by
    rw [wholeRecords]
    split
    · rename_i hk
      have hcons : (utf8 (logText (r :: rs))).take k
          = utf8 r.line ++ (utf8 (logText rs)).take (k - (utf8 r.line).length) := by
        rw [logText_cons, utf8_append, List.take_append, List.take_of_length_le hk]
      rw [hcons, logText_cons, utf8_append]
      rcases logText_take rs (k - (utf8 r.line).length) with h | ⟨s, hs, i, h⟩
      · exact .inl (by rw [h])
      · exact .inr ⟨s, List.mem_cons_of_mem r hs, i, by rw [h, List.append_assoc]⟩
    · rename_i hk
      refine .inr ⟨r, List.mem_cons_self, k, ?_⟩
      have hline : utf8 r.line = utf8 r.serialisation ++ [lfByte] := by
        rw [Record.line, utf8_append]
        rfl
      rw [hline, List.length_append, List.length_singleton] at hk
      rw [logText_cons, utf8_append, hline, List.append_assoc,
        List.take_append_of_le_length (by omega)]
      simp [logText, utf8]

theorem lfByte_not_mem_take (r : Record) (i : ℕ) : lfByte ∉ (utf8 r.serialisation).take i :=
  fun h ↦ control_not_mem (by decide) (lfByte_mem_utf8 (List.mem_of_mem_take h))

/-! ## Repairing

Cutting the torn end off leaves the whole records as they are. -/

theorem JsonlSink.dropFragment_append {a t : Bytes} (ht : lfByte ∉ t)
    (ha : a = [] ∨ a.getLast? = some lfByte) : JsonlSink.dropFragment (a ++ t) = a := by
  have hskip : ∀ b ∈ t.reverse, (b != lfByte) = true := by
    intro b hb
    rw [bne_iff_ne]
    rintro rfl
    exact ht (List.mem_reverse.mp hb)
  rw [JsonlSink.dropFragment, List.reverse_append, List.dropWhile_append_of_pos hskip]
  rcases ha with rfl | ha
  · rfl
  · cases hr : a.reverse with
    | nil =>
      rw [List.reverse_eq_nil_iff] at hr
      rw [hr] at ha
      exact absurd ha (by simp)
    | cons b bs =>
      rw [List.getLast?_eq_head?_reverse, hr, List.head?_cons, Option.some.injEq] at ha
      rw [ha, List.dropWhile_cons, if_neg (by simp), ← ha, ← hr, List.reverse_reverse]

/-- The opener keeps everything up to the last newline. -/
theorem JsonlSink.checkTail_append {a t : Bytes} (ht : lfByte ∉ t)
    (ha : a = [] ∨ a.getLast? = some lfByte) :
    JsonlSink.checkTail true (some (a ++ t)) = .ok (some a) := by
  rw [JsonlSink.checkTail]
  split
  · rename_i h
    rw [List.append_eq_nil_iff] at h
    rw [h.1, h.2, List.append_nil]
  · rename_i hne
    split
    · rename_i hlast
      rcases List.eq_nil_or_concat' t with rfl | ⟨t', b, rfl⟩
      · rw [List.append_nil]
      · rw [← List.append_assoc, List.getLast?_concat, Option.some.injEq] at hlast
        exact absurd (by rw [hlast]; simp) ht
    · rw [if_neg (by simp), JsonlSink.dropFragment_append ht ha]

theorem logText_ends (records : List Record) :
    utf8 (logText records) = [] ∨ (utf8 (logText records)).getLast? = some lfByte := by
  rcases List.eq_nil_or_concat' records with rfl | ⟨rs, r, rfl⟩
  · exact .inl rfl
  · have hline : utf8 (logText [r]) = utf8 r.serialisation ++ [lfByte] := by
      rw [logText, List.flatMap_cons, List.flatMap_nil, List.append_nil, Record.line, utf8_append]
      rfl
    exact .inr (by rw [logText_append, utf8_append, hline, ← List.append_assoc,
      List.getLast?_concat])

/-- Repairing any byte prefix of a log leaves exactly the text of its whole records. -/
theorem checkTail_cut (records : List Record) (k : ℕ) :
    JsonlSink.checkTail true (some ((utf8 (logText records)).take k))
      = .ok (some (utf8 (logText (wholeRecords records k)))) := by
  rcases logText_take records k with h | ⟨r, -, i, h⟩
  · have hrepair := JsonlSink.checkTail_append (t := []) List.not_mem_nil
      (logText_ends (wholeRecords records k))
    rw [List.append_nil] at hrepair
    rw [h, hrepair]
  · rw [h, JsonlSink.checkTail_append (lfByte_not_mem_take r i) (logText_ends _)]

/-- **Repairing keeps the whole records at every offset**, and the repaired file can be appended
to. -/
theorem repair_cut {records : List Record} (hw : ∀ r ∈ records, r.Writable)
    (hb : ∀ r ∈ records, r.breakFree = true) (k : ℕ) :
    ∃ kept, JsonlSink.checkTail true (some ((utf8 (logText records)).take k)) = .ok (some kept) ∧
      ReadsBack kept (wholeRecords records k) ∧
      ∀ more after, (∀ r ∈ more, r.breakFree = true) →
        JsonlSink.writeAll (some kept) more = .ok after →
        ReadsBack (after.getD []) (wholeRecords records k ++ more) := by
  have hsub := wholeRecords_subset records k
  have hwk : ∀ r ∈ wholeRecords records k, r.Writable := fun r hr ↦ hw r (hsub hr)
  have hbk : ∀ r ∈ wholeRecords records k, r.breakFree = true := fun r hr ↦ hb r (hsub hr)
  refine ⟨_, checkTail_cut records k, readsBack_logText hwk hbk, ?_⟩
  intro more after hmore hafter
  obtain ⟨hwm, heq⟩ := JsonlSink.writeAll_eq hafter
  rw [heq, Option.getD_some, ← utf8_append, ← logText_append]
  refine readsBack_logText ?_ ?_
  · intro r hr
    rcases List.mem_append.mp hr with hr | hr
    · exact hwk r hr
    · exact hwm r hr
  · intro r hr
    rcases List.mem_append.mp hr with hr | hr
    · exact hbk r hr
    · exact hmore r hr

/-! ## Reading a prefix

A file that was cut between two characters is read as its whole records; one that was cut inside a
character is not read at all. -/

/-- A prefix that ends between two characters is read as its whole records. -/
theorem readsBack_cut {records : List Record} (hw : ∀ r ∈ records, r.Writable)
    (hb : ∀ r ∈ records, r.breakFree = true) {k : ℕ}
    (hk : OnBoundary (logText records) k) :
    ReadsBack ((utf8 (logText records)).take k) (wholeRecords records k) := by
  have hsub := wholeRecords_subset records k
  have hwk : ∀ r ∈ wholeRecords records k, r.Writable := fun r hr ↦ hw r (hsub hr)
  have hbk : ∀ r ∈ wholeRecords records k, r.breakFree = true := fun r hr ↦ hb r (hsub hr)
  rcases logText_take records k with h | ⟨r, hr, i, h⟩
  · rw [h]
    exact readsBack_logText hwk hbk
  · have henc : encodable r.serialisation = true := by
      have := Record.encodable_line (hw r hr)
      rw [Record.line, encodable, List.all_append, Bool.and_eq_true] at this
      exact this.1
    have hdec : (decode ((utf8 r.serialisation).take i)).isSome = true := by
      have hd := (decode_utf8_take (encodable_logText hw) k).mpr hk
      rw [h, decode_utf8 (encodable_logText hwk)] at hd
      simpa using hd
    obtain ⟨j, hj⟩ := (decode_utf8_take henc i).mp hdec
    have hone : oneLine (r.serialisation.take j) = true := by
      have hs := oneLine_serialisation r
      rw [hb r hr, oneLine, List.all_eq_true] at hs
      rw [oneLine, List.all_eq_true]
      exact fun c hc ↦ hs c (List.mem_of_mem_take hc)
    have hcr : cr ∉ logText (wholeRecords records k) ++ r.serialisation.take j := by
      rw [List.mem_append, not_or]
      exact ⟨cr_not_mem_logText _, oneLine_cr hone⟩
    have henc' : encodable (logText (wholeRecords records k) ++ r.serialisation.take j) = true := by
      rw [encodable, List.all_append, Bool.and_eq_true]
      exact ⟨encodable_logText hwk, encodable_take henc j⟩
    refine ⟨(wholeRecords records k).map fun r ↦ r.value.canon, ?_, map_canon_canon _⟩
    rw [h, hj, ← utf8_append, readJsonl_utf8 henc' hcr, readLines_logText hwk hbk,
      readLines_fragment hone]
    change Except.ok (((wholeRecords records k).map fun r ↦ r.value.canon) ++ []) = _
    rw [List.append_nil]

/-- A prefix that ends inside a character is not read at all. -/
theorem onBoundary_of_readsBack {records : List Record} (hw : ∀ r ∈ records, r.Writable) {k : ℕ}
    {kept : List Record} (h : ReadsBack ((utf8 (logText records)).take k) kept) :
    OnBoundary (logText records) k := by
  obtain ⟨got, hgot, -⟩ := h
  refine (decode_utf8_take (encodable_logText hw) k).mp ?_
  rw [readJsonl] at hgot
  cases hd : decode ((utf8 (logText records)).take k) with
  | none => rw [hd] at hgot; exact absurd hgot (by simp)
  | some text => rfl

/-- **Crash tolerance, and exactly when it holds**: at every offset of a log of records without
line breaks that does not lie inside a multi-byte character. -/
theorem crashTolerant_iff {records : List Record} {file : Option Bytes}
    (hb : ∀ r ∈ records, r.breakFree = true)
    (h : JsonlSink.writeAll none records = .ok file) (k : ℕ) :
    CrashTolerant records (file.getD []) k ↔ OnBoundary (logText records) k := by
  obtain ⟨hw, hfile⟩ := JsonlSink.writeAll_eq h
  rw [Option.getD_none, List.nil_append] at hfile
  rw [hfile]
  constructor
  · exact fun ht ↦ onBoundary_of_readsBack hw ht.reads
  · exact fun hk ↦ ⟨readsBack_cut hw hb hk, repair_cut hw hb k⟩

/-- A process killed between the two bytes of the `é` of a note leaves a log that `read_jsonl`
raises on. -/
theorem cut_inside_character :
    JsonlSink.writeAll none [noteEvent 0xE9] = .ok (some (utf8 (logText [noteEvent 0xE9]))) ∧
      (noteEvent 0xE9).breakFree = true ∧
      ¬ CrashTolerant [noteEvent 0xE9] (utf8 (logText [noteEvent 0xE9])) 105 := by
  have hw : ∀ r ∈ [noteEvent 0xE9], r.Writable := by
    rintro r (_ | ⟨_, h⟩)
    · exact ⟨by decide, by decide⟩
    · exact absurd h List.not_mem_nil
  refine ⟨JsonlSink.writeAll_ok hw (by simp), by decide, fun h ↦ ?_⟩
  have hcut : decode ((utf8 (logText [noteEvent 0xE9])).take 105) = none := by decide +kernel
  obtain ⟨got, hgot, -⟩ := h.reads
  rw [readJsonl, hcut] at hgot
  exact absurd hgot (by simp)

/-- The same log cut between two characters, in the middle of the line. -/
theorem crashTolerant_iff_eAcute :
    CrashTolerant [noteEvent 0xE9] (utf8 (logText [noteEvent 0xE9])) 104 ↔
      OnBoundary (logText [noteEvent 0xE9]) 104 :=
  @crashTolerant_iff [noteEvent 0xE9] (some (utf8 (logText [noteEvent 0xE9])))
    (by
      rintro r (_ | ⟨_, h⟩)
      · decide
      · exact absurd h List.not_mem_nil)
    (JsonlSink.writeAll_ok (by
      rintro r (_ | ⟨_, h⟩)
      · exact ⟨by decide, by decide⟩
      · exact absurd h List.not_mem_nil) (by simp)) 104

end AtlasCore
