import AtlasCore.EventLog.Crash

/-!
# Reading a log while it is written

A reader meets the log cut anywhere, and its records may hold anything.  What it needs is said by
`Legible`: the file ends between two characters, and the line breaks that the writer copies stand
nowhere in it, except for its very last character.  A file that is legible is read as its whole
records, and one that is not is not read at all.
-/

set_option autoImplicit false

namespace AtlasCore

open Py

/-- The file is a text of the log, and none of its characters but the last is a line break that the
writer copies. -/
def Legible (records : List Record) (file : Bytes) : Prop :=
  ∃ j, file = utf8 ((logText records).take j) ∧
    ∀ c ∈ ((logText records).take j).dropLast, Json.isWideBreak c = false

variable {records : List Record} {r : Record} {file : Bytes}

/-! ## The text of a beginning

The characters that end a line are of one byte or of several, and a file can be cut inside the
latter. -/

theorem isLineBreak_of_wide {c : CodePoint} (h : Json.isWideBreak c = true) :
    isLineBreak c = true := by
  simp only [Json.isWideBreak, Bool.or_eq_true, beq_iff_eq] at h
  simp only [isLineBreak, Bool.or_eq_true, beq_iff_eq]
  omega

theorem ne_cr_of_wide {c : CodePoint} (h : Json.isWideBreak c = true) : c ≠ cr := by
  rintro rfl
  revert h
  decide

/-- In the line of a record no other line break occurs. -/
theorem isLineBreak_iff_wide {c : CodePoint} (hc : c ∈ r.serialisation) :
    isLineBreak c = true ↔ Json.isWideBreak c = true :=
  ⟨fun h ↦ Json.lineBreak_render hc h, isLineBreak_of_wide⟩

theorem oneLine_iff {s : Str} (hs : s ⊆ r.serialisation) :
    oneLine s = true ↔ ∀ c ∈ s, Json.isWideBreak c = false := by
  rw [oneLine, List.all_eq_true]
  refine forall₂_congr fun c hc ↦ ?_
  rw [Bool.not_eq_true', ← Bool.not_eq_true, ← Bool.not_eq_true, isLineBreak_iff_wide (hs hc)]

theorem encodable_serialisation (h : r.Writable) : encodable r.serialisation = true := by
  have hline := Record.encodable_line h
  rw [Record.line, encodable, List.all_append, Bool.and_eq_true] at hline
  exact hline.1

/-- A beginning of the log that ends between two characters: its whole records, and some of the
line of one more. -/
theorem exists_text (hw : ∀ r ∈ records, r.Writable) {k : ℕ} (hk : OnBoundary (logText records) k) :
    ∃ frag, (utf8 (logText records)).take k = utf8 (logText (wholeRecords records k) ++ frag) ∧
      encodable (logText (wholeRecords records k) ++ frag) = true ∧
      (frag = [] ∨ ∃ r ∈ records, frag <+: r.serialisation) := by
  have hwk : ∀ r ∈ wholeRecords records k, r.Writable := fun r hr ↦
    hw r (wholeRecords_subset records k hr)
  rcases logText_take records k with h | ⟨r, hr, i, h⟩
  · exact ⟨[], by rw [List.append_nil, h], by rw [List.append_nil]; exact encodable_logText hwk,
      .inl rfl⟩
  · have henc := encodable_serialisation (hw r hr)
    have hdec : (decode ((utf8 r.serialisation).take i)).isSome = true := by
      have hd := (decode_utf8_take (encodable_logText hw) k).mpr hk
      rw [h, decode_utf8 (encodable_logText hwk)] at hd
      simpa using hd
    obtain ⟨j, hj⟩ := (decode_utf8_take henc i).mp hdec
    refine ⟨r.serialisation.take j, by rw [h, hj, utf8_append], ?_,
      .inr ⟨r, hr, List.take_prefix _ _⟩⟩
    rw [encodable, List.all_append, Bool.and_eq_true]
    exact ⟨encodable_logText hwk, encodable_take henc j⟩

/-! ## A piece of a line

A line that was cut at what a reader takes for a line end leaves a piece that is not JSON. -/

/-- A record that is split at a line break leaves a piece that is not JSON. -/
theorem readLines_piece {l q rest : Str} {c : CodePoint} (hw : r.Writable)
    (hser : r.serialisation = l ++ c :: q) (hl : oneLine l = true)
    (hc : Json.isWideBreak c = true) (hrest : rest ≠ []) :
    readLines (splitlinesKeep (l ++ c :: rest)) = .error .jsonDecodeError := by
  obtain ⟨t, ht⟩ := r.serialisation_cons
  have hwide : 128 ≤ c.val := by
    simp only [Json.isWideBreak, Bool.or_eq_true, beq_iff_eq] at hc
    omega
  have hloads := r.loads_line hw
  have hcut : Json.loads (l ++ [c]) = none := by
    rw [Record.line, hser, List.append_assoc, List.cons_append] at hloads
    exact Json.loads_cut hwide hloads
  have hhead : (l ++ [c]).head? = some (ch '{') := by
    rw [hser] at ht
    cases l with
    | nil =>
      rw [List.nil_append, List.cons.injEq] at ht
      rw [ht.1] at hwide
      exact absurd hwide (by decide)
    | cons d l =>
      rw [List.cons_append, List.cons.injEq] at ht
      rw [ht.1]
      rfl
  rw [splitlinesKeep_break hl (isLineBreak_of_wide hc) (ne_cr_of_wide hc), readLines,
    if_neg (fun h ↦ absurd h.2 (splitlinesKeep_ne_nil hrest)),
    if_neg (by rw [not_blank_of_brace hhead]; simp), hcut]

/-- A last line that ends with a line break that the writer copies is torn. -/
theorem readLines_torn_break {l : Str} {c : CodePoint} (hl : oneLine l = true)
    (hc : Json.isWideBreak c = true) : readLines (splitlinesKeep (l ++ [c])) = .ok [] := by
  rw [splitlinesKeep_break hl (isLineBreak_of_wide hc) (ne_cr_of_wide hc), readLines, if_pos]
  refine ⟨?_, rfl⟩
  rw [Bool.eq_false_iff]
  intro h
  rw [endsWith, List.isSuffixOf_iff_suffix] at h
  obtain ⟨before, h⟩ := h
  obtain rfl : lf = c := List.singleton_inj.mp (List.append_inj' h rfl).2
  revert hc
  decide

/-- A piece of the line of a record that can be written. -/
def IsPiece (frag : Str) : Prop := frag = [] ∨ ∃ r : Record, r.Writable ∧ frag <+: r.serialisation

theorem readLines_piece_clean {frag : Str} (h : IsPiece frag)
    (hclean : ∀ c ∈ frag.dropLast, Json.isWideBreak c = false) :
    readLines (splitlinesKeep frag) = .ok [] := by
  rcases List.eq_nil_or_concat' frag with rfl | ⟨l, c, rfl⟩
  · rfl
  obtain hnil | ⟨r, -, hr⟩ := h
  · exact absurd hnil (by simp)
  rw [List.dropLast_concat] at hclean
  have hl : oneLine l = true :=
    (oneLine_iff (fun d hd ↦ hr.subset (List.mem_append_left _ hd))).mpr hclean
  by_cases hc : Json.isWideBreak c = true
  · exact readLines_torn_break hl hc
  · refine readLines_fragment ((oneLine_iff hr.subset).mpr fun d hd ↦ ?_)
    rcases List.mem_append.mp hd with hd | hd
    · exact hclean d hd
    · rw [List.mem_singleton.mp hd]
      exact Bool.not_eq_true _ ▸ hc

theorem readLines_piece_break {frag : Str} (h : IsPiece frag)
    (hbreak : ∃ c ∈ frag.dropLast, Json.isWideBreak c = true) :
    readLines (splitlinesKeep frag) = .error .jsonDecodeError := by
  obtain ⟨d, hd, hwide⟩ := hbreak
  obtain rfl | ⟨r, hw, more, hr⟩ := h
  · cases hd
  have hsub : frag ⊆ r.serialisation := List.IsPrefix.subset ⟨more, hr⟩
  obtain ⟨l, c, q, rfl, hl, hc⟩ := exists_lineBreak (s := frag) (by
    rw [Bool.eq_false_iff]
    intro hone
    exact absurd ((oneLine_iff hsub).mp hone d (List.dropLast_subset _ hd)) (by simp [hwide]))
  have hcw := (isLineBreak_iff_wide (hsub (by simp))).mp hc
  rw [List.append_assoc, List.cons_append] at hr
  refine readLines_piece hw hr.symm hl hcw ?_
  rintro rfl
  rw [List.dropLast_concat] at hd
  have hnone := (oneLine_iff (fun x hx ↦ hsub (List.mem_append_left _ hx))).mp hl d hd
  rw [hwide] at hnone
  cases hnone

/-- The last character of the lines of a log is no line break that the writer copies. -/
theorem mem_dropLast_of_mem_logText {whole : List Record} {frag : Str} {c : CodePoint}
    (hc : c ∈ logText whole) (hwide : Json.isWideBreak c = true) :
    c ∈ (logText whole ++ frag).dropLast := by
  cases frag with
  | cons d frag =>
    rw [List.dropLast_append_of_ne_nil (List.cons_ne_nil d frag)]
    exact List.mem_append_left _ hc
  | nil =>
    rw [List.append_nil]
    rcases List.eq_nil_or_concat' whole with rfl | ⟨rs, r, rfl⟩
    · cases hc
    · have hline : logText (rs ++ [r]) = (logText rs ++ r.serialisation) ++ [lf] := by
        rw [logText_append, List.append_assoc]
        exact congrArg _ (List.append_nil _)
      rw [hline] at hc ⊢
      rw [List.dropLast_concat]
      refine (List.mem_append.mp hc).resolve_right fun hlf ↦ ?_
      rw [List.mem_singleton.mp hlf] at hwide
      revert hwide
      decide

/-- A record with a line break has one that the writer copies. -/
theorem exists_wide_of_break {whole : List Record} (hr : r ∈ whole) (hb : r.breakFree = false) :
    ∃ c ∈ logText whole, Json.isWideBreak c = true := by
  rw [← oneLine_serialisation] at hb
  obtain ⟨l, c, q, hser, -, hc⟩ := exists_lineBreak hb
  have hmem : c ∈ r.serialisation := by
    rw [hser]
    exact List.mem_append_right _ List.mem_cons_self
  exact ⟨c, List.mem_flatMap.mpr ⟨r, hr, List.mem_append_left _ hmem⟩,
    (isLineBreak_iff_wide hmem).mp hc⟩

/-- The lines of a beginning of a log are read if no line break but the last character is in it. -/
theorem readLines_text {whole : List Record} {frag : Str} (hw : ∀ r ∈ whole, r.Writable)
    (hfrag : IsPiece frag)
    (hclean : ∀ c ∈ (logText whole ++ frag).dropLast, Json.isWideBreak c = false) :
    readLines (splitlinesKeep (logText whole ++ frag)) = .ok (whole.map fun r ↦ r.value.canon) := by
  have hb : ∀ r ∈ whole, r.breakFree = true := fun r hr ↦ by
    by_contra hbreak
    obtain ⟨c, hc, hwide⟩ := exists_wide_of_break hr (Bool.not_eq_true _ ▸ hbreak)
    rw [hclean c (mem_dropLast_of_mem_logText hc hwide)] at hwide
    cases hwide
  have hpiece : ∀ c ∈ frag.dropLast, Json.isWideBreak c = false := by
    intro c hc
    refine hclean c ?_
    rw [List.dropLast_append_of_ne_nil (List.ne_nil_of_mem (List.dropLast_subset _ hc))]
    exact List.mem_append_right _ hc
  rw [readLines_logText hw hb, readLines_piece_clean hfrag hpiece]
  exact congrArg Except.ok (List.append_nil _)

/-- Otherwise they are not. -/
theorem readLines_text_break {whole : List Record} {frag : Str} (hw : ∀ r ∈ whole, r.Writable)
    (hfrag : IsPiece frag)
    (hbreak : ∃ c ∈ (logText whole ++ frag).dropLast, Json.isWideBreak c = true) :
    readLines (splitlinesKeep (logText whole ++ frag)) = .error .jsonDecodeError := by
  by_cases hb : ∀ r ∈ whole, r.breakFree = true
  · rw [readLines_logText hw hb, readLines_piece_break hfrag]
    · rfl
    · obtain ⟨c, hc, hwide⟩ := hbreak
      refine ⟨c, ?_, hwide⟩
      have hnone : c ∉ logText whole := fun hmem ↦ by
        obtain ⟨r, hr, hmem⟩ := List.mem_flatMap.mp hmem
        rcases List.mem_append.mp hmem with hmem | hmem
        · have hone := oneLine_serialisation r
          rw [hb r hr] at hone
          rw [(oneLine_iff fun _ h ↦ h).mp hone c hmem] at hwide
          cases hwide
        · rw [List.mem_singleton.mp hmem] at hwide
          revert hwide
          decide
      rcases List.eq_nil_or_concat' frag with rfl | ⟨l, d, rfl⟩
      · rw [List.append_nil] at hc
        exact absurd (List.dropLast_subset _ hc) hnone
      · rw [← List.append_assoc, List.dropLast_concat] at hc
        rw [List.dropLast_concat]
        exact (List.mem_append.mp hc).resolve_left hnone
  · push Not at hb
    obtain ⟨r, hr, hbr⟩ := hb
    exact readLines_logText_break hw ⟨r, hr, Bool.not_eq_true _ ▸ hbr⟩ frag

/-! ## The file

What a reader makes of a file that is still being written. -/

/-- What a reader makes of a beginning of the log. -/
theorem readJsonl_beginning (hw : ∀ r ∈ records, r.Writable)
    (hfile : file <+: utf8 (logText records)) :
    (Legible records file ∧
        readJsonl file = .ok ((wholeRecords records file.length).map fun r ↦ r.value.canon)) ∨
      ¬ Legible records file ∧ ∃ e, readJsonl file = .error e := by
  have htake : (utf8 (logText records)).take file.length = file :=
    (List.prefix_iff_eq_take.mp hfile).symm
  have hall := encodable_logText hw
  by_cases hk : OnBoundary (logText records) file.length
  · obtain ⟨frag, htext, henc, hfrag⟩ := exists_text hw hk
    rw [htake] at htext
    have hpiece : IsPiece frag := hfrag.imp_right fun ⟨r, hr, h⟩ ↦ ⟨r, hw r hr, h⟩
    have hwhole : ∀ r ∈ wholeRecords records file.length, r.Writable := fun r hr ↦
      hw r (wholeRecords_subset records _ hr)
    have hcr : cr ∉ logText (wholeRecords records file.length) ++ frag := by
      rw [List.mem_append, not_or]
      refine ⟨cr_not_mem_logText _, fun hmem ↦ ?_⟩
      obtain rfl | ⟨r, -, hr⟩ := hfrag
      · cases hmem
      · exact control_not_mem (by decide) (hr.subset hmem)
    have hread := readJsonl_utf8 henc hcr
    rw [← htext] at hread
    have hlegible : Legible records file ↔
        ∀ c ∈ (logText (wholeRecords records file.length) ++ frag).dropLast,
          Json.isWideBreak c = false := by
      constructor
      · rintro ⟨j, hj, hclean⟩
        rwa [utf8_injective (encodable_take hall j) henc (hj.symm.trans htext)] at hclean
      · intro hclean
        obtain ⟨j, hj⟩ := hk
        rw [htake] at hj
        refine ⟨j, hj, ?_⟩
        rwa [utf8_injective (encodable_take hall j) henc (hj.symm.trans htext)]
    by_cases hclean : ∀ c ∈ (logText (wholeRecords records file.length) ++ frag).dropLast,
        Json.isWideBreak c = false
    · exact .inl ⟨hlegible.mpr hclean, hread.trans (readLines_text hwhole hpiece hclean)⟩
    · refine .inr
        ⟨fun h ↦ hclean (hlegible.mp h), _, hread.trans (readLines_text_break hwhole hpiece ?_)⟩
      push Not at hclean
      obtain ⟨c, hc, hwide⟩ := hclean
      exact ⟨c, hc, Bool.not_eq_false _ ▸ hwide⟩
  · refine .inr ⟨?_, .unicodeDecodeError, ?_⟩
    · rintro ⟨j, hj, -⟩
      exact hk ⟨j, htake.trans hj⟩
    · rw [readJsonl]
      cases hd : decode file with
      | none => rfl
      | some text =>
        refine (hk ((decode_utf8_take hall _).mp ?_)).elim
        rw [htake, hd]
        rfl

end AtlasCore
