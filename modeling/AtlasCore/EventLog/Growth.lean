import AtlasCore.EventLog.Jsonl

/-!
# Reading a log that grows

A reader sees the file as it is at one moment, cut anywhere.  Whatever is in it, what is read of a
beginning of it is a beginning of what is read later.

A line that is not ended yet is not read, and one that is ended is not read in another way later; so
whoever polls the file sees the same records again, with more behind them (`readJsonl_grows`).  That
a reading may fail in between is not excluded here: the end of the file may be inside a character.
-/

set_option autoImplicit false

namespace AtlasCore

open Py

/-- The line was written without its end: the process was killed, or is still writing. -/
def IsTorn (line : Str) : Prop := endsWith line [lf] = false

/-- A line that is not the last is read whatever comes after it. -/
theorem readLines_cons {line : Str} {rest : List Str} (hrest : ¬ (IsTorn line ∧ rest = [])) :
    readLines (line :: rest) =
      if isBlank line then readLines rest
      else
        match Json.loads line with
        | none => .error .jsonDecodeError
        | some record => (record :: ·) <$> readLines rest := by
  rw [readLines]
  exact if_neg hrest

/-- A last line that is torn is not read. -/
theorem readLines_torn {line : Str} {rest : List Str} (hrest : IsTorn line ∧ rest = []) :
    readLines (line :: rest) = .ok [] := by
  rw [readLines]
  exact if_pos hrest

/-- Lines that were added, or one that was completed, leave the records before them. -/
theorem readLines_grows {tail after : List Str} (htail : ∀ l ∈ tail, IsTorn l)
    (hlength : tail.length ≤ 1) (hafter : tail ≠ [] → after ≠ []) :
    ∀ {done : List Str} {xs ys : List Json}, readLines (done ++ tail) = .ok xs →
      readLines (done ++ after) = .ok ys → xs <+: ys
  | [], xs, ys, hxs, _ => by
    have hnil : xs = [] := by
      match tail, hlength with
      | [], _ => exact (Except.ok.inj hxs).symm
      | [l], _ =>
        rw [List.nil_append, readLines_torn ⟨htail l List.mem_cons_self, rfl⟩] at hxs
        exact (Except.ok.inj hxs).symm
    rw [hnil]
    exact List.nil_prefix
  | l :: done, xs, ys, hxs, hys => by
    by_cases hlast : IsTorn l ∧ done ++ tail = []
    · rw [List.cons_append, readLines_torn hlast, Except.ok.injEq] at hxs
      rw [← hxs]
      exact List.nil_prefix
    have hmore : ¬ (IsTorn l ∧ done ++ after = []) := by
      rintro ⟨htorn, hnil⟩
      obtain ⟨rfl, rfl⟩ := List.append_eq_nil_iff.mp hnil
      refine hlast ⟨htorn, ?_⟩
      by_contra htail
      exact hafter htail rfl
    rw [List.cons_append, readLines_cons hlast] at hxs
    rw [List.cons_append, readLines_cons hmore] at hys
    split_ifs at hxs hys
    · exact readLines_grows htail hlength hafter hxs hys
    · cases hl : Json.loads l with
      | none =>
        rw [hl] at hxs
        cases hxs
      | some record =>
        rw [hl] at hxs hys
        cases hxs' : readLines (done ++ tail) with
        | error e =>
          rw [hxs'] at hxs
          cases hxs
        | ok xs' =>
          cases hys' : readLines (done ++ after) with
          | error e =>
            rw [hys'] at hys
            cases hys
          | ok ys' =>
            rw [hxs'] at hxs
            rw [hys'] at hys
            cases hxs
            cases hys
            exact List.cons_prefix_cons.mpr ⟨rfl, readLines_grows htail hlength hafter hxs' hys'⟩

/-- **What is read of a beginning of a file is a beginning of what is read of all of it.** -/
theorem readJsonl_grows {a b : Bytes} (h : a <+: b) {xs ys : List Json}
    (hxs : readJsonl a = .ok xs) (hys : readJsonl b = .ok ys) : xs <+: ys := by
  rw [readJsonl] at hxs hys
  cases ha : decode a with
  | none =>
    rw [ha] at hxs
    cases hxs
  | some s =>
    cases hb : decode b with
    | none =>
      rw [hb] at hys
      cases hys
    | some t =>
      rw [ha] at hxs
      rw [hb] at hys
      obtain ⟨more, hmore⟩ := universalNewlines_grows (decode_grows h ha hb)
      simp only [splitlinesKeep] at hxs hys
      rw [← hmore] at hys
      obtain ⟨done, last, hlast, hs, ht⟩ := @splitlinesFrom_grows more []
        (universalNewlines s) rfl (cr_not_mem_newlinesFrom false s)
      rw [hs] at hxs
      rw [ht] at hys
      refine readLines_grows ?_ ?_ ?_ hxs hys
      · intro l hl
        split_ifs at hl
        · cases hl
        · rw [List.mem_singleton.mp hl, IsTorn, Bool.eq_false_iff]
          intro hends
          rw [endsWith, List.isSuffixOf_iff_suffix] at hends
          exact oneLine_lf hlast (hends.subset List.mem_cons_self)
      · split_ifs <;> simp
      · intro hne
        exact splitlinesFrom_ne_nil (.inl fun hnil ↦ hne (if_pos hnil))

end AtlasCore
