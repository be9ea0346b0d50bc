import AtlasCore.Lib.JsonCanon

/-!
# What is read are dicts

`json.loads` builds every object as a dict, so a value that was read has no key twice
(`WF_of_loads`), whatever the text says.

The scanner assigns the pairs of an object one after the other, as Python does, and an assignment
under a key that is there replaces the value.  The proof follows the scanner, with one lemma for
each of the four functions that call each other.
-/

set_option autoImplicit false

namespace Py

namespace Json

variable {key : Str} {value v : Json} {fields pairs : Fields}

theorem WF_setField (h : WF (obj fields)) (hv : WF value) :
    WF (obj (setField key value fields)) := by
  induction fields with
  | nil => exact ⟨List.nodup_singleton _, hv, trivial⟩
  | cons p rest ih =>
    obtain ⟨k, w⟩ := p
    obtain ⟨hkeys, hw, hrest⟩ := h
    rw [List.map_cons, List.nodup_cons] at hkeys
    rw [setField]
    split_ifs with hk
    · exact ⟨List.nodup_cons.mpr hkeys, hv, hrest⟩
    · obtain ⟨hkeys', hfields⟩ := ih ⟨hkeys.2, hrest⟩
      refine ⟨List.nodup_cons.mpr ⟨fun hmem ↦ hkeys.1 ?_, hkeys'⟩, hw, hfields⟩
      -- an assignment adds no key but its own
      have hadds : ∀ {d : Fields} {x : Str}, x ∈ (setField key value d).map Prod.fst →
          x = key ∨ x ∈ d.map Prod.fst := by
        intro d x hx
        induction d with
        | nil => exact .inl (List.mem_singleton.mp hx)
        | cons q d ihd =>
          rw [setField] at hx
          split_ifs at hx
          · exact .inr hx
          · rcases List.mem_cons.mp hx with rfl | hx
            · exact .inr List.mem_cons_self
            · exact (ihd hx).imp_right (List.mem_cons_of_mem _)
      exact (hadds hmem).resolve_left hk

/-- A dict made of pairs has each of its keys once. -/
theorem WF_dictOf (h : WFFields pairs) : WF (obj (dictOf pairs)) := by
  suffices hfold : ∀ (ps acc : Fields), WFFields ps → WF (obj acc) →
      WF (obj (ps.foldl (fun d p ↦ setField p.1 p.2 d) acc)) from
    hfold pairs [] h ⟨List.nodup_nil, trivial⟩
  intro ps
  induction ps with
  | nil => exact fun acc _ hacc ↦ hacc
  | cons p ps ih => exact fun acc hps hacc ↦ ih _ hps.2 (WF_setField hacc hps.1)

theorem WF_of_scanNumber {neg : Bool} {s r : Str} (h : scanNumber neg s = some (v, r)) : WF v := by
  rw [scanNumber] at h
  split at h
  · cases h
  · dsimp only at h
    split_ifs at h
    all_goals
      rw [Option.some.injEq, Prod.mk.injEq] at h
      rw [← h.1]
      trivial

theorem WF_of_scanAtom {s r : Str} (h : scanAtom s = some (v, r)) : WF v := by
  rw [scanAtom] at h
  split at h
  iterate 6
    · rw [Option.some.injEq, Prod.mk.injEq] at h
      rw [← h.1]
      trivial
  · exact WF_of_scanNumber h
  · exact WF_of_scanNumber h

mutual
theorem WF_of_scanValue : ∀ {n : ℕ} {s r : Str} {v : Json}, scanValue n s = some (v, r) → WF v
  | 0, _, _, _, h => absurd h (by simp [scanValue])
  | _ + 1, [], _, _, h => absurd h (by simp [scanValue])
  | n + 1, c :: s, r, v, h => by
    rw [scanValue] at h
    split_ifs at h
    · obtain ⟨p, -, he⟩ := Option.map_eq_some_iff.mp h
      rw [← (Prod.mk.inj he).1]
      trivial
    · split at h
      · cases h
      · split_ifs at h
        · rw [← (Prod.mk.inj (Option.some.inj h)).1]
          trivial
        · obtain ⟨p, hp, he⟩ := Option.map_eq_some_iff.mp h
          rw [← (Prod.mk.inj he).1]
          exact WF_of_scanItems hp
    · split at h
      · cases h
      · split_ifs at h
        · rw [← (Prod.mk.inj (Option.some.inj h)).1]
          exact ⟨List.nodup_nil, trivial⟩
        · obtain ⟨p, hp, he⟩ := Option.map_eq_some_iff.mp h
          rw [← (Prod.mk.inj he).1]
          exact WF_dictOf (WF_of_scanFields hp)
    · exact WF_of_scanAtom h

theorem WF_of_scanItems : ∀ {n : ℕ} {s : Str} {p : List Json × Str}, scanItems n s = some p →
    WFItems p.1
  | 0, _, _, h => absurd h (by simp [scanItems])
  | n + 1, s, p, h => by
    rw [scanItems] at h
    split at h
    · cases h
    · rename_i v r hv
      split at h
      · cases h
      · split_ifs at h
        · rw [← Option.some.inj h]
          exact ⟨WF_of_scanValue hv, trivial⟩
        · obtain ⟨q, hq, he⟩ := Option.map_eq_some_iff.mp h
          rw [← he]
          exact ⟨WF_of_scanValue hv, WF_of_scanItems hq⟩

theorem WF_of_scanFields : ∀ {n : ℕ} {s : Str} {p : Fields × Str}, scanFields n s = some p →
    WFFields p.1
  | 0, _, _, h => absurd h (by simp [scanFields])
  | _ + 1, [], _, h => absurd h (by simp [scanFields])
  | n + 1, q :: s, p, h => by
    rw [scanFields] at h
    split_ifs at h
    split at h
    · cases h
    · split at h
      · cases h
      · split_ifs at h
        split at h
        · cases h
        · rename_i v r2 hv
          split at h
          · cases h
          · split_ifs at h
            · rw [← Option.some.inj h]
              exact ⟨WF_of_scanValue hv, trivial⟩
            · obtain ⟨q, hq, he⟩ := Option.map_eq_some_iff.mp h
              rw [← he]
              exact ⟨WF_of_scanValue hv, WF_of_scanFields hq⟩
end

/-- **A value that was read has no key twice.** -/
theorem WF_of_loads {s : Str} (h : loads s = some v) : WF v := by
  rw [loads] at h
  split at h
  · rename_i hscan
    split_ifs at h
    rw [← Option.some.inj h]
    exact WF_of_scanValue hscan
  · cases h

end Json

end Py
