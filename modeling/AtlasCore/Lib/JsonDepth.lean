import AtlasCore.Lib.JsonDecode
import AtlasCore.Lib.JsonRoundTrip

/-!
# How deep a value is

`json.loads` gives up on containers that are nested too deep, and on integers of too many digits.
A value that it did read has neither (`depth_le_of_decode`, `every_of_loads`), and of the text that
`json.dumps` writes for such a value it reads everything again (`trouble_dumpsIndented`).

The depth of a value counts the containers around its deepest part.  The scanner counts in the same
way while it reads, so the two can be compared: more fuel does not change what is read, and what is
opened in the text is opened in the value.
-/

set_option autoImplicit false

namespace Py

namespace Json

mutual
/-- How many containers stand inside each other, which is what the nesting limit counts. -/
def depth : Json → ℕ
  | null => 0
  | bool _ => 0
  | int _ => 0
  | float _ => 0
  | str _ => 0
  | arr items => depthItems items + 1
  | obj fields => depthFields fields + 1

/-- The depth of the deepest item, or nothing where there is none. -/
def depthItems : List Json → ℕ
  | [] => 0
  | v :: rest => max (depth v) (depthItems rest)

/-- The depth of the deepest field, or nothing where there is none. -/
def depthFields : Fields → ℕ
  | [] => 0
  | (_, v) :: rest => max (depth v) (depthFields rest)
end

variable {key : Str} {value v : Json} {fields pairs : Fields} {n : ℕ}

theorem depth_le_depthFields {p : Str × Json} (h : p ∈ fields) :
    depth p.2 ≤ depthFields fields := by
  induction fields with
  | nil => cases h
  | cons q rest ih =>
    obtain ⟨k, w⟩ := q
    rw [depthFields]
    rcases List.mem_cons.mp h with rfl | h
    · exact le_max_left _ _
    · exact (ih h).trans (le_max_right _ _)

/-! ## A dict of pairs

A dict is no deeper than the pairs it is built of. -/

theorem depthFields_setField (hf : depthFields fields ≤ n) (hv : depth value ≤ n) :
    depthFields (setField key value fields) ≤ n := by
  induction fields with
  | nil => exact max_le hv (Nat.zero_le n)
  | cons p rest ih =>
    obtain ⟨k, w⟩ := p
    rw [depthFields, Nat.max_le] at hf
    rw [setField]
    split_ifs
    · exact max_le hv hf.2
    · exact max_le hf.1 (ih hf.2)

theorem depthFields_dictOf (h : depthFields pairs ≤ n) : depthFields (dictOf pairs) ≤ n := by
  suffices hfold : ∀ ps acc : Fields, depthFields ps ≤ n → depthFields acc ≤ n →
      depthFields (ps.foldl (fun d p ↦ setField p.1 p.2 d) acc) ≤ n from
    hfold pairs [] h (Nat.zero_le n)
  intro ps
  induction ps with
  | nil => exact fun _ _ hacc ↦ hacc
  | cons p ps ih =>
    intro acc hps hacc
    rw [depthFields, Nat.max_le] at hps
    exact ih _ hps.2 (depthFields_setField hacc hps.1)

variable {pInt : ℤ → Bool}

theorem everyField_setField (hf : everyField pInt (fun _ ↦ true) fields = true)
    (hv : every pInt (fun _ ↦ true) value = true) :
    everyField pInt (fun _ ↦ true) (setField key value fields) = true := by
  induction fields with
  | nil => simpa [setField, everyField] using hv
  | cons p rest ih =>
    obtain ⟨k, w⟩ := p
    rw [everyField, Bool.true_and, Bool.and_eq_true] at hf
    rw [setField]
    split_ifs
    · simp [everyField, hv, hf.2]
    · simp [everyField, hf.1, ih hf.2]

theorem everyField_dictOf (h : everyField pInt (fun _ ↦ true) pairs = true) :
    everyField pInt (fun _ ↦ true) (dictOf pairs) = true := by
  suffices hfold : ∀ ps acc : Fields, everyField pInt (fun _ ↦ true) ps = true →
      everyField pInt (fun _ ↦ true) acc = true →
      everyField pInt (fun _ ↦ true) (ps.foldl (fun d p ↦ setField p.1 p.2 d) acc) = true from
    hfold pairs [] h rfl
  intro ps
  induction ps with
  | nil => exact fun _ _ hacc ↦ hacc
  | cons p ps ih =>
    intro acc hps hacc
    rw [everyField, Bool.true_and, Bool.and_eq_true] at hps
    exact ih _ hps.2 (everyField_setField hacc hps.1)

theorem every_of_mem {p : Str × Json} (h : everyField pInt (fun _ ↦ true) fields = true)
    (hp : p ∈ fields) : every pInt (fun _ ↦ true) p.2 = true := by
  induction fields with
  | nil => cases hp
  | cons q rest ih =>
    obtain ⟨k, w⟩ := q
    rw [everyField, Bool.true_and, Bool.and_eq_true] at h
    rcases List.mem_cons.mp hp with rfl | hp
    · exact h.1
    · exact ih h.2 hp

/-! ## The integers of a value that was read -/

theorem ofDigits_lt (ds : List (Fin 10)) (acc : ℕ) :
    ofDigits acc ds < (acc + 1) * 10 ^ ds.length := by
  induction ds generalizing acc with
  | nil => simp [ofDigits]
  | cons d ds ih =>
    have hd := d.isLt
    rw [ofDigits, List.length_cons, Nat.pow_succ']
    calc ofDigits (10 * acc + d.val) ds < (10 * acc + d.val + 1) * 10 ^ ds.length := ih _
      _ ≤ ((acc + 1) * 10) * 10 ^ ds.length := Nat.mul_le_mul_right _ (by omega)
      _ = (acc + 1) * (10 * 10 ^ ds.length) := Nat.mul_assoc _ _ _

/-- A number below a power of ten has no more digits than the power has zeros. -/
theorem length_digitsAux_of_lt : ∀ {fuel m k : ℕ}, m < 10 ^ (k + 1) →
    (digitsAux fuel m).length ≤ k + 1
  | 0, _, _, _ => Nat.zero_le _
  | fuel + 1, m, k, h => by
    rw [digitsAux]
    split_ifs with hm
    · exact Nat.le_add_left 1 k
    · cases k with
      | zero => exact absurd (by simpa using h) hm
      | succ k =>
        rw [List.length_append]
        refine Nat.add_le_add_right (length_digitsAux_of_lt (Nat.div_lt_of_lt_mul ?_)) 1
        rwa [Nat.pow_succ'] at h

theorem length_digits_ofDigits {ds : List (Fin 10)} (h : ds ≠ []) :
    (digits (ofDigits 0 ds)).length ≤ ds.length := by
  obtain ⟨k, hk⟩ := Nat.exists_eq_succ_of_ne_zero (List.length_pos_of_ne_nil h).ne'
  rw [hk]
  refine length_digitsAux_of_lt ?_
  have hlt := ofDigits_lt ds 0
  rwa [Nat.zero_add, Nat.one_mul, hk] at hlt

theorem ne_nil_of_scanWhole {s r : Str} {ds : List (Fin 10)} (h : scanWhole s = some (ds, r)) :
    ds ≠ [] := by
  cases s with
  | nil => cases h
  | cons c s =>
    rw [scanWhole] at h
    cases hd : digitOf c with
    | none =>
      rw [hd] at h
      cases h
    | some d =>
      rw [hd] at h
      dsimp only at h
      split_ifs at h
      · rw [← (Prod.mk.inj (Option.some.inj h)).1]
        exact List.cons_ne_nil _ _
      · rw [spanDigits, hd] at h
        rw [← (Prod.mk.inj (Option.some.inj h)).1]
        exact List.cons_ne_nil _ _

theorem natAbs_signed (neg : Bool) (m : ℕ) : (signed neg m).natAbs = m := by
  rw [signed]
  split_ifs
  · rw [Int.natAbs_neg, Int.natAbs_natCast]
  · exact Int.natAbs_natCast m

theorem every_of_scanNumber {neg : Bool} {s r : Str} (h : scanNumber neg s = some (v, r)) :
    every intFits (fun _ ↦ true) v = true := by
  rw [scanNumber] at h
  split at h
  · cases h
  · rename_i ds r' hwhole
    dsimp only at h
    split_ifs at h with hfloat hlong
    · rw [← (Prod.mk.inj (Option.some.inj h)).1]
      rfl
    · rw [← (Prod.mk.inj (Option.some.inj h)).1, every, intFits, natAbs_signed, decide_eq_true_eq]
      exact (length_digits_ofDigits (ne_nil_of_scanWhole hwhole)).trans hlong

theorem every_of_scanAtom {s r : Str} (h : scanAtom s = some (v, r)) :
    every intFits (fun _ ↦ true) v = true := by
  rw [scanAtom] at h
  split at h
  iterate 6
    · rw [← (Prod.mk.inj (Option.some.inj h)).1]
      rfl
  · exact every_of_scanNumber h
  · exact every_of_scanNumber h

mutual
theorem every_of_scanValue : ∀ {m : ℕ} {s r : Str} {v : Json}, scanValue m s = some (v, r) →
    every intFits (fun _ ↦ true) v = true
  | 0, _, _, _, h => by cases h
  | _ + 1, [], _, _, h => by cases h
  | m + 1, c :: s, r, v, h => by
    rw [scanValue] at h
    split_ifs at h
    · obtain ⟨p, -, he⟩ := Option.map_eq_some_iff.mp h
      rw [← (Prod.mk.inj he).1]
      rfl
    · split at h
      · cases h
      · split_ifs at h
        · rw [← (Prod.mk.inj (Option.some.inj h)).1]
          rfl
        · obtain ⟨p, hp, he⟩ := Option.map_eq_some_iff.mp h
          rw [← (Prod.mk.inj he).1]
          exact every_of_scanItems hp
    · split at h
      · cases h
      · split_ifs at h
        · rw [← (Prod.mk.inj (Option.some.inj h)).1]
          rfl
        · obtain ⟨p, hp, he⟩ := Option.map_eq_some_iff.mp h
          rw [← (Prod.mk.inj he).1]
          exact everyField_dictOf (every_of_scanFields hp)
    · exact every_of_scanAtom h

theorem every_of_scanItems : ∀ {m : ℕ} {s : Str} {p : List Json × Str}, scanItems m s = some p →
    everyItem intFits (fun _ ↦ true) p.1 = true
  | 0, _, _, h => by cases h
  | m + 1, s, p, h => by
    rw [scanItems] at h
    split at h
    · cases h
    · rename_i v r hv
      have hitem := every_of_scanValue hv
      split at h
      · cases h
      · split_ifs at h
        · rw [← Option.some.inj h]
          simp [everyItem, hitem]
        · obtain ⟨q, hq, he⟩ := Option.map_eq_some_iff.mp h
          rw [← he]
          simp [everyItem, hitem, every_of_scanItems hq]

theorem every_of_scanFields : ∀ {m : ℕ} {s : Str} {p : Fields × Str}, scanFields m s = some p →
    everyField intFits (fun _ ↦ true) p.1 = true
  | 0, _, _, h => by cases h
  | _ + 1, [], _, h => by cases h
  | m + 1, q :: s, p, h => by
    rw [scanFields] at h
    split_ifs at h
    split at h
    · cases h
    · split at h
      · cases h
      · split_ifs at h
        split at h
        · cases h
        · rename_i v r2 hv
          have hfield := every_of_scanValue hv
          split at h
          · cases h
          · split_ifs at h
            · rw [← Option.some.inj h]
              simp [everyField, hfield]
            · obtain ⟨q, hq, he⟩ := Option.map_eq_some_iff.mp h
              rw [← he]
              simp [everyField, hfield, every_of_scanFields hq]
end

/-- A value that was read has no integer that cannot be written. -/
theorem every_of_loads {s : Str} (h : loads s = some v) :
    every intFits (fun _ ↦ true) v = true := by
  rw [loads] at h
  split at h
  · rename_i hscan
    split_ifs at h
    rw [← Option.some.inj h]
    exact every_of_scanValue hscan
  · cases h

/-! ## More fuel

The fuel of the scanner only has to be enough; how much it is does not show in the value. -/

mutual
/-- More fuel reads the same value. -/
theorem scanValue_succ : ∀ {m : ℕ} {s : Str} {p : Json × Str}, scanValue m s = some p →
    scanValue (m + 1) s = some p
  | 0, _, _, h => by cases h
  | _ + 1, [], _, h => by cases h
  | m + 1, c :: s, p, h => by
    rw [scanValue] at h ⊢
    split_ifs at h ⊢
    · exact h
    · split at h
      · cases h
      · split_ifs at h ⊢
        · exact h
        · obtain ⟨q, hq, he⟩ := Option.map_eq_some_iff.mp h
          rw [scanItems_succ hq, ← he]
          rfl
    · split at h
      · cases h
      · split_ifs at h ⊢
        · exact h
        · obtain ⟨q, hq, he⟩ := Option.map_eq_some_iff.mp h
          rw [scanFields_succ hq, ← he]
          rfl
    · exact h

theorem scanItems_succ : ∀ {m : ℕ} {s : Str} {p : List Json × Str}, scanItems m s = some p →
    scanItems (m + 1) s = some p
  | 0, _, _, h => by cases h
  | m + 1, s, p, h => by
    rw [scanItems] at h
    rw [scanItems]
    split at h
    · cases h
    · rename_i v r hv
      rw [scanValue_succ hv]
      dsimp only
      split at h
      · cases h
      · split_ifs at h ⊢
        · exact h
        · obtain ⟨q, hq, he⟩ := Option.map_eq_some_iff.mp h
          rw [scanItems_succ hq, ← he]
          rfl

theorem scanFields_succ : ∀ {m : ℕ} {s : Str} {p : Fields × Str}, scanFields m s = some p →
    scanFields (m + 1) s = some p
  | 0, _, _, h => by cases h
  | _ + 1, [], _, h => by cases h
  | m + 1, q :: s, p, h => by
    rw [scanFields] at h ⊢
    split_ifs at h ⊢
    split at h
    · cases h
    · split at h
      · cases h
      · split_ifs at h ⊢
        split at h
        · cases h
        · rename_i v r2 hv
          rw [scanValue_succ hv]
          dsimp only
          split at h
          · cases h
          · split_ifs at h ⊢
            · exact h
            · obtain ⟨q, hq, he⟩ := Option.map_eq_some_iff.mp h
              rw [scanFields_succ hq, ← he]
              rfl
end

theorem scanValue_mono {m k : ℕ} (hmk : m ≤ k) {s : Str} {p : Json × Str}
    (h : scanValue m s = some p) : scanValue k s = some p := by
  induction hmk with
  | refl => exact h
  | step _ ih => exact scanValue_succ ih

/-! ## What was read is not too deep

The value that was read has no more containers inside each other than the scanner allows. -/

theorem depth_of_scanNumber {neg : Bool} {s r : Str} (h : scanNumber neg s = some (v, r)) :
    depth v = 0 := by
  rw [scanNumber] at h
  split at h
  · cases h
  · dsimp only at h
    split_ifs at h
    all_goals
      rw [← (Prod.mk.inj (Option.some.inj h)).1]
      rfl

theorem depth_of_scanAtom {s r : Str} (h : scanAtom s = some (v, r)) : depth v = 0 := by
  rw [scanAtom] at h
  split at h
  iterate 6
    · rw [← (Prod.mk.inj (Option.some.inj h)).1]
      rfl
  · exact depth_of_scanNumber h
  · exact depth_of_scanNumber h

/-- The first of two that finds nothing leaves the second to find nothing. -/
theorem orElse_eq_none {α : Type*} {x : Option α} {f : Unit → Option α}
    (h : (x.orElse f) = none) : x = none ∧ f () = none := by
  cases x with
  | none => exact ⟨rfl, h⟩
  | some a => cases h

mutual
theorem depth_le_of_scanValue : ∀ {m n : ℕ} {s r : Str} {v : Json}, troubleValue n m s = none →
    scanValue m s = some (v, r) → depth v ≤ n
  | 0, _, _, _, _, _, h => by cases h
  | _ + 1, _, [], _, _, _, h => by cases h
  | m + 1, n, c :: s, r, v, ht, h => by
    rw [scanValue] at h
    rw [troubleValue.eq_def] at ht
    dsimp only at ht
    by_cases hquote : c = quote
    · rw [if_pos hquote] at h
      obtain ⟨p, -, he⟩ := Option.map_eq_some_iff.mp h
      rw [← (Prod.mk.inj he).1]
      exact Nat.zero_le n
    rw [if_neg hquote] at h ht
    by_cases harr : c = ch '['
    · rw [if_pos harr] at h
      rw [if_pos (.inl harr)] at ht
      cases n with
      | zero => cases ht
      | succ n =>
        dsimp only at ht
        rw [if_pos harr] at ht
        split at h
        · cases h
        · rename_i d after hskip
          rw [hskip] at ht
          dsimp only at ht
          split_ifs at h ht
          · rw [← (Prod.mk.inj (Option.some.inj h)).1]
            exact Nat.le_add_left 1 n
          · obtain ⟨p, hp, he⟩ := Option.map_eq_some_iff.mp h
            rw [← (Prod.mk.inj he).1]
            exact Nat.add_le_add_right (depthItems_le_of_scanItems ht hp) 1
    rw [if_neg harr] at h
    by_cases hobj : c = ch '{'
    · rw [if_pos hobj] at h
      rw [if_pos (.inr hobj)] at ht
      cases n with
      | zero => cases ht
      | succ n =>
        dsimp only at ht
        rw [if_neg harr] at ht
        split at h
        · cases h
        · rename_i d after hskip
          rw [hskip] at ht
          dsimp only at ht
          split_ifs at h ht
          · rw [← (Prod.mk.inj (Option.some.inj h)).1]
            exact Nat.le_add_left 1 n
          · obtain ⟨p, hp, he⟩ := Option.map_eq_some_iff.mp h
            rw [← (Prod.mk.inj he).1]
            exact Nat.add_le_add_right
              (depthFields_dictOf (depthFields_le_of_scanFields ht hp)) 1
    rw [if_neg hobj] at h
    rw [depth_of_scanAtom h]
    exact Nat.zero_le n

theorem depthItems_le_of_scanItems : ∀ {m n : ℕ} {s : Str} {p : List Json × Str},
    troubleItems n m s = none → scanItems m s = some p → depthItems p.1 ≤ n
  | 0, _, _, _, _, h => by cases h
  | m + 1, n, s, p, ht, h => by
    rw [scanItems] at h
    rw [troubleItems] at ht
    obtain ⟨hfirst, hrest⟩ := orElse_eq_none ht
    split at h
    · cases h
    · rename_i v r hv
      have hitem := depth_le_of_scanValue hfirst hv
      rw [hv] at hrest
      dsimp only at hrest
      split at h
      · cases h
      · rename_i c after hskip
        rw [hskip] at hrest
        dsimp only at hrest
        split_ifs at h hrest
        · rw [← Option.some.inj h]
          exact max_le hitem (Nat.zero_le n)
        · rw [← Option.some.inj h]
          exact max_le hitem (Nat.zero_le n)
        · obtain ⟨q, hq, he⟩ := Option.map_eq_some_iff.mp h
          rw [← he]
          exact max_le hitem (depthItems_le_of_scanItems hrest hq)

theorem depthFields_le_of_scanFields : ∀ {m n : ℕ} {s : Str} {p : Fields × Str},
    troubleFields n m s = none → scanFields m s = some p → depthFields p.1 ≤ n
  | 0, _, _, _, _, h => by cases h
  | _ + 1, _, [], _, _, h => by cases h
  | m + 1, n, q :: s, p, ht, h => by
    rw [scanFields] at h
    rw [troubleFields] at ht
    split_ifs at h ht
    split at h
    · cases h
    · rename_i k r hk
      rw [hk] at ht
      dsimp only at ht
      split at h
      · cases h
      · rename_i colon r1 hcolon
        rw [hcolon] at ht
        dsimp only at ht
        split_ifs at h ht
        obtain ⟨hfirst, hrest⟩ := orElse_eq_none ht
        split at h
        · cases h
        · rename_i v r2 hv
          have hfield := depth_le_of_scanValue hfirst hv
          rw [hv] at hrest
          dsimp only at hrest
          split at h
          · cases h
          · rename_i c after hskip
            rw [hskip] at hrest
            dsimp only at hrest
            split_ifs at h hrest
            · rw [← Option.some.inj h]
              exact max_le hfield (Nat.zero_le n)
            · rw [← Option.some.inj h]
              exact max_le hfield (Nat.zero_le n)
            · obtain ⟨q, hq, he⟩ := Option.map_eq_some_iff.mp h
              rw [← he]
              exact max_le hfield (depthFields_le_of_scanFields hrest hq)
end

/-- A value that was read from a whole text is no deeper than what may be opened. -/
theorem depth_le_of_decode {s : Str} (h : decode n s = .ok v) : depth v ≤ n := by
  have hl := loads_of_decode h
  rw [decode] at h
  split at h
  · cases h
  · rename_i ht
    rw [trouble] at ht
    rw [loads] at hl
    split at hl
    · rename_i w r hscan
      split_ifs at hl
      rw [← Option.some.inj hl]
      exact depth_le_of_scanValue ht (scanValue_mono (by omega) hscan)
    · cases hl

/-! ## What is written is no trouble

The text of a value that is not too deep, with integers that are not too long, is read without
giving up. -/

theorem overlong_of_scanNumber {neg : Bool} {s : Str} {p : Json × Str}
    (h : scanNumber neg s = some p) : overlong s = false := by
  rw [scanNumber] at h
  rw [overlong]
  cases hwhole : scanWhole s with
  | none => rfl
  | some q =>
    rw [hwhole] at h
    dsimp only at h ⊢
    split_ifs at h with hfloat hlong
    · rcases hfloat with hfrac | hexp
      · rw [decide_eq_false hfrac, Bool.false_and, Bool.false_and]
      · rw [Option.isNone_eq_false_iff.mpr (Option.isSome_iff_ne_none.mpr hexp), Bool.and_false,
          Bool.false_and]
    · rw [decide_eq_false (Nat.not_lt.mpr hlong), Bool.and_false]

theorem eq_append_of_dropPrefix {lit s r : Str} (h : dropPrefix lit s = some r) : s = lit ++ r := by
  induction lit generalizing s with
  | nil => exact Option.some.inj h
  | cons c lit ih =>
    cases s with
    | nil => cases h
    | cons d s =>
      rw [dropPrefix] at h
      split_ifs at h with hcd
      rw [hcd, ih h, List.cons_append]

theorem overlong_of_scanAtom {s : Str} {p : Json × Str} (h : scanAtom s = some p) :
    overlong ((dropPrefix (Py.str "-") s).getD s) = false := by
  rw [scanAtom] at h
  split at h
  iterate 6
    · rename_i hlit
      rw [eq_append_of_dropPrefix hlit]
      rfl
  · rename_i hminus
    rw [hminus]
    exact overlong_of_scanNumber h
  · rename_i hminus
    rw [hminus]
    exact overlong_of_scanNumber h

/-- What an opening bracket reads as is a container. -/
theorem depth_pos_of_scanValue {m : ℕ} {c : CodePoint} {s r : Str}
    (hc : c = ch '[' ∨ c = ch '{') (h : scanValue m (c :: s) = some (v, r)) : 0 < depth v := by
  cases m with
  | zero => cases h
  | succ m =>
    rw [scanValue, if_neg (by rintro rfl; revert hc; decide)] at h
    split_ifs at h
    · split at h
      · cases h
      · split_ifs at h
        · rw [← (Prod.mk.inj (Option.some.inj h)).1]
          exact Nat.succ_pos _
        · obtain ⟨p, -, he⟩ := Option.map_eq_some_iff.mp h
          rw [← (Prod.mk.inj he).1]
          exact Nat.succ_pos _
    · split at h
      · cases h
      · split_ifs at h
        · rw [← (Prod.mk.inj (Option.some.inj h)).1]
          exact Nat.succ_pos _
        · obtain ⟨p, -, he⟩ := Option.map_eq_some_iff.mp h
          rw [← (Prod.mk.inj he).1]
          exact Nat.succ_pos _
    · rename_i harr hobj
      exact (hc.elim harr hobj).elim

/-- Where something that is no container was read there is nothing to give up on. -/
theorem trouble_of_scanValue {m k : ℕ} {s r : Str} (h : scanValue m s = some (v, r))
    (hv : depth v = 0) : troubleValue n k s = none := by
  cases k with
  | zero => rw [troubleValue]
  | succ k =>
    cases s with
    | nil => rw [troubleValue]
    | cons c s =>
      have hopens : ¬ (c = ch '[' ∨ c = ch '{') := fun hc ↦
        (depth_pos_of_scanValue hc h).ne' hv
      rw [troubleValue.eq_def]
      dsimp only
      rw [if_neg hopens]
      split_ifs with hquote hlong
      · rfl
      · cases m with
        | zero => cases h
        | succ m =>
          rw [scanValue, if_neg hquote, if_neg fun hc ↦ hopens (.inl hc),
            if_neg fun hc ↦ hopens (.inr hc)] at h
          rw [overlong_of_scanAtom h] at hlong
          cases hlong
      · rfl

variable {L : Layout}

/-- The text of the value is read to its end, whatever follows that does not go on a number. -/
def Untroubled (L : Layout) (n : ℕ) (v : Json) : Prop :=
  ∀ level m r, size v ≤ m → Stops r → troubleValue n m (write L level v ++ r) = none

theorem untroubled_of_depth (hr : Reads L v) (hv : depth v = 0) : Untroubled L n v :=
  fun level m r hm hs ↦ trouble_of_scanValue (hr level m r hm hs) hv

theorem untroubled_items : ∀ (rest : List Json) (v : Json), Reads L v → Untroubled L n v →
    (∀ w ∈ rest, Reads L w ∧ Untroubled L n w) → ∀ level m r, sizeItems (v :: rest) ≤ m →
    troubleItems n m (write L (level + 1) v ++ (writeItems L level rest ++ r)) = none
  | rest, v, hv, hcalm, hrest, level, m, r, hm => by
    rw [sizeItems] at hm
    obtain ⟨m, rfl⟩ : ∃ k, m = k + 1 := ⟨m - 1, by omega⟩
    have hstops : Stops (writeItems L level rest ++ r) := stops_writeItems rest r
    rw [troubleItems, hcalm (level + 1) m _ (by omega) hstops, Option.orElse_none,
      hv (level + 1) m _ (by omega) hstops]
    dsimp only
    cases rest with
    | nil =>
      rw [writeItems, List.append_assoc, skipWs_blank (L.closes level), List.singleton_append,
        skipWs_cons (by decide)]
      dsimp only
      rw [if_neg (by decide)]
    | cons w rest =>
      have hw := hrest w List.mem_cons_self
      rw [writeItems, List.cons_append, skipWs_cons (by decide)]
      dsimp only
      rw [if_pos rfl, List.append_assoc, skipWs_blank (L.separates level), List.append_assoc,
        skipWs_write]
      exact untroubled_items rest w hw.1 hw.2 (fun x hx ↦ hrest x (List.mem_cons_of_mem w hx))
        level m r (by omega)

theorem untroubled_fields : ∀ (rest : Fields) (k : Str) (v : Json), Reads L v → Untroubled L n v →
    (∀ p ∈ rest, Reads L p.2 ∧ Untroubled L n p.2) → ∀ level m r, sizeFields ((k, v) :: rest) ≤ m →
    troubleFields n m (renderString k ++ (Py.str ": " ++
      (write L (level + 1) v ++ (writeFields L level rest ++ r)))) = none
  | rest, k, v, hv, hcalm, hrest, level, m, r, hm => by
    rw [sizeFields] at hm
    obtain ⟨m, rfl⟩ : ∃ k, m = k + 1 := ⟨m - 1, by omega⟩
    have hstops : Stops (writeFields L level rest ++ r) := stops_writeFields rest r
    rw [renderString_append, colon_str, troubleFields, if_neg (by simp), scanString_render]
    dsimp only
    rw [List.cons_append, skipWs_cons (by decide)]
    dsimp only
    rw [if_neg (by simp), List.cons_append, List.nil_append, skipWs_space, skipWs_write,
      hcalm (level + 1) m _ (by omega) hstops, Option.orElse_none,
      hv (level + 1) m _ (by omega) hstops]
    dsimp only
    cases rest with
    | nil =>
      rw [writeFields, List.append_assoc, skipWs_blank (L.closes level), List.singleton_append,
        skipWs_cons (by decide)]
      dsimp only
      rw [if_neg (by decide)]
    | cons p rest =>
      obtain ⟨l, w⟩ := p
      have hw := hrest (l, w) List.mem_cons_self
      rw [writeFields, List.cons_append, skipWs_cons (by decide)]
      dsimp only
      rw [if_pos rfl, List.append_assoc, skipWs_blank (L.separates level), List.append_assoc,
        List.append_assoc, List.append_assoc, skipWs_renderString]
      exact untroubled_fields rest l w hw.1 hw.2
        (fun x hx ↦ hrest x (List.mem_cons_of_mem (l, w) hx))
        level m r (by omega)

mutual
/-- A value that is not too deep is written as a text that is read to its end. -/
theorem untroubled : ∀ {v : Json} {n : ℕ}, WF v → every intFits (fun _ ↦ true) v = true →
    depth v ≤ n → Untroubled L n v
  | .null, _, hw, hf, _ => untroubled_of_depth (reads hw hf) rfl
  | .bool _, _, hw, hf, _ => untroubled_of_depth (reads hw hf) rfl
  | .int _, _, hw, hf, _ => untroubled_of_depth (reads hw hf) rfl
  | .float _, _, hw, hf, _ => untroubled_of_depth (reads hw hf) rfl
  | .str _, _, hw, hf, _ => untroubled_of_depth (reads hw hf) rfl
  | .arr items, 0, _, _, hn => by
    rw [depth] at hn
    omega
  | .obj fields, 0, _, _, hn => by
    rw [depth] at hn
    omega
  | .arr [], n + 1, _, _, _ => by
    intro level m r hm _
    rw [size] at hm
    obtain ⟨m, rfl⟩ : ∃ k, m = k + 1 := ⟨m - 1, by omega⟩
    rw [write, render]
    rfl
  | .obj [], n + 1, _, _, _ => by
    intro level m r hm _
    rw [size] at hm
    obtain ⟨m, rfl⟩ : ∃ k, m = k + 1 := ⟨m - 1, by omega⟩
    rw [write, render]
    rfl
  | .arr (v :: rest), n + 1, hw, hf, hn => by
    intro level m r hm _
    rw [size] at hm
    obtain ⟨m, rfl⟩ : ∃ k, m = k + 1 := ⟨m - 1, by omega⟩
    rw [WF] at hw
    rw [every] at hf
    have hreads := readsItems (L := L) hw hf
    have hcalm := untroubledItems hw hf (Nat.le_of_succ_le_succ hn)
    have hitems := untroubled_items rest v (hreads v List.mem_cons_self)
      (hcalm v List.mem_cons_self)
      (fun w hmem ↦ ⟨hreads w (List.mem_cons_of_mem v hmem), hcalm w (List.mem_cons_of_mem v hmem)⟩)
      level m r (by omega)
    obtain ⟨c, t, hv, hc⟩ := write_cons L (level + 1) v
    rw [hv, List.cons_append] at hitems
    rw [write, hv, List.cons_append, troubleValue, if_neg (by decide), if_pos (.inl rfl),
      if_pos rfl, List.append_assoc, skipWs_blank (L.opens level), List.cons_append,
      List.cons_append, List.append_assoc, skipWs_cons (isWs_of_startsValue hc)]
    dsimp only
    rw [if_neg (ne_close_of_startsValue hc), hitems]
  | .obj ((k, v) :: rest), n + 1, hw, hf, hn => by
    intro level m r hm _
    rw [size] at hm
    obtain ⟨m, rfl⟩ : ∃ k, m = k + 1 := ⟨m - 1, by omega⟩
    rw [WF] at hw
    rw [every] at hf
    have hreads := readsFields (L := L) hw.2 hf
    have hcalm := untroubledFields hw.2 hf (Nat.le_of_succ_le_succ hn)
    have hfields := untroubled_fields rest k v (hreads (k, v) List.mem_cons_self)
      (hcalm (k, v) List.mem_cons_self)
      (fun p hmem ↦ ⟨hreads p (List.mem_cons_of_mem _ hmem), hcalm p (List.mem_cons_of_mem _ hmem)⟩)
      level m r (by omega)
    rw [write, List.cons_append, troubleValue, if_neg (by decide), if_pos (.inr rfl),
      if_neg (by decide), List.append_assoc, skipWs_blank (L.opens level), List.append_assoc,
      List.append_assoc, List.append_assoc, skipWs_renderString]
    rw [renderString_append] at hfields ⊢
    dsimp only
    rw [if_neg (by decide), hfields]

theorem untroubledItems : ∀ {items : List Json} {n : ℕ}, WFItems items →
    everyItem intFits (fun _ ↦ true) items = true → depthItems items ≤ n →
    ∀ v ∈ items, Untroubled L n v
  | [], _, _, _, _ => fun v hv ↦ absurd hv List.not_mem_nil
  | v :: rest, n, hw, hf, hn => by
    rw [WFItems] at hw
    rw [everyItem, Bool.and_eq_true] at hf
    rw [depthItems, Nat.max_le] at hn
    intro w hm
    rcases List.mem_cons.mp hm with heq | hm
    · rw [heq]; exact untroubled hw.1 hf.1 hn.1
    · exact untroubledItems hw.2 hf.2 hn.2 w hm

theorem untroubledFields : ∀ {fields : Fields} {n : ℕ}, WFFields fields →
    everyField intFits (fun _ ↦ true) fields = true → depthFields fields ≤ n →
    ∀ p ∈ fields, Untroubled L n p.2
  | [], _, _, _, _ => fun p hp ↦ absurd hp List.not_mem_nil
  | (k, v) :: rest, n, hw, hf, hn => by
    rw [WFFields] at hw
    rw [everyField, Bool.and_eq_true, Bool.and_eq_true] at hf
    rw [depthFields, Nat.max_le] at hn
    intro p hm
    rcases List.mem_cons.mp hm with heq | hm
    · rw [heq]; exact untroubled hw.1 hf.1.2 hn.1
    · exact untroubledFields hw.2 hf.2 hn.2 p hm
end

/-- **What `dumps` writes is read to its end**, when it is no deeper than what may be opened. -/
theorem trouble_dumpsIndented {indent : ℕ} {s : Str} (hw : WF v)
    (hs : dumpsIndented indent v = some s) (hn : depth v ≤ n) : trouble n s = none := by
  rw [dumpsIndented] at hs
  split_ifs at hs with hf
  rw [← Option.some.inj hs, trouble]
  have hsize := size_le_length (L := .indented indent) 0 v
  have hcalm := untroubled (L := .indented indent) hw hf hn 0
    (2 * (write (.indented indent) 0 v).length + 2) [] (by omega) Stops.nil
  have hskip := skipWs_write (.indented indent) 0 v []
  rw [List.append_nil] at hskip hcalm
  rw [hskip]
  exact hcalm

end Json

end Py
