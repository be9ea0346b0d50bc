import AtlasCore.Lib.Json

/-!
# The order of fields

`canon` puts the fields of every dict in the order of their keys.  That is a permutation, so it
changes nothing that is asked of every part of a value (`every_canon`, `WF_canon`), and doing it
twice is doing it once (`canon_canon`): `canon` picks one representative of each class of dicts
that Python calls equal.

The other operation on fields is the one a reader ends with, `dict(pairs)`; on pairs whose keys are
distinct it is the identity (`dictOf_eq`).
-/

set_option autoImplicit false

namespace Py

namespace Json

/-! ## Order and equality

Sorting the fields is a permutation, so it changes no property of the parts. -/

theorem canonFields_eq_map (fields : Fields) :
    canonFields fields = fields.map fun p ↦ (p.1, canon p.2) := by
  induction fields with
  | nil => rw [canonFields, List.map_nil]
  | cons p rest ih => obtain ⟨k, v⟩ := p; rw [canonFields, ih, List.map_cons]

theorem canonItems_eq_map (items : List Json) : canonItems items = items.map canon := by
  induction items with
  | nil => rw [canonItems, List.map_nil]
  | cons v rest ih => rw [canonItems, ih, List.map_cons]

theorem everyField_eq_all (pInt : ℤ → Bool) (pStr : Str → Bool) (fields : Fields) :
    everyField pInt pStr fields = fields.all fun p ↦ pStr p.1 && every pInt pStr p.2 := by
  induction fields with
  | nil => rw [everyField, List.all_nil]
  | cons p rest ih => obtain ⟨k, v⟩ := p; rw [everyField, ih, List.all_cons]

theorem WFFields_iff (fields : Fields) : WFFields fields ↔ ∀ p ∈ fields, WF p.2 := by
  induction fields with
  | nil => simp [WFFields]
  | cons p rest ih => obtain ⟨k, v⟩ := p; simp [WFFields, ih]

theorem WFItems_iff (items : List Json) : WFItems items ↔ ∀ v ∈ items, WF v := by
  induction items with
  | nil => simp [WFItems]
  | cons v rest ih => simp [WFItems, ih]

theorem sortFields_perm (fields : Fields) : (sortFields fields).Perm fields :=
  List.perm_insertionSort fieldLe fields

theorem everyField_sortFields (pInt : ℤ → Bool) (pStr : Str → Bool) (fields : Fields) :
    everyField pInt pStr (sortFields fields) = everyField pInt pStr fields := by
  rw [everyField_eq_all, everyField_eq_all]
  exact (sortFields_perm fields).all_eq

mutual
/-- The order of the fields does not matter to a property of the parts. -/
theorem every_canon (pInt : ℤ → Bool) (pStr : Str → Bool) :
    ∀ v : Json, every pInt pStr (canon v) = every pInt pStr v
  | .null => by rw [canon]
  | .bool _ => by rw [canon]
  | .int _ => by rw [canon]
  | .float _ => by rw [canon]
  | .str _ => by rw [canon]
  | .arr items => by rw [canon, every, every, everyItem_canon pInt pStr items]
  | .obj fields => by
    rw [canon, every, every, everyField_sortFields, everyField_canon pInt pStr fields]

theorem everyItem_canon (pInt : ℤ → Bool) (pStr : Str → Bool) :
    ∀ items : List Json, everyItem pInt pStr (canonItems items) = everyItem pInt pStr items
  | [] => by rw [canonItems]
  | v :: rest => by
    rw [canonItems, everyItem, everyItem, every_canon pInt pStr v, everyItem_canon pInt pStr rest]

theorem everyField_canon (pInt : ℤ → Bool) (pStr : Str → Bool) :
    ∀ fields : Fields, everyField pInt pStr (canonFields fields) = everyField pInt pStr fields
  | [] => by rw [canonFields]
  | (k, v) :: rest => by
    rw [canonFields, everyField, everyField, every_canon pInt pStr v,
      everyField_canon pInt pStr rest]
end

mutual
theorem every_true : ∀ v : Json, every (fun _ ↦ true) (fun _ ↦ true) v = true
  | .null => by rw [every]
  | .bool _ => by rw [every]
  | .int _ => by rw [every]
  | .float _ => by rw [every]
  | .str _ => by rw [every]
  | .arr items => by rw [every, everyItem_true items]
  | .obj fields => by rw [every, everyField_true fields]

theorem everyItem_true : ∀ items : List Json, everyItem (fun _ ↦ true) (fun _ ↦ true) items = true
  | [] => by rw [everyItem]
  | v :: rest => by rw [everyItem, every_true v, everyItem_true rest]; rfl

theorem everyField_true :
    ∀ fields : Fields, everyField (fun _ ↦ true) (fun _ ↦ true) fields = true
  | [] => by rw [everyField]
  | (k, v) :: rest => by rw [everyField, every_true v, everyField_true rest]; rfl
end

theorem keys_canonFields (fields : Fields) :
    (canonFields fields).map Prod.fst = fields.map Prod.fst := by
  rw [canonFields_eq_map, List.map_map]
  rfl

mutual
/-- Sorting keeps the keys distinct. -/
theorem WF_canon : ∀ {v : Json}, WF v → WF (canon v)
  | .null, _ => by rw [canon, WF]; trivial
  | .bool _, _ => by rw [canon, WF]; trivial
  | .int _, _ => by rw [canon, WF]; trivial
  | .float _, _ => by rw [canon, WF]; trivial
  | .str _, _ => by rw [canon, WF]; trivial
  | .arr items, h => by rw [WF] at h; rw [canon, WF]; exact WFItems_canon h
  | .obj fields, h => by
    rw [WF] at h
    rw [canon, WF]
    constructor
    · rw [((sortFields_perm _).map Prod.fst).nodup_iff, keys_canonFields]
      exact h.1
    · rw [WFFields_iff]
      intro p hp
      exact (WFFields_iff _).mp (WFFields_canon h.2) p ((sortFields_perm _).mem_iff.mp hp)

theorem WFItems_canon : ∀ {items : List Json}, WFItems items → WFItems (canonItems items)
  | [], _ => by rw [canonItems, WFItems]; trivial
  | v :: rest, h => by
    rw [WFItems] at h
    rw [canonItems, WFItems]
    exact ⟨WF_canon h.1, WFItems_canon h.2⟩

theorem WFFields_canon : ∀ {fields : Fields}, WFFields fields → WFFields (canonFields fields)
  | [], _ => by rw [canonFields, WFFields]; trivial
  | (k, v) :: rest, h => by
    rw [WFFields] at h
    rw [canonFields, WFFields]
    exact ⟨WF_canon h.1, WFFields_canon h.2⟩
end

mutual
/-- Sorting twice is sorting once. -/
theorem canon_canon : ∀ v : Json, canon (canon v) = canon v
  | .null => by rw [canon, canon]
  | .bool _ => by rw [canon, canon]
  | .int _ => by rw [canon, canon]
  | .float _ => by rw [canon, canon]
  | .str _ => by rw [canon, canon]
  | .arr items => by rw [canon, canon, canonItems_canonItems items]
  | .obj fields => by
    have hfix :
        canonFields (sortFields (canonFields fields)) = sortFields (canonFields fields) := by
      rw [canonFields_eq_map (sortFields _)]
      refine (List.map_congr_left fun p hp ↦ ?_).trans (List.map_id _)
      rw [canon_canonFields fields p ((sortFields_perm _).mem_iff.mp hp), id]
    rw [canon, canon, hfix, sortFields, sortFields,
      (List.pairwise_insertionSort fieldLe _).insertionSort_eq]

theorem canonItems_canonItems :
    ∀ items : List Json, canonItems (canonItems items) = canonItems items
  | [] => by rw [canonItems, canonItems]
  | v :: rest => by rw [canonItems, canonItems, canon_canon v, canonItems_canonItems rest]

theorem canon_canonFields :
    ∀ fields : Fields, ∀ p ∈ canonFields fields, canon p.2 = p.2
  | [], p, h => by rw [canonFields] at h; exact absurd h List.not_mem_nil
  | (k, v) :: rest, p, h => by
    rw [canonFields, List.mem_cons] at h
    rcases h with rfl | h
    · exact canon_canon v
    · exact canon_canonFields rest p h
end

/-! ## Building a dict from its pairs

Assigning the pairs of a dict one after the other gives the dict, if no key is there twice. -/

theorem setField_append {key : Str} {value : Json} :
    ∀ {fields : Fields}, key ∉ fields.map Prod.fst →
      setField key value fields = fields ++ [(key, value)]
  | [], _ => by rw [setField, List.nil_append]
  | (k, v) :: rest, h => by
    rw [List.map_cons, List.mem_cons, not_or] at h
    rw [setField, if_neg (fun hk ↦ h.1 hk.symm), setField_append h.2, List.cons_append]

theorem foldl_setField :
    ∀ (pairs acc : Fields), ((acc ++ pairs).map Prod.fst).Nodup →
      pairs.foldl (fun d p ↦ setField p.1 p.2 d) acc = acc ++ pairs
  | [], acc, _ => by rw [List.foldl_nil, List.append_nil]
  | (k, v) :: rest, acc, h => by
    have hk : k ∉ acc.map Prod.fst := by
      rw [List.map_append, List.nodup_append'] at h
      exact fun hm ↦ h.2.2 hm (by simp)
    rw [List.foldl_cons, setField_append hk, foldl_setField rest]
    · rw [List.append_assoc, List.singleton_append]
    · rwa [List.append_assoc, List.singleton_append]

/-- Pairs with distinct keys are the dict they make. -/
theorem dictOf_eq {pairs : Fields} (h : (pairs.map Prod.fst).Nodup) : dictOf pairs = pairs :=
  foldl_setField pairs [] h

end Json

end Py
