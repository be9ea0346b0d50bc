import AtlasCore.Lib.JsonCanon

/-!
# Dicts as lists of fields

What `d[key] = value`, concatenation and filtering by key do to what is found under a key.

A dict is kept as the list of its fields, so every operation on it is one on lists, and there is one
lemma for each that says where a key is looked up afterwards.  With these the proofs about documents
never take a list of fields apart.
-/

set_option autoImplicit false

namespace Py

namespace Json

variable {key : Str} {value : Json} {fields more : Fields}

/-- What was assigned is found, and nothing else changes. -/
theorem lookup_setField (other : Str) : lookup other (setField key value fields) =
    if key = other then some value else lookup other fields := by
  induction fields with
  | nil => rfl
  | cons p rest ih =>
    obtain ⟨k, v⟩ := p
    rw [setField]
    by_cases hk : k = key
    · subst hk
      rw [if_pos rfl, lookup, lookup]
      split_ifs <;> rfl
    · rw [if_neg hk, lookup, lookup, ih]
      by_cases ho : k = other
      · rw [if_pos ho, if_pos ho, if_neg fun h ↦ hk (ho.trans h.symm)]
      · rw [if_neg ho, if_neg ho]

theorem lookup_append : lookup key (fields ++ more) = (lookup key fields).or (lookup key more) := by
  induction fields with
  | nil => rfl
  | cons p rest ih =>
    obtain ⟨k, v⟩ := p
    rw [List.cons_append, lookup, lookup, ih]
    split_ifs <;> rfl

theorem lookup_concat (other : Str) : lookup other (fields ++ [(key, value)]) =
    (lookup other fields).or (if key = other then some value else none) := by
  rw [lookup_append, lookup, lookup]

theorem lookup_filter (p : Str → Bool) :
    lookup key (fields.filter fun q ↦ p q.1) = if p key then lookup key fields else none := by
  induction fields with
  | nil => rw [List.filter_nil, lookup, ite_self]
  | cons q rest ih =>
    obtain ⟨k, v⟩ := q
    rw [List.filter_cons, lookup]
    by_cases hk : k = key
    · subst hk
      cases hp : p k <;> simp [lookup, hp, ih]
    · rw [if_neg hk]
      cases hp : p k <;> simp [lookup, hk, ih]

/-- A dict made of what another holds under some keys. -/
theorem lookup_filterMap {keys : List Str} :
    lookup key (keys.filterMap fun k ↦ (lookup k fields).map (k, ·)) =
      if key ∈ keys then lookup key fields else none := by
  induction keys with
  | nil => rfl
  | cons k keys ih =>
    rw [List.filterMap_cons]
    by_cases hk : k = key
    · subst hk
      cases hl : lookup k fields with
      | none => simp [ih, hl]
      | some v => simp [lookup]
    · cases hl : lookup k fields <;> simp [lookup, ih, hk, Ne.symm hk]

/-- A dict whose values were all changed. -/
theorem lookup_map (f : Json → Json) :
    lookup key (fields.map fun p ↦ (p.1, f p.2)) = (lookup key fields).map f := by
  induction fields with
  | nil => rfl
  | cons p rest ih =>
    rw [List.map_cons, lookup, lookup, ih]
    split_ifs <;> rfl

theorem lookup_orderedInsert (p : Str × Json) :
    lookup key (fields.orderedInsert fieldLe p) = lookup key (p :: fields) := by
  induction fields with
  | nil => rfl
  | cons q rest ih =>
    rw [List.orderedInsert]
    split_ifs with hle
    · rfl
    · -- a field that is passed has another key
      have hne : q.1 ≠ p.1 := by
        intro he
        refine hle ?_
        show keyLe p.1 q.1 = true
        rw [he]
        exact or_self_iff.mp (keyLe_total p.1 p.1)
      rw [lookup, ih, lookup, lookup, lookup]
      by_cases hq : q.1 = key
      · rw [if_pos hq, if_pos hq, if_neg fun hp ↦ hne (hq.trans hp.symm)]
      · rw [if_neg hq, if_neg hq]

/-- The order of the fields is not seen by who asks for one of them. -/
theorem lookup_sortFields : lookup key (sortFields fields) = lookup key fields := by
  rw [sortFields]
  induction fields with
  | nil => rfl
  | cons p rest ih =>
    rw [List.insertionSort_cons, lookup_orderedInsert, lookup, lookup, ih]

theorem lookup_canonFields : lookup key (canonFields fields) = (lookup key fields).map canon := by
  rw [canonFields_eq_map, lookup_map]

/-- What is found is one of the fields. -/
theorem mem_of_lookup (h : lookup key fields = some value) : (key, value) ∈ fields := by
  induction fields with
  | nil => cases h
  | cons p rest ih =>
    obtain ⟨k, v⟩ := p
    rw [lookup] at h
    split_ifs at h with hk
    · rw [← hk, Option.some.inj h]
      exact List.mem_cons_self
    · exact List.mem_cons_of_mem _ (ih h)

/-- In a dict every field is found under its key. -/
theorem lookup_of_mem (hkeys : (fields.map Prod.fst).Nodup) (h : (key, value) ∈ fields) :
    lookup key fields = some value := by
  induction fields with
  | nil => cases h
  | cons p rest ih =>
    obtain ⟨k, v⟩ := p
    rw [List.map_cons, List.nodup_cons] at hkeys
    rw [lookup]
    rcases List.mem_cons.mp h with heq | hmem
    · obtain ⟨rfl, rfl⟩ := Prod.mk.inj heq
      rw [if_pos rfl]
    · have hne : k ≠ key := fun hk ↦ hkeys.1 (List.mem_map.mpr ⟨_, hmem, hk.symm⟩)
      rw [if_neg hne]
      exact ih hkeys.2 hmem

end Json

end Py
