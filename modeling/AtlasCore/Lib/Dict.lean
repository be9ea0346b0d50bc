import Mathlib.Data.List.Induction
import Mathlib.Data.List.Nodup

/-!
# Dicts as lists of entries

`d[key] = value` puts a new key at the end and leaves an old one where it stands.  A dict that was
filled from a list of pairs has under each key the value that the key was given last
(`get_fill_nil`), whatever stood there before.

Keys are distinct in a dict that was filled from nothing, so looking a key up and being a member are
the same (`mem_iff_get`).  Nothing is said about what keys or values are, and equality of keys is
all that is used.
-/

set_option autoImplicit false

namespace Py

namespace Dict

variable {κ α : Type*} [DecidableEq κ]

/-- `d[key] = value`: a key that is there keeps its place, a new one comes last. -/
def assign (key : κ) (value : α) : List (κ × α) → List (κ × α)
  | [] => [(key, value)]
  | (k, v) :: rest => if k = key then (k, value) :: rest else (k, v) :: assign key value rest

/-- A loop of assignments, of which the last one under a key counts. -/
def fill (pairs : List (κ × α)) (d : List (κ × α)) : List (κ × α) :=
  pairs.foldl (fun d p ↦ assign p.1 p.2 d) d

/-- `d.get(key)`: the value under the key, if there is one. -/
def get (key : κ) (d : List (κ × α)) : Option α := (d.find? fun p ↦ p.1 = key).map (·.2)

variable {key : κ} {value : α} {d pairs : List (κ × α)} {p : κ × α}

theorem mem_assign (hd : (d.map Prod.fst).Nodup) :
    p ∈ assign key value d ↔ p = (key, value) ∨ p ∈ d ∧ p.1 ≠ key := by
  induction d with
  | nil => rw [assign, List.mem_singleton]; simp
  | cons q rest ih =>
    obtain ⟨k, v⟩ := q
    rw [List.map_cons, List.nodup_cons] at hd
    rw [assign]
    split_ifs with hk
    · subst hk
      have hother : ∀ p ∈ rest, p.1 ≠ k := fun p hp he ↦
        hd.1 (List.mem_map.mpr ⟨p, hp, he⟩)
      rw [List.mem_cons, List.mem_cons]
      constructor
      · rintro (rfl | hp)
        · exact .inl rfl
        · exact .inr ⟨.inr hp, hother p hp⟩
      · rintro (rfl | ⟨rfl | hp, hne⟩)
        · exact .inl rfl
        · exact absurd rfl hne
        · exact .inr hp
    · rw [List.mem_cons, List.mem_cons, ih hd.2]
      constructor
      · rintro (rfl | rfl | ⟨hp, hne⟩)
        · exact .inr ⟨.inl rfl, hk⟩
        · exact .inl rfl
        · exact .inr ⟨.inr hp, hne⟩
      · rintro (rfl | ⟨rfl | hp, hne⟩)
        · exact .inr (.inl rfl)
        · exact .inl rfl
        · exact .inr (.inr ⟨hp, hne⟩)

/-- The keys of a dict after an assignment. -/
theorem keys_assign : (assign key value d).map Prod.fst =
    if key ∈ d.map Prod.fst then d.map Prod.fst else d.map Prod.fst ++ [key] := by
  induction d with
  | nil => rfl
  | cons q rest ih =>
    obtain ⟨k, v⟩ := q
    rw [assign]
    by_cases hk : k = key
    · subst hk
      simp
    · rw [if_neg hk, List.map_cons, ih, List.map_cons]
      by_cases hrest : key ∈ rest.map Prod.fst
      · rw [if_pos hrest, if_pos (List.mem_cons_of_mem _ hrest)]
      · rw [if_neg hrest, if_neg (List.mem_cons.not.mpr (not_or.mpr ⟨Ne.symm hk, hrest⟩)),
          List.cons_append]

theorem nodup_assign (hd : (d.map Prod.fst).Nodup) : ((assign key value d).map Prod.fst).Nodup := by
  rw [keys_assign]
  split_ifs with hkey
  · exact hd
  · exact List.nodup_append.mpr ⟨hd, List.nodup_singleton _, fun x hx y hy ↦ by
      rintro rfl
      exact hkey (List.mem_singleton.mp hy ▸ hx)⟩

theorem fill_concat : fill (pairs ++ [p]) d = assign p.1 p.2 (fill pairs d) := by
  rw [fill, List.foldl_append]
  rfl

theorem nodup_fill : ((fill pairs []).map Prod.fst).Nodup := by
  induction pairs using List.reverseRecOn with
  | nil => exact List.nodup_nil
  | append_singleton pairs p ih =>
    rw [fill_concat]
    exact nodup_assign ih

theorem get_cons {k : κ} : get k (p :: d) = if p.1 = k then some p.2 else get k d := by
  rw [get, List.find?_cons]
  by_cases h : p.1 = k
  · simp [h]
  · simp [h, get]

theorem get_assign {k : κ} :
    get k (assign key value d) = if key = k then some value else get k d := by
  induction d with
  | nil => exact get_cons
  | cons q rest ih =>
    rw [assign]
    split_ifs with hq hk hk
    · rw [get_cons, if_pos (hq.trans hk)]
    · rw [get_cons, get_cons, if_neg (hq ▸ hk), if_neg (hq ▸ hk)]
    · rw [get_cons, if_neg fun heq ↦ hq (heq.trans hk.symm), ih, if_pos hk]
    · rw [get_cons, ih, if_neg hk, get_cons]

theorem fill_append {more : List (κ × α)} : fill (pairs ++ more) d = fill more (fill pairs d) := by
  rw [fill, List.foldl_append]
  rfl

/-- A key that was not assigned has the value it had. -/
theorem get_fill_of_not_mem {k : κ} (h : k ∉ pairs.map Prod.fst) :
    get k (fill pairs d) = get k d := by
  induction pairs using List.reverseRecOn with
  | nil => rfl
  | append_singleton pairs p ih =>
    rw [List.map_append, List.mem_append, not_or, List.map_singleton, List.mem_singleton] at h
    rw [fill_concat, get_assign, if_neg (Ne.symm h.2), ih h.1]

/-- A key that was assigned has the value it was assigned, if that was one. -/
theorem get_fill_of_mem {k : κ} {v : α} (h : (k, v) ∈ pairs) (hn : (pairs.map Prod.fst).Nodup) :
    get k (fill pairs d) = some v := by
  induction pairs using List.reverseRecOn with
  | nil => exact absurd h List.not_mem_nil
  | append_singleton pairs p ih =>
    rw [List.map_append, List.map_singleton, List.nodup_append] at hn
    rw [fill_concat, get_assign]
    rcases List.mem_append.mp h with h | h
    · have hk : p.1 ≠ k := fun heq ↦
        hn.2.2 k (List.mem_map_of_mem h) p.1 List.mem_cons_self heq.symm
      rw [if_neg hk, ih h hn.1]
    · obtain rfl := List.mem_singleton.mp h
      rw [if_pos rfl]

/-- What was assigned comes before what was there. -/
theorem get_fill {k : κ} : get k (fill pairs d) = (get k (fill pairs [])).or (get k d) := by
  induction pairs using List.reverseRecOn with
  | nil => rfl
  | append_singleton pairs p ih =>
    rw [fill_concat, fill_concat, get_assign, get_assign, ih]
    split_ifs <;> rfl

theorem get_of_mem {k : κ} {v : α} (h : (k, v) ∈ d) (hn : (d.map Prod.fst).Nodup) :
    get k d = some v := by
  induction d with
  | nil => exact absurd h List.not_mem_nil
  | cons q rest ih =>
    rw [List.map_cons, List.nodup_cons] at hn
    rcases List.mem_cons.mp h with rfl | h
    · rw [get_cons, if_pos rfl]
    · have hk : q.1 ≠ k := fun heq ↦ hn.1 (heq ▸ List.mem_map_of_mem h)
      rw [get_cons, if_neg hk, ih h hn.2]

theorem get_of_not_mem {k : κ} (h : k ∉ d.map Prod.fst) : get k d = none := by
  rw [get, Option.map_eq_none_iff, List.find?_eq_none]
  exact fun q hq hk ↦ h (of_decide_eq_true hk ▸ List.mem_map_of_mem hq)

/-- What is in the dict was assigned. -/
theorem mem_of_mem_fill (h : p ∈ fill pairs []) : p ∈ pairs := by
  induction pairs using List.reverseRecOn with
  | nil => exact absurd h List.not_mem_nil
  | append_singleton pairs q ih =>
    rw [fill_concat, mem_assign nodup_fill] at h
    rcases h with rfl | ⟨hp, -⟩
    · exact List.mem_append_right _ (List.mem_singleton.mpr rfl)
    · exact List.mem_append_left _ (ih hp)

theorem mem_of_get {k : κ} {v : α} (h : get k d = some v) : (k, v) ∈ d := by
  obtain ⟨q, hq, rfl⟩ := Option.map_eq_some_iff.mp h
  obtain rfl : q.1 = k := of_decide_eq_true (List.find?_some hq :)
  exact List.mem_of_find?_eq_some hq

theorem mem_iff_get {k : κ} {v : α} (hn : (d.map Prod.fst).Nodup) :
    (k, v) ∈ d ↔ get k d = some v :=
  ⟨fun h ↦ get_of_mem h hn, mem_of_get⟩

/-- **A key has the value that it was given last.** -/
theorem get_fill_nil {k : κ} :
    get k (fill pairs []) = ((pairs.filter fun p ↦ p.1 = k).getLast?).map (·.2) := by
  induction pairs using List.reverseRecOn with
  | nil => rfl
  | append_singleton pairs p ih =>
    rw [fill_concat, get_assign, ih, List.filter_append, List.filter_singleton]
    by_cases hk : p.1 = k
    · rw [if_pos hk, decide_eq_true hk, cond_true, List.getLast?_concat]
      rfl
    · rw [if_neg hk, decide_eq_false hk, cond_false, List.append_nil]

end Dict

end Py
