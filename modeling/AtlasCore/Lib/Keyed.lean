import Mathlib.Data.List.Nodup
import Mathlib.Tactic.Common

/-!
# Lists in which every item has a key of its own

A keyed list is merged with items that come in: an item stays where it is, and is replaced there by
the one that came in under its key, unless the two are the same; what came in under a new key
follows, in the order it came in.  `merged` is that list as a whole, and the `merged_concat` lemmas
say how it grows, one item after the other.
-/

set_option autoImplicit false

namespace Py

namespace Keyed

/-- In a list without repetitions, a place that is found by its item is that item everywhere. -/
theorem set_idxOf_eq_map {α : Type*} [DecidableEq α] {a b : α} : ∀ {xs : List α}, xs.Nodup →
    xs.set (xs.idxOf a) b = xs.map fun x ↦ if x = a then b else x
  | [], _ => rfl
  | x :: xs, h => by
    obtain ⟨hx, hxs⟩ := List.nodup_cons.mp h
    by_cases heq : x = a
    · subst heq
      have hrest : (xs.map fun y ↦ if y = x then b else y) = xs.map id :=
        List.map_congr_left fun y hy ↦ if_neg fun (hyx : y = x) ↦ hx (hyx ▸ hy)
      rw [List.idxOf_cons_self, List.set_cons_zero, List.map_cons, if_pos rfl, hrest, List.map_id]
    · rw [List.idxOf_cons_ne xs heq, List.set_cons_succ, List.map_cons, if_neg heq,
        set_idxOf_eq_map hxs]

variable {α κ β : Type*} [DecidableEq κ] (key : α → κ) (same : α → α → Prop) [DecidableRel same]

/-- An item is the only one with its key. -/
theorem filter_key {α κ : Type*} [DecidableEq κ] {key : α → κ} : ∀ {items : List α},
    (items.map key).Nodup → ∀ {i : α}, i ∈ items → items.filter (key · = key i) = [i]
  | [], _, i, hi => absurd hi List.not_mem_nil
  | j :: items, h, i, hi => by
    rw [List.map_cons, List.nodup_cons] at h
    rcases List.mem_cons.mp hi with rfl | hi
    · have hrest : items.filter (key · = key i) = [] := List.filter_eq_nil_iff.mpr fun k hk heq ↦
        h.1 (of_decide_eq_true heq ▸ List.mem_map_of_mem hk)
      rw [List.filter_cons, if_pos (decide_eq_true rfl), hrest]
    · rw [List.filter_cons_of_neg, filter_key h.2 hi]
      rw [decide_eq_true_eq]
      exact fun heq ↦ h.1 (heq ▸ List.mem_map_of_mem hi)

/-- What an item becomes: the incoming one of its key, where there is one that says something else.
-/
def overlay (incoming : List α) (a : α) : α :=
  match incoming.find? fun i ↦ key i = key a with
  | some i => if same a i then a else i
  | none => a

/-- What comes in under a new key, in the order it comes. -/
def fresh (existing incoming : List α) : List α := incoming.filter fun i ↦ key i ∉ existing.map key

/-- The list and what came in: the old items in their places, and then the new ones. -/
def merged (existing incoming : List α) : List α :=
  existing.map (overlay key same incoming) ++ fresh key existing incoming

variable {key same} {existing incoming : List α} {a i : α}

theorem find_eq_none {k : κ} (h : k ∉ incoming.map key) :
    incoming.find? (fun i ↦ key i = k) = none :=
  List.find?_eq_none.mpr fun i hi heq ↦ h (List.mem_map.mpr ⟨i, hi, of_decide_eq_true heq⟩)

theorem key_overlay : key (overlay key same incoming a) = key a := by
  rw [overlay]
  cases hfind : incoming.find? fun i ↦ key i = key a with
  | none => rfl
  | some i =>
    have hkey := List.find?_some hfind
    dsimp only
    split_ifs
    · rfl
    · exact of_decide_eq_true hkey

theorem overlay_of_not_mem (h : key a ∉ incoming.map key) : overlay key same incoming a = a := by
  rw [overlay, find_eq_none h]

theorem overlay_concat (h : key i ∉ incoming.map key) :
    overlay key same (incoming ++ [i]) a =
      if key a = key i then if same a i then a else i else overlay key same incoming a := by
  by_cases hkey : key a = key i
  · rw [if_pos hkey, overlay, List.find?_append, find_eq_none (hkey ▸ h), Option.none_or,
      List.find?_singleton, if_pos (decide_eq_true hkey.symm)]
  · have hlast : key a ∉ [i].map key := fun hmem ↦ hkey (List.mem_singleton.mp hmem)
    rw [if_neg hkey, overlay, overlay, List.find?_append, find_eq_none hlast, Option.or_none]

theorem keys_overlay : (existing.map (overlay key same incoming)).map key = existing.map key := by
  rw [List.map_map]
  exact List.map_congr_left fun a _ ↦ key_overlay

theorem mem_fresh : i ∈ fresh key existing incoming ↔ i ∈ incoming ∧ key i ∉ existing.map key := by
  rw [fresh, List.mem_filter, decide_eq_true_eq]

theorem nodup_keys_merged (he : (existing.map key).Nodup) (hi : (incoming.map key).Nodup) :
    ((merged key same existing incoming).map key).Nodup := by
  rw [merged, List.map_append, keys_overlay]
  refine he.append (hi.sublist (List.filter_sublist.map key)) fun k hk hfresh ↦ ?_
  obtain ⟨i, hi, rfl⟩ := List.mem_map.mp hfresh
  exact (mem_fresh.mp hi).2 hk

theorem merged_nil : merged key same existing [] = existing := by
  rw [merged, List.map_congr_left fun a _ ↦ overlay_of_not_mem List.not_mem_nil, List.map_id']
  exact List.append_nil _

/-! ## One item more

The merge of a longer list is the merge of the shorter one, with one item more. -/

theorem fresh_concat : fresh key existing (incoming ++ [i]) =
    fresh key existing incoming ++ if key i ∈ existing.map key then [] else [i] := by
  rw [fresh, fresh, List.filter_append, List.filter_singleton]
  by_cases h : key i ∈ existing.map key <;> simp [h]

theorem merged_concat_fresh (h : key i ∉ existing.map key) (hi : key i ∉ incoming.map key) :
    merged key same existing (incoming ++ [i]) = merged key same existing incoming ++ [i] := by
  have hmap : existing.map (overlay key same (incoming ++ [i])) =
      existing.map (overlay key same incoming) := List.map_congr_left fun a ha ↦ by
    have hkey : key a ≠ key i := fun heq ↦ h (heq ▸ List.mem_map_of_mem ha)
    rw [overlay_concat hi, if_neg hkey]
  rw [merged, merged, hmap, fresh_concat, if_neg h, List.append_assoc]

theorem mem_merged_of_not_mem (ha : a ∈ existing) (hi : key a ∉ incoming.map key) :
    a ∈ merged key same existing incoming :=
  List.mem_append_left _ (List.mem_map.mpr ⟨a, ha, overlay_of_not_mem hi⟩)

theorem merged_concat_same (he : (existing.map key).Nodup) (ha : a ∈ existing)
    (hkey : key a = key i)
    (hi : key i ∉ incoming.map key) (hsame : same a i) :
    merged key same existing (incoming ++ [i]) = merged key same existing incoming := by
  have hmap : existing.map (overlay key same (incoming ++ [i])) =
      existing.map (overlay key same incoming) := List.map_congr_left fun b hb ↦ by
    rw [overlay_concat hi]
    split_ifs with hbi hsame'
    · rw [overlay_of_not_mem (hbi ▸ hi)]
    · obtain rfl := List.inj_on_of_nodup_map he hb ha (hbi.trans hkey.symm)
      exact absurd hsame hsame'
    · rfl
  rw [merged, merged, hmap, fresh_concat, if_pos (hkey ▸ List.mem_map_of_mem ha), List.append_nil]

theorem merged_concat_other [DecidableEq α] (he : (existing.map key).Nodup)
    (hn : (incoming.map key).Nodup) (ha : a ∈ existing) (hkey : key a = key i)
    (hi : key i ∉ incoming.map key) (hsame : ¬ same a i) :
    merged key same existing (incoming ++ [i]) =
      (merged key same existing incoming).set ((merged key same existing incoming).idxOf a) i := by
  rw [set_idxOf_eq_map ((nodup_keys_merged he hn).of_map key), merged, merged, List.map_append,
    fresh_concat, if_pos (hkey ▸ List.mem_map_of_mem ha), List.append_nil, List.map_map]
  have hfresh : (fresh key existing incoming).map (fun x ↦ if x = a then i else x) =
      fresh key existing incoming := by
    refine (List.map_congr_left fun j hj ↦ ?_).trans (List.map_id _)
    have hja : j ≠ a := by
      rintro rfl
      exact (mem_fresh.mp hj).2 (List.mem_map_of_mem ha)
    exact if_neg hja
  rw [hfresh]
  refine congrArg (· ++ _) (List.map_congr_left fun b hb ↦ ?_)
  rw [overlay_concat hi, Function.comp_apply]
  by_cases hbi : key b = key i
  · obtain rfl := List.inj_on_of_nodup_map he hb ha (hbi.trans hkey.symm)
    rw [if_pos hbi, if_neg hsame, overlay_of_not_mem (hbi ▸ hi), if_pos rfl]
  · have hba : overlay key same incoming b ≠ a := by
      intro heq
      have hkeys : key (overlay key same incoming b) = key b := key_overlay
      rw [heq, hkey] at hkeys
      exact hbi hkeys.symm
    rw [if_neg hbi, if_neg hba]

/-! ## What changed

What a merge changed can be read off the two lists and off what came in. -/

theorem length_merged : (merged key same existing incoming).length =
    existing.length + (fresh key existing incoming).length := by
  rw [merged, List.length_append, List.length_map]

/-- A feature of the items is what it was when nothing is new and every item kept it. -/
theorem map_merged_eq_iff {f : α → β} :
    (merged key same existing incoming).map f = existing.map f ↔
      fresh key existing incoming = [] ∧ ∀ a ∈ existing, f (overlay key same incoming a) = f a := by
  constructor
  · intro h
    have hlength := congrArg List.length h
    rw [List.length_map, List.length_map, length_merged] at hlength
    have hfresh : fresh key existing incoming = [] := List.length_eq_zero_iff.mp (by omega)
    rw [merged, hfresh, List.append_nil, List.map_map] at h
    exact ⟨hfresh, fun a ha ↦ List.map_inj_left.mp h a ha⟩
  · rintro ⟨hfresh, hmap⟩
    rw [merged, hfresh, List.append_nil, List.map_map]
    exact List.map_congr_left hmap

/-- Only an item that came in under its key takes the place of another. -/
theorem overlay_eq_or : overlay key same incoming a = a ∨
    ∃ i ∈ incoming, key i = key a ∧ ¬ same a i ∧ overlay key same incoming a = i := by
  rw [overlay]
  cases hfind : incoming.find? fun i ↦ key i = key a with
  | none => exact .inl rfl
  | some i =>
    have hkey := List.find?_some hfind
    dsimp only
    split_ifs with hsame
    · exact .inl rfl
    · exact .inr ⟨i, List.mem_of_find?_eq_some hfind, of_decide_eq_true hkey, hsame, rfl⟩

/-- What came in under the key decides. -/
theorem overlay_of_mem (hn : (incoming.map key).Nodup) (hi : i ∈ incoming) (hkey : key i = key a) :
    overlay key same incoming a = if same a i then a else i := by
  rw [overlay]
  cases hfind : incoming.find? fun i ↦ key i = key a with
  | none => exact absurd (decide_eq_true hkey) (List.find?_eq_none.mp hfind i hi)
  | some j =>
    have hj := List.find?_some hfind
    rw [List.inj_on_of_nodup_map hn (List.mem_of_find?_eq_some hfind) hi
      ((of_decide_eq_true hj).trans hkey.symm)]

end Keyed

end Py
