import Mathlib.Data.List.Forall2
import Mathlib.Data.List.Induction

/-!
# Lists that grow at their end

What is only ever appended to satisfies, of each item, what the item was asked when it was appended:
a condition on it and on all that was there before.  Such a list is one wherever it is cut off, so
the condition is an invariant of every beginning of it.
-/

set_option autoImplicit false

namespace Py

variable {α : Type*} {P Q : List α → α → Prop} {xs ys : List α} {x : α}

/-- Each item was admitted by `P` when it came after those before it. -/
def Grown (P : List α → α → Prop) (xs : List α) : Prop :=
  ∀ before x after, xs = before ++ x :: after → P before x

theorem grown_nil : Grown P [] := fun before x after h ↦ by simp at h

theorem Grown.left (h : Grown P (xs ++ ys)) : Grown P xs := fun before x after he ↦
  h before x (after ++ ys) (by rw [he, List.append_assoc, List.cons_append])

theorem Grown.of_cut (h : Grown P ys) (hp : xs <+: ys) : Grown P xs := by
  obtain ⟨more, rfl⟩ := hp
  exact h.left

/-- One item more. -/
theorem grown_concat : Grown P (xs ++ [x]) ↔ Grown P xs ∧ P xs x := by
  constructor
  · exact fun h ↦ ⟨h.left, h xs x [] rfl⟩
  · rintro ⟨h, hx⟩ before y after he
    rcases List.eq_nil_or_concat after with rfl | ⟨after, z, rfl⟩
    · obtain ⟨rfl, hy⟩ := List.append_inj' he rfl
      rwa [← (List.cons.inj hy).1]
    · rw [List.concat_eq_append, ← List.cons_append, ← List.append_assoc] at he
      exact h before y after (List.append_inj' he rfl).1

theorem Grown.mono (h : Grown P xs) (hPQ : ∀ before x, P before x → Q before x) : Grown Q xs :=
  fun before x after he ↦ hPQ before x (h before x after he)

/-- Induction over what was appended. -/
theorem Grown.induction {R : List α → Prop} (h : Grown P xs) (nil : R [])
    (concat : ∀ before x, Grown P before → R before → P before x → R (before ++ [x])) : R xs := by
  induction xs using List.reverseRecOn with
  | nil => exact nil
  | append_singleton before x ih =>
    obtain ⟨hbefore, hx⟩ := grown_concat.mp h
    exact concat before x hbefore (ih hbefore) hx

/-! ## Two lists, item by item

Facts about two lists of equal length, read off from either of them. -/

theorem exists_of_forall₂_left {β : Type*} {R : α → β → Prop} {ys : List β}
    (h : List.Forall₂ R xs ys) : ∀ x ∈ xs, ∃ y ∈ ys, R x y := by
  induction h with
  | nil => exact fun _ h ↦ absurd h List.not_mem_nil
  | cons hxy _ ih =>
    refine List.forall_mem_cons.mpr ⟨⟨_, List.mem_cons_self, hxy⟩, fun x hx ↦ ?_⟩
    obtain ⟨y, hy, hR⟩ := ih x hx
    exact ⟨y, List.mem_cons_of_mem _ hy, hR⟩

theorem exists_of_forall₂_right {β : Type*} {R : α → β → Prop} {ys : List β}
    (h : List.Forall₂ R xs ys) : ∀ y ∈ ys, ∃ x ∈ xs, R x y :=
  exists_of_forall₂_left h.flip

end Py
