import Mathlib.Data.Int.Order.Basic
import Mathlib.Data.List.Chain
import Mathlib.Tactic.Common

/-!
# Reading a text in pages

A text of `total` lines is read from some position on, a page of at most `size` lines after the
other.  Each page starts on the line after the position and the position moves to its end.  A page
may start earlier only where one page holds the whole text, for then no other follows it.

Whatever was read so far, every line up to the position was on exactly one of the pages.
-/

set_option autoImplicit false

namespace Py

/-- From the first position these pages, from their first line to their last, lead to the other. -/
inductive Paged (size total : ℤ) : ℤ → List (ℤ × ℤ) → ℤ → Prop
  | stop {pos : ℤ} : Paged size total pos [] pos
  | page {pos first pos' : ℤ} {pages : List (ℤ × ℤ)} (left : pos < total)
      (starts : first = pos + 1 ∨ first ≤ pos + 1 ∧ total ≤ size)
      (rest : Paged size total (min total (pos + size)) pages pos') :
      Paged size total pos ((first, min total (pos + size)) :: pages) pos'

namespace Paged

variable {size total pos pos' : ℤ} {pages : List (ℤ × ℤ)}

/-- Nothing is read at the end. -/
theorem eq_nil (h : Paged size total pos pages pos') (hend : total ≤ pos) : pages = [] := by
  cases h with
  | stop => rfl
  | page left _ _ => omega

section
variable (hsize : 0 < size)

include hsize

theorem le (h : Paged size total pos pages pos') : pos ≤ pos' := by
  induction h with
  | stop => exact le_refl _
  | page left _ _ ih => omega

/-- Every page ends later than the one before. -/
theorem later (h : Paged size total pos pages pos') :
    (pos :: pages.map Prod.snd).IsChain (· < ·) := by
  induction h with
  | stop => exact List.isChain_singleton _
  | page left _ _ ih =>
    rw [List.map_cons, List.isChain_cons_cons]
    exact ⟨by omega, ih⟩

/-- A page starts behind the position, unless one page holds everything. -/
theorem behind (h : Paged size total pos pages pos') (hlong : size < total) :
    ∀ p ∈ pages, pos < p.1 := by
  induction h with
  | stop => exact fun _ hp ↦ absurd hp List.not_mem_nil
  | page left starts _ ih =>
    intro p hp
    rcases List.mem_cons.mp hp with rfl | hp
    · show _ < _
      omega
    · have := ih p hp
      omega

/-- **Every line is read once**, up to the position that was reached. -/
theorem once (h : Paged size total pos pages pos') (hpos : 0 ≤ pos) {line : ℤ}
    (hline : pos < line) :
    (pages.countP fun p ↦ p.1 ≤ line ∧ line ≤ p.2) = if line ≤ pos' then 1 else 0 := by
  induction h with
  | stop => rw [List.countP_nil, if_neg (by omega)]
  | @page pos first pos' pages left starts rest ih =>
    rw [List.countP_cons]
    by_cases hin : line ≤ min total (pos + size)
    · -- the line is on this page, and on none of those that follow
      have hnone : (pages.countP fun p ↦ p.1 ≤ line ∧ line ≤ p.2) = 0 := by
        rw [List.countP_eq_zero]
        intro p hp hcovers
        obtain ⟨hfirst, -⟩ := of_decide_eq_true hcovers
        by_cases hlong : size < total
        · have := rest.behind hsize hlong p hp
          omega
        · rw [rest.eq_nil (by omega)] at hp
          exact List.not_mem_nil hp
      have hreached := rest.le hsize
      rw [hnone, if_pos (decide_eq_true ⟨by omega, hin⟩), if_pos (by omega)]
    · rw [ih (by omega) (by omega), if_neg (c := decide _ = true) (by simp; omega)]
      rfl

end

end Paged

end Py
