import AtlasCore.Lib.Effect

/-!
# What a computation does to a part of the state

Much of what is said of a program is said of a part of its state that the rest of the world cannot
touch.  `m.On view Q E b` says that `m`, run in any state that shows `b`, returns in a state that
shows `Q` or raises in one that shows `E`; the rest of the state may be and become anything.

There is one rule for each way of building a computation, in the direction a proof uses it.
-/

set_option autoImplicit false

universe u v w

namespace Eff

variable {ε : Type u} {σ : Type v} {α β : Type w} {κ : Type*}

/-- `m`, in a state that shows `b`, returns in `Q` or raises in `E`. -/
def On (view : σ → κ) (m : Eff ε σ α) (Q : α → κ → Prop) (E : ε → κ → Prop) (b : κ) : Prop :=
  ∀ s, view s = b → m.wp (fun a t ↦ Q a (view t)) (fun e t ↦ E e (view t)) s

namespace On

variable {view : σ → κ} {m : Eff ε σ α} {Q : α → κ → Prop} {E : ε → κ → Prop} {b : κ}

protected theorem pure {a : α} (h : Q a b) : (Pure.pure a : Eff ε σ α).On view Q E b := by
  rintro s rfl
  exact h

protected theorem raise {e : ε} (h : E e b) : (Eff.raise e : Eff ε σ α).On view Q E b := by
  rintro s rfl
  exact h

protected theorem bind {f : α → Eff ε σ β} {Q : β → κ → Prop}
    (h : m.On view (fun a c ↦ (f a).On view Q E c) E b) : (m >>= f).On view Q E b := fun s hs ↦
  wp_bind.mpr ((h s hs).mono (fun _ t ht ↦ ht t rfl) fun _ _ he ↦ he)

/-- What is known of the first step is enough for the second. -/
theorem step {f : α → Eff ε σ β} {R : α → κ → Prop} {Q : β → κ → Prop} (hm : m.On view R E b)
    (hf : ∀ a c, R a c → (f a).On view Q E c) : (m >>= f).On view Q E b := fun s hs ↦
  wp_bind.mpr ((hm s hs).mono (fun a t ht ↦ hf a _ ht t rfl) fun _ _ he ↦ he)

theorem mono {Q' : α → κ → Prop} {E' : ε → κ → Prop} (h : m.On view Q E b)
    (hQ : ∀ a c, Q a c → Q' a c) (hE : ∀ e c, E e c → E' e c) : m.On view Q' E' b := fun s hs ↦
  (h s hs).mono (fun a t ↦ hQ a (view t)) fun e t ↦ hE e (view t)

theorem imp {Q' : α → κ → Prop} (h : m.On view Q E b) (hQ : ∀ a c, Q a c → Q' a c) :
    m.On view Q' E b := h.mono hQ fun _ _ he ↦ he

protected theorem attempt {Q : Except ε α → κ → Prop}
    (h : m.On view (fun a ↦ Q (.ok a)) (fun e ↦ Q (.error e)) b) :
    (Eff.attempt m).On view Q E b := fun s hs ↦ wp_attempt.mpr (h s hs)

protected theorem ofExcept {x : Except ε α} (hok : ∀ a, x = .ok a → Q a b)
    (herror : ∀ e, x = .error e → E e b) : (Eff.ofExcept x).On view Q E b := by
  cases x with
  | ok a => exact On.pure (hok a rfl)
  | error e => exact On.raise (herror e rfl)

protected theorem ite {c : Prop} [Decidable c] {n : Eff ε σ α} (hm : c → m.On view Q E b)
    (hn : ¬ c → n.On view Q E b) : (if c then m else n).On view Q E b := by
  by_cases h : c
  · rw [if_pos h]
    exact hm h
  · rw [if_neg h]
    exact hn h

/-- The state is read, and shows what it shows. -/
theorem read_bind {σ β : Type v} {view : σ → κ} {f : σ → Eff ε σ β} {Q : β → κ → Prop}
    {E : ε → κ → Prop} {b : κ} (h : ∀ s, view s = b → (f s).On view Q E b) :
    (Eff.read >>= f).On view Q E b := fun s hs ↦
  wp_bind.mpr (wp_read.mpr (h s hs s hs))

protected theorem update {f : σ → σ} {Q : PUnit → κ → Prop}
    (h : ∀ s, view s = b → Q PUnit.unit (view (f s))) :
    (Eff.update f : Eff ε σ PUnit).On view Q E b := fun s hs ↦ h s hs

/-- What does not touch the part that is seen. -/
theorem still (hm : ∀ s, view (m s).2 = view s) (hQ : ∀ a, Q a b) (hE : ∀ e, E e b) :
    m.On view Q E b := by
  rintro s rfl
  refine (wp_run m s).mono (fun a t h ↦ ?_) fun e t h ↦ ?_
  · have ht := hm s
    rw [h] at ht
    show Q a (view t)
    rw [ht]
    exact hQ a
  · have ht := hm s
    rw [h] at ht
    show E e (view t)
    rw [ht]
    exact hE e

/-- A loop keeps what each of its rounds keeps. -/
protected theorem forM {ι : Type w} {I : κ → Prop} {f : ι → Eff ε σ PUnit} {xs : List ι} {b : κ}
    (hb : I b) (hf : ∀ x ∈ xs, ∀ c, I c → (f x).On view (fun _ ↦ I) E c) :
    (xs.forM f).On view (fun _ ↦ I) E b := by
  induction xs generalizing b with
  | nil => exact On.pure hb
  | cons x xs ih =>
    exact (hf x List.mem_cons_self b hb).step fun _ _ hc ↦
      ih hc fun y hy ↦ hf y (List.mem_cons_of_mem _ hy)

end On

end Eff
