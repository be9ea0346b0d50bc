import AtlasCore.Lib.Effect

/-!
# Two runs, side by side

A statement about two runs of one program says that they end alike: both return, and what they
return is related, or both raise the same exception; and the states they end in are related too.
The rules below follow the structure of a computation, as those of `wp` do for one run.
-/

set_option autoImplicit false

namespace Eff

universe u v w

variable {ε : Type u} {σ τ : Type v} {α β γ δ : Type w}

/-- Two runs that end with results related by `R`, or with one exception, in states related by
`S`. -/
def Agree (R : α → β → Prop) (S : σ → τ → Prop) : Except ε α × σ → Except ε β × τ → Prop
  | (.ok a, s), (.ok b, t) => R a b ∧ S s t
  | (.error e, s), (.error e', t) => e = e' ∧ S s t
  | _, _ => False

variable {R : α → β → Prop} {R' : γ → δ → Prop} {S : σ → τ → Prop} {s : σ} {t : τ}

theorem Agree.mono {R₂ : α → β → Prop} {x : Except ε α × σ} {y : Except ε β × τ}
    (h : Agree R S x y) (hR : ∀ a b, R a b → R₂ a b) : Agree R₂ S x y := by
  rcases x with ⟨e | a, s⟩ <;> rcases y with ⟨e' | b, t⟩
  · exact h
  · exact h
  · exact h
  · exact ⟨hR a b h.1, h.2⟩

/-- What follows related results, in related states. -/
theorem Agree.bind {m : Eff ε σ α} {n : Eff ε τ β} {f : α → Eff ε σ γ} {g : β → Eff ε τ δ}
    (h : Agree R S (m s) (n t))
    (hfg : ∀ a b s t, R a b → S s t → Agree R' S (f a s) (g b t)) :
    Agree R' S ((m >>= f) s) ((n >>= g) t) := by
  show Agree R' S (Eff.bind m f s) (Eff.bind n g t)
  rw [Eff.bind, Eff.bind]
  revert h
  rcases m s with ⟨e | a, s'⟩ <;> rcases n t with ⟨e' | b, t'⟩ <;> intro h
  · exact h
  · exact h.elim
  · exact h.elim
  · exact hfg a b s' t' h.1 h.2

theorem Agree.map {m : Eff ε σ α} {n : Eff ε τ β} {f : α → γ} {g : β → δ}
    (h : Agree R S (m s) (n t)) (hfg : ∀ a b, R a b → R' (f a) (g b)) :
    Agree R' S ((f <$> m) s) ((g <$> n) t) := by
  rw [map_eq_pure_bind, map_eq_pure_bind]
  exact h.bind fun a b s t hab hst ↦ ⟨hfg a b hab, hst⟩

/-- One computation, run twice in one state. -/
theorem Agree.refl (x : Except ε α × σ) : Agree (· = ·) (· = ·) x x := by
  rcases x with ⟨e | a, s⟩
  · exact ⟨rfl, rfl⟩
  · exact ⟨rfl, rfl⟩

end Eff
