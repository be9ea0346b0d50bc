import Mathlib.Data.List.Forall2
import Mathlib.Tactic.Common

/-!
# Computations with a state and exceptions

`Eff ε σ α` reads and changes a state `σ` and ends with a value or an exception.  As in Python,
what was done to the state before an exception was raised stays done, and a handler sees it.

`m.wp Q E s` says that `m`, run in `s`, ends in `Q` when it returns and in `E` when it raises.  The
rules below are equations, one for each way of building a computation, so a goal about a program is
pushed down to its primitive steps by rewriting, and `wp.mono` uses what is known of a callee.
-/

set_option autoImplicit false

universe u v w

/-- A computation over the state `σ` that returns an `α` or raises an `ε`. -/
def Eff (ε : Type u) (σ : Type v) (α : Type w) : Type (max u v w) := σ → Except ε α × σ

/-- What was made of two steps was made by both. -/
theorem Except.bind_eq_ok {ε : Type u} {α β : Type v} {x : Except ε α} {f : α → Except ε β}
    {b : β} : x >>= f = .ok b ↔ ∃ a, x = .ok a ∧ f a = .ok b := by
  cases x with
  | ok a => simp [bind, Except.bind]
  | error e => simp [bind, Except.bind]

/-- What was not made of two steps failed in one of them. -/
theorem Except.bind_eq_error {ε : Type u} {α β : Type v} {x : Except ε α} {f : α → Except ε β}
    {e : ε} : x >>= f = .error e ↔ x = .error e ∨ ∃ a, x = .ok a ∧ f a = .error e := by
  cases x with
  | ok a => simp [bind, Except.bind]
  | error e => simp [bind, Except.bind]

theorem Except.eq_ok_of_toOption {ε : Type u} {α : Type v} {x : Except ε α} {a : α}
    (h : x.toOption = some a) : x = .ok a := by
  cases x with
  | error e => cases h
  | ok b => rw [Option.some.inj h]

/-- What was made of a list was made of its items, one for one. -/
theorem Except.forall₂_of_mapM {ε : Type u} {α : Type w} {β : Type v} {f : α → Except ε β} :
    ∀ {xs : List α} {ys : List β}, xs.mapM f = .ok ys → List.Forall₂ (fun x y ↦ f x = .ok y) xs ys
  | [], ys, h => by
    rw [List.mapM_nil] at h
    obtain rfl := Except.ok.inj h
    exact .nil
  | x :: xs, ys, h => by
    rw [List.mapM_cons] at h
    obtain ⟨first, hfirst, h⟩ := Except.bind_eq_ok.mp h
    obtain ⟨rest, hrest, h⟩ := Except.bind_eq_ok.mp h
    obtain rfl := Except.ok.inj h
    exact .cons hfirst (forall₂_of_mapM hrest)

theorem List.Forall₂.exists_of_mem {α : Type u} {β : Type v} {R : α → β → Prop} {xs : List α}
    {ys : List β} (h : List.Forall₂ R xs ys) : ∀ x ∈ xs, ∃ y ∈ ys, R x y := by
  induction h with
  | nil => exact fun _ hx ↦ absurd hx List.not_mem_nil
  | cons hxy _ ih =>
    intro z hz
    rcases List.mem_cons.mp hz with rfl | hz
    · exact ⟨_, List.mem_cons_self, hxy⟩
    · obtain ⟨y, hy, hR⟩ := ih z hz
      exact ⟨y, List.mem_cons_of_mem _ hy, hR⟩

/-- Every item of a list that was read became one of the results. -/
theorem Except.result_of_mapM {ε : Type u} {α : Type w} {β : Type v} {f : α → Except ε β}
    {xs : List α} {ys : List β} (h : xs.mapM f = .ok ys) : ∀ x ∈ xs, ∃ y ∈ ys, f x = .ok y :=
  (forall₂_of_mapM h).exists_of_mem

/-- Every result is one of an item. -/
theorem Except.source_of_mapM {ε : Type u} {α : Type w} {β : Type v} {f : α → Except ε β}
    {xs : List α} {ys : List β} (h : xs.mapM f = .ok ys) : ∀ y ∈ ys, ∃ x ∈ xs, f x = .ok y :=
  (forall₂_of_mapM h).flip.exists_of_mem

namespace Eff

variable {ε : Type u} {σ : Type v} {α β : Type w}

/-- Return without touching the state, and without raising. -/
protected def pure (a : α) : Eff ε σ α := fun s ↦ (.ok a, s)

/-- One computation after another; an exception in the first is the outcome of both. -/
protected def bind (m : Eff ε σ α) (f : α → Eff ε σ β) : Eff ε σ β := fun s ↦
  match m s with
  | (.ok a, t) => f a t
  | (.error e, t) => (.error e, t)

instance : Monad (Eff ε σ) where
  pure := Eff.pure
  bind := Eff.bind

instance : LawfulMonad (Eff ε σ) := by
  refine LawfulMonad.mk' (Eff ε σ) ?_ ?_ ?_
  · intro α m
    funext s
    show Eff.bind m (fun a ↦ Eff.pure a) s = m s
    rw [Eff.bind]
    rcases m s with ⟨e | a, t⟩ <;> rfl
  · intro α β a f
    rfl
  · intro α β γ m f g
    funext s
    show Eff.bind (Eff.bind m f) g s = Eff.bind m (fun a ↦ Eff.bind (f a) g) s
    simp only [Eff.bind]
    rcases m s with ⟨e | a, t⟩ <;> rfl

/-- `raise e`, which leaves the state as it is. -/
def raise (e : ε) : Eff ε σ α := fun s ↦ (.error e, s)

/-- `try: m except e: handler(e)`: the handler goes on from the state in which it was raised. -/
def handle (m : Eff ε σ α) (handler : ε → Eff ε σ α) : Eff ε σ α := fun s ↦
  match m s with
  | (.ok a, t) => (.ok a, t)
  | (.error e, t) => handler e t

/-- `try: m`, with what was raised as a value: the clauses that follow are a `match` on it. -/
def attempt (m : Eff ε σ α) : Eff ε σ (Except ε α) := fun s ↦ (.ok (m s).1, (m s).2)

/-- The state, as it is now. -/
def read : Eff ε σ σ := fun s ↦ (.ok s, s)

/-- Change the state, which cannot fail. -/
def update (f : σ → σ) : Eff ε σ PUnit := fun s ↦ (.ok PUnit.unit, f s)

/-- A value, or the exception in its place. -/
def ofExcept : Except ε α → Eff ε σ α
  | .ok a => Eff.pure a
  | .error e => raise e

/-- A computation on a part of a larger state. -/
def zoom {τ : Type v} (part : τ → σ) (put : σ → τ → τ) (m : Eff ε σ α) : Eff ε τ α := fun t ↦
  ((m (part t)).1, put (m (part t)).2 t)

/-- `m` run in `s` returns in `Q` or raises in `E`. -/
def wp (m : Eff ε σ α) (Q : α → σ → Prop) (E : ε → σ → Prop) (s : σ) : Prop :=
  match m s with
  | (.ok a, t) => Q a t
  | (.error e, t) => E e t

variable {Q : α → σ → Prop} {E : ε → σ → Prop} {s : σ}

@[simp] theorem wp_pure {a : α} : (Pure.pure a : Eff ε σ α).wp Q E s ↔ Q a s := Iff.rfl

@[simp] theorem wp_raise {e : ε} : (raise e : Eff ε σ α).wp Q E s ↔ E e s := Iff.rfl

@[simp] theorem wp_bind {m : Eff ε σ α} {f : α → Eff ε σ β} {Q : β → σ → Prop} :
    (m >>= f).wp Q E s ↔ m.wp (fun a t ↦ (f a).wp Q E t) E s := by
  show (Eff.bind m f).wp Q E s ↔ _
  simp only [wp, Eff.bind]
  rcases m s with ⟨e | a, t⟩ <;> exact Iff.rfl

@[simp] theorem wp_map {f : α → β} {m : Eff ε σ α} {Q : β → σ → Prop} :
    (f <$> m).wp Q E s ↔ m.wp (fun a t ↦ Q (f a) t) E s := by
  rw [map_eq_pure_bind, wp_bind]
  exact Iff.rfl

@[simp] theorem wp_handle {m : Eff ε σ α} {h : ε → Eff ε σ α} :
    (handle m h).wp Q E s ↔ m.wp Q (fun e t ↦ (h e).wp Q E t) s := by
  simp only [wp, handle]
  rcases m s with ⟨e | a, t⟩ <;> exact Iff.rfl

@[simp] theorem wp_attempt {m : Eff ε σ α} {Q : Except ε α → σ → Prop} :
    (attempt m).wp Q E s ↔ m.wp (fun a ↦ Q (.ok a)) (fun e ↦ Q (.error e)) s := by
  simp only [wp, attempt]
  rcases m s with ⟨e | a, t⟩ <;> exact Iff.rfl

@[simp] theorem wp_read {Q : σ → σ → Prop} : (read : Eff ε σ σ).wp Q E s ↔ Q s s := Iff.rfl

@[simp] theorem wp_update {f : σ → σ} {Q : PUnit → σ → Prop} :
    (update f : Eff ε σ PUnit).wp Q E s ↔ Q PUnit.unit (f s) := Iff.rfl

@[simp] theorem wp_ite {c : Prop} [Decidable c] {m n : Eff ε σ α} :
    (if c then m else n).wp Q E s ↔ (c → m.wp Q E s) ∧ (¬ c → n.wp Q E s) := by
  by_cases h : c <;> simp [h]

theorem wp_ofExcept {x : Except ε α} :
    (ofExcept x).wp Q E s ↔
      match x with
      | .ok a => Q a s
      | .error e => E e s := by
  cases x <;> exact Iff.rfl

theorem wp_zoom {τ : Type v} {part : τ → σ} {put : σ → τ → τ} {m : Eff ε σ α} {Q : α → τ → Prop}
    {E : ε → τ → Prop} {t : τ} :
    (m.zoom part put).wp Q E t ↔
      m.wp (fun a s ↦ Q a (put s t)) (fun e s ↦ E e (put s t)) (part t) := by
  simp only [wp, zoom]
  rcases m (part t) with ⟨e | a, s⟩ <;> exact Iff.rfl

/-- What a callee establishes may be weakened. -/
theorem wp.mono {m : Eff ε σ α} {Q' : α → σ → Prop} {E' : ε → σ → Prop} (h : m.wp Q E s)
    (hQ : ∀ a t, Q a t → Q' a t) (hE : ∀ e t, E e t → E' e t) : m.wp Q' E' s := by
  simp only [wp] at h ⊢
  rcases hm : m s with ⟨e | a, t⟩ <;> rw [hm] at h
  · exact hE e t h
  · exact hQ a t h

/-- What is asked of a computation may be put differently at each end that it has. -/
theorem wp_congr {m : Eff ε σ α} {Q' : α → σ → Prop} {E' : ε → σ → Prop}
    (hQ : ∀ a t, m s = (.ok a, t) → (Q a t ↔ Q' a t))
    (hE : ∀ e t, m s = (.error e, t) → (E e t ↔ E' e t)) : m.wp Q E s ↔ m.wp Q' E' s := by
  simp only [wp]
  rcases hm : m s with ⟨e | a, t⟩
  · exact hE e t hm
  · exact hQ a t hm

/-- A computation ends in one way, of which everything known of it holds. -/
theorem wp.and {m : Eff ε σ α} {Q' : α → σ → Prop} {E' : ε → σ → Prop} (h : m.wp Q E s)
    (h' : m.wp Q' E' s) : m.wp (fun a t ↦ Q a t ∧ Q' a t) (fun e t ↦ E e t ∧ E' e t) s := by
  simp only [wp] at h h' ⊢
  rcases hm : m s with ⟨e | a, t⟩ <;> rw [hm] at h h' <;> exact ⟨h, h'⟩

/-- Every computation ends somehow. -/
theorem wp_true (m : Eff ε σ α) (s : σ) : m.wp (fun _ _ ↦ True) (fun _ _ ↦ True) s := by
  simp only [wp]
  rcases m s with ⟨e | a, t⟩ <;> trivial

/-- The outcome itself is what can be said of a computation of which nothing is known. -/
theorem wp_run (m : Eff ε σ α) (s : σ) :
    m.wp (fun a t ↦ m s = (.ok a, t)) (fun e t ↦ m s = (.error e, t)) s := by
  simp only [wp]
  rcases hm : m s with ⟨e | a, t⟩ <;> rfl

/-- What holds of every outcome holds of the one there is. -/
theorem wp.of_run {m : Eff ε σ α} (h : m.wp Q E s) {a : α} {t : σ} (hm : m s = (.ok a, t)) :
    Q a t := by
  rw [wp, hm] at h
  exact h

/-- What holds at both ends holds of the state that is left. -/
theorem wp.left {m : Eff ε σ α} {P : σ → Prop} (h : m.wp (fun _ ↦ P) (fun _ ↦ P) s) :
    P (m s).2 := by
  simp only [wp] at h
  rcases hm : m s with ⟨e | a, t⟩ <;> rw [hm] at h <;> exact h

/-- Both ends of a computation at once. -/
theorem wp.outcome {m : Eff ε σ α} (h : m.wp Q E s) :
    (∀ a, (m s).1 = .ok a → Q a (m s).2) ∧ ∀ e, (m s).1 = .error e → E e (m s).2 := by
  simp only [wp] at h
  rcases hm : m s with ⟨e | a, t⟩ <;> rw [hm] at h
  · refine ⟨fun _ ha ↦ (by cases ha), fun e' he ↦ ?_⟩
    cases he
    exact h
  · refine ⟨fun a' ha ↦ ?_, fun _ he ↦ (by cases he)⟩
    cases ha
    exact h

/-- What never raises returns. -/
theorem wp.exists_ok {m : Eff ε σ α} (h : m.wp Q (fun _ _ ↦ False) s) :
    ∃ a t, m s = (.ok a, t) ∧ Q a t := by
  simp only [wp] at h
  rcases hm : m s with ⟨e | a, t⟩ <;> rw [hm] at h
  · exact h.elim
  · exact ⟨a, t, rfl, h⟩

theorem wp.of_raise {m : Eff ε σ α} (h : m.wp Q E s) {e : ε} {t : σ} (hm : m s = (.error e, t)) :
    E e t := by
  rw [wp, hm] at h
  exact h

/-- A handler that raises what it catches changes nothing. -/
theorem handle_eq_self {m : Eff ε σ α} {h : ε → Eff ε σ α}
    (hm : ∀ s e t, m s = (.error e, t) → h e t = (.error e, t)) : handle m h = m := by
  funext s
  rw [handle]
  rcases hs : m s with ⟨e | a, t⟩
  · exact hm s e t hs
  · rfl

/-! ## What a computation keeps

A property of states that holds afterwards if it held before, whether the computation returns or
raises. -/

/-- However `m` ends, `I` holds afterwards if it held before. -/
def Keeps (I : σ → Prop) (m : Eff ε σ α) : Prop := ∀ s, I s → m.wp (fun _ ↦ I) (fun _ ↦ I) s

section keeps

variable {I : σ → Prop}

theorem Keeps.pure (a : α) : Keeps I (Pure.pure a : Eff ε σ α) := fun _ h ↦ h

theorem Keeps.raise (e : ε) : Keeps I (Eff.raise e : Eff ε σ α) := fun _ h ↦ h

theorem Keeps.ofExcept (x : Except ε α) : Keeps I (Eff.ofExcept x : Eff ε σ α) := by
  cases x with
  | ok a => exact Keeps.pure a
  | error e => exact Keeps.raise e

theorem Keeps.bind {m : Eff ε σ α} {f : α → Eff ε σ β} (hm : Keeps I m)
    (hf : ∀ a, Keeps I (f a)) : Keeps I (m >>= f) := fun s hs ↦
  wp_bind.mpr ((hm s hs).mono (fun a t ht ↦ hf a t ht) fun _ _ h ↦ h)

/-- What is read is the state as it is, so what holds of it may be used. -/
theorem Keeps.read_bind {σ α : Type v} {I : σ → Prop} {f : σ → Eff ε σ α}
    (hf : ∀ s, I s → (f s).wp (fun _ ↦ I) (fun _ ↦ I) s) : Keeps I (read >>= f) := fun s hs ↦
  wp_bind.mpr (wp_read.mpr (hf s hs))

theorem Keeps.attempt {m : Eff ε σ α} (hm : Keeps I m) : Keeps I (Eff.attempt m) := fun s hs ↦
  wp_attempt.mpr (hm s hs)

theorem Keeps.update {f : σ → σ} (hf : ∀ s, I s → I (f s)) :
    Keeps I (Eff.update f : Eff ε σ PUnit) := fun s hs ↦ hf s hs

theorem Keeps.ite {c : Prop} [Decidable c] {m n : Eff ε σ α} (hm : c → Keeps I m)
    (hn : ¬ c → Keeps I n) : Keeps I (if c then m else n) := fun s hs ↦
  wp_ite.mpr ⟨fun h ↦ hm h s hs, fun h ↦ hn h s hs⟩

/-- Whatever is done to a part of the state, if no change of it matters. -/
theorem Keeps.zoom {τ : Type v} {part : τ → σ} {put : σ → τ → τ} {J : τ → Prop}
    (h : ∀ s t, J t → J (put s t)) (m : Eff ε σ α) : Keeps J (m.zoom part put) := fun t ht ↦
  wp_zoom.mpr ((wp_true m (part t)).mono (fun _ s _ ↦ h s t ht) fun _ s _ ↦ h s t ht)

/-- If `m` returns, `I` holds afterwards if it held before.  What `m` raises is not caught. -/
def Restores (I : σ → Prop) (m : Eff ε σ α) : Prop := ∀ s, I s → m.wp (fun _ ↦ I) (fun _ _ ↦ True) s

theorem Keeps.restores {m : Eff ε σ α} (h : Keeps I m) : Restores I m := fun s hs ↦
  (h s hs).mono (fun _ _ h ↦ h) fun _ _ _ ↦ trivial

theorem Restores.raise (e : ε) : Restores I (Eff.raise e : Eff ε σ α) := fun _ _ ↦ trivial

theorem Restores.bind {m : Eff ε σ α} {f : α → Eff ε σ β} (hm : Restores I m)
    (hf : ∀ a, Restores I (f a)) : Restores I (m >>= f) := fun s hs ↦
  wp_bind.mpr ((hm s hs).mono (fun a t ht ↦ hf a t ht) fun _ _ h ↦ h)

theorem Restores.ite {c : Prop} [Decidable c] {m n : Eff ε σ α} (hm : c → Restores I m)
    (hn : ¬ c → Restores I n) : Restores I (if c then m else n) := fun s hs ↦
  wp_ite.mpr ⟨fun h ↦ hm h s hs, fun h ↦ hn h s hs⟩

end keeps

/-! ## What a computation raises

The exceptions of a computation, put together from those of its parts. -/

/-- Whatever `m` raises is one of these, from whatever state it starts. -/
def Raises (P : ε → Prop) (m : Eff ε σ α) : Prop := ∀ s, m.wp (fun _ _ ↦ True) (fun e _ ↦ P e) s

section raises

variable {P : ε → Prop}

theorem Raises.pure (a : α) : Raises P (Pure.pure a : Eff ε σ α) := fun _ ↦ trivial

theorem Raises.raise {e : ε} (h : P e) : Raises P (Eff.raise e : Eff ε σ α) := fun _ ↦ h

theorem Raises.read : Raises P (Eff.read : Eff ε σ σ) := fun _ ↦ trivial

theorem Raises.update (f : σ → σ) : Raises P (Eff.update f : Eff ε σ PUnit) := fun _ ↦ trivial

theorem Raises.attempt (m : Eff ε σ α) : Raises P (Eff.attempt m) := fun s ↦
  wp_attempt.mpr ((wp_true m s).mono (fun _ _ _ ↦ trivial) fun _ _ _ ↦ trivial)

theorem Raises.bind {m : Eff ε σ α} {f : α → Eff ε σ β} (hm : Raises P m)
    (hf : ∀ a, Raises P (f a)) : Raises P (m >>= f) := fun s ↦
  wp_bind.mpr ((hm s).mono (fun a t _ ↦ hf a t) fun _ _ h ↦ h)

theorem Raises.ite {c : Prop} [Decidable c] {m n : Eff ε σ α} (hm : c → Raises P m)
    (hn : ¬ c → Raises P n) : Raises P (if c then m else n) := fun s ↦
  wp_ite.mpr ⟨fun h ↦ hm h s, fun h ↦ hn h s⟩

theorem Raises.ofExcept {x : Except ε α} (h : ∀ e, x = .error e → P e) :
    Raises P (Eff.ofExcept x : Eff ε σ α) := by
  cases x with
  | ok a => exact Raises.pure a
  | error e => exact Raises.raise (h e rfl)

theorem Raises.zoom {τ : Type v} {part : τ → σ} {put : σ → τ → τ} {m : Eff ε σ α}
    (h : Raises P m) : Raises P (m.zoom part put) := fun t ↦ wp_zoom.mpr (h (part t))

end raises

/-- What follows what has returned. -/
theorem bind_of_ok {m : Eff ε σ α} {f : α → Eff ε σ β} {a : α} {t : σ} (h : m s = (.ok a, t)) :
    (m >>= f) s = f a t := by
  show Eff.bind m f s = _
  rw [Eff.bind, h]

/-- Nothing follows what has raised. -/
theorem bind_of_error {m : Eff ε σ α} {f : α → Eff ε σ β} {e : ε} {t : σ}
    (h : m s = (.error e, t)) : (m >>= f) s = (.error e, t) := by
  show Eff.bind m f s = _
  rw [Eff.bind, h]

/-- What follows a read runs on the state that was read. -/
theorem read_bind_run {σ α : Type v} {f : σ → Eff ε σ α} {s : σ} : (read >>= f) s = f s s := rfl

/-- What follows a value runs on it, and nothing follows an exception. -/
theorem ofExcept_bind_run {x : Except ε α} {f : α → Eff ε σ β} :
    (ofExcept x >>= f) s =
      match x with
      | .ok a => f a s
      | .error e => (.error e, s) := by
  cases x <;> rfl

theorem attempt_bind {ε α β : Type w} {m : Eff ε σ α} {f : Except ε α → Eff ε σ β}
    {r : Except ε α} {t : σ} (h : m s = (r, t)) : (attempt m >>= f) s = f r t := by
  show f (m s).1 (m s).2 = _
  rw [h]

theorem zoom_eq {τ : Type v} {part : τ → σ} {put : σ → τ → τ} {m : Eff ε σ α} {t : τ}
    {r : Except ε α} {s : σ} (h : m (part t) = (r, s)) : m.zoom part put t = (r, put s t) := by
  rw [zoom, h]

/-- Computations that end alike have the same things said of them. -/
theorem wp.of_eq {m n : Eff ε σ α} {t : σ} (h : n.wp Q E t) (heq : m s = n t) : m.wp Q E s := by
  rw [wp, heq]
  exact h

/-- What returns is one thing after another. -/
theorem bind_eq_ok {m : Eff ε σ α} {f : α → Eff ε σ β} {b : β} {t : σ} :
    (m >>= f) s = (.ok b, t) ↔ ∃ a r, m s = (.ok a, r) ∧ f a r = (.ok b, t) := by
  show Eff.bind m f s = _ ↔ _
  rw [Eff.bind]
  rcases m s with ⟨e | a, r⟩
  · simp
  · constructor
    · intro h
      exact ⟨a, r, rfl, h⟩
    · rintro ⟨a', r', h, hf⟩
      simp only [Prod.mk.injEq, Except.ok.injEq] at h
      obtain ⟨rfl, rfl⟩ := h
      exact hf

theorem pure_eq_ok {a b : α} {t : σ} :
    (Pure.pure a : Eff ε σ α) s = (.ok b, t) ↔ a = b ∧ s = t := by
  show ((Except.ok a : Except ε α), s) = _ ↔ _
  rw [Prod.mk.injEq, Except.ok.injEq]

theorem ofExcept_eq_ok {x : Except ε α} {a : α} {t : σ} :
    ofExcept x s = (.ok a, t) ↔ x = .ok a ∧ s = t := by
  cases x with
  | ok b =>
    show ((Except.ok b : Except ε α), s) = _ ↔ _
    rw [Prod.mk.injEq]
  | error e =>
    show ((Except.error e : Except ε α), s) = _ ↔ _
    rw [Prod.mk.injEq]

/-- What a list was mapped to, one for one, agrees with it on a shared feature. -/
theorem map_eq_of_forall₂ {ι γ : Type*} {f : α → γ} {g : ι → γ} {xs : List ι} {ys : List α}
    (h : List.Forall₂ (fun x y ↦ f y = g x) xs ys) : ys.map f = xs.map g := by
  induction h with
  | nil => rfl
  | cons hxy _ ih => rw [List.map_cons, List.map_cons, hxy, ih]

theorem forall_mem_of_forall₂ {ι : Type*} {P : α → Prop} {xs : List ι} {ys : List α}
    (h : List.Forall₂ (fun _ y ↦ P y) xs ys) : ∀ y ∈ ys, P y := by
  induction h with
  | nil => exact fun _ h ↦ absurd h List.not_mem_nil
  | cons hy _ ih =>
    intro z hz
    rcases List.mem_cons.mp hz with rfl | hz
    · exact hy
    · exact ih z hz

/-- An invariant of every step is an invariant of the loop over a list. -/
theorem wp_mapM {ι : Type w} {I : σ → Prop} {R : ι → α → Prop} {f : ι → Eff ε σ α} :
    ∀ {xs : List ι} {s : σ}, I s →
      (∀ x ∈ xs, ∀ s, I s → (f x).wp (fun a t ↦ R x a ∧ I t) E s) →
      (xs.mapM f).wp (fun ys t ↦ List.Forall₂ R xs ys ∧ I t) E s
  | [], s, hs, _ => by
    rw [List.mapM_nil, wp_pure]
    exact ⟨List.Forall₂.nil, hs⟩
  | x :: xs, s, hs, hf => by
    rw [List.mapM_cons, wp_bind]
    refine (hf x List.mem_cons_self s hs).mono (fun a t ha ↦ ?_) (fun _ _ h ↦ h)
    rw [wp_bind]
    refine (wp_mapM ha.2 fun y hy ↦ hf y (List.mem_cons_of_mem _ hy)).mono (fun ys r hys ↦ ?_)
      (fun _ _ h ↦ h)
    rw [wp_pure]
    exact ⟨List.Forall₂.cons ha.1 hys.1, hys.2⟩

end Eff
