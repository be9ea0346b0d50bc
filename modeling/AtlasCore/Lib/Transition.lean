import Mathlib.Tactic.TypeStar
import Mathlib.Data.List.Basic

/-!
# Systems that take one step after another

A system is an initial state and a partial step function; which action comes next is anybody's
choice, so a run is any list of actions that are enabled one after the other.  A run remembers each
action together with the state it was taken in, because most of what is asked of an interleaving is
asked of one step *and* the state before it.

The two rules are the usual ones.  An invariant holds in every state of every run
(`Run.invariant`), and, where a step keeps it only under a condition, in every state of the runs
whose steps all meet the condition (`Run.invariant_of_guard`).  `Simulation` transfers runs from a
system to a coarser one.
-/

set_option autoImplicit false

/-- A transition system with states `σ` and actions `α`. -/
structure System (σ α : Type*) where
  /-- The state every run starts in. -/
  init : σ
  /-- The state after an action, if it is enabled. -/
  step : σ → α → Option σ

namespace System

variable {σ α : Type*} (S : System σ α)

/-- `S.Run tr s`: the steps `tr`, oldest first and each with the state before it, lead from the
initial state to `s`. -/
inductive Run : List (σ × α) → σ → Prop where
  | init : Run [] S.init
  | step {tr : List (σ × α)} {s : σ} {a : α} {s' : σ} (run : Run tr s) (h : S.step s a = some s') :
      Run (tr ++ [(s, a)]) s'

/-- The run that a list of actions takes from a state, if each is enabled in turn. -/
def trace : σ → List α → Option (List (σ × α) × σ)
  | s, [] => some ([], s)
  | s, a :: rest =>
    (S.step s a).bind fun s' ↦ (trace s' rest).map fun p ↦ ((s, a) :: p.1, p.2)

variable {S}

/-- **The invariant rule under a guard.**  If a step keeps `P` whenever it meets `G`, then `P` holds
throughout every run whose steps meet `G`. -/
theorem Run.invariant_of_guard {P : σ → Prop} {G : σ → α → Prop} (h0 : P S.init)
    (hstep : ∀ s a s', P s → G s a → S.step s a = some s' → P s') {tr : List (σ × α)} {s : σ}
    (run : S.Run tr s) (hG : ∀ x ∈ tr, G x.1 x.2) : P s ∧ ∀ x ∈ tr, P x.1 := by
  induction run with
  | init => exact ⟨h0, fun x hx ↦ absurd hx List.not_mem_nil⟩
  | @step tr s a s' run h ih =>
    obtain ⟨hs, htr⟩ := ih fun x hx ↦ hG x (List.mem_append_left _ hx)
    refine ⟨hstep s a s' hs (hG (s, a) (by simp)) h, fun x hx ↦ ?_⟩
    rcases List.mem_append.mp hx with hx | hx
    · exact htr x hx
    · rw [List.mem_singleton] at hx
      rw [hx]
      exact hs

/-- **The invariant rule.** -/
theorem Run.invariant {P : σ → Prop} (h0 : P S.init)
    (hstep : ∀ s a s', P s → S.step s a = some s' → P s') {tr : List (σ × α)} {s : σ}
    (run : S.Run tr s) : P s ∧ ∀ x ∈ tr, P x.1 :=
  run.invariant_of_guard (G := fun _ _ ↦ True) h0 (fun s a s' hs _ h ↦ hstep s a s' hs h)
    fun _ _ ↦ trivial

/-- Actions that are enabled one after the other extend a run. -/
theorem Run.append_trace : ∀ {acts : List α} {tr tr' : List (σ × α)} {s s' : σ}, S.Run tr s →
    S.trace s acts = some (tr', s') → S.Run (tr ++ tr') s'
  | [], tr, tr', s, s', run, h => by
    simp only [trace, Option.some.injEq, Prod.mk.injEq] at h
    rw [← h.1, ← h.2, List.append_nil]
    exact run
  | a :: rest, tr, tr', s, s', run, h => by
    rw [trace, Option.bind_eq_some_iff] at h
    obtain ⟨t, ht, hrest⟩ := h
    obtain ⟨⟨tr'', s''⟩, htr, he⟩ := Option.map_eq_some_iff.mp hrest
    simp only [Prod.mk.injEq] at he
    have run' := (run.step ht).append_trace htr
    rw [List.append_assoc, List.singleton_append, he.1, he.2] at run'
    exact run'

/-- What a list of actions does from the initial state is a run. -/
theorem run_of_trace {acts : List α} {tr : List (σ × α)} {s : σ}
    (h : S.trace S.init acts = some (tr, s)) : S.Run tr s := Run.init.append_trace h

/-! ## Simulation

A relation between the states of two systems that every step keeps relates their runs. -/

/-- Every step of `S` is a step of `T` or leaves its state alone. -/
structure Simulation {τ β : Type*} (S : System σ α) (T : System τ β) where
  /-- What `T` sees of a state. -/
  state : σ → τ
  /-- The action `T` sees, if the step is one of its own. -/
  action : σ → α → Option β
  /-- The two start together. -/
  init_eq : state S.init = T.init
  /-- A step of `S`, seen from `T`. -/
  step_eq : ∀ s a s', S.step s a = some s' →
    match action s a with
    | some b => T.step (state s) b = some (state s')
    | none => state s' = state s

/-- **Runs are simulated**: what `T` sees of a run of `S` is a run of `T`. -/
theorem Simulation.run {τ β : Type*} {T : System τ β} (R : Simulation S T) {tr : List (σ × α)}
    {s : σ}
    (run : S.Run tr s) :
    T.Run (tr.filterMap fun x ↦ (R.action x.1 x.2).map fun b ↦ (R.state x.1, b)) (R.state s) := by
  induction run with
  | init => rw [List.filterMap_nil, R.init_eq]; exact Run.init
  | @step tr s a s' run h ih =>
    have hs := R.step_eq s a s' h
    rw [List.filterMap_append]
    cases ha : R.action s a with
    | none =>
      rw [ha] at hs
      simp only at hs
      rw [hs]
      simpa [ha] using ih
    | some b =>
      rw [ha] at hs
      simpa [ha] using ih.step hs

end System
