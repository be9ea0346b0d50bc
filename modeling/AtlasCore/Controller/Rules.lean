import AtlasCore.Controller.Run
import AtlasCore.Lib.View

/-!
# Rules for the steps of a run

What each step of the controller does to what the run itself holds.  `m.Ensures Q E i` says that
`m`, in a run that holds `i`, returns with `Q` or raises with `E`, whatever the surroundings are and
do.

The book of a run is what the statements about its course speak of.  Two runs that differ in
anything else, in their prose or in their log, have one book, so a step that changes only such
things leaves what is known of the book as it is, by definition.
-/

set_option autoImplicit false

namespace AtlasCore

open Py

variable {W : Type} {α β : Type}

namespace RunM

/-- `m`, in a run that holds `i`, returns with `Q` or raises with `E`. -/
abbrev Ensures (m : RunM W α) (Q : α → Inside → Prop) (E : Exc → Inside → Prop) (i : Inside) :
    Prop := m.On Run.inside Q E i

variable {Q : α → Inside → Prop} {E : Exc → Inside → Prop} {i : Inside}

/-- The surroundings do not touch what the run holds. -/
theorem ensures_outside {m : Eff Exc W α} (hQ : ∀ a, Q a i) (hE : ∀ e, E e i) :
    Ensures (outside m) Q E i := Eff.On.still (fun _ ↦ rfl) hQ hE

/-- What the surroundings answer, where that is known of them in every world. -/
theorem ensures_outside_of {m : Eff Exc W α}
    (h : ∀ w, m.wp (fun a _ ↦ Q a i) (fun e _ ↦ E e i) w) : Ensures (outside m) Q E i := by
  rintro r rfl
  exact Eff.wp_zoom.mpr (h r.world)

theorem ensures_metered {m : Eff Exc (W × RunBudget) α} (hQ : ∀ a, Q a i) (hE : ∀ e, E e i) :
    Ensures (metered m) Q E i := by
  refine Eff.On.still (fun r ↦ ?_) hQ hE
  rw [metered]
  cases r.budget <;> rfl

theorem ensures_state {Q : AtlasRunState → Inside → Prop} (h : Q i.state i) :
    Ensures (W := W) state Q E i := by
  rintro r rfl
  exact h

theorem ensures_setState {f : AtlasRunState → AtlasRunState} {Q : Unit → Inside → Prop}
    (h : Q () { i with state := f i.state }) : Ensures (W := W) (setState f) Q E i := by
  rintro r rfl
  exact h

theorem ensures_setMetadata {f : Metadata → Metadata} {Q : Unit → Inside → Prop}
    (h : Q () { i with state := { i.state with metadata := f i.state.metadata } }) :
    Ensures (W := W) (setMetadata f) Q E i := ensures_setState h

theorem ensures_note {m : Mark} {Q : Unit → Inside → Prop}
    (h : Q () { i with trace := i.trace ++ [m] }) : Ensures (W := W) (note m) Q E i := by
  rintro r rfl
  exact h

/-- A value at hand, or the exception in its place. -/
theorem ensures_ofExcept {x : Except Exc α} (hE : ∀ e, E e i) :
    Ensures (W := W) (Eff.ofExcept x) (fun _ j ↦ j = i) E i :=
  Eff.On.ofExcept (fun _ _ ↦ rfl) fun e _ ↦ hE e

/-- The state is at hand in what follows. -/
theorem ensures_state_bind {f : AtlasRunState → RunM W α} (h : Ensures (f i.state) Q E i) :
    Ensures (state >>= f) Q E i := Eff.On.bind (ensures_state h)

theorem ensures_setState_bind {f : AtlasRunState → AtlasRunState} {g : Unit → RunM W α}
    (h : Ensures (g ()) Q E { i with state := f i.state }) : Ensures (setState f >>= g) Q E i :=
  Eff.On.bind (ensures_setState h)

theorem ensures_setMetadata_bind {f : Metadata → Metadata} {g : Unit → RunM W α}
    (h : Ensures (g ()) Q E
      { i with state := { i.state with metadata := f i.state.metadata } }) :
    Ensures (setMetadata f >>= g) Q E i := Eff.On.bind (ensures_setMetadata h)

theorem ensures_note_bind {m : Mark} {g : Unit → RunM W α}
    (h : Ensures (g ()) Q E { i with trace := i.trace ++ [m] }) : Ensures (note m >>= g) Q E i :=
  Eff.On.bind (ensures_note h)

/-- The log may do what it likes: it has no part in the course of the run. -/
theorem ensures_logged {m : Eff Exc (W × EventLog) α} {Q : Option α → Inside → Prop}
    (hQ : ∀ a log, Q a { i with log := log }) (hE : ∀ e log, E e { i with log := log }) :
    Ensures (logged m) Q E i := by
  rintro r rfl
  cases hlog : r.inside.log with
  | none =>
    have hm : logged m r = (.ok none, r) := by
      rw [logged, hlog]
    rw [Eff.wp, hm]
    have h := hQ none none
    rw [← hlog] at h
    exact h
  | some log =>
    have hm : logged m r = ((m (r.world, log)).1.map some,
        { r with
          world := (m (r.world, log)).2.1
          inside := { r.inside with log := some (m (r.world, log)).2.2 } }) := by
      rw [logged, hlog]
    rw [Eff.wp, hm]
    cases (m (r.world, log)).1 with
    | ok a => exact hQ (some a) _
    | error e => exact hE e _

variable (env : Setting W)

theorem ensures_append {kind : EventKind} {iteration : ℕ} {payload : Fields}
    {Q : Unit → Inside → Prop} (hQ : ∀ log, Q () { i with log := log })
    (hE : ∀ e log, E e { i with log := log }) :
    Ensures (append env kind iteration payload) Q E i := by
  rw [append]
  cases env.events with
  | none => exact Eff.On.pure (hQ i.log)
  | some sink =>
    exact Eff.On.bind (ensures_logged (fun _ log ↦ Eff.On.pure (hQ log)) hE)

theorem ensures_startCall {callKind : CallKind} {iteration : ℕ} {target : Option Str}
    {idempotent : Bool} {Q : Option Str → Inside → Prop}
    (hQ : ∀ call log, Q call { i with log := log }) (hE : ∀ e log, E e { i with log := log }) :
    Ensures (startCall env callKind iteration target idempotent) Q E i := by
  rw [startCall]
  cases env.events with
  | none => exact Eff.On.pure (hQ none i.log)
  | some sink => exact ensures_logged hQ hE

theorem ensures_finishCall {call : Option Str} {outcome : CallOutcome} {iteration : ℕ}
    {error : Option Exc} {Q : Unit → Inside → Prop} (hQ : ∀ log, Q () { i with log := log })
    (hE : ∀ e log, E e { i with log := log }) :
    Ensures (finishCall env call outcome iteration error) Q E i := by
  unfold finishCall
  split
  · exact Eff.On.bind (ensures_logged (fun _ log ↦ Eff.On.pure (hQ log)) hE)
  · exact Eff.On.pure (hQ i.log)

end RunM

/-- What the statements about the course of a run speak of. -/
structure Book where
  status : Status
  stopReason : Option StopReason
  iteration : ℕ
  maxIterations : ℕ
  evaluations : List AtlasEvaluation
  /-- How many rounds of observation were committed. -/
  rounds : ℕ
  trace : List Mark

/-- The book of a run: what of its state the rules of the machine speak about. -/
def Inside.book (i : Inside) : Book where
  status := i.state.status
  stopReason := i.state.stopReason
  iteration := i.state.iteration
  maxIterations := i.state.maxIterations
  evaluations := i.state.evaluations
  rounds := i.state.metadata.observationRounds.length
  trace := i.trace

end AtlasCore
