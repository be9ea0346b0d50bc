import AtlasCore.Controller.Run
import AtlasCore.Lib.View

/-!
# What a run carries from pass to pass

The holdings of a run are what it took in, what it wrote down and what it paid: its texts, its
grades, its rounds of observation, its log and its budget.  Most steps of a run leave them as they
are (`Quiet`), and the few that do not come in one order: a plan, an output, a grade, a reading.

`Carried` says of a property of the holdings that each of those few steps hands it on, and
`Carried.afterSetUp` that then the whole run does.  What is carried depends on the phase of the
pass.
-/

set_option autoImplicit false

namespace AtlasCore

open Py RunM

variable {W : Type} {α β : Type}

/-- What the statements about the record and the bill of a run speak of. -/
structure Holdings where
  iteration : ℕ
  evaluations : List AtlasEvaluation
  rounds : List RoundRecord
  outputs : List Str
  observations : List Str
  evidenceBase : Option EvidenceBase
  log : Option EventLog
  budget : Option RunBudget

/-- The holdings of a run: what of its state the log is compared with. -/
def Run.holdings (r : Run W) : Holdings where
  iteration := r.inside.state.iteration
  evaluations := r.inside.state.evaluations
  rounds := r.inside.state.metadata.observationRounds
  outputs := r.inside.state.outputs
  observations := r.inside.state.observations
  evidenceBase := r.inside.state.evidenceBase
  log := r.inside.log
  budget := r.budget

namespace RunM

/-- `m`, in a run with the holdings `b`, returns with `Q` or raises with `E`. -/
abbrev HoldsOn (m : RunM W α) (Q : α → Holdings → Prop) (E : Exc → Holdings → Prop)
    (b : Holdings) : Prop :=
  m.On Run.holdings Q E b

/-- A step that leaves the holdings as they are. -/
abbrev Quiet (m : RunM W α) : Prop := ∀ b, Eff.Keeps (fun r : Run W ↦ r.holdings = b) m

end RunM

variable {Q : α → Holdings → Prop} {E : Exc → Holdings → Prop} {b : Holdings} {env : Setting W}

/-- What is known of the holdings is known after a step that leaves it as it is. -/
theorem RunM.Quiet.holdsOn {m : RunM W α} (h : Quiet m) (hQ : ∀ a, Q a b) (hE : ∀ e, E e b) :
    HoldsOn m Q E b := fun r hr ↦
  (h b r hr).mono (fun a _ ht ↦ ht ▸ hQ a) fun e _ ht ↦ ht ▸ hE e

/-- What follows a step that leaves the holdings as they are. -/
theorem RunM.Quiet.step {m : RunM W α} {f : α → RunM W β} {Q : β → Holdings → Prop} (h : Quiet m)
    (hf : ∀ a, HoldsOn (f a) Q E b) (hE : ∀ e, E e b) : HoldsOn (m >>= f) Q E b :=
  Eff.On.bind (h.holdsOn hf hE)

/-- The state is at hand in what follows. -/
theorem holdsOn_state {f : AtlasRunState → RunM W α}
    (h : ∀ r : Run W, r.holdings = b → HoldsOn (f r.inside.state) Q E b) :
    HoldsOn (state >>= f) Q E b := fun r hr ↦
  Eff.wp_bind.mpr (h r hr r hr)

/-- The state is set, and the holdings move with it. -/
theorem holdsOn_setState {f : AtlasRunState → AtlasRunState} {g : Unit → RunM W α}
    (move : Holdings → Holdings)
    (hmove : ∀ r : Run W,
      Run.holdings { r with inside := { r.inside with state := f r.inside.state } } =
        move r.holdings)
    (hg : HoldsOn (g ()) Q E (move b)) : HoldsOn (setState f >>= g) Q E b := by
  rintro r rfl
  exact Eff.wp_bind.mpr (hg _ (hmove r))

/-! ## Steps that leave the holdings as they are -/

section
variable {m : RunM W α} {f : α → RunM W β}

theorem quiet_of_eq (h : ∀ r, (m r).2.holdings = r.holdings) : Quiet m := fun b r hr ↦ by
  refine (Eff.wp_run m r).mono (fun a t ht ↦ ?_) fun e t ht ↦ ?_ <;>
  · have hsame := h r
    rw [ht] at hsame
    exact hsame.trans hr

theorem quiet_bind (hm : Quiet m) (hf : ∀ a, Quiet (f a)) : Quiet (m >>= f) := fun b ↦
  (hm b).bind fun a ↦ hf a b

theorem quiet_pure (a : α) : Quiet (pure a : RunM W α) := fun _ ↦ Eff.Keeps.pure a

theorem quiet_raise (e : Exc) : Quiet (Eff.raise e : RunM W α) := fun _ ↦ Eff.Keeps.raise e

theorem quiet_ofExcept (x : Except Exc α) : Quiet (Eff.ofExcept x : RunM W α) := fun _ ↦
  Eff.Keeps.ofExcept x

theorem quiet_ite {c : Prop} [Decidable c] {n : RunM W α} (hm : c → Quiet m) (hn : ¬ c → Quiet n) :
    Quiet (if c then m else n) := fun b ↦ Eff.Keeps.ite (fun h ↦ hm h b) fun h ↦ hn h b

theorem quiet_attempt (hm : Quiet m) : Quiet (Eff.attempt m) := fun b ↦ (hm b).attempt

theorem quiet_read : Quiet (Eff.read : RunM W (Run W)) := fun _ _ h ↦ h

theorem quiet_state : Quiet (state : RunM W AtlasRunState) := fun _ _ h ↦ h

theorem quiet_outside (m : Eff Exc W α) : Quiet (outside m) := quiet_of_eq fun _ ↦ rfl

theorem quiet_note (mark : Mark) : Quiet (note mark : RunM W Unit) := quiet_of_eq fun _ ↦ rfl

/-- What is done with the budget leaves the rest of the holdings alone. -/
theorem quiet_metered {m : Eff Exc (W × RunBudget) α}
    (h : ∀ budget, Eff.Keeps (fun p : W × RunBudget ↦ p.2 = budget) m) : Quiet (metered m) := by
  refine quiet_of_eq fun r ↦ ?_
  rw [metered]
  cases hbudget : r.budget with
  | none => rfl
  | some budget =>
    have hkept : (m (r.world, budget)).2.2 = budget := (h budget (r.world, budget) rfl).left
    simp only [Run.holdings, hkept, hbudget]

theorem keeps_ofWorld_snd {m : Eff Exc W α} {budget : RunBudget} :
    Eff.Keeps (fun p : W × RunBudget ↦ p.2 = budget) (ofWorld m) := fun p hp ↦
  Eff.wp_zoom.mpr ((Eff.wp_true m p.1).mono (fun _ _ _ ↦ hp) fun _ _ _ ↦ hp)

/-- A check reads the budget and no more. -/
theorem keeps_check {meter : Meter W} {budget : RunBudget} :
    Eff.Keeps (fun p : W × RunBudget ↦ p.2 = budget) (RunBudget.check meter) := by
  refine keeps_ofWorld_snd.bind fun late ↦ Eff.Keeps.ite (fun _ ↦ Eff.Keeps.raise _) fun _ ↦ ?_
  refine keeps_ofWorld_snd.bind fun now ↦ Eff.Keeps.read_bind fun p hp ↦ ?_
  exact Eff.wp_ite.mpr ⟨fun _ ↦ hp, fun _ ↦ hp⟩

theorem quiet_check : Quiet (metered (RunBudget.check env.meter)) := quiet_metered fun _ ↦
    keeps_check

theorem quiet_refuse (source target : Status) : Quiet (refuse source target : RunM W Unit) :=
  quiet_bind (quiet_note _) fun _ ↦ quiet_raise _

theorem quiet_become (s : Status) : Quiet (become s : RunM W Unit) :=
  quiet_bind (quiet_of_eq fun _ ↦ rfl) fun _ ↦ quiet_note _

theorem quiet_enter (target : Status) : Quiet (enter target : RunM W Unit) :=
  quiet_bind quiet_state fun _ ↦ quiet_ite (fun _ ↦ quiet_become _) fun _ ↦ quiet_refuse _ _

theorem quiet_stop (reason : StopReason) : Quiet (stop reason : RunM W Unit) := by
  have hset : Quiet (setState (W := W) fun s ↦ { s with stopReason := some reason }) :=
    quiet_of_eq fun _ ↦ rfl
  refine quiet_ite (fun _ ↦ ?_) fun _ ↦ quiet_bind (quiet_enter _) fun _ ↦ hset
  refine quiet_bind quiet_state fun _ ↦ quiet_ite (fun _ ↦ ?_) fun _ ↦ ?_
  · exact quiet_bind (quiet_refuse _ _) fun _ ↦ hset
  · exact quiet_bind (quiet_become _) fun _ ↦ hset

theorem quiet_stopBudget (limit : Str) : Quiet (stopBudget limit : RunM W Unit) :=
  quiet_bind (quiet_of_eq fun _ ↦ rfl) fun _ ↦ quiet_stop _

theorem quiet_stopToolError (stage : String) (e : Exc) :
    Quiet (stopToolError stage e : RunM W Unit) :=
  quiet_bind (quiet_stop _) fun _ ↦ quiet_of_eq fun _ ↦ rfl

theorem quiet_expired : Quiet (expired env) := by
  refine quiet_bind quiet_read fun r ↦
    quiet_bind (quiet_attempt (quiet_ite (fun _ ↦ ?_) fun _ ↦ ?_))
    fun x ↦ ?_
  · exact quiet_bind (quiet_outside _) fun _ ↦ quiet_ite (fun _ ↦ quiet_raise _) fun _ ↦
      quiet_pure _
  · exact quiet_check
  · split
    · exact quiet_pure _
    · exact quiet_bind (quiet_stop _) fun _ ↦ quiet_pure _
    · exact quiet_bind (quiet_stopBudget _) fun _ ↦ quiet_pure _
    · exact quiet_raise _

theorem quiet_driftReport : Quiet (driftReport env) := by
  refine quiet_bind quiet_state fun s ↦ ?_
  split
  · exact quiet_bind (quiet_note _) fun _ ↦ quiet_pure _
  · refine quiet_ite (fun _ ↦ quiet_bind (quiet_note _) fun _ ↦ quiet_pure _) fun _ ↦ ?_
    exact quiet_bind (quiet_outside _) fun _ ↦ quiet_bind (quiet_note _) fun _ ↦ quiet_pure _

theorem quiet_settle {e : AtlasEvaluation} : Quiet (settle env e) := by
  have hblock : ∀ (f : Metadata → Metadata) (reason : StopReason),
      (∀ m, (f m).observationRounds = m.observationRounds) → Quiet (do
        setMetadata f
        stop reason
        return Flow.leave : RunM W Flow) := fun f reason hf ↦
    quiet_bind (quiet_of_eq fun r ↦ congrArg (fun rounds ↦ { r.holdings with rounds }) (hf _))
      fun _ ↦
      quiet_bind (quiet_stop _) fun _ ↦ quiet_pure _
  refine quiet_bind quiet_read fun r ↦ quiet_ite (fun _ ↦ hblock _ _ fun _ ↦ rfl) fun _ ↦
    quiet_ite (fun _ ↦ hblock _ _ fun _ ↦ rfl) fun _ ↦
    quiet_ite (fun _ ↦ hblock _ _ fun _ ↦ rfl) fun _ ↦ quiet_ite (fun _ ↦ ?_) fun _ ↦ ?_
  · exact quiet_bind (quiet_stop _) fun _ ↦ quiet_pure _
  · exact quiet_bind (quiet_enter _) fun _ ↦ quiet_pure _

theorem quiet_settleDrift {e : AtlasEvaluation} {report : Option DriftReport} :
    Quiet (settleDrift env e report) := by
  cases report with
  | none => exact quiet_settle
  | some report =>
    have hdrift : Quiet (stopForDrift report : RunM W Unit) :=
      quiet_bind quiet_state fun _ ↦ quiet_bind (quiet_of_eq fun _ ↦ rfl) fun _ ↦ quiet_stop _
    exact quiet_bind hdrift fun _ ↦ quiet_pure _

theorem quiet_remember : Quiet (remember env) := by
  refine quiet_bind quiet_read fun r ↦ ?_
  dsimp only
  split
  · refine quiet_ite (fun _ ↦ ?_) fun _ ↦ quiet_pure _
    split <;> exact quiet_bind (quiet_outside _) fun _ ↦ quiet_of_eq fun _ ↦ rfl
  · exact quiet_pure _

theorem quiet_conclude : Quiet (conclude env) := by
  refine quiet_bind quiet_state fun s ↦ quiet_ite (fun _ ↦ ?_) fun _ ↦ quiet_remember
  exact quiet_bind (quiet_stop _) fun _ ↦ quiet_remember

end

/-! ## What is carried

The pattern of an induction over a run: a property of what the run holds, by the phase of the pass
it is in, with what each step needs to carry it on. -/

/-- Where a pass is, as the log tells it. -/
inductive Phase where
  | opened | planned | decided | reread
  deriving DecidableEq

/-- Whether a reading may follow: at the opening, and after a decision, but not twice in a row. -/
def Phase.mayRead : Phase → Bool
  | opened | decided => true
  | planned | reread => false

/-- The phase after a reading that came to this. -/
def Phase.afterReading (phase : Phase) (outcome : RoundOutcome) : Phase :=
  if outcome = .stopped then phase else .reread

/-- Each step that changes the holdings hands on what is known of it. -/
structure Carried (env : Setting W) (recorded : List Material) (J : Phase → Holdings → Prop)
    (R : Produced → Holdings → Prop) (K : Holdings → Prop) : Prop where
  weaken : ∀ {phase b}, J phase b → K b
  gather : ∀ {b}, J .opened b → HoldsOn (gather env) (fun _ c ↦ J .opened c) (fun _ ↦ K) b
  remember : ∀ {b} {more : List Str}, J .opened b → b.budget = none →
    J .opened { b with observations := b.observations ++ more }
  read : ∀ {phase b request patterns}, J phase b → phase.mayRead = true →
    HoldsOn (observeRound env recorded request patterns)
      (fun outcome c ↦ J (phase.afterReading outcome) c) (fun _ ↦ K) b
  plan : ∀ {phase b}, J phase b → phase ≠ .planned →
    HoldsOn (routeAndPlan env) (fun _ c ↦ J .planned c) (fun _ ↦ K)
      { b with iteration := b.iteration + 1 }
  produce : ∀ {b route plan}, J .planned b →
    HoldsOn (produce env route plan)
      (fun found c ↦ (found = none → J .planned c) ∧ ∀ p, found = some p → R p c) (fun _ ↦ K) b
  adopt : ∀ {b p}, R p b → J .planned { b with outputs := b.outputs ++ [p.output] }
  grade : ∀ {b route plan p}, J .planned b →
    HoldsOn (grade env route plan p) (fun _ c ↦ J .decided c) (fun _ ↦ K) b

namespace Carried

variable {recorded : List Material} {J : Phase → Holdings → Prop} {R : Produced → Holdings → Prop}
  {K : Holdings → Prop} (h : Carried env recorded J R K)
include h

/-! ### A pass

The parts of a pass, each with what it may do to the holdings. -/

theorem readAgain {e : AtlasEvaluation} {report : Option DriftReport} {review : Option ReviewPlan}
    (hb : J .decided b) :
    HoldsOn (readAgain env recorded e report review)
      (fun outcome c ↦ J (Phase.decided.afterReading outcome) c) (fun _ ↦ K) b := by
  refine holdsOn_state fun r hr ↦ ?_
  split
  · exact Eff.On.raise (h.weaken hb)
  · exact (quiet_ofExcept _).step (fun asked ↦ (quiet_enter _).step (fun _ ↦ h.read hb rfl)
      fun _ ↦ h.weaken hb) fun _ ↦ h.weaken hb

/-- After a grade the pass ends outside its plan. -/
theorem judge {plan : AtlasPlan} {e : AtlasEvaluation} (hb : J .decided b) :
    HoldsOn (judge env recorded plan e) (fun _ c ↦ ∃ phase, J phase c ∧ phase ≠ .planned)
      (fun _ ↦ K)
      b := by
  have hend : ∀ {phase : Phase} {c : Holdings} {report : Option DriftReport}, J phase c →
      phase ≠ .planned → HoldsOn (settleDrift env e report)
        (fun _ c ↦ ∃ phase, J phase c ∧ phase ≠ .planned) (fun _ ↦ K) c := fun hc hne ↦
    quiet_settleDrift.holdsOn (fun _ ↦ ⟨_, hc, hne⟩) fun _ ↦ h.weaken hc
  refine quiet_driftReport.step (fun report ↦ holdsOn_state fun r hr ↦ ?_) fun _ ↦ h.weaken hb
  refine Eff.On.ite (fun _ ↦ (h.readAgain hb).step fun outcome c hc ↦ ?_) fun _ ↦
    hend hb Phase.noConfusion
  cases outcome with
  | stopped => exact Eff.On.pure ⟨.decided, hc, Phase.noConfusion⟩
  | nothing => exact hend hc Phase.noConfusion
  | new =>
    exact (quiet_enter _).step (fun _ ↦ Eff.On.pure ⟨.reread, hc, Phase.noConfusion⟩) fun _ ↦
      h.weaken hc

/-- What is known when a pass says whether there is another. -/
abbrev Handed (J : Phase → Holdings → Prop) (flow : Flow) (c : Holdings) : Prop :=
  ∃ phase, J phase c ∧ (flow = .again → phase ≠ .planned)

theorem gradeAndJudge {route : RouteName} {plan : AtlasPlan} {p : Produced} (hb : R p b) :
    HoldsOn (gradeAndJudge env recorded route plan p) (Handed J) (fun _ ↦ K) b := by
  have hadopted := h.adopt hb
  refine holdsOn_state fun r hr ↦ ?_
  refine holdsOn_setState (fun b ↦ { b with outputs := b.outputs ++ [p.output] }) (fun _ ↦ rfl) ?_
  refine holdsOn_setState id (fun _ ↦ rfl) ?_
  refine (quiet_enter _).step (fun _ ↦ quiet_expired.step (fun late ↦ ?_) fun _ ↦
    h.weaken hadopted) fun _ ↦ h.weaken hadopted
  refine Eff.On.ite (fun _ ↦ Eff.On.pure ⟨.planned, hadopted, Flow.noConfusion⟩) fun _ ↦ ?_
  refine (h.grade hadopted).step fun e c hc ↦ quiet_expired.step (fun late ↦ ?_) fun _ ↦ h.weaken hc
  refine Eff.On.ite (fun _ ↦ Eff.On.pure ⟨.decided, hc, Flow.noConfusion⟩) fun _ ↦ ?_
  refine (h.judge hc).imp fun flow c hc ↦ ?_
  obtain ⟨phase, hphase, hne⟩ := hc
  exact ⟨phase, hphase, fun _ ↦ hne⟩

theorem onePass {phase : Phase} (hb : J phase b) (hne : phase ≠ .planned) :
    HoldsOn (onePass env recorded) (Handed J) (fun _ ↦ K) b := by
  refine quiet_expired.step (fun late ↦ ?_) fun _ ↦ h.weaken hb
  refine Eff.On.ite (fun _ ↦ Eff.On.pure ⟨phase, hb, Flow.noConfusion⟩) fun _ ↦ ?_
  refine holdsOn_setState (fun b ↦ { b with iteration := b.iteration + 1 }) (fun _ ↦ rfl) ?_
  refine (h.plan hb hne).step fun chosen c hc ↦ quiet_expired.step (fun late ↦ ?_) fun _ ↦
    h.weaken hc
  refine Eff.On.ite (fun _ ↦ Eff.On.pure ⟨.planned, hc, Flow.noConfusion⟩) fun _ ↦ ?_
  refine (h.produce hc).step fun found c hc ↦ ?_
  cases found with
  | none => exact Eff.On.pure ⟨.planned, hc.1 rfl, Flow.noConfusion⟩
  | some p => exact h.gradeAndJudge (hc.2 p rfl)

/-- Every pass hands on what is known, so the loop does. -/
theorem loop {fuel : ℕ} : ∀ {phase : Phase} {b : Holdings}, J phase b → phase ≠ .planned →
    HoldsOn (loop env recorded fuel) (fun _ c ↦ ∃ phase, J phase c) (fun _ ↦ K) b := by
  induction fuel with
  | zero => exact fun hb _ ↦ Eff.On.pure ⟨_, hb⟩
  | succ fuel ih =>
    intro phase b hb hne
    refine holdsOn_state fun r hr ↦ ?_
    refine Eff.On.ite (fun _ ↦ (h.onePass hb hne).step fun flow c hc ↦ ?_) fun _ ↦
      Eff.On.pure ⟨phase, hb⟩
    obtain ⟨phase, hphase, hagain⟩ := hc
    cases flow with
    | leave => exact Eff.On.pure ⟨phase, hphase⟩
    | again => exact ih hphase (hagain rfl)

/-! ### The run

The parts before and after the loop, and the loop itself. -/

theorem work {phase : Phase} (hb : J phase b) (hne : phase ≠ .planned) :
    HoldsOn (work env recorded) (fun _ c ↦ ∃ phase, J phase c) (fun _ ↦ K) b := by
  refine (h.loop hb hne).step fun _ c hc ↦ ?_
  obtain ⟨phase, hphase⟩ := hc
  exact quiet_conclude.holdsOn (fun _ ↦ ⟨phase, hphase⟩) fun _ ↦ h.weaken hphase

theorem readMemory (hb : J .opened b) :
    HoldsOn (readMemory env) (fun _ c ↦ J .opened c) (fun _ ↦ K) b := by
  refine Eff.On.read_bind fun r hr ↦ ?_
  dsimp only
  split
  · exact Eff.On.pure hb
  · refine Eff.On.ite (fun _ ↦ (quiet_of_eq fun _ ↦ rfl : Quiet _).holdsOn (fun _ ↦ hb) fun _ ↦
      h.weaken hb) fun hfree ↦ ?_
    refine (quiet_outside _).step (fun remembered ↦ ?_) fun _ ↦ h.weaken hb
    have hnone : b.budget = none := by
      rw [← hr]
      exact Option.not_isSome_iff_eq_none.mp hfree
    rintro t rfl
    exact h.remember hb hnone

theorem firstRead (hb : J .opened b) :
    HoldsOn (firstRead env recorded) (fun outcome c ↦ J (Phase.opened.afterReading outcome) c ∨
      J .opened c) (fun _ ↦ K) b := by
  have hK : K b := h.weaken hb
  refine holdsOn_state fun r hr ↦ ?_
  split
  · refine Eff.On.ite (fun _ ↦ ?_) fun _ ↦ Eff.On.pure (.inr hb)
    refine Quiet.step ?_ ?_ ?_
    · exact quiet_ofExcept _
    · intro plan
      refine Quiet.step ?_ ?_ ?_
      · exact quiet_ofExcept _
      · intro request
        exact (h.read hb rfl).imp fun _ _ hc ↦ .inl hc
      · exact fun _ ↦ hK
    · exact fun _ ↦ hK
  · exact Eff.On.pure (.inr hb)

/-- **What every step hands on, a run does**, from what is known once its host has spoken. -/
theorem afterSetUp (hK : K b)
    (hb : J .opened
      { b with observations := b.observations ++ env.initial, evidenceBase := env.evidence }) :
    HoldsOn (do
      enter .observing
      setState fun s ↦
        { s with observations := s.observations ++ env.initial, evidenceBase := env.evidence }
      if ← AtlasCore.gather env then pure ()
      else do
        AtlasCore.readMemory env
        if requiresWriteApproval env.rt env.task then
          setMetadata fun m ↦ { m with safetyNotice := true }
        else pure ()
        if ← expired env then pure ()
        else
          match ← AtlasCore.firstRead env recorded with
          | .stopped => pure ()
          | _ => AtlasCore.work env recorded)
      (fun _ c ↦ ∃ phase, J phase c) (fun _ ↦ K) b := by
  have hrest : ∀ {c : Holdings}, J .opened c → HoldsOn (do
      if ← expired env then pure ()
      else
        match ← AtlasCore.firstRead env recorded with
        | .stopped => pure ()
        | _ => AtlasCore.work env recorded : RunM W Unit)
      (fun _ c ↦ ∃ phase, J phase c) (fun _ ↦ K) c := by
    intro c hc
    refine quiet_expired.step (fun late ↦ ?_) fun _ ↦ h.weaken hc
    refine Eff.On.ite (fun _ ↦ Eff.On.pure ⟨.opened, hc⟩) fun _ ↦ ?_
    refine (h.firstRead hc).step fun outcome d hd ↦ ?_
    obtain ⟨phase, hphase, hne⟩ : ∃ phase, J phase d ∧ phase ≠ .planned := by
      rcases hd with hd | hd
      · refine ⟨_, hd, ?_⟩
        rw [Phase.afterReading]
        split_ifs <;> exact Phase.noConfusion
      · exact ⟨.opened, hd, Phase.noConfusion⟩
    cases outcome with
    | stopped => exact Eff.On.pure ⟨phase, hphase⟩
    | nothing => exact h.work hphase hne
    | new => exact h.work hphase hne
  refine (quiet_enter _).step (fun _ ↦ ?_) fun _ ↦ hK
  refine holdsOn_setState
    (fun b ↦ { b with observations := b.observations ++ env.initial, evidenceBase := env.evidence })
    (fun _ ↦ rfl) ?_
  refine (h.gather hb).step fun late c hc ↦ ?_
  refine Eff.On.ite (fun _ ↦ Eff.On.pure ⟨.opened, hc⟩) fun _ ↦ ?_
  refine (h.readMemory hc).step fun _ c hc ↦ ?_
  refine Eff.On.ite (fun _ ↦ ?_) fun _ ↦ hrest hc
  exact holdsOn_setState id (fun _ ↦ rfl) (hrest hc)

end Carried

end AtlasCore
