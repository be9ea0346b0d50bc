import AtlasCore.Controller.Carried
import AtlasCore.Controller.Logged
import AtlasCore.Evidence.Digests

/-!
# What the log of a run tells of it

The log is written while the run goes on, and read by those who were not there.  What it tells is
the run: its decisions are the grades of the run, in their order and with the pass that each was
made in, its readings are the rounds of observation, and plans, decisions and readings come in the
order in which a pass makes them (`Tale`).  A run that raises may be ahead of its log, which tells a
beginning of it (`Lags`).
-/

set_option autoImplicit false

namespace AtlasCore

open Py RunM EventLog

variable {W : Type} {α β : Type}

/-! ## Tales

A log tells of the steps of a run in an order that the loop leaves no choice about.  `Tale` is
that order, from the opening to the stop. -/

/-- The events that tell of a pass, with the pass they tell of. -/
def stepsOf (events : List Event) : List (EventKind × ℕ) :=
  (events.filter fun e ↦ e.kind.isStep).map fun e ↦ (e.kind, e.iteration)

/-- What the events of a kind say: for each, the pass it belongs to and its payload, in the order of
the log. -/
def toldOf (kind : EventKind) (events : List Event) : List (ℕ × Fields) :=
  (events.filter fun e ↦ e.kind = kind).map fun e ↦ (e.iteration, e.payload)

/-- The steps of a run that is in this phase of its `n`th pass. -/
inductive Tale : ℕ → Phase → List (EventKind × ℕ) → Prop where
  | opened : Tale 0 .opened []
  | plan {n : ℕ} {phase : Phase} {steps : List (EventKind × ℕ)} (before : Tale n phase steps)
      (rests : phase ≠ .planned) : Tale (n + 1) .planned (steps ++ [(.planSelected, n + 1)])
  | decision {n : ℕ} {steps : List (EventKind × ℕ)} (before : Tale n .planned steps) :
      Tale n .decided (steps ++ [(.decisionRecorded, n)])
  | reading {n : ℕ} {phase : Phase} {steps : List (EventKind × ℕ)} (before : Tale n phase steps)
      (open_ : phase.mayRead = true) : Tale n .reread (steps ++ [(.observationRecorded, n)])

/-- Every pass is decided once, but for one that is only planned. -/
theorem Tale.count_decisions {n : ℕ} {phase : Phase} {steps : List (EventKind × ℕ)}
    (h : Tale n phase steps) :
    (steps.countP fun s ↦ s.1 = .decisionRecorded) + (if phase = .planned then 1 else 0) = n := by
  induction h with
  | opened => rfl
  | plan before rests ih => simp [rests] at ih ⊢; exact ih
  | decision before ih => simp at ih ⊢; exact ih
  | @reading n phase steps before hopen ih =>
    have hne : phase ≠ .planned := by
      rintro rfl
      cases hopen
    simp [hne] at ih ⊢
    exact ih

section
variable {events : List Event} {e : Event} {kind : EventKind}

theorem stepsOf_concat : stepsOf (events ++ [e]) =
    stepsOf events ++ if e.kind.isStep then [(e.kind, e.iteration)] else [] := by
  rw [stepsOf, List.filter_append, List.map_append, stepsOf, List.filter_cons]
  split_ifs <;> rfl

theorem toldOf_concat : toldOf kind (events ++ [e]) =
    toldOf kind events ++ if e.kind = kind then [(e.iteration, e.payload)] else [] := by
  rw [toldOf, List.filter_append, List.map_append, toldOf, List.filter_cons]
  by_cases h : e.kind = kind <;> simp [h]

theorem countP_stepsOf (h : kind.isStep = true) :
    ((stepsOf events).countP fun s ↦ s.1 = kind) = (toldOf kind events).length := by
  have hboth : ∀ e : Event, (decide (e.kind = kind) && e.kind.isStep) = decide (e.kind = kind) := by
    intro e
    by_cases hk : e.kind = kind <;> simp [hk, h]
  rw [stepsOf, List.countP_map, List.countP_filter, toldOf, List.length_map,
    ← List.countP_eq_length_filter]
  exact List.countP_congr fun e _ ↦ by simpa using fun hk ↦ hk ▸ h

end

/-! ## What is told

What the log has told is compared with what the run holds: the grades, the rounds and the bytes.
Between a step and its event the log lags behind, and `Lags` says by how much. -/

section
variable (env : Setting W)

/-- The events that a run wrote itself: those of the log after the records it went on from. -/
def Setting.fresh (log : EventLog) : List Event :=
  log.events.drop (env.resumeRecords.getD []).length

/-- What a log has to say of the grades. -/
def Setting.decisionsTold (evaluations : List AtlasEvaluation) : List (ℕ × Fields) :=
  evaluations.mapIdx fun i e ↦ (i + 1, redactFields env.mask (decisionPayload e))

/-- What a log has to say of the rounds. -/
def Setting.readingsTold (rounds : List RoundRecord) : List (ℕ × Fields) :=
  rounds.map fun r ↦ (r.iteration, redactFields env.mask r.payload)

/-- The log tells what the run holds: it goes on from what was there, its steps are in order, and
its grades and readings are those of the run. -/
structure Recounts (n : ℕ) (phase : Phase) (evaluations : List AtlasEvaluation)
    (rounds : List RoundRecord) (log : EventLog) : Prop where
  goesOn : env.resumeRecords.getD [] <+: log.events
  tale : Tale n phase (stepsOf (env.fresh log))
  decisions : toldOf .decisionRecorded (env.fresh log) = env.decisionsTold evaluations
  readings : toldOf .observationRecorded (env.fresh log) = env.readingsTold rounds

/-- The log tells a beginning of what the run holds. -/
structure Lags (iteration : ℕ) (evaluations : List AtlasEvaluation) (rounds : List RoundRecord)
    (log : EventLog) : Prop where
  goesOn : env.resumeRecords.getD [] <+: log.events
  tale : ∃ n phase, n ≤ iteration ∧ Tale n phase (stepsOf (env.fresh log))
  decisions : toldOf .decisionRecorded (env.fresh log) <+: env.decisionsTold evaluations
  readings : toldOf .observationRecorded (env.fresh log) <+: env.readingsTold rounds

/-- What is known of a run in this phase of its `n`th pass. -/
structure Recounted (n : ℕ) (phase : Phase) (c : Holdings) : Prop where
  iteration : c.iteration = n
  silent : env.events = none → c.log = none
  recounts : ∀ log, c.log = some log → Recounts env n phase c.evaluations c.rounds log

/-- The round is what an answer of the host made of a base. -/
def RoundRecord.OfAnswer (r : RoundRecord) : Prop :=
  ∃ (base : EvidenceBase) (incoming : List (Option Observation)) (merged : List Observation),
    mergeObservations base.snapshot base.observations incoming = .ok (merged, r.round)

/-- The observations of a base, if there is one. -/
def observationsOf (base : Option EvidenceBase) : List Observation :=
  (base.map (·.observations)).getD []

/-- The rounds came of answers, and name everything that changed the bytes the run began with. -/
structure Sourced (rounds : List RoundRecord) (base : Option EvidenceBase) : Prop where
  ofAnswers : ∀ r ∈ rounds, r.OfAnswer
  bytes : ∀ id, Dict.get id (Dict.fill (rounds.flatMap (·.round.digests))
    (digestsHeld (observationsOf env.evidence))) = Dict.get id (digestsHeld (observationsOf base))

/-- What is known of a run that raised. -/
def Lagging (c : Holdings) : Prop :=
  ∀ log, c.log = some log → Lags env c.iteration c.evaluations c.rounds log

end

variable {env : Setting W} {n m : ℕ} {phase : Phase} {b c : Holdings} {log : EventLog} {e : Event}
  {evaluations : List AtlasEvaluation} {rounds : List RoundRecord}

theorem Recounts.lags (h : Recounts env n phase evaluations rounds log) (hn : n ≤ m) :
    Lags env m evaluations rounds log :=
  ⟨h.goesOn, ⟨n, phase, hn, h.tale⟩, h.decisions ▸ List.prefix_rfl, h.readings ▸ List.prefix_rfl⟩

theorem Recounted.lagging (h : Recounted env n phase c) : Lagging env c := fun log hlog ↦
  (h.recounts log hlog).lags h.iteration.ge

theorem fresh_snoc (h : env.resumeRecords.getD [] <+: log.events) :
    env.fresh (log.snoc e) = env.fresh log ++ [e] := by
  rw [Setting.fresh, EventLog.snoc, List.drop_append_of_le_length h.length_le, Setting.fresh]

theorem goesOn_snoc (h : env.resumeRecords.getD [] <+: log.events) :
    env.resumeRecords.getD [] <+: (log.snoc e).events := h.trans (List.prefix_append _ _)

theorem decisionsTold_concat {g : AtlasEvaluation} :
    env.decisionsTold (evaluations ++ [g]) = env.decisionsTold evaluations ++
      [(evaluations.length + 1, redactFields env.mask (decisionPayload g))] := by
  rw [Setting.decisionsTold, List.mapIdx_concat, Setting.decisionsTold]

/-- An event that tells nothing of a pass. -/
theorem Recounts.aside (h : Recounts env n phase evaluations rounds log)
    (hkind : e.kind.isStep = false) : Recounts env n phase evaluations rounds (log.snoc e) := by
  have hother : ∀ kind : EventKind, kind.isStep = true → e.kind ≠ kind := by
    rintro _ hstep rfl
    rw [hkind] at hstep
    cases hstep
  refine ⟨goesOn_snoc h.goesOn, ?_, ?_, ?_⟩
  · rw [fresh_snoc h.goesOn, stepsOf_concat, hkind]
    simpa using h.tale
  · rw [fresh_snoc h.goesOn, toldOf_concat, if_neg (hother _ rfl), List.append_nil, h.decisions]
  · rw [fresh_snoc h.goesOn, toldOf_concat, if_neg (hother _ rfl), List.append_nil, h.readings]

theorem Recounts.evaluations_length (h : Recounts env n .planned evaluations rounds log) :
    evaluations.length + 1 = n := by
  have hcount := h.tale.count_decisions
  rw [countP_stepsOf rfl, h.decisions, Setting.decisionsTold, List.length_mapIdx] at hcount
  simpa using hcount

/-- A plan is told. -/
theorem Recounts.plan {payload : Fields} (h : Recounts env n phase evaluations rounds log)
    (hne : phase ≠ .planned) : Recounts env (n + 1) .planned evaluations rounds
      (log.snoc (log.next env.mask .planSelected (n + 1) none payload)) := by
  refine ⟨goesOn_snoc h.goesOn, ?_, ?_, ?_⟩ <;> rw [fresh_snoc h.goesOn]
  · rw [stepsOf_concat]
    exact h.tale.plan hne
  · rw [toldOf_concat, if_neg EventKind.noConfusion, List.append_nil, h.decisions]
  · rw [toldOf_concat, if_neg EventKind.noConfusion, List.append_nil, h.readings]

/-- A grade is told. -/
theorem Recounts.decision {g : AtlasEvaluation}
    (h : Recounts env n .planned evaluations rounds log) :
    Recounts env n .decided (evaluations ++ [g]) rounds
      (log.snoc (log.next env.mask .decisionRecorded n none (decisionPayload g))) := by
  refine ⟨goesOn_snoc h.goesOn, ?_, ?_, ?_⟩ <;> rw [fresh_snoc h.goesOn]
  · rw [stepsOf_concat]
    exact h.tale.decision
  · rw [toldOf_concat, h.decisions, decisionsTold_concat, h.evaluations_length]
    rfl
  · rw [toldOf_concat, if_neg EventKind.noConfusion, List.append_nil, h.readings]

/-- A round is told. -/
theorem Recounts.reading {record : RoundRecord} (h : Recounts env n phase evaluations rounds log)
    (hread : phase.mayRead = true) (hrecord : record.iteration = n) :
    Recounts env n .reread evaluations (rounds ++ [record])
      (log.snoc (log.next env.mask .observationRecorded n none record.payload)) := by
  refine ⟨goesOn_snoc h.goesOn, ?_, ?_, ?_⟩ <;> rw [fresh_snoc h.goesOn]
  · rw [stepsOf_concat]
    exact h.tale.reading hread
  · rw [toldOf_concat, if_neg EventKind.noConfusion, List.append_nil, h.decisions]
  · rw [toldOf_concat, h.readings, Setting.readingsTold, Setting.readingsTold, List.map_append,
      ← hrecord]
    rfl

/-! ## Steps that touch the log or the budget -/

section
variable {Q : α → Holdings → Prop} {E : Exc → Holdings → Prop}

/-- What is done with the budget changes the budget at most. -/
theorem holdsOn_metered {m : Eff Exc (W × RunBudget) α} (hQ : ∀ a budget, Q a { b with budget })
    (hE : ∀ e budget, E e { b with budget }) : HoldsOn (metered m) Q E b := by
  rintro r rfl
  cases hbudget : r.budget with
  | none =>
    have hm : metered m r = (.error .assertionError, r) := by
      rw [metered, hbudget]
    rw [Eff.wp, hm]
    have h := hE .assertionError none
    rwa [show ({ r.holdings with budget := none } : Holdings) = r.holdings by
      rw [← hbudget]; rfl] at h
  | some budget =>
    have hm : metered m r =
        ((m (r.world, budget)).1,
          { r with
            world := (m (r.world, budget)).2.1
            budget := some (m (r.world, budget)).2.2 }) := by
      rw [metered, hbudget]
    rw [Eff.wp, hm]
    cases (m (r.world, budget)).1 with
    | ok a => exact hQ a _
    | error e => exact hE e _

/-- What the log does, in a run that has one; the rest of the run stays as it is. -/
theorem wp_logged_some {m : Eff Exc (W × EventLog) α} {Q : Option α → Run W → Prop}
    {E : Exc → Run W → Prop} {r : Run W} {log : EventLog} (hlog : r.inside.log = some log)
    (h : m.wp
      (fun a p ↦ Q (some a) { r with world := p.1, inside := { r.inside with log := some p.2 } })
      (fun e p ↦ E e { r with world := p.1, inside := { r.inside with log := some p.2 } })
      (r.world, log)) : (logged m).wp Q E r := by
  have hm : logged m r = ((m (r.world, log)).1.map some,
      { r with
        world := (m (r.world, log)).2.1
        inside := { r.inside with log := some (m (r.world, log)).2.2 } }) := by
    rw [logged, hlog]
  rw [Eff.wp] at h ⊢
  rw [hm]
  rcases hrun : m (r.world, log) with ⟨e | a, p⟩ <;> rw [hrun] at h <;> exact h

theorem wp_logged_none {m : Eff Exc (W × EventLog) α} {Q : Option α → Run W → Prop}
    {E : Exc → Run W → Prop} {r : Run W} (hlog : r.inside.log = none) (h : Q none r) :
    (logged m).wp Q E r := by
  have hm : logged m r = (.ok none, r) := by
    rw [logged, hlog]
  rw [Eff.wp, hm]
  exact h

/-- What the log does, where there is one. -/
theorem holdsOn_logged {m : Eff Exc (W × EventLog) α} {Q : Option α → Holdings → Prop}
    (hnone : b.log = none → Q none b)
    (hsome : ∀ w log, b.log = some log → m.wp (fun a p ↦ Q (some a) { b with log := some p.2 })
      (fun e p ↦ E e { b with log := some p.2 }) (w, log)) : HoldsOn (logged m) Q E b := by
  rintro r rfl
  cases hlog : r.inside.log with
  | none => exact wp_logged_none hlog (hnone hlog)
  | some log => exact wp_logged_some hlog (hsome r.world log hlog)

/-- What an event that is appended makes of the log. -/
theorem holdsOn_append {kind : EventKind} {iteration : ℕ} {payload : Fields}
    {Q : Unit → Holdings → Prop}
    (hnone : env.events = none ∨ b.log = none → Q () b)
    (hsnoc : ∀ log, b.log = some log →
      Q () { b with log := some (log.snoc (log.next env.mask kind iteration none payload)) })
    (hE : ∀ e log, b.log = some log → ∀ log', log' = log ∨
      log' = log.snoc (log.next env.mask kind iteration none payload) →
        E e { b with log := some log' }) :
    HoldsOn (RunM.append env kind iteration payload) Q E b := by
  rw [RunM.append]
  cases hevents : env.events with
  | none => exact Eff.On.pure (hnone (.inl hevents))
  | some sink =>
    refine Eff.On.bind (holdsOn_logged (fun h ↦ Eff.On.pure (hnone (.inr h))) fun w log hlog ↦ ?_)
    refine wp_append_snoc.mono (fun _ p hp ↦ Eff.On.pure ?_) fun e p hp ↦ hE e log hlog _ hp
    rw [hp.2]
    exact hsnoc log hlog

variable {P : Holdings → Prop}

/-- What holds of the holdings through everything that tells nothing of a pass. -/
structure Aside (P : Holdings → Prop) : Prop where
  budget : ∀ {b} (budget : Option RunBudget), P b → P { b with budget }
  texts : ∀ {b} (observations : List Str), P b → P { b with observations }
  event : ∀ {b log e}, P b → b.log = some log → e.kind.isStep = false →
    P { b with log := some (log.snoc e) }

/-- A step that keeps this of the holdings. -/
abbrev KeepsHoldings (P : Holdings → Prop) (m : RunM W α) : Prop :=
  Eff.Keeps (fun r : Run W ↦ P r.holdings) m

theorem KeepsHoldings.holdsOn {m : RunM W α} (h : KeepsHoldings P m) (hb : P b) :
    HoldsOn m (fun _ ↦ P) (fun _ ↦ P) b := by
  rintro r rfl
  exact h r hb

/-- What follows a step that keeps this of the holdings. -/
theorem KeepsHoldings.step {m : RunM W α} {f : α → RunM W β} {Q : β → Holdings → Prop}
    (h : KeepsHoldings P m) (hb : P b) (hf : ∀ a c, P c → HoldsOn (f a) Q E c)
    (hE : ∀ e c, P c → E e c) : HoldsOn (m >>= f) Q E b :=
  Eff.On.bind ((h.holdsOn hb).mono (fun a c hc ↦ hf a c hc) fun e c hc ↦ hE e c hc)

theorem RunM.Quiet.keeps {m : RunM W α} (h : Quiet m) : KeepsHoldings P m := fun r hr ↦
  h.holdsOn (fun _ ↦ hr) (fun _ ↦ hr) r rfl

namespace Aside

variable (h : Aside P)
include h

theorem metered (m : Eff Exc (W × RunBudget) α) : KeepsHoldings P (RunM.metered m) := fun r hr ↦
  holdsOn_metered (fun _ _ ↦ h.budget _ hr) (fun _ _ ↦ h.budget _ hr) r rfl

/-- Half a call tells nothing of a pass. -/
theorem logged {m : Eff Exc (W × EventLog) α}
    (hm : ∀ w log, m.wp (fun _ p ↦ p.2 = log ∨ ∃ e, p.2 = log.snoc e ∧ e.kind.isStep = false)
      (fun _ p ↦ p.2 = log ∨ ∃ e, p.2 = log.snoc e ∧ e.kind.isStep = false) (w, log)) :
    KeepsHoldings P (RunM.logged m) := by
  intro r hr
  have hstep : ∀ log log', r.holdings.log = some log →
      (log' = log ∨ ∃ e, log' = log.snoc e ∧ e.kind.isStep = false) →
        P { r.holdings with log := some log' } := by
    rintro log _ hlog (rfl | ⟨e, rfl, hkind⟩)
    · rwa [← hlog]
    · exact h.event hr hlog hkind
  exact holdsOn_logged (fun _ ↦ hr) (fun w log hlog ↦ (hm w log).mono
    (fun _ p hp ↦ hstep log p.2 hlog hp) fun _ p hp ↦ hstep log p.2 hlog hp) r rfl

theorem startCall {callKind : CallKind} {iteration : ℕ} {target : Option Str} {idempotent : Bool} :
    KeepsHoldings P (RunM.startCall env callKind iteration target idempotent) := by
  rw [RunM.startCall]
  cases env.events with
  | none => exact Eff.Keeps.pure _
  | some sink =>
    refine h.logged fun w log ↦ wp_startCall.mono (fun _ p hp ↦ ?_) fun _ p hp ↦ ?_
    · obtain ⟨-, -, e, hsnoc, hkind, -⟩ := hp
      exact .inr ⟨e, hsnoc, by rw [hkind]; rfl⟩
    · refine hp.imp_right fun hp ↦ ?_
      obtain ⟨e, hsnoc, hkind, -⟩ := hp
      exact ⟨e, hsnoc, by rw [hkind]; rfl⟩

theorem finishCall {call : Option Str} {outcome : CallOutcome} {iteration : ℕ}
    {error : Option Exc} : KeepsHoldings P (RunM.finishCall env call outcome iteration error) := by
  have hfinished : ∀ {id : Str} {log log' : EventLog}, (log' = log ∨
      Finishes env.mask id outcome log log' ∧ ∃ e ∈ log.events, e.callId = some id) →
        log' = log ∨ ∃ e, log' = log.snoc e ∧ e.kind.isStep = false := by
    rintro id log log' (hsame | ⟨⟨e, hsnoc, hkind, -⟩, -⟩)
    · exact .inl hsame
    · exact .inr ⟨e, hsnoc, by rw [hkind]; rfl⟩
  unfold RunM.finishCall
  split
  · refine Eff.Keeps.bind (h.logged fun w log ↦ wp_finishCall.mono (fun _ p hp ↦ hfinished hp)
      fun _ p hp ↦ hfinished hp) fun _ ↦ Eff.Keeps.pure _
  · exact Eff.Keeps.pure _

theorem setTexts {f : AtlasRunState → AtlasRunState} (texts : Holdings → List Str)
    (hf : ∀ r : Run W,
      Run.holdings { r with inside := { r.inside with state := f r.inside.state } } =
        { r.holdings with observations := texts r.holdings }) :
    KeepsHoldings P (setState (W := W) f) := fun r hr ↦ by
  show P (Run.holdings _)
  rw [hf]
  exact h.texts _ hr

theorem append {kind : EventKind} {iteration : ℕ} {payload : Fields} (hkind : kind.isStep = false) :
    KeepsHoldings P (RunM.append env kind iteration payload) := by
  intro r hr
  refine holdsOn_append (fun _ ↦ hr) (fun log hlog ↦ h.event hr hlog hkind)
    (fun _ log hlog log' hlog' ↦ ?_) r rfl
  rcases hlog' with rfl | rfl
  · rwa [← hlog]
  · exact h.event hr hlog hkind

/-! ### Before the loop

The steps before the first pass, each with what it does to the tale. -/

theorem gather : KeepsHoldings P (AtlasCore.gather env) := by
  have hread : ∀ reader, KeepsHoldings P (readSource env reader) := by
    intro reader
    refine (h.metered _).bind fun _ ↦ (h.metered _).bind fun gathered ↦ ?_
    cases gathered with
    | none => exact Eff.Keeps.raise _
    | some gathered =>
      exact (h.metered _).bind fun _ ↦ h.setTexts (·.observations ++ gathered) fun _ ↦ rfl
  refine (keeps_forM hread).attempt.bind fun x ↦ ?_
  split
  · exact Eff.Keeps.pure _
  · exact (quiet_stop _).keeps.bind fun _ ↦ Eff.Keeps.pure _
  · exact (quiet_stopBudget _).keeps.bind fun _ ↦ Eff.Keeps.pure _
  · refine Eff.Keeps.ite (fun _ ↦ ?_) fun _ ↦ Eff.Keeps.raise _
    exact (quiet_stopToolError _ _).keeps.bind fun _ ↦ Eff.Keeps.pure _

theorem openLog {sink : Sink W} {r : Run W} (hevents : env.events = some sink)
    (hopen : ∀ log, EventLog.build env.runId (env.resumeRecords.getD []) = .ok log →
      P { r.holdings with log := some log }) (hr : P r.holdings) :
    (AtlasCore.openLog env).wp (fun _ r ↦ P r.holdings) (fun _ r ↦ P r.holdings) r := by
  rw [AtlasCore.openLog, hevents]
  dsimp only
  rw [Eff.wp_bind, Eff.wp_ofExcept]
  cases hbuild : EventLog.build env.runId (env.resumeRecords.getD []) with
  | error e => exact hr
  | ok log =>
    dsimp only
    rw [Eff.wp_bind, Eff.wp_update]
    -- what is written next leaves everything else as it is, in a new run as in one that is resumed
    refine (?_ : KeepsHoldings P _) _ (hopen log hbuild)
    split
    · exact (Eff.Keeps.ofExcept _).bind fun _ ↦ h.append rfl
    · exact (h.append rfl).bind fun _ ↦ (Eff.Keeps.ofExcept _).bind fun _ ↦ h.append rfl

/-! ### The output of a pass

Producing an output writes about calls only, which is beside the tale. -/

theorem recordToolCalls {calls : List ToolCall} :
    KeepsHoldings P (AtlasCore.recordToolCalls env calls) := by
  induction calls with
  | nil => exact Eff.Keeps.pure _
  | cons call calls ih =>
    refine h.startCall.bind fun started ↦ ?_
    cases call.outcome with
    | none => exact ih
    | some outcome => exact h.finishCall.bind fun _ ↦ ih

theorem executeAdapter {adapter : ModelAdapter W} {input : ModelInput} :
    KeepsHoldings P (AtlasCore.executeAdapter env adapter input) := by
  refine quiet_read.keeps.bind fun r ↦ Eff.Keeps.bind (fun s hs ↦ h.budget _ hs) fun _ ↦ ?_
  refine Eff.Keeps.ite (fun _ ↦ ?_) fun _ ↦ Eff.Keeps.ofExcept _
  exact h.recordToolCalls.bind fun _ ↦ Eff.Keeps.ofExcept _

theorem modelFailed {iteration : ℕ} {call : Option Str} {e : Exc} :
    KeepsHoldings P (AtlasCore.modelFailed env iteration call e) := by
  unfold AtlasCore.modelFailed
  split
  · exact (quiet_stop _).keeps.bind fun _ ↦ Eff.Keeps.pure _
  · exact (quiet_stopBudget _).keeps.bind fun _ ↦ Eff.Keeps.pure _
  · refine Eff.Keeps.ite (fun _ ↦ ?_) fun _ ↦ Eff.Keeps.raise _
    exact h.finishCall.bind fun _ ↦ (quiet_stopToolError _ _).keeps.bind fun _ ↦ Eff.Keeps.pure _

theorem startModelCall {adapter : ModelAdapter W} {iteration : ℕ} :
    KeepsHoldings P (AtlasCore.startModelCall env adapter iteration) :=
  quiet_read.keeps.bind fun _ ↦ Eff.Keeps.ite
    (fun _ ↦ (h.metered _).bind fun _ ↦ h.startCall) fun _ ↦ h.startCall

theorem runModelCall {adapter : ModelAdapter W} {input : ModelInput} {iteration : ℕ}
    {call : Option Str} :
      KeepsHoldings P (AtlasCore.runModelCall env adapter input iteration call) :=
  h.executeAdapter.bind fun _ ↦ (Eff.Keeps.ofExcept _).bind fun _ ↦
    h.finishCall.bind fun _ ↦ Eff.Keeps.pure _

theorem chargeModel {result : ModelResult} {output : Str} :
    KeepsHoldings P (AtlasCore.chargeModel env result output) :=
  quiet_read.keeps.bind fun _ ↦ Eff.Keeps.ite
    (fun _ ↦ (Eff.Keeps.ofExcept _).bind fun _ ↦ (h.metered _).bind fun _ ↦ h.metered _)
    fun _ ↦ Eff.Keeps.pure _

theorem askModel {adapter : ModelAdapter W} {route : RouteName} {plan : AtlasPlan} :
    KeepsHoldings P (AtlasCore.askModel env adapter route plan) := by
  refine quiet_state.keeps.bind fun s ↦ h.startModelCall.attempt.bind fun x ↦ ?_
  cases x with
  | error e => exact h.modelFailed
  | ok call =>
    refine h.runModelCall.attempt.bind fun x ↦ ?_
    cases x with
    | error e => exact h.modelFailed
    | ok reply =>
      refine h.chargeModel.attempt.bind fun x ↦ ?_
      cases x with
      | error e => exact h.modelFailed
      | ok _ =>
        have hkept : Quiet (W := W) (setMetadata fun m ↦
            { m with
              modelResult := some reply.1
              nonDeterministic := m.nonDeterministic ||
                reply.1.get "determinism" = some (str "non_deterministic") }) :=
          quiet_of_eq fun _ ↦ rfl
        refine hkept.keeps.bind fun _ ↦ ?_
        split <;> exact Eff.Keeps.pure _

theorem askExecutor {plan : AtlasPlan} : KeepsHoldings P (AtlasCore.askExecutor env plan) := by
  refine quiet_state.keeps.bind fun s ↦ (quiet_outside _).keeps.bind fun p ↦
    quiet_read.keeps.bind fun r ↦ ?_
  refine Eff.Keeps.ite (fun _ ↦ ?_) fun _ ↦ Eff.Keeps.pure _
  refine (h.metered _).attempt.bind fun x ↦ ?_
  split
  · exact Eff.Keeps.pure _
  · exact (quiet_stop _).keeps.bind fun _ ↦ Eff.Keeps.pure _
  · exact (quiet_stopBudget _).keeps.bind fun _ ↦ Eff.Keeps.pure _
  · exact Eff.Keeps.raise _

theorem produce {route : RouteName} {plan : AtlasPlan} :
    KeepsHoldings P (AtlasCore.produce env route plan) := by
  unfold AtlasCore.produce
  split
  · exact h.askModel
  · exact h.askExecutor

/-! ### A reading, up to its record

A reading asks the host and pays for it before it is recorded, and nothing of that is told. -/

/-- What the host answers is merged. -/
theorem askHost {base : EvidenceBase} {observer : Observer W} {request : ObservationRequest}
    {r : Run W} (hr : P r.holdings) :
    (AtlasCore.askHost env base observer request).wp
      (fun found t ↦ P t.holdings ∧ ∃ incoming,
        mergeObservations base.snapshot base.observations incoming = .ok found)
      (fun _ t ↦ P t.holdings) r := by
  rw [AtlasCore.askHost, Eff.wp_bind]
  refine (h.metered _ r hr).mono (fun _ r hr ↦ ?_) fun _ _ h ↦ h
  rw [Eff.wp_bind]
  refine (h.metered _ r hr).mono (fun incoming r hr ↦ ?_) fun _ _ h ↦ h
  rw [Eff.wp_ofExcept]
  cases hmerge : mergeObservations base.snapshot base.observations incoming with
  | error e => exact hr
  | ok found => exact ⟨hr, incoming, hmerge⟩

/-- The number of the pass is not touched either, nor is the evidence. -/
theorem during (n : ℕ) (base : Option EvidenceBase) :
    Aside fun c ↦ P c ∧ c.iteration = n ∧ c.evidenceBase = base where
  budget := fun budget hb ↦ ⟨h.budget budget hb.1, hb.2⟩
  texts := fun texts hb ↦ ⟨h.texts texts hb.1, hb.2⟩
  event := fun hb hlog hkind ↦ ⟨h.event hb.1 hlog hkind, hb.2⟩

variable {Q : RoundOutcome → Holdings → Prop} {E : Exc → Holdings → Prop} {recorded : List Material}
  {request : ObservationRequest} {patterns : List Str}

/-- A round that is stopped: the call is closed first. -/
theorem stopRound {read : Option Str} {outcome : CallOutcome} {iteration : ℕ} {error : Option Exc}
    {m : RunM W Unit} (hm : Quiet m) (hb : P b) (hstopped : ∀ c, P c → Q .stopped c)
    (hE : ∀ e c, P c → E e c) : HoldsOn (do
      RunM.finishCall env read outcome iteration error
      m
      return RoundOutcome.stopped) Q E b := by
  refine h.finishCall.step hb (fun _ c hc ↦ ?_) hE
  exact hm.step (fun _ ↦ Eff.On.pure (hstopped c hc)) fun e ↦ hE e c hc

/-- What is known when a round has been paid for is known when it is recorded. -/
theorem payRound {base : EvidenceBase} {read : Option Str} {merged : List Observation}
    {round : ObservationRound} (hb : P b) (hstopped : ∀ c, P c → Q .stopped c)
    (hE : ∀ e c, P c → E e c)
    (hcommit : ∀ c contexts newlyResolved, P c → c.evidenceBase = b.evidenceBase →
      HoldsOn (commitRound env base merged ⟨round, c.iteration, patterns, request.lineWindows⟩
        contexts newlyResolved) Q E c) :
    HoldsOn (AtlasCore.payRound env base request patterns read merged round) Q E b := by
  refine holdsOn_state fun r hr ↦ ?_
  have hd := h.during b.iteration b.evidenceBase
  have hpaid : KeepsHoldings
      (fun c ↦ P c ∧ c.iteration = b.iteration ∧ c.evidenceBase = b.evidenceBase) (Eff.attempt
        (((freshObservations merged round).map (·.context)).forM fun c ↦
          RunM.metered (RunBudget.chargeOutput env.meter c))) :=
    (keeps_forM fun _ ↦ hd.metered _).attempt
  refine hpaid.step ⟨hb, rfl, rfl⟩ (fun x c hc ↦ ?_) fun e c hc ↦ hE e c hc.1
  split
  · exact h.stopRound (quiet_stop _) hc.1 hstopped hE
  · exact h.stopRound (quiet_stopBudget _) hc.1 hstopped hE
  · exact Eff.On.raise (hE _ c hc.1)
  · refine hd.finishCall.step hc (fun _ c hc ↦ ?_) fun e c hc ↦ hE e c hc.1
    have hiteration : r.inside.state.iteration = c.iteration := by
      rw [hc.2.1, ← hr]
      rfl
    rw [hiteration]
    exact hcommit c _ _ hc.1 hc.2.2

/-- What is known before a reading is known until it is recorded. -/
theorem observeRound (hb : P b) (hstopped : ∀ c, P c → Q .stopped c) (hE : ∀ e c, P c → E e c)
    (hcommit : ∀ c base incoming merged round contexts newlyResolved, P c →
      c.evidenceBase = some base →
      mergeObservations base.snapshot base.observations incoming = .ok (merged, round) →
      HoldsOn (commitRound env base merged ⟨round, c.iteration, patterns, request.lineWindows⟩
        contexts newlyResolved) Q E c) :
    HoldsOn (AtlasCore.observeRound env recorded request patterns) Q E b := by
  refine holdsOn_state fun r hr ↦ ?_
  split
  · rename_i base observer hbase _
    have hbase : b.evidenceBase = some base := by
      rw [← hbase, ← hr]
      rfl
    have hd := h.during b.iteration (some base)
    have hE' : ∀ e c, P c ∧ c.iteration = b.iteration ∧ c.evidenceBase = some base → E e c :=
      fun e c hc ↦ hE e c hc.1
    refine holdsOn_state fun r hr ↦ (quiet_note _).step (fun _ ↦ ?_) fun e ↦ hE e b hb
    refine hd.startCall.step ⟨hb, rfl, hbase⟩ (fun read c hc ↦ ?_) hE'
    refine Eff.On.bind fun t ht ↦ Eff.wp_attempt.mpr ?_
    subst ht
    refine (hd.askHost hc).mono (fun found t hfound ↦ ?_) fun e t ht ↦ ?_
    · obtain ⟨hc, incoming, hmerge⟩ := hfound
      obtain ⟨merged, round⟩ := found
      have hpay : HoldsOn (AtlasCore.payRound env base request patterns read merged round) Q E
          t.holdings :=
        h.payRound hc.1 hstopped hE fun c contexts newlyResolved hd heq ↦
          hcommit c base incoming merged round _ _ hd (heq.trans hc.2.2) hmerge
      dsimp only
      refine (quiet_note _).step (fun _ ↦ ?_) fun e ↦ hE' e _ hc
      split
      · refine Eff.On.ite (fun _ ↦ ?_) fun _ ↦ hpay
        refine h.finishCall.step hc.1 (fun _ c hc ↦ ?_) hE
        refine holdsOn_setState id (fun _ ↦ rfl) ?_
        exact (quiet_stop _).step (fun _ ↦ Eff.On.pure (hstopped c hc)) fun e ↦ hE e c hc
      · exact hpay
    · dsimp only
      split
      · exact h.stopRound (quiet_stop _) ht.1 hstopped hE
      · exact h.stopRound (quiet_stopBudget _) ht.1 hstopped hE
      · refine Eff.On.ite (fun _ ↦ ?_) fun _ ↦ Eff.On.raise (hE' _ _ ht)
        exact h.stopRound (quiet_stopToolError _ _) ht.1 hstopped hE
      · rename_i heq
        cases heq
  · exact Eff.On.raise (hE _ b hb)

end Aside

end

/-! ## The steps that are told

An opening, a plan, a grade, a reading and a stop: each is done first and then told. -/

theorem aside_recounted : Aside (Recounted env n phase) where
  budget := fun _ hb ↦ ⟨hb.iteration, hb.silent, hb.recounts⟩
  texts := fun _ hb ↦ ⟨hb.iteration, hb.silent, hb.recounts⟩
  event := fun hb hlog hkind ↦ by
    refine ⟨hb.iteration, fun hnone ↦ ?_, fun log' hlog' ↦ ?_⟩
    · rw [hb.silent hnone] at hlog
      cases hlog
    · obtain rfl := Option.some.inj hlog'
      exact (hb.recounts _ hlog).aside hkind

/-- The one step that is told: what the run does first, and then says. -/
theorem holdsOn_told {kind : EventKind} {payload : Fields} {next : Phase}
    (hiteration : c.iteration = m)
    (hsilent : env.events = none → c.log = none) (hlags : Lagging env c)
    (hnext : ∀ log, c.log = some log → Recounts env m next c.evaluations c.rounds
      (log.snoc (log.next env.mask kind m none payload))) :
    HoldsOn (RunM.append env kind m payload)
      (fun _ d ↦ Recounted env m next d ∧ d.rounds = c.rounds ∧ d.evidenceBase = c.evidenceBase)
      (fun _ ↦ Lagging env) c := by
  have htold : ∀ {log}, c.log = some log → Recounted env m next
      { c with log := some (log.snoc (log.next env.mask kind m none payload)) } := by
    intro log hlog
    refine ⟨hiteration, fun hnone ↦ ?_, fun log' hlog' ↦ ?_⟩
    · rw [hsilent hnone] at hlog
      cases hlog
    · obtain rfl := Option.some.inj hlog'
      exact hnext log hlog
  refine holdsOn_append (fun hnone ↦ ⟨?_, rfl, rfl⟩) (fun log hlog ↦ ⟨htold hlog, rfl, rfl⟩)
    fun e log hlog log' hlog' ↦ ?_
  · have hlog : c.log = none := hnone.elim hsilent id
    refine ⟨hiteration, fun _ ↦ hlog, fun log hsome ↦ ?_⟩
    rw [hlog] at hsome
    cases hsome
  · rcases hlog' with rfl | rfl
    · rw [show ({ c with log := some log' } : Holdings) = c by rw [← hlog]]
      exact hlags
    · exact (htold hlog).lagging

/-- What is known of a run in this phase of a pass: its log tells its grades and its rounds, and its
rounds tell its evidence. -/
def Truthful (env : Setting W) (phase : Phase) (c : Holdings) : Prop :=
  (∃ n, Recounted env n phase c) ∧ Sourced env c.rounds c.evidenceBase

theorem Truthful.lagging (h : Truthful env phase c) : Lagging env c := by
  obtain ⟨⟨n, hn⟩, -⟩ := h
  exact hn.lagging

theorem aside_truthful : Aside (Truthful env phase) where
  budget := fun budget hb ↦ ⟨hb.1.imp fun _ h ↦ aside_recounted.budget budget h, hb.2⟩
  texts := fun texts hb ↦ ⟨hb.1.imp fun _ h ↦ aside_recounted.texts texts h, hb.2⟩
  event := fun hb hlog hkind ↦ ⟨hb.1.imp fun _ h ↦ aside_recounted.event h hlog hkind, hb.2⟩

theorem truthful_routeAndPlan (hb : Truthful env phase b) (hne : phase ≠ .planned) :
    HoldsOn (routeAndPlan env) (fun _ c ↦ Truthful env .planned c) (fun _ ↦ Lagging env)
      { b with iteration := b.iteration + 1 } := by
  obtain ⟨⟨n, hb⟩, hsourced⟩ := hb
  have hlate : Lagging env { b with iteration := b.iteration + 1 } := fun log hlog ↦
    (hb.recounts log hlog).lags (hb.iteration.ge.trans (Nat.le_succ _))
  have hplan : ∀ payload, HoldsOn (RunM.append env .planSelected (b.iteration + 1) payload)
      (fun _ c ↦ Truthful env .planned c) (fun _ ↦ Lagging env)
      { b with iteration := b.iteration + 1 } := by
    intro payload
    rw [hb.iteration] at hlate ⊢
    refine (holdsOn_told (c := { b with iteration := n + 1 }) rfl hb.silent hlate fun log hlog ↦
      (hb.recounts log hlog).plan hne).imp fun _ c hc ↦ ⟨⟨n + 1, hc.1⟩, ?_⟩
    rw [hc.2.1, hc.2.2]
    exact hsourced
  refine holdsOn_state fun r hr ↦ (quiet_enter _).step (fun _ ↦ ?_) fun _ ↦ hlate
  refine holdsOn_setState id (fun _ ↦ rfl) ((quiet_enter _).step (fun _ ↦ ?_) fun _ ↦ hlate)
  refine Quiet.step ?_ ?_ ?_
  · exact quiet_ofExcept _
  · intro plan
    refine holdsOn_setState id (fun _ ↦ rfl) ?_
    have hiteration : r.inside.state.iteration = b.iteration + 1 := congrArg Holdings.iteration hr
    rw [hiteration]
    refine (hplan _).step fun _ c hc ↦ ?_
    exact (quiet_enter _).step (fun _ ↦ Eff.On.pure hc) fun _ ↦ hc.lagging
  · exact fun _ ↦ hlate

theorem truthful_grade {route : RouteName} {plan : AtlasPlan} {p : Produced}
    (hb : Truthful env .planned b) :
    HoldsOn (grade env route plan p) (fun _ c ↦ Truthful env .decided c) (fun _ ↦ Lagging env)
      b := by
  obtain ⟨⟨n, hb⟩, hsourced⟩ := hb
  refine holdsOn_state fun r hr ↦ (quiet_outside _).step (fun g ↦ ?_) fun _ ↦ hb.lagging
  refine holdsOn_setState (fun b ↦ { b with evaluations := b.evaluations ++ [g] }) (fun _ ↦ rfl) ?_
  have hlate : Lagging env { b with evaluations := b.evaluations ++ [g] } := fun log hlog ↦ by
    have h := (hb.recounts log hlog).lags hb.iteration.ge
    refine ⟨h.goesOn, h.tale, h.decisions.trans ?_, h.readings⟩
    exact decisionsTold_concat ▸ List.prefix_append _ _
  have hiteration : r.inside.state.iteration = n :=
    (congrArg Holdings.iteration hr).trans hb.iteration
  refine (quiet_note _).step (fun _ ↦ ?_) fun _ ↦ hlate
  rw [hiteration]
  refine (holdsOn_told (c := { b with evaluations := b.evaluations ++ [g] }) hb.iteration hb.silent
    hlate fun log hlog ↦ (hb.recounts log hlog).decision).step fun _ c hc ↦ ?_
  obtain ⟨hc, hrounds, hbase⟩ := hc
  have htruthful : Truthful env .decided c := by
    refine ⟨⟨n, hc⟩, ?_⟩
    rw [hrounds, hbase]
    exact hsourced
  exact holdsOn_state fun r hr ↦ (quiet_of_eq fun _ ↦ rfl : Quiet (W := W) _).step
    (fun _ ↦ Eff.On.pure htruthful) fun _ ↦ hc.lagging

/-- A round that changes nothing names nothing. -/
theorem digests_eq_nil {round : ObservationRound} (h : round.hasNewMaterial = false) :
    round.digests = [] := by
  simp only [ObservationRound.hasNewMaterial, Bool.not_eq_false', Bool.and_eq_true,
    List.isEmpty_iff] at h
  rw [ObservationRound.digests, h.1.1, h.1.2]
  rfl

/-- The rounds tell the evidence when a round is adopted. -/
theorem Sourced.concat {base : EvidenceBase} {incoming : List (Option Observation)}
    {merged : List Observation} {record : RoundRecord} (h : Sourced env rounds (some base))
    (hmerge : mergeObservations base.snapshot base.observations incoming =
      .ok (merged, record.round))
    {next : Option EvidenceBase} (hnext : observationsOf next = merged) :
    Sourced env (rounds ++ [record]) next where
  ofAnswers := List.forall_mem_append.mpr
    ⟨h.ofAnswers, List.forall_mem_singleton.mpr ⟨base, incoming, merged, hmerge⟩⟩
  bytes := fun id ↦ by
    rw [List.flatMap_append, List.flatMap_singleton, Dict.fill_append, Dict.get_fill, h.bytes id,
      hnext, ← get_fill_digests hmerge, Dict.get_fill (d := digestsHeld base.observations)]
    rfl

/-- A round that changes nothing leaves the evidence as it is. -/
theorem Sourced.concat_same {base : EvidenceBase} {incoming : List (Option Observation)}
    {merged : List Observation} {record : RoundRecord} (h : Sourced env rounds (some base))
    (hmerge : mergeObservations base.snapshot base.observations incoming =
      .ok (merged, record.round))
    (hnothing : record.round.hasNewMaterial = false) :
    Sourced env (rounds ++ [record]) (some base) where
  ofAnswers := List.forall_mem_append.mpr
    ⟨h.ofAnswers, List.forall_mem_singleton.mpr ⟨base, incoming, merged, hmerge⟩⟩
  bytes := by
    rw [List.flatMap_append, List.flatMap_singleton, digests_eq_nil hnothing, List.append_nil]
    exact h.bytes

theorem truthful_commitRound {base : EvidenceBase} {incoming : List (Option Observation)}
    {merged : List Observation} {record : RoundRecord} {contexts newlyResolved : List Str}
    (hb : Truthful env phase b) (hread : phase.mayRead = true)
    (hrecord : record.iteration = b.iteration)
    (hbase : b.evidenceBase = some base)
    (hmerge : mergeObservations base.snapshot base.observations incoming =
      .ok (merged, record.round)) :
    HoldsOn (commitRound env base merged record contexts newlyResolved)
      (fun outcome c ↦ Truthful env .reread c ∧ outcome ≠ .stopped) (fun _ ↦ Lagging env) b := by
  obtain ⟨⟨n, hb⟩, hsourced⟩ := hb
  rw [hbase] at hsourced
  refine holdsOn_setState (fun b ↦ { b with rounds := b.rounds ++ [record] }) (fun _ ↦ rfl) ?_
  have hlate : Lagging env { b with rounds := b.rounds ++ [record] } := fun log hlog ↦ by
    have h := (hb.recounts log hlog).lags hb.iteration.ge
    refine ⟨h.goesOn, h.tale, h.decisions, h.readings.trans ?_⟩
    rw [Setting.readingsTold, Setting.readingsTold, List.map_append]
    exact List.prefix_append _ _
  have hiteration : record.iteration = n := hrecord.trans hb.iteration
  rw [hiteration]
  refine (holdsOn_told (c := { b with rounds := b.rounds ++ [record] }) hb.iteration hb.silent hlate
    fun log hlog ↦ (hb.recounts log hlog).reading hread hiteration).step fun _ c hc ↦ ?_
  obtain ⟨hc, hrounds, hcbase⟩ := hc
  refine Eff.On.ite (fun hnothing ↦ Eff.On.pure ⟨⟨⟨n, hc⟩, ?_⟩, RoundOutcome.noConfusion⟩)
    fun _ ↦ ?_
  · rw [Bool.and_eq_true, Bool.not_eq_true'] at hnothing
    rw [hrounds, hcbase, hbase]
    exact hsourced.concat_same hmerge hnothing.1
  split
  · exact Eff.On.raise hc.lagging
  · rename_i adopted hadopted
    refine holdsOn_setState (fun b ↦ { b with
      evidenceBase := some adopted
      observations := b.observations ++ contexts }) (fun _ ↦ rfl) (Eff.On.pure ?_)
    refine ⟨⟨⟨n, hc.iteration, hc.silent, hc.recounts⟩, ?_⟩, RoundOutcome.noConfusion⟩
    have hobservations : adopted.observations = merged := by
      rw [EvidenceBase.withObservations, EvidenceBase.build] at hadopted
      split_ifs at hadopted
      rw [← Option.some.inj hadopted]
    show Sourced env c.rounds (some adopted)
    rw [hrounds]
    exact hsourced.concat hmerge hobservations

/-- Every step of a run hands on that its log tells it. -/
theorem carried_truthful {recorded : List Material} :
    Carried env recorded (Truthful env) (fun _ ↦ Truthful env .planned) (Lagging env) where
  weaken := Truthful.lagging
  gather := fun hb ↦ (aside_truthful.gather.holdsOn hb).mono (fun _ _ h ↦ h) fun _ _ h ↦ h.lagging
  remember := fun hb _ ↦ aside_truthful.texts _ hb
  read := fun hb hread ↦ aside_truthful.observeRound hb (fun c hc ↦ hc) (fun _ _ hc ↦ hc.lagging)
    fun c base incoming merged round contexts newlyResolved hc hbase hmerge ↦
      (truthful_commitRound hc hread rfl hbase hmerge).imp fun outcome d hd ↦ by
        rw [Phase.afterReading, if_neg hd.2]
        exact hd.1
  plan := truthful_routeAndPlan
  produce := fun hb ↦ (aside_truthful.produce.holdsOn hb).mono
    (fun _ _ h ↦ ⟨fun _ ↦ h, fun _ _ ↦ h⟩) fun _ _ h ↦ h.lagging
  adopt := fun hb ↦ ⟨hb.1.imp fun _ h ↦ ⟨h.iteration, h.silent, h.recounts⟩, hb.2⟩
  grade := truthful_grade

end AtlasCore
