import AtlasCore.Controller.Logged
import AtlasCore.Evaluator.Retry

/-!
# No third pass on an unchanged failure

A pass that fails in the way of the pass before is followed by another one only if a round of
observation came between, and that round brought material or resolved a pattern for the first time
(`no_third_identical_pass`).

The stop rules of the loop leave no other way.  A grade that offers another pass names an action, so
the rule for unchanged feedback sees every repetition but those of a grade that is blocked; and what
is blocked asks for a reading (`evaluate_earnest`), which the rule before it stops.

The ledger of a run is what this is about.  A step that is neither a grade nor the commit of a round
leaves it, but for marks (`Grows`).
-/

set_option autoImplicit false

namespace AtlasCore

open Py RunM

variable {W : Type}

/-! ## Failures

Two failures have one signature where they ask for the same and miss the same, in whatever order. -/

/-- The failure signatures are equal: two grades ask for the same action and miss the same things,
whatever the order they name them in. -/
structure SameSignature (current previous : AtlasEvaluation) : Prop where
  kind : current.nextAction.map (·.kind) = previous.nextAction.map (·.kind)
  gapCodes : ((current.nextAction.map (·.gapCodes)).getD []).Perm
    ((previous.nextAction.map (·.gapCodes)).getD [])
  missingSections : current.missingSections.Perm previous.missingSections
  evidenceGaps : current.evidenceGaps.Perm previous.evidenceGaps
  unverifiedClaims : current.unverifiedClaims.Perm previous.unverifiedClaims

theorem sameFailure_of_signature {current previous : AtlasEvaluation}
    (h : SameSignature current previous) (hnext : current.nextAction.isSome = true) :
    sameFailure current previous = true := by
  simp only [sameFailure, Bool.and_eq_true, decide_eq_true_eq, List.isPerm_iff]
  exact ⟨⟨h.kind, ⟨⟨h.gapCodes, h.missingSections⟩, h.evidenceGaps⟩, h.unverifiedClaims⟩, hnext⟩

/-- A grade that offers another pass names an action, and one that is blocked asks for a reading. -/
structure Earnest (e : AtlasEvaluation) : Prop where
  possible : e.shouldRetry = true → e.retryIsPossible = true
  acts : e.shouldRetry = true → e.nextAction.isSome = true
  investigates : e.shouldRetry = true → e.blockedBy ≠ [] → isInvestigation e = true

theorem chooseAction_blocked {gaps : List Section} {evidence : Evidence} {sources : List Str}
    {base : Option EvidenceBase} {review : Option ReviewPlan} {waitingOn : List Str}
    {offTopic : Bool} (h : evidence.blockedBy ≠ []) :
    (chooseAction gaps evidence sources base review waitingOn offTopic).1 = .observeAgain := by
  unfold chooseAction
  dsimp only
  split_ifs <;> rfl

theorem evaluate_earnest {src : Sources W} {rt : Runtime} {c : Call} {w w' : W}
    {e : AtlasEvaluation} (h : evaluate src rt c w = (.ok e, w')) : Earnest e := by
  obtain ⟨evidence, -, rfl⟩ := evaluate_eq_ok.mp h
  have hpossible : (c.assess rt evidence).shouldRetry = true →
      (c.assess rt evidence).retryIsPossible = true := fun hretry ↦
    (Bool.and_eq_true_iff.mp (show ((c.assess rt evidence).retryIsPossible &&
      c.iteration < c.maxIterations) = true from hretry)).1
  have hnext := fun hretry ↦ by
    obtain ⟨-, hunmet, hrepair⟩ := retryIsPossible_iff.mp (hpossible hretry)
    exact exists_nextAction hunmet hrepair
  refine ⟨hpossible, fun hretry ↦ ?_, fun hretry hblocked ↦ ?_⟩
  · obtain ⟨action, haction, -⟩ := hnext hretry
    rw [haction]
    rfl
  · obtain ⟨action, haction, hchosen⟩ := hnext hretry
    have hkind : action.kind = .observeAgain :=
      (congrArg Prod.fst hchosen).trans (chooseAction_blocked hblocked)
    rw [isInvestigation, haction]
    show action.kind.isInvestigation = true
    rw [hkind]
    rfl

/-! ## The ledger

What the proof looks at of a run: its grades, its rounds and its marks.  A step adds to a ledger
and takes nothing away. -/

/-- The grades, the rounds and the marks of a run. -/
structure Ledger where
  evaluations : List AtlasEvaluation
  rounds : List RoundRecord
  trace : List Mark

/-- The ledger of a run: the grades, the rounds and the marks, which is what progress is measured
by. -/
def Inside.ledger (i : Inside) : Ledger where
  evaluations := i.state.evaluations
  rounds := i.state.metadata.observationRounds
  trace := i.trace

/-- An output was graded, which happens once in a pass that gets so far. -/
def Mark.isGraded : Mark → Bool
  | .graded _ => true
  | _ => false

/-- One more mark; the grades and the rounds stay. -/
def Ledger.note (l : Ledger) (m : Mark) : Ledger := { l with trace := l.trace ++ [m] }

/-- The round brought material, or resolved a pattern that no round before it had resolved. -/
def Fruitful (before : List RoundRecord) (record : RoundRecord) : Prop :=
  record.round.hasNewMaterial = true ∨ ∃ p ∈ record.patterns, p ∉ resolvedPatterns before

/-- Between grade `n`, counted from nothing, and the next one the host answered, and the round that
was recorded for it was fruitful. -/
def FruitfulAfter (n : ℕ) (l : Ledger) : Prop :=
  ∃ pre e rest, l.trace = pre ++ .graded e :: rest ∧ pre.countP (·.isGraded) = n ∧
    ∃ k got held record, .answered k got held ∈ rest.takeWhile (!·.isGraded) ∧
      l.rounds[k]? = some record ∧ record.round.material = got ∧ Fruitful (l.rounds.take k) record

/-- What comes to a ledger without a grade: marks, and rounds. -/
structure Grows (l l' : Ledger) : Prop where
  evaluations : l'.evaluations = l.evaluations
  rounds : l.rounds <+: l'.rounds
  trace : ∃ marks, l'.trace = l.trace ++ marks ∧ ∀ m ∈ marks, m.isGraded = false

section
variable {l l' l'' : Ledger} {m : Mark}

theorem Grows.refl (l : Ledger) : Grows l l :=
  ⟨rfl, List.prefix_refl _, [], (List.append_nil _).symm, fun _ h ↦ absurd h List.not_mem_nil⟩

theorem Grows.note (h : Grows l l') (hm : m.isGraded = false) : Grows l (l'.note m) where
  evaluations := h.evaluations
  rounds := h.rounds
  trace := by
    obtain ⟨marks, htrace, hmarks⟩ := h.trace
    refine ⟨marks ++ [m], ?_, fun x hx ↦ ?_⟩
    · rw [Ledger.note, htrace, List.append_assoc]
    · rcases List.mem_append.mp hx with hx | hx
      · exact hmarks x hx
      · rw [List.mem_singleton.mp hx]
        exact hm

theorem Grows.trans (h : Grows l l') (h' : Grows l' l'') : Grows l l'' where
  evaluations := h'.evaluations.trans h.evaluations
  rounds := h.rounds.trans h'.rounds
  trace := by
    obtain ⟨marks, htrace, hmarks⟩ := h.trace
    obtain ⟨marks', htrace', hmarks'⟩ := h'.trace
    refine ⟨marks ++ marks', by rw [htrace', htrace, List.append_assoc], fun x hx ↦ ?_⟩
    exact (List.mem_append.mp hx).elim (hmarks x) (hmarks' x)

theorem takeWhile_prefix_append {α : Type*} {p : α → Bool} {xs ys : List α} :
    xs.takeWhile p <+: (xs ++ ys).takeWhile p := by
  rw [List.takeWhile_append]
  split_ifs
  · rename_i h
    rw [(List.takeWhile_prefix p).eq_of_length h]
    exact List.prefix_append _ _
  · exact List.prefix_refl _

/-- Marks of any kind and rounds leave a fruitful round where it is. -/
theorem FruitfulAfter.mono {n : ℕ} (h : FruitfulAfter n l) (hrounds : l.rounds <+: l'.rounds)
    (htrace : l.trace <+: l'.trace) : FruitfulAfter n l' := by
  obtain ⟨pre, e, rest, hpre, hn, k, got, held, record, hmem, hk, hgot, hfruit⟩ := h
  obtain ⟨marks, hmarks⟩ := htrace
  obtain ⟨more, hmore⟩ := hrounds
  have hlt : k < l.rounds.length := (List.getElem?_eq_some_iff.mp hk).1
  have htake : l'.rounds.take k = l.rounds.take k := by
    rw [← hmore, List.take_append_of_le_length hlt.le]
  refine ⟨pre, e, rest ++ marks, ?_, hn, k, got, held, record, ?_, ?_, hgot, htake ▸ hfruit⟩
  · rw [← hmarks, hpre, List.append_assoc, List.cons_append]
  · exact takeWhile_prefix_append.subset hmem
  · rw [← hmore, List.getElem?_append_left hlt]
    exact hk

end

/-! ## Steps that leave the ledger, but for marks -/

/-- What a mark that is no grade leaves true of a ledger. -/
def Lasting (P : Ledger → Prop) : Prop := ∀ l m, m.isGraded = false → P l → P (l.note m)

theorem lasting_grows (l : Ledger) : Lasting (Grows l) := fun _ _ hm h ↦ h.note hm

/-- A step that keeps this of the ledger. -/
abbrev KeepsLedger {α : Type} (P : Ledger → Prop) (m : RunM W α) : Prop :=
  Eff.Keeps (fun r : Run W ↦ P r.inside.ledger) m

section
variable {α : Type} {P : Ledger → Prop}

theorem ledger_still {m : RunM W α} (h : ∀ r, (m r).2.inside.ledger = r.inside.ledger) :
    KeepsLedger P m := fun r hr ↦ by
  refine (Eff.wp_run m r).mono (fun a t ht ↦ ?_) fun e t ht ↦ ?_ <;>
  · have hsame := h r
    rw [ht] at hsame
    rwa [hsame]

theorem ledger_outside (m : Eff Exc W α) : KeepsLedger P (outside m) := ledger_still fun _ ↦ rfl

theorem ledger_metered (m : Eff Exc (W × RunBudget) α) : KeepsLedger P (metered m) :=
  ledger_still fun r ↦ by
    rw [metered]
    cases r.budget <;> rfl

theorem ledger_logged (m : Eff Exc (W × EventLog) α) : KeepsLedger P (logged m) :=
  ledger_still fun r ↦ by
    rw [logged]
    cases r.inside.log <;> rfl

theorem ledger_state : KeepsLedger P (state (W := W)) := ledger_still fun _ ↦ rfl

theorem ledger_read : KeepsLedger P (Eff.read : RunM W (Run W)) := ledger_still fun _ ↦ rfl

variable {env : Setting W}

theorem ledger_append {kind : EventKind} {iteration : ℕ} {payload : Fields} :
    KeepsLedger P (RunM.append env kind iteration payload) := by
  rw [RunM.append]
  cases env.events with
  | none => exact Eff.Keeps.pure _
  | some sink => exact (ledger_logged _).bind fun _ ↦ Eff.Keeps.pure _

theorem ledger_startCall {kind : CallKind} {iteration : ℕ} {target : Option Str}
    {idempotent : Bool} : KeepsLedger P (RunM.startCall env kind iteration target idempotent) := by
  rw [RunM.startCall]
  cases env.events with
  | none => exact Eff.Keeps.pure _
  | some sink => exact ledger_logged _

theorem ledger_finishCall {call : Option Str} {outcome : CallOutcome} {iteration : ℕ}
    {error : Option Exc} : KeepsLedger P (RunM.finishCall env call outcome iteration error) := by
  unfold RunM.finishCall
  split
  · exact (ledger_logged _).bind fun _ ↦ Eff.Keeps.pure _
  · exact Eff.Keeps.pure _

variable (hP : Lasting P)
include hP

theorem ledger_note {m : Mark} (hm : m.isGraded = false) : KeepsLedger P (note (W := W) m) :=
  fun _ hr ↦ hP _ m hm hr

theorem ledger_refuse (source target : Status) : KeepsLedger P (refuse (W := W) source target) :=
  (ledger_note hP rfl).bind fun _ ↦ Eff.Keeps.raise _

theorem ledger_become (s : Status) : KeepsLedger P (become (W := W) s) :=
  Eff.Keeps.bind (ledger_still fun _ ↦ rfl) fun _ ↦ ledger_note hP rfl

theorem ledger_enter (target : Status) : KeepsLedger P (enter (W := W) target) :=
  ledger_state.bind fun _ ↦ Eff.Keeps.ite (fun _ ↦ ledger_become hP _) fun _ ↦ ledger_refuse hP _ _

theorem ledger_stop (reason : StopReason) : KeepsLedger P (stop (W := W) reason) := by
  have hreason : KeepsLedger P (setState (W := W) fun s ↦ { s with stopReason := some reason }) :=
    ledger_still fun _ ↦ rfl
  unfold stop
  refine Eff.Keeps.ite (fun _ ↦ ?_) fun _ ↦ (ledger_enter hP _).bind fun _ ↦ hreason
  refine ledger_state.bind fun _ ↦ Eff.Keeps.ite (fun _ ↦ ?_) fun _ ↦ ?_
  · exact (ledger_refuse hP _ _).bind fun _ ↦ hreason
  · exact (ledger_become hP _).bind fun _ ↦ hreason

theorem ledger_stopBudget (limit : Str) : KeepsLedger P (stopBudget (W := W) limit) :=
  Eff.Keeps.bind (ledger_still fun _ ↦ rfl) fun _ ↦ ledger_stop hP _

theorem ledger_stopToolError (stage : String) (e : Exc) :
    KeepsLedger P (stopToolError (W := W) stage e) :=
  (ledger_stop hP _).bind fun _ ↦ ledger_still fun _ ↦ rfl

theorem ledger_expired : KeepsLedger P (expired env) := by
  refine ledger_read.bind fun r ↦ ?_
  refine Eff.Keeps.bind (Eff.Keeps.attempt (Eff.Keeps.ite (fun _ ↦ ?_) fun _ ↦ ledger_metered _))
    fun x ↦ ?_
  · exact (ledger_outside _).bind fun _ ↦
      Eff.Keeps.ite (fun _ ↦ Eff.Keeps.raise _) fun _ ↦ Eff.Keeps.pure _
  · split
    · exact Eff.Keeps.pure _
    · exact (ledger_stop hP _).bind fun _ ↦ Eff.Keeps.pure _
    · exact (ledger_stopBudget hP _).bind fun _ ↦ Eff.Keeps.pure _
    · exact Eff.Keeps.raise _

theorem ledger_driftReport : KeepsLedger P (driftReport env) := by
  refine ledger_state.bind fun s ↦ ?_
  split
  · exact (ledger_note hP rfl).bind fun _ ↦ Eff.Keeps.pure _
  · refine Eff.Keeps.ite (fun _ ↦ (ledger_note hP rfl).bind fun _ ↦ Eff.Keeps.pure _) fun _ ↦ ?_
    exact (ledger_outside _).bind fun _ ↦ (ledger_note hP rfl).bind fun _ ↦ Eff.Keeps.pure _

/-! ## Producing

Producing an output gives no grade and reads no source, so the ledger of the run is as it was. -/

omit hP in
theorem ledger_recordToolCalls {calls : List ToolCall} :
    KeepsLedger P (recordToolCalls env calls) := by
  induction calls with
  | nil => exact Eff.Keeps.pure _
  | cons call calls ih =>
    refine ledger_startCall.bind fun started ↦ ?_
    cases call.outcome with
    | none => exact ih
    | some outcome => exact ledger_finishCall.bind fun _ ↦ ih

omit hP in
theorem ledger_executeAdapter {adapter : ModelAdapter W} {input : ModelInput} :
    KeepsLedger P (executeAdapter env adapter input) := by
  refine ledger_read.bind fun r ↦ Eff.Keeps.bind (ledger_still fun _ ↦ rfl) fun _ ↦ ?_
  refine Eff.Keeps.ite (fun _ ↦ ?_) fun _ ↦ Eff.Keeps.ofExcept _
  exact ledger_recordToolCalls.bind fun _ ↦ Eff.Keeps.ofExcept _

theorem ledger_modelFailed {iteration : ℕ} {call : Option Str} {e : Exc} :
    KeepsLedger P (modelFailed env iteration call e) := by
  unfold modelFailed
  split
  · exact (ledger_stop hP _).bind fun _ ↦ Eff.Keeps.pure _
  · exact (ledger_stopBudget hP _).bind fun _ ↦ Eff.Keeps.pure _
  · refine Eff.Keeps.ite (fun _ ↦ ?_) fun _ ↦ Eff.Keeps.raise _
    exact ledger_finishCall.bind fun _ ↦ (ledger_stopToolError hP _ _).bind fun _ ↦ Eff.Keeps.pure _

omit hP in
theorem ledger_startModelCall {adapter : ModelAdapter W} {iteration : ℕ} :
    KeepsLedger P (startModelCall env adapter iteration) :=
  ledger_read.bind fun _ ↦ Eff.Keeps.ite
    (fun _ ↦ (ledger_metered _).bind fun _ ↦ ledger_startCall) fun _ ↦ ledger_startCall

omit hP in
theorem ledger_chargeModel {result : ModelResult} {output : Str} :
    KeepsLedger P (chargeModel env result output) :=
  ledger_read.bind fun _ ↦ Eff.Keeps.ite
    (fun _ ↦ (Eff.Keeps.ofExcept _).bind fun _ ↦ (ledger_metered _).bind fun _ ↦ ledger_metered _)
    fun _ ↦ Eff.Keeps.pure _

theorem ledger_askModel {adapter : ModelAdapter W} {route : RouteName} {plan : AtlasPlan} :
    KeepsLedger P (askModel env adapter route plan) := by
  refine ledger_state.bind fun s ↦ ledger_startModelCall.attempt.bind fun x ↦ ?_
  cases x with
  | error e => exact ledger_modelFailed hP
  | ok call =>
    have hcall : KeepsLedger P (runModelCall env adapter
        ⟨s.task, route, plan, s.observations, s.evaluations.getLast?⟩ s.iteration call) :=
      ledger_executeAdapter.bind fun _ ↦ (Eff.Keeps.ofExcept _).bind fun _ ↦
        ledger_finishCall.bind fun _ ↦ Eff.Keeps.pure _
    refine hcall.attempt.bind fun x ↦ ?_
    cases x with
    | error e => exact ledger_modelFailed hP
    | ok reply =>
      refine ledger_chargeModel.attempt.bind fun x ↦ ?_
      cases x with
      | error e => exact ledger_modelFailed hP
      | ok _ =>
        refine Eff.Keeps.bind (ledger_still fun _ ↦ rfl) fun _ ↦ ?_
        split <;> exact Eff.Keeps.pure _

theorem ledger_askExecutor {plan : AtlasPlan} : KeepsLedger P (askExecutor env plan) := by
  refine ledger_state.bind fun s ↦ (ledger_outside _).bind fun p ↦ ledger_read.bind fun r ↦ ?_
  refine Eff.Keeps.ite (fun _ ↦ ?_) fun _ ↦ Eff.Keeps.pure _
  refine (ledger_metered _).attempt.bind fun x ↦ ?_
  split
  · exact Eff.Keeps.pure _
  · exact (ledger_stop hP _).bind fun _ ↦ Eff.Keeps.pure _
  · exact (ledger_stopBudget hP _).bind fun _ ↦ Eff.Keeps.pure _
  · exact Eff.Keeps.raise _

theorem ledger_produce {route : RouteName} {plan : AtlasPlan} :
    KeepsLedger P (produce env route plan) := by
  unfold produce
  split
  · exact ledger_askModel hP
  · exact ledger_askExecutor hP

theorem ledger_routeAndPlan : KeepsLedger P (routeAndPlan env) := by
  refine ledger_state.bind fun s ↦ (ledger_enter hP _).bind fun _ ↦
    Eff.Keeps.bind (ledger_still fun _ ↦ rfl) fun _ ↦ (ledger_enter hP _).bind fun _ ↦
      (Eff.Keeps.ofExcept _).bind fun plan ↦ Eff.Keeps.bind (ledger_still fun _ ↦ rfl) fun _ ↦ ?_
  exact ledger_append.bind fun _ ↦ (ledger_enter hP _).bind fun _ ↦ Eff.Keeps.pure _

theorem ledger_stopForDrift {report : DriftReport} : KeepsLedger P (stopForDrift (W := W) report) :=
  ledger_state.bind fun _ ↦ Eff.Keeps.bind (ledger_still fun _ ↦ rfl) fun _ ↦ ledger_stop hP _

end

/-! ## A round of observation

Where a round is between the question and its answer, and what each step of it adds to the
ledger. -/

/-- A round is under way: nothing but marks came to the ledger. -/
structure UnderWay (l l' : Ledger) : Prop where
  grows : Grows l l'
  rounds : l'.rounds = l.rounds

/-- The host has answered with this material, and no grade was given on the way. -/
structure Answered (l : Ledger) (got : Material) (l' : Ledger) : Prop where
  evaluations : l'.evaluations = l.evaluations
  rounds : l'.rounds = l.rounds
  trace : ∃ marks held, l'.trace = l.trace ++ marks ∧ (∀ m ∈ marks, m.isGraded = false) ∧
    .answered l.rounds.length got held ∈ marks

/-- The answer was recorded as a fruitful round. -/
def Adopted (l l' : Ledger) : Prop :=
  ∃ marks got held record, l'.trace = l.trace ++ marks ∧ (∀ m ∈ marks, m.isGraded = false) ∧
    .answered l.rounds.length got held ∈ marks ∧ l'.rounds = l.rounds ++ [record] ∧
    record.round.material = got ∧ Fruitful l.rounds record

/-- How a round ends: the ledger has only grown, and where the round counts as new, something was
adopted. -/
structure RoundGrows (l : Ledger) (outcome : RoundOutcome) (l' : Ledger) : Prop where
  grows : Grows l l'
  adopted : outcome = .new → Adopted l l'

section
variable {l l' : Ledger} {got : Material} {env : Setting W} {r : Run W}

theorem UnderWay.note {m : Mark} (h : UnderWay l l') (hm : m.isGraded = false) :
    UnderWay l (l'.note m) := ⟨h.grows.note hm, h.rounds⟩

theorem lasting_underWay : Lasting (UnderWay l) := fun _ _ hm h ↦ h.note hm

theorem Answered.underWay (h : Answered l got l') : UnderWay l l' := by
  obtain ⟨marks, held, htrace, hmarks, -⟩ := h.trace
  exact ⟨⟨h.evaluations, h.rounds ▸ List.prefix_refl _, marks, htrace, hmarks⟩, h.rounds⟩

theorem UnderWay.answered {held : EvidenceBase} (h : UnderWay l l') :
    Answered l got (l'.note (.answered l.rounds.length got held)) := by
  obtain ⟨marks, htrace, hmarks⟩ :=
    (h.note (m := .answered l.rounds.length got held) rfl).grows.trace
  refine ⟨h.grows.evaluations, h.rounds, marks, held, htrace, hmarks, ?_⟩
  obtain ⟨before, hbefore, -⟩ := h.grows.trace
  rw [Ledger.note, hbefore, List.append_assoc] at htrace
  rw [← List.append_cancel_left htrace]
  exact List.mem_append_right _ (List.mem_singleton.mpr rfl)

theorem UnderWay.ends {outcome : RoundOutcome} (h : UnderWay l l') (hne : outcome ≠ .new) :
    RoundGrows l outcome l' := ⟨h.grows, fun heq ↦ absurd heq hne⟩

/-- A round that is committed is fruitful, or the run has learned nothing. -/
theorem roundGrows_commitRound {base : EvidenceBase} {merged : List Observation}
    {record : RoundRecord} {contexts newlyResolved : List Str}
    (h : Answered l record.round.material r.inside.ledger)
    (hnew : newlyResolved ≠ [] → ∃ p ∈ record.patterns, p ∉ resolvedPatterns l.rounds) :
    (commitRound env base merged record contexts newlyResolved).wp
      (fun outcome t ↦ RoundGrows l outcome t.inside.ledger) (fun _ t ↦ Grows l t.inside.ledger)
      r := by
  obtain ⟨marks, held, htrace, hmarks, hmem⟩ := h.trace
  have hrounds : r.inside.ledger.rounds ++ [record] = l.rounds ++ [record] :=
    congrArg (· ++ [record]) h.rounds
  have hgrows : Grows l ⟨l.evaluations, l.rounds ++ [record], r.inside.ledger.trace⟩ :=
    ⟨rfl, List.prefix_append _ _, marks, htrace, hmarks⟩
  have hadded : ∀ t : Run W, t.inside.ledger =
      ⟨r.inside.ledger.evaluations, r.inside.ledger.rounds ++ [record], r.inside.ledger.trace⟩ →
      t.inside.ledger = ⟨l.evaluations, l.rounds ++ [record], r.inside.ledger.trace⟩ :=
    fun t ht ↦ by rw [ht, hrounds, h.evaluations]
  unfold commitRound
  refine Eff.wp_bind.mpr (Eff.wp_bind.mpr ?_)
  refine (ledger_append (P := (· = _)) _ rfl).mono (fun _ t ht ↦ ?_) fun _ t ht ↦ ?_
  · have ht := hadded t ht
    rw [Eff.wp_ite]
    refine ⟨fun _ ↦ ⟨ht ▸ hgrows, nofun⟩, fun hfruit ↦ ?_⟩
    split
    · show Grows l t.inside.ledger
      exact ht ▸ hgrows
    · show RoundGrows l .new t.inside.ledger
      rw [ht]
      refine ⟨hgrows, fun _ ↦ ⟨marks, _, held, record, htrace, hmarks, hmem, rfl, rfl, ?_⟩⟩
      rw [Bool.and_eq_true, not_and_or, Bool.not_eq_true', Bool.not_eq_false,
        List.isEmpty_iff] at hfruit
      exact hfruit.imp_right hnew
  · have ht := hadded t ht
    show Grows l t.inside.ledger
    exact ht ▸ hgrows

theorem roundGrows_stopped {call : Option Str} {outcome : CallOutcome} {iteration : ℕ}
    {error : Option Exc} {m : RunM W Unit} (h : UnderWay l r.inside.ledger)
    (hm : KeepsLedger (UnderWay l) m) :
    (do RunM.finishCall env call outcome iteration error; m; return .stopped :
      RunM W RoundOutcome).wp
      (fun outcome t ↦ RoundGrows l outcome t.inside.ledger) (fun _ t ↦ Grows l t.inside.ledger)
      r := by
  refine Eff.wp_bind.mpr ((ledger_finishCall r h).mono (fun _ t ht ↦ ?_) fun _ t ht ↦ ht.grows)
  exact Eff.wp_bind.mpr ((hm t ht).mono (fun _ u hu ↦ hu.ends nofun) fun _ u hu ↦ hu.grows)

theorem roundGrows_payRound {base : EvidenceBase} {request : ObservationRequest}
    {patterns : List Str} {read : Option Str} {merged : List Observation} {round : ObservationRound}
    (h : Answered l round.material r.inside.ledger) :
    (payRound env base request patterns read merged round).wp
      (fun outcome t ↦ RoundGrows l outcome t.inside.ledger) (fun _ t ↦ Grows l t.inside.ledger)
      r := by
  unfold payRound
  refine Eff.wp_bind.mpr (Eff.wp_bind.mpr (Eff.wp_attempt.mpr ?_))
  refine (keeps_forM (I := fun t : Run W ↦ Answered l round.material t.inside.ledger)
    (fun c ↦ ledger_metered _) r h).mono (fun _ t ht ↦ ?_) fun e t ht ↦ ?_
  · refine Eff.wp_bind.mpr ((ledger_finishCall (P := Answered l round.material) t ht).mono
      (fun _ u hu ↦ ?_) fun _ u hu ↦ hu.underWay.grows)
    refine roundGrows_commitRound hu fun hne ↦ ?_
    obtain ⟨p, hp⟩ := List.exists_mem_of_ne_nil _ hne
    obtain ⟨hmem, hnew⟩ := List.mem_filter.mp hp
    refine ⟨p, hmem, ?_⟩
    rw [← h.rounds]
    exact of_decide_eq_true hnew
  · split
    · exact roundGrows_stopped ht.underWay (ledger_stop lasting_underWay _)
    · exact roundGrows_stopped ht.underWay (ledger_stopBudget lasting_underWay _)
    · exact ht.underWay.grows
    · rename_i heq
      cases heq

theorem roundGrows_observeRoundOf {recorded : List Material} {request : ObservationRequest}
    {patterns : List Str} {base : EvidenceBase} {observer : Observer W} :
    (observeRoundOf env recorded request patterns base observer).wp
      (fun outcome t ↦ RoundGrows r.inside.ledger outcome t.inside.ledger)
      (fun _ t ↦ Grows r.inside.ledger t.inside.ledger) r := by
  have hstart : UnderWay r.inside.ledger r.inside.ledger := ⟨Grows.refl _, rfl⟩
  unfold observeRoundOf
  refine Eff.wp_bind.mpr (Eff.wp_bind.mpr (Eff.wp_bind.mpr ?_))
  have hasked : UnderWay r.inside.ledger (r.inside.ledger.note .asked) := hstart.note rfl
  refine (ledger_startCall (P := UnderWay r.inside.ledger) _ ?_).mono (fun read t ht ↦ ?_)
    fun _ t ht ↦ ht.grows
  · exact hasked
  have hask : KeepsLedger (UnderWay r.inside.ledger) (askHost env base observer request) :=
    (ledger_metered _).bind fun _ ↦ (ledger_metered _).bind fun _ ↦ Eff.Keeps.ofExcept _
  refine Eff.wp_bind.mpr (Eff.wp_attempt.mpr ((hask t ht).mono (fun p t ht ↦ ?_) fun e t ht ↦ ?_))
  · refine Eff.wp_bind.mpr (Eff.wp_update.mpr ?_)
    have hanswered : Answered r.inside.ledger p.2.material (t.inside.ledger.note
        (.answered r.inside.ledger.rounds.length p.2.material base)) := ht.answered
    split
    · rw [Eff.wp_ite]
      refine ⟨fun _ ↦ ?_, fun _ ↦ roundGrows_payRound hanswered⟩
      refine Eff.wp_bind.mpr ((ledger_finishCall (P := UnderWay r.inside.ledger) _ ?_).mono
        (fun _ t ht ↦ ?_) fun _ t ht ↦ ht.grows)
      · exact hanswered.underWay
      refine Eff.wp_bind.mpr (Eff.wp_bind.mpr ((ledger_stop lasting_underWay _ _ ?_).mono
        (fun _ u hu ↦ hu.ends nofun) fun _ u hu ↦ hu.grows))
      exact ht
    · exact roundGrows_payRound hanswered
  · split
    · exact roundGrows_stopped ht (ledger_stop lasting_underWay _)
    · exact roundGrows_stopped ht (ledger_stopBudget lasting_underWay _)
    · rw [Eff.wp_ite]
      exact ⟨fun _ ↦ roundGrows_stopped ht (ledger_stopToolError lasting_underWay _ _),
        fun _ ↦ ht.grows⟩
    · rename_i heq
      cases heq

theorem roundGrows_observeRound {recorded : List Material} {request : ObservationRequest}
    {patterns : List Str} :
    (observeRound env recorded request patterns).wp
      (fun outcome t ↦ RoundGrows r.inside.ledger outcome t.inside.ledger)
      (fun _ t ↦ Grows r.inside.ledger t.inside.ledger) r := by
  unfold observeRound
  refine Eff.wp_bind.mpr (wp_state.mpr ?_)
  split
  · exact roundGrows_observeRoundOf
  · exact Grows.refl _

theorem RoundGrows.after {outcome : RoundOutcome} (h : Grows l l')
    {l'' : Ledger} (hround : RoundGrows l' outcome l'') (hrounds : l'.rounds = l.rounds) :
    RoundGrows l outcome l'' := by
  refine ⟨h.trans hround.grows, fun heq ↦ ?_⟩
  obtain ⟨marks, htrace, hmarks⟩ := h.trace
  obtain ⟨more, got, held, record, hmore, hnone, hmem, hrecord, hgot, hfruit⟩ := hround.adopted heq
  refine ⟨marks ++ more, got, held, record, ?_, fun m hm ↦ ?_, ?_, ?_, hgot, hrounds ▸ hfruit⟩
  · rw [hmore, htrace, List.append_assoc]
  · exact (List.mem_append.mp hm).elim (hmarks m) (hnone m)
  · rw [← hrounds]
    exact List.mem_append_right _ hmem
  · rw [hrecord, hrounds]

theorem roundGrows_readAgain {recorded : List Material} {e : AtlasEvaluation}
    {report : Option DriftReport} {review : Option ReviewPlan} :
    (readAgain env recorded e report review).wp
      (fun outcome t ↦ RoundGrows r.inside.ledger outcome t.inside.ledger)
      (fun _ t ↦ Grows r.inside.ledger t.inside.ledger) r := by
  have hstart : UnderWay r.inside.ledger r.inside.ledger := ⟨Grows.refl _, rfl⟩
  unfold readAgain
  refine Eff.wp_bind.mpr (wp_state.mpr ?_)
  split
  · exact Grows.refl _
  · refine Eff.wp_bind.mpr ((Eff.Keeps.ofExcept (I := fun t : Run W ↦
      UnderWay r.inside.ledger t.inside.ledger) _ r hstart).mono (fun request t ht ↦ ?_)
        fun _ t ht ↦ ht.grows)
    refine Eff.wp_bind.mpr ((ledger_enter lasting_underWay .observing t ht).mono (fun _ t ht ↦ ?_)
      fun _ t ht ↦ ht.grows)
    exact roundGrows_observeRound.mono (fun _ u hu ↦ hu.after ht.grows ht.rounds)
      fun _ u hu ↦ ht.grows.trans hu

end

/-! ## After a grade

What is known right after a grade, before the rules that may stop the run. -/

/-- Of any two grades that failed alike, and that are followed by this many more, the second is
followed by a fruitful round before the next. -/
structure Paced (slack : ℕ) (l : Ledger) : Prop where
  counted : l.trace.countP (·.isGraded) = l.evaluations.length
  spent : ∀ i e e', l.evaluations[i]? = some e → l.evaluations[i + 1]? = some e' →
    SameSignature e' e → i + 2 + slack ≤ l.evaluations.length → FruitfulAfter (i + 1) l

/-- The last two grades failed alike: the second pass was refused for the same reasons as the first.
-/
def Repeats (l : Ledger) : Prop :=
  ∃ e previous, lastTwo l.evaluations = some (e, previous) ∧ SameSignature e previous

/-- The grade `e` was given just now: it is the last one, and its mark is the last of the trace. -/
structure JustGraded (e : AtlasEvaluation) (l : Ledger) : Prop where
  paced : Paced 1 l
  earnest : Earnest e
  last : l.evaluations.getLast? = some e
  trace : ∃ pre, l.trace = pre ++ [.graded e]

section
variable {l l' : Ledger} {slack : ℕ} {e : AtlasEvaluation}

theorem Paced.weaken (h : Paced 0 l) : Paced slack l :=
  ⟨h.counted, fun i e e' he he' hsame hle ↦ h.spent i e e' he he' hsame (by omega)⟩

theorem countP_of_none {marks : List Mark} (h : ∀ m ∈ marks, m.isGraded = false) :
    marks.countP (·.isGraded) = 0 :=
  List.countP_eq_zero.mpr fun m hm ↦ by rw [h m hm]; exact Bool.false_ne_true

theorem Paced.grows (h : Paced slack l) (hg : Grows l l') : Paced slack l' := by
  obtain ⟨marks, htrace, hmarks⟩ := hg.trace
  refine ⟨?_, fun i e e' he he' hsame hle ↦ ?_⟩
  · rw [htrace, List.countP_append, countP_of_none hmarks, hg.evaluations, h.counted, Nat.add_zero]
  · rw [hg.evaluations] at he he' hle
    exact (h.spent i e e' he he' hsame hle).mono hg.rounds (htrace ▸ List.prefix_append _ _)

/-- The last two items of a list. -/
theorem lastTwo_of_getElem? {α : Type*} {xs : List α} {i : ℕ} {a b : α} (hb : xs[i]? = some b)
    (ha : xs[i + 1]? = some a) (hlength : xs.length = i + 2) : lastTwo xs = some (a, b) := by
  obtain ⟨hi, hb⟩ := List.getElem?_eq_some_iff.mp hb
  obtain ⟨hi', ha⟩ := List.getElem?_eq_some_iff.mp ha
  have hdrop : xs.drop i = [b, a] := by
    rw [List.drop_eq_getElem_cons hi, List.drop_eq_getElem_cons hi', hb, ha,
      List.drop_eq_nil_of_le (by omega)]
  have hxs : xs = xs.take i ++ [b, a] := by rw [← hdrop, List.take_append_drop]
  rw [hxs, lastTwo, List.reverse_append]
  rfl

theorem getLast?_of_lastTwo {α : Type*} {xs : List α} {a b : α} (h : lastTwo xs = some (a, b)) :
    xs.getLast? = some a := by
  rw [← List.head?_reverse]
  rw [lastTwo] at h
  split at h
  · rename_i hrev
    rw [hrev]
    exact congrArg some (Prod.mk.inj (Option.some.inj h)).1
  · cases h

/-- A run may go on where the last failure was none before, or a fruitful round came after it. -/
theorem JustGraded.again (h : JustGraded e l) (hg : Grows l l')
    (hon : Adopted l l' ∨ ¬ Repeats l) : Paced 0 l' := by
  have hpaced := h.paced.grows hg
  refine ⟨hpaced.counted, fun i e₁ e₂ he₁ he₂ hsame hle ↦ ?_⟩
  by_cases hmore : i + 3 ≤ l'.evaluations.length
  · exact hpaced.spent i e₁ e₂ he₁ he₂ hsame hmore
  have hlength : l.evaluations.length = i + 2 := by
    rw [← hg.evaluations]
    omega
  rw [hg.evaluations] at he₁ he₂
  obtain ⟨marks, got, held, record, htrace, hnone, hmem, hrounds, hgot, hfruit⟩ | hnot := hon
  · obtain ⟨pre, hpre⟩ := h.trace
    have hcount : pre.countP (·.isGraded) = i + 1 := by
      have hcounted := h.paced.counted
      rw [hpre, List.countP_append, hlength] at hcounted
      exact Nat.add_right_cancel hcounted
    refine ⟨pre, e, marks, ?_, hcount, l.rounds.length, got, held, record, ?_, ?_, hgot, ?_⟩
    · rw [htrace, hpre, List.append_assoc]
      rfl
    · rwa [List.takeWhile_eq_self_iff.mpr fun m hm ↦ by rw [hnone m hm]; rfl]
    · rw [hrounds, List.getElem?_append_right le_rfl, Nat.sub_self]
      rfl
    · rwa [hrounds, List.take_left]
  · exact absurd ⟨e₂, e₁, lastTwo_of_getElem? he₁ he₂ hlength, hsame⟩ hnot

theorem lasting_adopted : Lasting fun l' ↦ Grows l l' ∧ Adopted l l' := fun l' m hm h ↦ by
  obtain ⟨hg, marks, got, held, record, htrace, hnone, hmem, hrest⟩ := h
  refine ⟨hg.note hm, marks ++ [m], got, held, record, ?_, fun x hx ↦ ?_,
    List.mem_append_left _ hmem, hrest⟩
  · rw [Ledger.note, htrace, List.append_assoc]
  · rcases List.mem_append.mp hx with hx | hx
    · exact hnone x hx
    · rw [List.mem_singleton.mp hx]
      exact hm

end

/-! ## The stop rules

What the run has done to its ledger when it goes on after a refused pass. -/

section
variable {env : Setting W} {l : Ledger} {e : AtlasEvaluation} {r : Run W}

/-- Where a pass leaves the ledger: it goes on only where something may be different. -/
structure Settled (l : Ledger) (flow : Flow) (l' : Ledger) : Prop where
  grows : Grows l l'
  again : flow = .again → Adopted l l' ∨ ¬ Repeats l

theorem Settled.leave {l' : Ledger} (h : Grows l l') : Settled l .leave l' := ⟨h, nofun⟩

/-- A step that ends the run, and the end of the pass. -/
theorem settled_leave {α : Type} {m : RunM W α} (hm : KeepsLedger (Grows l) m)
    (h : Grows l r.inside.ledger) :
    (do let _ ← m; return Flow.leave : RunM W Flow).wp
      (fun flow t ↦ Settled l flow t.inside.ledger) (fun _ t ↦ Grows l t.inside.ledger) r :=
  Eff.wp_bind.mpr ((hm r h).mono (fun _ _ ht ↦ .leave ht) fun _ _ ht ↦ ht)

/-- What is recorded of a stop is no round. -/
theorem settled_record {f : Metadata → Metadata} {reason : StopReason}
    (hf : ∀ m, (f m).observationRounds = m.observationRounds) (h : Grows l r.inside.ledger) :
    (do setMetadata f; stop reason; return Flow.leave : RunM W Flow).wp
      (fun flow t ↦ Settled l flow t.inside.ledger) (fun _ t ↦ Grows l t.inside.ledger) r := by
  have hset : KeepsLedger (Grows l) (setMetadata (W := W) f) := ledger_still fun r ↦
    congrArg (fun rounds ↦ Ledger.mk r.inside.state.evaluations rounds r.inside.trace) (hf _)
  exact Eff.wp_bind.mpr ((hset r h).mono (fun _ t ht ↦
    settled_leave (ledger_stop (lasting_grows l) _) ht) fun _ _ ht ↦ ht)

/-- A failure that was there before does not get past the stop rules. -/
theorem settle_settled (he : JustGraded e l) (h : Grows l r.inside.ledger) :
    (settle env e).wp (fun flow t ↦ Settled l flow t.inside.ledger)
      (fun _ t ↦ Grows l t.inside.ledger) r := by
  unfold settle
  refine Eff.wp_bind.mpr (Eff.wp_read.mpr ?_)
  rw [Eff.wp_ite]
  refine ⟨fun _ ↦ settled_record (fun _ ↦ rfl) h, fun hinvestigation ↦ ?_⟩
  rw [Eff.wp_ite]
  refine ⟨fun _ ↦ settled_record (fun _ ↦ rfl) h, fun _ ↦ ?_⟩
  rw [Eff.wp_ite]
  refine ⟨fun _ ↦ settled_record (fun _ ↦ rfl) h, fun hfailure ↦ ?_⟩
  rw [Eff.wp_ite]
  refine ⟨fun _ ↦ settled_leave (ledger_stop (lasting_grows l) _) h, fun hretry ↦ ?_⟩
  refine Eff.wp_bind.mpr ((ledger_enter (lasting_grows l) _ r h).mono
    (fun _ t ht ↦ ⟨ht, fun _ ↦ .inr ?_⟩) fun _ _ ht ↦ ht)
  rintro ⟨current, previous, htwo, hsame⟩
  rw [Bool.or_eq_true, Bool.or_eq_true, not_or, not_or, Bool.not_eq_true, Bool.not_eq_true,
    Bool.not_eq_true', Bool.not_eq_false] at hretry
  obtain ⟨⟨happroval, hpassed⟩, hretry⟩ := hretry
  by_cases hblocked : e.blockedBy = []
  · obtain rfl : e = current :=
      Option.some.inj (he.last.symm.trans (getLast?_of_lastTwo htwo))
    refine hfailure ?_
    rw [repeatedFailure, show r.inside.state.evaluations = l.evaluations from h.evaluations, htwo,
      Option.any_some, sameFailure_of_signature hsame (he.earnest.acts hretry),
      he.earnest.possible hretry, hblocked]
    rfl
  · refine hinvestigation ?_
    rw [he.earnest.investigates hretry hblocked, hpassed, happroval]
    rfl

theorem settleDrift_settled {report : Option DriftReport} (he : JustGraded e l)
    (h : Grows l r.inside.ledger) :
    (settleDrift env e report).wp (fun flow t ↦ Settled l flow t.inside.ledger)
      (fun _ t ↦ Grows l t.inside.ledger) r := by
  cases report with
  | some report => exact settled_leave (ledger_stopForDrift (lasting_grows l)) h
  | none => exact settle_settled he h

theorem judge_settled {recorded : List Material} {plan : AtlasPlan} (he : JustGraded e l)
    (h : UnderWay l r.inside.ledger) :
    (judge env recorded plan e).wp (fun flow t ↦ Settled l flow t.inside.ledger)
      (fun _ t ↦ Grows l t.inside.ledger) r := by
  unfold judge
  refine Eff.wp_bind.mpr ((ledger_driftReport lasting_underWay r h).mono (fun report t ht ↦ ?_)
    fun _ _ ht ↦ ht.grows)
  refine Eff.wp_bind.mpr (wp_state.mpr ?_)
  rw [Eff.wp_ite]
  refine ⟨fun _ ↦ ?_, fun _ ↦ settleDrift_settled he ht.grows⟩
  refine Eff.wp_bind.mpr (roundGrows_readAgain.mono (fun outcome u hu ↦ ?_)
    fun _ u hu ↦ ht.grows.trans hu)
  have hu := hu.after ht.grows ht.rounds
  cases outcome with
  | stopped => exact .leave hu.grows
  | nothing => exact settleDrift_settled he hu.grows
  | new =>
    exact Eff.wp_bind.mpr ((ledger_enter lasting_adopted _ u ⟨hu.grows, hu.adopted rfl⟩).mono
      (fun _ v hv ↦ ⟨hv.1, fun _ ↦ .inl hv.2⟩) fun _ v hv ↦ hv.1)

/-! ## A pass

A pass gives one grade, and then either stops or moves the ledger on. -/

/-- A grade is one more, with its mark. -/
theorem justGraded_grade {route : RouteName} {plan : AtlasPlan} {p : Produced}
    (h : Paced 0 r.inside.ledger) :
    (grade env route plan p).wp (fun e t ↦ JustGraded e t.inside.ledger)
      (fun _ t ↦ Paced 1 t.inside.ledger) r := by
  unfold grade
  refine Eff.wp_bind.mpr (wp_state.mpr (Eff.wp_bind.mpr (Eff.wp_zoom.mpr ?_)))
  refine (Eff.wp_run _ _).mono (fun e w hrun ↦ ?_) fun _ _ _ ↦ h.weaken
  have hgraded : JustGraded e ⟨r.inside.ledger.evaluations ++ [e], r.inside.ledger.rounds,
      r.inside.ledger.trace ++ [.graded e]⟩ := by
    refine ⟨⟨?_, fun i e₁ e₂ he₁ he₂ hsame hle ↦ ?_⟩, evaluate_earnest hrun, List.getLast?_concat,
      _, rfl⟩
    · rw [List.countP_append, h.counted, List.length_append]
      rfl
    · have hle : i + 2 ≤ r.inside.ledger.evaluations.length := by
        rw [List.length_append, List.length_singleton] at hle
        omega
      rw [List.getElem?_append_left (by omega)] at he₁ he₂
      exact (h.spent i e₁ e₂ he₁ he₂ hsame hle).mono (List.prefix_refl _) (List.prefix_append _ _)
  refine Eff.wp_bind.mpr (Eff.wp_update.mpr (Eff.wp_bind.mpr (Eff.wp_update.mpr ?_)))
  refine Eff.wp_bind.mpr ((ledger_append (P := JustGraded e) _ ?_).mono (fun _ t ht ↦ ?_)
    fun _ t ht ↦ ht.paced)
  · exact hgraded
  · exact ht

/-- What is left of a pass: it is paced, and paced enough for another one if there is one. -/
structure PassEnds (flow : Flow) (l : Ledger) : Prop where
  paced : Paced 1 l
  again : flow = .again → Paced 0 l

theorem PassEnds.leave (h : Paced 1 l) : PassEnds .leave l := ⟨h, nofun⟩

theorem lasting_paced (slack : ℕ) : Lasting (Paced slack) := fun l _ hm h ↦
  h.grows ((Grows.refl l).note hm)

theorem passEnds_gradeAndJudge {recorded : List Material} {route : RouteName} {plan : AtlasPlan}
    {p : Produced} (h : Paced 0 r.inside.ledger) :
    (gradeAndJudge env recorded route plan p).wp (fun flow t ↦ PassEnds flow t.inside.ledger)
      (fun _ t ↦ Paced 1 t.inside.ledger) r := by
  unfold gradeAndJudge
  refine Eff.wp_bind.mpr (wp_state.mpr ?_)
  refine Eff.wp_bind.mpr (Eff.wp_update.mpr (Eff.wp_bind.mpr (Eff.wp_update.mpr ?_)))
  refine Eff.wp_bind.mpr ((ledger_enter (lasting_paced 0) _ _ ?_).mono (fun _ t ht ↦ ?_)
    fun _ _ ht ↦ ht.weaken)
  · exact h
  refine Eff.wp_bind.mpr ((ledger_expired (lasting_paced 0) t ht).mono (fun late t ht ↦ ?_)
    fun _ _ ht ↦ ht.weaken)
  rw [Eff.wp_ite]
  refine ⟨fun _ ↦ .leave ht.weaken, fun _ ↦ ?_⟩
  refine Eff.wp_bind.mpr ((justGraded_grade ht).mono (fun e t ht ↦ ?_) fun _ _ ht ↦ ht)
  refine Eff.wp_bind.mpr ((ledger_expired lasting_underWay t ⟨Grows.refl _, rfl⟩).mono
    (fun late u hu ↦ ?_) fun _ u hu ↦ ht.paced.grows hu.grows)
  rw [Eff.wp_ite]
  refine ⟨fun _ ↦ .leave (ht.paced.grows hu.grows), fun _ ↦ ?_⟩
  refine (judge_settled ht hu).mono (fun flow v hv ↦ ?_) fun _ v hv ↦ ht.paced.grows hv
  exact ⟨ht.paced.grows hv.grows, fun hagain ↦ ht.again hv.grows (hv.again hagain)⟩

theorem passEnds_onePass {recorded : List Material} (h : Paced 0 r.inside.ledger) :
    (onePass env recorded).wp (fun flow t ↦ PassEnds flow t.inside.ledger)
      (fun _ t ↦ Paced 1 t.inside.ledger) r := by
  unfold onePass
  refine Eff.wp_bind.mpr ((ledger_expired (lasting_paced 0) r h).mono (fun late t ht ↦ ?_)
    fun _ _ ht ↦ ht.weaken)
  rw [Eff.wp_ite]
  refine ⟨fun _ ↦ .leave ht.weaken, fun _ ↦ Eff.wp_bind.mpr (Eff.wp_update.mpr ?_)⟩
  refine Eff.wp_bind.mpr ((ledger_routeAndPlan (lasting_paced 0) _ ?_).mono
    (fun chosen t ht ↦ ?_) fun _ _ ht ↦ ht.weaken)
  · exact ht
  refine Eff.wp_bind.mpr ((ledger_expired (lasting_paced 0) t ht).mono (fun late t ht ↦ ?_)
    fun _ _ ht ↦ ht.weaken)
  rw [Eff.wp_ite]
  refine ⟨fun _ ↦ .leave ht.weaken, fun _ ↦ ?_⟩
  refine Eff.wp_bind.mpr ((ledger_produce (lasting_paced 0) t ht).mono (fun produced t ht ↦ ?_)
    fun _ _ ht ↦ ht.weaken)
  cases produced with
  | none => exact .leave ht.weaken
  | some p => exact passEnds_gradeAndJudge ht

theorem paced_loop {recorded : List Material} : ∀ {fuel : ℕ} {r : Run W}, Paced 0 r.inside.ledger →
    (loop env recorded fuel).wp (fun _ t ↦ Paced 1 t.inside.ledger)
      (fun _ t ↦ Paced 1 t.inside.ledger) r
  | 0, _, h => h.weaken
  | fuel + 1, r, h => by
    unfold loop
    refine Eff.wp_bind.mpr (wp_state.mpr ?_)
    rw [Eff.wp_ite]
    refine ⟨fun _ ↦ ?_, fun _ ↦ h.weaken⟩
    refine Eff.wp_bind.mpr ((passEnds_onePass h).mono (fun flow t ht ↦ ?_) fun _ _ ht ↦ ht)
    cases flow with
    | leave => exact ht.paced
    | again => exact paced_loop (ht.again rfl)

/-! ## Before and after the loop

What comes before the loop gives no grade, and what follows it gives none either. -/

theorem ledger_gather {P : Ledger → Prop} (hP : Lasting P) : KeepsLedger P (gather env) := by
  have hread : ∀ reader, KeepsLedger P (readSource env reader) := by
    intro reader
    refine (ledger_metered _).bind fun _ ↦ (ledger_metered _).bind fun gathered ↦ ?_
    cases gathered with
    | none => exact Eff.Keeps.raise _
    | some gathered => exact (ledger_metered _).bind fun _ ↦ ledger_still fun _ ↦ rfl
  refine (keeps_forM hread).attempt.bind fun x ↦ ?_
  split
  · exact Eff.Keeps.pure _
  · exact (ledger_stop hP _).bind fun _ ↦ Eff.Keeps.pure _
  · exact (ledger_stopBudget hP _).bind fun _ ↦ Eff.Keeps.pure _
  · refine Eff.Keeps.ite (fun _ ↦ ?_) fun _ ↦ Eff.Keeps.raise _
    exact (ledger_stopToolError hP _ _).bind fun _ ↦ Eff.Keeps.pure _

theorem ledger_readMemory {P : Ledger → Prop} : KeepsLedger P (readMemory env) := by
  refine ledger_read.bind fun r ↦ ?_
  dsimp only
  split
  · exact Eff.Keeps.pure _
  · refine Eff.Keeps.ite (fun _ ↦ ledger_still fun _ ↦ rfl) fun _ ↦ ?_
    exact (ledger_outside _).bind fun _ ↦ ledger_still fun _ ↦ rfl

theorem ledger_remember {P : Ledger → Prop} : KeepsLedger P (remember env) := by
  refine ledger_read.bind fun r ↦ ?_
  dsimp only
  split
  · refine Eff.Keeps.ite (fun _ ↦ ?_) fun _ ↦ Eff.Keeps.pure _
    split <;> exact (ledger_outside _).bind fun _ ↦ ledger_still fun _ ↦ rfl
  · exact Eff.Keeps.pure _

theorem ledger_openLog {P : Ledger → Prop} : KeepsLedger P (openLog env) := by
  have happend : ∀ kind payload, KeepsLedger P (RunM.append env kind 0 payload) :=
    fun _ _ ↦ ledger_append
  unfold openLog
  split
  · exact Eff.Keeps.pure _
  · refine Eff.Keeps.bind (Eff.Keeps.ofExcept _) fun log ↦ ?_
    refine Eff.Keeps.bind (Eff.Keeps.update fun _ h ↦ h) fun _ ↦ ?_
    split
    · exact Eff.Keeps.bind (Eff.Keeps.ofExcept _) fun _ ↦ happend _ _
    · refine Eff.Keeps.bind (happend _ _) fun _ ↦ ?_
      refine Eff.Keeps.bind (Eff.Keeps.ofExcept _) fun identity ↦ ?_
      exact happend _ _

theorem ledger_setUp {P : Ledger → Prop} : KeepsLedger P (setUp env) := by
  refine Eff.Keeps.ite (fun _ ↦ Eff.Keeps.raise _) fun _ ↦ ledger_openLog.bind fun _ ↦ ?_
  split
  · exact Eff.Keeps.ofExcept _
  · exact (ledger_outside _).bind fun _ ↦ Eff.Keeps.bind (ledger_still fun _ ↦ rfl) fun _ ↦
      Eff.Keeps.ofExcept _

theorem grows_observeRound {recorded : List Material} {request : ObservationRequest}
    {patterns : List Str} : KeepsLedger (Grows l) (observeRound env recorded request patterns) :=
  fun _ h ↦ roundGrows_observeRound.mono (fun _ _ ht ↦ h.trans ht.grows) fun _ _ ht ↦ h.trans ht

theorem grows_firstRead {recorded : List Material} :
    KeepsLedger (Grows l) (firstRead env recorded) := by
  refine ledger_state.bind fun s ↦ ?_
  split
  · refine Eff.Keeps.ite (fun _ ↦ ?_) fun _ ↦ Eff.Keeps.pure _
    refine Eff.Keeps.bind ?_ ?_
    · exact Eff.Keeps.ofExcept _
    · intro plan
      refine Eff.Keeps.bind ?_ ?_
      · exact Eff.Keeps.ofExcept _
      · intro request
        exact grows_observeRound
  · exact Eff.Keeps.pure _

theorem paced_work {recorded : List Material} (h : Paced 0 r.inside.ledger) :
    (work env recorded).wp (fun _ t ↦ Paced 1 t.inside.ledger)
      (fun _ t ↦ Paced 1 t.inside.ledger) r := by
  have hconclude : KeepsLedger (Paced 1) (conclude env) :=
    ledger_state.bind fun _ ↦ Eff.Keeps.ite
      (fun _ ↦ (ledger_stop (lasting_paced 1) _).bind fun _ ↦ ledger_remember)
      fun _ ↦ ledger_remember
  exact Eff.wp_bind.mpr ((paced_loop h).mono (fun _ t ht ↦ hconclude t ht) fun _ _ ht ↦ ht)

/-- What comes before the loop gives no grade. -/
theorem paced_untilStop (h : Paced 0 r.inside.ledger) :
    (untilStop env).wp (fun _ t ↦ Paced 1 t.inside.ledger)
      (fun _ t ↦ Paced 1 t.inside.ledger) r := by
  -- a step that keeps the ledger paced, and what comes after it
  have hthen : ∀ {α : Type} {m : RunM W α} {f : α → RunM W Unit} {r : Run W},
      KeepsLedger (Paced 0) m → Paced 0 r.inside.ledger →
      (∀ a t, Paced 0 t.inside.ledger → (f a).wp (fun _ t ↦ Paced 1 t.inside.ledger)
        (fun _ t ↦ Paced 1 t.inside.ledger) t) →
      (m >>= f).wp (fun _ t ↦ Paced 1 t.inside.ledger) (fun _ t ↦ Paced 1 t.inside.ledger) r :=
    fun hm h hf ↦ Eff.wp_bind.mpr ((hm _ h).mono (fun a t ht ↦ hf a t ht) fun _ _ ht ↦ ht.weaken)
  unfold untilStop
  refine hthen ledger_setUp h fun recorded t ht ↦ ?_
  refine hthen (ledger_enter (lasting_paced 0) _) ht fun _ t ht ↦ ?_
  refine hthen (ledger_still fun _ ↦ rfl) ht fun _ t ht ↦ ?_
  refine hthen (ledger_gather (lasting_paced 0)) ht fun late t ht ↦ ?_
  rw [Eff.wp_ite]
  refine ⟨fun _ ↦ ht.weaken, fun _ ↦ hthen ledger_readMemory ht fun _ t ht ↦ ?_⟩
  rw [Eff.wp_ite]
  refine ⟨fun _ ↦ hthen (ledger_still fun _ ↦ rfl) ht fun _ t ht ↦ ?_, fun _ ↦ ?_⟩
  -- the first read, with or without its note
  all_goals
    refine hthen (ledger_expired (lasting_paced 0)) ht fun late t ht ↦ ?_
    rw [Eff.wp_ite]
    refine ⟨fun _ ↦ ht.weaken, fun _ ↦ ?_⟩
    refine Eff.wp_bind.mpr ((grows_firstRead t (Grows.refl _)).mono (fun outcome u hu ↦ ?_)
      fun _ u hu ↦ (ht.grows hu).weaken)
    cases outcome with
    | stopped => exact (ht.grows hu).weaken
    | nothing => exact paced_work (ht.grows hu)
    | new => exact paced_work (ht.grows hu)

/-- Of three grades in a row, the third came after a fruitful round where the first two failed
alike. -/
def NoThirdIdenticalPass (l : Ledger) : Prop :=
  ∀ i e e' e'', l.evaluations[i]? = some e → l.evaluations[i + 1]? = some e' →
    l.evaluations[i + 2]? = some e'' → SameSignature e' e → FruitfulAfter (i + 1) l

theorem Paced.noThirdIdenticalPass (h : Paced 1 l) : NoThirdIdenticalPass l :=
  fun i e e' _ he he' he'' hsame ↦
    h.spent i e e' he he' hsame (List.getElem?_eq_some_iff.mp he'').1

/-- **The loop does not spend a third pass on an unchanged failure**, in a run that returns and in
one that raises. -/
theorem no_third_identical_pass (env : Setting W) (w : W) :
    NoThirdIdenticalPass (run env (env.start w)).2.inside.ledger := by
  have hstart : Paced 0 (env.start w).inside.ledger := ⟨rfl, fun i e e' he ↦ by
    rw [show (env.start w).inside.ledger.evaluations = [] from rfl, List.getElem?_nil] at he
    cases he⟩
  have hrun : (run env).wp (fun _ t ↦ Paced 1 t.inside.ledger)
      (fun _ t ↦ Paced 1 t.inside.ledger) (env.start w) := by
    rw [run_eq]
    refine Eff.wp_bind.mpr ((paced_untilStop hstart).mono (fun _ t ht ↦ ?_) fun _ _ ht ↦ ht)
    exact (ledger_read.bind fun _ ↦ ledger_append : KeepsLedger (Paced 1) (stopped env)) t ht
  exact Paced.noThirdIdenticalPass hrun.left

end

end AtlasCore
