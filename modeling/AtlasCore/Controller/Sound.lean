import AtlasCore.Controller.Course

/-!
# Every run is sound

Each part of a run keeps what is known of it, or ends it for a true reason; a pass takes one step of
the iteration counter, and the loop goes on only while there is an iteration left, so that the stop
after it is never reached with an open run.
-/

set_option autoImplicit false

namespace AtlasCore

open Py RunM

variable {W : Type} (env : Setting W) {N n a b c : ℕ} {S : List Status} {i : Inside}

/-- `m` ends in `Q`, or leaves a run of which no more is known than that it stands well. -/
abbrev Safe {α : Type} (N : ℕ) (m : RunM W α) (Q : α → Inside → Prop) (i : Inside) : Prop :=
  Ensures m Q (fun _ j ↦ Left N j.book) i

/-! ## Stops that any part may make

A cancellation, a limit or a failure ends the run wherever it is, with the reason that is its own.
-/

theorem stop_of_going {reason : StopReason} (h : Going N n S a b c i.book)
    (hp : reason ≠ .passed) (ha : reason ≠ .approvalRequired) (hm : reason ≠ .maxIterations) :
    Safe (W := W) N (stop reason) (fun _ j ↦ Over N j.book) i :=
  stop_over h.calm h.counts (fun he ↦ absurd he ha) (.plain h.noPass hp ha hm)

theorem stopCancelled_over (h : Going N n S a b c i.book) :
    Safe (W := W) N stopCancelled (fun _ j ↦ Over N j.book) i :=
  stop_of_going h (by decide) (by decide) (by decide)

theorem stopBudget_over {limit : Str} (h : Going N n S a b c i.book) :
    Safe (W := W) N (stopBudget limit) (fun _ j ↦ Over N j.book) i :=
  ensures_setMetadata_bind (stop_of_going h (by decide) (by decide) (by decide))

theorem stopToolError_over {stage : String} {e : Exc} (h : Going N n S a b c i.book) :
    Safe (W := W) N (stopToolError stage e) (fun _ j ↦ Over N j.book) i :=
  (stop_of_going h (by decide) (by decide) (by decide)).step fun _ _ hover ↦
    ensures_setMetadata hover

/-- `expired` ends the run or leaves it as it is. -/
theorem expired_going (h : Going N n S a b c i.book) :
    Safe N (expired env) (fun late j ↦ if late then Over N j.book else j = i) i := by
  refine Eff.On.read_bind fun r _ ↦ ?_
  refine Eff.On.step (R := fun _ j ↦ j = i) (Eff.On.attempt ?_) fun x j hj ↦ ?_
  · refine Eff.On.ite (fun _ ↦ ?_) fun _ ↦ ensures_metered (fun _ ↦ rfl) fun _ ↦ rfl
    refine Eff.On.step (R := fun _ j ↦ j = i) (ensures_outside (fun _ ↦ rfl) fun _ ↦ rfl)
      fun stop j hj ↦ ?_
    cases stop with
    | true => exact Eff.On.raise hj
    | false => exact Eff.On.pure hj
  · subst hj
    split
    · exact Eff.On.pure rfl
    · exact (stopCancelled_over h).step fun _ _ hover ↦ Eff.On.pure hover
    · exact (stopBudget_over h).step fun _ _ hover ↦ Eff.On.pure hover
    · exact Eff.On.raise h.left

/-! ## A pass up to its output

Routing, planning and executing are entered in their order, and nothing is graded yet. -/

theorem routeAndPlan_going (h : Going N n S a b c i.book)
    (hS : ∀ s ∈ S, s.isLegal .routing = true) :
    Safe N (routeAndPlan env) (fun _ j ↦ Going N n [.executing] a b c j.book) i := by
  refine ensures_state_bind ((enter_going h hS rfl).step fun _ j hj ↦ ensures_setState_bind ?_)
  refine Eff.On.step (enter_going hj (by decide) rfl) fun _ j hj ↦ ?_
  refine Eff.On.step (R := fun _ j ↦ Going N n [.planning] a b c j.book)
    (Eff.On.ofExcept (fun _ _ ↦ hj) fun _ _ ↦ hj.left) fun plan j hj ↦ ensures_setState_bind ?_
  refine Eff.On.step (R := fun _ j ↦ Going N n [.planning] a b c j.book)
    (ensures_append env (fun _ ↦ hj) fun _ _ ↦ hj.left) fun _ j hj ↦ ?_
  exact (enter_going hj (by decide) rfl).step fun _ _ hj ↦ Eff.On.pure hj

/-- A part of a pass that hands something on, or has ended the run. -/
abbrev Yields {α : Type} (m : RunM W (Option α)) (i : Inside) (N n : ℕ) (S : List Status)
    (a b c : ℕ) : Prop :=
  Safe N m (fun p j ↦ p.elim (Over N j.book) fun _ ↦ Going N n S a b c j.book) i

theorem modelFailed_over {iteration : ℕ} {call : Option Str} {e : Exc}
    (h : Going N n S a b c i.book) : Yields (modelFailed env iteration call e) i N n S a b c := by
  unfold modelFailed
  split
  · exact (stopCancelled_over h).step fun _ _ hover ↦ Eff.On.pure hover
  · exact (stopBudget_over h).step fun _ _ hover ↦ Eff.On.pure hover
  · refine Eff.On.ite (fun _ ↦ ?_) fun _ ↦ Eff.On.raise h.left
    refine Eff.On.step (R := fun _ j ↦ Going N n S a b c j.book)
      (ensures_finishCall env (fun _ ↦ h) fun _ _ ↦ h.left) fun _ j hj ↦ ?_
    exact (stopToolError_over hj).step fun _ _ hover ↦ Eff.On.pure hover

/-- A part of a pass that ends in the run going on, even where it raises. -/
abbrev Continues {α : Type} (m : RunM W α) (i : Inside) (N n : ℕ) (S : List Status)
    (a b c : ℕ) : Prop :=
  Ensures m (fun _ j ↦ Going N n S a b c j.book) (fun _ j ↦ Going N n S a b c j.book) i

theorem recordToolCalls_going {calls : List ToolCall} (h : Going N n S a b c i.book) :
    Continues (recordToolCalls env calls) i N n S a b c := by
  induction calls generalizing i with
  | nil => exact Eff.On.pure h
  | cons call calls ih =>
    refine Eff.On.step (R := fun _ j ↦ Going N n S a b c j.book)
      (ensures_startCall env (fun _ _ ↦ h) fun _ _ ↦ h) fun started j hj ↦ ?_
    cases call.outcome with
    | none => exact ih hj
    | some outcome =>
      exact Eff.On.step (R := fun _ j ↦ Going N n S a b c j.book)
        (ensures_finishCall env (fun _ ↦ hj) fun _ _ ↦ hj) fun _ _ hj ↦ ih hj

theorem executeAdapter_going {adapter : ModelAdapter W} {input : ModelInput}
    (h : Going N n S a b c i.book) :
    Continues (executeAdapter env adapter input) i N n S a b c := by
  refine Eff.On.read_bind fun r hr ↦ ?_
  refine Eff.On.step (R := fun _ j ↦ j = i) (Eff.On.update fun s hs ↦ hs) fun _ j hj ↦ ?_
  subst hj
  have hrest : ∀ j, Going N n S a b c j.book → Continues (W := W) (Eff.ofExcept
      (adapter.execute input ⟨r.world, r.budget, []⟩).1) j N n S a b c :=
    fun _ hj ↦ Eff.On.ofExcept (fun _ _ ↦ hj) fun _ _ ↦ hj
  refine Eff.On.ite (fun _ ↦ ?_) fun _ ↦ hrest _ h
  exact (recordToolCalls_going env h).step fun _ _ hj ↦ hrest _ hj

/-- A branch of the `try` around the model call: what it does leaves the run as it goes. -/
theorem attempt_going {α β : Type} {m : RunM W α} {f : Except Exc α → RunM W β}
    {Q : β → Inside → Prop}
    (hm : Continues m i N n S a b c)
    (hf : ∀ x j, Going N n S a b c j.book → Safe N (f x) Q j) :
    Safe N (Eff.attempt m >>= f) Q i :=
  Eff.On.step (R := fun _ j ↦ Going N n S a b c j.book) (Eff.On.attempt hm) hf

theorem startModelCall_going {adapter : ModelAdapter W} {iteration : ℕ}
    (h : Going N n S a b c i.book) :
    Continues (startModelCall env adapter iteration) i N n S a b c := by
  refine Eff.On.read_bind fun r _ ↦ Eff.On.ite (fun _ ↦ ?_) fun _ ↦ ?_
  · exact Eff.On.step (R := fun _ j ↦ Going N n S a b c j.book)
      (ensures_metered (fun _ ↦ h) fun _ ↦ h) fun _ _ hj ↦
        ensures_startCall env (fun _ _ ↦ hj) fun _ _ ↦ hj
  · exact Eff.On.bind (Eff.On.pure (ensures_startCall env (fun _ _ ↦ h) fun _ _ ↦ h))

theorem runModelCall_going {adapter : ModelAdapter W} {input : ModelInput} {iteration : ℕ}
    {call : Option Str} (h : Going N n S a b c i.book) :
    Continues (runModelCall env adapter input iteration call) i N n S a b c := by
  refine (executeAdapter_going env h).step fun answer j hj ↦ ?_
  refine Eff.On.step (R := fun _ j ↦ Going N n S a b c j.book)
    (Eff.On.ofExcept (fun _ _ ↦ hj) fun _ _ ↦ hj) fun result j hj ↦ ?_
  exact Eff.On.step (R := fun _ j ↦ Going N n S a b c j.book)
    (ensures_finishCall env (fun _ ↦ hj) fun _ _ ↦ hj) fun _ _ hj ↦ Eff.On.pure hj

theorem chargeModel_going {result : ModelResult} {output : Str} (h : Going N n S a b c i.book) :
    Continues (chargeModel env result output) i N n S a b c := by
  refine Eff.On.read_bind fun r _ ↦ Eff.On.ite (fun _ ↦ ?_) fun _ ↦ Eff.On.pure h
  refine Eff.On.step (R := fun _ j ↦ Going N n S a b c j.book)
    (Eff.On.ofExcept (fun _ _ ↦ h) fun _ _ ↦ h) fun usage j hj ↦ ?_
  exact Eff.On.step (R := fun _ j ↦ Going N n S a b c j.book)
    (ensures_metered (fun _ ↦ hj) fun _ ↦ hj) fun _ _ hj ↦
      ensures_metered (fun _ ↦ hj) fun _ ↦ hj

theorem keepReply_going {result : ModelResult} {output : Str} (h : Going N n S a b c i.book) :
    Yields (W := W) (keepReply result output) i N n S a b c := by
  refine ensures_setMetadata_bind ?_
  split <;> exact Eff.On.pure h

theorem askModel_going {adapter : ModelAdapter W} {route : RouteName} {plan : AtlasPlan}
    (h : Going N n S a b c i.book) : Yields (askModel env adapter route plan) i N n S a b c := by
  refine ensures_state_bind (attempt_going (startModelCall_going env h) fun x j hj ↦ ?_)
  cases x with
  | error e => exact modelFailed_over env hj
  | ok call =>
    refine attempt_going (runModelCall_going env hj) fun x j hj ↦ ?_
    cases x with
    | error e => exact modelFailed_over env hj
    | ok reply =>
      refine attempt_going (chargeModel_going env hj) fun x j hj ↦ ?_
      cases x with
      | error e => exact modelFailed_over env hj
      | ok _ => exact keepReply_going hj

theorem askExecutor_going {plan : AtlasPlan} (h : Going N n S a b c i.book) :
    Yields (askExecutor env plan) i N n S a b c := by
  refine ensures_state_bind ?_
  refine Eff.On.step (R := fun _ j ↦ Going N n S a b c j.book)
    (ensures_outside (fun _ ↦ h) fun _ ↦ h.left) fun p j hj ↦ Eff.On.read_bind fun r _ ↦ ?_
  refine Eff.On.ite (fun _ ↦ ?_) fun _ ↦ Eff.On.pure hj
  refine attempt_going (ensures_metered (fun _ ↦ hj) fun _ ↦ hj) fun x j hj ↦ ?_
  split
  · exact Eff.On.pure hj
  · exact (stopCancelled_over hj).step fun _ _ hover ↦ Eff.On.pure hover
  · exact (stopBudget_over hj).step fun _ _ hover ↦ Eff.On.pure hover
  · exact Eff.On.raise hj.left

theorem produce_going {route : RouteName} {plan : AtlasPlan} (h : Going N n S a b c i.book) :
    Yields (produce env route plan) i N n S a b c := by
  rw [produce]
  cases env.modelAdapter with
  | none => exact askExecutor_going env h
  | some adapter => exact askModel_going env h

/-! ## A round of observation

A round of a run that goes on leaves it going on with one round more, or over. -/

/-- What a round comes to: the run is over, or it has read. -/
abbrev RoundEnds (N : ℕ) (i : Inside) (outcome : RoundOutcome) (j : Inside) : Prop :=
  if outcome = .stopped then Over N j.book else Reads 1 i.book j.book

theorem commitRound_reads {base : EvidenceBase} {merged : List Observation} {record : RoundRecord}
    {contexts newlyResolved : List Str} {k : Inside} (h : Going N n S a (b + 1) 0 k.book)
    (hr : Reads 0 k.book i.book) :
    Safe N (commitRound env base merged record contexts newlyResolved) (RoundEnds N k) i := by
  have hcommitted : Reads 1 k.book { i with
      state := { i.state with metadata := { i.state.metadata with
        observationRounds := i.state.metadata.observationRounds ++ [record] } } }.book :=
    { hr with
      rounds := by
        show (i.state.metadata.observationRounds ++ [record]).length = _
        rw [List.length_append]
        exact congrArg (· + 1) hr.rounds }
  refine ensures_setMetadata_bind ?_
  refine Eff.On.step (R := fun _ j ↦ Reads 1 k.book j.book)
    (ensures_append env (fun _ ↦ hcommitted)
      fun _ _ ↦ (Reads.going hcommitted le_rfl h).left) fun _ j hj ↦ ?_
  refine Eff.On.ite (fun _ ↦ Eff.On.pure hj) fun _ ↦ ?_
  split
  · exact Eff.On.raise (hj.going le_rfl h).left
  · exact ensures_setState_bind (Eff.On.pure hj)

theorem payRound_reads {base : EvidenceBase} {request : ObservationRequest} {patterns : List Str}
    {read : Option Str} {merged : List Observation} {round : ObservationRound} {k : Inside}
    (h : Going N n S a (b + 1) 0 k.book) (hr : Reads 0 k.book i.book) :
    Safe N (payRound env base request patterns read merged round) (RoundEnds N k) i := by
  have hleft : ∀ j : Inside, Reads 0 k.book j.book → Left N j.book := fun j hj ↦
    (hj.going (Nat.zero_le 1) h).left
  refine ensures_state_bind ?_
  refine Eff.On.step (R := fun _ j ↦ Reads 0 k.book j.book)
    (Eff.On.attempt (Eff.On.forM (I := fun j ↦ Reads 0 k.book j.book) hr
      fun _ _ _ hj ↦ ensures_metered (fun _ ↦ hj) fun _ ↦ hj))
    fun x j hj ↦ ?_
  split
  · refine Eff.On.step (R := fun _ j ↦ Reads 0 k.book j.book)
      (ensures_finishCall env (fun _ ↦ hj) fun _ _ ↦ hleft _ hj) fun _ j hj ↦ ?_
    exact (stopCancelled_over (hj.going (Nat.zero_le 1) h)).step fun _ _ hover ↦ Eff.On.pure hover
  · refine Eff.On.step (R := fun _ j ↦ Reads 0 k.book j.book)
      (ensures_finishCall env (fun _ ↦ hj) fun _ _ ↦ hleft _ hj) fun _ j hj ↦ ?_
    exact (stopBudget_over (hj.going (Nat.zero_le 1) h)).step fun _ _ hover ↦ Eff.On.pure hover
  · exact Eff.On.raise (hleft _ hj)
  · refine Eff.On.step (R := fun _ j ↦ Reads 0 k.book j.book)
      (ensures_finishCall env (fun _ ↦ hj) fun _ _ ↦ hleft _ hj) fun _ j hj ↦ ?_
    exact commitRound_reads env h hj

theorem askHost_reads {base : EvidenceBase} {observer : Observer W} {request : ObservationRequest}
    {k : Inside} (hr : Reads 0 k.book i.book) :
    Ensures (askHost env base observer request) (fun _ j ↦ Reads 0 k.book j.book)
      (fun _ j ↦ Reads 0 k.book j.book) i := by
  refine Eff.On.step (R := fun _ j ↦ Reads 0 k.book j.book)
    (ensures_metered (fun _ ↦ hr) fun _ ↦ hr) fun _ j hj ↦ ?_
  refine Eff.On.step (R := fun _ j ↦ Reads 0 k.book j.book)
    (ensures_metered (fun _ ↦ hj) fun _ ↦ hj) fun _ j hj ↦ ?_
  exact Eff.On.ofExcept (fun _ _ ↦ hj) fun _ _ ↦ hj

/-- A round that is stopped before its material is adopted: the call is closed first. -/
theorem finishRead_over {call : Option Str} {outcome : CallOutcome} {iteration : ℕ}
    {error : Option Exc} {k : Inside} {m : RunM W RoundOutcome}
    (h : Going N n S a (b + 1) 0 k.book) (hr : Reads 0 k.book i.book)
    (hm : ∀ j : Inside, Going N n S a b 0 j.book → Safe N m (RoundEnds N k) j) :
    Safe N (do finishCall env call outcome iteration error; m) (RoundEnds N k) i :=
  Eff.On.step (R := fun _ j ↦ Reads 0 k.book j.book)
    (ensures_finishCall env (fun _ ↦ hr) fun _ _ ↦ (hr.going (Nat.zero_le 1) h).left)
    fun _ j hj ↦ hm j (hj.going (Nat.zero_le 1) h)

theorem observeRoundOf_reads {recorded : List Material} {request : ObservationRequest}
    {patterns : List Str} {base : EvidenceBase} {observer : Observer W}
    (h : Going N n S a (b + 1) 0 i.book) :
    Safe N (observeRoundOf env recorded request patterns base observer) (RoundEnds N i) i := by
  have hasked : Reads 0 i.book { i with trace := i.trace ++ [Mark.asked] }.book :=
    ⟨rfl, rfl, rfl, rfl, rfl, rfl, [], rfl, fun _ hm ↦ absurd hm List.not_mem_nil⟩
  refine ensures_state_bind (ensures_note_bind ?_)
  refine Eff.On.step (R := fun _ j ↦ Reads 0 i.book j.book)
    (ensures_startCall env (fun _ _ ↦ hasked)
      fun _ _ ↦ (Reads.going hasked (Nat.zero_le 1) h).left) fun read j hj ↦ ?_
  refine Eff.On.step (R := fun _ j ↦ Reads 0 i.book j.book)
    (Eff.On.attempt (askHost_reads env hj)) fun x j hj ↦ ?_
  split
  · exact finishRead_over env h hj fun _ hgo ↦
      (stopCancelled_over hgo).step fun _ _ hover ↦ Eff.On.pure hover
  · exact finishRead_over env h hj fun _ hgo ↦
      (stopBudget_over hgo).step fun _ _ hover ↦ Eff.On.pure hover
  · refine Eff.On.ite (fun _ ↦ ?_) fun _ ↦ Eff.On.raise (hj.going (Nat.zero_le 1) h).left
    exact finishRead_over env h hj fun _ hgo ↦
      (stopToolError_over hgo).step fun _ _ hover ↦ Eff.On.pure hover
  · rename_i merged round
    have hanswered : Reads 0 i.book { j with trace := j.trace ++ [Mark.answered
        i.state.metadata.observationRounds.length round.material base] }.book :=
      { hj with
        trace := by
          obtain ⟨marks, htrace, hmarks⟩ := hj.trace
          refine ⟨marks ++
            [.answered i.state.metadata.observationRounds.length round.material base],
            ?_, fun m hm ↦ ?_⟩
          · show j.trace ++ _ = _
            rw [show j.trace = _ from htrace, List.append_assoc]
            rfl
          · rcases List.mem_append.mp hm with hm | hm
            · exact hmarks m hm
            · exact ⟨_, _, _, List.mem_singleton.mp hm⟩ }
    refine ensures_note_bind ?_
    split
    · refine Eff.On.ite (fun _ ↦ ?_) fun _ ↦ payRound_reads env h hanswered
      exact finishRead_over env h hanswered fun _ hgo ↦ ensures_setMetadata_bind
        (Eff.On.step (stop_of_going hgo (by decide) (by decide) (by decide))
          fun _ _ hover ↦ Eff.On.pure hover)
    · exact payRound_reads env h hanswered

theorem observeRound_reads {recorded : List Material} {request : ObservationRequest}
    {patterns : List Str} (h : Going N n S a (b + 1) 0 i.book) :
    Safe N (observeRound env recorded request patterns) (RoundEnds N i) i := by
  refine ensures_state_bind ?_
  split
  · exact observeRoundOf_reads env h
  · exact Eff.On.raise h.left

/-- A round that is asked for in the middle of a pass. -/
theorem readAgain_reads {recorded : List Material} {e : AtlasEvaluation}
    {report : Option DriftReport} {review : Option ReviewPlan}
    (h : Going N n [.evaluating] a (b + 1) 0 i.book) :
    Safe N (readAgain env recorded e report review) (RoundEnds N (i.become .observing)) i := by
  refine ensures_state_bind ?_
  split
  · exact Eff.On.raise h.left
  · refine Eff.On.step (ensures_ofExcept fun _ ↦ h.left) fun request j hj ↦ ?_
    subst hj
    refine Eff.On.step (R := fun _ j' ↦ j' = j.become .observing ∧
      Going N n [.observing] a (b + 1) 0 j'.book) ?_ fun _ j' hj ↦ ?_
    · refine ensures_state_bind ?_
      have hlegal : j.state.status.isLegal .observing = true := by
        rw [show j.state.status = _ from List.mem_singleton.mp h.calm.status]
        rfl
      rw [hlegal, if_pos rfl]
      exact ensures_become ⟨rfl, h.calm.become rfl, h.counts.become _,
        fun hp ↦ h.noPass (passes_become.mp hp)⟩
    · obtain ⟨rfl, hgo⟩ := hj
      exact observeRound_reads env hgo

/-! ## The grade

A grade is fair: it says that the run has passed only if nothing is unmet. -/

theorem fair_assess {call : Call} {evidence : Evidence} {rt : Runtime} :
    Fair call.maxIterations call.iteration (call.assess rt evidence) where
  approval := fun h ↦ by
    simp only [Call.assess, Bool.and_eq_true, Bool.not_eq_true'] at h ⊢
    exact h.2
  retry := fun h ↦ by
    simp only [Call.assess] at h ⊢
    rw [h]
    rfl
  shouldRetry := rfl

/-- A grade in this pass is the last, and has been noted last. -/
theorem grade_graded {route : RouteName} {plan : AtlasPlan} {p : Produced}
    (h : Going N n [.evaluating] 1 1 0 i.book) :
    Safe N (grade env route plan p) (fun e j ↦ Graded N n e j.book) i := by
  refine ensures_state_bind ?_
  refine Eff.On.step (R := fun e j ↦ j = i ∧ Fair N n e) (ensures_outside_of fun w ↦ ?_)
    fun e j hj ↦ ?_
  · rw [evaluate, Eff.wp_map]
    refine (Eff.wp_true _ w).mono (fun evidence _ _ ↦ ⟨rfl, ?_⟩) fun _ _ _ ↦ h.left
    have hfair := @fair_assess (gradingCall i.state route plan p) evidence env.rt
    rw [show (gradingCall i.state route plan p).maxIterations = N from h.counts.maxIterations,
      show (gradingCall i.state route plan p).iteration = n from h.counts.iteration] at hfair
    exact hfair
  · obtain ⟨rfl, hfair⟩ := hj
    have hgraded : Graded N n e { j with
        state := { j.state with evaluations := j.state.evaluations ++ [e] }
        trace := j.trace ++ [Mark.graded e] }.book :=
      { going :=
          ⟨{ h.calm.note (m := .graded e) rfl with },
            { h.counts.note (m := .graded e) rfl with
              evaluations := by
                show (j.state.evaluations ++ [e]).length + 0 ≤ n
                rw [List.length_append]
                exact h.counts.evaluations
              asked := (h.counts.note (m := .graded e) rfl).asked },
            fun hp ↦ h.noPass ((passes_concat_of_ne (m := .graded e) nofun).mp hp)⟩
        fair := hfair
        last := List.getLast?_concat
        trace := ⟨j.trace, rfl⟩ }
    refine ensures_setState_bind (ensures_note_bind ?_)
    refine Eff.On.step (R := fun _ j ↦ Graded N n e j.book)
      (ensures_append env (fun _ ↦ hgraded) fun _ _ ↦ Graded.going hgraded |>.left) fun _ j hj ↦ ?_
    refine ensures_state_bind ?_
    exact Eff.On.step (R := fun _ j ↦ Graded N n e j.book)
      (Eff.On.update fun r hr ↦ by rw [hr]; exact hj) fun _ _ hj ↦ Eff.On.pure hj

/-! ## What follows from a grade

Each of the branches after a grade ends the run for a reason that is true of the grade, or lets it
go on. -/

theorem Graded.judged {e : AtlasEvaluation} (h : Graded N n e i.book)
    (report : Option DriftReport) :
    Judged N n [.evaluating] 1 e report
      { i with trace := i.trace ++ [Mark.drift report] }.book where
  calm := h.going.calm.note rfl
  counts := h.going.counts.note rfl
  fair := h.fair
  found := by
    obtain ⟨pre, htrace⟩ := h.trace
    refine ⟨h.last, pre, [], ?_, fun _ hm ↦ absurd hm List.not_mem_nil⟩
    show i.trace ++ [Mark.drift report] = _
    rw [show i.trace = _ from htrace, List.append_assoc]
    rfl
  passes := fun hp ↦ by
    rcases passes_concat.mp hp with hp | ⟨hreport, pre, e', htrace, hpassed⟩
    · exact absurd hp h.going.noPass
    · obtain ⟨pre', htrace'⟩ := h.trace
      have hsame := (List.append_inj' ((show i.trace = _ from htrace).symm.trans htrace') rfl).2
      obtain rfl : e' = e := Mark.graded.inj (List.cons.inj hsame).1
      exact ⟨Mark.drift.inj hreport, hpassed⟩

theorem driftReport_judged {e : AtlasEvaluation} (h : Graded N n e i.book) :
    Safe N (driftReport env) (fun report j ↦ Judged N n [.evaluating] 1 e report j.book) i := by
  refine ensures_state_bind ?_
  split
  · exact ensures_note_bind (Eff.On.pure (h.judged none))
  · refine Eff.On.ite (fun _ ↦ ensures_note_bind (Eff.On.pure (h.judged none))) fun _ ↦ ?_
    refine Eff.On.step (R := fun _ j ↦ j = i) (ensures_outside (fun _ ↦ rfl) fun _ ↦ h.going.left)
      fun report j hj ↦ ?_
    subst hj
    exact ensures_note_bind (Eff.On.pure (h.judged _))

/-- What a pass comes to: the run is over, or there is another pass, in which one more round may be
asked for. -/
abbrev FlowEnds (N n : ℕ) (flow : Flow) (j : Inside) : Prop :=
  if flow = .leave then Over N j.book else Going N n [.replanning] 0 0 0 j.book ∧ n < N

theorem stopForDrift_over {e : AtlasEvaluation} {report : DriftReport}
    (h : Judged N n S b e (some report) i.book) :
    Safe (W := W) N (stopForDrift report) (fun _ j ↦ Over N j.book) i := by
  refine ensures_state_bind (ensures_setMetadata_bind ?_)
  refine stop_over (S := S) (n := n) h.calm h.counts (fun ha ↦ absurd ha (by decide)) ?_
  refine h.trueReason (fun hr ↦ absurd hr (by decide)) (fun hr ↦ absurd hr (by decide))
    (fun hr ↦ absurd hr (by decide)) fun hr ↦ absurd hr (by simp)

/-- A stop that the grade itself asks for. -/
theorem stop_of_judged {e : AtlasEvaluation} {reason : StopReason}
    (h : Judged N n S b e none i.book)
    (hstatus : e.requiresUserApproval = true → i.state.status = .evaluating)
    (hp : reason = .passed ↔ e.passed = true)
    (ha : reason = .approvalRequired → e.requiresUserApproval = true)
    (hm : reason = .maxIterations → e.retryIsPossible = true ∧ n = N) :
    Safe (W := W) N (stop reason) (fun _ j ↦ Over N j.book) i :=
  stop_over h.calm h.counts (fun hr ↦ hstatus (ha hr))
    (h.trueReason (fun hr ↦ ⟨rfl, hp.mp hr⟩) (fun hr ↦ ⟨rfl, ha hr⟩) hm fun _ he ↦ hp.mpr he)

/-- A stop for the lack of something, of a run that has not passed. -/
theorem stop_of_unpassed {e : AtlasEvaluation} {reason : StopReason}
    (h : Judged N n S b e none i.book) (hpassed : e.passed = false) (hp : reason ≠ .passed)
    (ha : reason ≠ .approvalRequired) (hm : reason ≠ .maxIterations) :
    Safe (W := W) N (do stop reason; return Flow.leave) (FlowEnds N n) i :=
  (stop_of_going (h.going hpassed) hp ha hm).step fun _ _ hover ↦ Eff.On.pure hover

theorem Fair.passed_eq_false {e : AtlasEvaluation} (h : Fair N n e)
    (hretry : e.retryIsPossible = true) : e.passed = false := by
  rw [Bool.eq_false_iff]
  intro hpassed
  rw [h.retry hpassed] at hretry
  cases hretry

theorem settle_ends {e : AtlasEvaluation} (h : Judged N n S b e none i.book)
    (hstatus : e.requiresUserApproval = true → i.state.status = .evaluating)
    (hlegal : ∀ s ∈ S, s.isLegal .replanning = true) :
    Safe N (settle env e) (FlowEnds N n) i := by
  refine Eff.On.read_bind fun r hr ↦ ?_
  obtain rfl := hr
  refine Eff.On.ite (fun hinvestigation ↦ ?_) fun _ ↦ Eff.On.ite (fun houtput ↦ ?_) fun _ ↦
    Eff.On.ite (fun hfailure ↦ ?_) fun _ ↦ Eff.On.ite (fun _ ↦ ?_) fun hretry ↦ ?_
  · simp only [Bool.and_eq_true, Bool.not_eq_true'] at hinvestigation
    exact ensures_setMetadata_bind
      (stop_of_unpassed h hinvestigation.1.2 (by decide) (by decide) (by decide))
  · simp only [repeatedOutput, Bool.and_eq_true] at houtput
    exact ensures_setMetadata_bind (stop_of_unpassed h (h.fair.passed_eq_false houtput.1.2)
      (by decide) (by decide) (by decide))
  · simp only [repeatedFailure, Bool.and_eq_true] at hfailure
    exact ensures_setMetadata_bind (stop_of_unpassed h (h.fair.passed_eq_false hfailure.1.2)
      (by decide) (by decide) (by decide))
  · refine Eff.On.step
      (stop_of_judged h hstatus ?_ (fun hr ↦ classifyStop_eq_approvalRequired.mp hr)
      fun hr ↦ ?_) fun _ _ hover ↦ Eff.On.pure hover
    · rw [classifyStop_eq_passed]
      exact ⟨And.right, fun hpassed ↦ ⟨h.fair.approval hpassed, hpassed⟩⟩
    · obtain ⟨-, -, -, hpossible, hleft⟩ := classifyStop_eq_maxIterations.mp hr
      have hn : ¬ n < N := by
        have hlt := of_decide_eq_false hleft
        rwa [show r.inside.state.iteration = n from h.counts.iteration,
          show r.inside.state.maxIterations = N from h.counts.maxIterations] at hlt
      have hle := h.counts.iteration_le
      exact ⟨hpossible, by omega⟩
  · simp only [Bool.or_eq_true, not_or, Bool.not_eq_true, Bool.not_eq_false'] at hretry
    have hgo := h.going hretry.1.2
    have hshould := h.fair.shouldRetry
    rw [hretry.2, eq_comm, Bool.and_eq_true, decide_eq_true_eq] at hshould
    exact Eff.On.step (enter_going hgo hlegal rfl) fun _ _ hj ↦
      Eff.On.pure ⟨hj.weaken, hshould.2⟩

theorem settleDrift_ends {e : AtlasEvaluation} {report : Option DriftReport}
    (h : Judged N n S b e report i.book)
    (hstatus : e.requiresUserApproval = true → i.state.status = .evaluating)
    (hlegal : ∀ s ∈ S, s.isLegal .replanning = true) :
    Safe N (settleDrift env e report) (FlowEnds N n) i := by
  cases report with
  | none => exact settle_ends env h hstatus hlegal
  | some report => exact (stopForDrift_over h).step fun _ _ hover ↦ Eff.On.pure hover

theorem judge_ends {recorded : List Material} {plan : AtlasPlan} {e : AtlasEvaluation}
    (h : Graded N n e i.book) : Safe N (judge env recorded plan e) (FlowEnds N n) i := by
  refine (driftReport_judged env h).step fun report j hj ↦ ensures_state_bind ?_
  refine Eff.On.ite (fun hreads ↦ ?_) fun _ ↦ ?_
  · simp only [wantsReading, Bool.and_eq_true, Bool.not_eq_true', decide_eq_true_eq] at hreads
    obtain ⟨⟨⟨⟨-, hpassed⟩, happroval⟩, hlt⟩, -⟩ := hreads
    rw [show j.state.iteration = n from hj.counts.iteration,
      show j.state.maxIterations = N from hj.counts.maxIterations] at hlt
    have hgo := hj.going hpassed
    have hobserving : Judged N n [.observing] 1 e report (j.become .observing).book :=
      { calm := hj.calm.become rfl
        counts := hj.counts.become _
        fair := hj.fair
        found := hj.found.become _
        passes := fun hp ↦ hj.passes (passes_become.mp hp) }
    refine (readAgain_reads env hgo).step fun outcome j' houtcome ↦ ?_
    cases outcome with
    | stopped => exact Eff.On.pure houtcome
    | new =>
      have hgo' := Reads.going (show Reads 1 _ _ from houtcome) le_rfl (hobserving.going hpassed)
      exact Eff.On.step (enter_going hgo' (by decide) rfl) fun _ _ hj ↦ Eff.On.pure ⟨hj, hlt⟩
    | nothing =>
      have hr : Reads 1 (j.become .observing).book j'.book := houtcome
      have hgo' := hr.going le_rfl (hobserving.going hpassed)
      refine settleDrift_ends (S := [.observing]) (b := 0) env ⟨hgo'.calm, hgo'.counts, hj.fair,
        hr.found hobserving.found, fun hp ↦ absurd hp hgo'.noPass⟩ (fun ha ↦ ?_) (by decide)
      rw [happroval] at ha
      cases ha
  · exact settleDrift_ends env hj (fun _ ↦ List.mem_singleton.mp hj.calm.status) (by decide)

/-! ## The loop

A pass counts one, and the loop ends when the run does or the passes are used up. -/

theorem gradeAndJudge_ends {recorded : List Material} {route : RouteName} {plan : AtlasPlan}
    {p : Produced} (h : Going N n [.executing] 1 1 0 i.book) :
    Safe N (gradeAndJudge env recorded route plan p) (FlowEnds N n) i := by
  refine ensures_state_bind (ensures_setState_bind (ensures_setMetadata_bind ?_))
  refine Eff.On.step (enter_going h (by decide) rfl) fun _ j hj ↦ ?_
  refine (expired_going env hj).step fun late j' hover ↦ ?_
  cases late with
  | true => exact Eff.On.pure hover
  | false =>
    obtain rfl : j' = j := hover
    refine (grade_graded env hj).step fun e j' hgraded ↦ ?_
    refine (expired_going env hgraded.going).step fun late k hover ↦ ?_
    cases late with
    | true => exact Eff.On.pure hover
    | false =>
      obtain rfl : k = j' := hover
      exact judge_ends env hgraded

/-- **One pass.**  It ends the run, or takes one step of the counter and leaves iterations to
come. -/
theorem onePass_ends {recorded : List Material} (h : Going N n S 0 0 0 i.book)
    (hS : ∀ s ∈ S, s.isLegal .routing = true) (hn : n < N) :
    Safe N (onePass env recorded) (FlowEnds N (n + 1)) i := by
  refine (expired_going env h).step fun late j hover ↦ ?_
  cases late with
  | true => exact Eff.On.pure hover
  | false =>
    obtain rfl : j = i := hover
    have hnext : Going N (n + 1) S 1 1 0 { j with
        state := { j.state with iteration := j.state.iteration + 1 } }.book :=
      { calm := { h.calm with }
        counts :=
          { iteration := congrArg (· + 1) h.counts.iteration
            iteration_le := hn
            maxIterations := h.counts.maxIterations
            evaluations := Nat.succ_le_succ h.counts.evaluations
            asked := Nat.succ_le_succ h.counts.asked
            rounds := h.counts.rounds }
        noPass := h.noPass }
    refine ensures_setState_bind (Eff.On.step (routeAndPlan_going env hnext hS) fun p k hk ↦ ?_)
    refine (expired_going env hk).step fun late k' hover ↦ ?_
    cases late with
    | true => exact Eff.On.pure hover
    | false =>
      obtain rfl : k' = k := hover
      refine (produce_going env hk).step fun produced k hproduced ↦ ?_
      cases produced with
      | none => exact Eff.On.pure hproduced
      | some produced => exact gradeAndJudge_ends env hproduced

/-- The loop ends the run: it is entered while an iteration is left, and so is every pass of it. -/
theorem loop_over {recorded : List Material} {fuel : ℕ} (h : Going N n S 0 0 0 i.book)
    (hS : ∀ s ∈ S, s.isLegal .routing = true) (hn : n < N) (hfuel : N ≤ n + fuel) :
    Safe N (loop env recorded fuel) (fun _ j ↦ Over N j.book) i := by
  induction fuel generalizing n S i with
  | zero => exact absurd hfuel (by omega)
  | succ fuel ih =>
    refine ensures_state_bind ?_
    have hcond : i.state.iteration < i.state.maxIterations := by
      rw [show i.state.iteration = n from h.counts.iteration,
        show i.state.maxIterations = N from h.counts.maxIterations]
      exact hn
    rw [if_pos hcond]
    refine (onePass_ends env h hS hn).step fun flow j hflow ↦ ?_
    cases flow with
    | leave => exact Eff.On.pure hflow
    | again =>
      obtain ⟨hgo, hlt⟩ : Going N (n + 1) [.replanning] 0 0 0 j.book ∧ n + 1 < N := hflow
      exact ih hgo (by decide) hlt (by omega)

/-! ## Before and after the loop

What can end a run before its first pass, and what a run that passed does at its end. -/

theorem remember_over (h : Over N i.book) :
    Safe N (remember env) (fun _ j ↦ Over N j.book) i := by
  refine Eff.On.read_bind fun r hr ↦ ?_
  dsimp only
  cases r.inside.state.evaluations.getLast? with
  | none => exact Eff.On.pure h
  | some last =>
    refine Eff.On.ite (fun _ ↦ ?_) fun _ ↦ Eff.On.pure h
    cases env.memoryAdapter with
    | none =>
      exact Eff.On.step (R := fun _ j ↦ Over N j.book)
        (ensures_outside (fun _ ↦ h) fun _ ↦ h.left) fun _ _ hj ↦ ensures_setState hj
    | some memory =>
      exact Eff.On.step (R := fun _ j ↦ Over N j.book)
        (ensures_outside (fun _ ↦ h) fun _ ↦ h.left) fun _ _ hj ↦ ensures_setState hj

/-- What follows the loop finds the run stopped. -/
theorem conclude_over (h : Over N i.book) :
    Safe N (conclude env) (fun _ j ↦ Over N j.book) i := by
  refine ensures_state_bind ?_
  obtain ⟨reason, hended⟩ := h
  have hstop : i.state.stopReason = some reason := hended.stopReason
  rw [hstop]
  exact remember_over env ⟨reason, hended⟩

theorem stopped_over (h : Over N i.book) :
    Safe N (stopped env) (fun _ j ↦ Over N j.book) i :=
  Eff.On.read_bind fun _ _ ↦ ensures_append env (fun _ ↦ h) fun _ _ ↦ h.left

theorem openLog_going (h : Going N n S a b c i.book) :
    Safe N (openLog env) (fun _ j ↦ Going N n S a b c j.book) i := by
  unfold openLog
  cases env.events with
  | none => exact Eff.On.pure h
  | some sink =>
    refine Eff.On.step (ensures_ofExcept fun _ ↦ h.left) fun log j hj ↦ ?_
    subst hj
    refine Eff.On.step (R := fun _ k ↦ Going N n S a b c k.book)
      (Eff.On.update fun r hr ↦ by rw [hr]; exact h) fun _ k hk ↦ ?_
    cases env.resumeRecords with
    | none =>
      exact Eff.On.step (R := fun _ j ↦ Going N n S a b c j.book)
        (Eff.On.ofExcept (fun _ _ ↦ hk) fun _ _ ↦ hk.left) fun _ _ hj ↦
          ensures_append env (fun _ ↦ hj) fun _ _ ↦ hj.left
    | some records =>
      refine Eff.On.step (R := fun _ j ↦ Going N n S a b c j.book)
        (ensures_append env (fun _ ↦ hk) fun _ _ ↦ hk.left) fun _ j hj ↦ ?_
      exact Eff.On.step (R := fun _ j ↦ Going N n S a b c j.book)
        (Eff.On.ofExcept (fun _ _ ↦ hj) fun _ _ ↦ hj.left) fun _ _ hj ↦
          ensures_append env (fun _ ↦ hj) fun _ _ ↦ hj.left

theorem setUp_going (h : Going N n S a b c i.book) :
    Safe N (setUp env) (fun _ j ↦ Going N n S a b c j.book) i := by
  refine Eff.On.ite (fun _ ↦ Eff.On.raise h.left) fun _ ↦ ?_
  refine (openLog_going env h).step fun _ j hj ↦ ?_
  have hrounds : ∀ j : Inside, Going N n S a b c j.book → Safe (W := W) N
      (Eff.ofExcept (recordedRounds env.rt (env.resumeRecords.getD [])))
      (fun _ j ↦ Going N n S a b c j.book) j :=
    fun _ hj ↦ Eff.On.ofExcept (fun _ _ ↦ hj) fun _ _ ↦ hj.left
  cases env.limits with
  | none => exact hrounds _ hj
  | some limits =>
    refine Eff.On.step (R := fun _ j ↦ Going N n S a b c j.book)
      (ensures_outside (fun _ ↦ hj) fun _ ↦ hj.left) fun budget j hj ↦ ?_
    exact Eff.On.step (R := fun _ j ↦ Going N n S a b c j.book)
      (Eff.On.update fun r hr ↦ by rw [hr]; exact hj) fun _ _ hj ↦ hrounds _ hj

theorem readSource_going {reader : SourceReader W} (h : Going N n S a b c i.book) :
    Continues (readSource env reader) i N n S a b c := by
  refine Eff.On.step (R := fun _ j ↦ Going N n S a b c j.book)
    (ensures_metered (fun _ ↦ h) fun _ ↦ h) fun _ j hj ↦ ?_
  refine Eff.On.step (R := fun _ j ↦ Going N n S a b c j.book)
    (ensures_metered (fun _ ↦ hj) fun _ ↦ hj) fun gathered j hj ↦ ?_
  cases gathered with
  | none => exact Eff.On.raise hj
  | some gathered =>
    exact Eff.On.step (R := fun _ j ↦ Going N n S a b c j.book)
      (ensures_metered (fun _ ↦ hj) fun _ ↦ hj) fun _ _ hj ↦ ensures_setState hj

theorem gather_going (h : Going N n S a b c i.book) : Safe N (gather env)
    (fun late j ↦ if late then Over N j.book else Going N n S a b c j.book) i := by
  have hreaders : Continues (env.readers.forM (readSource env)) i N n S a b c :=
    Eff.On.forM (I := fun j : Inside ↦ Going N n S a b c j.book) h
      fun reader _ _ hj ↦ readSource_going env hj
  refine attempt_going hreaders fun x j hj ↦ ?_
  split
  · exact Eff.On.pure hj
  · exact (stopCancelled_over hj).step fun _ _ hover ↦ Eff.On.pure hover
  · exact (stopBudget_over hj).step fun _ _ hover ↦ Eff.On.pure hover
  · refine Eff.On.ite (fun _ ↦ ?_) fun _ ↦ Eff.On.raise hj.left
    exact (stopToolError_over hj).step fun _ _ hover ↦ Eff.On.pure hover

theorem readMemory_going (h : Going N n S a b c i.book) :
    Safe N (readMemory env) (fun _ j ↦ Going N n S a b c j.book) i := by
  refine Eff.On.read_bind fun r _ ↦ ?_
  dsimp only
  cases env.memoryAdapter with
  | none => exact Eff.On.pure h
  | some memory =>
    refine Eff.On.ite (fun _ ↦ ensures_setMetadata h) fun _ ↦ ?_
    exact Eff.On.step (R := fun _ j ↦ Going N n S a b c j.book)
      (ensures_outside (fun _ ↦ h) fun _ ↦ h.left) fun _ _ hj ↦ ensures_setState hj

/-- What the first read comes to: the run is over, or it goes on with one round more than it had. -/
abbrev FirstReadEnds (N n : ℕ) (S : List Status) (a b : ℕ) (outcome : RoundOutcome)
    (j : Inside) : Prop :=
  if outcome = .stopped then Over N j.book else Going N n S a b 0 j.book

theorem firstRead_going {recorded : List Material} (h : Going N n S a (b + 1) 0 i.book) :
    Safe N (firstRead env recorded) (FirstReadEnds N n S a b) i := by
  have hnothing : Safe (W := W) N (return RoundOutcome.nothing) (FirstReadEnds N n S a b) i := by
    refine Eff.On.pure ?_
    rw [FirstReadEnds, if_neg (by decide)]
    exact { h with counts := { h.counts with asked := by have := h.counts.asked; omega } }
  refine ensures_state_bind ?_
  cases i.state.evidenceBase with
  | none => exact hnothing
  | some base =>
    refine Eff.On.ite (fun _ ↦ ?_) fun _ ↦ hnothing
    refine Eff.On.bind ?_
    refine Eff.On.ofExcept ?_ ?_
    swap
    · exact fun _ _ ↦ h.left
    intro plan _
    refine Eff.On.bind ?_
    refine Eff.On.ofExcept ?_ ?_
    swap
    · exact fun _ _ ↦ h.left
    intro request _
    refine (observeRound_reads env h).imp fun outcome j houtcome ↦ ?_
    by_cases hout : outcome = .stopped
    · rw [RoundEnds, if_pos hout] at houtcome
      rw [FirstReadEnds, if_pos hout]
      exact houtcome
    · rw [RoundEnds, if_neg hout] at houtcome
      rw [FirstReadEnds, if_neg hout]
      exact houtcome.going le_rfl h

/-- Up to its last event a run comes to an end, or is left well. -/
theorem untilStop_over (w : W) : Safe env.maxIterations (untilStop env)
    (fun _ j ↦ Over env.maxIterations j.book) (env.start w).inside := by
  have hstart : Going env.maxIterations 0 [.new] 0 1 0 (env.start w).inside.book :=
    { calm := ⟨List.mem_singleton.mpr rfl, rfl, rfl, fun _ hm ↦ absurd hm List.not_mem_nil⟩
      counts := ⟨rfl, Nat.zero_le _, rfl, le_rfl, le_rfl, le_rfl⟩
      noPass := by
        rintro ⟨pre, _, _, h, -⟩
        have hlength := congrArg List.length h
        rw [List.length_append] at hlength
        exact absurd hlength (Nat.ne_of_lt (by
          show 0 < pre.length + _
          rw [List.length_cons]
          omega)) }
  refine (setUp_going env hstart).step fun recorded j hj ↦ ?_
  refine Eff.On.step (enter_going hj (by decide) rfl) fun _ j hj ↦ ensures_setState_bind ?_
  refine Eff.On.step (gather_going env hj) fun late j hover ↦ ?_
  cases late with
  | true => exact Eff.On.pure hover
  | false =>
    refine (readMemory_going env (show Going env.maxIterations 0 [.observing] 0 1 0 j.book from
      hover)).step fun _ j hj ↦ ?_
    have hrest : ∀ f : RoundOutcome → RunM W Unit, f .stopped = pure () →
        f .nothing = work env recorded → f .new = work env recorded →
        ∀ j : Inside, Going env.maxIterations 0 [.observing] 0 1 0 j.book →
          Safe env.maxIterations (do
            if ← expired env then pure () else firstRead env recorded >>= f)
            (fun _ j ↦ Over env.maxIterations j.book) j := by
      intro f hstopped hnothing hnew j hj
      refine (expired_going env hj).step fun late k hover ↦ ?_
      cases late with
      | true => exact Eff.On.pure hover
      | false =>
        obtain rfl : k = j := hover
        refine (firstRead_going env hj).step fun outcome k hk ↦ ?_
        have hwork : ∀ k : Inside, Going env.maxIterations 0 [.observing] 0 0 0 k.book →
            Safe env.maxIterations (work env recorded)
              (fun _ j ↦ Over env.maxIterations j.book) k := fun k hk ↦
          Eff.On.step (loop_over env hk (by decide) env.positive (by omega))
            fun _ _ hover ↦ conclude_over env hover
        cases outcome with
        | stopped => rw [hstopped]; exact Eff.On.pure hk
        | nothing => rw [hnothing]; exact hwork _ hk
        | new => rw [hnew]; exact hwork _ hk
    exact Eff.On.ite (fun _ ↦ ensures_setMetadata_bind (hrest _ rfl rfl rfl _ hj))
      fun _ ↦ hrest _ rfl rfl rfl _ hj

/-- **The whole run.**  If it returns, it is over; if it raises, it is left well. -/
theorem run_over {w : W} : (run env).wp (fun _ r ↦ Over env.maxIterations r.inside.book)
    (fun _ r ↦ Left env.maxIterations r.inside.book) (env.start w) := by
  suffices h : Safe env.maxIterations (run env) (fun _ j ↦ Over env.maxIterations j.book)
      (env.start w).inside from h _ rfl
  rw [run_eq]
  exact (untilStop_over env w).step fun _ _ hover ↦ stopped_over env hover

end AtlasCore
