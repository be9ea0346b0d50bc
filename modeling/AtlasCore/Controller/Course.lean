import AtlasCore.Controller.Rules

/-!
# The course of a run

What holds of a run at every point of it.  While it goes on, no terminal status was entered, nothing
was refused, and the counters have what they need for what is left of the pass (`Going`).  Between a
grade and what follows from it, the grade and the drift report after it are the last ones
(`Judged`).  When it is over, the last thing that happened is that the terminal status of its reason
was entered, and the reason is the true one (`Over`).  A run that raises is in the first state or in
the last (`Left`).

`Passes` is the event that a run must answer with `passed`: a grade that passed, and no drift.
-/

set_option autoImplicit false

namespace AtlasCore

open Py RunM

/-! ## Marks

A run leaves marks at the places the theorems speak of, and nothing reads them.  Their order is
the course of the run. -/

/-- Nothing ended here, and nothing was refused: the run is where the loop left it. -/
def Mark.isCalm : Mark → Bool
  | .entered s => !s.isTerminal
  | .refused _ _ => false
  | _ => true

/-- A grade, or the drift report after it. -/
def Mark.isGrading : Mark → Bool
  | .graded _ => true
  | .drift _ => true
  | _ => false

/-- A round of observation began, whether or not it comes to an end. -/
def Mark.isAsked : Mark → Bool
  | .asked => true
  | _ => false

/-- A grade passed, and the drift report after it was consistent. -/
def Passes (trace : List Mark) : Prop :=
  ∃ pre e post, trace = pre ++ .graded e :: .drift none :: post ∧ e.passed = true

theorem passes_concat {trace : List Mark} {m : Mark} :
    Passes (trace ++ [m]) ↔ Passes trace ∨
      m = .drift none ∧ ∃ pre e, trace = pre ++ [.graded e] ∧ e.passed = true := by
  constructor
  · rintro ⟨pre, e, post, h, hpassed⟩
    rcases List.eq_nil_or_concat post with rfl | ⟨post, last, rfl⟩
    · have hsplit : trace ++ [m] = (pre ++ [.graded e]) ++ [.drift none] := by
        rw [h, List.append_assoc]
        rfl
      obtain ⟨htrace, hm⟩ := List.append_inj' hsplit rfl
      exact .inr ⟨(List.cons.inj hm).1, pre, e, htrace, hpassed⟩
    · have hsplit : trace ++ [m] = (pre ++ .graded e :: .drift none :: post) ++ [last] := by
        rw [h, List.concat_eq_append, List.append_assoc]
        rfl
      exact .inl ⟨pre, e, post, (List.append_inj' hsplit rfl).1, hpassed⟩
  · rintro (⟨pre, e, post, rfl, hpassed⟩ | ⟨rfl, pre, e, rfl, hpassed⟩)
    · exact ⟨pre, e, post ++ [m], by simp, hpassed⟩
    · exact ⟨pre, e, [], by simp, hpassed⟩

theorem passes_concat_of_ne {trace : List Mark} {m : Mark} (h : m ≠ .drift none) :
    Passes (trace ++ [m]) ↔ Passes trace := by
  rw [passes_concat, or_iff_left fun hm ↦ h hm.1]

/-- Only a drift report can complete what passes. -/
theorem passes_append {trace marks : List Mark} (h : ∀ m ∈ marks, m ≠ .drift none) :
    Passes (trace ++ marks) ↔ Passes trace := by
  induction marks generalizing trace with
  | nil => rw [List.append_nil]
  | cons m marks ih =>
    rw [List.append_cons, ih fun x hx ↦ h x (List.mem_cons_of_mem _ hx),
      passes_concat_of_ne (h m List.mem_cons_self)]

theorem isCalm_concat {trace : List Mark} {m : Mark} (h : ∀ x ∈ trace, x.isCalm = true)
    (hm : m.isCalm = true) : ∀ x ∈ trace ++ [m], x.isCalm = true := fun x hx ↦ by
  rcases List.mem_append.mp hx with hx | hx
  · exact h x hx
  · rw [List.mem_singleton.mp hx]
    exact hm

theorem countP_isAsked_concat {trace : List Mark} {m : Mark} (hm : m.isAsked = false) :
    (trace ++ [m]).countP (·.isAsked) = trace.countP (·.isAsked) := by
  rw [List.countP_append, List.countP_singleton, if_neg (by rw [hm]; exact Bool.false_ne_true),
    Nat.add_zero]

/-! ## What is known of a run

The invariant, by the place in a pass.  It relates the counter, the marks, the grades and the
reason to stop, and `Ended` is what it comes to when the run is over. -/

/-- Where a run is that goes on: its status is one of these, it has no reason to stop, and every
mark so far is calm. -/
structure Calm (S : List Status) (k : Book) : Prop where
  status : k.status ∈ S
  running : k.status.isTerminal = false
  stopReason : k.stopReason = none
  calm : ∀ m ∈ k.trace, m.isCalm = true

/-- The counters in pass `n` of `N`: there is room for `a` more grades and `b` more rounds, and `c`
rounds that began are still to be committed. -/
structure Counts (N n a b c : ℕ) (k : Book) : Prop where
  iteration : k.iteration = n
  iteration_le : n ≤ N
  maxIterations : k.maxIterations = N
  evaluations : k.evaluations.length + a ≤ n
  asked : k.trace.countP (·.isAsked) + b ≤ n + 1
  rounds : k.rounds + c ≤ k.trace.countP (·.isAsked)

/-- A run that goes on: it is calm, its counters are these, and no grade of it has passed. -/
structure Going (N n : ℕ) (S : List Status) (a b c : ℕ) (k : Book) : Prop where
  calm : Calm S k
  counts : Counts N n a b c k
  noPass : ¬ Passes k.trace

/-- The grade `e` is the last, and the drift report after it was `report`. -/
def Found (e : AtlasEvaluation) (report : Option DriftReport) (k : Book) : Prop :=
  k.evaluations.getLast? = some e ∧
    ∃ pre post, k.trace = pre ++ .graded e :: .drift report :: post ∧
      ∀ m ∈ post, m.isGrading = false

/-- What a grade in pass `n` of `N` says of itself fits together. -/
structure Fair (N n : ℕ) (e : AtlasEvaluation) : Prop where
  approval : e.passed = true → e.requiresUserApproval = false
  retry : e.passed = true → e.retryIsPossible = false
  shouldRetry : e.shouldRetry = (e.retryIsPossible && decide (n < N))

/-- A run in which `e` was graded just now. -/
structure Graded (N n : ℕ) (e : AtlasEvaluation) (k : Book) : Prop where
  going : Going N n [.evaluating] 0 1 0 k
  fair : Fair N n e
  last : k.evaluations.getLast? = some e
  trace : ∃ pre, k.trace = pre ++ [.graded e]

/-- A run in which `e` was graded and the drift report was taken, and nothing follows yet. -/
structure Judged (N n : ℕ) (S : List Status) (b : ℕ) (e : AtlasEvaluation)
    (report : Option DriftReport) (k : Book) : Prop where
  calm : Calm S k
  counts : Counts N n 0 b 0 k
  fair : Fair N n e
  found : Found e report k
  passes : Passes k.trace → report = none ∧ e.passed = true

/-- What the reason of a stop says is true. -/
structure TrueReason (reason : StopReason) (k : Book) : Prop where
  passed : reason = .passed → ∃ e, Found e none k ∧ e.passed = true
  approvalRequired :
    reason = .approvalRequired → ∃ e, Found e none k ∧ e.requiresUserApproval = true
  maxIterations : reason = .maxIterations →
    ∃ e, k.evaluations.getLast? = some e ∧ e.retryIsPossible = true ∧
      k.iteration = k.maxIterations
  of_passes : Passes k.trace → reason = .passed

/-- A run that is over, for `reason`: the reason is set, the last mark enters its status, nothing
before it ended the run, and the reason is true. -/
structure Ended (N : ℕ) (reason : StopReason) (k : Book) : Prop where
  stopReason : k.stopReason = some reason
  status : k.status = reason.status
  trace : ∃ pre, k.trace = pre ++ [.entered reason.status] ∧ ∀ m ∈ pre, m.isCalm = true
  counts : ∃ n, Counts N n 0 0 0 k
  named : TrueReason reason k

/-- A run that is over, for one of the reasons; there is no other end. -/
def Over (N : ℕ) (k : Book) : Prop := ∃ reason, Ended N reason k

/-- A run in which something was raised: it had not ended, or it was over. -/
def Left (N : ℕ) (k : Book) : Prop :=
  (k.stopReason = none ∧ (∀ m ∈ k.trace, m.isCalm = true) ∧ ¬ Passes k.trace) ∨ Over N k

variable {N n a b c : ℕ} {S : List Status} {k : Book}

theorem Going.left (h : Going N n S a b c k) : Left N k :=
  .inl ⟨h.calm.stopReason, h.calm.calm, h.noPass⟩

theorem Over.left (h : Over N k) : Left N k := .inr h

theorem Counts.weaken (h : Counts N n a b c k) : Counts N n 0 0 0 k :=
  { h with
    evaluations := by have := h.evaluations; omega
    asked := by have := h.asked; omega
    rounds := by have := h.rounds; omega }

/-- A run that has not passed goes on. -/
theorem Judged.going {e : AtlasEvaluation} {report : Option DriftReport}
    (h : Judged N n S b e report k) (hpassed : e.passed = false) : Going N n S 0 b 0 k where
  calm := h.calm
  counts := h.counts
  noPass := fun hp ↦ by
    have he := (h.passes hp).2
    rw [hpassed] at he
    cases he

/-- A reason that agrees with the grade and the drift report. -/
theorem Judged.trueReason {e : AtlasEvaluation} {report : Option DriftReport} {reason : StopReason}
    (h : Judged N n S b e report k) (hp : reason = .passed → report = none ∧ e.passed = true)
    (ha : reason = .approvalRequired → report = none ∧ e.requiresUserApproval = true)
    (hm : reason = .maxIterations → e.retryIsPossible = true ∧ n = N)
    (hof : report = none → e.passed = true → reason = .passed) : TrueReason reason k where
  passed := fun he ↦ by
    obtain ⟨rfl, hpassed⟩ := hp he
    exact ⟨e, h.found, hpassed⟩
  approvalRequired := fun he ↦ by
    obtain ⟨rfl, happroval⟩ := ha he
    exact ⟨e, h.found, happroval⟩
  maxIterations := fun he ↦
    ⟨e, h.found.1, (hm he).1, by rw [h.counts.iteration, h.counts.maxIterations, (hm he).2]⟩
  of_passes := fun hpass ↦ hof (h.passes hpass).1 (h.passes hpass).2

theorem Going.weaken (h : Going N n S a b c k) : Going N n S 0 0 0 k :=
  { h with counts := h.counts.weaken }

/-- A reason that is not about a grade. -/
theorem TrueReason.plain {reason : StopReason} (h : ¬ Passes k.trace) (hp : reason ≠ .passed)
    (ha : reason ≠ .approvalRequired) (hm : reason ≠ .maxIterations) : TrueReason reason k where
  passed := fun he ↦ absurd he hp
  approvalRequired := fun he ↦ absurd he ha
  maxIterations := fun he ↦ absurd he hm
  of_passes := fun hpass ↦ absurd hpass h

/-! ## Moving

Entering a status that the table allows leaves a mark and changes nothing else of the book. -/

section

variable {W : Type} {i : Inside} {E : Exc → Inside → Prop}

/-- The run enters a status that is not terminal. -/
def Inside.become (i : Inside) (s : Status) : Inside :=
  { i with state := { i.state with status := s }, trace := i.trace ++ [.entered s] }

theorem ensures_become {s : Status} {Q : Unit → Inside → Prop} (h : Q () (i.become s)) :
    Ensures (W := W) (become s) Q E i := ensures_setState_bind (ensures_note h)

theorem Calm.become (h : Calm S i.book) {t : Status} (ht : t.isTerminal = false) :
    Calm [t] (i.become t).book where
  status := List.mem_singleton.mpr rfl
  running := ht
  stopReason := h.stopReason
  calm := isCalm_concat h.calm (by rw [Mark.isCalm, ht]; rfl)

theorem Counts.become (h : Counts N n a b c i.book) (t : Status) :
    Counts N n a b c (i.become t).book :=
  { h with
    asked := (countP_isAsked_concat (m := .entered t) rfl).symm ▸ h.asked
    rounds := (countP_isAsked_concat (m := .entered t) rfl).symm ▸ h.rounds }

/-- A mark that is not about a round leaves the counters. -/
theorem Counts.note (h : Counts N n a b c i.book) {m : Mark} (hm : m.isAsked = false) :
    Counts N n a b c { i with trace := i.trace ++ [m] }.book :=
  { h with
    asked := (countP_isAsked_concat hm).symm ▸ h.asked
    rounds := (countP_isAsked_concat hm).symm ▸ h.rounds }

theorem Calm.note (h : Calm S i.book) {m : Mark} (hm : m.isCalm = true) :
    Calm S { i with trace := i.trace ++ [m] }.book :=
  { h with calm := isCalm_concat h.calm hm }

theorem passes_become {t : Status} : Passes (i.become t).trace ↔ Passes i.trace :=
  passes_concat_of_ne nofun

/-- `enter`, where the table allows it from wherever the run may be. -/
theorem enter_going {t : Status} (h : Going N n S a b c i.book)
    (hlegal : ∀ s ∈ S, s.isLegal t = true) (ht : t.isTerminal = false) :
    Ensures (W := W) (enter t) (fun _ j ↦ Going N n [t] a b c j.book) E i := by
  refine ensures_state_bind ?_
  have hstatus : i.state.status.isLegal t = true := hlegal _ h.calm.status
  rw [hstatus, if_pos rfl]
  exact ensures_become
    ⟨h.calm.become ht, h.counts.become t, fun hp ↦ h.noPass (passes_become.mp hp)⟩

theorem Found.become {e : AtlasEvaluation} {report : Option DriftReport} (h : Found e report i.book)
    (t : Status) : Found e report (i.become t).book := by
  obtain ⟨hlast, pre, post, htrace, hpost⟩ := h
  refine ⟨hlast, pre, post ++ [.entered t], ?_, fun m hm ↦ ?_⟩
  · show i.trace ++ [Mark.entered t] = _
    rw [show i.trace = _ from htrace]
    simp
  · rcases List.mem_append.mp hm with hm | hm
    · exact hpost m hm
    · rw [List.mem_singleton.mp hm]
      rfl

theorem TrueReason.become {reason : StopReason} (h : TrueReason reason i.book) (t : Status) :
    TrueReason reason (i.become t).book where
  passed := fun he ↦ (h.passed he).imp fun _ hf ↦ ⟨hf.1.become t, hf.2⟩
  approvalRequired := fun he ↦ (h.approvalRequired he).imp fun _ hf ↦ ⟨hf.1.become t, hf.2⟩
  maxIterations := h.maxIterations
  of_passes := fun hp ↦ h.of_passes (passes_become.mp hp)

/-- **Every stop is legal, and ends the run for its reason.**  Only an approval asks for a status of
its own. -/
theorem stop_over {reason : StopReason} (hcalm : Calm S i.book) (hcounts : Counts N n a b c i.book)
    (happroval : reason = .approvalRequired → i.state.status = .evaluating)
    (hnamed : TrueReason reason i.book) :
    Ensures (W := W) (stop reason) (fun _ j ↦ Over N j.book) E i := by
  have hrunning : i.state.status.isTerminal = false := hcalm.running
  have hover : Over N { i.become reason.status with
      state := { (i.become reason.status).state with stopReason := some reason } }.book :=
    ⟨reason, rfl, rfl, ⟨i.trace, rfl, hcalm.calm⟩,
      ⟨n, { (hcounts.become reason.status).weaken with }⟩, { hnamed.become reason.status with }⟩
  have hrest : Ensures (W := W) (setState fun s ↦ { s with stopReason := some reason })
      (fun _ j ↦ Over N j.book) E (i.become reason.status) := ensures_setState hover
  refine Eff.On.ite (fun _ ↦ ensures_state_bind ?_) fun hbudget ↦ ?_
  · rw [hrunning, if_neg Bool.false_ne_true]
    exact Eff.On.bind (ensures_become hrest)
  · have hlegal : i.state.status.isLegal reason.status = true := by
      by_cases ha : reason = .approvalRequired
      · rw [happroval ha, ha]
        rfl
      · exact Status.isLegal_of_interruption hrunning (StopReason.status_mem_interruptions ha)
    refine Eff.On.bind (ensures_state_bind ?_)
    rw [hlegal, if_pos rfl]
    exact ensures_become hrest

end

/-! ## A round of observation

A round as the machine sees it: it asks, and then it has adopted something, or not, or has stopped.
-/

/-- What a round leaves: the mark that it began, perhaps one that it was answered, and `r` committed
rounds more. -/
structure Reads (r : ℕ) (k k' : Book) : Prop where
  status : k'.status = k.status
  stopReason : k'.stopReason = k.stopReason
  iteration : k'.iteration = k.iteration
  maxIterations : k'.maxIterations = k.maxIterations
  evaluations : k'.evaluations = k.evaluations
  rounds : k'.rounds = k.rounds + r
  trace : ∃ marks, k'.trace = k.trace ++ .asked :: marks ∧
    ∀ m ∈ marks, ∃ round got held, m = .answered round got held

theorem Reads.marks {r : ℕ} {k' : Book} (h : Reads r k k') : ∃ marks, k'.trace = k.trace ++ marks ∧
    (∀ m ∈ marks, m.isCalm = true ∧ m.isGrading = false) ∧ marks.countP (·.isAsked) = 1 := by
  obtain ⟨marks, htrace, hmarks⟩ := h.trace
  refine ⟨.asked :: marks, htrace, fun m hm ↦ ?_, ?_⟩
  · rcases List.mem_cons.mp hm with rfl | hm
    · exact ⟨rfl, rfl⟩
    · obtain ⟨_, _, _, rfl⟩ := hmarks m hm
      exact ⟨rfl, rfl⟩
  · have hzero : marks.countP (·.isAsked) = 0 := List.countP_eq_zero.mpr fun m hm ↦ by
      obtain ⟨_, _, _, rfl⟩ := hmarks m hm
      exact Bool.false_ne_true
    rw [List.countP_cons_of_pos rfl, hzero]

theorem ne_drift_of_isGrading {m : Mark} {report : Option DriftReport} (h : m.isGrading = false) :
    m ≠ .drift report := by
  rintro rfl
  cases h

theorem Reads.going {r : ℕ} {k' : Book} (hr : Reads r k k') (hone : r ≤ 1)
    (h : Going N n S a (b + 1) 0 k) : Going N n S a b 0 k' := by
  obtain ⟨marks, htrace, hmarks, hasked⟩ := hr.marks
  refine ⟨⟨?_, ?_, ?_, fun m hm ↦ ?_⟩, ⟨?_, h.counts.iteration_le, ?_, ?_, ?_, ?_⟩, ?_⟩
  · rw [hr.status]
    exact h.calm.status
  · rw [hr.status]
    exact h.calm.running
  · rw [hr.stopReason]
    exact h.calm.stopReason
  · rw [htrace] at hm
    exact (List.mem_append.mp hm).elim (h.calm.calm m) fun hm ↦ (hmarks m hm).1
  · rw [hr.iteration]
    exact h.counts.iteration
  · rw [hr.maxIterations]
    exact h.counts.maxIterations
  · rw [hr.evaluations]
    exact h.counts.evaluations
  · have := h.counts.asked
    rw [htrace, List.countP_append, hasked]
    omega
  · have := h.counts.rounds
    rw [hr.rounds, htrace, List.countP_append, hasked]
    omega
  · rw [htrace, passes_append fun m hm ↦ ne_drift_of_isGrading (hmarks m hm).2]
    exact h.noPass

theorem Reads.found {r : ℕ} {k' : Book} (hr : Reads r k k') {e : AtlasEvaluation}
    {report : Option DriftReport} (h : Found e report k) : Found e report k' := by
  obtain ⟨marks, htrace, hmarks, -⟩ := hr.marks
  obtain ⟨hlast, pre, post, hfound, hpost⟩ := h
  refine ⟨by rw [hr.evaluations]; exact hlast, pre, post ++ marks, ?_, fun m hm ↦ ?_⟩
  · rw [htrace, hfound]
    simp
  · exact (List.mem_append.mp hm).elim (hpost m) fun hm ↦ (hmarks m hm).2

end AtlasCore
