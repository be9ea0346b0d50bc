import AtlasCore.Controller.Sound

/-!
# How a run ends

The two statements about the course of a whole run: it moves as the table of transitions allows and
within its bounds, and the reason it gives for its stop is the true one.  Nothing is assumed of what
surrounds it.

`run_sound` and `run_reasonsTrue` are about a run from its start to its end, returning or raising,
in any setting.  Both follow from what `Sound` says of the parts; here the marks of the run are only
read: which statuses were entered, in which order, and what had been graded, read or refused before
the last of them.
-/

set_option autoImplicit false

namespace AtlasCore

open Py RunM

/-- The status that was entered, if one was. -/
def Mark.status : Mark → Option Status
  | .entered s => some s
  | _ => none

/-- The statuses a run has entered, in their order. -/
def enteredStatuses (trace : List Mark) : List Status := trace.filterMap (·.status)

variable {W : Type} (env : Setting W) {N : ℕ} {k : Book}

/-! ## Every run moves as the table allows

The marks of a run, from its first status to its last, are steps of the table. -/

/-- The course of a run, returned or raised. -/
structure WellMoved (trace : List Mark) : Prop where
  /-- `enter` and `stop` have refused nothing. -/
  notRefused : ∀ s t, .refused s t ∉ trace
  /-- Nothing is entered after a terminal status. -/
  terminalLast : ∀ pre s post, enteredStatuses trace = pre ++ s :: post → s.isTerminal = true →
    post = []

/-- What a run that returns has come to. -/
structure Finished (N : ℕ) (i : Inside) : Prop where
  terminalOnce : ∃ pre s, enteredStatuses i.trace = pre ++ [s] ∧ s.isTerminal = true ∧
    ∀ t ∈ pre, t.isTerminal = false
  reason : ∃ reason, i.state.stopReason = some reason ∧ i.state.status = reason.status
  iteration_le : i.state.iteration ≤ N
  evaluations_le : i.state.evaluations.length ≤ i.state.iteration
  asked_le : i.trace.countP (·.isAsked) ≤ N + 1
  rounds_le : i.state.metadata.observationRounds.length ≤ N + 1

theorem isTerminal_of_calm {trace : List Mark} (h : ∀ m ∈ trace, m.isCalm = true) :
    ∀ s ∈ enteredStatuses trace, s.isTerminal = false := by
  intro s hs
  obtain ⟨m, hm, hstatus⟩ := List.mem_filterMap.mp hs
  have hcalm := h m hm
  cases m with
  | entered t =>
    obtain rfl := Option.some.inj hstatus
    simpa [Mark.isCalm] using hcalm
  | _ => cases hstatus

theorem WellMoved.of_calm {trace : List Mark}
    (h : ∀ m ∈ trace, m.isCalm = true) : WellMoved trace where
  notRefused := fun s t hm ↦ absurd (h _ hm) Bool.false_ne_true
  terminalLast := fun pre s post hsplit hs ↦ by
    have hmem : s ∈ enteredStatuses trace := by
      rw [hsplit]
      exact List.mem_append_right _ List.mem_cons_self
    rw [isTerminal_of_calm h s hmem] at hs
    cases hs

/-- What was entered by a run that is over: nothing terminal, and then the status of its reason. -/
theorem Ended.enteredStatuses {reason : StopReason} (h : Ended N reason k) :
    ∃ pre, enteredStatuses k.trace = pre ++ [reason.status] ∧
      ∀ t ∈ pre, t.isTerminal = false := by
  obtain ⟨pre, htrace, hcalm⟩ := h.trace
  refine ⟨AtlasCore.enteredStatuses pre, ?_, isTerminal_of_calm hcalm⟩
  rw [htrace, AtlasCore.enteredStatuses, List.filterMap_append]
  rfl

theorem Ended.wellMoved {reason : StopReason} (h : Ended N reason k) : WellMoved k.trace where
  notRefused := fun s t hm ↦ by
    obtain ⟨pre, htrace, hcalm⟩ := h.trace
    rw [htrace] at hm
    rcases List.mem_append.mp hm with hm | hm
    · exact absurd (hcalm _ hm) Bool.false_ne_true
    · cases List.mem_singleton.mp hm
  terminalLast := fun pre s post hsplit hs ↦ by
    obtain ⟨before, hentered, hbefore⟩ := h.enteredStatuses
    rcases List.eq_nil_or_concat post with rfl | ⟨post, last, rfl⟩
    · rfl
    · have hsame : before ++ [reason.status] = (pre ++ s :: post) ++ [last] := by
        rw [← hentered, hsplit, List.concat_eq_append, List.append_assoc]
        rfl
      have hmem : s ∈ before := by
        rw [(List.append_inj' hsame rfl).1]
        exact List.mem_append_right _ List.mem_cons_self
      rw [hbefore s hmem] at hs
      cases hs

theorem Over.finished {i : Inside} (h : Over N i.book) : Finished N i := by
  obtain ⟨reason, hended⟩ := h
  obtain ⟨n, hcounts⟩ := hended.counts
  obtain ⟨pre, hentered, hpre⟩ := hended.enteredStatuses
  have hiteration : i.state.iteration = n := hcounts.iteration
  have hasked : i.trace.countP (·.isAsked) + 0 ≤ n + 1 := hcounts.asked
  have hrounds : i.state.metadata.observationRounds.length + 0 ≤ i.trace.countP (·.isAsked) :=
    hcounts.rounds
  have hn := hcounts.iteration_le
  exact
    { terminalOnce := ⟨pre, reason.status, hentered, reason.isTerminal_status, hpre⟩
      reason := ⟨reason, hended.stopReason, hended.status⟩
      iteration_le := hiteration.trans_le hn
      evaluations_le := hcounts.evaluations.trans hiteration.ge
      asked_le := by omega
      rounds_le := by omega }

/-- **Every run moves soundly.**  Whatever surrounds it, no transition of a run is refused and
nothing is entered after a terminal status; and a run that returns has entered one, the one of its
stop reason, within its bounds. -/
theorem run_sound (w : W) :
    WellMoved (run env (env.start w)).2.inside.trace ∧
      ((run env (env.start w)).1 = .ok () →
        Finished env.maxIterations (run env (env.start w)).2.inside) := by
  obtain ⟨hreturned, hraised⟩ := (run_over env (w := w)).outcome
  refine ⟨?_, fun hok ↦ (hreturned () hok).finished⟩
  cases hresult : (run env (env.start w)).1 with
  | ok u =>
    obtain ⟨reason, hended⟩ := hreturned u hresult
    exact hended.wellMoved
  | error e =>
    rcases hraised e hresult with ⟨-, hcalm, -⟩ | ⟨reason, hended⟩
    · exact .of_calm hcalm
    · exact hended.wellMoved

/-! ## Every stop names its cause

For each reason there is what has to have happened, and it did. -/

/-- What the stop reason of a run says is true, and a run that passes says so. -/
structure ReasonsTrue (i : Inside) : Prop where
  passed : i.state.stopReason = some .passed → ∃ e, Found e none i.book ∧ e.passed = true
  approvalRequired : i.state.stopReason = some .approvalRequired →
    ∃ e, Found e none i.book ∧ e.requiresUserApproval = true
  maxIterations : i.state.stopReason = some .maxIterations →
    ∃ e, i.state.evaluations.getLast? = some e ∧ e.retryIsPossible = true ∧
      i.state.iteration = i.state.maxIterations
  of_passes : Passes i.trace → i.state.stopReason = some .passed

theorem Over.reasonsTrue {i : Inside} (h : Over N i.book) : ReasonsTrue i := by
  obtain ⟨reason, hended⟩ := h
  have hstop : i.state.stopReason = some reason := hended.stopReason
  have hreason : ∀ {r : StopReason}, i.state.stopReason = some r → reason = r := fun hr ↦
    Option.some.inj (hstop.symm.trans hr)
  exact
    { passed := fun hr ↦ hended.named.passed (hreason hr)
      approvalRequired := fun hr ↦ hended.named.approvalRequired (hreason hr)
      maxIterations := fun hr ↦ hended.named.maxIterations (hreason hr)
      of_passes := fun hp ↦ by rw [hstop, hended.named.of_passes hp] }

theorem Left.reasonsTrue {i : Inside} (h : Left N i.book) : ReasonsTrue i := by
  rcases h with ⟨hnone, -, hpass⟩ | hover
  · have hstop : i.state.stopReason = none := hnone
    have hne : ∀ {r : StopReason}, i.state.stopReason ≠ some r := by
      rw [hstop]
      exact nofun
    exact ⟨fun hr ↦ absurd hr hne, fun hr ↦ absurd hr hne, fun hr ↦ absurd hr hne,
      fun hp ↦ absurd hp hpass⟩
  · exact hover.reasonsTrue

/-- **Every stop names its cause.**  In every run, whatever surrounds it: `passed` is said only of a
last grade that passed and a consistent drift report after it, `approval_required` only of a last
grade that requires it and no drift, `max_iterations` only of a last grade that could have been
retried when no iteration was left; and a grade that passes, followed by a consistent drift report,
ends `passed`. -/
theorem run_reasonsTrue (w : W) : ReasonsTrue (run env (env.start w)).2.inside := by
  obtain ⟨hreturned, hraised⟩ := (run_over env (w := w)).outcome
  cases hresult : (run env (env.start w)).1 with
  | ok u => exact (hreturned u hresult).reasonsTrue
  | error e => exact (hraised e hresult).reasonsTrue

end AtlasCore
