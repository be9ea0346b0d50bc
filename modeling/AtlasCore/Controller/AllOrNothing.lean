import AtlasCore.Controller.Logged

/-!
# A round of observation is all or nothing

A round that stops the run has adopted nothing: what the run holds is what it held (`Held`), and the
log has the two halves of the call and nothing of what the host answered (`Closed`).  The host may
answer what it likes, the budget may end anywhere, and an earlier run may have recorded any
material.
-/

set_option autoImplicit false

namespace AtlasCore

open Py RunM

variable {W : Type}

/-- The evidence, its prose and the rounds of a run are those of another. -/
structure Held (r t : Run W) : Prop where
  base : t.inside.state.evidenceBase = r.inside.state.evidenceBase
  observations : t.inside.state.observations = r.inside.state.observations
  rounds : t.inside.state.metadata.observationRounds = r.inside.state.metadata.observationRounds

/-- The events that record an observation; without a log there are none. -/
def recordedIn (log : Option EventLog) : List Event :=
  ((log.map (·.events)).getD []).filter (·.kind = .observationRecorded)

/-! ## What leaves a run its evidence

Everything a round does before it commits leaves the observations and the base of the run as they
are. -/

section
variable {α : Type} {r : Run W}

theorem keeps_held {m : RunM W α} (h : ∀ t, (m t).2.inside.state = t.inside.state) :
    Eff.Keeps (Held r) m := fun t ht ↦ by
  refine (Eff.wp_run m t).mono (fun a u hu ↦ ?_) fun e u hu ↦ ?_ <;>
  · have hsame := h t
    rw [hu] at hsame
    exact ⟨hsame ▸ ht.base, hsame ▸ ht.observations, hsame ▸ ht.rounds⟩

theorem held_metered (m : Eff Exc (W × RunBudget) α) : Eff.Keeps (Held r) (metered m) :=
  keeps_held fun t ↦ by
    rw [metered]
    cases t.budget <;> rfl

theorem state_logged (m : Eff Exc (W × EventLog) α) (t : Run W) :
    (logged m t).2.inside.state = t.inside.state := by
  rw [logged]
  cases t.inside.log <;> rfl

theorem held_logged (m : Eff Exc (W × EventLog) α) : Eff.Keeps (Held r) (logged m) :=
  keeps_held (state_logged m)

theorem held_note (m : Mark) : Eff.Keeps (Held r) (note (W := W) m) := keeps_held fun _ ↦ rfl

theorem held_state : Eff.Keeps (Held r) (state (W := W)) := keeps_held fun _ ↦ rfl

theorem held_setMetadata {f : Metadata → Metadata}
    (hf : ∀ m, (f m).observationRounds = m.observationRounds) :
    Eff.Keeps (Held r) (setMetadata (W := W) f) := fun _ ht ↦
  ⟨ht.base, ht.observations, (hf _).trans ht.rounds⟩

theorem held_become (s : Status) : Eff.Keeps (Held r) (become (W := W) s) :=
  Eff.Keeps.bind (fun _ ht ↦ ⟨ht.base, ht.observations, ht.rounds⟩) fun _ ↦ held_note _

theorem held_refuse (source target : Status) : Eff.Keeps (Held r) (refuse (W := W) source target) :=
  (held_note _).bind fun _ ↦ Eff.Keeps.raise _

theorem held_stop (reason : StopReason) : Eff.Keeps (Held r) (stop (W := W) reason) := by
  have hreason :
      Eff.Keeps (Held r) (setState (W := W) fun s ↦ { s with stopReason := some reason }) :=
    fun _ ht ↦ ⟨ht.base, ht.observations, ht.rounds⟩
  unfold stop
  refine Eff.Keeps.ite (fun _ ↦ ?_) fun _ ↦ Eff.Keeps.bind ?_ fun _ ↦ hreason
  · refine held_state.bind fun _ ↦ Eff.Keeps.ite (fun _ ↦ ?_) fun _ ↦ ?_
    · exact (held_refuse _ _).bind fun _ ↦ hreason
    · exact (held_become _).bind fun _ ↦ hreason
  · exact held_state.bind fun _ ↦ Eff.Keeps.ite (fun _ ↦ held_become _) fun _ ↦ held_refuse _ _

theorem held_stopBudget (limit : Str) : Eff.Keeps (Held r) (stopBudget (W := W) limit) := by
  refine Eff.Keeps.bind (held_setMetadata ?_) fun _ ↦ held_stop _
  exact fun _ ↦ rfl

theorem held_stopToolError (stage : String) (e : Exc) :
    Eff.Keeps (Held r) (stopToolError (W := W) stage e) :=
  (held_stop _).bind fun _ ↦ held_setMetadata fun _ ↦ rfl

end

/-- Without a log, nothing is asked of it. -/
theorem wp_logged_without {α : Type} {m : Eff Exc (W × EventLog) α} {r : Run W}
    {Q : Option α → Run W → Prop} {E : Exc → Run W → Prop} (h : r.inside.log = none) :
    (logged m).wp Q E r ↔ Q none r := by
  rw [Eff.wp, logged, h]

/-! ## The two halves of the call

A round is one call in the log, and the host is asked between its halves.  These say where in that
call a run is and what has been logged since it began, so that every way out can be shown to close
it. -/

variable {env : Setting W}

/-- What became of the log that there was, if the run has one and somewhere to write it. -/
def Logs (env : Setting W) (before : Option EventLog) (P : EventLog → EventLog → Prop)
    (after : Option EventLog) : Prop :=
  match env.events, before with
  | some _, some log => ∃ log', after = some log' ∧ P log log'
  | _, _ => after = before

theorem logs_without_sink {before after : Option EventLog} {P : EventLog → EventLog → Prop}
    (h : env.events = none) : Logs env before P after ↔ after = before := by
  simp only [Logs, h]

theorem logs_without_log {before after : Option EventLog} {P : EventLog → EventLog → Prop}
    (h : before = none) : Logs env before P after ↔ after = none := by
  subst h
  cases hsink : env.events <;> simp only [Logs, hsink]

theorem logs_some {sink : Sink W} {log : EventLog} {after : Option EventLog}
    {P : EventLog → EventLog → Prop} (h : env.events = some sink) :
    Logs env (some log) P after ↔ ∃ log', after = some log' ∧ P log log' := by
  simp only [Logs, h]

/-- The call was started: one event was added, and it opens this call. -/
def Started (call : Str) (log log' : EventLog) : Prop :=
  ∃ started, log' = log.snoc started ∧ started.kind = .callStarted ∧ started.callId = some call

/-- The call was started and then finished, and it is not one that was finished before. -/
def Closed (log log' : EventLog) : Prop :=
  ∃ call started finished, log' = (log.snoc started).snoc finished ∧
    started.kind = .callStarted ∧ started.callId = some call ∧
    finished.kind = .callFinished ∧ finished.callId = some call ∧
    ∀ e ∈ log.events, e.kind = .callFinished → e.callId ≠ some call

/-- The call was closed, and the round was recorded. -/
def Recorded (log log' : EventLog) : Prop :=
  ∃ mid e, Closed log mid ∧ log' = mid.snoc e ∧ e.kind = .observationRecorded

namespace EventLog

/-- Only a call that is open is finished. -/
theorem wp_finishCall_open {mask : Masking} {sink : Sink W} {call : Str} {outcome : CallOutcome}
    {iteration : ℕ} {error : Option Str} {w : W} {log : EventLog} :
    (EventLog.finishCall mask sink call outcome iteration error).wp
      (fun _ p ↦ ∃ e, p.2 = log.snoc e ∧ e.kind = .callFinished ∧ e.callId = some call ∧
        ∀ e ∈ log.events, e.kind = .callFinished → e.callId ≠ some call)
      (fun _ _ ↦ True) (w, log) := by
  rw [EventLog.finishCall, Eff.wp_bind, Eff.wp_read, Eff.wp_ite, Eff.wp_ite]
  refine ⟨fun _ ↦ trivial, fun _ ↦ ⟨fun _ ↦ trivial, fun hopen ↦ ?_⟩⟩
  refine wp_append_snoc.mono (fun _ p hp ↦ ⟨_, hp.2, rfl, rfl, fun e he hkind hcall ↦ hopen ?_⟩)
    fun _ _ _ ↦ trivial
  exact List.any_eq_true.mpr ⟨e, he, decide_eq_true ⟨hkind, hcall⟩⟩

end EventLog

/-- Where a round is: what it has left alone, and what it has written. -/
structure Midway (env : Setting W) (r : Run W) (P : EventLog → EventLog → Prop)
    (t : Run W) : Prop where
  held : Held r t
  log : Logs env r.inside.log P t.inside.log

section
variable {α : Type} {r : Run W} {P : EventLog → EventLog → Prop}

/-- What leaves the evidence and the log alone. -/
theorem keeps_midway {m : RunM W α} (hheld : Eff.Keeps (Held r) m)
    (hlog : KeepsLog (Logs env r.inside.log P) m) : Eff.Keeps (Midway env r P) m := fun t ht ↦
  ((hheld t ht.held).and (hlog t ht.log)).mono (fun _ _ h ↦ ⟨h.1, h.2⟩) fun _ _ h ↦ ⟨h.1, h.2⟩

theorem midway_metered (m : Eff Exc (W × RunBudget) α) : Eff.Keeps (Midway env r P) (metered m) :=
  keeps_midway (held_metered m) (keeps_metered m)

theorem midway_note (m : Mark) : Eff.Keeps (Midway env r P) (note (W := W) m) :=
  keeps_midway (held_note m) (keeps_mark m)

theorem midway_askHost {base : EvidenceBase} {observer : Observer W}
    {request : ObservationRequest} :
    Eff.Keeps (Midway env r P) (askHost env base observer request) :=
  (midway_metered _).bind fun _ ↦ (midway_metered _).bind fun _ ↦ Eff.Keeps.ofExcept _

/-- The call is started, and nothing else was written. -/
theorem midway_startCall {kind : CallKind} {iteration : ℕ} {target : Option Str} {idempotent : Bool}
    {t : Run W} (h : Held r t) (hlog : t.inside.log = r.inside.log) :
    (RunM.startCall env kind iteration target idempotent).wp
      (fun read u ↦
        Midway env r (fun log log' ↦ ∃ call, read = some call ∧ Started call log log') u)
      (fun _ _ ↦ True) t := by
  rw [RunM.startCall]
  cases hsink : env.events with
  | none => exact ⟨h, (logs_without_sink hsink).mpr hlog⟩
  | some sink =>
    cases hbefore : r.inside.log with
    | none =>
      refine (wp_logged_without (hlog.trans hbefore)).mpr ⟨h, ?_⟩
      exact (logs_without_log hbefore).mpr (hlog.trans hbefore)
    | some log =>
      refine ((held_logged _ t h).and (wp_logged (hlog.trans hbefore) EventLog.wp_startCall)).mono
        (fun read u hu ↦ ?_) fun _ _ _ ↦ trivial
      obtain ⟨hheld, call, log', rfl, hlog', -, -, started, hadded, hkind, hid⟩ := hu
      refine ⟨hheld, ?_⟩
      rw [hbefore, logs_some hsink]
      exact ⟨log', hlog', call, rfl, started, hadded, hkind, hid⟩

/-- The call that was started is finished. -/
theorem midway_finishCall {read : Option Str} {outcome : CallOutcome} {iteration : ℕ}
    {error : Option Exc} {t : Run W}
    (h : Midway env r (fun log log' ↦ ∃ call, read = some call ∧ Started call log log') t) :
    (RunM.finishCall env read outcome iteration error).wp (fun _ u ↦ Midway env r Closed u)
      (fun _ _ ↦ True) t := by
  obtain ⟨hheld, hlogs⟩ := h
  unfold RunM.finishCall
  cases hsink : env.events with
  | none => exact ⟨hheld, (logs_without_sink hsink).mpr ((logs_without_sink hsink).mp hlogs)⟩
  | some sink =>
    cases hbefore : r.inside.log with
    | none =>
      have hlog := (logs_without_log hbefore).mp hlogs
      have hsame : Midway env r Closed t := ⟨hheld, (logs_without_log hbefore).mpr hlog⟩
      cases read with
      | none => exact hsame
      | some call => exact Eff.wp_bind.mpr ((wp_logged_without hlog).mpr hsame)
    | some log =>
      rw [hbefore, logs_some hsink] at hlogs
      obtain ⟨log', hlog', call, rfl, started, rfl, hkind, hid⟩ := hlogs
      refine Eff.wp_bind.mpr (((held_logged _ t hheld).and
        (wp_logged hlog' EventLog.wp_finishCall_open)).mono (fun _ u hu ↦ ?_) fun _ _ _ ↦ trivial)
      obtain ⟨hheld, -, log', -, hlog', finished, hadded, hfinished, hcall, hopen⟩ := hu
      refine ⟨hheld, ?_⟩
      rw [hbefore, logs_some hsink]
      exact ⟨log', hlog', call, started, finished, hadded, hkind, hid, hfinished, hcall,
        fun e he ↦ hopen e (List.mem_append_left _ he)⟩

/-- A round that stops the run, after its call was closed. -/
theorem midway_stopped {read : Option Str} {outcome : CallOutcome} {iteration : ℕ}
    {error : Option Exc} {m : RunM W Unit} {Q : RoundOutcome → Run W → Prop} {t : Run W}
    (h : Midway env r (fun log log' ↦ ∃ call, read = some call ∧ Started call log log') t)
    (hm : Eff.Keeps (Midway env r Closed) m) (hQ : ∀ u, Midway env r Closed u → Q .stopped u) :
    (do RunM.finishCall env read outcome iteration error; m; return .stopped :
      RunM W RoundOutcome).wp
      Q (fun _ _ ↦ True) t := by
  refine Eff.wp_bind.mpr ((midway_finishCall h).mono (fun _ u hu ↦ ?_) fun _ _ _ ↦ trivial)
  exact Eff.wp_bind.mpr ((hm u hu).mono (fun _ u hu ↦ hQ u hu) fun _ _ _ ↦ trivial)

/-- One more round was recorded, after all the ones before it. -/
def OneMore (r t : Run W) : Prop :=
  ∃ record, t.inside.state.metadata.observationRounds =
    r.inside.state.metadata.observationRounds ++ [record]

/-- What a round comes to: nothing is left of it, or it is in the metadata and in the log. -/
def Comes (env : Setting W) (r : Run W) (outcome : RoundOutcome) (t : Run W) : Prop :=
  match outcome with
  | .stopped => Midway env r Closed t
  | _ => OneMore r t ∧ Logs env r.inside.log Recorded t.inside.log

/-- The round is written into the log after its call was closed. -/
theorem recorded_append {iteration : ℕ} {payload : Fields} {t : Run W} (hmore : OneMore r t)
    (hlogs : Logs env r.inside.log Closed t.inside.log) :
    (RunM.append env .observationRecorded iteration payload).wp
      (fun _ u ↦ OneMore r u ∧ Logs env r.inside.log Recorded u.inside.log) (fun _ _ ↦ True) t := by
  unfold RunM.append
  cases hsink : env.events with
  | none => exact ⟨hmore, (logs_without_sink hsink).mpr ((logs_without_sink hsink).mp hlogs)⟩
  | some sink =>
    cases hbefore : r.inside.log with
    | none =>
      have hlog := (logs_without_log hbefore).mp hlogs
      refine Eff.wp_bind.mpr ((wp_logged_without hlog).mpr ⟨hmore, ?_⟩)
      exact (logs_without_log rfl).mpr hlog
    | some log =>
      rw [hbefore, logs_some hsink] at hlogs
      obtain ⟨log', hlog', hclosed⟩ := hlogs
      refine Eff.wp_bind.mpr (((Eff.wp_run _ t).and
        (wp_logged hlog' EventLog.wp_append_snoc)).mono (fun _ u hu ↦ ?_) fun _ _ _ ↦ trivial)
      obtain ⟨hrun, -, log'', -, hlog'', -, hadded⟩ := hu
      have hstate : u.inside.state = t.inside.state :=
        (congrArg (fun p ↦ p.2.inside.state) hrun).symm.trans (state_logged _ t)
      refine ⟨by rwa [OneMore, hstate], ?_⟩
      rw [logs_some hsink]
      exact ⟨log'', hlog'', log', _, hclosed, hadded, rfl⟩

/-- A round that was paid for is recorded. -/
theorem comes_commitRound {base : EvidenceBase} {merged : List Observation} {record : RoundRecord}
    {contexts newlyResolved : List Str} {t : Run W} (h : Midway env r Closed t) :
    (commitRound env base merged record contexts newlyResolved).wp (Comes env r) (fun _ _ ↦ True)
      t := by
  unfold commitRound
  have hmore : OneMore r { t with inside := { t.inside with state := { t.inside.state with
      metadata := { t.inside.state.metadata with
        observationRounds := t.inside.state.metadata.observationRounds ++ [record] } } } } :=
    ⟨record, congrArg (· ++ [record]) h.held.rounds⟩
  refine Eff.wp_bind.mpr (Eff.wp_bind.mpr ?_)
  refine (recorded_append hmore h.log).mono (fun _ u hu ↦ ?_) fun _ _ _ ↦ trivial
  rw [Eff.wp_ite]
  refine ⟨fun _ ↦ hu, fun _ ↦ ?_⟩
  split
  · trivial
  · exact hu

theorem midway_stopCancelled : Eff.Keeps (Midway env r P) (stopCancelled (W := W)) :=
  keeps_midway (held_stop _) keeps_stopCancelled

theorem midway_stopBudget (limit : Str) : Eff.Keeps (Midway env r P) (stopBudget (W := W) limit) :=
  keeps_midway (held_stopBudget limit) (keeps_stopBudget limit)

/-- What was merged is paid for, or the round stops the run. -/
theorem comes_payRound {base : EvidenceBase} {request : ObservationRequest} {patterns : List Str}
    {read : Option Str} {merged : List Observation} {round : ObservationRound} {t : Run W}
    (h : Midway env r (fun log log' ↦ ∃ call, read = some call ∧ Started call log log') t) :
    (payRound env base request patterns read merged round).wp (Comes env r) (fun _ _ ↦ True) t := by
  unfold payRound
  refine Eff.wp_bind.mpr (Eff.wp_bind.mpr (Eff.wp_attempt.mpr ?_))
  refine (keeps_forM (fun c ↦ midway_metered _) t h).mono (fun _ u hu ↦ ?_) fun e u hu ↦ ?_
  · exact Eff.wp_bind.mpr ((midway_finishCall hu).mono (fun _ u hu ↦ comes_commitRound hu)
      fun _ _ _ ↦ trivial)
  · split
    · exact midway_stopped hu midway_stopCancelled fun _ hu ↦ hu
    · exact midway_stopped hu (midway_stopBudget _) fun _ hu ↦ hu
    · trivial
    · trivial

theorem comes_observeRoundOf {recorded : List Material} {request : ObservationRequest}
    {patterns : List Str} {base : EvidenceBase} {observer : Observer W} :
    (observeRoundOf env recorded request patterns base observer).wp (Comes env r)
      (fun _ _ ↦ True) r := by
  unfold observeRoundOf
  refine Eff.wp_bind.mpr (Eff.wp_bind.mpr (Eff.wp_bind.mpr ?_))
  refine (midway_startCall (r := r) ?_ ?_).mono (fun read t ht ↦ ?_) fun _ _ _ ↦ trivial
  · exact ⟨rfl, rfl, rfl⟩
  · rfl
  refine Eff.wp_bind.mpr (Eff.wp_attempt.mpr ((midway_askHost t ht).mono (fun p t ht ↦ ?_)
    fun e t ht ↦ ?_))
  · refine Eff.wp_bind.mpr ((midway_note _ t ht).mono (fun _ t ht ↦ ?_) fun _ _ _ ↦ trivial)
    split
    · rw [Eff.wp_ite]
      refine ⟨fun _ ↦ ?_, fun _ ↦ comes_payRound ht⟩
      refine Eff.wp_bind.mpr ((midway_finishCall ht).mono (fun _ t ht ↦ ?_) fun _ _ _ ↦ trivial)
      have hchanged : ∀ changed, Eff.Keeps (Midway env r Closed) (setMetadata (W := W) fun m ↦
          { m with resumeEvidenceChanged := some changed }) := fun changed ↦ by
        refine keeps_midway (held_setMetadata ?_) (keeps_setMetadata _)
        exact fun _ ↦ rfl
      refine Eff.wp_bind.mpr ((hchanged _ t ht).mono (fun _ t ht ↦ ?_) fun _ _ _ ↦ trivial)
      exact Eff.wp_bind.mpr ((keeps_midway (held_stop _) (keeps_stop _) t ht).mono
        (fun _ t ht ↦ ht) fun _ _ _ ↦ trivial)
    · exact comes_payRound ht
  · split
    · exact midway_stopped ht midway_stopCancelled fun _ hu ↦ hu
    · exact midway_stopped ht (midway_stopBudget _) fun _ hu ↦ hu
    · rw [Eff.wp_ite]
      refine ⟨fun _ ↦ midway_stopped ht ?_ fun _ hu ↦ hu, fun _ ↦ trivial⟩
      exact keeps_midway (held_stopToolError _ _) (keeps_stopToolError _ _)
    · rename_i heq
      cases heq

end

/-! ## The round as a whole

A round either commits everything it merged, or leaves the evidence of the run untouched; and its
call is closed either way. -/

/-- One call was started, and the log has one end for it. -/
def ClosesItsCall (log log' : EventLog) : Prop :=
  ∃ call new, log'.events = log.events ++ new ∧
    (new.filter (·.kind = .callStarted)).map (·.callId) = [some call] ∧
    (log'.events.filter fun e ↦ e.kind = .callFinished ∧ e.callId = some call).length = 1

theorem closesItsCall_of {log log' : EventLog} {call : Str} {started finished : Event}
    (rest : List Event) (hevents : log'.events = log.events ++ started :: finished :: rest)
    (hstarted : started.kind = .callStarted) (hid : started.callId = some call)
    (hfinished : finished.kind = .callFinished) (hcall : finished.callId = some call)
    (hopen : ∀ e ∈ log.events, e.kind = .callFinished → e.callId ≠ some call)
    (hrest : ∀ e ∈ rest, e.kind = .observationRecorded) : ClosesItsCall log log' := by
  refine ⟨call, _, hevents, ?_, ?_⟩
  · have hnone : rest.filter (·.kind = .callStarted) = [] :=
      List.filter_eq_nil_iff.mpr fun e he h ↦ by simp [hrest e he] at h
    simp [hstarted, hfinished, hid, hnone]
  · have hbefore : log.events.filter (fun e ↦ e.kind = .callFinished ∧ e.callId = some call) = [] :=
      List.filter_eq_nil_iff.mpr fun e he h ↦
        hopen e he (of_decide_eq_true h).1 (of_decide_eq_true h).2
    have hnone : rest.filter (fun e ↦ e.kind = .callFinished ∧ e.callId = some call) = [] :=
      List.filter_eq_nil_iff.mpr fun e he h ↦ by simp [hrest e he] at h
    rw [hevents, List.filter_append, hbefore, List.nil_append, List.filter_cons_of_neg,
      List.filter_cons_of_pos, hnone]
    · rfl
    · simp [hfinished, hcall]
    · simp [hstarted]

theorem Closed.closesItsCall {log log' : EventLog} (h : Closed log log') :
    ClosesItsCall log log' := by
  obtain ⟨call, started, finished, rfl, hstarted, hid, hfinished, hcall, hopen⟩ := h
  refine closesItsCall_of [] ?_ hstarted hid hfinished hcall hopen
    fun e he ↦ absurd he List.not_mem_nil
  exact List.append_assoc _ _ _

theorem Recorded.closesItsCall {log log' : EventLog} (h : Recorded log log') :
    ClosesItsCall log log' := by
  obtain ⟨mid, e, hclosed, rfl, hkind⟩ := h
  obtain ⟨call, started, finished, rfl, hstarted, hid, hfinished, hcall, hopen⟩ := hclosed
  refine closesItsCall_of [e] ?_ hstarted hid hfinished hcall hopen fun x hx ↦ ?_
  · simp only [EventLog.snoc, List.append_assoc, List.cons_append, List.nil_append]
  · rw [List.mem_singleton.mp hx]
    exact hkind

theorem Closed.recorded {log log' : EventLog} (h : Closed log log') :
    recordedIn (some log') = recordedIn (some log) := by
  obtain ⟨call, started, finished, rfl, hstarted, -, hfinished, -, -⟩ := h
  simp [recordedIn, EventLog.snoc, hstarted, hfinished]

/-- What became of a log, said of the events in it. -/
theorem Logs.recorded {before after : Option EventLog} (h : Logs env before Closed after) :
    recordedIn after = recordedIn before := by
  cases hsink : env.events with
  | none => rw [(logs_without_sink hsink).mp h]
  | some sink =>
    cases before with
    | none => rw [(logs_without_log rfl).mp h]
    | some log =>
      obtain ⟨log', rfl, hclosed⟩ := (logs_some hsink).mp h
      exact hclosed.recorded

section
variable {r t : Run W} {outcome : RoundOutcome}

theorem Comes.untouched (h : Comes env r outcome t) (hstopped : outcome = .stopped) :
    Held r t ∧ recordedIn t.inside.log = recordedIn r.inside.log := by
  subst hstopped
  exact ⟨h.held, h.log.recorded⟩

theorem Comes.oneMore (h : Comes env r outcome t) (hgoes : outcome ≠ .stopped) : OneMore r t := by
  cases outcome with
  | stopped => exact absurd rfl hgoes
  | nothing => exact h.1
  | new => exact h.1

theorem Logs.closes {before after : Option EventLog} {P : EventLog → EventLog → Prop}
    {sink : Sink W} {log : EventLog} (h : Logs env before P after)
    (hP : ∀ {log'}, P log log' → ClosesItsCall log log') (hsink : env.events = some sink)
    (hlog : before = some log) : ∃ log', after = some log' ∧ ClosesItsCall log log' := by
  rw [hlog, logs_some hsink] at h
  obtain ⟨log', hlog', hclosed⟩ := h
  exact ⟨log', hlog', hP hclosed⟩

theorem Comes.closes (h : Comes env r outcome t) (sink : Sink W) (log : EventLog)
    (hsink : env.events = some sink) (hlog : r.inside.log = some log) :
    ∃ log', t.inside.log = some log' ∧ ClosesItsCall log log' := by
  cases outcome with
  | stopped => exact h.log.closes Closed.closesItsCall hsink hlog
  | nothing => exact h.2.closes Recorded.closesItsCall hsink hlog
  | new => exact h.2.closes Recorded.closesItsCall hsink hlog

end

/-- **An observation round is all or nothing**: one that stops the run leaves its evidence, its
prose, its rounds and the recorded observations as they were, any other is one round more; and the
call it started is finished once, however it ended. -/
theorem observeRound_all_or_nothing (env : Setting W) (recorded : List Material)
    (request : ObservationRequest) (patterns : List Str) (r : Run W) :
    (observeRound env recorded request patterns).wp
      (fun outcome t ↦
        (outcome = .stopped → Held r t ∧ recordedIn t.inside.log = recordedIn r.inside.log) ∧
        (outcome ≠ .stopped → OneMore r t) ∧
        ∀ sink log, env.events = some sink → r.inside.log = some log →
          ∃ log', t.inside.log = some log' ∧ ClosesItsCall log log')
      (fun _ _ ↦ True) r := by
  unfold observeRound
  refine Eff.wp_bind.mpr (wp_state.mpr ?_)
  split
  · refine comes_observeRoundOf.mono (fun outcome t ht ↦ ?_) fun _ _ _ ↦ trivial
    exact ⟨ht.untouched, ht.oneMore, ht.closes⟩
  · trivial

end AtlasCore
