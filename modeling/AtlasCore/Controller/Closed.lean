import AtlasCore.Controller.Logged

/-!
# The calls of a run that has stopped

A call is open between its two halves.  The controller makes the calls of the model and of the
observer, and each is closed by the code that follows it, unless what came out of the model adapter
is `RunCancelled` or `BudgetExceeded`: the clauses that catch these stop the run and do not close
the call.  A run in which that does not happen (`Undisturbed`) closes every call before it records
its stop (`stopped_closed`).
-/

set_option autoImplicit false

namespace AtlasCore

open Py RunM EventLog

variable {W : Type}

/-! ## Calls in a log

The calls that a log has opened and not closed, and when there is none. -/

/-- The event starts a call of this kind, which the log keeps masked. -/
def Event.startsCall (mask : Masking) (kind : CallKind) (e : Event) : Bool :=
  e.kind = .callStarted && payloadIn e.payload "call_kind" [mask.text kind.text]

/-- The calls that were started after the first `n` events, tool calls apart, are finished, except
for the one that is `still` open. -/
def Shut (mask : Masking) (n : ℕ) (still : Option Str) (log : EventLog) : Prop :=
  ∀ e ∈ log.events.drop n, e.kind = .callStarted → e.startsCall mask .toolCall = false →
    ∀ call, e.callId = some call → some call ≠ still → Names .callFinished call log.events

/-! ## Exceptions that stop a run

Two exceptions stop a run without closing the call they come out of.  Whether one of them gets out
of a model call is a property of the surroundings, and `Undisturbed` says it of a whole run by
running it again on surroundings that cannot raise them. -/

/-- `except RunCancelled` or `except BudgetExceeded` catches it: the run is stopped by it, and is
not a failure of a tool. -/
def Exc.isStop : Exc → Bool
  | runCancelled | budgetExceeded _ => true
  | _ => false

/-- Another exception in the place of one that stops a run. -/
def Exc.calm (e : Exc) : Exc := if e.isStop then .other (str "Exception") else e

/-- What `m` does, except that none of these comes out of it. -/
def calmly {σ α : Type} (m : Eff Exc σ α) : Eff Exc σ α := m.handle fun e ↦ Eff.raise e.calm

/-- The same setting, except that neither `RunCancelled` nor `BudgetExceeded` comes out of `execute`
and of the log, and that the log takes the start of a model call. -/
def Setting.calm (env : Setting W) : Setting W :=
  { env with
    callDigest := calmly env.callDigest
    modelAdapter := env.modelAdapter.map fun adapter ↦
      { adapter with execute := fun input ↦ calmly (adapter.execute input) }
    events := env.events.map fun sink e ↦ (sink e).handle fun x ↦
      if e.startsCall env.mask .modelCall then return () else Eff.raise x.calm }

/-- Nothing in this run depends on these exceptions: it is the same without them. -/
def Undisturbed (env : Setting W) (w : W) : Prop :=
  run env (env.start w) = run env.calm (env.start w)

/-- What cannot happen in a calm setting: neither a model nor a log nor a clock raises what would
stop the run. -/
structure StaysCalm (env : Setting W) : Prop where
  execute : ∀ adapter, env.modelAdapter = some adapter → ∀ input s,
    (adapter.execute input).wp (fun _ _ ↦ True) (fun e _ ↦ e.isStop = false) s
  callDigest : ∀ w, env.callDigest.wp (fun _ _ ↦ True) (fun e _ ↦ e.isStop = false) w
  events : ∀ sink, env.events = some sink → ∀ e w, (sink e).wp (fun _ _ ↦ True)
    (fun x _ ↦ x.isStop = false ∧ e.startsCall env.mask .modelCall = false) w

theorem Exc.isStop_calm (e : Exc) : e.calm.isStop = false := by
  rw [calm]
  split
  · rfl
  · rename_i h
    exact Bool.eq_false_iff.mpr h

theorem wp_calmly {σ α : Type} (m : Eff Exc σ α) (s : σ) :
    (calmly m).wp (fun _ _ ↦ True) (fun e _ ↦ e.isStop = false) s :=
  Eff.wp_handle.mpr ((Eff.wp_true m s).mono (fun _ _ _ ↦ trivial) fun e _ _ ↦ e.isStop_calm)

theorem Setting.staysCalm (env : Setting W) : StaysCalm env.calm where
  execute adapter hadapter input s := by
    obtain ⟨original, -, rfl⟩ := Option.map_eq_some_iff.mp hadapter
    exact wp_calmly (original.execute input) s
  callDigest w := wp_calmly env.callDigest w
  events sink hsink e w := by
    obtain ⟨original, -, rfl⟩ := Option.map_eq_some_iff.mp hsink
    refine Eff.wp_handle.mpr
      ((Eff.wp_true (original e) w).mono (fun _ _ _ ↦ trivial) fun x t _ ↦ ?_)
    refine Eff.wp_ite.mpr ⟨fun _ ↦ trivial, fun h ↦ ?_⟩
    exact ⟨x.isStop_calm, Bool.eq_false_iff.mpr h⟩

/-! ## The log, event by event

What one event does to the calls of a log: it opens one, closes one, or has nothing to do with them.
-/

section
variable {mask : Masking} {n : ℕ} {still : Option Str} {log : EventLog}

theorem Shut.snoc {e : Event} (h : Shut mask n still log)
    (he : e.kind = .callStarted → e.startsCall mask .toolCall = false →
      ∀ call, e.callId = some call → some call = still) : Shut mask n still (log.snoc e) := by
  intro x hx hkind htool call hcall hopen
  have hmem : x ∈ log.events.drop n ∨ x = e := by
    rw [EventLog.snoc, List.drop_append] at hx
    rcases List.mem_append.mp hx with hx | hx
    · exact .inl hx
    · exact .inr (List.mem_singleton.mp (List.mem_of_mem_drop hx))
  rcases hmem with hx | rfl
  · exact (h x hx hkind htool call hcall hopen).left
  · exact absurd (he hkind htool call hcall) hopen

/-- Any other event leaves the calls as they are. -/
theorem Shut.snoc_of_ne {e : Event} (h : Shut mask n still log) (hkind : e.kind ≠ .callStarted) :
    Shut mask n still (log.snoc e) := h.snoc fun hk ↦ absurd hk hkind

/-- A call that is open may be left out. -/
theorem Shut.weaken (h : Shut mask n none log) (still : Option Str) : Shut mask n still log :=
  fun e he hkind htool call hcall _ ↦ h e he hkind htool call hcall (Option.some_ne_none call)

/-- The open call is closed. -/
theorem Shut.close {call : Str} (h : Shut mask n (some call) log)
    (hclosed : Names .callFinished call log.events) : Shut mask n none log := by
  intro e he hkind htool other hother _
  by_cases hcall : other = call
  · rw [hcall]
    exact hclosed
  · exact h e he hkind htool other hother fun heq ↦ hcall (Option.some.inj heq)

/-- What starts a tool call is the start of a tool call. -/
theorem startsCall_next {kind : CallKind} {iteration : ℕ} {callId : Option Str} {payload : Fields} :
    (log.next mask .callStarted iteration callId
      ((str "call_kind", .str kind.text) :: payload)).startsCall mask kind = true := by
  have hkey : str "call_kind" ∉ VERBATIM_KEYS := by decide +kernel
  rw [Event.startsCall, payloadIn, EventLog.next, getOrNull, redactFields, if_neg hkey,
    Json.lookup, if_pos rfl]
  simp [redactDocument]

/-- An event that is refused is refused with `ValueError`. -/
theorem Event.postInit_eq_error {e : Event} {x : Exc} (h : e.postInit = .error x) :
    x = .valueError := by
  rw [Event.postInit] at h
  split_ifs at h <;> exact (Except.error.inj h).symm

end

/-! ## What the log does in a calm setting -/

section
variable {env : Setting W} {sink : Sink W} (hsink : env.events = some sink) (hcalm : StaysCalm env)
  {log : EventLog} {w : W} {kind : EventKind} {iteration : ℕ} {callId : Option Str}
  {payload : Fields}
include hsink hcalm

theorem StaysCalm.wp_append :
    (EventLog.append env.mask sink kind iteration callId payload).wp
      (fun _ p ↦ p.2 = log.snoc (log.next env.mask kind iteration callId payload))
      (fun x p ↦ x.isStop = false ∧ (p.2 = log ∨
        p.2 = log.snoc (log.next env.mask kind iteration callId payload) ∧
          (log.next env.mask kind iteration callId payload).startsCall env.mask .modelCall = false))
      (w, log) := by
  rw [EventLog.append, Eff.wp_bind, Eff.wp_read, Eff.wp_bind, Eff.wp_ofExcept]
  cases hpost : (log.next env.mask kind iteration callId payload).postInit with
  | error x =>
    dsimp only
    rw [Event.postInit_eq_error hpost]
    exact ⟨rfl, .inl rfl⟩
  | ok _ =>
    rw [Eff.wp_bind, Eff.wp_update, Eff.wp_zoom]
    exact (hcalm.events sink hsink _ _).mono (fun _ _ _ ↦ rfl)
      fun x _ hx ↦ ⟨hx.1, .inr ⟨rfl, hx.2⟩⟩

theorem StaysCalm.wp_startCall {callKind : CallKind} {target : Option Str} :
    (EventLog.startCall env.mask sink callKind iteration target env.callDigest payload).wp
      (fun call p ↦ ∃ e, p.2 = log.snoc e ∧ e.callId = some call ∧
        e.startsCall env.mask callKind = true)
      (fun x p ↦ x.isStop = false ∧ (p.2 = log ∨ callKind ≠ .modelCall ∧
        ∃ e, p.2 = log.snoc e ∧ e.startsCall env.mask callKind = true)) (w, log) := by
  rw [EventLog.startCall, Eff.wp_bind, Eff.wp_read, Eff.wp_bind, Eff.wp_zoom]
  refine (hcalm.callDigest w).mono (fun inputSha256 w' _ ↦ ?_) fun x _ hx ↦ ⟨hx, .inl rfl⟩
  rw [Eff.wp_bind]
  refine (hcalm.wp_append hsink).mono (fun _ p hp ↦ ⟨_, hp, rfl, startsCall_next⟩)
    fun x p h ↦ ⟨h.1, ?_⟩
  refine h.2.imp_right fun hp ↦ ⟨?_, _, hp.1, startsCall_next⟩
  rintro rfl
  exact Bool.false_ne_true (hp.2.symm.trans startsCall_next)

theorem StaysCalm.wp_finishCall {call : Str} {outcome : CallOutcome} {error : Option Str} :
    (EventLog.finishCall env.mask sink call outcome iteration error).wp
      (fun _ p ↦ ∃ e, p.2 = log.snoc e ∧ e.kind = .callFinished ∧ e.callId = some call)
      (fun x p ↦ x.isStop = false ∧ (p.2 = log ∨
        ∃ e, p.2 = log.snoc e ∧ e.kind = .callFinished)) (w, log) := by
  rw [EventLog.finishCall, Eff.wp_bind, Eff.wp_read, Eff.wp_ite, Eff.wp_ite]
  refine ⟨fun _ ↦ ⟨rfl, .inl rfl⟩, fun _ ↦ ⟨fun _ ↦ ⟨rfl, .inl rfl⟩, fun _ ↦ ?_⟩⟩
  exact (hcalm.wp_append hsink).mono (fun _ p hp ↦ ⟨_, hp, rfl, rfl⟩)
    fun x p h ↦ ⟨h.1, h.2.imp_right fun hp ↦ ⟨_, hp.1, rfl⟩⟩

end

/-! ## Steps that make calls

A step that opens a call closes it again before it comes back, and between the two the log says
which. -/

/-- The calls of a run so far, with one that may be `still` open. -/
abbrev ShutIn (env : Setting W) (n : ℕ) (still : Option Str) (r : Run W) : Prop :=
  IfAny (Shut env.mask n still) r.inside.log

/-- What the log does, if there is one. -/
theorem wp_logged_any {α : Type} {m : Eff Exc (W × EventLog) α} {r : Run W} {P : EventLog → Prop}
    {Q : α → EventLog → Prop} {E : Exc → EventLog → Prop} (hr : IfAny P r.inside.log)
    (h : ∀ w log, P log → m.wp (fun a p ↦ Q a p.2) (fun e p ↦ E e p.2) (w, log)) :
    (logged m).wp
      (fun found t ↦ IfAny (fun log ↦ ∃ a, found = some a ∧ Q a log) t.inside.log)
      (fun e t ↦ ∃ log, t.inside.log = some log ∧ E e log) r := by
  cases hlog : r.inside.log with
  | none =>
    have hm : logged m r = (.ok none, r) := by
      rw [logged, hlog]
    rw [Eff.wp, hm]
    intro log hsome
    rw [hlog] at hsome
    cases hsome
  | some log =>
    refine (wp_logged hlog (h r.world log (hr log hlog))).mono (fun found t ht ↦ ?_) fun e t ht ↦ ht
    obtain ⟨a, log', hfound, hlog', hQ⟩ := ht
    rw [hlog']
    exact ifAny_some.mpr ⟨a, hfound, hQ⟩

theorem ShutIn.of_log {env : Setting W} {n : ℕ} {still : Option Str} {r : Run W} {log : EventLog}
    (hlog : r.inside.log = some log) (h : Shut env.mask n still log) : ShutIn env n still r := by
  rw [ShutIn, hlog]
  exact ifAny_some.mpr h

section
variable {env : Setting W} {n : ℕ} {still : Option Str}

/-- Any event but the start of a call leaves the calls as they are. -/
theorem shut_keeps_append {kind : EventKind} {iteration : ℕ} {payload : Fields}
    (hkind : kind ≠ .callStarted) :
    KeepsLog (IfAny (Shut env.mask n still)) (RunM.append env kind iteration payload) := by
  rw [RunM.append]
  cases env.events with
  | none => exact Eff.Keeps.pure _
  | some sink =>
    refine Eff.Keeps.bind (keeps_logged fun w log h ↦ ?_) fun _ ↦ Eff.Keeps.pure _
    exact wp_append_keeps (P := fun log ↦ IfAny (Shut env.mask n still) (some log)) h fun _ ↦
      ifAny_some.mpr ((ifAny_some.mp h).snoc_of_ne hkind)

theorem shut_appends : Appends env (IfAny (Shut env.mask n still)) := by
  intro log kind iteration payload h hstep _ _
  refine ifAny_some.mpr ((ifAny_some.mp h).snoc_of_ne fun hkind ↦ ?_)
  obtain rfl : kind = .callStarted := hkind
  cases hstep

variable {sink : Sink W} (hsink : env.events = some sink) (hcalm : StaysCalm env)
include hsink hcalm

/-- A tool call does not count. -/
theorem wp_startTool {iteration : ℕ} {target : Option Str} {idempotent : Bool} {r : Run W}
    (hr : ShutIn env n still r) :
    (RunM.startCall env .toolCall iteration target idempotent).wp
      (fun _ t ↦ ShutIn env n still t) (fun x t ↦ x.isStop = false ∧ ShutIn env n still t) r := by
  have hsnoc : ∀ {log : EventLog} {e : Event}, Shut env.mask n still log →
      e.startsCall env.mask .toolCall = true → Shut env.mask n still (log.snoc e) :=
    fun h he ↦ h.snoc fun _ hno ↦ by
      rw [he] at hno
      cases hno
  rw [RunM.startCall, hsink]
  refine (wp_logged_any (Q := fun _ ↦ Shut env.mask n still)
    (E := fun x log ↦ x.isStop = false ∧ Shut env.mask n still log) hr fun w log h ↦ ?_).mono
    (fun _ t ht log hlog ↦ (ht log hlog).choose_spec.2) fun x t ht ↦ ?_
  · refine (hcalm.wp_startCall hsink).mono (fun _ p hp ↦ ?_) fun x p hp ↦ ⟨hp.1, ?_⟩
    · obtain ⟨e, hp, -, he⟩ := hp
      rw [hp]
      exact hsnoc h he
    · rcases hp.2 with hp | ⟨-, e, hp, he⟩ <;> rw [hp]
      · exact h
      · exact hsnoc h he
  · obtain ⟨log, hlog, hx, h⟩ := ht
    exact ⟨hx, .of_log hlog h⟩

/-- A call that is started is the open one.  A model call that could not be started is in the log
only if the log did not take it. -/
theorem wp_startOwn {callKind : CallKind} {iteration : ℕ} {target : Option Str} {idempotent : Bool}
    {r : Run W} (hr : ShutIn env n none r) :
    (RunM.startCall env callKind iteration target idempotent).wp
      (fun call t ↦ ShutIn env n call t) (fun _ t ↦ callKind = .modelCall → ShutIn env n none t)
      r := by
  rw [RunM.startCall, hsink]
  refine (wp_logged_any (Q := fun call ↦ Shut env.mask n (some call))
    (E := fun _ log ↦ callKind = .modelCall → Shut env.mask n none log) hr fun w log h ↦ ?_).mono
    (fun found t ht log hlog ↦ ?_) fun x t ht hkind ↦ ?_
  · refine (hcalm.wp_startCall hsink).mono (fun call p hp ↦ ?_) fun x p hp hkind ↦ ?_
    · obtain ⟨e, hp, hcall, -⟩ := hp
      rw [hp]
      exact (h.weaken _).snoc fun _ _ other hother ↦ by rw [← hother, hcall]
    · rcases hp.2 with hp | ⟨hne, -⟩
      · rw [hp]
        exact h
      · exact absurd hkind hne
  · obtain ⟨call, rfl, hshut⟩ := ht log hlog
    exact hshut
  · obtain ⟨log, hlog, h⟩ := ht
    exact .of_log hlog (h hkind)

/-- A call that is finished is not open, and any other is left as it is. -/
theorem wp_finish {call : Option Str} {outcome : CallOutcome} {iteration : ℕ}
    {error : Option Exc} {r : Run W} (hr : ShutIn env n still r) :
    (RunM.finishCall env call outcome iteration error).wp
      (fun _ t ↦ ShutIn env n still t ∧ (call = still → ShutIn env n none t))
      (fun x t ↦ x.isStop = false ∧ ShutIn env n still t) r := by
  unfold RunM.finishCall
  rw [hsink]
  cases call with
  | none => exact ⟨hr, fun h ↦ h ▸ hr⟩
  | some call =>
    dsimp only
    rw [Eff.wp_bind]
    refine (wp_logged_any (Q := fun _ log ↦ Shut env.mask n still log ∧
        (some call = still → Shut env.mask n none log))
      (E := fun x log ↦ x.isStop = false ∧ Shut env.mask n still log) hr fun w log h ↦ ?_).mono
      (fun _ t ht ↦ ⟨fun log hlog ↦ (ht log hlog).choose_spec.2.1,
        fun hcall log hlog ↦ (ht log hlog).choose_spec.2.2 hcall⟩)
      fun x t ⟨log, hlog, hx, h⟩ ↦ ⟨hx, .of_log hlog h⟩
    refine (hcalm.wp_finishCall hsink).mono (fun _ p ⟨e, hp, hkind, hcall⟩ ↦ ?_)
      fun x p ⟨hx, hp⟩ ↦ ⟨hx, ?_⟩
    · rw [hp]
      have hsnoc := h.snoc_of_ne (e := e) (by rw [hkind]; decide)
      refine ⟨hsnoc, ?_⟩
      rintro rfl
      exact hsnoc.close ⟨e, List.mem_append_right _ (List.mem_singleton.mpr rfl), hkind, hcall⟩
    · rcases hp with hp | ⟨e, hp, hkind⟩ <;> rw [hp]
      · exact h
      · exact h.snoc_of_ne (by rw [hkind]; decide)

/-- The open call is finished. -/
theorem wp_finishOwn {call : Option Str} {outcome : CallOutcome} {iteration : ℕ}
    {error : Option Exc} {r : Run W} (hr : ShutIn env n call r) :
    (RunM.finishCall env call outcome iteration error).wp (fun _ t ↦ ShutIn env n none t)
      (fun x t ↦ x.isStop = false ∧ ShutIn env n call t) r :=
  (wp_finish hsink hcalm hr).mono (fun _ _ h ↦ h.2 rfl) fun _ _ h ↦ h

/-- The open call is finished first, and then whatever leaves the calls closed. -/
theorem wp_finish_bind {α : Type} {m : RunM W α} (hm : Eff.Restores (ShutIn env n none) m)
    {call : Option Str} {outcome : CallOutcome} {iteration : ℕ} {error : Option Exc} {r : Run W}
    (hr : ShutIn env n call r) :
    (RunM.finishCall env call outcome iteration error >>= fun _ ↦ m).wp
      (fun _ t ↦ ShutIn env n none t) (fun _ _ ↦ True) r :=
  Eff.wp_bind.mpr ((wp_finishOwn hsink hcalm hr).mono (fun _ t ht ↦ hm t ht) fun _ _ _ ↦ trivial)

end

/-! ## The calls of the model

A model call is closed with its outcome also where the answer is refused, or costs more than there
is. -/

/-- What is wrong with a reply is not an exception that stops a run. -/
theorem isStop_of_checkModelResult {rt : Runtime} {result : Option ModelResult} {x : Exc}
    (h : checkModelResult rt result = .error x) : x.isStop = false := by
  unfold checkModelResult at h
  split at h
  · exact (Except.error.inj h) ▸ rfl
  · split at h
    · exact (Except.error.inj h) ▸ rfl
    · split_ifs at h
      · exact (Except.error.inj h) ▸ rfl
      · split at h
        · cases h
        all_goals exact (Except.error.inj h) ▸ rfl

section
variable {env : Setting W} {n : ℕ} {sink : Sink W} (hsink : env.events = some sink)
  (hcalm : StaysCalm env)
include hsink hcalm

theorem wp_recordToolCalls {still : Option Str} : ∀ {calls : List ToolCall} {r : Run W},
    ShutIn env n still r → (recordToolCalls env calls).wp (fun _ t ↦ ShutIn env n still t)
      (fun x t ↦ x.isStop = false ∧ ShutIn env n still t) r
  | [], _, hr => hr
  | call :: rest, r, hr => by
    rw [recordToolCalls, Eff.wp_bind]
    refine (wp_startTool hsink hcalm hr).mono (fun started t ht ↦ ?_) fun _ _ h ↦ h
    cases call.outcome with
    | none => exact wp_recordToolCalls ht
    | some outcome =>
      refine Eff.wp_bind.mpr ?_
      exact (wp_finish hsink hcalm ht).mono (fun _ _ ht ↦ wp_recordToolCalls ht.1) fun _ _ h ↦ h

theorem wp_executeAdapter {adapter : ModelAdapter W} (hadapter : env.modelAdapter = some adapter)
    {input : ModelInput} {still : Option Str} {r : Run W} (hr : ShutIn env n still r) :
    (executeAdapter env adapter input).wp (fun _ t ↦ ShutIn env n still t)
      (fun x t ↦ x.isStop = false ∧ ShutIn env n still t) r := by
  rw [executeAdapter, Eff.wp_bind, Eff.wp_read]
  have hanswer := (hcalm.execute adapter hadapter input ⟨r.world, r.budget, []⟩).outcome.2
  have hend : ∀ {t : Run W}, ShutIn env n still t →
      (Eff.ofExcept (adapter.execute input ⟨r.world, r.budget, []⟩).1).wp
        (fun _ t ↦ ShutIn env n still t) (fun x t ↦ x.isStop = false ∧ ShutIn env n still t) t := by
    intro t ht
    rw [Eff.wp_ofExcept]
    cases hx : (adapter.execute input ⟨r.world, r.budget, []⟩).1 with
    | ok result => exact ht
    | error x => exact ⟨hanswer x hx, ht⟩
  dsimp only
  rw [Eff.wp_bind, Eff.wp_update]
  have hupdated : ShutIn env n still { r with
      world := (adapter.execute input ⟨r.world, r.budget, []⟩).2.world
      budget := r.budget.map fun b ↦
        (adapter.execute input ⟨r.world, r.budget, []⟩).2.budget.getD b } := hr
  refine Eff.wp_ite.mpr ⟨fun _ ↦ Eff.wp_bind.mpr ?_, fun _ ↦ hend hupdated⟩
  exact (wp_recordToolCalls hsink hcalm hupdated).mono (fun _ _ ht ↦ hend ht) fun _ _ h ↦ h

/-- A model call that returns is closed, and one that raises does not stop the run as a cancelled
one or as one without budget. -/
theorem wp_runModelCall {adapter : ModelAdapter W} (hadapter : env.modelAdapter = some adapter)
    {input : ModelInput} {iteration : ℕ} {call : Option Str} {r : Run W}
    (hr : ShutIn env n call r) :
    (runModelCall env adapter input iteration call).wp (fun _ t ↦ ShutIn env n none t)
      (fun x t ↦ x.isStop = false ∧ ShutIn env n call t) r := by
  rw [runModelCall, Eff.wp_bind]
  refine (wp_executeAdapter hsink hcalm hadapter hr).mono (fun result t ht ↦ ?_) fun _ _ h ↦ h
  rw [Eff.wp_bind, Eff.wp_ofExcept]
  cases hcheck : checkModelResult env.rt result with
  | error x => exact ⟨isStop_of_checkModelResult hcheck, ht⟩
  | ok reply =>
    dsimp only
    rw [Eff.wp_bind]
    exact (wp_finishOwn hsink hcalm ht).mono (fun _ _ h ↦ h) fun _ _ h ↦ h

/-- The clause that catches what was raised closes the call, if it is still open. -/
theorem wp_modelFailed {iteration : ℕ} {call : Option Str} {x : Exc}
    (hx : x.isStop = true → call = none) {r : Run W} (hr : ShutIn env n call r) :
    (modelFailed env iteration call x).wp (fun _ t ↦ ShutIn env n none t) (fun _ _ ↦ True) r := by
  have hstops : ∀ {m : RunM W Unit}, KeepsLog (IfAny (Shut env.mask n none)) m →
      Eff.Restores (ShutIn env n none) (m >>= fun _ ↦ (return none : RunM W (Option Produced))) :=
    fun hm ↦ (hm.bind fun _ ↦ Eff.Keeps.pure _).restores
  unfold modelFailed
  split
  · obtain rfl := hx rfl
    exact hstops keeps_stopCancelled r hr
  · obtain rfl := hx rfl
    exact hstops (keeps_stopBudget _) r hr
  · exact Eff.wp_ite.mpr
      ⟨fun _ ↦ wp_finish_bind hsink hcalm (hstops (keeps_stopToolError _ _)) hr, fun _ ↦ trivial⟩

/-- A call of the model that comes to an end is closed. -/
theorem restores_askModel {adapter : ModelAdapter W} (hadapter : env.modelAdapter = some adapter)
    {route : RouteName} {plan : AtlasPlan} :
    Eff.Restores (ShutIn env n none) (askModel env adapter route plan) := by
  intro r hr
  have hstart : ∀ {iteration : ℕ} {t : Run W}, ShutIn env n none t →
      (startModelCall env adapter iteration).wp (fun call t ↦ ShutIn env n call t)
        (fun _ t ↦ ShutIn env n none t) t := by
    intro iteration t ht
    have hcall : ∀ {t : Run W}, ShutIn env n none t →
        (RunM.startCall env .modelCall iteration (some adapter.name) adapter.idempotent).wp
          (fun call t ↦ ShutIn env n call t) (fun _ t ↦ ShutIn env n none t) t := fun ht ↦
      (wp_startOwn hsink hcalm ht).mono (fun _ _ h ↦ h) fun _ _ h ↦ h rfl
    rw [startModelCall, Eff.wp_bind, Eff.wp_read]
    refine Eff.wp_ite.mpr ⟨fun _ ↦ Eff.wp_bind.mpr ?_, fun _ ↦ hcall ht⟩
    exact (keeps_metered _ t ht).mono (fun _ _ h ↦ hcall h) fun _ _ h ↦ h
  rw [askModel, Eff.wp_bind, wp_state]
  dsimp only
  rw [Eff.wp_bind, Eff.wp_attempt]
  refine (hstart hr).mono (fun call t ht ↦ ?_) fun x t ht ↦ ?_
  · refine Eff.wp_bind.mpr (Eff.wp_attempt.mpr ?_)
    refine (wp_runModelCall hsink hcalm hadapter ht).mono (fun reply t ht ↦ ?_) fun x t ht ↦ ?_
    · refine Eff.wp_bind.mpr (Eff.wp_attempt.mpr ?_)
      refine (keepsLog_chargeModel (P := IfAny (Shut env.mask n none)) t ht).mono
        (fun _ t ht ↦ ?_) fun x t ht ↦ wp_modelFailed hsink hcalm (fun _ ↦ rfl) ht
      have hkeep :
          KeepsLog (IfAny (Shut env.mask n none)) (keepReply reply.1 reply.2 (W := W)) := by
        refine (keeps_setMetadata _).bind fun _ ↦ ?_
        split <;> exact Eff.Keeps.pure _
      exact (hkeep t ht).mono (fun _ _ h ↦ h) fun _ _ _ ↦ trivial
    · refine wp_modelFailed hsink hcalm (fun hstop ↦ ?_) ht.2
      rw [ht.1] at hstop
      cases hstop
  · exact wp_modelFailed hsink hcalm (fun _ ↦ rfl) ht

/-! ## The calls of the observer

An observation is paid for before it is merged, and its call is closed with what the budget says. -/

theorem wp_payRound {base : EvidenceBase} {request : ObservationRequest} {patterns : List Str}
    {read : Option Str} {merged : List Observation} {round : ObservationRound} (h : round.Named)
    {r : Run W} (hr : ShutIn env n read r) :
    (payRound env base request patterns read merged round).wp (fun _ t ↦ ShutIn env n none t)
      (fun _ _ ↦ True) r := by
  rw [payRound, Eff.wp_bind, wp_state]
  dsimp only
  rw [Eff.wp_bind]
  refine ((keeps_forM fun c ↦ keeps_metered _).attempt r hr).mono (fun x t ht ↦ ?_)
    fun _ _ _ ↦ trivial
  split
  · exact wp_finish_bind hsink hcalm
      (keeps_stopCancelled.bind fun _ ↦ Eff.Keeps.pure _).restores ht
  · exact wp_finish_bind hsink hcalm
      ((keeps_stopBudget _).bind fun _ ↦ Eff.Keeps.pure _).restores ht
  · trivial
  · exact wp_finish_bind hsink hcalm (keepsLog_commitRound shut_appends h).restores ht

theorem restores_observeRoundOf {recorded : List Material} {request : ObservationRequest}
    {patterns : List Str} {base : EvidenceBase} {observer : Observer W} :
    Eff.Restores (ShutIn env n none)
      (observeRoundOf env recorded request patterns base observer) := by
  refine keeps_state.restores.bind fun s ↦ (keeps_mark _).restores.bind fun _ r hr ↦ ?_
  refine Eff.wp_bind.mpr
    ((wp_startOwn hsink hcalm hr).mono (fun read r hr ↦ ?_) fun _ _ _ ↦ trivial)
  rw [Eff.wp_bind, Eff.wp_attempt]
  refine (keepsLog_askHost (P := IfAny (Shut env.mask n read)) hr).mono (fun p r hp ↦ ?_)
    fun e r hr ↦ ?_
  · obtain ⟨hnamed, hr⟩ := hp
    refine Eff.wp_bind.mpr ((keeps_mark _ r hr).mono (fun _ r hr ↦ ?_) fun _ _ _ ↦ trivial)
    split
    · refine Eff.wp_ite.mpr ⟨fun _ ↦ ?_, fun _ ↦ wp_payRound hsink hcalm hnamed hr⟩
      exact wp_finish_bind hsink hcalm ((keeps_setMetadata _).bind fun _ ↦
        (keeps_stop _).bind fun _ ↦ Eff.Keeps.pure _).restores hr
    · exact wp_payRound hsink hcalm hnamed hr
  · split
    · exact wp_finish_bind hsink hcalm
        (keeps_stopCancelled.bind fun _ ↦ Eff.Keeps.pure _).restores hr
    · exact wp_finish_bind hsink hcalm
        ((keeps_stopBudget _).bind fun _ ↦ Eff.Keeps.pure _).restores hr
    · refine Eff.wp_ite.mpr ⟨fun _ ↦ ?_, fun _ ↦ trivial⟩
      exact wp_finish_bind hsink hcalm
        ((keeps_stopToolError _ _).bind fun _ ↦ Eff.Keeps.pure _).restores hr
    · rename_i heq
      cases heq

theorem restores_observeRound {recorded : List Material} {request : ObservationRequest}
    {patterns : List Str} :
    Eff.Restores (ShutIn env n none) (observeRound env recorded request patterns) := by
  refine keeps_state.restores.bind fun s ↦ ?_
  split
  · exact restores_observeRoundOf hsink hcalm
  · exact Eff.Restores.raise _

theorem restores_readAgain {recorded : List Material} {e : AtlasEvaluation}
    {report : Option DriftReport} {review : Option ReviewPlan} :
    Eff.Restores (ShutIn env n none) (readAgain env recorded e report review) := by
  refine keeps_state.restores.bind fun s ↦ ?_
  split
  · exact Eff.Restores.raise _
  · exact (Eff.Keeps.ofExcept _).restores.bind fun _ ↦ (keeps_enter _).restores.bind fun _ ↦
      restores_observeRound hsink hcalm

/-! ## The run

Whatever a part of the run does, it leaves the log without an open call. -/

theorem restores_produce {route : RouteName} {plan : AtlasPlan} :
    Eff.Restores (ShutIn env n none) (produce env route plan) := by
  unfold produce
  split
  · rename_i adapter hadapter
    exact restores_askModel hsink hcalm hadapter
  · exact keepsLog_askExecutor.restores

theorem restores_judge {recorded : List Material} {plan : AtlasPlan} {e : AtlasEvaluation} :
    Eff.Restores (ShutIn env n none) (judge env recorded plan e) := by
  refine keepsLog_driftReport.restores.bind fun report ↦ keeps_state.restores.bind fun s ↦ ?_
  refine Eff.Restores.ite (fun _ ↦ (restores_readAgain hsink hcalm).bind fun outcome ↦ ?_) fun _ ↦
    keepsLog_settleDrift.restores
  cases outcome with
  | stopped => exact (Eff.Keeps.pure _).restores
  | new => exact ((keeps_enter _).bind fun _ ↦ Eff.Keeps.pure _).restores
  | nothing => exact keepsLog_settleDrift.restores

theorem restores_gradeAndJudge {recorded : List Material} {route : RouteName} {plan : AtlasPlan}
    {p : Produced} :
    Eff.Restores (ShutIn env n none) (gradeAndJudge env recorded route plan p) := by
  refine keeps_state.restores.bind fun s ↦ (keeps_setState _).restores.bind fun _ ↦
    (keeps_setMetadata _).restores.bind fun _ ↦ (keeps_enter _).restores.bind fun _ ↦
      keepsLog_expired.restores.bind fun late ↦ ?_
  refine Eff.Restores.ite (fun _ ↦ (Eff.Keeps.pure _).restores) fun _ ↦ ?_
  refine (keepsLog_grade shut_appends).restores.bind fun e ↦
    keepsLog_expired.restores.bind fun late ↦ ?_
  exact Eff.Restores.ite (fun _ ↦ (Eff.Keeps.pure _).restores) fun _ ↦ restores_judge hsink hcalm

theorem restores_onePass {recorded : List Material} :
    Eff.Restores (ShutIn env n none) (onePass env recorded) := by
  refine keepsLog_expired.restores.bind fun late ↦
    Eff.Restores.ite (fun _ ↦ (Eff.Keeps.pure _).restores) fun _ ↦ ?_
  refine (keeps_setState _).restores.bind fun _ ↦
    (keepsLog_routeAndPlan shut_appends).restores.bind fun p ↦ ?_
  refine keepsLog_expired.restores.bind fun late ↦
    Eff.Restores.ite (fun _ ↦ (Eff.Keeps.pure _).restores) fun _ ↦ ?_
  refine (restores_produce hsink hcalm).bind fun produced ↦ ?_
  cases produced with
  | none => exact (Eff.Keeps.pure _).restores
  | some p => exact restores_gradeAndJudge hsink hcalm

/-- Every pass that comes to an end leaves the calls closed, so the loop does. -/
theorem restores_loop {recorded : List Material} {fuel : ℕ} :
    Eff.Restores (ShutIn env n none) (loop env recorded fuel) := by
  induction fuel with
  | zero => exact (Eff.Keeps.pure _).restores
  | succ fuel ih =>
    refine keeps_state.restores.bind fun s ↦
      Eff.Restores.ite (fun _ ↦ ?_) fun _ ↦ (Eff.Keeps.pure _).restores
    refine (restores_onePass hsink hcalm).bind fun flow ↦ ?_
    cases flow with
    | leave => exact (Eff.Keeps.pure _).restores
    | again => exact ih

theorem restores_work {recorded : List Material} :
    Eff.Restores (ShutIn env n none) (work env recorded) := by
  refine (restores_loop hsink hcalm).bind fun _ ↦ keeps_state.restores.bind fun s ↦ ?_
  exact Eff.Restores.ite (fun _ ↦ ((keeps_stop _).bind fun _ ↦ keepsLog_remember).restores)
    fun _ ↦ keepsLog_remember.restores

theorem restores_firstRead {recorded : List Material} :
    Eff.Restores (ShutIn env n none) (firstRead env recorded) := by
  refine keeps_state.restores.bind fun s ↦ ?_
  split
  · refine Eff.Restores.ite (fun _ ↦ ?_) fun _ ↦ (Eff.Keeps.pure _).restores
    refine Eff.Restores.bind ?_ ?_
    · exact (Eff.Keeps.ofExcept _).restores
    · intro plan
      refine Eff.Restores.bind ?_ ?_
      · exact (Eff.Keeps.ofExcept _).restores
      · intro request
        exact restores_observeRound hsink hcalm
  · exact (Eff.Keeps.pure _).restores

theorem restores_afterSetUp {recorded : List Material} : Eff.Restores (ShutIn env n none) (do
    enter .observing
    setState fun s ↦
      { s with observations := s.observations ++ env.initial, evidenceBase := env.evidence }
    if ← gather env then pure ()
    else do
      readMemory env
      if requiresWriteApproval env.rt env.task then
        setMetadata fun m ↦ { m with safetyNotice := true }
      else pure ()
      if ← expired env then pure ()
      else
        match ← firstRead env recorded with
        | .stopped => pure ()
        | _ => work env recorded) := by
  refine (keeps_enter _).restores.bind fun _ ↦ (keeps_setState _).restores.bind fun _ ↦
    keepsLog_gather.restores.bind fun _ ↦ ?_
  refine Eff.Restores.ite (fun _ ↦ (Eff.Keeps.pure _).restores) fun _ ↦
    keepsLog_readMemory.restores.bind fun _ ↦ ?_
  have hrest : Eff.Restores (ShutIn env n none) (do
      if ← expired env then pure ()
      else
        match ← firstRead env recorded with
        | .stopped => pure ()
        | _ => work env recorded) := by
    refine keepsLog_expired.restores.bind fun _ ↦
      Eff.Restores.ite (fun _ ↦ (Eff.Keeps.pure _).restores) fun _ ↦ ?_
    refine (restores_firstRead hsink hcalm).bind fun outcome ↦ ?_
    cases outcome with
    | stopped => exact (Eff.Keeps.pure _).restores
    | nothing => exact restores_work hsink hcalm
    | new => exact restores_work hsink hcalm
  exact Eff.Restores.ite (fun _ ↦ (keeps_setMetadata _).restores.bind fun _ ↦ hrest) fun _ ↦ hrest

end

/-! ## The start of a log

Before the stop is written, no event of the log is one. -/

/-- The run has not stopped: no event of the log says so. -/
def NotStopped (log : EventLog) : Prop := ∀ e ∈ log.events, e.kind ≠ .runStopped

section
variable {env : Setting W}

theorem NotStopped.snoc {log : EventLog} {e : Event} (h : NotStopped log)
    (he : e.kind ≠ .runStopped) : NotStopped (log.snoc e) := by
  intro x hx
  rcases List.mem_append.mp hx with hx | hx
  · exact h x hx
  · rw [List.mem_singleton.mp hx]
    exact he

theorem notStopped_keeps_append {kind : EventKind} {iteration : ℕ} {payload : Fields}
    (hkind : kind ≠ .runStopped) :
    KeepsLog (IfAny NotStopped) (RunM.append env kind iteration payload) := by
  rw [RunM.append]
  cases env.events with
  | none => exact Eff.Keeps.pure _
  | some sink =>
    refine Eff.Keeps.bind (keeps_logged fun w log h ↦ ?_) fun _ ↦ Eff.Keeps.pure _
    exact wp_append_keeps (P := fun log ↦ IfAny NotStopped (some log)) h fun _ ↦
      ifAny_some.mpr ((ifAny_some.mp h).snoc hkind)

theorem notStopped_upheld : Upheld env (IfAny NotStopped) where
  append {_ kind _ _} h hstep _ _ := ifAny_some.mpr ((ifAny_some.mp h).snoc fun hkind ↦ by
    obtain rfl : kind = .runStopped := hkind
    cases hstep)
  startCall h _ := ifAny_some.mpr ((ifAny_some.mp h).snoc nofun)
  finishCall h _ _ _ := ifAny_some.mpr ((ifAny_some.mp h).snoc nofun)

/-- What holds of the records and is kept by what opens a log holds of the log that was opened. -/
theorem wp_openLog {P : EventLog → Prop} {r : Run W} (hr : r.inside.log = none)
    (hrecords : P ⟨env.runId, env.resumeRecords.getD []⟩)
    (happend : ∀ {kind : EventKind} {payload : Fields}, kind ≠ .callStarted → kind ≠ .runStopped →
      KeepsLog (IfAny P) (RunM.append env kind 0 payload)) :
    (openLog env).wp (fun _ t ↦ IfAny P t.inside.log) (fun _ t ↦ IfAny P t.inside.log) r := by
  have hnone : IfAny P r.inside.log := fun log hlog ↦ by
    rw [hr] at hlog
    cases hlog
  unfold openLog
  split
  · exact hnone
  · rw [Eff.wp_bind, Eff.wp_ofExcept]
    cases hbuild : EventLog.build env.runId (env.resumeRecords.getD []) with
    | error e => exact hnone
    | ok log =>
      obtain ⟨rfl, -⟩ := build_eq_ok hbuild
      dsimp only
      rw [Eff.wp_bind, Eff.wp_update]
      have hopened :
          IfAny P (some ⟨env.runId, env.resumeRecords.getD []⟩) := ifAny_some.mpr hrecords
      have hplain : ∀ kind payload, (kind != .callStarted && kind != .runStopped) = true →
          KeepsLog (IfAny P) (RunM.append env kind 0 payload) := fun kind payload h ↦ by
        simp only [Bool.and_eq_true, bne_iff_ne] at h
        exact happend h.1 h.2
      split
      · refine Eff.Keeps.bind ?_ (fun payload ↦ hplain .runStarted payload rfl) _ hopened
        exact Eff.Keeps.ofExcept _
      · refine Eff.Keeps.bind (hplain .interrupted _ rfl) (fun _ ↦ ?_) _ hopened
        refine Eff.Keeps.bind ?_ fun identity ↦ hplain .resumed _ rfl
        exact Eff.Keeps.ofExcept _

theorem wp_setUp {P : EventLog → Prop} {r : Run W} (hr : r.inside.log = none)
    (hrecords : P ⟨env.runId, env.resumeRecords.getD []⟩)
    (happend : ∀ {kind : EventKind} {payload : Fields}, kind ≠ .callStarted → kind ≠ .runStopped →
      KeepsLog (IfAny P) (RunM.append env kind 0 payload)) :
    (setUp env).wp (fun _ t ↦ IfAny P t.inside.log) (fun _ t ↦ IfAny P t.inside.log) r := by
  rw [setUp, Eff.wp_ite]
  refine ⟨fun _ log hlog ↦ ?_, fun _ ↦ ?_⟩
  · rw [hr] at hlog
    cases hlog
  · rw [Eff.wp_bind]
    exact (wp_openLog hr hrecords happend).mono (fun _ _ h ↦ keepsLog_startBudget _ h) fun _ _ h ↦ h

end

/-! ## The run that stops

At its end the log has one stop, and no call that is open. -/

/-- The calls that were started after the first `n` events, tool calls apart, have one outcome. -/
def ClosedOnce (mask : Masking) (n : ℕ) (events : List Event) : Prop :=
  ∀ e ∈ events.drop n, e.kind = .callStarted → e.startsCall mask .toolCall = false →
    (events.filter fun f ↦ f.kind = .callFinished ∧ f.callId = e.callId).length = 1

instance (mask : Masking) (n : ℕ) (events : List Event) : Decidable (ClosedOnce mask n events) :=
  inferInstanceAs (Decidable (∀ e ∈ events.drop n, e.kind = .callStarted →
    e.startsCall mask .toolCall = false →
      (events.filter fun f ↦ f.kind = .callFinished ∧ f.callId = e.callId).length = 1))

/-- No call is open: the calls that this run has started have one outcome, and a run that is not
resumed has no unfinished call, if the gateway has finished its own. -/
structure AllEnded (env : Setting W) (log : EventLog) : Prop where
  closed : ClosedOnce env.mask (env.resumeRecords.getD []).length log.events
  unfinished : env.resumeRecords = none →
    (∀ e ∈ log.events, e.startsCall env.mask .toolCall = true →
      ∃ call, e.callId = some call ∧ Names .callFinished call log.events) →
    unfinishedCalls log.events = []

section
variable {env : Setting W}

/-- A calm run has closed its calls, or it was left before its stop. -/
theorem run_shut {sink : Sink W} (hsink : env.events = some sink) (hcalm : StaysCalm env)
    (hgoes : env.GoesOn) (w : W) :
    ShutIn env (env.resumeRecords.getD []).length none (run env (env.start w)).2 ∨
      IfAny NotStopped (run env (env.start w)).2.inside.log := by
  have hrecords : NotStopped ⟨env.runId, env.resumeRecords.getD []⟩ := by
    intro e he
    cases hresume : env.resumeRecords with
    | none =>
      rw [hresume] at he
      exact absurd he List.not_mem_nil
    | some records =>
      rw [hresume] at he
      exact (hgoes records hresume).going e he
  have hshut : Shut env.mask (env.resumeRecords.getD []).length none
      ⟨env.runId, env.resumeRecords.getD []⟩ := by
    intro e he
    rw [List.drop_length] at he
    exact absurd he List.not_mem_nil
  have huntil : (untilStop env).wp
      (fun _ t ↦ ShutIn env (env.resumeRecords.getD []).length none t)
      (fun _ t ↦ IfAny NotStopped t.inside.log) (env.start w) := by
    rw [untilStop, Eff.wp_bind]
    refine ((wp_setUp rfl hshut fun hkind _ ↦ shut_keeps_append hkind).and
      (wp_setUp rfl hrecords fun _ hkind ↦ notStopped_keeps_append hkind)).mono
      (fun recorded t ht ↦ ?_) fun _ _ h ↦ h.2
    exact ((restores_afterSetUp hsink hcalm t ht.1).and
      (keepsLog_afterSetUp notStopped_upheld t ht.2)).mono (fun _ _ h ↦ h.1) fun _ _ h ↦ h.2
  refine Eff.wp.left (P := fun t ↦ ShutIn env (env.resumeRecords.getD []).length none t ∨
    IfAny NotStopped t.inside.log) ?_
  rw [run_eq, Eff.wp_bind]
  refine huntil.mono (fun _ t ht ↦ ?_) fun _ _ h ↦ .inr h
  have hstopped : KeepsLog (IfAny (Shut env.mask (env.resumeRecords.getD []).length none))
      (stopped env) := keeps_read.bind fun r ↦ shut_keeps_append (by decide)
  exact (hstopped t ht).mono (fun _ _ h ↦ .inl h) fun _ _ h ↦ .inl h

/-- What is closed in the log of a run has one outcome there. -/
theorem Shut.settled {log : EventLog}
    (h : Shut env.mask (env.resumeRecords.getD []).length none log)
    (hpaired : Paired env.runId log.events) : AllEnded env log where
  closed e he hkind htool := by
    have hcall := hpaired.started e (List.mem_of_mem_drop he) hkind
    rw [hcall]
    exact hpaired.length_finished (h e he hkind htool _ hcall (Option.some_ne_none _))
  unfinished hfresh htools := by
    rw [hfresh] at h
    refine List.filterMap_eq_nil_iff.mpr ?_
    rintro ⟨call, state⟩ hmem
    refine if_neg fun hopen ↦ ?_
    obtain rfl : state = none := hopen
    obtain ⟨⟨e, he, hkind, hcall⟩, hno⟩ := (hpaired.statesOk.unknown call).mp hmem
    cases htool : e.startsCall env.mask .toolCall with
    | false => exact hno (h e he hkind htool call hcall (Option.some_ne_none call))
    | true =>
      obtain ⟨other, hother, hfinished⟩ := htools e he htool
      rw [← Option.some.inj (hother.symm.trans hcall)] at hno
      exact hno hfinished

/-- **A run that stops has no open call**, if neither `RunCancelled` nor `BudgetExceeded` has come
out of a call of the model. -/
theorem stopped_closed {w : W} {sink : Sink W} {log : EventLog} (hsink : env.events = some sink)
    (hgoes : env.GoesOn) (hcalm : Undisturbed env w)
    (hlog : (run env (env.start w)).2.inside.log = some log)
    (hstop : ∃ e ∈ log.events, e.kind = .runStopped) : AllEnded env log := by
  have hcalmSink : env.calm.events = some _ := congrArg (Option.map _) hsink
  have hshut := run_shut hcalmSink env.staysCalm hgoes w
  have hsame : run env.calm (env.calm.start w) = run env (env.start w) := hcalm.symm
  rw [hsame] at hshut
  refine Shut.settled ?_ (run_history hgoes w log hlog).paired
  rcases hshut with h | h
  · exact h log hlog
  · obtain ⟨e, he, hkind⟩ := hstop
    exact absurd hkind (h log hlog e he)

end

/-! ## A run in which nothing happens, and one that is out of tool calls -/

theorem Exc.calm_of_not_isStop {e : Exc} (h : e.isStop = false) : e.calm = e :=
  if_neg (Bool.eq_false_iff.mp h)

theorem calmly_eq {σ α : Type} {m : Eff Exc σ α}
    (h : ∀ s, m.wp (fun _ _ ↦ True) (fun e _ ↦ e.isStop = false) s) : calmly m = m :=
  Eff.handle_eq_self fun s e t hs ↦ by
    rw [Exc.calm_of_not_isStop ((h s).of_raise hs)]
    rfl

/-- A setting that stays calm is not disturbed. -/
theorem StaysCalm.undisturbed {env : Setting W} (h : StaysCalm env) (w : W) :
    Undisturbed env w := by
  have hdigest : calmly env.callDigest = env.callDigest := calmly_eq h.callDigest
  have hadapter : (env.modelAdapter.map fun adapter ↦
      { adapter with execute := fun input ↦ calmly (adapter.execute input) }) =
        env.modelAdapter := by
    cases hsome : env.modelAdapter with
    | none => rfl
    | some adapter =>
      have hexecute : (fun input ↦ calmly (adapter.execute input)) = adapter.execute :=
        funext fun input ↦ calmly_eq (h.execute adapter hsome input)
      rw [Option.map_some, hexecute]
  have hevents : (env.events.map fun sink e ↦ (sink e).handle fun x ↦
      if e.startsCall env.mask .modelCall then return () else Eff.raise x.calm) = env.events := by
    cases hsome : env.events with
    | none => rfl
    | some sink =>
      refine congrArg some (funext fun e ↦ Eff.handle_eq_self fun s x t hs ↦ ?_)
      obtain ⟨hx, hmodel⟩ := (h.events sink hsome e s).of_raise hs
      rw [hmodel, if_neg Bool.false_ne_true, Exc.calm_of_not_isStop hx]
      rfl
  have hsame : env.calm = env := by rw [Setting.calm, hdigest, hadapter, hevents]
  rw [Undisturbed, hsame]

/-- A machine with a model that answers, and a log that keeps what it is told. -/
def answeringSetting : Setting Unit :=
  { loggedSetting with
    modelAdapter := some
      { execute := fun _ ↦ return some ⟨some (str "answer"), none, none, [], none⟩
        name := str "model"
        idempotent := false } }

theorem staysCalm_answering : StaysCalm answeringSetting where
  execute adapter hadapter input s := by
    obtain rfl := Option.some.inj hadapter
    exact trivial
  callDigest w := trivial
  events sink hsink e w := by
    obtain rfl := Option.some.inj hsink
    exact trivial

/-- The run of that machine stops, and its call is closed. -/
theorem stopped_closed_answering :
    ∃ log, (run answeringSetting (answeringSetting.start ())).2.inside.log = some log ∧
      (∃ e ∈ log.events, e.kind = .callStarted) ∧ AllEnded answeringSetting log := by
  have hrun : ((run answeringSetting (answeringSetting.start ())).2.inside.log.map fun log ↦
      decide ((∃ e ∈ log.events, e.kind = .callStarted) ∧ ∃ e ∈ log.events, e.kind = .runStopped)) =
        some true := by decide +kernel
  obtain ⟨log, hlog, hkinds⟩ := Option.map_eq_some_iff.mp hrun
  obtain ⟨hcall, hstop⟩ := of_decide_eq_true hkinds
  have hsink : answeringSetting.events = some fun _ ↦ return () := rfl
  exact ⟨log, hlog, hcall, stopped_closed hsink nofun (staysCalm_answering.undisturbed ()) hlog
    hstop⟩

theorem aWholeMinute : (0 : ℚ) < 60 := by decide

/-- A machine whose model asks for a tool when no tool call is left. -/
def outOfCallsSetting : Setting Unit :=
  { loggedSetting with
    tools := true
    limits := some ⟨60, 1, 0, 1000, 1000, aWholeMinute⟩
    modelAdapter := some
      { execute := fun _ s ↦ (.error (.budgetExceeded (str "tool_calls")),
          { s with toolCalls := [⟨str "read_file", true, some .denied⟩] })
        name := str "model"
        idempotent := false } }

/-- Its run stops, and the call of the model is left open. -/
theorem outOfCalls_open :
    ¬ ∀ (W : Type) (env : Setting W) (w : W) (sink : Sink W) (log : EventLog),
      env.events = some sink → env.GoesOn → (run env (env.start w)).2.inside.log = some log →
        (∃ e ∈ log.events, e.kind = .runStopped) →
          ClosedOnce env.mask (env.resumeRecords.getD []).length log.events := by
  intro h
  have hrun : ((run outOfCallsSetting (outOfCallsSetting.start ())).2.inside.log.map fun log ↦
      decide ((∃ e ∈ log.events, e.kind = .runStopped) ∧
        ¬ ClosedOnce noMasking 0 log.events)) = some true := by decide +kernel
  obtain ⟨log, hlog, hkinds⟩ := Option.map_eq_some_iff.mp hrun
  obtain ⟨hstop, hopen⟩ := of_decide_eq_true hkinds
  exact hopen (h Unit outOfCallsSetting () (fun _ ↦ return ()) log rfl nofun hlog hstop)

end AtlasCore
