import AtlasCore.Gateway.Civil
import AtlasCore.Gateway.Tidy

/-!
# Every attempt is closed

`invoke` and `invoke_write` start a call in the log for each attempt, and there are about twenty
places at which an attempt may end.  All of them finish the call, but one: the validator of the
input is only asked for a `ToolSchemaError`, and what else it raises passes by.  A schema in which
it can raise that is no obstacle to a `ToolDefinition`.
-/

set_option autoImplicit false

namespace AtlasCore

open Py

variable {H Ref τ : Type}

/-! ## The attempts of a call

What the log says of one attempt, and of the attempts of a call together: each is started once and
finished once, with the outcome that the handler had. -/

/-- An attempt was logged between `s` and `t`: it was started, it is finished with this outcome, and
it is denied only if its handler was not entered. -/
structure Trial (gateway : Gateway H Ref τ) (number : Option ℕ) (outcome : CallOutcome)
    (s t : Floor H τ) : Prop where
  ended : ∃ log log', gateway.log s = some log ∧ gateway.log t = some log' ∧
    log.Ended outcome log'
  denied : outcome = .denied → ∀ tool capability value,
    .entered tool capability value number ∉ t.notes.drop s.notes.length

/-- The attempts between `s` and `t`, one after the other, ended like this. -/
inductive Tried (gateway : Gateway H Ref τ) (number : Option ℕ) :
    List CallOutcome → Floor H τ → Floor H τ → Prop where
  | nil {s t : Floor H τ} (h : gateway.log t = gateway.log s) : Tried gateway number [] s t
  | cons {outcome : CallOutcome} {outcomes : List CallOutcome} {s t u : Floor H τ}
      (h : Trial gateway number outcome s t) (hrest : Tried gateway number outcomes t u) :
      Tried gateway number (outcome :: outcomes) s u

/-- The last attempt went well, and no other. -/
def Returned (gateway : Gateway H Ref τ) (number : Option ℕ) (s t : Floor H τ) : Prop :=
  ∃ earlier, .ok ∉ earlier ∧ Tried gateway number (earlier ++ [.ok]) s t

/-- No attempt went well: each was refused or failed, and the call came back with an exception. -/
def Raised (gateway : Gateway H Ref τ) (number : Option ℕ) (s t : Floor H τ) : Prop :=
  ∃ outcomes, .ok ∉ outcomes ∧ Tried gateway number outcomes s t

/-- Every call that was started between `s` and `t` is finished once. -/
def FinishedOnce (gateway : Gateway H Ref τ) (s t : Floor H τ) : Prop :=
  ∀ log log', gateway.log s = some log → gateway.log t = some log' →
    ∀ e ∈ log'.events.drop log.events.length, e.kind = .callStarted →
      (EventLog.endsOf e.callId log'.events).length = 1

/-- However a call of a gateway with a log ends, every call that was started by then is finished
once, and the last attempt is logged as `ok` exactly where its result is returned. -/
structure CallsEnd (gateway : Gateway H Ref τ) (calls : Calls H Ref τ) : Prop where
  invoke : ∀ name arguments s, InService gateway s → (gateway.log s).isSome →
    (calls.invoke name arguments).wp
      (fun _ t ↦ Returned gateway none s t ∧ FinishedOnce gateway s t)
      (fun _ t ↦ Raised gateway none s t ∧ FinishedOnce gateway s t) s
  invokeWrite : ∀ name arguments token iteration s, InService gateway s → (gateway.log s).isSome →
    (calls.invokeWrite name arguments token iteration).wp
      (fun _ t ↦ Returned gateway (some s.calls) s t ∧ FinishedOnce gateway s t)
      (fun _ t ↦ Raised gateway (some s.calls) s t ∧ FinishedOnce gateway s t) s

section
variable {gateway : Gateway H Ref τ} {number : Option ℕ} {s t u : Floor H τ}
  {outcome : CallOutcome}

theorem Trial.tidy (h : Trial gateway number outcome s t) : Tidy gateway s t := by
  obtain ⟨log, log', hlog, hlog', hended⟩ := h.ended
  rw [Tidy, hlog, hlog']
  exact .some hended.settles

theorem Tried.tidy {outcomes : List CallOutcome} (h : Tried gateway number outcomes s t) :
    Tidy gateway s t := by
  induction h with
  | nil h => exact .of_log_eq h
  | cons h _ ih => exact h.tidy.trans ih

theorem Trial.returned (h : Trial gateway number .ok s t) : Returned gateway number s t :=
  ⟨[], List.not_mem_nil, .cons h (.nil rfl)⟩

theorem Returned.cons (hne : outcome ≠ .ok) (h : Trial gateway number outcome s t)
    (hrest : Returned gateway number t u) : Returned gateway number s u := by
  obtain ⟨earlier, hok, htried⟩ := hrest
  exact ⟨outcome :: earlier, List.not_mem_cons_of_ne_of_not_mem hne.symm hok, .cons h htried⟩

theorem Raised.nil (h : gateway.log t = gateway.log s) : Raised gateway number s t :=
  ⟨[], List.not_mem_nil, .nil h⟩

theorem Raised.cons (hne : outcome ≠ .ok) (h : Trial gateway number outcome s t)
    (hrest : Raised gateway number t u) : Raised gateway number s u := by
  obtain ⟨outcomes, hok, htried⟩ := hrest
  exact ⟨outcome :: outcomes, List.not_mem_cons_of_ne_of_not_mem hne.symm hok, .cons h htried⟩

theorem Returned.tidy (h : Returned gateway number s t) : Tidy gateway s t := by
  obtain ⟨_, _, htried⟩ := h
  exact htried.tidy

theorem Raised.tidy (h : Raised gateway number s t) : Tidy gateway s t := by
  obtain ⟨_, _, htried⟩ := h
  exact htried.tidy

/-- What is started in a tidy gateway is finished once. -/
theorem InService.finishedOnce (hs : InService gateway s) (h : Tidy gateway s t) :
    FinishedOnce gateway s t := by
  intro log log' hlog hlog' e he hkind
  obtain ⟨log'', hlog'', more, rfl, hmore⟩ := h.exists_log hlog
  obtain rfl := Option.some.inj (hlog'.symm.trans hlog'')
  rw [List.drop_left] at he
  obtain ⟨k, hk, -, hid⟩ := hmore.started he hkind
  have hold : EventLog.endsOf e.callId log.events = [] := by
    refine List.filter_eq_nil_iff.mpr fun f hf hend ↦ ?_
    obtain ⟨k', hk', heq⟩ := hs.numbered log hlog f hf _ ((of_decide_eq_true hend).2.trans hid)
    have := log.callIdAt_injective heq
    omega
  have hone := hmore.length_endsOf log.callIdAt_injective e he hkind
  rw [EventLog.endsOf] at hold hone ⊢
  rw [List.filter_append, hold, List.nil_append, hone]

/-- A gateway whose calls end is tidy. -/
theorem CallsEnd.tidy {calls : Calls H Ref τ} (h : CallsEnd gateway calls)
    (hsafe : CallsSafe calls) (hfollow : CallsFollow gateway calls) : CallsTidy gateway calls := by
  -- without a log there is none afterwards
  have hnone : ∀ {s t : Floor H τ}, gateway.log s = none → Follows gateway s t →
      Tidy gateway s t := by
    intro s t hlog hfollows
    have hextends := hfollows.log
    rw [hlog] at hextends
    refine .of_log_eq ?_
    cases hlog' : gateway.log t with
    | none => rw [hlog]
    | some log' =>
      rw [hlog'] at hextends
      exact hextends.elim
  refine ⟨hsafe, fun name arguments s hs ↦ ?_, fun name arguments token iteration s hs ↦ ?_⟩
  · cases hlog : gateway.log s with
    | none =>
      exact (hfollow.invoke s name arguments s hs.follows).mono (fun _ _ h ↦ hnone hlog h)
        fun _ _ h ↦ hnone hlog h
    | some log =>
      exact (h.invoke name arguments s hs (by rw [hlog]; rfl)).mono (fun _ _ h ↦ h.1.tidy)
        fun _ _ h ↦ h.1.tidy
  · cases hlog : gateway.log s with
    | none =>
      exact (hfollow.invokeWrite s name arguments token iteration s hs.follows).mono
        (fun _ _ h ↦ hnone hlog h) fun _ _ h ↦ hnone hlog h
    | some log =>
      exact (h.invokeWrite name arguments token iteration s hs (by rw [hlog]; rfl)).mono
        (fun _ _ h ↦ h.1.tidy) fun _ _ h ↦ h.1.tidy

end

/-! ## A call under way

What a log holds of a call between its start and its end, while others are started and finished
inside it. -/

/-- An outcome carries no secret. -/
theorem Masking.text_outcome (mask : Masking) (outcome : CallOutcome) :
    mask.text outcome.text = outcome.text := by
  cases outcome with
  | ok => exact mask.text_ok
  | denied => exact mask.text_plain _ (by decide)
  | failed => exact mask.text_plain _ (by decide)

/-- The call at the end of `log` was started, and all that was started since is finished. -/
structure InHand (gateway : Gateway H Ref τ) (log : EventLog) (t : Floor H τ) : Prop where
  service : InService gateway t
  ongoing : ∃ log', gateway.log t = some log' ∧ log.Ongoing log'

section
variable {gateway : Gateway H Ref τ} {log : EventLog} {s t u : Floor H τ}

/-- Whatever is called, the call stays under way. -/
theorem InHand.later (h : InHand gateway log t) (hgood : Good u.core) (htidy : Tidy gateway t u) :
    InHand gateway log u := by
  obtain ⟨log', hlog', hongoing⟩ := h.ongoing
  obtain ⟨log'', hlog'', hsettles⟩ := htidy.exists_log hlog'
  exact ⟨h.service.tidy hgood htidy, log'', hlog'', hongoing.settles hsettles⟩

theorem indifferent_inHand (c : Core τ) :
    Indifferent fun t : Floor H τ ↦ t.core = c ∧ InHand gateway log t :=
  ⟨fun _ _ h ↦ ⟨h.1, indifferent_inService.world _ _ h.2.service, h.2.ongoing⟩,
    fun _ _ h ↦ ⟨h.1, indifferent_inService.budget _ _ h.2.service, h.2.ongoing⟩,
    fun _ _ h ↦ ⟨h.1, indifferent_inService.route _ _ h.2.service, h.2.ongoing⟩⟩

variable (hsink : EventLog.Takes gateway.sink)
include hsink

/-- A call is started and under way, or it is not in the log. -/
theorem wp_startCall_inHand (hs : InService gateway s) (hlog : gateway.log s = some log)
    (tool : Option (ToolDefinition H Ref τ)) (name : Str) (callInput : Eff Exc H (Option Str))
    (attempt : ℕ) :
    (gateway.startCall tool name callInput attempt).wp
      (fun call t ↦ call = some (log.callIdAt log.events.length) ∧ t.core = s.core ∧
        InHand gateway log t)
      (fun _ t ↦ gateway.log t = some log) s := by
  rw [Gateway.startCall, Eff.wp_bind, Eff.wp_read, hlog]
  simp only
  rw [Eff.wp_bind, Gateway.onLog, Eff.wp_zoom]
  refine (EventLog.wp_startCall_taken hsink).mono (fun id p h ↦ ?_) fun _ p hp ↦ ?_
  · obtain ⟨hid, hongoing⟩ := h
    have hcore : (gateway.setLog p.2 { s with desk := { s.desk with world := p.1 } }).core =
        s.core := core_setLog _ _
    refine ⟨congrArg some hid, hcore, ⟨hcore ▸ hs.good, fun log' hlog' ↦ ?_⟩, p.2,
      Gateway.log_setLog _ _, hongoing⟩
    rw [Gateway.log_setLog] at hlog'
    exact Option.some.inj hlog' ▸ hongoing.numbered (hs.numbered log hlog)
  · rw [Gateway.log_setLog, hp]

/-- The call that is under way is finished. -/
theorem wp_finish_inHand (hnew : EventLog.NoEnd log) (h : InHand gateway log t)
    (outcome : CallOutcome) (error : Option Str) :
    (gateway.finish (some (log.callIdAt log.events.length)) outcome error).wp
      (fun _ u ↦ u.core = t.core ∧ ∃ log', gateway.log u = some log' ∧ log.Ended outcome log')
      (fun _ _ ↦ False) t := by
  obtain ⟨log', hlog', hongoing⟩ := h.ongoing
  rw [Gateway.finish, Eff.wp_bind, Eff.wp_read, hlog']
  show (gateway.onLog log' _).wp _ _ t
  rw [Gateway.onLog, Eff.wp_zoom]
  refine (EventLog.wp_finishCall_taken hsink hongoing hnew (gateway.mask.text_outcome _)).mono
    (fun _ p hp ↦ ?_) fun _ _ h ↦ h
  exact ⟨core_setLog _ _, p.2, Gateway.log_setLog _ _,
    hongoing.ended (gateway.mask.text_outcome _) hp⟩

/-- An attempt that is under way and did not come to its handler is denied. -/
theorem wp_deny_inHand {α : Type} {number : Option ℕ} (hs : InService gateway s)
    (hlog : gateway.log s = some log) (h : InHand gateway log t)
    (hnot : ∀ tool capability value,
      .entered tool capability value number ∉ t.notes.drop s.notes.length)
    (reason : Str) (e : Exc) :
    (gateway.deny (some (log.callIdAt log.events.length)) reason e : FloorM H τ α).wp
      (fun _ _ ↦ False) (fun _ u ↦ Raised gateway number s u) t := by
  rw [Gateway.deny, Eff.wp_bind]
  refine (wp_finish_inHand hsink (hs.numbered log hlog).noEnd h .denied _).mono
    (fun _ u hu ↦ ?_) fun _ _ h ↦ h.elim
  obtain ⟨hcore, log', hlog', hended⟩ := hu
  have hnotes : u.notes = t.notes := congrArg Core.notes hcore
  exact .cons (by decide) ⟨⟨log, log', hlog, hlog', hended⟩, fun _ ↦ hnotes ▸ hnot⟩ (.nil rfl)

end

/-! ## The attempts of `invoke`

Each attempt is a call of its own in the log, and is finished before the next one starts. -/

section
variable {gateway : Gateway H Ref τ} {calls : Calls H Ref τ} (hcivil : Civil gateway)
  (hcalls : CallsTidy gateway calls) {log : EventLog} {s t : Floor H τ}
include hcivil hcalls

/-- An attempt whose call is in hand, if those that follow it end well. -/
theorem wp_attemptOnce {tool : ToolDefinition H Ref τ} (htool : ∃ p ∈ gateway.tools, p.2 = tool)
    (hread : tool.capability = .read) {name : Str} {arguments : Ref} {left attempt : ℕ}
    (hrest : ∀ call u, InService gateway u → (gateway.log u).isSome →
      (gateway.invokeAttempts calls tool name arguments left (attempt + 1) call).wp
        (fun _ v ↦ Returned gateway none u v) (fun _ v ↦ Raised gateway none u v) u)
    (hs : InService gateway s) (hlog : gateway.log s = some log) (hcore : t.core = s.core)
    (ht : InHand gateway log t) :
    (gateway.attemptOnce calls tool name arguments left attempt
      (some (log.callIdAt log.events.length))).wp
      (fun _ u ↦ Returned gateway none s u) (fun _ u ↦ Raised gateway none s u) t := by
  have hsink := hcivil.sink
  have hnew := (hs.numbered log hlog).noEnd
  rw [Gateway.attemptOnce, Eff.wp_bind, Eff.wp_attempt]
  refine (((indifferent_inHand s.core).keeps_onBudget _ t ⟨hcore, ht⟩).and
    (hcivil.reserveTool t)).mono (fun _ t₁ hreserved ↦ ?_) fun e t₁ hrefused ↦ ?_
  · obtain ⟨⟨hcore₁, h₁⟩, -⟩ := hreserved
    have hsince : Since s.core t₁ := ⟨hcore₁ ▸ hs.good, hcore₁ ▸ .refl _⟩
    have hmay : ∀ s' : Floor H τ, s'.core = t₁.core →
        MayEnter s.core tool (.shared arguments) none s' := fun s' hs' ↦
      mayEnter_read hread (show Since s.core s' by rw [Since, hs']; exact hsince) _
    rw [Eff.wp_bind, Eff.wp_attempt]
    refine ((wp_carryOut hcalls.safe hsince hmay).and
      ((tidy_carryOut hcalls h₁.service hmay).and (hcivil.carryOut htool t₁))).mono
      (fun result t₂ hcarried ↦ ?_) fun e t₂ hfailed ↦ ?_
    · obtain ⟨hsince₂, htidy, -⟩ := hcarried
      rw [Eff.wp_bind]
      refine (wp_finish_inHand hsink hnew (h₁.later hsince₂.1 htidy) .ok _).mono
        (fun _ u hu ↦ ?_) fun _ _ h ↦ h.elim
      obtain ⟨-, log', hlog', hended⟩ := hu
      exact Trial.returned ⟨⟨log, log', hlog, hlog', hended⟩, fun h ↦ by cases h⟩
    · obtain ⟨hsince₂, htidy, he⟩ := hfailed
      refine Eff.wp_ite.mpr ⟨fun hnot ↦ absurd (hnot.symm.trans he) (by decide), fun _ ↦ ?_⟩
      rw [Eff.wp_bind]
      refine (wp_finish_inHand hsink hnew (h₁.later hsince₂.1 htidy) .failed _).mono
        (fun _ u hu ↦ ?_) fun _ _ h ↦ h.elim
      obtain ⟨hcore₃, log', hlog', hended⟩ := hu
      have htrial : Trial gateway none .failed s u :=
        ⟨⟨log, log', hlog, hlog', hended⟩, fun h ↦ by cases h⟩
      refine Eff.wp_ite.mpr ⟨fun _ ↦ ?_, fun _ ↦ .cons (by decide) htrial (.nil rfl)⟩
      -- the next attempt finds the gateway in service
      have hu : InService gateway u := hs.tidy (hcore₃ ▸ hsince₂.1) htrial.tidy
      exact (hrest _ u hu (by rw [hlog']; rfl)).mono (fun _ _ h ↦ h.cons (by decide) htrial)
        fun _ _ h ↦ h.cons (by decide) htrial
  · obtain ⟨⟨hcore₁, h₁⟩, he⟩ := hrefused
    refine Eff.wp_ite.mpr ⟨fun _ ↦ ?_, fun hnot ↦ absurd he hnot⟩
    refine (wp_deny_inHand hsink hs hlog h₁ (fun _ _ _ ↦ ?_) _ e).mono (fun _ _ h ↦ h.elim)
      fun _ _ h ↦ h
    have hnotes : t₁.notes = s.notes := congrArg Core.notes hcore₁
    rw [hnotes, List.drop_length]
    exact List.not_mem_nil

theorem wp_invokeAttempts {tool : ToolDefinition H Ref τ}
    (htool : ∃ p ∈ gateway.tools, p.2 = tool) (hread : tool.capability = .read) (name : Str)
    (arguments : Ref) :
    ∀ (left attempt : ℕ), 1 < attempt → ∀ (first : Option Str) (s : Floor H τ),
      InService gateway s → (gateway.log s).isSome →
        (gateway.invokeAttempts calls tool name arguments left attempt first).wp
          (fun _ t ↦ Returned gateway none s t) (fun _ t ↦ Raised gateway none s t) s
  | 0, _, _, _, _, _, _ => .nil rfl
  | left + 1, attempt, hattempt, first, s, hs, hsome => by
    obtain ⟨log, hlog⟩ := Option.isSome_iff_exists.mp hsome
    rw [Gateway.invokeAttempts_succ, if_pos hattempt, Eff.wp_bind]
    refine (wp_startCall_inHand hcivil.sink hs hlog _ _ _ _).mono
      (fun call t ⟨hcall, hcore, ht⟩ ↦ ?_) fun _ t ht ↦ .nil (ht.trans hlog.symm)
    rw [hcall]
    exact wp_attemptOnce hcivil hcalls htool hread
      (wp_invokeAttempts htool hread name arguments left (attempt + 1) (by omega)) hs hlog hcore ht

end

/-! ## Up to the input schema

The part of a call before its first attempt, where it can only be denied. -/

namespace Gateway

variable (gateway : Gateway H Ref τ) (calls : Calls H Ref τ)

/-- `invoke` up to the validation of its arguments: the call, and why it is denied before that, or
the tool with the arguments and what they contain. -/
def arriveRead (name : Str) (arguments : Option Ref) :
    FloorM H τ (Option Str × Except (Str × Exc) (ToolDefinition H Ref τ × Ref × PyVal)) := do
  onBudget (RunBudget.check gateway.meter)
  let callInput : Eff Exc H (Option Str) :=
    match arguments with
    | some r => some <$> gateway.digest r
    | none => return none
  let call ← gateway.startCall (gateway.tool name) name callInput 1
  match gateway.tool name with
  | none => return (call, .error (str "tool not registered", .toolDenied))
  | some tool =>
    if tool.capability ≠ .read then
      return (call, .error (str "capability not allowed in read-only run", .toolDenied))
    else if allowsRoute tool (← Eff.read).route = false then
      return (call, .error (str "tool not allowed for route", .toolDenied))
    else
      let given ← match arguments with
        | some r => pure r
        | none => gateway.new (.dict [])
      let v ← gateway.content given
      if v.isStringKeyed = false then return (call, .error (str "TypeError", .typeError))
      else return (call, .ok (tool, given, v))

/-- `invoke` from there on: what it was given is checked against the schema of the tool, and then
the attempts begin. -/
def goOnRead (name : Str)
    (arrival : Option Str × Except (Str × Exc) (ToolDefinition H Ref τ × Ref × PyVal)) :
    FloorM H τ Ref :=
  match arrival.2 with
  | .error (reason, e) => gateway.deny arrival.1 reason e
  | .ok (tool, given, v) =>
    match v.validateSchema gateway.equal tool.inputSchema with
    | .error .toolSchemaError => gateway.deny arrival.1 (str "ToolSchemaError") .toolSchemaError
    | .error e => Eff.raise e
    | .ok _ => gateway.invokeAttempts calls tool name given tool.maxAttempts 1 arrival.1

/-- `invoke_write` up to the validation of its arguments, with the number of the call. -/
def arriveWrite (name : Str) (arguments : Ref) :
    FloorM H τ (ℕ × Option Str × Except (Str × Exc) (WriteRequest H Ref τ)) := do
  let number ← begin
  onBudget (RunBudget.check gateway.meter)
  let given ← gateway.content arguments
  let snapshot ← Eff.ofExcept (gateway.takeSnapshot given)
  let call ← gateway.startCall (gateway.tool name) name
    (gateway.writeInput arguments given snapshot) 1
  let s ← Eff.read
  return (number, call, gateway.admitCall name given.isStringKeyed snapshot s.route)

/-- `invoke_write` from there on: what was approved is checked against the schema of the tool, and
then spent. -/
def goOnWrite (name token : Str) (iteration : ℤ)
    (arrival : ℕ × Option Str × Except (Str × Exc) (WriteRequest H Ref τ)) : FloorM H τ Ref :=
  match arrival.2.2 with
  | .error (reason, e) => gateway.deny arrival.2.1 reason e
  | .ok request =>
    match PyVal.validateSchema gateway.equal (.ofJson request.2.2.2) request.1.inputSchema with
    | .error .toolSchemaError => gateway.deny arrival.2.1 (str "ToolSchemaError") .toolSchemaError
    | .error e => Eff.raise e
    | .ok _ => gateway.approve calls name token iteration request arrival.1 arrival.2.1

variable {gateway calls}

theorem invoke_eq (name : Str) (arguments : Option Ref) :
    gateway.invoke calls name arguments =
      gateway.arriveRead name arguments >>= gateway.goOnRead calls name := by
  unfold invoke arriveRead
  simp only [bind_assoc]
  congr 1; funext _
  congr 1; funext call
  cases gateway.tool name with
  | none => rfl
  | some tool =>
    by_cases hread : tool.capability = .read
    · simp only [hread, ne_eq, not_true_eq_false, if_false, bind_assoc]
      congr 1; funext s
      by_cases hroute : allowsRoute tool s.route = false
      · simp only [if_pos hroute]
        rfl
      · simp only [if_neg hroute]
        have hend : ∀ (given : Ref) (v : PyVal),
            (if v.isStringKeyed = false then gateway.deny call (str "TypeError") .typeError
              else
                match v.validateSchema gateway.equal tool.inputSchema with
                | .error .toolSchemaError =>
                  gateway.deny call (str "ToolSchemaError") .toolSchemaError
                | .error e => Eff.raise e
                | .ok _ => gateway.invokeAttempts calls tool name given tool.maxAttempts 1 call) =
              (if v.isStringKeyed = false then
                  return (call, .error (str "TypeError", .typeError))
                else return (call, .ok (tool, given, v))) >>= gateway.goOnRead calls name := by
          intro given v
          by_cases hkeys : v.isStringKeyed = false
          · simp only [if_pos hkeys]
            rfl
          · simp only [if_neg hkeys]
            rfl
        cases arguments with
        | none =>
          simp only [bind_assoc]
          congr 1; funext given
          congr 1; funext v
          exact hend given v
        | some r =>
          simp only [bind_assoc, pure_bind]
          congr 1; funext v
          exact hend r v
    · simp only [ne_eq, hread, not_false_eq_true, if_true]
      rfl

theorem invokeWrite_eq_arrive (name : Str) (arguments : Ref) (token : Str) (iteration : ℤ) :
    gateway.invokeWrite calls name arguments token iteration =
      gateway.arriveWrite name arguments >>= gateway.goOnWrite calls name token iteration := by
  unfold invokeWrite arriveWrite
  simp only [bind_assoc, pure_bind]
  congr 1; funext number
  congr 1; funext _
  congr 1; funext given
  congr 1; funext snapshot
  congr 1; funext call
  rw [writeStarted]
  congr 1; funext s
  rw [goOnWrite]
  cases gateway.admitCall name given.isStringKeyed snapshot s.route with
  | error p => rfl
  | ok p => rfl

/-- What is found under a name is registered. -/
theorem mem_of_tool {name : Str} {tool : ToolDefinition H Ref τ}
    (h : gateway.tool name = some tool) : ∃ p ∈ gateway.tools, p.2 = tool := by
  obtain ⟨p, hp, rfl⟩ := Option.map_eq_some_iff.mp h
  exact ⟨p, List.mem_of_find?_eq_some hp, rfl⟩

/-- Only what is registered is let through. -/
theorem of_admitCall {name : Str} {wellFormed : Bool} {snapshot : Option Json}
    {route : Option Str} {request : WriteRequest H Ref τ}
    (h : gateway.admitCall name wellFormed snapshot route = .ok request) :
    gateway.tool name = some request.1 ∧ request.1.describe = some request.2.1 ∧
      gateway.approvals = some request.2.2.1 := by
  rw [admitCall] at h
  cases htool : gateway.tool name with
  | none =>
    rw [htool] at h
    cases h
  | some tool =>
    rw [htool] at h
    simp only at h
    split at h
    · rename_i hdescribe
      split at h
      · cases h
      · rename_i happrovals
        split_ifs at h
        split at h
        · cases h
        · cases h
          exact ⟨rfl, hdescribe, happrovals⟩
    · cases h

end Gateway

section
variable {gateway : Gateway H Ref τ} (hcivil : Civil gateway) {log : EventLog} {s : Floor H τ}
  (hs : InService gateway s) (hlog : gateway.log s = some log)
include hcivil hs hlog

/-- The call is in hand when its arguments are validated, or it is not in the log. -/
theorem wp_arriveRead (name : Str) (arguments : Option Ref) :
    (gateway.arriveRead name arguments).wp
      (fun p t ↦ p.1 = some (log.callIdAt log.events.length) ∧ t.core = s.core ∧
        InHand gateway log t ∧ ∀ tool given v, p.2 = .ok (tool, given, v) →
          (∃ q ∈ gateway.tools, q.2 = tool) ∧ tool.capability = .read)
      (fun _ t ↦ gateway.log t = some log) s := by
  have hbefore : Indifferent fun t : Floor H τ ↦
      t.core = s.core ∧ InService gateway t ∧ gateway.log t = some log :=
    ⟨fun _ _ h ↦ ⟨h.1, indifferent_inService.world _ _ h.2.1, h.2.2⟩,
      fun _ _ h ↦ ⟨h.1, indifferent_inService.budget _ _ h.2.1, h.2.2⟩,
      fun _ _ h ↦ ⟨h.1, indifferent_inService.route _ _ h.2.1, h.2.2⟩⟩
  have hI : Indifferent fun t : Floor H τ ↦ t.core = s.core ∧ InHand gateway log t :=
    indifferent_inHand s.core
  unfold Gateway.arriveRead
  rw [Eff.wp_bind]
  refine (hbefore.keeps_onBudget _ s ⟨rfl, hs, hlog⟩).mono (fun _ s₁ ⟨hcore₁, hs₁, hlog₁⟩ ↦ ?_)
    fun _ _ h ↦ h.2.2
  rw [Eff.wp_bind]
  refine (wp_startCall_inHand hcivil.sink hs₁ hlog₁ _ _ _ _).mono
    (fun call t ⟨hcall, hcore, ht⟩ ↦ ?_) fun _ _ h ↦ h
  have hcore := hcore.trans hcore₁
  cases htool : gateway.tool name with
  | none => exact ⟨hcall, hcore, ht, nofun⟩
  | some tool =>
    refine Eff.wp_ite.mpr ⟨fun _ ↦ ⟨hcall, hcore, ht, nofun⟩, fun hread ↦ ?_⟩
    refine Eff.wp_bind.mpr (Eff.wp_read.mpr (Eff.wp_ite.mpr
      ⟨fun _ ↦ ⟨hcall, hcore, ht, nofun⟩, fun _ ↦ ?_⟩))
    have hend : ∀ (given : Ref) (u : Floor H τ), u.core = s.core ∧ InHand gateway log u → (do
        let v ← gateway.content given
        if v.isStringKeyed = false then
          return (call, .error (str "TypeError", .typeError))
        else return (call, .ok (tool, given, v)) : FloorM H τ (Option Str ×
          Except (Str × Exc) (ToolDefinition H Ref τ × Ref × PyVal))).wp
        (fun p t ↦ p.1 = some (log.callIdAt log.events.length) ∧ t.core = s.core ∧
          InHand gateway log t ∧ ∀ tool given v, p.2 = .ok (tool, given, v) →
            (∃ q ∈ gateway.tools, q.2 = tool) ∧ tool.capability = .read)
        (fun _ t ↦ gateway.log t = some log) u := by
      rintro given u ⟨hcore', hu⟩
      refine Eff.wp_bind.mpr (Eff.wp_bind.mpr (Eff.wp_read.mpr (Eff.wp_pure.mpr
        (Eff.wp_ite.mpr ⟨fun _ ↦ ⟨hcall, hcore', hu, nofun⟩, fun _ ↦ ⟨hcall, hcore', hu, ?_⟩⟩))))
      rintro tool' given' v' ⟨⟩
      exact ⟨Gateway.mem_of_tool htool, not_not.mp hread⟩
    cases arguments with
    | some r => exact hend r t ⟨hcore, ht⟩
    | none =>
      refine Eff.wp_bind.mpr (Eff.wp_bind.mpr (Eff.wp_read.mpr (Eff.wp_bind.mpr
        (Eff.wp_update.mpr (Eff.wp_pure.mpr ?_)))))
      exact hend _ _ (hI.world t _ ⟨hcore, ht⟩)

theorem wp_arriveWrite (name : Str) (arguments : Ref) :
    (gateway.arriveWrite name arguments).wp
      (fun p t ↦ p.1 = s.calls ∧ p.2.1 = some (log.callIdAt log.events.length) ∧
        Unspent s.core t ∧ InHand gateway log t ∧ ∀ request, p.2.2 = .ok request →
          (∃ q ∈ gateway.tools, q.2 = request.1) ∧ request.1.describe = some request.2.1 ∧
            gateway.approvals = some request.2.2.1 ∧ request.1.capability = .write)
      (fun _ t ↦ gateway.log t = some log) s := by
  let J : Floor H τ → Prop := fun t ↦
    Unspent s.core t ∧ InService gateway t ∧ gateway.log t = some log
  have hI : Indifferent J :=
    ⟨fun _ _ h ↦
      ⟨(indifferent_unspent _).world _ _ h.1, indifferent_inService.world _ _ h.2.1, h.2.2⟩,
      fun _ _ h ↦
        ⟨(indifferent_unspent _).budget _ _ h.1, indifferent_inService.budget _ _ h.2.1, h.2.2⟩,
      fun _ _ h ↦
        ⟨(indifferent_unspent _).route _ _ h.1, indifferent_inService.route _ _ h.2.1, h.2.2⟩⟩
  have hbegin : (Gateway.begin : FloorM H τ ℕ).wp (fun _ t ↦ gateway.log t = some log)
      (fun _ _ ↦ False) s := hlog
  rw [Gateway.arriveWrite, Eff.wp_bind]
  refine ((wp_begin hs.good).and hbegin).mono (fun number s₁ ⟨⟨hnumber, hunspent⟩, hlog₁⟩ ↦ ?_)
    fun _ _ h ↦ h.1.elim
  have h₁ : J s₁ :=
    ⟨hunspent, hs.tidy hunspent.since.1 (.of_log_eq (hlog₁.trans hlog.symm)), hlog₁⟩
  rw [Eff.wp_bind]
  refine (hI.keeps_onBudget _ s₁ h₁).mono (fun _ s₂ h₂ ↦ ?_) fun _ _ h ↦ h.2.2
  rw [Eff.wp_bind]
  refine (keeps_content arguments s₂ h₂).mono (fun given s₃ h₃ ↦ ?_) fun _ _ h ↦ h.2.2
  rw [Eff.wp_bind]
  refine (Eff.Keeps.ofExcept _ s₃ h₃).mono (fun snapshot s₄ h₄ ↦ ?_) fun _ _ h ↦ h.2.2
  have hkeeps : Eff.Keeps (Unspent s.core) (gateway.startCall (gateway.tool name) name
      (gateway.writeInput arguments given snapshot) 1) :=
    keeps_unspent (fun c ↦ keeps_startCall c _ _ _ 1) s.core
  rw [Eff.wp_bind]
  refine ((wp_startCall_inHand hcivil.sink h₄.2.1 h₄.2.2 _ _ _ _).and (hkeeps s₄ h₄.1)).mono
    (fun call t ⟨⟨hcall, _, ht⟩, hunspent⟩ ↦ ?_) fun _ _ h ↦ h.1
  refine ⟨hnumber, hcall, hunspent, ht, fun request hrequest ↦ ?_⟩
  obtain ⟨htool, hdescribe, happrovals⟩ := Gateway.of_admitCall hrequest
  exact ⟨Gateway.mem_of_tool htool, hdescribe, happrovals, Gateway.capability_of_admitCall hrequest⟩

variable {calls : Calls H Ref τ} (hcalls : CallsTidy gateway calls) {t : Floor H τ}
include hcalls

/-- A call of `invoke` ends well if the validator of its input raises nothing else. -/
theorem wp_goOnRead {name : Str} {p : Option Str ×
      Except (Str × Exc) (ToolDefinition H Ref τ × Ref × PyVal)}
    (hcall : p.1 = some (log.callIdAt log.events.length)) (hcore : t.core = s.core)
    (ht : InHand gateway log t)
    (hadmitted : ∀ tool given v, p.2 = .ok (tool, given, v) →
      (∃ q ∈ gateway.tools, q.2 = tool) ∧ tool.capability = .read)
    (hvalid : ∀ tool given v, p.2 = .ok (tool, given, v) → ∀ e,
      v.validateSchema gateway.equal tool.inputSchema = .error e → e = .toolSchemaError) :
    (gateway.goOnRead calls name p).wp (fun _ u ↦ Returned gateway none s u)
      (fun _ u ↦ Raised gateway none s u) t := by
  have hnot : ∀ tool capability value,
      Note.entered tool capability value none ∉ t.notes.drop s.notes.length := by
    intro _ _ _
    rw [show t.notes = s.notes from congrArg Core.notes hcore, List.drop_length]
    exact List.not_mem_nil
  have hdeny : ∀ reason e, (gateway.deny (some (log.callIdAt log.events.length)) reason e :
      FloorM H τ Ref).wp (fun _ u ↦ Returned gateway none s u)
        (fun _ u ↦ Raised gateway none s u) t := fun reason e ↦
    (wp_deny_inHand hcivil.sink hs hlog ht hnot reason e).mono (fun _ _ h ↦ h.elim) fun _ _ h ↦ h
  rw [Gateway.goOnRead, hcall]
  cases hp : p.2 with
  | error failure => exact hdeny failure.1 failure.2
  | ok request =>
    obtain ⟨tool, given, v⟩ := request
    obtain ⟨htool, hread⟩ := hadmitted tool given v hp
    cases hv : v.validateSchema gateway.equal tool.inputSchema with
    | error e =>
      obtain rfl := hvalid tool given v hp e hv
      simp only [hv]
      exact hdeny _ _
    | ok _ =>
      simp only [hv]
      -- there is a first attempt
      obtain ⟨left, hleft⟩ := Nat.exists_eq_succ_of_ne_zero
        (Nat.one_le_iff_ne_zero.mp tool.tried)
      rw [hleft, Gateway.invokeAttempts_succ, if_neg (Nat.lt_irrefl 1), pure_bind]
      exact wp_attemptOnce hcivil hcalls htool hread
        (fun call u hu hsome ↦ wp_invokeAttempts hcivil hcalls htool hread name given left 2
          (Nat.lt_succ_self 1) call u hu hsome) hs hlog hcore ht

omit hcalls in
/-- A write that has failed before its handler is denied. -/
theorem wp_refuse_inHand {e : Exc} (he : e.isException = true) (ht : InHand gateway log t)
    (hnot : ∀ tool capability value, .entered tool capability value (some s.calls) ∉ t.notes) :
    (gateway.refuse (some (log.callIdAt log.events.length)) e).wp
      (fun _ u ↦ Returned gateway (some s.calls) s u)
      (fun _ u ↦ Raised gateway (some s.calls) s u) t := by
  rw [Gateway.refuse]
  refine Eff.wp_ite.mpr ⟨fun _ ↦ ?_, fun h ↦ absurd he h⟩
  exact (wp_deny_inHand hcivil.sink hs hlog ht
    (fun _ _ _ h ↦ hnot _ _ _ (List.mem_of_mem_drop h)) _ e).mono (fun _ _ h ↦ h.elim)
      fun _ _ h ↦ h

/-- A write whose approval is spent and that is reserved. -/
theorem wp_write_inHand {request : Gateway.WriteRequest H Ref τ}
    (htool : ∃ q ∈ gateway.tools, q.2 = request.1) (hwrite : request.1.capability = .write)
    (hspent : Spent s.core (.ofJson request.2.2.2) t) (ht : InHand gateway log t) :
    (gateway.write calls request s.calls (some (log.callIdAt log.events.length))).wp
      (fun _ u ↦ Returned gateway (some s.calls) s u)
      (fun _ u ↦ Raised gateway (some s.calls) s u) t := by
  have hnew := (hs.numbered log hlog).noEnd
  have hmay : ∀ s' : Floor H τ, s'.core = t.core →
      MayEnter s.core request.1 (.own (.ofJson request.2.2.2)) (some s.calls) s' := by
    intro s' hs' value hvalue s'' heq
    have hnotes : s'.notes = t.notes := congrArg Core.notes hs'
    rw [hs', hnotes] at heq
    exact hspent.mayEnter hwrite value hvalue s'' heq
  rw [Gateway.write, Eff.wp_bind, Eff.wp_attempt]
  refine ((wp_carryOut hcalls.safe hspent.since hmay).and
    ((tidy_carryOut hcalls ht.service hmay).and (hcivil.carryOut htool t))).mono
    (fun result t₁ hcarried ↦ ?_) fun e t₁ hfailed ↦ ?_
  · obtain ⟨hsince, htidy, -⟩ := hcarried
    refine Eff.wp_bind.mpr ((wp_finish_inHand hcivil.sink hnew (ht.later hsince.1 htidy) .ok _).mono
      (fun _ u hu ↦ ?_) fun _ _ h ↦ h.elim)
    obtain ⟨-, log', hlog', hended⟩ := hu
    exact Trial.returned ⟨⟨log, log', hlog, hlog', hended⟩, fun h ↦ by cases h⟩
  · obtain ⟨hsince, htidy, he⟩ := hfailed
    refine Eff.wp_ite.mpr ⟨fun _ ↦ ?_, fun h ↦ absurd he h⟩
    refine Eff.wp_bind.mpr ((wp_finish_inHand hcivil.sink hnew (ht.later hsince.1 htidy)
      .failed _).mono (fun _ u hu ↦ ?_) fun _ _ h ↦ h.elim)
    obtain ⟨-, log', hlog', hended⟩ := hu
    exact .cons (by decide) ⟨⟨log, log', hlog, hlog', hended⟩, fun h ↦ by cases h⟩ (.nil rfl)

/-- A request that was let through. -/
theorem wp_approve_inHand {name token : Str} {iteration : ℤ}
    {request : Gateway.WriteRequest H Ref τ} (htool : ∃ q ∈ gateway.tools, q.2 = request.1)
    (hdescribe : request.1.describe = some request.2.1)
    (hoffice : gateway.approvals = some request.2.2.1) (hwrite : request.1.capability = .write)
    (hunspent : Unspent s.core t) (ht : InHand gateway log t) :
    (gateway.approve calls name token iteration request s.calls
      (some (log.callIdAt log.events.length))).wp
      (fun _ u ↦ Returned gateway (some s.calls) s u)
      (fun _ u ↦ Raised gateway (some s.calls) s u) t := by
  -- until the write is reserved, its handler was not entered
  let J : Floor H τ → Prop := fun u ↦
    ∀ tool capability value, Note.entered tool capability value (some s.calls) ∉ u.notes
  have hspendFor : ∀ operation, Eff.Keeps J
      (Gateway.spendFor request.2.2.1 token operation iteration s.calls) := by
    refine fun operation ↦ Eff.Keeps.read_bind fun u hu ↦ Eff.wp_bind.mpr (Eff.wp_zoom.mpr ?_)
    refine (Eff.wp_true _ _).mono (fun id d _ ↦ ?_) fun _ _ _ ↦ hu
    cases u.desk.approvals.get id with
    | none => exact hu
    | some item =>
      intro tool capability value h
      rcases List.mem_append.mp h with h | h
      · exact hu tool capability value h
      · cases List.mem_singleton.mp h
  have hrefuse : ∀ {e : Exc} {u : Floor H τ}, e.isException = true → InHand gateway log u → J u →
      (gateway.refuse (some (log.callIdAt log.events.length)) e).wp
        (fun _ v ↦ Returned gateway (some s.calls) s v)
        (fun _ v ↦ Raised gateway (some s.calls) s v) u := fun he hu hnot ↦
    wp_refuse_inHand hcivil hs hlog he hu hnot
  rw [Gateway.approve, Eff.wp_bind, Eff.wp_attempt, Eff.wp_bind]
  refine ((wp_describeCall hcalls.safe hunspent).and
    ((tidy_describeCall hcalls ht.service name request.2.1 request.2.2.2 s.calls).and
      (hcivil.describeCall htool hdescribe t))).mono
    (fun operation t₁ hreturned ↦ ?_) fun e t₁ hraised ↦ ?_
  · obtain ⟨⟨h₁, hdescribed⟩, htidy₁, -⟩ := hreturned
    have ht₁ := ht.later h₁.since.1 htidy₁
    have htidies : (Gateway.spendFor request.2.2.1 token operation iteration s.calls).wp
        (fun _ ↦ Tidy gateway t₁) (fun _ ↦ Tidy gateway t₁) t₁ := tidy_spendFor _ _ _ _ _ _
    refine ((wp_spendFor h₁ hdescribed).and (htidies.and
      ((hspendFor operation t₁ fun _ _ _ ↦ h₁.not_entered).and (hcivil.spendFor hoffice t₁)))).mono
      (fun _ t₂ hspent ↦ ?_) fun e t₂ hkept ↦ ?_
    · obtain ⟨h₂, htidy₂, hnot, -⟩ := hspent
      have ht₂ := ht₁.later h₂.since.1 htidy₂
      have hI : Indifferent fun u : Floor H τ ↦ (u.core = t₂.core ∧ InHand gateway log u) ∧
          Spent s.core (.ofJson request.2.2.2) u ∧ J u :=
        ⟨fun _ _ h ↦ ⟨(indifferent_inHand _).world _ _ h.1,
            (indifferent_spent _ _).world _ _ h.2.1, h.2.2⟩,
          fun _ _ h ↦ ⟨(indifferent_inHand _).budget _ _ h.1,
            (indifferent_spent _ _).budget _ _ h.2.1, h.2.2⟩,
          fun _ _ h ↦ ⟨(indifferent_inHand _).route _ _ h.1,
            (indifferent_spent _ _).route _ _ h.2.1, h.2.2⟩⟩
      refine Eff.wp_bind.mpr (Eff.wp_attempt.mpr ?_)
      refine ((hI.keeps_onBudget _ t₂ ⟨⟨rfl, ht₂⟩, h₂, hnot⟩).and (hcivil.reserveTool t₂)).mono
        (fun _ t₃ hreserved ↦ ?_) fun e t₃ hrefused ↦ ?_
      · obtain ⟨⟨⟨-, ht₃⟩, h₃, -⟩, -⟩ := hreserved
        exact wp_write_inHand hcivil hs hlog hcalls htool hwrite h₃ ht₃
      · obtain ⟨⟨⟨-, ht₃⟩, -, hnot⟩, he⟩ := hrefused
        exact hrefuse he ht₃ hnot
    · obtain ⟨h₂, htidy₂, hnot, he⟩ := hkept
      exact hrefuse he (ht₁.later h₂.1 htidy₂) hnot
  · obtain ⟨h₁, htidy₁, he⟩ := hraised
    exact hrefuse he (ht.later h₁.since.1 htidy₁) fun _ _ _ ↦ h₁.not_entered

/-- A call of `invoke_write` ends well if the validator of its input raises nothing else. -/
theorem wp_goOnWrite {name token : Str} {iteration : ℤ}
    {p : ℕ × Option Str × Except (Str × Exc) (Gateway.WriteRequest H Ref τ)}
    (hnumber : p.1 = s.calls) (hcall : p.2.1 = some (log.callIdAt log.events.length))
    (hunspent : Unspent s.core t) (ht : InHand gateway log t)
    (hadmitted : ∀ request, p.2.2 = .ok request → (∃ q ∈ gateway.tools, q.2 = request.1) ∧
      request.1.describe = some request.2.1 ∧ gateway.approvals = some request.2.2.1 ∧
        request.1.capability = .write)
    (hvalid : ∀ request, p.2.2 = .ok request → ∀ e,
      PyVal.validateSchema gateway.equal (.ofJson request.2.2.2) request.1.inputSchema = .error e →
        e = .toolSchemaError) :
    (gateway.goOnWrite calls name token iteration p).wp
      (fun _ u ↦ Returned gateway (some s.calls) s u)
      (fun _ u ↦ Raised gateway (some s.calls) s u) t := by
  have hdeny : ∀ reason e, (gateway.deny (some (log.callIdAt log.events.length)) reason e :
      FloorM H τ Ref).wp (fun _ u ↦ Returned gateway (some s.calls) s u)
        (fun _ u ↦ Raised gateway (some s.calls) s u) t := fun reason e ↦
    (wp_deny_inHand hcivil.sink hs hlog ht
      (fun _ _ _ h ↦ hunspent.not_entered (List.mem_of_mem_drop h)) reason e).mono
        (fun _ _ h ↦ h.elim) fun _ _ h ↦ h
  rw [Gateway.goOnWrite, hcall, hnumber]
  cases hp : p.2.2 with
  | error failure => exact hdeny failure.1 failure.2
  | ok request =>
    obtain ⟨htool, hdescribe, hoffice, hwrite⟩ := hadmitted request hp
    cases hv : PyVal.validateSchema gateway.equal (.ofJson request.2.2.2) request.1.inputSchema with
    | error e =>
      obtain rfl := hvalid request hp e hv
      simp only [hv]
      exact hdeny _ _
    | ok _ =>
      simp only [hv]
      exact wp_approve_inHand hcivil hs hlog hcalls htool hdescribe hoffice hwrite hunspent ht

end

/-! ## Where the validator raises something else

What the validator raises besides its own error is not caught, and leaves the call that is being
made open. -/

/-- When a call of a gateway with a log has come to the validation of its arguments, the validator
of the input schema accepts them or raises a `ToolSchemaError`. -/
structure AlwaysValidates (gateway : Gateway H Ref τ) : Prop where
  read : ∀ name arguments s call tool given v t, InService gateway s → (gateway.log s).isSome →
    gateway.arriveRead name arguments s = (.ok (call, .ok (tool, given, v)), t) →
      ∀ e, v.validateSchema gateway.equal tool.inputSchema = .error e → e = .toolSchemaError
  write : ∀ name arguments s number call request t, InService gateway s → (gateway.log s).isSome →
    gateway.arriveWrite name arguments s = (.ok (number, call, .ok request), t) →
      ∀ e, PyVal.validateSchema gateway.equal (.ofJson request.2.2.2) request.1.inputSchema =
        .error e → e = .toolSchemaError

section
variable {gateway : Gateway H Ref τ} {s t : Floor H τ} {log : EventLog}

/-- A call that is left in hand is not finished. -/
theorem InHand.not_finishedOnce (h : InHand gateway log t) (hs : InService gateway s)
    (hlog : gateway.log s = some log) : ¬ FinishedOnce gateway s t := by
  intro honce
  obtain ⟨log', hlog', hongoing⟩ := h.ongoing
  have hopen := (hongoing.opened_not_ended (hs.numbered log hlog).noEnd).2
  obtain ⟨⟨started, inner, hsplit, hkind, hid, -⟩, -⟩ := hongoing
  have hmem : started ∈ log'.events.drop log.events.length := by
    rw [hsplit, List.drop_left]
    exact List.mem_cons_self
  have hnone : EventLog.endsOf started.callId log'.events = [] := by
    refine List.filter_eq_nil_iff.mpr fun f hf hend ↦ ?_
    obtain ⟨hkind', hcall⟩ := of_decide_eq_true hend
    exact hopen f hf hkind' (hcall.trans hid)
  have := honce log log' hlog hlog' started hmem hkind
  rw [hnone] at this
  cases this

/-- Over a tidy gateway, every call ends well if every validation does. -/
theorem callsEnd_of_tidy (hcivil : Civil gateway) (hvalid : AlwaysValidates gateway)
    {calls : Calls H Ref τ} (hcalls : CallsTidy gateway calls) :
    CallsEnd gateway ⟨gateway.invoke calls, gateway.invokeWrite calls⟩ := by
  refine ⟨fun name arguments s hs hsome ↦ ?_, fun name arguments token iteration s hs hsome ↦ ?_⟩
  · obtain ⟨log, hlog⟩ := Option.isSome_iff_exists.mp hsome
    show (gateway.invoke calls name arguments).wp _ _ s
    rw [Gateway.invoke_eq, Eff.wp_bind]
    refine ((Eff.wp_run _ s).and (wp_arriveRead hcivil hs hlog name arguments)).mono
      (fun p t ⟨hrun, hcall, hcore, ht, hadmitted⟩ ↦ ?_) fun _ t ⟨_, ht⟩ ↦ ?_
    · refine (wp_goOnRead hcivil hs hlog hcalls hcall hcore ht hadmitted
        fun tool given v hp ↦ ?_).mono (fun _ _ h ↦ ⟨h, hs.finishedOnce h.tidy⟩)
          fun _ _ h ↦ ⟨h, hs.finishedOnce h.tidy⟩
      obtain ⟨call, admitted⟩ := p
      obtain rfl : admitted = .ok (tool, given, v) := hp
      exact hvalid.read name arguments s call tool given v t hs hsome hrun
    · have hraised : Raised gateway none s t := .nil (ht.trans hlog.symm)
      exact ⟨hraised, hs.finishedOnce hraised.tidy⟩
  · obtain ⟨log, hlog⟩ := Option.isSome_iff_exists.mp hsome
    show (gateway.invokeWrite calls name arguments token iteration).wp _ _ s
    rw [Gateway.invokeWrite_eq_arrive, Eff.wp_bind]
    refine ((Eff.wp_run _ s).and (wp_arriveWrite hcivil hs hlog name arguments)).mono
      (fun p t ⟨hrun, hnumber, hcall, hunspent, ht, hadmitted⟩ ↦ ?_) fun _ t ⟨_, ht⟩ ↦ ?_
    · refine (wp_goOnWrite hcivil hs hlog hcalls hnumber hcall hunspent ht hadmitted
        fun request hp ↦ ?_).mono (fun _ _ h ↦ ⟨h, hs.finishedOnce h.tidy⟩)
          fun _ _ h ↦ ⟨h, hs.finishedOnce h.tidy⟩
      obtain ⟨number, call, admitted⟩ := p
      obtain rfl : admitted = .ok request := hp
      exact hvalid.write name arguments s number call request t hs hsome hrun
    · have hraised : Raised gateway (some s.calls) s t := .nil (ht.trans hlog.symm)
      exact ⟨hraised, hs.finishedOnce hraised.tidy⟩

theorem callsEnd_callsAt (hcivil : Civil gateway) (hvalid : AlwaysValidates gateway) :
    ∀ depth, CallsEnd gateway (gateway.callsAt depth)
  | 0 => by
    refine ⟨fun name arguments s hs _ ↦ ?_, fun name arguments token iteration s hs _ ↦ ?_⟩
    · exact ⟨.nil rfl, hs.finishedOnce (.refl s)⟩
    · exact ⟨.nil rfl, hs.finishedOnce (.refl s)⟩
  | depth + 1 =>
    callsEnd_of_tidy hcivil hvalid ((callsEnd_callsAt hcivil hvalid depth).tidy
      (callsSafe_callsAt depth) (callsFollow_callsAt depth))

/-- **Every attempt is closed in every run, exactly where the validator of the input raises nothing
but a `ToolSchemaError`.** -/
theorem attempts_closed_iff (hcivil : Civil gateway) :
    (∀ depth, CallsEnd gateway (gateway.callsAt depth)) ↔ AlwaysValidates gateway := by
  refine ⟨fun h ↦ ⟨?_, ?_⟩, callsEnd_callsAt hcivil⟩
  · intro name arguments s call tool given v t hs hsome harrive e hv
    by_contra hne
    obtain ⟨log, hlog⟩ := Option.isSome_iff_exists.mp hsome
    -- what the validator raised leaves the call as it was
    have hrun : gateway.invoke (gateway.callsAt 0) name arguments s = (.error e, t) := by
      rw [Gateway.invoke_eq, Eff.bind_of_ok harrive, Gateway.goOnRead]
      simp only [hv]
      cases e with
      | toolSchemaError => exact absurd rfl hne
      | _ => rfl
    exact ((wp_arriveRead hcivil hs hlog name arguments).of_run harrive).2.2.1.not_finishedOnce hs
      hlog (((h 1).invoke name arguments s hs hsome).of_raise hrun).2
  · intro name arguments s number call request t hs hsome harrive e hv
    by_contra hne
    obtain ⟨log, hlog⟩ := Option.isSome_iff_exists.mp hsome
    have hrun : gateway.invokeWrite (gateway.callsAt 0) name arguments [] 0 s = (.error e, t) := by
      rw [Gateway.invokeWrite_eq_arrive, Eff.bind_of_ok harrive, Gateway.goOnWrite]
      simp only [hv]
      cases e with
      | toolSchemaError => exact absurd rfl hne
      | _ => rfl
    exact ((wp_arriveWrite hcivil hs hlog name arguments).of_run harrive).2.2.2.1.not_finishedOnce
      hs hlog (((h 1).invokeWrite name arguments [] 0 s hs hsome).of_raise hrun).2

end

/-! ## Two gateways

A gateway whose schema can be evaluated on everything, and one whose schema cannot. -/

/-- An empty schema accepts everything. -/
theorem PyVal.validateSchema_nil (equal : PyVal → PyVal → Bool) (v : PyVal) :
    PyVal.validateSchema equal v [] = .ok () := by
  have hentries : ∀ entries, PyVal.validateEntries equal entries [] = .ok () := by
    intro entries
    induction entries with
    | nil => rfl
    | cons p rest ih =>
      obtain ⟨k, v⟩ := p
      cases k with
      | str key => exact ih
      | _ => exact ih
  cases v with
  | dict entries => exact hentries entries
  | _ => rfl

theorem sampleGateway_civil : Civil sampleGateway where
  handler := by
    intro p hp r
    rcases List.mem_cons.mp hp with rfl | hp
    · exact trivial
    · rw [List.mem_singleton.mp hp]
      exact fun _ ↦ trivial
  describe := by
    intro p hp describe hdescribe r
    rcases List.mem_cons.mp hp with rfl | hp
    · cases hdescribe
      exact trivial
    · rw [List.mem_singleton.mp hp] at hdescribe
      cases hdescribe
  clock := Eff.Raises.pure _
  cancelled := Eff.Raises.pure _
  monotonic := Eff.Raises.pure _
  childEnd := fun _ _ h ↦ by rcases h with h | h <;> cases h
  office := by
    rintro office ⟨⟩
    exact ⟨fun _ ↦ Eff.Raises.pure _, Eff.Raises.pure _, Eff.Raises.pure _,
      fun _ ↦ Eff.Raises.pure _⟩
  sink := fun _ ↦ Eff.Raises.pure _

theorem sampleGateway_alwaysValidates : AlwaysValidates sampleGateway := by
  have hschema : ∀ q ∈ sampleGateway.tools, q.2.inputSchema = [] := by
    intro q hq
    rcases List.mem_cons.mp hq with rfl | hq
    · rfl
    · rw [List.mem_singleton.mp hq]
      rfl
  refine ⟨fun name arguments s call tool given v t hs hsome harrive e hv ↦ ?_,
    fun name arguments s number call request t hs hsome harrive e hv ↦ ?_⟩
  · obtain ⟨log, hlog⟩ := Option.isSome_iff_exists.mp hsome
    obtain ⟨⟨q, hq, rfl⟩, -⟩ := ((wp_arriveRead sampleGateway_civil hs hlog name arguments).of_run
      harrive).2.2.2 tool given v rfl
    rw [hschema q hq, PyVal.validateSchema_nil] at hv
    cases hv
  · obtain ⟨log, hlog⟩ := Option.isSome_iff_exists.mp hsome
    obtain ⟨⟨q, hq, heq⟩, -⟩ := ((wp_arriveWrite sampleGateway_civil hs hlog name
      arguments).of_run harrive).2.2.2.2 request rfl
    rw [← heq, hschema q hq, PyVal.validateSchema_nil] at hv
    cases hv

/-- In the sample gateway, every attempt is closed. -/
theorem attempts_closed_sample : Civil sampleGateway ∧
    ∀ depth, CallsEnd sampleGateway (sampleGateway.callsAt depth) :=
  ⟨sampleGateway_civil, (attempts_closed_iff sampleGateway_civil).mpr sampleGateway_alwaysValidates⟩

/-- A tool whose arguments are to be a date, which is no type of a schema. -/
def datedTool : ToolDefinition Store ℕ ℕ :=
  { probeTool with
    name := str "calendar"
    handler := fun r ↦ .ret r
    inputSchema := [(str "type", .str (str "date"))]
    sandbox := .inProcess
    named := by decide }

/-- The sample gateway with that tool and no other. -/
def datedGateway : Gateway Store ℕ ℕ :=
  { sampleGateway with
    tools := [(str "calendar", datedTool)]
    registered := fun p hp ↦ by rw [List.mem_singleton.mp hp]; rfl }

theorem datedGateway_civil : Civil datedGateway :=
  { sampleGateway_civil with
    handler := fun p hp r ↦ by
      rw [List.mem_singleton.mp hp]
      exact trivial
    describe := fun p hp describe hdescribe r ↦ by
      rw [List.mem_singleton.mp hp] at hdescribe
      cases hdescribe }

/-- The sample state with a log, which is empty. -/
def loggedFloor : Floor Store ℕ :=
  { sampleFloor with desk := { sampleFloor.desk with log := some ⟨str "run", []⟩ } }

/-- The call of the calendar is in the log, and it is not finished: what the validator raises is no
`ToolSchemaError`. -/
theorem datedGateway_open : Civil datedGateway ∧
    ¬ ∀ depth, CallsEnd datedGateway (datedGateway.callsAt depth) := by
  refine ⟨datedGateway_civil, fun h ↦ ?_⟩
  have hs : InService datedGateway loggedFloor :=
    inService_of_new ⟨rfl, rfl⟩ fun log hlog ↦ by cases hlog; rfl
  have hends := (h 1).invoke (str "calendar") (some 0) loggedFloor hs rfl
  have honce : FinishedOnce datedGateway loggedFloor
      ((datedGateway.callsAt 1).invoke (str "calendar") (some 0) loggedFloor).2 :=
    (hends.mono (fun _ _ h ↦ h.2) fun _ _ h ↦ h.2).left
  have hrun : (datedGateway.log
      ((datedGateway.callsAt 1).invoke (str "calendar") (some 0) loggedFloor).2).any (fun log ↦
        log.events.any fun e ↦ e.kind = .callStarted &&
          (EventLog.endsOf e.callId log.events).length = 0) = true := by decide
  obtain ⟨log', hlog', hany⟩ := (Option.any_eq_true _ _).mp hrun
  obtain ⟨e, he, hopen⟩ := List.any_eq_true.mp hany
  rw [Bool.and_eq_true, decide_eq_true_eq, decide_eq_true_eq] at hopen
  have := honce ⟨str "run", []⟩ log' rfl hlog' e he hopen.1
  rw [hopen.2] at this
  cases this

end AtlasCore
