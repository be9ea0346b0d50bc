import AtlasCore.Gateway.Follows
import AtlasCore.Gateway.Writes

/-!
# What a denied write leaves behind

`invoke_write` logs a call as denied at about ten places.  At most of them nothing has been touched,
but `describe` is code of the host, and two of them come after the approval was spent: the record of
that may fail, and the budget may refuse the call.  Then the token is gone, and nothing was written.
-/

set_option autoImplicit false

namespace AtlasCore

open Py

variable {H Ref τ : Type}

namespace Gateway

/-! ## `invoke_write` in two parts

Up to the first question to the host a call can only be denied; after it, anything may have
happened. The two parts are one after the other, and are proved about one after the other. -/

/-- What a write is asked for with: the tool, its `describe`, the authority and the copy of the
arguments. -/
abbrev WriteRequest (H Ref τ : Type) :=
  ToolDefinition H Ref τ × (Ref → Prog H Ref τ Operation) × Office H τ × Json

/-- What `invoke_write` knows before it asks anything of the host: the number of the call, its id in
the log, and the request, or how it ends (with the reason for which it is denied, if it is). -/
structure Prepared (H Ref τ : Type) where
  number : ℕ
  call : Option Str
  request : Except (Option Str × Exc) (WriteRequest H Ref τ)

variable (gateway : Gateway H Ref τ)

/-- All the checks before anything of the host is asked. -/
def examine (name : Str) (wellFormed : Bool) (snapshot : Option Json) (route : Option Str) :
    Except (Option Str × Exc) (WriteRequest H Ref τ) :=
  match gateway.admitCall name wellFormed snapshot route with
  | .error (reason, e) => .error (some reason, e)
  | .ok (tool, describe, office, j) =>
    match PyVal.validateSchema gateway.equal (.ofJson j) tool.inputSchema with
    | .error .toolSchemaError => .error (some (str "ToolSchemaError"), .toolSchemaError)
    | .error e => .error (none, e)
    | .ok _ => .ok (tool, describe, office, j)

/-- The first part of `invoke_write`: everything that comes before the approval is looked at, with
the reason where something refuses. -/
def prepare (name : Str) (arguments : Ref) : FloorM H τ (Prepared H Ref τ) := do
  let number ← begin
  onBudget (RunBudget.check gateway.meter)
  let given ← gateway.content arguments
  let snapshot ← Eff.ofExcept (gateway.takeSnapshot given)
  let call ← gateway.startCall (gateway.tool name) name
    (gateway.writeInput arguments given snapshot) 1
  let s ← Eff.read
  return ⟨number, call, gateway.examine name given.isStringKeyed snapshot s.route⟩

variable (calls : Calls H Ref τ)

/-- A call that failed before the handler: it is denied, where it was an `Exception`. -/
def refuse (call : Option Str) (e : Exc) : FloorM H τ Ref :=
  if e.isException then gateway.deny call (gateway.typeName e) e else Eff.raise e

/-- The handler, once the approval is spent and the call is reserved. -/
def write (request : WriteRequest H Ref τ) (number : ℕ) (call : Option Str) : FloorM H τ Ref := do
  let written ← Eff.attempt
    (gateway.carryOut calls request.1 (.own (.ofJson request.2.2.2)) (some number))
  match written with
  | .ok result =>
    gateway.finish call .ok none
    return result
  | .error e =>
    if e.isException then
      gateway.finish call .failed (some (gateway.typeName e))
      Eff.raise e
    else Eff.raise e

/-- The second part of `invoke_write`, for a request. -/
def approve (name token : Str) (iteration : ℤ) (request : WriteRequest H Ref τ) (number : ℕ)
    (call : Option Str) : FloorM H τ Ref := do
  let approved ← Eff.attempt do
    let operation ← gateway.describeCall calls name request.2.1 request.2.2.2 number
    spendFor request.2.2.1 token operation iteration number
  match approved with
  | .error e => gateway.refuse call e
  | .ok _ =>
    match ← Eff.attempt (onBudget (RunBudget.reserveTool gateway.meter)) with
    | .error e => gateway.refuse call e
    | .ok _ => gateway.write calls request number call

/-- The second part of `invoke_write`: what was refused is logged and raised, and anything else goes
to the authority. -/
def proceed (name token : Str) (iteration : ℤ) (p : Prepared H Ref τ) : FloorM H τ Ref :=
  match p.request with
  | .error (some reason, e) => gateway.deny p.call reason e
  | .error (none, e) => Eff.raise e
  | .ok request => gateway.approve calls name token iteration request p.number p.call

variable {gateway calls}

/-- **`invoke_write` is its two parts, one after the other.** -/
theorem invokeWrite_eq (name : Str) (arguments : Ref) (token : Str) (iteration : ℤ) :
    gateway.invokeWrite calls name arguments token iteration =
      gateway.prepare name arguments >>= gateway.proceed calls name token iteration := by
  unfold invokeWrite prepare
  simp only [bind_assoc, pure_bind]
  congr 1; funext number
  congr 1; funext _
  congr 1; funext given
  congr 1; funext snapshot
  congr 1; funext call
  rw [writeStarted]
  congr 1; funext s
  rw [proceed, examine]
  cases gateway.admitCall name given.isStringKeyed snapshot s.route with
  | error p => rfl
  | ok p =>
    obtain ⟨tool, describe, office, j⟩ := p
    simp only [writeAdmitted]
    cases PyVal.validateSchema gateway.equal (.ofJson j) tool.inputSchema with
    | error e => cases e <;> rfl
    | ok _ => rfl

end Gateway

variable {gateway : Gateway H Ref τ}

/-! ## Denied, and nothing changed

What it means that a call was denied, and what is to be as it was when it was. -/

/-- The next call in the log of `s` was logged as denied by the time of `s'`. -/
def Denied (gateway : Gateway H Ref τ) (s s' : Floor H τ) : Prop :=
  ∃ log log', gateway.log s = some log ∧ gateway.log s' = some log' ∧
    ∃ e ∈ log'.events.drop log.events.length, e.kind = .callFinished ∧
      e.callId = some (log.callIdAt log.events.length) ∧
      getOrNull e.payload "outcome" = .str CallOutcome.denied.text

/-- The call of `invoke_write` that began at `s` ran no handler, and the approvals are what they
were. -/
structure NothingChanged (s s' : Floor H τ) : Prop where
  approvals : s'.desk.approvals = s.desk.approvals
  handler : ∀ tool capability value, Note.entered tool capability value (some s.calls) ∉ s'.notes

/-- The gateway as its own operations leave it. -/
structure InService (gateway : Gateway H Ref τ) (s : Floor H τ) : Prop where
  good : Good s.core
  numbered : ∀ log, gateway.log s = some log → log.Numbered

theorem InService.follows {s : Floor H τ} (h : InService gateway s) : Follows gateway s s where
  keyed := h.good.keyed
  spent := fun _ h ↦ h
  log := by
    cases hlog : gateway.log s with
    | none => exact trivial
    | some log => exact ⟨h.numbered log hlog, .refl log⟩

/-- The log at `t` when it had `log` at the start of the call: the call was started, and is not
finished. -/
structure Running (log log' : EventLog) : Prop where
  named : log.runId ≠ []
  since : LogSince log log'
  started : ∃ e ∈ log'.events, e.kind = .callStarted ∧
    e.callId = some (log.callIdAt log.events.length)
  unfinished : ∀ e ∈ log'.events, e.kind = .callFinished →
    e.callId ≠ some (log.callIdAt log.events.length)

theorem not_denied_of_unfinished {s s' : Floor H τ} {log : EventLog}
    (hlog : gateway.log s = some log)
    (h : ∀ log', gateway.log s' = some log' →
      ∀ e ∈ log'.events.drop log.events.length, e.kind = .callFinished →
        e.callId = some (log.callIdAt log.events.length) →
          getOrNull e.payload "outcome" ≠ .str CallOutcome.denied.text) :
    ¬ Denied gateway s s' := by
  rintro ⟨log₁, log', hlog₁, hlog', e, he, hkind, hid, houtcome⟩
  obtain rfl := Option.some.inj (hlog.symm.trans hlog₁)
  exact h log' hlog' e he hkind hid houtcome

theorem Running.not_denied {s s' : Floor H τ} {log log' : EventLog} (h : Running log log')
    (hlog : gateway.log s = some log) (hlog' : gateway.log s' = some log') :
    ¬ Denied gateway s s' := by
  refine not_denied_of_unfinished hlog fun log'' hlog'' e he hkind hid ↦ ?_
  obtain rfl := Option.some.inj (hlog'.symm.trans hlog'')
  exact absurd hid (h.unfinished e (List.mem_of_mem_drop he) hkind)

/-- The call is still running after whatever was called since it was started. -/
theorem Running.follows {log log' : EventLog} {t t' : Floor H τ} (h : Running log log')
    (hlog : gateway.log t = some log') (hlength : log.events.length < log'.events.length)
    (hfollows : Follows gateway t t') : ∃ log'', gateway.log t' = some log'' ∧
      Running log log'' := by
  have hextends := hfollows.log
  rw [hlog] at hextends
  cases hlog'' : gateway.log t' with
  | none =>
    rw [hlog''] at hextends
    exact hextends.elim
  | some log'' =>
    rw [hlog''] at hextends
    obtain ⟨-, hrun, more, hmore, hnew⟩ := hextends
    obtain ⟨before, hbefore, hold⟩ := h.since.events
    refine ⟨log'', rfl, h.named, ⟨hrun.trans h.since.runId, before ++ more, ?_, ?_⟩, ?_, ?_⟩
    · rw [hmore, hbefore, List.append_assoc]
    · intro e he id hid
      rcases List.mem_append.mp he with he | he
      · exact hold e he id hid
      · obtain ⟨k, hk, hid⟩ := hnew e he id hid
        exact ⟨k, hlength.le.trans hk, hid.trans (h.since.callIdAt k)⟩
    · obtain ⟨e, he, hstarted⟩ := h.started
      exact ⟨e, hmore ▸ List.mem_append_left _ he, hstarted⟩
    · intro e he hkind hid
      rw [hmore] at he
      rcases List.mem_append.mp he with he | he
      · exact h.unfinished e he hkind hid
      · obtain ⟨k, hk, hid'⟩ := hnew e he _ hid
        rw [h.since.callIdAt] at hid'
        have := log.callIdAt_injective hid'
        omega

/-! ## How a call ends in the log

What the log says of a call is what it was finished with, and it is finished once. -/

/-- A running call that is finished as denied is denied, and nothing else happens. -/
theorem wp_deny {α : Type} {s t : Floor H τ} {log log' : EventLog} (hlog : gateway.log s = some log)
    (hlog' : gateway.log t = some log') (h : Running log log') (reason : Str) (e : Exc) :
    (gateway.deny (some (log.callIdAt log.events.length)) reason e : FloorM H τ α).wp
      (fun _ _ ↦ False)
      (fun _ t' ↦ Denied gateway s t' ∧ t'.desk.approvals = t.desk.approvals ∧ t'.notes = t.notes)
      t := by
  have hne : log.callIdAt log.events.length ≠ [] := by
    rw [EventLog.callIdAt, ne_eq, List.append_eq_nil_iff, List.append_eq_nil_iff]
    exact fun h' ↦ h.named h'.1.1
  have hplain : gateway.mask.text CallOutcome.denied.text = CallOutcome.denied.text :=
    gateway.mask.text_plain _ (by decide)
  have hend : ∀ p : H × EventLog,
      EventLog.Finishes gateway.mask (log.callIdAt log.events.length) .denied log' p.2 →
      Denied gateway s
          (gateway.setLog p.2 { t with desk := { t.desk with world := p.1 } }) ∧
        (gateway.setLog p.2 { t with desk := { t.desk with world := p.1 } }).desk.approvals =
          t.desk.approvals ∧
        (gateway.setLog p.2 { t with desk := { t.desk with world := p.1 } }).notes = t.notes := by
    rintro p ⟨e', hp, hkind, hid, houtcome⟩
    refine ⟨⟨log, p.2, hlog, Gateway.log_setLog _ _, e', ?_, hkind, hid, hplain ▸ houtcome⟩,
      Gateway.approvals_setLog _ _, congrArg Core.notes (core_setLog _ _)⟩
    obtain ⟨-, more, hmore, -⟩ := h.since
    rw [hp, EventLog.snoc, hmore, List.append_assoc, List.drop_left]
    exact List.mem_append_right _ (List.mem_singleton.mpr rfl)
  rw [Gateway.deny, Eff.wp_bind, Gateway.finish, Eff.wp_bind, Eff.wp_read, hlog']
  show (gateway.onLog log' _).wp _ _ t
  rw [Gateway.onLog, Eff.wp_zoom]
  exact (EventLog.wp_finishCall_of_open (h.since.runId ▸ h.named) hne h.started h.unfinished
    hplain).mono (fun _ p hp ↦ hend p hp) fun _ p hp ↦ hend p hp

/-- A running call that is finished in another way is not denied. -/
theorem wp_finish_not_denied {s t : Floor H τ} {log log' : EventLog}
    (hlog : gateway.log s = some log)
    (hlog' : gateway.log t = some log') (h : Running log log') {outcome : CallOutcome}
    (houtcome : outcome ≠ .denied) (error : Option Str) :
    (gateway.finish (some (log.callIdAt log.events.length)) outcome error).wp
      (fun _ t' ↦ ¬ Denied gateway s t') (fun _ t' ↦ ¬ Denied gateway s t') t := by
  have hmask : gateway.mask.text outcome.text ≠ CallOutcome.denied.text := by
    cases outcome with
    | ok =>
      rw [show CallOutcome.ok.text = str "ok" from rfl, gateway.mask.text_ok]
      decide
    | denied => exact absurd rfl houtcome
    | failed =>
      rw [gateway.mask.text_plain _ (by decide)]
      decide
  have hend : ∀ p : H × EventLog, (p.2 = log' ∨
      EventLog.Finishes gateway.mask (log.callIdAt log.events.length) outcome log' p.2 ∧
        ∃ e ∈ log'.events, e.callId = some (log.callIdAt log.events.length)) →
      ¬ Denied gateway s (gateway.setLog p.2 { t with desk := { t.desk with world := p.1 } }) := by
    rintro p (hp | ⟨⟨e', hp, hkind, hid, hpayload⟩, -⟩)
    · exact h.not_denied hlog (hp ▸ Gateway.log_setLog _ _)
    · refine not_denied_of_unfinished hlog fun log'' hlog'' x hx hxkind hxid ↦ ?_
      rw [Gateway.log_setLog] at hlog''
      obtain rfl := Option.some.inj hlog''
      rw [hp] at hx
      rcases List.mem_append.mp (List.mem_of_mem_drop hx) with hx | hx
      · exact absurd hxid (h.unfinished x hx hxkind)
      · rw [List.mem_singleton.mp hx, hpayload]
        exact fun heq ↦ hmask (Json.str.inj heq)
  rw [Gateway.finish, Eff.wp_bind, Eff.wp_read, hlog']
  show (gateway.onLog log' _).wp _ _ t
  rw [Gateway.onLog, Eff.wp_zoom]
  exact EventLog.wp_finishCall.mono (fun _ p hp ↦ hend p hp) fun _ p hp ↦ hend p hp

/-! ## The first part

What is known when the request is complete, or was refused: which call was started, and that nothing
was spent. -/

/-- What is known when the first part has returned, in a gateway that had `log` before. -/
structure Ready (gateway : Gateway H Ref τ) (log : EventLog) (s t : Floor H τ)
    (p : Gateway.Prepared H Ref τ) : Prop where
  number : p.number = s.calls
  call : p.call = some (log.callIdAt log.events.length)
  approvals : t.desk.approvals = s.desk.approvals
  unspent : Unspent s.core t
  service : InService gateway t
  running : ∃ log', gateway.log t = some log' ∧ log.events.length < log'.events.length ∧
    Running log log'

/-- A call that was started in a log with its numbers is running. -/
theorem Running.of_started {log : EventLog} (hnumbered : log.Numbered) (hnamed : log.runId ≠ [])
    {e : Event} (hkind : e.kind = .callStarted)
    (hid : e.callId = some (log.callIdAt log.events.length)) : Running log (log.snoc e) := by
  refine ⟨hnamed, (LogSince.refl log).snoc fun id h ↦ ⟨_, le_rfl, ?_⟩, ⟨e, ?_, hkind, hid⟩, ?_⟩
  · exact Option.some.inj (h.symm.trans hid)
  · exact List.mem_append_right _ (List.mem_singleton.mpr rfl)
  · intro x hx hxkind hxid
    rcases List.mem_append.mp hx with hx | hx
    · obtain ⟨k, hk, heq⟩ := hnumbered x hx _ hxid
      have := log.callIdAt_injective heq
      omega
    · rw [List.mem_singleton.mp hx, hkind] at hxkind
      cases hxkind

theorem wp_prepare {s : Floor H τ} (hs : InService gateway s) {log : EventLog}
    (hlog : gateway.log s = some log) (name : Str) (arguments : Ref) :
    (gateway.prepare name arguments).wp (fun p t ↦ Ready gateway log s t p)
      (fun _ t ↦ ¬ Denied gateway s t) s := by
  let J : Floor H τ → Prop := fun t ↦
    Unspent s.core t ∧ t.desk.approvals = s.desk.approvals ∧ gateway.log t = some log
  have hI : Indifferent J :=
    ⟨fun _ _ h ↦ ⟨(indifferent_unspent _).world _ _ h.1, h.2⟩,
      fun _ _ h ↦ ⟨(indifferent_unspent _).budget _ _ h.1, h.2⟩,
      fun _ _ h ↦ ⟨(indifferent_unspent _).route _ _ h.1, h.2⟩⟩
  have hbroken : ∀ t, J t → ¬ Denied gateway s t := fun t h ↦
    not_denied_of_unfinished hlog fun log' hlog' e he ↦ by
      obtain rfl := Option.some.inj (h.2.2.symm.trans hlog')
      rw [List.drop_length] at he
      cases he
  have hbegin : (Gateway.begin : FloorM H τ ℕ).wp
      (fun _ t ↦ t.desk.approvals = s.desk.approvals ∧ gateway.log t = some log)
      (fun _ _ ↦ False) s := ⟨rfl, hlog⟩
  rw [Gateway.prepare, Eff.wp_bind]
  refine ((wp_begin hs.good).and hbegin).mono (fun number s₁ ⟨⟨hnumber, hunspent⟩, h⟩ ↦ ?_)
    fun _ _ h ↦ h.1.elim
  have h₁ : J s₁ := ⟨hunspent, h⟩
  rw [Eff.wp_bind]
  refine (hI.keeps_onBudget _ s₁ h₁).mono (fun _ s₂ h₂ ↦ ?_) fun _ t h ↦ hbroken t h
  rw [Eff.wp_bind]
  refine (keeps_content arguments s₂ h₂).mono (fun given s₃ h₃ ↦ ?_) fun _ t h ↦ hbroken t h
  rw [Eff.wp_bind]
  refine (Eff.Keeps.ofExcept _ s₃ h₃).mono (fun snapshot s₄ h₄ ↦ ?_) fun _ t h ↦ hbroken t h
  have hstart : (gateway.startCall (gateway.tool name) name
      (gateway.writeInput arguments given snapshot) 1).wp
      (fun call t ↦ call = some (log.callIdAt log.events.length) ∧
        t.desk.approvals = s.desk.approvals ∧
        ∃ e, gateway.log t = some (log.snoc e) ∧ Running log (log.snoc e) ∧
          (log.snoc e).Numbered)
      (fun _ t ↦ ¬ Denied gateway s t) s₄ := by
    rw [Gateway.startCall, Eff.wp_bind, Eff.wp_read, h₄.2.2]
    simp only
    rw [Eff.wp_bind, Gateway.onLog, Eff.wp_zoom]
    refine EventLog.wp_startCall.mono (fun id p h ↦ ?_) fun _ p h ↦ ?_
    · obtain ⟨rfl, hnamed, e, hp, hkind, hid⟩ := h
      refine ⟨rfl, (Gateway.approvals_setLog _ _).trans h₄.2.1, e, ?_,
        .of_started (hs.numbered log hlog) hnamed hkind hid, ?_⟩
      · rw [Gateway.log_setLog, hp]
      · exact (hs.numbered log hlog).snoc fun x hx ↦
          ⟨_, le_rfl, Option.some.inj (hx.symm.trans hid)⟩
    · refine not_denied_of_unfinished hlog fun log' hlog' x hx hxkind ↦ ?_
      rw [Gateway.log_setLog] at hlog'
      obtain rfl := Option.some.inj hlog'
      rcases h with hp | ⟨e, hp, hkind, -⟩
      · rw [hp, List.drop_length] at hx
        cases hx
      · rw [hp, EventLog.snoc, List.drop_left, List.mem_singleton] at hx
        rw [hx, hkind] at hxkind
        cases hxkind
  have hkeeps : Eff.Keeps (Unspent s.core) (gateway.startCall (gateway.tool name) name
      (gateway.writeInput arguments given snapshot) 1) :=
    keeps_unspent (fun c ↦ keeps_startCall c _ _ _ 1) s.core
  rw [Eff.wp_bind]
  refine (hstart.and (hkeeps s₄ h₄.1)).mono (fun call t h ↦ ?_) fun _ _ h ↦ h.1
  obtain ⟨⟨hcall, happrovals, e, ht, hrunning, hnumbered⟩, hunspent⟩ := h
  refine ⟨hnumber, hcall, happrovals, hunspent, ⟨hunspent.since.1, fun log' hlog' ↦ ?_⟩, _, ht, ?_,
    hrunning⟩
  · exact Option.some.inj (ht.symm.trans hlog') ▸ hnumbered
  · rw [EventLog.snoc, List.length_append]
    exact Nat.lt_succ_self _

/-! ## The second part

What follows once there is a request: the approval is spent or refused, and then the handler is
entered or not. -/

/-- Where a write is denied, no approval was touched: `t` is the state in which `describe` is asked,
and `s` that in which the call began. -/
structure Spares (gateway : Gateway H Ref τ) (calls : Calls H Ref τ) (name token : Str)
    (iteration : ℤ) (request : Gateway.WriteRequest H Ref τ) (number : ℕ)
    (s t : Floor H τ) : Prop where
  /-- `describe` leaves the approvals as they are if it fails. -/
  described : ∀ e t',
    gateway.describeCall calls name request.2.1 request.2.2.2 number t = (.error e, t') →
      e.isException = true → t'.desk.approvals = s.desk.approvals
  /-- It leaves them as they are if the token is not accepted then. -/
  rejected : ∀ operation t' e d,
    gateway.describeCall calls name request.2.1 request.2.2.2 number t = (.ok operation, t') →
    Authority.accept request.2.2.1 token operation iteration t'.desk = (.error e, d) →
      e.isException = true → t'.desk.approvals = s.desk.approvals
  /-- What is spent can be recorded. -/
  recorded : ∀ operation t' accepted d e d',
    gateway.describeCall calls name request.2.1 request.2.2.2 number t = (.ok operation, t') →
    Authority.accept request.2.2.1 token operation iteration t'.desk = (.ok accepted, d) →
    Authority.settle request.2.2.1 accepted d = (.error e, d') → e.isException = false
  /-- And then the budget has room for the call. -/
  reserved : ∀ operation t' accepted d id d' e b,
    gateway.describeCall calls name request.2.1 request.2.2.2 number t = (.ok operation, t') →
    Authority.accept request.2.2.1 token operation iteration t'.desk = (.ok accepted, d) →
    Authority.settle request.2.2.1 accepted d = (.ok id, d') →
    RunBudget.reserveTool gateway.meter (d'.world, t'.budget) = (.error e, b) →
      e.isException = false

section
variable {office : Office H τ} {token : Str} {operation : Operation} {iteration : ℤ} {number : ℕ}
  {t : Floor H τ} {e : Exc} {d d' : Desk H τ} {accepted : Str × Pending τ}

theorem spendFor_of_rejected
    (haccept : Authority.accept office token operation iteration t.desk = (.error e, d)) :
    Gateway.spendFor office token operation iteration number t =
      (.error e, { t with desk := d }) := by
  refine (Eff.bind_of_ok (rfl : Eff.read t = (.ok t, t))).trans (Eff.bind_of_error ?_)
  refine Eff.zoom_eq ?_
  rw [Authority.consume_eq]
  exact Eff.bind_of_error haccept

theorem spendFor_of_unrecorded
    (haccept : Authority.accept office token operation iteration t.desk = (.ok accepted, d))
    (hsettle : Authority.settle office accepted d = (.error e, d')) :
    Gateway.spendFor office token operation iteration number t =
      (.error e, { t with desk := d' }) := by
  refine (Eff.bind_of_ok (rfl : Eff.read t = (.ok t, t))).trans (Eff.bind_of_error ?_)
  refine Eff.zoom_eq ?_
  rw [Authority.consume_eq]
  exact (Eff.bind_of_ok haccept).trans hsettle

theorem spendFor_of_settled {id : Str}
    (haccept : Authority.accept office token operation iteration t.desk = (.ok accepted, d))
    (hsettle : Authority.settle office accepted d = (.ok id, d')) {item : Pending τ}
    (hget : t.desk.approvals.get id = some item) :
    Gateway.spendFor office token operation iteration number t =
      (.ok (), { t with
        desk := d'
        notes := t.notes ++ [.consumed number id item.operation.sha256] }) := by
  have hconsume : onDesk (Authority.consume office token operation iteration) t =
      (.ok id, { t with desk := d' }) := by
    refine Eff.zoom_eq ?_
    rw [Authority.consume_eq]
    exact (Eff.bind_of_ok haccept).trans hsettle
  refine (Eff.bind_of_ok (rfl : Eff.read t = (.ok t, t))).trans
    ((Eff.bind_of_ok hconsume).trans ?_)
  simp only [hget]
  rfl

end

/-! ### How far the request got

The stages at which a write can be refused, and whether an approval was spent by then. -/

section
variable {calls : Calls H Ref τ} {name token : Str} {iteration : ℤ}
  {request : Gateway.WriteRequest H Ref τ} {number : ℕ} {s t t' : Floor H τ} {e : Exc}
  {operation : Operation} {d d' : Desk H τ} {accepted : Str × Pending τ} {id : Str}

theorem spares_iff_of_undescribed
    (hdescribe : gateway.describeCall calls name request.2.1 request.2.2.2 number t =
      (.error e, t')) :
    Spares gateway calls name token iteration request number s t ↔
      (e.isException = true → t'.desk.approvals = s.desk.approvals) := by
  refine ⟨fun h ↦ h.described e t' hdescribe, fun h ↦ ⟨?_, ?_, ?_, ?_⟩⟩
  · intro e' t'' h'
    rw [hdescribe] at h'
    cases h'
    exact h
  all_goals
    intros
    simp_all

theorem spares_iff_of_rejected
    (hdescribe : gateway.describeCall calls name request.2.1 request.2.2.2 number t =
      (.ok operation, t'))
    (haccept : Authority.accept request.2.2.1 token operation iteration t'.desk = (.error e, d)) :
    Spares gateway calls name token iteration request number s t ↔
      (e.isException = true → t'.desk.approvals = s.desk.approvals) := by
  refine ⟨fun h ↦ h.rejected operation t' e d hdescribe haccept, fun h ↦ ⟨?_, ?_, ?_, ?_⟩⟩
  · intro e' t'' h'
    rw [hdescribe] at h'
    cases h'
  · intro operation' t'' e' d'' h' h''
    rw [hdescribe] at h'
    cases h'
    rw [haccept] at h''
    cases h''
    exact h
  all_goals
    intro operation' t'' accepted d'' _ _
    intros
    simp_all

theorem spares_iff_of_unrecorded
    (hdescribe : gateway.describeCall calls name request.2.1 request.2.2.2 number t =
      (.ok operation, t'))
    (haccept : Authority.accept request.2.2.1 token operation iteration t'.desk = (.ok accepted, d))
    (hsettle : Authority.settle request.2.2.1 accepted d = (.error e, d')) :
    Spares gateway calls name token iteration request number s t ↔ e.isException = false := by
  refine ⟨fun h ↦ h.recorded operation t' accepted d e d' hdescribe haccept hsettle,
    fun h ↦ ⟨?_, ?_, ?_, ?_⟩⟩
  all_goals
    intros
    simp_all

theorem spares_iff_of_settled
    (hdescribe : gateway.describeCall calls name request.2.1 request.2.2.2 number t =
      (.ok operation, t'))
    (haccept : Authority.accept request.2.2.1 token operation iteration t'.desk = (.ok accepted, d))
    (hsettle : Authority.settle request.2.2.1 accepted d = (.ok id, d')) :
    Spares gateway calls name token iteration request number s t ↔
      ∀ e b, RunBudget.reserveTool gateway.meter (d'.world, t'.budget) = (.error e, b) →
        e.isException = false := by
  refine ⟨fun h e b ↦ h.reserved operation t' accepted d id d' e b hdescribe haccept hsettle,
    fun h ↦ ⟨?_, ?_, ?_, ?_⟩⟩
  rotate_left 3
  · intro operation' t'' accepted' d₁ id' d₂ e b hdescribe' haccept' hsettle' hreserve
    rw [hdescribe] at hdescribe'
    cases hdescribe'
    rw [haccept] at haccept'
    cases haccept'
    rw [hsettle] at hsettle'
    cases hsettle'
    exact h e b hreserve
  all_goals
    intros
    simp_all

end

theorem onBudget_eq {α : Type} {m : Eff Exc (H × RunBudget) α} {s : Floor H τ} {r : Except Exc α}
    {b : H × RunBudget} (h : m (s.desk.world, s.budget) = (r, b)) :
    onBudget m s = (r, { s with desk := { s.desk with world := b.1 }, budget := b.2 }) := by
  rw [onBudget, Eff.zoom, h]

/-- A call that spent nothing has entered no handler. -/
theorem Unspent.not_entered {c : Core τ} {s : Floor H τ} (h : Unspent c s) {tool : Str}
    {capability : Capability} {value : PyVal} :
    Note.entered tool capability value (some c.calls) ∉ s.notes := by
  intro hmem
  obtain ⟨before, after, hnotes⟩ := List.append_of_mem hmem
  obtain ⟨-, id, operation, hspent, -⟩ := h.since.1.allowed before _ _ _ _ after hnotes
  have hnone : spentBy c.calls s.notes = [] := h.unspent
  have hnotes : s.notes = before ++ .entered tool capability value (some c.calls) :: after := hnotes
  rw [hnotes, spentBy_append, hspent] at hnone
  cases hnone

section
variable {calls : Calls H Ref τ} {name token : Str} {iteration : ℤ}
  {request : Gateway.WriteRequest H Ref τ} {number : ℕ} {s t : Floor H τ} {log : EventLog}

/-- A call that failed before the handler is denied if it failed with an `Exception`. -/
theorem wp_refuseWrite (hlog : gateway.log s = some log)
    (hrunning : ∃ log', gateway.log t = some log' ∧ Running log log') (e : Exc) :
    (gateway.refuse (some (log.callIdAt log.events.length)) e).wp (fun _ _ ↦ False)
      (fun _ t' ↦ (Denied gateway s t' ↔ e.isException = true) ∧
        t'.desk.approvals = t.desk.approvals ∧ t'.notes = t.notes) t := by
  obtain ⟨log', hlog', hrunning⟩ := hrunning
  rw [Gateway.refuse]
  refine Eff.wp_ite.mpr ⟨fun he ↦ ?_, fun he ↦ ⟨?_, rfl, rfl⟩⟩
  · exact (wp_deny hlog hlog' hrunning _ e).mono (fun _ _ h ↦ h)
      fun _ _ h ↦ ⟨⟨fun _ ↦ he, fun _ ↦ h.1⟩, h.2⟩
  · exact ⟨fun h ↦ absurd h (hrunning.not_denied hlog hlog'), fun h ↦ absurd h he⟩

/-- The handler does not make a call a denied one. -/
theorem wp_write (hcalls : CallsFollow gateway calls) (hlog : gateway.log s = some log)
    {log' : EventLog} (hlog' : gateway.log t = some log')
    (hlength : log.events.length < log'.events.length) (hrunning : Running log log')
    {t' : Floor H τ} (ht' : Follows gateway t t') :
    (gateway.write calls request number (some (log.callIdAt log.events.length))).wp
      (fun _ s' ↦ ¬ Denied gateway s s') (fun _ s' ↦ ¬ Denied gateway s s') t' := by
  rw [Gateway.write, Eff.wp_bind, Eff.wp_attempt]
  have hok : CallOutcome.ok ≠ .denied := by decide
  have hfailed : CallOutcome.failed ≠ .denied := by decide
  have hcarry := follows_carryOut hcalls t request.1 (.own (.ofJson request.2.2.2)) (some number)
  refine (hcarry t' ht').mono (fun result s' h ↦ ?_) fun e s' h ↦ ?_
  · obtain ⟨log'', hlog'', hrunning⟩ := hrunning.follows hlog' hlength h
    rw [Eff.wp_bind]
    exact (wp_finish_not_denied hlog hlog'' hrunning hok _).mono (fun _ _ h ↦ h) fun _ _ h ↦ h
  · obtain ⟨log'', hlog'', hrunning⟩ := hrunning.follows hlog' hlength h
    refine Eff.wp_ite.mpr ⟨fun _ ↦ Eff.wp_bind.mpr ?_, fun _ ↦ hrunning.not_denied hlog hlog''⟩
    exact (wp_finish_not_denied hlog hlog'' hrunning hfailed _).mono (fun _ _ h ↦ h)
      fun _ _ h ↦ h

theorem wp_approve (hsafe : CallsSafe calls) (hcalls : CallsFollow gateway calls)
    (hlog : gateway.log s = some log) {p : Gateway.Prepared H Ref τ}
    (hready : Ready gateway log s t p) :
    (gateway.approve calls name token iteration request p.number p.call).wp
      (fun _ s' ↦ (Denied gateway s s' → NothingChanged s s') ↔
        Spares gateway calls name token iteration request p.number s t)
      (fun _ s' ↦ (Denied gateway s s' → NothingChanged s s') ↔
        Spares gateway calls name token iteration request p.number s t) t := by
  obtain ⟨hnumber, hcall, happrovals, hunspent, hservice, log', hlog', hlength, hrunning⟩ := hready
  rw [hcall, Gateway.approve]
  have hfollows := hservice.follows
  have hrun : ∀ t', Follows gateway t t' →
      ∃ log'', gateway.log t' = some log'' ∧ Running log log'' := fun t' h ↦
    hrunning.follows hlog' hlength h
  -- a denial that leaves the approvals as they are at `t'`
  have hunchanged : ∀ {t' s' : Floor H τ} {e : Exc}, Unspent s.core t' →
      (Denied gateway s s' ↔ e.isException = true) ∧
        s'.desk.approvals = t'.desk.approvals ∧ s'.notes = t'.notes →
      ((Denied gateway s s' → NothingChanged s s') ↔
        (e.isException = true → t'.desk.approvals = s.desk.approvals)) := by
    rintro t' s' e h ⟨hdenied, hsame, hnotes⟩
    rw [hdenied]
    refine imp_congr_right fun _ ↦ ⟨fun h ↦ hsame ▸ h.approvals, fun heq ↦ ⟨hsame.trans heq, ?_⟩⟩
    rw [hnotes]
    exact fun _ _ _ ↦ h.not_entered
  -- a denial after the approval was spent
  have hchanged : ∀ {t' s' : Floor H τ} {e : Exc}, ¬ t'.desk.approvals = s.desk.approvals →
      (Denied gateway s s' ↔ e.isException = true) ∧
        s'.desk.approvals = t'.desk.approvals ∧ s'.notes = t'.notes →
      ((Denied gateway s s' → NothingChanged s s') ↔ e.isException = false) := by
    rintro t' s' e h ⟨hdenied, hsame, -⟩
    rw [hdenied, ← Bool.not_eq_true]
    exact ⟨fun himp he ↦ h (hsame ▸ (himp he).approvals), fun hnot he ↦ absurd he hnot⟩
  have hdescribeFollows := follows_describeCall hcalls t name request.2.1 request.2.2.2 p.number t
    hfollows
  have hdescribeUnspent : (gateway.describeCall calls name request.2.1 request.2.2.2 p.number).wp
      (fun _ ↦ Unspent s.core) (fun _ ↦ Unspent s.core) t := by
    rw [hnumber]
    exact (wp_describeCall hsafe hunspent).mono (fun _ _ h ↦ h.1) fun _ _ h ↦ h
  rcases hdescribe : gateway.describeCall calls name request.2.1 request.2.2.2 p.number t with
    ⟨e | operation, t'⟩
  · -- `describe` failed
    have ht' := hdescribeFollows.of_raise hdescribe
    refine Eff.wp.of_eq ((wp_refuseWrite hlog (hrun t' ht') e).mono (fun _ _ h ↦ h.elim)
      fun _ s' h ↦ ?_) (Eff.attempt_bind (Eff.bind_of_error hdescribe))
    rw [hunchanged (hdescribeUnspent.of_raise hdescribe) h, spares_iff_of_undescribed hdescribe]
  have ht' := hdescribeFollows.of_run hdescribe
  have hunspent' := hdescribeUnspent.of_run hdescribe
  have haccepts : (Authority.accept request.2.2.1 token operation iteration).wp _ _ t'.desk :=
    Authority.wp_accept ht'.keyed.nodup
  have hspend := follows_spendFor t request.2.2.1 token operation iteration p.number t' ht'
  have happroved : ∀ {r : Except Exc Unit} {t'' : Floor H τ},
      Gateway.spendFor request.2.2.1 token operation iteration p.number t' = (r, t'') →
      (do
        let operation ← gateway.describeCall calls name request.2.1 request.2.2.2 p.number
        Gateway.spendFor request.2.2.1 token operation iteration p.number : FloorM H τ Unit) t =
          (r, t'') := fun h ↦ (Eff.bind_of_ok hdescribe).trans h
  rcases haccept : Authority.accept request.2.2.1 token operation iteration t'.desk with
    ⟨e | accepted, d⟩
  · -- the token is not accepted, and the approvals are those of `t'`
    have hd : d.approvals = t'.desk.approvals := haccepts.of_raise haccept
    have hfailed : Gateway.spendFor request.2.2.1 token operation iteration p.number t' =
        (.error e, { t' with desk := d }) := spendFor_of_rejected haccept
    refine Eff.wp.of_eq ((wp_refuseWrite hlog (hrun _ (hspend.of_raise hfailed)) e).mono
      (fun _ _ h ↦ h.elim) fun _ s' h ↦ ?_)
      (Eff.attempt_bind (happroved hfailed))
    rw [spares_iff_of_rejected hdescribe haccept]
    exact hunchanged hunspent' ⟨h.1, h.2.1.trans hd, h.2.2⟩
  obtain ⟨hd, hget, hgranted, -⟩ := haccepts.of_run haccept
  -- once it is spent, the approvals cannot be those of `s`
  have hspent : ∀ a : Approvals τ,
      a = d.approvals.assign accepted.1 (fun q ↦ { q with decision := .consumed }) →
        ¬ a = s.desk.approvals := by
    intro a ha heq
    have hbefore : IsSpent t.desk.approvals accepted.1 := by
      refine ⟨{ accepted.2 with decision := .consumed }, ?_, rfl⟩
      rw [happrovals, ← heq, ha, hd, Approvals.get_assign, if_pos rfl, hget, Option.map_some]
    obtain ⟨item, hitem, hconsumed⟩ := ht'.spent _ hbefore
    rw [hget, Option.some.injEq] at hitem
    rw [← hitem, hgranted] at hconsumed
    cases hconsumed
  have hsettles : (Authority.settle request.2.2.1 accepted).wp _ _ d := Authority.wp_settle
  rcases hsettle : Authority.settle request.2.2.1 accepted d with ⟨e | id, d'⟩
  · -- what was spent could not be recorded
    have hfailed : Gateway.spendFor request.2.2.1 token operation iteration p.number t' =
        (.error e, { t' with desk := d' }) := spendFor_of_unrecorded haccept hsettle
    refine Eff.wp.of_eq ((wp_refuseWrite hlog (hrun _ (hspend.of_raise hfailed)) e).mono
      (fun _ _ h ↦ h.elim) fun _ s' h ↦ ?_)
      (Eff.attempt_bind (happroved hfailed))
    rw [spares_iff_of_unrecorded hdescribe haccept hsettle]
    exact hchanged (hspent _ (hsettles.of_raise hsettle)) h
  obtain ⟨rfl, hd'⟩ := hsettles.of_run hsettle
  obtain ⟨t₃, hdone, hdesk, hbudget⟩ : ∃ t₃ : Floor H τ,
      Gateway.spendFor request.2.2.1 token operation iteration p.number t' = (.ok (), t₃) ∧
        t₃.desk = d' ∧ t₃.budget = t'.budget :=
    ⟨_, spendFor_of_settled haccept hsettle hget, rfl, rfl⟩
  have hfollows' := hspend.of_run hdone
  refine Eff.wp.of_eq ?_ (Eff.attempt_bind (happroved hdone))
  simp only
  rw [spares_iff_of_settled hdescribe haccept hsettle, ← hdesk, ← hbudget]
  rcases hreserve : RunBudget.reserveTool gateway.meter (t₃.desk.world, t₃.budget) with ⟨e | _, b⟩
  · -- the budget refuses the call
    refine Eff.wp.of_eq ((wp_refuseWrite hlog (hrun _ ?_) e).mono
      (fun _ _ h ↦ h.elim) fun _ s' h ↦ ?_) (Eff.attempt_bind (onBudget_eq hreserve))
    · exact hfollows'.of_eq rfl rfl
    · refine (hchanged (hspent _ (hdesk ▸ hd')) h).trans
        ⟨fun hno e' b' h' ↦ ?_, fun h' ↦ h' e b rfl⟩
      cases h'
      exact hno
  · refine Eff.wp.of_eq ((wp_write hcalls hlog hlog' hlength hrunning ?_).mono
      (fun _ s' h ↦ ?_) fun _ s' h ↦ ?_) (Eff.attempt_bind (onBudget_eq hreserve))
    · exact hfollows'.of_eq rfl rfl
    all_goals
      exact ⟨fun _ e b h' ↦ (by cases h'), fun _ h' ↦ absurd h' h⟩

theorem wp_proceed (hsafe : CallsSafe calls) (hcalls : CallsFollow gateway calls)
    (hlog : gateway.log s = some log) {p : Gateway.Prepared H Ref τ}
    (hready : Ready gateway log s t p) :
    (gateway.proceed calls name token iteration p).wp
      (fun _ s' ↦ (Denied gateway s s' → NothingChanged s s') ↔ ∀ request, p.request = .ok request →
        Spares gateway calls name token iteration request p.number s t)
      (fun _ s' ↦ (Denied gateway s s' → NothingChanged s s') ↔ ∀ request, p.request = .ok request →
        Spares gateway calls name token iteration request p.number s t) t := by
  obtain ⟨log', hlog', -, hrunning⟩ := hready.running
  rw [Gateway.proceed]
  cases hrequest : p.request with
  | error failure =>
    obtain ⟨reason, e⟩ := failure
    cases reason with
    | none =>
      exact ⟨fun _ _ h ↦ (by cases h), fun _ h ↦ absurd h (hrunning.not_denied hlog hlog')⟩
    | some reason =>
      simp only [hready.call]
      refine (wp_deny hlog hlog' hrunning reason e).mono (fun _ _ h ↦ h.elim) fun _ s' h ↦ ?_
      refine ⟨fun _ _ h ↦ (by cases h), fun _ _ ↦ ⟨h.2.1.trans hready.approvals, ?_⟩⟩
      rw [h.2.2]
      exact fun _ _ _ ↦ hready.unspent.not_entered
  | ok request =>
    have hone : (∀ r, (.ok request : Except (Option Str × Exc) _) = .ok r →
        Spares gateway calls name token iteration r p.number s t) ↔
        Spares gateway calls name token iteration request p.number s t :=
      ⟨fun h ↦ h request rfl, fun h r hr ↦ by cases hr; exact h⟩
    simp only [hone]
    exact wp_approve hsafe hcalls hlog hready

end

/-- The write changes nothing where it is denied: the gateway keeps no log, or the call is refused
before `describe` is asked, or no approval is touched after that. -/
def Unspoilt (gateway : Gateway H Ref τ) (calls : Calls H Ref τ) (name : Str) (arguments : Ref)
    (token : Str) (iteration : ℤ) (s : Floor H τ) : Prop :=
  gateway.log s = none ∨ ∀ p request t, gateway.prepare name arguments s = (.ok p, t) →
    p.request = .ok request → Spares gateway calls name token iteration request p.number s t

/-- **A denied write leaves nothing changed, exactly where nothing was spent before it was
denied.** -/
theorem denied_unchanged_iff (depth : ℕ) (name : Str) (arguments : Ref) (token : Str)
    (iteration : ℤ) {s : Floor H τ} (hs : InService gateway s) :
    (Denied gateway s
        (gateway.invokeWrite (gateway.callsAt depth) name arguments token iteration s).2 →
      NothingChanged s
        (gateway.invokeWrite (gateway.callsAt depth) name arguments token iteration s).2) ↔
      Unspoilt gateway (gateway.callsAt depth) name arguments token iteration s := by
  cases hlog : gateway.log s with
  | none =>
    refine ⟨fun _ ↦ .inl hlog, fun _ h ↦ ?_⟩
    obtain ⟨log, log', hsome, -⟩ := h
    rw [hlog] at hsome
    cases hsome
  | some log =>
    have hright : Unspoilt gateway (gateway.callsAt depth) name arguments token iteration s ↔
        ∀ p request t, gateway.prepare name arguments s = (.ok p, t) → p.request = .ok request →
          Spares gateway (gateway.callsAt depth) name token iteration request p.number s t := by
      rw [Unspoilt, hlog]
      exact or_iff_right nofun
    rw [hright]
    refine Eff.wp.left (P := fun s' ↦ (Denied gateway s s' → NothingChanged s s') ↔ _) ?_
    rw [Gateway.invokeWrite_eq, Eff.wp_bind]
    refine ((Eff.wp_run _ s).and (wp_prepare hs hlog name arguments)).mono
      (fun p t ⟨hprepare, hready⟩ ↦ ?_) fun e t ⟨hprepare, hbroken⟩ ↦ ?_
    · have hone : (∀ p' request t', gateway.prepare name arguments s = (.ok p', t') →
          p'.request = .ok request →
            Spares gateway (gateway.callsAt depth) name token iteration request p'.number s t') ↔
          ∀ request, p.request = .ok request →
            Spares gateway (gateway.callsAt depth) name token iteration request p.number s t := by
        refine ⟨fun h request hr ↦ h p request t hprepare hr, fun h p' request t' hp' ↦ ?_⟩
        rw [hprepare] at hp'
        cases hp'
        exact h request
      simp only [hone]
      exact wp_proceed (callsSafe_callsAt depth) (callsFollow_callsAt depth) hlog hready
    · refine ⟨fun _ p request t' h ↦ ?_, fun _ h ↦ absurd h hbroken⟩
      rw [hprepare] at h
      cases h

/-- What the host does leaves the gateway in service, however deep it calls. -/
theorem inService_run {β : Type} (p : Prog H Ref τ β) (depth : ℕ) (nestedAllowed : Bool)
    {s : Floor H τ} (hs : InService gateway s) :
    InService gateway (p.run gateway (gateway.callsAt depth) nestedAllowed s).2 := by
  have hfollows := (follows_run (callsFollow_callsAt depth) s nestedAllowed p s hs.follows).left
  have hgood : Since s.core (p.run gateway (gateway.callsAt depth) nestedAllowed s).2 :=
    (keeps_run (callsSafe_callsAt depth) s.core nestedAllowed p s (.refl hs.good)).left
  refine ⟨hgood.1, fun log hlog ↦ ?_⟩
  have hextends := hfollows.log
  rw [hlog] at hextends
  cases hbase : gateway.log s with
  | none =>
    rw [hbase] at hextends
    exact hextends.elim
  | some base =>
    rw [hbase] at hextends
    exact hextends.1

theorem inService_of_new {s : Floor H τ} (hs : s.New)
    (hlog : ∀ log, gateway.log s = some log → log.events = []) : InService gateway s := by
  refine ⟨hs.good, fun log hsome e he ↦ ?_⟩
  rw [hlog log hsome] at he
  cases he

/-! ## A token is spent, and the budget refuses the call

A budget without a tool call left is asked after the token was spent. -/

/-- The sample state with a log, and with no tool call in the budget. -/
def brokeFloor : Floor Store ℕ :=
  { sampleFloor with
    desk := { sampleFloor.desk with log := some ⟨str "run", []⟩ }
    budget := ⟨⟨10, 0, 0, 0, 10000, tenSeconds⟩, 10, 0, 0, 0, 0⟩ }

/-- The same after a patch was asked for and granted. -/
def grantedFloor : Floor Store ℕ :=
  ((afterGrant (.ret ())).run sampleGateway (sampleGateway.callsAt 5) true brokeFloor).2

/-- The patch is to be made, with a token that was granted for it, on a budget without a call left.
-/
def refusedPatch : Floor Store ℕ :=
  (sampleGateway.invokeWrite (sampleGateway.callsAt 5) (str "apply_patch") 0 (str "token") 0
    grantedFloor).2

theorem grantedFloor_inService : InService sampleGateway grantedFloor :=
  inService_run (afterGrant (.ret ())) 5 true
    (inService_of_new ⟨rfl, rfl⟩ fun log h ↦ by cases h; rfl)

theorem denied_unchanged_grantedFloor : InService sampleGateway grantedFloor ∧
    ((Denied sampleGateway grantedFloor refusedPatch → NothingChanged grantedFloor refusedPatch) ↔
      Unspoilt sampleGateway (sampleGateway.callsAt 5) (str "apply_patch") 0 (str "token") 0
        grantedFloor) :=
  ⟨grantedFloor_inService,
    denied_unchanged_iff 5 (str "apply_patch") 0 (str "token") 0 grantedFloor_inService⟩

/-- Whether an event says that the call with this id was denied. -/
def saysDenied (id : Str) (e : Event) : Bool :=
  e.kind = .callFinished && e.callId = some id &&
    payloadIn e.payload "outcome" [CallOutcome.denied.text]

theorem saysDenied_spec {id : Str} {e : Event} (h : saysDenied id e = true) :
    e.kind = .callFinished ∧ e.callId = some id ∧
      getOrNull e.payload "outcome" = .str CallOutcome.denied.text := by
  rw [saysDenied, Bool.and_eq_true, Bool.and_eq_true, decide_eq_true_eq, decide_eq_true_eq] at h
  obtain ⟨⟨hkind, hid⟩, houtcome⟩ := h
  refine ⟨hkind, hid, ?_⟩
  rw [payloadIn] at houtcome
  split at houtcome
  · rename_i s hs
    rw [decide_eq_true_eq, List.mem_singleton] at houtcome
    rw [hs, houtcome]
  · cases houtcome

/-- The patch is denied, its handler does not run, and the token is used up. -/
theorem refusedPatch_changed : InService sampleGateway grantedFloor ∧
    ¬ (Denied sampleGateway grantedFloor refusedPatch →
      NothingChanged grantedFloor refusedPatch) := by
  refine ⟨grantedFloor_inService, fun h ↦ ?_⟩
  have hrun : (sampleGateway.log grantedFloor).map (fun log ↦ (log.runId, log.events.length)) =
        some (str "run", 2) ∧
      (sampleGateway.log refusedPatch).any (fun log ↦
        (log.events.drop 2).any (saysDenied (str "run:2"))) = true ∧
      refusedPatch.desk.approvals.map (fun p ↦ p.2.decision) = [.consumed] ∧
      grantedFloor.desk.approvals.map (fun p ↦ p.2.decision) = [.granted] := by decide +kernel
  obtain ⟨hbefore, hafter, hconsumed, hgranted⟩ := hrun
  obtain ⟨log, hlog, hsame⟩ := Option.map_eq_some_iff.mp hbefore
  obtain ⟨hid, hlength⟩ := Prod.mk.inj hsame
  obtain ⟨log', hlog', hany⟩ := (Option.any_eq_true _ _).mp hafter
  obtain ⟨e, he, hsays⟩ := List.any_eq_true.mp hany
  have hcall : log.callIdAt log.events.length = str "run:2" := by
    rw [EventLog.callIdAt, hid, hlength]
    decide
  obtain ⟨hkind, hcallId, houtcome⟩ := saysDenied_spec hsays
  have happrovals := (h ⟨log, log', hlog, hlog', e, hlength ▸ he, hkind, hcall ▸ hcallId,
    houtcome⟩).approvals
  rw [happrovals, hgranted] at hconsumed
  cases hconsumed

end AtlasCore
