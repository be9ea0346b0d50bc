import AtlasCore.Approval.Turns
import AtlasCore.Gateway.Frame

/-!
# What stays, whatever is called

What is spent stays spent, and the log keeps its events: new events belong to new calls.  So a call
that was started is finished by nobody else.

`Follows` is what holds from a moment on, and everything that the gateway does keeps it, one lemma
for each part; a program of the host keeps it because it can only do what the gateway does.  It is
stated of any earlier moment, so a call can use it for the time in which its handler ran.
-/

set_option autoImplicit false

namespace AtlasCore

open Py

variable {H Ref τ W : Type}

/-! ## Logs

What happened to a log since a time: it was appended to, and no call of before was touched. -/

/-- Every event of a call has an id that was given for a place in the log. -/
def EventLog.Numbered (log : EventLog) : Prop :=
  ∀ e ∈ log.events, ∀ id, e.callId = some id → ∃ k < log.events.length, id = log.callIdAt k

/-- Events were added to a log, and the calls they belong to are new. -/
structure LogSince (log log' : EventLog) : Prop where
  runId : log'.runId = log.runId
  events : ∃ more, log'.events = log.events ++ more ∧
    ∀ e ∈ more, ∀ id, e.callId = some id → ∃ k, log.events.length ≤ k ∧ id = log.callIdAt k

theorem LogSince.refl (log : EventLog) : LogSince log log :=
  ⟨rfl, [], (List.append_nil _).symm, fun _ h ↦ absurd h List.not_mem_nil⟩

theorem LogSince.length_le {log log' : EventLog} (h : LogSince log log') :
    log.events.length ≤ log'.events.length := by
  obtain ⟨-, more, hmore, -⟩ := h
  rw [hmore, List.length_append]
  exact Nat.le_add_right _ _

/-- Of the same run, an id is given for the same place. -/
theorem LogSince.callIdAt {log log' : EventLog} (h : LogSince log log') (k : ℕ) :
    log'.callIdAt k = log.callIdAt k := by
  rw [EventLog.callIdAt, EventLog.callIdAt, h.runId]

theorem LogSince.snoc {log log' : EventLog} (h : LogSince log log') {e : Event}
    (he : ∀ id, e.callId = some id → ∃ k, log.events.length ≤ k ∧ id = log.callIdAt k) :
    LogSince log (log'.snoc e) := by
  obtain ⟨hrun, more, hmore, hnew⟩ := h
  refine ⟨hrun, more ++ [e], ?_, fun x hx id hid ↦ ?_⟩
  · rw [EventLog.snoc, hmore, List.append_assoc]
  · rcases List.mem_append.mp hx with hx | hx
    · exact hnew x hx id hid
    · exact he id (List.mem_singleton.mp hx ▸ hid)

theorem EventLog.Numbered.snoc {log : EventLog} (h : log.Numbered) {e : Event}
    (he : ∀ id, e.callId = some id → ∃ k ≤ log.events.length, id = log.callIdAt k) :
    (log.snoc e).Numbered := by
  have hlength : (log.snoc e).events.length = log.events.length + 1 := by
    rw [EventLog.snoc, List.length_append, List.length_singleton]
  intro x hx id hid
  rcases List.mem_append.mp hx with hx | hx
  · obtain ⟨k, hk, hid⟩ := h x hx id hid
    exact ⟨k, by omega, hid⟩
  · obtain ⟨k, hk, hid⟩ := he id (List.mem_singleton.mp hx ▸ hid)
    exact ⟨k, by omega, hid⟩

/-- A log that has its numbers, and only new events since `base`; or no log, as before. -/
def Extends : Option EventLog → Option EventLog → Prop
  | none, none => True
  | some base, some log => log.Numbered ∧ LogSince base log
  | _, _ => False

/-- A call that was started since then, if there is a log. -/
def StartedSince (base : Option EventLog) (call : Option Str) : Prop :=
  ∀ log, base = some log → ∀ id, call = some id →
    ∃ k, log.events.length ≤ k ∧ id = log.callIdAt k

theorem Extends.snoc {base : Option EventLog} {log : EventLog} (h : Extends base (some log))
    {e : Event} (hnumber : ∀ id, e.callId = some id → ∃ k ≤ log.events.length, id = log.callIdAt k)
    (hnew : StartedSince base e.callId) : Extends base (some (log.snoc e)) := by
  cases base with
  | none => exact h.elim
  | some base => exact ⟨h.1.snoc hnumber, h.2.snoc (hnew base rfl)⟩

/-! ## The authority

The authority logs approvals, which belong to no call, so the calls in the log are as they were. -/

section
variable {office : Office W τ} {P : Option EventLog → Prop}
  (hP : ∀ log e, P (some log) → e.callId = none → e.kind = .approvalRecorded →
    P (some (log.snoc e)))
include hP

theorem keeps_record_log (decision id : Str) (item : Pending τ) (extra : Fields) :
    Eff.Keeps (fun d : Desk W τ ↦ P d.log)
      (Authority.record office decision id item extra) := by
  rw [Authority.record]
  refine Eff.Keeps.read_bind fun d hd ↦ ?_
  cases hlog : d.log with
  | none => exact hd
  | some log =>
    refine Eff.wp_ite.mpr ⟨fun _ ↦ hd, fun _ ↦ Eff.wp_zoom.mpr ?_⟩
    rw [hlog] at hd
    refine EventLog.wp_append_snoc.mono (fun _ p hp ↦ ?_) fun _ p hp ↦ ?_
    · show P (some p.2)
      rw [hp.2]
      exact hP _ _ hd rfl rfl
    · show P (some p.2)
      rcases hp with hp | hp
      · exact hp ▸ hd
      · rw [hp]
        exact hP _ _ hd rfl rfl

theorem keeps_reject_log {α : Type} (id : Str) (item : Pending τ) (reason : Str) (extra : Fields) :
    Eff.Keeps (fun d : Desk W τ ↦ P d.log)
      (Authority.reject office id item reason extra : DeskM W τ α) :=
  (keeps_record_log hP _ _ _ _).bind fun _ ↦ Eff.Keeps.raise _

omit hP in
theorem keeps_asks_log {α : Type} (m : Eff Exc W α) :
    Eff.Keeps (fun d : Desk W τ ↦ P d.log) (asks m) := by
  refine Eff.Keeps.zoom ?_ m
  exact fun _ _ h ↦ h

omit hP in
theorem keeps_assign_log (id : Str) (f : Pending τ → Pending τ) :
    Eff.Keeps (fun d : Desk W τ ↦ P d.log) (assign id f : DeskM W τ Unit) :=
  Eff.Keeps.update fun _ h ↦ h

omit hP in
theorem keeps_openItem_log (id : Str) :
    Eff.Keeps (fun d : Desk W τ ↦ P d.log) (Authority.openItem id : DeskM W τ (Pending τ)) := by
  refine Eff.Keeps.read_bind fun d hd ↦ ?_
  cases d.approvals.get id with
  | none => exact hd
  | some item => exact Eff.Keeps.ite (fun _ ↦ .raise _) (fun _ ↦ .pure _) d hd

omit hP in
theorem keeps_current_log (id : Str) (item : Pending τ) :
    Eff.Keeps (fun d : Desk W τ ↦ P d.log) (Authority.current id item) :=
  Eff.Keeps.read_bind fun _ hd ↦ hd

omit hP in
theorem keeps_tokenDigest_log (token : Str) :
    Eff.Keeps (fun d : Desk W τ ↦ P d.log) (Authority.tokenDigest token : DeskM W τ Str) := by
  rw [Authority.tokenDigest]
  cases sha256Text token with
  | none => exact .raise _
  | some digest => exact .pure _

theorem keeps_spend_log (id : Str) (item : Pending τ) (operation : Operation) :
    Eff.Keeps (fun d : Desk W τ ↦ P d.log) (Authority.spend office id item operation) := by
  refine (keeps_asks_log _).attempt.bind fun head ↦ ?_
  cases head with
  | error e =>
    cases e with
    | approvalRejected reason => exact keeps_reject_log hP _ _ _ _
    | _ => exact .raise _
  | ok head =>
    refine .ite (fun _ ↦ keeps_reject_log hP _ _ _ _) fun _ ↦
      .ite (fun _ ↦ keeps_reject_log hP _ _ _ _) fun _ ↦ ?_
    exact (keeps_assign_log _ _).bind fun _ ↦ (keeps_record_log hP _ _ _ _).bind fun _ ↦ .pure _

theorem keeps_consume_log (token : Str) (operation : Operation) (iteration : ℤ) :
    Eff.Keeps (fun d : Desk W τ ↦ P d.log)
      (Authority.consume office token operation iteration) := by
  refine (keeps_tokenDigest_log token).bind fun digest ↦ Eff.Keeps.read_bind fun d hd ↦ ?_
  cases Authority.found d.approvals digest with
  | none => exact keeps_reject_log hP _ _ _ _ d hd
  | some p =>
    refine Eff.Keeps.ite (fun _ ↦ keeps_reject_log hP _ _ _ _) (fun _ ↦ ?_) d hd
    split
    · refine Eff.Keeps.bind ?_ fun expired ↦
        .ite (fun _ ↦ keeps_reject_log hP _ _ _ _) fun _ ↦ keeps_spend_log hP _ _ _
      exact (keeps_asks_log _).bind fun _ ↦
        .ite (fun _ ↦ .pure _) fun _ ↦ (keeps_asks_log _).bind fun _ ↦ .pure _
    · exact keeps_reject_log hP _ _ _ _

/-- What the authority adds to the log belongs to no call. -/
theorem keeps_perform_log (call : AuthorityCall τ) :
    Eff.Keeps (fun d : Desk W τ ↦ P d.log) (call.perform office) := by
  cases call with
  | request operation iteration =>
    refine Eff.Keeps.read_bind fun d hd ↦ Eff.wp_bind.mpr (Eff.wp_update.mpr ?_)
    exact ((keeps_record_log hP _ _ _ _).bind fun _ ↦ .pure _) _ hd
  | grant id grantedBy ttl =>
    refine .ite (fun _ ↦ .raise _) fun _ ↦ .ite (fun _ ↦ .raise _) fun _ ↦ ?_
    refine (keeps_openItem_log id).bind fun item ↦ (keeps_asks_log _).bind fun token ↦ ?_
    refine (keeps_tokenDigest_log token).bind fun digest ↦ (keeps_assign_log _ _).bind fun _ ↦ ?_
    refine (keeps_asks_log _).bind fun grantedAt ↦ (keeps_assign_log _ _).bind fun _ ↦ ?_
    refine (keeps_asks_log _).bind fun now ↦ (keeps_assign_log _ _).bind fun _ ↦ ?_
    exact (Eff.Keeps.ofExcept _).bind fun expiresAt ↦ (keeps_current_log _ _).bind fun _ ↦
      (keeps_record_log hP _ _ _ _).bind fun _ ↦ .pure _
  | refuse id refusedBy =>
    refine Eff.Keeps.bind ?_ fun _ ↦ .pure _
    refine (keeps_openItem_log id).bind fun item ↦ (keeps_assign_log _ _).bind fun _ ↦ ?_
    exact (keeps_asks_log _).bind fun grantedAt ↦ (keeps_assign_log _ _).bind fun _ ↦
      (keeps_current_log _ _).bind fun _ ↦ keeps_record_log hP _ _ _ _
  | consume token operation iteration => exact keeps_consume_log hP token operation iteration

end

/-! ## The gateway

What the gateway never takes back: ids, what was spent, and what the log says. -/

/-- The approval under this id is spent, which it stays. -/
def IsSpent (approvals : Approvals τ) (id : Str) : Prop :=
  ∃ item, approvals.get id = some item ∧ item.decision = .consumed

variable {gateway : Gateway H Ref τ}

/-- What holds from a time on: ids stay distinct, what was spent stays spent, and the log has only
grown. -/
structure Follows (gateway : Gateway H Ref τ) (s₀ s : Floor H τ) : Prop where
  keyed : Keyed s.desk.approvals
  spent : ∀ id, IsSpent s₀.desk.approvals id → IsSpent s.desk.approvals id
  log : Extends (gateway.log s₀) (gateway.log s)

/-- Only the approvals and the logs matter. -/
theorem Follows.of_eq {s₀ s s' : Floor H τ} (h : Follows gateway s₀ s)
    (happrovals : s'.desk.approvals = s.desk.approvals) (hlog : gateway.log s' = gateway.log s) :
    Follows gateway s₀ s' := by
  refine ⟨?_, ?_, ?_⟩
  · rw [happrovals]
    exact h.keyed
  · rw [happrovals]
    exact h.spent
  · rw [hlog]
    exact h.log

theorem indifferent_follows (s₀ : Floor H τ) : Indifferent (Follows gateway s₀) :=
  ⟨fun _ _ h ↦ h.of_eq rfl rfl, fun _ _ h ↦ h.of_eq rfl rfl, fun _ _ h ↦ h.of_eq rfl rfl⟩

theorem Follows.turn {s₀ s : Floor H τ} (h : Follows gateway s₀ s) {d : Desk H τ}
    (hturns : Turns s.desk.approvals d.approvals)
    (hlog : Extends (gateway.log s₀) (gateway.log { s with desk := d })) :
    Follows gateway s₀ { s with desk := d } where
  keyed := hturns.keyed h.keyed
  spent := fun id hid ↦ by
    obtain ⟨item, hget, hspent⟩ := h.spent id hid
    exact hturns.consumed h.keyed hget hspent
  log := hlog

/-- The log of the authority is that of the gateway, or it does not matter: what holds of the log of
the gateway, and of it with one more event that belongs to no call, is kept. -/
theorem wp_perform_log {P : Option EventLog → Prop}
    (hP : ∀ log e, P (some log) → e.callId = none → e.kind = .approvalRecorded →
      P (some (log.snoc e))) {s : Floor H τ} (h : P (gateway.log s)) {office : Office H τ}
    (call : AuthorityCall τ) :
    (call.perform office).wp (fun _ d ↦ P (gateway.log { s with desk := d }))
      (fun _ d ↦ P (gateway.log { s with desk := d })) s.desk := by
  have hlog : ∀ d : Desk H τ, gateway.log { s with desk := d } =
      if gateway.sharesLog then d.log else s.ownLog := fun _ ↦ rfl
  cases hshares : gateway.sharesLog with
  | true =>
    simp only [hlog, hshares, if_true]
    have hs : gateway.log s = s.desk.log := if_pos hshares
    exact keeps_perform_log hP call s.desk (show P s.desk.log from hs ▸ h)
  | false =>
    simp only [hlog, hshares, Bool.false_eq_true, if_false]
    have hs : gateway.log s = s.ownLog := if_neg (by rw [hshares]; nofun)
    exact (Eff.wp_true _ _).mono (fun _ _ _ ↦ hs ▸ h) fun _ _ _ ↦ hs ▸ h

theorem keeps_perform_follows {s₀ s : Floor H τ} (h : Follows gateway s₀ s) {office : Office H τ}
    (call : AuthorityCall τ) :
    (call.perform office).wp
      (fun _ d ↦ Extends (gateway.log s₀) (gateway.log { s with desk := d }))
      (fun _ d ↦ Extends (gateway.log s₀) (gateway.log { s with desk := d })) s.desk :=
  wp_perform_log (fun log e h he _ ↦
    h.snoc (fun id hid ↦ by rw [he] at hid; cases hid)
      fun _ _ id hid ↦ by rw [he] at hid; cases hid)
    h.log call

theorem keeps_note (s₀ : Floor H τ) (n : Note) :
    Eff.Keeps (Follows gateway s₀) (takeNote n : FloorM H τ Unit) :=
  .update fun _ h ↦ h.of_eq rfl rfl

theorem follows_authorityCall (s₀ : Floor H τ) (call : AuthorityCall τ) :
    Eff.Keeps (Follows gateway s₀) (gateway.authorityCall call) := by
  rw [Gateway.authorityCall]
  cases gateway.approvals with
  | none => exact .raise _
  | some office =>
    refine Eff.Keeps.read_bind fun s hs ↦ Eff.wp_bind.mpr (Eff.wp_attempt.mpr (Eff.wp_zoom.mpr ?_))
    have hrest : ∀ (before : Desk H τ) (outcome : Except Exc Str),
        Eff.Keeps (Follows gateway s₀) (do
          noteGrant before call
          Eff.ofExcept outcome : FloorM H τ Str) := fun before outcome ↦
      (keeps_noteGrant (fun _ _ h ↦ h.of_eq rfl rfl) before call).bind fun _ ↦ .ofExcept outcome
    exact ((wp_perform_turns call hs.keyed).and (keeps_perform_follows hs call)).mono
      (fun r d h ↦ hrest _ (.ok r) _ (hs.turn h.1.1 h.2))
      fun e d h ↦ hrest _ (.error e) _ (hs.turn h.1.1 h.2)

theorem follows_spendFor (s₀ : Floor H τ) (office : Office H τ) (token : Str)
    (operation : Operation) (iteration : ℤ) (number : ℕ) :
    Eff.Keeps (Follows gateway s₀)
      (Gateway.spendFor office token operation iteration number) := by
  refine Eff.Keeps.read_bind fun s hs ↦ Eff.wp_bind.mpr (Eff.wp_zoom.mpr ?_)
  refine ((wp_perform_turns (.consume token operation iteration) hs.keyed).and
    (keeps_perform_follows hs (.consume token operation iteration))).mono
      (fun id d h ↦ ?_) fun e d h ↦ hs.turn h.1.1 h.2
  have hturned := hs.turn h.1.1 h.2
  cases s.desk.approvals.get id with
  | none => exact hturned
  | some item => exact keeps_note s₀ _ _ hturned

/-! ## Calls in the log

Starting and finishing a call of one's own touches no call of before. -/

theorem Gateway.log_setLog (log : EventLog) (s : Floor H τ) :
    gateway.log (gateway.setLog log s) = some log := by
  rw [Gateway.log, Gateway.setLog]
  by_cases h : gateway.sharesLog <;> simp [h]

theorem Gateway.approvals_setLog (log : EventLog) (s : Floor H τ) :
    (gateway.setLog log s).desk.approvals = s.desk.approvals := by
  rw [Gateway.setLog]
  split <;> rfl

theorem Follows.setLog {s₀ s : Floor H τ} (h : Follows gateway s₀ s) {p : H × EventLog}
    (hlog : Extends (gateway.log s₀) (some p.2)) :
    Follows gateway s₀
      (gateway.setLog p.2 { s with desk := { s.desk with world := p.1 } }) := by
  refine ⟨?_, ?_, ?_⟩
  · rw [Gateway.approvals_setLog]
    exact h.keyed
  · rw [Gateway.approvals_setLog]
    exact h.spent
  · rw [Gateway.log_setLog]
    exact hlog

/-- A call that is started is a new one. -/
theorem follows_startCall {s₀ s : Floor H τ} (hs : Follows gateway s₀ s)
    (tool : Option (ToolDefinition H Ref τ)) (name : Str) (callInput : Eff Exc H (Option Str))
    (attempt : ℕ) :
    (gateway.startCall tool name callInput attempt).wp
      (fun call t ↦ StartedSince (gateway.log s₀) call ∧ Follows gateway s₀ t)
      (fun _ ↦ Follows gateway s₀) s := by
  rw [Gateway.startCall, Eff.wp_bind, Eff.wp_read]
  cases hlog : gateway.log s with
  | none => exact ⟨fun _ _ _ h ↦ (by cases h), hs⟩
  | some log =>
    have hextends : Extends (gateway.log s₀) (some log) := hlog ▸ hs.log
    have hnew : StartedSince (gateway.log s₀) (some (log.callIdAt log.events.length)) := by
      rintro base hbase _ ⟨⟩
      rw [hbase] at hextends
      exact ⟨_, hextends.2.length_le, hextends.2.callIdAt _⟩
    have hadded : ∀ e : Event, e.callId = some (log.callIdAt log.events.length) →
        Extends (gateway.log s₀) (some (log.snoc e)) := by
      intro e he
      refine hextends.snoc (fun id hid ↦ ⟨_, le_rfl, ?_⟩) (he ▸ hnew)
      rw [he] at hid
      exact (Option.some.inj hid).symm
    rw [Eff.wp_bind, Gateway.onLog, Eff.wp_zoom]
    refine EventLog.wp_startCall.mono (fun id p h ↦ ?_) fun _ p h ↦ hs.setLog ?_
    · obtain ⟨rfl, -, e, hp, -, he⟩ := h
      exact ⟨hnew, hs.setLog (hp ▸ hadded e he)⟩
    · rcases h with hp | ⟨e, hp, -, he⟩
      · exact hp ▸ hextends
      · exact hp ▸ hadded e he

/-- A call that was started since then may be finished. -/
theorem follows_finish {s₀ : Floor H τ} {call : Option Str}
    (hcall : StartedSince (gateway.log s₀) call) (outcome : CallOutcome) (error : Option Str) :
    Eff.Keeps (Follows gateway s₀) (gateway.finish call outcome error) := by
  refine Eff.Keeps.read_bind fun s hs ↦ ?_
  cases hlog : gateway.log s with
  | none => exact hs
  | some log =>
    cases call with
    | none => exact hs
    | some callId =>
      have hextends : Extends (gateway.log s₀) (some log) := hlog ▸ hs.log
      have hnumbered : log.Numbered := by
        cases hbase : gateway.log s₀ with
        | none =>
          rw [hbase] at hextends
          exact hextends.elim
        | some base =>
          rw [hbase] at hextends
          exact hextends.1
      have hadded : ∀ log' : EventLog, log' = log ∨
          EventLog.Finishes gateway.mask callId outcome log log' ∧
            (∃ e ∈ log.events, e.callId = some callId) → Extends (gateway.log s₀) (some log') := by
        rintro _ (rfl | ⟨⟨e, rfl, -, he, -⟩, e', he', hid'⟩)
        · exact hextends
        · refine hextends.snoc (fun id hid ↦ ?_) (he ▸ hcall)
          rw [he] at hid
          cases hid
          obtain ⟨k, hk, hid⟩ := hnumbered e' he' callId hid'
          exact ⟨k, hk.le, hid⟩
      show (gateway.onLog log _).wp _ _ s
      rw [Gateway.onLog, Eff.wp_zoom]
      exact EventLog.wp_finishCall.mono (fun _ p h ↦ hs.setLog (hadded _ h))
        fun _ p h ↦ hs.setLog (hadded _ h)

theorem follows_deny {α : Type} {s₀ : Floor H τ} {call : Option Str}
    (hcall : StartedSince (gateway.log s₀) call) (reason : Str) (e : Exc) :
    Eff.Keeps (Follows gateway s₀) (gateway.deny call reason e : FloorM H τ α) :=
  (follows_finish hcall _ _).bind fun _ ↦ .raise e

/-! ## Whatever is called

A handler can call the gateway again; what the gateway keeps one frame down it keeps here. -/

/-- What the gateway keeps one frame down, which is what a handler can do by calling it again. -/
structure CallsFollow (gateway : Gateway H Ref τ) (calls : Calls H Ref τ) : Prop where
  invoke : ∀ s₀ name arguments, Eff.Keeps (Follows gateway s₀) (calls.invoke name arguments)
  invokeWrite : ∀ s₀ name arguments token iteration,
    Eff.Keeps (Follows gateway s₀) (calls.invokeWrite name arguments token iteration)

theorem follows_enter (s₀ : Floor H τ) (tool : ToolDefinition H Ref τ) (copies : Bool)
    (arguments : Arguments Ref) (number : Option ℕ) :
    Eff.Keeps (Follows gateway s₀) (gateway.enter tool copies arguments number) :=
  (indifferent_follows s₀).keeps_enter (fun _ _ h ↦ h.of_eq rfl rfl) tool copies arguments number

/-- What a child does in memory is gone when it has ended. -/
theorem follows_runChild (calls : Calls H Ref τ) (s₀ : Floor H τ) (tool : ToolDefinition H Ref τ)
    (killed : Option ℕ) (arguments : Arguments Ref) (number : Option ℕ) :
    Eff.Keeps (Follows gateway s₀) (gateway.runChild calls tool killed arguments number) := by
  refine Eff.Keeps.read_bind fun s hs ↦ Eff.wp_bind.mpr ?_
  refine (follows_enter s₀ tool false arguments number s hs).mono (fun r s₁ _ ↦ ?_)
    fun _ _ h ↦ h
  rw [Eff.wp_bind, Eff.wp_update, Eff.wp_bind, Eff.wp_attempt]
  refine (Eff.wp_true _ _).mono (fun r t _ ↦ ?_) fun e t _ ↦ ?_
  · exact hs.of_eq rfl rfl
  · exact hs.of_eq rfl rfl

section
variable {calls : Calls H Ref τ} (hcalls : CallsFollow gateway calls)
include hcalls

theorem follows_run {β : Type} (s₀ : Floor H τ) (nestedAllowed : Bool) (p : Prog H Ref τ β) :
    Eff.Keeps (Follows gateway s₀) (p.run gateway calls nestedAllowed) :=
  (indifferent_follows s₀).keeps_run (hcalls.invoke s₀) (hcalls.invokeWrite s₀)
    (follows_authorityCall s₀) nestedAllowed p

theorem follows_execute (s₀ : Floor H τ) (tool : ToolDefinition H Ref τ)
    (arguments : Arguments Ref) (number : Option ℕ) :
    Eff.Keeps (Follows gateway s₀) (gateway.execute calls tool arguments number) := by
  have hI : Indifferent (Follows gateway s₀) := indifferent_follows s₀
  refine .ite (fun _ ↦ .ite (fun _ ↦ .raise _) fun _ ↦ ?_) fun _ ↦ ?_
  · refine (hI.keeps_onBudget _).bind fun _ ↦ (hI.keeps_onHost _).bind fun ending ↦ ?_
    cases ending with
    | notStarted e => exact .raise e
    | killed steps => exact (follows_runChild _ _ _ _ _ _).bind fun _ ↦ .raise _
    | lost e => exact (follows_runChild _ _ _ _ _ _).bind fun _ ↦ .raise e
    | answered =>
      refine (follows_runChild _ _ _ _ _ _).bind fun answer ↦ ?_
      cases answer with
      | ok answer => exact hI.keeps_new _
      | error e => exact .raise _
  · refine (hI.keeps_onHost _).bind fun started ↦ (follows_enter _ _ _ _ _).bind fun r ↦ ?_
    exact (follows_run hcalls s₀ true _).bind fun _ ↦ (hI.keeps_onHost _).bind fun _ ↦
      .ite (fun _ ↦ .raise _) fun _ ↦ .pure _

theorem follows_carryOut (s₀ : Floor H τ) (tool : ToolDefinition H Ref τ)
    (arguments : Arguments Ref) (number : Option ℕ) :
    Eff.Keeps (Follows gateway s₀) (gateway.carryOut calls tool arguments number) := by
  have hI : Indifferent (Follows gateway s₀) := indifferent_follows s₀
  refine (follows_execute hcalls s₀ tool arguments number).bind fun result ↦ ?_
  exact (hI.keeps_onBudget _).bind fun _ ↦ (keeps_content _).bind fun _ ↦
    (Eff.Keeps.ofExcept _).bind fun _ ↦ (Eff.Keeps.ofExcept _).bind fun _ ↦
      (hI.keeps_onBudget _).bind fun _ ↦ .pure _

theorem follows_invokeAttempts (s₀ : Floor H τ) (tool : ToolDefinition H Ref τ) (name : Str)
    (arguments : Ref) :
    ∀ (left attempt : ℕ) (first : Option Str), StartedSince (gateway.log s₀) first →
      Eff.Keeps (Follows gateway s₀)
        (gateway.invokeAttempts calls tool name arguments left attempt first)
  | 0, _, _, _ => .raise _
  | left + 1, attempt, first, hfirst => by
    have hI : Indifferent (Follows gateway s₀) := indifferent_follows s₀
    intro s hs
    rw [Gateway.invokeAttempts_succ]
    have hattempt : ∀ call, StartedSince (gateway.log s₀) call → Eff.Keeps (Follows gateway s₀)
        (gateway.attemptOnce calls tool name arguments left attempt call) := by
      intro call hcall
      refine (hI.keeps_onBudget _).attempt.bind fun reserved ↦ ?_
      cases reserved with
      | error e => exact .ite (fun _ ↦ follows_deny hcall _ e) fun _ ↦ .raise e
      | ok _ =>
        refine (follows_carryOut hcalls s₀ tool _ none).attempt.bind fun carried ↦ ?_
        cases carried with
        | ok result => exact (follows_finish hcall _ _).bind fun _ ↦ .pure result
        | error e =>
          refine .ite (fun _ ↦ .raise e) fun _ ↦ (follows_finish hcall _ _).bind fun _ ↦ ?_
          exact .ite (fun _ ↦ follows_invokeAttempts s₀ tool name arguments left _ call hcall)
            fun _ ↦ .raise _
    split
    · rw [Eff.wp_bind]
      exact (follows_startCall hs _ _ _ _).mono (fun call t h ↦ hattempt call h.1 t h.2)
        fun _ _ h ↦ h
    · exact hattempt first hfirst s hs

theorem follows_invoke (s₀ : Floor H τ) (name : Str) (arguments : Option Ref) :
    Eff.Keeps (Follows gateway s₀) (gateway.invoke calls name arguments) := by
  have hI : Indifferent (Follows gateway s₀) := indifferent_follows s₀
  unfold Gateway.invoke
  refine (hI.keeps_onBudget _).bind fun _ ↦ fun s hs ↦ Eff.wp_bind.mpr ?_
  refine (follows_startCall hs _ _ _ _).mono (fun call t hcalled ↦ ?_) fun _ _ h ↦ h
  obtain ⟨hcall, ht⟩ := hcalled
  have hdeny : ∀ reason e,
      Eff.Keeps (Follows gateway s₀) (gateway.deny call reason e : FloorM H τ Ref) :=
    fun reason e ↦ follows_deny hcall reason e
  cases gateway.tool name with
  | none => exact hdeny _ _ t ht
  | some tool =>
    refine Eff.Keeps.ite (fun _ ↦ hdeny _ _) (fun _ ↦ ?_) t ht
    refine Eff.Keeps.read_bind fun s hs ↦ Eff.Keeps.ite (fun _ ↦ hdeny _ _) (fun _ ↦ ?_) s hs
    rcases arguments with _ | r
    on_goal 1 => refine (hI.keeps_new _).bind ?_
    on_goal 2 => refine (Eff.Keeps.pure r).bind ?_
    all_goals
      intro given
      refine (keeps_content given).bind fun v ↦ .ite (fun _ ↦ hdeny _ _) fun _ ↦ ?_
      split
      · exact hdeny _ _
      · exact .raise _
      · exact follows_invokeAttempts hcalls s₀ tool name given _ _ call hcall

theorem follows_describeCall (s₀ : Floor H τ) (name : Str)
    (describe : Ref → Prog H Ref τ Operation) (snapshot : Json) (number : ℕ) :
    Eff.Keeps (Follows gateway s₀)
      (gateway.describeCall calls name describe snapshot number) := by
  have hI : Indifferent (Follows gateway s₀) := indifferent_follows s₀
  exact (hI.keeps_new _).bind fun arguments ↦ (keeps_content arguments).bind fun value ↦
    (follows_run hcalls s₀ true _).bind fun operation ↦ (keeps_note s₀ _).bind fun _ ↦
      .ite (fun _ ↦ .raise _) fun _ ↦ .pure _

/-- An approval is spent, or the call is denied: what follows is the handler. -/
theorem follows_writeAdmitted {s₀ : Floor H τ} (tool : ToolDefinition H Ref τ)
    (describe : Ref → Prog H Ref τ Operation) (office : Office H τ) (name : Str) (snapshot : Json)
    (token : Str) (iteration : ℤ) (number : ℕ) {call : Option Str}
    (hcall : StartedSince (gateway.log s₀) call) :
    Eff.Keeps (Follows gateway s₀) (gateway.writeAdmitted calls tool describe office name snapshot
      token iteration number call) := by
  have hI : Indifferent (Follows gateway s₀) := indifferent_follows s₀
  have hfailed : ∀ e : Exc, Eff.Keeps (Follows gateway s₀)
      (if e.isException then gateway.deny call (gateway.typeName e) e else Eff.raise e :
        FloorM H τ Ref) := fun e ↦
    .ite (fun _ ↦ follows_deny hcall _ e) fun _ ↦ .raise e
  rw [Gateway.writeAdmitted]
  split
  · exact follows_deny hcall _ _
  · exact .raise _
  refine Eff.Keeps.bind (Eff.Keeps.attempt ?_) fun approved ↦ ?_
  · exact (follows_describeCall hcalls s₀ name describe snapshot number).bind fun operation ↦
      follows_spendFor s₀ office token operation iteration number
  cases approved with
  | error e => exact hfailed e
  | ok _ =>
    refine (hI.keeps_onBudget _).attempt.bind fun reserved ↦ ?_
    cases reserved with
    | error e => exact hfailed e
    | ok _ =>
      refine (follows_carryOut hcalls s₀ tool _ (some number)).attempt.bind fun written ↦ ?_
      cases written with
      | ok result => exact (follows_finish hcall _ _).bind fun _ ↦ .pure result
      | error e =>
        exact .ite (fun _ ↦ (follows_finish hcall _ _).bind fun _ ↦ .raise e) fun _ ↦ .raise e

theorem follows_invokeWrite (s₀ : Floor H τ) (name : Str) (arguments : Ref) (token : Str)
    (iteration : ℤ) :
    Eff.Keeps (Follows gateway s₀)
      (gateway.invokeWrite calls name arguments token iteration) := by
  have hI : Indifferent (Follows gateway s₀) := indifferent_follows s₀
  have hbegin : Eff.Keeps (Follows gateway s₀) (Gateway.begin : FloorM H τ ℕ) :=
    Eff.Keeps.read_bind fun s hs ↦ ((Eff.Keeps.update fun _ h ↦ h.of_eq rfl rfl).bind fun _ ↦
      (keeps_note s₀ _).bind fun _ ↦ .pure _) s hs
  refine hbegin.bind fun number ↦ (hI.keeps_onBudget _).bind fun _ ↦
    (keeps_content arguments).bind fun given ↦ (Eff.Keeps.ofExcept _).bind fun snapshot ↦ ?_
  refine fun s hs ↦ Eff.wp_bind.mpr ?_
  refine (follows_startCall hs _ _ _ _).mono (fun call t ⟨hcall, ht⟩ ↦ ?_) fun _ _ h ↦ h
  rw [Gateway.writeStarted]
  refine Eff.Keeps.read_bind (fun s hs ↦ ?_) t ht
  cases gateway.admitCall name given.isStringKeyed snapshot s.route with
  | error p => exact follows_deny hcall p.1 p.2 s hs
  | ok p =>
    exact follows_writeAdmitted hcalls p.1 p.2.1 p.2.2.1 name p.2.2.2 token iteration number hcall
      s hs

end

/-- The gateway keeps it, however many frames are left. -/
theorem callsFollow_callsAt : ∀ depth, CallsFollow gateway (gateway.callsAt depth)
  | 0 => ⟨fun _ _ _ ↦ .raise _, fun _ _ _ _ _ ↦ .raise _⟩
  | depth + 1 =>
    ⟨fun s₀ name arguments ↦ follows_invoke (callsFollow_callsAt depth) s₀ name arguments,
      fun s₀ name arguments token iteration ↦
        follows_invokeWrite (callsFollow_callsAt depth) s₀ name arguments token iteration⟩

end AtlasCore
