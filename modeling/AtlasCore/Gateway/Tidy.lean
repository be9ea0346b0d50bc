import AtlasCore.EventLog.Brackets
import AtlasCore.Gateway.Denied

/-!
# What is called leaves no call open

While a call of the gateway is under way, its handler and `describe` may call the gateway again.  If
these calls are finished when they end, so is everything that was started while the outer call was
under way, and the outer call is the only one that is still open.
-/

set_option autoImplicit false

namespace AtlasCore

open Py

variable {H Ref τ : Type} {gateway : Gateway H Ref τ}

/-! ## Logs with their numbers

In a log whose events have their numbers, the id of the next call is that of no call before. -/

namespace EventLog

variable {log log' : EventLog}

/-- No event of a log with its numbers belongs to the next call. -/
theorem Numbered.noEnd (h : log.Numbered) : NoEnd log := fun e he hid ↦ by
  obtain ⟨k, hk, heq⟩ := h e he _ hid
  have := log.callIdAt_injective heq
  omega

/-- A piece whose ids are those of its places leaves a log its numbers. -/
theorem Numbered.extend (h : log.Numbered) {more : List Event}
    (hmore : ∀ e ∈ more, e.callId = none ∨
      ∃ k < log.events.length + more.length, e.callId = some (log.callIdAt k)) :
    (⟨log.runId, log.events ++ more⟩ : EventLog).Numbered := by
  intro e he id hid
  rw [List.length_append]
  rcases List.mem_append.mp he with he | he
  · obtain ⟨k, hk, heq⟩ := h e he id hid
    exact ⟨k, by omega, heq⟩
  · rcases hmore e he with hnone | ⟨k, hk, hcall⟩
    · rw [hnone] at hid
      cases hid
    · exact ⟨k, hk, Option.some.inj (hid.symm.trans hcall)⟩

theorem Settles.numbered (h : Settles log log') (hlog : log.Numbered) : log'.Numbered := by
  obtain ⟨more, rfl, hmore⟩ := h
  refine hlog.extend fun e he ↦ (hmore.place e he).imp And.left ?_
  exact fun ⟨k, _, hk, hid⟩ ↦ ⟨k, hk, hid⟩

theorem Ongoing.numbered (h : Ongoing log log') (hlog : log.Numbered) : log'.Numbered := by
  obtain ⟨⟨started, inner, rfl, -, hid, hinner⟩, -⟩ := h
  refine hlog.extend fun e he ↦ ?_
  rw [List.length_cons]
  rcases List.mem_cons.mp he with rfl | he
  · exact .inr ⟨_, by omega, hid⟩
  · refine (hinner.place e he).imp And.left ?_
    exact fun ⟨k, _, hk, hid⟩ ↦ ⟨k, by omega, hid⟩

end EventLog

/-! ## Since a time

Tidy: every call that was started since then is finished. -/

/-- Every call that was started in the log since then is finished; or there is no log. -/
def Tidy (gateway : Gateway H Ref τ) (s t : Floor H τ) : Prop :=
  Option.Rel EventLog.Settles (gateway.log s) (gateway.log t)

theorem Tidy.of_log_eq {s t : Floor H τ} (h : gateway.log t = gateway.log s) :
    Tidy gateway s t := by
  rw [Tidy, h]
  cases gateway.log s with
  | none => exact .none
  | some log => exact .some (.refl log)

theorem Tidy.refl (s : Floor H τ) : Tidy gateway s s := .of_log_eq rfl

theorem Tidy.trans {s t u : Floor H τ} (h : Tidy gateway s t) (h' : Tidy gateway t u) :
    Tidy gateway s u := by
  rw [Tidy] at h h' ⊢
  generalize gateway.log s = a at h
  generalize gateway.log t = b at h h'
  generalize gateway.log u = c at h'
  cases h with
  | none => exact h'
  | some h =>
    cases h' with
    | some h' => exact .some (h.trans h')

/-- The log of a tidy gateway. -/
theorem Tidy.exists_log {s t : Floor H τ} (h : Tidy gateway s t) {log : EventLog}
    (hlog : gateway.log s = some log) : ∃ log', gateway.log t = some log' ∧ log.Settles log' := by
  rw [Tidy, hlog] at h
  generalize gateway.log t = b at h
  cases h with
  | some h => exact ⟨_, rfl, h⟩

theorem indifferent_tidy (s : Floor H τ) : Indifferent (Tidy gateway s) :=
  ⟨fun _ _ h ↦ h, fun _ _ h ↦ h, fun _ _ h ↦ h⟩

theorem indifferent_inService : Indifferent (InService gateway : Floor H τ → Prop) :=
  ⟨fun _ _ h ↦ ⟨h.good, h.numbered⟩, fun _ _ h ↦ ⟨h.good, h.numbered⟩,
    fun _ _ h ↦ ⟨h.good, h.numbered⟩⟩

theorem InService.tidy {s t : Floor H τ} (hs : InService gateway s) (hgood : Good t.core)
    (h : Tidy gateway s t) : InService gateway t := by
  refine ⟨hgood, fun log' hlog' ↦ ?_⟩
  rw [Tidy, hlog'] at h
  cases hlog : gateway.log s with
  | none =>
    rw [hlog] at h
    cases h
  | some log =>
    rw [hlog] at h
    cases h with
    | some h => exact h.numbered (hs.numbered log hlog)

/-- Tidy, and ready for the next call: nothing that was started is left open. -/
structure Serving (gateway : Gateway H Ref τ) (s t : Floor H τ) : Prop where
  service : InService gateway t
  tidy : Tidy gateway s t

theorem Serving.refl {s : Floor H τ} (hs : InService gateway s) : Serving gateway s s :=
  ⟨hs, .refl s⟩

theorem indifferent_serving (s : Floor H τ) : Indifferent (Serving gateway s) :=
  ⟨fun _ _ h ↦ ⟨indifferent_inService.world _ _ h.1, h.2⟩,
    fun _ _ h ↦ ⟨indifferent_inService.budget _ _ h.1, h.2⟩,
    fun _ _ h ↦ ⟨indifferent_inService.route _ _ h.1, h.2⟩⟩

/-- Tidy calls that keep the invariant of the notes keep the gateway in service. -/
theorem keeps_serving {α : Type} {m : FloorM H τ α} (hsafe : ∀ c, Eff.Keeps (Since c) m)
    (htidy : ∀ s, InService gateway s → m.wp (fun _ ↦ Tidy gateway s) (fun _ ↦ Tidy gateway s) s)
    (s₀ : Floor H τ) : Eff.Keeps (Serving gateway s₀) m := fun s hs ↦ by
  have hsince : m.wp (fun _ ↦ Since s.core) (fun _ ↦ Since s.core) s :=
    hsafe s.core s (.refl hs.service.good)
  exact (hsince.and (htidy s hs.service)).mono
    (fun _ _ h ↦ ⟨hs.service.tidy h.1.1 h.2, hs.tidy.trans h.2⟩)
    fun _ _ h ↦ ⟨hs.service.tidy h.1.1 h.2, hs.tidy.trans h.2⟩

/-! ## The authority

The authority starts no call and finishes none. -/

theorem tidy_perform (s : Floor H τ) {office : Office H τ} (call : AuthorityCall τ) :
    (call.perform office).wp (fun _ d ↦ Tidy gateway s { s with desk := d })
      (fun _ d ↦ Tidy gateway s { s with desk := d }) s.desk := by
  refine wp_perform_log (P := Option.Rel EventLog.Settles (gateway.log s))
    (fun log e h he hkind ↦ ?_) (Tidy.refl s) call
  generalize gateway.log s = base at h
  cases h with
  | some h => exact .some (h.plain he (by rw [hkind]; decide))

theorem tidy_authorityCall (call : AuthorityCall τ) (s : Floor H τ) :
    (gateway.authorityCall call).wp (fun _ ↦ Tidy gateway s) (fun _ ↦ Tidy gateway s) s := by
  rw [Gateway.authorityCall]
  cases gateway.approvals with
  | none => exact .refl s
  | some office =>
    have hrest : ∀ outcome : Except Exc Str, Eff.Keeps (Tidy gateway s) (do
        noteGrant s.desk call
        Eff.ofExcept outcome : FloorM H τ Str) := fun outcome ↦
      (keeps_noteGrant (fun _ _ h ↦ h) s.desk call).bind fun _ ↦ .ofExcept outcome
    refine Eff.wp_bind.mpr (Eff.wp_read.mpr (Eff.wp_bind.mpr (Eff.wp_attempt.mpr
      (Eff.wp_zoom.mpr ?_))))
    exact (tidy_perform s call).mono (fun r _ h ↦ hrest (.ok r) _ h)
      fun e _ h ↦ hrest (.error e) _ h

theorem tidy_spendFor (office : Office H τ) (token : Str) (operation : Operation) (iteration : ℤ)
    (number : ℕ) (s : Floor H τ) :
    (Gateway.spendFor office token operation iteration number).wp (fun _ ↦ Tidy gateway s)
      (fun _ ↦ Tidy gateway s) s := by
  refine Eff.wp_bind.mpr (Eff.wp_read.mpr (Eff.wp_bind.mpr (Eff.wp_zoom.mpr ?_)))
  refine (tidy_perform s (.consume token operation iteration)).mono (fun id d h ↦ ?_)
    fun _ _ h ↦ h
  cases s.desk.approvals.get id with
  | none => exact h
  | some item => exact h

/-! ## Whatever is called

A handler can call the gateway again, which leaves it as tidy as it was. -/

/-- The gateway one frame down is tidy, and keeps what keeps approvals safe. -/
structure CallsTidy (gateway : Gateway H Ref τ) (calls : Calls H Ref τ) : Prop where
  safe : CallsSafe calls
  invoke : ∀ name arguments s, InService gateway s →
    (calls.invoke name arguments).wp (fun _ ↦ Tidy gateway s) (fun _ ↦ Tidy gateway s) s
  invokeWrite : ∀ name arguments token iteration s, InService gateway s →
    (calls.invokeWrite name arguments token iteration).wp (fun _ ↦ Tidy gateway s)
      (fun _ ↦ Tidy gateway s) s

/-- What a child logs is gone when it has ended. -/
theorem tidy_runChild (calls : Calls H Ref τ) (tool : ToolDefinition H Ref τ) (killed : Option ℕ)
    (arguments : Arguments Ref) (number : Option ℕ) (s₀ : Floor H τ) :
    Eff.Keeps (Tidy gateway s₀) (gateway.runChild calls tool killed arguments number) := by
  refine Eff.Keeps.read_bind fun s hs ↦ Eff.wp_bind.mpr ?_
  refine ((indifferent_tidy s₀).keeps_enter (fun _ _ h ↦ h) tool false arguments number s hs).mono
    (fun r s₁ _ ↦ ?_) fun _ _ h ↦ h
  rw [Eff.wp_bind, Eff.wp_update, Eff.wp_bind, Eff.wp_attempt]
  refine (Eff.wp_true _ _).mono (fun r t _ ↦ ?_) fun e t _ ↦ ?_
  · exact hs.trans (.of_log_eq rfl)
  · exact hs.trans (.of_log_eq rfl)

section
variable {calls : Calls H Ref τ} (hcalls : CallsTidy gateway calls)
include hcalls

theorem serving_run {β : Type} (s₀ : Floor H τ) (nestedAllowed : Bool) (p : Prog H Ref τ β) :
    Eff.Keeps (Serving gateway s₀) (p.run gateway calls nestedAllowed) :=
  (indifferent_serving s₀).keeps_run
    (fun name arguments ↦ keeps_serving (fun c ↦ hcalls.safe.invoke c name arguments)
      (hcalls.invoke name arguments) s₀)
    (fun name arguments token iteration ↦
      keeps_serving (fun c ↦ hcalls.safe.invokeWrite c name arguments token iteration)
        (hcalls.invokeWrite name arguments token iteration) s₀)
    (fun call ↦ keeps_serving (fun c ↦ keeps_authorityCall c call)
      (fun s _ ↦ tidy_authorityCall call s) s₀)
    nestedAllowed p

variable {c : Core τ} {tool : ToolDefinition H Ref τ} {arguments : Arguments Ref}
  {number : Option ℕ} {s : Floor H τ}

theorem tidy_execute (hs : InService gateway s)
    (hmay : ∀ s' : Floor H τ, s'.core = s.core → MayEnter c tool arguments number s') :
    (gateway.execute calls tool arguments number).wp (fun _ ↦ Tidy gateway s)
      (fun _ ↦ Tidy gateway s) s := by
  have hI : Indifferent (Tidy gateway s) := indifferent_tidy s
  rw [Gateway.execute]
  refine Eff.wp_ite.mpr ⟨fun _ ↦ ?_, fun _ ↦ ?_⟩
  · -- in a forked process
    have hisolated : Eff.Keeps (Tidy gateway s)
        (gateway.runIsolated calls tool arguments number) := by
      refine .ite (fun _ ↦ .raise _) fun _ ↦ (hI.keeps_onBudget _).bind fun _ ↦
        (hI.keeps_onHost _).bind fun ending ↦ ?_
      cases ending with
      | notStarted e => exact .raise e
      | killed steps => exact (tidy_runChild _ _ _ _ _ _).bind fun _ ↦ .raise _
      | lost e => exact (tidy_runChild _ _ _ _ _ _).bind fun _ ↦ .raise e
      | answered =>
        refine (tidy_runChild _ _ _ _ _ _).bind fun answer ↦ ?_
        cases answer with
        | ok answer => exact hI.keeps_new _
        | error e => exact .raise _
    exact hisolated s (.refl s)
  · -- the handler finds the gateway in service, and leaves it tidy
    have hsame : Indifferent fun t : Floor H τ ↦ t.core = s.core ∧ Tidy gateway s t :=
      ⟨fun _ _ h ↦ h, fun _ _ h ↦ h, fun _ _ h ↦ h⟩
    rw [Eff.wp_bind]
    refine (hsame.keeps_onHost _ s ⟨rfl, .refl s⟩).mono (fun started s₁ h₁ ↦ ?_) fun _ _ h ↦ h.2
    rw [Eff.wp_bind]
    refine ((wp_enter tool true arguments number s₁).and
      (hI.keeps_enter (fun _ _ h ↦ h) tool true arguments number s₁ h₁.2)).mono
        (fun r s₂ hentered ↦ ?_) fun _ _ h ↦ h.1.elim
    obtain ⟨⟨value, hvalue, hcore⟩, h₂⟩ := hentered
    have hgood : Good s₂.core := (hmay s₁ h₁.1 value hvalue s₂ hcore).1
    rw [Eff.wp_bind]
    refine (serving_run hcalls s true _ s₂ ⟨hs.tidy hgood h₂, h₂⟩).mono (fun result s₃ h₃ ↦ ?_)
      fun _ _ h ↦ h.tidy
    have hrest : Eff.Keeps (Tidy gateway s) (do
        let finished ← onHost gateway.monotonic
        if finished - started > tool.timeoutSeconds then Eff.raise .toolTimeout
        else return result) :=
      (hI.keeps_onHost _).bind fun _ ↦ .ite (fun _ ↦ .raise _) fun _ ↦ .pure _
    exact hrest s₃ h₃.tidy

theorem tidy_carryOut (hs : InService gateway s)
    (hmay : ∀ s' : Floor H τ, s'.core = s.core → MayEnter c tool arguments number s') :
    (gateway.carryOut calls tool arguments number).wp (fun _ ↦ Tidy gateway s)
      (fun _ ↦ Tidy gateway s) s := by
  have hI : Indifferent (Tidy gateway s) := indifferent_tidy s
  rw [Gateway.carryOut, Eff.wp_bind]
  refine (tidy_execute hcalls hs hmay).mono (fun result s₁ h₁ ↦ ?_) fun _ _ h ↦ h
  have hrest : Eff.Keeps (Tidy gateway s) (do
      onBudget (RunBudget.check gateway.meter)
      let v ← gateway.content result
      let serialized ← Eff.ofExcept (v.dumps gateway.nesting)
      Eff.ofExcept (v.validateSchema gateway.equal tool.outputSchema)
      onBudget (RunBudget.chargeOutput gateway.meter serialized)
      return result) :=
    (hI.keeps_onBudget _).bind fun _ ↦ (keeps_content _).bind fun _ ↦
      (Eff.Keeps.ofExcept _).bind fun _ ↦ (Eff.Keeps.ofExcept _).bind fun _ ↦
        (hI.keeps_onBudget _).bind fun _ ↦ .pure _
  exact hrest s₁ h₁

theorem tidy_describeCall (hs : InService gateway s) (name : Str)
    (describe : Ref → Prog H Ref τ Operation) (snapshot : Json) (number : ℕ) :
    (gateway.describeCall calls name describe snapshot number).wp (fun _ ↦ Tidy gateway s)
      (fun _ ↦ Tidy gateway s) s := by
  have hI : Indifferent (Serving gateway s) := indifferent_serving s
  rw [Gateway.describeCall, Eff.wp_bind]
  refine (hI.keeps_new _ s (.refl hs)).mono (fun r s₁ h₁ ↦ ?_) fun _ _ h ↦ h.tidy
  rw [Eff.wp_bind]
  refine (keeps_content r s₁ h₁).mono (fun value s₂ h₂ ↦ ?_) fun _ _ h ↦ h.tidy
  rw [Eff.wp_bind]
  refine (serving_run hcalls s true _ s₂ h₂).mono (fun operation s₃ h₃ ↦ ?_) fun _ _ h ↦ h.tidy
  have hnote : Eff.Keeps (Tidy gateway s)
      (takeNote (.described number value operation) : FloorM H τ Unit) := .update fun _ h ↦ h
  exact (hnote.bind fun _ ↦ .ite (fun _ ↦ .raise _) fun _ ↦ .pure _) s₃ h₃.tidy

end

end AtlasCore
