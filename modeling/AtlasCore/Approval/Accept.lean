import AtlasCore.Approval.History

/-!
# `consume` in two parts

First the checks, which change no approval, and then the approval is spent and recorded.

The cut is where the source sets the decision: before it a call can be turned down for any of the
reasons in `Authority.consume`, and every one of them leaves the approvals as they were; after it
nothing refuses any more, and only the log can still raise.  `wp_accept` and `wp_settle` say so of
the two parts, and `consume_eq` that they are the whole.
-/

set_option autoImplicit false

namespace AtlasCore

open Py

variable {W τ : Type}

/-! ## What touches no approval

The clocks, the repository and the log are asked and written to, and the approvals stay as they are.
-/

section
variable {office : Office W τ} {P : Approvals τ → Prop}

/-- Asking the machine touches no approval. -/
theorem keeps_asks {α : Type} (m : Eff Exc W α) :
    Eff.Keeps (fun d : Desk W τ ↦ P d.approvals) (asks m) := by
  refine Eff.Keeps.zoom ?_ m
  exact fun _ _ h ↦ h

/-- A record touches no approval. -/
theorem keeps_record (decision id : Str) (item : Pending τ) (extra : Fields) :
    Eff.Keeps (fun d : Desk W τ ↦ P d.approvals)
      (Authority.record office decision id item extra) := by
  rw [Authority.record]
  refine Eff.Keeps.read_bind fun d hd ↦ ?_
  cases d.log with
  | none => exact hd
  | some log =>
    refine Eff.wp_ite.mpr ⟨fun _ ↦ hd, fun _ ↦ ?_⟩
    refine Eff.Keeps.zoom ?_ _ d hd
    exact fun _ _ h ↦ h

end

/-! ## The two parts

`consume` is a decision and then an act.  The decision changes no approval whichever way it goes;
the act cannot be refused any more.  Everything that is proved of `consume` is proved of one of
the two. -/

namespace Authority

variable (office : Office W τ)

/-- The checks of `_consume` that ask where the repository is. -/
def acceptHead (id : Str) (item : Pending τ) (operation : Operation) :
    DeskM W τ (Str × Pending τ) := do
  match ← Eff.attempt (asks (office.headOf item.operation.repo)) with
  | .error (.approvalRejected reason) => reject office id item reason []
  | .error e => Eff.raise e
  | .ok head =>
    if head ≠ item.operation.head then
      reject office id item (str "head_moved") [(str "current_head", .str head)]
    else if operation.sha256 ≠ item.operation.sha256 then
      reject office id item (str "operation_mismatch")
        [(str "offered_sha256", .str operation.sha256)]
    else return (id, item)

/-- All the checks of `_consume`: the item they accept. -/
def accept (token : Str) (operation : Operation) (iteration : ℤ) :
    DeskM W τ (Str × Pending τ) := do
  let digest ← tokenDigest token
  match found (← Eff.read).approvals digest with
  | none => rejectUnknown office operation iteration
  | some (id, item) =>
    if item.decision = .consumed then reject office id item (str "already_used") []
    else
      match item.decision, item.expiresMonotonic, item.expiresWall with
      | .granted, some monotonic, some wall => do
        if ← isExpired office monotonic wall then reject office id item (str "expired") []
        else acceptHead office id item operation
      | _, _, _ => reject office id item (str "not_granted") []

/-- What of `_consume` comes after the checks: the decision is set, and then logged.  Nothing in it
can refuse any more. -/
def settle (accepted : Str × Pending τ) : DeskM W τ Str := do
  assign accepted.1 fun p ↦ { p with decision := .consumed }
  record office (str "consumed") accepted.1 accepted.2
    [(str "granted_by", EventLog.textOrNull accepted.2.grantedBy)]
  return accepted.1

variable {office}

theorem reject_bind {α β : Type} (id : Str) (item : Pending τ) (reason : Str) (extra : Fields)
    (f : α → DeskM W τ β) :
    (reject office id item reason extra >>= f) = reject office id item reason extra := by
  rw [reject, bind_assoc]
  rfl

theorem spend_eq (id : Str) (item : Pending τ) (operation : Operation) :
    spend office id item operation = acceptHead office id item operation >>= settle office := by
  rw [spend, acceptHead, bind_assoc]
  congr 1
  funext head
  cases head with
  | error e =>
    cases e with
    | approvalRejected reason => exact (reject_bind _ _ _ _ _).symm
    | _ => rfl
  | ok head =>
    simp only
    split
    · exact (reject_bind _ _ _ _ _).symm
    · split
      · exact (reject_bind _ _ _ _ _).symm
      · rfl

/-- **`consume` is its checks, and then the spending.** -/
theorem consume_eq (token : Str) (operation : Operation) (iteration : ℤ) :
    consume office token operation iteration =
      accept office token operation iteration >>= settle office := by
  rw [consume, accept, bind_assoc]
  congr 1
  funext digest
  rw [bind_assoc]
  congr 1
  funext d
  cases found d.approvals digest with
  | none => exact (reject_bind _ _ _ _ _).symm
  | some p =>
    simp only
    split
    · exact (reject_bind _ _ _ _ _).symm
    · generalize p.2.decision = decision
      generalize p.2.expiresMonotonic = expiresMonotonic
      generalize p.2.expiresWall = expiresWall
      cases decision with
      | granted =>
        cases expiresMonotonic with
        | none => exact (reject_bind _ _ _ _ _).symm
        | some monotonic =>
          cases expiresWall with
          | none => exact (reject_bind _ _ _ _ _).symm
          | some wall =>
            dsimp only
            rw [bind_assoc]
            congr 1
            funext expired
            split
            · exact (reject_bind _ _ _ _ _).symm
            · exact spend_eq _ _ _
      | _ => exact (reject_bind _ _ _ _ _).symm

variable {d : Desk W τ}

/-- What is accepted is a granted item, and no check changes an approval. -/
theorem wp_accept {token : Str} {operation : Operation} {iteration : ℤ}
    (hnodup : (d.approvals.map (·.1)).Nodup) :
    (accept office token operation iteration).wp
      (fun p d' ↦ d'.approvals = d.approvals ∧ d.approvals.get p.1 = some p.2 ∧
        p.2.decision = .granted ∧ operation.sha256 = p.2.operation.sha256)
      (fun _ d' ↦ d'.approvals = d.approvals) d := by
  have hreject : ∀ {d₁ : Desk W τ} (id : Str) (item : Pending τ) (reason : Str) (extra : Fields),
      d₁.approvals = d.approvals →
      (reject office id item reason extra : DeskM W τ (Str × Pending τ)).wp
        (fun p d' ↦ d'.approvals = d.approvals ∧ d.approvals.get p.1 = some p.2 ∧
          p.2.decision = .granted ∧ operation.sha256 = p.2.operation.sha256)
        (fun _ d' ↦ d'.approvals = d.approvals) d₁ := by
    intro d₁ id item reason extra h
    rw [reject, Eff.wp_bind]
    exact (keeps_record (P := fun a ↦ a = d.approvals) _ _ _ _ d₁ h).mono (fun _ _ h ↦ h)
      fun _ _ h ↦ h
  rw [accept, Eff.wp_bind, tokenDigest]
  cases sha256Text token with
  | none => exact rfl
  | some digest =>
    rw [Eff.wp_pure, Eff.wp_bind, Eff.wp_read]
    cases hfound : found d.approvals digest with
    | none => exact hreject _ _ _ _ rfl
    | some p =>
      obtain ⟨id, item⟩ := p
      have hget := Approvals.get_of_mem hnodup (List.mem_of_find?_eq_some hfound)
      refine Eff.wp_ite.mpr ⟨fun _ ↦ hreject _ _ _ _ rfl, fun _ ↦ ?_⟩
      split
      · rename_i monotonic wall hgranted _ _
        have hexpired : Eff.Keeps (fun d' : Desk W τ ↦ d'.approvals = d.approvals)
            (isExpired office monotonic wall) :=
          (keeps_asks (P := fun a ↦ a = d.approvals) _).bind fun _ ↦
            .ite (fun _ ↦ .pure _) fun _ ↦
              (keeps_asks (P := fun a ↦ a = d.approvals) _).bind fun _ ↦ .pure _
        rw [Eff.wp_bind]
        refine (hexpired d rfl).mono (fun expired d₁ h₁ ↦ ?_) fun _ _ h ↦ h
        refine Eff.wp_ite.mpr ⟨fun _ ↦ hreject _ _ _ _ h₁, fun _ ↦ ?_⟩
        rw [acceptHead, Eff.wp_bind, Eff.wp_attempt]
        refine (keeps_asks (P := fun a ↦ a = d.approvals) _ d₁ h₁).mono (fun head d₂ h₂ ↦ ?_)
          fun e d₂ h₂ ↦ ?_
        · refine Eff.wp_ite.mpr ⟨fun _ ↦ hreject _ _ _ _ h₂, fun _ ↦ ?_⟩
          exact Eff.wp_ite.mpr ⟨fun _ ↦ hreject _ _ _ _ h₂, fun hoffered ↦
            ⟨h₂, hget, hgranted, not_not.mp hoffered⟩⟩
        · cases e with
          | approvalRejected reason => exact hreject _ _ _ _ h₂
          | _ => exact h₂
      · exact hreject _ _ _ _ rfl

/-- What was accepted is spent, whatever the log does. -/
theorem wp_settle {p : Str × Pending τ} :
    (settle office p).wp
      (fun id d' ↦ id = p.1 ∧
        d'.approvals = d.approvals.assign p.1 fun q ↦ { q with decision := .consumed })
      (fun _ d' ↦ d'.approvals = d.approvals.assign p.1 fun q ↦ { q with decision := .consumed })
      d := by
  rw [settle, Eff.wp_bind]
  refine Eff.wp_update.mpr (Eff.wp_bind.mpr ?_)
  exact (keeps_record (P := fun a ↦ a = d.approvals.assign p.1 _) _ _ _ _ _ rfl).mono
    (fun _ _ h ↦ ⟨rfl, h⟩) fun _ _ h ↦ h

end Authority

end AtlasCore
