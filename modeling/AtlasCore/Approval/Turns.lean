import AtlasCore.Approval.Accept

/-!
# What a call of the authority does to the approvals

Whatever the log is, and whatever the clocks say: a call turns one approval at most, a new approval
is a request, and nothing turns back.

`Turns` is that relation, with one constructor for each thing a call can do, and `wp_perform_turns`
says that every call is one of them.  What holds of all turns then holds of all histories: what was
consumed stays consumed, and the open grants are counted up by grants alone.
-/

set_option autoImplicit false

namespace AtlasCore

open Py

variable {W τ : Type}

/-- One decision may follow another; a grant that broke off leaves the request a request. -/
def Decision.turnsTo : Decision → Decision → Prop
  | requested, consumed => False
  | requested, _ => True
  | granted, consumed => True
  | _, _ => False

/-- A call turns one approval at most: it leaves all as they are, puts a new one at the end, or
assigns to one of them, whose decision then moves on. -/
inductive Turns (a : Approvals τ) : Approvals τ → Prop
  | same : Turns a a
  | put (operation : Operation) (iteration : ℤ) :
      Turns a (a.put (approvalId operation.sha256 a.length) { operation, iteration })
  | assign {id : Str} {item : Pending τ} {f : Pending τ → Pending τ} (found : a.get id = some item)
      (turn : item.decision.turnsTo (f item).decision)
      (operation : (f item).operation = item.operation) : Turns a (a.assign id f)

/-- The item under `id` was changed and nothing else, and its decision is this one now. -/
def Edited (a : Approvals τ) (id : Str) (item : Pending τ) (decision : Decision)
    (a' : Approvals τ) : Prop :=
  ∃ f, a' = a.assign id f ∧ (f item).decision = decision ∧ (f item).operation = item.operation

/-- An open item was answered, in one of the allowed ways, if anything was done at all. -/
def Answers (a : Approvals τ) (id : Str) (allowed : Decision → Prop) (a' : Approvals τ) : Prop :=
  a' = a ∨ ∃ item decision, a.get id = some item ∧ item.decision = .requested ∧
    allowed decision ∧ Edited a id item decision a'

theorem Answers.turns {a a' : Approvals τ} {id : Str} {allowed : Decision → Prop}
    (h : Answers a id allowed a') (hallowed : ∀ decision, allowed decision → decision ≠ .consumed) :
    Turns a a' := by
  rcases h with rfl | ⟨item, decision, hget, hopen, hdecision, f, rfl, hf, hoperation⟩
  · exact .same
  · refine .assign hget ?_ hoperation
    have hne := hallowed decision hdecision
    rw [hopen, hf]
    cases decision with
    | consumed => exact absurd rfl hne
    | _ => trivial

theorem Edited.refl (a : Approvals τ) (id : Str) (item : Pending τ) :
    Edited a id item item.decision a := by
  refine ⟨fun p ↦ p, ?_, rfl, rfl⟩
  rw [Approvals.assign]
  exact (List.map_id'' (fun p ↦ by simp) _).symm

theorem Edited.assign {a a' : Approvals τ} {id : Str} {item : Pending τ}
    {decision decision' : Decision} (h : Edited a id item decision a') (f : Pending τ → Pending τ)
    (hoperation : ∀ p, (f p).operation = p.operation)
    (hdecision : ∀ p : Pending τ, p.decision = decision → (f p).decision = decision') :
    Edited a id item decision' (a'.assign id f) := by
  obtain ⟨g, rfl, hg, hop⟩ := h
  refine ⟨fun p ↦ f (g p), ?_, hdecision _ hg, (hoperation _).trans hop⟩
  rw [Approvals.assign, Approvals.assign, Approvals.assign, List.map_map]
  refine List.map_congr_left fun p _ ↦ ?_
  by_cases hp : p.1 = id <;> simp [hp]

section
variable {office : Office W τ} {d : Desk W τ}

/-- What `grant` makes of a request: it stays one where the call raises early, and is granted
otherwise. -/
def GrantsTo (decision : Decision) : Prop := decision = .requested ∨ decision = .granted

theorem wp_grant_answers {id grantedBy : Str} {ttl : τ} :
    (Authority.grant office id grantedBy ttl).wp
      (fun _ d' ↦ Answers d.approvals id GrantsTo d'.approvals)
      (fun _ d' ↦ Answers d.approvals id GrantsTo d'.approvals) d := by
  rw [Authority.grant]
  refine Eff.wp_ite.mpr ⟨fun _ ↦ .inl rfl, fun _ ↦ Eff.wp_ite.mpr ⟨fun _ ↦ .inl rfl, fun _ ↦ ?_⟩⟩
  rw [Eff.wp_bind]
  refine wp_openItem.mono (fun item d₁ h ↦ ?_) fun _ d₁ h ↦ h ▸ .inl rfl
  obtain ⟨rfl, hget, hopen⟩ := h
  have hturn : ∀ {decision a}, Edited d₁.approvals id item decision a → GrantsTo decision →
      Answers d₁.approvals id GrantsTo a := fun {decision a} h hallowed ↦
    .inr ⟨item, decision, hget, hopen, hallowed, h⟩
  have hrefl := Edited.refl d₁.approvals id item
  rw [hopen] at hrefl
  -- the item stays a request until the decision is assigned, with everything else
  rw [Eff.wp_bind]
  refine (keeps_asks _ d₁ hrefl).mono (fun token d₂ h₂ ↦ ?_) fun _ _ h ↦ hturn h (.inl rfl)
  rw [Eff.wp_bind, Authority.tokenDigest]
  cases sha256Text token with
  | none => exact hturn h₂ (.inl rfl)
  | some digest =>
    have h₂' := h₂.assign
      (fun p ↦ { p with tokenSha256 := some digest, grantedBy := some grantedBy }) (fun _ ↦ rfl)
      fun _ h ↦ h
    rw [Eff.wp_pure, Eff.wp_bind]
    refine Eff.wp_update.mpr ?_
    rw [Eff.wp_bind]
    refine (keeps_asks _ _ h₂').mono (fun grantedAt d₃ h₃ ↦ ?_) fun _ _ h ↦ hturn h (.inl rfl)
    have h₃' := h₃.assign (fun p ↦ { p with grantedAt := some grantedAt }) (fun _ ↦ rfl)
      fun _ h ↦ h
    rw [Eff.wp_bind]
    refine Eff.wp_update.mpr ?_
    rw [Eff.wp_bind]
    refine (keeps_asks _ _ h₃').mono (fun now d₄ h₄ ↦ ?_) fun _ _ h ↦ hturn h (.inl rfl)
    rw [Eff.wp_bind]
    refine Eff.wp_update.mpr ?_
    have h₅ := h₄.assign (fun p ↦
      { p with
        expiresMonotonic := some (office.plus now ttl)
        expiresWall := some (office.plus grantedAt ttl)
        decision := .granted }) (fun _ ↦ rfl) fun _ _ ↦ rfl
    rw [Eff.wp_bind, Eff.wp_ofExcept]
    cases office.iso (office.plus grantedAt ttl) with
    | error e => exact hturn h₅ (.inr rfl)
    | ok text =>
      refine Eff.wp_bind.mpr (Eff.wp_bind.mpr (Eff.wp_read.mpr (Eff.wp_pure.mpr ?_)))
      rw [Eff.wp_bind]
      exact (keeps_record _ _ _ _ _ h₅).mono (fun _ _ h ↦ hturn h (.inr rfl))
        fun _ _ h ↦ hturn h (.inr rfl)

theorem wp_refuse_answers {id refusedBy : Str} :
    (Authority.refuse office id refusedBy).wp
      (fun _ d' ↦ Answers d.approvals id (· = .refused) d'.approvals)
      (fun _ d' ↦ Answers d.approvals id (· = .refused) d'.approvals) d := by
  rw [Authority.refuse, Eff.wp_bind]
  refine wp_openItem.mono (fun item d₁ h ↦ ?_) fun _ d₁ h ↦ h ▸ .inl rfl
  obtain ⟨rfl, hget, hopen⟩ := h
  have hturn : ∀ {a}, Edited d₁.approvals id item .refused a →
      Answers d₁.approvals id (· = .refused) a := fun h ↦ .inr ⟨item, _, hget, hopen, rfl, h⟩
  have h₁ : Edited d₁.approvals id item .refused _ := (Edited.refl d₁.approvals id item).assign
    (fun p ↦ { p with decision := .refused, grantedBy := some refusedBy }) (fun _ ↦ rfl)
    fun _ _ ↦ rfl
  rw [Eff.wp_bind]
  refine Eff.wp_update.mpr ?_
  rw [Eff.wp_bind]
  refine (keeps_asks _ _ h₁).mono (fun grantedAt d₂ h₂ ↦ ?_) fun _ _ h ↦ hturn h
  have h₂' := h₂.assign (fun p ↦ { p with grantedAt := some grantedAt }) (fun _ ↦ rfl) fun _ h ↦ h
  rw [Eff.wp_bind]
  refine Eff.wp_update.mpr
    (Eff.wp_bind.mpr (Eff.wp_bind.mpr (Eff.wp_read.mpr (Eff.wp_pure.mpr ?_))))
  exact (keeps_record _ _ _ _ _ h₂').mono (fun _ _ h ↦ hturn h) fun _ _ h ↦ hturn h

/-- What `consume` did when it returned: a granted item, for an operation of the same digest, is
consumed now. -/
structure Consumes (a : Approvals τ) (operation : Operation) (id : Str)
    (a' : Approvals τ) : Prop where
  spent : ∃ item, a.get id = some item ∧ item.decision = .granted ∧
    operation.sha256 = item.operation.sha256
  assigned : a' = a.assign id fun p ↦ { p with decision := .consumed }

theorem Consumes.turns {a a' : Approvals τ} {operation : Operation} {id : Str}
    (h : Consumes a operation id a') : Turns a a' := by
  obtain ⟨item, hget, hgranted, -⟩ := h.spent
  rw [h.assigned]
  refine .assign hget ?_ rfl
  rw [hgranted]
  trivial

/-- What `consume` did when it raised: nothing, or all of it, and then it was the log that
raised. -/
def Unfinished (a : Approvals τ) (operation : Operation) (a' : Approvals τ) : Prop :=
  a' = a ∨ ∃ id, Consumes a operation id a'

theorem wp_consume_turns {token : Str} {operation : Operation} {iteration : ℤ}
    (hnodup : (d.approvals.map (·.1)).Nodup) :
    (Authority.consume office token operation iteration).wp
      (fun id d' ↦ Consumes d.approvals operation id d'.approvals)
      (fun _ d' ↦ Unfinished d.approvals operation d'.approvals) d := by
  rw [Authority.consume_eq, Eff.wp_bind]
  refine (Authority.wp_accept hnodup).mono (fun p d₁ h ↦ ?_) fun _ _ h ↦ .inl h
  obtain ⟨h₁, hget, hgranted, hoffered⟩ := h
  have hspent : ∀ a, a = d₁.approvals.assign p.1 (fun q ↦ { q with decision := .consumed }) →
      Consumes d.approvals operation p.1 a := fun a ha ↦
    ⟨⟨p.2, hget, hgranted, hoffered⟩, h₁ ▸ ha⟩
  refine Authority.wp_settle.mono (fun id d' h ↦ ?_) fun _ d' h ↦ .inr ⟨p.1, hspent _ h⟩
  obtain ⟨rfl, h⟩ := h
  exact hspent _ h

/-- The approval under `id` was a request and is granted now. -/
def NewlyGranted (d d' : Desk W τ) (id : Str) : Prop :=
  decisionOf d id = some .requested ∧ decisionOf d' id = some .granted

/-- An assignment under `id` leaves the decision of every other. -/
theorem Answers.newlyGranted {d' : Desk W τ} {id x : Str} {allowed : Decision → Prop}
    (h : Answers d.approvals id allowed d'.approvals) (hx : NewlyGranted d d' x) :
    x = id ∧ allowed .granted := by
  obtain ⟨hbefore, hafter⟩ := hx
  rcases h with h | ⟨item, decision, hget, hopen, hdecision, f, h, hf, -⟩
  · rw [decisionOf, h, ← decisionOf, hbefore] at hafter
    cases hafter
  · rw [decisionOf, h, Approvals.get_assign] at hafter
    split at hafter
    · rename_i hid
      rw [hget, Option.map_some, Option.map_some, hf, Option.some.injEq] at hafter
      exact ⟨hid, hafter ▸ hdecision⟩
    · rw [← decisionOf, hbefore] at hafter
      cases hafter

/-- Every call turns one approval at most, and only a grant grants. -/
theorem wp_perform_turns (call : AuthorityCall τ) (hkeyed : Keyed d.approvals) :
    (call.perform office).wp
      (fun _ d' ↦ Turns d.approvals d'.approvals ∧
        ∀ x, NewlyGranted d d' x → ∃ grantedBy ttl, call = .grant x grantedBy ttl)
      (fun _ d' ↦ Turns d.approvals d'.approvals ∧
        ∀ x, NewlyGranted d d' x → ∃ grantedBy ttl, call = .grant x grantedBy ttl) d := by
  cases call with
  | request operation iteration =>
    have hput : ∀ d' : Desk W τ, d'.approvals = d.approvals.put
        (approvalId operation.sha256 d.approvals.length) { operation, iteration } →
        Turns d.approvals d'.approvals ∧ ∀ x, NewlyGranted d d' x →
          ∃ grantedBy, ∃ ttl : τ,
            AuthorityCall.request operation iteration = .grant x grantedBy ttl := by
      intro d' h
      refine ⟨h ▸ .put operation iteration, fun x hx ↦ ?_⟩
      obtain ⟨hbefore, hafter⟩ := hx
      rw [decisionOf, h,
        Approvals.get_put_of_fresh (hkeyed.fresh operation.sha256_spec.1)] at hafter
      split at hafter
      · cases hafter
      · rw [← decisionOf, hbefore] at hafter
        cases hafter
    rw [AuthorityCall.perform, Authority.request, Eff.wp_bind, Eff.wp_read, Eff.wp_bind,
      Eff.wp_update, Eff.wp_bind]
    exact (keeps_record (P := fun a ↦ a = _) _ _ _ _ _ rfl).mono (fun _ d' h ↦ hput d' h)
      fun _ d' h ↦ hput d' h
  | grant id grantedBy ttl =>
    have hallowed : ∀ decision, GrantsTo decision → decision ≠ .consumed := by
      rintro _ (rfl | rfl) <;> decide
    exact wp_grant_answers.mono
      (fun _ d' h ↦ ⟨h.turns hallowed, fun x hx ↦
        ⟨grantedBy, ttl, (h.newlyGranted hx).1 ▸ rfl⟩⟩)
      fun _ d' h ↦ ⟨h.turns hallowed, fun x hx ↦
        ⟨grantedBy, ttl, (h.newlyGranted hx).1 ▸ rfl⟩⟩
  | refuse id refusedBy =>
    have hallowed : ∀ decision : Decision, decision = .refused → decision ≠ .consumed := by
      rintro _ rfl
      decide
    rw [AuthorityCall.perform, Eff.wp_bind]
    exact wp_refuse_answers.mono
      (fun _ d' h ↦ ⟨h.turns hallowed, fun x hx ↦ by cases (h.newlyGranted hx).2⟩)
      fun _ d' h ↦ ⟨h.turns hallowed, fun x hx ↦ by cases (h.newlyGranted hx).2⟩
  | consume token operation iteration =>
    have hspent : ∀ {id} {d' : Desk W τ}, Consumes d.approvals operation id d'.approvals →
        ∀ x, ¬ NewlyGranted d d' x := by
      intro id d' h x hx
      obtain ⟨hbefore, hafter⟩ := hx
      rw [decisionOf, h.assigned, Approvals.get_assign] at hafter
      split at hafter
      · obtain ⟨item, hget, -, -⟩ := h.spent
        rw [hget] at hafter
        cases hafter
      · rw [← decisionOf, hbefore] at hafter
        cases hafter
    refine (wp_consume_turns hkeyed.nodup).mono
      (fun id d' h ↦ ⟨h.turns, fun x hx ↦ absurd hx (hspent h x)⟩) fun _ d' h ↦ ?_
    rcases h with h | ⟨id, h⟩
    · refine ⟨h ▸ .same, fun x hx ↦ ?_⟩
      obtain ⟨hbefore, hafter⟩ := hx
      rw [decisionOf, h, ← decisionOf, hbefore] at hafter
      cases hafter
    · exact ⟨h.turns, fun x hx ↦ absurd hx (hspent h x)⟩

end

/-! ## What turns keep

A turn cannot undo a decision: what is consumed stays consumed. -/

section
variable {a a' : Approvals τ}

theorem Turns.keyed (h : Turns a a') (hkeyed : Keyed a) : Keyed a' := by
  cases h with
  | same => exact hkeyed
  | put operation iteration =>
    rw [Keyed, Approvals.keys_put_of_fresh (hkeyed.fresh operation.sha256_spec.1)]
    intro k id hk
    rw [List.getElem?_append] at hk
    split at hk
    · exact hkeyed k id hk
    · rename_i hlt
      obtain ⟨hone, rfl⟩ := List.getElem?_eq_some_iff.mp hk
      have hk : k = a.length := by
        simp only [List.length_map, List.length_singleton] at hone hlt
        omega
      exact ⟨operation.sha256, operation.sha256_spec.1, operation.sha256_spec.2, by
        rw [List.getElem_singleton, hk]⟩
  | assign found turn operation =>
    rw [Keyed, Approvals.keys_assign]
    exact hkeyed

/-- What is consumed stays consumed. -/
theorem Turns.consumed (h : Turns a a') (hkeyed : Keyed a) {id : Str} {item : Pending τ}
    (hget : a.get id = some item) (hconsumed : item.decision = .consumed) :
    ∃ item', a'.get id = some item' ∧ item'.decision = .consumed := by
  cases h with
  | same => exact ⟨item, hget, hconsumed⟩
  | put operation iteration =>
    have hfresh := hkeyed.fresh operation.sha256_spec.1
    refine ⟨item, ?_, hconsumed⟩
    rw [Approvals.get_put_of_fresh hfresh, if_neg, hget]
    rintro rfl
    rw [hfresh] at hget
    cases hget
  | @assign id' item' f found turn operation =>
    refine ⟨item, ?_, hconsumed⟩
    rw [Approvals.get_assign, if_neg, hget]
    rintro rfl
    rw [hget, Option.some.injEq] at found
    subst found
    rw [hconsumed] at turn
    exact turn

/-! ## Counting grants

Every consumption takes one of the open grants, and only a grant opens one, so there are never more
spent than granted. -/

/-- How many approvals are granted and not spent. -/
def openGrants (a : Approvals τ) : ℕ := a.countP fun p ↦ p.2.decision = .granted

theorem openGrants_assign (f : Pending τ → Pending τ) {id : Str} :
    ∀ {a : Approvals τ} {item : Pending τ}, (a.map (·.1)).Nodup → a.get id = some item →
      openGrants (a.assign id f) + (if item.decision = .granted then 1 else 0) =
        openGrants a + if (f item).decision = .granted then 1 else 0
  | [], _, _, hget => by cases hget
  | (x, first) :: rest, item, hnodup, hget => by
    rw [List.map_cons, List.nodup_cons] at hnodup
    rw [Approvals.get_cons] at hget
    have hcons : Approvals.assign ((x, first) :: rest) id f =
        (if x = id then (x, f first) else (x, first)) :: Approvals.assign rest id f := rfl
    rw [hcons, openGrants, openGrants, List.countP_cons, List.countP_cons, ← openGrants,
      ← openGrants]
    by_cases hx : x = id
    · have hrest : Approvals.assign rest id f = rest := by
        rw [Approvals.assign]
        refine (List.map_congr_left fun q hq ↦ ?_).trans (List.map_id _)
        have hq' : q.1 ≠ id := fun h ↦
          hnodup.1 (List.mem_map.mpr ⟨q, hq, h.trans hx.symm⟩)
        exact if_neg hq'
      simp only [if_pos hx, Option.some.injEq] at hget
      subst hget
      rw [hrest, if_pos hx]
      simp only [decide_eq_true_eq]
      omega
    · rw [if_neg hx] at hget
      have ih := openGrants_assign f hnodup.2 hget
      rw [if_neg hx]
      omega

/-- An approval is opened at most where one becomes granted. -/
theorem Turns.openGrants_le (h : Turns a a') (hkeyed : Keyed a) :
    openGrants a' ≤ openGrants a ∨ openGrants a' = openGrants a + 1 ∧
      ∃ id item item', a.get id = some item ∧ item.decision = .requested ∧
        a'.get id = some item' ∧ item'.decision = .granted := by
  cases h with
  | same => exact .inl le_rfl
  | put operation iteration =>
    rw [Approvals.put_of_fresh (hkeyed.fresh operation.sha256_spec.1), openGrants, openGrants,
      List.countP_append]
    exact .inl le_rfl
  | @assign id item f found turn operation =>
    have hcount := openGrants_assign f hkeyed.nodup found
    by_cases hnow : (f item).decision = .granted
    · have hwas : item.decision = .requested := by
        rw [hnow] at turn
        cases hd : item.decision with
        | requested => rfl
        | _ =>
          rw [hd] at turn
          exact turn.elim
      rw [if_pos hnow, if_neg (by rw [hwas]; decide)] at hcount
      refine .inr ⟨hcount, id, item, f item, found, hwas, ?_, hnow⟩
      rw [Approvals.get_assign, if_pos rfl, found, Option.map_some]
    · rw [if_neg hnow] at hcount
      exact .inl (by omega)

/-- What is consumed was open. -/
theorem Consumes.openGrants {operation : Operation} {id : Str} (h : Consumes a operation id a')
    (hkeyed : Keyed a) : openGrants a' + 1 = openGrants a := by
  obtain ⟨item, hget, hgranted, -⟩ := h.spent
  have hcount := openGrants_assign (fun p ↦ { p with decision := .consumed }) hkeyed.nodup hget
  rw [if_pos hgranted, if_neg nofun] at hcount
  rw [h.assigned]
  exact hcount

end

end AtlasCore
