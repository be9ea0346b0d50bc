import AtlasCore.Approval.Moves

/-!
# Every history of an authority

Any calls, in any order, against a machine of which nothing is assumed.  Tokens are assumed not to
collide: what a grant drew and gave to nobody, because it raised, nobody offers.  That is needed,
for a grant is decided before its date is written, and a wall clock beyond the year 9999 leaves a
grant that the log does not have.

One thing can go wrong: an instant that is no number is not after anything, so it is never too
late.  In every history in which no such instant is compared, a spent approval was earned, and the
log tells the story of every approval.
-/

set_option autoImplicit false

namespace AtlasCore

open Py

variable {W τ : Type}

/-! ## Histories

An authority is only seen through its calls, so what is proved of it is proved of histories: the
calls that were made, with the state before and after each of them.  What a history presupposes of
the readings of the clocks and of the tokens stands here as well. -/

/-- Carry out a call.  `refuse` answers nothing, for which the empty id stands. -/
def AuthorityCall.perform (office : Office W τ) : AuthorityCall τ → DeskM W τ Str
  | .request operation iteration => Authority.request office operation iteration
  | .grant id grantedBy ttl => Authority.grant office id grantedBy ttl
  | .refuse id refusedBy => do
    Authority.refuse office id refusedBy
    return []
  | .consume token operation iteration => Authority.consume office token operation iteration

/-- A call that was carried out: the desk before and after it, and what it returned or raised. -/
structure Attempt (W τ : Type) where
  before : Desk W τ
  call : AuthorityCall τ
  outcome : Except Exc Str
  after : Desk W τ

/-- Carry out the calls one after the other; an exception ends its call and nothing else. -/
def attempts (office : Office W τ) : List (AuthorityCall τ) → Desk W τ → List (Attempt W τ)
  | [], _ => []
  | call :: rest, d =>
    let r := call.perform office d
    ⟨d, call, r.1, r.2⟩ :: attempts office rest r.2

/-- A new authority, with a log that says nothing of approvals yet. -/
structure Opened (d : Desk W τ) : Prop where
  approvals : d.approvals = []
  named : Named d.log
  told : ∀ log, d.log = some log → ∀ id, log.told id = []

/-- The readings of a call can be compared with what they are compared with. -/
def Attempt.Orderly (office : Office W τ) (x : Attempt W τ) : Prop :=
  ∀ token operation iteration, x.call = .consume token operation iteration →
    Readable office x.before token

/-- A grant raised, and the token with this digest that it drew was given to nobody. -/
def Attempt.Withholds (office : Office W τ) (x : Attempt W τ) (digest : Str) : Prop :=
  (∃ id grantedBy ttl e, x.call = .grant id grantedBy ttl ∧ x.outcome = .error e) ∧
    Draws office x.before digest

/-- Tokens do not collide: no token that is offered is one that was given to nobody. -/
def CollisionFree (office : Office W τ) (history : List (Attempt W τ)) : Prop :=
  history.Pairwise fun x y ↦ ∀ token operation iteration digest,
    y.call = .consume token operation iteration → sha256Text token = some digest →
      ¬ x.Withholds office digest

/-! ## What is asked of a history

The clauses of `Lawful`.  Each of them speaks of what was called and what came back, and of the
log, and none of them of how an authority keeps its approvals. -/

/-- The ids that were given, one for every request of the history, in their order. -/
def askedIds (history : List (Attempt W τ)) : List Str :=
  history.filterMap fun x ↦
    match x.call with
    | .request operation _ => some (approvalId operation.sha256 x.before.approvals.length)
    | _ => none

/-- The ids that `consume` returned, in their order and as often as they were returned. -/
def spentIds (history : List (Attempt W τ)) : List Str :=
  history.filterMap fun x ↦
    match x.call, x.outcome with
    | .consume _ _ _, .ok id => some id
    | _, _ => none

/-- The decision under an id, where there is an item. -/
def decisionOf (d : Desk W τ) (id : Str) : Option Decision :=
  (d.approvals.get id).map (·.decision)

/-- The request for an item was one of the calls. -/
def WasRequested (history : List (Attempt W τ)) (id : Str) (item : Pending τ) : Prop :=
  ∃ x ∈ history, ∃ iteration, x.call = .request item.operation iteration ∧
    id = approvalId item.operation.sha256 x.before.approvals.length

/-- The grant that made an item what it is was one of the calls. -/
def WasGranted (history : List (Attempt W τ)) (id : Str) (item : Pending τ) : Prop :=
  ∃ x ∈ history, ∃ grantedBy ttl, x.call = .grant id grantedBy ttl ∧
    decisionOf x.before id = some .requested ∧ x.after.approvals.get id = some item

/-- What has to have happened before an approval is spent. -/
def EarnedBy (office : Office W τ) (earlier : List (Attempt W τ)) (x : Attempt W τ) : Prop :=
  ∀ token operation iteration id, x.call = .consume token operation iteration →
    x.outcome = .ok id → ∃ item, Spendable office x.before token operation id item ∧
      WasRequested earlier id item ∧ WasGranted earlier id item

/-- What the log may tell of an approval, rejections apart. -/
def STORIES : List (List Str) :=
  [[], [str "requested"], [str "requested", str "granted"], [str "requested", str "refused"],
    [str "requested", str "granted", str "consumed"]]

/-- Nothing is spent that was not asked for, granted and still good, and the log says what was
done. -/
structure Lawful (office : Office W τ) (history : List (Attempt W τ)) : Prop where
  /-- No approval is spent twice. -/
  spent_once : (spentIds history).Nodup
  /-- No id is given twice. -/
  asked_once : (askedIds history).Nodup
  earned : ∀ earlier x later, history = earlier ++ x :: later → EarnedBy office earlier x
  /-- What was spent was never refused, before or after. -/
  never_refused : ∀ id ∈ spentIds history, ∀ x ∈ history, decisionOf x.after id ≠ some .refused ∧
    ∀ refusedBy, x.call = .refuse id refusedBy → ∀ r, x.outcome ≠ .ok r
  rejected : ∀ x ∈ history, ∀ token operation iteration reason,
    x.call = .consume token operation iteration → x.outcome = .error (.approvalRejected reason) →
      x.after.approvals = x.before.approvals
  told : ∀ x ∈ history, ∀ log, x.after.log = some log → ∀ id, log.told id ∈ STORIES

/-! ## What the log may tell of an item

The invariant that ties the log to the approvals: which story the log may have told of an item
whose decision is this one. -/

/-- The stories that end in a decision; a refusal may have been made without being told. -/
def Decision.stories : Decision → List (List Str)
  | requested => [[str "requested"]]
  | granted => [[str "requested", str "granted"]]
  | refused => [[str "requested"], [str "requested", str "refused"]]
  | consumed => [[str "requested", str "granted", str "consumed"]]

/-- An item was granted, and the token for it was given to nobody. -/
def Idle (withheld : Str → Prop) (item : Pending τ) : Prop :=
  item.decision = .granted ∧ ∃ digest, item.tokenSha256 = some digest ∧ withheld digest

/-- The story of an item; of one with a negative iteration nothing can be told, and a grant whose
token was withheld need not have been told. -/
def Agrees (withheld : Str → Prop) (item : Option (Pending τ)) (told : List Str) : Prop :=
  match item with
  | none => told = []
  | some item => if item.iteration < 0 then told = [] else
      told ∈ item.decision.stories ∨ Idle withheld item ∧ told = [str "requested"]

variable {withheld withheld' : Str → Prop}

theorem Idle.mono {item : Pending τ} (h : Idle withheld item)
    (hmono : ∀ digest, withheld digest → withheld' digest) : Idle withheld' item := by
  obtain ⟨hgranted, digest, htoken, hwithheld⟩ := h
  exact ⟨hgranted, digest, htoken, hmono digest hwithheld⟩

theorem Agrees.mono {item : Option (Pending τ)} {told : List Str} (h : Agrees withheld item told)
    (hmono : ∀ digest, withheld digest → withheld' digest) : Agrees withheld' item told := by
  cases item with
  | none => exact h
  | some item =>
    rw [Agrees] at h ⊢
    split at h
    · rename_i hneg
      rw [if_pos hneg]
      exact h
    · rename_i hpos
      rw [if_neg hpos]
      exact h.imp_right fun h ↦ ⟨h.1.mono hmono, h.2⟩

theorem Agrees.mem_stories {item : Option (Pending τ)} {told : List Str}
    (h : Agrees withheld item told) : told ∈ STORIES := by
  have hnil : ([] : List Str) ∈ STORIES := List.mem_cons_self
  have hall : ∀ decision : Decision, ∀ story ∈ decision.stories, story ∈ STORIES := by
    intro decision
    cases decision <;> decide
  cases item with
  | none => exact h ▸ hnil
  | some item =>
    rw [Agrees] at h
    split at h
    · exact h ▸ hnil
    · rcases h with h | ⟨-, h⟩
      · exact hall item.decision told h
      · exact h ▸ hall .requested _ List.mem_cons_self

/-- A change that is told carries the story on. -/
theorem Agrees.tell {item item' : Pending τ} {told : List Str} {decision : Str}
    (h : Agrees withheld (some item) told) (hopen : ¬ Idle withheld item)
    (hiteration : item'.iteration = item.iteration)
    (hnext : ∀ story ∈ item.decision.stories, story ++ [decision] ∈ item'.decision.stories)
    (hdecision : decision ≠ str "rejected") {id : Str} :
    Agrees withheld' (some item') (told ++ added (entry item id decision) id) := by
  rw [Agrees] at h ⊢
  rw [hiteration, entry]
  split at h
  · rename_i hneg
    rw [if_pos hneg, if_pos (.inl hneg), h]
    rfl
  · rename_i hpos
    rw [if_neg hpos, if_neg (by simp [hpos, hdecision])]
    rw [added_some, if_pos rfl]
    exact .inl (hnext told (h.resolve_right fun hidle ↦ hopen hidle.1))

/-! ## One call

What one call has to do with the decisions on the desk, told from the desk before it and the desk
after it. -/

/-- What is known of a call, whatever it was. -/
structure Attempt.Conforms (office : Office W τ) (x : Attempt W τ) : Prop where
  moves : Moves office x.before x.call x.outcome x.after
  spends : ∀ token operation iteration id, x.call = .consume token operation iteration →
    x.outcome = .ok id → Spends office x.before token operation id x.after
  rejects : ∀ token operation iteration reason, x.call = .consume token operation iteration →
    x.outcome = .error (.approvalRejected reason) → x.after.approvals = x.before.approvals
  refuses : ∀ id refusedBy r, x.call = .refuse id refusedBy → x.outcome = .ok r →
    decisionOf x.after id = some .refused

theorem Spends.moves {office : Office W τ} {d d' : Desk W τ} {token id : Str}
    {operation : Operation} (h : Spends office d token operation id d') (iteration : ℤ)
    (r : Except Exc Str) : Moves office d (.consume token operation iteration) r d' := by
  obtain ⟨item, item', hspendable, hconsumed, hchanges⟩ := h
  obtain ⟨digest, hoffered, hnamed⟩ := hspendable.token
  exact .consumed hspendable.granted hconsumed hoffered hnamed hchanges

theorem Rests.moves {office : Office W τ} {d d' : Desk W τ} (h : Rests d d') (token : Str)
    (operation : Operation) (iteration : ℤ) (r : Except Exc Str) :
    Moves office d (.consume token operation iteration) r d' := .idle nofun h.1 h.2

variable {office : Office W τ}

/-- A token with this digest was drawn in a history and given to nobody. -/
def Withheld (office : Office W τ) (history : List (Attempt W τ)) (digest : Str) : Prop :=
  ∃ x ∈ history, x.Withholds office digest

theorem Withheld.mono {history : List (Attempt W τ)} {digest : Str}
    (h : Withheld office history digest) (x : Attempt W τ) :
    Withheld office (history ++ [x]) digest := by
  obtain ⟨y, hy, hrest⟩ := h
  exact ⟨y, List.mem_append_left _ hy, hrest⟩

/-- What a history leaves behind: every item on the desk, and every id that was spent, goes back to
calls of the history that brought it there. -/
structure Trail (office : Office W τ) (history : List (Attempt W τ)) (d : Desk W τ) : Prop where
  inOrder : InOrder d
  asked : askedIds history = d.approvals.map (·.1)
  requested : ∀ id item, d.approvals.get id = some item → WasRequested history id item
  granted : ∀ id item, d.approvals.get id = some item → item.decision = .granted →
    WasGranted history id item
  spent : ∀ id ∈ spentIds history, decisionOf d id = some .consumed
  settled : ∀ x ∈ history, ∀ id, decisionOf x.after id = some .refused →
    decisionOf d id = some .refused
  told : ∀ log, d.log = some log → ∀ id,
    Agrees (Withheld office history) (d.approvals.get id) (log.told id)

theorem WasRequested.mono {history : List (Attempt W τ)} {id : Str} {item : Pending τ}
    (h : WasRequested history id item) (x : Attempt W τ) :
    WasRequested (history ++ [x]) id item := by
  obtain ⟨y, hy, hrest⟩ := h
  exact ⟨y, List.mem_append_left _ hy, hrest⟩

theorem WasGranted.mono {history : List (Attempt W τ)} {id : Str} {item : Pending τ}
    (h : WasGranted history id item) (x : Attempt W τ) :
    WasGranted (history ++ [x]) id item := by
  obtain ⟨y, hy, hrest⟩ := h
  exact ⟨y, List.mem_append_left _ hy, hrest⟩

theorem mem_spentIds_snoc {history : List (Attempt W τ)} {x : Attempt W τ} {id : Str} :
    id ∈ spentIds (history ++ [x]) ↔ id ∈ spentIds history ∨
      ∃ token operation iteration, x.call = .consume token operation iteration ∧
        x.outcome = .ok id := by
  rw [spentIds, List.filterMap_append, List.mem_append, ← spentIds]
  refine or_congr_right ?_
  obtain ⟨before, call, outcome, after⟩ := x
  cases call <;> cases outcome <;> simp [eq_comm]

/-- Under another id than the one that changed, the decision stays. -/
theorem Changes.decisionOf_frame {d d' : Desk W τ} {id : Str} {item item' : Pending τ}
    {told : Option (Str × Str)} (h : Changes d d' id item item' told) {x : Str}
    {decision : Decision} (hne : item.decision ≠ decision) (hx : decisionOf d x = some decision) :
    decisionOf d' x = some decision := by
  have hid : x ≠ id := by
    rintro rfl
    rw [decisionOf, h.found, Option.map_some, Option.some.injEq] at hx
    exact hne hx
  rw [decisionOf, h.frame x hid, ← hx, decisionOf]

theorem askedIds_snoc {history : List (Attempt W τ)} {x : Attempt W τ}
    (hcall : ∀ operation iteration, x.call ≠ .request operation iteration) :
    askedIds (history ++ [x]) = askedIds history := by
  have hnone : askedIds [x] = [] := by
    rw [askedIds]
    cases hc : x.call with
    | request operation iteration => exact absurd hc (hcall operation iteration)
    | _ => rw [List.filterMap_cons, hc, List.filterMap_nil]
  rw [askedIds, List.filterMap_append, ← askedIds, ← askedIds, hnone, List.append_nil]

/-- A change of one item carries the trail on. -/
theorem Trail.change {history : List (Attempt W τ)} {x : Attempt W τ} {id : Str}
    {item item' : Pending τ} {told : Option (Str × Str)} (h : Trail office history x.before)
    (hx : x.Conforms office) (hchanges : Changes x.before x.after id item item' told)
    (hcall : ∀ operation iteration, x.call ≠ .request operation iteration)
    (hopen : item.decision ≠ .refused ∧ item.decision ≠ .consumed)
    (hgranted : item'.decision = .granted → WasGranted (history ++ [x]) id item')
    (htold : ∀ story, Agrees (Withheld office history) (some item) story →
      Agrees (Withheld office (history ++ [x])) (some item') (story ++ added told id))
    (hother : ∀ y decision, told = some (y, decision) → y = id) :
    Trail office (history ++ [x]) x.after where
  inOrder := ⟨hchanges.tells.named h.inOrder.named, by
    rw [Keyed, hchanges.keys]
    exact h.inOrder.keyed⟩
  asked := by
    rw [askedIds_snoc hcall, h.asked, hchanges.keys]
  requested := by
    intro y found hy
    by_cases hid : y = id
    · subst hid
      rw [hchanges.get, Option.some.injEq] at hy
      subst hy
      obtain ⟨z, hz, iteration, hrequest, hid⟩ := h.requested y item hchanges.found
      refine ⟨z, List.mem_append_left _ hz, iteration, ?_⟩
      rw [hchanges.operation]
      exact ⟨hrequest, hid⟩
    · rw [hchanges.frame y hid] at hy
      exact (h.requested y found hy).mono x
  granted := by
    intro y found hy hdecision
    by_cases hid : y = id
    · subst hid
      rw [hchanges.get, Option.some.injEq] at hy
      subst hy
      exact hgranted hdecision
    · rw [hchanges.frame y hid] at hy
      exact (h.granted y found hy hdecision).mono x
  spent := by
    intro y hy
    rcases mem_spentIds_snoc.mp hy with hy | ⟨token, operation, iteration, hcall, houtcome⟩
    · exact hchanges.decisionOf_frame hopen.2 (h.spent y hy)
    · obtain ⟨_, spent, -, hconsumed, hspent⟩ :=
        hx.spends token operation iteration y hcall houtcome
      rw [decisionOf, hspent.get, Option.map_some, hconsumed]
  settled := by
    intro y hy z hz
    rcases List.mem_append.mp hy with hy | hy
    · exact hchanges.decisionOf_frame hopen.1 (h.settled y hy z hz)
    · rw [List.mem_singleton] at hy
      exact hy ▸ hz
  told := by
    intro log' hlog' y
    have htells := hchanges.tells
    rw [hlog'] at htells
    cases hlog : x.before.log with
    | none => rw [hlog] at htells; exact htells.elim
    | some log =>
      rw [hlog] at htells
      have hwas := h.told log hlog y
      rw [htells.2 y]
      by_cases hid : y = id
      · subst hid
        rw [hchanges.found] at hwas
        rw [hchanges.get]
        exact htold _ hwas
      · rw [hchanges.frame y hid]
        have hadded : added told y = [] := by
          cases told with
          | none => rfl
          | some p =>
            rw [added_some, if_neg fun hy ↦ hid (hy.trans (hother p.1 p.2 rfl))]
        rw [hadded, List.append_nil]
        exact hwas.mono fun _ h ↦ h.mono x

/-- Where nothing changes, the trail goes on. -/
theorem Trail.rest {history : List (Attempt W τ)} {x : Attempt W τ}
    (h : Trail office history x.before) (hx : x.Conforms office) (hrests : Rests x.before x.after)
    (hcall : ∀ operation iteration, x.call ≠ .request operation iteration) :
    Trail office (history ++ [x]) x.after where
  inOrder := ⟨hrests.2.named h.inOrder.named, by
    rw [hrests.1]
    exact h.inOrder.keyed⟩
  asked := by rw [askedIds_snoc hcall, h.asked, hrests.1]
  requested := by
    intro y item hy
    rw [hrests.1] at hy
    exact (h.requested y item hy).mono x
  granted := by
    intro y item hy hdecision
    rw [hrests.1] at hy
    exact (h.granted y item hy hdecision).mono x
  spent := by
    intro y hy
    rcases mem_spentIds_snoc.mp hy with hy | ⟨token, operation, iteration, hcall, houtcome⟩
    · rw [decisionOf, hrests.1]
      exact h.spent y hy
    · obtain ⟨_, spent, -, hconsumed, hspent⟩ :=
        hx.spends token operation iteration y hcall houtcome
      rw [decisionOf, hspent.get, Option.map_some, hconsumed]
  settled := by
    intro y hy z hz
    rcases List.mem_append.mp hy with hy | hy
    · rw [decisionOf, hrests.1]
      exact h.settled y hy z hz
    · rw [List.mem_singleton] at hy
      exact hy ▸ hz
  told := by
    intro log' hlog' y
    have htells := hrests.2
    rw [hlog'] at htells
    cases hlog : x.before.log with
    | none => rw [hlog] at htells; exact htells.elim
    | some log =>
      rw [hlog] at htells
      rw [hrests.1, htells.2 y, added_none, List.append_nil]
      exact (h.told log hlog y).mono fun _ h ↦ h.mono x

/-- A new request carries the trail on. -/
theorem Trail.ask {history : List (Attempt W τ)} {x : Attempt W τ} {operation : Operation}
    {iteration : ℤ} (h : Trail office history x.before)
    (hcall : x.call = .request operation iteration)
    (happrovals : x.after.approvals = x.before.approvals.put
      (approvalId operation.sha256 x.before.approvals.length) { operation, iteration })
    (htells : Tells (entry (τ := τ) { operation, iteration }
      (approvalId operation.sha256 x.before.approvals.length) (str "requested"))
        x.before.log x.after.log) :
    Trail office (history ++ [x]) x.after := by
  set id := approvalId operation.sha256 x.before.approvals.length with hid
  have hfresh := h.inOrder.keyed.fresh operation.sha256_spec.1
  have hget := Approvals.get_put_of_fresh hfresh { operation, iteration }
  have hkeys : x.after.approvals.map (·.1) = x.before.approvals.map (·.1) ++ [id] := by
    rw [happrovals, Approvals.keys_put_of_fresh hfresh]
  have hdecision : ∀ y decision, decisionOf x.before y = some decision →
      decisionOf x.after y = some decision := by
    intro y decision hy
    have hne : y ≠ id := by
      rintro rfl
      rw [decisionOf, hfresh] at hy
      cases hy
    rw [decisionOf, happrovals, hget, if_neg hne, ← hy, decisionOf]
  refine ⟨⟨htells.named h.inOrder.named, fun k y hk ↦ ?_⟩, ?_, fun y item hy ↦ ?_,
    fun y item hy hgranted ↦ ?_, fun y hy ↦ ?_, fun y hy z hz ↦ ?_, fun log' hlog' y ↦ ?_⟩
  · rw [hkeys, List.getElem?_append] at hk
    split at hk
    · exact h.inOrder.keyed k y hk
    · rename_i hlt
      obtain ⟨hone, rfl⟩ := List.getElem?_eq_some_iff.mp hk
      have hk : k = x.before.approvals.length := by
        simp only [List.length_map, List.length_singleton] at hone hlt
        omega
      exact ⟨operation.sha256, operation.sha256_spec.1, operation.sha256_spec.2, by
        rw [List.getElem_singleton, hid, hk]⟩
  · rw [hkeys, ← h.asked, askedIds, List.filterMap_append, ← askedIds, List.filterMap_cons, hcall,
      List.filterMap_nil]
  · rw [happrovals, hget] at hy
    split at hy
    · rename_i heq
      cases hy
      exact ⟨x, List.mem_append_right _ List.mem_cons_self, iteration, hcall, heq⟩
    · exact (h.requested y item hy).mono x
  · rw [happrovals, hget] at hy
    split at hy
    · cases hy
      cases hgranted
    · exact (h.granted y item hy hgranted).mono x
  · rcases mem_spentIds_snoc.mp hy with hy | ⟨token, operation', iteration', hconsume, -⟩
    · exact hdecision y _ (h.spent y hy)
    · rw [hcall] at hconsume
      cases hconsume
  · rcases List.mem_append.mp hy with hy | hy
    · exact hdecision z _ (h.settled y hy z hz)
    · rw [List.mem_singleton] at hy
      exact hy ▸ hz
  · rw [hlog'] at htells
    cases hlog : x.before.log with
    | none => rw [hlog] at htells; exact htells.elim
    | some log =>
      rw [hlog] at htells
      have hwas := h.told log hlog y
      rw [htells.2 y, happrovals, hget]
      by_cases hy : y = id
      · subst hy
        rw [hfresh] at hwas
        rw [if_pos rfl, hwas, List.nil_append, Agrees, entry]
        by_cases hneg : iteration < 0
        · simp [hneg]
        · have hne : str "requested" ≠ str "rejected" := by decide
          simp [hneg, hne, added_some, Decision.stories]
      · rw [if_neg hy]
        have hadded : added (entry (τ := τ) { operation, iteration } id (str "requested")) y =
          [] := by
          rw [entry]
          split
          · rfl
          · rw [added_some, if_neg hy]
        rw [hadded, List.append_nil]
        exact hwas.mono fun _ h ↦ h.mono x

/-- Whatever the call was, the trail goes on. -/
theorem Trail.step {history : List (Attempt W τ)} {x : Attempt W τ}
    (h : Trail office history x.before) (hx : x.Conforms office)
    (hfree : CollisionFree office (history ++ [x])) : Trail office (history ++ [x]) x.after := by
  obtain ⟨before, call, outcome, after⟩ := x
  have hmem : (⟨before, call, outcome, after⟩ : Attempt W τ) ∈
      history ++ [⟨before, call, outcome, after⟩] :=
    List.mem_append_right _ List.mem_cons_self
  have hentry : ∀ {item : Pending τ} {id decision y other}, entry item id decision =
    some (y, other) →
      y = id := by
    intro item id decision y other he
    rw [entry] at he
    split at he <;> cases he
    rfl
  have hopen : ∀ {item : Pending τ}, item.decision = .requested →
      ¬ Idle (Withheld office history) item := fun {item} was hidle ↦ by
    rw [Idle, was] at hidle
    exact Decision.noConfusion hidle.1
  cases hx.moves with
  | idle hcall happrovals htells => exact h.rest hx ⟨happrovals, htells⟩ hcall
  | asked happrovals htells => exact h.ask rfl happrovals htells
  | touched was is changes =>
    refine h.change hx changes (fun _ _ hcall ↦ by cases hcall) (by rw [was]; decide)
      (fun hgranted ↦ ?_) (fun story hstory ↦ ?_) (fun _ _ hnone ↦ by cases hnone)
    · rw [is] at hgranted
      cases hgranted
    · rw [added_none, List.append_nil]
      rw [Agrees, was] at hstory
      rw [Agrees, is, changes.iteration]
      split at hstory
      · rename_i hneg
        rw [if_pos hneg, hstory]
      · rename_i hpos
        rw [if_neg hpos]
        exact .inl (hstory.resolve_right fun hidle ↦ hopen was hidle.1)
  | muted was is drawn token changes =>
    refine h.change hx changes (fun _ _ hcall ↦ by cases hcall) (by rw [was]; decide) (fun _ ↦ ?_)
      (fun story hstory ↦ ?_) fun _ _ hnone ↦ by cases hnone
    · exact ⟨_, hmem, _, _, rfl, by rw [decisionOf, changes.found, Option.map_some, was],
        changes.get⟩
    · rw [added_none, List.append_nil]
      rw [Agrees, was] at hstory
      rw [Agrees, changes.iteration]
      split at hstory
      · rename_i hneg
        rw [if_pos hneg, hstory]
      · rename_i hpos
        have hasked : story = [str "requested"] :=
          List.mem_singleton.mp (hstory.resolve_right fun hidle ↦ hopen was hidle.1)
        rw [if_neg hpos]
        exact .inr ⟨⟨is, _, token, _, hmem, ⟨_, _, _, _, rfl, rfl⟩, drawn⟩, hasked⟩
  | granted was is changes =>
    refine h.change hx changes (fun _ _ hcall ↦ by cases hcall) (by rw [was]; decide) (fun _ ↦ ?_)
      (fun story hstory ↦ hstory.tell (hopen was) changes.iteration ?_ (by decide)) fun _ _ ↦ hentry
    · exact ⟨_, hmem, _, _, rfl, by rw [decisionOf, changes.found, Option.map_some, was],
        changes.get⟩
    · rw [was, is]
      decide
  | refused was is htold changes =>
    refine h.change hx changes (fun _ _ hcall ↦ by cases hcall) (by rw [was]; decide)
      (fun hgranted ↦ ?_) (fun story hstory ↦ ?_) fun y decision hy ↦ ?_
    · rw [is] at hgranted
      cases hgranted
    · rcases htold with rfl | rfl
      · rw [added_none, List.append_nil]
        rw [Agrees, was] at hstory
        rw [Agrees, is, changes.iteration]
        split at hstory
        · rename_i hneg
          rw [if_pos hneg, hstory]
        · rename_i hpos
          rw [if_neg hpos]
          have hasked := hstory.resolve_right fun hidle ↦ hopen was hidle.1
          exact .inl (List.mem_cons.mpr (.inl (List.mem_singleton.mp hasked)))
      · refine hstory.tell (hopen was) changes.iteration ?_ (by decide)
        rw [was, is]
        decide
    · rcases htold with rfl | rfl
      · cases hy
      · exact hentry hy
  | consumed was is offered named changes =>
    -- what nobody was given nobody offers
    have hkept : ¬ Idle (Withheld office history) _ := fun hidle ↦ by
      obtain ⟨-, digest, htoken, y, hy, hwithholds⟩ := hidle
      obtain rfl := Option.some.inj (named.symm.trans htoken)
      have hpair := (List.pairwise_append.mp hfree).2.2 y hy _ List.mem_cons_self
      exact hpair _ _ _ _ rfl offered hwithholds
    refine h.change hx changes (fun _ _ hcall ↦ by cases hcall) (by rw [was]; decide)
      (fun hgranted ↦ ?_)
      (fun story hstory ↦ hstory.tell hkept changes.iteration ?_ (by decide)) fun _ _ ↦ hentry
    · rw [is] at hgranted
      cases hgranted
    · rw [was, is]
      decide

/-! ## Every history

The induction over a history, and what follows for the approvals that were spent in it. -/

/-- The only step past a history is its last one. -/
theorem eq_of_snoc_eq {α : Type} {history earlier later : List α} {x y : α}
    (h : history ++ [x] = earlier ++ y :: later) :
    (history = earlier ∧ x = y) ∨ ∃ later', history = earlier ++ y :: later' := by
  rcases List.eq_nil_or_concat later with rfl | ⟨later', z, rfl⟩
  · obtain ⟨h₁, h₂⟩ := List.append_inj' h rfl
    exact .inl ⟨h₁, List.head_eq_of_cons_eq h₂⟩
  · rw [List.concat_eq_append, ← List.cons_append, ← List.append_assoc] at h
    exact .inr ⟨later', (List.append_inj' h rfl).1⟩

theorem Lawful.snoc {history : List (Attempt W τ)} {x : Attempt W τ} (h : Lawful office history)
    (htrail : Trail office history x.before) (hall : ∀ y ∈ history ++ [x], y.Conforms office)
    (hfree : CollisionFree office (history ++ [x])) : Lawful office (history ++ [x]) := by
  have hx : x.Conforms office := hall x (List.mem_append_right _ List.mem_cons_self)
  have htrail' := htrail.step hx hfree
  refine ⟨?_, ?_, fun earlier y later heq ↦ ?_, fun id hid y hy ↦ ?_, fun y hy ↦ ?_,
    fun y hy log hlog id ↦ ?_⟩
  · rw [spentIds, List.filterMap_append, ← spentIds, ← spentIds, List.nodup_append]
    refine ⟨h.spent_once, ?_, fun y hy z hz ↦ ?_⟩
    · have hlength : (spentIds [x]).length ≤ 1 := List.length_filterMap_le _ _
      rcases hs : spentIds [x] with _ | ⟨y, _ | ⟨z, rest⟩⟩
      · exact List.nodup_nil
      · exact List.nodup_singleton y
      · rw [hs] at hlength
        simp at hlength
    · -- what is spent now was granted until now, so it was not spent before
      obtain hz | ⟨token, operation, iteration, hcall, houtcome⟩ :=
        mem_spentIds_snoc.mp (show z ∈ spentIds ([] ++ [x]) from hz)
      · exact absurd hz List.not_mem_nil
      rintro rfl
      obtain ⟨item, _, hspendable, -, -⟩ := hx.spends token operation iteration y hcall houtcome
      have hconsumed := htrail.spent y hy
      rw [decisionOf, hspendable.found, Option.map_some, hspendable.granted] at hconsumed
      cases hconsumed
  · rw [htrail'.asked]
    exact htrail'.inOrder.keyed.nodup
  · rcases eq_of_snoc_eq heq with ⟨rfl, rfl⟩ | ⟨later', rfl⟩
    · intro token operation iteration id hcall houtcome
      obtain ⟨item, _, hspendable, -, -⟩ := hx.spends token operation iteration id hcall houtcome
      exact ⟨item, hspendable, htrail.requested id item hspendable.found,
        htrail.granted id item hspendable.found hspendable.granted⟩
    · exact h.earned earlier y later' rfl
  · have hnever : ∀ z ∈ history ++ [x], decisionOf z.after id ≠ some .refused := by
      intro z hz hrefused
      have hnow := htrail'.settled z hz id hrefused
      rw [htrail'.spent id hid] at hnow
      cases hnow
    refine ⟨hnever y hy, fun refusedBy hcall r hr ↦ hnever y hy ?_⟩
    exact (hall y hy).refuses id refusedBy r hcall hr
  · exact (hall y hy).rejects
  · rcases List.mem_append.mp hy with hy | hy
    · exact h.told y hy log hlog id
    · rw [List.mem_singleton] at hy
      subst hy
      exact (htrail'.told log hlog id).mem_stories

/-- A commit: forty hexadecimal digits, as an operation asks of its head. -/
def sampleHead : Str := List.replicate 40 (ch 'a')

/-- A patch to a repository at that commit. -/
def sampleOperation : Operation where
  kind := .diff
  tool := str "apply_patch"
  arguments := []
  repo := str "/repo"
  ref := str "refs/heads/fix"
  head := sampleHead
  sha256 := (operationDigest .diff (str "apply_patch") [] (str "/repo") (str "refs/heads/fix")
    sampleHead).get (by decide)
  named := by decide
  pinned := by decide
  sealed := ⟨[], ⟨List.nodup_nil, trivial⟩, rfl, (Option.some_get _).symm⟩

/-- An authority whose clocks stand still; a wall clock counts seconds, and the dates of `_iso` end
with the year 9999. -/
def officeAt {W : Type} (wallClock : ℕ) : Office W ℕ where
  headOf := fun _ ↦ return sampleHead
  clock := return 0
  wallClock := return wallClock
  tokenUrlsafe := return str "token"
  plus := (· + ·)
  atLeast := fun a b ↦ decide (b ≤ a)
  before := fun a b ↦ decide (a < b)
  allowedTtl := fun t ↦ decide (0 < t ∧ t ≤ 3600)
  iso := fun t ↦ if t < 253402300800 then .ok (decimal t) else .error .valueError
  mask := noMasking
  sink := fun _ ↦ return ()
  sink_rejects := fun _ _ _ ↦ nofun

end AtlasCore
