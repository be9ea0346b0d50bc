import AtlasCore.Approval.Authority

/-!
# What a call of the authority can do

Every call either leaves the approvals alone, or it opens one, or it moves one of them one step
along

    requested → granted → consumed
    requested → refused

and what it tells the log is that step, if it tells anything.  A grant may break off after it was
decided, when its date cannot be written; then nothing is told, and the token it drew is given to
nobody.  `Tells` is said of two logs, `Moves` of two desks and the call between them; there is one
lemma for each call, and whatever holds of every history of calls is derived from these.
-/

set_option autoImplicit false

namespace AtlasCore

open Py

variable {W τ : Type}

/-! ## What a log tells of an approval

The log of an authority is one list for all approvals, and what it says of one of them is read off
by its id. -/

/-- The decision an event records of an approval; a rejection decides nothing. -/
def Event.tells (e : Event) (id : Str) : Option Str :=
  if e.kind = .approvalRecorded then
    match getOrNull e.payload "approval_id", getOrNull e.payload "decision" with
    | .str x, .str decision => if x = id ∧ decision ≠ str "rejected" then some decision else none
    | _, _ => none
  else none

/-- The decisions that were logged of an approval, in order. -/
def EventLog.told (log : EventLog) (id : Str) : List Str := log.events.filterMap (·.tells id)

/-- What an entry adds to the story of an id. -/
def added (entry : Option (Str × Str)) (id : Str) : List Str :=
  match entry with
  | some (x, decision) => if id = x then [decision] else []
  | none => []

@[simp] theorem added_none (id : Str) : added none id = [] := rfl

theorem added_some (x decision id : Str) :
    added (some (x, decision)) id = if id = x then [decision] else [] := rfl

/-- From one log to the other, `entry` was told and nothing else. -/
def Tells (entry : Option (Str × Str)) : Option EventLog → Option EventLog → Prop
  | none, none => True
  | some log, some log' =>
    log'.runId = log.runId ∧ ∀ id, log'.told id = log.told id ++ added entry id
  | _, _ => False

theorem Tells.refl : ∀ log, Tells none log log
  | none => trivial
  | some _ => ⟨rfl, fun _ ↦ (List.append_nil _).symm⟩

/-- The log belongs to a run: its id is not empty, so its records can be told from those of other
runs. -/
def Named (log : Option EventLog) : Prop := ∀ l, log = some l → l.runId ≠ []

theorem Tells.named {entry : Option (Str × Str)} {log log' : Option EventLog}
    (h : Tells entry log log') (hn : Named log) : Named log' := by
  cases log with
  | none =>
    cases log' with
    | none => exact hn
    | some _ => exact h.elim
  | some l =>
    cases log' with
    | none => exact h.elim
    | some l' =>
      rintro _ ⟨⟩
      rw [h.1]
      exact hn l rfl

/-- What a record of a decision leaves in the log: nothing, where the iteration is refused. -/
def entry (item : Pending τ) (id decision : Str) : Option (Str × Str) :=
  if item.iteration < 0 ∨ decision = str "rejected" then none else some (id, decision)

/-! ## One item at a time

Looking up an item after an assignment or after a new one was put: the item itself has changed, and
no other. -/

namespace Approvals

variable {approvals : Approvals τ} {id : Str}

theorem get_cons (p : Str × Pending τ) (rest : Approvals τ) (x : Str) :
    Approvals.get (p :: rest) x = if p.1 = x then some p.2 else rest.get x := by
  rw [get, List.find?_cons]
  by_cases h : p.1 = x <;> simp [h, get]

theorem get_assign (f : Pending τ → Pending τ) (x : Str) :
    (approvals.assign id f).get x =
      if x = id then (approvals.get id).map f else approvals.get x := by
  induction approvals with
  | nil => simp [assign, get]
  | cons p rest ih =>
    rw [assign, List.map_cons, get_cons, get_cons, get_cons, ← assign, ih]
    by_cases hp : p.1 = id <;> by_cases hx : x = id <;> grind

theorem keys_assign (f : Pending τ → Pending τ) :
    (approvals.assign id f).map (·.1) = approvals.map (·.1) := by
  rw [assign, List.map_map]
  refine List.map_congr_left fun p _ ↦ ?_
  by_cases hp : p.1 = id <;> simp [hp]

theorem get_eq_none : approvals.get id = none ↔ id ∉ approvals.map (·.1) := by
  rw [get, Option.map_eq_none_iff, List.find?_eq_none, List.mem_map]
  simp only [decide_eq_true_eq, not_exists, not_and]

/-- A new id is put at the end. -/
theorem put_of_fresh (h : approvals.get id = none) (item : Pending τ) :
    approvals.put id item = approvals ++ [(id, item)] := by
  have hany : (approvals.any fun p ↦ p.1 = id) = false := by
    rw [List.any_eq_false]
    intro p hp hid
    exact get_eq_none.mp h (List.mem_map.mpr ⟨p, hp, of_decide_eq_true hid⟩)
  rw [put, hany, if_neg (by decide)]

theorem get_put_of_fresh (h : approvals.get id = none) (item : Pending τ) (x : Str) :
    (approvals.put id item).get x = if x = id then some item else approvals.get x := by
  rw [put_of_fresh h]
  induction approvals with
  | nil =>
    rw [List.nil_append, get_cons]
    by_cases hx : x = id
    · rw [if_pos hx.symm, if_pos hx]
    · rw [if_neg (Ne.symm hx), if_neg hx]
  | cons p rest ih =>
    have hp : p.1 ≠ id := fun hp ↦ by simp [get_cons, hp] at h
    rw [get_cons, if_neg hp] at h
    rw [List.cons_append, get_cons, get_cons, ih h]
    by_cases hpx : p.1 = x <;> grind

theorem keys_put_of_fresh (h : approvals.get id = none) (item : Pending τ) :
    (approvals.put id item).map (·.1) = approvals.map (·.1) ++ [id] := by
  rw [put_of_fresh h, List.map_append, List.map_singleton]

/-- Where no id occurs twice, an item of the list is the item under its id. -/
theorem get_of_mem {item : Pending τ} (hnodup : (approvals.map (·.1)).Nodup)
    (h : (id, item) ∈ approvals) : approvals.get id = some item := by
  induction approvals with
  | nil => exact absurd h List.not_mem_nil
  | cons p rest ih =>
    rw [List.map_cons, List.nodup_cons] at hnodup
    rw [get_cons]
    rcases List.mem_cons.mp h with rfl | h
    · rw [if_pos rfl]
    · have hp : p.1 ≠ id := fun hp ↦ hnodup.1 (List.mem_map.mpr ⟨_, h, hp.symm⟩)
      rw [if_neg hp, ih hnodup.2 h]

end Approvals

/-! ## The moves

What one call may do, as a relation between the state before and the state after.  The histories
are built from it, and nothing after this looks into a call again. -/

/-- The calls an authority takes.  Each holds the lock from beginning to end, so that any
interleaving is a sequence of them. -/
inductive AuthorityCall (τ : Type) where
  | request (operation : Operation) (iteration : ℤ)
  | grant (approvalId grantedBy : Str) (ttlSeconds : τ)
  | refuse (approvalId refusedBy : Str)
  | consume (token : Str) (operation : Operation) (iteration : ℤ)

/-- The item under `id` is replaced by one for the same request, and `told` is what the log is
told. -/
structure Changes (d d' : Desk W τ) (id : Str) (item item' : Pending τ)
    (told : Option (Str × Str)) : Prop where
  found : d.approvals.get id = some item
  keys : d'.approvals.map (·.1) = d.approvals.map (·.1)
  get : d'.approvals.get id = some item'
  frame : ∀ x, x ≠ id → d'.approvals.get x = d.approvals.get x
  operation : item'.operation = item.operation
  iteration : item'.iteration = item.iteration
  tells : Tells told d.log d'.log

theorem Changes.refl {d : Desk W τ} {id : Str} {item : Pending τ}
    (hfound : d.approvals.get id = some item) : Changes d d id item item none where
  found := hfound
  keys := rfl
  get := hfound
  frame := fun _ _ ↦ rfl
  operation := rfl
  iteration := rfl
  tells := Tells.refl _

/-- The token a grant draws, as a digest. -/
def Draws (office : Office W τ) (d : Desk W τ) (digest : Str) : Prop :=
  ∃ token, (office.tokenUrlsafe d.world).1 = .ok token ∧ sha256Text token = some digest

/-- What a call does to the desk, and how it ends. -/
inductive Moves (office : Office W τ) (d : Desk W τ) :
    AuthorityCall τ → Except Exc Str → Desk W τ → Prop
  | idle {call : AuthorityCall τ} {r : Except Exc Str} {d' : Desk W τ}
      (not_request : ∀ operation iteration, call ≠ .request operation iteration)
      (approvals : d'.approvals = d.approvals) (tells : Tells none d.log d'.log) :
      Moves office d call r d'
  | asked {operation : Operation} {iteration : ℤ} {r : Except Exc Str} {d' : Desk W τ}
      (approvals : d'.approvals = d.approvals.put
        (approvalId operation.sha256 d.approvals.length) { operation, iteration })
      (tells : Tells (entry (τ := τ) { operation, iteration }
        (approvalId operation.sha256 d.approvals.length) (str "requested")) d.log d'.log) :
      Moves office d (.request operation iteration) r d'
  /-- A grant that broke off before the decision was made. -/
  | touched {id grantedBy : Str} {ttl : τ} {item item' : Pending τ} {r : Except Exc Str}
      {d' : Desk W τ} (was : item.decision = .requested) (is : item'.decision = .requested)
      (changes : Changes d d' id item item' none) : Moves office d (.grant id grantedBy ttl) r d'
  /-- A grant that broke off after it: its date has no text, and its token stays where it is. -/
  | muted {id grantedBy digest : Str} {ttl : τ} {item item' : Pending τ} {e : Exc} {d' : Desk W τ}
      (was : item.decision = .requested) (is : item'.decision = .granted)
      (drawn : Draws office d digest) (token : item'.tokenSha256 = some digest)
      (changes : Changes d d' id item item' none) :
      Moves office d (.grant id grantedBy ttl) (.error e) d'
  | granted {id grantedBy : Str} {ttl : τ} {item item' : Pending τ} {r : Except Exc Str}
      {d' : Desk W τ} (was : item.decision = .requested) (is : item'.decision = .granted)
      (changes : Changes d d' id item item' (entry item id (str "granted"))) :
      Moves office d (.grant id grantedBy ttl) r d'
  /-- The wall clock may break a refusal off after the decision was made. -/
  | refused {id refusedBy : Str} {item item' : Pending τ} {told : Option (Str × Str)}
      {r : Except Exc Str} {d' : Desk W τ} (was : item.decision = .requested)
      (is : item'.decision = .refused)
      (told_eq : told = none ∨ told = entry item id (str "refused"))
      (changes : Changes d d' id item item' told) : Moves office d (.refuse id refusedBy) r d'
  | consumed {token digest : Str} {operation : Operation} {iteration : ℤ} {id : Str}
      {item item' : Pending τ} {r : Except Exc Str} {d' : Desk W τ}
      (was : item.decision = .granted) (is : item'.decision = .consumed)
      (offered : sha256Text token = some digest) (named : item.tokenSha256 = some digest)
      (changes : Changes d d' id item item' (entry item id (str "consumed"))) :
      Moves office d (.consume token operation iteration) r d'

/-! ## Recording

A record of the authority only adds to the log, and its payload survives the masking. -/

section
variable {office : Office W τ} {d : Desk W τ}

/-- An id that `redact_text` leaves as it is. -/
theorem approvalId_plain {sha256 : Str} (h : sha256.all isHex = true) (n : ℕ) :
    isPlain (approvalId sha256 n) = true := by
  have hdigit :
      ∀ k : Fin 10, (!isSpace (digitChar k) && !(str "B_kKxz./@").contains (digitChar k)) =
      true := by decide
  have hhex : ∀ c : CodePoint, isHex c = true →
      (!isSpace c && !(str "B_kKxz./@").contains c) = true := by
    intro c hc
    have hval : (48 ≤ c.val ∧ c.val < 58) ∨ (97 ≤ c.val ∧ c.val < 103) := by
      simpa [isHex] using hc
    have hspecial : (str "B_kKxz./@").contains c = false := by
      rw [List.contains_eq_mem, decide_eq_false_iff_not]
      intro hmem
      have hmem : c ∈ [ch 'B', ch '_', ch 'k', ch 'K', ch 'x', ch 'z', ch '.', ch '/', ch '@'] :=
        hmem
      simp only [List.mem_cons, List.not_mem_nil, or_false] at hmem
      rcases hmem with rfl | rfl | rfl | rfl | rfl | rfl | rfl | rfl | rfl <;>
        exact absurd hval (by decide)
    have hspace : isSpace c = false := by
      rw [Bool.eq_false_iff]
      intro hs
      simp only [isSpace, Bool.or_eq_true, Bool.and_eq_true, decide_eq_true_eq, beq_iff_eq] at hs
      omega
    rw [hspecial, hspace]
    rfl
  rw [isPlain, approvalId, List.all_append, List.all_append, List.all_append, Bool.and_eq_true,
    Bool.and_eq_true, Bool.and_eq_true]
  refine ⟨⟨⟨by decide, ?_⟩, by decide⟩, ?_⟩
  · exact List.all_eq_true.mpr fun c hc ↦
      hhex c (List.all_eq_true.mp h c (List.mem_of_mem_take hc))
  · rw [decimal, List.all_map]
    exact List.all_eq_true.mpr fun k _ ↦ hdigit k

/-- The ids an authority gave, in order: the `k`-th ends in `k`. -/
def Keyed (approvals : Approvals τ) : Prop :=
  ∀ k id, (approvals.map (·.1))[k]? = some id →
    ∃ sha256 : Str, sha256.length = 64 ∧ sha256.all isHex = true ∧ id = approvalId sha256 k

theorem approvalId_index {a b : Str} (ha : a.length = 64) (hb : b.length = 64) {m n : ℕ}
    (h : approvalId a m = approvalId b n) : m = n := by
  rw [approvalId, approvalId] at h
  have hlength : (str "approval-" ++ a.take 16 ++ [ch '-']).length =
      (str "approval-" ++ b.take 16 ++ [ch '-']).length := by
    simp [ha, hb]
  exact decimal_injective (List.append_inj h hlength).2

theorem Keyed.nodup {approvals : Approvals τ} (h : Keyed approvals) :
    (approvals.map (·.1)).Nodup := by
  rw [List.nodup_iff_injective_getElem]
  rintro ⟨i, hi⟩ ⟨j, hj⟩ hij
  simp only at hij
  obtain ⟨a, ha, -, hia⟩ := h i _ (List.getElem?_eq_getElem hi)
  obtain ⟨b, hb, -, hjb⟩ := h j _ (List.getElem?_eq_getElem hj)
  rw [hia, hjb] at hij
  exact Fin.ext (approvalId_index ha hb hij)

theorem Keyed.plain {approvals : Approvals τ} (h : Keyed approvals) {id : Str} {item : Pending τ}
    (hget : approvals.get id = some item) : isPlain id = true := by
  have hmem : id ∈ approvals.map (·.1) := by
    by_contra hnot
    rw [Approvals.get_eq_none.mpr hnot] at hget
    cases hget
  obtain ⟨k, hk⟩ := List.mem_iff_getElem?.mp hmem
  obtain ⟨sha256, -, hhex, rfl⟩ := h k id hk
  exact approvalId_plain hhex k

/-- The next id is a new one. -/
theorem Keyed.fresh {approvals : Approvals τ} (h : Keyed approvals) {sha256 : Str}
    (hlength : sha256.length = 64) : approvals.get (approvalId sha256 approvals.length) = none := by
  rw [Approvals.get_eq_none]
  intro hmem
  obtain ⟨k, hk⟩ := List.mem_iff_getElem?.mp hmem
  obtain ⟨other, hother, -, hid⟩ := h k _ hk
  have hlt : k < approvals.length := by
    have hbound := (List.getElem?_eq_some_iff.mp hk).1
    rwa [List.length_map] at hbound
  exact absurd (approvalId_index hlength hother hid) hlt.ne'

/-! ## The calls

For each of the four calls, how the desk can look afterwards, whether the call returns or raises. -/

/-- A desk whose log belongs to a run and whose ids are the authority's own. -/
structure InOrder (d : Desk W τ) : Prop where
  named : Named d.log
  keyed : Keyed d.approvals

/-- An item that is open is one that was asked for and not answered. -/
theorem wp_openItem {id : Str} :
    (Authority.openItem id : DeskM W τ (Pending τ)).wp
      (fun item d' ↦ d' = d ∧ d.approvals.get id = some item ∧ item.decision = .requested)
      (fun _ d' ↦ d' = d) d := by
  rw [Authority.openItem, Eff.wp_bind, Eff.wp_read]
  cases h : d.approvals.get id with
  | none => exact rfl
  | some item =>
    refine Eff.wp_ite.mpr ⟨fun _ ↦ rfl, fun hopen ↦ ⟨rfl, rfl, ?_⟩⟩
    exact not_not.mp hopen

section
variable {d₁ : Desk W τ} {id : Str} {item item₁ : Pending τ}

/-- Asking the machine changes no item. -/
theorem Changes.wp_asks {α : Type} (h : Changes d d₁ id item item₁ none) (m : Eff Exc W α) :
    (asks m).wp
      (fun a d' ↦ m d₁.world = (.ok a, d'.world) ∧ Changes d d' id item item₁ none)
      (fun _ d' ↦ Changes d d' id item item₁ none) d₁ := by
  refine Eff.wp_zoom.mpr ((Eff.wp_run m d₁.world).mono (fun a w hw ↦ ⟨hw, ?_⟩) fun _ w _ ↦ ?_)
  · exact ⟨h.found, h.keys, h.get, h.frame, h.operation, h.iteration, h.tells⟩
  · exact ⟨h.found, h.keys, h.get, h.frame, h.operation, h.iteration, h.tells⟩

end

/-- A reading that is neither before an instant nor at or after it: one of the two is no number. -/
def Comparable (office : Office W τ) (reading instant : τ) : Prop :=
  office.atLeast reading instant = false → office.before reading instant = true

/-- The readings that `consume` compares with an expiry can be compared with it. -/
def Readable (office : Office W τ) (d : Desk W τ) (token : Str) : Prop :=
  ∀ digest id item monotonic wall, sha256Text token = some digest →
    Authority.found d.approvals digest = some (id, item) →
    item.expiresMonotonic = some monotonic → item.expiresWall = some wall →
      (∀ now, (office.clock d.world).1 = .ok now → Comparable office now monotonic) ∧
      ∀ now, (office.wallClock (office.clock d.world).2).1 = .ok now → Comparable office now wall

/-- What has to hold when an approval is spent: the token is the one of a granted item, both clocks
are before its expiry, `head_of` answers with the head of the operation, and the operation that is
offered is the one that was asked for. -/
structure Spendable (office : Office W τ) (d : Desk W τ) (token : Str) (operation : Operation)
    (id : Str) (item : Pending τ) : Prop where
  found : d.approvals.get id = some item
  token : ∃ digest, sha256Text token = some digest ∧ item.tokenSha256 = some digest
  granted : item.decision = .granted
  checks : ∃ now monotonic w₁ wallNow wall w₂ w₃,
    office.clock d.world = (.ok now, w₁) ∧ item.expiresMonotonic = some monotonic ∧
      office.before now monotonic = true ∧
    office.wallClock w₁ = (.ok wallNow, w₂) ∧ item.expiresWall = some wall ∧
      office.before wallNow wall = true ∧
    office.headOf item.operation.repo w₂ = (.ok item.operation.head, w₃)
  offered : operation.sha256 = item.operation.sha256

/-- The approval under `id` is spent, and the log is told. -/
def Spends (office : Office W τ) (d : Desk W τ) (token : Str) (operation : Operation) (id : Str)
    (d' : Desk W τ) : Prop :=
  ∃ item item', Spendable office d token operation id item ∧ item'.decision = .consumed ∧
    Changes d d' id item item' (entry item id (str "consumed"))

/-- Nothing but the world and the rejections in the log changed. -/
def Rests (d d' : Desk W τ) : Prop := d'.approvals = d.approvals ∧ Tells none d.log d'.log

theorem Rests.refl (d : Desk W τ) : Rests d d := ⟨rfl, Tells.refl _⟩

/-- As long as everything rests, an item is the item it was. -/
theorem Rests.changes {d₁ : Desk W τ} (h : Rests d d₁) {id : Str} {item : Pending τ}
    (hfound : d.approvals.get id = some item) : Changes d d₁ id item item none where
  found := hfound
  keys := by rw [h.1]
  get := by rw [h.1, hfound]
  frame := fun _ _ ↦ by rw [h.1]
  operation := rfl
  iteration := rfl
  tells := h.2

theorem Rests.asks {α : Type} {d₁ : Desk W τ} (h : Rests d d₁) (m : Eff Exc W α) :
    (asks m).wp (fun a d' ↦ m d₁.world = (.ok a, d'.world) ∧ Rests d d')
      (fun e d' ↦ m d₁.world = (.error e, d'.world) ∧ Rests d d') d₁ :=
  Eff.wp_zoom.mpr ((Eff.wp_run m d₁.world).mono (fun _ _ hw ↦ ⟨hw, h⟩) fun _ _ hw ↦ ⟨hw, h⟩)

end

end AtlasCore
