import AtlasCore.EventLog.Brackets
import AtlasCore.Gateway.Invoke

/-!
# Hosts that raise `Exception`s

The gateway catches `Exception`s.  If that is all that the code of the host raises, then it is all
that an attempt raises: a handler catches what its own calls raise, and the values, the schemas and
the budget raise nothing else.

`Civil` is said of the code of a program, and `CivilOffice` of the clocks and the log of an
authority.  The rest of the file goes through the parts of the gateway, one lemma for each, to the
same conclusion about a handler that is made of them.
-/

set_option autoImplicit false

namespace AtlasCore

open Py

variable {H Ref τ : Type}

/-! ## Programs

Code of the host that leaves the logs to the gateway and the authority. -/

/-- What `m` raises is an `Exception`, which the gateway catches; an interrupt of the process is
not. -/
abbrev Polite {σ α : Type} (m : Eff Exc σ α) : Prop :=
  Eff.Raises (fun e : Exc ↦ e.isException = true) m

/-- A program that raises, of its own, only `Exception`s. -/
def Prog.Civil {β : Type} : Prog H Ref τ β → Prop
  | .ret _ => True
  | .raise e => e.isException = true
  | .host _ next => ∀ h, (next h).Civil
  | .invoke _ _ next => ∀ r, (next r).Civil
  | .contextInvoke _ _ next => ∀ r, (next r).Civil
  | .invokeWrite _ _ _ _ next => ∀ r, (next r).Civil
  | .setRoute _ next => ∀ r, (next r).Civil
  | .authority _ next => ∀ r, (next r).Civil

/-- What an authority asks the machine for ends in a return or an `Exception`. -/
structure CivilOffice {W : Type} (office : Office W τ) : Prop where
  headOf : ∀ repo, Polite (office.headOf repo)
  clock : Polite office.clock
  wallClock : Polite office.wallClock
  sink : ∀ e, Polite (office.sink e)

/-- What the gateway is given ends in a return or an `Exception`, and the log takes every record. -/
structure Civil (gateway : Gateway H Ref τ) : Prop where
  handler : ∀ p ∈ gateway.tools, ∀ r, (p.2.handler r).Civil
  describe : ∀ p ∈ gateway.tools, ∀ describe, p.2.describe = some describe → ∀ r, (describe r).Civil
  clock : Polite gateway.meter.clock
  cancelled : Polite gateway.meter.isCancelled
  monotonic : Polite gateway.monotonic
  childEnd : ∀ h, gateway.childEnd.wp
    (fun ending _ ↦ ∀ e, ending = .notStarted e ∨ ending = .lost e → e.isException = true)
    (fun e _ ↦ e.isException = true) h
  office : ∀ office, gateway.approvals = some office → CivilOffice office
  sink : EventLog.Takes gateway.sink

variable {gateway : Gateway H Ref τ}

/-- Whatever a program calls, it is the program that raises. -/
theorem Prog.Civil.polite {β : Type} {calls : Calls H Ref τ} {nestedAllowed : Bool} :
    ∀ {p : Prog H Ref τ β}, p.Civil → Polite (p.run gateway calls nestedAllowed)
  | .ret b, _ => Eff.Raises.pure b
  | .raise _, h => Eff.Raises.raise h
  | .host _ _, h => (Eff.Raises.update _).bind fun _ ↦ Eff.Raises.read.bind fun _ ↦ (h _).polite
  | .invoke _ _ _, h => (Eff.Raises.attempt _).bind fun r ↦ (h r).polite
  | .contextInvoke _ _ _, h => Eff.Raises.ite
      (fun _ ↦ (Eff.Raises.attempt _).bind fun r ↦ (h r).polite) fun _ ↦ (h _).polite
  | .invokeWrite _ _ _ _ _, h => (Eff.Raises.attempt _).bind fun r ↦ (h r).polite
  | .setRoute _ _, h => (Eff.Raises.attempt _).bind fun r ↦ (h r).polite
  | .authority _ _, h => (Eff.Raises.attempt _).bind fun r ↦ (h r).polite

/-! ## The budget

What a budget raises is an `Exception`, whichever of its limits is reached. -/

section
variable {W : Type} {meter : Meter W} (hclock : Polite meter.clock)
  (hcancelled : Polite meter.isCancelled)
include hclock hcancelled

theorem polite_check : Polite (RunBudget.check meter) := by
  refine Eff.Raises.bind (Eff.Raises.zoom hcancelled) fun _ ↦
    Eff.Raises.ite (fun _ ↦ Eff.Raises.raise rfl) fun _ ↦ ?_
  exact Eff.Raises.bind (Eff.Raises.zoom hclock) fun _ ↦ Eff.Raises.read.bind fun _ ↦
    Eff.Raises.ite (fun _ ↦ Eff.Raises.raise rfl) fun _ ↦ Eff.Raises.pure _

theorem polite_reserveTool : Polite (RunBudget.reserveTool meter) :=
  (polite_check hclock hcancelled).bind fun _ ↦ Eff.Raises.read.bind fun _ ↦
    Eff.Raises.ite (fun _ ↦ Eff.Raises.raise rfl) fun _ ↦ Eff.Raises.update _

theorem polite_remainingSeconds : Polite (RunBudget.remainingSeconds meter) :=
  (polite_check hclock hcancelled).bind fun _ ↦
    Eff.Raises.bind (Eff.Raises.zoom hclock) fun _ ↦ Eff.Raises.read.bind fun _ ↦ Eff.Raises.pure _

theorem polite_chargeOutput (output : Str) : Polite (RunBudget.chargeOutput meter output) := by
  refine (polite_check hclock hcancelled).bind fun _ ↦ ?_
  cases encode output with
  | none => exact Eff.Raises.raise rfl
  | some bytes =>
    exact (Eff.Raises.update _).bind fun _ ↦ Eff.Raises.read.bind fun _ ↦
      Eff.Raises.ite (fun _ ↦ Eff.Raises.raise rfl) fun _ ↦ Eff.Raises.pure _

end

/-! ## Values and schemas

What copying and validating a value raises is an `Exception` too. -/

/-- The result, or an `Exception`, and so no interrupt. -/
def Regular {α : Type} (x : Except Exc α) : Prop := ∀ e, x = .error e → e.isException = true

theorem regular_ok {α : Type} (a : α) : Regular (.ok a : Except Exc α) := fun _ h ↦ by cases h

theorem regular_error {α : Type} {e : Exc} (h : e.isException = true) :
    Regular (.error e : Except Exc α) := fun _ heq ↦ Except.error.inj heq ▸ h

theorem Regular.bind {α β : Type} {x : Except Exc α} {f : α → Except Exc β} (hx : Regular x)
    (hf : ∀ a, Regular (f a)) : Regular (x >>= f) := fun e h ↦ by
  rcases Except.bind_eq_error.mp h with h | ⟨a, -, h⟩
  · exact hx e h
  · exact hf a e h

theorem Regular.map {α β : Type} {x : Except Exc α} (hx : Regular x) (f : α → β) :
    Regular (x.map f) := by
  cases x with
  | ok a => exact regular_ok _
  | error e => exact regular_error (hx e rfl)

theorem Regular.mapM {α β : Type} {f : α → Except Exc β} (hf : ∀ a, Regular (f a)) :
    ∀ xs : List α, Regular (xs.mapM f)
  | [] => regular_ok _
  | x :: xs => by
    rw [List.mapM_cons]
    exact (hf x).bind fun _ ↦ (Regular.mapM hf xs).bind fun _ ↦ regular_ok _

namespace PyVal

theorem regular_jsonKey (k : PyVal) : Regular (jsonKey k) := by
  unfold jsonKey
  split
  case h_4 => split <;> first | exact regular_ok _ | exact regular_error rfl
  all_goals first | exact regular_ok _ | exact regular_error rfl

mutual
theorem regular_toJson : ∀ (n : ℕ) (v : PyVal), Regular (toJson n v)
  | n, v => by
    unfold toJson
    split
    case h_3 => split <;> first | exact regular_ok _ | exact regular_error rfl
    case h_10 n items => exact (regular_toJsonItems n items).bind fun _ ↦ regular_ok _
    case h_11 n items => exact (regular_toJsonItems n items).bind fun _ ↦ regular_ok _
    case h_12 n entries => exact (regular_toJsonEntries n entries).bind fun _ ↦ regular_ok _
    all_goals first | exact regular_ok _ | exact regular_error rfl

theorem regular_toJsonItems : ∀ (n : ℕ) (items : List PyVal), Regular (toJsonItems n items)
  | _, [] => regular_ok _
  | n, v :: rest => by
    rw [toJsonItems]
    exact (regular_toJson n v).bind fun _ ↦ (regular_toJsonItems n rest).bind fun _ ↦ regular_ok _

theorem regular_toJsonEntries : ∀ (n : ℕ) (entries : List (PyVal × PyVal)),
    Regular (toJsonEntries n entries)
  | _, [] => regular_ok _
  | n, (k, v) :: rest => by
    rw [toJsonEntries]
    exact (regular_jsonKey k).bind fun _ ↦ (regular_toJson n v).bind fun _ ↦
      (regular_toJsonEntries n rest).bind fun _ ↦ regular_ok _
end

variable (equal : PyVal → PyVal → Bool)

theorem regular_anyUnknown (v : PyVal) (names : List Json) : Regular (anyUnknown v names) := by
  induction names with
  | nil => exact regular_ok _
  | cons name rest ih =>
    cases name with
    | str s =>
      rw [anyUnknown]
      split
      · exact regular_ok _
      · exact ih
    | arr items => exact regular_error rfl
    | obj fields => exact regular_error rfl
    | _ => exact regular_ok _

theorem regular_checkType (v : PyVal) (schema : Fields) : Regular (checkType v schema) := by
  unfold checkType
  dsimp only
  split
  · rename_i e h
    refine regular_error ?_
    split at h <;> cases h
    rfl
  · exact regular_ok _
  · refine (regular_anyUnknown v _).bind fun unknown ↦ ?_
    split_ifs <;> first | exact regular_ok _ | exact regular_error rfl

theorem regular_checkEnum (v : PyVal) (schema : Fields) : Regular (checkEnum equal v schema) := by
  unfold checkEnum
  split
  · exact regular_ok _
  · split_ifs <;> first | exact regular_ok _ | exact regular_error rfl
  · split_ifs <;> first | exact regular_ok _ | exact regular_error rfl
  · split
    · split_ifs <;> first | exact regular_ok _ | exact regular_error rfl
    · exact regular_error rfl
  · exact regular_error rfl

theorem regular_checkKeys (entries : List (PyVal × PyVal)) (schema : Fields) :
    Regular (checkKeys equal entries schema) := by
  have hkey : ∀ name, Regular (hasKey equal entries name) := fun name ↦ by
    unfold hasKey
    split <;> first | exact regular_ok _ | exact regular_error rfl
  unfold checkKeys
  dsimp only
  split <;> first | exact regular_error rfl | skip
  all_goals split <;> first | exact regular_error rfl | skip
  all_goals
    refine (regular_ok _).bind fun properties ↦ (regular_ok _).bind fun required ↦
      (Regular.mapM hkey required).bind fun present ↦ ?_
    split
    · exact regular_error rfl
    · split
      · split_ifs <;> first | exact regular_ok _ | exact regular_error rfl
      · exact regular_ok _

mutual
theorem regular_validateSchema : ∀ (v : PyVal) (schema : Fields),
    Regular (validateSchema equal v schema)
  | .dict entries, schema => by
    rw [validateSchema]
    exact (regular_checkType _ schema).bind fun _ ↦ (regular_checkEnum equal _ schema).bind fun _ ↦
      (regular_checkKeys equal entries schema).bind fun properties ↦
        regular_validateEntries entries properties
  | .list items, schema => by
    rw [validateSchema]
    refine (regular_checkType _ schema).bind fun _ ↦
      (regular_checkEnum equal _ schema).bind fun _ ↦ ?_
    split
    · exact regular_validateItems items _
    · exact regular_ok _
  | .none, schema | .bool _, schema | .int _, schema | .float _, schema | .str _, schema
  | .tuple _, schema | .other _ _, schema => by
    rw [validateSchema]
    · exact (regular_checkType _ schema).bind fun _ ↦ regular_checkEnum equal _ schema
    all_goals nofun

theorem regular_validateEntries : ∀ (entries : List (PyVal × PyVal)) (properties : Fields),
    Regular (validateEntries equal entries properties)
  | [], _ => regular_ok _
  | (k, v) :: rest, properties => by
    have hrest := regular_validateEntries rest properties
    cases k with
    | str key =>
      rw [validateEntries]
      dsimp only
      split
      · exact (regular_validateSchema v _).bind fun _ ↦ hrest
      · exact hrest
    | _ =>
      rw [validateEntries]
      · exact hrest
      · nofun

theorem regular_validateItems : ∀ (items : List PyVal) (child : Fields),
    Regular (validateItems equal items child)
  | [], _ => regular_ok _
  | v :: rest, child => by
    rw [validateItems]
    exact (regular_validateSchema v child).bind fun _ ↦ regular_validateItems rest child
end

end PyVal

/-! ## The authority

So is what an authority raises over clocks and a log that raise nothing else. -/

theorem Event.regular_postInit (e : Event) : Regular e.postInit := by
  unfold postInit
  split_ifs <;> first | exact regular_ok _ | exact regular_error rfl

section
variable {W : Type} {office : Office W τ} (hoffice : CivilOffice office)
include hoffice

theorem CivilOffice.record (decision id : Str) (item : Pending τ) (extra : Fields) :
    Polite (Authority.record office decision id item extra) := by
  refine Eff.Raises.read.bind fun d ↦ ?_
  cases d.log with
  | none => exact Eff.Raises.pure _
  | some log =>
    refine Eff.Raises.ite (fun _ ↦ Eff.Raises.raise rfl) fun _ ↦ Eff.Raises.zoom ?_
    exact Eff.Raises.read.bind fun _ ↦ (Eff.Raises.ofExcept (Event.regular_postInit _)).bind fun _ ↦
      (Eff.Raises.update _).bind fun _ ↦ Eff.Raises.zoom (hoffice.sink _)

theorem CivilOffice.reject {α : Type} (id : Str) (item : Pending τ) (reason : Str)
    (extra : Fields) : Polite (Authority.reject office id item reason extra : DeskM W τ α) :=
  (hoffice.record _ _ _ _).bind fun _ ↦ Eff.Raises.raise rfl

theorem CivilOffice.spend (id : Str) (item : Pending τ) (operation : Operation) :
    Polite (Authority.spend office id item operation) := by
  -- what `head_of` raises is raised again
  intro d
  rw [Authority.spend, Eff.wp_bind, Eff.wp_attempt, asks]
  refine (Eff.Raises.zoom (hoffice.headOf _) d).mono (fun head d' _ ↦ ?_) fun e d' he ↦ ?_
  · have hchecked : Polite (if head ≠ item.operation.head then
          Authority.reject office id item (str "head_moved") [(str "current_head", .str head)]
        else if operation.sha256 ≠ item.operation.sha256 then
          Authority.reject office id item (str "operation_mismatch")
            [(str "offered_sha256", .str operation.sha256)]
        else do
          assign id fun p ↦ { p with decision := .consumed }
          Authority.record office (str "consumed") id item
            [(str "granted_by", EventLog.textOrNull item.grantedBy)]
          return id) :=
      Eff.Raises.ite (fun _ ↦ hoffice.reject _ _ _ _) fun _ ↦
        Eff.Raises.ite (fun _ ↦ hoffice.reject _ _ _ _) fun _ ↦
          (Eff.Raises.update _).bind fun _ ↦ (hoffice.record _ _ _ _).bind fun _ ↦
            Eff.Raises.pure _
    exact hchecked d'
  · cases e with
    | approvalRejected reason => exact hoffice.reject _ _ _ _ d'
    | _ => exact he

theorem CivilOffice.consume (token : Str) (operation : Operation) (iteration : ℤ) :
    Polite (Authority.consume office token operation iteration) := by
  have hdigest : Polite (Authority.tokenDigest token : DeskM W τ Str) := by
    unfold Authority.tokenDigest
    split
    · exact Eff.Raises.pure _
    · exact Eff.Raises.raise rfl
  refine hdigest.bind fun digest ↦ Eff.Raises.read.bind fun d ↦ ?_
  cases Authority.found d.approvals digest with
  | none => exact hoffice.reject _ _ _ _
  | some p =>
    refine Eff.Raises.ite (fun _ ↦ hoffice.reject _ _ _ _) fun _ ↦ ?_
    split
    · refine Eff.Raises.bind ?_ fun expired ↦
        Eff.Raises.ite (fun _ ↦ hoffice.reject _ _ _ _) fun _ ↦ hoffice.spend _ _ _
      exact (Eff.Raises.zoom hoffice.clock).bind fun _ ↦
        Eff.Raises.ite (fun _ ↦ Eff.Raises.pure _) fun _ ↦
          (Eff.Raises.zoom hoffice.wallClock).bind fun _ ↦ Eff.Raises.pure _
    · exact hoffice.reject _ _ _ _

end

/-! ## A handler

And so is what the code of a handler raises, where the code that it is made of does. -/

theorem polite_new (v : PyVal) : Polite (gateway.new v : FloorM H τ Ref) :=
  Eff.Raises.read.bind fun _ ↦ (Eff.Raises.update _).bind fun _ ↦ Eff.Raises.pure _

theorem polite_content (r : Ref) : Polite (gateway.content r : FloorM H τ PyVal) :=
  Eff.Raises.read.bind fun _ ↦ Eff.Raises.pure _

theorem polite_note (n : Note) : Polite (takeNote n : FloorM H τ Unit) := Eff.Raises.update _

theorem polite_enter (tool : ToolDefinition H Ref τ) (copies : Bool) (arguments : Arguments Ref)
    (number : Option ℕ) : Polite (gateway.enter tool copies arguments number) := by
  have hhand : Polite (gateway.handOver copies arguments : FloorM H τ Ref) := by
    cases arguments with
    | shared r =>
      exact Eff.Raises.ite (fun _ ↦ Eff.Raises.read.bind fun _ ↦ (Eff.Raises.update _).bind fun _ ↦
        Eff.Raises.pure _) fun _ ↦ Eff.Raises.pure _
    | own v => exact polite_new v
  exact hhand.bind fun r ↦ (polite_content r).bind fun _ ↦ (polite_note _).bind fun _ ↦
    Eff.Raises.pure _

/-- What goes wrong in a child is an answer of it. -/
theorem polite_runChild (calls : Calls H Ref τ) (tool : ToolDefinition H Ref τ)
    (killed : Option ℕ) (arguments : Arguments Ref) (number : Option ℕ) :
    Polite (gateway.runChild calls tool killed arguments number) := by
  refine Eff.Raises.read.bind fun parent ↦ (polite_enter _ _ _ _).bind fun r ↦
    (Eff.Raises.update _).bind fun _ ↦ (Eff.Raises.attempt _).bind fun outcome ↦
      Eff.Raises.read.bind fun child ↦ (Eff.Raises.update _).bind fun _ ↦ ?_
  cases outcome with
  | ok r => exact Eff.Raises.pure _
  | error e => exact Eff.Raises.pure _

theorem polite_onHost {α : Type} {m : Eff Exc H α} (h : Polite m) :
    Polite (onHost m : FloorM H τ α) := Eff.Raises.zoom h

theorem polite_onBudget {α : Type} {m : Eff Exc (H × RunBudget) α} (h : Polite m) :
    Polite (onBudget m : FloorM H τ α) := Eff.Raises.zoom h

section
variable (hcivil : Civil gateway) {calls : Calls H Ref τ} {tool : ToolDefinition H Ref τ}
include hcivil

theorem Civil.reserveTool : Polite (onBudget (RunBudget.reserveTool gateway.meter) :
    FloorM H τ Unit) :=
  polite_onBudget (polite_reserveTool hcivil.clock hcivil.cancelled)

theorem Civil.runIsolated {arguments : Arguments Ref} {number : Option ℕ} :
    Polite (gateway.runIsolated calls tool arguments number) := by
  refine Eff.Raises.ite (fun _ ↦ Eff.Raises.raise rfl) fun _ ↦
    (polite_onBudget (polite_remainingSeconds hcivil.clock hcivil.cancelled)).bind fun _ ↦ ?_
  intro s
  rw [Eff.wp_bind, onHost, Eff.wp_zoom]
  refine (hcivil.childEnd _).mono (fun ending h hend ↦ ?_) fun _ _ h ↦ h
  cases ending with
  | notStarted e => exact hend e (.inl rfl)
  | killed steps =>
    exact (polite_runChild _ _ _ _ _).bind (fun _ ↦ Eff.Raises.raise rfl) _
  | lost e =>
    exact (polite_runChild _ _ _ _ _).bind (fun _ ↦ Eff.Raises.raise (hend e (.inr rfl))) _
  | answered =>
    refine (polite_runChild _ _ _ _ _).bind (fun answer ↦ ?_) _
    cases answer with
    | ok answer => exact polite_new _
    | error e => exact Eff.Raises.raise rfl

theorem Civil.carryOut (htool : ∃ p ∈ gateway.tools, p.2 = tool) {arguments : Arguments Ref}
    {number : Option ℕ} : Polite (gateway.carryOut calls tool arguments number) := by
  obtain ⟨p, hp, rfl⟩ := htool
  have hexecute : Polite (gateway.execute calls p.2 arguments number) := by
    refine Eff.Raises.ite (fun _ ↦ hcivil.runIsolated) fun _ ↦
      (polite_onHost hcivil.monotonic).bind fun _ ↦ (polite_enter _ _ _ _).bind fun r ↦ ?_
    exact (hcivil.handler p hp r).polite.bind fun _ ↦ (polite_onHost hcivil.monotonic).bind fun _ ↦
      Eff.Raises.ite (fun _ ↦ Eff.Raises.raise rfl) fun _ ↦ Eff.Raises.pure _
  refine hexecute.bind fun result ↦
    (polite_onBudget (polite_check hcivil.clock hcivil.cancelled)).bind fun _ ↦
      (polite_content _).bind fun v ↦ ?_
  refine Eff.Raises.bind (Eff.Raises.ofExcept ((PyVal.regular_toJson _ v).map _))
    fun serialized ↦ ?_
  refine Eff.Raises.bind (Eff.Raises.ofExcept (PyVal.regular_validateSchema _ v _)) fun _ ↦ ?_
  exact (polite_onBudget (polite_chargeOutput hcivil.clock hcivil.cancelled _)).bind fun _ ↦
    Eff.Raises.pure _

theorem Civil.describeCall (htool : ∃ p ∈ gateway.tools, p.2 = tool) {name : Str}
    {describe : Ref → Prog H Ref τ Operation} (hdescribe : tool.describe = some describe)
    {snapshot : Json} {number : ℕ} :
    Polite (gateway.describeCall calls name describe snapshot number) := by
  obtain ⟨p, hp, rfl⟩ := htool
  exact (polite_new _).bind fun r ↦ (polite_content _).bind fun _ ↦
    (hcivil.describe p hp describe hdescribe r).polite.bind fun _ ↦ (polite_note _).bind fun _ ↦
      Eff.Raises.ite (fun _ ↦ Eff.Raises.raise rfl) fun _ ↦ Eff.Raises.pure _

theorem Civil.spendFor {office : Office H τ} (hoffice : gateway.approvals = some office)
    {token : Str} {operation : Operation} {iteration : ℤ} {number : ℕ} :
    Polite (Gateway.spendFor office token operation iteration number : FloorM H τ Unit) := by
  refine Eff.Raises.read.bind fun s ↦
    Eff.Raises.bind (Eff.Raises.zoom ((hcivil.office office hoffice).consume _ _ _)) fun id ↦ ?_
  split
  · exact polite_note _
  · exact Eff.Raises.pure _

end

end AtlasCore
