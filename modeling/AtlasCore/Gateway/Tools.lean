import AtlasCore.Approval.History
import AtlasCore.Controller.Budget
import AtlasCore.Gateway.Values
import AtlasCore.Lib.JsonChars

/-!
# Tools, and the code of the host

A handler and a `describe` are code of the host, which may do anything to its own objects and to
the world, and may call the gateway and the authority again; `Prog` is what of it the gateway sees.
An isolated handler runs in a forked process: on a copy of all that is in memory, of which nothing
comes back.

`Note` is no data of the source.  The notes say, over all processes, which call described, spent and
entered what, and they are what the properties of a run are stated with.
-/

set_option autoImplicit false

namespace AtlasCore

open Py

/-! ## Code of the host

What a handler does: steps on objects and on the gateway, each of which can be told from outside. -/

/-- Code of the host over objects `Ref` and a state `H` of its own, that returns a `β`.  What it
calls may raise, and the exception is its to catch. -/
inductive Prog (H Ref τ β : Type) where
  | ret (b : β)
  | raise (e : Exc)
  /-- Do something, and go on depending on what is there now. -/
  | host (step : H → H) (next : H → Prog H Ref τ β)
  /-- `gateway.invoke`. -/
  | invoke (name : Str) (arguments : Option Ref) (next : Except Exc Ref → Prog H Ref τ β)
  /-- `ToolContext.invoke`. -/
  | contextInvoke (name : Str) (arguments : Option Ref) (next : Except Exc Ref → Prog H Ref τ β)
  /-- `gateway.invoke_write`. -/
  | invokeWrite (name : Str) (arguments : Ref) (token : Str) (iteration : ℤ)
    (next : Except Exc Ref → Prog H Ref τ β)
  /-- `gateway.set_route`. -/
  | setRoute (route : Str) (next : Except Exc Unit → Prog H Ref τ β)
  /-- A call of the authority, where the host has one. -/
  | authority (call : AuthorityCall τ) (next : Except Exc Str → Prog H Ref τ β)

/-- The first steps of a program that is killed then. -/
def Prog.cut {H Ref τ β : Type} : ℕ → Prog H Ref τ β → Prog H Ref τ β
  | 0, _ => .raise .interrupt
  | _ + 1, .ret b => .ret b
  | _ + 1, .raise e => .raise e
  | n + 1, .host step next => .host step fun h ↦ cut n (next h)
  | n + 1, .invoke name arguments next => .invoke name arguments fun r ↦ cut n (next r)
  | n + 1, .contextInvoke name arguments next => .contextInvoke name arguments fun r ↦
    cut n (next r)
  | n + 1, .invokeWrite name arguments token iteration next =>
    .invokeWrite name arguments token iteration fun r ↦ cut n (next r)
  | n + 1, .setRoute route next => .setRoute route fun r ↦ cut n (next r)
  | n + 1, .authority call next => .authority call fun r ↦ cut n (next r)

/-! ## Tools

A tool is what its definition lets through: a name, a capability and limits that its constructor
has checked. -/

/-- `capability`: what a tool can do to the world. -/
inductive Capability where
  | read | write | network
  deriving DecidableEq

/-- The text of a capability, as a tool names it. -/
def Capability.text : Capability → Str
  | read => str "read"
  | write => str "write"
  | network => str "network"

/-- `sandbox`: where a handler runs. -/
inductive Sandbox where
  | inProcess | isolatedProcess
  deriving DecidableEq

/-- The text of a sandbox, as a tool names it. -/
def Sandbox.text : Sandbox → Str
  | inProcess => str "in_process"
  | isolatedProcess => str "isolated_process"

/-- `[a-z][a-z0-9_]*`: the names that a tool may have. -/
def isToolName : Str → Bool
  | [] => false
  | c :: rest =>
    (97 ≤ c.val && c.val ≤ 122) && rest.all fun c ↦
      (97 ≤ c.val && c.val ≤ 122) || (48 ≤ c.val && c.val ≤ 57) || c == ch '_'

/-- `ToolDefinition`, with what `__post_init__` checks: a tool that breaks a rule is not made. -/
structure ToolDefinition (H Ref τ : Type) where
  name : Str
  capability : Capability
  handler : Ref → Prog H Ref τ Ref
  allowedRoutes : List Str
  inputSchema : Fields
  outputSchema : Fields
  timeoutSeconds : ℚ
  sandbox : Sandbox
  idempotent : Option Bool
  maxAttempts : ℕ
  /-- `isinstance(exc, retry_on)`. -/
  retryOn : Exc → Bool
  describe : Option (Ref → Prog H Ref τ Operation)
  named : isToolName name = true
  routed : allowedRoutes ≠ [] ∧ [] ∉ allowedRoutes
  timed : 0 < timeoutSeconds
  tried : 1 ≤ maxAttempts
  retried : 1 < maxAttempts → idempotent = some true
  once : capability = .write → maxAttempts = 1

/-- `is_idempotent`: a tool says so itself, and one that says nothing is if it only reads. -/
def ToolDefinition.isIdempotent {H Ref τ : Type} (tool : ToolDefinition H Ref τ) : Bool :=
  tool.idempotent = some true || (tool.idempotent = none && tool.capability = .read)

/-! ## The gateway

The gateway, the machine it is on, and the state it works on. -/

/-- How a forked process ends, as its parent sees it. -/
inductive ChildEnd where
  /-- `process.start()` raised. -/
  | notStarted (e : Exc)
  | answered
  /-- It was killed for its time, after so many steps. -/
  | killed (steps : ℕ)
  /-- It ended, and reading its answer raised. -/
  | lost (e : Exc)

/-- The arguments of a handler, before it has them: an object that others have too, or a copy that
nobody else has and that nothing can change. -/
inductive Arguments (Ref : Type) where
  | shared (r : Ref)
  | own (v : PyVal)

/-- `ToolGateway`, and the machine it is on: the tools, the authority it asks, and how objects
behave. -/
structure Gateway (H Ref τ : Type) where
  tools : List (Str × ToolDefinition H Ref τ)
  /-- `tool registry key/name mismatch`. -/
  registered : ∀ p ∈ tools, p.1 = p.2.name
  approvals : Option (Office H τ)
  meter : Meter H
  mask : Masking
  sink : Sink H
  /-- The authority and the gateway write to one log. -/
  sharesLog : Bool
  /-- `type(exc).__name__`. -/
  typeName : Exc → Str
  /-- `"JSON" in str(exc)`. -/
  mentionsJson : Exc → Bool
  /-- `time.monotonic`. -/
  monotonic : Eff Exc H ℚ
  /-- `os.name == "posix"`. -/
  posix : Bool
  /-- How many containers `json.dumps` opens inside each other. -/
  nesting : ℕ
  /-- `==`. -/
  equal : PyVal → PyVal → Bool
  /-- What an object contains. -/
  view : Ref → H → PyVal
  /-- A new object. -/
  alloc : PyVal → H → Ref × H
  view_alloc : ∀ v h, view (alloc v h).1 (alloc v h).2 = v
  /-- `dict(arguments)`: a new dict with the same values. -/
  dictCopy : Ref → H → Ref × H
  /-- `digest` of an object of the host. -/
  digest : Ref → Eff Exc H Str
  childEnd : Eff Exc H ChildEnd
  /-- The state of the host when a child has ended: the memory of the parent, and the world as the
  child left it. -/
  rejoin : H → H → H

/-- What happened, over all processes; a number is that of a call of `invoke_write`. -/
inductive Note where
  /-- A call of `invoke_write`, and whether it was made in a forked process. -/
  | called (number : ℕ) (inChild : Bool)
  /-- `describe` returned an operation for arguments with this content. -/
  | described (number : ℕ) (value : PyVal) (operation : Operation)
  /-- `consume` returned; `sha256` is the digest of the operation the approval is for. -/
  | consumed (number : ℕ) (approvalId sha256 : Str)
  /-- The handler of a tool was entered with arguments of this content, by `invoke_write` where
  there is a number and else by `invoke`. -/
  | entered (tool : Str) (capability : Capability) (value : PyVal) (number : Option ℕ)
  /-- An approval became granted. -/
  | granted (approvalId : Str)

/-- What the gateway works on.  All but the notes and the number of calls is memory of a process. -/
structure Floor (H τ : Type) where
  desk : Desk H τ
  /-- The log of the gateway, where it does not share that of the authority. -/
  ownLog : Option EventLog
  budget : RunBudget
  route : Option Str
  inChild : Bool
  notes : List Note
  calls : ℕ

/-- A computation of the gateway: what it does stays done where it raises. -/
abbrev FloorM (H τ : Type) := Eff Exc (Floor H τ)

variable {H Ref τ : Type} (gateway : Gateway H Ref τ)

/-- `self._log`: the gateway writes to the log of the authority, or to one of its own. -/
def Gateway.log (s : Floor H τ) : Option EventLog :=
  if gateway.sharesLog then s.desk.log else s.ownLog

/-- The state with this log, in whichever of the two places it is. -/
def Gateway.setLog (log : EventLog) (s : Floor H τ) : Floor H τ :=
  if gateway.sharesLog then { s with desk := { s.desk with log := some log } }
  else { s with ownLog := some log }

/-- A computation of the host, as a step of the gateway: neither approvals nor logs are in its
reach. -/
def onHost {α : Type} (m : Eff Exc H α) : FloorM H τ α :=
  m.zoom (·.desk.world) fun h s ↦ { s with desk := { s.desk with world := h } }

/-- A computation of the authority, as a step of the gateway. -/
def onDesk {α : Type} (m : DeskM H τ α) : FloorM H τ α :=
  m.zoom (·.desk) fun d s ↦ { s with desk := d }

/-- A computation with the budget, whose clock is the host's. -/
def onBudget {α : Type} (m : Eff Exc (H × RunBudget) α) : FloorM H τ α :=
  m.zoom (fun s ↦ (s.desk.world, s.budget)) fun p s ↦
    { s with desk := { s.desk with world := p.1 }, budget := p.2 }

/-- A computation with the log, which is put back where it was taken from. -/
def Gateway.onLog {α : Type} (log : EventLog) (m : Eff Exc (H × EventLog) α) : FloorM H τ α :=
  m.zoom (fun s ↦ (s.desk.world, log)) fun p s ↦
    gateway.setLog p.2 { s with desk := { s.desk with world := p.1 } }

/-- Note something.  No step reads the notes; they tell a theorem what happened, and in which order.
-/
def takeNote (n : Note) : FloorM H τ Unit := Eff.update fun s ↦ { s with notes := s.notes ++ [n] }

/-- A new object with this content, which nobody else has. -/
def Gateway.new (v : PyVal) : FloorM H τ Ref := do
  let h := (← Eff.read).desk.world
  Eff.update fun s ↦ { s with desk := { s.desk with world := (gateway.alloc v h).2 } }
  return (gateway.alloc v h).1

/-- What an object contains now; whoever has it may change that later. -/
def Gateway.content (r : Ref) : FloorM H τ PyVal := do
  return gateway.view r (← Eff.read).desk.world

/-- `self._tools.get(name)`: the tool of this name, if there is one. -/
def Gateway.tool (name : Str) : Option (ToolDefinition H Ref τ) :=
  (gateway.tools.find? fun p ↦ p.1 = name).map (·.2)

end AtlasCore
