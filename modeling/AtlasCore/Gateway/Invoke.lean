import AtlasCore.Gateway.Tools

/-!
# `invoke` and `invoke_write`

The two ways through the gateway.  A handler may call the gateway again, so both are defined over
`Calls`, which stands for the gateway one frame down, and `Gateway.callsAt` ties the knot: no frame
is left at the recursion limit.

What a call does is written out in the order of the source, with the notes that the theorems read:
which call consumed which approval, and with what content a handler was entered.  The notes are
never looked at by a definition.
-/

set_option autoImplicit false

namespace AtlasCore

open Py

variable {H Ref τ : Type} (gateway : Gateway H Ref τ)

/-- The gateway, as the code of the host can call it. -/
structure Calls (H Ref τ : Type) where
  invoke : Str → Option Ref → FloorM H τ Ref
  invokeWrite : Str → Ref → Str → ℤ → FloorM H τ Ref

/-! ## Running the code of the host

A program of the host runs over the gateway one frame down.  Exceptions of what it calls are its
own to catch. -/

/-- `gateway.set_route`: the route decides which tools may be called until it is set again. -/
def setRoute (route : Str) : FloorM H τ Unit :=
  if route = [] then Eff.raise .valueError
  else Eff.update fun s ↦ { s with route := some route }

/-- A grant is noted where an approval became granted. -/
def noteGrant (before : Desk H τ) : AuthorityCall τ → FloorM H τ Unit
  | .grant id _ _ => do
    if decisionOf before id = some .requested ∧
        decisionOf (← Eff.read).desk id = some .granted then takeNote (.granted id)
    else pure ()
  | _ => pure ()

/-- A call of the authority by the host. -/
def Gateway.authorityCall (call : AuthorityCall τ) : FloorM H τ Str :=
  match gateway.approvals with
  | none => Eff.raise .typeError
  | some office => do
    let s ← Eff.read
    let outcome ← Eff.attempt (onDesk (call.perform office))
    noteGrant s.desk call
    Eff.ofExcept outcome

/-- Run a program; `nestedAllowed` is that of its `ToolContext`. -/
def Prog.run {β : Type} (calls : Calls H Ref τ) (nestedAllowed : Bool) :
    Prog H Ref τ β → FloorM H τ β
  | .ret b => return b
  | .raise e => Eff.raise e
  | .host step next => do
    Eff.update fun s ↦ { s with desk := { s.desk with world := step s.desk.world } }
    run calls nestedAllowed (next (← Eff.read).desk.world)
  | .invoke name arguments next => do
    run calls nestedAllowed (next (← Eff.attempt (calls.invoke name arguments)))
  | .contextInvoke name arguments next => do
    if nestedAllowed then
      run calls nestedAllowed (next (← Eff.attempt (calls.invoke name arguments)))
    else run calls nestedAllowed (next (.error .toolDenied))
  | .invokeWrite name arguments token iteration next => do
    run calls nestedAllowed
      (next (← Eff.attempt (calls.invokeWrite name arguments token iteration)))
  | .setRoute route next => do
    run calls nestedAllowed (next (← Eff.attempt (AtlasCore.setRoute route)))
  | .authority call next => do
    run calls nestedAllowed (next (← Eff.attempt (gateway.authorityCall call)))

namespace Gateway

/-! ## The log of a call

A call is started when it begins and finished when it ends, also where it is denied. -/

/-- `_start_call`: what the call is about is logged before anything is done; without a log there is
nothing to finish later. -/
def startCall (tool : Option (ToolDefinition H Ref τ)) (name : Str)
    (callInput : Eff Exc H (Option Str)) (attempt : ℕ) : FloorM H τ (Option Str) := do
  let s ← Eff.read
  match gateway.log s with
  | none => return none
  | some log =>
    let callId ← gateway.onLog log
      (EventLog.startCall gateway.mask gateway.sink .toolCall 0 (some name) callInput
        [(str "idempotent", .bool (tool.any (·.isIdempotent))),
          (str "capability", EventLog.textOrNull (tool.map (·.capability.text))),
          (str "route", EventLog.textOrNull s.route),
          (str "sandbox", EventLog.textOrNull (tool.map (·.sandbox.text))),
          (str "attempt", .int attempt)])
    return some callId

/-- `_finish`: the outcome of the call that was started, and the name of the error where it has one.
-/
def finish (call : Option Str) (outcome : CallOutcome) (error : Option Str) : FloorM H τ Unit := do
  match gateway.log (← Eff.read), call with
  | some log, some callId =>
    gateway.onLog log (EventLog.finishCall gateway.mask gateway.sink callId outcome 0 error)
  | _, _ => return ()

/-- A denial: the call is finished, and then the exception is raised. -/
def deny {α : Type} (call : Option Str) (reason : Str) (e : Exc) : FloorM H τ α := do
  gateway.finish call .denied (some reason)
  Eff.raise e

/-- `"*" in tool.allowed_routes or self._route in tool.allowed_routes`: a tool is for every route,
or for those it names. -/
def allowsRoute (tool : ToolDefinition H Ref τ) (route : Option Str) : Bool :=
  str "*" ∈ tool.allowedRoutes || route.any fun r ↦ r ∈ tool.allowedRoutes

/-! ## Running a handler

A handler runs in this process on a dict of its own, or in a forked one on a copy of everything. -/

variable (calls : Calls H Ref τ)

/-- `dict(arguments)`: a new mapping with the same values in it, which the caller still shares. -/
def copyDict (r : Ref) : FloorM H τ Ref := do
  let h := (← Eff.read).desk.world
  Eff.update fun s ↦ { s with desk := { s.desk with world := (gateway.dictCopy r h).2 } }
  return (gateway.dictCopy r h).1

/-- The object a handler gets; a handler in this process gets a dict of its own. -/
def handOver (copies : Bool) : Arguments Ref → FloorM H τ Ref
  | .shared r => if copies then gateway.copyDict r else return r
  | .own v => gateway.new v

/-- The handler is entered, with these arguments.  The note says of which tool it is, and what the
arguments contain at that moment. -/
def enter (tool : ToolDefinition H Ref τ) (copies : Bool) (arguments : Arguments Ref)
    (number : Option ℕ) : FloorM H τ Ref := do
  let r ← gateway.handOver copies arguments
  let value ← gateway.content r
  takeNote (.entered tool.name tool.capability value number)
  return r

/-- What a child sends for what its handler returned: JSON in UTF-8, or the exception. -/
def encodeAnswer (v : PyVal) : Except Exc Json :=
  match PyVal.toJson (gateway.nesting - 1) v with
  | .ok j => if Json.surrogateFree j then .ok (PyVal.readBack j) else .error .unicodeEncodeError
  | .error e => .error e

/-- `_isolated_worker` in a forked process, which is killed after some steps or runs to its end.
All it changed in memory is gone when it has ended. -/
def runChild (tool : ToolDefinition H Ref τ) (killed : Option ℕ) (arguments : Arguments Ref)
    (number : Option ℕ) : FloorM H τ (Except Exc Json) := do
  let parent ← Eff.read
  let r ← gateway.enter tool false arguments number
  Eff.update fun s ↦ { s with inChild := true }
  let program := match killed with
    | some steps => (tool.handler r).cut steps
    | none => tool.handler r
  let outcome ← Eff.attempt (program.run gateway calls false)
  let child ← Eff.read
  Eff.update fun s ↦
    { parent with
      desk := { parent.desk with world := gateway.rejoin parent.desk.world s.desk.world }
      notes := s.notes
      calls := s.calls }
  match outcome with
  | .ok r => return gateway.encodeAnswer (gateway.view r child.desk.world)
  | .error e => return .error e

/-- `_run_isolated`: the handler runs in a process of its own, and nothing it does there comes back
but its result. -/
def runIsolated (tool : ToolDefinition H Ref τ) (arguments : Arguments Ref) (number : Option ℕ) :
    FloorM H τ Ref := do
  if gateway.posix = false then Eff.raise .toolDenied
  else
    let _ ← onBudget (RunBudget.remainingSeconds gateway.meter)
    match ← onHost gateway.childEnd with
    | .notStarted e => Eff.raise e
    | .killed steps =>
      let _ ← gateway.runChild calls tool (some steps) arguments number
      Eff.raise .toolTimeout
    | .lost e =>
      let _ ← gateway.runChild calls tool none arguments number
      Eff.raise e
    | .answered =>
      match ← gateway.runChild calls tool none arguments number with
      | .ok answer => gateway.new (.ofJson answer)
      | .error e => Eff.raise (.remoteToolError (tool.retryOn e))

/-- `_execute`: in a process of its own where the tool asks for one, else here, where the time it
took is looked at afterwards. -/
def execute (tool : ToolDefinition H Ref τ) (arguments : Arguments Ref) (number : Option ℕ) :
    FloorM H τ Ref := do
  if tool.sandbox = .isolatedProcess then gateway.runIsolated calls tool arguments number
  else
    let started ← onHost gateway.monotonic
    let r ← gateway.enter tool true arguments number
    let result ← (tool.handler r).run gateway calls true
    let finished ← onHost gateway.monotonic
    if finished - started > tool.timeoutSeconds then Eff.raise .toolTimeout else return result

/-- What is tried for a result: the handler, and the checks of what it returns. -/
def carryOut (tool : ToolDefinition H Ref τ) (arguments : Arguments Ref) (number : Option ℕ) :
    FloorM H τ Ref := do
  let result ← gateway.execute calls tool arguments number
  onBudget (RunBudget.check gateway.meter)
  let v ← gateway.content result
  let serialized ← Eff.ofExcept (v.dumps gateway.nesting)
  Eff.ofExcept (v.validateSchema gateway.equal tool.outputSchema)
  onBudget (RunBudget.chargeOutput gateway.meter serialized)
  return result

/-! ## `invoke`

A call of a tool that reads, with as many attempts as the tool allows. -/

/-- What an attempt that failed for good raises. -/
def failure (e : Exc) : Exc :=
  match e with
  | .toolSchemaError => .toolSchemaError
  | .valueError | .unicodeEncodeError | .unicodeDecodeError | .proposalRefused | .typeError =>
    if gateway.mentionsJson e then .typeError else e
  | e => e

/-- The attempts of a call: this many are left, and this is the number of the next. -/
def invokeAttempts (tool : ToolDefinition H Ref τ) (name : Str) (arguments : Ref) :
    ℕ → ℕ → Option Str → FloorM H τ Ref
  | 0, _, _ => Eff.raise .assertionError
  | left + 1, attempt, first => do
    let call ← if attempt > 1 then
        gateway.startCall (some tool) name (some <$> gateway.digest arguments) attempt
      else pure first
    match ← Eff.attempt (onBudget (RunBudget.reserveTool gateway.meter)) with
    | .error e =>
      if e.isException then gateway.deny call (gateway.typeName e) e else Eff.raise e
    | .ok _ =>
      match ← Eff.attempt (gateway.carryOut calls tool (.shared arguments) none) with
      | .ok result =>
        gateway.finish call .ok none
        return result
      | .error e =>
        if e.isException = false then Eff.raise e
        else
          gateway.finish call .failed (some (gateway.typeName e))
          if 0 < left ∧ (tool.retryOn e ∨ e = .remoteToolError true) then
            invokeAttempts tool name arguments left (attempt + 1) call
          else Eff.raise (gateway.failure e)

/-- One attempt, and those that follow it: each is counted in the budget and in the log. -/
def attemptOnce (tool : ToolDefinition H Ref τ) (name : Str) (arguments : Ref) (left attempt : ℕ)
    (call : Option Str) : FloorM H τ Ref := do
  match ← Eff.attempt (onBudget (RunBudget.reserveTool gateway.meter)) with
  | .error e =>
    if e.isException then gateway.deny call (gateway.typeName e) e else Eff.raise e
  | .ok _ =>
    match ← Eff.attempt (gateway.carryOut calls tool (.shared arguments) none) with
    | .ok result =>
      gateway.finish call .ok none
      return result
    | .error e =>
      if e.isException = false then Eff.raise e
      else
        gateway.finish call .failed (some (gateway.typeName e))
        if 0 < left ∧ (tool.retryOn e ∨ e = .remoteToolError true) then
          gateway.invokeAttempts calls tool name arguments left (attempt + 1) call
        else Eff.raise (gateway.failure e)

theorem invokeAttempts_succ (tool : ToolDefinition H Ref τ) (name : Str) (arguments : Ref)
    (left attempt : ℕ) (first : Option Str) :
    gateway.invokeAttempts calls tool name arguments (left + 1) attempt first = (do
      let call ← if attempt > 1 then
          gateway.startCall (some tool) name (some <$> gateway.digest arguments) attempt
        else pure first
      gateway.attemptOnce calls tool name arguments left attempt call) := rfl

/-- `invoke`: the tool has to be there, for reading, for this route, and has to be given what its
schema asks for. -/
def invoke (name : Str) (arguments : Option Ref) : FloorM H τ Ref := do
  onBudget (RunBudget.check gateway.meter)
  let tool := gateway.tool name
  let callInput : Eff Exc H (Option Str) :=
    match arguments with
    | some r => some <$> gateway.digest r
    | none => return none
  let call ← gateway.startCall tool name callInput 1
  match tool with
  | none => gateway.deny call (str "tool not registered") .toolDenied
  | some tool =>
    if tool.capability ≠ .read then
      gateway.deny call (str "capability not allowed in read-only run") .toolDenied
    else if allowsRoute tool (← Eff.read).route = false then
      gateway.deny call (str "tool not allowed for route") .toolDenied
    else
      let given ← match arguments with
        | some r => pure r
        | none => gateway.new (.dict [])
      let v ← gateway.content given
      if v.isStringKeyed = false then gateway.deny call (str "TypeError") .typeError
      else
        match v.validateSchema gateway.equal tool.inputSchema with
        | .error .toolSchemaError => gateway.deny call (str "ToolSchemaError") .toolSchemaError
        | .error e => Eff.raise e
        | .ok _ => gateway.invokeAttempts calls tool name given tool.maxAttempts 1 call

/-! ## `invoke_write`

A call of a tool that writes.  What is described, approved, spent and handed over is one copy of
the arguments, taken before any of it. -/

/-- `json.loads(json.dumps(arguments, allow_nan=False))`, or `None` where it is no JSON. -/
def takeSnapshot (given : PyVal) : Except Exc (Option Json) :=
  if given.isStringKeyed then
    match given.jsonCopy gateway.nesting with
    | .ok j => .ok (some j)
    | .error e => if e = .typeError ∨ e = .valueError then .ok none else .error e
  else .ok none

/-- `digest` of a JSON value, which is what an approval is compared by. -/
def jsonDigest (j : Json) : Eff Exc H Str :=
  match (Json.dumps j).bind sha256Text with
  | some d => return d
  | none => Eff.raise .unicodeEncodeError

/-- The checks before anything of the host is asked, in their order; what they let through is the
tool, its `describe`, the authority and the copy of the arguments. -/
def admitCall (name : Str) (wellFormed : Bool) (snapshot : Option Json) (route : Option Str) :
    Except (Str × Exc) (ToolDefinition H Ref τ × (Ref → Prog H Ref τ Operation) × Office H τ ×
      Json) :=
  match gateway.tool name with
  | none => .error (str "tool not registered", .toolDenied)
  | some tool =>
    match tool.capability, tool.describe with
    | .write, some describe =>
      match gateway.approvals with
      | none => .error (str "no approval authority", .toolDenied)
      | some office =>
        if allowsRoute tool route = false then
          .error (str "tool not allowed for route", .toolDenied)
        else if wellFormed = false then .error (str "TypeError", .typeError)
        else
          match snapshot with
          | none => .error (str "TypeError", .typeError)
          | some j => .ok (tool, describe, office, j)
    | _, _ => .error (str "not a described write tool", .toolDenied)

/-- `describe`, on a copy of its own, so that nothing it does to the arguments reaches the handler.
-/
def describeCall (name : Str) (describe : Ref → Prog H Ref τ Operation) (snapshot : Json)
    (number : ℕ) : FloorM H τ Operation := do
  let arguments ← gateway.new (.ofJson snapshot)
  let value ← gateway.content arguments
  let operation ← (describe arguments).run gateway calls true
  takeNote (.described number value operation)
  if operation.tool ≠ name then Eff.raise .valueError else return operation

/-- `consume`, with a note of what was spent. -/
def spendFor (office : Office H τ) (token : Str) (operation : Operation) (iteration : ℤ)
    (number : ℕ) : FloorM H τ Unit := do
  let approvals := (← Eff.read).desk.approvals
  let id ← onDesk (Authority.consume office token operation iteration)
  match approvals.get id with
  | some item => takeNote (.consumed number id item.operation.sha256)
  | none => pure ()

/-- What of `invoke_write` comes after the call was logged and the first checks were passed. -/
def writeAdmitted (tool : ToolDefinition H Ref τ) (describe : Ref → Prog H Ref τ Operation)
    (office : Office H τ) (name : Str) (snapshot : Json) (token : Str) (iteration : ℤ)
    (number : ℕ) (call : Option Str) : FloorM H τ Ref := do
  match PyVal.validateSchema gateway.equal (.ofJson snapshot) tool.inputSchema with
  | .error .toolSchemaError => gateway.deny call (str "ToolSchemaError") .toolSchemaError
  | .error e => Eff.raise e
  | .ok _ =>
    let approved ← Eff.attempt do
      let operation ← gateway.describeCall calls name describe snapshot number
      spendFor office token operation iteration number
    match approved with
    | .error e =>
      if e.isException then gateway.deny call (gateway.typeName e) e else Eff.raise e
    | .ok _ =>
      match ← Eff.attempt (onBudget (RunBudget.reserveTool gateway.meter)) with
      | .error e =>
        if e.isException then gateway.deny call (gateway.typeName e) e else Eff.raise e
      | .ok _ =>
        let written ← Eff.attempt
          (gateway.carryOut calls tool (.own (.ofJson snapshot)) (some number))
        match written with
        | .ok result =>
          gateway.finish call .ok none
          return result
        | .error e =>
          if e.isException then
            gateway.finish call .failed (some (gateway.typeName e))
            Eff.raise e
          else Eff.raise e

/-- A call of `invoke_write` begins: it gets the next number. -/
def begin : FloorM H τ ℕ := do
  let s ← Eff.read
  Eff.update fun s ↦ { s with calls := s.calls + 1 }
  takeNote (.called s.calls s.inChild)
  return s.calls

/-- The digest that is logged: of the copy, or of the arguments where there is none. -/
def writeInput (arguments : Ref) (given : PyVal) : Option Json → Eff Exc H (Option Str)
  | some j => some <$> jsonDigest j
  | none =>
    match given with
    | .none => return none
    | _ => some <$> gateway.digest arguments

/-- What of `invoke_write` comes after the call was logged. -/
def writeStarted (name : Str) (wellFormed : Bool) (snapshot : Option Json) (token : Str)
    (iteration : ℤ) (number : ℕ) (call : Option Str) : FloorM H τ Ref := do
  match gateway.admitCall name wellFormed snapshot (← Eff.read).route with
  | .error (reason, e) => gateway.deny call reason e
  | .ok (tool, describe, office, j) =>
    gateway.writeAdmitted calls tool describe office name j token iteration number call

/-- `invoke_write`: a copy is taken of the arguments, and what is described, approved and run is
that copy. -/
def invokeWrite (name : Str) (arguments : Ref) (token : Str) (iteration : ℤ) : FloorM H τ Ref := do
  let number ← begin
  onBudget (RunBudget.check gateway.meter)
  let given ← gateway.content arguments
  let snapshot ← Eff.ofExcept (gateway.takeSnapshot given)
  let call ← gateway.startCall (gateway.tool name) name
    (gateway.writeInput arguments given snapshot) 1
  gateway.writeStarted calls name given.isStringKeyed snapshot token iteration number call

/-- The gateway, with this many frames left: Python has a limit on them too, and raises at its end.
-/
def callsAt : ℕ → Calls H Ref τ
  | 0 => ⟨fun _ _ ↦ Eff.raise .recursionError, fun _ _ _ _ ↦ Eff.raise .recursionError⟩
  | depth + 1 => ⟨gateway.invoke (callsAt depth), gateway.invokeWrite (callsAt depth)⟩

end Gateway

end AtlasCore
