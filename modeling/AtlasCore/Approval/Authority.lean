import AtlasCore.Approval.Operation
import AtlasCore.EventLog.Log

/-!
# `ApprovalAuthority`

It records a request, a grant or a refusal that only the host can supply, and spends a grant once.
Every call holds the lock, so the calls come one after the other; what happens inside one is a
computation over the `Desk`: the world, the log and the approvals.

An exception in the middle of a call leaves behind what was assigned before it, so every assignment
to an item is a step of its own here.
-/

set_option autoImplicit false

namespace AtlasCore

open Py

/-- `_Pending.decision`: where an approval stands.  It is requested once, answered at most once, and
spent at most once. -/
inductive Decision where
  | requested | granted | refused | consumed
  deriving DecidableEq

/-- The text of a decision, as the log has it. -/
def Decision.text : Decision → Str
  | requested => str "requested"
  | granted => str "granted"
  | refused => str "refused"
  | consumed => str "consumed"

/-- `_Pending`; an instant of a clock is a `τ`. -/
structure Pending (τ : Type) where
  operation : Operation
  iteration : ℤ
  tokenSha256 : Option Str := none
  grantedBy : Option Str := none
  grantedAt : Option τ := none
  expiresMonotonic : Option τ := none
  expiresWall : Option τ := none
  decision : Decision := .requested

/-- What an authority is built with, and what it asks the machine for.  The numbers of a clock are
floats, of which this much is used: a sum, two comparisons that need not be opposites (a float may
be no number at all), and the date of `_iso`, which not every float has.

What it asks, it asks under a lock that its own thread may take again.  The clocks and `head_of` of
an office work on the world alone: they call neither the authority nor a gateway over it, which is a
condition on the host that the code does not check. -/
structure Office (W τ : Type) where
  /-- `self._head_of`. -/
  headOf : Str → Eff Exc W Str
  /-- `self._clock`. -/
  clock : Eff Exc W τ
  /-- `self._wall_clock`. -/
  wallClock : Eff Exc W τ
  /-- `secrets.token_urlsafe(32)`. -/
  tokenUrlsafe : Eff Exc W Str
  plus : τ → τ → τ
  /-- `a >= b`. -/
  atLeast : τ → τ → Bool
  /-- `a < b`. -/
  before : τ → τ → Bool
  /-- `0 < ttl_seconds <= MAX_TTL_SECONDS`. -/
  allowedTtl : τ → Bool
  /-- `_iso`: `datetime.fromtimestamp` raises beyond the years 1 to 9999. -/
  iso : τ → Except Exc Str
  mask : Masking
  sink : Sink W
  /-- A sink that fails raises an exception of its own. -/
  sink_rejects : ∀ event w reason, (sink event w).1 ≠ .error (.approvalRejected reason)

/-- The approvals of an authority: `self._pending`, a dict in the order of the requests. -/
abbrev Approvals (τ : Type) := List (Str × Pending τ)

/-- What an authority works on: the world its clocks and its repository are in, the log it writes
to, and its approvals. -/
structure Desk (W τ : Type) where
  world : W
  log : Option EventLog
  approvals : Approvals τ

variable {W τ : Type}

/-- The item under an id: `self._pending.get(approval_id)`, the first of that id. -/
def Approvals.get (approvals : Approvals τ) (approvalId : Str) : Option (Pending τ) :=
  (approvals.find? fun p ↦ p.1 = approvalId).map (·.2)

/-- `self._pending[approval_id] = item`: the item under an id that is known is replaced where it
stands, another comes last. -/
def Approvals.put (approvals : Approvals τ) (approvalId : Str) (item : Pending τ) : Approvals τ :=
  if approvals.any fun p ↦ p.1 = approvalId then
    approvals.map fun p ↦ if p.1 = approvalId then (p.1, item) else p
  else approvals ++ [(approvalId, item)]

/-- Assign to the item under an id.  The source mutates the item in place, so every other item stays
as it is. -/
def Approvals.assign (approvals : Approvals τ) (approvalId : Str)
    (f : Pending τ → Pending τ) : Approvals τ :=
  approvals.map fun p ↦ if p.1 = approvalId then (p.1, f p.2) else p

/-- `f"approval-{operation.sha256[:16]}-{len(self._pending)}"`.  The number at the end makes it
another id for every request, also for the same operation. -/
def approvalId (sha256 : Str) (n : ℕ) : Str :=
  str "approval-" ++ sha256.take 16 ++ [ch '-'] ++ decimal n

/-- A computation of an authority, under its lock: what it does to the desk stays done where it
raises. -/
abbrev DeskM (W τ : Type) := Eff Exc (Desk W τ)

/-- Ask the machine: a clock, the repository or the source of randomness.  The approvals and the log
are not in its reach. -/
def asks {α : Type} (m : Eff Exc W α) : DeskM W τ α :=
  m.zoom (·.world) fun w d ↦ { d with world := w }

/-- Assign to the item under an id, as a step of an authority. -/
def assign (approvalId : Str) (f : Pending τ → Pending τ) : DeskM W τ Unit :=
  Eff.update fun d ↦ { d with approvals := d.approvals.assign approvalId f }

namespace Authority

variable (office : Office W τ)

/-- The payload of a record: the decision and the whole of what was decided about, so that the log
alone tells what was approved. -/
def payload (decision approvalId : Str) (item : Pending τ) (extra : Fields) : Fields :=
  [(str "decision", .str decision), (str "approval_id", .str approvalId),
    (str "operation_sha256", .str item.operation.sha256),
    (str "operation_kind", .str item.operation.kind.text), (str "tool", .str item.operation.tool),
    (str "repo", .str item.operation.repo), (str "ref", .str item.operation.ref),
    (str "head", .str item.operation.head)] ++ extra

/-- `_record`: an event with a negative iteration is refused. -/
def record (decision approvalId : Str) (item : Pending τ) (extra : Fields) : DeskM W τ Unit := do
  match (← Eff.read).log with
  | none => return ()
  | some log =>
    if item.iteration < 0 then Eff.raise .valueError
    else
      (EventLog.append office.mask office.sink .approvalRecorded item.iteration.toNat none
        (payload decision approvalId item extra)).zoom
          (fun d ↦ (d.world, log)) fun p d ↦ { d with world := p.1, log := some p.2 }

/-- `request`: the operation is kept as it was asked for, and is waiting for an answer.  The same
operation may be asked for again, and is then another approval. -/
def request (operation : Operation) (iteration : ℤ) : DeskM W τ Str := do
  let desk ← Eff.read
  let id := approvalId operation.sha256 desk.approvals.length
  let item : Pending τ := { operation, iteration }
  Eff.update fun d ↦ { d with approvals := d.approvals.put id item }
  record office (str "requested") id item []
  return id

/-- `_open`: only a request that was not answered yet can be granted or refused. -/
def openItem (approvalId : Str) : DeskM W τ (Pending τ) := do
  match (← Eff.read).approvals.get approvalId with
  | none => Eff.raise .keyError
  | some item => if item.decision ≠ .requested then Eff.raise .valueError else return item

/-- The item as it is now: an item is shared with `self._pending`, and no copy of it. -/
def current (approvalId : Str) (item : Pending τ) : DeskM W τ (Pending τ) := do
  return ((← Eff.read).approvals.get approvalId).getD item

/-- `hashlib.sha256(token.encode(..)).hexdigest()`.  The authority keeps the digest only; a token
that cannot be encoded raises. -/
def tokenDigest (token : Str) : DeskM W τ Str :=
  match sha256Text token with
  | some digest => return digest
  | none => Eff.raise .unicodeEncodeError

/-- `grant`: a token is drawn, and its digest and the two times at which it expires are kept.  The
token itself is in nothing but the answer. -/
def grant (id grantedBy : Str) (ttlSeconds : τ) : DeskM W τ Str := do
  if strip grantedBy = [] then Eff.raise .valueError
  else if ¬ office.allowedTtl ttlSeconds then Eff.raise .valueError
  else
    let item ← openItem id
    let token ← asks office.tokenUrlsafe
    let digest ← tokenDigest token
    assign id fun p ↦ { p with tokenSha256 := some digest, grantedBy := some grantedBy }
    let grantedAt ← asks office.wallClock
    assign id fun p ↦ { p with grantedAt := some grantedAt }
    let now ← asks office.clock
    let expiresWall := office.plus grantedAt ttlSeconds
    assign id fun p ↦
      { p with
        expiresMonotonic := some (office.plus now ttlSeconds)
        expiresWall := some expiresWall
        decision := .granted }
    -- the date is made for the record, after the decision was assigned
    let expiresAt ← Eff.ofExcept (office.iso expiresWall)
    record office (str "granted") id (← current id item)
      [(str "granted_by", .str grantedBy), (str "expires_at", .str expiresAt)]
    return token

/-- `refuse`: who refused, and when, is noted in the fields that a grant would have used. -/
def refuse (id refusedBy : Str) : DeskM W τ Unit := do
  let item ← openItem id
  assign id fun p ↦ { p with decision := .refused, grantedBy := some refusedBy }
  let grantedAt ← asks office.wallClock
  assign id fun p ↦ { p with grantedAt := some grantedAt }
  record office (str "refused") id (← current id item) [(str "granted_by", .str refusedBy)]

/-- `_reject`: a rejection is logged, raised, and changes no approval. -/
def reject {α : Type} (id : Str) (item : Pending τ) (reason : Str) (extra : Fields) :
    DeskM W τ α := do
  record office (str "rejected") id item ([(str "reason", .str reason)] ++ extra)
  Eff.raise (.approvalRejected reason)

/-- `_reject_unknown`: a token that nobody was given is logged under no id, with the operation it
was offered for. -/
def rejectUnknown {α : Type} (operation : Operation) (iteration : ℤ) : DeskM W τ α :=
  reject office UNKNOWN { operation, iteration } (str "unknown_token") []

/-- `self._clock() >= expires_monotonic or self._wall_clock() >= expires_wall`.  The second clock is
read only where the first did not decide. -/
def isExpired (expiresMonotonic expiresWall : τ) : DeskM W τ Bool := do
  if office.atLeast (← asks office.clock) expiresMonotonic then return true
  else return office.atLeast (← asks office.wallClock) expiresWall

/-- The items whose token has this digest; the first of them is the one that is looked at. -/
def found (approvals : Approvals τ) (digest : Str) : Option (Str × Pending τ) :=
  approvals.find? fun p ↦ p.2.tokenSha256 = some digest

/-- The part of `_consume` in which the operation is compared and the approval is spent. -/
def spend (id : Str) (item : Pending τ) (operation : Operation) : DeskM W τ Str := do
  match ← Eff.attempt (asks (office.headOf item.operation.repo)) with
  | .error (.approvalRejected reason) => reject office id item reason []
  | .error e => Eff.raise e
  | .ok head =>
    if head ≠ item.operation.head then
      reject office id item (str "head_moved") [(str "current_head", .str head)]
    else if operation.sha256 ≠ item.operation.sha256 then
      reject office id item (str "operation_mismatch")
        [(str "offered_sha256", .str operation.sha256)]
    else
      assign id fun p ↦ { p with decision := .consumed }
      record office (str "consumed") id item
        [(str "granted_by", EventLog.textOrNull item.grantedBy)]
      return id

/-- `consume`: the token is looked up, and what it was granted for is checked against what it is
offered for.  The first check that fails names the reason, and only what passes them all is spent.
-/
def consume (token : Str) (operation : Operation) (iteration : ℤ) : DeskM W τ Str := do
  let digest ← tokenDigest token
  match found (← Eff.read).approvals digest with
  | none => rejectUnknown office operation iteration
  | some (id, item) =>
    if item.decision = .consumed then reject office id item (str "already_used") []
    else
      match item.decision, item.expiresMonotonic, item.expiresWall with
      | .granted, some monotonic, some wall => do
        if ← isExpired office monotonic wall then reject office id item (str "expired") []
        else spend office id item operation
      | _, _, _ => reject office id item (str "not_granted") []

end Authority

end AtlasCore
