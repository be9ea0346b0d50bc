import AtlasCore.Feedback.Provenance
import AtlasCore.Lib.JsonDicts
import AtlasCore.Lib.Transition

/-!
# The feedback store

A verdict on a run becomes a candidate, and a candidate that passes the gate can be promoted.  The
store is two files, each a JSON object a line; nothing is ever rewritten.  The gate holds a
candidate against its schema, against the id that its content has, and against the log that it
names.

Left out are the lock, which makes two promotions two calls one after the other, and what the file
system itself refuses.
-/

set_option autoImplicit false

namespace AtlasCore

namespace Feedback

open Py Inspect

/-- `CANDIDATE_SCHEMA`: the name and the version of the format of a candidate. -/
def CANDIDATE_SCHEMA : Str := str "atlas-learning-candidate.v1"

/-- `LEARNING_SCHEMA`: the name and the version of the format of a learning. -/
def LEARNING_SCHEMA : Str := str "atlas-learning.v1"

/-- `OUTCOMES`: what a person can say about a run. -/
def OUTCOMES : List Str := [str "confirmed", str "rejected"]

/-- `MAX_LESSON`: how long a lesson may be, in characters, after it was masked. -/
def MAX_LESSON : ℕ := 2000

/-! ## Schemas

As much of JSON Schema as the candidates are checked with, and the words of its errors. -/

/-- The names of `_TYPES`: the types a schema can ask for. -/
inductive TypeName where
  | object | array | string | integer | number | boolean | null
  deriving DecidableEq

/-- The text of a type, as a schema and the message about it have it. -/
def TypeName.text : TypeName → Str
  | object => str "object"
  | array => str "array"
  | string => str "string"
  | integer => str "integer"
  | number => str "number"
  | boolean => str "boolean"
  | null => str "null"

/-- `_TYPES`: which values are of the type; an integer is a number too, and a boolean is neither. -/
def TypeName.holds : TypeName → Json → Bool
  | object, .obj _ => true
  | array, .arr _ => true
  | string, .str _ => true
  | integer, .int _ => true
  | number, .int _ => true
  | number, .float _ => true
  | boolean, .bool _ => true
  | null, .null => true
  | _, _ => false

/-- A schema.  It has no field for a keyword or a type that `schema_errors` does not know, and a
`pattern` is one for hex digits. -/
structure Schema where
  type : Option (List TypeName) := none
  const : Option Str := none
  enum : Option (List Str) := none
  /-- `^[0-9a-f]{n}$`. -/
  pattern : Option ℕ := none
  minLength : Option ℕ := none
  maxLength : Option ℕ := none
  required : List Str := []
  /-- `"additionalProperties": false`. -/
  closed : Bool := false
  properties : List (Str × Schema) := []
  items : Option Schema := none

/-- `repr` of a list of words, which a message quotes. -/
def reprWords (words : List Str) : Str :=
  str "[" ++ join (str ", ") (words.map fun w ↦ str "'" ++ w ++ str "'") ++ str "]"

/-- `re.search("^[0-9a-f]{n}$", s)`: `$` also matches before a newline at the end. -/
def matchesHex (n : ℕ) (s : Str) : Bool :=
  let digits := if s.getLast? = some lf then s.dropLast else s
  digits.length == n && digits.all isHex

/-- An error, if there is one: the path and what is wrong there. -/
def errorIf (c : Bool) (path message : Str) : List Str := if c then [path ++ message] else []

/-- What `schema_errors` asks of a text: its length and its form. -/
def textErrors (schema : Schema) (path s : Str) : List Str :=
  errorIf (schema.minLength.any fun n ↦ s.length < n) path
      (str ": shorter than " ++ decimal (schema.minLength.getD 0)) ++
    errorIf (schema.maxLength.any fun n ↦ n < s.length) path
      (str ": longer than " ++ decimal (schema.maxLength.getD 0)) ++
    errorIf (schema.pattern.any fun n ↦ !matchesHex n s) path
      (str ": does not match ^[0-9a-f]\x7b" ++ decimal (schema.pattern.getD 0) ++ str "\x7d$")

/-- What it asks of the keys of a dict. -/
def keyErrors (schema : Schema) (path : Str) (fields : Fields) : List Str :=
  (schema.required.filter fun key ↦ (Json.lookup key fields).isNone).map
      (fun key ↦ path ++ str "." ++ key ++ str ": missing") ++
    if schema.closed then
      (((fields.map Prod.fst).filter fun key ↦ key ∉ schema.properties.map Prod.fst).insertionSort
        fun a b ↦ Json.keyLe a b = true).map
        fun key ↦ path ++ str "." ++ key ++ str ": not allowed"
    else []

/-- What `schema_errors` asks of every value, with the errors of what is in it. -/
def valueErrors (schema : Schema) (path : Str) (value : Json) (inside : List Str) : List Str :=
  if schema.type.any fun allowed ↦ !allowed.any (·.holds value) then
    [path ++ str ": not " ++ reprWords ((schema.type.getD []).map (·.text))]
  else
    errorIf (schema.const.any fun text ↦ !isText value text) path
        (str ": not '" ++ schema.const.getD [] ++ str "'") ++
      errorIf (schema.enum.any fun texts ↦ !texts.any (isText value)) path
        (str ": not one of " ++ reprWords (schema.enum.getD [])) ++ inside

mutual
/-- `schema_errors`: everything that is wrong with a value, each with the path of the part it is
about. -/
def schemaErrors (schema : Schema) (path : Str) : Json → List Str
  | .str s => valueErrors schema path (.str s) (textErrors schema path s)
  | .obj fields => valueErrors schema path (.obj fields)
      (keyErrors schema path fields ++ fieldErrors schema.properties path fields)
  | .arr items => valueErrors schema path (.arr items) (itemErrors schema.items path 0 items)
  | value => valueErrors schema path value []

/-- `schema_errors` of the values of a dict, each by the schema of its key. -/
def fieldErrors (properties : List (Str × Schema)) (path : Str) : Fields → List Str
  | [] => []
  | (key, value) :: rest =>
    (match properties.find? fun p ↦ p.1 = key with
      | some p => schemaErrors p.2 (path ++ str "." ++ key) value
      | none => []) ++ fieldErrors properties path rest

/-- `schema_errors` of the items of a list, each under its own number. -/
def itemErrors (schema : Option Schema) (path : Str) (index : ℕ) : List Json → List Str
  | [] => []
  | value :: rest =>
    (match schema with
      | some schema => schemaErrors schema (path ++ str "[" ++ decimal index ++ str "]") value
      | none => []) ++ itemErrors schema path (index + 1) rest
end

/-- A text of any length. -/
def stringSchema : Schema := { type := some [.string] }

/-- A text or nothing, for what a log may not say. -/
def stringOrNull : Schema := { type := some [.string, .null] }

/-- A text that is not empty, for what a person has to say. -/
def nonemptyString : Schema := { type := some [.string], minLength := some 1 }

/-- The schema of a source in a provenance: three texts and nothing else. -/
def SOURCE_JSON_SCHEMA : Schema where
  type := some [.object]
  closed := true
  required := [str "source_id", str "path", str "sha256"]
  properties := [(str "source_id", stringSchema), (str "path", stringSchema),
    (str "sha256", stringSchema)]

/-- The schema of a provenance: where the log is found again, how the run stopped, and what it read.
-/
def PROVENANCE_JSON_SCHEMA : Schema where
  type := some [.object]
  closed := true
  required := [str "event_log_sha256", str "run_stopped_event_id", str "stop_reason",
    str "task_sha256", str "route", str "sources"]
  properties := [
    (str "event_log_sha256", { type := some [.string], pattern := some 64 }),
    (str "run_stopped_event_id", stringSchema),
    (str "stop_reason", stringOrNull),
    (str "task_sha256", stringOrNull),
    (str "route", stringOrNull),
    (str "sources", { type := some [.array], items := some SOURCE_JSON_SCHEMA })]

/-- `CANDIDATE_JSON_SCHEMA`: what a candidate has to be before it is stored or promoted. -/
def CANDIDATE_JSON_SCHEMA : Schema where
  type := some [.object]
  closed := true
  required := [str "schema", str "candidate_id", str "run_id", str "outcome", str "lesson",
    str "provenance", str "recorded_by", str "recorded_at"]
  properties := [
    (str "schema", { const := some CANDIDATE_SCHEMA }),
    (str "candidate_id", { type := some [.string], pattern := some 32 }),
    (str "run_id", nonemptyString),
    (str "outcome", { enum := some OUTCOMES }),
    (str "lesson", { type := some [.string], minLength := some 1, maxLength := some 2000 }),
    (str "provenance", PROVENANCE_JSON_SCHEMA),
    (str "recorded_by", nonemptyString),
    (str "recorded_at", stringSchema)]

/-! ## The files

Two files of records, one a line, that are appended to and read whole. -/

/-- `candidates.jsonl` and `learnings.jsonl`: two files that are only appended to; `none` is a file
that is not there. -/
structure Store where
  candidates : Option Bytes := none
  learnings : Option Bytes := none

/-- `json.dumps(value, sort_keys=True, ensure_ascii=False)` with an ending, encoded: the bytes that
are hashed, or appended. -/
def encoded (fields : Fields) (ending : Str) : Except Exc Bytes :=
  match (Json.obj fields).dumps with
  | none => .error .valueError
  | some text =>
    match encode (text ++ ending) with
    | none => .error .unicodeEncodeError
    | some bytes => .ok bytes

/-- `_append`: the contents of the file after it. -/
def append (file : Option Bytes) (record : Fields) : Except Exc Bytes := do
  return file.getD [] ++ (← encoded record [lf])

/-- `_read`: the values in a file; a file that is not there has none. -/
def read (file : Option Bytes) : Except Exc (List Json) :=
  match file with
  | none => .ok []
  | some bytes => readLog (some bytes)

/-! ## `record_outcome`

A candidate is made of a run that ended and of what a person says of it. -/

/-- `_candidate_id`: the digest of the content, cut to 32 digits, so that the same verdict has the
same id. -/
def candidateId (body : Fields) : Except Exc Str := do
  return (sha256 (← encoded body [])).take 32

/-- A source of a provenance, as the candidate has it. -/
def SourceRef.toDict (s : SourceRef) : Fields :=
  [(str "source_id", .str s.sourceId), (str "path", .str s.path), (str "sha256", .str s.sha256)]

/-- The dict that `_provenance` returns, which is part of what is hashed. -/
def Provenance.toDict (p : Provenance) : Fields :=
  [(str "event_log_sha256", .str p.eventLogSha256),
    (str "run_stopped_event_id", .str p.runStoppedEventId), (str "stop_reason", p.stopReason),
    (str "task_sha256", p.taskSha256), (str "route", p.route),
    (str "sources", .arr (p.sources.map fun s ↦ .obj s.toDict))]

/-- The arguments of `record_outcome`, with the log as it is and the time. -/
structure OutcomeCall where
  eventLog : Option Bytes
  runId : Str
  outcome : Str
  lesson : Str
  recordedBy : Str
  now : Timestamp

/-- The content of a candidate, of which its id is made. -/
def bodyOf (runId outcome lesson : Json) (provenance : Json) : Fields :=
  [(str "run_id", runId), (str "outcome", outcome), (str "lesson", lesson),
    (str "provenance", provenance)]

/-- A candidate: its id, what the id is derived from, and who recorded it and when. -/
def candidateDict (id runId outcome lesson : Str) (p : Provenance)
    (recordedBy recordedAt : Str) : Fields :=
  [(str "schema", .str CANDIDATE_SCHEMA), (str "candidate_id", .str id)] ++
    bodyOf (.str runId) (.str outcome) (.str lesson) (.obj p.toDict) ++
    [(str "recorded_by", .str recordedBy), (str "recorded_at", .str recordedAt)]

section
variable (rt : Runtime) (mask : Masking)

/-- The candidate that `record_outcome` appends: every check comes before anything is written. -/
def candidateOf (call : OutcomeCall) : Except Exc Fields := do
  if call.outcome ∉ OUTCOMES then throw Exc.valueError
  let masked := mask.text (strip call.lesson)
  if strip masked = [] then throw Exc.valueError
  if masked.length > MAX_LESSON then throw Exc.valueError
  if strip call.recordedBy = [] then throw Exc.valueError
  let p ← provenance rt call.eventLog call.runId
  let id ← candidateId (bodyOf (.str call.runId) (.str call.outcome) (.str masked) (.obj p.toDict))
  return candidateDict id call.runId call.outcome masked p call.recordedBy call.now.text

/-- `record_outcome`: the candidate, and the store with it. -/
def recordOutcome (store : Store) (call : OutcomeCall) : Except Exc (Fields × Store) := do
  let candidate ← candidateOf rt mask call
  let candidates ← append store.candidates candidate
  return (candidate, { store with candidates := some candidates })

/-! ## `gate`

What a candidate has to be before it may be promoted, checked again at the time it is. -/

/-- `a == b`, where `b` is a text or nothing. -/
def sameText : Json → Json → Bool
  | .str s, .str t => s = t
  | .null, .null => true
  | _, _ => false

/-- `source == item`, where the item is a dict of texts. -/
def isSource (s : SourceRef) : Json → Bool
  | .obj item => item.length == 3 && isText (getOrNull item "source_id") s.sourceId &&
      isText (getOrNull item "path") s.path && isText (getOrNull item "sha256") s.sha256
  | _ => false

/-- `sources == value`: the same sources in the same order. -/
def areSources : List SourceRef → List Json → Bool
  | [], [] => true
  | s :: sources, v :: items => isSource s v && areSources sources items
  | _, _ => false

/-- The provenance against the log as it is now. -/
def provenanceErrors (current : Provenance) (recorded : Fields) : List Str :=
  errorIf (!sameText (.str current.eventLogSha256) (getOrNull recorded "event_log_sha256")) []
      (str "event log changed since the outcome was recorded") ++
    errorIf (!sameText (.str current.runStoppedEventId) (getOrNull recorded "run_stopped_event_id"))
      (str "provenance.run_stopped_event_id") (str " does not match the event log") ++
    errorIf (!sameText current.stopReason (getOrNull recorded "stop_reason"))
      (str "provenance.stop_reason") (str " does not match the event log") ++
    errorIf (!sameText current.taskSha256 (getOrNull recorded "task_sha256"))
      (str "provenance.task_sha256") (str " does not match the event log") ++
    errorIf (!sameText current.route (getOrNull recorded "route"))
      (str "provenance.route") (str " does not match the event log") ++
    errorIf (match getOrNull recorded "sources" with
      | .arr items => !areSources current.sources items
      | _ => true) (str "provenance.sources") (str " does not match the event log")

/-- The texts of a candidate that must not be blank, and its id. -/
def contentErrors (candidate : Fields) (id : Str) : List Str :=
  ([str "run_id", str "lesson", str "recorded_by"].flatMap fun key ↦
      errorIf (strip (strValue rt ((Json.lookup key candidate).getD .null)) = []) (str "$." ++ key)
        (str ": blank")) ++
    errorIf (!isText (getOrNull candidate "candidate_id") id) []
      (str "candidate_id does not match its content")

/-- `except (OSError, ValueError)` catches it: the log is gone, or is none any more, and the
promotion is refused. -/
def isUnreadable (e : Exc) : Bool := e.isOSError || e = .valueError

/-- `gate`: the name of the exception is left out of the text about a log that cannot be read. -/
def gate (candidate : Fields) (eventLog : Option Bytes) : Except Exc (List Str) :=
  match schemaErrors CANDIDATE_JSON_SCHEMA (str "$") (.obj candidate) with
  | problem :: problems => .ok (problem :: problems)
  | [] => do
    let id ← candidateId (bodyOf (getOrNull candidate "run_id") (getOrNull candidate "outcome")
      (getOrNull candidate "lesson") (getOrNull candidate "provenance"))
    match contentErrors rt candidate id with
    | problem :: problems => return problem :: problems
    | [] =>
      match provenance rt eventLog (strValue rt (getOrNull candidate "run_id")) with
      | .error e => if isUnreadable e then return [str "event log unreadable"] else throw e
      | .ok current =>
        match getOrNull candidate "provenance" with
        | .obj recorded => return provenanceErrors current recorded
        | _ => throw attributeError

/-! ## `promote`

A candidate becomes a learning, once. -/

/-- What a promotion ends with, if not with a learning. -/
inductive PromoteError where
  /-- `PromotionRefused`; the id is left out of its texts. -/
  | refused (reasons : List Str)
  | raised (e : Exc)

/-- An exception that passes through, next to the refusals that a promotion has of its own. -/
def passing {α : Type} : Except Exc α → Except PromoteError α
  | .ok a => .ok a
  | .error e => .error (.raised e)

/-- The arguments of `promote`, with the log as it is and the time. -/
structure PromoteCall where
  candidateId : Str
  eventLog : Option Bytes
  promotedBy : Str
  now : Timestamp

/-- `record.get("candidate_id") == candidate_id`: the record is of this candidate. -/
def hasId (id : Str) (candidate : Fields) : Bool := isText (getOrNull candidate "candidate_id") id

/-- `any(learning.get("candidate", {}).get("candidate_id") == candidate_id ...)`: the first that
matches decides, and what is no mapping before it raises. -/
def isPromoted (id : Str) : List Json → Except Exc Bool
  | [] => .ok false
  | .obj learning :: rest =>
    match (Json.lookup (str "candidate") learning).getD (.obj []) with
    | .obj candidate => if hasId id candidate then .ok true else isPromoted id rest
    | _ => .error attributeError
  | _ :: _ => .error attributeError

/-- The learning that `_promote` appends: the candidate as it is, and who promoted it and when. -/
def learningOf (candidate : Fields) (call : PromoteCall) : Fields :=
  [(str "schema", .str LEARNING_SCHEMA), (str "candidate", .obj candidate),
    (str "promoted_by", .str call.promotedBy), (str "promoted_at", .str call.now.text)]

/-- The one candidate with the id: none and several are both refused. -/
def findCandidate (candidates : List Json) (id : Str) : Except PromoteError Fields :=
  match objects candidates with
  | none => .error (.raised attributeError)
  | some all =>
    match all.filter (hasId id) with
    | [] => .error (.refused [str "no candidate"])
    | [candidate] => .ok candidate
    | _ => .error (.refused [str "candidate is recorded more than once"])

/-- `promote`: the learning, and the store with it. -/
def promote (store : Store) (call : PromoteCall) : Except PromoteError (Fields × Store) := do
  if strip call.promotedBy = [] then throw (.refused [str "a promotion names who made it"])
  let candidate ← findCandidate (← passing (read store.candidates)) call.candidateId
  if ← passing (do isPromoted call.candidateId (← read store.learnings)) then
    throw (.refused [str "candidate is already promoted"])
  let problems ← passing (gate rt candidate call.eventLog)
  if problems ≠ [] then throw (.refused problems)
  let learning := learningOf candidate call
  let learnings ← passing (append store.learnings learning)
  return (learning, { store with learnings := some learnings })

/-! ## Sequences of calls

The store as a system of calls and answers, so that what holds of it holds of every sequence. -/

/-- A call of the store: a verdict is recorded, or a candidate promoted. -/
inductive Call where
  | recordOutcome (call : OutcomeCall)
  | promote (call : PromoteCall)

/-- What a call returns that returns something, and the store then. -/
def answer (store : Store) : Call → Option (Fields × Store)
  | .recordOutcome call => (recordOutcome rt mask store call).toOption
  | .promote call => (promote rt store call).toOption

/-- The store and its calls: one that raises leaves it as it was. -/
def feedbackSystem : System Store Call where
  init := {}
  step := fun store call ↦ some (((answer rt mask store call).map Prod.snd).getD store)

end

end Feedback

end AtlasCore
