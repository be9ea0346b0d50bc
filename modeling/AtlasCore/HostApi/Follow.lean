import AtlasCore.EventLog.History
import AtlasCore.EventLog.Prefix
import AtlasCore.HostApi.Status

/-!
# Following a log

`follow_events` reads the whole log again and again, and yields what is new among the records of one
run until it meets its `run_stopped`.  Where it is in the log it knows by a count, so each reading
has to begin with the one before.

`endAt` says how a poll should end from the records that are whole in the file; `Follows` is that
the call ends so, and has yielded just these records up to the first stop.  A poll is read wherever
the writer is caught, except where the file is not legible: inside a character, or past a line break
that the writer copies (`follows_iff`).
-/

set_option autoImplicit false

namespace AtlasCore

open Py

namespace HostApi

open Inspect

/-- `EVENT_SCHEMA`: the format of the records that a follower understands. -/
def EVENT_SCHEMA : Str := str "atlas-event.v1"

/-- What `follow_events` meets in one round of its loop. -/
structure Poll where
  /-- `is_locked`. -/
  alive : Bool
  /-- The log when `_records` reads it; `none` if it does not exist. -/
  file : Option Bytes
  /-- `lock_path(log_path, run_id).exists()`. -/
  lockFile : Bool
  /-- `time.monotonic() >= deadline`. -/
  late : Bool

/-- How a call of `follow_events` ended, or that it has not. -/
inductive FollowEnd where
  | returned
  /-- `FollowEnded("interrupted")`. -/
  | interrupted
  /-- `FollowEnded("timed out")`. -/
  | timedOut
  /-- Anything else that was raised. -/
  | raised (e : Exc)
  /-- It did not: it waits for its next poll. -/
  | polling

/-- What a call of `follow_events` yielded, and how it ended. -/
structure Followed where
  yielded : List Fields
  ended : FollowEnd

/-- The loop over the new records, with how it ended if it did not run through. -/
def yieldNew : List Fields → List Fields × Option FollowEnd
  | [] => ([], none)
  | record :: rest =>
    if isText (getOrNull record "schema") EVENT_SCHEMA = false then ([], some (.raised .valueError))
    else if isKind .runStopped record then ([record], some .returned)
    else (record :: (yieldNew rest).1, (yieldNew rest).2)

/-- The loop of `follow_events`, after `seen` records: each poll reads the file again, and yields
what is new in it. -/
def followFrom (runId : Str) (seen : ℕ) : List Poll → Followed
  | [] => ⟨[], .polling⟩
  | poll :: rest =>
    match recordsOf runId poll.file with
    | .error e => ⟨[], .raised e⟩
    | .ok records =>
      match yieldNew (records.drop seen) with
      | (yielded, some ended) => ⟨yielded, ended⟩
      | (yielded, none) =>
        if records ≠ [] ∧ poll.alive = false ∧ poll.lockFile = true then ⟨yielded, .interrupted⟩
        else if poll.late then ⟨yielded, .timedOut⟩
        else
          let later := followFrom runId records.length rest
          ⟨yielded ++ later.yielded, later.ended⟩

/-- `follow_events`: the id is checked before the file is looked at. -/
def followEvents (runId : Str) (polls : List Poll) : Followed :=
  if isRunId runId = false then ⟨[], .raised .valueError⟩ else followFrom runId 0 polls

/-! ## What it should do

What following a log is to give, from what was in the file at each reading: every record once, in
order, up to the stop. -/

/-- A record as a reader of the log gets it: the same dict, its keys sorted. -/
def asRead (r : Record) : Fields := Json.sortFields (Json.canonFields r.fields)

/-- The records of the run that are whole in the file. -/
def ownRecords (runId : Str) (history : List Record) (file : Option Bytes) : List Fields :=
  ((wholeRecords history (file.getD []).length).filter fun r ↦ isOf runId r.fields).map asRead

/-- The records up to the first `run_stopped`, with it. -/
def throughStop : List Fields → List Fields
  | [] => []
  | record :: rest =>
    if isKind .runStopped record then [record] else record :: throughStop rest

/-- How a poll ends the call, if it does. -/
def endAt (runId : Str) (history : List Record) (poll : Poll) : FollowEnd :=
  let own := ownRecords runId history poll.file
  if own.any (isKind .runStopped) then .returned
  else if own ≠ [] ∧ poll.alive = false ∧ poll.lockFile = true then .interrupted
  else if poll.late then .timedOut
  else .polling

/-- The call went on until a poll ended it, and what was yielded, of all the records so far, is what
is whole in the file then, up to the first stop. -/
def FollowsFrom (runId : Str) (history : List Record) (before : List Fields) (polls : List Poll)
    (result : Followed) : Prop :=
  ∃ waited last later, polls = waited ++ last :: later ∧
    (∀ poll ∈ waited, endAt runId history poll = .polling) ∧
    result.ended = endAt runId history last ∧ (result.ended = .polling → later = []) ∧
    before ++ result.yielded = throughStop (ownRecords runId history last.file)

/-- What following a log promises: the records of the run, each once and in their order, and an end
that is true. -/
def Follows (runId : Str) (history : List Record) (polls : List Poll) : Prop :=
  FollowsFrom runId history [] polls (followEvents runId polls)

/-- Wherever the call gets to, the file is legible. -/
def AlwaysLegible (runId : Str) (history : List Record) (polls : List Poll) : Prop :=
  ∀ waited poll later, polls = waited ++ poll :: later →
    (∀ p ∈ waited, endAt runId history p = .polling) → Legible history (poll.file.getD [])

/-- The polls of a log that only grows, into the lines of the history. -/
structure Polls (history : List Record) (polls : List Poll) : Prop where
  grows : polls.IsChain fun p q ↦ Grew p.file q.file
  ofHistory : ∀ p ∈ polls, Grew p.file (some (utf8 (logText history)))

variable {runId : Str} {history : List Record} {polls : List Poll} {poll : Poll}

/-! ## One poll

What one reading of the file gives, while the log is still being written. -/

theorem canon_value (r : Record) : r.value.canon = .obj (asRead r) := by
  rw [Record.value, Json.canon, asRead]

theorem isText_canon {v : Json} {text : Str} : isText v.canon text = isText v text := by
  cases v <;> rfl

theorem isOf_asRead (r : Record) : isOf runId (asRead r) = isOf runId r.fields := by
  rw [isOf, asRead, getOrNull_canon, isText_canon, isOf]

theorem objects_asRead (records : List Record) :
    objects (records.map fun r ↦ r.value.canon) = some (records.map asRead) := by
  rw [objects]
  induction records with
  | nil => rfl
  | cons r records ih =>
    rw [List.map_cons, List.mapM_cons, canon_value, ih]
    rfl

theorem filter_asRead (records : List Record) :
    (records.map asRead).filter (isOf runId) =
      (records.filter fun r ↦ isOf runId r.fields).map asRead := by
  rw [List.filter_map]
  congr 1
  exact List.filter_congr fun r _ ↦ isOf_asRead r

/-- A legible file is read as its whole records, and any other file is not read. -/
theorem recordsOf_poll (hw : ∀ r ∈ history, r.Writable)
    (hfile : Grew poll.file (some (utf8 (logText history)))) :
    (Legible history (poll.file.getD []) ∧
        recordsOf runId poll.file = .ok (ownRecords runId history poll.file)) ∨
      ¬ Legible history (poll.file.getD []) ∧ ∃ e, recordsOf runId poll.file = .error e := by
  cases hf : poll.file with
  | none =>
    refine .inl ⟨⟨0, rfl, fun c hc ↦ by cases hc⟩, ?_⟩
    rw [ownRecords, Option.getD_none, List.length_nil, wholeRecords_zero]
    rfl
  | some file =>
    rw [hf] at hfile
    rw [ownRecords, Option.getD_some, recordsOf]
    rcases readJsonl_beginning hw hfile with ⟨hlegible, hread⟩ | ⟨hlegible, e, hread⟩
    · refine .inl ⟨hlegible, ?_⟩
      rw [hread]
      dsimp only
      rw [objects_asRead]
      dsimp only
      rw [filter_asRead]
    · refine .inr ⟨hlegible, .valueError, ?_⟩
      rw [hread]

/-- A later reading begins with an earlier one. -/
theorem ownRecords_grows {a b : Option Bytes} (h : Grew a b) :
    ownRecords runId history a <+: ownRecords runId history b := by
  have hlength : (a.getD []).length ≤ (b.getD []).length := by
    match a, b, h with
    | none, _, _ => exact Nat.zero_le _
    | some a, some b, h => exact List.IsPrefix.length_le h
  exact ((wholeRecords_mono history hlength).filter _).map _

/-! ## The records of one poll

Which of the records that were not seen before are yielded. -/

variable {before new : List Fields} {record : Fields}

theorem throughStop_append (h : before.any (isKind .runStopped) = false) :
    throughStop (before ++ new) = before ++ throughStop new := by
  induction before with
  | nil => rfl
  | cons record before ih =>
    rw [List.any_cons, Bool.or_eq_false_iff] at h
    rw [List.cons_append, throughStop, h.1, if_neg Bool.false_ne_true, ih h.2, List.cons_append]

theorem throughStop_eq_self (h : new.any (isKind .runStopped) = false) : throughStop new = new := by
  have happend : throughStop (new ++ []) = new ++ throughStop [] := throughStop_append h
  rwa [List.append_nil, throughStop, List.append_nil] at happend

/-- Of events of the schema, those up to the first stop are yielded. -/
theorem yieldNew_eq (h : ∀ r ∈ new, getOrNull r "schema" = .str EVENT_SCHEMA) :
    yieldNew new =
      (throughStop new, if new.any (isKind .runStopped) then some .returned else none) := by
  induction new with
  | nil => rfl
  | cons record new ih =>
    rw [yieldNew, isText_iff.mpr (h record List.mem_cons_self), if_neg (by simp), throughStop,
      List.any_cons, ih fun r hr ↦ h r (List.mem_cons_of_mem _ hr)]
    cases isKind .runStopped record <;> rfl

/-! ## All polls

The polls one after the other, until one ends the call. -/

theorem endAt_ne_raised (e : Exc) : endAt runId history poll ≠ .raised e := by
  rw [endAt]
  split_ifs <;> exact fun h ↦ by cases h

theorem alwaysLegible_cons {rest : List Poll} :
    AlwaysLegible runId history (poll :: rest) ↔ Legible history (poll.file.getD []) ∧
      (endAt runId history poll = .polling → AlwaysLegible runId history rest) := by
  constructor
  · intro h
    refine ⟨h [] poll rest rfl (List.forall_mem_nil _), fun hend waited p later heq hwaited ↦ ?_⟩
    refine h (poll :: waited) p later (by rw [heq, List.cons_append]) fun q hq ↦ ?_
    rcases List.mem_cons.mp hq with rfl | hq
    · exact hend
    · exact hwaited q hq
  · rintro ⟨hfirst, hrest⟩ waited p later heq hwaited
    cases waited with
    | nil =>
      obtain ⟨rfl, -⟩ := List.cons.inj heq
      exact hfirst
    | cons q waited =>
      obtain ⟨rfl, htail⟩ := List.cons.inj heq
      exact hrest (hwaited _ List.mem_cons_self) waited p later htail fun r hr ↦
        hwaited r (List.mem_cons_of_mem _ hr)

/-- A poll that does not end the call hands over to the next. -/
theorem followsFrom_cons {rest : List Poll} {result : Followed} (hrest : rest ≠ [])
    (hend : endAt runId history poll = .polling) :
    FollowsFrom runId history before (poll :: rest) ⟨new ++ result.yielded, result.ended⟩ ↔
      FollowsFrom runId history (before ++ new) rest result := by
  constructor
  · rintro ⟨waited, last, later, heq, hwaited, hended, hlater, hyielded⟩
    cases waited with
    | nil =>
      obtain ⟨rfl, rfl⟩ := List.cons.inj heq
      exact absurd (hlater (hended.trans hend)) hrest
    | cons q waited =>
      obtain ⟨rfl, htail⟩ := List.cons.inj heq
      exact ⟨waited, last, later, htail, fun p hp ↦ hwaited p (List.mem_cons_of_mem _ hp), hended,
        hlater, by rw [List.append_assoc]; exact hyielded⟩
  · rintro ⟨waited, last, later, heq, hwaited, hended, hlater, hyielded⟩
    refine ⟨poll :: waited, last, later, by rw [heq, List.cons_append], fun p hp ↦ ?_, hended,
      hlater,
      by rw [← List.append_assoc]; exact hyielded⟩
    rcases List.mem_cons.mp hp with rfl | hp
    · exact hend
    · exact hwaited p hp

theorem schema_of_own {file : Option Bytes}
    (h : ∀ r ∈ history, isOf runId r.fields = true →
      getOrNull r.fields "schema" = .str EVENT_SCHEMA)
    (hrecord : record ∈ ownRecords runId history file) :
    getOrNull record "schema" = .str EVENT_SCHEMA := by
  obtain ⟨r, hr, rfl⟩ := List.mem_map.mp hrecord
  obtain ⟨hmem, hof⟩ := List.mem_filter.mp hr
  rw [asRead, getOrNull_canon, h r (wholeRecords_subset history _ hmem) hof, Json.canon]

/-- A poll that ends the call does so with what is whole in the file. -/
theorem followsFrom_ended {rest : List Poll} {result : Followed}
    (hended : result.ended = endAt runId history poll)
    (hlast : result.ended = .polling → rest = [])
    (hyielded : before ++ result.yielded = throughStop (ownRecords runId history poll.file)) :
    FollowsFrom runId history before (poll :: rest) result :=
  ⟨[], poll, rest, rfl, List.forall_mem_nil _, hended, hlast, hyielded⟩

/-- Where a poll ends the call, nothing is asked of the later ones. -/
theorem followsFrom_iff_of_ended {rest : List Poll} {result : Followed}
    (hended : result.ended = endAt runId history poll) (hne : endAt runId history poll ≠ .polling)
    (hyielded : before ++ result.yielded = throughStop (ownRecords runId history poll.file)) :
    FollowsFrom runId history before (poll :: rest) result ↔
      (endAt runId history poll = .polling → AlwaysLegible runId history rest) :=
  iff_of_true (followsFrom_ended hended (fun h ↦ absurd (hended.symm.trans h) hne) hyielded)
    fun h ↦ absurd h hne

theorem Polls.tail {rest : List Poll} (h : Polls history (poll :: rest)) : Polls history rest :=
  ⟨h.grows.tail, fun p hp ↦ h.ofHistory p (List.mem_cons_of_mem _ hp)⟩

/-- From any poll on, with the records of the polls before it yielded. -/
theorem followFrom_iff (hw : ∀ r ∈ history, r.Writable)
    (hschema : ∀ r ∈ history, isOf runId r.fields = true →
      getOrNull r.fields "schema" = .str EVENT_SCHEMA) :
    ∀ {polls : List Poll} {before : List Fields}, Polls history polls → polls ≠ [] →
      (∀ p ∈ polls.head?, before <+: ownRecords runId history p.file) →
      before.any (isKind .runStopped) = false →
      (FollowsFrom runId history before polls (followFrom runId before.length polls) ↔
        AlwaysLegible runId history polls)
  | [], _, _, hne, _, _ => absurd rfl hne
  | poll :: rest, before, hpolls, _, hbegins, hgoing => by
    have hfile := hpolls.ofHistory poll List.mem_cons_self
    rw [alwaysLegible_cons, followFrom]
    have hpoll := @recordsOf_poll runId history poll hw hfile
    rcases hpoll with ⟨hlegible, hread⟩ | ⟨hlegible, e, hread⟩
    · obtain ⟨new, hown⟩ := hbegins poll rfl
      have hnew : ∀ r ∈ new, getOrNull r "schema" = .str EVENT_SCHEMA := fun r hr ↦
        schema_of_own hschema (hown ▸ List.mem_append_right before hr)
      have hstops : (ownRecords runId history poll.file).any (isKind .runStopped) =
          new.any (isKind .runStopped) := by rw [← hown, List.any_append, hgoing, Bool.false_or]
      have hthrough :
          before ++ throughStop new = throughStop (ownRecords runId history poll.file) := by
        rw [← hown, throughStop_append hgoing]
      have hdrop : (ownRecords runId history poll.file).drop before.length = new := by
        rw [← hown, List.drop_left]
      simp only [and_iff_right hlegible, hread, hdrop, yieldNew_eq hnew]
      by_cases hstop : new.any (isKind .runStopped) = true
      · have hend : endAt runId history poll = .returned := by
          rw [endAt, if_pos (hstops.trans hstop)]
        rw [if_pos hstop]
        exact followsFrom_iff_of_ended hend.symm (by rw [hend]; exact fun h ↦ by cases h) hthrough
      have hend : endAt runId history poll =
          if ownRecords runId history poll.file ≠ [] ∧ poll.alive = false ∧
            poll.lockFile = true then
            .interrupted
          else if poll.late then .timedOut else .polling := by
        rw [endAt, if_neg (by rw [hstops]; exact hstop)]
      rw [if_neg hstop]
      dsimp only
      by_cases hdead : ownRecords runId history poll.file ≠ [] ∧ poll.alive = false ∧
          poll.lockFile = true
      · rw [if_pos hdead] at hend ⊢
        exact followsFrom_iff_of_ended hend.symm (by rw [hend]; exact fun h ↦ by cases h) hthrough
      rw [if_neg hdead] at hend ⊢
      by_cases hlate : poll.late = true
      · rw [if_pos hlate] at hend ⊢
        exact followsFrom_iff_of_ended hend.symm (by rw [hend]; exact fun h ↦ by cases h) hthrough
      rw [if_neg hlate] at hend ⊢
      rw [Bool.not_eq_true] at hstop
      rw [throughStop_eq_self hstop] at hthrough ⊢
      rw [forall_prop_of_true hend]
      cases rest with
      | nil =>
        refine iff_of_true (followsFrom_ended hend.symm (fun _ ↦ rfl) ?_) ?_
        · rw [followFrom, List.append_nil]
          exact hthrough
        · intro waited p later heq
          exact absurd heq (by simp)
      | cons next rest =>
        have hnext : ownRecords runId history poll.file <+: ownRecords runId history next.file :=
          ownRecords_grows (List.isChain_cons_cons.mp hpolls.grows).1
        rw [followsFrom_cons (List.cons_ne_nil next rest) hend, hown]
        exact followFrom_iff hw hschema hpolls.tail (List.cons_ne_nil next rest)
          (fun p hp ↦ by rw [← Option.some.inj hp]; exact hnext) (hstops.trans hstop)
    · rw [hread]
      refine iff_of_false ?_ fun h ↦ hlegible h.1
      rintro ⟨waited, last, later, -, -, hended, -⟩
      exact endAt_ne_raised e hended.symm

/-- **Following a log loses nothing exactly where its polls find it legible**: none that the call
gets to meets a file that ends inside a character, or that holds one of the line breaks that the
writer copies before its last character. -/
theorem follows_iff (hid : isRunId runId = true) (hw : ∀ r ∈ history, r.Writable)
    (hschema : ∀ r ∈ history, isOf runId r.fields = true →
      getOrNull r.fields "schema" = .str EVENT_SCHEMA)
    (hpolls : Polls history polls) (hne : polls ≠ []) :
    Follows runId history polls ↔ AlwaysLegible runId history polls := by
  rw [Follows, followEvents, if_neg (by rw [hid]; exact Bool.false_ne_true.symm)]
  exact followFrom_iff hw hschema hpolls hne (fun p _ ↦ List.nil_prefix) rfl

/-! ## A character written in two parts

A poll between the two bytes of a character, and that it raises. -/

/-- The log of one event with a letter beyond ASCII in its note, as far as it is written. -/
def partOfNote (size : ℕ) : Poll :=
  ⟨true, some ((utf8 (logText [noteEvent 0xE9])).take size), true, false⟩

theorem writable_note : ∀ r ∈ [noteEvent 0xE9], r.Writable := by
  rintro r (_ | ⟨_, h⟩)
  · exact ⟨by decide, by decide⟩
  · cases h

theorem schema_note : ∀ r ∈ [noteEvent 0xE9], isOf (str "r") r.fields = true →
    getOrNull r.fields "schema" = .str EVENT_SCHEMA := by
  rintro r (_ | ⟨_, h⟩) -
  · rfl
  · cases h

theorem polls_note {sizes : List ℕ} (h : sizes.IsChain (· ≤ ·)) :
    Polls [noteEvent 0xE9] (sizes.map partOfNote) where
  grows := List.isChain_map _ |>.mpr (h.imp fun _ _ hle ↦ List.take_prefix_take_left hle)
  ofHistory p hp := by
    obtain ⟨size, -, rfl⟩ := List.mem_map.mp hp
    exact List.take_prefix _ _

/-- The first of two polls meets the first of the two bytes of the letter: it raises. -/
theorem partOfNote_lost : ¬ ∀ runId history polls, isRunId runId = true →
    (∀ r ∈ history, r.Writable) →
    (∀ r ∈ history, isOf runId r.fields = true →
      getOrNull r.fields "schema" = .str EVENT_SCHEMA) →
    Polls history polls → polls ≠ [] → Follows runId history polls := by
  intro h
  obtain ⟨waited, last, later, -, -, hended, -⟩ := h (str "r") [noteEvent 0xE9]
    ([105, 400].map partOfNote) (by decide) writable_note schema_note (polls_note (by simp))
    (by simp)
  have hcut : recordsOf (str "r") (partOfNote 105).file = .error .valueError := by
    have hdecode : decode ((utf8 (logText [noteEvent 0xE9])).take 105) = none := by decide +kernel
    rw [partOfNote, recordsOf, readJsonl, hdecode]
  have hraised : (followEvents (str "r") ([105, 400].map partOfNote)).ended =
    .raised .valueError := by
    rw [followEvents, if_neg (by decide), List.map_cons, followFrom, hcut]
  exact endAt_ne_raised _ (hended.symm.trans hraised)

/-- The first of two polls meets the byte before them. -/
theorem follows_iff_partOfNote :
    Follows (str "r") [noteEvent 0xE9] ([104, 400].map partOfNote) ↔
      AlwaysLegible (str "r") [noteEvent 0xE9] ([104, 400].map partOfNote) :=
  follows_iff (by decide) writable_note schema_note (polls_note (by simp)) (by simp)

end HostApi

end AtlasCore
