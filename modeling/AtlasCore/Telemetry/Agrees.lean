import AtlasCore.EventLog.Pairing
import AtlasCore.Telemetry.Metrics
import Mathlib.Algebra.BigOperators.Ring.Finset

/-!
# Two readings of one history

`run_metrics` counts calls with a counter for each kind, `call_states` keeps the state of each call,
and `_validate_history` has already gone through the same records to see that they belong together.
What the three know of a beginning of the history is related by `Readings`, which one more record
keeps (`Readings.step`); so the counters are the numbers of calls in each state.
-/

set_option autoImplicit false

namespace AtlasCore

open Py

namespace Telemetry

open EventLog (callStates_concat callStep_started callStep_finished callStep_other)
open Inspect (isKind ReadEvent validateHistory eventLog eventFromRecord checkRecord reportOn)

/-! ## The table of calls

What the table says of a kind and a state, and how counting one more call changes it. -/

/-- How many calls of a kind are in a state, as the table has it. -/
def CallTable.get (calls : CallTable) (kind : CallKind) (state : Option CallOutcome) : ℤ :=
  ((calls.find? fun p ↦ p.1 = kind).map fun p ↦ p.2.get state).getD 0

section table

variable {calls : CallTable} {kind : CallKind} {state s : Option CallOutcome} {n : ℤ}

theorem CallCounts.get_add (counts : CallCounts) :
    (counts.add state n).get s = counts.get s + if state = s then n else 0 := by
  rcases state with _ | _ | _ | _ <;> rcases s with _ | _ | _ | _ <;> simp [add, get]

theorem CallTable.keys_add : (calls.add kind state n).map Prod.fst = calls.map Prod.fst := by
  rw [add, List.map_map]
  refine List.map_congr_left fun p _ ↦ ?_
  rw [Function.comp_apply]
  split_ifs <;> rfl

theorem CallTable.any_eq_true : (calls.any fun p ↦ p.1 = kind) = true ↔
    kind ∈ calls.map Prod.fst := by
  simp [List.any_eq_true]

theorem CallTable.keys_ensure : (calls.ensure kind).map Prod.fst =
    if kind ∈ calls.map Prod.fst then calls.map Prod.fst else calls.map Prod.fst ++ [kind] := by
  rw [ensure]
  by_cases h : kind ∈ calls.map Prod.fst
  · rw [if_pos (any_eq_true.mpr h), if_pos h]
  · rw [if_neg (fun hany ↦ h (any_eq_true.mp hany)), if_neg h, List.map_append]
    rfl

/-- Every entry that was counted up was an entry. -/
theorem CallTable.mem_add {p : CallKind × CallCounts} (h : p ∈ calls.add kind state n) :
    ∃ q ∈ calls, p.1 = q.1 ∧
      ∀ s, p.2.get s = q.2.get s + if kind = q.1 ∧ state = s then n else 0 := by
  obtain ⟨q, hq, rfl⟩ := List.mem_map.mp h
  refine ⟨q, hq, ?_⟩
  by_cases hk : q.1 = kind
  · rw [if_pos hk]
    exact ⟨rfl, fun s ↦ by simp [CallCounts.get_add, hk]⟩
  · rw [if_neg hk]
    exact ⟨rfl, fun s ↦ by simp [Ne.symm hk]⟩

theorem CallTable.mem_ensure {p : CallKind × CallCounts} (h : p ∈ calls.ensure kind) :
    p ∈ calls ∨ kind ∉ calls.map Prod.fst ∧ p.1 = kind ∧ ∀ s, p.2.get s = 0 := by
  rw [ensure] at h
  split_ifs at h with hany
  · exact .inl h
  · rcases List.mem_append.mp h with h | h
    · exact .inl h
    · rw [List.mem_singleton] at h
      refine .inr ⟨fun hmem ↦ hany (any_eq_true.mpr hmem), by rw [h], fun s ↦ ?_⟩
      rw [h]
      rcases s with _ | _ | _ | _ <;> rfl

/-- An entry is what the table says of its kind. -/
theorem CallTable.get_of_mem (hkeys : (calls.map Prod.fst).Nodup) {p : CallKind × CallCounts}
    (h : p ∈ calls) : calls.get p.1 s = p.2.get s := by
  have hfind : (calls.find? fun q ↦ q.1 = p.1) = some p := by
    induction calls with
    | nil => cases h
    | cons q rest ih =>
      rw [List.map_cons, List.nodup_cons] at hkeys
      rw [List.find?_cons]
      rcases List.mem_cons.mp h with rfl | h
      · simp
      · have hne : q.1 ≠ p.1 := fun hq ↦ hkeys.1 (hq ▸ List.mem_map_of_mem h)
        simpa [hne] using ih hkeys.2 h
  rw [get, hfind]
  rfl

theorem CallTable.get_of_notMem (h : kind ∉ calls.map Prod.fst) : calls.get kind s = 0 := by
  have hfind : (calls.find? fun q ↦ q.1 = kind) = none := by
    rw [List.find?_eq_none]
    intro q hq hk
    exact h (List.mem_map.mpr ⟨q, hq, by simpa using hk⟩)
  rw [get, hfind]
  rfl

end table

theorem sum_indicator {κ : Type*} [DecidableEq κ] (k₀ : κ) (keys : List κ) :
    (keys.map fun k ↦ if k₀ = k then 1 else 0).sum = keys.count k₀ := by
  induction keys with
  | nil => rfl
  | cons k keys ih =>
    rw [List.map_cons, List.sum_cons, ih, List.count_cons, add_comm]
    by_cases h : k₀ = k
    · simp [h]
    · simp [h, Ne.symm h]

/-- Counting class by class is counting. -/
theorem sum_countP_fiber {α κ : Type*} [DecidableEq κ] {keys : List κ} (hkeys : keys.Nodup)
    (f : α → Option κ) (P : α → Bool) : ∀ {xs : List α}, (∀ x ∈ xs, ∃ k ∈ keys, f x = some k) →
    (keys.map fun k ↦ xs.countP fun x ↦ decide (f x = some k) && P x).sum = xs.countP P
  | [], _ => by simp
  | x :: xs, h => by
    obtain ⟨k₀, hk₀, hx⟩ := h x List.mem_cons_self
    have hrest := sum_countP_fiber hkeys f P fun y hy ↦ h y (List.mem_cons_of_mem x hy)
    simp only [List.countP_cons, List.sum_map_add, hrest, hx, Option.some.injEq]
    congr 1
    cases P x with
    | false => simp
    | true =>
      simpa [List.count_eq_one_of_mem hkeys hk₀] using sum_indicator k₀ keys

/-! ## A record and the event it is read as -/

variable {rt : Runtime} {runId : Str}

/-- The record is one whose payload is an object, and the event is what the log makes of it. -/
structure Holds (rt : Runtime) (record : Fields) (e : Event) : Prop where
  run : strOr rt record "run_id" [] = e.runId
  kind : getOrNull record "kind" = .str e.kind.text
  call : ∀ id, getOrNull record "call_id" = .str id → e.callId = some id
  object : payload record = .obj e.payload
  started : e.kind = .callStarted →
    ∃ kind : CallKind, getOrNull e.payload "call_kind" = .str kind.text
  finished : e.kind = .callFinished →
    ∃ outcome : CallOutcome, getOrNull e.payload "outcome" = .str outcome.text

theorem Holds.isKind_eq {record : Fields} {e : Event} (h : Holds rt record e) (kind : EventKind) :
    isKind kind record = decide (e.kind = kind) := by
  rw [isKind, h.kind, isText]
  exact decide_eq_decide.mpr ⟨fun ht ↦ EventKind.text_injective ht, fun hk ↦ hk ▸ rfl⟩

theorem Holds.get_eq {record : Fields} {e : Event} (h : Holds rt record e) (key : String) :
    get (payload record) key = .ok (getOrNull e.payload key) := by
  rw [h.object]
  rfl

/-- No number is written like the kind of an event. -/
theorem decimalInt_ne_text (z : ℤ) (kind : EventKind) : decimalInt z ≠ kind.text := by
  obtain ⟨c, hc, hminus, hdigit⟩ : ∃ c, kind.text.head? = some c ∧ c ≠ ch '-' ∧
    digitOf c = none := by
    cases kind <;> exact ⟨_, rfl, by decide, by decide⟩
  intro h
  obtain ⟨d, t, hd⟩ := Json.decimal_cons z.natAbs
  rw [← h, decimalInt] at hc
  split at hc
  · exact hminus (Option.some.inj hc).symm
  · rw [hd, List.head?_cons, Option.some.injEq] at hc
    rw [← hc, digitOf_digitChar] at hdigit
    cases hdigit

theorem text_notMem (kind : EventKind) :
    kind.text ∉ [[], str "None", str "True", str "False"] := by
  cases kind <;> decide

/-- What a log takes for a kind was that text, if `str` makes no kind of anything else. -/
theorem kind_of_strOr (hstr : ∀ v (kind : EventKind), rt.strOf v ≠ kind.text) {record : Fields}
    {kind : EventKind} (h : strOr rt record "kind" [] = kind.text) :
    getOrNull record "kind" = .str kind.text := by
  have hword : ∀ s ∈ [[], str "None", str "True", str "False"], s ≠ kind.text := by
    rintro s hs rfl
    exact text_notMem kind hs
  rw [strOr] at h
  rw [getOrNull]
  cases hl : Json.lookup (str "kind") record with
  | none =>
    rw [hl] at h
    exact absurd h (hword _ (by simp))
  | some v =>
    rw [hl] at h
    cases v with
    | str s => rw [← h]; rfl
    | null => exact absurd h (hword (str "None") (by simp))
    | bool b =>
      cases b with
      | true => exact absurd h (hword (str "True") (by simp))
      | false => exact absurd h (hword (str "False") (by simp))
    | int z => exact absurd h (decimalInt_ne_text z kind)
    | float f => exact absurd h (hstr _ kind)
    | arr items => exact absurd h (hstr _ kind)
    | obj fields => exact absurd h (hstr _ kind)

theorem word_of_payloadIn {α : Type} {text : α → Str} {known : List α} {payload : Fields}
    {key : String} (h : payloadIn payload key (known.map text) = true) :
    ∃ k, getOrNull payload key = .str (text k) := by
  rw [payloadIn] at h
  split at h
  · rename_i s hs
    obtain ⟨k, -, rfl⟩ := List.mem_map.mp (of_decide_eq_true h)
    exact ⟨k, hs⟩
  · cases h

/-- **What the log makes of a record** whose payload is an object. -/
theorem holds_of_read (hstr : ∀ v (kind : EventKind), rt.strOf v ≠ kind.text) {record : Fields}
    {fields : Fields} (hobj : Json.lookup (str "payload") record = some (.obj fields))
    {e : ReadEvent} (h : eventFromRecord rt record = .ok e) : Holds rt record e.toEvent := by
  rw [eventFromRecord] at h
  split at h
  · cases h
  obtain ⟨sequence, -, h⟩ := Except.bind_eq_ok.mp h
  obtain ⟨iteration, -, h⟩ := Except.bind_eq_ok.mp h
  obtain ⟨payload, hpayload, h⟩ := Except.bind_eq_ok.mp h
  rw [hobj] at hpayload
  obtain rfl := Except.ok.inj hpayload
  rw [Inspect.postInit] at h
  split at h
  · cases h
  · rename_i kind hkind
    split_ifs at h with h1 h2 h3 h4 h5 h6 h7 h8
    obtain rfl := Except.ok.inj h
    have htext : strOr rt record "kind" [] = kind.text := by
      have hfound := List.find?_some hkind
      exact (by simpa using hfound : kind.text = _).symm
    refine ⟨rfl, kind_of_strOr hstr htext, fun id hid ↦ ?_, ?_, fun hk ↦ ?_, fun hk ↦ ?_⟩
    · rw [hid]
      rfl
    · rw [Telemetry.payload, hobj]
      rfl
    · have hin := not_and.mp h6 (show kind = .callStarted from hk)
      exact word_of_payloadIn (of_not_not hin : payloadIn fields _ _ = true)
    · have hin := not_and.mp h8 (show kind = .callFinished from hk)
      exact word_of_payloadIn (of_not_not hin : payloadIn fields _ _ = true)

/-- **What `_validate_history` does with one record**: it remembers a call that was started or
finished, once each and in this order. -/
theorem checkRecord_cases {calls calls' : Inspect.Calls} {record : Fields}
    (h : checkRecord rt runId calls record = .ok calls') :
    (isKind .callStarted record = true ∧ ∃ id, getOrNull record "call_id" = .str id ∧
      id ∉ calls.started ∧ calls' = { calls with started := id :: calls.started }) ∨
    (isKind .callFinished record = true ∧ ∃ id, getOrNull record "call_id" = .str id ∧
      id ∈ calls.started ∧ id ∉ calls.finished ∧
      calls' = { calls with finished := id :: calls.finished }) ∨
    (isKind .callStarted record = false ∧ isKind .callFinished record = false ∧
      calls' = calls) := by
  obtain ⟨payload, -, h⟩ := Except.bind_eq_ok.mp h
  cases hs : isKind .callStarted record with
  | true =>
    rw [if_pos hs] at h
    obtain ⟨id, hid, h⟩ := Except.bind_eq_ok.mp h
    obtain ⟨place, -, h⟩ := Except.bind_eq_ok.mp h
    by_cases hne : id ≠ place
    · rw [if_pos hne] at h
      cases h
    · rw [if_neg hne] at h
      by_cases hmem : id ∈ calls.started
      · simp only [if_pos hmem] at h
        cases h
      · simp only [if_neg hmem] at h
        obtain rfl := Except.ok.inj h
        exact .inl ⟨rfl, id, Inspect.nonemptyText_eq_ok hid, hmem, rfl⟩
  | false =>
    rw [hs, if_neg (by simp)] at h
    cases hf : isKind .callFinished record with
    | true =>
      rw [if_pos hf] at h
      obtain ⟨id, hid, h⟩ := Except.bind_eq_ok.mp h
      by_cases hstarted : id ∉ calls.started
      · rw [if_pos hstarted] at h
        cases h
      · rw [if_neg hstarted] at h
        by_cases hfinished : id ∈ calls.finished
        · simp only [if_pos hfinished] at h
          cases h
        · simp only [if_neg hfinished] at h
          obtain rfl := Except.ok.inj h
          exact .inr (.inl ⟨rfl, id, Inspect.nonemptyText_eq_ok hid, not_not.mp hstarted,
            hfinished, rfl⟩)
    | false =>
      rw [hf, if_neg (by simp)] at h
      -- a record of another kind is checked alone
      refine .inr (.inr ⟨rfl, rfl, ?_⟩)
      split at h
      · obtain ⟨_, -, h⟩ := Except.bind_eq_ok.mp h
        obtain ⟨_, -, h⟩ := Except.bind_eq_ok.mp h
        obtain ⟨_, -, h⟩ := Except.bind_eq_ok.mp h
        obtain ⟨_, -, h⟩ := Except.bind_eq_ok.mp h
        obtain ⟨_, -, h⟩ := Except.bind_eq_ok.mp h
        obtain ⟨_, -, h⟩ := Except.bind_eq_ok.mp h
        exact (Except.ok.inj h).symm
      · split at h
        · obtain ⟨_, -, h⟩ := Except.bind_eq_ok.mp h
          obtain ⟨_, -, h⟩ := Except.bind_eq_ok.mp h
          obtain ⟨_, -, h⟩ := Except.bind_eq_ok.mp h
          obtain ⟨_, -, h⟩ := Except.bind_eq_ok.mp h
          exact (Except.ok.inj h).symm
        · split at h
          · obtain ⟨route, -, h⟩ := Except.bind_eq_ok.mp h
            split at h
            · exact (Except.ok.inj h).symm
            · exact (Except.ok.inj h).symm
            · obtain ⟨_, -, h⟩ := Except.bind_eq_ok.mp h
              exact (Except.ok.inj h).symm
          · split at h
            · obtain ⟨_, -, h⟩ := Except.bind_eq_ok.mp h
              exact (Except.ok.inj h).symm
            · exact (Except.ok.inj h).symm

/-! ## The three readings of a beginning

How a call was started is read in three places, for the table, for the count and for the totals. -/

/-- The kind a call was started with, by the first event that starts it. -/
def startedKind (events : List Event) (id : Str) : Option CallKind :=
  events.findSome? fun e ↦
    if e.kind = .callStarted ∧ e.callId = some id then
      enum callKind (getOrNull e.payload "call_kind")
    else none

/-- How many calls of a kind `call_states` has in a state. -/
def callsIn (events : List Event) (kind : CallKind) (state : Option CallOutcome) : ℕ :=
  (callStates events).countP fun p ↦
    decide (startedKind events p.1 = some kind) && decide (p.2 = state)

/-- What the validation, `run_metrics` and `call_states` know after some events. -/
structure Readings (events : List Event) (calls : Inspect.Calls) (fold : CallFold) : Prop where
  once : ((callStates events).map Prod.fst).Nodup
  started : ∀ id, id ∈ calls.started ↔ id ∈ (callStates events).map Prod.fst
  unfinished : ∀ id ∈ calls.started, id ∉ calls.finished → (id, none) ∈ callStates events
  kinds : ∀ id ∈ calls.started, ∃ kind ∈ fold.calls.map Prod.fst, startedKind events id = some kind
  lookup : ∀ id, fold.started.lookup id = startedKind events id
  unknown : ∀ id ∉ calls.started, startedKind events id = none
  table : (fold.calls.map Prod.fst).Nodup
  counts : ∀ p ∈ fold.calls, ∀ state, p.2.get state = callsIn events p.1 state

theorem callKind_text (kind : CallKind) : callKind kind.text = some kind := by
  cases kind <;> decide

theorem readings_nil : Readings [] ⟨[], []⟩ {} where
  once := List.nodup_nil
  started _ := Iff.rfl
  unfinished _ h := absurd h List.not_mem_nil
  kinds _ h := absurd h List.not_mem_nil
  lookup _ := rfl
  unknown _ _ := rfl
  table := List.nodup_nil
  counts _ h := absurd h List.not_mem_nil

section step

variable {events : List Event} {calls : Inspect.Calls} {fold : CallFold} {e : Event} {id : Str}

theorem startedKind_concat_of_isSome (h : (startedKind events id).isSome) :
    startedKind (events ++ [e]) id = startedKind events id := by
  rw [startedKind, List.findSome?_append]
  exact Option.or_of_isSome h

theorem startedKind_concat_of_ne (h : e.kind = .callStarted → e.callId ≠ some id) :
    startedKind (events ++ [e]) id = startedKind events id := by
  rw [startedKind, List.findSome?_append, List.findSome?_singleton, if_neg fun hk ↦ h hk.1 hk.2,
    Option.or_none]
  rfl

theorem startedKind_concat_self {kind : CallKind} (hnone : startedKind events id = none)
    (hk : e.kind = .callStarted) (hid : e.callId = some id)
    (hkind : getOrNull e.payload "call_kind" = .str kind.text) :
    startedKind (events ++ [e]) id = some kind := by
  rw [startedKind, List.findSome?_append, ← startedKind, hnone, Option.none_or,
    List.findSome?_singleton, if_pos ⟨hk, hid⟩, hkind, enum, callKind_text]

theorem Readings.mem_started (h : Readings events calls fold) {p : Str × Option CallOutcome}
    (hp : p ∈ callStates events) : p.1 ∈ calls.started :=
  (h.started p.1).mpr (List.mem_map_of_mem hp)

/-- No call has a kind that the table does not have. -/
theorem Readings.callsIn_eq_zero (h : Readings events calls fold) {kind : CallKind}
    (hkind : kind ∉ fold.calls.map Prod.fst) (state : Option CallOutcome) :
    callsIn events kind state = 0 := by
  rw [callsIn, List.countP_eq_zero]
  intro p hp hcount
  obtain ⟨k, hk, hstarted⟩ := h.kinds p.1 (h.mem_started hp)
  simp only [hstarted, Option.some.injEq, Bool.and_eq_true, decide_eq_true_eq] at hcount
  exact hkind (hcount.1 ▸ hk)

/-- The kinds of the calls that were started stay what they are. -/
theorem Readings.startedKind_concat (h : Readings events calls fold) (hid : id ∈ calls.started) :
    startedKind (events ++ [e]) id = startedKind events id := by
  obtain ⟨k, -, hk⟩ := h.kinds id hid
  exact startedKind_concat_of_isSome (by rw [hk]; rfl)

/-- **One more call.** -/
theorem Readings.start (h : Readings events calls fold) {kind : CallKind}
    (hk : e.kind = .callStarted) (hid : e.callId = some id) (hnew : id ∉ calls.started)
    (hkind : getOrNull e.payload "call_kind" = .str kind.text) :
    Readings (events ++ [e]) { calls with started := id :: calls.started }
      ⟨(fold.calls.ensure kind).add kind none 1, (id, kind) :: fold.started⟩ := by
  have hstates : callStates (events ++ [e]) = callStates events ++ [(id, none)] := by
    rw [callStates_concat, callStep_started hk hid]
    rintro ⟨state, hmem⟩
    exact hnew (h.mem_started hmem)
  have hself := startedKind_concat_self (h.unknown id hnew) hk hid hkind
  have hother : ∀ other, other ≠ id →
    startedKind (events ++ [e]) other = startedKind events other :=
    fun other hne ↦ startedKind_concat_of_ne fun _ hcall ↦
      hne (Option.some.inj (hcall.symm.trans hid))
  have hcount : ∀ k state, callsIn (events ++ [e]) k state =
      callsIn events k state + if kind = k ∧ none = state then 1 else 0 := by
    intro k state
    rw [callsIn, callsIn, hstates, List.countP_append, List.countP_singleton, hself]
    congr 1
    · refine List.countP_congr fun p hp ↦ ?_
      rw [h.startedKind_concat (h.mem_started hp)]
    · simp
  refine ⟨?_, fun other ↦ ?_, fun other hs hf ↦ ?_, fun other hs ↦ ?_, fun other ↦ ?_,
    fun other hs ↦ ?_, ?_, fun p hp state ↦ ?_⟩
  · rw [hstates, List.map_append, List.nodup_append']
    refine ⟨h.once, List.nodup_singleton _, fun x hx hx' ↦ ?_⟩
    obtain rfl := List.mem_singleton.mp hx'
    exact hnew ((h.started x).mpr hx)
  · rw [hstates, List.map_append, List.mem_append, List.mem_cons, h.started, or_comm]
    simp
  · rw [hstates, List.mem_append]
    rcases List.mem_cons.mp hs with rfl | hs
    · exact .inr (List.mem_singleton.mpr rfl)
    · exact .inl (h.unfinished other hs hf)
  · rw [CallTable.keys_add, CallTable.keys_ensure]
    by_cases heq : other = id
    · refine ⟨kind, ?_, heq ▸ hself⟩
      split_ifs with hmem
      · exact hmem
      · simp
    · obtain ⟨k, hmem, hother'⟩ := h.kinds other ((List.mem_cons.mp hs).resolve_left heq)
      refine ⟨k, ?_, (hother other heq).trans hother'⟩
      split_ifs
      · exact hmem
      · exact List.mem_append_left _ hmem
  · rw [List.lookup_cons]
    by_cases heq : other = id
    · rw [heq, hself, beq_self_eq_true]
    · rw [hother other heq, ← h.lookup, beq_eq_false_iff_ne.mpr heq]
  · rw [List.mem_cons, not_or] at hs
    rw [hother other hs.1, h.unknown other hs.2]
  · rw [CallTable.keys_add, CallTable.keys_ensure]
    split_ifs with hmem
    · exact h.table
    · rw [List.nodup_append']
      refine ⟨h.table, List.nodup_singleton _, fun k hk hk' ↦ ?_⟩
      exact hmem (List.mem_singleton.mp hk' ▸ hk)
  · obtain ⟨q, hq, hfst, hget⟩ := CallTable.mem_add hp
    rw [hget, hfst, hcount]
    have hold : q.2.get state = callsIn events q.1 state := by
      rcases CallTable.mem_ensure hq with hq | ⟨hnot, hqk, hzero⟩
      · exact h.counts q hq state
      · rw [hzero, hqk, h.callsIn_eq_zero hnot]
        rfl
    rw [hold]
    push_cast
    rfl

/-- Counting after the state of one call changed. -/
theorem countP_update (f : Str × Option CallOutcome → Bool) (outcome : CallOutcome) :
    ∀ {states : CallStates}, (states.map Prod.fst).Nodup → (id, none) ∈ states →
      (((states.map fun p ↦ if p.1 = id then (id, some outcome) else p).countP f : ℕ) : ℤ) =
        states.countP f - (if f (id, none) then 1 else 0) + if f (id, some outcome) then 1 else 0
  | [], _, h => absurd h List.not_mem_nil
  | p :: rest, hkeys, h => by
    rw [List.map_cons, List.nodup_cons] at hkeys
    rw [List.map_cons, List.countP_cons, List.countP_cons]
    rcases List.mem_cons.mp h with rfl | h
    · have hrest : (rest.map fun p ↦ if p.1 = id then (id, some outcome) else p) = rest := by
        refine (List.map_congr_left fun q hq ↦ ?_).trans (List.map_id rest)
        have hne : q.1 ≠ id := fun heq ↦ hkeys.1 (List.mem_map.mpr ⟨q, hq, heq⟩)
        rw [if_neg hne, id_eq]
      rw [hrest, if_pos rfl]
      push_cast
      omega
    · have hne : p.1 ≠ id := fun heq ↦ hkeys.1 (List.mem_map.mpr ⟨_, h, heq.symm⟩)
      rw [if_neg hne]
      have ih := countP_update f outcome hkeys.2 h
      push_cast
      omega

/-- **The end of a call.** -/
theorem Readings.finish (h : Readings events calls fold) {outcome : CallOutcome}
    (hk : e.kind = .callFinished) (hid : e.callId = some id) (hs : id ∈ calls.started)
    (hf : id ∉ calls.finished) (ho : getOrNull e.payload "outcome" = .str outcome.text) :
    ∃ kind, fold.started.lookup id = some kind ∧
      Readings (events ++ [e]) { calls with finished := id :: calls.finished }
        { fold with calls := (fold.calls.add kind none (-1)).add kind (some outcome) 1 } := by
  obtain ⟨kind, hmem, hkind⟩ := h.kinds id hs
  have hopen : (id, none) ∈ callStates events := h.unfinished id hs hf
  have hstates : callStates (events ++ [e]) =
      (callStates events).map fun p ↦ if p.1 = id then (id, some outcome) else p := by
    rw [callStates_concat, callStep_finished hk hid ⟨none, hopen⟩ ho]
  have hsame : ∀ other, startedKind (events ++ [e]) other = startedKind events other :=
    fun other ↦ startedKind_concat_of_ne fun hs ↦ by rw [hk] at hs; cases hs
  have hkeys : (callStates (events ++ [e])).map Prod.fst = (callStates events).map Prod.fst := by
    rw [hstates, List.map_map]
    refine List.map_congr_left fun p _ ↦ ?_
    rw [Function.comp_apply]
    split_ifs with heq
    · exact heq.symm
    · rfl
  have hcount : ∀ k state, (callsIn (events ++ [e]) k state : ℤ) = callsIn events k state +
      (if kind = k ∧ none = state then -1 else 0) +
        if kind = k ∧ some outcome = state then 1 else 0 := by
    intro k state
    rw [callsIn, callsIn, hstates, countP_update _ outcome h.once hopen]
    simp only [hsame, hkind, Option.some.injEq, Bool.and_eq_true, decide_eq_true_eq]
    split_ifs <;> omega
  refine ⟨kind, (h.lookup id).trans hkind, ?_, fun other ↦ ?_, fun other hs hf ↦ ?_,
    fun other hs ↦ ?_,
    fun other ↦ ?_, fun other hs ↦ ?_, ?_, fun p hp state ↦ ?_⟩
  · rw [hkeys]
    exact h.once
  · rw [hkeys]
    exact h.started other
  · rw [List.mem_cons, not_or] at hf
    rw [hstates]
    exact List.mem_map.mpr ⟨_, h.unfinished other hs hf.2, if_neg hf.1⟩
  · rw [CallTable.keys_add, CallTable.keys_add, hsame]
    exact h.kinds other hs
  · rw [hsame]
    exact h.lookup other
  · rw [hsame]
    exact h.unknown other hs
  · rw [CallTable.keys_add, CallTable.keys_add]
    exact h.table
  · obtain ⟨q, hq, hfst, hget⟩ := CallTable.mem_add hp
    obtain ⟨q', hq', hfst', hget'⟩ := CallTable.mem_add hq
    rw [hget, hget', h.counts q' hq' state, hfst, hfst', hcount]

/-- Any other event. -/
theorem Readings.other (h : Readings events calls fold) (hs : e.kind ≠ .callStarted)
    (hf : e.kind ≠ .callFinished) : Readings (events ++ [e]) calls fold := by
  have hstates : callStates (events ++ [e]) = callStates events := by
    rw [callStates_concat, callStep_other _ hs hf]
  have hsame : startedKind (events ++ [e]) = startedKind events :=
    funext fun other ↦ startedKind_concat_of_ne fun hk ↦ absurd hk hs
  refine ⟨?_, ?_, ?_, ?_, ?_, ?_, h.table, fun p hp state ↦ ?_⟩
  · rw [hstates]
    exact h.once
  · rw [hstates]
    exact h.started
  · rw [hstates]
    exact h.unfinished
  · rw [hsame]
    exact h.kinds
  · rw [hsame]
    exact h.lookup
  · rw [hsame]
    exact h.unknown
  · rw [h.counts p hp, callsIn, callsIn, hstates, hsame]

/-- **One record more**, in all three readings. -/
theorem Readings.step (h : Readings events calls fold) {record : Fields} (hr : Holds rt record e)
    {calls' : Inspect.Calls} (hcheck : checkRecord rt runId calls record = .ok calls') :
    ∃ fold', countCall rt fold record = .ok fold' ∧ Readings (events ++ [e]) calls' fold' := by
  rcases checkRecord_cases hcheck with ⟨hs, id, hid, hnew, rfl⟩ | ⟨hf, id, hid, hstarted, hopen,
    rfl⟩ |
    ⟨hs, hf, rfl⟩
  · have hk : e.kind = .callStarted := by simpa [hr.isKind_eq] using hs
    obtain ⟨kind, hkind⟩ := hr.started hk
    refine ⟨_, ?_, h.start hk (hr.call id hid) hnew hkind⟩
    have hword : enum callKind (.str kind.text) = some kind := by rw [enum, callKind_text]
    rw [countCall, if_pos hs, hr.get_eq, hkind, hid]
    exact Except.bind_eq_ok.mpr ⟨_, rfl, by rw [hword]; rfl⟩
  · have hk : e.kind = .callFinished := by simpa [hr.isKind_eq] using hf
    have hs : isKind .callStarted record = false := by simp [hr.isKind_eq, hk]
    obtain ⟨outcome, ho⟩ := hr.finished hk
    obtain ⟨kind, hlookup, hnext⟩ := h.finish hk (hr.call id hid) hstarted hopen ho
    refine ⟨_, ?_, hnext⟩
    have hword : enum CallOutcome.ofText (.str outcome.text) = some outcome := by
      rw [enum, EventLog.CallOutcome.ofText_text]
    rw [countCall, hs, if_neg (by simp), if_pos hf, hr.get_eq, hid, ho, strValue, hlookup]
    exact Except.bind_eq_ok.mpr ⟨_, rfl, by rw [hword]; rfl⟩
  · refine ⟨fold, ?_, h.other ?_ ?_⟩
    · rw [countCall, hs, hf]
      rfl
    · simpa [hr.isKind_eq] using hs
    · simpa [hr.isKind_eq] using hf

/-- **The whole history**, from its beginning on. -/
theorem Readings.run {records : List Fields} {after : List Event}
    (hr : List.Forall₂ (Holds rt) records after) :
      ∀ {events : List Event} {calls calls' : Inspect.Calls}
      {fold : CallFold}, Readings events calls fold →
      records.foldlM (checkRecord rt runId) calls = .ok calls' →
      ∃ fold', records.foldlM (countCall rt) fold = .ok fold' ∧
        Readings (events ++ after) calls' fold' := by
  induction hr with
  | nil =>
    intro events calls calls' fold h hcheck
    obtain rfl := Except.ok.inj hcheck
    exact ⟨fold, rfl, by rwa [List.append_nil]⟩
  | @cons record e records after hre _ ih =>
    intro events calls calls' fold h hcheck
    rw [List.foldlM_cons] at hcheck
    obtain ⟨next, hnext, hcheck⟩ := Except.bind_eq_ok.mp hcheck
    obtain ⟨fold', hfold', h'⟩ := h.step hre hnext
    obtain ⟨fold'', hfold'', h''⟩ := ih h' hcheck
    refine ⟨fold'', ?_, by rwa [List.append_assoc] at h''⟩
    rw [List.foldlM_cons]
    exact Except.bind_eq_ok.mpr ⟨fold', hfold', hfold''⟩

/-- A loop whose body does not raise does not raise. -/
theorem foldlM_ok {β : Type} {f : β → Fields → Except Exc β} {records : List Fields}
    (h : ∀ acc, ∀ r ∈ records, ∃ acc', f acc r = .ok acc') (acc : β) :
    ∃ acc', records.foldlM f acc = .ok acc' := by
  induction records generalizing acc with
  | nil => exact ⟨acc, rfl⟩
  | cons r records ih =>
    obtain ⟨acc', hacc⟩ := h acc r List.mem_cons_self
    obtain ⟨acc'', hrest⟩ := ih (fun acc r hr ↦ h acc r (List.mem_cons_of_mem _ hr)) acc'
    rw [List.foldlM_cons]
    exact ⟨acc'', Except.bind_eq_ok.mpr ⟨acc', hacc, hrest⟩⟩

theorem Holds.countVerdicts_ok {record : Fields} (hr : Holds rt record e) (counter : Verdict → ℕ) :
    ∃ counter', countVerdicts counter record = .ok counter' := by
  rw [countVerdicts, hr.get_eq]
  split_ifs
  · cases getOrNull e.payload "citation_verdicts" <;> exact ⟨_, rfl⟩
  · exact ⟨counter, rfl⟩

theorem Holds.countApproval_ok {record : Fields} (hr : Holds rt record e)
    (acc : List (Str × ℕ) × Writes) : ∃ acc', countApproval acc record = .ok acc' := by
  rw [countApproval, hr.get_eq, hr.get_eq, hr.get_eq]
  split_ifs
  · cases hword : enum decision (getOrNull e.payload "decision") with
    | none => exact ⟨_, Except.bind_eq_ok.mpr ⟨_, rfl, by rw [hword]; rfl⟩⟩
    | some d => exact ⟨_, Except.bind_eq_ok.mpr ⟨_, rfl, by rw [hword]; rfl⟩⟩
  · exact ⟨_, rfl⟩
  · exact ⟨acc, rfl⟩

/-- A run id that can be encoded is shown, or a part of its digest. -/
theorem Holds.runId_ok {record : Fields} (hr : Holds rt record e)
    (hid : encodable e.runId = true) :
      ∃ id, Telemetry.runId rt (getOrNull record "run_id") = .ok id := by
  have hrun := hr.run
  rw [strOr] at hrun
  rw [getOrNull]
  cases hl : Json.lookup (str "run_id") record with
  | none => exact ⟨none, rfl⟩
  | some v =>
    rw [hl] at hrun
    obtain ⟨d, hd⟩ : ∃ d, sha256Text (strValue rt v) = some d := by
      rw [show strValue rt v = e.runId from hrun, sha256Text, encode, if_pos hid]
      exact ⟨_, rfl⟩
    cases v with
    | null => exact ⟨none, rfl⟩
    | _ =>
      rw [Option.getD_some, Telemetry.runId, hd]
      · split_ifs <;> exact ⟨_, rfl⟩
      · intro hnull
        cases hnull

end step

/-! ## The whole history

What the readings come to over all records. -/

/-- `calls` of the report of `inspect_run`: how many there were, and what became of them. -/
structure ReportedCalls where
  total : ℕ
  ok : ℕ
  denied : ℕ
  failed : ℕ
  unknown : ℕ

/-- What the report says of the calls in a log. -/
def reportedCalls (log : List Event) : ReportedCalls where
  total := (callStates log).length
  ok := (callStates log).countP fun p ↦ decide (p.2 = some .ok)
  denied := (callStates log).countP fun p ↦ decide (p.2 = some .denied)
  failed := (callStates log).countP fun p ↦ decide (p.2 = some .failed)
  unknown := (unfinishedCalls log).length

/-- The sum over the kinds, of the calls that came to this. -/
def CallTable.total (calls : CallTable) (state : Option CallOutcome) : ℤ :=
  (calls.map fun p ↦ p.2.get state).sum

/-- The counts of calls are those of `call_states`, kind by kind and together. -/
structure SameCalls (calls : CallTable) (log : List Event) : Prop where
  nonneg : ∀ p ∈ calls, ∀ state, 0 ≤ p.2.get state
  perKind : ∀ kind state, calls.get kind state = callsIn log kind state
  ok : calls.total (some .ok) = (reportedCalls log).ok
  denied : calls.total (some .denied) = (reportedCalls log).denied
  failed : calls.total (some .failed) = (reportedCalls log).failed
  unfinished : calls.total none = (reportedCalls log).unknown

theorem length_unfinishedCalls (log : List Event) : (unfinishedCalls log).length =
    (callStates log).countP fun p ↦ decide (p.2 = none) := by
  rw [unfinishedCalls]
  induction callStates log with
  | nil => rfl
  | cons p rest ih =>
    rw [List.filterMap_cons, List.countP_cons, ← ih]
    by_cases h : p.2 = none
    · simp [h]
    · simp [h]

theorem Readings.total {events : List Event} {calls : Inspect.Calls} {fold : CallFold}
    (h : Readings events calls fold) (state : Option CallOutcome) : fold.calls.total state =
      (callStates events).countP fun p ↦ decide (p.2 = state) := by
  have hfiber := sum_countP_fiber h.table (fun p ↦ startedKind events p.1)
    (fun p ↦ decide (p.2 = state)) fun p (hp : p ∈ callStates events) ↦
      h.kinds p.1 (h.mem_started hp)
  rw [← hfiber, CallTable.total, List.map_map, Nat.cast_list_sum, List.map_map]
  refine congrArg List.sum (List.map_congr_left fun p hp ↦ ?_)
  exact h.counts p hp state

theorem Readings.sameCalls {events : List Event} {calls : Inspect.Calls} {fold : CallFold}
    (h : Readings events calls fold) : SameCalls fold.calls events where
  nonneg p hp state := by
    rw [h.counts p hp]
    exact Int.natCast_nonneg _
  perKind kind state := by
    by_cases hkind : kind ∈ fold.calls.map Prod.fst
    · obtain ⟨p, hp, rfl⟩ := List.mem_map.mp hkind
      rw [CallTable.get_of_mem h.table hp, h.counts p hp]
    · rw [CallTable.get_of_notMem hkind, h.callsIn_eq_zero hkind]
      rfl
  ok := h.total _
  denied := h.total _
  failed := h.total _
  unfinished := by
    rw [h.total, reportedCalls, length_unfinishedCalls]

section

variable {records : List Fields}

theorem holds_of_forall₂ (hstr : ∀ v (kind : EventKind), rt.strOf v ≠ kind.text)
    {log : List ReadEvent} (h : List.Forall₂ (fun r e ↦ eventFromRecord rt r = .ok e) records log)
    (hobj : ∀ r ∈ records, ∃ fields, Json.lookup (str "payload") r = some (.obj fields)) :
    List.Forall₂ (fun r e ↦ Holds rt r (ReadEvent.toEvent e)) records log := by
  induction h with
  | nil => exact .nil
  | cons hre _ ih =>
    obtain ⟨fields, hfields⟩ := hobj _ List.mem_cons_self
    exact .cons (holds_of_read hstr hfields hre)
      (ih fun r hr ↦ hobj r (List.mem_cons_of_mem _ hr))

/-- The records that a log was made of, with what it made of each. -/
theorem holds_of_eventLog (hstr : ∀ v (kind : EventKind), rt.strOf v ≠ kind.text)
    (hobj : ∀ r ∈ records, ∃ fields, Json.lookup (str "payload") r = some (.obj fields))
    {log : List ReadEvent} (h : eventLog rt runId records = .ok log) :
    List.Forall₂ (Holds rt) records (log.map (·.toEvent)) ∧ ∀ e ∈ log, e.toEvent.runId = runId := by
  obtain ⟨read, hread, h⟩ := Except.bind_eq_ok.mp h
  by_cases hrun : (read.any fun e ↦ e.runId ≠ runId) = true
  · rw [if_pos hrun] at h
    cases h
  rw [if_neg hrun] at h
  by_cases hsequence : read.map (·.sequence) ≠ (List.range read.length).map Int.ofNat
  · rw [if_pos hsequence] at h
    cases h
  rw [if_neg hsequence] at h
  obtain rfl := Except.ok.inj h
  constructor
  · rw [List.forall₂_map_right_iff]
    exact holds_of_forall₂ hstr (Except.forall₂_of_mapM hread) hobj
  · intro e he
    rw [Bool.not_eq_true, List.any_eq_false] at hrun
    have hsame := hrun e he
    rwa [decide_eq_true_eq, not_not] at hsame

variable (seconds : Str → Str → Option Py.Float) (ratio : ℕ → ℕ → Py.Float)

/-- What a stop that has an object for its payload says. -/
theorem get_stopPayload (hobj : ∀ r ∈ records,
    ∃ fields, Json.lookup (str "payload") r = some (.obj fields)) : ∃ fields,
      stopPayload (records.find? (isKind .runStopped)) = .obj fields ∧
      ∀ stop, records.find? (isKind .runStopped) = some stop →
        Json.lookup (str "payload") stop = some (.obj fields) := by
  cases hstop : records.find? (isKind .runStopped) with
  | none => exact ⟨[], rfl, fun _ h ↦ by cases h⟩
  | some stop =>
    obtain ⟨fields, hfields⟩ := hobj stop (List.mem_of_find?_eq_some hstop)
    refine ⟨fields, ?_, fun stop' h ↦ ?_⟩
    · rw [stopPayload, Option.map_some, Option.getD_some, payload, hfields]
      rfl
    · obtain rfl := Option.some.inj h
      exact hfields

/-- **`run_metrics` counts the calls of a history that was validated**, and does not raise. -/
theorem runMetrics_ok (hstr : ∀ v (kind : EventKind), rt.strOf v ≠ kind.text)
    (hvalid : validateHistory rt runId records = .ok ())
    (hobj : ∀ r ∈ records, ∃ fields, Json.lookup (str "payload") r = some (.obj fields))
    (hid : encodable runId = true) :
    ∃ m log, runMetrics rt seconds ratio records = .ok m ∧ eventLog rt runId records = .ok log ∧
      SameCalls m.calls (log.map (·.toEvent)) ∧
      m.finished = (records.find? (isKind .runStopped)).isSome ∧
      ∀ fields, stopPayload (records.find? (isKind .runStopped)) = .obj fields →
        m.stopReason = enum stopReason (getOrNull fields "stop_reason") := by
  obtain ⟨⟨⟩, hevents, hvalid⟩ := Except.bind_eq_ok.mp hvalid
  obtain ⟨_, -, hvalid⟩ := Except.bind_eq_ok.mp hvalid
  obtain ⟨_, -, hvalid⟩ := Except.bind_eq_ok.mp hvalid
  obtain ⟨calls, hcalls, -⟩ := Except.bind_eq_ok.mp hvalid
  obtain ⟨log, hlog⟩ : ∃ log, eventLog rt runId records = .ok log := by
    rw [Inspect.checkEvents] at hevents
    split at hevents
    · split_ifs at hevents
    · exact ⟨_, ‹_›⟩
  obtain ⟨hholds, hruns⟩ := holds_of_eventLog hstr hobj hlog
  obtain ⟨fold, hfold, hreadings⟩ := readings_nil.run hholds hcalls
  have heach : ∀ r ∈ records, ∃ e, Holds rt r e ∧ e.runId = runId := by
    intro r hr
    obtain ⟨e, he, hre⟩ := hholds.exists_of_mem r hr
    obtain ⟨read, hread, rfl⟩ := List.mem_map.mp he
    exact ⟨_, hre, hruns read hread⟩
  obtain ⟨verdicts, hverdicts⟩ := foldlM_ok (f := countVerdicts) (fun acc r hr ↦ by
    obtain ⟨e, hre, -⟩ := heach r hr
    exact hre.countVerdicts_ok acc) fun _ ↦ 0
  obtain ⟨approvals, happrovals⟩ := foldlM_ok (f := countApproval) (fun acc r hr ↦ by
    obtain ⟨e, hre, -⟩ := heach r hr
    exact hre.countApproval_ok acc) (APPROVAL_DECISIONS.map fun d ↦ (d, 0), {})
  obtain ⟨id, hfirst⟩ : ∃ id, firstId rt records = .ok id := by
    cases records with
    | nil => exact ⟨none, rfl⟩
    | cons r rest =>
      obtain ⟨e, hre, hrun⟩ := heach r List.mem_cons_self
      exact hre.runId_ok (hrun ▸ hid)
  obtain ⟨fields, hstop, -⟩ := get_stopPayload hobj
  refine ⟨?m, log, ?made, hlog, ?same⟩
  case made =>
    rw [runMetrics]
    simp only [hfold, hverdicts, happrovals, hstop, hfirst]
    rfl
  case same =>
    refine ⟨hreadings.sameCalls, rfl, fun fields' hfields' ↦ ?_⟩
    obtain rfl := Json.obj.inj (hstop.symm.trans hfields')
    rfl

/-- The time a report has for the end of the run. -/
def HasFinishedAt (report : Inspect.Inspection) : Prop :=
  ∃ time, report.finishedAt = some time ∧ time ≠ .null

/-- What a report says of the end is what `run_metrics` reads of the stop. -/
theorem reportOn_stop {floatGreater : Json → Json → Bool} {report : Inspect.Inspection}
    (hobj : ∀ r ∈ records, ∃ fields, Json.lookup (str "payload") r = some (.obj fields))
    (hrecorded : ∀ last ∈ records.getLast?, getOrNull last "recorded_at" ≠ .null)
    (h : reportOn rt floatGreater runId records = .ok report) :
    ((records.find? (isKind .runStopped)).isSome = true ↔ HasFinishedAt report) ∧
      ∃ fields, stopPayload (records.find? (isKind .runStopped)) = .obj fields ∧
        report.stopReason = getOrNull fields "stop_reason" := by
  obtain ⟨⟨⟩, -, h⟩ := Except.bind_eq_ok.mp h
  obtain ⟨stopped, hstopped, h⟩ := Except.bind_eq_ok.mp h
  obtain ⟨_, -, h⟩ := Except.bind_eq_ok.mp h
  obtain ⟨_, -, h⟩ := Except.bind_eq_ok.mp h
  obtain ⟨_, -, h⟩ := Except.bind_eq_ok.mp h
  obtain ⟨finishedAt, hfinished, h⟩ := Except.bind_eq_ok.mp h
  obtain rfl := Except.ok.inj h
  have hhead : (records.filter (isKind .runStopped)).head? = records.find? (isKind .runStopped) :=
    List.head?_filter
  obtain ⟨fields, hfields, hlookup⟩ := get_stopPayload hobj
  cases hstops : records.filter (isKind .runStopped) with
  | nil =>
    rw [hstops] at hhead hstopped hfinished
    rw [Inspect.finishTime, if_pos rfl] at hfinished
    obtain rfl := Except.ok.inj hstopped
    obtain rfl := Except.ok.inj hfinished
    rw [← hhead] at hfields ⊢
    refine ⟨⟨fun hsome ↦ ?_, ?_⟩, fields, hfields, ?_⟩
    · cases hsome
    · rintro ⟨time, htime, -⟩
      cases htime
    · obtain rfl := Json.obj.inj hfields
      rfl
  | cons stop rest =>
    rw [hstops] at hhead hstopped hfinished
    rw [Inspect.finishTime, if_neg (List.cons_ne_nil _ _)] at hfinished
    have hpayload := hlookup stop hhead.symm
    rw [Inspect.stoppedPayload, Inspect.field, hpayload] at hstopped
    obtain rfl := Except.ok.inj hstopped
    refine ⟨⟨fun _ ↦ ?_, fun _ ↦ by rw [← hhead]; rfl⟩, fields, hfields, rfl⟩
    cases htime : Inspect.field (records.getLastD []) "recorded_at" with
    | error e =>
      rw [htime] at hfinished
      cases hfinished
    | ok time =>
      rw [htime] at hfinished
      obtain rfl := Except.ok.inj hfinished
      have hne : records ≠ [] := by
        rintro rfl
        cases hstops
      have hlast := List.getLast?_eq_some_getLast hne
      refine ⟨time, rfl, ?_⟩
      rw [← Inspect.getOrNull_of_field htime, List.getLastD_eq_getLast?, hlast]
      exact hrecorded _ hlast

/-- **Two readings of one history agree.**  Of a validated history whose payloads are objects, whose
run id can be encoded and whose last record says when, the counts of `run_metrics` are none of them
negative and are those of `call_states`, kind by kind and, summed up, those of the report of
`inspect_run`; it says finished where the report says when; and its stop reason is the report's, if
that is one of the vocabulary. -/
theorem runMetrics_agrees (hstr : ∀ v (kind : EventKind), rt.strOf v ≠ kind.text)
    (hvalid : validateHistory rt runId records = .ok ())
    (hobj : ∀ r ∈ records, ∃ fields, Json.lookup (str "payload") r = some (.obj fields))
    (hid : encodable runId = true)
    (hrecorded : ∀ last ∈ records.getLast?, getOrNull last "recorded_at" ≠ .null) :
    ∃ m log, runMetrics rt seconds ratio records = .ok m ∧ eventLog rt runId records = .ok log ∧
      SameCalls m.calls (log.map (·.toEvent)) ∧
      ∀ floatGreater report, reportOn rt floatGreater runId records = .ok report →
        (m.finished = true ↔ HasFinishedAt report) ∧
        m.stopReason = enum stopReason report.stopReason := by
  obtain ⟨m, log, hm, hlog, hcalls, hfinished, hreason⟩ :=
    runMetrics_ok seconds ratio hstr hvalid hobj hid
  refine ⟨m, log, hm, hlog, hcalls, fun floatGreater report hreport ↦ ?_⟩
  obtain ⟨hiff, fields, hfields, hstop⟩ := reportOn_stop hobj hrecorded hreport
  exact ⟨by rw [hfinished, hiff], by rw [hreason fields hfields, hstop]⟩

end

/-! ## Where they differ

Histories that no run writes, on which the readings are not the same. -/

/-- The three readings agree on a history: the counts, the end and the stop reason. -/
def ReadingsAgree (rt : Runtime) (seconds : Str → Str → Option Py.Float)
    (ratio : ℕ → ℕ → Py.Float) (runId : Str) (records : List Fields) : Prop :=
  ∃ m log, runMetrics rt seconds ratio records = .ok m ∧ eventLog rt runId records = .ok log ∧
    SameCalls m.calls (log.map (·.toEvent)) ∧
    ∀ floatGreater report, reportOn rt floatGreater runId records = .ok report →
      (m.finished = true ↔ HasFinishedAt report) ∧
      ((m.stopReason.map fun r ↦ Json.str r.text).getD .null) = report.stopReason

/-- A record of an event, whose parts may be anything. -/
def eventRecord (runId : Str) (sequence : ℕ) (kind : EventKind)
    (callId payload recordedAt : Json) : Fields :=
  [(str "schema", .str (str "atlas-event.v1")),
    (str "event_id", .str (runId ++ str ":" ++ decimalInt sequence)), (str "run_id", .str runId),
    (str "sequence", .int sequence), (str "iteration", .int 0), (str "kind", .str kind.text),
    (str "recorded_at", recordedAt), (str "call_id", callId), (str "payload", payload)]

/-- A run with one call that was denied and one that was left open. -/
def twoCalls (runId : Str) (callPayload : Json) (stopReason : Str)
    (stoppedAt : Json) : List Fields :=
  [eventRecord runId 0 .runStarted .null (.obj []) (.str (str "t0")),
    eventRecord runId 1 .callStarted (.str (runId ++ str ":1")) callPayload (.str (str "t1")),
    eventRecord runId 2 .callFinished (.str (runId ++ str ":1"))
      (.obj [(str "outcome", .str (str "denied"))]) (.str (str "t2")),
    eventRecord runId 3 .callStarted (.str (runId ++ str ":3")) callPayload (.str (str "t3")),
    eventRecord runId 4 .runStopped .null (.obj [(str "status", .str (str "done")),
      (str "stop_reason", .str stopReason), (str "stop_class", .str (str "control"))]) stoppedAt]

/-- A payload as it should be, of a call of a tool. -/
def toolCall : Json := .obj [(str "call_kind", .str (str "tool_call"))]

/-- A payload of which `dict` makes the same, and which has no `get`. -/
def toolCallPairs : Json := .arr [.arr [.str (str "call_kind"), .str (str "tool_call")]]

/-- A text with one half of a surrogate pair in it. -/
def halfPair : Str := [0xD800]

theorem exists_of_any {α : Type} {x : Except Exc α} {p : α → Bool}
    (h : x.toOption.any p = true) : ∃ a, x = .ok a ∧ p a = true := by
  cases x with
  | error e => cases h
  | ok a => exact ⟨a, rfl, h⟩

/-- Histories that the validation lets through: with a stop reason that is no word of the
vocabulary, with a payload that is a list of pairs, with a stop that does not say when, and with a
run id that cannot be encoded. -/
def strangeHistories : List (Str × List Fields) :=
  [(str "r", twoCalls (str "r") toolCall (str "gave up") (.str (str "t4"))),
    (str "r", twoCalls (str "r") toolCallPairs (str "passed") (.str (str "t4"))),
    (str "r", twoCalls (str "r") toolCall (str "passed") .null),
    (halfPair, twoCalls halfPair toolCall (str "passed") (.str (str "t4")))]

/-- On none of them do the readings agree. -/
theorem strangeHistories_disagree : strangeHistories.Forall fun h ↦
    validateHistory asciiRuntime h.1 h.2 = .ok () ∧
      ¬ ReadingsAgree asciiRuntime (fun _ _ ↦ none) (fun _ _ ↦ .nan) h.1 h.2 := by
  rw [List.forall_iff_forall_mem]
  have hvalid : strangeHistories.all (fun h ↦
      (validateHistory asciiRuntime h.1 h.2).toOption.any fun _ ↦ true) = true := by
    decide
  intro h hmem
  refine ⟨(exists_of_any (List.all_eq_true.mp hvalid h hmem)).choose_spec.1, ?_⟩
  rintro ⟨m, log, hm, -, -, hreports⟩
  simp only [strangeHistories, List.mem_cons, List.not_mem_nil, or_false] at hmem
  rcases hmem with rfl | rfl | rfl | rfl
  · obtain ⟨report, hreport, hp⟩ := exists_of_any (show (reportOn asciiRuntime (fun _ _ ↦ false)
      (str "r") (twoCalls (str "r") toolCall (str "gave up") (.str (str "t4")))).toOption.any
        (fun r ↦ isText r.stopReason (str "gave up")) = true by decide)
    obtain ⟨m', hm', hnone⟩ := exists_of_any (show (runMetrics asciiRuntime (fun _ _ ↦ none)
      (fun _ _ ↦ .nan) (twoCalls (str "r") toolCall (str "gave up") (.str (str "t4")))).toOption.any
        (fun m ↦ m.stopReason.isNone) = true by decide)
    obtain rfl := Except.ok.inj (hm.symm.trans hm')
    have hreason := (hreports _ report hreport).2
    rw [Option.isNone_iff_eq_none.mp hnone, isText_iff.mp hp] at hreason
    cases hreason
  · have hraises : (runMetrics asciiRuntime (fun _ _ ↦ none) (fun _ _ ↦ .nan) (twoCalls (str "r")
        toolCallPairs (str "passed") (.str (str "t4")))).toOption.isNone = true := by decide
    rw [hm] at hraises
    cases hraises
  · obtain ⟨report, hreport, hp⟩ := exists_of_any (show (reportOn asciiRuntime (fun _ _ ↦ false)
      (str "r") (twoCalls (str "r") toolCall (str "passed") .null)).toOption.any
        (fun r ↦ r.finishedAt.any isNull) = true by decide)
    obtain ⟨m', hm', hfinished⟩ := exists_of_any (show (runMetrics asciiRuntime (fun _ _ ↦ none)
      (fun _ _ ↦ .nan) (twoCalls (str "r") toolCall (str "passed") .null)).toOption.any
        (fun m ↦ m.finished) = true by decide)
    obtain rfl := Except.ok.inj (hm.symm.trans hm')
    obtain ⟨time, htime, hne⟩ := (hreports _ report hreport).1.mp hfinished
    rw [htime, Option.any_some] at hp
    cases time with
    | null => exact hne rfl
    | _ => cases hp
  · have hraises : (runMetrics asciiRuntime (fun _ _ ↦ none) (fun _ _ ↦ .nan) (twoCalls halfPair
        toolCall (str "passed") (.str (str "t4")))).toOption.isNone = true := by decide
    rw [hm] at hraises
    cases hraises

/-- One call denied and one left open is what all three say of the run that has them. -/
theorem runMetrics_agrees_twoCalls : ∃ m log,
    runMetrics asciiRuntime (fun _ _ ↦ none) (fun _ _ ↦ .nan)
      (twoCalls (str "r") toolCall (str "passed") (.str (str "t4"))) = .ok m ∧
    eventLog asciiRuntime (str "r")
      (twoCalls (str "r") toolCall (str "passed") (.str (str "t4"))) = .ok log ∧
    SameCalls m.calls (log.map (·.toEvent)) := by
  have hvalid : (validateHistory asciiRuntime (str "r")
      (twoCalls (str "r") toolCall (str "passed") (.str (str "t4")))).toOption.any (fun _ ↦ true) =
        true := by decide
  have hobj : ∀ r ∈ twoCalls (str "r") toolCall (str "passed") (.str (str "t4")),
      ∃ fields, Json.lookup (str "payload") r = some (.obj fields) := by
    intro r hr
    simp only [twoCalls, List.mem_cons, List.not_mem_nil, or_false] at hr
    rcases hr with rfl | rfl | rfl | rfl | rfl <;> exact ⟨_, rfl⟩
  obtain ⟨m, log, hm, hlog, hcalls, -⟩ := @runMetrics_agrees asciiRuntime _ _ (fun _ _ ↦ none)
    (fun _ _ ↦ .nan) (fun v kind ↦ by cases kind <;> exact nofun)
    (exists_of_any hvalid).choose_spec.1 hobj (by decide)
    (fun last hlast ↦ by obtain rfl := Option.some.inj hlast; exact nofun)
  exact ⟨m, log, hm, hlog, hcalls⟩

end Telemetry

end AtlasCore
