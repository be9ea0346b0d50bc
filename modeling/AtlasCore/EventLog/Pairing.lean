import AtlasCore.EventLog.Log
import AtlasCore.Lib.Grown

/-!
# Calls and their outcomes

What an event may be when it is appended (`Follows`): it has the next number, a call that it starts
has the id of its place, and a call that it finishes was started and is open.  A log all of whose
events were appended so is `Paired`, and from that everything follows that a reader relies on: every
call has one start, whose number it names, and one outcome at most, which comes later, and
`call_states` says of each started call what became of it.
-/

set_option autoImplicit false

namespace AtlasCore

open Py

namespace EventLog

/-- `f"{run_id}:{n}"`: the id of the n-th event of a run, and of the call that it starts. -/
def placeId (runId : Str) (n : ℕ) : Str := runId ++ str ":" ++ decimal n

theorem placeId_injective (runId : Str) : Function.Injective (placeId runId) := fun _ _ h ↦
  decimal_injective (List.append_cancel_left h)

/-- An event of this kind names the call. -/
def Names (kind : EventKind) (call : Str) (events : List Event) : Prop :=
  ∃ e ∈ events, e.kind = kind ∧ e.callId = some call

/-- What an event is that comes after others in the log of a run. -/
structure Follows (runId : Str) (events : List Event) (e : Event) : Prop where
  postInit : e.postInit = .ok ()
  ofRun : e.runId = runId
  sequence : e.sequence = events.length
  started : e.kind = .callStarted → e.callId = some (placeId runId events.length)
  finished : e.kind = .callFinished →
    ∃ call, e.callId = some call ∧ Names .callStarted call events ∧
      ¬ Names .callFinished call events

/-- Every event follows on those before it: calls are opened once, and only what is open is closed.
-/
abbrev Paired (runId : Str) (events : List Event) : Prop := Grown (Follows runId) events

/-- What the log of a run is: numbered without a gap, its calls started under the number they name
and finished once at most, after that; and `call_states` tells which. -/
structure WellFormed (runId : Str) (events : List Event) : Prop where
  ofRun : ∀ e ∈ events, e.runId = runId
  numbered : events.map (·.sequence) = List.range events.length
  started : ∀ e ∈ events, e.kind = .callStarted → e.callId = some (placeId runId e.sequence)
  startedOnce : ∀ e ∈ events, ∀ e' ∈ events, e.kind = .callStarted → e'.kind = .callStarted →
    e.callId = e'.callId → e = e'
  finishedOnce : ∀ e ∈ events, ∀ e' ∈ events, e.kind = .callFinished → e'.kind = .callFinished →
    e.callId = e'.callId → e = e'
  finishedLater : ∀ e ∈ events, e.kind = .callFinished →
    ∃ s ∈ events, s.kind = .callStarted ∧ s.callId = e.callId ∧ s.sequence < e.sequence
  states : ∀ call, (∃ state, (call, state) ∈ callStates events) ↔ Names .callStarted call events
  unknown : ∀ call, (call, none) ∈ callStates events ↔
    Names .callStarted call events ∧ ¬ Names .callFinished call events
  statesOnce : ((callStates events).map (·.1)).Nodup

variable {runId : Str} {events : List Event} {e : Event}

/-! ## What is read off the events

From the events alone: their numbers, the calls they name, and which of these are open. -/

theorem names_concat {kind : EventKind} {call : Str} :
    Names kind call (events ++ [e]) ↔
      Names kind call events ∨ e.kind = kind ∧ e.callId = some call := by
  simp only [Names, List.mem_append, List.mem_singleton, or_and_right, exists_or, exists_eq_left]

theorem Names.left {kind : EventKind} {call : Str} (h : Names kind call events) :
    Names kind call (events ++ [e]) := names_concat.mpr (.inl h)

theorem Paired.numbered (h : Paired runId events) :
    events.map (·.sequence) = List.range events.length := by
  refine h.induction (R := fun events ↦ events.map (·.sequence) = List.range events.length) rfl
    fun before x _ ih hx ↦ ?_
  rw [List.map_append, ih, List.length_append, List.length_singleton, List.range_succ,
    List.map_singleton, hx.sequence]

/-- Each event stands at the place of its number. -/
theorem Paired.sequence_lt (h : Paired runId events) :
    ∀ e ∈ events, e.sequence < events.length := by
  intro e he
  have hmem : e.sequence ∈ List.range events.length := by
    rw [← h.numbered]
    exact List.mem_map_of_mem he
  exact List.mem_range.mp hmem

theorem Paired.eq_of_sequence (h : Paired runId events) {e e' : Event} (he : e ∈ events)
    (he' : e' ∈ events) (hs : e.sequence = e'.sequence) : e = e' := by
  refine List.inj_on_of_nodup_map ?_ he he' hs
  rw [h.numbered]
  exact List.nodup_range

theorem Paired.each {P : Event → Prop} (h : Paired runId events)
    (hP : ∀ before e, Follows runId before e → P e) : ∀ e ∈ events, P e := by
  intro e he
  obtain ⟨before, after, rfl⟩ := List.append_of_mem he
  exact hP before e (h before e after rfl)

theorem Paired.started (h : Paired runId events) : ∀ e ∈ events, e.kind = .callStarted →
    e.callId = some (placeId runId e.sequence) :=
  h.each fun before e hf hk ↦ by rw [hf.started hk, hf.sequence]

/-- A call that is named by its start is the id of a place that is taken. -/
theorem Paired.not_names (h : Paired runId events) :
    ¬ Names .callStarted (placeId runId events.length) events := by
  rintro ⟨e, he, hk, hcall⟩
  rw [h.started e he hk, Option.some.injEq] at hcall
  exact absurd (placeId_injective runId hcall) (Nat.ne_of_lt (h.sequence_lt e he))

theorem Paired.finishedLater (h : Paired runId events) : ∀ e ∈ events, e.kind = .callFinished →
    ∃ s ∈ events, s.kind = .callStarted ∧ s.callId = e.callId ∧ s.sequence < e.sequence := by
  intro e he hk
  obtain ⟨before, after, rfl⟩ := List.append_of_mem he
  have hf := h before e after rfl
  obtain ⟨call, hcall, ⟨s, hs, hsk, hsc⟩, -⟩ := hf.finished hk
  refine ⟨s, List.mem_append_left _ hs, hsk, by rw [hsc, hcall], ?_⟩
  rw [hf.sequence]
  exact Paired.sequence_lt (Grown.left h) s hs

theorem Paired.finishedOnce (h : Paired runId events) : ∀ e ∈ events, ∀ e' ∈ events,
    e.kind = .callFinished → e'.kind = .callFinished → e.callId = e'.callId → e = e' := by
  refine h.induction (R := fun events ↦ ∀ e ∈ events, ∀ e' ∈ events, e.kind = .callFinished →
    e'.kind = .callFinished → e.callId = e'.callId → e = e') (fun e he ↦ absurd he List.not_mem_nil)
    fun before x _ ih hx ↦ ?_
  -- a second outcome of a call would not have followed
  have hnew : ∀ e ∈ before, e.kind = .callFinished → x.kind = .callFinished →
      e.callId ≠ x.callId := by
    intro e he hk hxk hcall
    obtain ⟨call, hc, -, hno⟩ := hx.finished hxk
    exact hno ⟨e, he, hk, by rw [hcall, hc]⟩
  intro e he e' he' hk hk' hcall
  rcases List.mem_append.mp he with hb | hb <;> rcases List.mem_append.mp he' with hb' | hb'
  · exact ih e hb e' hb' hk hk' hcall
  · obtain rfl := List.mem_singleton.mp hb'
    exact absurd hcall (hnew e hb hk hk')
  · obtain rfl := List.mem_singleton.mp hb
    exact absurd hcall.symm (hnew e' hb' hk' hk)
  · rw [List.mem_singleton.mp hb, List.mem_singleton.mp hb']

/-- A call that was finished was finished by one event. -/
theorem Paired.length_finished (h : Paired runId events) {call : Str}
    (hcall : Names .callFinished call events) :
    (events.filter fun e ↦ e.kind = .callFinished ∧ e.callId = some call).length = 1 := by
  obtain ⟨e, he, hkind, hid⟩ := hcall
  have hnodup : events.Nodup := by
    refine List.Nodup.of_map (·.sequence) ?_
    rw [h.numbered]
    exact List.nodup_range
  have hall : ∀ x ∈ events.filter fun e ↦ e.kind = .callFinished ∧ e.callId = some call,
      x = e := by
    intro x hx
    obtain ⟨hmem, hx⟩ := List.mem_filter.mp hx
    obtain ⟨hxkind, hxid⟩ := of_decide_eq_true hx
    exact h.finishedOnce x hmem e he hxkind hkind (hxid.trans hid.symm)
  have hmem : e ∈ events.filter fun e ↦ e.kind = .callFinished ∧ e.callId = some call :=
    List.mem_filter.mpr ⟨he, decide_eq_true ⟨hkind, hid⟩⟩
  have honly := List.eq_replicate_of_mem hall
  have hlength := List.nodup_replicate.mp (honly ▸ hnodup.filter _)
  have hpos := List.length_pos_of_mem hmem
  omega

/-! ## The states of the calls

The states that the source computes are those that the events have left. -/

variable (events e) in
theorem callStates_concat : callStates (events ++ [e]) = callStep (callStates events) e := by
  rw [callStates, List.foldl_append]
  rfl

/-- What `call_states` says of the calls of a log. -/
structure StatesOk (events : List Event) : Prop where
  states : ∀ call, (∃ state, (call, state) ∈ callStates events) ↔ Names .callStarted call events
  unknown : ∀ call, (call, none) ∈ callStates events ↔
    Names .callStarted call events ∧ ¬ Names .callFinished call events
  once : ((callStates events).map (·.1)).Nodup

theorem CallOutcome.ofText_text (outcome : CallOutcome) :
    CallOutcome.ofText outcome.text = some outcome := by
  cases outcome <;> decide

/-- The end of a call has one of the outcomes. -/
theorem outcome_of_postInit (h : e.postInit = .ok ()) (hk : e.kind = .callFinished) :
    ∃ outcome : CallOutcome, getOrNull e.payload "outcome" = .str outcome.text := by
  rw [Event.postInit] at h
  split_ifs at h with _ _ _ _ _ hfinished
  have hin : payloadIn e.payload "outcome"
      ([CallOutcome.ok, .denied, .failed].map (·.text)) = true := by
    by_contra hno
    exact hfinished ⟨hk, hno⟩
  rw [payloadIn] at hin
  split at hin
  · rename_i s hs
    obtain ⟨outcome, -, rfl⟩ := List.mem_map.mp (of_decide_eq_true hin)
    exact ⟨outcome, hs⟩
  · cases hin

theorem known_iff {started : CallStates} {call : Str} :
    (started.any fun p ↦ p.1 = call) = true ↔ ∃ state, (call, state) ∈ started := by
  rw [List.any_eq_true]
  constructor
  · rintro ⟨⟨c, state⟩, hp, hc⟩
    obtain rfl := of_decide_eq_true hc
    exact ⟨state, hp⟩
  · rintro ⟨state, hp⟩
    exact ⟨_, hp, decide_eq_true rfl⟩

/-- Only the two halves of a call change what is known of calls. -/
theorem callStep_other (started : CallStates) (hs : e.kind ≠ .callStarted)
    (hf : e.kind ≠ .callFinished) : callStep started e = started := by
  rw [callStep]
  split
  · rfl
  · dsimp only
    rw [if_neg hs, if_neg fun h ↦ hf h.1]

theorem callStep_started {started : CallStates} {call : Str} (hk : e.kind = .callStarted)
    (hc : e.callId = some call) (hnew : ¬ ∃ state, (call, state) ∈ started) :
    callStep started e = started ++ [(call, none)] := by
  rw [callStep, hc]
  dsimp only
  rw [if_pos hk, if_neg (mt known_iff.mp hnew)]

theorem callStep_finished {started : CallStates} {call : Str} {outcome : CallOutcome}
    (hk : e.kind = .callFinished) (hc : e.callId = some call)
    (hknown : ∃ state, (call, state) ∈ started)
    (ho : getOrNull e.payload "outcome" = .str outcome.text) :
    callStep started e =
      started.map fun p ↦ if p.1 = call then (call, some outcome) else p := by
  rw [callStep, hc]
  dsimp only
  rw [if_neg (by rw [hk]; decide), if_pos ⟨hk, known_iff.mpr hknown⟩, ho]
  dsimp only
  rw [CallOutcome.ofText_text]

theorem StatesOk.concat (h : StatesOk events) (hp : Paired runId events)
    (hx : Follows runId events e) : StatesOk (events ++ [e]) := by
  by_cases hs : e.kind = .callStarted
  · have hc := hx.started hs
    have hnew : ¬ ∃ state, (placeId runId events.length, state) ∈ callStates events :=
      fun hs ↦ hp.not_names ((h.states _).mp hs)
    have hstates := callStates_concat events e
    rw [callStep_started hs hc hnew] at hstates
    have hnames : ∀ call, Names .callStarted call (events ++ [e]) ↔
        Names .callStarted call events ∨ call = placeId runId events.length := by
      intro call
      rw [names_concat, hc, Option.some.injEq]
      exact or_congr_right ⟨fun h ↦ h.2.symm, fun h ↦ ⟨hs, h.symm⟩⟩
    have hfinished : ∀ call, Names .callFinished call (events ++ [e]) ↔
        Names .callFinished call events := by
      intro call
      rw [names_concat, hs]
      exact or_iff_left fun h ↦ absurd h.1 (by decide)
    refine ⟨fun call ↦ ?_, fun call ↦ ?_, ?_⟩
    · simp only [hstates, hnames, ← h.states, List.mem_append, List.mem_singleton, Prod.mk.injEq,
        exists_or, exists_and_left, exists_eq, and_true]
    · have hopen : ¬ Names .callFinished (placeId runId events.length) events := by
        rintro ⟨f, hf, hfk, hfc⟩
        obtain ⟨s, hs', hsk, hsc, -⟩ := hp.finishedLater f hf hfk
        exact hp.not_names ⟨s, hs', hsk, by rw [hsc, hfc]⟩
      rw [hstates, hnames, hfinished, List.mem_append, List.mem_singleton, h.unknown,
        Prod.mk.injEq, and_iff_left rfl]
      constructor
      · rintro (⟨h1, h2⟩ | rfl)
        · exact ⟨.inl h1, h2⟩
        · exact ⟨.inr rfl, hopen⟩
      · rintro ⟨h1 | h1, h2⟩
        · exact .inl ⟨h1, h2⟩
        · exact .inr h1
    · rw [hstates, List.map_append, List.map_singleton, List.nodup_append]
      refine ⟨h.once, List.nodup_singleton _, fun c hc' d hd hcd ↦ ?_⟩
      obtain ⟨⟨c', state⟩, hp', rfl⟩ := List.mem_map.mp hc'
      rw [List.mem_singleton.mp hd] at hcd
      have hcall : c' = placeId runId events.length := hcd
      exact hnew ⟨state, by rw [← hcall]; exact hp'⟩
  · have hstarted : ∀ call, Names .callStarted call (events ++ [e]) ↔
        Names .callStarted call events := by
      intro call
      rw [names_concat]
      exact or_iff_left fun h ↦ hs h.1
    by_cases hf : e.kind = .callFinished
    · obtain ⟨call, hc, hstart, -⟩ := hx.finished hf
      obtain ⟨outcome, ho⟩ := outcome_of_postInit hx.postInit hf
      have hstates := callStates_concat events e
      rw [callStep_finished hf hc ((h.states call).mpr hstart) ho] at hstates
      have hkeys : (callStates (events ++ [e])).map (·.1) = (callStates events).map (·.1) := by
        rw [hstates, List.map_map]
        refine List.map_congr_left fun p _ ↦ ?_
        show (if p.1 = call then (call, some outcome) else p).1 = p.1
        split_ifs with hp
        · exact hp.symm
        · rfl
      have hkeys_iff : ∀ {events : List Event} (c : Str),
          (∃ state, (c, state) ∈ callStates events) ↔ c ∈ (callStates events).map (·.1) := by
        intro events c
        simp [List.mem_map]
      refine ⟨fun c ↦ ?_, fun c ↦ ?_, ?_⟩
      · rw [hkeys_iff, hkeys, ← hkeys_iff, hstarted, h.states]
      · rw [hstarted, names_concat, hc, Option.some.injEq, not_or, ← and_assoc, ← h.unknown,
          hstates, List.mem_map]
        constructor
        · rintro ⟨p, hp, heq⟩
          split_ifs at heq with hpc
          · cases heq
          · obtain rfl := heq
            exact ⟨hp, fun h ↦ hpc h.2.symm⟩
        · rintro ⟨hmem, hne⟩
          refine ⟨_, hmem, if_neg fun h ↦ hne ⟨hf, h.symm⟩⟩
      · rw [hkeys]
        exact h.once
    · have hstates := callStates_concat events e
      rw [callStep_other _ hs hf] at hstates
      refine ⟨fun call ↦ ?_, fun call ↦ ?_, ?_⟩
      · rw [hstates, hstarted, h.states]
      · rw [hstates, hstarted, names_concat, h.unknown, or_iff_left fun h ↦ hf h.1]
      · rw [hstates]
        exact h.once

theorem Paired.statesOk (h : Paired runId events) : StatesOk events := by
  refine h.induction (R := StatesOk) ⟨fun call ↦ ?_, fun call ↦ ?_, List.nodup_nil⟩
    fun before x hb ih hx ↦ ih.concat hb hx
  · simp [callStates, Names]
  · simp [callStates, Names]

/-- **A log whose events follow on each other is well formed.** -/
theorem Paired.wellFormed (h : Paired runId events) : WellFormed runId events where
  ofRun := h.each fun _ _ hf ↦ hf.ofRun
  numbered := h.numbered
  started := h.started
  startedOnce := fun e he e' he' hk hk' hcall ↦ by
    rw [h.started e he hk, h.started e' he' hk', Option.some.injEq] at hcall
    exact h.eq_of_sequence he he' (placeId_injective runId hcall)
  finishedOnce := h.finishedOnce
  finishedLater := h.finishedLater
  states := h.statesOk.states
  unknown := h.statesOk.unknown
  statesOnce := h.statesOk.once

end EventLog

end AtlasCore
