import AtlasCore.EventLog.Pairing

/-!
# Calls inside calls

What a piece of a log looks like in which every call that is started is also finished: the halves of
the calls stand like brackets, a call has the id of its place, and what is between its halves is
such a piece again.  In a piece like that every call is finished once.
-/

set_option autoImplicit false

namespace AtlasCore

namespace EventLog

open Py

/-- A piece of a log, from the place `n` on, in which the halves of the calls are brackets; a call
at the place `k` has the id `ids k`. -/
inductive Balanced (ids : ℕ → Str) : ℕ → List Event → Prop where
  | nil (n : ℕ) : Balanced ids n []
  | plain {n : ℕ} {e : Event} {rest : List Event} (he : e.callId = none)
      (hkind : e.kind ≠ .callStarted) (hrest : Balanced ids (n + 1) rest) :
        Balanced ids n (e :: rest)
  | call {n : ℕ} {started finished : Event} {inner rest : List Event}
      (hstarted : started.kind = .callStarted) (hid : started.callId = some (ids n))
      (hinner : Balanced ids (n + 1) inner) (hfinished : finished.kind = .callFinished)
      (hid' : finished.callId = some (ids n))
      (hrest : Balanced ids (n + 1 + inner.length + 1) rest) :
      Balanced ids n (started :: (inner ++ finished :: rest))

variable {ids : ℕ → Str} {n : ℕ} {events more : List Event}

theorem Balanced.append (h : Balanced ids n events)
    (hmore : Balanced ids (n + events.length) more) :
    Balanced ids n (events ++ more) := by
  induction h with
  | nil n => exact hmore
  | plain he hkind _ ih =>
    refine .plain he hkind (ih ?_)
    rwa [List.length_cons, ← Nat.add_assoc, Nat.add_right_comm] at hmore
  | call hstarted hid hinner hfinished hid' _ _ ih =>
    rw [List.cons_append, List.append_assoc, List.cons_append]
    refine .call hstarted hid hinner hfinished hid' (ih ?_)
    rw [List.length_cons, List.length_append, List.length_cons] at hmore
    convert hmore using 1
    omega

/-- The ids of a piece are those of its places. -/
theorem Balanced.place (h : Balanced ids n events) : ∀ e ∈ events,
    e.callId = none ∧ e.kind ≠ .callStarted ∨
      ∃ k, n ≤ k ∧ k < n + events.length ∧ e.callId = some (ids k) := by
  induction h with
  | nil n => exact fun _ he ↦ absurd he List.not_mem_nil
  | @plain n e rest he hkind _ ih =>
    intro x hx
    rcases List.mem_cons.mp hx with rfl | hx
    · exact .inl ⟨he, hkind⟩
    · refine (ih x hx).imp_right fun ⟨k, hk, hlt, hid⟩ ↦ ⟨k, by omega, ?_, hid⟩
      rw [List.length_cons]
      omega
  | @call n started finished inner rest _ hid _ _ hid' _ ihinner ihrest =>
    have hlength : (started :: (inner ++ finished :: rest)).length =
        inner.length + rest.length + 2 := by
      rw [List.length_cons, List.length_append, List.length_cons]
      omega
    rw [hlength]
    intro x hx
    rcases List.mem_cons.mp hx with rfl | hx
    · exact .inr ⟨n, le_rfl, by omega, hid⟩
    rcases List.mem_append.mp hx with hx | hx
    · exact (ihinner x hx).imp_right fun ⟨k, hk, hlt, hid⟩ ↦ ⟨k, by omega, by omega, hid⟩
    rcases List.mem_cons.mp hx with rfl | hx
    · exact .inr ⟨n, le_rfl, by omega, hid'⟩
    · exact (ihrest x hx).imp_right fun ⟨k, hk, hlt, hid⟩ ↦ ⟨k, by omega, by omega, hid⟩

/-- A call that is started in a piece has the id of one of its places. -/
theorem Balanced.started (h : Balanced ids n events) {e : Event} (he : e ∈ events)
    (hkind : e.kind = .callStarted) :
    ∃ k, n ≤ k ∧ k < n + events.length ∧ e.callId = some (ids k) :=
  (h.place e he).resolve_left fun hplain ↦ hplain.2 hkind

/-- The ends of a call: the events that finish it.  A log has one of them, or none. -/
def endsOf (call : Option Str) (events : List Event) : List Event :=
  events.filter fun f ↦ f.kind = .callFinished ∧ f.callId = call

/-- A call of another place is not finished here. -/
theorem Balanced.endsOf_eq_nil (h : Balanced ids n events) (hids : Function.Injective ids) {k : ℕ}
    (hk : k < n ∨ n + events.length ≤ k) : endsOf (some (ids k)) events = [] := by
  refine List.filter_eq_nil_iff.mpr fun e he hend ↦ ?_
  have hcall := (of_decide_eq_true hend).2
  rcases h.place e he with ⟨hnone, -⟩ | ⟨k', hle, hlt, hid⟩
  · rw [hnone] at hcall
    cases hcall
  · rw [hid, Option.some.injEq] at hcall
    have := hids hcall
    omega

/-- **Every call of a balanced piece is finished once in it.** -/
theorem Balanced.length_endsOf (h : Balanced ids n events) (hids : Function.Injective ids) :
    ∀ e ∈ events, e.kind = .callStarted → (endsOf e.callId events).length = 1 := by
  induction h with
  | nil n => exact fun _ he ↦ absurd he List.not_mem_nil
  | @plain n e rest he hkind hrest ih =>
    intro x hx hx'
    rcases List.mem_cons.mp hx with rfl | hx
    · exact absurd hx' hkind
    · obtain ⟨k, -, -, hid⟩ := hrest.started hx hx'
      have hskip : endsOf x.callId (e :: rest) = endsOf x.callId rest := by
        refine List.filter_cons_of_neg fun h ↦ ?_
        have hcall := (of_decide_eq_true h).2
        rw [he, hid] at hcall
        cases hcall
      rw [hskip]
      exact ih x hx hx'
  | @call n started finished inner rest hstarted hid hinner hfinished hid' hrest ihinner ihrest =>
    have hsplit : ∀ call, endsOf call (started :: (inner ++ finished :: rest)) =
        endsOf call inner ++ (endsOf call [finished] ++ endsOf call rest) := by
      intro call
      have hhead : endsOf call (started :: (inner ++ finished :: rest)) =
          endsOf call (inner ++ finished :: rest) :=
        List.filter_cons_of_neg fun h ↦ by
          rw [(of_decide_eq_true h).1] at hstarted
          cases hstarted
      rw [hhead, endsOf, List.filter_append, ← List.singleton_append, List.filter_append]
      rfl
    have hend : ∀ k, endsOf (some (ids k)) [finished] = if k = n then [finished] else [] := by
      intro k
      rw [endsOf, List.filter_singleton]
      by_cases hk : k = n
      · rw [if_pos hk, hk, decide_eq_true ⟨hfinished, hid'⟩]
        rfl
      · rw [if_neg hk, decide_eq_false fun h ↦ hk (hids (Option.some.inj (h.2.symm.trans hid')))]
        rfl
    intro x hx hkind
    rw [hsplit]
    rcases List.mem_cons.mp hx with rfl | hx
    · rw [hid, hend, if_pos rfl, hinner.endsOf_eq_nil hids (.inl (Nat.lt_succ_self n)),
        hrest.endsOf_eq_nil hids (.inl (by omega))]
      rfl
    rcases List.mem_append.mp hx with hx | hx
    · -- a call inside
      obtain ⟨k, hk, hlt, hcall⟩ := hinner.started hx hkind
      have hone := ihinner x hx hkind
      rw [hcall] at hone ⊢
      rw [hend, if_neg (by omega), hrest.endsOf_eq_nil hids (.inl (by omega)), List.nil_append,
        List.append_nil]
      exact hone
    rcases List.mem_cons.mp hx with rfl | hx
    · rw [hfinished] at hkind
      cases hkind
    · -- a call that comes after it
      obtain ⟨k, hk, hlt, hcall⟩ := hrest.started hx hkind
      have hone := ihrest x hx hkind
      rw [hcall] at hone ⊢
      rw [hend, if_neg (by omega), hinner.endsOf_eq_nil hids (.inr (by omega)), List.nil_append,
        List.nil_append]
      exact hone

/-! ## A log that grows by such pieces

A run appends to its log in pieces whose calls are all closed, and between them there is the
opening of a call that is still going on. -/

/-- The log has grown by a piece in which every call that is started is finished. -/
def Settles (log log' : EventLog) : Prop :=
  ∃ more, log' = ⟨log.runId, log.events ++ more⟩ ∧
    Balanced log.callIdAt log.events.length more

section
variable {log log' log'' : EventLog}

theorem Settles.refl (log : EventLog) : Settles log log := by
  refine ⟨[], ?_, .nil _⟩
  rw [List.append_nil]

theorem Settles.trans (h : Settles log log') (h' : Settles log' log'') : Settles log log'' := by
  obtain ⟨more, rfl, hmore⟩ := h
  obtain ⟨more', rfl, hmore'⟩ := h'
  refine ⟨more ++ more', ?_, hmore.append ?_⟩
  · rw [List.append_assoc]
  · rwa [List.length_append] at hmore'

/-- An event that is not of a call. -/
theorem Settles.plain {e : Event} (h : Settles log log') (he : e.callId = none)
    (hkind : e.kind ≠ .callStarted) : Settles log (log'.snoc e) :=
  h.trans ⟨[e], rfl, .plain he hkind (.nil _)⟩

/-- The next call was started, and what came after it is settled. -/
structure Ongoing (log log' : EventLog) : Prop where
  opened : ∃ started inner, log' = ⟨log.runId, log.events ++ started :: inner⟩ ∧
    started.kind = .callStarted ∧ started.callId = some (log.callIdAt log.events.length) ∧
      Balanced log.callIdAt (log.events.length + 1) inner
  named : log.runId ≠ []

/-- What is settled inside a call leaves it running. -/
theorem Ongoing.settles (h : Ongoing log log') (h' : Settles log' log'') : Ongoing log log'' := by
  obtain ⟨⟨started, inner, rfl, hkind, hid, hinner⟩, hnamed⟩ := h
  obtain ⟨more, rfl, hmore⟩ := h'
  refine ⟨⟨started, inner ++ more, ?_, hkind, hid, hinner.append ?_⟩, hnamed⟩
  · rw [List.append_assoc, List.cons_append]
  · have hplace :
        log.events.length + (inner.length + 1) = log.events.length + 1 + inner.length := by
      omega
    rw [List.length_append, List.length_cons, hplace] at hmore
    exact hmore

/-- A log without a later end of the call at its place. -/
def NoEnd (log : EventLog) : Prop :=
  ∀ e ∈ log.events, e.callId ≠ some (log.callIdAt log.events.length)

/-- The call that is under way was started, and was not finished. -/
theorem Ongoing.opened_not_ended (h : Ongoing log log') (hnew : NoEnd log) :
    (∃ e ∈ log'.events, e.kind = .callStarted ∧
      e.callId = some (log.callIdAt log.events.length)) ∧
    ∀ e ∈ log'.events, e.kind = .callFinished →
      e.callId ≠ some (log.callIdAt log.events.length) := by
  obtain ⟨⟨started, inner, rfl, hkind, hid, hinner⟩, -⟩ := h
  refine ⟨⟨started, List.mem_append_right _ List.mem_cons_self, hkind, hid⟩, fun e he hend ↦ ?_⟩
  rcases List.mem_append.mp he with he | he
  · exact hnew e he
  rcases List.mem_cons.mp he with rfl | he
  · rw [hkind] at hend
    cases hend
  · rcases hinner.place e he with ⟨hnone, -⟩ | ⟨k, hk, -, hcall⟩
    · rw [hnone]
      nofun
    · rw [hcall]
      intro heq
      have := log.callIdAt_injective (Option.some.inj heq)
      omega

end

/-! ## A call that has ended

A call that was opened and closed is closed for good: no event ends it a second time. -/

/-- The next call was started, and is finished with this outcome; what is between is settled. -/
def Ended (log : EventLog) (outcome : CallOutcome) (log' : EventLog) : Prop :=
  ∃ started inner finished,
    log' = ⟨log.runId, log.events ++ started :: (inner ++ [finished])⟩ ∧
    started.kind = .callStarted ∧ started.callId = some (log.callIdAt log.events.length) ∧
    Balanced log.callIdAt (log.events.length + 1) inner ∧ finished.kind = .callFinished ∧
    finished.callId = some (log.callIdAt log.events.length) ∧
    getOrNull finished.payload "outcome" = .str outcome.text

section
variable {log log' log'' : EventLog} {outcome : CallOutcome}

theorem Ongoing.ended {mask : Masking} (h : Ongoing log log')
    (hmask : mask.text outcome.text = outcome.text)
    (hend : Finishes mask (log.callIdAt log.events.length) outcome log' log'') :
    Ended log outcome log'' := by
  obtain ⟨⟨started, inner, rfl, hkind, hid, hinner⟩, -⟩ := h
  obtain ⟨finished, rfl, hkind', hid', houtcome⟩ := hend
  refine ⟨started, inner, finished, ?_, hkind, hid, hinner, hkind', hid', hmask ▸ houtcome⟩
  rw [snoc, List.append_assoc, List.cons_append]

theorem Ended.settles (h : Ended log outcome log') : Settles log log' := by
  obtain ⟨started, inner, finished, rfl, hkind, hid, hinner, hkind', hid', -⟩ := h
  exact ⟨_, rfl, .call hkind hid hinner hkind' hid' (.nil _)⟩

end

/-! ## A log that takes every record

Where the sink raises nothing, an operation that the log accepts is written. -/

/-- The sink writes what it is given: it raises nothing, so what is refused was refused by the log.
-/
def Takes {W : Type} (sink : Sink W) : Prop := ∀ e, Eff.Raises (fun _ ↦ False) (sink e)

section
variable {W : Type} {mask : Masking} {sink : Sink W} (hsink : Takes sink) {log log' : EventLog}
  {kind : EventKind} {iteration : ℕ} {callId : Option Str} {payload : Fields} {w : W}
include hsink

/-- Then only an event that is not one raises, and it leaves the log as it was. -/
theorem wp_append_taken :
    (append mask sink kind iteration callId payload).wp
      (fun _ p ↦ (log.next mask kind iteration callId payload).postInit = .ok () ∧
        p.2 = log.snoc (log.next mask kind iteration callId payload))
      (fun _ p ↦ p.2 = log) (w, log) := by
  rw [append, Eff.wp_bind, Eff.wp_read, Eff.wp_bind, Eff.wp_ofExcept]
  cases h : (log.next mask kind iteration callId payload).postInit with
  | error e => exact rfl
  | ok _ =>
    rw [Eff.wp_bind, Eff.wp_update, Eff.wp_zoom]
    exact (hsink _ _).mono (fun _ _ _ ↦ ⟨rfl, rfl⟩) fun _ _ h ↦ h.elim

/-- A call is started and under way, or it is not in the log. -/
theorem wp_startCall_taken {callKind : CallKind} {target : Option Str}
    {callInput : Eff Exc W (Option Str)} :
    (startCall mask sink callKind iteration target callInput payload).wp
      (fun id p ↦ id = log.callIdAt log.events.length ∧ Ongoing log p.2)
      (fun _ p ↦ p.2 = log) (w, log) := by
  rw [startCall, Eff.wp_bind, Eff.wp_read, Eff.wp_bind, Eff.wp_zoom]
  refine (Eff.wp_true _ _).mono (fun inputSha256 w' _ ↦ ?_) fun _ _ _ ↦ rfl
  rw [Eff.wp_bind]
  refine (wp_append_taken hsink).mono (fun _ p h ↦ ⟨rfl, ⟨_, [], h.2, rfl, rfl, .nil _⟩,
    Event.runId_ne_nil h.1⟩) fun _ _ h ↦ h

/-- The call that is under way is finished with its outcome. -/
theorem wp_finishCall_taken {outcome : CallOutcome} {error : Option Str} (h : Ongoing log log')
    (hnew : NoEnd log) (hmask : mask.text outcome.text = outcome.text) :
    (finishCall mask sink (log.callIdAt log.events.length) outcome iteration error).wp
      (fun _ p ↦ Finishes mask (log.callIdAt log.events.length) outcome log' p.2)
      (fun _ _ ↦ False) (w, log') := by
  obtain ⟨⟨e, he, hkind, hid⟩, hopen⟩ := h.opened_not_ended hnew
  have hrun : log'.runId = log.runId := by
    obtain ⟨⟨started, inner, rfl, -⟩, -⟩ := h
    rfl
  have hcall : log.callIdAt log.events.length ≠ [] := by
    rw [callIdAt, ne_eq, List.append_eq_nil_iff, List.append_eq_nil_iff]
    exact fun h' ↦ h.named h'.1.1
  rw [finishCall, Eff.wp_bind, Eff.wp_read, Eff.wp_ite, Eff.wp_ite]
  refine ⟨fun hno ↦ hno (List.any_eq_true.mpr ⟨e, he, decide_eq_true ⟨hkind, hid⟩⟩), fun _ ↦
    ⟨fun hended ↦ ?_, fun _ ↦ ?_⟩⟩
  · obtain ⟨f, hf, hended⟩ := List.any_eq_true.mp hended
    exact hopen f hf (of_decide_eq_true hended).1 (of_decide_eq_true hended).2
  · have hpost : (log'.next mask .callFinished iteration (some (log.callIdAt log.events.length))
        [(str "outcome", .str outcome.text), (str "error", textOrNull error)]).postInit =
          .ok () :=
      Event.postInit_finished (show log'.runId ≠ [] from hrun ▸ h.named) rfl rfl hcall
        (hmask ▸ outcome_next)
    refine (wp_append_of_postInit hpost).mono (fun _ p hp ↦ ?_) fun x p hp ↦ ?_
    · rw [hp]
      exact next_finishes
    · exact ((hsink _ w).of_raise (Prod.ext hp.2 rfl)).elim

end

end EventLog

end AtlasCore
