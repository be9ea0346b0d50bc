import AtlasCore.EventLog.Durable
import AtlasCore.EventLog.Pairing

/-!
# Who may append half a call

`start_call` issues the id of the call it starts and `finish_call` looks whether the call it
finishes was started and is open.  `append` is the way in for both, and it takes either half with
any id.  So a log stays well formed exactly as long as nobody appends half a call that the two would
not have appended (`wellFormed_iff_inPlace`), through any number of resumes.
-/

set_option autoImplicit false

namespace AtlasCore

open Py

namespace EventLog

/-- Half a call that is appended directly is one that `start_call` or `finish_call` would have
appended: a start has the id of its place, and what is finished was started and is open. -/
def Operation.InPlace (log : EventLog) : Operation → Prop
  | .append kind _ callId _ =>
    (EventKind.ofText kind = some .callStarted →
      callId = some (placeId log.runId log.events.length)) ∧
    (EventKind.ofText kind = some .callFinished → ∃ call, callId = some call ∧
      Names .callStarted call log.events ∧ ¬ Names .callFinished call log.events)
  | _ => True

/-- What happens to a log: an operation, or the end of the process and a new log over what was kept.
-/
inductive Step where
  | operation (op : Operation)
  /-- The process is gone, and a log is built from as many of the events as were kept. -/
  | resume (kept : ℕ)

section
variable {W : Type} (mask : Masking) (sink : Sink W)

/-- One step: an operation, whatever the sink does with its event, or a resume. -/
def Step.take : Step → W × EventLog → W × EventLog
  | .operation op, s => (perform mask sink op s).2
  | .resume kept, s =>
    match build s.2.runId (s.2.events.take kept) with
    | .ok log => (s.1, log)
    | .error _ => s

/-- What several steps lead to, from a sink and a log. -/
def reached (s : W × EventLog) (steps : List Step) : W × EventLog :=
  steps.foldl (fun s step ↦ step.take mask sink s) s

/-- Every operation that is accepted is in place. -/
def AllInPlace (s : W × EventLog) (steps : List Step) : Prop :=
  ∀ done op rest, steps = done ++ .operation op :: rest →
    (∃ event, op.event mask (reached mask sink s done).2 = .ok event) →
      op.InPlace (reached mask sink s done).2

end

variable {W : Type} {mask : Masking} {sink : Sink W} {s : W × EventLog} {log : EventLog}
  {events : List Event} {e : Event} {runId : Str}

/-! ## One operation

An operation keeps a log well formed exactly if it is in place there. -/

/-- **The event of an operation follows on a log exactly when the operation is in place.** -/
theorem follows_iff_inPlace {op : Operation} (h : op.event mask log = .ok e) :
    Follows log.runId log.events e ↔ op.InPlace log := by
  have hevent := Operation.event_eq_ok h
  cases op with
  | append kind iteration callId payload =>
    obtain ⟨k, hkind, rfl, -⟩ := appended_eq_next h
    constructor
    · intro hf
      refine ⟨fun hk ↦ ?_, fun hk ↦ ?_⟩
      · exact hf.started (Option.some.inj (hkind.symm.trans hk))
      · exact hf.finished (Option.some.inj (hkind.symm.trans hk))
    · intro hin
      refine ⟨hevent.1, rfl, rfl, fun hk ↦ ?_, fun hk ↦ ?_⟩
      · exact hin.1 (hkind.trans (congrArg some hk))
      · exact hin.2 (hkind.trans (congrArg some hk))
  | startCall callKind iteration target callInput payload =>
    obtain ⟨_, _, h⟩ := Except.bind_eq_ok.mp h
    obtain ⟨_, _, h⟩ := Except.bind_eq_ok.mp h
    obtain ⟨_, _, h⟩ := Except.bind_eq_ok.mp h
    obtain ⟨k, hkind, rfl, -⟩ := appended_eq_next h
    obtain rfl := Option.some.inj ((EventKind.ofText_text _).symm.trans hkind)
    exact iff_of_true ⟨hevent.1, rfl, rfl, fun _ ↦ rfl, fun hk ↦ (by cases hk)⟩ trivial
  | finishCall callId outcome iteration error payload =>
    obtain ⟨_, _, h⟩ := Except.bind_eq_ok.mp h
    split_ifs at h with hstarted hfinished
    obtain ⟨k, hkind, rfl, -⟩ := appended_eq_next h
    obtain rfl := Option.some.inj ((EventKind.ofText_text _).symm.trans hkind)
    have hnames : ∀ kind, holdsCall kind callId log = true ↔ Names kind callId log.events := by
      intro kind
      simp only [holdsCall, Names, List.any_eq_true, decide_eq_true_eq]
    refine iff_of_true ⟨hevent.1, rfl, rfl, fun hk ↦ (by cases hk), fun _ ↦ ⟨callId, rfl, ?_, ?_⟩⟩
      trivial
    · exact (hnames _).mp (Bool.eq_true_of_not_eq_false hstarted)
    · exact fun h ↦ hfinished ((hnames _).mpr h)

/-! ## What is well formed was paired

The calls of a well-formed log are opened once and closed at most once, in this order. -/

/-- Events that come after others have greater numbers. -/
theorem WellFormed.sequence_eq (h : WellFormed runId events) {before after : List Event}
    (he : events = before ++ e :: after) :
    e.sequence = before.length ∧ (∀ x ∈ before, x.sequence < before.length) ∧
      ∀ x ∈ after, before.length < x.sequence := by
  have hnumbers := h.numbered
  rw [he, List.map_append, List.length_append, List.range_add] at hnumbers
  obtain ⟨hbefore, hrest⟩ := List.append_inj hnumbers (by simp)
  rw [List.map_cons, List.length_cons, List.range_succ_eq_map, List.map_cons,
    List.cons.injEq] at hrest
  refine ⟨by rw [hrest.1, Nat.add_zero], fun x hx ↦ ?_, fun x hx ↦ ?_⟩
  · have hmem := List.mem_map_of_mem (f := fun e : Event ↦ e.sequence) hx
    rw [hbefore] at hmem
    exact List.mem_range.mp hmem
  · have hmem := List.mem_map_of_mem (f := fun e : Event ↦ e.sequence) hx
    rw [hrest.2, List.map_map] at hmem
    obtain ⟨n, -, hn⟩ := List.mem_map.mp hmem
    rw [← hn]
    exact Nat.lt_add_of_pos_right (Nat.succ_pos n)

/-- **Every event of a well-formed log follows on those before it.** -/
theorem WellFormed.paired (h : WellFormed runId events)
    (hpost : ∀ e ∈ events, e.postInit = .ok ()) : Paired runId events := by
  intro before e after he
  obtain ⟨hsequence, hbefore, hafter⟩ := h.sequence_eq he
  have hmem : e ∈ events := by
    rw [he]
    exact List.mem_append_right _ List.mem_cons_self
  refine ⟨hpost e hmem, h.ofRun e hmem, hsequence, fun hk ↦ ?_, fun hk ↦ ?_⟩
  · rw [h.started e hmem hk, hsequence]
  · obtain ⟨start, hstart, hsk, hsc, hlt⟩ := h.finishedLater e hmem hk
    have hin : start ∈ before := by
      rw [he, List.mem_append, List.mem_cons] at hstart
      rcases hstart with hs | rfl | hs
      · exact hs
      · exact absurd hlt (lt_irrefl _)
      · exact absurd (hafter start hs) (by omega)
    have hcall := h.started start (by rw [he]; exact List.mem_append_left _ hin) hsk
    refine ⟨_, hsc.symm.trans hcall, ⟨start, hin, hsk, hcall⟩, ?_⟩
    rintro ⟨f, hf, hfk, hfc⟩
    have hfmem : f ∈ events := by
      rw [he]
      exact List.mem_append_left _ hf
    obtain rfl := h.finishedOnce f hfmem e hmem hfk hk (hfc.trans (hsc.symm.trans hcall).symm)
    exact absurd (hbefore f hf) (by omega)

/-! ## Every step

The same over operations and resumes, from an empty log. -/

/-- What holds of a log at every step: it is of this run, and its events are events. -/
structure Standing (runId : Str) (log : EventLog) : Prop where
  ofRun : log.runId = runId
  postInit : ∀ e ∈ log.events, e.postInit = .ok ()

theorem reached_snoc {steps : List Step} {step : Step} :
    reached mask sink s (steps ++ [step]) = step.take mask sink (reached mask sink s steps) :=
  List.foldl_append

/-- An operation adds its event, or nothing. -/
theorem take_operation {op : Operation} :
    ((Step.operation op).take mask sink s).2 =
      match op.event mask s.2 with
      | .ok event => s.2.snoc event
      | .error _ => s.2 := by
  rw [Step.take, show s = (s.1, s.2) from rfl, perform_eq]
  cases op.event mask s.2 <;> rfl

variable (mask sink) in
theorem take_resume (kept : ℕ) (h : Standing runId s.2) :
    ((Step.resume kept).take mask sink s).2 = s.2 ∨
      ((Step.resume kept).take mask sink s).2 = ⟨runId, s.2.events.take kept⟩ := by
  rw [Step.take]
  split
  · rename_i log hbuild
    rw [build] at hbuild
    split_ifs at hbuild
    rw [← Except.ok.inj hbuild, h.ofRun]
    exact .inr rfl
  · exact .inl rfl

theorem Standing.take (h : Standing runId s.2) (step : Step) :
    Standing runId (step.take mask sink s).2 := by
  cases step with
  | operation op =>
    rw [take_operation]
    split
    · rename_i event hevent
      refine ⟨h.ofRun, fun e he ↦ ?_⟩
      rcases List.mem_append.mp he with he | he
      · exact h.postInit e he
      · rw [List.mem_singleton.mp he]
        exact (Operation.event_eq_ok hevent).1
    · exact h
  | resume kept =>
    rcases take_resume mask sink kept h with heq | heq
    · rw [heq]
      exact h
    · rw [heq]
      exact ⟨rfl, fun e he ↦ h.postInit e (List.mem_of_mem_take he)⟩

theorem Standing.reached (h : Standing runId s.2) (steps : List Step) :
    Standing runId (reached mask sink s steps).2 := by
  induction steps using List.reverseRecOn with
  | nil => exact h
  | append_singleton steps step ih =>
    rw [reached_snoc]
    exact ih.take step

/-- One step that is in place leaves a log whose events follow on each other. -/
theorem Paired.take (hs : Standing runId s.2) (h : Paired runId s.2.events) (step : Step)
    (hstep : ∀ op, step = .operation op → (∃ event, op.event mask s.2 = .ok event) →
      op.InPlace s.2) : Paired runId (step.take mask sink s).2.events := by
  cases step with
  | operation op =>
    rw [take_operation]
    split
    · rename_i event hevent
      have hfollows := (follows_iff_inPlace hevent).mpr (hstep op rfl ⟨event, hevent⟩)
      rw [hs.ofRun] at hfollows
      exact grown_concat.mpr ⟨h, hfollows⟩
    · exact h
  | resume kept =>
    rcases take_resume mask sink kept hs with heq | heq
    · rw [heq]
      exact h
    · rw [heq]
      exact Grown.of_cut h (List.take_prefix kept _)

theorem AllInPlace.left {steps more : List Step} (h : AllInPlace mask sink s (steps ++ more)) :
    AllInPlace mask sink s steps := fun done op rest he ↦
  h done op (rest ++ more) (by rw [he, List.append_assoc, List.cons_append])

theorem AllInPlace.paired {steps : List Step} (h : AllInPlace mask sink s steps)
    (hs : Standing runId s.2) (hp : Paired runId s.2.events) :
    Paired runId (reached mask sink s steps).2.events := by
  induction steps using List.reverseRecOn with
  | nil => exact hp
  | append_singleton steps step ih =>
    rw [reached_snoc]
    refine Paired.take (hs.reached steps) (ih h.left) step fun op hop hevent ↦ ?_
    exact h steps op [] (by rw [hop]) hevent

/-- **A log is well formed as long as half a call is appended where it belongs, and no longer.**
From any valid history, through any operations and resumes, every log that is reached is well formed
if and only if every direct append of half a call that was accepted is in place. -/
theorem wellFormed_iff_inPlace (hs : Standing runId s.2) (hvalid : WellFormed runId s.2.events)
    (steps : List Step) :
    (∀ done, done <+: steps → WellFormed runId (reached mask sink s done).2.events) ↔
      AllInPlace mask sink s steps := by
  constructor
  · rintro h done op rest rfl ⟨event, hevent⟩
    have hstanding : Standing runId (reached mask sink s done).2 := hs.reached done
    have hafter := h (done ++ [.operation op]) ⟨rest, by simp⟩
    have hpaired := hafter.paired (hs.reached _).postInit
    rw [reached_snoc, take_operation, hevent] at hpaired
    have hfollows := (grown_concat.mp hpaired).2
    rw [← hstanding.ofRun] at hfollows
    exact (follows_iff_inPlace hevent).mp hfollows
  · rintro h done ⟨rest, rfl⟩
    exact (h.left.paired hs (hvalid.paired hs.postInit)).wellFormed

end EventLog

end AtlasCore
