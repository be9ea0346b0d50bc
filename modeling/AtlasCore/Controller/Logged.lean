import AtlasCore.Controller.Drift
import AtlasCore.EventLog.Halves
import AtlasCore.EventLog.History

/-!
# What a run writes into its log

Every step of a run keeps the log a history (`Begun`): a step appends an event that is admitted, or
does not touch the log.  The one stop is appended at the end, when the run is over and has a reason
(`run_history`).  A run that resumes goes on from a beginning of such a log, so it stays one through
any number of interruptions (`LeftOf.history`).
-/

set_option autoImplicit false

namespace AtlasCore

open Py RunM EventLog Inspect

variable {W : Type}

/-! ## The payloads

None of the names that the controller writes is blank, so the validation of a log accepts each of
its payloads. -/

theorem RouteName.isBlank_text (route : RouteName) : isBlank route.text = false := by
  cases route <;> decide

theorem Gap.isBlank_code (gap : Gap) : isBlank gap.code = false := by
  cases gap <;> decide

theorem Criterion.isBlank_code (criterion : Criterion) : isBlank criterion.code = false := by
  cases criterion with
  | required s => cases s <;> decide
  | _ => decide

theorem StopReason.isBlank_text (reason : StopReason) : isBlank reason.text = false := by
  cases reason <;> decide

theorem StopClass.isBlank_text (cls : StopClass) : isBlank cls.text = false := by
  cases cls <;> decide

theorem Status.isBlank_text (status : Status) : isBlank status.text = false := by
  cases status <;> decide

theorem isSpace_of_isHex {c : CodePoint} (h : isHex c = true) : isSpace c = false := by
  simp only [isHex, isSpace, Bool.or_eq_true, Bool.and_eq_true, decide_eq_true_eq,
    Bool.or_eq_false_iff, Bool.and_eq_false_iff, decide_eq_false_iff_not,
      beq_eq_false_iff_ne] at h ⊢
  omega

/-- A source id is the beginning of a digest, which has no white space. -/
theorem Observation.isBlank_sourceId (o : Observation) : isBlank o.sourceId = false := by
  have h := o.deriveSourceId_eq
  simp only [deriveSourceId, sha256Text, Option.map_eq_some_iff] at h
  obtain ⟨digest, ⟨bs, -, rfl⟩, hid⟩ := h
  have hlength := congrArg List.length hid
  rw [List.length_take, sha256_length] at hlength
  obtain ⟨c, rest, hcons⟩ := List.exists_cons_of_length_pos (l := o.sourceId) (by omega)
  have hmem : c ∈ sha256 bs := by
    refine List.mem_of_mem_take (i := 16) ?_
    rw [hid, hcons]
    exact List.mem_cons_self
  rw [hcons, isBlank, List.all_cons,
    isSpace_of_isHex (List.all_eq_true.mp (sha256_isHex bs) c hmem), Bool.false_and]

/-- A list of texts that are not blank. -/
theorem itemsAre_texts {α : Type} {payload : Fields} {key : String} {xs : List α} {f : α → Str}
    (hlookup : Json.lookup (str key) payload = some (.arr (xs.map fun x ↦ .str (f x))))
    (h : ∀ x ∈ xs, isBlank (f x) = false) : ItemsAre payload key IsNonempty := by
  refine ⟨_, hlookup, fun v hv ↦ ?_⟩
  obtain ⟨x, hx, rfl⟩ := List.mem_map.mp hv
  exact isNonempty_str (h x hx)

theorem planPayload_reportable (route : RouteName) (plan : AtlasPlan) :
    Reportable .planSelected (planPayload route plan) := isNonempty_str route.isBlank_text

theorem decisionPayload_reportable (e : AtlasEvaluation) :
    Reportable .decisionRecorded (decisionPayload e) :=
  ⟨itemsAre_texts rfl fun g _ ↦ g.isBlank_code, itemsAre_texts rfl fun c _ ↦ c.isBlank_code⟩

theorem stoppedPayload_reportable {s : AtlasRunState} {budget : Option RunBudget}
    {reason : StopReason} (h : s.stopReason = some reason) :
    Reportable .runStopped (stoppedPayload s budget) := by
  have hreason : getOrNull (stoppedPayload s budget) "stop_reason" =
      textOrNull (s.stopReason.map (·.text)) := rfl
  have hclass : getOrNull (stoppedPayload s budget) "stop_class" =
      textOrNull (s.stopReason.map (·.stopClass.text)) := rfl
  refine ⟨isNonempty_str s.status.isBlank_text, ?_, ?_⟩
  · rw [hreason, h]
    exact isNonempty_str reason.isBlank_text
  · rw [hclass, h]
    exact isNonempty_str reason.stopClass.isBlank_text

/-- What a round names is named: no id and no path in it is blank, so that the validation of a log
accepts it. -/
structure ObservationRound.Named (round : ObservationRound) : Prop where
  superseded : ∀ s ∈ round.superseded, isBlank s.sourceId = false ∧ isBlank s.path = false
  unchanged : ∀ id ∈ round.unchanged, isBlank id = false

theorem checkSource_recorded {fields : Fields} {id path : Str}
    (hid : getOrNull fields "source_id" = .str id)
    (hpath : Json.lookup (str "path") fields = some (.str path)) (hidne : isBlank id = false)
    (hpathne : isBlank path = false) : checkSource (.obj fields) = .ok () := by
  refine checkSource_eq_ok (by rw [hid]; exact isNonempty_str hidne) fun other h ↦ ?_
  rw [← Option.some.inj (hpath.symm.trans h)]
  exact isNonempty_str hpathne

theorem RoundRecord.payload_reportable {r : RoundRecord} (h : r.round.Named) :
    Reportable .observationRecorded r.payload := by
  refine ⟨⟨_, rfl, fun v hv ↦ ?_⟩, ⟨_, rfl, fun v hv ↦ ?_⟩, itemsAre_texts rfl h.unchanged⟩
  · obtain ⟨o, -, rfl⟩ := List.mem_map.mp hv
    exact checkSource_recorded rfl rfl o.isBlank_sourceId o.isBlank_path
  · obtain ⟨s, hs, rfl⟩ := List.mem_map.mp hv
    exact checkSource_recorded rfl rfl (h.superseded s hs).1 (h.superseded s hs).2

theorem Merging.step_named {snapshot : Snapshot} {existing : List Observation} {m next : Merging}
    {item : Option Observation} (h : m.round.Named)
    (hs : m.step snapshot existing item = .ok next) :
    next.round.Named := by
  cases item with
  | none => cases hs
  | some item =>
    rw [Merging.step] at hs
    split_ifs at hs
    dsimp only at hs
    split at hs
    · obtain rfl := Except.ok.inj hs
      exact ⟨h.superseded, h.unchanged⟩
    · split_ifs at hs
      · obtain rfl := Except.ok.inj hs
        refine ⟨h.superseded, fun id hid ↦ ?_⟩
        rcases List.mem_append.mp hid with hid | hid
        · exact h.unchanged id hid
        · rw [List.mem_singleton.mp hid]
          exact item.isBlank_sourceId
      · obtain ⟨merged, -, hs⟩ := Except.bind_eq_ok.mp hs
        obtain rfl := Except.ok.inj hs
        exact ⟨h.superseded, h.unchanged⟩
      · obtain ⟨merged, -, hs⟩ := Except.bind_eq_ok.mp hs
        obtain rfl := Except.ok.inj hs
        refine ⟨fun s hmem ↦ ?_, h.unchanged⟩
        rcases List.mem_append.mp hmem with hmem | hmem
        · exact h.superseded s hmem
        · rw [List.mem_singleton.mp hmem]
          exact ⟨item.isBlank_sourceId, item.isBlank_path⟩

theorem Merging.run_named {snapshot : Snapshot} {existing : List Observation} :
    ∀ {incoming : List (Option Observation)} {m next : Merging}, m.round.Named →
      m.run snapshot existing incoming = .ok next → next.round.Named
  | [], _, _, h, hrun => by
    rw [← Except.ok.inj hrun]
    exact h
  | item :: rest, m, next, h, hrun => by
    obtain ⟨m', hstep, hrest⟩ := Except.bind_eq_ok.mp hrun
    exact Merging.run_named (Merging.step_named h hstep) hrest

theorem mergeObservations_named {snapshot : Snapshot} {existing : List Observation}
    {incoming : List (Option Observation)} {merged : List Observation} {round : ObservationRound}
    (h : mergeObservations snapshot existing incoming = .ok (merged, round)) : round.Named := by
  obtain ⟨m, hm, h⟩ := Except.bind_eq_ok.mp h
  obtain ⟨rfl, rfl⟩ := Prod.mk.inj (Except.ok.inj h)
  exact Merging.run_named
    ⟨fun _ hs ↦ absurd hs List.not_mem_nil, fun _ hs ↦ absurd hs List.not_mem_nil⟩ hm

/-! ## Steps and the log

What every step of a run does to its log, said once for all properties of logs: a property that an
appended event keeps is kept by the whole run.  An `Upheld` property is one of which that is
known. -/

/-- Of the log of a run, if it has one. -/
def LogIs (P : EventLog → Prop) (r : Run W) : Prop := ∀ log, r.inside.log = some log → P log

theorem LogIs.of_some {P : EventLog → Prop} {r : Run W} {log : EventLog}
    (hlog : r.inside.log = some log) (h : P log) : LogIs P r := fun _ hlog' ↦
  Option.some.inj (hlog.symm.trans hlog') ▸ h

/-- The log of a run that goes on. -/
structure Begun (runId : Str) (log : EventLog) : Prop where
  ofRun : log.runId = runId
  history : History runId log.events
  nonempty : log.events ≠ []
  going : ∀ e ∈ log.events, e.kind ≠ .runStopped

/-- Of the log, if there is one; of a run without a log nothing is said. -/
def IfAny (P : EventLog → Prop) (found : Option EventLog) : Prop := ∀ log, found = some log → P log

theorem ifAny_some {P : EventLog → Prop} {log : EventLog} : IfAny P (some log) ↔ P log :=
  ⟨fun h ↦ h log rfl, fun h _ hlog ↦ Option.some.inj hlog ▸ h⟩

/-- A step that keeps this of the log. -/
abbrev KeepsLog {α : Type} (P : Option EventLog → Prop) (m : RunM W α) : Prop :=
  Eff.Keeps (fun r : Run W ↦ P r.inside.log) m

/-- The kinds that a pass of the loop appends as they are. -/
def EventKind.isStep : EventKind → Bool
  | .planSelected | .decisionRecorded | .observationRecorded => true
  | _ => false

/-- What stays true of the log with each event that a run may append between its start and its
stop. -/
structure Upheld (env : Setting W) (P : Option EventLog → Prop) : Prop where
  append : ∀ {log : EventLog} {kind : EventKind} {iteration : ℕ} {payload : Fields}, P (some log) →
    kind.isStep = true → Reportable kind payload →
      (log.next env.mask kind iteration none payload).postInit = .ok () →
        P (some (log.snoc (log.next env.mask kind iteration none payload)))
  startCall : ∀ {log : EventLog} {iteration : ℕ} {payload : Fields}, P (some log) →
    (log.next env.mask .callStarted iteration (some (log.callIdAt log.events.length))
        payload).postInit = .ok () →
      P (some (log.snoc (log.next env.mask .callStarted iteration
        (some (log.callIdAt log.events.length)) payload)))
  finishCall : ∀ {log : EventLog} {iteration : ℕ} {call : Str} {payload : Fields}, P (some log) →
    Names .callStarted call log.events → ¬ Names .callFinished call log.events →
      (log.next env.mask .callFinished iteration (some call) payload).postInit = .ok () →
        P (some (log.snoc (log.next env.mask .callFinished iteration (some call) payload)))

/-- What stays true of the log with each event that a pass appends as it is. -/
abbrev Appends (env : Setting W) (P : Option EventLog → Prop) : Prop :=
  ∀ {log : EventLog} {kind : EventKind} {iteration : ℕ} {payload : Fields}, P (some log) →
    kind.isStep = true → Reportable kind payload →
      (log.next env.mask kind iteration none payload).postInit = .ok () →
        P (some (log.snoc (log.next env.mask kind iteration none payload)))

section
variable {α : Type} {P : Option EventLog → Prop}

/-- What does not touch the log. -/
theorem keeps_still {m : RunM W α} (h : ∀ r, (m r).2.inside.log = r.inside.log) :
    KeepsLog P m := fun r hr ↦ by
  refine (Eff.wp_run m r).mono (fun a t ht ↦ ?_) fun e t ht ↦ ?_ <;>
  · have hsame := h r
    rw [ht] at hsame
    rwa [hsame]

theorem wp_state {Q : AtlasRunState → Run W → Prop} {E : Exc → Run W → Prop} {r : Run W} :
    (state (W := W)).wp Q E r ↔ Q r.inside.state r := Iff.rfl

theorem keeps_outside (m : Eff Exc W α) : KeepsLog P (outside m) :=
  keeps_still fun _ ↦ rfl

theorem keeps_metered (m : Eff Exc (W × RunBudget) α) : KeepsLog P (metered m) :=
  keeps_still fun r ↦ by
    rw [metered]
    cases r.budget <;> rfl

theorem keeps_state : KeepsLog P (state (W := W)) := keeps_still fun _ ↦ rfl

theorem keeps_read : KeepsLog P (Eff.read : RunM W (Run W)) := keeps_still fun _ ↦ rfl

theorem keeps_setState (f : AtlasRunState → AtlasRunState) :
    KeepsLog P (setState (W := W) f) := keeps_still fun _ ↦ rfl

theorem keeps_setMetadata (f : Metadata → Metadata) :
    KeepsLog P (setMetadata (W := W) f) := keeps_setState _

theorem keeps_mark (m : Mark) : KeepsLog P (note (W := W) m) := keeps_still fun _ ↦ rfl

theorem keeps_refuse (source target : Status) :
    KeepsLog P (refuse (W := W) source target) :=
  (keeps_mark _).bind fun _ ↦ Eff.Keeps.raise _

theorem keeps_become (s : Status) : KeepsLog P (become (W := W) s) :=
  (keeps_setState _).bind fun _ ↦ keeps_mark _

theorem keeps_enter (target : Status) : KeepsLog P (enter (W := W) target) :=
  keeps_state.bind fun _ ↦ Eff.Keeps.ite (fun _ ↦ keeps_become _) fun _ ↦ keeps_refuse _ _

theorem keeps_stop (reason : StopReason) : KeepsLog P (stop (W := W) reason) := by
  unfold stop
  refine Eff.Keeps.ite (fun _ ↦ ?_) fun _ ↦ (keeps_enter _).bind fun _ ↦ keeps_setState _
  refine keeps_state.bind fun _ ↦ Eff.Keeps.ite (fun _ ↦ ?_) fun _ ↦ ?_
  · exact (keeps_refuse _ _).bind fun _ ↦ keeps_setState _
  · exact (keeps_become _).bind fun _ ↦ keeps_setState _

theorem keeps_stopCancelled : KeepsLog P (stopCancelled (W := W)) := keeps_stop _

theorem keeps_stopBudget (limit : Str) : KeepsLog P (stopBudget (W := W) limit) :=
  (keeps_setMetadata _).bind fun _ ↦ keeps_stop _

theorem keeps_stopToolError (stage : String) (e : Exc) :
    KeepsLog P (stopToolError (W := W) stage e) :=
  (keeps_stop _).bind fun _ ↦ keeps_setMetadata _

/-- What the log does, when there is one. -/
theorem wp_logged {m : Eff Exc (W × EventLog) α} {r : Run W} {log : EventLog}
    {Q : α → W × EventLog → Prop} {E : Exc → W × EventLog → Prop} (hlog : r.inside.log = some log)
    (h : m.wp Q E (r.world, log)) :
    (logged m).wp
      (fun found r' ↦ ∃ a log', found = some a ∧ r'.inside.log = some log' ∧ Q a (r'.world, log'))
      (fun e r' ↦ ∃ log', r'.inside.log = some log' ∧ E e (r'.world, log')) r := by
  have hm : logged m r = ((m (r.world, log)).1.map some,
      { r with
        world := (m (r.world, log)).2.1
        inside := { r.inside with log := some (m (r.world, log)).2.2 } }) := by
    rw [logged, hlog]
  rw [Eff.wp] at h ⊢
  rw [hm]
  cases hrun : m (r.world, log) with
  | mk outcome p =>
    rw [hrun] at h
    cases outcome with
    | ok a => exact ⟨a, p.2, rfl, rfl, h⟩
    | error e => exact ⟨p.2, rfl, h⟩

/-- What the log does keeps what it keeps of the log. -/
theorem keeps_logged {m : Eff Exc (W × EventLog) α}
    (h : ∀ w log, P (some log) → m.wp (fun _ p ↦ P (some p.2)) (fun _ p ↦ P (some p.2)) (w, log)) :
    KeepsLog P (logged m) := fun r hr ↦ by
  cases hlog : r.inside.log with
  | none =>
    have hm : logged m r = (.ok none, r) := by
      rw [logged, hlog]
    rw [Eff.wp, hm]
    exact hr
  | some log =>
    refine (wp_logged hlog (h r.world log (hlog ▸ hr))).mono (fun _ r' hr' ↦ ?_) fun _ r' hr' ↦ ?_
    · obtain ⟨_, log', -, hlog', hP⟩ := hr'
      rwa [hlog']
    · obtain ⟨log', hlog', hP⟩ := hr'
      rwa [hlog']

end

variable {env : Setting W} {log : EventLog} {runId : Str}

theorem Begun.snoc (h : Begun runId log) {e : Event} (he : Admits runId log.events e)
    (hstop : e.kind ≠ .runStopped) : Begun runId (log.snoc e) where
  ofRun := h.ofRun
  history := grown_concat.mpr ⟨h.history, he⟩
  nonempty := List.append_ne_nil_of_right_ne_nil _ (List.cons_ne_nil e [])
  going := fun x hx ↦ by
    rcases List.mem_append.mp hx with hx | hx
    · exact h.going x hx
    · rw [List.mem_singleton.mp hx]
      exact hstop

/-- The next event of a log that was begun is admitted if it is not the start of a run, and half a
call only where it belongs. -/
theorem Begun.admits {mask : Masking} {kind : EventKind} {iteration : ℕ} {callId : Option Str}
    {payload : Fields} (h : Begun runId log)
    (hpost : (log.next mask kind iteration callId payload).postInit = .ok ())
    (hstarts : kind ≠ .runStarted) (hreport : Reportable kind payload)
    (hstarted : kind = .callStarted → callId = some (placeId runId log.events.length))
    (hfinished : kind = .callFinished → ∃ call, callId = some call ∧
      Names .callStarted call log.events ∧ ¬ Names .callFinished call log.events) :
    Admits runId log.events (log.next mask kind iteration callId payload) where
  follows := ⟨hpost, h.ofRun, rfl, hstarted, hfinished⟩
  starts := iff_of_false h.nonempty hstarts
  going := h.going
  reportable := hreport.masked

/-- A kind that is appended as it is: not half a call, and neither end of the run. -/
def EventKind.isInner : EventKind → Bool
  | .callStarted | .callFinished | .runStarted | .runStopped => false
  | _ => true

/-- Such an event is admitted. -/
theorem Begun.snoc_inner {mask : Masking} {kind : EventKind} {iteration : ℕ} {payload : Fields}
    (h : Begun runId log) (hkind : kind.isInner = true) (hreport : Reportable kind payload)
    (hpost : (log.next mask kind iteration none payload).postInit = .ok ()) :
    Begun runId (log.snoc (log.next mask kind iteration none payload)) := by
  have hne : ∀ other, other.isInner = false → kind ≠ other := by
    rintro other hother rfl
    rw [hkind] at hother
    cases hother
  refine h.snoc ?_ (hne _ rfl)
  exact h.admits hpost (hne _ rfl) hreport (fun hk ↦ absurd hk (hne _ rfl))
    fun hk ↦ absurd hk (hne _ rfl)

theorem Begun.keeps_append {kind : EventKind} {iteration : ℕ} {payload : Fields}
    (hkind : kind.isInner = true) (hreport : Reportable kind payload) :
    KeepsLog (IfAny (Begun env.runId)) (RunM.append env kind iteration payload) := by
  rw [RunM.append]
  cases env.events with
  | none => exact Eff.Keeps.pure _
  | some sink =>
    refine Eff.Keeps.bind (keeps_logged fun w log h ↦ ?_) fun _ ↦ Eff.Keeps.pure _
    exact wp_append_keeps (P := fun log ↦ IfAny (Begun env.runId) (some log)) h fun hpost ↦
      ifAny_some.mpr ((ifAny_some.mp h).snoc_inner hkind hreport hpost)

theorem EventKind.isInner_of_isStep {kind : EventKind} (h : kind.isStep = true) :
    kind.isInner = true := by
  cases kind <;> first | rfl | cases h

/-- A log that was begun stays one. -/
theorem begun_upheld : Upheld env (IfAny (Begun env.runId)) where
  append hany hkind hreport hpost :=
    ifAny_some.mpr
      ((ifAny_some.mp hany).snoc_inner (EventKind.isInner_of_isStep hkind) hreport hpost)
  startCall hany hpost := by
    have h := ifAny_some.mp hany
    exact ifAny_some.mpr (h.snoc (h.admits hpost nofun trivial
      (fun _ ↦ by rw [EventLog.callIdAt, h.ofRun]; rfl) nofun) nofun)
  finishCall hany hstarted hopen hpost := by
    have h := ifAny_some.mp hany
    exact ifAny_some.mpr (h.snoc (h.admits hpost nofun trivial nofun
      fun _ ↦ ⟨_, rfl, hstarted, hopen⟩) nofun)

/-! ## Steps that leave the log alone

Most steps of a run do not write at all; for these the frame rules are enough. -/

section
variable {P : Option EventLog → Prop}

theorem keeps_forM {ι : Type} {I : Run W → Prop} {f : ι → RunM W Unit} {xs : List ι}
    (h : ∀ x, Eff.Keeps I (f x)) : Eff.Keeps I (xs.forM f) := by
  induction xs with
  | nil => exact Eff.Keeps.pure _
  | cons x xs ih => exact (h x).bind fun _ ↦ ih

theorem keepsLog_askHost {base : EvidenceBase} {observer : Observer W}
    {request : ObservationRequest} {r : Run W} (hr : P r.inside.log) :
    (askHost env base observer request).wp
      (fun p t ↦ p.2.Named ∧ P t.inside.log) (fun _ t ↦ P t.inside.log) r := by
  rw [askHost, Eff.wp_bind]
  refine (keeps_metered _ r hr).mono (fun _ r hr ↦ ?_) fun _ _ h ↦ h
  rw [Eff.wp_bind]
  refine (keeps_metered _ r hr).mono (fun incoming r hr ↦ ?_) fun _ _ h ↦ h
  rw [Eff.wp_ofExcept]
  cases hmerge : mergeObservations base.snapshot base.observations incoming with
  | error e => exact hr
  | ok p => exact ⟨mergeObservations_named hmerge, hr⟩

theorem keepsLog_expired : KeepsLog P (expired env) := by
  refine keeps_read.bind fun r ↦ ?_
  refine Eff.Keeps.bind (Eff.Keeps.attempt (Eff.Keeps.ite (fun _ ↦ ?_) fun _ ↦ keeps_metered _))
    fun x ↦ ?_
  · exact (keeps_outside _).bind fun _ ↦
      Eff.Keeps.ite (fun _ ↦ Eff.Keeps.raise _) fun _ ↦ Eff.Keeps.pure _
  · split
    · exact Eff.Keeps.pure _
    · exact keeps_stopCancelled.bind fun _ ↦ Eff.Keeps.pure _
    · exact (keeps_stopBudget _).bind fun _ ↦ Eff.Keeps.pure _
    · exact Eff.Keeps.raise _

theorem keepsLog_driftReport : KeepsLog P (driftReport env) := by
  refine keeps_state.bind fun s ↦ ?_
  split
  · exact (keeps_mark _).bind fun _ ↦ Eff.Keeps.pure _
  · refine Eff.Keeps.ite (fun _ ↦ (keeps_mark _).bind fun _ ↦ Eff.Keeps.pure _) fun _ ↦ ?_
    exact (keeps_outside _).bind fun _ ↦ (keeps_mark _).bind fun _ ↦ Eff.Keeps.pure _

theorem keepsLog_chargeModel {result : ModelResult} {output : Str} :
    KeepsLog P (chargeModel env result output) :=
  keeps_read.bind fun _ ↦ Eff.Keeps.ite
    (fun _ ↦ (Eff.Keeps.ofExcept _).bind fun _ ↦ (keeps_metered _).bind fun _ ↦ keeps_metered _)
    fun _ ↦ Eff.Keeps.pure _

theorem keepsLog_askExecutor {plan : AtlasPlan} : KeepsLog P (askExecutor env plan) := by
  refine keeps_state.bind fun s ↦ (keeps_outside _).bind fun p ↦ keeps_read.bind fun r ↦ ?_
  refine Eff.Keeps.ite (fun _ ↦ ?_) fun _ ↦ Eff.Keeps.pure _
  refine (keeps_metered _).attempt.bind fun x ↦ ?_
  split
  · exact Eff.Keeps.pure _
  · exact keeps_stopCancelled.bind fun _ ↦ Eff.Keeps.pure _
  · exact (keeps_stopBudget _).bind fun _ ↦ Eff.Keeps.pure _
  · exact Eff.Keeps.raise _

theorem keepsLog_settle {e : AtlasEvaluation} : KeepsLog P (settle env e) := by
  refine keeps_read.bind fun r ↦ ?_
  refine Eff.Keeps.ite (fun _ ↦ ?_) fun _ ↦ Eff.Keeps.ite (fun _ ↦ ?_) fun _ ↦
    Eff.Keeps.ite (fun _ ↦ ?_) fun _ ↦ Eff.Keeps.ite (fun _ ↦ ?_) fun _ ↦ ?_
  · exact (keeps_setMetadata _).bind fun _ ↦ (keeps_stop _).bind fun _ ↦ Eff.Keeps.pure _
  · exact (keeps_setMetadata _).bind fun _ ↦ (keeps_stop _).bind fun _ ↦ Eff.Keeps.pure _
  · exact (keeps_setMetadata _).bind fun _ ↦ (keeps_stop _).bind fun _ ↦ Eff.Keeps.pure _
  · exact (keeps_stop _).bind fun _ ↦ Eff.Keeps.pure _
  · exact (keeps_enter _).bind fun _ ↦ Eff.Keeps.pure _

theorem keepsLog_settleDrift {e : AtlasEvaluation} {report : Option DriftReport} :
    KeepsLog P (settleDrift env e report) := by
  cases report with
  | some report =>
    exact Eff.Keeps.bind (keeps_state.bind fun _ ↦ (keeps_setMetadata _).bind fun _ ↦ keeps_stop _)
      fun _ ↦ Eff.Keeps.pure _
  | none => exact keepsLog_settle

theorem keepsLog_gather : KeepsLog P (gather env) := by
  have hread : ∀ reader, KeepsLog P (readSource env reader) := by
    intro reader
    refine (keeps_metered _).bind fun _ ↦ (keeps_metered _).bind fun gathered ↦ ?_
    cases gathered with
    | none => exact Eff.Keeps.raise _
    | some gathered => exact (keeps_metered _).bind fun _ ↦ keeps_setState _
  refine (keeps_forM hread).attempt.bind fun x ↦ ?_
  split
  · exact Eff.Keeps.pure _
  · exact keeps_stopCancelled.bind fun _ ↦ Eff.Keeps.pure _
  · exact (keeps_stopBudget _).bind fun _ ↦ Eff.Keeps.pure _
  · refine Eff.Keeps.ite (fun _ ↦ ?_) fun _ ↦ Eff.Keeps.raise _
    exact (keeps_stopToolError _ _).bind fun _ ↦ Eff.Keeps.pure _

theorem keepsLog_readMemory : KeepsLog P (readMemory env) := by
  refine keeps_read.bind fun r ↦ ?_
  dsimp only
  split
  · exact Eff.Keeps.pure _
  · refine Eff.Keeps.ite (fun _ ↦ keeps_setMetadata _) fun _ ↦ ?_
    exact (keeps_outside _).bind fun _ ↦ keeps_setState _

theorem keepsLog_remember : KeepsLog P (remember env) := by
  refine keeps_read.bind fun r ↦ ?_
  dsimp only
  split
  · refine Eff.Keeps.ite (fun _ ↦ ?_) fun _ ↦ Eff.Keeps.pure _
    split <;> exact (keeps_outside _).bind fun _ ↦ keeps_setState _
  · exact Eff.Keeps.pure _

end

/-! ## Steps that append

One lemma for each event: its payload is admitted where the log stands. -/

section
variable {P : Option EventLog → Prop} (hP : Appends env P)
include hP

theorem keepsLog_append {kind : EventKind} {iteration : ℕ} {payload : Fields}
    (hkind : kind.isStep = true) (hreport : Reportable kind payload) :
    KeepsLog P (RunM.append env kind iteration payload) := by
  rw [RunM.append]
  cases env.events with
  | none => exact Eff.Keeps.pure _
  | some sink =>
    refine Eff.Keeps.bind (keeps_logged fun w log h ↦ ?_) fun _ ↦ Eff.Keeps.pure _
    exact wp_append_keeps (P := fun log ↦ P (some log)) h fun hpost ↦
      hP h hkind hreport hpost

theorem keepsLog_commitRound {base : EvidenceBase} {merged : List Observation}
    {record : RoundRecord}
    {contexts newlyResolved : List Str} (h : record.round.Named) :
    KeepsLog P (commitRound env base merged record contexts newlyResolved) := by
  refine (keeps_setMetadata _).bind fun _ ↦ ?_
  refine (keepsLog_append hP rfl (RoundRecord.payload_reportable h)).bind fun _ ↦ ?_
  refine Eff.Keeps.ite (fun _ ↦ Eff.Keeps.pure _) fun _ ↦ ?_
  split
  · exact Eff.Keeps.raise _
  · exact (keeps_setState _).bind fun _ ↦ Eff.Keeps.pure _

theorem keepsLog_grade {route : RouteName} {plan : AtlasPlan} {p : Produced} :
    KeepsLog P (grade env route plan p) := by
  refine keeps_state.bind fun s ↦ (keeps_outside _).bind fun e ↦ (keeps_setState _).bind fun _ ↦ ?_
  refine (keeps_mark _).bind fun _ ↦ ?_
  refine (keepsLog_append hP rfl (decisionPayload_reportable e)).bind fun _ ↦ ?_
  exact keeps_state.bind fun s ↦ Eff.Keeps.bind (Eff.Keeps.update fun r hr ↦ hr) fun _ ↦
    Eff.Keeps.pure _

theorem keepsLog_routeAndPlan : KeepsLog P (routeAndPlan env) := by
  refine keeps_state.bind fun s ↦ (keeps_enter _).bind fun _ ↦ (keeps_setState _).bind fun _ ↦
    (keeps_enter _).bind fun _ ↦ (Eff.Keeps.ofExcept _).bind fun plan ↦
      (keeps_setState _).bind fun _ ↦ ?_
  exact (keepsLog_append hP rfl (planPayload_reportable _ plan)).bind fun _ ↦
    (keeps_enter _).bind fun _ ↦ Eff.Keeps.pure _

end

section
variable {P : Option EventLog → Prop} (hP : Upheld env P)
include hP

theorem keepsLog_startCall {callKind : CallKind} {iteration : ℕ} {target : Option Str}
    {idempotent : Bool} : KeepsLog P (RunM.startCall env callKind iteration target idempotent) := by
  rw [RunM.startCall]
  cases env.events with
  | none => exact Eff.Keeps.pure _
  | some sink =>
    refine keeps_logged fun w log h ↦ ?_
    rw [EventLog.startCall, Eff.wp_bind, Eff.wp_read, Eff.wp_bind, Eff.wp_zoom]
    refine (Eff.wp_true _ _).mono (fun inputSha256 w' _ ↦ ?_) fun _ _ _ ↦ h
    rw [Eff.wp_bind]
    exact (wp_append_keeps (P := fun log ↦ P (some log)) h fun hpost ↦ hP.startCall h hpost).mono
      (fun _ _ hp ↦ hp) fun _ _ hp ↦ hp

theorem keepsLog_finishCall {call : Option Str} {outcome : CallOutcome} {iteration : ℕ}
    {error : Option Exc} : KeepsLog P (RunM.finishCall env call outcome iteration error) := by
  unfold RunM.finishCall
  split
  · refine Eff.Keeps.bind (keeps_logged fun w log h ↦ ?_) fun _ ↦ Eff.Keeps.pure _
    rename_i callId _
    rw [EventLog.finishCall, Eff.wp_bind, Eff.wp_read, Eff.wp_ite, Eff.wp_ite]
    refine ⟨fun _ ↦ h, fun hstarted ↦ ⟨fun _ ↦ h, fun hopen ↦ ?_⟩⟩
    have hnames : ∀ kind, log.events.any (fun e ↦ e.kind = kind ∧ e.callId = some callId) = true ↔
        Names kind callId log.events := by
      intro kind
      simp only [Names, List.any_eq_true, decide_eq_true_eq]
    exact wp_append_keeps (P := fun log ↦ P (some log)) h fun hpost ↦
      hP.finishCall h ((hnames _).mp (not_not.mp hstarted))
        (fun hn ↦ hopen ((hnames _).mpr hn)) hpost
  · exact Eff.Keeps.pure _

/-! ## A round of observation

A round writes the end of its call and then what it brought, in that order and with names that are
not blank. -/

/-- A round that is stopped: the call is closed first. -/
theorem keepsLog_stopped {call : Option Str} {outcome : CallOutcome} {iteration : ℕ}
    {error : Option Exc} {m : RunM W Unit} {β : Type} {b : β} (hm : KeepsLog P m) :
    KeepsLog P (do RunM.finishCall env call outcome iteration error; m; return b) :=
  (keepsLog_finishCall hP).bind fun _ ↦ hm.bind fun _ ↦ Eff.Keeps.pure _

theorem keepsLog_payRound {base : EvidenceBase} {request : ObservationRequest} {patterns : List Str}
    {read : Option Str} {merged : List Observation} {round : ObservationRound} (h : round.Named) :
    KeepsLog P (payRound env base request patterns read merged round) := by
  refine keeps_state.bind fun s ↦ ?_
  refine (keeps_forM fun c ↦ keeps_metered _).attempt.bind fun x ↦ ?_
  split
  · exact keepsLog_stopped hP keeps_stopCancelled
  · exact keepsLog_stopped hP (keeps_stopBudget _)
  · exact Eff.Keeps.raise _
  · exact (keepsLog_finishCall hP).bind fun _ ↦ keepsLog_commitRound hP.append h

theorem keepsLog_observeRoundOf {recorded : List Material} {request : ObservationRequest}
    {patterns : List Str} {base : EvidenceBase} {observer : Observer W} :
    KeepsLog P (observeRoundOf env recorded request patterns base observer) := by
  refine keeps_state.bind fun s ↦ (keeps_mark _).bind fun _ ↦ ?_
  refine (keepsLog_startCall hP).bind fun read r hr ↦ ?_
  rw [Eff.wp_bind, Eff.wp_attempt]
  refine (keepsLog_askHost hr).mono (fun p r hp ↦ ?_) fun e r hr ↦ ?_
  · obtain ⟨hnamed, hr⟩ := hp
    refine Eff.Keeps.bind (keeps_mark _) (fun _ ↦ ?_) r hr
    split
    · refine Eff.Keeps.ite (fun _ ↦ ?_) fun _ ↦ keepsLog_payRound hP hnamed
      exact (keepsLog_finishCall hP).bind fun _ ↦ (keeps_setMetadata _).bind fun _ ↦
        (keeps_stop _).bind fun _ ↦ Eff.Keeps.pure _
    · exact keepsLog_payRound hP hnamed
  · split
    · exact keepsLog_stopped hP keeps_stopCancelled r hr
    · exact keepsLog_stopped hP (keeps_stopBudget _) r hr
    · refine Eff.Keeps.ite (fun _ ↦ ?_) (fun _ ↦ Eff.Keeps.raise _) r hr
      exact keepsLog_stopped hP (keeps_stopToolError _ _)
    · rename_i heq
      cases heq

theorem keepsLog_observeRound {recorded : List Material} {request : ObservationRequest}
    {patterns : List Str} : KeepsLog P (observeRound env recorded request patterns) := by
  refine keeps_state.bind fun s ↦ ?_
  split
  · exact keepsLog_observeRoundOf hP
  · exact Eff.Keeps.raise _

theorem keepsLog_readAgain {recorded : List Material} {e : AtlasEvaluation}
    {report : Option DriftReport} {review : Option ReviewPlan} :
    KeepsLog P (readAgain env recorded e report review) := by
  refine keeps_state.bind fun s ↦ ?_
  split
  · exact Eff.Keeps.raise _
  · exact (Eff.Keeps.ofExcept _).bind fun _ ↦ (keeps_enter _).bind fun _ ↦ keepsLog_observeRound hP

/-! ## A pass

The events of a pass follow one another as the validation asks. -/

theorem keepsLog_recordToolCalls {calls : List ToolCall} :
    KeepsLog P (recordToolCalls env calls) := by
  induction calls with
  | nil => exact Eff.Keeps.pure _
  | cons call calls ih =>
    refine (keepsLog_startCall hP).bind fun started ↦ ?_
    cases call.outcome with
    | none => exact ih
    | some outcome => exact (keepsLog_finishCall hP).bind fun _ ↦ ih

theorem keepsLog_executeAdapter {adapter : ModelAdapter W} {input : ModelInput} :
    KeepsLog P (executeAdapter env adapter input) := by
  refine keeps_read.bind fun r ↦ ?_
  refine Eff.Keeps.bind (Eff.Keeps.update fun s hs ↦ hs) fun _ ↦ ?_
  refine Eff.Keeps.ite (fun _ ↦ ?_) fun _ ↦ Eff.Keeps.ofExcept _
  exact (keepsLog_recordToolCalls hP).bind fun _ ↦ Eff.Keeps.ofExcept _

theorem keepsLog_modelFailed {iteration : ℕ} {call : Option Str} {e : Exc} :
    KeepsLog P (modelFailed env iteration call e) := by
  unfold modelFailed
  split
  · exact keeps_stopCancelled.bind fun _ ↦ Eff.Keeps.pure _
  · exact (keeps_stopBudget _).bind fun _ ↦ Eff.Keeps.pure _
  · refine Eff.Keeps.ite (fun _ ↦ ?_) fun _ ↦ Eff.Keeps.raise _
    exact keepsLog_stopped hP (keeps_stopToolError _ _)

theorem keepsLog_startModelCall {adapter : ModelAdapter W} {iteration : ℕ} :
    KeepsLog P (startModelCall env adapter iteration) :=
  keeps_read.bind fun _ ↦ Eff.Keeps.ite
    (fun _ ↦ (keeps_metered _).bind fun _ ↦ keepsLog_startCall hP) fun _ ↦ keepsLog_startCall hP

theorem keepsLog_runModelCall {adapter : ModelAdapter W} {input : ModelInput} {iteration : ℕ}
    {call : Option Str} : KeepsLog P (runModelCall env adapter input iteration call) :=
  (keepsLog_executeAdapter hP).bind fun _ ↦ (Eff.Keeps.ofExcept _).bind fun _ ↦
    (keepsLog_finishCall hP).bind fun _ ↦ Eff.Keeps.pure _

theorem keepsLog_askModel {adapter : ModelAdapter W} {route : RouteName} {plan : AtlasPlan} :
    KeepsLog P (askModel env adapter route plan) := by
  refine keeps_state.bind fun s ↦ (keepsLog_startModelCall hP).attempt.bind fun x ↦ ?_
  cases x with
  | error e => exact keepsLog_modelFailed hP
  | ok call =>
    refine (keepsLog_runModelCall hP).attempt.bind fun x ↦ ?_
    cases x with
    | error e => exact keepsLog_modelFailed hP
    | ok reply =>
      refine keepsLog_chargeModel.attempt.bind fun x ↦ ?_
      cases x with
      | error e => exact keepsLog_modelFailed hP
      | ok _ =>
        refine (keeps_setMetadata _).bind fun _ ↦ ?_
        split <;> exact Eff.Keeps.pure _

theorem keepsLog_produce {route : RouteName} {plan : AtlasPlan} :
    KeepsLog P (produce env route plan) := by
  unfold produce
  split
  · exact keepsLog_askModel hP
  · exact keepsLog_askExecutor

theorem keepsLog_judge {recorded : List Material} {plan : AtlasPlan} {e : AtlasEvaluation} :
    KeepsLog P (judge env recorded plan e) := by
  refine keepsLog_driftReport.bind fun report ↦ keeps_state.bind fun s ↦ ?_
  refine Eff.Keeps.ite (fun _ ↦ (keepsLog_readAgain hP).bind fun outcome ↦ ?_) fun _ ↦
    keepsLog_settleDrift
  cases outcome with
  | stopped => exact Eff.Keeps.pure _
  | new => exact (keeps_enter _).bind fun _ ↦ Eff.Keeps.pure _
  | nothing => exact keepsLog_settleDrift

theorem keepsLog_gradeAndJudge {recorded : List Material} {route : RouteName} {plan : AtlasPlan}
    {p : Produced} : KeepsLog P (gradeAndJudge env recorded route plan p) := by
  refine keeps_state.bind fun s ↦ (keeps_setState _).bind fun _ ↦ (keeps_setMetadata _).bind fun _ ↦
    (keeps_enter _).bind fun _ ↦ keepsLog_expired.bind fun late ↦ ?_
  refine Eff.Keeps.ite (fun _ ↦ Eff.Keeps.pure _) fun _ ↦ ?_
  refine (keepsLog_grade hP.append).bind fun e ↦ keepsLog_expired.bind fun late ↦ ?_
  exact Eff.Keeps.ite (fun _ ↦ Eff.Keeps.pure _) fun _ ↦ keepsLog_judge hP

theorem keepsLog_onePass {recorded : List Material} : KeepsLog P (onePass env recorded) := by
  refine keepsLog_expired.bind fun late ↦ Eff.Keeps.ite (fun _ ↦ Eff.Keeps.pure _) fun _ ↦ ?_
  refine (keeps_setState _).bind fun _ ↦ (keepsLog_routeAndPlan hP.append).bind fun p ↦ ?_
  refine keepsLog_expired.bind fun late ↦ Eff.Keeps.ite (fun _ ↦ Eff.Keeps.pure _) fun _ ↦ ?_
  refine (keepsLog_produce hP).bind fun produced ↦ ?_
  cases produced with
  | none => exact Eff.Keeps.pure _
  | some p => exact keepsLog_gradeAndJudge hP

/-- Every pass keeps the log, so the loop does. -/
theorem keepsLog_loop {recorded : List Material} {fuel : ℕ} :
    KeepsLog P (loop env recorded fuel) := by
  induction fuel with
  | zero => exact Eff.Keeps.pure _
  | succ fuel ih =>
    refine keeps_state.bind fun s ↦ Eff.Keeps.ite (fun _ ↦ ?_) fun _ ↦ Eff.Keeps.pure _
    refine (keepsLog_onePass hP).bind fun flow ↦ ?_
    cases flow with
    | leave => exact Eff.Keeps.pure _
    | again => exact ih

/-! ## Before and after the loop

A run opens its log once and closes it once, or goes on in a log that was opened and not closed. -/

theorem keepsLog_firstRead {recorded : List Material} : KeepsLog P (firstRead env recorded) := by
  refine keeps_state.bind fun s ↦ ?_
  split
  · refine Eff.Keeps.ite (fun _ ↦ ?_) fun _ ↦ Eff.Keeps.pure _
    refine Eff.Keeps.bind ?_ ?_
    · exact Eff.Keeps.ofExcept _
    · intro plan
      refine Eff.Keeps.bind ?_ ?_
      · exact Eff.Keeps.ofExcept _
      · intro request
        exact keepsLog_observeRound hP
  · exact Eff.Keeps.pure _

theorem keepsLog_work {recorded : List Material} : KeepsLog P (work env recorded) := by
  refine (keepsLog_loop hP).bind fun _ ↦ keeps_state.bind fun s ↦ ?_
  exact Eff.Keeps.ite (fun _ ↦ (keeps_stop _).bind fun _ ↦ keepsLog_remember)
    fun _ ↦ keepsLog_remember

end

/-! ## The log is opened

A fresh run opens an empty log and a resumed one continues the records it was given, with an event
that says so. -/

/-- What a run may go on from: the records of a history that was interrupted. -/
structure Interrupted (runId : Str) (records : List Event) : Prop where
  history : History runId records
  nonempty : records ≠ []
  going : ∀ e ∈ records, e.kind ≠ .runStopped

/-- A run starts a log of its own, or goes on from an interrupted one. -/
def Setting.GoesOn (env : Setting W) : Prop :=
  ∀ records, env.resumeRecords = some records → Interrupted env.runId records

/-- The run has no log, or its log is a history. -/
abbrev LogHistory (env : Setting W) : Run W → Prop :=
  LogIs fun log ↦ History env.runId log.events

theorem LogIs.history {r : Run W} (h : LogIs (Begun env.runId) r) : LogHistory env r :=
  fun log hlog ↦ (h log hlog).history

/-- A log that was built holds what it was built from. -/
theorem build_eq_ok {records : List Event} (h : EventLog.build runId records = .ok log) :
    log = ⟨runId, records⟩ ∧ runId ≠ [] := by
  rw [build] at h
  split_ifs at h with hrun
  exact ⟨(Except.ok.inj h).symm, hrun⟩

/-- The start of a run is the first event of its log. -/
theorem wp_append_started {mask : Masking} {sink : Sink W} {payload : Fields} {w : W} :
    (EventLog.append mask sink .runStarted 0 none payload).wp (fun _ p ↦ Begun runId p.2)
      (fun _ p ↦ History runId p.2.events) (w, ⟨runId, []⟩) := by
  have hadmits : ∀ e : Event, e = EventLog.next mask ⟨runId, []⟩ .runStarted 0 none payload →
      e.postInit = .ok () → Admits runId [] e := by
    rintro e rfl hpost
    exact ⟨⟨hpost, rfl, rfl, nofun, nofun⟩, iff_of_true rfl rfl,
      fun _ h ↦ absurd h List.not_mem_nil, trivial⟩
  have hkeeps : (EventLog.append mask sink .runStarted 0 none payload).wp
      (fun _ p ↦ History runId p.2.events) (fun _ p ↦ History runId p.2.events) (w, ⟨runId, []⟩) :=
    wp_append_keeps (P := fun log ↦ History runId log.events) grown_nil
      fun hpost ↦ grown_concat.mpr ⟨grown_nil, hadmits _ rfl hpost⟩
  refine (hkeeps.and wp_append_snoc).mono (fun _ p hp ↦ ?_) fun _ p hp ↦ hp.1
  obtain ⟨hhistory, -, hp⟩ := hp
  rw [hp] at hhistory ⊢
  refine ⟨rfl, hhistory, List.cons_ne_nil _ _, fun e he ↦ ?_⟩
  rw [List.mem_singleton.mp he]
  exact nofun

/-- The log is opened with the start of the run, or goes on from the records. -/
theorem openLog_begun {r : Run W} (hgoes : env.GoesOn) (hr : r.inside.log = none) :
    (openLog env).wp (fun _ r ↦ LogIs (Begun env.runId) r) (fun _ r ↦ LogHistory env r) r := by
  have hnone : ∀ {P : EventLog → Prop}, LogIs P r := fun log hlog ↦ by
    rw [hr] at hlog
    cases hlog
  unfold openLog
  split
  · exact hnone
  · rename_i sink hevents
    rw [Eff.wp_bind, Eff.wp_ofExcept]
    cases hbuild : EventLog.build env.runId (env.resumeRecords.getD []) with
    | error e => exact hnone
    | ok log =>
      obtain ⟨rfl, -⟩ := build_eq_ok hbuild
      dsimp only
      rw [Eff.wp_bind, Eff.wp_update]
      split
      · rename_i hfresh
        rw [hfresh, Option.getD_none, Eff.wp_bind, Eff.wp_ofExcept]
        cases startedPayload env with
        | error e => exact LogIs.of_some (P := fun log ↦ History env.runId log.events) rfl grown_nil
        | ok payload =>
          dsimp only
          unfold RunM.append
          rw [hevents]
          rw [Eff.wp_bind]
          exact (wp_logged rfl wp_append_started).mono
            (fun _ _ ⟨_, _, _, hlog, h⟩ ↦ .of_some hlog h) fun _ _ ⟨_, hlog, h⟩ ↦ .of_some hlog h
      · rename_i records hresume
        rw [hresume, Option.getD_some]
        obtain ⟨hhistory, hne, hgoing⟩ := hgoes records hresume
        have hbegun : LogIs (Begun env.runId)
            { r with inside := { r.inside with log := some ⟨env.runId, records⟩ } } :=
          .of_some rfl ⟨rfl, hhistory, hne, hgoing⟩
        have hplain : ∀ kind payload, kind.isInner = true → Reportable kind payload →
            KeepsLog (IfAny (Begun env.runId)) (RunM.append env kind 0 payload) :=
          fun _ _ ↦ Begun.keeps_append
        have hkeeps : KeepsLog (IfAny (Begun env.runId)) (do
            RunM.append env .interrupted 0
              [(str "unfinished_calls", .arr ((unfinishedCalls records).map .str)),
                (str "detected_after_sequence", .int (records.length - 1))]
            let identity ← Eff.ofExcept (orUnencodable (evidenceIdentity env.evidence))
            RunM.append env .resumed 0
              [(str "replay", .str (str "read_only_from_start")),
                (str "snapshot_id", EventLog.textOrNull identity.1)]) :=
          (hplain .interrupted _ rfl trivial).bind fun _ ↦ (Eff.Keeps.ofExcept _).bind fun _ ↦
            hplain .resumed _ rfl trivial
        exact (hkeeps _ hbegun).mono (fun _ _ h ↦ h) fun _ _ h ↦ LogIs.history h

/-! ## The whole

Put together: what a run leaves behind is a history, whether it returns or raises. -/

/-- What keeps the log that was begun leaves a history. -/
theorem leavesHistory {α : Type} {m : RunM W α} (h : KeepsLog (IfAny (Begun env.runId)) m)
    {r : Run W}
    (hr : LogIs (Begun env.runId) r) :
    m.wp (fun _ r ↦ LogIs (Begun env.runId) r) (fun _ r ↦ LogHistory env r) r :=
  (h r hr).mono (fun _ _ h ↦ h) fun _ _ h ↦ LogIs.history h

/-- The budget of a run is started, and the recorded rounds are read. -/
theorem keepsLog_startBudget {P : Option EventLog → Prop} : KeepsLog P (do
    match env.limits with
    | none => pure ()
    | some limits => do
      let budget ← outside (RunBudget.start env.meter limits)
      Eff.update fun r ↦ { r with budget := some budget }
    Eff.ofExcept (recordedRounds env.rt (env.resumeRecords.getD []))) := by
  split
  · exact Eff.Keeps.ofExcept _
  · exact (keeps_outside _).bind fun _ ↦ Eff.Keeps.bind (Eff.Keeps.update fun _ h ↦ h) fun _ ↦
      Eff.Keeps.ofExcept _

theorem setUp_begun {r : Run W} (hgoes : env.GoesOn) (hr : r.inside.log = none) :
    (setUp env).wp (fun _ r ↦ LogIs (Begun env.runId) r) (fun _ r ↦ LogHistory env r) r := by
  rw [setUp, Eff.wp_ite]
  refine ⟨fun _ log hlog ↦ ?_, fun _ ↦ ?_⟩
  · rw [hr] at hlog
    cases hlog
  · rw [Eff.wp_bind]
    exact (openLog_begun hgoes hr).mono (fun _ _ h ↦ leavesHistory keepsLog_startBudget h)
      fun _ _ h ↦ h

theorem keepsLog_afterSetUp {P : Option EventLog → Prop} (hP : Upheld env P)
    {recorded : List Material} :
    KeepsLog P (do
    enter .observing
    setState fun s ↦
      { s with observations := s.observations ++ env.initial, evidenceBase := env.evidence }
    if ← gather env then pure ()
    else do
      readMemory env
      if requiresWriteApproval env.rt env.task then
        setMetadata fun m ↦ { m with safetyNotice := true }
      else pure ()
      if ← expired env then pure ()
      else
        match ← firstRead env recorded with
        | .stopped => pure ()
        | _ => work env recorded) := by
  refine (keeps_enter _).bind fun _ ↦ (keeps_setState _).bind fun _ ↦
    keepsLog_gather.bind fun _ ↦ ?_
  refine Eff.Keeps.ite (fun _ ↦ Eff.Keeps.pure _) fun _ ↦ keepsLog_readMemory.bind fun _ ↦ ?_
  have hrest : KeepsLog P (do
      if ← expired env then pure ()
      else
        match ← firstRead env recorded with
        | .stopped => pure ()
        | _ => work env recorded) := by
    refine keepsLog_expired.bind fun _ ↦ Eff.Keeps.ite (fun _ ↦ Eff.Keeps.pure _) fun _ ↦ ?_
    refine (keepsLog_firstRead hP).bind fun outcome ↦ ?_
    cases outcome with
    | stopped => exact Eff.Keeps.pure _
    | nothing => exact keepsLog_work hP
    | new => exact keepsLog_work hP
  exact Eff.Keeps.ite (fun _ ↦ (keeps_setMetadata _).bind fun _ ↦ hrest) fun _ ↦ hrest

theorem untilStop_begun (hgoes : env.GoesOn) (w : W) :
    (untilStop env).wp (fun _ r ↦ LogIs (Begun env.runId) r) (fun _ r ↦ LogHistory env r)
      (env.start w) := by
  rw [untilStop, Eff.wp_bind]
  exact (setUp_begun hgoes rfl).mono
    (fun _ _ h ↦ leavesHistory (keepsLog_afterSetUp begun_upheld) h)
    fun _ _ h ↦ h

/-- The stop of a run is admitted when the run has a reason for it. -/
theorem stopped_history {r : Run W} {reason : StopReason} (hr : LogIs (Begun env.runId) r)
    (hreason : r.inside.state.stopReason = some reason) :
    (stopped env).wp (fun _ r ↦ LogHistory env r) (fun _ r ↦ LogHistory env r) r := by
  rw [stopped, Eff.wp_bind, Eff.wp_read]
  unfold RunM.append
  split
  · exact hr.history
  · rename_i sink hevents
    rw [Eff.wp_bind]
    cases hlog : r.inside.log with
    | none =>
      refine (keeps_logged (P := IfAny fun _ ↦ False) (fun _ log h ↦ (h log rfl).elim) r ?_).mono
        ?_ ?_
      · exact fun log h ↦ by
          rw [hlog] at h
          cases h
      · exact fun _ _ h log hlog ↦ (h log hlog).elim
      · exact fun _ _ h log hlog ↦ (h log hlog).elim
    | some log =>
      have hbegun := hr log hlog
      refine (wp_logged hlog (wp_append_keeps (P := fun log ↦ History env.runId log.events)
        hbegun.history fun hpost ↦ grown_concat.mpr ⟨hbegun.history, ?_⟩)).mono
        (fun _ _ ⟨_, _, _, hlog, h⟩ ↦ .of_some hlog h) fun _ _ ⟨_, hlog, h⟩ ↦ .of_some hlog h
      exact hbegun.admits hpost nofun (stoppedPayload_reportable hreason) nofun nofun

/-- **The log of a run is a history**, whether the run returns or raises. -/
theorem run_history (hgoes : env.GoesOn) (w : W) : LogHistory env (run env (env.start w)).2 := by
  refine Eff.wp.left (P := LogHistory env) ?_
  rw [run_eq, Eff.wp_bind]
  refine ((untilStop_begun hgoes w).and (untilStop_over env w _ rfl)).mono (fun _ r h ↦ ?_)
    fun _ _ h ↦ h.1
  obtain ⟨hbegun, reason, hended⟩ := h
  exact stopped_history hbegun hended.stopReason

/-! ## Interrupted and resumed

A run may be interrupted anywhere and resumed from what it left, any number of times. -/

/-- What a run of this id can leave, when it is interrupted anywhere, and resumed, and interrupted
again. -/
inductive LeftOf (runId : Str) : List Event → Prop where
  | fresh {W : Type} (env : Setting W) (w : W) (log : EventLog) (events : List Event)
      (ofRun : env.runId = runId) (first : env.resumeRecords = none)
      (logged : (run env (env.start w)).2.inside.log = some log) (cut : events <+: log.events) :
      LeftOf runId events
  | resumed {W : Type} (records : List Event) (env : Setting W) (w : W) (log : EventLog)
      (events : List Event) (before : LeftOf runId records) (found : records ≠ [])
      (going : ∀ e ∈ records, e.kind ≠ .runStopped) (ofRun : env.runId = runId)
      (resumes : env.resumeRecords = some (records.map Event.canon))
      (logged : (run env (env.start w)).2.inside.log = some log) (cut : events <+: log.events) :
      LeftOf runId events

/-- What can be left of a run is a history. -/
theorem LeftOf.history {events : List Event} (h : LeftOf runId events) :
    History runId events := by
  induction h with
  | fresh env w log events ofRun first hlog cut =>
    subst ofRun
    have hgoes : env.GoesOn := fun records hr ↦ by
      rw [first] at hr
      cases hr
    exact Grown.of_cut (run_history hgoes w log hlog) cut
  | resumed records env w log events before found going ofRun resumes hlog cut ih =>
    subst ofRun
    have hgoes : env.GoesOn := fun records' hr ↦ by
      obtain rfl := Option.some.inj (resumes.symm.trans hr)
      refine ⟨ih.canon, by simpa using found, fun e he ↦ ?_⟩
      obtain ⟨original, horiginal, rfl⟩ := List.mem_map.mp he
      exact going original horiginal
    exact Grown.of_cut (run_history hgoes w log hlog) cut

/-- **Logs are well formed as long as half a call is appended where it belongs.**  From every valid
history, through all operations and resumes, every log that is reached is well formed if and only if
every direct append of half a call that was accepted is in place; and what a controller leaves of a
run, interrupted and resumed at will, is a history that `_validate_history` accepts. -/
theorem wellLogged_iff (runId : Str) :
    (∀ {W : Type} (mask : Masking) (sink : Sink W) (w : W) (previous : List Event)
      (log : EventLog), (∀ e ∈ previous, e.postInit = .ok ()) → WellFormed runId previous →
      EventLog.build runId previous = .ok log → ∀ steps : List Step,
        (∀ done, done <+: steps →
          WellFormed runId (reached mask sink (w, log) done).2.events) ↔
            AllInPlace mask sink (w, log) steps) ∧
    ∀ (rt : Runtime) (events : List Event) (records : List Fields),
      LeftOf runId events → events ≠ [] → List.Forall₂ Event.IsRead events records →
        validateHistory rt runId records = .ok () := by
  constructor
  · intro W mask sink w previous log hpost hvalid hbuild steps
    obtain ⟨rfl, -⟩ := build_eq_ok hbuild
    exact wellFormed_iff_inPlace (s := (w, ⟨runId, previous⟩)) ⟨rfl, hpost⟩ hvalid steps
  · intro rt events records hleft hne hrecords
    exact hleft.history.validateHistory_read hne hrecords

/-- A machine on which runs keep a log. -/
def loggedSetting : Setting Unit := { plainSetting with events := some fun _ ↦ return () }

/-- The run of that machine leaves a log, and its file is a history. -/
theorem wellLogged_iff_plain :
    WellFormed (str "r") (reached noMasking (fun _ ↦ return ()) ((), ⟨str "r", []⟩) []).2.events ∧
    ∃ log, (run loggedSetting (loggedSetting.start ())).2.inside.log = some log ∧
      validateHistory asciiRuntime (str "r")
        (log.events.map fun e ↦ Json.sortFields (Json.canonFields (e.toDict []))) = .ok () := by
  constructor
  · refine ((wellLogged_iff (str "r")).1 noMasking (fun _ ↦ return ()) () [] ⟨str "r", []⟩ nofun
      (Paired.wellFormed grown_nil) rfl []).mpr ?_ [] List.prefix_rfl
    intro done op rest h
    simp at h
  · have hlog : ((run loggedSetting (loggedSetting.start ())).2.inside.log.map
        fun log ↦ log.events.isEmpty) = some false := by decide +kernel
    obtain ⟨log, hlog, hne⟩ := Option.map_eq_some_iff.mp hlog
    refine ⟨log, hlog, (wellLogged_iff (str "r")).2 asciiRuntime log.events _ ?_ ?_ ?_⟩
    · exact .fresh loggedSetting () log log.events rfl rfl hlog List.prefix_rfl
    · simpa using hne
    · exact List.forall₂_map_right_iff.mpr (List.forall₂_same.mpr fun e _ ↦ ⟨[], rfl⟩)

/-- A call with an id of its own, started by an `append`. -/
def strayStart : Step :=
  .operation (.append (str "call_started") 0 (some (str "x"))
    [(str "call_kind", .str (str "observe"))])

/-- The log takes it, and is not well formed. -/
theorem strayStart_taken :
    (reached noMasking (fun _ ↦ return ()) ((), ⟨str "r", []⟩) [strayStart]).2.events.length = 1 ∧
      ¬ WellFormed (str "r")
        (reached noMasking (fun _ ↦ return ()) ((), ⟨str "r", []⟩) [strayStart]).2.events := by
  refine ⟨rfl, fun h ↦ ?_⟩
  have hcall := h.started _ (List.mem_singleton.mpr rfl) rfl
  exact absurd hcall (by decide)

end AtlasCore
