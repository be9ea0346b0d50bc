import AtlasCore.Controller.Recounted
import AtlasCore.Feedback.SourceDetails

/-!
# A run and what is read of it

When a run returns, its log agrees with it: every grade, every round of observation, the course of
the passes, and the stop with its reason (`run_corresponds`).  So a reader that has nothing but the
file of the log reports what the run came to (`run_inspected`): its status, its reason to stop, and
for every source that was read the bytes that the run held at its end.
-/

set_option autoImplicit false

namespace AtlasCore

open Py RunM EventLog

variable {W : Type} {env : Setting W} {log : EventLog}

/-! ## A run, as its log has it

What a report of a log has to do with the run that wrote it. -/

/-- The log of a run that returned says what the run holds. -/
structure Corresponds (env : Setting W) (r : Run W) (log : EventLog) : Prop where
  /-- A resumed run goes on from the records it was given, and rewrites none. -/
  goesOn : env.resumeRecords.getD [] <+: log.events
  tale : ∃ phase, Tale r.inside.state.iteration phase (stepsOf (env.fresh log))
  decisions : toldOf .decisionRecorded (env.fresh log) =
    env.decisionsTold r.inside.state.evaluations
  readings : toldOf .observationRecorded (env.fresh log) =
    env.readingsTold r.inside.state.metadata.observationRounds
  sourced : Sourced env r.inside.state.metadata.observationRounds r.inside.state.evidenceBase
  stop : ∃ before, log.events = before ++
    [EventLog.next env.mask ⟨log.runId, before⟩ .runStopped r.inside.state.iteration none
      (stoppedPayload r.inside.state r.budget)]

/-- A log that was opened has told nothing. -/
theorem recounts_opened (h : EventLog.build env.runId (env.resumeRecords.getD []) = .ok log) :
    Recounts env 0 .opened [] [] log := by
  obtain ⟨rfl, -⟩ := build_eq_ok h
  have hfresh : env.fresh ⟨env.runId, env.resumeRecords.getD []⟩ = [] := by
    rw [Setting.fresh, List.drop_length]
  refine ⟨List.prefix_rfl, ?_, ?_, ?_⟩ <;> rw [hfresh]
  · exact .opened
  · rfl
  · rfl

/-- What is known of a run before it has done anything. -/
def Unused (env : Setting W) (c : Holdings) : Prop :=
  Recounted env 0 .opened c ∧ c.evaluations = [] ∧ c.rounds = []

theorem aside_unused : Aside (Unused env) where
  budget := fun budget hb ↦ ⟨aside_recounted.budget budget hb.1, hb.2⟩
  texts := fun texts hb ↦ ⟨aside_recounted.texts texts hb.1, hb.2⟩
  event := fun hb hlog hkind ↦ ⟨aside_recounted.event hb.1 hlog hkind, hb.2⟩

theorem unused_openLog {r : Run W} (hr : Unused env r.holdings) :
    (openLog env).wp (fun _ r ↦ Unused env r.holdings) (fun _ r ↦ Unused env r.holdings) r := by
  cases hevents : env.events with
  | none =>
    rw [openLog, hevents]
    exact hr
  | some sink =>
    refine aside_unused.openLog hevents (fun log hbuild ↦ ⟨⟨hr.1.iteration, fun hnone ↦ ?_,
      fun log' hlog' ↦ ?_⟩, hr.2⟩) hr
    · rw [hevents] at hnone
      cases hnone
    · obtain rfl := Option.some.inj hlog'
      show Recounts env 0 .opened r.holdings.evaluations r.holdings.rounds log
      rw [hr.2.1, hr.2.2]
      exact recounts_opened hbuild

/-- Setting up does nothing that a log would tell. -/
theorem unused_setUp (env : Setting W) (w : W) :
    (setUp env).wp (fun _ r ↦ Unused env r.holdings) (fun _ r ↦ Unused env r.holdings)
      (env.start w) := by
  have hstart : Unused env (env.start w).holdings := by
    refine ⟨⟨rfl, fun _ ↦ rfl, fun log hlog ↦ ?_⟩, rfl, rfl⟩
    cases hlog
  rw [setUp, Eff.wp_ite]
  refine ⟨fun _ ↦ hstart, fun _ ↦ ?_⟩
  rw [Eff.wp_bind]
  refine (unused_openLog hstart).mono (fun _ r hr ↦ ?_) fun _ _ h ↦ h
  -- starting the budget touches nothing but the budget
  refine (?_ : KeepsHoldings (Unused env) _) r hr
  split
  · exact Eff.Keeps.ofExcept _
  · exact (quiet_outside _).keeps.bind fun budget ↦
      Eff.Keeps.bind (fun _ hr ↦ aside_unused.budget _ hr) fun _ ↦ Eff.Keeps.ofExcept _

/-- However a run goes, its log tells it until it stops. -/
theorem truthful_untilStop (env : Setting W) (w : W) :
    (untilStop env).wp (fun _ r ↦ ∃ phase, Truthful env phase r.holdings)
      (fun _ r ↦ Lagging env r.holdings) (env.start w) := by
  rw [untilStop, Eff.wp_bind]
  refine (unused_setUp env w).mono (fun recorded r hr ↦ ?_) fun _ _ h ↦ h.1.lagging
  obtain ⟨hr, -, hrounds⟩ := hr
  refine carried_truthful.afterSetUp hr.lagging ⟨⟨0, hr.iteration, hr.silent, hr.recounts⟩, ?_⟩
    r rfl
  show Sourced env r.holdings.rounds env.evidence
  rw [hrounds]
  exact ⟨fun _ hr ↦ absurd hr List.not_mem_nil, fun _ ↦ rfl⟩

/-- The stop is the last that the log says, and it says what the run came to. -/
theorem corresponds_stopped {r : Run W} {phase : Phase} (hr : Truthful env phase r.holdings) :
    (stopped env).wp (fun _ t ↦ ∀ log, t.inside.log = some log → Corresponds env t log)
      (fun _ t ↦ Lagging env t.holdings) r := by
  obtain ⟨⟨n, hrecounted⟩, hsourced⟩ := hr
  have hn : r.inside.state.iteration = n := hrecounted.iteration
  rw [stopped, Eff.wp_bind, Eff.wp_read, RunM.append]
  cases hevents : env.events with
  | none =>
    intro log hlog
    have hnone := hrecounted.silent hevents
    rw [show r.inside.log = none from hnone] at hlog
    cases hlog
  | some sink =>
    dsimp only
    rw [Eff.wp_bind]
    cases hlog : r.inside.log with
    | none =>
      refine wp_logged_none hlog fun log hsome ↦ ?_
      rw [hlog] at hsome
      cases hsome
    | some log =>
      have hrecounts := (hrecounted.recounts log hlog).aside
        (e := log.next env.mask .runStopped r.inside.state.iteration none
          (stoppedPayload r.inside.state r.budget)) rfl
      have hlags : ∀ log', log' = log ∨ log' = log.snoc (log.next env.mask .runStopped
          r.inside.state.iteration none (stoppedPayload r.inside.state r.budget)) →
          Lags env r.inside.state.iteration r.inside.state.evaluations
            r.inside.state.metadata.observationRounds log' := by
        rintro log' (rfl | rfl)
        · exact (hrecounted.recounts log' hlog).lags hn.ge
        · exact hrecounts.lags hn.ge
      refine wp_logged_some hlog (wp_append_snoc.mono (fun _ p hp ↦ ?_) fun _ p hp ↦ ?_)
      · intro log' hlog'
        obtain rfl := Option.some.inj hlog'
        rw [hp.2]
        obtain ⟨hgoes, htale, hdecisions, hreadings⟩ := hrecounts
        exact ⟨hgoes, ⟨phase, hn ▸ htale⟩, hdecisions, hreadings, hsourced, log.events, rfl⟩
      · intro log' hlog'
        obtain rfl := Option.some.inj hlog'
        exact hlags _ hp

/-- **What the log of a run says and what the run holds is the same**, whatever it was given and
whatever its surroundings did.  Where the run raises, the log tells a beginning of what it holds. -/
theorem run_corresponds (env : Setting W) (w : W) :
    (run env).wp (fun _ r ↦ ∀ log, r.inside.log = some log → Corresponds env r log)
      (fun _ r ↦ Lagging env r.holdings) (env.start w) := by
  rw [run_eq, Eff.wp_bind]
  refine (truthful_untilStop env w).mono (fun _ r hr ↦ ?_) fun _ _ h ↦ h
  obtain ⟨phase, hr⟩ := hr
  exact corresponds_stopped hr

/-! ## A run, as it is read

The last step: from what the log holds to what a reader of its file reports. -/

section
variable {rt : Runtime} {rounds : List RoundRecord} {events : List Event} {records : List Fields}

theorem RoundRecord.OfAnswer.digested {r : RoundRecord} (h : r.OfAnswer) : Digested r.round := by
  obtain ⟨base, incoming, merged, h⟩ := h
  exact digested_of_merge h

theorem RoundRecord.OfAnswer.supersededBy {r : RoundRecord} (h : r.OfAnswer) :
    Feedback.SupersededBy r.round := by
  obtain ⟨base, incoming, merged, h⟩ := h
  exact Feedback.mergeObservations_supersededBy h

/-- What is read of the rounds of a log are the bytes of the rounds that it tells. -/
theorem digestsOf_told (hreads : List.Forall₂ (fun e f ↦ e.canon.Reads f) events records)
    (htold : toldOf .observationRecorded events = env.readingsTold rounds)
    (hrounds : ∀ r ∈ rounds, Digested r.round) :
    Feedback.digestsOf ((records.filter (Inspect.isKind .observationRecorded)).flatMap
      (Feedback.roundRefs rt)) = rounds.flatMap (·.round.digests) := by
  induction hreads generalizing rounds with
  | nil =>
    cases rounds with
    | nil => rfl
    | cons r rest => cases htold
  | @cons e f events records h _ ih =>
    by_cases hkind : e.kind = .observationRecorded
    · rw [toldOf, List.filter_cons, if_pos (decide_eq_true hkind), List.map_cons] at htold
      cases rounds with
      | nil => cases htold
      | cons r rest =>
        obtain ⟨hr, htold⟩ := List.cons.inj htold
        have hpayload : e.payload = redactFields env.mask r.payload := congrArg Prod.snd hr
        have hrest := ih htold fun r hr ↦ hrounds r (List.mem_cons_of_mem _ hr)
        rw [Feedback.digestsOf] at hrest ⊢
        rw [List.filter_cons_of_pos ((isKind_reads h).mpr hkind), List.flatMap_cons,
          List.map_append,
          hrest, List.flatMap_cons]
        exact congrArg (· ++ _)
          (Feedback.digestsOf_roundRefs hpayload h (hrounds r List.mem_cons_self))
    · rw [toldOf, List.filter_cons, if_neg fun h ↦ hkind (of_decide_eq_true h)] at htold
      have hother : Inspect.isKind .observationRecorded f = false := isKind_reads_false h hkind
      rw [List.filter_cons_of_neg (by rw [hother]; exact Bool.false_ne_true)]
      exact ih htold hrounds

end

/-- A report on a log that tells how the run stopped says it too. -/
theorem ended_of_corresponds {rt : Runtime} {floatGreater : Json → Json → Bool} {r : Run W}
    {records : List Record} (h : Corresponds env r log)
    (hw : Written env.runId log.events records) :
    ∃ report, Inspect.inspectRun rt floatGreater env.runId (some (utf8 (logText records))) =
      .ok report ∧ report.status = .str r.inside.state.status.text ∧
        report.stopReason = EventLog.textOrNull (r.inside.state.stopReason.map (·.text)) := by
  obtain ⟨before, hstop⟩ := h.stop
  obtain ⟨front, back, last, hfront, rfl⟩ :=
    hw.ends (hstop ▸ List.mem_append_right _ List.mem_cons_self) rfl
  rw [hfront] at hw
  obtain ⟨report, -, hreport, hstatus, hreason, -⟩ :=
    EventLog.Written.inspectRun_stopped rt floatGreater hw rfl
  refine ⟨report, hreport, hstatus.trans ?_, hreason.trans ?_⟩
  · show getOrNull (readBack env.mask (stoppedPayload r.inside.state r.budget)) "status" = _
    rw [getOrNull, lookup_readBack]
    rfl
  · show getOrNull (readBack env.mask (stoppedPayload r.inside.state r.budget)) "stop_reason" = _
    have hlookup : Json.lookup (str "stop_reason") (stoppedPayload r.inside.state r.budget) =
        some (EventLog.textOrNull (r.inside.state.stopReason.map (·.text))) := rfl
    rw [getOrNull, lookup_readBack, hlookup, Option.map_some, if_pos (by decide)]
    cases r.inside.state.stopReason <;> rfl

/-- A report on a log that tells the rounds lists what they adopted. -/
theorem read_of_corresponds {rt : Runtime} {r : Run W} {records : List Record}
    (h : Corresponds env r log) (hfresh : env.resumeRecords = none)
    (hw : Written env.runId log.events records) :
    ∃ sources, Feedback.sourceDetails rt (records.map Record.readFields) = .ok sources ∧
      (sources.map (·.sourceId)).Nodup ∧
        ∀ id, Dict.get id (digestsHeld (observationsOf r.inside.state.evidenceBase)) =
          (Dict.get id (Feedback.digestsOf sources)).or
            (Dict.get id (digestsHeld (observationsOf env.evidence))) := by
  have hevents : env.fresh log = log.events := by
    rw [Setting.fresh, hfresh]
    rfl
  have htold := hevents ▸ h.readings
  have hanswers := h.sourced.ofAnswers
  obtain ⟨before, hstop⟩ := h.stop
  have hfinished : Feedback.FinishedLog rt env.runId (utf8 (logText records))
      (records.map Record.readFields) :=
    Feedback.finishedLog_of_written hw ⟨_, hstop ▸ List.mem_append_right _ List.mem_cons_self, rfl⟩
  have hnamed : ∀ a ∈ Feedback.adoptions (records.map Record.readFields), a.NamesBytes rt := by
    refine Feedback.named_of_written hw fun e he hkind ↦ ?_
    have hmem : (e.iteration, e.payload) ∈ env.readingsTold
        r.inside.state.metadata.observationRounds :=
      htold ▸ List.mem_map_of_mem (List.mem_filter.mpr ⟨he, decide_eq_true hkind⟩)
    obtain ⟨round, hround, heq⟩ := List.mem_map.mp hmem
    exact Feedback.namesRound_of_round (congrArg Prod.snd heq).symm
      (hanswers round hround).supersededBy
  have hreads : List.Forall₂ (fun e f ↦ e.canon.Reads f) log.events
      (records.map Record.readFields) := List.forall₂_map_left_iff.mp hw.reads
  have hdigests : Feedback.digestsOf (((records.map Record.readFields).filter
      (Inspect.isKind .observationRecorded)).flatMap (Feedback.roundRefs rt)) =
        r.inside.state.metadata.observationRounds.flatMap (·.round.digests) :=
    digestsOf_told hreads htold fun r hr ↦ (hanswers r hr).digested
  refine ⟨_, Feedback.sourceDetails_of_named hfinished hnamed, Feedback.nodup_sourceDetails,
    fun id ↦ ?_⟩
  rw [← h.sourced.bytes id, Dict.get_fill, ← hdigests, Feedback.get_digestsOf_fill]

/-- What a report on a run says of it. -/
structure Reports (rt : Runtime) (floatGreater : Json → Json → Bool) (env : Setting W) (r : Run W)
    (records : List Record) : Prop where
  /-- The report is made, and says how the run ended. -/
  ended : ∃ report, Inspect.inspectRun rt floatGreater env.runId (some (utf8 (logText records))) =
    .ok report ∧ report.status = .str r.inside.state.status.text ∧
      report.stopReason = EventLog.textOrNull (r.inside.state.stopReason.map (·.text))
  /-- The sources that it lists are once each in it, and the bytes that it lists for them are those
  that the run held at its end; what it does not list the run held from the start, or never. -/
  read : ∃ sources, Feedback.sourceDetails rt (records.map Record.readFields) = .ok sources ∧
    (sources.map (·.sourceId)).Nodup ∧
      ∀ id, Dict.get id (digestsHeld (observationsOf r.inside.state.evidenceBase)) =
        (Dict.get id (Feedback.digestsOf sources)).or
          (Dict.get id (digestsHeld (observationsOf env.evidence)))

/-- **A run is reported as it was.**  Whatever a fresh run was given and whatever its surroundings
did, when it returns and its log was written, a reader of the file reports how it ended and which
bytes it held. -/
theorem run_inspected (rt : Runtime) (floatGreater : Json → Json → Bool) (env : Setting W) (w : W) :
    (run env).wp (fun _ r ↦ env.resumeRecords = none → ∀ log records, r.inside.log = some log →
      List.Forall₂ (fun e r ↦ e.IsRecord r.fields) log.events records →
        (∀ r ∈ records, r.Writable) → (∀ r ∈ records, r.breakFree = true) →
          Reports rt floatGreater env r records) (fun _ _ ↦ True) (env.start w) := by
  have hends : (run env).wp (fun _ r ↦ ∀ log, r.inside.log = some log → Corresponds env r log)
      (fun _ r ↦ Lagging env r.holdings) (env.start w) := by
    rw [run_eq, Eff.wp_bind]
    refine (truthful_untilStop env w).mono (fun _ r hr ↦ ?_) fun _ _ h ↦ h
    obtain ⟨phase, hr⟩ := hr
    exact corresponds_stopped hr
  refine (hends.and (Eff.wp_run _ _)).mono
    (fun _ r h hfresh log records hlog hrecords hwritable hbreakFree ↦ ?_) fun _ _ _ ↦ trivial
  obtain ⟨hcorresponds, hrun⟩ := h
  have hgoes : env.GoesOn := fun records hsome ↦ by
    rw [hfresh] at hsome
    cases hsome
  have hhistory : LogHistory env r := by
    have hleft := run_history hgoes w
    rwa [hrun] at hleft
  have hw : Written env.runId log.events records :=
    ⟨hhistory log hlog, hrecords, hwritable, hbreakFree⟩
  exact ⟨ended_of_corresponds (hcorresponds log hlog) hw,
    read_of_corresponds (hcorresponds log hlog) hfresh hw⟩

/-- A base in which nothing is read yet. -/
def bareBase : EvidenceBase where
  snapshot := plainSnapshot
  observations := []
  readers := []
  sameSnapshot := nofun
  distinct := List.nodup_nil

theorem foundFile_accepted : (plainSource .localFile (str "a.json")).postInit = .ok () := by
  decide +kernel

/-- The file that the observer finds, with the content `{}`. -/
def foundFile : Observation := ⟨plainSource .localFile (str "a.json"), foundFile_accepted⟩

theorem sixtySeconds : (0 : ℚ) < 60 := by decide

/-- A machine that reads before it plans, and finds a file. -/
def readingSetting : Setting Unit :=
  { loggedSetting with
    evidence := some bareBase
    limits := some ⟨60, 10, 10, 10, 100000, sixtySeconds⟩
    observer := some fun _ ↦ return [some foundFile]
    readFirst := true }

/-- Its run is reported, with the round in which the file was found. -/
theorem run_inspected_reading :
    ∃ log records, (run readingSetting (readingSetting.start ())).2.inside.log = some log ∧
      (∃ e ∈ log.events, e.kind = .observationRecorded) ∧
      Reports asciiRuntime (fun _ _ ↦ false) readingSetting
        (run readingSetting (readingSetting.start ())).2 records := by
  -- for any setting: with this one in its place, elaboration would carry the run out
  have hreports (env : Setting Unit) {r : Run Unit} (h : run env (env.start ()) = (.ok (), r)) :=
    (run_inspected asciiRuntime (fun _ _ ↦ false) env ()).of_run h
  have hrun : (run readingSetting (readingSetting.start ())).1.isOk = true ∧
      ((run readingSetting (readingSetting.start ())).2.inside.log.map fun log ↦
        decide ((∃ e ∈ log.events, e.kind = .observationRecorded) ∧
          ∀ e ∈ log.events, e.Recordable)) = some true := by
    decide +kernel
  obtain ⟨hok, hlog⟩ := hrun
  obtain ⟨log, hlog, hchecks⟩ := Option.map_eq_some_iff.mp hlog
  obtain ⟨hread, hrecordable⟩ := of_decide_eq_true hchecks
  obtain ⟨records, hrecords, hwritable, hbreakFree⟩ := exists_records hrecordable
  refine ⟨log, records, hlog, hread, ?_⟩
  rcases hm : run readingSetting (readingSetting.start ()) with ⟨e | _, r⟩
  · rw [hm] at hok
    cases hok
  · rw [hm] at hlog
    exact hreports readingSetting hm rfl log records hlog hrecords hwritable hbreakFree

end AtlasCore
