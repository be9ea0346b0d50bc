import AtlasCore.Adapters.FilesystemRepo

/-!
# What an observer does with what it cannot read

Between any two steps of a call the files may be anything, so the call is told along its loop, from
one read to the next and in the states that the reads meet.  It does what it is to do exactly if
each read that is made ends with what is skipped or with an observation of the window that was asked
for, and no two of them lead to one source (`observe_skips_iff`).  Names that are never read do not
matter.

A window that is gone is no way out: its path is read a second time, and for that read nothing was
reserved.
-/

set_option autoImplicit false

namespace AtlasCore

open Py

variable {W : Type}

section
variable (fs : FileSystem W) (meter : Meter W) (classify : Str → Confidentiality)
  (observer : RepoObserver) (taken snapshot : TakenSnapshot) (request : ObservationRequest)

/-- How many tool calls were reserved and not spent on a read. -/
def Observing.unspent (s : Observing W) : ℤ := (s.budget.toolCalls : ℤ) - s.reads

/-- What an observer promises of a call: what it may raise, how much it returns, and that every read
was reserved. -/
structure Skips (s : Observing W) (r : Except Exc (List Observation) × Observing W) : Prop where
  raises : ∀ e, r.1 = .error e →
    BudgetRaises meter e ∨ e = .valueError ∧ Foreign fs observer request s.world
  few : ∀ observations, r.1 = .ok observations → observations.length ≤ observer.maxFilesPerRound
  distinct : ∀ observations, r.1 = .ok observations → (observations.map (·.sourceId)).Nodup
  bound : ∀ observations, r.1 = .ok observations →
    ∀ o ∈ observations, o.snapshotId = request.snapshot.snapshotId
  reserved : r.2.unspent = s.unspent

/-! ## What a call meets

What the file system answers to the reads of a call decides what becomes of it.  `located` are the
answers to one read, `ReadWell` is said of them, and `LoopWell` goes along the loop with the paths
that the reads have led to. -/

/-- What the file system answers to the read of a name: the path below the root that the name leads
to, and the bytes that are there. -/
def located (path : Str) : Eff Exc W (Str × Bytes) := do
  let target ← fs.resolveWithin taken.root path
  let root ← fs.resolve taken.root
  match relativeTo root target with
  | none => Eff.raise .valueError
  | some concrete => do
    let bytes ← fs.readBytes taken.root concrete
    return (concrete, bytes)

/-- What is raised while a wanted path is read is skipped, and the call goes on; or else the budget
raises it too, and it does not pass for a window that is gone. -/
def Passed (window : Option LineWindow) (e : Exc) (goOn : Prop) : Prop :=
  e.isSkipped = true ∧ goOn ∨
    e.isSkipped = false ∧ BudgetRaises meter e ∧ (e.isValueError = true → window = none)

/-- One read: it is skipped, or what the name leads to can be named and has the window that is asked
for; and then the call goes on. -/
def ReadWell (expanded : List Str) (x : Wanted) (goOn : Option Str → W → Prop) (w : W) : Prop :=
  (located fs taken x.1).wp
    (fun p v ↦
      (∃ e, fs.refusal (some observer.maxBytesPerFile) p.2 = some e ∧
        Passed meter x.2 e (goOn none v)) ∨
      fs.refusal (some observer.maxBytesPerFile) p.2 = none ∧
        (Nameable taken p.1 ∧ Shows (readArgs observer expanded x) (readText p.2) ∧
            goOn (some p.1) v ∨
          x.2 = none ∧ ∃ e, collected classify taken p.1 (readArgs observer expanded x) (fs.now v)
            (readText p.2) = .error e ∧ BudgetRaises meter e))
    (fun e v ↦ Passed meter x.2 e (goOn none v)) w

/-- No two of the paths are one source. -/
def DistinctSources (led : List Str) : Prop :=
  (led.map (deriveSourceId taken.snapshotId .localFile)).Nodup

/-- The loop, with the paths that were led to: each read is well, and what is returned in the end is
of sources that are apart. -/
def LoopWell (expanded : List Str) : List Wanted → List Str → List Str → Observing W → Prop
  | [], led, _, _ => DistinctSources taken led
  | x :: rest, led, seen, s =>
    if x.1 ∈ seen then LoopWell expanded rest led seen s
    else if led.length ≥ observer.maxFilesPerRound then DistinctSources taken led
    else
      (onBudgetOf (RunBudget.check meter)).wp (fun _ t ↦
        (onBudgetOf (RunBudget.reserveTool meter)).wp (fun _ u ↦
          ReadWell fs meter classify observer taken expanded x (fun source v ↦
            source.elim
              (LoopWell expanded rest led (x.1 :: seen)
                { u with reads := u.reads + 1, world := v })
              fun concrete ↦ (onBudgetOf (RunBudget.check meter)).wp
                (fun _ r ↦ LoopWell expanded rest (led ++ [concrete]) (x.1 :: seen) r)
                (fun _ _ ↦ True) { u with reads := u.reads + 1, world := v }) u.world)
          (fun _ _ ↦ True) t)
        (fun _ _ ↦ True) s

/-- A call: the root of the snapshot resolves, and, unless it is of another checkout, so do the
names of the request, and the loop over them is well. -/
def Orderly (s : Observing W) : Prop :=
  (fs.resolve request.snapshot.root).wp
    (fun root v ↦ root = observer.repoPath → (resolveRequest fs request root).wp
      (fun p u ↦ LoopWell fs meter classify observer (boundTo snapshot request) p.2 p.1 [] []
        { s with world := u })
      (fun e _ ↦ BudgetRaises meter e) v)
    (fun e _ ↦ BudgetRaises meter e) s.world

end

variable {fs : FileSystem W} {meter : Meter W} {classify : Str → Confidentiality}
  {observer : RepoObserver} {taken snapshot : TakenSnapshot} {request : ObservationRequest}
  {expanded : List Str} {x : Wanted} {s : Observing W} {k : ℤ}

/-! ## Reservations

A round of the loop reserves one call and spends one, or two where a window was gone, so what is not
spent never grows; where it once went down, it stays down. -/

theorem wp_checkBudget : (onBudgetOf (RunBudget.check meter)).wp
    (fun _ t ↦ t.unspent = s.unspent)
    (fun e t ↦ BudgetRaises meter e ∧ t.unspent = s.unspent) s := by
  have hkeeps : ∀ m : Eff Exc W ℚ, Eff.Keeps (fun _ : W ↦ True) m := fun m w _ ↦ Eff.wp_true m w
  refine Eff.wp_zoom.mpr ((wp_check (hkeeps _) (fun w _ ↦ Eff.wp_true _ w) trivial).mono ?_ ?_)
  · rintro - ⟨v, _⟩ ⟨-, rfl⟩
    rfl
  · rintro e ⟨v, _⟩ ⟨hraises, -, rfl⟩
    exact ⟨hraises, rfl⟩

theorem wp_reserveRead : (onBudgetOf (RunBudget.reserveTool meter)).wp
    (fun _ t ↦ t.unspent = s.unspent + 1)
    (fun e t ↦ BudgetRaises meter e ∧ t.unspent = s.unspent) s := by
  have hkeeps : ∀ m : Eff Exc W ℚ, Eff.Keeps (fun _ : W ↦ True) m := fun m w _ ↦ Eff.wp_true m w
  refine Eff.wp_zoom.mpr
    ((wp_reserveTool (hkeeps _) (fun w _ ↦ Eff.wp_true _ w) trivial).mono ?_ ?_)
  · rintro - ⟨v, _⟩ ⟨-, rfl⟩
    simp only [Observing.unspent]
    omega
  · rintro e ⟨v, _⟩ ⟨hraises, -, rfl⟩
    exact ⟨hraises, rfl⟩

/-- A read spends one. -/
theorem unspent_read {v : W} :
    ({ s with reads := s.reads + 1, world := v } : Observing W).unspent = s.unspent - 1 := by
  simp only [Observing.unspent]
  omega

theorem wp_readOnce {path : Str} {args : CollectArgs} {Q : Observation → Observing W → Prop}
    {E : Exc → Observing W → Prop} : (readOnce fs classify taken path args).wp Q E s ↔
      (collectSafely fs classify taken path args).wp
        (fun o v ↦ Q o { s with reads := s.reads + 1, world := v })
        (fun e v ↦ E e { s with reads := s.reads + 1, world := v }) s.world := by
  rw [readOnce, Eff.wp_bind, Eff.wp_update, onDisk, Eff.wp_zoom]

theorem wp_tryCollect_unspent : (tryCollect fs classify observer taken expanded x).wp
    (fun _ t ↦ t.unspent < s.unspent) (fun _ t ↦ t.unspent < s.unspent) s := by
  have hread : ∀ {path args} (t : Observing W), t.unspent ≤ s.unspent →
      (readOnce fs classify taken path args).wp (fun _ r ↦ r.unspent < s.unspent)
        (fun _ r ↦ r.unspent < s.unspent) t := fun t ht ↦ by
    have hspent : ∀ v : W,
        ({ t with reads := t.reads + 1, world := v } : Observing W).unspent < s.unspent :=
          fun v ↦ by
      rw [unspent_read]
      omega
    exact wp_readOnce.mpr ((Eff.wp_true _ _).mono (fun _ v _ ↦ hspent v) fun _ v _ ↦ hspent v)
  rw [tryCollect, Eff.wp_handle, Eff.wp_bind]
  refine (hread s le_rfl).mono (fun _ _ h ↦ h) fun e t ht ↦ ?_
  rw [exceptClauses, Eff.wp_ite, Eff.wp_ite]
  refine ⟨fun _ ↦ ?_, fun _ ↦ ⟨fun _ ↦ ht, fun _ ↦ ht⟩⟩
  cases x.2 with
  | none => exact ht
  | some window => exact Eff.wp_bind.mpr (hread t ht.le)

/-- What is not spent never grows. -/
theorem wp_observeAll_unspent : ∀ (rest : List Wanted) (observations : List Observation)
    (seen : List Str) (s : Observing W),
    (observeAll fs meter classify observer taken expanded rest observations seen).wp
      (fun _ t ↦ t.unspent ≤ s.unspent) (fun _ t ↦ t.unspent ≤ s.unspent) s
  | [], _, _, s => le_refl s.unspent
  | x :: rest, observations, seen, s => by
    have hrest : ∀ (observations : List Observation) (seen : List Str) (t : Observing W),
        t.unspent ≤ s.unspent →
        (observeAll fs meter classify observer taken expanded rest observations seen).wp
          (fun _ r ↦ r.unspent ≤ s.unspent) (fun _ r ↦ r.unspent ≤ s.unspent) t := fun _ _ t ht ↦
      (wp_observeAll_unspent rest _ _ t).mono (fun _ _ h ↦ h.trans ht) fun _ _ h ↦ h.trans ht
    rw [observeAll, Eff.wp_ite, Eff.wp_ite]
    refine ⟨fun _ ↦ hrest _ _ s le_rfl, fun _ ↦ ⟨fun _ ↦ le_refl s.unspent, fun _ ↦ ?_⟩⟩
    rw [Eff.wp_bind]
    refine wp_checkBudget.mono (fun _ t ht ↦ ?_) fun _ _ h ↦ h.2.le
    rw [Eff.wp_bind]
    refine wp_reserveRead.mono (fun _ u hu ↦ ?_) fun _ _ h ↦ (h.2.trans ht).le
    rw [Eff.wp_bind]
    refine wp_tryCollect_unspent.mono (fun result v hv ↦ ?_) fun _ _ h ↦ by omega
    cases result with
    | none => exact hrest _ _ v (by omega)
    | some o =>
      dsimp only
      rw [Eff.wp_bind]
      exact wp_checkBudget.mono (fun _ r hr ↦ hrest _ _ r (by omega)) fun _ _ h ↦ by omega

/-! ## A read

One wanted path: what is raised while it is read, which of that is skipped, and what a second read
of it costs. -/

theorem isValueError_of_isSkipped {e : Exc} (h : e.isSkipped = true) : e.isValueError = false := by
  revert h
  cases e <;> first | exact fun _ ↦ rfl | exact fun h ↦ absurd h (by decide)

/-- A read is the answers of the file system, and what is made of them. -/
theorem collectSafely_eq (path : Str) (args : CollectArgs) :
    collectSafely fs classify taken path args = (do
      let p ← located fs taken path
      (fs.refusal args.maxBytes p.2).elim
        (do Eff.ofExcept (collected classify taken p.1 args (fs.now (← Eff.read)) (readText p.2)))
        Eff.raise) := by
  rw [collectSafely, located, bind_assoc]
  refine congrArg _ (funext fun target ↦ ?_)
  rw [bind_assoc]
  refine congrArg _ (funext fun root ↦ ?_)
  cases relativeTo root target with
  | none => rfl
  | some concrete =>
    dsimp only
    rw [collectObservation, Disk.readWithin, bind_assoc, bind_assoc]
    refine congrArg _ (funext fun bytes ↦ ?_)
    rw [pure_bind]
    cases fs.refusal args.maxBytes bytes <;> rfl

section
variable {Q : Option Observation → Observing W → Prop} {goOn : Option Str → W → Prop}

/-- What is raised is skipped, or it is the budget's; a second read is one too many. -/
theorem wp_exceptClauses {t : Observing W} {e : Exc} (ht : t.unspent = k)
    (hlost : ∀ o r, r.unspent < k → ¬ Q (some o) r) :
    (exceptClauses fs classify observer taken x e).wp Q
      (fun e r ↦ BudgetRaises meter e ∧ r.unspent = k) t ↔ Passed meter x.2 e (Q none t) := by
  rw [exceptClauses, Passed]
  by_cases hvalue : e.isValueError = true
  · have hskipped : e.isSkipped = false := by
      rw [← Bool.not_eq_true]
      intro hskipped
      rw [isValueError_of_isSkipped hskipped] at hvalue
      exact Bool.noConfusion hvalue
    rw [if_pos hvalue]
    cases hwindow : x.2 with
    | none => simp [hskipped, ht]
    | some window =>
      refine iff_of_false (fun h ↦ ?_) (by simp [hskipped, hvalue])
      have hspent : ∀ v : W,
          ({ t with reads := t.reads + 1, world := v } : Observing W).unspent = k - 1 := fun v ↦ by
        rw [unspent_read, ht]
      have hfalse : (collectSafely fs classify taken x.1 (headArgs observer)).wp
          (fun _ _ ↦ False) (fun _ _ ↦ False) t.world := by
        refine (wp_readOnce.mp (Eff.wp_bind.mp h)).mono (fun o v hv ↦ ?_) fun e v hv ↦ ?_
        · exact hlost o _ (by rw [hspent]; omega) hv
        · have hk := hv.2
          rw [hspent] at hk
          omega
      rcases hrun : collectSafely fs classify taken x.1 (headArgs observer) t.world with
        ⟨e | o, v⟩
      · exact hfalse.of_raise hrun
      · exact hfalse.of_run hrun
  · rw [if_neg hvalue]
    by_cases hskipped : e.isSkipped = true
    · rw [if_pos hskipped]
      simp [hskipped]
    · rw [if_neg hskipped]
      simp [hskipped, hvalue, ht]

/-- **One read** for one reservation. -/
theorem wp_tryCollect (hs : s.unspent = k + 1) (hlost : ∀ o r, r.unspent < k → ¬ Q (some o) r)
    (hnone : ∀ v, Q none { s with reads := s.reads + 1, world := v } ↔ goOn none v)
    (hsome : ∀ o concrete v, o.snapshotId = taken.snapshotId →
      deriveSourceId taken.snapshotId .localFile concrete = some o.sourceId →
        (Q (some o) { s with reads := s.reads + 1, world := v } ↔ goOn (some concrete) v)) :
    (tryCollect fs classify observer taken expanded x).wp Q
      (fun e r ↦ BudgetRaises meter e ∧ r.unspent = k) s ↔
      ReadWell fs meter classify observer taken expanded x goOn s.world := by
  have hk : ∀ v : W, ({ s with reads := s.reads + 1, world := v } : Observing W).unspent = k :=
    fun v ↦ by
      rw [unspent_read, hs]
      omega
  have hpassed : ∀ e v, (exceptClauses fs classify observer taken x e).wp Q
      (fun e r ↦ BudgetRaises meter e ∧ r.unspent = k)
        { s with reads := s.reads + 1, world := v } ↔ Passed meter x.2 e (goOn none v) :=
    fun e v ↦ by rw [wp_exceptClauses (hk v) hlost, hnone]
  rw [tryCollect, Eff.wp_handle, Eff.wp_bind, wp_readOnce, collectSafely_eq, Eff.wp_bind, ReadWell,
    maxBytes_readArgs]
  refine Eff.wp_congr (fun p v _ ↦ ?_) fun e v _ ↦ hpassed e v
  cases hrefusal : fs.refusal (some observer.maxBytesPerFile) p.2 with
  | some e =>
    refine (hpassed e v).trans ⟨fun h ↦ .inl ⟨e, rfl, h⟩, ?_⟩
    rintro (⟨_, ⟨⟩, h⟩ | ⟨hnone, -⟩)
    · exact h
    · cases hnone
  | none =>
    rw [Option.elim_none, Eff.wp_bind, Eff.wp_read, Eff.wp_ofExcept]
    cases hcollected : collected classify taken p.1 (readArgs observer expanded x) (fs.now v)
      (readText p.2) with
    | ok o =>
      have hwell := nameable_and_shows hcollected
      obtain ⟨made, hmade, hsnapshot, hid⟩ := collected_of_shows classify (fs.now v) hwell.1
        (one_le_maxLines expanded x) hwell.2
      obtain rfl := Except.ok.inj (hcollected.symm.trans hmade)
      refine (hsome o p.1 v hsnapshot hid).trans ⟨fun h ↦ .inr ⟨rfl, .inl ⟨hwell.1, hwell.2, h⟩⟩,
        ?_⟩
      rintro (⟨_, hsome, -⟩ | ⟨-, ⟨-, -, h⟩ | ⟨-, _, herror, -⟩⟩)
      · cases hsome
      · exact h
      · cases herror
    | error e =>
      have hvalue := isValueError_of_collected hcollected
      refine (hpassed e v).trans ⟨fun h ↦ ?_, ?_⟩
      · rcases h with ⟨hskipped, -⟩ | ⟨-, hraises, hwindow⟩
        · rw [isValueError_of_isSkipped hskipped] at hvalue
          exact Bool.noConfusion hvalue
        · exact .inr ⟨rfl, .inr ⟨hwindow hvalue, e, rfl, hraises⟩⟩
      · rintro (⟨_, hsome, -⟩ | ⟨-, ⟨hnamed, hshows, -⟩ | ⟨hwindow, e', herror, hraises⟩⟩)
        · cases hsome
        · obtain ⟨o, ho, -⟩ := collected_of_shows classify (fs.now v) hnamed
            (one_le_maxLines expanded x) hshows
          cases hcollected.symm.trans ho
        · obtain rfl := Except.error.inj herror
          refine .inr ⟨?_, hraises, fun _ ↦ hwindow⟩
          rw [← Bool.not_eq_true]
          intro hskipped
          rw [isValueError_of_isSkipped hskipped] at hvalue
          exact Bool.noConfusion hvalue

end

/-! ## The loop -/

/-- What is asked of a call that returns. -/
structure WellReturned (observer : RepoObserver) (taken : TakenSnapshot) (k : ℤ)
    (observations : List Observation) (t : Observing W) : Prop where
  few : observations.length ≤ observer.maxFilesPerRound
  distinct : (observations.map (·.sourceId)).Nodup
  bound : ∀ o ∈ observations, o.snapshotId = taken.snapshotId
  reserved : t.unspent = k

/-- What was collected is of the sources that were led to. -/
structure Led (observer : RepoObserver) (taken : TakenSnapshot) (led : List Str)
    (observations : List Observation) : Prop where
  ids : led.map (deriveSourceId taken.snapshotId .localFile) =
    observations.map fun o ↦ some o.sourceId
  few : observations.length ≤ observer.maxFilesPerRound
  bound : ∀ o ∈ observations, o.snapshotId = taken.snapshotId

theorem Led.length {led : List Str} {observations : List Observation}
    (h : Led observer taken led observations) : led.length = observations.length := by
  have hlength := congrArg List.length h.ids
  rwa [List.length_map, List.length_map] at hlength

theorem Led.snoc {led : List Str} {observations : List Observation}
    (h : Led observer taken led observations) {o : Observation} {concrete : Str}
    (hroom : observations.length < observer.maxFilesPerRound)
    (hbound : o.snapshotId = taken.snapshotId)
    (hid : deriveSourceId taken.snapshotId .localFile concrete = some o.sourceId) :
    Led observer taken (led ++ [concrete]) (observations ++ [o]) where
  ids := by rw [List.map_append, List.map_append, h.ids, List.map_singleton, List.map_singleton,
    hid]
  few := by
    rw [List.length_append, List.length_singleton]
    exact hroom
  bound := fun p hp ↦ by
    rcases List.mem_append.mp hp with hp | hp
    · exact h.bound p hp
    · rw [List.mem_singleton.mp hp]
      exact hbound

theorem Led.returned_iff {led : List Str} {observations : List Observation}
    (h : Led observer taken led observations) (hk : s.unspent = k) :
    WellReturned observer taken k observations s ↔ DistinctSources taken led := by
  have hnodup : DistinctSources taken led ↔ (observations.map (·.sourceId)).Nodup := by
    have hmap : (observations.map fun o ↦ some o.sourceId) =
        (observations.map (·.sourceId)).map some := by rw [List.map_map]; rfl
    rw [DistinctSources, h.ids, hmap, List.nodup_map_iff (Option.some_injective _)]
  rw [hnodup]
  exact ⟨fun hr ↦ hr.distinct, fun hd ↦ ⟨h.few, hd, h.bound, hk⟩⟩

/-- **The loop** does what it is to do exactly if it is well. -/
theorem wp_observeAll : ∀ (rest : List Wanted) (observations : List Observation) (led : List Str)
    (seen : List Str) (s : Observing W), Led observer taken led observations → s.unspent = k →
    ((observeAll fs meter classify observer taken expanded rest observations seen).wp
      (WellReturned observer taken k) (fun e t ↦ BudgetRaises meter e ∧ t.unspent = k) s ↔
        LoopWell fs meter classify observer taken expanded rest led seen s)
  | [], observations, led, _, s, hled, hk => hled.returned_iff hk
  | x :: rest, observations, led, seen, s, hled, hk => by
    have hlost : ∀ (observations : List Observation) (seen : List Str) (t : Observing W),
        t.unspent < k →
        ¬ (observeAll fs meter classify observer taken expanded rest observations seen).wp
          (WellReturned observer taken k) (fun e t ↦ BudgetRaises meter e ∧ t.unspent = k) t :=
      fun observations seen t ht h ↦ by
        have hfalse : (observeAll fs meter classify observer taken expanded rest observations
            seen).wp (fun _ _ ↦ False) (fun _ _ ↦ False) t :=
          (h.and (wp_observeAll_unspent rest observations seen t)).mono
            (fun _ r hr ↦ by have := hr.1.reserved; omega) fun _ r hr ↦ by have := hr.1.2; omega
        exact hfalse.left (P := fun _ ↦ False)
    rw [observeAll, LoopWell]
    by_cases hseen : x.1 ∈ seen
    · rw [if_pos hseen, if_pos hseen]
      exact wp_observeAll rest observations led seen s hled hk
    rw [if_neg hseen, if_neg hseen]
    by_cases hroom : observations.length ≥ observer.maxFilesPerRound
    · rw [if_pos hroom, if_pos (by rw [hled.length]; exact hroom)]
      exact hled.returned_iff hk
    rw [if_neg hroom, if_neg (by rw [hled.length]; exact hroom), Eff.wp_bind]
    refine Eff.wp_congr (fun _ t ht ↦ ?_) fun e t ht ↦ iff_of_true ?_ trivial
    · have htk : t.unspent = k := (wp_checkBudget.of_run ht).trans hk
      rw [Eff.wp_bind]
      refine Eff.wp_congr (fun _ u hu ↦ ?_) fun e u hu ↦ iff_of_true ?_ trivial
      · have huk : u.unspent = k + 1 := by rw [wp_reserveRead.of_run hu, htk]
        rw [Eff.wp_bind]
        refine wp_tryCollect huk (fun o r hr hgo ↦ ?_) (fun v ↦ ?_) fun o concrete v hbound hid ↦ ?_
        · -- what was spent twice is missing in the end
          rw [Eff.wp_bind] at hgo
          have hfalse : (onBudgetOf (RunBudget.check meter)).wp (fun _ _ ↦ False)
              (fun _ _ ↦ False) r := by
            refine (hgo.and wp_checkBudget).mono (fun _ q hq ↦ ?_) fun e q hq ↦ ?_
            · exact hlost _ _ q (by rw [hq.2]; exact hr) hq.1
            · have hqk := hq.1.2
              rw [hq.2.2] at hqk
              omega
          exact hfalse.left (P := fun _ ↦ False)
        · exact wp_observeAll rest observations led (x.1 :: seen) _ hled
            (by rw [unspent_read, huk]; omega)
        · have hvk : ({ u with reads := u.reads + 1, world := v } : Observing W).unspent = k := by
            rw [unspent_read, huk]
            omega
          dsimp only [Option.elim_some]
          rw [Eff.wp_bind]
          refine Eff.wp_congr (fun _ r hr ↦ ?_) fun e r hr ↦ iff_of_true ?_ trivial
          · exact wp_observeAll rest (observations ++ [o]) (led ++ [concrete]) (x.1 :: seen) r
              (hled.snoc (not_le.mp hroom) hbound hid) ((wp_checkBudget.of_run hr).trans hvk)
          · exact ⟨(wp_checkBudget.of_raise hr).1, (wp_checkBudget.of_raise hr).2.trans hvk⟩
      · exact ⟨(wp_reserveRead.of_raise hu).1, (wp_reserveRead.of_raise hu).2.trans htk⟩
    · exact ⟨(wp_checkBudget.of_raise ht).1, (wp_checkBudget.of_raise ht).2.trans hk⟩

/-! ## The call

The resolution of the request, the loop, and what a caller sees of both. -/

/-- What is asked of a call is asked of how it ends. -/
theorem skips_iff_wp {m : ObserveM W (List Observation)} :
    Skips fs meter observer request s (m s) ↔
      m.wp (WellReturned observer (boundTo snapshot request) s.unspent)
        (fun e t ↦ (BudgetRaises meter e ∨ e = .valueError ∧ Foreign fs observer request s.world) ∧
          t.unspent = s.unspent) s := by
  rw [Eff.wp]
  rcases m s with ⟨e | observations, t⟩
  · refine ⟨fun h ↦ ⟨h.raises e rfl, h.reserved⟩, fun h ↦ ⟨fun e' he ↦ ?_, ?_, ?_, ?_, h.2⟩⟩
    · exact Except.error.inj he ▸ h.1
    all_goals
      intro observations hr
      cases hr
  · constructor
    · exact fun h ↦ ⟨h.few _ rfl, h.distinct _ rfl, h.bound _ rfl, h.reserved⟩
    · refine fun h ↦ ⟨fun e he ↦ ?_, fun r hr ↦ ?_, fun r hr ↦ ?_, fun r hr ↦ ?_, h.reserved⟩
      · cases he
      · exact Except.ok.inj hr ▸ h.few
      · exact Except.ok.inj hr ▸ h.distinct
      · exact Except.ok.inj hr ▸ h.bound

/-- **An observer skips what it cannot read** exactly in the calls that are orderly. -/
theorem observe_skips_iff (fs : FileSystem W) (meter : Meter W) (classify : Str → Confidentiality)
    (observer : RepoObserver) (snapshot : TakenSnapshot) (request : ObservationRequest)
    (s : Observing W) :
    Skips fs meter observer request s
        (observe fs meter classify observer snapshot request s) ↔
      Orderly fs meter classify observer snapshot request s := by
  rw [skips_iff_wp, observe, Eff.wp_bind, onDisk, Eff.wp_zoom, Orderly]
  refine Eff.wp_congr (fun root v hroot ↦ ?_) fun e v hroot ↦ ?_
  · rw [Eff.wp_ite]
    have hforeign : Foreign fs observer request s.world ↔ root ≠ observer.repoPath := by
      rw [Foreign, hroot]
      exact ⟨fun ⟨_, hr, hne⟩ ↦ Except.ok.inj hr ▸ hne, fun hne ↦ ⟨root, rfl, hne⟩⟩
    by_cases hne : root ≠ observer.repoPath
    · refine iff_of_true ⟨fun _ ↦ ⟨.inr ⟨rfl, hforeign.mpr hne⟩, rfl⟩, fun h ↦ absurd hne h⟩
        fun heq ↦ absurd heq hne
    obtain rfl := not_not.mp hne
    rw [and_iff_right (fun h ↦ absurd rfl h), imp_iff_right hne, imp_iff_right rfl,
      Eff.wp_bind, onDisk, Eff.wp_zoom]
    have hraised : ∀ e, BudgetRaises meter e ∨ e = .valueError ∧
      Foreign fs observer request s.world ↔
        BudgetRaises meter e := fun e ↦ by
      rw [hforeign]
      exact or_iff_left fun h ↦ h.2 rfl
    simp only [hraised]
    refine Eff.wp_congr (fun p u _ ↦ ?_) fun e u _ ↦ and_iff_left rfl
    exact wp_observeAll p.1 [] [] [] _
      ⟨rfl, Nat.zero_le _, fun _ h ↦ absurd h List.not_mem_nil⟩ rfl
  · refine ⟨fun h ↦ h.1.resolve_right ?_, fun h ↦ ⟨.inl h, rfl⟩⟩
    rintro ⟨-, root, hr, -⟩
    rw [hroot] at hr
    cases hr

theorem stillMeter_check (p : Unit × RunBudget) :
    (RunBudget.check stillMeter).wp (fun _ _ ↦ True) (fun e _ ↦ e ≠ .valueError) p := by
  rw [RunBudget.check]
  refine Eff.wp_bind.mpr (Eff.wp_ite.mpr ⟨fun h ↦ absurd h Bool.false_ne_true, fun _ ↦ ?_⟩)
  exact Eff.wp_ite.mpr ⟨fun _ h ↦ (by cases h), fun _ ↦ trivial⟩

theorem stillMeter_raises : ¬ BudgetRaises stillMeter .valueError := by
  rintro ⟨p, hcheck | hreserve⟩
  · exact (stillMeter_check p).outcome.2 _ hcheck rfl
  · have hreserved : (RunBudget.reserveTool stillMeter).wp (fun _ _ ↦ True)
        (fun e _ ↦ e ≠ .valueError) p := by
      rw [RunBudget.reserveTool]
      refine Eff.wp_bind.mpr ((stillMeter_check p).mono (fun _ q _ ↦ ?_) fun _ _ h ↦ h)
      exact Eff.wp_ite.mpr ⟨fun _ h ↦ (by cases h), fun _ ↦ trivial⟩
    exact hreserved.outcome.2 _ hreserve rfl

/-- A file of one blank line ends the call with a `ValueError`. -/
theorem blankReadme_raises : ¬ Skips (readmeOnly (utf8 (str "\n"))) stillMeter repoObserver
    firstRequest aMinute (observe (readmeOnly (utf8 (str "\n"))) stillMeter (fun _ ↦ .unknown)
      repoObserver bareSnapshot firstRequest aMinute) := by
  have hraised : (observe (readmeOnly (utf8 (str "\n"))) stillMeter (fun _ ↦ .unknown)
      repoObserver bareSnapshot firstRequest aMinute).1 = .error .valueError := by decide +kernel
  intro hskips
  rcases hskips.raises .valueError hraised with hbudget | ⟨-, root, hroot, hforeign⟩
  · exact stillMeter_raises hbudget
  · exact hforeign (Except.ok.inj hroot).symm

/-- One line is read, and returned: the call is orderly. -/
theorem oneLineReadme_orderly : Orderly (readmeOnly (utf8 (str "x\n"))) stillMeter
    (fun _ ↦ .unknown) repoObserver bareSnapshot firstRequest aMinute := by
  refine (observe_skips_iff _ _ _ _ _ _ _).mp ?_
  have hread : ((observe (readmeOnly (utf8 (str "x\n"))) stillMeter (fun _ ↦ .unknown) repoObserver
      bareSnapshot firstRequest aMinute).1.toOption.map fun observations ↦
        observations.map fun o ↦ (o.path, o.snapshotId)) =
      some [(str "README.md", firstRequest.snapshot.snapshotId)] := by decide +kernel
  have hunspent : (observe (readmeOnly (utf8 (str "x\n"))) stillMeter (fun _ ↦ .unknown)
      repoObserver bareSnapshot firstRequest aMinute).2.unspent = aMinute.unspent := by
    decide +kernel
  cases hr : (observe (readmeOnly (utf8 (str "x\n"))) stillMeter (fun _ ↦ .unknown) repoObserver
      bareSnapshot firstRequest aMinute).1 with
  | error e =>
    rw [hr] at hread
    cases hread
  | ok observations =>
    rw [hr] at hread
    obtain ⟨o, rfl, ho⟩ := List.map_eq_singleton_iff.mp (Option.some.inj hread)
    refine ⟨fun e he ↦ ?_, fun r h ↦ ?_, fun r h ↦ ?_, fun r h ↦ ?_, hunspent⟩
    · cases hr.symm.trans he
    all_goals obtain rfl := Except.ok.inj (hr.symm.trans h)
    · exact (by decide : 1 ≤ 8)
    · exact List.nodup_singleton _
    · intro o' ho'
      rw [List.mem_singleton.mp ho']
      exact congrArg Prod.snd ho

end AtlasCore
