import AtlasCore.Telemetry.Metrics

/-!
# Nothing outside the vocabularies

What a payload holds beyond the closed vocabularies does not reach the metrics: two histories that
differ in such texts only, and under keys that `run_metrics` does not name, have the same metrics
(`runMetrics_alike`).  Of a run id that a host chose, the metrics know a part of its digest.
-/

set_option autoImplicit false

namespace AtlasCore

open Py

namespace Telemetry

open Inspect (payloadGet isKind)

/-- The closed vocabularies: every word that a metric can take over from a log. -/
def VOCABULARY : List Str :=
  [CallKind.observe, .modelCall, .toolCall, .memoryRead, .memoryWrite].map (·.text) ++
  [CallOutcome.ok, .denied, .failed].map (·.text) ++
  [Verdict.verified, .contradicted, .insufficientEvidence].map verdictText ++
  APPROVAL_DECISIONS ++ HostApi.STOP_REASONS.map (·.text) ++
  [StopClass.evaluation, .runtime, .control].map (·.text)

/-- The keys under which `run_metrics` reads a payload, or a dict inside one. -/
def NAMED : List Str :=
  [str "call_kind", str "outcome", str "citation_verdicts", str "decision", str "verified",
    str "rolled_back", str "usage", str "stop_reason", str "stop_class"] ++ USAGE_KEYS ++
  [Verdict.verified, .contradicted, .insufficientEvidence].map verdictText

/-- The two values are equal except for texts outside the vocabularies, and for what is under keys
that are not named. -/
inductive Alike : Json → Json → Prop
  | refl (v : Json) : Alike v v
  | str {s t : Str} (hs : s ∉ VOCABULARY) (ht : t ∉ VOCABULARY) : Alike (.str s) (.str t)
  | arr {xs ys : List Json} (hlength : xs.length = ys.length)
      (hitems : ∀ (i : ℕ) v w, xs[i]? = some v → ys[i]? = some w → Alike v w) :
      Alike (.arr xs) (.arr ys)
  | obj {xs ys : Fields}
      (hkeys : ∀ key ∈ NAMED, Json.lookup key xs = none ↔ Json.lookup key ys = none)
      (hvalues : ∀ key ∈ NAMED, ∀ v w, Json.lookup key xs = some v → Json.lookup key ys = some w →
        Alike v w) : Alike (.obj xs) (.obj ys)

/-- The two records have alike payloads, and the same under every other key but that of the run. -/
structure AlikeRecord (a b : Fields) : Prop where
  others : ∀ key, key ≠ Py.str "payload" → key ≠ Py.str "run_id" →
    Json.lookup key a = Json.lookup key b
  payloads : Alike (payload a) (payload b)

/-- The run id is not in the form in which run ids are issued. -/
def Chosen (rt : Runtime) (id : Json) : Prop := id ≠ .null ∧ isIssued (strValue rt id) = false

/-- Sixteen digits of the digest of a run id. -/
def idDigest (rt : Runtime) (id : Json) : Option Str :=
  (sha256Text (strValue rt id)).map fun d ↦ d.take 16

/-- The two run ids are one, or chosen ones of which the digests start alike. -/
def AlikeId (rt : Runtime) (v w : Json) : Prop :=
  v = w ∨ Chosen rt v ∧ Chosen rt w ∧ idDigest rt v = idDigest rt w

/-- No dict of the record has a key twice. -/
def IsDict (record : Fields) : Prop := Json.WF (.obj record)

/-! ## What is read of a payload

A metric reads a payload through vocabularies, which do not tell alike values apart. -/

section

variable {a b : Fields} {x y : Json}

theorem find?_eq_none {α : Type} {text : α → Str} {known : List α} {s : Str}
    (hs : s ∉ known.map text) : (known.find? fun k ↦ text k = s) = none := by
  rw [List.find?_eq_none]
  intro k hk htext
  exact hs (List.mem_map.mpr ⟨k, hk, by simpa using htext⟩)

/-- A vocabulary whose words are among the closed ones. -/
def Closed {α : Type} (named : Str → Option α) : Prop := ∀ s ∉ VOCABULARY, named s = none

theorem closed_callKind : Closed callKind := fun s hs ↦ find?_eq_none fun h ↦ hs (by
  simp only [VOCABULARY, List.mem_append]
  tauto)

theorem closed_outcome : Closed CallOutcome.ofText := fun s hs ↦ find?_eq_none fun h ↦ hs (by
  simp only [VOCABULARY, List.mem_append]
  tauto)

theorem closed_decision : Closed decision := fun s hs ↦ by
  refine @find?_eq_none Str id _ s fun h ↦ hs ?_
  rw [List.map_id] at h
  simp only [VOCABULARY, List.mem_append]
  tauto

theorem closed_stopReason : Closed stopReason := fun s hs ↦ find?_eq_none fun h ↦ hs (by
  simp only [VOCABULARY, List.mem_append]
  tauto)

theorem closed_stopClass : Closed stopClass := fun s hs ↦ find?_eq_none fun h ↦ hs (by
  simp only [VOCABULARY, List.mem_append]
  tauto)

/-- A vocabulary does not tell alike values apart. -/
theorem enum_alike {α : Type} {named : Str → Option α} (hnamed : Closed named) (h : Alike x y) :
    enum named x = enum named y := by
  cases h with
  | refl => rfl
  | str hs ht => rw [enum, enum, hnamed _ hs, hnamed _ ht]
  | arr => rfl
  | obj => rfl

theorem count_alike (h : Alike x y) : count x = count y := by
  cases h <;> rfl

theorem isTrue_alike (h : Alike x y) : isTrue x = isTrue y := by
  cases h <;> rfl

/-- Under a key that is named there is something alike. -/
theorem lookup_alike {xs ys : Fields} (h : Alike (.obj xs) (.obj ys)) {key : Str}
    (hkey : key ∈ NAMED) :
    Alike ((Json.lookup key xs).getD .null) ((Json.lookup key ys).getD .null) := by
  cases h with
  | refl => exact .refl _
  | obj hkeys hvalues =>
    cases hx : Json.lookup key xs with
    | none =>
      rw [(hkeys key hkey).mp hx]
      exact .refl _
    | some v =>
      cases hy : Json.lookup key ys with
      | none => exact absurd ((hkeys key hkey).mpr hy) (by simp [hx])
      | some w => exact hvalues key hkey v w hx hy

theorem usageOf_alike (h : Alike x y) : usageOf x = usageOf y := by
  cases x with
  | obj xs =>
    cases y with
    | obj ys =>
      rw [usageOf, usageOf]
      refine congrArg some (List.map_congr_left fun key hkey ↦ ?_)
      have hnamed : key ∈ NAMED := by
        rw [NAMED, List.mem_append, List.mem_append]
        exact .inl (.inr hkey)
      rw [count_alike (lookup_alike h hnamed)]
    | _ => cases h
  | _ => cases h <;> rfl

/-- Reading alike payloads under a named key raises for both, or gives alike values. -/
theorem get_alike (h : Alike x y) {key : String} (hkey : str key ∈ NAMED) :
    (get x key = .error Inspect.attributeError ∧ get y key = .error Inspect.attributeError) ∨
      ∃ v w, get x key = .ok v ∧ get y key = .ok w ∧ Alike v w := by
  cases x with
  | obj xs =>
    cases y with
    | obj ys => exact .inr ⟨_, _, rfl, rfl, lookup_alike h hkey⟩
    | _ => cases h
  | _ =>
    left
    cases h <;> exact ⟨rfl, rfl⟩

/-! ## One record

Two records that are alike are counted alike. -/

variable {rt : Runtime}

theorem AlikeRecord.getOrNull_eq (h : AlikeRecord a b) {key : String}
    (hkey : str key ≠ str "payload" ∧ str key ≠ str "run_id") :
    getOrNull a key = getOrNull b key := by
  rw [getOrNull, getOrNull, h.others _ hkey.1 hkey.2]

theorem AlikeRecord.isKind_eq (h : AlikeRecord a b) (kind : EventKind) :
    isKind kind a = isKind kind b := by
  rw [isKind, isKind, h.getOrNull_eq (by decide)]

/-- What goes on from a value read of a payload goes on alike. -/
theorem bind_get_alike {α : Type} (h : Alike x y) {key : String} (hkey : str key ∈ NAMED)
    {f g : Json → Except Exc α} (hfg : ∀ v w, Alike v w → f v = g w) :
    (get x key >>= f) = get y key >>= g := by
  obtain ⟨ha, hb⟩ | ⟨v, w, ha, hb, hvw⟩ := get_alike h hkey
  · rw [ha, hb]
    rfl
  · rw [ha, hb]
    exact hfg v w hvw

theorem countCall_alike (h : AlikeRecord a b) (fold : CallFold) :
    countCall rt fold a = countCall rt fold b := by
  rw [countCall, countCall, h.isKind_eq, h.isKind_eq, h.getOrNull_eq (by decide)]
  split_ifs
  · refine bind_get_alike h.payloads (by decide) fun v w hvw ↦ ?_
    rw [enum_alike closed_callKind hvw]
  · refine bind_get_alike h.payloads (by decide) fun v w hvw ↦ ?_
    rw [enum_alike closed_outcome hvw]
  · rfl

theorem countApproval_alike (h : AlikeRecord a b) (fold : List (Str × ℕ) × Writes) :
    countApproval fold a = countApproval fold b := by
  rw [countApproval, countApproval, h.isKind_eq, h.isKind_eq]
  split_ifs
  · refine bind_get_alike h.payloads (by decide) fun v w hvw ↦ ?_
    rw [enum_alike closed_decision hvw]
  · refine bind_get_alike h.payloads (by decide) fun v w hvw ↦ ?_
    refine bind_get_alike h.payloads (by decide) fun v' w' hvw' ↦ ?_
    rw [isTrue_alike hvw, isTrue_alike hvw']
  · rfl

/-- The text of a verdict names it, and no other text does. -/
theorem verdict_eq_some {s : Str} {v : Verdict} : verdict s = some v ↔ s = verdictText v := by
  constructor
  · intro h
    have hv := List.find?_some h
    exact (by simpa using hv : verdictText v = s).symm
  · rintro rfl
    cases v <;> decide

/-- **A dict of verdicts counts what is under their names**, in whatever order it is gone
through. -/
theorem foldl_countVerdict {counted : Fields} (hkeys : (counted.map Prod.fst).Nodup)
    (counter : Verdict → ℕ) (v : Verdict) : counted.foldl countVerdict counter v =
      counter v + (count ((Json.lookup (verdictText v) counted).getD .null)).getD 0 := by
  induction counted generalizing counter with
  | nil => rfl
  | cons p rest ih =>
    obtain ⟨key, value⟩ := p
    rw [List.map_cons, List.nodup_cons] at hkeys
    rw [List.foldl_cons, ih hkeys.2, Json.lookup]
    by_cases hkey : key = verdictText v
    · have hrest : Json.lookup (verdictText v) rest = none := by
        cases hl : Json.lookup (verdictText v) rest with
        | none => rfl
        | some w =>
          exact absurd (List.mem_map.mpr ⟨_, Json.mem_of_lookup hl, hkey.symm⟩) hkeys.1
      have hv : verdict key = some v := verdict_eq_some.mpr hkey
      rw [if_pos hkey, hrest]
      have hnull : count .null = none := rfl
      cases hn : count value <;> simp [countVerdict, hv, hn, hnull]
    · have hsame : countVerdict counter (key, value) v = counter v := by
        cases hw : verdict key with
        | none => simp [countVerdict, hw]
        | some w =>
          have hne : v ≠ w := fun hvw ↦ hkey (hvw ▸ verdict_eq_some.mp hw)
          cases hn : count value <;> simp [countVerdict, hw, hn, hne]
      rw [if_neg hkey, hsame]

/-- A dict in a dict has no key twice. -/
theorem isDict_inner {counted : Fields} (ha : IsDict a) {key : String}
    (h : get (payload a) key = .ok (.obj counted)) : (counted.map Prod.fst).Nodup := by
  have hpayload : (payload a).WF := by
    rw [payload]
    cases hp : Json.lookup (Py.str "payload") a with
    | none => exact ⟨List.nodup_nil, trivial⟩
    | some p => exact (Json.WFFields_iff _).mp ha.2 _ (Json.mem_of_lookup hp)
  cases hp : payload a with
  | obj fields =>
    rw [hp] at h hpayload
    have hget : (Json.lookup (str key) fields).getD .null = .obj counted := Except.ok.inj h
    cases hl : Json.lookup (str key) fields with
    | none => simp [hl] at hget
    | some v =>
      rw [hl] at hget
      have hv := (Json.WFFields_iff _).mp hpayload.2 _ (Json.mem_of_lookup hl)
      rw [show v = .obj counted from hget] at hv
      exact hv.1
  | _ => cases hp ▸ h

theorem countVerdicts_alike (h : AlikeRecord a b) (ha : IsDict a) (hb : IsDict b)
    (counter : Verdict → ℕ) : countVerdicts counter a = countVerdicts counter b := by
  rw [countVerdicts, countVerdicts, h.isKind_eq]
  split_ifs
  · obtain ⟨hx, hy⟩ | ⟨v, w, hx, hy, hvw⟩ :=
      get_alike h.payloads (show str "citation_verdicts" ∈ NAMED by decide)
    · rw [hx, hy]
    · rw [hx, hy]
      cases v with
      | obj xs =>
        cases w with
        | obj ys =>
          refine congrArg Except.ok (funext fun verdict ↦ ?_)
          rw [foldl_countVerdict (isDict_inner ha hx), foldl_countVerdict (isDict_inner hb hy)]
          have hnamed : verdictText verdict ∈ NAMED := by cases verdict <;> decide
          rw [count_alike (lookup_alike hvw hnamed)]
        | _ => cases hvw
      | _ => cases hvw <;> rfl
  · rfl

/-! ## Two runs

Two logs that differ only in what the metrics do not let through. -/

/-- A loop does the same on alike records if its body does. -/
theorem foldlM_alike {β : Type} {f : β → Fields → Except Exc β} {xs ys : List Fields}
    {R : Fields → Fields → Prop} (h : List.Forall₂ R xs ys)
    (hf : ∀ acc a b, R a b → f acc a = f acc b) (acc : β) : xs.foldlM f acc = ys.foldlM f acc := by
  induction h generalizing acc with
  | nil => rfl
  | cons hab _ ih =>
    rw [List.foldlM_cons, List.foldlM_cons, hf acc _ _ hab]
    exact bind_congr fun acc' ↦ ih acc'

/-- What `run_metrics` reads of the records besides the loops and the run id. -/
structure AlikeRest (xs ys : List Fields) : Prop where
  isRun : xs.any (isKind .runStarted) = ys.any (isKind .runStarted)
  stops : Option.Rel AlikeRecord (xs.find? (isKind .runStopped)) (ys.find? (isKind .runStopped))
  first : Option.Rel AlikeRecord xs.head? ys.head?
  iterations : iterations xs = iterations ys
  length : xs.length = ys.length

theorem alikeRest {xs ys : List Fields} (h : List.Forall₂ AlikeRecord xs ys) :
    AlikeRest xs ys where
  isRun := by
    induction h with
    | nil => rfl
    | cons hab _ ih => rw [List.any_cons, List.any_cons, ih, hab.isKind_eq]
  stops := by
    induction h with
    | nil => exact .none
    | @cons a b _ _ hab _ ih =>
      rw [List.find?_cons, List.find?_cons, hab.isKind_eq]
      cases isKind .runStopped b with
      | true => exact .some hab
      | false => exact ih
  first := by
    cases h with
    | nil => exact .none
    | cons hab _ => exact .some hab
  iterations := by
    induction h with
    | nil => rfl
    | cons hab _ ih =>
      simp only [Telemetry.iterations] at ih ⊢
      rw [List.filterMap_cons, List.filterMap_cons, ih, hab.getOrNull_eq (by decide)]
  length := h.length_eq

theorem isSome_of_rel {stop stop' : Option Fields} (h : Option.Rel AlikeRecord stop stop') :
    stop.isSome = stop'.isSome := by
  cases h <;> rfl

/-- The payload of the stop. -/
theorem stop_alike {stop stop' : Option Fields} (h : Option.Rel AlikeRecord stop stop') :
    Alike (stopPayload stop) (stopPayload stop') := by
  cases h with
  | none => exact .refl _
  | some hab => exact hab.payloads

theorem latency_alike {xs ys : List Fields} {stop stop' : Option Fields}
    (hfirst : Option.Rel AlikeRecord xs.head? ys.head?) (hstop : Option.Rel AlikeRecord stop stop')
    (seconds : Str → Str → Option Py.Float) :
    latency rt seconds xs stop = latency rt seconds ys stop' := by
  cases xs with
  | nil =>
    cases ys with
    | nil => rfl
    | cons b ys => cases hfirst
  | cons a xs =>
    cases ys with
    | nil => cases hfirst
    | cons b ys =>
      cases hfirst with
      | some hab =>
        cases hstop with
        | none => rfl
        | some hstop =>
          rw [latency, latency, hab.getOrNull_eq (by decide), hstop.getOrNull_eq (by decide)]

/-- Of a chosen run id the digest is shown. -/
theorem runId_chosen {id : Json} (h : Chosen rt id) : runId rt id =
    match idDigest rt id with
    | some d => .ok (some (str "sha256:" ++ d))
    | none => .error .unicodeEncodeError := by
  have hid : runId rt id =
      match sha256Text (strValue rt id) with
      | some d => .ok (some (str "sha256:" ++ d.take 16))
      | none => .error .unicodeEncodeError := by
    cases id with
    | null => exact absurd rfl h.1
    | _ =>
      rw [runId, h.2]
      · rfl
      · nofun
  rw [hid, idDigest]
  cases sha256Text (strValue rt id) <;> rfl

theorem runId_alike {v w : Json} (h : AlikeId rt v w) : runId rt v = runId rt w := by
  obtain rfl | ⟨hv, hw, hdigest⟩ := h
  · rfl
  · rw [runId_chosen hv, runId_chosen hw, hdigest]

/-- **Metrics reveal nothing outside the vocabularies.**  Of two histories that differ only in texts
outside the closed vocabularies, under keys that `run_metrics` does not name, and in run ids that a
host chose and whose digests start alike, the metrics are the same. -/
theorem runMetrics_alike (seconds : Str → Str → Option Py.Float) (ratio : ℕ → ℕ → Py.Float)
    {xs ys : List Fields} (h : List.Forall₂ AlikeRecord xs ys) (hx : ∀ r ∈ xs, IsDict r)
    (hy : ∀ r ∈ ys, IsDict r)
    (hid : ∀ a ∈ xs.head?, ∀ b ∈ ys.head?,
      AlikeId rt (getOrNull a "run_id") (getOrNull b "run_id")) :
    runMetrics rt seconds ratio xs = runMetrics rt seconds ratio ys := by
  have hrest := alikeRest h
  have hdicts : List.Forall₂ (fun a b ↦ AlikeRecord a b ∧ IsDict a ∧ IsDict b) xs ys := by
    clear hid hrest
    induction h with
    | nil => exact .nil
    | cons hab _ ih =>
      exact .cons ⟨hab, hx _ List.mem_cons_self, hy _ List.mem_cons_self⟩
        (ih (fun r hr ↦ hx r (List.mem_cons_of_mem _ hr)) fun r hr ↦
          hy r (List.mem_cons_of_mem _ hr))
  have hshown : firstId rt xs = firstId rt ys := by
    cases h with
    | nil => rfl
    | cons hab _ => exact runId_alike (hid _ rfl _ rfl)
  have hlatency : latency rt seconds xs _ = latency rt seconds ys _ :=
    latency_alike hrest.first hrest.stops seconds
  have hfinished := isSome_of_rel hrest.stops
  have hstop := stop_alike hrest.stops
  simp only [runMetrics, hshown, hrest.isRun, hrest.iterations, hrest.length, hlatency, hfinished,
    foldlM_alike h fun acc a b hab ↦ countCall_alike hab acc,
    foldlM_alike hdicts fun acc a b hab ↦ countVerdicts_alike hab.1 hab.2.1 hab.2.2 acc,
    foldlM_alike h fun acc a b hab ↦ countApproval_alike hab acc]
  refine bind_congr fun calls ↦ bind_congr fun verdicts ↦ bind_congr fun approvals ↦ ?_
  refine bind_get_alike hstop (by decide) fun usage usage' husage ↦ bind_congr fun id ↦ ?_
  refine bind_get_alike hstop (by decide) fun reason reason' hreason ↦ ?_
  refine bind_get_alike hstop (by decide) fun cls cls' hcls ↦ ?_
  rw [usageOf_alike husage, enum_alike closed_stopReason hreason, enum_alike closed_stopClass hcls]

/-- Two dicts that differ under one key. -/
theorem alike_cons {key : Str} {v w : Json} {fields : Fields} (h : key ∈ NAMED → Alike v w) :
    Alike (.obj ((key, v) :: fields)) (.obj ((key, w) :: fields)) := by
  refine .obj (fun k _ ↦ ?_) fun k hk p q hp hq ↦ ?_
  · rw [Json.lookup, Json.lookup]
    split_ifs
    · exact iff_of_false (fun h ↦ by cases h) fun h ↦ by cases h
    · exact Iff.rfl
  · rw [Json.lookup] at hp hq
    split_ifs at hp hq with hkey
    · rw [← Option.some.inj hp, ← Option.some.inj hq]
      exact h (hkey ▸ hk)
    · rw [Option.some.inj (hp.symm.trans hq)]
      exact .refl q

/-- A record of a run with a chosen name. -/
def namedRecord (kind : EventKind) (payload : Json) : Fields :=
  [(str "run_id", .str (str "release")), (str "kind", .str kind.text), (str "iteration", .int 0),
    (str "payload", payload)]

theorem alike_namedRecord {kind : EventKind} {p q : Json} (h : Alike p q) :
    AlikeRecord (namedRecord kind p) (namedRecord kind q) where
  others key hkey _ := by simp [namedRecord, Json.lookup, Ne.symm hkey]
  payloads := h

theorem getOrNull_namedRecord {kind : EventKind} {p : Json} :
    getOrNull (namedRecord kind p) "run_id" = .str (str "release") := by
  rw [getOrNull, namedRecord, Json.lookup, if_pos rfl, Option.getD_some]

/-- A log that has a task in it, and the task as its stop reason. -/
def namedLog (task : Str) : List Fields :=
  [namedRecord .runStarted (.obj [(str "task_sha256", .str task)]),
    namedRecord .runStopped (.obj [(str "stop_reason", .str task)])]

/-- What the task is does not show. -/
theorem runMetrics_alike_namedLog :
    runMetrics asciiRuntime (fun _ _ ↦ none) (fun _ _ ↦ .nan) (namedLog (str "fix the parser")) =
      runMetrics asciiRuntime (fun _ _ ↦ none) (fun _ _ ↦ .nan)
        (namedLog (str "rotate the key")) := by
  have htask : Alike (.str (str "fix the parser")) (.str (str "rotate the key")) :=
    .str (by decide) (by decide)
  have hdict : ∀ task, ∀ r ∈ namedLog task, IsDict r := by
    intro task r hr
    simp only [namedLog, List.mem_cons, List.not_mem_nil, or_false] at hr
    rcases hr with rfl | rfl <;> exact ⟨by simp [namedRecord]; decide, by
      simp [namedRecord, Json.WFFields, Json.WF]⟩
  refine runMetrics_alike _ _ (.cons ?_ (.cons ?_ .nil)) (hdict _) (hdict _) ?_
  · exact alike_namedRecord (alike_cons fun _ ↦ htask)
  · exact alike_namedRecord (alike_cons fun _ ↦ htask)
  · intro a ha b hb
    rw [← Option.some.inj ha, ← Option.some.inj hb, getOrNull_namedRecord, getOrNull_namedRecord]
    exact .inl rfl

end

end Telemetry

end AtlasCore
