import AtlasCore.Controller.Round
import AtlasCore.EventLog.Written
import AtlasCore.Evidence.Merging

/-!
# The material of a round, from the log

A resumed run compares each round with what the log has recorded for it.  The two sides are built by
two functions from two lists of fields, and between them a payload was masked, written as JSON and
read again.  They agree (`loggedRoundMaterial_payload`): an id is verbatim, a digest has nothing in
it to mask, and a line number is no text.
-/

set_option autoImplicit false

namespace AtlasCore

open Py

/-! ## A payload that is read back

Masking, writing and reading leave ids, digests and numbers as they are; of the rest nothing is
asked. -/

/-- What is read of fields that were masked and written. -/
def readBack (mask : Masking) (fields : Fields) : Fields :=
  Json.sortFields (Json.canonFields (redactFields mask fields))

section
variable {mask : Masking} {rt : Runtime} {fields : Fields} (key : String)

theorem loads_readBack {s : Str} (hw : (Json.obj fields).WF)
    (hs : Json.dumps (.obj (redactFields mask fields)) = some s) :
    Json.loads (s ++ [lf]) = some (.obj (readBack mask fields)) := by
  have hmasked : (redactDocument mask (.obj fields)).WF := wf_redactDocument hw
  rw [redactDocument] at hmasked
  rw [Json.loads_dumps hmasked hs, Json.canon, readBack]

theorem lookup_readBack {k : Str} : Json.lookup k (readBack mask fields) =
    (Json.lookup k fields).map fun v ↦
      (if k ∈ VERBATIM_KEYS then v else redactDocument mask v).canon := by
  rw [readBack, Inspect.lookup_canon, Inspect.lookup_redactFields, Option.map_map]
  rfl

theorem redactItems_eq_map (items : List Json) :
    redactItems mask items = items.map (redactDocument mask) := by
  induction items with
  | nil => rfl
  | cons v rest ih => rw [redactItems, List.map_cons, ih]

theorem redactDocument_int {z : ℤ} : redactDocument mask (.int z) = .int z := by
  rw [redactDocument] <;> intro _ h <;> cases h

theorem mapM_of_left_inverse {α β : Type} {f : β → Except Exc α} {g : α → β}
    (h : ∀ x, f (g x) = .ok x) : ∀ xs : List α, (xs.map g).mapM f = .ok xs
  | [] => rfl
  | x :: xs => by
    rw [List.map_cons, List.mapM_cons, h, mapM_of_left_inverse h xs]
    rfl

/-- A list of dicts is read back item by item. -/
theorem payloadItems_readBack {α : Type} {xs : List α} {f : α → Fields}
    (h : Json.lookup (str key) fields = some (.arr (xs.map fun x ↦ .obj (f x))))
    (hkey : str key ∉ VERBATIM_KEYS) :
    payloadItems (readBack mask fields) key = .ok (xs.map fun x ↦ readBack mask (f x)) := by
  have hitems : Json.lookup (str key) (readBack mask fields) =
      some (.arr ((xs.map fun x ↦ readBack mask (f x)).map .obj)) := by
    rw [lookup_readBack, h, Option.map_some, if_neg hkey, redactDocument, Json.canon,
      Json.canonItems_eq_map, redactItems_eq_map, List.map_map, List.map_map, List.map_map]
    refine congrArg (fun xs ↦ some (Json.arr xs)) (List.map_congr_left fun x _ ↦ ?_)
    rw [Function.comp_apply, Function.comp_apply, redactDocument, Json.canon]
    rfl
  rw [payloadItems, hitems]
  exact mapM_of_left_inverse (g := Json.obj) (fun _ ↦ rfl) _

theorem itemText_verbatim {s : Str} (h : Json.lookup (str key) fields = some (.str s))
    (hkey : str key ∈ VERBATIM_KEYS) : itemText rt (readBack mask fields) key = s := by
  rw [itemText, getOrNull, lookup_readBack, h, Option.map_some, if_pos hkey, Json.canon]
  rfl

theorem itemText_plain {s : Str} (h : Json.lookup (str key) fields = some (.str s))
    (hs : mask.text s = s) : itemText rt (readBack mask fields) key = s := by
  rw [itemText, getOrNull, lookup_readBack, h, Option.map_some, redactDocument, hs, ite_self,
    Json.canon]
  rfl

theorem itemText_int {z : ℤ} (h : Json.lookup (str key) fields = some (.int z)) :
    itemText rt (readBack mask fields) key = decimalInt z := by
  rw [itemText, getOrNull, lookup_readBack, h, Option.map_some, redactDocument_int, ite_self,
    Json.canon]
  rfl

end

/-! ## Digests

A digest is hexadecimal, so no masking changes it and no escape is needed for it. -/

/-- A digest, or the word for one that is not known. -/
def IsDigest (s : Str) : Prop := s = UNKNOWN ∨ matchesSha256 s = true

theorem IsDigest.chars {s : Str} (h : IsDigest s) : s = UNKNOWN ∨ ∀ c ∈ s, isHex c = true ∨
    c = lf := by
  refine h.imp_right fun hmatch c hc ↦ ?_
  rw [matchesSha256, Bool.and_eq_true] at hmatch
  have hhex := List.all_eq_true.mp hmatch.2
  split_ifs at hhex with hlast
  · have hs : s.dropLast ++ [lf] = s := List.dropLast_append_getLast? lf hlast
    rw [← hs] at hc
    exact (List.mem_append.mp hc).imp (hhex c) List.mem_singleton.mp
  · exact .inl (hhex c hc)

theorem IsDigest.masked {mask : Masking} {s : Str} (h : IsDigest s) : mask.text s = s := by
  rcases h.chars with rfl | hchars
  · exact mask.text_unknown
  · exact mask.text_hex s hchars

theorem Observation.isDigest (o : Observation) : IsDigest o.contentSha256 := o.digest_ok

/-- The digests of a round are digests: 64 hexadecimal digits, which no masking touches. -/
structure Digested (round : ObservationRound) : Prop where
  superseded : ∀ s ∈ round.superseded, IsDigest s.newSha256
  reframed : ∀ f ∈ round.reframed, IsDigest f.sha256

theorem newSha256_of_superseded {existing : List Observation} {item : Observation}
    {s : Supersession}
    (h : arrival existing item = .superseded s) : s.newSha256 = item.contentSha256 := by
  rw [arrival] at h
  split at h
  · cases h
  · split_ifs at h
    cases h
    rfl

theorem sha256_of_reframed {existing : List Observation} {item : Observation} {f : Reframing}
    (h : arrival existing item = .reframed f) : f.sha256 = item.contentSha256 := by
  rw [arrival] at h
  split at h
  · cases h
  · split_ifs at h
    cases h
    rfl

theorem digested_roundOf {existing items : List Observation} {n : ℕ} :
    Digested (roundOf n (items.map (arrival existing))) := by
  constructor
  · intro s hs
    obtain ⟨a, ha, hsome⟩ := List.mem_filterMap.mp hs
    obtain ⟨item, -, rfl⟩ := List.mem_map.mp ha
    cases harrival : arrival existing item with
    | superseded s' =>
      rw [harrival] at hsome
      obtain rfl := Option.some.inj hsome
      exact newSha256_of_superseded harrival ▸ item.isDigest
    | _ => simp [harrival] at hsome
  · intro f hf
    obtain ⟨a, ha, hsome⟩ := List.mem_filterMap.mp hf
    obtain ⟨item, -, rfl⟩ := List.mem_map.mp ha
    cases harrival : arrival existing item with
    | reframed f' =>
      rw [harrival] at hsome
      obtain rfl := Option.some.inj hsome
      exact sha256_of_reframed harrival ▸ item.isDigest
    | _ => simp [harrival] at hsome

/-- What the host makes of a base is a round of digests. -/
theorem digested_of_merge {base : EvidenceBase} {incoming : List (Option Observation)}
    {merged : List Observation} {round : ObservationRound}
    (h : mergeObservations base.snapshot base.observations incoming = .ok (merged, round)) :
    Digested round := by
  obtain ⟨items, rfl⟩ := round_eq_of_merge h
  exact digested_roundOf

/-! ## The round trip

One lemma for each list of a round: the entries that are read back name what was written. -/

section
variable {mask : Masking} {rt : Runtime}

theorem readBack_added (o : Observation) :
    (itemText rt (readBack mask o.recorded) "source_id",
      itemText rt (readBack mask o.recorded) "sha256") = (o.sourceId, o.contentSha256) := by
  rw [itemText_verbatim "source_id" rfl (by decide),
    itemText_plain "sha256" rfl o.isDigest.masked]

theorem readBack_superseded {s : Supersession} (h : IsDigest s.newSha256) :
    (itemText rt (readBack mask s.recorded) "source_id",
      itemText rt (readBack mask s.recorded) "new_sha256") = (s.sourceId, s.newSha256) := by
  rw [itemText_verbatim "source_id" rfl (by decide), itemText_plain "new_sha256" rfl h.masked]

theorem readBack_reframed {f : Reframing} (h : IsDigest f.sha256) :
    (itemText rt (readBack mask f.recorded) "source_id",
      windowText (itemText rt (readBack mask f.recorded) "sha256")
        (itemText rt (readBack mask f.recorded) "new_line_start")
        (itemText rt (readBack mask f.recorded) "new_line_end")) =
      (f.sourceId, windowText f.sha256 (decimalInt f.newLineStart) (decimalInt f.newLineEnd)) := by
  rw [itemText_verbatim "source_id" rfl (by decide), itemText_plain "sha256" rfl h.masked,
    itemText_int "new_line_start" rfl, itemText_int "new_line_end" rfl]

/-- What the log has for a round is its material. -/
theorem loggedRoundMaterial_payload {r : RoundRecord} (h : Digested r.round) :
    loggedRoundMaterial rt (readBack mask r.payload) = .ok r.round.material := by
  rw [loggedRoundMaterial, payloadItems_readBack "added" rfl (by decide),
    payloadItems_readBack "superseded" rfl (by decide),
    payloadItems_readBack "reframed" rfl (by decide)]
  refine congrArg Except.ok ?_
  simp only [ObservationRound.material, List.map_map]
  refine congrArg₂ (· ∪ ·) (congrArg₂ (· ∪ ·) ?_ ?_) ?_
  · exact congrArg List.toFinset (List.map_congr_left fun o _ ↦ readBack_added o)
  · exact congrArg List.toFinset
      (List.map_congr_left fun s hs ↦ readBack_superseded (h.superseded s hs))
  · exact congrArg List.toFinset
      (List.map_congr_left fun f hf ↦ readBack_reframed (h.reframed f hf))

end

/-! ## The payload is a document

The keys of every dict in the payload are distinct, which writing and reading it back asks for. -/

theorem wf_arr_map {α : Type} {xs : List α} {f : α → Json} (h : ∀ x, (f x).WF) :
    (Json.arr (xs.map f)).WF := by
  refine (Json.WFItems_iff _).mpr fun v hv ↦ ?_
  obtain ⟨x, -, rfl⟩ := List.mem_map.mp hv
  exact h x

/-- A dict with these keys, each of them once. -/
theorem wf_obj {fields : Fields} (keys : List String) (hkeys : fields.map Prod.fst = keys.map str)
    (hn : (keys.map str).Nodup) (hf : Json.WFFields fields) : (Json.obj fields).WF :=
  ⟨hkeys ▸ hn, hf⟩

theorem wf_toDict (w : LineWindow) : (Json.obj w.toDict).WF := by
  rw [LineWindow.toDict]
  cases w.anchorPrefix with
  | none =>
    exact wf_obj ["path", "line_start", "max_lines"] rfl (by decide)
      ⟨trivial, trivial, trivial, trivial⟩
  | some anchor =>
    exact wf_obj ["path", "line_start", "max_lines", "anchor_prefix"] rfl (by decide)
      ⟨trivial, trivial, trivial, trivial, trivial⟩

theorem wf_recorded_added (o : Observation) : (Json.obj o.recorded).WF :=
  wf_obj ["source_id", "path", "sha256"] rfl (by decide) ⟨trivial, trivial, trivial, trivial⟩

theorem wf_recorded_superseded (s : Supersession) : (Json.obj s.recorded).WF :=
  wf_obj ["source_id", "path", "previous_sha256", "new_sha256"] rfl (by decide)
    ⟨trivial, trivial, trivial, trivial, trivial⟩

theorem wf_recorded_reframed (f : Reframing) : (Json.obj f.recorded).WF :=
  wf_obj ["source_id", "path", "sha256", "previous_line_start", "previous_line_end",
    "new_line_start", "new_line_end"] rfl (by decide)
    ⟨trivial, trivial, trivial, trivial, trivial, trivial, trivial, trivial⟩

theorem wf_payload (r : RoundRecord) : (Json.obj r.payload).WF :=
  wf_obj ["patterns", "requested", "added", "superseded", "reframed", "line_windows", "unchanged",
    "has_new_material"] rfl (by decide)
    ⟨wf_arr_map fun _ ↦ trivial, trivial, wf_arr_map wf_recorded_added,
      wf_arr_map wf_recorded_superseded, wf_arr_map wf_recorded_reframed, wf_arr_map wf_toDict,
      wf_arr_map fun _ ↦ trivial, trivial, trivial⟩

/-! ## What material tells apart

What two rounds have to have in common to compare equal.  Of what was added and what was
superseded only the bytes count, and of what was reframed the window counts too. -/

/-- The sources that were adopted with their bytes. -/
def ObservationRound.adopted (r : ObservationRound) : Finset (Str × Str) :=
  (r.added.map fun o ↦ (o.sourceId, o.contentSha256)).toFinset ∪
    (r.superseded.map fun s ↦ (s.sourceId, s.newSha256)).toFinset

/-- The windows that were adopted over the bytes there were. -/
def ObservationRound.windows (r : ObservationRound) : Finset (Str × Str × ℤ × ℤ) :=
  (r.reframed.map fun f ↦ (f.sourceId, f.sha256, f.newLineStart, f.newLineEnd)).toFinset

/-- Two kinds of items in one set, where no item is of both kinds. -/
theorem union_image_eq_iff {α β : Type*} [DecidableEq α] {A A' : Finset α} {B B' : Finset β}
    {f : β → α} {P : α → Prop} (hA : ∀ a ∈ A, P a) (hA' : ∀ a ∈ A', P a) (hB : ∀ b ∈ B, ¬ P (f b))
    (hB' : ∀ b ∈ B', ¬ P (f b)) (hf : ∀ b ∈ B, ∀ b' ∈ B', f b = f b' → b = b') :
    A ∪ B.image f = A' ∪ B'.image f ↔ A = A' ∧ B = B' := by
  constructor
  · intro h
    have hleft : ∀ {A A' : Finset α} {B B' : Finset β}, (∀ a ∈ A, P a) → (∀ b ∈ B', ¬ P (f b)) →
        A ∪ B.image f = A' ∪ B'.image f → A ⊆ A' := by
      intro A A' B B' hA hB' h a ha
      rcases Finset.mem_union.mp (h ▸ Finset.mem_union_left _ ha) with ha' | ha'
      · exact ha'
      · obtain ⟨b, hb, rfl⟩ := Finset.mem_image.mp ha'
        exact absurd (hA _ ha) (hB' b hb)
    have hright : ∀ {A A' : Finset α} {B B' : Finset β}, (∀ a ∈ A', P a) → (∀ b ∈ B, ¬ P (f b)) →
        A ∪ B.image f = A' ∪ B'.image f → ∀ b ∈ B, ∃ b' ∈ B', f b' = f b := by
      intro A A' B B' hA' hB h b hb
      have hmem := Finset.mem_union_right A (Finset.mem_image_of_mem f hb)
      rcases Finset.mem_union.mp (h ▸ hmem) with hmem | hmem
      · exact absurd (hA' _ hmem) (hB b hb)
      · exact Finset.mem_image.mp hmem
    refine ⟨(hleft hA hB' h).antisymm (hleft hA' hB h.symm), ?_⟩
    refine Finset.Subset.antisymm (fun b hb ↦ ?_) fun b' hb' ↦ ?_
    · obtain ⟨b', hb', heq⟩ := hright hA' hB h b hb
      rwa [hf b hb b' hb' heq.symm]
    · obtain ⟨b, hb, heq⟩ := hright hA hB' h.symm b' hb'
      rwa [← hf b hb b' hb' heq]
  · rintro ⟨rfl, rfl⟩
    rfl

theorem IsDigest.no_at {s : Str} (h : IsDigest s) : ch '@' ∉ s := by
  rcases h.chars with rfl | hchars
  · decide
  · intro hmem
    rcases hchars _ hmem with hc | hc
    · exact absurd hc (by decide)
    · exact absurd hc (by decide)

theorem windowText_eq (sha first last : Str) :
    windowText sha first last = sha ++ ch '@' :: (first ++ ch ':' :: last) := by
  have hat : str "@" = [ch '@'] := by decide
  have hcolon : str ":" = [ch ':'] := by decide
  rw [windowText, hat, hcolon]
  simp only [List.append_assoc, List.cons_append, List.nil_append]

/-- The text of a window gives back the digest and the lines. -/
theorem windowText_inj {sha sha' : Str} {a b a' b' : ℤ} (h : IsDigest sha)
    (heq : windowText sha (decimalInt a) (decimalInt b) =
      windowText sha' (decimalInt a') (decimalInt b')) : sha = sha' ∧ a = a' ∧ b = b' := by
  rw [windowText_eq, windowText_eq] at heq
  have hat : ∀ z, ch '@' ∉ decimalInt z := fun z ↦ not_mem_decimalInt (by decide) (by decide)
  have hcolon : ∀ z, ch ':' ∉ decimalInt z := fun z ↦ not_mem_decimalInt (by decide) (by decide)
  have hlines : ch '@' ∉ decimalInt a ++ ch ':' :: decimalInt b := by
    simp only [List.mem_append, List.mem_cons, not_or]
    exact ⟨hat a, by decide, hat b⟩
  obtain ⟨rfl, -, heq⟩ := (List.append_cons_inj_of_notMem h.no_at hlines).mp heq
  obtain ⟨hfirst, -, hlast⟩ := (List.append_cons_inj_of_notMem (hcolon a) (hcolon b)).mp heq
  exact ⟨rfl, decimalInt_injective hfirst, decimalInt_injective hlast⟩

/-- A window as the material has it: the id of its source, and the path with the first and the last
line. -/
def windowPair (w : Str × Str × ℤ × ℤ) : Str × Str :=
  (w.1, windowText w.2.1 (decimalInt w.2.2.1) (decimalInt w.2.2.2))

theorem material_eq (r : ObservationRound) :
    r.material = r.adopted ∪ r.windows.image windowPair := by
  rw [ObservationRound.material, ObservationRound.adopted, ObservationRound.windows]
  refine congrArg (_ ∪ ·) (Finset.ext fun p ↦ ?_)
  simp only [List.mem_toFinset, Finset.mem_image, List.mem_map, exists_exists_and_eq_and]
  rfl

theorem Digested.no_at {r : ObservationRound} (h : Digested r) : ∀ p ∈ r.adopted, ch '@' ∉ p.2 := by
  intro p hp
  rcases Finset.mem_union.mp hp with hp | hp
  · obtain ⟨o, -, rfl⟩ := List.mem_map.mp (List.mem_toFinset.mp hp)
    exact o.isDigest.no_at
  · obtain ⟨s, hs, rfl⟩ := List.mem_map.mp (List.mem_toFinset.mp hp)
    exact (h.superseded s hs).no_at

/-- Rounds have the same material when they adopted the same bytes and the same windows. -/
theorem material_eq_iff {r r' : ObservationRound} (h : Digested r) (h' : Digested r') :
    r.material = r'.material ↔ r.adopted = r'.adopted ∧ r.windows = r'.windows := by
  have hwindow : ∀ w : Str × Str × ℤ × ℤ, ¬ ch '@' ∉ (windowPair w).2 := fun w ↦ by
    rw [not_not, windowPair, windowText_eq]
    exact List.mem_append_right _ List.mem_cons_self
  rw [material_eq, material_eq]
  refine union_image_eq_iff h.no_at h'.no_at (fun w _ ↦ hwindow w) (fun w _ ↦ hwindow w) ?_
  rintro ⟨id, sha, a, b⟩ hw ⟨id', sha', a', b'⟩ - heq
  obtain ⟨f, hf, hfields⟩ := List.mem_map.mp (List.mem_toFinset.mp hw)
  obtain ⟨hid, htext⟩ := Prod.mk.inj heq
  have hfield : f.sha256 = sha := congrArg (fun w ↦ w.2.1) hfields
  have hsha : IsDigest sha := hfield ▸ h.reframed f hf
  obtain ⟨rfl, rfl, rfl⟩ := windowText_inj hsha htext
  obtain rfl := hid
  rfl

/-! ## The round trip, from the answer of the host on -/

/-- **What is logged about a round is what the round adopted.**  The payload of a round that was
merged is masked, written and read again, and what is then found in it is the material of the round;
so a resumed run takes another round for the same one when it adopted the same bytes and the same
windows, and only then. -/
theorem logged_is_adopted (rt : Runtime) (mask : Masking) {base : EvidenceBase}
    {incoming : List (Option Observation)} {merged : List Observation} {record : RoundRecord}
    {s : Str}
    (h : mergeObservations base.snapshot base.observations incoming = .ok (merged, record.round))
    (hs : Json.dumps (.obj (redactFields mask record.payload)) = some s) :
    ∃ fields, Json.loads (s ++ [lf]) = some (.obj fields) ∧
      loggedRoundMaterial rt fields = .ok record.round.material ∧
      ∀ (other : EvidenceBase) (answer : List (Option Observation)) (list : List Observation)
        (round : ObservationRound),
        mergeObservations other.snapshot other.observations answer = .ok (list, round) →
          (loggedRoundMaterial rt fields = .ok round.material ↔
            record.round.adopted = round.adopted ∧ record.round.windows = round.windows) := by
  have hlogged :
      loggedRoundMaterial rt (readBack mask record.payload) = .ok record.round.material :=
    loggedRoundMaterial_payload (digested_of_merge h)
  refine ⟨_, loads_readBack (wf_payload record) hs, hlogged, fun other answer list round hround ↦
    ?_⟩
  rw [hlogged, Except.ok.injEq]
  exact material_eq_iff (digested_of_merge h) (digested_of_merge hround)

/-- The round in which the second line of a file came back after the first. -/
def secondAfterFirst : RoundRecord where
  round := roundOf 1 (secondLine.observations.map (arrival firstLine.observations))
  iteration := 1
  patterns := [str "*.txt"]
  lineWindows := []

theorem merge_secondAfterFirst :
    mergeObservations firstLine.snapshot firstLine.observations (secondLine.observations.map some) =
      .ok (mergedList firstLine.observations secondLine.observations, secondAfterFirst.round) :=
  merge_of_isAnswer ⟨secondLine.sameSnapshot, secondLine.distinct⟩

theorem logged_is_adopted_second : ∃ s fields,
    Json.dumps (.obj (redactFields noMasking secondAfterFirst.payload)) = some s ∧
      Json.loads (s ++ [lf]) = some (.obj fields) ∧
        loggedRoundMaterial asciiRuntime fields = .ok secondAfterFirst.round.material := by
  have hwritten : (Json.dumps (.obj (redactFields noMasking secondAfterFirst.payload))).isSome =
    true := by
    decide +kernel
  obtain ⟨s, hs⟩ := Option.isSome_iff_exists.mp hwritten
  obtain ⟨fields, hread, hmaterial, -⟩ :=
    logged_is_adopted asciiRuntime noMasking merge_secondAfterFirst hs
  exact ⟨s, fields, hs, hread, hmaterial⟩

/-! ## Other lines of the same bytes

An entry of `added` or of `superseded` has an id, a path and digests in the payload, and no lines:
what a resumed run compares there is the bytes. -/

/-- A base that holds nothing, where the rounds that are compared start. -/
def noLines : EvidenceBase where
  snapshot := firstLine.snapshot
  observations := []
  readers := []
  sameSnapshot := by simp
  distinct := List.nodup_nil

/-- The round in which a run that held nothing got what a base holds. -/
def roundInto (e : EvidenceBase) : RoundRecord where
  round := roundOf e.observations.length (e.observations.map (arrival []))
  iteration := 1
  patterns := [str "*.txt"]
  lineWindows := []

theorem merge_roundInto {e : EvidenceBase} (h : e.snapshot = noLines.snapshot) :
    mergeObservations noLines.snapshot noLines.observations (e.observations.map some) =
      .ok (mergedList noLines.observations e.observations, (roundInto e).round) :=
  merge_of_isAnswer ⟨h ▸ e.sameSnapshot, e.distinct⟩

/-- One round added the first line of a file and the other added its second line.  The log of the
one compares equal with the other. -/
theorem otherLine_comparesEqual : ¬ ∀ (base other : EvidenceBase)
    (incoming answer : List (Option Observation)) (merged list : List Observation)
    (record : RoundRecord) (round : ObservationRound) (s : Str) (fields : Fields),
    mergeObservations base.snapshot base.observations incoming = .ok (merged, record.round) →
    mergeObservations other.snapshot other.observations answer = .ok (list, round) →
    Json.dumps (.obj (redactFields noMasking record.payload)) = some s →
    Json.loads (s ++ [lf]) = some (.obj fields) →
    loggedRoundMaterial asciiRuntime fields = .ok round.material →
      record.round.added = round.added ∧ record.round.superseded = round.superseded ∧
        record.round.reframed = round.reframed := by
  intro hall
  have hfirst := merge_roundInto (e := firstLine) rfl
  have hsecond := merge_roundInto (e := secondLine) rfl
  have hwritten :
      (Json.dumps (.obj (redactFields noMasking (roundInto firstLine).payload))).isSome = true := by
    decide +kernel
  obtain ⟨s, hs⟩ := Option.isSome_iff_exists.mp hwritten
  have hread := loads_readBack (wf_payload (roundInto firstLine)) hs
  have hlogged :
      loggedRoundMaterial asciiRuntime (readBack noMasking (roundInto firstLine).payload) =
      .ok (roundInto firstLine).round.material :=
        loggedRoundMaterial_payload (digested_of_merge hfirst)
  have hsame : (roundInto firstLine).round.material = (roundInto secondLine).round.material := rfl
  obtain ⟨hadded, -, -⟩ := hall _ _ _ _ _ _ _ _ _ _ hfirst hsecond hs hread (hsame ▸ hlogged)
  have hlines : firstLine.observations = secondLine.observations := hadded
  exact absurd (congrArg (List.map (·.lineStart)) hlines) (by decide)

end AtlasCore
