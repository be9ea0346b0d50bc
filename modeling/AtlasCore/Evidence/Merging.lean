import AtlasCore.Evidence.Observer
import AtlasCore.Lib.Keyed
import Mathlib.Data.List.ReduceOption

/-!
# What a merge comes to

`merge_observations` goes through the answer of a host item by item.  Here is what it comes to as a
whole: the list merged by source id, where an item is replaced unless its bytes, its window and its
excerpt came back, and a round that sorts the answer into four.  It is refused when the answer is
not a set of readings of the snapshot, and only then (`mergeObservations_eq`).
-/

set_option autoImplicit false

namespace AtlasCore

open Py

/-- What came back is the reading that is there: its bytes, its window and its excerpt. -/
def SameReading (previous item : Observation) : Prop :=
  previous.contentSha256 = item.contentSha256 ∧ previous.lineStart = item.lineStart ∧
    previous.lineEnd = item.lineEnd ∧ previous.excerpt = item.excerpt

instance : DecidableRel SameReading := fun _ _ ↦
  inferInstanceAs (Decidable (_ = _ ∧ _ = _ ∧ _ = _ ∧ _ = _))

/-- The list and the answer: the general merge, at the observations of a base and what counts as the
same reading. -/
abbrev mergedList (existing items : List Observation) : List Observation :=
  Keyed.merged (·.sourceId) SameReading existing items

/-- The record of an item that replaces the bytes of another. -/
def supersession (previous item : Observation) : Supersession where
  sourceId := item.sourceId
  path := item.path
  previousSha256 := previous.contentSha256
  newSha256 := item.contentSha256

/-- The record of an item that replaces the window or the excerpt of another. -/
def reframing (previous item : Observation) : Reframing where
  sourceId := item.sourceId
  path := item.path
  sha256 := item.contentSha256
  previousLineStart := previous.lineStart
  previousLineEnd := previous.lineEnd
  newLineStart := item.lineStart
  newLineEnd := item.lineEnd

/-- What a round makes of one item of the answer. -/
inductive Arrival where
  | added (item : Observation)
  | superseded (s : Supersession)
  | reframed (r : Reframing)
  | unchanged (sourceId : Str)

/-- The outcome of one item, which depends on what the base had of its source. -/
def arrival (existing : List Observation) (item : Observation) : Arrival :=
  match byId existing item.sourceId with
  | none => .added item
  | some previous =>
    if previous.contentSha256 = item.contentSha256 then
      if SameReading previous item then .unchanged item.sourceId
      else .reframed (reframing previous item)
    else .superseded (supersession previous item)

/-- The source an outcome is about, whichever of the four it is. -/
def Arrival.sourceId : Arrival → Str
  | added item => item.sourceId
  | superseded s => s.sourceId
  | reframed r => r.sourceId
  | unchanged id => id

/-- A round of these outcomes, each under its kind and in the order they came. -/
def roundOf (requested : ℕ) (arrivals : List Arrival) : ObservationRound where
  added := arrivals.filterMap fun | .added item => some item | _ => none
  superseded := arrivals.filterMap fun | .superseded s => some s | _ => none
  reframed := arrivals.filterMap fun | .reframed r => some r | _ => none
  unchanged := arrivals.filterMap fun | .unchanged id => some id | _ => none
  requested := requested

section
variable {snapshot : Snapshot} {existing items : List Observation} {item : Observation} {n : ℕ}

theorem sourceId_arrival : (arrival existing item).sourceId = item.sourceId := by
  rw [arrival]
  split
  · rfl
  · split_ifs <;> rfl

theorem roundOf_concat {arrivals : List Arrival} {a : Arrival} :
    roundOf n (arrivals ++ [a]) =
      match a with
      | .added item => { roundOf n arrivals with added := (roundOf n arrivals).added ++ [item] }
      | .superseded s =>
        { roundOf n arrivals with superseded := (roundOf n arrivals).superseded ++ [s] }
      | .reframed r => { roundOf n arrivals with reframed := (roundOf n arrivals).reframed ++ [r] }
      | .unchanged id =>
        { roundOf n arrivals with unchanged := (roundOf n arrivals).unchanged ++ [id] } := by
  cases a <;> simp [roundOf, List.filterMap_append]

theorem byId_eq_none {id : Str} : byId existing id = none ↔ id ∉ existing.map (·.sourceId) := by
  rw [byId, List.getLast?_eq_none_iff, List.filter_eq_nil_iff]
  simp only [decide_eq_true_eq, List.mem_map, not_exists, not_and]

theorem byId_eq_some {id : Str} {o : Observation} (h : byId existing id = some o) :
    o ∈ existing ∧ o.sourceId = id := by
  rw [byId] at h
  obtain ⟨hmem, hid⟩ := List.mem_filter.mp (List.mem_of_getLast? h)
  exact ⟨hmem, of_decide_eq_true hid⟩

/-! ## The loop

One item after the other, against the list as it is and what came before; the general merge does it
at once. -/

/-- What `merge_observations` has at hand after these items. -/
structure Folded (existing items : List Observation) (n : ℕ) (m : Merging) : Prop where
  merged : m.merged = mergedList existing items
  round : m.round = roundOf n (items.map (arrival existing))
  seen : ∀ id, id ∈ m.seen ↔ id ∈ items.map (·.sourceId)

/-- The item is a reading of the snapshot that was not seen before. -/
structure Acceptable (snapshot : Snapshot) (items : List Observation)
    (item : Observation) : Prop where
  bound : item.snapshotId = snapshot.snapshotId
  first : item.sourceId ∉ items.map (·.sourceId)

theorem replaceFirst_eq_ok {merged : List Observation} {previous : Observation}
    (h : previous ∈ merged) :
    replaceFirst merged previous item = .ok (merged.set (merged.idxOf previous) item) := if_pos h

/-- One item is folded in, if it is acceptable. -/
theorem Folded.step {m : Merging} (h : Folded existing items n m)
    (he : (existing.map (·.sourceId)).Nodup) (hn : (items.map (·.sourceId)).Nodup)
    (ha : Acceptable snapshot items item) :
    ∃ next, m.step snapshot existing (some item) = .ok next ∧
      Folded existing (items ++ [item]) n next := by
  have hseen : item.sourceId ∉ m.seen := fun hmem ↦ ha.first ((h.seen _).mp hmem)
  have hseen' : ∀ id, id ∈ item.sourceId :: m.seen ↔ id ∈ (items ++ [item]).map (·.sourceId) := by
    intro id
    rw [List.mem_cons, h.seen, List.map_append, List.mem_append, List.map_singleton,
      List.mem_singleton, or_comm]
  have hround : roundOf n ((items ++ [item]).map (arrival existing)) =
      roundOf n (items.map (arrival existing) ++ [arrival existing item]) := by
    rw [List.map_append, List.map_singleton]
  rw [Merging.step, if_neg (not_not.mpr ha.bound), if_neg hseen]
  dsimp only
  cases hfound : byId existing item.sourceId with
  | none =>
    have hnew : item.sourceId ∉ existing.map (·.sourceId) := byId_eq_none.mp hfound
    refine ⟨_, rfl, ?_, ?_, hseen'⟩
    · show m.merged ++ [item] = _
      rw [h.merged]
      exact (Keyed.merged_concat_fresh hnew ha.first).symm
    · rw [hround, roundOf_concat, arrival, hfound, h.round]
  | some previous =>
    obtain ⟨hprevious, hid⟩ := byId_eq_some hfound
    have hmem : previous ∈ m.merged := by
      rw [h.merged]
      exact Keyed.mem_merged_of_not_mem hprevious (hid ▸ ha.first)
    have hset : ¬ SameReading previous item →
        m.merged.set (m.merged.idxOf previous) item = mergedList existing (items ++ [item]) :=
      fun hother ↦ by
        rw [h.merged]
        exact (Keyed.merged_concat_other he hn hprevious hid ha.first hother).symm
    by_cases hbytes : previous.contentSha256 = item.contentSha256
    · by_cases hsame : SameReading previous item
      · refine ⟨_, (if_pos hbytes).trans (if_pos hsame.2), ?_, ?_, hseen'⟩
        · show m.merged = _
          rw [h.merged]
          exact (Keyed.merged_concat_same he hprevious hid ha.first hsame).symm
        · rw [hround, roundOf_concat, arrival, hfound]
          dsimp only
          rw [if_pos hbytes, if_pos hsame, h.round]
      · have hrest : ¬ (previous.lineStart = item.lineStart ∧ previous.lineEnd = item.lineEnd ∧
            previous.excerpt = item.excerpt) := fun hr ↦ hsame ⟨hbytes, hr⟩
        refine ⟨_, (if_pos hbytes).trans ((if_neg hrest).trans
          (congrArg (· >>= _) (replaceFirst_eq_ok hmem))), hset hsame, ?_, hseen'⟩
        rw [hround, roundOf_concat, arrival, hfound]
        dsimp only
        rw [if_pos hbytes, if_neg hsame, h.round]
        rfl
    · have hother : ¬ SameReading previous item := fun hs ↦ hbytes hs.1
      refine ⟨_, (if_neg hbytes).trans (congrArg (· >>= _) (replaceFirst_eq_ok hmem)), hset hother,
        ?_, hseen'⟩
      rw [hround, roundOf_concat, arrival, hfound]
      dsimp only
      rw [if_neg hbytes, h.round]
      rfl

/-! ## Answers

Which lists of items are an answer: of this snapshot, and no source twice with different readings.
-/

/-- These are readings of the snapshot, and none is there twice. -/
structure IsAnswer (snapshot : Snapshot) (items : List Observation) : Prop where
  bound : ∀ item ∈ items, item.snapshotId = snapshot.snapshotId
  distinct : (items.map (·.sourceId)).Nodup

/-- Something is not an observation, is bound to another snapshot, or is there twice. -/
def Refused (snapshot : Snapshot) (incoming : List (Option Observation)) : Prop :=
  none ∈ incoming ∨ (∃ item, some item ∈ incoming ∧ item.snapshotId ≠ snapshot.snapshotId) ∨
    ¬ ((incoming.reduceOption).map (·.sourceId)).Nodup

theorem IsAnswer.nil : IsAnswer snapshot [] := ⟨fun _ h ↦ absurd h List.not_mem_nil, List.nodup_nil⟩

theorem IsAnswer.concat (h : IsAnswer snapshot items) (ha : Acceptable snapshot items item) :
    IsAnswer snapshot (items ++ [item]) := by
  constructor
  · intro o ho
    rcases List.mem_append.mp ho with ho | ho
    · exact h.bound o ho
    · rw [List.mem_singleton.mp ho]
      exact ha.bound
  · rw [List.map_append, List.map_singleton]
    exact h.distinct.append (List.nodup_singleton _) (List.disjoint_singleton.mpr ha.first)

theorem reduceOption_map_some : (items.map some).reduceOption = items := by
  rw [List.reduceOption, List.filterMap_map]
  exact List.filterMap_some

theorem map_some_reduceOption : ∀ {incoming : List (Option Observation)}, none ∉ incoming →
    incoming = incoming.reduceOption.map some
  | [], _ => rfl
  | none :: _, h => absurd List.mem_cons_self h
  | some item :: rest, h => by
    rw [List.reduceOption_cons_of_some, List.map_cons,
      ← map_some_reduceOption fun hmem ↦ h (List.mem_cons_of_mem _ hmem)]

theorem IsAnswer.not_refused (h : IsAnswer snapshot items) :
    ¬ Refused snapshot (items.map some) := by
  rintro (hnone | ⟨item, hitem, hne⟩ | hdup)
  · obtain ⟨o, -, ho⟩ := List.mem_map.mp hnone
    exact absurd ho (Option.some_ne_none o)
  · obtain ⟨o, ho, heq⟩ := List.mem_map.mp hitem
    exact hne (Option.some.inj heq ▸ h.bound o ho)
  · exact hdup (by rw [reduceOption_map_some]; exact h.distinct)

theorem refused_of_not_acceptable {rest : List (Option Observation)}
    (h : ¬ Acceptable snapshot items item) :
      Refused snapshot (items.map some ++ some item :: rest) := by
  by_cases hbound : item.snapshotId = snapshot.snapshotId
  · refine .inr (.inr fun hn ↦ h ⟨hbound, fun hmem ↦ ?_⟩)
    rw [List.reduceOption_append, reduceOption_map_some, List.reduceOption_cons_of_some,
      List.map_append, List.map_cons] at hn
    exact List.disjoint_of_nodup_append hn hmem List.mem_cons_self
  · exact .inr (.inl ⟨item, List.mem_append_right _ List.mem_cons_self, hbound⟩)

/-- An item that is not acceptable ends the loop. -/
theorem Folded.refused {m : Merging} (h : Folded existing items n m)
    (ha : ¬ Acceptable snapshot items item) :
    m.step snapshot existing (some item) = .error .observationRefused := by
  rw [Merging.step]
  by_cases hbound : item.snapshotId = snapshot.snapshotId
  · rw [if_neg (not_not.mpr hbound), if_pos ((h.seen _).mpr (by_contra fun hf ↦ ha ⟨hbound, hf⟩))]
  · rw [if_pos hbound]

/-- The whole answer is folded in, or it is refused. -/
theorem Folded.run (he : (existing.map (·.sourceId)).Nodup) :
    ∀ (incoming : List (Option Observation)) {items : List Observation} {m : Merging},
      Folded existing items n m → IsAnswer snapshot items →
      (Refused snapshot (items.map some ++ incoming) ∧
        m.run snapshot existing incoming = .error .observationRefused) ∨
      (¬ Refused snapshot (items.map some ++ incoming) ∧
        IsAnswer snapshot (items ++ incoming.reduceOption) ∧
        ∃ next, m.run snapshot existing incoming = .ok next ∧
          Folded existing (items ++ incoming.reduceOption) n next)
  | [], items, m, h, hi => by
    refine .inr ⟨?_, ?_, m, rfl, ?_⟩
    · rw [List.append_nil]
      exact hi.not_refused
    · rwa [List.reduceOption_nil, List.append_nil]
    · rwa [List.reduceOption_nil, List.append_nil]
  | none :: rest, items, m, _, _ =>
    .inl ⟨.inl (List.mem_append_right _ List.mem_cons_self), rfl⟩
  | some item :: rest, items, m, h, hi => by
    by_cases ha : Acceptable snapshot items item
    · obtain ⟨next, hstep, hnext⟩ := h.step he hi.distinct ha
      have hrun :
          m.run snapshot existing (some item :: rest) = next.run snapshot existing rest := by
        rw [Merging.run, hstep]
        rfl
      have hlist : (items ++ [item]).map some ++ rest = items.map some ++ some item :: rest := by
        rw [List.map_append, List.append_assoc]
        rfl
      have hitems : items ++ [item] ++ rest.reduceOption =
          items ++ (some item :: rest).reduceOption := by
        rw [List.append_assoc, List.reduceOption_cons_of_some]
        rfl
      have ih := Folded.run he rest hnext (hi.concat ha)
      rwa [hlist, hitems, ← hrun] at ih
    · refine .inl ⟨refused_of_not_acceptable ha, ?_⟩
      rw [Merging.run, h.refused ha]
      rfl

/-! ## What a round says

What a host answered, one observation after the other, against what a round says of it. -/

/-- The outcome is not that the reading was there. -/
def Arrival.IsNew (a : Arrival) : Prop := ∀ id, a ≠ .unchanged id

theorem hasNewMaterial_roundOf {arrivals : List Arrival} :
    (roundOf n arrivals).hasNewMaterial = true ↔ ∃ a ∈ arrivals, a.IsNew := by
  have hnil : (roundOf n arrivals).hasNewMaterial = false ↔ ∀ a ∈ arrivals, ∃ id,
    a = .unchanged id := by
    simp only [ObservationRound.hasNewMaterial, roundOf, Bool.not_eq_false', Bool.and_eq_true,
      List.isEmpty_iff, List.filterMap_eq_nil_iff]
    constructor
    · rintro ⟨⟨hadded, hsuperseded⟩, hreframed⟩ a ha
      cases a with
      | added item => exact absurd (hadded _ ha) (Option.some_ne_none _)
      | superseded s => exact absurd (hsuperseded _ ha) (Option.some_ne_none _)
      | reframed r => exact absurd (hreframed _ ha) (Option.some_ne_none _)
      | unchanged id => exact ⟨id, rfl⟩
    · intro h
      refine ⟨⟨fun a ha ↦ ?_, fun a ha ↦ ?_⟩, fun a ha ↦ ?_⟩ <;>
        · obtain ⟨id, rfl⟩ := h a ha
          rfl
  rw [← Bool.not_eq_false, hnil]
  simp only [Arrival.IsNew, not_forall, not_exists, exists_prop, ne_eq]

/-- The sources of the four kinds, one kind after the other. -/
def roundSources (r : ObservationRound) : List Str :=
  r.added.map (·.sourceId) ++ r.superseded.map (·.sourceId) ++
    r.reframed.map (·.sourceId) ++ r.unchanged

theorem roundSources_perm : ∀ {arrivals : List Arrival},
    (roundSources (roundOf n arrivals)).Perm (arrivals.map Arrival.sourceId)
  | [] => .nil
  | a :: arrivals => by
    have ih : (roundSources (roundOf n arrivals)).Perm _ := roundSources_perm
    rw [List.map_cons]
    refine List.Perm.trans ?_ (ih.cons a.sourceId)
    cases a with
    | added item => exact .refl _
    | superseded s => exact (List.perm_middle.append_right _).append_right _
    | reframed r => exact List.perm_middle.append_right _
    | unchanged id => exact List.perm_middle

/-- What a claim can be checked against: the source, its bytes, the window and the excerpt. -/
def Observation.reading (o : Observation) : Str × Str × ℤ × ℤ × Str :=
  (o.sourceId, o.contentSha256, o.lineStart, o.lineEnd, o.excerpt)

theorem reading_eq_iff {previous : Observation} (hid : previous.sourceId = item.sourceId) :
    item.reading = previous.reading ↔ SameReading previous item := by
  simp only [Observation.reading, SameReading, Prod.mk.injEq, hid, true_and, eq_comm]

/-- An item is new unless the reading was there. -/
theorem isNew_arrival (he : (existing.map (·.sourceId)).Nodup) :
    (arrival existing item).IsNew ↔
      ∀ previous ∈ existing, previous.sourceId = item.sourceId → ¬ SameReading previous item := by
  cases hfound : byId existing item.sourceId with
  | none =>
    rw [arrival, hfound]
    exact ⟨fun _ p hp hid ↦ absurd (List.mem_map.mpr ⟨p, hp, hid⟩) (byId_eq_none.mp hfound),
      fun _ id ↦ nofun⟩
  | some previous =>
    obtain ⟨hprevious, hid⟩ := byId_eq_some hfound
    have honly : (∀ p ∈ existing, p.sourceId = item.sourceId → ¬ SameReading p item) ↔
        ¬ SameReading previous item := by
      refine ⟨fun h ↦ h previous hprevious hid, fun h p hp hpid ↦ ?_⟩
      rwa [List.inj_on_of_nodup_map he hp hprevious (hpid.trans hid.symm)]
    rw [honly, arrival, hfound]
    dsimp only
    split_ifs with hbytes hsame
    · exact ⟨fun h ↦ absurd rfl (h _), fun h ↦ absurd hsame h⟩
    · exact ⟨fun _ ↦ hsame, fun _ id ↦ nofun⟩
    · exact ⟨fun _ h ↦ hbytes h.1, fun _ id ↦ nofun⟩

/-- The current reading of a source is the one that was there, or a new one of the answer. -/
theorem current_eq_or (items : List Observation) (a : Observation) :
    Keyed.overlay (·.sourceId) SameReading items a = a ∨
      ∃ i ∈ items, i.sourceId = a.sourceId ∧ ¬ SameReading a i ∧
        Keyed.overlay (·.sourceId) SameReading items a = i := Keyed.overlay_eq_or

/-- A round has new material when the readings are not what they were. -/
theorem hasNewMaterial_iff (he : (existing.map (·.sourceId)).Nodup)
    (hn : (items.map (·.sourceId)).Nodup) :
    (roundOf n (items.map (arrival existing))).hasNewMaterial = true ↔
      (mergedList existing items).map (·.reading) ≠ existing.map (·.reading) := by
  rw [hasNewMaterial_roundOf, ne_eq, Keyed.map_merged_eq_iff, ← not_iff_not, not_not]
  simp only [List.mem_map, exists_exists_and_eq_and, not_exists, not_and, isNew_arrival he,
    not_forall,
    not_not]
  constructor
  · intro h
    refine ⟨List.eq_nil_iff_forall_not_mem.mpr fun i hi ↦ ?_, fun a ha ↦ ?_⟩
    · obtain ⟨hi, hnew⟩ := Keyed.mem_fresh.mp hi
      obtain ⟨p, hp, hid, -⟩ := h i hi
      exact hnew (List.mem_map.mpr ⟨p, hp, hid⟩)
    · obtain heq | ⟨i, hi, hid, hother, -⟩ := current_eq_or items a
      · rw [heq]
      · obtain ⟨p, hp, hpid, hsame⟩ := h i hi
        rw [List.inj_on_of_nodup_map he hp ha (hpid.trans hid)] at hsame
        exact absurd hsame hother
  · rintro ⟨hfresh, hkept⟩ i hi
    have hmem : i.sourceId ∈ existing.map (·.sourceId) := by_contra fun hnew ↦
      absurd (hfresh ▸ Keyed.mem_fresh.mpr ⟨hi, hnew⟩) List.not_mem_nil
    obtain ⟨p, hp, hid⟩ := List.mem_map.mp hmem
    have hreading := hkept p hp
    rw [Keyed.overlay_of_mem hn hi hid.symm] at hreading
    split_ifs at hreading with hsame
    · exact ⟨p, hp, hid, hsame⟩
    · exact absurd ((reading_eq_iff hid).mp hreading) hsame

end

/-! ## The merge as a whole

Every answer is merged, and everything else is refused. -/

/-- What `merge_observations` returns for an answer of these items. -/
structure Merges (base : EvidenceBase) (items merged : List Observation)
    (round : ObservationRound) : Prop where
  /-- Every source has one observation, of the snapshot: the merged list is a base again. -/
  adopted : ∃ next, base.withObservations merged = some next
  /-- What was not read again stays where it is. -/
  untouched : ∀ (i : ℕ) (o : Observation), base.observations[i]? = some o →
    o.sourceId ∉ items.map (·.sourceId) → merged[i]? = some o
  /-- What was read again stays where it is, as the new reading unless it is the reading it was. -/
  reread : ∀ (i : ℕ) (previous : Observation), base.observations[i]? = some previous →
    ∀ item ∈ items, item.sourceId = previous.sourceId →
      merged[i]? = some (if SameReading previous item then previous else item)
  /-- The new sources follow, in the order of the answer. -/
  follow : merged.drop base.observations.length =
    items.filter fun item ↦ item.sourceId ∉ base.observations.map (·.sourceId)
  /-- Every item is of one kind, the one its reading gives it. -/
  round_eq : round = roundOf items.length (items.map (arrival base.observations))
  partitioned : (roundSources round).Perm (items.map (·.sourceId))
  /-- There is new material when a source, a digest, a window or an excerpt is another. -/
  newMaterial : round.hasNewMaterial = true ↔
    merged.map (·.reading) ≠ base.observations.map (·.reading)

section
variable {base : EvidenceBase} {items : List Observation}

theorem getElem?_mergedList {existing : List Observation} {i : ℕ} {o : Observation}
    (h : existing[i]? = some o) :
    (mergedList existing items)[i]? = some (Keyed.overlay (·.sourceId) SameReading items o) := by
  have hi : i < existing.length := (List.getElem?_eq_some_iff.mp h).1
  rw [mergedList, Keyed.merged, List.getElem?_append_left (by rwa [List.length_map]),
    List.getElem?_map, h]
  rfl

theorem adopted_mergedList (h : IsAnswer base.snapshot items) :
    ∃ next, base.withObservations (mergedList base.observations items) = some next := by
  have hbound : ∀ o ∈ mergedList base.observations items,
    o.snapshotId = base.snapshot.snapshotId := by
    intro o ho
    rcases List.mem_append.mp ho with ho | ho
    · obtain ⟨a, ha, rfl⟩ := List.mem_map.mp ho
      obtain heq | ⟨i, hi, -, -, heq⟩ := current_eq_or items a
      · rw [heq]
        exact base.sameSnapshot a ha
      · rw [heq]
        exact h.bound i hi
    · exact h.bound o (Keyed.mem_fresh.mp ho).1
  exact ⟨_, dif_pos ⟨hbound, Keyed.nodup_keys_merged base.distinct h.distinct⟩⟩

theorem merges_mergedList (h : IsAnswer base.snapshot items) :
    Merges base items (mergedList base.observations items)
      (roundOf items.length (items.map (arrival base.observations))) where
  adopted := adopted_mergedList h
  untouched i o ho hid := by rw [getElem?_mergedList ho, Keyed.overlay_of_not_mem hid]
  reread i previous hprevious item hitem hid := by
    rw [getElem?_mergedList hprevious, Keyed.overlay_of_mem h.distinct hitem hid]
  follow := by
    rw [mergedList, Keyed.merged, List.drop_left' (List.length_map _)]
    exact List.filter_congr fun _ _ ↦ decide_eq_decide.mpr Iff.rfl
  round_eq := rfl
  partitioned := by
    refine roundSources_perm.trans (List.Perm.of_eq ?_)
    rw [List.map_map]
    exact List.map_congr_left fun item _ ↦ sourceId_arrival
  newMaterial := hasNewMaterial_iff base.distinct h.distinct

end

/-- An answer is refused, or it is folded in. -/
theorem merge_or_refuse (base : EvidenceBase) (incoming : List (Option Observation)) :
    (Refused base.snapshot incoming ∧
      mergeObservations base.snapshot base.observations incoming = .error .observationRefused) ∨
    (¬ Refused base.snapshot incoming ∧ ∃ items, incoming = items.map some ∧
      IsAnswer base.snapshot items ∧
      mergeObservations base.snapshot base.observations incoming =
        .ok (mergedList base.observations items,
          roundOf items.length (items.map (arrival base.observations)))) := by
  have hstart : Folded base.observations [] incoming.length
      ⟨base.observations, { requested := incoming.length }, []⟩ :=
    ⟨Keyed.merged_nil.symm, rfl, fun _ ↦ Iff.rfl⟩
  obtain ⟨hrefused, hrun⟩ | ⟨hrefused, hanswer, next, hrun, hnext⟩ :=
    Folded.run base.distinct incoming hstart IsAnswer.nil
  · refine .inl ⟨hrefused, ?_⟩
    rw [mergeObservations, hrun]
    rfl
  · have hincoming : incoming = incoming.reduceOption.map some :=
      map_some_reduceOption fun hnone ↦ hrefused (.inl hnone)
    have hlength : incoming.reduceOption.length = incoming.length := by
      conv_rhs => rw [hincoming, List.length_map]
    refine .inr ⟨hrefused, incoming.reduceOption, hincoming, hanswer, ?_⟩
    rw [mergeObservations, hrun, hlength]
    exact congrArg Except.ok (Prod.ext hnext.merged hnext.round)

theorem merge_of_isAnswer {base : EvidenceBase} {items : List Observation}
    (h : IsAnswer base.snapshot items) :
    mergeObservations base.snapshot base.observations (items.map some) =
      .ok (mergedList base.observations items,
        roundOf items.length (items.map (arrival base.observations))) := by
  obtain ⟨hrefused, -⟩ | ⟨-, items', hitems, -, hmerge⟩ :=
    merge_or_refuse base (items.map some)
  · exact absurd hrefused h.not_refused
  · obtain rfl := (List.map_injective_iff.mpr (Option.some_injective _)) hitems
    exact hmerge

/-- A round is made of the outcomes of the items. -/
theorem round_eq_of_merge {base : EvidenceBase} {incoming : List (Option Observation)}
    {merged : List Observation} {round : ObservationRound}
    (h : mergeObservations base.snapshot base.observations incoming = .ok (merged, round)) :
    ∃ items : List Observation,
      round = roundOf items.length (items.map (arrival base.observations)) := by
  obtain ⟨-, hrefused⟩ | ⟨-, items, -, -, hmerge⟩ := merge_or_refuse base incoming
  · rw [hrefused] at h
    cases h
  · exact ⟨items, (Prod.mk.inj (Except.ok.inj (h.symm.trans hmerge))).2⟩

/-- An answer is refused as a whole when it has something in it that is not an observation, that is
bound to another snapshot or that names a source again; otherwise it is merged. -/
theorem mergeObservations_eq (base : EvidenceBase) (incoming : List (Option Observation)) :
    (Refused base.snapshot incoming ∧
      mergeObservations base.snapshot base.observations incoming = .error .observationRefused) ∨
    (¬ Refused base.snapshot incoming ∧ ∃ items merged round, incoming = items.map some ∧
      mergeObservations base.snapshot base.observations incoming = .ok (merged, round) ∧
        Merges base items merged round) := by
  refine (merge_or_refuse base incoming).imp_right fun h ↦ ?_
  obtain ⟨hrefused, items, hincoming, hanswer, hmerge⟩ := h
  exact ⟨hrefused, items, _, _, hincoming, hmerge, merges_mergedList hanswer⟩

end AtlasCore
