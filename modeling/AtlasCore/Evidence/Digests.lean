import AtlasCore.Evidence.Merging
import AtlasCore.Lib.Dict

/-!
# Which bytes a run goes on with

The record of a round names what was added and what was superseded, each with its digest, and leaves
out what only came back in another window.  That is enough to follow the bytes: the digests of a
base are those it had, with the digests of the round assigned over them (`get_fill_digests`).
-/

set_option autoImplicit false

namespace AtlasCore

open Py

/-- The sources that a round named, with the bytes that were read. -/
def ObservationRound.digests (r : ObservationRound) : List (Str × Str) :=
  (r.added.map fun o ↦ (o.sourceId, o.contentSha256)) ++
    r.superseded.map fun s ↦ (s.sourceId, s.newSha256)

/-- The sources of a list, with their bytes. -/
def digestsHeld (observations : List Observation) : List (Str × Str) :=
  observations.map fun o ↦ (o.sourceId, o.contentSha256)

variable {existing items : List Observation} {item : Observation} {n : ℕ} {id : Str}

theorem keys_digestsHeld : (digestsHeld existing).map Prod.fst = existing.map (·.sourceId) := by
  rw [digestsHeld, List.map_map]
  rfl

theorem get_digestsHeld {o : Observation} (he : (existing.map (·.sourceId)).Nodup)
    (ho : o ∈ existing) :
    Dict.get o.sourceId (digestsHeld existing) = some o.contentSha256 :=
  Dict.get_of_mem (List.mem_map_of_mem (f := fun o ↦ (o.sourceId, o.contentSha256)) ho)
    (keys_digestsHeld ▸ he)

theorem get_digestsHeld_of_not_mem (h : id ∉ existing.map (·.sourceId)) :
    Dict.get id (digestsHeld existing) = none := Dict.get_of_not_mem (keys_digestsHeld ▸ h)

/-- An outcome that changes the bytes, with what it makes of them. -/
def Arrival.digest : Arrival → Option (Str × Str)
  | added item => some (item.sourceId, item.contentSha256)
  | superseded s => some (s.sourceId, s.newSha256)
  | reframed _ | unchanged _ => none

theorem Arrival.sourceId_of_digest {a : Arrival} {p : Str × Str} (h : a.digest = some p) :
    p.1 = a.sourceId := by
  cases a with
  | added item => exact congrArg Prod.fst (Option.some.inj h).symm
  | superseded s => exact congrArg Prod.fst (Option.some.inj h).symm
  | reframed r => cases h
  | unchanged id => cases h

theorem mem_digests_roundOf {arrivals : List Arrival} {p : Str × Str} :
    p ∈ (roundOf n arrivals).digests ↔ ∃ a ∈ arrivals, a.digest = some p := by
  simp only [ObservationRound.digests, roundOf, List.mem_append, List.mem_map, List.mem_filterMap]
  constructor
  · rintro (⟨o, ⟨a, ha, ho⟩, rfl⟩ | ⟨s, ⟨a, ha, hs⟩, rfl⟩)
    · cases a with
      | added item =>
        obtain rfl := Option.some.inj ho
        exact ⟨_, ha, rfl⟩
      | _ => cases ho
    · cases a with
      | superseded t =>
        obtain rfl := Option.some.inj hs
        exact ⟨_, ha, rfl⟩
      | _ => cases hs
  · rintro ⟨a, ha, hp⟩
    cases a with
    | added item =>
      obtain rfl := Option.some.inj hp
      exact .inl ⟨item, ⟨_, ha, rfl⟩, rfl⟩
    | superseded s =>
      obtain rfl := Option.some.inj hp
      exact .inr ⟨s, ⟨_, ha, rfl⟩, rfl⟩
    | reframed r => cases hp
    | unchanged id => cases hp

/-- No source is named twice. -/
theorem nodup_keys_digests (hn : (items.map (·.sourceId)).Nodup) :
    (((roundOf n (items.map (arrival existing))).digests).map Prod.fst).Nodup := by
  have hsources : (roundSources (roundOf n (items.map (arrival existing)))).Nodup := by
    refine (roundSources_perm.nodup_iff).mpr ?_
    rw [List.map_map]
    exact (List.map_congr_left fun item _ ↦ sourceId_arrival) ▸ hn
  refine hsources.sublist ?_
  rw [roundSources, List.append_assoc, ObservationRound.digests, List.map_append, List.map_map,
    List.map_map]
  exact List.sublist_append_left _ _

/-- What an item does to the bytes of its source. -/
theorem digest_arrival (he : (existing.map (·.sourceId)).Nodup) :
    (arrival existing item).digest = some (item.sourceId, item.contentSha256) ∨
      (arrival existing item).digest = none ∧
        Dict.get item.sourceId (digestsHeld existing) = some item.contentSha256 := by
  cases hfound : byId existing item.sourceId with
  | none =>
    left
    rw [arrival, hfound]
    rfl
  | some previous =>
    obtain ⟨hmem, hid⟩ := byId_eq_some hfound
    have hheld := get_digestsHeld he hmem
    rw [hid] at hheld
    rw [arrival, hfound]
    dsimp only
    split_ifs with hbytes hsame
    · exact .inr ⟨rfl, hbytes ▸ hheld⟩
    · exact .inr ⟨rfl, hbytes ▸ hheld⟩
    · exact .inl rfl

/-- The merged list has one item under each id. -/
theorem get_digestsHeld_merged (he : (existing.map (·.sourceId)).Nodup)
    (hn : (items.map (·.sourceId)).Nodup) (hi : item ∈ items) :
    Dict.get item.sourceId (digestsHeld (mergedList existing items)) = some item.contentSha256 := by
  have hkeys : ((mergedList existing items).map (·.sourceId)).Nodup := Keyed.nodup_keys_merged he hn
  by_cases hmem : item.sourceId ∈ existing.map (·.sourceId)
  · obtain ⟨previous, hprevious, hid⟩ := List.mem_map.mp hmem
    have hover : Keyed.overlay (·.sourceId) SameReading items previous =
        if SameReading previous item then previous else item := Keyed.overlay_of_mem hn hi hid.symm
    have hin : Keyed.overlay (·.sourceId) SameReading items previous ∈ mergedList existing items :=
      List.mem_append_left _ (List.mem_map_of_mem hprevious)
    have hget := get_digestsHeld hkeys hin
    rw [hover] at hget
    split_ifs at hget with hsame
    · rw [← hid, hget, hsame.1]
    · exact hget
  · exact get_digestsHeld hkeys (List.mem_append_right _ (Keyed.mem_fresh.mpr ⟨hi, hmem⟩))

/-- What was not read again is as it was. -/
theorem get_digestsHeld_merged_of_not_mem (he : (existing.map (·.sourceId)).Nodup)
    (hn : (items.map (·.sourceId)).Nodup) (hid : id ∉ items.map (·.sourceId)) :
    Dict.get id (digestsHeld (mergedList existing items)) = Dict.get id (digestsHeld existing) := by
  have hkeys : ((mergedList existing items).map (·.sourceId)).Nodup := Keyed.nodup_keys_merged he hn
  by_cases hmem : id ∈ existing.map (·.sourceId)
  · obtain ⟨o, ho, rfl⟩ := List.mem_map.mp hmem
    rw [get_digestsHeld he ho, get_digestsHeld hkeys (Keyed.mem_merged_of_not_mem ho hid)]
  · rw [get_digestsHeld_of_not_mem hmem, get_digestsHeld_of_not_mem]
    rw [mergedList, Keyed.merged, List.map_append, Keyed.keys_overlay, List.mem_append, not_or]
    exact ⟨hmem, fun hfresh ↦ hid ((List.filter_sublist.map _).subset hfresh)⟩

/-- **A round names everything that changes the bytes of a base.** -/
theorem get_fill_digests {base : EvidenceBase} {incoming : List (Option Observation)}
    {merged : List Observation} {round : ObservationRound}
    (h : mergeObservations base.snapshot base.observations incoming = .ok (merged, round))
    (id : Str) :
    Dict.get id (Dict.fill round.digests (digestsHeld base.observations)) =
      Dict.get id (digestsHeld merged) := by
  obtain ⟨-, hrefused⟩ | ⟨-, items, -, hanswer, hmerge⟩ := merge_or_refuse base incoming
  · rw [hrefused] at h
    cases h
  obtain ⟨rfl, rfl⟩ := Prod.mk.inj (Except.ok.inj (h.symm.trans hmerge))
  by_cases hmem : id ∈ items.map (·.sourceId)
  · obtain ⟨item, hitem, rfl⟩ := List.mem_map.mp hmem
    rw [get_digestsHeld_merged base.distinct hanswer.distinct hitem]
    rcases @digest_arrival base.observations item base.distinct with hdigest | ⟨hdigest, hheld⟩
    · exact Dict.get_fill_of_mem (mem_digests_roundOf.mpr ⟨_, List.mem_map_of_mem hitem, hdigest⟩)
        (nodup_keys_digests hanswer.distinct)
    · rw [Dict.get_fill_of_not_mem, hheld]
      intro hkey
      obtain ⟨p, hp, hid⟩ := List.mem_map.mp hkey
      obtain ⟨a, ha, hpa⟩ := mem_digests_roundOf.mp hp
      obtain ⟨other, hother, rfl⟩ := List.mem_map.mp ha
      have hsame : other.sourceId = item.sourceId :=
        sourceId_arrival.symm.trans ((Arrival.sourceId_of_digest hpa).symm.trans hid)
      obtain rfl := List.inj_on_of_nodup_map hanswer.distinct hother hitem hsame
      rw [hdigest] at hpa
      cases hpa
  · rw [get_digestsHeld_merged_of_not_mem base.distinct hanswer.distinct hmem]
    refine Dict.get_fill_of_not_mem fun hkey ↦ hmem ?_
    obtain ⟨p, hp, rfl⟩ := List.mem_map.mp hkey
    obtain ⟨a, ha, hpa⟩ := mem_digests_roundOf.mp hp
    obtain ⟨item, hitem, rfl⟩ := List.mem_map.mp ha
    rw [Arrival.sourceId_of_digest hpa, sourceId_arrival]
    exact List.mem_map_of_mem hitem

end AtlasCore
