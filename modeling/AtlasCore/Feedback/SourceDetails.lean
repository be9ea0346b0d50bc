import AtlasCore.Controller.Material
import AtlasCore.Evidence.Digests
import AtlasCore.Feedback.Provenance

/-!
# What a report says was read

The report of a run lists its sources by folding the rounds of the log into a dict.  Where the
rounds name what they adopted, as those of the controller do, the fold fails on nothing and is a
loop of assignments (`sourceDetails_of_named`), and what it assigns are the bytes of the rounds that
were written (`digestsOf_roundRefs`), although every text in between was masked, written and read
again.
-/

set_option autoImplicit false

namespace AtlasCore

namespace Feedback

open Py Inspect

variable {rt : Runtime}

/-- Sources under their ids, as the report keeps them while it goes through the log. -/
def byId (refs : List SourceRef) : List (Str × SourceRef) := refs.map fun s ↦ (s.sourceId, s)

/-- The bytes of sources: each id with the digest that is named last. -/
def digestsOf (refs : List SourceRef) : List (Str × Str) := refs.map fun s ↦ (s.sourceId, s.sha256)

/-- The sources that a record names, in the order in which the report takes them. -/
def roundRefs (rt : Runtime) (record : Fields) : List SourceRef :=
  (adoptionsOf record).map (·.ref rt)

/-! ## The fold is a loop of assignments

Entries that name their path and their digest are assigned under the id of their source. -/

theorem textOr_eq {v : Json} {default : Str} (h : isFalsy rt v = false) :
    textOr rt v default = strValue rt v := by
  rw [textOr, h]
  rfl

theorem entered_of_named {as : List Adoption} (h : ∀ a ∈ as, a.NamesBytes rt) :
    entered rt as = Dict.fill (byId (as.map (·.ref rt))) [] := by
  induction as using List.reverseRecOn with
  | nil => rfl
  | append_singleton as a ih =>
    obtain ⟨hpath, hdigest⟩ := h a (List.mem_append_right _ (List.mem_singleton.mpr rfl))
    have hbefore := ih fun b hb ↦ h b (List.mem_append_left _ hb)
    rw [entered, List.foldl_concat, List.map_append, byId, List.map_append, List.map_singleton,
      List.map_singleton, Dict.fill_concat]
    rw [entered, byId] at hbefore
    rw [hbefore]
    cases a with
    | added item => rw [Adoption.enter, textOr_eq hpath, textOr_eq hdigest]; rfl
    | superseded item => rw [Adoption.enter, textOr_eq hpath, textOr_eq hdigest]; rfl

/-- **The sources of a report** are what the rounds name, the later over the earlier. -/
theorem sourceDetails_of_named {runId : Str} {eventLog : Bytes} {records : List Fields}
    (h : FinishedLog rt runId eventLog records)
    (hnamed : ∀ a ∈ adoptions records, a.NamesBytes rt) :
    sourceDetails rt records = .ok ((Dict.fill (byId
      ((records.filter (isKind .observationRecorded)).flatMap (roundRefs rt))) []).map (·.2)) := by
  rw [sourceDetails_eq h.isRound, entered_of_named hnamed, adoptions, List.map_flatMap]
  rfl

/-! ## The rounds of the controller

The entries of a round that was written are those of its observations. -/

section
variable {record payload : Fields} {key : String} {ys : List Fields}

theorem dicts_of_mapM {items : List Json} {f : Json → Except Exc Fields}
    (hf : ∀ v y, f v = .ok y → v = .obj y) (h : items.mapM f = .ok ys) : dicts items = ys := by
  induction items generalizing ys with
  | nil => exact Except.ok.inj h
  | cons v rest ih =>
    rw [List.mapM_cons] at h
    obtain ⟨y, hy, h⟩ := Except.bind_eq_ok.mp h
    obtain ⟨more, hmore, h⟩ := Except.bind_eq_ok.mp h
    obtain rfl := Except.ok.inj h
    obtain rfl := hf v y hy
    exact congrArg (y :: ·) (ih hmore)

/-- What the controller finds under a key of its own record. -/
theorem entries_of_payloadItems (hpayload : getOrNull record "payload" = .obj payload)
    (h : payloadItems payload key = .ok ys) : entries key record = ys := by
  rw [entries, hpayload]
  dsimp only
  rw [payloadItems] at h
  rw [getOrNull]
  split at h
  · rename_i hnone
    rw [hnone]
    exact Except.ok.inj h
  · rename_i items hitems
    rw [hitems]
    refine dicts_of_mapM (fun v y hv ↦ ?_) h
    cases v with
    | obj fields => exact congrArg Json.obj (Except.ok.inj hv)
    | _ => cases hv
  · rename_i hempty
    rw [hempty]
    exact Except.ok.inj h
  · rename_i hempty
    rw [hempty]
    exact Except.ok.inj h
  all_goals cases h

/-- **What a report reads of a round is what the round adopted.** -/
theorem digestsOf_roundRefs {e : Event} {mask : Masking} {r : RoundRecord}
    (he : e.payload = redactFields mask r.payload) (hreads : e.canon.Reads record)
    (h : Digested r.round) : digestsOf (roundRefs rt record) = r.round.digests := by
  have hpayload : getOrNull record "payload" = .obj (readBack mask r.payload) := by
    obtain ⟨recordedAt, hlookup⟩ := hreads
    rw [getOrNull, hlookup, readBack, ← he]
    rfl
  have hadded : entries "added" record = r.round.added.map fun o ↦ readBack mask o.recorded :=
    entries_of_payloadItems hpayload (payloadItems_readBack "added" rfl (by decide))
  have hsuperseded : entries "superseded" record =
      r.round.superseded.map fun s ↦ readBack mask s.recorded :=
    entries_of_payloadItems hpayload (payloadItems_readBack "superseded" rfl (by decide))
  rw [digestsOf, roundRefs, adoptionsOf, hadded, hsuperseded, List.map_append, List.map_append,
    List.map_map, List.map_map, List.map_map, List.map_map, List.map_map, List.map_map,
    ObservationRound.digests]
  refine congrArg₂ (· ++ ·) (List.map_congr_left fun o _ ↦ ?_) (List.map_congr_left fun s hs ↦ ?_)
  · simp only [Function.comp_apply, Adoption.ref_added]
    exact readBack_added o
  · simp only [Function.comp_apply, Adoption.ref_superseded]
    exact readBack_superseded (h.superseded s hs)

end

/-! ## The bytes of the fold

Each source is listed once, with the bytes that were named last. -/

section
variable {refs : List SourceRef} {details : List (Str × SourceRef)} {id : Str}

theorem get_map_sha256 : Dict.get id (details.map fun p ↦ (p.1, p.2.sha256)) =
    (Dict.get id details).map (·.sha256) := by
  induction details with
  | nil => rfl
  | cons p rest ih =>
    rw [List.map_cons, Dict.get_cons, Dict.get_cons, ih]
    split_ifs <;> rfl

theorem get_fill_byId : (Dict.get id (Dict.fill (byId refs) details)).map (·.sha256) =
    Dict.get id (Dict.fill (digestsOf refs) (details.map fun p ↦ (p.1, p.2.sha256))) := by
  induction refs generalizing details with
  | nil => exact get_map_sha256.symm
  | cons s rest ih =>
    show (Dict.get id (Dict.fill (byId rest) (Dict.assign s.sourceId s details))).map _ =
      Dict.get id (Dict.fill (digestsOf rest) (Dict.assign s.sourceId s.sha256 _))
    rw [ih, Dict.get_fill, Dict.get_fill (d := Dict.assign _ _ _), get_map_sha256, Dict.get_assign,
      Dict.get_assign, get_map_sha256]
    split_ifs <;> rfl

/-- The entries of the fold are under their ids. -/
theorem byId_fill : byId ((Dict.fill (byId refs) []).map (·.2)) = Dict.fill (byId refs) [] := by
  rw [byId, List.map_map]
  refine (List.map_congr_left fun p hp ↦ ?_).trans (List.map_id _)
  obtain ⟨s, -, rfl⟩ := List.mem_map.mp (Dict.mem_of_mem_fill hp)
  rfl

/-- No source is listed twice. -/
theorem nodup_sourceDetails : (((Dict.fill (byId refs) []).map (·.2)).map (·.sourceId)).Nodup := by
  have hkeys : (byId ((Dict.fill (byId refs) []).map (·.2))).map Prod.fst =
      ((Dict.fill (byId refs) []).map (·.2)).map (·.sourceId) := by
    rw [byId, List.map_map]
    rfl
  rw [← hkeys, byId_fill]
  exact Dict.nodup_fill

/-- The bytes that are listed for a source are the last that were named. -/
theorem get_digestsOf_fill : Dict.get id (digestsOf ((Dict.fill (byId refs) []).map (·.2))) =
    Dict.get id (Dict.fill (digestsOf refs) []) := by
  have hpairs : digestsOf ((Dict.fill (byId refs) []).map (·.2)) =
      (byId ((Dict.fill (byId refs) []).map (·.2))).map fun p ↦ (p.1, p.2.sha256) := by
    generalize (Dict.fill (byId refs) []).map (·.2) = sources
    rw [byId, List.map_map]
    rfl
  rw [hpairs, byId_fill, get_map_sha256]
  exact get_fill_byId

end

end Feedback

end AtlasCore
