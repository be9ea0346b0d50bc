import AtlasCore.Evidence.Base
import AtlasCore.Lib.JsonChars

/-!
# The identity of the initial evidence

`run_started` records a digest of the evidence a run begins with, and a resume computes it again
from the evidence the host hands over.  The digest commits to the snapshot and to the source ids
and content digests, and to nothing else: which lines of a source were kept, and what they said,
can differ between two collections with one identity.

SHA-256 is computed here rather than assumed.  What the results need of it is that the two texts
at hand do not collide (`NoCollision`).
-/

set_option autoImplicit false

namespace AtlasCore

open Py

/-- `digest`: a text is hashed as it is, anything else as JSON. -/
def digest : Json → Option Str
  | .str s => sha256Text s
  | v => (Json.dumps v).bind sha256Text

/-! ## What the digest is taken over

The material of a base, as JSON: what an observation contributes, in which order, and what of it
is left out. -/

/-- The order of `sorted` on pairs of texts. -/
def pairLe (p q : Str × Str) : Prop := p.1 ≠ q.1 ∧ Json.keyLe p.1 q.1 = true ∨
  p.1 = q.1 ∧ Json.keyLe p.2 q.2 = true

instance : DecidableRel pairLe := fun _ _ ↦ inferInstanceAs (Decidable (_ ∨ _))

/-- What the identity keeps of an observation: which source it is of, and the digest of its content.
When it was read, and which lines of it, are left out. -/
def Observation.pair (o : Observation) : Str × Str := (o.sourceId, o.contentSha256)

/-- What the identity leaves out, of what a later check reads. -/
def Observation.window (o : Observation) : ℤ × ℤ × Str := (o.lineStart, o.lineEnd, o.excerpt)

/-- An observation as material: its source, its content, its lines and its excerpt. -/
def Observation.material (o : Observation) : (Str × Str) × ℤ × ℤ × Str := (o.pair, o.window)

/-- A pair of texts as the JSON array of a tuple. -/
def jsonPair (p : Str × Str) : Json := .arr [.str p.1, .str p.2]

namespace EvidenceBase

/-- The pairs of the observations, in their order. -/
def pairs (e : EvidenceBase) : List (Str × Str) := e.observations.map (·.pair)

/-- The pairs of the observations, sorted, so that the order of a base is not part of its identity.
-/
def sortedPairs (e : EvidenceBase) : List (Str × Str) := e.pairs.insertionSort pairLe

/-- `material` in `_evidence_identity`: the snapshot and the sorted pairs, as the document that is
hashed. -/
def identityMaterial (e : EvidenceBase) : Json :=
  .obj [(str "snapshot_id", .str e.snapshot.snapshotId),
    (str "observations", .arr (e.sortedPairs.map jsonPair))]

end EvidenceBase

/-- `_evidence_identity`, or `none` where the material cannot be encoded. -/
def evidenceIdentity : Option EvidenceBase → Option (Option Str × Option Str)
  | none => some (none, none)
  | some e => (digest e.identityMaterial).map fun d ↦ (some e.snapshot.snapshotId, some d)

/-! ## The order of the pairs does not matter -/

theorem keyLe_antisymm : ∀ {s t : Str}, Json.keyLe s t = true → Json.keyLe t s = true → s = t
  | [], [], _, _ => rfl
  | [], _ :: _, _, h => absurd h (by simp [Json.keyLe])
  | _ :: _, [], h, _ => absurd h (by simp [Json.keyLe])
  | c :: s, d :: t, h1, h2 => by
    simp only [Json.keyLe, Bool.or_eq_true, Bool.and_eq_true, decide_eq_true_eq, beq_iff_eq]
      at h1 h2
    rcases h1 with h1 | ⟨rfl, h1⟩
    · rcases h2 with h2 | ⟨rfl, _⟩
      · exact absurd h1 (lt_asymm h2)
      · exact absurd h1 (lt_irrefl _)
    · rcases h2 with h2 | ⟨_, h2⟩
      · exact absurd h2 (lt_irrefl _)
      · rw [keyLe_antisymm h1 h2]

theorem pairLe_total (p q : Str × Str) : pairLe p q ∨ pairLe q p := by
  by_cases h : p.1 = q.1
  · rcases Json.keyLe_total p.2 q.2 with h2 | h2
    · exact .inl (.inr ⟨h, h2⟩)
    · exact .inr (.inr ⟨h.symm, h2⟩)
  · rcases Json.keyLe_total p.1 q.1 with h1 | h1
    · exact .inl (.inl ⟨h, h1⟩)
    · exact .inr (.inl ⟨fun he ↦ h he.symm, h1⟩)

theorem pairLe_antisymm {p q : Str × Str} (h1 : pairLe p q) (h2 : pairLe q p) : p = q := by
  rcases h1 with ⟨hne, h1⟩ | ⟨he, h1⟩
  · rcases h2 with ⟨_, h2⟩ | ⟨he, _⟩
    · exact absurd (keyLe_antisymm h1 h2) hne
    · exact absurd he.symm hne
  · rcases h2 with ⟨hne, _⟩ | ⟨_, h2⟩
    · exact absurd he.symm hne
    · exact Prod.ext he (keyLe_antisymm h1 h2)

theorem pairLe_trans {p q r : Str × Str} (h1 : pairLe p q) (h2 : pairLe q r) : pairLe p r := by
  rcases h1 with ⟨hpq, h1⟩ | ⟨hpq, h1⟩ <;> rcases h2 with ⟨hqr, h2⟩ | ⟨hqr, h2⟩
  · refine .inl ⟨fun he ↦ hpq (keyLe_antisymm h1 ?_), Json.keyLe_trans h1 h2⟩
    rw [he]
    exact h2
  · exact .inl ⟨hqr ▸ hpq, hqr ▸ h1⟩
  · exact .inl ⟨hpq ▸ hqr, hpq ▸ h2⟩
  · exact .inr ⟨hpq.trans hqr, Json.keyLe_trans h1 h2⟩

instance : Std.Total pairLe := ⟨pairLe_total⟩

instance : IsTrans (Str × Str) pairLe := ⟨fun _ _ _ ↦ pairLe_trans⟩

instance : Std.Antisymm pairLe := ⟨fun _ _ ↦ pairLe_antisymm⟩

/-- Sorting by a linear order forgets the order of a list and nothing else. -/
theorem insertionSort_eq_iff {α : Type*} {r : α → α → Prop} [DecidableRel r] [Std.Total r]
    [IsTrans α r] [Std.Antisymm r] {l m : List α} :
    l.insertionSort r = m.insertionSort r ↔ l.Perm m := by
  constructor
  · intro h
    have hl := List.perm_insertionSort r l
    rw [h] at hl
    exact hl.symm.trans (List.perm_insertionSort r m)
  · intro h
    refine List.Perm.eq_of_pairwise' (List.pairwise_insertionSort r l)
      (List.pairwise_insertionSort r m) ?_
    exact (List.perm_insertionSort r l).trans (h.trans (List.perm_insertionSort r m).symm)

theorem jsonPair_injective : Function.Injective jsonPair := by
  rintro ⟨a, b⟩ ⟨c, d⟩ h
  simp only [jsonPair, Json.arr.injEq, List.cons.injEq, Json.str.injEq, and_true] at h
  exact Prod.ext h.1 h.2

/-! ## The text that is hashed

The identity of a base is the digest of one text, from which the snapshot and the pairs can be read
back. -/

/-- The text of the material: what `json.dumps` hands to the hash. -/
def EvidenceBase.identityText (e : EvidenceBase) : Str :=
  Json.render (Json.canon e.identityMaterial)

theorem canonItems_jsonPair (l : List (Str × Str)) :
    Json.canonItems (l.map jsonPair) = l.map jsonPair := by
  induction l with
  | nil => rfl
  | cons p l ih => simp [jsonPair, Json.canonItems, Json.canon, ih]

theorem WFItems_jsonPair (l : List (Str × Str)) : Json.WFItems (l.map jsonPair) := by
  induction l with
  | nil => trivial
  | cons p l ih => simp [jsonPair, Json.WFItems, Json.WF, ih]

theorem everyItem_jsonPair (pInt : ℤ → Bool) (pStr : Str → Bool) (l : List (Str × Str)) :
    Json.everyItem pInt pStr (l.map jsonPair) = l.all fun p ↦ pStr p.1 && pStr p.2 := by
  induction l with
  | nil => rfl
  | cons p l ih => simp [jsonPair, Json.everyItem, Json.every, ih]

/-- `sort_keys` puts the observations first. -/
theorem canon_identityMaterial (e : EvidenceBase) :
    Json.canon e.identityMaterial =
      .obj [(str "observations", .arr (e.sortedPairs.map jsonPair)),
        (str "snapshot_id", .str e.snapshot.snapshotId)] := by
  rw [EvidenceBase.identityMaterial, Json.canon]
  simp only [Json.canonFields, Json.canon, canonItems_jsonPair]
  rfl

theorem WF_identityMaterial (e : EvidenceBase) : Json.WF e.identityMaterial := by
  simp only [EvidenceBase.identityMaterial, Json.WF, Json.WFFields, WFItems_jsonPair, and_true,
    List.map_cons, List.map_nil]
  decide

theorem every_identityMaterial (e : EvidenceBase) (pInt : ℤ → Bool) (pStr : Str → Bool) :
    Json.every pInt pStr e.identityMaterial = (pStr (str "snapshot_id") &&
      pStr e.snapshot.snapshotId && (pStr (str "observations") &&
        e.sortedPairs.all fun p ↦ pStr p.1 && pStr p.2)) := by
  simp [EvidenceBase.identityMaterial, Json.every, Json.everyField, everyItem_jsonPair]

/-- There is no number in the material, so `dumps` writes it. -/
theorem dumps_identityMaterial (e : EvidenceBase) :
    Json.dumps e.identityMaterial = some e.identityText := by
  rw [Json.dumps, if_pos]
  · rfl
  · rw [every_identityMaterial]
    simp

/-- The hash sees the snapshot and the pairs, and nothing else. -/
theorem identityText_eq_iff {a b : EvidenceBase} : a.identityText = b.identityText ↔
    a.snapshot.snapshotId = b.snapshot.snapshotId ∧ a.pairs.Perm b.pairs := by
  constructor
  · intro h
    have hb := dumps_identityMaterial b
    rw [← h] at hb
    have hc := Json.dumps_injective (WF_identityMaterial a) (WF_identityMaterial b)
      (dumps_identityMaterial a) hb
    rw [canon_identityMaterial, canon_identityMaterial] at hc
    simp only [Json.obj.injEq, List.cons.injEq, Prod.mk.injEq, Json.arr.injEq, Json.str.injEq,
      true_and, and_true] at hc
    exact ⟨hc.2, insertionSort_eq_iff.mp (jsonPair_injective.list_map hc.1)⟩
  · rintro ⟨hid, hp⟩
    have hs : a.sortedPairs = b.sortedPairs := insertionSort_eq_iff.mpr hp
    rw [EvidenceBase.identityText, EvidenceBase.identityText, canon_identityMaterial,
      canon_identityMaterial, hid, hs]

/-! ## When the material can be encoded

Ids and digests are hexadecimal, so only the snapshot can keep a base from having an identity. -/

theorem isHex_not_isSurrogate {c : CodePoint} (h : isHex c = true) : isSurrogate c = false := by
  simp only [isHex, Bool.or_eq_true, Bool.and_eq_true, decide_eq_true_eq] at h
  simp only [isSurrogate, Bool.and_eq_false_iff, decide_eq_false_iff_not]
  omega

theorem encodable_of_isHex {s : Str} (h : s.all isHex = true) : encodable s = true :=
  List.all_eq_true.mpr fun c hc ↦ by
    rw [isHex_not_isSurrogate (List.all_eq_true.mp h c hc), Bool.not_false]

theorem printable_of_isHex {s : Str} (h : s.all isHex = true) : Json.printable s = true := by
  rw [List.all_eq_true] at h
  rw [Json.printable, List.all_eq_true]
  intro c hc
  have hhex := h c hc
  simp only [isHex, Bool.or_eq_true, Bool.and_eq_true, decide_eq_true_eq] at hhex
  exact decide_eq_true (by omega)

theorem encodable_of_printable {s : Str} (h : Json.printable s = true) : encodable s = true :=
  Json.noneOf_printable Json.offAscii_isSurrogate h

theorem noneOf_wideBreak_of_printable {s : Str} (h : Json.printable s = true) :
    Json.noneOf Json.isWideBreak s = true := by
  refine Json.noneOf_printable (fun c h1 h2 ↦ ?_) h
  simp only [Json.isWideBreak, Bool.or_eq_false_iff, beq_eq_false_iff_ne]
  omega

theorem encodable_append (s t : Str) : encodable (s ++ t) = (encodable s && encodable t) := by
  simp [encodable]

theorem encodable_of_matchesSha256 {s : Str} (h : matchesSha256 s = true) : encodable s = true := by
  simp only [matchesSha256, Bool.and_eq_true] at h
  split at h
  · rename_i hl
    obtain ⟨t, rfl⟩ := List.getLast?_eq_some_iff.mp hl
    rw [List.dropLast_concat] at h
    rw [encodable_append, encodable_of_isHex h.2]
    rfl
  · exact encodable_of_isHex h.2

theorem Observation.encodable_contentSha256 (o : Observation) :
    encodable o.contentSha256 = true := by
  rcases o.digest_ok with h | h
  · rw [h]
    decide
  · exact encodable_of_matchesSha256 h

/-- A source id was derived from texts that have an encoding, and is one itself. -/
theorem Observation.encodable_ids (o : Observation) :
    encodable o.snapshotId = true ∧ encodable o.sourceId = true := by
  have h := o.deriveSourceId_eq
  simp only [deriveSourceId, sha256Text, encode, Option.map_eq_some_iff] at h
  obtain ⟨d, ⟨bs, hbs, rfl⟩, hd⟩ := h
  constructor
  · split at hbs
    · rename_i he
      simp only [join, encodable_append, Bool.and_eq_true] at he
      exact he.1.1
    · exact absurd hbs (by simp)
  · refine encodable_of_isHex ?_
    rw [← hd]
    refine List.all_eq_true.mpr fun c hc ↦ ?_
    exact List.all_eq_true.mp (sha256_isHex bs) c (List.mem_of_mem_take hc)

/-- Only the snapshot id can keep the material from being encoded. -/
theorem encodable_identityText (e : EvidenceBase) :
    encodable e.identityText = encodable e.snapshot.snapshotId := by
  have hall : (e.sortedPairs.all fun p ↦ encodable p.1 && encodable p.2) = true := by
    refine List.all_eq_true.mpr fun p hp ↦ ?_
    obtain ⟨o, _, rfl⟩ := List.mem_map.mp ((List.mem_insertionSort pairLe).mp hp)
    show (encodable o.sourceId && encodable o.contentSha256) = true
    rw [o.encodable_ids.2, o.encodable_contentSha256]
    rfl
  have hkeys : encodable (str "snapshot_id") = true ∧ encodable (str "observations") = true := by
    decide
  rw [EvidenceBase.identityText, Json.encodable_render, Json.surrogateFree, Json.every_canon,
    every_identityMaterial, hall, hkeys.1, hkeys.2]
  simp

/-- A base with an observation has a snapshot id that can be encoded. -/
theorem EvidenceBase.encodable_of_mem {e : EvidenceBase} {o : Observation}
    (h : o ∈ e.observations) : encodable e.snapshot.snapshotId = true := by
  rw [← e.sameSnapshot o h]
  exact o.encodable_ids.1

/-! ## What a resume accepts

When two bases are to be the same evidence, said of the sources and of the windows and not of the
digest. -/

/-- The two texts do not collide under SHA-256. -/
def NoCollision (a b : EvidenceBase) : Prop :=
  sha256 (utf8 a.identityText) = sha256 (utf8 b.identityText) →
    utf8 a.identityText = utf8 b.identityText

/-- The identity recorded for `a` equals the one computed for `b`: the evidence checks of
`_resume_locked` pass. -/
def Resumes (a b : EvidenceBase) : Prop :=
  ∃ i, evidenceIdentity (some a) = some i ∧ evidenceIdentity (some b) = some i

/-- The two collections hold the same observations, as far as a later check reads them. -/
def SameMaterial (a b : EvidenceBase) : Prop :=
  (a.observations.map (·.material)).Perm (b.observations.map (·.material))

/-- One snapshot, and the same content from the same sources. -/
def SameSources (a b : EvidenceBase) : Prop :=
  a.snapshot.snapshotId = b.snapshot.snapshotId ∧ a.pairs.Perm b.pairs

/-- A source of both collections was kept with the same lines and the same excerpt. -/
def SameWindows (a b : EvidenceBase) : Prop :=
  ∀ o ∈ a.observations, ∀ p ∈ b.observations, o.sourceId = p.sourceId → o.window = p.window

theorem evidenceIdentity_some (e : EvidenceBase) :
    evidenceIdentity (some e) = if encodable e.snapshot.snapshotId then
      some (some e.snapshot.snapshotId, some (sha256 (utf8 e.identityText))) else none := by
  have hd : digest e.identityMaterial = sha256Text e.identityText := by
    rw [← Option.bind_some (f := sha256Text), ← dumps_identityMaterial]
    rfl
  rw [evidenceIdentity, hd, sha256Text, encode, encodable_identityText]
  split <;> rfl

/-- What a resume compares, without the hash. -/
theorem resumes_iff {a b : EvidenceBase} (hcf : NoCollision a b) :
    Resumes a b ↔ encodable a.snapshot.snapshotId = true ∧ SameSources a b := by
  constructor
  · rintro ⟨i, ha, hb⟩
    rw [evidenceIdentity_some] at ha hb
    split at ha
    · rename_i hea
      split at hb
      · rename_i heb
        have hi := (Option.some.inj ha).trans (Option.some.inj hb).symm
        simp only [Prod.mk.injEq, Option.some.injEq] at hi
        refine ⟨hea, identityText_eq_iff.mp ?_⟩
        exact utf8_injective ((encodable_identityText a).trans hea)
          ((encodable_identityText b).trans heb) (hcf hi.2)
      · exact absurd hb (by simp)
    · exact absurd ha (by simp)
  · rintro ⟨hea, hs⟩
    have ht : a.identityText = b.identityText := identityText_eq_iff.mpr hs
    refine ⟨(some a.snapshot.snapshotId, some (sha256 (utf8 a.identityText))), ?_, ?_⟩
    · rw [evidenceIdentity_some, if_pos hea]
    · rw [evidenceIdentity_some, if_pos (hs.1 ▸ hea), ht, hs.1]

theorem material_nodup (e : EvidenceBase) : (e.observations.map (·.material)).Nodup := by
  refine List.Nodup.of_map (fun m ↦ m.1.1) ?_
  rw [List.map_map]
  exact e.distinct

theorem SameWindows.of_sameMaterial {a b : EvidenceBase} (h : SameMaterial a b) :
    SameWindows a b := by
  intro o ho p hp hid
  obtain ⟨q, hq, hqo⟩ := List.mem_map.mp (h.mem_iff.mp (List.mem_map_of_mem ho))
  simp only [Observation.material, Prod.mk.injEq, Observation.pair] at hqo
  obtain rfl := b.eq_of_sourceId hq hp (hqo.1.1.trans hid)
  exact hqo.2.symm

theorem SameSources.mem {a b : EvidenceBase} (hs : SameSources a b) (hw : SameWindows a b)
    {o : Observation} (ho : o ∈ a.observations) :
    o.material ∈ b.observations.map (·.material) := by
  obtain ⟨p, hp, hpo⟩ := List.mem_map.mp (hs.2.mem_iff.mp (List.mem_map_of_mem ho))
  have hwin := hw o ho p hp (Prod.ext_iff.mp hpo).1.symm
  exact List.mem_map.mpr ⟨p, hp, Prod.ext hpo hwin.symm⟩

theorem SameMaterial.of_sameSources {a b : EvidenceBase} (hs : SameSources a b)
    (hw : SameWindows a b) : SameMaterial a b := by
  refine (List.perm_ext_iff_of_nodup (material_nodup a) (material_nodup b)).mpr fun m ↦ ⟨?_, ?_⟩
  · intro hm
    obtain ⟨o, ho, rfl⟩ := List.mem_map.mp hm
    exact hs.mem hw ho
  · intro hm
    obtain ⟨p, hp, rfl⟩ := List.mem_map.mp hm
    have hsym : SameSources b a := ⟨hs.1.symm, hs.2.symm⟩
    exact hsym.mem (fun p hp o ho hid ↦ (hw o ho p hp hid.symm).symm) hp

/-- **What the identity commits to.**  A resume that is accepted grades the material of the
interrupted run exactly when two collections with the snapshot and the sources of these two
cannot differ in what they kept of a source. -/
theorem resumes_sameMaterial_iff (a b : EvidenceBase) (hcf : NoCollision a b) :
    (Resumes a b → SameMaterial a b) ↔ (SameSources a b → SameWindows a b) := by
  rw [resumes_iff hcf]
  constructor
  · intro h hs o ho p hp hid
    -- there is an observation, so the snapshot id can be encoded and the resume is accepted
    exact SameWindows.of_sameMaterial (h ⟨a.encodable_of_mem ho, hs⟩) o ho p hp hid
  · rintro h ⟨_, hs⟩
    exact SameMaterial.of_sameSources hs (h hs)

/-! ## Two windows over one file

The identity keeps no lines: bases that read different lines of the same bytes have one identity. -/

theorem identityText_lines : firstLine.identityText = secondLine.identityText :=
  identityText_eq_iff.mpr ⟨rfl, List.Perm.refl _⟩

theorem noCollision_lines : NoCollision firstLine secondLine := fun _ ↦ by rw [identityText_lines]

theorem resumes_sameMaterial_iff_lines : NoCollision firstLine secondLine ∧
    ((Resumes firstLine secondLine → SameMaterial firstLine secondLine) ↔
      (SameSources firstLine secondLine → SameWindows firstLine secondLine)) :=
  ⟨noCollision_lines, resumes_sameMaterial_iff firstLine secondLine noCollision_lines⟩

/-- The interrupted run read the first line of a file, the host of the resume hands over the second:
the resume is accepted, and it grades another line. -/
theorem otherLine_accepted : ¬ (NoCollision firstLine secondLine →
    Resumes firstLine secondLine → SameMaterial firstLine secondLine) := by
  intro h
  have hs : SameSources firstLine secondLine := ⟨rfl, List.Perm.refl _⟩
  have hr : Resumes firstLine secondLine := (resumes_iff noCollision_lines).mpr ⟨by decide, hs⟩
  have hm := List.perm_singleton.mp (h noCollision_lines hr)
  simp only [firstLine, oneObservation, List.map_cons, List.map_nil,
    List.cons.injEq, and_true, Observation.material, Observation.window, lineOfFile,
    Prod.mk.injEq] at hm
  exact absurd hm.2.1 (by decide)

end AtlasCore
