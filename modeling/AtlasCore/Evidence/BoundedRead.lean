import AtlasCore.Evidence.Collect
import AtlasCore.Lib.TextStream

/-!
# Bounded and unbounded reads

Without a limit `read_within` reads a text stream; with one it takes at most one byte more than the
limit and decodes what it has.  The two return the same text, so a digest that was taken through one
verifies through the other, and `Disk.readWithin`, which tells them apart by the limit only, is
both.

A buffer for a byte more than the limit is had before anything is read, so a limit for which there
is none is an error, however small the file is; so is a negative limit.
-/

set_option autoImplicit false

namespace AtlasCore

open Py

variable {W : Type} (disk : Disk W)

namespace Containment

/-- `read_within`, in its two branches: without a limit as a stream, with one as that many bytes and
one more. -/
def readWithin (maxBytes : Option ℤ) (root path : Str) : Eff Exc W Str := do
  let bytes ← disk.readBytes root path
  match maxBytes with
  | none => return readStream bytes
  | some limit =>
    if limit < 0 then Eff.raise .valueError
    else
      -- `raw.read(max_bytes + 1)`
      match noBuffer disk.memory (limit.toNat + 1) with
      | some e => Eff.raise e
      | none =>
        let data := bytes.take (limit.toNat + 1)
        if limit < data.length then Eff.raise sourceTooLarge
        else return replaceNewlines (decodeReplacing data)

/-- A limit for which there is a buffer. -/
def HasBuffer (limit : ℤ) : Prop := noBuffer disk.memory (limit.toNat + 1) = none

variable {disk} {root path : Str} {w : W} {bytes : Bytes}

theorem readWithin_unbounded (h : disk.Serves root path w bytes) :
    readWithin disk none root path w = (.ok (readText bytes), (disk.readBytes root path w).2) := by
  rw [readWithin, Eff.bind_of_ok (run_eq_of_fst h), readStream_readText]
  rfl

/-- A limit that the file keeps to. -/
theorem readWithin_within (h : disk.Serves root path w bytes) {limit : ℤ}
    (hlimit : (bytes.length : ℤ) ≤ limit) (hbuffer : HasBuffer disk limit) :
    readWithin disk (some limit) root path w =
      (.ok (readText bytes), (disk.readBytes root path w).2) := by
  have htake : bytes.take (limit.toNat + 1) = bytes := List.take_of_length_le (by omega)
  rw [readWithin, Eff.bind_of_ok (run_eq_of_fst h)]
  dsimp only
  rw [if_neg (by omega), hbuffer]
  dsimp only
  rw [htake, if_neg (by omega), replaceNewlines_eq, ← readText]
  rfl

/-- A limit that it does not. -/
theorem readWithin_beyond (h : disk.Serves root path w bytes) {limit : ℤ} (hpos : 0 ≤ limit)
    (hlimit : limit < bytes.length) (hbuffer : HasBuffer disk limit) :
    readWithin disk (some limit) root path w =
      (.error sourceTooLarge, (disk.readBytes root path w).2) := by
  have htake : (bytes.take (limit.toNat + 1)).length = limit.toNat + 1 :=
    List.length_take_of_le (by omega)
  rw [readWithin, Eff.bind_of_ok (run_eq_of_fst h)]
  dsimp only
  rw [if_neg (by omega), hbuffer]
  dsimp only
  rw [htake, if_pos (by omega)]
  rfl

/-- A limit for which there is no buffer. -/
theorem readWithin_unbuffered (h : disk.Serves root path w bytes) {limit : ℤ} (hpos : 0 ≤ limit)
    {e : Exc} (hbuffer : noBuffer disk.memory (limit.toNat + 1) = some e) :
    readWithin disk (some limit) root path w = (.error e, (disk.readBytes root path w).2) := by
  rw [readWithin, Eff.bind_of_ok (run_eq_of_fst h)]
  dsimp only
  rw [if_neg (by omega), hbuffer]
  rfl

/-- A file that is refused or cannot be read. -/
theorem readWithin_unread {e : Exc} {t : W} (h : disk.readBytes root path w = (.error e, t))
    (maxBytes : Option ℤ) : readWithin disk maxBytes root path w = (.error e, t) := by
  rw [readWithin, Eff.bind_of_error h]

/-- The reads of a collection and of a verification are these two branches. -/
theorem readWithin_eq (maxBytes : Option ℕ) :
    readWithin disk (maxBytes.map (↑)) root path = disk.readWithin maxBytes root path := by
  funext w
  rcases h : disk.readBytes root path w with ⟨e | bytes, t⟩
  · rw [readWithin_unread h, Disk.readWithin, Eff.bind_of_error h]
  have hserves : disk.Serves root path w bytes := congrArg Prod.fst h
  cases maxBytes with
  | none =>
    rw [Option.map_none, readWithin_unbounded hserves, h, Disk.readWithin, Eff.bind_of_ok h]
    rfl
  | some limit =>
    rw [Option.map_some, Disk.readWithin, Eff.bind_of_ok h, Disk.refusal, Option.bind_some]
    cases hbuffer : noBuffer disk.memory (limit + 1) with
    | some e =>
      rw [readWithin_unbuffered hserves (by omega) (by simpa using hbuffer), h]
      rfl
    | none =>
      have hhas : HasBuffer disk (limit : ℤ) := hbuffer
      by_cases hlimit : limit < bytes.length
      · rw [readWithin_beyond hserves (by omega) (by omega) hhas, h, if_pos hlimit]
        rfl
      · rw [readWithin_within hserves (by omega) hhas, h, if_neg hlimit]
        rfl

end Containment

/-! ## What was collected verifies

A source that was collected with a limit is verified without one, and reads the same. -/

variable {disk} {classify : Str → Confidentiality} {snapshot : TakenSnapshot} {path : Str}
  {args : CollectArgs} {w : W} {bytes : Bytes}

/-- A source that its limit refuses is not collected. -/
theorem collectObservation_refused (h : disk.Serves snapshot.root path w bytes) {e : Exc}
    (hrefused : disk.refusal args.maxBytes bytes = some e) :
    (collectObservation disk classify snapshot path args w).1 = .error e := by
  have hread : disk.readWithin args.maxBytes snapshot.root path w =
      (.error e, (disk.readBytes snapshot.root path w).2) := by
    rw [Disk.readWithin, Eff.bind_of_ok (run_eq_of_fst h), hrefused]
    rfl
  rw [collectObservation, Eff.bind_of_error hread]

/-- What was collected of a file is fresh wherever the same bytes are read, with whatever limit it
was collected. -/
theorem verifies_of_collected (h : disk.Serves snapshot.root path w bytes) {o : Observation}
    (ho : (collectObservation disk classify snapshot path args w).1 = .ok o) {v : W}
    (hv : disk.Serves snapshot.root path v bytes) : disk.Verifies o snapshot.root v := by
  have hsize : disk.refusal args.maxBytes bytes = none := by
    by_contra hrefused
    obtain ⟨e, hrefused⟩ := Option.ne_none_iff_exists'.mp hrefused
    rw [collectObservation_refused h hrefused] at ho
    cases ho
  obtain ⟨o', hcollected, rfl⟩ :=
    (returns_collectObservation_iff (P := (· = o)) h hsize).mp ⟨o, ho, rfl⟩
  obtain ⟨hlocal, hpath, hdigest, hlines⟩ := collected_verifiable hcollected
  exact (verifies_iff hlocal (hpath ▸ hv)).mpr ⟨hdigest.symm, hlines⟩

/-! ## The two branches agree

The decoder of a stream and the decoding of a buffer translate line ends alike. -/

/-- What reading a file with a limit and without one have to do with each other; a negative limit is
an error of the caller, and so is one for which there is no buffer. -/
structure ReadsAlike (disk : Disk W) (root path : Str) (w : W) (bytes : Bytes) : Prop where
  same : ∀ limit : ℤ, bytes.length ≤ limit → Containment.HasBuffer disk limit →
    Containment.readWithin disk (some limit) root path w =
        Containment.readWithin disk none root path w ∧
      ∃ text, (Containment.readWithin disk none root path w).1 = .ok text
  large : ∀ limit : ℤ, 0 ≤ limit → limit < bytes.length → Containment.HasBuffer disk limit →
    (Containment.readWithin disk (some limit) root path w).1 = .error sourceTooLarge

/-- **Bounded and unbounded reads return the same text**, and what was collected through a bounded
read verifies through the unbounded one. -/
theorem reads_alike (disk : Disk W) (classify : Str → Confidentiality) (snapshot : TakenSnapshot)
    (path : Str) (w : W) (bytes : Bytes) (h : disk.Serves snapshot.root path w bytes) :
    ReadsAlike disk snapshot.root path w bytes ∧
      ∀ (args : CollectArgs) (o : Observation),
        (collectObservation disk classify snapshot path args w).1 = .ok o →
          ∀ v, disk.Serves snapshot.root path v bytes → disk.Verifies o snapshot.root v := by
  refine ⟨⟨fun limit hlimit hbuffer ↦ ?_, fun limit hpos hlimit hbuffer ↦ ?_⟩,
    fun args o ho v hv ↦ verifies_of_collected h ho hv⟩
  · rw [Containment.readWithin_within h hlimit hbuffer, Containment.readWithin_unbounded h]
    exact ⟨rfl, _, rfl⟩
  · rw [Containment.readWithin_beyond h hpos hlimit hbuffer]

theorem reads_alike_threeLines :
    (theFile noon).Serves bareSnapshot.root (str "a.txt") threeLines threeLines ∧
      ReadsAlike (theFile noon) bareSnapshot.root (str "a.txt") threeLines threeLines :=
  ⟨theFile_serves threeLines,
    (reads_alike (theFile noon) (fun _ ↦ .unknown) bareSnapshot (str "a.txt") threeLines threeLines
      (theFile_serves threeLines)).1⟩

/-- A negative limit is less than the length of any file, and not what is too large is raised; for
`sys.maxsize` there is no buffer, and nothing is read. -/
theorem badLimits_raise :
    (theFile noon).Serves bareSnapshot.root (str "a.txt") threeLines threeLines ∧
      ((-1 : ℤ) < threeLines.length ∧
        ¬ (Containment.readWithin (theFile noon) (some (-1)) bareSnapshot.root (str "a.txt")
          threeLines).1 = .error sourceTooLarge) ∧
      ((threeLines.length : ℤ) ≤ 9223372036854775807 ∧
        ¬ Containment.readWithin (theFile noon) (some 9223372036854775807) bareSnapshot.root
          (str "a.txt") threeLines =
            Containment.readWithin (theFile noon) none bareSnapshot.root
              (str "a.txt") threeLines) := by
  have hserves := theFile_serves threeLines
  refine ⟨hserves, ⟨by decide, fun h ↦ ?_⟩, by decide, fun h ↦ ?_⟩
  · rw [Containment.readWithin, Eff.bind_of_ok (run_eq_of_fst hserves)] at h
    exact absurd (Except.error.inj h) (by decide)
  · rw [Containment.readWithin_unbuffered hserves (e := .overflowError) (by decide) (by decide),
      Containment.readWithin_unbounded hserves] at h
    cases congrArg Prod.fst h

end AtlasCore
