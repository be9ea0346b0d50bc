import AtlasCore.Evidence.Freshness
import AtlasCore.Lib.Replacing

/-!
# Collecting an observation

A file is read inside the root of a snapshot, decoded, cut to a window of lines and recorded with
the digest of its text.  Reading it again and comparing is `verify_observation`.

Two things do not come out as they are meant to.  A window of one blank line is an excerpt that the
observation refuses (`roundTrip_iff`), and the digest is of the text and not of the bytes, so bytes
that read as the same text pass for the same (`freshMeansBytes_iff`).
-/

set_option autoImplicit false

namespace AtlasCore

open Py

/-- A reading of the clock, as `isoformat` has it. -/
structure Moment where
  text : Str
  notBlank : isBlank text = false

/-- The disk, below the containment checks: paths are resolved, and files are opened without
following a link at the end. -/
structure Disk (W : Type) where
  /-- `Path(p).expanduser().resolve()`. -/
  resolve : Str → Eff Exc W Str
  /-- The open with `O_NOFOLLOW`, and the read; `none` where the last component is a link. -/
  openNoFollow : Str → Eff Exc W (Option Bytes)
  /-- `datetime.now(timezone.utc).isoformat()`. -/
  now : W → Moment
  /-- The most bytes that can be had for one buffer. -/
  memory : ℕ

/-- What `collect_observation` may be told: which lines to take, how to find them, and how much may
be read. -/
structure CollectArgs where
  maxLines : ℤ
  lineStart : ℤ := 1
  anchorPrefix : Option Str := none
  confidentiality : Option Confidentiality := none
  maxBytes : Option ℕ := none

/-- `SourceTooLarge`: the file has more bytes than are to be read. -/
def sourceTooLarge : Exc := .other (str "SourceTooLarge")

/-- What asking for a buffer of so many bytes raises: `OverflowError` where `bytes` has no such
size, and `MemoryError` where there is no such memory. -/
def noBuffer (memory n : ℕ) : Option Exc :=
  if 9223372036854775774 < n then some .overflowError
  else if memory < n then some (.other (str "MemoryError"))
  else none

variable {W : Type}

/-! ## Reading inside the root

A file is read under a root that the path does not leave, whole, as bytes, and then decoded. -/

/-- `root / path`, of a root that is resolved. -/
def joinPath (root path : Str) : Str :=
  if endsWith root (str "/") then root ++ path else root ++ str "/" ++ path

/-- `target.relative_to(root).as_posix()`, of two resolved paths; `none` where the target is not
below the root. -/
def relativeTo (root target : Str) : Option Str :=
  if target = root then some (str ".")
  else if startsWith target (joinPath root []) then some (target.drop (joinPath root []).length)
  else none

namespace Disk

variable (disk : Disk W)

/-- `resolve_within`: the path is resolved, links and all, and then has to be below the resolved
root. -/
def resolveWithin (root path : Str) : Eff Exc W Str := do
  let resolvedRoot ← disk.resolve root
  if posix.anchored path then Eff.raise .pathRefused
  else do
    let target ← disk.resolve (joinPath resolvedRoot path)
    if (relativeTo resolvedRoot target).isNone then Eff.raise .pathRefused else return target

/-- The bytes that `read_within` has in hand, before it looks at how many they are. -/
def readBytes (root path : Str) : Eff Exc W Bytes := do
  match ← disk.openNoFollow (← disk.resolveWithin root path) with
  | none => Eff.raise .pathRefused
  | some bytes => return bytes

/-- What a limit raises of a file that is open: the buffer, of a byte more than the limit, is had
before anything is read. -/
def refusal (maxBytes : Option ℕ) (bytes : Bytes) : Option Exc :=
  maxBytes.bind fun limit ↦
    (noBuffer disk.memory (limit + 1)).or
    (if limit < bytes.length then some sourceTooLarge else none)

/-- `read_within`: the text of a file below the root, refused where it is too large. -/
def readWithin (maxBytes : Option ℕ) (root path : Str) : Eff Exc W Str := do
  let bytes ← disk.readBytes root path
  (disk.refusal maxBytes bytes).elim (return readText bytes) Eff.raise

/-- The disk as a source to read again. -/
def sources (reader : Observation → Eff Exc W Str) : Sources W where
  readWithin := disk.readWithin none
  reader := reader

end Disk

/-! ## The window

Which lines of a content an observation quotes. -/

/-- `_first_prefixed_line`: the number of the first line that begins with the anchor. -/
def firstPrefixedLine (content anchor : Str) : Except Exc ℤ :=
  match (splitlines content).findIdx? (startsWith · anchor) with
  | none => .error .valueError
  | some index => .ok (index + 1)

/-- Where the window starts: at the line that is asked for, or at the anchor, of which the source
asks that it be one short line. -/
def windowStart (args : CollectArgs) (content : Str) : Except Exc ℤ :=
  match args.anchorPrefix with
  | none => .ok args.lineStart
  | some anchor =>
    if args.lineStart ≠ 1 then .error .valueError
    else if anchor = [] ∨ lf ∈ anchor ∨ cr ∈ anchor then .error .valueError
    else if 128 < anchor.length then .error .valueError
    else firstPrefixedLine content anchor

/-- `_excerpt`: the excerpt, and the lines it covers. -/
def excerptOf (content : Str) (maxLines lineStart : ℤ) : Except Exc (Str × ℤ × ℤ) :=
  let lines := splitlines content
  if maxLines < 1 then .error .valueError
  else if lineStart < 1 then .error .valueError
  else if lines = [] then
    if lineStart ≠ 1 then .error .valueError else .ok ([], 0, 0)
  else if (lines.length : ℤ) < lineStart then .error .valueError
  else
    let kept := slice lines (lineStart - 1) (lineStart - 1 + maxLines)
    .ok (join [lf] kept, lineStart, lineStart + kept.length - 1)

/-! ## The observation

What is recorded of a file that was read.  The digest is of the whole content, and the excerpt is
of the window. -/

/-- The fields of what was read, before the id of the source is derived. -/
def collectedFields (classify : Str → Confidentiality) (snapshot : TakenSnapshot) (path : Str)
    (args : CollectArgs) (now : Moment) (content digest : Str)
    (window : Str × ℤ × ℤ) : ObservationFields where
  sourceId := []
  sourceType := .localFile
  path := path
  collectedAt := now.text
  contentSha256 := digest
  excerpt := window.1
  lineStart := window.2.1
  lineEnd := window.2.2
  snapshotId := snapshot.snapshotId
  ref := snapshot.ref
  commit := snapshot.commit
  worktreeState := snapshot.worktreeState
  confidentiality := args.confidentiality.getD (classify content)
  totalLines := some (splitlines content).length

/-- What `Observation.create` raises: a `ValueError` of its own, or that of `encode`. -/
def ObservationError.exc : ObservationError → Exc
  | notEncodable => .unicodeEncodeError
  | _ => .valueError

/-- `Observation.create(...)`, as a caller meets it: what is refused is raised. -/
def createOrRaise (o : ObservationFields) : Except Exc Observation :=
  match Observation.create o with
  | .ok o => .ok o
  | .error e => .error e.exc

/-- `collect_observation`, once the content is in hand: the digest is of all of it, the excerpt of
the window. -/
def collected (classify : Str → Confidentiality) (snapshot : TakenSnapshot) (path : Str)
    (args : CollectArgs) (now : Moment) (content : Str) : Except Exc Observation := do
  let lineStart ← windowStart args content
  let window ← excerptOf content args.maxLines lineStart
  match sha256Text content with
  | none => .error .unicodeEncodeError
  | some digest =>
    createOrRaise (collectedFields classify snapshot path args now content digest window)

/-- `collect_observation`: the file is read once, and everything that is recorded comes from that
one reading. -/
def collectObservation (disk : Disk W) (classify : Str → Confidentiality)
    (snapshot : TakenSnapshot) (path : Str) (args : CollectArgs) : Eff Exc W Observation := do
  let content ← disk.readWithin args.maxBytes snapshot.root path
  let world ← Eff.read
  Eff.ofExcept (collected classify snapshot path args (disk.now world) content)

/-! ## The round trip

When verifying what was just collected says that it is fresh, said of the bytes and of the
window. -/

/-- The lines that a window covers, as many of them as the content has. -/
def linesIn (content : Str) (lineStart maxLines : ℤ) : List Str :=
  slice (splitlines content) (lineStart - 1) (lineStart - 1 + maxLines)

/-- The last of them: the end of the window, or of the content where that comes first. -/
def lastLine (content : Str) (lineStart maxLines : ℤ) : ℤ :=
  min (splitlines content).length (lineStart + maxLines - 1)

/-- Reading the path under the root gives these bytes. -/
def Disk.Serves (disk : Disk W) (root path : Str) (w : W) (bytes : Bytes) : Prop :=
  (disk.readBytes root path w).1 = .ok bytes

/-- `verify_observation` reports `fresh` of the observation, on this disk as it is now. -/
def Disk.Verifies (disk : Disk W) (o : Observation) (root : Str) (w : W) : Prop :=
  Returns (verifyObservation (disk.sources fun _ ↦ Eff.raise .osError) o root) w
    fun v ↦ v.result = .fresh

/-- What an observation of a path under a snapshot needs, whatever is read. -/
structure Nameable (snapshot : TakenSnapshot) (path : Str) : Prop where
  notBlank : isBlank path = false
  contained : checkContainedPath path = .ok ()
  ref : checkKnownOrUnknown .ref snapshot.ref = .ok ()
  commit : checkKnownOrUnknown .commit snapshot.commit = .ok ()
  snapshotId : checkKnownOrUnknown .snapshotId snapshot.snapshotId = .ok ()
  derives : (deriveSourceId snapshot.snapshotId .localFile path).isSome = true

/-- The observation of these lines: its excerpt, the numbers of its lines, and how many lines there
were. -/
structure Observes (content : Str) (lineStart maxLines : ℤ) (o : Observation) : Prop where
  excerpt : o.excerpt = join [lf] (linesIn content lineStart maxLines)
  covers : (o.lineStart, o.lineEnd) = if splitlines content = [] then (0, 0)
    else (lineStart, lastLine content lineStart maxLines)
  total : o.totalLines = some ((splitlines content).length : ℤ)

/-- What collecting a window is to do: it returns an observation of the lines, which is fresh
wherever the same bytes are read. -/
def RoundTrip (disk : Disk W) (classify : Str → Confidentiality) (snapshot : TakenSnapshot)
    (path : Str) (args : CollectArgs) (w : W) (bytes : Bytes) : Prop :=
  Returns (collectObservation disk classify snapshot path args) w fun o ↦
    Observes (readText bytes) args.lineStart args.maxLines o ∧
      ∀ v, disk.Serves snapshot.root path v bytes → disk.Verifies o snapshot.root v

variable {disk : Disk W} {classify : Str → Confidentiality} {snapshot : TakenSnapshot} {path : Str}
  {args : CollectArgs} {w : W} {bytes : Bytes} {content : Str} {lineStart maxLines : ℤ}
  {o : Observation}

/-! ## Windows

The lines of a window as a slice of the content, and how many of them there are. -/

section
variable (hstart : 1 ≤ lineStart) (hmax : 1 ≤ maxLines)

include hstart hmax

theorem linesIn_eq : linesIn content lineStart maxLines =
    ((splitlines content).take (lineStart - 1 + maxLines).toNat).drop (lineStart - 1).toNat := by
  have hlow : sliceBound (splitlines content).length (lineStart - 1) =
      min (lineStart - 1).toNat (splitlines content).length := if_neg (by omega)
  have hhigh : sliceBound (splitlines content).length (lineStart - 1 + maxLines) =
      min (lineStart - 1 + maxLines).toNat (splitlines content).length := if_neg (by omega)
  have htake : (splitlines content).take (min (lineStart - 1 + maxLines).toNat
      (splitlines content).length) = (splitlines content).take (lineStart - 1 + maxLines).toNat :=
    (List.take_eq_take_min).symm
  rw [linesIn, slice, hlow, hhigh, htake]
  by_cases hle : (lineStart - 1).toNat ≤ (splitlines content).length
  · rw [Nat.min_eq_left hle]
  · rw [Nat.min_eq_right (by omega), List.drop_eq_nil_of_le (List.length_take_le' _ _),
      List.drop_eq_nil_of_le]
    exact (List.length_take_le' _ _).trans (by omega)

theorem length_linesIn (hend : lineStart ≤ (splitlines content).length) :
    ((linesIn content lineStart maxLines).length : ℤ) =
      lastLine content lineStart maxLines - lineStart + 1 := by
  rw [linesIn_eq hstart hmax, List.length_drop, List.length_take, lastLine]
  omega

/-- What `_excerpt` makes of a window in the source. -/
theorem excerptOf_eq (hend : lineStart ≤ (splitlines content).length) :
    excerptOf content maxLines lineStart = .ok (join [lf] (linesIn content lineStart maxLines),
      lineStart, lastLine content lineStart maxLines) := by
  have hne : splitlines content ≠ [] := by
    intro h
    rw [h] at hend
    simp only [List.length_nil] at hend
    omega
  have hlength := length_linesIn hstart hmax hend
  rw [excerptOf]
  dsimp only
  rw [if_neg (by omega), if_neg (by omega), if_neg hne, if_neg (by omega)]
  refine congrArg Except.ok (Prod.ext rfl (Prod.ext rfl ?_))
  show lineStart + ((linesIn content lineStart maxLines).length : ℤ) - 1 =
    lastLine content lineStart maxLines
  omega

/-- The lines from the first to the last of a window are the window. -/
theorem linesOf_window (hend : lineStart ≤ (splitlines content).length) :
    linesOf content lineStart (lastLine content lineStart maxLines) =
      join [lf] (linesIn content lineStart maxLines) := by
  rw [linesOf]
  refine congrArg (join [lf]) ?_
  rw [linesIn, slice, slice]
  have hlast : sliceBound (splitlines content).length (lastLine content lineStart maxLines) =
      sliceBound (splitlines content).length (lineStart - 1 + maxLines) := by
    rw [sliceBound, sliceBound, lastLine, if_neg (by omega), if_neg (by omega)]
    omega
  rw [hlast]

end

theorem excerptOf_empty (hmax : 1 ≤ maxLines) (hempty : splitlines content = []) :
    excerptOf content maxLines 1 = .ok ([], 0, 0) := by
  rw [excerptOf]
  dsimp only
  rw [if_neg (by omega), if_neg (by omega), if_pos hempty, if_neg (by omega)]

/-! ## What the observation refuses

Of what is collected only the path and the moment can be refused, and an excerpt that is empty where
it should not be. -/

theorem join_eq_nil {sep : Str} (hsep : sep ≠ []) {lines : List Str} :
    join sep lines = [] ↔ lines = [] ∨ lines = [[]] := by
  cases lines with
  | nil => simp [join]
  | cons line rest =>
    cases rest with
    | nil => simp [join]
    | cons next rest => simp [join, hsep]

variable (classify args) in
/-- Only the window decides whether the fields are accepted. -/
theorem postInit_collected (now : Moment) (hnamed : Nameable snapshot path)
    {digest sourceId : Str} {window : Str × ℤ × ℤ} (hdigest : sha256Text content = some digest)
    (hid : deriveSourceId snapshot.snapshotId .localFile path = some sourceId) :
    ({ collectedFields classify snapshot path args now content digest window with
        sourceId := sourceId } : ObservationFields).postInit = .ok () ↔
      checkLineRange window.1 window.2.1 window.2.2 = .ok () ∧
        window.2.2 ≤ (splitlines content).length := by
  have hspec := sha256Text_spec hdigest
  have hmatches : matchesSha256 digest = true := by
    have hlast : digest.getLast? ≠ some lf := by
      intro h
      have hhex := List.all_eq_true.mp hspec.2 lf (List.mem_of_getLast? h)
      exact absurd hhex (by decide)
    rw [matchesSha256, if_neg hlast, Bool.and_eq_true, beq_iff_eq]
    exact hspec
  have hrepo : checkKnownOrUnknown .repo UNKNOWN = .ok () := rfl
  have htotal : checkTotalLines window.2.2 (some ((splitlines content).length : ℤ)) = .ok () ↔
      window.2.2 ≤ (splitlines content).length := by
    rw [checkTotalLines, andThen_eq_ok, refuseIf_eq_ok, refuseIf_eq_ok, decide_eq_false_iff_not,
      decide_eq_false_iff_not]
    omega
  rw [ObservationFields.postInit]
  simp only [andThen_eq_ok, refuseIf_eq_ok, checkDigest_eq_ok,
    ObservationFields.checkSourceId_eq_ok]
  simp only [collectedFields, hnamed.notBlank, hnamed.contained, now.notBlank, hnamed.ref,
    hnamed.commit, hnamed.snapshotId, hmatches, hid, hrepo, htotal, or_true, true_and, and_true]

theorem build_cases (o : ObservationFields) : (∃ h : o.postInit = .ok (), o.build = .ok ⟨o, h⟩) ∨
    ∃ e, o.postInit = .error e ∧ o.build = .error e := by
  rw [ObservationFields.build]
  split
  · rename_i h
    exact .inl ⟨h, rfl⟩
  · rename_i e h
    exact .inr ⟨e, h, rfl⟩

theorem createOrRaise_cases {o : ObservationFields} {sourceId : Str}
    (hid : deriveSourceId o.snapshotId o.sourceType o.path = some sourceId) :
    (∃ made, createOrRaise o = .ok made ∧
      made.toObservationFields = { o with sourceId := sourceId }) ∨
    (∃ e, createOrRaise o = .error e) ∧
      ({ o with sourceId := sourceId } : ObservationFields).postInit ≠ .ok () := by
  rw [createOrRaise, Observation.create, hid]
  dsimp only
  rcases build_cases { o with sourceId := sourceId } with ⟨h, hbuild⟩ | ⟨e, h, hbuild⟩
  · rw [hbuild]
    exact .inl ⟨_, rfl, rfl⟩
  · rw [hbuild, h]
    exact .inr ⟨⟨_, rfl⟩, nofun⟩

section
variable (hnamed : Nameable snapshot path) {now : Moment} {window : Str × ℤ × ℤ} {digest : Str}
  (hstart : windowStart args content = .ok lineStart) (hdigest : sha256Text content = some digest)
  (hwindow : excerptOf content args.maxLines lineStart = .ok window)

include hnamed hstart hdigest hwindow

/-- **What is collected of a content**, where the observation accepts its window. -/
theorem collected_eq_ok (hrange : checkLineRange window.1 window.2.1 window.2.2 = .ok ())
    (htotal : window.2.2 ≤ (splitlines content).length) :
    ∃ o sourceId, collected classify snapshot path args now content = .ok o ∧
      o.toObservationFields =
        { collectedFields classify snapshot path args now content digest window with
          sourceId := sourceId } := by
  obtain ⟨sourceId, hid⟩ := Option.isSome_iff_exists.mp hnamed.derives
  have hpost := (postInit_collected classify args now hnamed hdigest hid).mpr ⟨hrange, htotal⟩
  obtain ⟨made, hmade, hfields⟩ | ⟨-, hrefused⟩ := createOrRaise_cases
    (o := collectedFields classify snapshot path args now content digest window) hid
  · refine ⟨made, sourceId, ?_, hfields⟩
    rw [collected]
    refine Except.bind_eq_ok.mpr ⟨_, hstart, Except.bind_eq_ok.mpr ⟨_, hwindow, ?_⟩⟩
    rw [hdigest]
    exact hmade
  · exact absurd hpost hrefused

/-- And where it does not. -/
theorem collected_ne_ok (hrange : checkLineRange window.1 window.2.1 window.2.2 ≠ .ok ())
    {o : Observation} : collected classify snapshot path args now content ≠ .ok o := by
  obtain ⟨sourceId, hid⟩ := Option.isSome_iff_exists.mp hnamed.derives
  intro hok
  rw [collected] at hok
  obtain ⟨_, hstart', hok⟩ := Except.bind_eq_ok.mp hok
  obtain rfl := Except.ok.inj (hstart.symm.trans hstart')
  obtain ⟨_, hexcerpt, hok⟩ := Except.bind_eq_ok.mp hok
  obtain rfl := Except.ok.inj (hwindow.symm.trans hexcerpt)
  rw [hdigest] at hok
  -- what is made was accepted, and so was its range
  have hmade := createOrRaise_cases hid
    (o := collectedFields classify snapshot path args now content digest window)
  rw [show createOrRaise _ = _ from hok] at hmade
  obtain ⟨made, -, hfields⟩ | ⟨⟨e, he⟩, -⟩ := hmade
  · have haccepted := made.accepted
    rw [hfields] at haccepted
    exact hrange ((postInit_collected classify args now hnamed hdigest hid).mp haccepted).1
  · cases he

end

/-! ## Reading the same bytes again

The same bytes have the same text and the same digest, whatever else has happened. -/

theorem encode_readText : encode (readText bytes) = some (utf8 (readText bytes)) := by
  rw [encode, if_pos (encodable_readText bytes)]

theorem sha256Text_readText :
    sha256Text (readText bytes) = some (sha256 (utf8 (readText bytes))) := by
  rw [sha256Text, encode_readText]
  rfl

/-- What is read of a disk that serves these bytes. -/
theorem readWithin_of_serves {root : Str} {maxBytes : Option ℕ}
    (h : disk.Serves root path w bytes) (hsize : disk.refusal maxBytes bytes = none) :
    (disk.readWithin maxBytes root path w).1 = .ok (readText bytes) := by
  rw [Disk.readWithin, Eff.bind_of_ok (run_eq_of_fst h), hsize]
  rfl

/-- **Fresh is: the digest of the text that is read, and the lines of it.** -/
theorem verifies_iff {root : Str} (hlocal : o.sourceType = .localFile)
    (h : disk.Serves root o.path w bytes) : disk.Verifies o root w ↔
      sha256 (utf8 (readText bytes)) = o.contentSha256 ∧
        linesOf (readText bytes) o.lineStart o.lineEnd = o.excerpt := by
  have hread : ((disk.sources fun _ ↦ Eff.raise .osError).readWithin root o.path w).1 =
      (Reread.content (readText bytes) _ encode_readText).result := readWithin_of_serves h rfl
  exact (fresh_iff hlocal hread : Fresh _ ⟨⟨o.snapshotId, root⟩, [], [], nofun, List.nodup_nil⟩
    o w ↔ _)

/-- What is collected where these bytes are read. -/
theorem returns_collectObservation_iff (h : disk.Serves snapshot.root path w bytes)
    (hsize : disk.refusal args.maxBytes bytes = none) {P : Observation → Prop} :
    Returns (collectObservation disk classify snapshot path args) w P ↔ ∃ o,
      collected classify snapshot path args
        (disk.now (disk.readWithin args.maxBytes snapshot.root path w).2) (readText bytes) = .ok o ∧
          P o := by
  have hread := run_eq_of_fst (readWithin_of_serves h hsize)
  rw [Returns, collectObservation, Eff.bind_of_ok hread, Eff.read_bind_run]
  cases collected classify snapshot path args
    (disk.now (disk.readWithin args.maxBytes snapshot.root path w).2) (readText bytes) with
  | ok o => exact Iff.rfl
  | error e => exact Iff.rfl

/-! ## A window of a content

Every excerpt that is collected is that of some window, and of which one. -/

/-- What `_excerpt` makes of a window that is asked for in the bounds of the content. -/
structure IsWindow (content : Str) (lineStart maxLines : ℤ) (window : Str × ℤ × ℤ) : Prop where
  excerptOf : excerptOf content maxLines lineStart = .ok window
  text : window.1 = join [lf] (linesIn content lineStart maxLines)
  covers : window.2 = if splitlines content = [] then (0, 0)
    else (lineStart, lastLine content lineStart maxLines)
  total : window.2.2 ≤ (splitlines content).length
  again : linesOf content window.2.1 window.2.2 = window.1
  accepted : checkLineRange window.1 window.2.1 window.2.2 = .ok () ↔
    linesIn content lineStart maxLines ≠ [[]]

theorem exists_window (hmax : 1 ≤ maxLines)
    (hstart : 1 ≤ lineStart ∧ lineStart ≤ (splitlines content).length ∨
      content = [] ∧ lineStart = 1) : ∃ window, IsWindow content lineStart maxLines window := by
  rcases hstart with ⟨hstart, hend⟩ | ⟨rfl, rfl⟩
  · have hlength := length_linesIn hstart hmax hend
    have hlast : lineStart ≤ lastLine content lineStart maxLines ∧
        lastLine content lineStart maxLines ≤ (splitlines content).length := by
      rw [lastLine]
      omega
    have hne : splitlines content ≠ [] := by
      intro h
      rw [h, List.length_nil] at hend
      omega
    have hlines : linesIn content lineStart maxLines ≠ [] := by
      intro h
      rw [h, List.length_nil] at hlength
      omega
    refine ⟨_, excerptOf_eq hstart hmax hend, rfl, (if_neg hne).symm, hlast.2,
      linesOf_window hstart hmax hend, ?_⟩
    rw [checkLineRange_eq_ok]
    constructor
    · rintro (⟨hexcerpt, -⟩ | ⟨-, hzero, -⟩)
      · exact fun h ↦ hexcerpt ((join_eq_nil (List.cons_ne_nil _ _)).mpr (.inr h))
      · exact absurd (show lineStart = 0 from hzero) (by omega)
    · intro h
      refine .inl ⟨fun hexcerpt ↦ ?_, hstart, hlast.1⟩
      rcases (join_eq_nil (List.cons_ne_nil _ _)).mp hexcerpt with hnil | hblank
      · exact hlines hnil
      · exact h hblank
  · have hnone : linesIn [] 1 maxLines = [] := by
      rw [linesIn, slice, show splitlines [] = [] from rfl, List.take_nil, List.drop_nil]
    refine ⟨_, excerptOf_empty hmax rfl, ?_, rfl, le_refl _, rfl, ?_⟩
    · rw [hnone]
      rfl
    · rw [hnone]
      exact iff_of_true rfl nofun

/-- **Collecting a window and verifying it is a round trip exactly when the window is not one blank
line.** -/
theorem roundTrip_iff (disk : Disk W) (classify : Str → Confidentiality) (snapshot : TakenSnapshot)
    (path : Str) (args : CollectArgs) (w : W) (bytes : Bytes) (hnamed : Nameable snapshot path)
    (h : disk.Serves snapshot.root path w bytes)
    (hsize : disk.refusal args.maxBytes bytes = none) (hanchor : args.anchorPrefix = none)
    (hmax : 1 ≤ args.maxLines)
    (hstart : 1 ≤ args.lineStart ∧ args.lineStart ≤ (splitlines (readText bytes)).length ∨
      readText bytes = [] ∧ args.lineStart = 1) :
    RoundTrip disk classify snapshot path args w bytes ↔
      linesIn (readText bytes) args.lineStart args.maxLines ≠ [[]] := by
  obtain ⟨window, hwindow⟩ := exists_window hmax hstart
  have hfrom : windowStart args (readText bytes) = .ok args.lineStart := by
    rw [windowStart, hanchor]
  rw [RoundTrip, returns_collectObservation_iff h hsize, ← hwindow.accepted]
  constructor
  · rintro ⟨o, hcollected, -⟩
    by_contra hrange
    exact collected_ne_ok hnamed hfrom sha256Text_readText hwindow.excerptOf hrange hcollected
  · intro hrange
    obtain ⟨o, sourceId, hcollected, hfields⟩ := collected_eq_ok hnamed hfrom
      sha256Text_readText hwindow.excerptOf hrange hwindow.total
    refine ⟨o, hcollected, ⟨?_, ?_, ?_⟩, fun v hv ↦ ?_⟩
    · rw [hfields]
      exact hwindow.text
    · rw [hfields]
      exact hwindow.covers
    · rw [hfields]
      rfl
    · have hlocal : o.sourceType = .localFile := by rw [hfields]; rfl
      have hpath : o.path = path := by rw [hfields]; rfl
      rw [← hpath] at hv
      refine (verifies_iff hlocal hv).mpr ?_
      rw [hfields]
      exact ⟨rfl, hwindow.again⟩

/-! ## A file

Three lines, and what is collected of them. -/

/-- A file that is read again and again: what there is of the world is its bytes. -/
def theFile (now : Moment) : Disk Bytes where
  resolve := fun path ↦ return path
  openNoFollow := fun _ ↦ do return some (← Eff.read)
  now := fun _ ↦ now
  memory := 2 ^ 32

/-- A moment, at which the sources of the examples were read. -/
def noon : Moment := ⟨str "2026-01-01T12:00:00+00:00", by decide⟩

/-- A snapshot without a repository: neither commit nor ref are known. -/
def bareSnapshot : TakenSnapshot where
  snapshotId := str "s1"
  root := str "/repo"
  commit := UNKNOWN
  ref := UNKNOWN
  worktreeState := .unknown

theorem bareSnapshot_nameable : Nameable bareSnapshot (str "a.txt") where
  notBlank := by decide
  contained := by decide
  ref := by decide
  commit := by decide
  snapshotId := by decide
  derives := by decide

/-- It is read as it is, if its path is inside the root. -/
theorem theFile_readBytes (now : Moment) (root path : Str) (bytes : Bytes) :
    (theFile now).readBytes root path bytes =
      (if posix.anchored path = true ∨ (relativeTo root (joinPath root path)).isNone = true then
        .error .pathRefused else .ok bytes, bytes) := by
  have hresolve : (theFile now).resolveWithin root path bytes =
      (if posix.anchored path = true ∨ (relativeTo root (joinPath root path)).isNone = true then
        .error .pathRefused else .ok (joinPath root path), bytes) := by
    rw [Disk.resolveWithin]
    show (if posix.anchored path = true then Eff.raise .pathRefused
      else if (relativeTo root (joinPath root path)).isNone = true then Eff.raise .pathRefused
        else pure (joinPath root path) : Eff Exc Bytes Str) bytes = _
    by_cases hanchored : posix.anchored path = true
    · rw [if_pos hanchored, if_pos (.inl hanchored)]
      rfl
    · by_cases hname : (relativeTo root (joinPath root path)).isNone = true
      · rw [if_neg hanchored, if_pos hname, if_pos (.inr hname)]
        rfl
      · rw [if_neg hanchored, if_neg hname, if_neg (not_or.mpr ⟨hanchored, hname⟩)]
        rfl
  rw [Disk.readBytes]
  by_cases hout : posix.anchored path = true ∨ (relativeTo root (joinPath root path)).isNone = true
  · rw [if_pos hout] at hresolve ⊢
    rw [Eff.bind_of_error hresolve]
  · rw [if_neg hout] at hresolve ⊢
    rw [Eff.bind_of_ok hresolve]
    rfl

theorem theFile_serves (bytes : Bytes) :
    (theFile noon).Serves bareSnapshot.root (str "a.txt") bytes bytes := by
  rw [Disk.Serves, theFile_readBytes, if_neg (by decide)]

/-- A file of a line, a blank line and a line. -/
def threeLines : Bytes := utf8 (str "x\n\ny\n")

/-- A window on its blank line is not collected. -/
theorem blankLine_refused : (theFile noon).Serves bareSnapshot.root (str "a.txt") threeLines
      threeLines ∧
    ¬ RoundTrip (theFile noon) (fun _ ↦ .unknown) bareSnapshot (str "a.txt")
      { maxLines := 1, lineStart := 2 } threeLines threeLines := by
  have hraises : ((collectObservation (theFile noon) (fun _ ↦ .unknown) bareSnapshot (str "a.txt")
      { maxLines := 1, lineStart := 2 }) threeLines).1.isOk = false := by decide +kernel
  refine ⟨theFile_serves _, ?_⟩
  rintro ⟨o, ho, -⟩
  rw [ho] at hraises
  cases hraises

/-- Two lines of it are. -/
theorem roundTrip_iff_twoLines : RoundTrip (theFile noon) (fun _ ↦ .unknown) bareSnapshot
    (str "a.txt") { maxLines := 2, lineStart := 2 } threeLines threeLines :=
  (roundTrip_iff (theFile noon) (fun _ ↦ .unknown) bareSnapshot (str "a.txt")
    { maxLines := 2, lineStart := 2 } threeLines threeLines bareSnapshot_nameable
    (theFile_serves _) rfl rfl (by decide) (.inl (by decide))).mpr (by decide)

/-! ## The same bytes

Fresh is to mean that the bytes are those that were collected.  The digest is of the text, and two
files can have one text. -/

/-- The two contents are not a collision of the digest. -/
def Distinguished (bytes bytes' : Bytes) : Prop :=
  sha256 (utf8 (readText bytes')) = sha256 (utf8 (readText bytes)) →
    readText bytes' = readText bytes

/-- Whatever replaces the content that was observed, it is fresh only if it is the same bytes. -/
def FreshMeansBytes (disk : Disk Bytes) (o : Observation) (root : Str) (bytes : Bytes) : Prop :=
  ∀ bytes', Distinguished bytes bytes' → disk.Verifies o root bytes' → bytes' = bytes

theorem createOrRaise_eq_ok {fields : ObservationFields} (h : createOrRaise fields = .ok o) :
    ∃ sourceId, o.toObservationFields = { fields with sourceId := sourceId } := by
  cases hid : deriveSourceId fields.snapshotId fields.sourceType fields.path with
  | none =>
    rw [createOrRaise, Observation.create, hid] at h
    cases h
  | some sourceId =>
    obtain ⟨made, hmade, hfields⟩ | ⟨⟨e, he⟩, -⟩ := createOrRaise_cases hid
    · obtain rfl := Except.ok.inj (hmade.symm.trans h)
      exact ⟨sourceId, hfields⟩
    · rw [he] at h
      cases h

/-- What an excerpt is cut from has the line it starts at, or no line. -/
theorem bounds_of_excerptOf {window : Str × ℤ × ℤ}
    (h : excerptOf content maxLines lineStart = .ok window) :
    1 ≤ maxLines ∧ (1 ≤ lineStart ∧ lineStart ≤ (splitlines content).length ∨
      splitlines content = [] ∧ lineStart = 1) := by
  rw [excerptOf] at h
  dsimp only at h
  split_ifs at h with hmax hstart hnone hfirst hend
  · exact ⟨by omega, .inr ⟨hnone, not_not.mp hfirst⟩⟩
  · exact ⟨by omega, .inl ⟨by omega, by omega⟩⟩

/-- An excerpt is the lines it covers. -/
theorem linesOf_excerptOf {window : Str × ℤ × ℤ}
    (h : excerptOf content maxLines lineStart = .ok window) :
    linesOf content window.2.1 window.2.2 = window.1 := by
  obtain ⟨hmax, ⟨hstart, hend⟩ | ⟨hnone, rfl⟩⟩ := bounds_of_excerptOf h
  · obtain rfl := Except.ok.inj ((excerptOf_eq hstart hmax hend).symm.trans h)
    exact linesOf_window hstart hmax hend
  · obtain rfl := Except.ok.inj ((excerptOf_empty hmax hnone).symm.trans h)
    rw [linesOf, hnone, slice, List.take_nil, List.drop_nil]
    rfl

/-- What is collected of a content is what verifying it again asks for. -/
theorem collected_verifiable {now : Moment} (h : collected classify snapshot path args now
    (readText bytes) = .ok o) : o.sourceType = .localFile ∧ o.path = path ∧
      o.contentSha256 = sha256 (utf8 (readText bytes)) ∧
        linesOf (readText bytes) o.lineStart o.lineEnd = o.excerpt := by
  obtain ⟨_, -, h⟩ := Except.bind_eq_ok.mp h
  obtain ⟨window, hwindow, h⟩ := Except.bind_eq_ok.mp h
  rw [sha256Text_readText] at h
  obtain ⟨sourceId, hfields⟩ := createOrRaise_eq_ok h
  rw [hfields]
  exact ⟨rfl, rfl, rfl, linesOf_excerptOf hwindow⟩

variable {now : Moment}

/-- What was collected of the file could be read, and so can whatever replaces it. -/
theorem theFile_collected
    (h : (collectObservation (theFile now) classify snapshot path args bytes).1 = .ok o) :
    (∀ bytes', (theFile now).Serves snapshot.root path bytes' bytes') ∧
      (theFile now).refusal args.maxBytes bytes = none := by
  have hread := theFile_readBytes now snapshot.root path
  by_cases hinside : posix.anchored path = true ∨
      (relativeTo snapshot.root (joinPath snapshot.root path)).isNone = true
  · have hrefused := hread bytes
    rw [if_pos hinside] at hrefused
    have hwithin : (theFile now).readWithin args.maxBytes snapshot.root path bytes =
        (.error .pathRefused, bytes) := by
      rw [Disk.readWithin, Eff.bind_of_error hrefused]
    rw [collectObservation, Eff.bind_of_error hwithin] at h
    cases h
  · constructor
    · intro bytes'
      rw [Disk.Serves, hread, if_neg hinside]
    · by_contra hrefused
      obtain ⟨e, hrefused⟩ := Option.ne_none_iff_exists'.mp hrefused
      have hbytes := hread bytes
      rw [if_neg hinside] at hbytes
      have hwithin : (theFile now).readWithin args.maxBytes snapshot.root path bytes =
          (.error e, bytes) := by
        rw [Disk.readWithin, Eff.bind_of_ok hbytes, hrefused]
        rfl
      rw [collectObservation, Eff.bind_of_error hwithin] at h
      cases h

/-- **What verifying against other bytes compares.** -/
theorem theFile_verifies_iff
    (h : (collectObservation (theFile now) classify snapshot path args bytes).1 = .ok o) :
    linesOf (readText bytes) o.lineStart o.lineEnd = o.excerpt ∧
      ∀ bytes', (theFile now).Verifies o snapshot.root bytes' ↔
        sha256 (utf8 (readText bytes')) = sha256 (utf8 (readText bytes)) ∧
          linesOf (readText bytes') o.lineStart o.lineEnd = o.excerpt := by
  obtain ⟨hserves, hsize⟩ := theFile_collected h
  obtain ⟨o', hcollected, rfl⟩ :=
    (returns_collectObservation_iff (P := (· = o)) (hserves bytes) hsize).mp ⟨o, h, rfl⟩
  obtain ⟨hlocal, hpath, hdigest, hlines⟩ := collected_verifiable hcollected
  refine ⟨hlines, fun bytes' ↦ ?_⟩
  rw [← hdigest]
  exact verifies_iff hlocal (by rw [hpath]; exact hserves bytes')

/-- **Fresh means the same bytes exactly where the text that was observed holds neither a line feed
nor a replacement.** -/
theorem freshMeansBytes_iff (now : Moment) (classify : Str → Confidentiality)
    (snapshot : TakenSnapshot) (path : Str) (args : CollectArgs) (bytes : Bytes) (o : Observation)
    (h : (collectObservation (theFile now) classify snapshot path args bytes).1 = .ok o) :
    FreshMeansBytes (theFile now) o snapshot.root bytes ↔
      lf ∉ readText bytes ∧ replacement ∉ readText bytes := by
  obtain ⟨hlines, hverifies⟩ := theFile_verifies_iff h
  rw [← readText_unique]
  constructor
  · intro hfresh bytes' htext
    refine hfresh bytes' (fun _ ↦ htext) ((hverifies bytes').mpr ?_)
    rw [htext]
    exact ⟨rfl, hlines⟩
  · intro hunique bytes' hdistinguished hfresh
    exact hunique bytes' (hdistinguished ((hverifies bytes').mp hfresh).1)

theorem exists_ok_of_isOk {α : Type} {x : Except Exc α} (h : x.isOk = true) : ∃ a, x = .ok a := by
  cases x with
  | ok a => exact ⟨a, rfl⟩
  | error e => cases h

/-- A line with a carriage return and a line feed. -/
def crlfLine : Bytes := utf8 (str "x\r\n")

/-- With another line ending it is still fresh. -/
theorem otherLineEnding_fresh : ∃ o,
    (collectObservation (theFile noon) (fun _ ↦ .unknown) bareSnapshot (str "a.txt")
      { maxLines := 80 } crlfLine).1 = .ok o ∧
    ¬ FreshMeansBytes (theFile noon) o bareSnapshot.root crlfLine := by
  obtain ⟨o, ho⟩ := exists_ok_of_isOk (show ((collectObservation (theFile noon) (fun _ ↦ .unknown)
    bareSnapshot (str "a.txt") { maxLines := 80 }) crlfLine).1.isOk = true by decide +kernel)
  obtain ⟨hlines, hverifies⟩ := theFile_verifies_iff ho
  have htext : readText (utf8 (str "x\n")) = readText crlfLine := by decide
  refine ⟨o, ho, fun hfresh ↦ ?_⟩
  have hsame := hfresh (utf8 (str "x\n")) (fun _ ↦ htext)
    ((hverifies _).mpr (by rw [htext]; exact ⟨rfl, hlines⟩))
  exact absurd hsame (by decide)

/-- A text without a line feed. -/
theorem freshMeansBytes_iff_oneLine : ∃ o,
    (collectObservation (theFile noon) (fun _ ↦ .unknown) bareSnapshot (str "a.txt")
      { maxLines := 80 } (utf8 (str "x"))).1 = .ok o ∧
    FreshMeansBytes (theFile noon) o bareSnapshot.root (utf8 (str "x")) := by
  obtain ⟨o, ho⟩ := exists_ok_of_isOk (show ((collectObservation (theFile noon) (fun _ ↦ .unknown)
    bareSnapshot (str "a.txt") { maxLines := 80 }) (utf8 (str "x"))).1.isOk = true by
      decide +kernel)
  exact ⟨o, ho, (freshMeansBytes_iff noon (fun _ ↦ .unknown) bareSnapshot (str "a.txt")
    { maxLines := 80 } (utf8 (str "x")) o ho).mpr (by decide)⟩

end AtlasCore
