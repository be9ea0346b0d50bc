import AtlasCore.Lib.Replacing

/-!
# Text streams

A file that is opened in text mode is decoded as it is read, and its line ends are translated on the
way: the decoder keeps an unfinished character and a carriage return at the end of what it was
given, until it is given more.  Reading all of a file at once gives what decoding all of its bytes
and replacing `\r\n` and `\r` gives.
-/

set_option autoImplicit false

namespace Py

/-! ## The incremental decoder

A text file is decoded in blocks.  What a block ends with, half a character or half a line end, is
kept for the next. -/

/-- The bytes are decoded, and what is waited for then. -/
def feedBytes : Due → Bytes → Str × Due
  | due, [] => ([], due)
  | due,
    b :: bs => ((due.step b).1 ++ (feedBytes (due.step b).2 bs).1, (feedBytes (due.step b).2 bs).2)

/-- `codecs.getincrementaldecoder("utf-8")("replace").decode(input, final)`: what the input
completes, and what is still due after it. -/
def Due.decode (due : Due) (input : Bytes) (final : Bool) : Str × Due :=
  let fed := feedBytes due input
  if final then (fed.1 ++ if fed.2.need = 0 then [] else [replacement], .nothing) else fed

/-- How often `\r\n` is in a text; two of them cannot overlap. -/
def countCrlf : Str → ℕ
  | [] => 0
  | c :: rest => (if c = cr ∧ rest.head? = some lf then 1 else 0) + countCrlf rest

/-- How `IncrementalNewlineDecoder` translates what it has, once it has counted the line ends of
each kind. -/
def translateSeen (output : Str) : Str :=
  let crlf := countCrlf output
  let lone := output.count cr - crlf
  let output := if crlf ≠ 0 then replace [cr, lf] [lf] output else output
  if lone ≠ 0 then replace [cr] [lf] output else output

/-- `io.IncrementalNewlineDecoder`, around a decoder of UTF-8: what is due, and whether a carriage
return waits for what follows it. -/
structure NewlineDecoder where
  due : Due
  pendingCr : Bool

/-- `IncrementalNewlineDecoder.decode(input, final)`: a carriage return at the end of a block is
held back, because a line feed may follow. -/
def NewlineDecoder.decode (d : NewlineDecoder) (input : Bytes) (final : Bool) :
    Str × NewlineDecoder :=
  let decoded := d.due.decode input final
  let taken := d.pendingCr && (decoded.1 ≠ [] || final)
  let output := if taken then cr :: decoded.1 else decoded.1
  let held := output.getLast? = some cr && !final
  (translateSeen (if held then output.dropLast else output),
    ⟨decoded.2, held || (d.pendingCr && !taken)⟩)

/-- `handle.read()` of a file in text mode: the decoder is given all of it. -/
def readStream (bs : Bytes) : Str := (NewlineDecoder.decode ⟨.nothing, false⟩ bs true).1

/-- `text.replace("\r\n", "\n").replace("\r", "\n")`: the same translation, of a text that is there
as a whole. -/
def replaceNewlines (text : Str) : Str := replace [cr] [lf] (replace [cr, lf] [lf] text)

/-! ## `\r\n` and `\r`

An induction over a text that takes both characters of a line end at once. -/

/-- Induction over a text in which `\r\n` is one step. -/
theorem crlf_induction {P : Str → Prop} (nil : P []) (crlf : ∀ rest, P rest → P (cr :: lf :: rest))
    (other : ∀ c rest, ¬ (c = cr ∧ rest.head? = some lf) → P rest → P (c :: rest))
    (s : Str) : P s := by
  suffices h : ∀ n (s : Str), s.length ≤ n → P s from h s.length s le_rfl
  intro n
  induction n with
  | zero =>
    intro s hs
    rw [List.length_eq_zero_iff.mp (Nat.le_zero.mp hs)]
    exact nil
  | succ n ih =>
    intro s hs
    match s with
    | [] => exact nil
    | c :: rest =>
      rw [List.length_cons] at hs
      by_cases h : c = cr ∧ rest.head? = some lf
      · obtain ⟨rfl, hhead⟩ := h
        obtain ⟨rest, rfl⟩ := List.head?_eq_some_iff.mp hhead
        rw [List.length_cons] at hs
        exact crlf rest (ih rest (by omega))
      · exact other c rest h (ih rest (by omega))

theorem isPrefixOf_crlf (c : CodePoint) (rest : Str) :
    [cr, lf].isPrefixOf (c :: rest) = decide (c = cr ∧ rest.head? = some lf) := by
  rw [Bool.eq_iff_iff, decide_eq_true_iff, List.isPrefixOf_iff_prefix]
  constructor
  · rintro ⟨more, h⟩
    obtain ⟨rfl, rfl⟩ := List.cons.inj h
    exact ⟨rfl, rfl⟩
  · rintro ⟨rfl, hhead⟩
    obtain ⟨more, rfl⟩ := List.head?_eq_some_iff.mp hhead
    exact ⟨more, rfl⟩

theorem replace_crlf_pair (rest : Str) :
    replace [cr, lf] [lf] (cr :: lf :: rest) = lf :: replace [cr, lf] [lf] rest := by
  rw [replace, replaceFrom, isPrefixOf_crlf, if_pos (by simp)]
  rfl

theorem replace_crlf_other {c : CodePoint} {rest : Str} (h : ¬ (c = cr ∧ rest.head? = some lf)) :
    replace [cr, lf] [lf] (c :: rest) = c :: replace [cr, lf] [lf] rest := by
  rw [replace, replaceFrom, isPrefixOf_crlf, if_neg (by simpa using h)]
  rfl

/-- A text without `\r\n` stays as it is. -/
theorem replace_crlf_eq {s : Str} (h : countCrlf s = 0) : replace [cr, lf] [lf] s = s := by
  induction s with
  | nil => rfl
  | cons c rest ih =>
    rw [countCrlf] at h
    have hc : ¬ (c = cr ∧ rest.head? = some lf) := fun hc ↦ by
      rw [if_pos hc] at h
      omega
    rw [replace_crlf_other hc, ih (by omega)]

/-- A carriage return that is left stood alone. -/
theorem count_replace_crlf (s : Str) :
    (replace [cr, lf] [lf] s).count cr + countCrlf s = s.count cr := by
  induction s using crlf_induction with
  | nil => rfl
  | crlf rest ih =>
    have hcount : countCrlf (cr :: lf :: rest) = 1 + countCrlf rest := by
      rw [countCrlf, if_pos ⟨rfl, rfl⟩, countCrlf, if_neg (fun h ↦ absurd h.1 (by decide)),
        Nat.zero_add]
    rw [replace_crlf_pair, hcount, List.count_cons_of_ne (by decide), List.count_cons_self,
      List.count_cons_of_ne (by decide)]
    omega
  | other c rest h ih =>
    rw [replace_crlf_other h, countCrlf, if_neg h, List.count_cons, List.count_cons]
    omega

theorem replace_cr (s : Str) : replace [cr] [lf] s = s.map fun c ↦ if c = cr then lf else c := by
  induction s with
  | nil => rfl
  | cons c rest ih =>
    rw [replace, replaceFrom, List.map_cons, ← ih]
    by_cases hc : c = cr
    · rw [if_pos (by simp [hc]), if_pos hc]
      rfl
    · rw [if_neg (by simpa using Ne.symm hc), if_neg hc]
      rfl

/-- A text without a carriage return stays as it is. -/
theorem replace_cr_eq {s : Str} (h : cr ∉ s) : replace [cr] [lf] s = s := by
  rw [replace_cr]
  refine (List.map_congr_left fun c hc ↦ ?_).trans (List.map_id s)
  exact if_neg fun heq ↦ h (by rwa [heq] at hc)

/-- Only what is there is replaced. -/
theorem translateSeen_eq (output : Str) : translateSeen output = replaceNewlines output := by
  have hcrlf : (if countCrlf output ≠ 0 then replace [cr, lf] [lf] output else output) =
      replace [cr, lf] [lf] output := by
    split_ifs with h
    · rfl
    · rw [replace_crlf_eq (not_not.mp h)]
  rw [translateSeen, hcrlf, replaceNewlines]
  split_ifs with h
  · rfl
  · have hcount := count_replace_crlf output
    rw [replace_cr_eq]
    refine List.count_eq_zero.mp ?_
    omega

/-- Replacing is what reading in text mode does to line ends. -/
theorem replaceNewlines_eq (text : Str) : replaceNewlines text = universalNewlines text := by
  rw [replaceNewlines, universalNewlines]
  induction text using crlf_induction with
  | nil => rfl
  | crlf rest ih =>
    rw [replace_crlf_pair, newlinesFrom, if_neg (fun h ↦ absurd h.1 (by decide)), if_pos rfl,
      newlinesFrom, if_pos ⟨rfl, rfl⟩, ← ih, replace_cr, replace_cr, List.map_cons,
      if_neg (by decide)]
  | other c rest h ih =>
    have hplain : ∀ d : CodePoint, ¬ (d = lf ∧ false = true) := fun _ h ↦ absurd h.2 (by decide)
    rw [replace_crlf_other h, replace_cr, List.map_cons, ← replace_cr, ih]
    by_cases hc : c = cr
    · rw [if_pos hc, newlinesFrom, if_neg (hplain c), if_pos hc]
      -- the line feed that would be left out is not there
      cases rest with
      | nil => rfl
      | cons d rest =>
        have hd : d ≠ lf := fun hd ↦ h ⟨hc, by rw [hd]; rfl⟩
        have hkept : ¬ (d = lf ∧ true = true) := fun h ↦ hd h.1
        rw [newlinesFrom, newlinesFrom, if_neg (hplain d), if_neg hkept]
    · rw [if_neg hc, newlinesFrom, if_neg (hplain c), if_neg hc]

/-! ## The stream and the buffer

A stream that is read block by block gives what decoding all of it would give. -/

theorem feedBytes_replacing (due : Due) (bs : Bytes) :
    (feedBytes due bs).1 ++ (if (feedBytes due bs).2.need = 0 then [] else [replacement]) =
      replacingFrom due bs := by
  induction bs generalizing due with
  | nil => rfl
  | cons b bs ih => rw [feedBytes, replacingFrom, List.append_assoc, ih]

/-- **A stream reads what is decoded of all the bytes**, with its line ends replaced. -/
theorem readStream_eq (bs : Bytes) : readStream bs = replaceNewlines (decodeReplacing bs) := by
  rw [readStream, NewlineDecoder.decode, ← translateSeen_eq, decodeReplacing,
    ← feedBytes_replacing]
  simp [Due.decode]

/-- And that is what reading a file as text is. -/
theorem readStream_readText (bs : Bytes) : readStream bs = readText bs := by
  rw [readStream_eq, replaceNewlines_eq, readText]

end Py
