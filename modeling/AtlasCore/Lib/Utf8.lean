import AtlasCore.Lib.Text

/-!
# UTF-8, and what a cut does to it

A file is bytes, and a program that is killed leaves a *prefix of bytes* behind, not a prefix of
characters.  This file has the encoder, the strict decoder (an incomplete, overlong or surrogate
sequence is an error, as `errors="strict"` has it), and the three facts anything about a cut file
rests on:

* `decode_utf8` — decoding undoes encoding, and goes on with whatever follows;
* `utf8_take` — a byte prefix of an encoded text is an encoded prefix of the text and then either
  nothing or the first bytes of the next character;
* `decode_utf8_take` — so the decoder accepts a byte prefix exactly when it ends between two
  characters.

The decoder is a step machine: the number of continuation bytes still due, the least code point the
sequence may denote, and the value so far.
-/

set_option autoImplicit false

namespace Py

/-- A byte, as a number below 256. -/
abbrev Byte := Fin 256

/-- The contents of a file, or of a stream. -/
abbrev Bytes := List Byte

instance Byte.neZero : NeZero 256 := ⟨by decide⟩

instance Byte.lawfulBEq : LawfulBEq Byte := inferInstance

instance Bytes.lawfulBEq : LawfulBEq Bytes := inferInstance

/-- The byte of a number, of which the higher bits are dropped. -/
def byte (n : ℕ) : Byte := ⟨n % 256, Nat.mod_lt _ (by decide)⟩

/-- The line feed, as it stands in a file. -/
def lfByte : Byte := 10

/-! ## Encoding

UTF-8, strictly: a lone surrogate has no encoding. -/

/-- The bytes of one character: one to four of them, by its size. -/
def encodeChar (c : CodePoint) : Bytes :=
  if c.val < 0x80 then [byte c.val]
  else if c.val < 0x800 then [byte (0xC0 + c.val / 64), byte (0x80 + c.val % 64)]
  else if c.val < 0x10000 then
    [byte (0xE0 + c.val / 4096), byte (0x80 + c.val / 64 % 64), byte (0x80 + c.val % 64)]
  else
    [byte (0xF0 + c.val / 262144), byte (0x80 + c.val / 4096 % 64), byte (0x80 + c.val / 64 % 64),
      byte (0x80 + c.val % 64)]

/-- The bytes of a text, character by character; of a surrogate too, which Python refuses. -/
def utf8 : Str → Bytes
  | [] => []
  | c :: rest => encodeChar c ++ utf8 rest

/-- Whether a text can be encoded at all: it holds no lone surrogate. -/
def encodable (s : Str) : Bool := s.all fun c ↦ !isSurrogate c

/-- `s.encode("utf-8")`, or `none` where Python raises `UnicodeEncodeError`: a text with a
surrogate. -/
def encode (s : Str) : Option Bytes := if encodable s then some (utf8 s) else none

/-! ## Decoding

The other way: what `bytes.decode` accepts, shortest forms only. -/

/-- Whether a code point is one UTF-8 may denote with a sequence whose least value is `least`. -/
def scalarFrom (least v : ℕ) : Option CodePoint :=
  if h : least ≤ v ∧ v < 0x110000 ∧ ¬ (0xD800 ≤ v ∧ v ≤ 0xDFFF) then some ⟨v, h.2.1⟩ else none

theorem lt_codePoints (b : Byte) : b.val < 0x110000 := by omega

/-- The decoder from a state: `need` continuation bytes are due, the character must denote at least
`least`, and `acc` is its value so far. -/
def decodeFrom : ℕ → ℕ → ℕ → Bytes → Option Str
  | 0, _, _, [] => some []
  | _ + 1, _, _, [] => none
  | 0, _, _, b :: bs =>
    if b.val < 0x80 then (⟨b.val, lt_codePoints b⟩ :: ·) <$> decodeFrom 0 0 0 bs
    else if 0xC2 ≤ b.val ∧ b.val < 0xE0 then decodeFrom 1 0x80 (b.val - 0xC0) bs
    else if 0xE0 ≤ b.val ∧ b.val < 0xF0 then decodeFrom 2 0x800 (b.val - 0xE0) bs
    else if 0xF0 ≤ b.val ∧ b.val < 0xF5 then decodeFrom 3 0x10000 (b.val - 0xF0) bs
    else none
  | need + 1, least, acc, b :: bs =>
    if 0x80 ≤ b.val ∧ b.val < 0xC0 then
      if need = 0 then
        match scalarFrom least (acc * 64 + (b.val - 0x80)) with
        | some c => (c :: ·) <$> decodeFrom 0 0 0 bs
        | none => none
      else decodeFrom need least (acc * 64 + (b.val - 0x80)) bs
    else none

/-- `bytes.decode("utf-8")`, or `none` where Python raises `UnicodeDecodeError`: anything but the
shortest form of a character. -/
def decode (bs : Bytes) : Option Str := decodeFrom 0 0 0 bs

/-- Between two characters there is no value so far. -/
theorem decodeFrom_zero (least acc : ℕ) (bs : Bytes) : decodeFrom 0 least acc bs = decode bs := by
  cases bs <;> rfl

/-- What is decoded does not depend on what follows. -/
theorem decodeFrom_append (more : Bytes) : ∀ {bs : Bytes} {need least acc : ℕ} {s : Str},
    decodeFrom need least acc bs = some s →
      decodeFrom need least acc (bs ++ more) = (s ++ ·) <$> decode more
  | [], 0, least, acc, s, h => by
    rw [decodeFrom, Option.some.injEq] at h
    subst h
    rw [List.nil_append, decodeFrom_zero]
    cases decode more <;> rfl
  | b :: bs, 0, least, acc, s, h => by
    have hchar : ∀ {c : CodePoint}, (c :: ·) <$> decodeFrom 0 0 0 bs = some s →
        (c :: ·) <$> decodeFrom 0 0 0 (bs ++ more) = (s ++ ·) <$> decode more := by
      intro c hc
      obtain ⟨t, ht, rfl⟩ := Option.map_eq_some_iff.mp hc
      rw [decodeFrom_append more ht]
      cases decode more <;> rfl
    rw [List.cons_append]
    simp only [decodeFrom] at h ⊢
    split_ifs at h ⊢ with h1 h2 h3 h4
    · exact hchar h
    · exact decodeFrom_append more h
    · exact decodeFrom_append more h
    · exact decodeFrom_append more h
  | b :: bs, need + 1, least, acc, s, h => by
    rw [List.cons_append]
    simp only [decodeFrom] at h ⊢
    split_ifs at h ⊢ with h1 h2
    · split at h
      · obtain ⟨t, ht, rfl⟩ := Option.map_eq_some_iff.mp h
        simp only [decodeFrom_append more ht]
        cases decode more <;> rfl
      · cases h
    · exact decodeFrom_append more h

/-- A text that grows: what was decoded of its beginning stays. -/
theorem decode_grows {a b : Bytes} (h : a <+: b) {s t : Str} (ha : decode a = some s)
    (hb : decode b = some t) : s <+: t := by
  obtain ⟨more, rfl⟩ := h
  rw [decode, decodeFrom_append more ha] at hb
  obtain ⟨u, -, rfl⟩ := Option.map_eq_some_iff.mp hb
  exact List.prefix_append s u

/-! ## Between two characters

The bytes of two texts, one after the other, are the bytes of the two together; and each character
has at least one. -/

theorem utf8_append (s t : Str) : utf8 (s ++ t) = utf8 s ++ utf8 t := by
  induction s with
  | nil => rfl
  | cons c s ih => rw [List.cons_append, utf8, utf8, ih, List.append_assoc]

theorem encodeChar_ne_nil (c : CodePoint) : encodeChar c ≠ [] := by
  rw [encodeChar]; split_ifs <;> simp

theorem utf8_eq_nil {s : Str} (h : utf8 s = []) : s = [] := by
  cases s with
  | nil => rfl
  | cons c s => exact absurd (List.append_eq_nil_iff.mp h).1 (encodeChar_ne_nil c)

theorem encodeChar_length_pos (c : CodePoint) : 0 < (encodeChar c).length :=
  List.length_pos_of_ne_nil (encodeChar_ne_nil c)

@[simp] theorem decodeFrom_cont {need least acc : ℕ} {b : Byte} {bs : Bytes}
    (h : 0x80 ≤ b.val ∧ b.val < 0xC0) :
    decodeFrom (need + 2) least acc (b :: bs)
      = decodeFrom (need + 1) least (acc * 64 + (b.val - 0x80)) bs := by
  rw [decodeFrom, if_pos h, if_neg (Nat.succ_ne_zero need)]

theorem decodeFrom_last {least acc : ℕ} {b : Byte} {bs : Bytes} {c : CodePoint}
    (h : 0x80 ≤ b.val ∧ b.val < 0xC0) (hc : scalarFrom least (acc * 64 + (b.val - 0x80)) = some c) :
    decodeFrom 1 least acc (b :: bs) = (c :: ·) <$> decodeFrom 0 0 0 bs := by
  rw [decodeFrom, if_pos h, if_pos rfl, hc]

theorem scalarFrom_eq {least v : ℕ} {c : CodePoint} (hv : v = c.val) (hl : least ≤ c.val)
    (hs : isSurrogate c = false) : scalarFrom least v = some c := by
  subst hv
  simp only [isSurrogate, Bool.and_eq_false_iff, decide_eq_false_iff_not] at hs
  rw [scalarFrom, dif_pos ⟨hl, c.isLt, by omega⟩]

/-- One encoded character is read back, whatever follows it. -/
theorem decode_encodeChar {c : CodePoint} (hs : isSurrogate c = false) (bs : Bytes) :
    decode (encodeChar c ++ bs) = (c :: ·) <$> decode bs := by
  have hlt := c.isLt
  rw [decode, encodeChar]
  split_ifs with h1 h2 h3
  · simp only [List.cons_append, List.nil_append, decodeFrom, byte]
    rw [if_pos (by omega)]
    have hc : c.val % 256 = c.val := by omega
    simp only [hc]
    rfl
  · simp only [List.cons_append, List.nil_append]
    rw [decodeFrom, if_neg (by simp only [byte]; omega), if_pos (by simp only [byte]; omega)]
    refine decodeFrom_last (by simp only [byte]; omega) (scalarFrom_eq ?_ (by omega) hs)
    simp only [byte]; omega
  · simp only [List.cons_append, List.nil_append]
    rw [decodeFrom, if_neg (by simp only [byte]; omega), if_neg (by simp only [byte]; omega),
      if_pos (by simp only [byte]; omega), decodeFrom_cont (by simp only [byte]; omega)]
    refine decodeFrom_last (by simp only [byte]; omega) (scalarFrom_eq ?_ (by omega) hs)
    simp only [byte]; omega
  · simp only [List.cons_append, List.nil_append]
    rw [decodeFrom, if_neg (by simp only [byte]; omega), if_neg (by simp only [byte]; omega),
      if_neg (by simp only [byte]; omega), if_pos (by simp only [byte]; omega),
      decodeFrom_cont (by simp only [byte]; omega), decodeFrom_cont (by simp only [byte]; omega)]
    refine decodeFrom_last (by simp only [byte]; omega) (scalarFrom_eq ?_ (by omega) hs)
    simp only [byte]; omega

/-- **Decoding undoes encoding**, and goes on with what follows. -/
theorem decode_utf8 {s : Str} (hs : encodable s = true) (bs : Bytes) :
    decode (utf8 s ++ bs) = (s ++ ·) <$> decode bs := by
  induction s with
  | nil => rw [utf8, List.nil_append]; cases decode bs <;> rfl
  | cons c s ih =>
    rw [encodable, List.all_cons, Bool.and_eq_true, Bool.not_eq_true'] at hs
    rw [utf8, List.append_assoc, decode_encodeChar hs.1, ih hs.2]
    cases decode bs <;> rfl

theorem decode_utf8_self {s : Str} (hs : encodable s = true) : decode (utf8 s) = some s := by
  have h := decode_utf8 hs []
  rw [List.append_nil] at h
  rw [h, decode, decodeFrom]
  simp

theorem utf8_injective {s t : Str} (hs : encodable s = true) (ht : encodable t = true)
    (h : utf8 s = utf8 t) : s = t := by
  have hd := decode_utf8_self hs
  rw [h, decode_utf8_self ht] at hd
  exact (Option.some.inj hd).symm

/-! ## Inside a character

A text that is cut inside a character cannot be decoded. -/

theorem decodeFrom_due_nil (need least acc : ℕ) : decodeFrom (need + 1) least acc [] = none := by
  rw [decodeFrom]

/-- The first bytes of a character, but not all of them, are refused. -/
theorem decode_encodeChar_take (c : CodePoint) {i : ℕ} (hi : 0 < i)
    (hlt : i < (encodeChar c).length) : decode ((encodeChar c).take i) = none := by
  have hc := c.isLt
  rw [decode]
  rw [encodeChar] at hlt ⊢
  split_ifs at hlt ⊢ with h1 h2 h3
  · simp only [List.length_cons, List.length_nil] at hlt; omega
  · obtain rfl : i = 1 := by simp only [List.length_cons, List.length_nil] at hlt; omega
    simp only [List.take_succ_cons, List.take_zero]
    rw [decodeFrom, if_neg (by simp only [byte]; omega), if_pos (by simp only [byte]; omega),
      decodeFrom_due_nil]
  · have h : i = 1 ∨ i = 2 := by simp only [List.length_cons, List.length_nil] at hlt; omega
    rcases h with rfl | rfl <;> simp only [List.take_succ_cons, List.take_zero] <;>
      rw [decodeFrom, if_neg (by simp only [byte]; omega), if_neg (by simp only [byte]; omega),
        if_pos (by simp only [byte]; omega)]
    · rw [decodeFrom_due_nil]
    · rw [decodeFrom_cont (by simp only [byte]; omega), decodeFrom_due_nil]
  · have h : i = 1 ∨ i = 2 ∨ i = 3 := by
      simp only [List.length_cons, List.length_nil] at hlt; omega
    rcases h with rfl | rfl | rfl <;> simp only [List.take_succ_cons, List.take_zero] <;>
      rw [decodeFrom, if_neg (by simp only [byte]; omega), if_neg (by simp only [byte]; omega),
        if_neg (by simp only [byte]; omega), if_pos (by simp only [byte]; omega)]
    · rw [decodeFrom_due_nil]
    · rw [decodeFrom_cont (by simp only [byte]; omega), decodeFrom_due_nil]
    · rw [decodeFrom_cont (by simp only [byte]; omega),
        decodeFrom_cont (by simp only [byte]; omega),
        decodeFrom_due_nil]

/-- Where a byte offset falls in a text: after `j` whole characters, and then `i` bytes into the
next one (`i = 0` between two characters). -/
structure Offset (s : Str) (k : ℕ) where
  /-- The characters that lie wholly before the offset. -/
  chars : ℕ
  /-- How many bytes of the next character lie before it too. -/
  extra : ℕ
  /-- The bytes before the offset. -/
  take_eq : (utf8 s).take k
    = utf8 (s.take chars) ++ ((s.drop chars).head?.elim [] encodeChar).take extra
  /-- The next character is not wholly before it. -/
  extra_lt : extra = 0 ∨ ∃ c, (s.drop chars).head? = some c ∧ extra < (encodeChar c).length

/-- A byte prefix of an encoded text is an encoded prefix, and then some of the next character. -/
theorem utf8_take : ∀ (s : Str) (k : ℕ), Nonempty (Offset s k)
  | [], k => ⟨⟨0, 0, by simp [utf8], .inl rfl⟩⟩
  | c :: s, k => by
    by_cases hk : k < (encodeChar c).length
    · refine ⟨⟨0, k, ?_, .inr ⟨c, rfl, hk⟩⟩⟩
      rw [utf8, List.take_append_of_le_length (Nat.le_of_lt hk)]
      rfl
    · obtain ⟨o⟩ := utf8_take s (k - (encodeChar c).length)
      refine ⟨⟨o.chars + 1, o.extra, ?_, o.extra_lt⟩⟩
      rw [utf8, List.take_append, List.take_of_length_le (by omega), o.take_eq, List.take_succ_cons,
        utf8, List.drop_succ_cons, List.append_assoc]

/-- An offset lies between two characters of a text (or at one of its ends). -/
def OnBoundary (s : Str) (k : ℕ) : Prop := ∃ j, (utf8 s).take k = utf8 (s.take j)

theorem encodable_take {s : Str} (hs : encodable s = true) (j : ℕ) :
    encodable (s.take j) = true := by
  rw [encodable, List.all_eq_true] at hs ⊢
  exact fun c hc ↦ hs c (List.mem_of_mem_take hc)

/-- **The decoder accepts a byte prefix exactly when it ends between two characters.** -/
theorem decode_utf8_take {s : Str} (hs : encodable s = true) (k : ℕ) :
    (decode ((utf8 s).take k)).isSome = true ↔ OnBoundary s k := by
  constructor
  · intro h
    obtain ⟨o⟩ := utf8_take s k
    rcases Nat.eq_zero_or_pos o.extra with h0 | hpos
    · exact ⟨o.chars, by rw [o.take_eq, h0, List.take_zero, List.append_nil]⟩
    · obtain ⟨c, hc, hlt⟩ := o.extra_lt.resolve_left (by omega)
      rw [o.take_eq, decode_utf8 (encodable_take hs _), hc, Option.elim_some,
        decode_encodeChar_take c hpos hlt] at h
      exact absurd h (by simp)
  · rintro ⟨j, hj⟩
    rw [hj, decode_utf8_self (encodable_take hs j)]
    rfl

/-! ## ASCII stands for itself

A byte of ASCII in an encoded text is a character of it. -/

/-- A byte of ASCII never occurs inside another character. -/
theorem ascii_mem_encodeChar {b : Byte} (hb : b.val < 0x80) {c : CodePoint}
    (h : b ∈ encodeChar c) : c.val = b.val := by
  have hc := c.isLt
  rw [encodeChar] at h
  split_ifs at h with h1 h2 h3 <;>
    simp only [List.mem_cons, List.not_mem_nil, or_false, Fin.ext_iff, byte] at h <;> omega

theorem ascii_mem_utf8 {b : Byte} (hb : b.val < 0x80) {s : Str} (h : b ∈ utf8 s) :
    ∃ c ∈ s, c.val = b.val := by
  induction s with
  | nil => exact absurd h List.not_mem_nil
  | cons c s ih =>
    rw [utf8, List.mem_append] at h
    rcases h with h | h
    · exact ⟨c, List.mem_cons_self, ascii_mem_encodeChar hb h⟩
    · obtain ⟨d, hd, heq⟩ := ih h
      exact ⟨d, List.mem_cons_of_mem _ hd, heq⟩

theorem lfByte_mem_utf8 {s : Str} (h : lfByte ∈ utf8 s) : lf ∈ s := by
  obtain ⟨c, hc, heq⟩ := ascii_mem_utf8 (by decide) h
  exact (Fin.ext heq : c = lf) ▸ hc

theorem utf8_lf : utf8 [lf] = [lfByte] := rfl

end Py
