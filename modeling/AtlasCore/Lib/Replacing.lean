import AtlasCore.Lib.Lines
import AtlasCore.Lib.Utf8

/-!
# Decoding with replacement

`bytes.decode("utf-8", errors="replace")` never fails: what is no character becomes U+FFFD, and the
decoder goes on with the first byte that could not belong to it.  Reading a file as text does this
and then turns `\r\n` and `\r` into `\n`.

Both steps lose something.  `readText_unique` says how much: a text determines the bytes it was read
from exactly when it holds neither a line feed nor U+FFFD.
-/

set_option autoImplicit false

namespace Py

/-- U+FFFD, which stands for bytes that are no character. -/
def replacement : CodePoint := 0xFFFD

/-- What the decoder waits for: how many continuation bytes, between which values the next of them
must lie, and the value so far. -/
structure Due where
  need : ℕ
  low : ℕ
  high : ℕ
  acc : ℕ

/-- Between two characters, where no byte is waited for. -/
def Due.nothing : Due := ⟨0, 0, 0, 0⟩

/-- A byte between two characters: what is read, and what is waited for then. -/
def firstByte (b : Byte) : Str × Due :=
  if b.val < 0x80 then ([⟨b.val, lt_codePoints b⟩], .nothing)
  else if 0xC2 ≤ b.val ∧ b.val < 0xE0 then ([], ⟨1, 0x80, 0xBF, b.val - 0xC0⟩)
  else if 0xE0 ≤ b.val ∧ b.val < 0xF0 then
    ([],
      ⟨2, if b.val = 0xE0 then 0xA0 else 0x80, if b.val = 0xED then 0x9F else 0xBF, b.val - 0xE0⟩)
  else if 0xF0 ≤ b.val ∧ b.val < 0xF5 then
    ([],
      ⟨3, if b.val = 0xF0 then 0x90 else 0x80, if b.val = 0xF4 then 0x8F else 0xBF, b.val - 0xF0⟩)
  else ([replacement], .nothing)

/-- One byte: it begins a character, goes on with one, or breaks one off. -/
def Due.step (due : Due) (b : Byte) : Str × Due :=
  match due.need with
  | 0 => firstByte b
  | need + 1 =>
    if due.low ≤ b.val ∧ b.val ≤ due.high then
      if need = 0 then
        ([⟨(due.acc * 64 + (b.val - 0x80)) % 0x110000, Nat.mod_lt _ (by decide)⟩], .nothing)
      else ([], ⟨need, 0x80, 0xBF, due.acc * 64 + (b.val - 0x80)⟩)
    else (replacement :: (firstByte b).1, (firstByte b).2)

/-- The rest of a file; a character that it breaks off in is replaced. -/
def replacingFrom : Due → Bytes → Str
  | due, [] => if due.need = 0 then [] else [replacement]
  | due, b :: bs => (due.step b).1 ++ replacingFrom (due.step b).2 bs

/-- `bytes.decode("utf-8", errors="replace")`, byte by byte. -/
def decodeReplacing (bs : Bytes) : Str := replacingFrom .nothing bs

/-- What a file is read as in text mode, with `errors="replace"`. -/
def readText (bs : Bytes) : Str := universalNewlines (decodeReplacing bs)

/-! ## What was encoded is read

Decoding the bytes of a text gives the text, also in pieces. -/

theorem replacingFrom_cont {need low high acc : ℕ} {b : Byte} {bs : Bytes}
    (h : low ≤ b.val ∧ b.val ≤ high) :
    replacingFrom ⟨need + 2, low, high, acc⟩ (b :: bs) =
      replacingFrom ⟨need + 1, 0x80, 0xBF, acc * 64 + (b.val - 0x80)⟩ bs := by
  rw [replacingFrom, Due.step]
  dsimp only
  rw [if_pos h, if_neg (Nat.succ_ne_zero need)]
  rfl

theorem replacingFrom_last {low high acc : ℕ} {b : Byte} {bs : Bytes} {c : CodePoint}
    (h : low ≤ b.val ∧ b.val ≤ high) (hc : acc * 64 + (b.val - 0x80) = c.val) :
    replacingFrom ⟨1, low, high, acc⟩ (b :: bs) = c :: decodeReplacing bs := by
  rw [replacingFrom, Due.step]
  dsimp only
  rw [if_pos h, if_pos rfl]
  refine congrArg (· :: decodeReplacing bs) (Fin.ext ?_)
  show (acc * 64 + (b.val - 0x80)) % 0x110000 = c.val
  rw [hc, Nat.mod_eq_of_lt c.isLt]

theorem decodeReplacing_cons (b : Byte) (bs : Bytes) :
    decodeReplacing (b :: bs) = (firstByte b).1 ++ replacingFrom (firstByte b).2 bs := rfl

theorem decodeReplacing_encodeChar {c : CodePoint} (hs : isSurrogate c = false) (bs : Bytes) :
    decodeReplacing (encodeChar c ++ bs) = c :: decodeReplacing bs := by
  have hlt := c.isLt
  simp only [isSurrogate, Bool.and_eq_false_iff, decide_eq_false_iff_not] at hs
  rw [encodeChar]
  split_ifs with h1 h2 h3
  · rw [List.cons_append, List.nil_append, decodeReplacing_cons, firstByte,
      if_pos (by simp only [byte]; omega)]
    refine congrArg (· :: decodeReplacing bs) (Fin.ext ?_)
    simp only [byte]
    omega
  · rw [List.cons_append, List.cons_append, List.nil_append, decodeReplacing_cons, firstByte,
      if_neg (by simp only [byte]; omega), if_pos (by simp only [byte]; omega)]
    exact replacingFrom_last (by simp only [byte]; omega) (by simp only [byte]; omega)
  · simp only [List.cons_append, List.nil_append]
    rw [decodeReplacing_cons, firstByte, if_neg (by simp only [byte]; omega),
      if_neg (by simp only [byte]; omega), if_pos (by simp only [byte]; omega)]
    dsimp only
    rw [List.nil_append, replacingFrom_cont]
    · exact replacingFrom_last (by simp only [byte]; omega) (by simp only [byte]; omega)
    · constructor <;> split_ifs <;> simp only [byte] at * <;> omega
  · simp only [List.cons_append, List.nil_append]
    rw [decodeReplacing_cons, firstByte, if_neg (by simp only [byte]; omega),
      if_neg (by simp only [byte]; omega), if_neg (by simp only [byte]; omega),
      if_pos (by simp only [byte]; omega)]
    dsimp only
    rw [List.nil_append, replacingFrom_cont, replacingFrom_cont (by simp only [byte]; omega)]
    · exact replacingFrom_last (by simp only [byte]; omega) (by simp only [byte]; omega)
    · constructor <;> split_ifs <;> simp only [byte] at * <;> omega

/-- **What was encoded is decoded**, whatever follows. -/
theorem decodeReplacing_utf8 {s : Str} (hs : encodable s = true) (bs : Bytes) :
    decodeReplacing (utf8 s ++ bs) = s ++ decodeReplacing bs := by
  induction s with
  | nil => rfl
  | cons c s ih =>
    rw [encodable, List.all_cons, Bool.and_eq_true, Bool.not_eq_true'] at hs
    rw [utf8, List.append_assoc, decodeReplacing_encodeChar hs.1, ih hs.2, List.cons_append]

/-! ## What is read without a replacement was encoded

A text that was decoded with replacements and shows none is the text that was encoded. -/

/-- The bytes of an unfinished character, as the decoder remembers them. -/
inductive Spells : Due → Bytes → Prop where
  | nothing : Spells .nothing []
  | oneOfTwo {a : ℕ} : 2 ≤ a → a < 0x20 → Spells ⟨1, 0x80, 0xBF, a⟩ [byte (0xC0 + a)]
  | oneOfThree {a low high : ℕ} : a < 0x10 → 0x80 ≤ low → high ≤ 0xBF → (a = 0 → 0xA0 ≤ low) →
      (a = 0xD → high ≤ 0x9F) → Spells ⟨2, low, high, a⟩ [byte (0xE0 + a)]
  | twoOfThree {a : ℕ} : 0x20 ≤ a → a < 0x400 → ¬ (0x360 ≤ a ∧ a < 0x380) →
      Spells ⟨1, 0x80, 0xBF, a⟩ [byte (0xE0 + a / 64), byte (0x80 + a % 64)]
  | oneOfFour {a low high : ℕ} : a < 5 → 0x80 ≤ low → high ≤ 0xBF → (a = 0 → 0x90 ≤ low) →
      (a = 4 → high ≤ 0x8F) → Spells ⟨3, low, high, a⟩ [byte (0xF0 + a)]
  | twoOfFour {a : ℕ} : 0x10 ≤ a → a < 0x110 →
      Spells ⟨2, 0x80, 0xBF, a⟩ [byte (0xF0 + a / 64), byte (0x80 + a % 64)]
  | threeOfFour {a : ℕ} : 0x400 ≤ a → a < 0x4400 →
      Spells ⟨1, 0x80, 0xBF, a⟩
        [byte (0xF0 + a / 4096), byte (0x80 + a / 64 % 64), byte (0x80 + a % 64)]

/-- What one byte does where nothing was replaced: `out` is read, and the rest remembered. -/
structure Advances (before : Bytes) (b : Byte) (out : Str) (due : Due) : Prop where
  spelled : ∃ after, Spells due after ∧ utf8 out ++ after = before ++ [b]
  encodable : encodable out = true

/-- What one byte does where something is replaced. -/
structure Recovers (out : Str) (due : Due) : Prop where
  replaced : replacement ∈ out
  spelled : ∃ after, Spells due after
  encodable : encodable out = true

theorem byte_val (b : Byte) : byte b.val = b := Fin.ext (Nat.mod_eq_of_lt b.isLt)

theorem byte_eq {n : ℕ} {b : Byte} (h : n = b.val) : byte n = b := by rw [h, byte_val]

theorem spells_two {b : Byte} (h : 0xC2 ≤ b.val ∧ b.val < 0xE0) :
    Spells ⟨1, 0x80, 0xBF, b.val - 0xC0⟩ [b] := by
  have hspells := Spells.oneOfTwo (a := b.val - 0xC0) (by omega) (by omega)
  rwa [Nat.add_sub_cancel' (by omega), byte_val] at hspells

theorem spells_three {b : Byte} (h : 0xE0 ≤ b.val ∧ b.val < 0xF0) :
    Spells ⟨2, if b.val = 0xE0 then 0xA0 else 0x80, if b.val = 0xED then 0x9F else 0xBF,
      b.val - 0xE0⟩ [b] := by
  have hspells : Spells ⟨2, if b.val = 0xE0 then 0xA0 else 0x80,
      if b.val = 0xED then 0x9F else 0xBF, b.val - 0xE0⟩ [byte (0xE0 + (b.val - 0xE0))] := by
    refine .oneOfThree (by omega) ?_ ?_ (fun _ ↦ ?_) (fun _ ↦ ?_)
    · split_ifs <;> omega
    · split_ifs <;> omega
    · rw [if_pos (by omega)]
    · rw [if_pos (by omega)]
  rwa [Nat.add_sub_cancel' h.1, byte_val] at hspells

theorem spells_four {b : Byte} (h : 0xF0 ≤ b.val ∧ b.val < 0xF5) :
    Spells ⟨3, if b.val = 0xF0 then 0x90 else 0x80, if b.val = 0xF4 then 0x8F else 0xBF,
      b.val - 0xF0⟩ [b] := by
  have hspells : Spells ⟨3, if b.val = 0xF0 then 0x90 else 0x80,
      if b.val = 0xF4 then 0x8F else 0xBF, b.val - 0xF0⟩ [byte (0xF0 + (b.val - 0xF0))] := by
    refine .oneOfFour (by omega) ?_ ?_ (fun _ ↦ ?_) (fun _ ↦ ?_)
    · split_ifs <;> omega
    · split_ifs <;> omega
    · rw [if_pos (by omega)]
    · rw [if_pos (by omega)]
  rwa [Nat.add_sub_cancel' h.1, byte_val] at hspells

theorem encodable_singleton {c : CodePoint} : encodable [c] = !isSurrogate c := by
  rw [encodable, List.all_cons, List.all_nil, Bool.and_true]

theorem firstByte_cases (b : Byte) : Advances [] b (firstByte b).1 (firstByte b).2 ∨
    Recovers (firstByte b).1 (firstByte b).2 := by
  rw [firstByte]
  by_cases h1 : b.val < 0x80
  · rw [if_pos h1]
    refine .inl ⟨⟨[], .nothing, ?_⟩, ?_⟩
    · rw [utf8, utf8, encodeChar, if_pos h1, byte_val]
      rfl
    · rw [encodable_singleton, isSurrogate, Bool.not_eq_true', Bool.and_eq_false_iff,
        decide_eq_false_iff_not, decide_eq_false_iff_not]
      exact .inl (by dsimp only; omega)
  rw [if_neg h1]
  by_cases h2 : 0xC2 ≤ b.val ∧ b.val < 0xE0
  · rw [if_pos h2]
    exact .inl ⟨⟨_, spells_two h2, rfl⟩, rfl⟩
  rw [if_neg h2]
  by_cases h3 : 0xE0 ≤ b.val ∧ b.val < 0xF0
  · rw [if_pos h3]
    exact .inl ⟨⟨_, spells_three h3, rfl⟩, rfl⟩
  rw [if_neg h3]
  by_cases h4 : 0xF0 ≤ b.val ∧ b.val < 0xF5
  · rw [if_pos h4]
    exact .inl ⟨⟨_, spells_four h4, rfl⟩, rfl⟩
  · rw [if_neg h4]
    exact .inr ⟨List.mem_cons_self, ⟨[], .nothing⟩, rfl⟩

/-- A continuation byte that is not the last. -/
theorem step_cont {need low high acc : ℕ} {b : Byte} (h : low ≤ b.val ∧ b.val ≤ high) :
    Due.step ⟨need + 2, low, high, acc⟩ b =
      ([], ⟨need + 1, 0x80, 0xBF, acc * 64 + (b.val - 0x80)⟩) := by
  rw [Due.step]
  dsimp only
  rw [if_pos h, if_neg (Nat.succ_ne_zero need)]

/-- The last one. -/
theorem step_last {low high acc : ℕ} {b : Byte} {c : CodePoint} (h : low ≤ b.val ∧ b.val ≤ high)
    (hc : acc * 64 + (b.val - 0x80) = c.val) :
    Due.step ⟨1, low, high, acc⟩ b = ([c], .nothing) := by
  rw [Due.step]
  dsimp only
  rw [if_pos h, if_pos rfl]
  refine congrArg (fun c ↦ ([c], Due.nothing)) (Fin.ext ?_)
  show (acc * 64 + (b.val - 0x80)) % 0x110000 = c.val
  rw [hc, Nat.mod_eq_of_lt c.isLt]

/-- A byte that does not continue a character replaces it, and begins the next. -/
theorem step_stray {need low high acc : ℕ} {b : Byte} (h : ¬ (low ≤ b.val ∧ b.val ≤ high)) :
    Recovers (Due.step ⟨need + 1, low, high, acc⟩ b).1
      (Due.step ⟨need + 1, low, high, acc⟩ b).2 := by
  rw [Due.step]
  dsimp only
  rw [if_neg h]
  have hencodable : encodable (firstByte b).1 = true := by
    rcases firstByte_cases b with hfirst | hfirst
    · exact hfirst.encodable
    · exact hfirst.encodable
  refine ⟨List.mem_cons_self, ?_, ?_⟩
  · rcases firstByte_cases b with hfirst | hfirst
    · obtain ⟨after, hafter, -⟩ := hfirst.spelled
      exact ⟨after, hafter⟩
    · exact hfirst.spelled
  · rw [encodable, List.all_cons]
    exact hencodable

/-- The last byte of a character. -/
theorem advances_last {low high acc : ℕ} {b : Byte} {before : Bytes} {c : CodePoint}
    (h : low ≤ b.val ∧ b.val ≤ high) (hc : acc * 64 + (b.val - 0x80) = c.val)
    (hs : ¬ (0xD800 ≤ c.val ∧ c.val ≤ 0xDFFF)) (hb : encodeChar c = before ++ [b]) :
    Advances before b (Due.step ⟨1, low, high, acc⟩ b).1 (Due.step ⟨1, low, high, acc⟩ b).2 := by
  rw [step_last h hc]
  refine ⟨⟨[], .nothing, ?_⟩, ?_⟩
  · rw [utf8, utf8, hb, List.append_nil, List.append_nil]
  · rw [encodable_singleton, isSurrogate, Bool.not_eq_true', Bool.and_eq_false_iff,
      decide_eq_false_iff_not, decide_eq_false_iff_not]
    omega

/-- The character of a value. -/
theorem exists_codePoint {v : ℕ} (h : v < 0x110000) : ∃ c : CodePoint, v = c.val := ⟨⟨v, h⟩, rfl⟩

/-- **One byte.** -/
theorem Spells.step {due : Due} {before : Bytes} (h : Spells due before) (b : Byte) :
    Advances before b (due.step b).1 (due.step b).2 ∨ Recovers (due.step b).1 (due.step b).2 := by
  have hin : ∀ {need low high acc : ℕ},
      (low ≤ b.val ∧ b.val ≤ high → Advances before b (Due.step ⟨need + 1, low, high, acc⟩ b).1
        (Due.step ⟨need + 1, low, high, acc⟩ b).2) →
      Advances before b (Due.step ⟨need + 1, low, high, acc⟩ b).1
        (Due.step ⟨need + 1, low, high, acc⟩ b).2 ∨
      Recovers (Due.step ⟨need + 1, low, high, acc⟩ b).1
        (Due.step ⟨need + 1, low, high, acc⟩ b).2 :=
    fun hcontinues ↦ (em _).imp hcontinues step_stray
  cases h with
  | nothing => exact firstByte_cases b
  | @oneOfTwo a hlow hhigh =>
    refine hin fun hb ↦ ?_
    obtain ⟨c, hc⟩ := exists_codePoint (show a * 64 + (b.val - 0x80) < 0x110000 by omega)
    refine advances_last hb hc (by omega) ?_
    rw [encodeChar, if_neg (by omega), if_pos (by omega),
      byte_eq (show 0x80 + c.val % 64 = b.val by omega), show c.val / 64 = a by omega]
    rfl
  | @oneOfThree a low high hlt hlow hhigh hzero hsurrogate =>
    refine hin fun hb ↦ ?_
    rw [step_cont hb]
    have hspells : Spells ⟨1, 0x80, 0xBF, a * 64 + (b.val - 0x80)⟩ _ :=
      .twoOfThree (by omega) (by omega) (by omega)
    refine ⟨⟨_, hspells, ?_⟩, rfl⟩
    rw [byte_eq (show 0x80 + (a * 64 + (b.val - 0x80)) % 64 = b.val by omega),
      show (a * 64 + (b.val - 0x80)) / 64 = a by omega]
    rfl
  | @twoOfThree a hlow hhigh hsurrogate =>
    refine hin fun hb ↦ ?_
    obtain ⟨c, hc⟩ := exists_codePoint (show a * 64 + (b.val - 0x80) < 0x110000 by omega)
    refine advances_last hb hc (by omega) ?_
    rw [encodeChar, if_neg (by omega), if_neg (by omega), if_pos (by omega),
      byte_eq (show 0x80 + c.val % 64 = b.val by omega), show c.val / 64 = a by omega,
      show c.val / 4096 = a / 64 by omega]
    rfl
  | @oneOfFour a low high hlt hlow hhigh hzero hlast =>
    refine hin fun hb ↦ ?_
    rw [step_cont hb]
    have hspells : Spells ⟨2, 0x80, 0xBF, a * 64 + (b.val - 0x80)⟩ _ :=
      .twoOfFour (by omega) (by omega)
    refine ⟨⟨_, hspells, ?_⟩, rfl⟩
    rw [byte_eq (show 0x80 + (a * 64 + (b.val - 0x80)) % 64 = b.val by omega),
      show (a * 64 + (b.val - 0x80)) / 64 = a by omega]
    rfl
  | @twoOfFour a hlow hhigh =>
    refine hin fun hb ↦ ?_
    rw [step_cont hb]
    have hspells : Spells ⟨1, 0x80, 0xBF, a * 64 + (b.val - 0x80)⟩ _ :=
      .threeOfFour (by omega) (by omega)
    refine ⟨⟨_, hspells, ?_⟩, rfl⟩
    rw [byte_eq (show 0x80 + (a * 64 + (b.val - 0x80)) % 64 = b.val by omega),
      show (a * 64 + (b.val - 0x80)) / 64 = a by omega,
      show (a * 64 + (b.val - 0x80)) / 4096 = a / 64 by omega]
    rfl
  | @threeOfFour a hlow hhigh =>
    refine hin fun hb ↦ ?_
    obtain ⟨c, hc⟩ := exists_codePoint (show a * 64 + (b.val - 0x80) < 0x110000 by omega)
    refine advances_last hb hc (by omega) ?_
    rw [encodeChar, if_neg (by omega), if_neg (by omega), if_neg (by omega),
      byte_eq (show 0x80 + c.val % 64 = b.val by omega), show c.val / 64 = a by omega,
      show c.val / 4096 = a / 64 by omega, show c.val / 262144 = a / 4096 by omega]
    rfl

/-- What is read can be encoded. -/
theorem encodable_replacingFrom : ∀ {bs before : Bytes} {due : Due}, Spells due before →
    encodable (replacingFrom due bs) = true
  | [], _, due, _ => by
    rw [replacingFrom]
    split_ifs <;> rfl
  | b :: bs, _, due, h => by
    rw [replacingFrom, encodable, List.all_append]
    rcases h.step b with hstep | hstep
    · obtain ⟨after, hafter, -⟩ := hstep.spelled
      exact Bool.and_eq_true_iff.mpr ⟨hstep.encodable, encodable_replacingFrom hafter⟩
    · obtain ⟨after, hafter⟩ := hstep.spelled
      exact Bool.and_eq_true_iff.mpr ⟨hstep.encodable, encodable_replacingFrom hafter⟩

/-- **What is read without a replacement is what was encoded.** -/
theorem utf8_replacingFrom : ∀ {bs before : Bytes} {due : Due}, Spells due before →
    replacement ∉ replacingFrom due bs → utf8 (replacingFrom due bs) = before ++ bs
  | [], before, due, h, hfree => by
    rw [replacingFrom] at hfree ⊢
    split_ifs at hfree ⊢ with hneed
    · cases h with
      | nothing => rfl
      | _ => cases hneed
    · exact absurd List.mem_cons_self hfree
  | b :: bs, before, due, h, hfree => by
    rw [replacingFrom] at hfree ⊢
    rw [List.mem_append, not_or] at hfree
    rcases h.step b with hstep | hstep
    · obtain ⟨after, hafter, hspelled⟩ := hstep.spelled
      rw [utf8_append, utf8_replacingFrom hafter hfree.2, ← List.append_assoc, hspelled,
        List.append_assoc]
      rfl
    · exact absurd hstep.replaced hfree.1

/-! ## What a text says of the bytes it was read from -/

theorem newlinesFrom_append {s : Str} (h : cr ∉ s) (rest : Str) :
    newlinesFrom false (s ++ rest) = s ++ newlinesFrom false rest := by
  induction s with
  | nil => rfl
  | cons c s ih =>
    rw [List.mem_cons, not_or] at h
    rw [List.cons_append, newlinesFrom, if_neg (by simp), if_neg fun hc ↦ h.1 hc.symm, ih h.2,
      List.cons_append]

/-- A line ending is read as a line feed, and a line feed as itself. -/
theorem mem_newlinesFrom {c : CodePoint} : ∀ {afterCr : Bool} {s : Str},
    c ∈ newlinesFrom afterCr s → c ∈ s ∨ c = lf
  | _, [], h => absurd h List.not_mem_nil
  | afterCr, d :: rest, h => by
    rw [newlinesFrom] at h
    split_ifs at h with h1 h2
    · exact (mem_newlinesFrom h).imp_left (List.mem_cons_of_mem d)
    · rcases List.mem_cons.mp h with rfl | h
      · exact .inr rfl
      · exact (mem_newlinesFrom h).imp_left (List.mem_cons_of_mem d)
    · rcases List.mem_cons.mp h with rfl | h
      · exact .inl List.mem_cons_self
      · exact (mem_newlinesFrom h).imp_left (List.mem_cons_of_mem d)

theorem lf_mem_newlinesFrom : ∀ {afterCr : Bool} {s : Str}, cr ∈ s → lf ∈ newlinesFrom afterCr s
  | _, [], h => absurd h List.not_mem_nil
  | afterCr, d :: rest, h => by
    rw [newlinesFrom]
    split_ifs with h1 h2
    · refine lf_mem_newlinesFrom ((List.mem_cons.mp h).resolve_left fun hd ↦ ?_)
      rw [← hd] at h1
      exact absurd h1.1 (by decide)
    · exact List.mem_cons_self
    · exact List.mem_cons_of_mem _
        (lf_mem_newlinesFrom ((List.mem_cons.mp h).resolve_left fun hd ↦ h2 hd.symm))

section
variable {bs : Bytes}

variable (bs) in
theorem cr_not_mem_readText : cr ∉ readText bs := cr_not_mem_newlinesFrom false _

variable (bs) in
theorem encodable_readText : encodable (readText bs) = true := by
  have hall : encodable (decodeReplacing bs) = true := encodable_replacingFrom .nothing
  rw [encodable, List.all_eq_true] at hall ⊢
  intro c hc
  rcases mem_newlinesFrom hc with hmem | rfl
  · exact hall c hmem
  · decide

/-- A text that was written is read again. -/
theorem readText_utf8 {s : Str} (hs : encodable s = true) (hcr : cr ∉ s) :
    readText (utf8 s) = s := by
  have hdecode := decodeReplacing_utf8 hs []
  rw [List.append_nil] at hdecode
  rw [readText, hdecode, universalNewlines_eq]
  · exact List.append_nil s
  · rw [List.mem_append, not_or]
    exact ⟨hcr, List.not_mem_nil⟩

/-- What was read without a line feed and without a replacement determines the bytes. -/
theorem utf8_readText (hlf : lf ∉ readText bs) (hfree : replacement ∉ readText bs) :
    utf8 (readText bs) = bs := by
  have hcr : cr ∉ decodeReplacing bs := fun h ↦ hlf (lf_mem_newlinesFrom h)
  have hread : readText bs = decodeReplacing bs := universalNewlines_eq hcr
  rw [hread] at hfree ⊢
  exact utf8_replacingFrom .nothing hfree

/-- A line feed may have been a carriage return and a line feed. -/
theorem readText_crlf {before after : Str} (h : readText bs = before ++ lf :: after) :
    readText (utf8 (before ++ cr :: lf :: after)) = readText bs := by
  have hcr := cr_not_mem_readText bs
  have hencodable := encodable_readText bs
  rw [h, List.mem_append, List.mem_cons, not_or, not_or] at hcr
  rw [h, encodable, List.all_append, List.all_cons] at hencodable
  simp only [Bool.and_eq_true] at hencodable
  have hall : encodable (before ++ cr :: lf :: after) = true := by
    rw [encodable, List.all_append, List.all_cons, List.all_cons]
    simp only [Bool.and_eq_true]
    exact ⟨hencodable.1, rfl, hencodable.2⟩
  have hdecode := decodeReplacing_utf8 hall []
  rw [List.append_nil] at hdecode
  rw [readText, hdecode, universalNewlines, List.append_assoc, newlinesFrom_append hcr.1, h]
  refine congrArg (before ++ ·) ?_
  rw [List.cons_append, List.cons_append, newlinesFrom, if_neg (by decide), if_pos rfl,
    newlinesFrom, if_pos ⟨rfl, rfl⟩]
  refine congrArg (lf :: ·) ?_
  rw [newlinesFrom_append hcr.2.2]
  exact List.append_nil after

/-- A replacement may have been a byte that is never part of a character. -/
theorem readText_stray {before after : Str} (h : readText bs = before ++ replacement :: after) :
    readText (utf8 before ++ 0xFF :: utf8 after) = readText bs := by
  have hcr := cr_not_mem_readText bs
  have hencodable := encodable_readText bs
  rw [h, encodable, List.all_append, List.all_cons] at hencodable
  simp only [Bool.and_eq_true] at hencodable
  have hafter := decodeReplacing_utf8 hencodable.2.2 []
  rw [List.append_nil] at hafter
  have hstray : firstByte 0xFF = ([replacement], .nothing) := rfl
  have hdecode : decodeReplacing (utf8 before ++ 0xFF :: utf8 after) = readText bs := by
    rw [decodeReplacing_utf8 hencodable.1, decodeReplacing_cons, hstray, h]
    refine congrArg (fun s ↦ before ++ replacement :: s) ?_
    exact hafter.trans (List.append_nil after)
  rw [readText, hdecode, universalNewlines_eq hcr]

/-- **A text determines the bytes it was read from exactly when it holds neither a line feed nor a
replacement.** -/
theorem readText_unique : (∀ bs', readText bs' = readText bs → bs' = bs) ↔
    lf ∉ readText bs ∧ replacement ∉ readText bs := by
  constructor
  · intro hunique
    have hcr := cr_not_mem_readText bs
    have hself := hunique _ (readText_utf8 (encodable_readText bs) hcr)
    constructor
    · intro hlf
      obtain ⟨before, after, h⟩ := List.append_of_mem hlf
      have hlength := congrArg List.length (hself.trans (hunique _ (readText_crlf h)).symm)
      rw [h, utf8_append, utf8_append, utf8, utf8, utf8] at hlength
      simp only [List.length_append] at hlength
      have hpos := encodeChar_length_pos cr
      omega
    · intro hreplaced
      obtain ⟨before, after, h⟩ := List.append_of_mem hreplaced
      have hlength := congrArg List.length (hself.trans (hunique _ (readText_stray h)).symm)
      rw [h, utf8_append, utf8, show encodeChar replacement =
        [0xEF, 0xBF, 0xBD] from rfl] at hlength
      simp only [List.length_append, List.length_cons, List.length_nil] at hlength
      omega
  · rintro ⟨hlf, hfree⟩ bs' h
    have hbytes := utf8_readText hlf hfree
    rw [← h] at hlf hfree hbytes
    rw [← utf8_readText hlf hfree, hbytes]

end

end Py
