import AtlasCore.Lib.Utf8

/-!
# SHA-256

`hashlib.sha256(..).hexdigest()`, written out so that an identity which is a digest is a value one
can compute.  Words are natural numbers below `2 ^ 32`, and the message schedule is a window of the
last sixteen words that moves along with the rounds.

Nothing is proved about the function itself.  Where a result needs that two texts with one digest
are one text, it says so of those two texts.
-/

set_option autoImplicit false

namespace Py

namespace Sha256

/-- Keep 32 bits, which is what every sum of the algorithm does. -/
def word (n : ℕ) : ℕ := n % 0x100000000

/-- Rotate right by `k` bits, in a word of 32. -/
def rotr (k x : ℕ) : ℕ := word (x / 2 ^ k ||| x * 2 ^ (32 - k))

/-- The round constants, one for each of the 64 rounds. -/
def constants : List ℕ :=
  [0x428a2f98, 0x71374491, 0xb5c0fbcf, 0xe9b5dba5, 0x3956c25b, 0x59f111f1, 0x923f82a4, 0xab1c5ed5,
    0xd807aa98, 0x12835b01, 0x243185be, 0x550c7dc3, 0x72be5d74, 0x80deb1fe, 0x9bdc06a7, 0xc19bf174,
    0xe49b69c1, 0xefbe4786, 0x0fc19dc6, 0x240ca1cc, 0x2de92c6f, 0x4a7484aa, 0x5cb0a9dc, 0x76f988da,
    0x983e5152, 0xa831c66d, 0xb00327c8, 0xbf597fc7, 0xc6e00bf3, 0xd5a79147, 0x06ca6351, 0x14292967,
    0x27b70a85, 0x2e1b2138, 0x4d2c6dfc, 0x53380d13, 0x650a7354, 0x766a0abb, 0x81c2c92e, 0x92722c85,
    0xa2bfe8a1, 0xa81a664b, 0xc24b8b70, 0xc76c51a3, 0xd192e819, 0xd6990624, 0xf40e3585, 0x106aa070,
    0x19a4c116, 0x1e376c08, 0x2748774c, 0x34b0bcb5, 0x391c0cb3, 0x4ed8aa4a, 0x5b9cca4f, 0x682e6ff3,
    0x748f82ee, 0x78a5636f, 0x84c87814, 0x8cc70208, 0x90befffa, 0xa4506ceb, 0xbef9a3f7, 0xc67178f2]

/-- The eight working words of a round, and of the hash value. -/
structure State where
  a : ℕ
  b : ℕ
  c : ℕ
  d : ℕ
  e : ℕ
  f : ℕ
  g : ℕ
  h : ℕ

/-- The initial hash value, before the first block. -/
def initial : State :=
  ⟨0x6a09e667, 0xbb67ae85, 0x3c6ef372, 0xa54ff53a, 0x510e527f, 0x9b05688c, 0x1f83d9ab, 0x5be0cd19⟩

/-- One round with the constant `k` and the word `w`. -/
def round (s : State) (k w : ℕ) : State :=
  let sum1 := rotr 6 s.e ^^^ rotr 11 s.e ^^^ rotr 25 s.e
  let choice := (s.e &&& s.f) ^^^ ((0xffffffff ^^^ s.e) &&& s.g)
  let t1 := word (s.h + sum1 + choice + k + w)
  let sum0 := rotr 2 s.a ^^^ rotr 13 s.a ^^^ rotr 22 s.a
  let majority := (s.a &&& s.b) ^^^ (s.a &&& s.c) ^^^ (s.b &&& s.c)
  ⟨word (t1 + sum0 + majority), s.a, s.b, s.c, word (s.d + t1), s.e, s.f, s.g⟩

/-- The next word of the schedule, from the sixteen before it. -/
def nextWord (window : List ℕ) : ℕ :=
  let x := window.getD 1 0
  let y := window.getD 14 0
  word (window.getD 0 0 + (rotr 7 x ^^^ rotr 18 x ^^^ x / 2 ^ 3) + window.getD 9 0 +
    (rotr 17 y ^^^ rotr 19 y ^^^ y / 2 ^ 10))

/-- The rounds, one for each constant, over a window of sixteen words that moves on with them. -/
def rounds : List ℕ → List ℕ → State → State
  | [], _, s => s
  | k :: ks, window, s =>
    rounds ks (window.drop 1 ++ [nextWord window]) (round s k (window.getD 0 0))

/-- One block of sixteen words: the rounds, and then the words of the state before them are added.
-/
def compress (s : State) (block : List ℕ) : State :=
  let t := rounds constants block s
  ⟨word (s.a + t.a), word (s.b + t.b), word (s.c + t.c), word (s.d + t.d),
    word (s.e + t.e), word (s.f + t.f), word (s.g + t.g), word (s.h + t.h)⟩

/-- The big-endian number of some bytes, the first of which counts most. -/
def ofBytes (bs : Bytes) : ℕ := bs.foldl (fun n b ↦ 256 * n + b.val) 0

/-- The big-endian bytes of a number, `n` of them. -/
def toBytes : ℕ → ℕ → Bytes
  | 0, _ => []
  | n + 1, x => toBytes n (x / 256) ++ [byte x]

/-- The message with its padding: one bit, zeros up to a block, and the length in bits. -/
def pad (bs : Bytes) : Bytes :=
  bs ++ byte 0x80 :: List.replicate ((119 - bs.length % 64) % 64) 0 ++ toBytes 8 (8 * bs.length)

/-- Pieces of `size` bytes; `fuel` bounds their number. -/
def pieces (size : ℕ) : ℕ → Bytes → List Bytes
  | 0, _ => []
  | fuel + 1, bs => if bs = [] then [] else bs.take size :: pieces size fuel (bs.drop size)

/-- A block as sixteen words, of four bytes each. -/
def words (block : Bytes) : List ℕ := (pieces 4 16 block).map ofBytes

/-- The digest, as eight words: the blocks of the padded message, one after the other. -/
def hash (bs : Bytes) : State :=
  (pieces 64 (bs.length / 64 + 2) (pad bs)).foldl (fun s block ↦ compress s (words block)) initial

/-- The hexadecimal digits of a number, `n` of them. -/
def hex : ℕ → ℕ → Str
  | 0, _ => []
  | n + 1, x => hex n (x / 16) ++ [hexDigit ⟨x % 16, Nat.mod_lt _ (by decide)⟩]

end Sha256

/-- `hashlib.sha256(bs).hexdigest()`: the eight words, in hexadecimal. -/
def sha256 (bs : Bytes) : Str :=
  let s := Sha256.hash bs
  Sha256.hex 8 s.a ++ Sha256.hex 8 s.b ++ Sha256.hex 8 s.c ++ Sha256.hex 8 s.d ++
    Sha256.hex 8 s.e ++ Sha256.hex 8 s.f ++ Sha256.hex 8 s.g ++ Sha256.hex 8 s.h

example : sha256 (utf8 (str "abc"))
    = str "ba7816bf8f01cfea414140de5dae2223b00361a396177a9cb410ff61f20015ad" := by
  decide +kernel

theorem Sha256.hex_length (n x : ℕ) : (Sha256.hex n x).length = n := by
  induction n generalizing x with
  | zero => rfl
  | succ n ih => rw [Sha256.hex, List.length_append, ih, List.length_singleton]

/-- A digest has 64 digits. -/
theorem sha256_length (bs : Bytes) : (sha256 bs).length = 64 := by
  simp only [sha256, List.length_append, Sha256.hex_length]

/-- A lower-case hexadecimal digit, as a digest has them. -/
def isHex (c : CodePoint) : Bool := (48 ≤ c.val && c.val < 58) || (97 ≤ c.val && c.val < 103)

theorem isHex_hexDigit (n : Fin 16) : isHex (hexDigit n) = true := by
  revert n; decide

theorem Sha256.hex_isHex (n x : ℕ) : (Sha256.hex n x).all isHex = true := by
  induction n generalizing x with
  | zero => rfl
  | succ n ih =>
    rw [Sha256.hex, List.all_append, ih, List.all_cons, isHex_hexDigit, List.all_nil]
    rfl

/-- The digits of a digest are hexadecimal. -/
theorem sha256_isHex (bs : Bytes) : (sha256 bs).all isHex = true := by
  simp only [sha256, List.all_append, Sha256.hex_isHex, Bool.and_self]

end Py
