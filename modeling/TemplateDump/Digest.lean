/-!
# Fingerprints of texts

The fingerprint of a text is the MD5 digest of its UTF-8 bytes in lower-case hexadecimal. Messages
are shown by their fingerprints, so that a dump does not change with the layout of a line.

The digest runs over blocks of sixteen words of 32 bits. `fingerprintChars_length` and
`mem_hexDigits_of_mem_fingerprintChars` say all that the layout of a line needs to know of it:
thirty-two characters, each a hexadecimal digit.
-/

namespace TemplateDump

namespace Digest

/-! ## Words and blocks -/

/-- The little-endian word of four bytes. -/
def word (a b c d : UInt8) : UInt32 :=
  a.toUInt32 ||| (b.toUInt32 <<< 8) ||| (c.toUInt32 <<< 16) ||| (d.toUInt32 <<< 24)

/-- The bytes of a word, lowest first. -/
def wordBytes (w : UInt32) : List UInt8 :=
  [w.toUInt8, (w >>> 8).toUInt8, (w >>> 16).toUInt8, (w >>> 24).toUInt8]

/-- The words of a byte sequence. A last group of fewer than four bytes is left out. -/
def words : List UInt8 → List UInt32
  | a :: b :: c :: d :: rest => word a b c d :: words rest
  | _ => []

/-- The length of a message in bits as two words, low word first. Longer lengths wrap. -/
def lengthWords (bytes : Nat) : List UInt32 :=
  let bits := UInt64.ofNat (8 * bytes)
  [bits.toUInt32, (bits >>> 32).toUInt32]

/-- A message filled up to whole blocks: the byte 128, zeros until eight bytes of the last block
are left, and the length. -/
def paddedWords (message : List UInt8) : List UInt32 :=
  let zeros := (119 - message.length % 64) % 64
  words (message ++ 128 :: List.replicate zeros 0) ++ lengthWords message.length

/-- The blocks of sixteen words. -/
def blocks (ws : Array UInt32) : List (Array UInt32) :=
  (List.range (ws.size / 16)).map fun i => ws.extract (16 * i) (16 * i + 16)

/-! ## The compression of a block -/

/-- The four words that the digest carries from block to block. -/
structure State where
  a : UInt32
  b : UInt32
  c : UInt32
  d : UInt32
deriving DecidableEq

/-- The state before the first block. -/
def State.initial : State :=
  ⟨0x67452301, 0xefcdab89, 0x98badcfe, 0x10325476⟩

/-- The constant of each of the 64 steps: the whole part of 2³² times the sine of 1, 2, …, 64. -/
def sines : Array UInt32 := #[
  0xd76aa478, 0xe8c7b756, 0x242070db, 0xc1bdceee, 0xf57c0faf, 0x4787c62a,
  0xa8304613, 0xfd469501, 0x698098d8, 0x8b44f7af, 0xffff5bb1, 0x895cd7be,
  0x6b901122, 0xfd987193, 0xa679438e, 0x49b40821, 0xf61e2562, 0xc040b340,
  0x265e5a51, 0xe9b6c7aa, 0xd62f105d, 0x02441453, 0xd8a1e681, 0xe7d3fbc8,
  0x21e1cde6, 0xc33707d6, 0xf4d50d87, 0x455a14ed, 0xa9e3e905, 0xfcefa3f8,
  0x676f02d9, 0x8d2a4c8a, 0xfffa3942, 0x8771f681, 0x6d9d6122, 0xfde5380c,
  0xa4beea44, 0x4bdecfa9, 0xf6bb4b60, 0xbebfbc70, 0x289b7ec6, 0xeaa127fa,
  0xd4ef3085, 0x04881d05, 0xd9d4d039, 0xe6db99e5, 0x1fa27cf8, 0xc4ac5665,
  0xf4292244, 0x432aff97, 0xab9423a7, 0xfc93a039, 0x655b59c3, 0x8f0ccc92,
  0xffeff47d, 0x85845dd1, 0x6fa87e4f, 0xfe2ce6e0, 0xa3014314, 0x4e0811a1,
  0xf7537e82, 0xbd3af235, 0x2ad7d2bb, 0xeb86d391]

/-- The rotations of a round. They repeat every four steps. -/
def rotations (round : Nat) : Array UInt32 :=
  match round with
  | 0 => #[7, 12, 17, 22]
  | 1 => #[5, 9, 14, 20]
  | 2 => #[4, 11, 16, 23]
  | _ => #[6, 10, 15, 21]

/-- Rotates a word to the left by fewer than 32 places. -/
def rotateLeft (w places : UInt32) : UInt32 :=
  (w <<< places) ||| (w >>> (32 - places))

/-- What a step mixes out of three words, and the index of the block word that it adds. -/
def mix (i : Nat) (b c d : UInt32) : UInt32 × Nat :=
  match i / 16 with
  | 0 => ((b &&& c) ||| (~~~b &&& d), i)
  | 1 => ((d &&& b) ||| (~~~d &&& c), (5 * i + 1) % 16)
  | 2 => (b ^^^ c ^^^ d, (3 * i + 5) % 16)
  | _ => (c ^^^ (b ||| ~~~d), 7 * i % 16)

/-- Step `i` of the 64 steps on a block. -/
def State.step (block : Array UInt32) (s : State) (i : Nat) : State :=
  let (mixed, k) := mix i s.b s.c s.d
  let sum := s.a + mixed + sines.getD i 0 + block.getD k 0
  ⟨s.d, s.b + rotateLeft sum ((rotations (i / 16)).getD (i % 4) 0), s.b, s.c⟩

/-- Takes a block into the state. -/
def State.absorb (s : State) (block : Array UInt32) : State :=
  let t := (List.range 64).foldl (State.step block) s
  ⟨s.a + t.a, s.b + t.b, s.c + t.c, s.d + t.d⟩

/-- The sixteen bytes of the digest. -/
def State.bytes (s : State) : List UInt8 :=
  [s.a, s.b, s.c, s.d].flatMap wordBytes

/-- The digest of a message. -/
def ofBytes (message : List UInt8) : State :=
  (blocks (paddedWords message).toArray).foldl State.absorb State.initial

/-! ## Hexadecimal text -/

/-- The hexadecimal digits, in order. -/
def hexDigits : List Char := "0123456789abcdef".toList

/-- The two hexadecimal digits of a byte. -/
def byteChars (b : UInt8) : List Char :=
  [Nat.digitChar (b.toNat / 16), Nat.digitChar (b.toNat % 16)]

/-- The characters of the fingerprint of a text. -/
def fingerprintChars (text : String) : List Char :=
  (ofBytes text.toUTF8.data.toList).bytes.flatMap byteChars

end Digest

/-- The fingerprint of a text: its MD5 digest in hexadecimal. -/
def fingerprint (text : String) : String :=
  String.ofList (Digest.fingerprintChars text)

/-! ## The shape of a fingerprint -/

namespace Digest

/-- A fingerprint has thirty-two characters. -/
theorem fingerprintChars_length (text : String) : (fingerprintChars text).length = 32 := by
  simp [fingerprintChars, State.bytes, wordBytes, byteChars]

theorem digitChar_mem_hexDigits {n : Nat} (h : n < 16) : Nat.digitChar n ∈ hexDigits := by
  have table : ∀ m : Fin 16, Nat.digitChar m.val ∈ hexDigits := by decide
  exact table ⟨n, h⟩

/-- A fingerprint is made of hexadecimal digits. -/
theorem mem_hexDigits_of_mem_fingerprintChars {text : String} {c : Char}
    (h : c ∈ fingerprintChars text) : c ∈ hexDigits := by
  obtain ⟨b, _, hc⟩ := List.mem_flatMap.1 h
  have hb : b.toNat < 256 := b.toNat_lt
  rcases List.mem_cons.1 hc with rfl | hc
  · exact digitChar_mem_hexDigits (by omega)
  · rw [List.mem_singleton.1 hc]
    exact digitChar_mem_hexDigits (by omega)

end Digest

end TemplateDump
