import Archetype.Bytes.Basic

/-!
The MD5 digest of file contents, by which a changed file is told from an unchanged one.
-/

namespace Archetype.Bytes.Digest

/-- The four words that are carried from block to block. -/
structure State where
  a : UInt32
  b : UInt32
  c : UInt32
  d : UInt32

def State.start : State :=
  ⟨0x67452301, 0xEFCDAB89, 0x98BADCFE, 0x10325476⟩

/-- The constant of each step. -/
def constants : List UInt32 :=
  [0xD76AA478, 0xE8C7B756, 0x242070DB, 0xC1BDCEEE, 0xF57C0FAF, 0x4787C62A, 0xA8304613, 0xFD469501,
    0x698098D8, 0x8B44F7AF, 0xFFFF5BB1, 0x895CD7BE, 0x6B901122, 0xFD987193, 0xA679438E,
    0x49B40821, 0xF61E2562, 0xC040B340, 0x265E5A51, 0xE9B6C7AA, 0xD62F105D, 0x02441453,
    0xD8A1E681, 0xE7D3FBC8, 0x21E1CDE6, 0xC33707D6, 0xF4D50D87, 0x455A14ED, 0xA9E3E905,
    0xFCEFA3F8, 0x676F02D9, 0x8D2A4C8A, 0xFFFA3942, 0x8771F681, 0x6D9D6122, 0xFDE5380C,
    0xA4BEEA44, 0x4BDECFA9, 0xF6BB4B60, 0xBEBFBC70, 0x289B7EC6, 0xEAA127FA, 0xD4EF3085,
    0x04881D05, 0xD9D4D039, 0xE6DB99E5, 0x1FA27CF8, 0xC4AC5665, 0xF4292244, 0x432AFF97,
    0xAB9423A7, 0xFC93A039, 0x655B59C3, 0x8F0CCC92, 0xFFEFF47D, 0x85845DD1, 0x6FA87E4F,
    0xFE2CE6E0, 0xA3014314, 0x4E0811A1, 0xF7537E82, 0xBD3AF235, 0x2AD7D2BB, 0xEB86D391]

/-- The rotations of the steps of each round, repeated four times. -/
def rotations (round : Nat) : List UInt32 :=
  match round with
  | 0 => [7, 12, 17, 22]
  | 1 => [5, 9, 14, 20]
  | 2 => [4, 11, 16, 23]
  | _ => [6, 10, 15, 21]

def rotateLeft (word amount : UInt32) : UInt32 :=
  (word <<< amount) ||| (word >>> (32 - amount))

/-- How a round mixes three words. -/
def mix (round : Nat) (b c d : UInt32) : UInt32 :=
  match round with
  | 0 => (b &&& c) ||| (~~~b &&& d)
  | 1 => (d &&& b) ||| (~~~d &&& c)
  | 2 => b ^^^ c ^^^ d
  | _ => c ^^^ (b ||| ~~~d)

/-- The word of the block that a step takes. -/
def wordIndex (round step : Nat) : Nat :=
  match round with
  | 0 => step % 16
  | 1 => (5 * step + 1) % 16
  | 2 => (3 * step + 5) % 16
  | _ => (7 * step) % 16

def step (block : List UInt32) (state : State) (constant : UInt32 × Nat) : State :=
  let (k, i) := constant
  let round := i / 16
  let word := block.getD (wordIndex round i) 0
  let sum := state.a + mix round state.b state.c state.d + k + word
  let amount := (rotations round).getD (i % 4) 0
  ⟨state.d, state.b + rotateLeft sum amount, state.b, state.c⟩

def addBlock (state : State) (block : List UInt32) : State :=
  let mixed := constants.zipIdx.foldl (step block) state
  ⟨state.a + mixed.a, state.b + mixed.b, state.c + mixed.c, state.d + mixed.d⟩

/-- The number that bytes spell, the least significant first. -/
def wordOf (bytes : Bytes) : UInt32 :=
  bytes.foldr (fun byte word => (word <<< 8) ||| byte.toUInt32) 0

/-- The bytes of a number, the least significant first. -/
def littleBytes : (count value : Nat) → Bytes
  | 0, _ => []
  | count + 1, value => .ofNat value :: littleBytes count (value / 256)

/-- Contents followed by a one bit, zero bits, and their length in bits as the last eight bytes of
a block. -/
def padded (bytes : Bytes) : Bytes :=
  let zeros := (119 - bytes.length % 64) % 64
  bytes ++ 0x80 :: (List.replicate zeros 0 ++ littleBytes 8 (8 * bytes.length))

def words : (count : Nat) → Bytes → List UInt32
  | 0, _ => []
  | count + 1, bytes => wordOf (bytes.take 4) :: words count (bytes.drop 4)

def addBlocks : (count : Nat) → State → Bytes → State
  | 0, state, _ => state
  | count + 1, state, bytes => addBlocks count (addBlock state (words 16 bytes)) (bytes.drop 64)

def State.bytes (state : State) : Bytes :=
  [state.a, state.b, state.c, state.d].flatMap fun word => littleBytes 4 word.toNat

end Digest

/-- The digest of file contents in hexadecimal digits. -/
def digest (bytes : Bytes) : String :=
  let padded := Digest.padded bytes
  let final := Digest.addBlocks (padded.length / 64) .start padded
  "".intercalate (final.bytes.map hexByte)

end Archetype.Bytes
