/-
The SHA-256 checksum.

The bytes are padded to whole blocks of 64, with a one bit and their number of bits at the end, and
the blocks are mixed into eight words, one after the other.
-/
namespace WikiMigration.Checksum

/-- The words that the rounds add in. -/
def roundWords : Array UInt32 := #[
  0x428a2f98, 0x71374491, 0xb5c0fbcf, 0xe9b5dba5, 0x3956c25b, 0x59f111f1,
  0x923f82a4, 0xab1c5ed5, 0xd807aa98, 0x12835b01, 0x243185be, 0x550c7dc3,
  0x72be5d74, 0x80deb1fe, 0x9bdc06a7, 0xc19bf174, 0xe49b69c1, 0xefbe4786,
  0x0fc19dc6, 0x240ca1cc, 0x2de92c6f, 0x4a7484aa, 0x5cb0a9dc, 0x76f988da,
  0x983e5152, 0xa831c66d, 0xb00327c8, 0xbf597fc7, 0xc6e00bf3, 0xd5a79147,
  0x06ca6351, 0x14292967, 0x27b70a85, 0x2e1b2138, 0x4d2c6dfc, 0x53380d13,
  0x650a7354, 0x766a0abb, 0x81c2c92e, 0x92722c85, 0xa2bfe8a1, 0xa81a664b,
  0xc24b8b70, 0xc76c51a3, 0xd192e819, 0xd6990624, 0xf40e3585, 0x106aa070,
  0x19a4c116, 0x1e376c08, 0x2748774c, 0x34b0bcb5, 0x391c0cb3, 0x4ed8aa4a,
  0x5b9cca4f, 0x682e6ff3, 0x748f82ee, 0x78a5636f, 0x84c87814, 0x8cc70208,
  0x90befffa, 0xa4506ceb, 0xbef9a3f7, 0xc67178f2]

/-- The words that mixing starts from. -/
def firstWords : Array UInt32 := #[
  0x6a09e667, 0xbb67ae85, 0x3c6ef372, 0xa54ff53a, 0x510e527f, 0x9b05688c,
  0x1f83d9ab, 0x5be0cd19]

/-- A word turned to the right. -/
def turn (x n : UInt32) : UInt32 := (x >>> n) ||| (x <<< (32 - n))

/-- Bytes as a number, the first one counting most. -/
def bigEndian (bytes : List UInt8) : Nat := bytes.foldl (fun n b => 256 * n + b.toNat) 0

/-- The last bytes of a number, the first one counting most. -/
def bytesOf : Nat → Nat → List UInt8
  | 0, _ => []
  | count + 1, n => bytesOf count (n / 256) ++ [UInt8.ofNat (n % 256)]

/-- What is put behind that many bytes. -/
def padding (length : Nat) : List UInt8 :=
  0x80 :: List.replicate ((119 - length % 64) % 64) 0 ++ bytesOf 8 (8 * length)

/-- The sixteen words of a block. -/
def blockWords : Nat → List UInt8 → List UInt32
  | 0, _ => []
  | count + 1, bytes =>
    UInt32.ofNat (bigEndian (bytes.take 4)) :: blockWords count (bytes.drop 4)

/-- The words of a block with those that follow from them. -/
def schedule (block : List UInt8) : Array UInt32 :=
  (List.range 48).foldl
    (fun w _ =>
      let i := w.size
      let a := w.getD (i - 15) 0
      let b := w.getD (i - 2) 0
      let s := turn a 7 ^^^ turn a 18 ^^^ (a >>> 3)
      let t := turn b 17 ^^^ turn b 19 ^^^ (b >>> 10)
      w.push (w.getD (i - 16) 0 + s + w.getD (i - 7) 0 + t))
    (blockWords 16 block).toArray

/-- One round: the words with the added word and the word of the block mixed in. -/
def round (v : Array UInt32) (added word : UInt32) : Array UInt32 :=
  let a := v.getD 0 0
  let b := v.getD 1 0
  let c := v.getD 2 0
  let e := v.getD 4 0
  let f := v.getD 5 0
  let g := v.getD 6 0
  let choice := (e &&& f) ^^^ (~~~e &&& g)
  let majority := (a &&& b) ^^^ (a &&& c) ^^^ (b &&& c)
  let first := v.getD 7 0 + (turn e 6 ^^^ turn e 11 ^^^ turn e 25) + choice + added + word
  let second := (turn a 2 ^^^ turn a 13 ^^^ turn a 22) + majority
  #[first + second, a, b, c, v.getD 3 0 + first, e, f, g]

/-- The words with a block mixed in. -/
def mixBlock (words : Array UInt32) (block : List UInt8) : Array UInt32 :=
  let w := schedule block
  let mixed := (List.range 64).foldl (fun v i => round v (roundWords.getD i 0) (w.getD i 0)) words
  Array.zipWith (· + ·) words mixed

/-- The words with as many blocks mixed in. -/
def mixBlocks (words : Array UInt32) : Nat → List UInt8 → Array UInt32
  | 0, _ => words
  | count + 1, bytes => mixBlocks (mixBlock words (bytes.take 64)) count (bytes.drop 64)

/-- The checksum of some bytes. -/
def sha256 (bytes : List UInt8) : List UInt8 :=
  let padded := bytes ++ padding bytes.length
  (mixBlocks firstWords (padded.length / 64) padded).toList.flatMap fun word =>
    bytesOf 4 word.toNat

end WikiMigration.Checksum
