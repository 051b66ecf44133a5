import OpenHop.Data.Bytes

/-! # SHA-256

The digest as the standard defines it, over natural numbers below `2 ^ 32`: a message is
padded to whole blocks of sixteen words, each block is extended to 64 words, and 64 rounds
stir it into a state of eight words.
-/

namespace OpenHop.Sha256

def word (n : ℕ) : ℕ := n % 0x100000000

def rotr (x n : ℕ) : ℕ := (x >>> n) ||| word (x <<< (32 - n))

def bigEndian (width n : ℕ) : Bytes := (Bytes.le width n).reverse

def ofBigEndian (d : Bytes) : ℕ := Bytes.toNatLE d.reverse

/-- The first 32 bits of the fractional parts of the cube roots of the first 64 primes. -/
def roundConstants : List ℕ :=
  [0x428a2f98, 0x71374491, 0xb5c0fbcf, 0xe9b5dba5, 0x3956c25b, 0x59f111f1, 0x923f82a4, 0xab1c5ed5,
    0xd807aa98, 0x12835b01, 0x243185be, 0x550c7dc3, 0x72be5d74, 0x80deb1fe, 0x9bdc06a7, 0xc19bf174,
    0xe49b69c1, 0xefbe4786, 0x0fc19dc6, 0x240ca1cc, 0x2de92c6f, 0x4a7484aa, 0x5cb0a9dc, 0x76f988da,
    0x983e5152, 0xa831c66d, 0xb00327c8, 0xbf597fc7, 0xc6e00bf3, 0xd5a79147, 0x06ca6351, 0x14292967,
    0x27b70a85, 0x2e1b2138, 0x4d2c6dfc, 0x53380d13, 0x650a7354, 0x766a0abb, 0x81c2c92e, 0x92722c85,
    0xa2bfe8a1, 0xa81a664b, 0xc24b8b70, 0xc76c51a3, 0xd192e819, 0xd6990624, 0xf40e3585, 0x106aa070,
    0x19a4c116, 0x1e376c08, 0x2748774c, 0x34b0bcb5, 0x391c0cb3, 0x4ed8aa4a, 0x5b9cca4f, 0x682e6ff3,
    0x748f82ee, 0x78a5636f, 0x84c87814, 0x8cc70208, 0x90befffa, 0xa4506ceb, 0xbef9a3f7, 0xc67178f2]

structure State where
  a : ℕ
  b : ℕ
  c : ℕ
  d : ℕ
  e : ℕ
  f : ℕ
  g : ℕ
  h : ℕ

def State.init : State :=
  ⟨0x6a09e667, 0xbb67ae85, 0x3c6ef372, 0xa54ff53a, 0x510e527f, 0x9b05688c, 0x1f83d9ab, 0x5be0cd19⟩

def State.words (s : State) : List ℕ := [s.a, s.b, s.c, s.d, s.e, s.f, s.g, s.h]

def extend : ℕ → List ℕ → List ℕ
  | 0, ws => ws
  | n + 1, ws =>
    let x := ws.getD 14 0
    let y := ws.getD 1 0
    let s₀ := rotr x 7 ^^^ rotr x 18 ^^^ (x >>> 3)
    let s₁ := rotr y 17 ^^^ rotr y 19 ^^^ (y >>> 10)
    extend n (word (ws.getD 15 0 + s₀ + ws.getD 6 0 + s₁) :: ws)

def round (s : State) (constant input : ℕ) : State :=
  let s₁ := rotr s.e 6 ^^^ rotr s.e 11 ^^^ rotr s.e 25
  let choice := (s.e &&& s.f) ^^^ ((0xffffffff ^^^ s.e) &&& s.g)
  let t₁ := s.h + s₁ + choice + constant + input
  let s₀ := rotr s.a 2 ^^^ rotr s.a 13 ^^^ rotr s.a 22
  let majority := (s.a &&& s.b) ^^^ (s.a &&& s.c) ^^^ (s.b &&& s.c)
  ⟨word (t₁ + s₀ + majority), s.a, s.b, s.c, word (s.d + t₁), s.e, s.f, s.g⟩

def compress (s : State) (block : Bytes) : State :=
  let ws := ((Bytes.cut 4 16 block).map ofBigEndian).reverse
  let t := (roundConstants.zip (extend 48 ws).reverse).foldl (fun t kw => round t kw.1 kw.2) s
  ⟨word (s.a + t.a), word (s.b + t.b), word (s.c + t.c), word (s.d + t.d), word (s.e + t.e),
    word (s.f + t.f), word (s.g + t.g), word (s.h + t.h)⟩

/-- The message with a bit set, zeros and its length in bits, to whole blocks. -/
def padded (d : Bytes) : Bytes :=
  d ++ 0x80 :: (List.replicate ((119 - d.length % 64) % 64) 0 ++ bigEndian 8 (8 * d.length))

def digest (d : Bytes) : Bytes :=
  let blocks := Bytes.cut 64 ((padded d).length / 64) (padded d)
  (blocks.foldl compress State.init).words.flatMap (bigEndian 4)

theorem length_digest (d : Bytes) : (digest d).length = 32 := by
  simp [digest, State.words, bigEndian]

/-- The digest of `abc`. -/
example : digest [0x61, 0x62, 0x63] =
    [0xba, 0x78, 0x16, 0xbf, 0x8f, 0x01, 0xcf, 0xea, 0x41, 0x41, 0x40, 0xde, 0x5d, 0xae, 0x22, 0x23,
      0xb0, 0x03, 0x61, 0xa3, 0x96, 0x17, 0x7a, 0x9c, 0xb4, 0x10, 0xff, 0x61, 0xf2, 0x00, 0x15,
      0xad] := by
  decide +kernel

end OpenHop.Sha256
