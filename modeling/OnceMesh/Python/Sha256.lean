import OnceMesh.Python.Text

/-!
# SHA-256

`hashlib.sha256`, as the standard describes it: the message is padded to blocks of sixteen
words, and each block is mixed into eight words by sixty-four rounds.
-/

namespace Python

/-! ### Words -/

/-- A word of 32 bits. -/
abbrev Word := BitVec 32

namespace Word

/-- Four octets, most significant first. -/
def ofBytes : Bytes → Word
  | [a, b, c, d] => BitVec.ofNat 32 (((a.toNat * 256 + b.toNat) * 256 + c.toNat) * 256 + d.toNat)
  | _ => 0

/-- The octets of a word, most significant first. -/
def toBytes (w : Word) : Bytes :=
  [.ofNat (w.toNat / 16777216), .ofNat (w.toNat / 65536), .ofNat (w.toNat / 256), .ofNat w.toNat]

/-- `Ch`: each bit of `x` chooses between `y` and `z`. -/
def choose (x y z : Word) : Word := x &&& y ^^^ ~~~x &&& z

/-- `Maj`: the majority of each bit. -/
def majority (x y z : Word) : Word := x &&& y ^^^ x &&& z ^^^ y &&& z

/-- `Σ₀`. -/
def bigSigma0 (x : Word) : Word := x.rotateRight 2 ^^^ x.rotateRight 13 ^^^ x.rotateRight 22

/-- `Σ₁`. -/
def bigSigma1 (x : Word) : Word := x.rotateRight 6 ^^^ x.rotateRight 11 ^^^ x.rotateRight 25

/-- `σ₀`. -/
def smallSigma0 (x : Word) : Word := x.rotateRight 7 ^^^ x.rotateRight 18 ^^^ x >>> 3

/-- `σ₁`. -/
def smallSigma1 (x : Word) : Word := x.rotateRight 17 ^^^ x.rotateRight 19 ^^^ x >>> 10

end Word

/-! ### Compression -/

/-- The chaining value and the working variables. -/
structure HashState where
  a : Word
  b : Word
  c : Word
  d : Word
  e : Word
  f : Word
  g : Word
  h : Word

namespace HashState

/-- The initial chaining value. -/
def initial : HashState :=
  ⟨0x6a09e667, 0xbb67ae85, 0x3c6ef372, 0xa54ff53a, 0x510e527f, 0x9b05688c, 0x1f83d9ab, 0x5be0cd19⟩

/-- The constants of the rounds. -/
def roundConstants : List Word :=
  [0x428a2f98, 0x71374491, 0xb5c0fbcf, 0xe9b5dba5, 0x3956c25b, 0x59f111f1, 0x923f82a4, 0xab1c5ed5,
   0xd807aa98, 0x12835b01, 0x243185be, 0x550c7dc3, 0x72be5d74, 0x80deb1fe, 0x9bdc06a7, 0xc19bf174,
   0xe49b69c1, 0xefbe4786, 0x0fc19dc6, 0x240ca1cc, 0x2de92c6f, 0x4a7484aa, 0x5cb0a9dc, 0x76f988da,
   0x983e5152, 0xa831c66d, 0xb00327c8, 0xbf597fc7, 0xc6e00bf3, 0xd5a79147, 0x06ca6351, 0x14292967,
   0x27b70a85, 0x2e1b2138, 0x4d2c6dfc, 0x53380d13, 0x650a7354, 0x766a0abb, 0x81c2c92e, 0x92722c85,
   0xa2bfe8a1, 0xa81a664b, 0xc24b8b70, 0xc76c51a3, 0xd192e819, 0xd6990624, 0xf40e3585, 0x106aa070,
   0x19a4c116, 0x1e376c08, 0x2748774c, 0x34b0bcb5, 0x391c0cb3, 0x4ed8aa4a, 0x5b9cca4f, 0x682e6ff3,
   0x748f82ee, 0x78a5636f, 0x84c87814, 0x8cc70208, 0x90befffa, 0xa4506ceb, 0xbef9a3f7, 0xc67178f2]

/-- One round, for a word of the schedule and the constant of the round. -/
def round (s : HashState) (w k : Word) : HashState :=
  let t₁ := s.h + s.e.bigSigma1 + Word.choose s.e s.f s.g + k + w
  let t₂ := s.a.bigSigma0 + Word.majority s.a s.b s.c
  ⟨t₁ + t₂, s.a, s.b, s.c, s.d + t₁, s.e, s.f, s.g⟩

/-- The message schedule from a window of the last sixteen words, oldest first. -/
def schedule : ℕ → List Word → List Word
  | 0, window => window
  | n + 1, w₀ :: window =>
    let next := (window.getD 13 0).smallSigma1 + window.getD 8 0 +
      (window.getD 0 0).smallSigma0 + w₀
    w₀ :: schedule n (window ++ [next])
  | _ + 1, [] => []

/-- Mix one block of sixteen words into the chaining value. -/
def compress (s : HashState) (block : List Word) : HashState :=
  let t := ((schedule 48 block).zip roundConstants).foldl (fun s wk => s.round wk.1 wk.2) s
  ⟨s.a + t.a, s.b + t.b, s.c + t.c, s.d + t.d, s.e + t.e, s.f + t.f, s.g + t.g, s.h + t.h⟩

/-- The octets of the final chaining value. -/
def digest (s : HashState) : Bytes :=
  [s.a, s.b, s.c, s.d, s.e, s.f, s.g, s.h].flatMap Word.toBytes

end HashState

/-! ### Hashing -/

/-- The padding after a message of `length` octets: a marker, zeros up to the last eight octets of
a block, and the length in bits. -/
def sha256Padding (length : ℕ) : Bytes :=
  0x80 :: List.replicate ((119 - length % 64) % 64) 0 ++
    (List.range 8).reverse.map fun i => .ofNat (8 * length / 256 ^ i)

/-- The words of some octets. -/
def wordsOf (data : Bytes) : List Word := (data.toChunks 4).map Word.ofBytes

/-- `hashlib.sha256(data).digest()`. -/
def sha256 (data : Bytes) : Bytes :=
  (((wordsOf (data ++ sha256Padding data.length)).toChunks 16).foldl HashState.compress
    .initial).digest

/-- A digest has thirty-two octets. -/
theorem length_sha256 (data : Bytes) : (sha256 data).length = 32 := rfl

/-- The digest of `abc`. -/
example : hex (sha256 [97, 98, 99]) =
    lit "ba7816bf8f01cfea414140de5dae2223b00361a396177a9cb410ff61f20015ad" := by
  decide +kernel

end Python
