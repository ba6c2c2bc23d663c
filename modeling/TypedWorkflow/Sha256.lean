/-!
# SHA-256

The secure hash algorithm with a digest of 256 bits, on lists of bytes.

## Main definitions

* `Sha256.digest`: the eight words of the digest of a message.
-/

namespace TypedWorkflow.Sha256

-- powers are those of the core library, whatever else is imported
attribute [local instance (high)] instPowNat

/-! ## Words -/

/-- Rotation to the right. -/
def rotate (x n : UInt32) : UInt32 :=
  (x >>> n) ||| (x <<< (32 - n))

/-- The two functions that extend the message schedule, and the two of the rounds. -/
def schedule0 (x : UInt32) : UInt32 := rotate x 7 ^^^ rotate x 18 ^^^ (x >>> 3)

@[inherit_doc schedule0] def schedule1 (x : UInt32) : UInt32 :=
  rotate x 17 ^^^ rotate x 19 ^^^ (x >>> 10)

@[inherit_doc schedule0] def round0 (x : UInt32) : UInt32 :=
  rotate x 2 ^^^ rotate x 13 ^^^ rotate x 22

@[inherit_doc schedule0] def round1 (x : UInt32) : UInt32 :=
  rotate x 6 ^^^ rotate x 11 ^^^ rotate x 25

/-- The bits of `y` where `x` is set, and of `z` elsewhere. -/
def choose (x y z : UInt32) : UInt32 :=
  (x &&& y) ^^^ (~~~x &&& z)

/-- The bits that are set in most of three words. -/
def majority (x y z : UInt32) : UInt32 :=
  (x &&& y) ^^^ (x &&& z) ^^^ (y &&& z)

/-- The constants of the rounds: fractions of the cube roots of the first 64 primes. -/
def roundConstants : List UInt32 :=
  [0x428a2f98, 0x71374491, 0xb5c0fbcf, 0xe9b5dba5, 0x3956c25b, 0x59f111f1, 0x923f82a4, 0xab1c5ed5,
    0xd807aa98, 0x12835b01, 0x243185be, 0x550c7dc3, 0x72be5d74, 0x80deb1fe, 0x9bdc06a7, 0xc19bf174,
    0xe49b69c1, 0xefbe4786, 0x0fc19dc6, 0x240ca1cc, 0x2de92c6f, 0x4a7484aa, 0x5cb0a9dc, 0x76f988da,
    0x983e5152, 0xa831c66d, 0xb00327c8, 0xbf597fc7, 0xc6e00bf3, 0xd5a79147, 0x06ca6351, 0x14292967,
    0x27b70a85, 0x2e1b2138, 0x4d2c6dfc, 0x53380d13, 0x650a7354, 0x766a0abb, 0x81c2c92e, 0x92722c85,
    0xa2bfe8a1, 0xa81a664b, 0xc24b8b70, 0xc76c51a3, 0xd192e819, 0xd6990624, 0xf40e3585, 0x106aa070,
    0x19a4c116, 0x1e376c08, 0x2748774c, 0x34b0bcb5, 0x391c0cb3, 0x4ed8aa4a, 0x5b9cca4f, 0x682e6ff3,
    0x748f82ee, 0x78a5636f, 0x84c87814, 0x8cc70208, 0x90befffa, 0xa4506ceb, 0xbef9a3f7, 0xc67178f2]

/-! ## Compression -/

/-- The eight words that a digest is computed in. -/
structure State where
  a : UInt32
  b : UInt32
  c : UInt32
  d : UInt32
  e : UInt32
  f : UInt32
  g : UInt32
  h : UInt32

/-- The first state: fractions of the square roots of the first eight primes. -/
def State.initial : State :=
  ⟨0x6a09e667, 0xbb67ae85, 0x3c6ef372, 0xa54ff53a, 0x510e527f, 0x9b05688c, 0x1f83d9ab, 0x5be0cd19⟩

/-- Addition word by word. -/
def State.add (s t : State) : State :=
  ⟨s.a + t.a, s.b + t.b, s.c + t.c, s.d + t.d, s.e + t.e, s.f + t.f, s.g + t.g, s.h + t.h⟩

/-- One round with its constant and its word of the schedule. -/
def State.round (s : State) (constant word : UInt32) : State :=
  let t := s.h + round1 s.e + choose s.e s.f s.g + constant + word
  let u := round0 s.a + majority s.a s.b s.c
  ⟨t + u, s.a, s.b, s.c, s.d + t, s.e, s.f, s.g⟩

/-- Extends a schedule, the latest word first, by a number of words. -/
def extend : Nat → List UInt32 → List UInt32
  | 0, words => words
  | n + 1, words =>
    let word := schedule1 (words.getD 1 0) + words.getD 6 0 + schedule0 (words.getD 14 0) +
      words.getD 15 0
    extend n (word :: words)

/-- The state after a block of sixteen words. -/
def State.compress (s : State) (block : List UInt32) : State :=
  let schedule := (extend 48 block.reverse).reverse
  s.add ((roundConstants.zip schedule).foldl (fun t (k, w) => t.round k w) s)

/-! ## Messages -/

/-- The number that bytes denote, the most significant first. -/
def ofBytes (bytes : List UInt8) : Nat :=
  bytes.foldl (fun n b => 256 * n + b.toNat) 0

/-- The bytes of a message up to a whole number of blocks: a set bit, clear bits, and the length
of the message in bits as the last eight bytes. -/
def pad (message : List UInt8) : List UInt8 :=
  let length := message.length
  let zeros := (119 - length % 64) % 64
  let bits := 8 * length
  let bitBytes := (List.range 8).map fun i => UInt8.ofNat (bits / 256 ^ (7 - i))
  message ++ 0x80 :: (List.replicate zeros 0 ++ bitBytes)

/-- The parts of a list of the given length; what is left at the end is dropped. -/
def blocks {α : Type} (size : Nat) (xs : List α) : List (List α) :=
  (List.range (xs.length / size)).map fun i => (xs.drop (size * i)).take size

/-- The words of the digest of a message. -/
def digest (message : List UInt8) : State :=
  (blocks 64 (pad message)).foldl
    (fun s block => s.compress ((blocks 4 block).map fun word => UInt32.ofNat (ofBytes word)))
    State.initial

end TypedWorkflow.Sha256
