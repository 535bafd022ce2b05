/-!
# SHA-256

The digest of a byte string: the padded message is cut into blocks of sixteen big-endian words,
each block is stretched to sixty-four words and stirred into a state of eight words. The digest is
the state's thirty-two bytes, written as sixty-four lower-case hexadecimal digits.
-/

namespace HttpDns.Digest.Sha256

/-- The chaining state. -/
structure State where
  a : UInt32
  b : UInt32
  c : UInt32
  d : UInt32
  e : UInt32
  f : UInt32
  g : UInt32
  h : UInt32

/-- The leading bits of the fractional parts of the first eight primes' square roots. -/
def State.initial : State :=
  ⟨0x6a09e667, 0xbb67ae85, 0x3c6ef372, 0xa54ff53a, 0x510e527f, 0x9b05688c, 0x1f83d9ab, 0x5be0cd19⟩

def State.words (s : State) : List UInt32 :=
  [s.a, s.b, s.c, s.d, s.e, s.f, s.g, s.h]

def State.add (s t : State) : State :=
  ⟨s.a + t.a, s.b + t.b, s.c + t.c, s.d + t.d, s.e + t.e, s.f + t.f, s.g + t.g, s.h + t.h⟩

/-- The leading bits of the fractional parts of the first sixty-four primes' cube roots. -/
def roundConstants : List UInt32 :=
  [0x428a2f98, 0x71374491, 0xb5c0fbcf, 0xe9b5dba5, 0x3956c25b, 0x59f111f1, 0x923f82a4, 0xab1c5ed5,
    0xd807aa98, 0x12835b01, 0x243185be, 0x550c7dc3, 0x72be5d74, 0x80deb1fe, 0x9bdc06a7, 0xc19bf174,
    0xe49b69c1, 0xefbe4786, 0x0fc19dc6, 0x240ca1cc, 0x2de92c6f, 0x4a7484aa, 0x5cb0a9dc, 0x76f988da,
    0x983e5152, 0xa831c66d, 0xb00327c8, 0xbf597fc7, 0xc6e00bf3, 0xd5a79147, 0x06ca6351, 0x14292967,
    0x27b70a85, 0x2e1b2138, 0x4d2c6dfc, 0x53380d13, 0x650a7354, 0x766a0abb, 0x81c2c92e, 0x92722c85,
    0xa2bfe8a1, 0xa81a664b, 0xc24b8b70, 0xc76c51a3, 0xd192e819, 0xd6990624, 0xf40e3585, 0x106aa070,
    0x19a4c116, 0x1e376c08, 0x2748774c, 0x34b0bcb5, 0x391c0cb3, 0x4ed8aa4a, 0x5b9cca4f, 0x682e6ff3,
    0x748f82ee, 0x78a5636f, 0x84c87814, 0x8cc70208, 0x90befffa, 0xa4506ceb, 0xbef9a3f7, 0xc67178f2]

def rotateRight (x : UInt32) (n : UInt32) : UInt32 :=
  (x >>> n) ||| (x <<< (32 - n))

def smallSigma0 (x : UInt32) : UInt32 :=
  rotateRight x 7 ^^^ rotateRight x 18 ^^^ (x >>> 3)

def smallSigma1 (x : UInt32) : UInt32 :=
  rotateRight x 17 ^^^ rotateRight x 19 ^^^ (x >>> 10)

def bigSigma0 (x : UInt32) : UInt32 :=
  rotateRight x 2 ^^^ rotateRight x 13 ^^^ rotateRight x 22

def bigSigma1 (x : UInt32) : UInt32 :=
  rotateRight x 6 ^^^ rotateRight x 11 ^^^ rotateRight x 25

/-- The next words of a schedule whose last sixteen words are the window. -/
def schedule : Nat → (window : List UInt32) → List UInt32
  | 0, _ => []
  | n + 1, window =>
    let next := smallSigma1 (window.getD 14 0) + window.getD 9 0 + smallSigma0 (window.getD 1 0)
      + window.getD 0 0
    window.getD 0 0 :: schedule n (window.drop 1 ++ [next])

/-- One round, with the round constant and the schedule word added up. -/
def stir (s : State) (input : UInt32) : State :=
  let choice := (s.e &&& s.f) ^^^ ((~~~ s.e) &&& s.g)
  let majority := (s.a &&& s.b) ^^^ (s.a &&& s.c) ^^^ (s.b &&& s.c)
  let t := s.h + bigSigma1 s.e + choice + input
  ⟨t + bigSigma0 s.a + majority, s.a, s.b, s.c, s.d + t, s.e, s.f, s.g⟩

/-- The state after one block of sixteen words. -/
def compress (s : State) (block : List UInt32) : State :=
  s.add ((List.zipWith (· + ·) roundConstants (schedule 64 block)).foldl stir s)

/-- The eight big-endian bytes of a number below `2 ^ 64`. -/
def lengthBytes (n : Nat) : List UInt8 :=
  [56, 48, 40, 32, 24, 16, 8, 0].map fun s => UInt8.ofNat (n >>> s)

/-- The message with a one bit, zeros and its length in bits, to a multiple of sixty-four bytes. -/
def pad (message : List UInt8) : List UInt8 :=
  message ++ 0x80 :: List.replicate ((119 - message.length % 64) % 64) 0
    ++ lengthBytes (8 * message.length)

def wordOf (b0 b1 b2 b3 : UInt8) : UInt32 :=
  (b0.toUInt32 <<< 24) ||| (b1.toUInt32 <<< 16) ||| (b2.toUInt32 <<< 8) ||| b3.toUInt32

/-- The big-endian words of a byte string whose length is a multiple of four. -/
def wordsOf : List UInt8 → List UInt32
  | b0 :: b1 :: b2 :: b3 :: rest => wordOf b0 b1 b2 b3 :: wordsOf rest
  | _ => []

/-- The state after the given number of blocks. -/
def absorb : Nat → State → List UInt32 → State
  | 0, s, _ => s
  | n + 1, s, words => absorb n (compress s (words.take 16)) (words.drop 16)

def bytesOf (w : UInt32) : List UInt8 :=
  [(w >>> 24).toUInt8, (w >>> 16).toUInt8, (w >>> 8).toUInt8, w.toUInt8]

/-- The digest of a message. -/
def digest (message : List UInt8) : List UInt8 :=
  let words := wordsOf (pad message)
  (absorb (words.length / 16) State.initial words).words.flatMap bytesOf

def hexDigit (n : Nat) : Char :=
  Char.ofNat (if n < 10 then 0x30 + n else 0x57 + n)

/-- Two lower-case digits for each byte. -/
def hex (bytes : List UInt8) : List Char :=
  bytes.flatMap fun b => [hexDigit (b.toNat / 16), hexDigit (b.toNat % 16)]

/-- A digest has thirty-two bytes. -/
theorem length_digest (message : List UInt8) : (digest message).length = 32 := by
  simp [digest, State.words, bytesOf]

theorem length_hex : ∀ bytes : List UInt8, (hex bytes).length = 2 * bytes.length
  | [] => rfl
  | b :: bytes => by
    have := length_hex bytes
    simp only [hex, List.flatMap_cons, List.length_append, List.length_cons, List.length_nil]
      at this ⊢
    omega

end HttpDns.Digest.Sha256
