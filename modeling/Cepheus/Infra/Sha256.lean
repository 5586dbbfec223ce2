import Cepheus.Infra.Octets

/-!
# SHA-256

`crypto/sha256` and `encoding/hex`: the digest of FIPS 180-4, as a function that can be evaluated.
-/

namespace Cepheus.Infra

/-- `hex.EncodeToString`. -/
def hexEncode (b : Octets) : String :=
  String.ofList (b.flatMap fun o => [Nat.digitChar (o.toNat / 16), Nat.digitChar (o.toNat % 16)])

/-- `[]byte(s)`. -/
def octets (s : String) : Octets := s.toUTF8.data.toList

namespace Sha256

/-- The eight working variables. -/
structure Digest where
  a : UInt32
  b : UInt32
  c : UInt32
  d : UInt32
  e : UInt32
  f : UInt32
  g : UInt32
  h : UInt32

def init : Digest where
  a := 0x6a09e667
  b := 0xbb67ae85
  c := 0x3c6ef372
  d := 0xa54ff53a
  e := 0x510e527f
  f := 0x9b05688c
  g := 0x1f83d9ab
  h := 0x5be0cd19

/-- The constants of the rounds. -/
def constants : List UInt32 :=
  [0x428a2f98, 0x71374491, 0xb5c0fbcf, 0xe9b5dba5, 0x3956c25b, 0x59f111f1, 0x923f82a4, 0xab1c5ed5,
   0xd807aa98, 0x12835b01, 0x243185be, 0x550c7dc3, 0x72be5d74, 0x80deb1fe, 0x9bdc06a7, 0xc19bf174,
   0xe49b69c1, 0xefbe4786, 0x0fc19dc6, 0x240ca1cc, 0x2de92c6f, 0x4a7484aa, 0x5cb0a9dc, 0x76f988da,
   0x983e5152, 0xa831c66d, 0xb00327c8, 0xbf597fc7, 0xc6e00bf3, 0xd5a79147, 0x06ca6351, 0x14292967,
   0x27b70a85, 0x2e1b2138, 0x4d2c6dfc, 0x53380d13, 0x650a7354, 0x766a0abb, 0x81c2c92e, 0x92722c85,
   0xa2bfe8a1, 0xa81a664b, 0xc24b8b70, 0xc76c51a3, 0xd192e819, 0xd6990624, 0xf40e3585, 0x106aa070,
   0x19a4c116, 0x1e376c08, 0x2748774c, 0x34b0bcb5, 0x391c0cb3, 0x4ed8aa4a, 0x5b9cca4f, 0x682e6ff3,
   0x748f82ee, 0x78a5636f, 0x84c87814, 0x8cc70208, 0x90befffa, 0xa4506ceb, 0xbef9a3f7, 0xc67178f2]

def rotr (x : UInt32) (n : UInt32) : UInt32 := (x >>> n) ||| (x <<< (32 - n))

/-- One round, with its constant and its word of the message. -/
def round (s : Digest) (k w : UInt32) : Digest :=
  let sum1 := rotr s.e 6 ^^^ rotr s.e 11 ^^^ rotr s.e 25
  let ch := (s.e &&& s.f) ^^^ (~~~s.e &&& s.g)
  let t1 := s.h + sum1 + ch + k + w
  let sum0 := rotr s.a 2 ^^^ rotr s.a 13 ^^^ rotr s.a 22
  let maj := (s.a &&& s.b) ^^^ (s.a &&& s.c) ^^^ (s.b &&& s.c)
  let t2 := sum0 + maj
  { a := t1 + t2, b := s.a, c := s.b, d := s.c, e := s.d + t1, f := s.e, g := s.f, h := s.g }

/-- The word sixteen places after the first of the window. -/
def nextWord (window : List UInt32) : UInt32 :=
  let w0 := window.getD 0 0
  let w1 := window.getD 1 0
  let w9 := window.getD 9 0
  let w14 := window.getD 14 0
  let sigma0 := rotr w1 7 ^^^ rotr w1 18 ^^^ (w1 >>> 3)
  let sigma1 := rotr w14 17 ^^^ rotr w14 19 ^^^ (w14 >>> 10)
  w0 + sigma0 + w9 + sigma1

/-- The rounds for the constants that are left, with the next sixteen words of the message. -/
def rounds : List UInt32 → List UInt32 → Digest → Digest
  | [], _, s => s
  | k :: ks, window, s =>
    rounds ks (window.tail ++ [nextWord window]) (round s k (window.getD 0 0))

/-- The first words of some octets. -/
def words : Nat → Octets → List UInt32
  | 0, _ => []
  | n + 1, b => uint32 (b.take 4) :: words n (b.drop 4)

/-- The digest with one more block of 64 octets. -/
def compress (s : Digest) (block : Octets) : Digest :=
  let r := rounds constants (words 16 block) s
  { a := s.a + r.a, b := s.b + r.b, c := s.c + r.c, d := s.d + r.d
    e := s.e + r.e, f := s.f + r.f, g := s.g + r.g, h := s.h + r.h }

/-- A one bit, zeros up to eight octets before the end of a block, and the length in bits. -/
def pad (b : Octets) : Octets :=
  b ++ 0x80 :: (List.replicate ((119 - b.length % 64) % 64) 0 ++ be 8 (8 * b.length))

def blocks : Nat → Octets → Digest → Digest
  | 0, _, s => s
  | n + 1, b, s => blocks n (b.drop 64) (compress s (b.take 64))

end Sha256

open Sha256 in
/-- `sha256.Sum256`. -/
def sum256 (b : Octets) : Octets :=
  let s := blocks ((pad b).length / 64) (pad b) init
  [s.a, s.b, s.c, s.d, s.e, s.f, s.g, s.h].flatMap fun w => be 4 w.toNat

-- the message is one octet too long for a single block
example :
    hexEncode (sum256 (octets "abcdbcdecdefdefgefghfghighijhijkijkljklmklmnlmnomnopnopq")) =
      "248d6a61d20638b8e5c026930c3e6039a33ce45964ff2167f6ecedd419db06c1" := by
  decide +kernel

end Cepheus.Infra
