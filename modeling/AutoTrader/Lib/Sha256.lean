/-
  AutoTrader/Lib/Sha256.lean
  ==========================
  **SHA-256 of a text.**

  The hash of FIPS 180-4 over the UTF-8 bytes of a string, as lower-case hex.
  Words are naturals below 2^32; every function is structural, so that a digest
  can be evaluated by the kernel.
-/
import Mathlib.Algebra.Group.Nat.Defs
import Mathlib.Data.List.Basic

namespace Sha256

def rotr (x n : Nat) : Nat := (x >>> n ||| x <<< (32 - n)) % 2 ^ 32

def roundConstants : List Nat :=
  [0x428a2f98, 0x71374491, 0xb5c0fbcf, 0xe9b5dba5, 0x3956c25b, 0x59f111f1, 0x923f82a4, 0xab1c5ed5,
   0xd807aa98, 0x12835b01, 0x243185be, 0x550c7dc3, 0x72be5d74, 0x80deb1fe, 0x9bdc06a7, 0xc19bf174,
   0xe49b69c1, 0xefbe4786, 0x0fc19dc6, 0x240ca1cc, 0x2de92c6f, 0x4a7484aa, 0x5cb0a9dc, 0x76f988da,
   0x983e5152, 0xa831c66d, 0xb00327c8, 0xbf597fc7, 0xc6e00bf3, 0xd5a79147, 0x06ca6351, 0x14292967,
   0x27b70a85, 0x2e1b2138, 0x4d2c6dfc, 0x53380d13, 0x650a7354, 0x766a0abb, 0x81c2c92e, 0x92722c85,
   0xa2bfe8a1, 0xa81a664b, 0xc24b8b70, 0xc76c51a3, 0xd192e819, 0xd6990624, 0xf40e3585, 0x106aa070,
   0x19a4c116, 0x1e376c08, 0x2748774c, 0x34b0bcb5, 0x391c0cb3, 0x4ed8aa4a, 0x5b9cca4f, 0x682e6ff3,
   0x748f82ee, 0x78a5636f, 0x84c87814, 0x8cc70208, 0x90befffa, 0xa4506ceb, 0xbef9a3f7, 0xc67178f2]

/-- The eight working variables. -/
structure State where
  (a b c d e f g h : Nat)

def State.initial : State :=
  ⟨0x6a09e667, 0xbb67ae85, 0x3c6ef372, 0xa54ff53a, 0x510e527f, 0x9b05688c, 0x1f83d9ab, 0x5be0cd19⟩

def State.add (s t : State) : State :=
  ⟨(s.a + t.a) % 2 ^ 32, (s.b + t.b) % 2 ^ 32, (s.c + t.c) % 2 ^ 32, (s.d + t.d) % 2 ^ 32,
   (s.e + t.e) % 2 ^ 32, (s.f + t.f) % 2 ^ 32, (s.g + t.g) % 2 ^ 32, (s.h + t.h) % 2 ^ 32⟩

/-- One round; `kw` is the round constant plus the message word. -/
def round (s : State) (kw : Nat) : State :=
  let s1 := rotr s.e 6 ^^^ rotr s.e 11 ^^^ rotr s.e 25
  let ch := (s.e &&& s.f) ^^^ ((2 ^ 32 - 1 - s.e) &&& s.g)
  let t1 := s.h + s1 + ch + kw
  let s0 := rotr s.a 2 ^^^ rotr s.a 13 ^^^ rotr s.a 22
  let maj := (s.a &&& s.b) ^^^ (s.a &&& s.c) ^^^ (s.b &&& s.c)
  ⟨(t1 + s0 + maj) % 2 ^ 32, s.a, s.b, s.c, (s.d + t1) % 2 ^ 32, s.e, s.f, s.g⟩

/-- All rounds of a block, with the message schedule as a window of 16 words. -/
def rounds : List Nat → List Nat → State → State
  | [], _, s => s
  | k :: ks, w, s =>
    let w0 := w.getD 0 0
    let s0 := let x := w.getD 1 0; rotr x 7 ^^^ rotr x 18 ^^^ (x >>> 3)
    let s1 := let x := w.getD 14 0; rotr x 17 ^^^ rotr x 19 ^^^ (x >>> 10)
    rounds ks (w.tail ++ [(w0 + s0 + w.getD 9 0 + s1) % 2 ^ 32]) (round s (k + w0))

def compress (block : List Nat) (s : State) : State := s.add (rounds roundConstants block s)

/-- Big-endian words of a byte list whose length is a multiple of four. -/
def words : List Nat → List Nat
  | a :: b :: c :: d :: rest => (a <<< 24 ||| b <<< 16 ||| c <<< 8 ||| d) :: words rest
  | _ => []

def blocks : Nat → List Nat → State → State
  | 0, _, s => s
  | n + 1, ws, s => blocks n (ws.drop 16) (compress (ws.take 16) s)

def pad (bytes : List Nat) : List Nat :=
  let length := bytes.length
  bytes ++ [0x80] ++ List.replicate ((119 - length % 64) % 64) 0 ++
    (List.range 8).map fun i => (8 * length) >>> (8 * (7 - i)) % 256

def hexWord (n : Nat) : String :=
  String.ofList ((List.range 8).map fun i => Nat.digitChar ((n >>> (4 * (7 - i))) % 16))

def utf8 (s : String) : List Nat := (s.toList.flatMap String.utf8EncodeChar).map UInt8.toNat

/-- `hashlib.sha256(s.encode("utf-8")).hexdigest()`. -/
def hexdigest (s : String) : String :=
  let padded := pad (utf8 s)
  let r := blocks (padded.length / 64) (words padded) State.initial
  hexWord r.a ++ hexWord r.b ++ hexWord r.c ++ hexWord r.d ++
    hexWord r.e ++ hexWord r.f ++ hexWord r.g ++ hexWord r.h

example : hexdigest "abc" =
    "ba7816bf8f01cfea414140de5dae2223b00361a396177a9cb410ff61f20015ad" := by decide +kernel

end Sha256
