import NeutronTge.MerkleAirdrop.Contract

/-!
# NeutronTge.MerkleAirdrop.Codec

SHA-256 and hexadecimal text, for the runs on concrete inputs. A word is a number below 2^32.
-/

namespace NeutronTge.MerkleAirdrop

/-! ### SHA-256 -/

/-- The eight words of the hash state. -/
structure HashState where
  a : Nat
  b : Nat
  c : Nat
  d : Nat
  e : Nat
  f : Nat
  g : Nat
  h : Nat

namespace Sha256

/-- Addition of 32-bit words. -/
def addWord (x y : Nat) : Nat := (x + y) % 2 ^ 32

/-- Rotation of a 32-bit word. -/
def rotateRight (n x : Nat) : Nat := x >>> n ||| x <<< (32 - n) % 2 ^ 32

/-- The function Σ₀ of SHA-256. -/
def bigSigma0 (x : Nat) : Nat := rotateRight 2 x ^^^ rotateRight 13 x ^^^ rotateRight 22 x

/-- The function Σ₁ of SHA-256. -/
def bigSigma1 (x : Nat) : Nat := rotateRight 6 x ^^^ rotateRight 11 x ^^^ rotateRight 25 x

/-- The function σ₀ of SHA-256. -/
def smallSigma0 (x : Nat) : Nat := rotateRight 7 x ^^^ rotateRight 18 x ^^^ x >>> 3

/-- The function σ₁ of SHA-256. -/
def smallSigma1 (x : Nat) : Nat := rotateRight 17 x ^^^ rotateRight 19 x ^^^ x >>> 10

/-- Bits of `y` where `x` is set, and of `z` elsewhere. -/
def choose (x y z : Nat) : Nat := x &&& y ^^^ (2 ^ 32 - 1 - x) &&& z

/-- The bits that most of the three words have. -/
def majority (x y z : Nat) : Nat := x &&& y ^^^ x &&& z ^^^ y &&& z

/-- The round constants of SHA-256. -/
def constants : List Nat :=
  [0x428a2f98, 0x71374491, 0xb5c0fbcf, 0xe9b5dba5, 0x3956c25b, 0x59f111f1, 0x923f82a4, 0xab1c5ed5,
   0xd807aa98, 0x12835b01, 0x243185be, 0x550c7dc3, 0x72be5d74, 0x80deb1fe, 0x9bdc06a7, 0xc19bf174,
   0xe49b69c1, 0xefbe4786, 0x0fc19dc6, 0x240ca1cc, 0x2de92c6f, 0x4a7484aa, 0x5cb0a9dc, 0x76f988da,
   0x983e5152, 0xa831c66d, 0xb00327c8, 0xbf597fc7, 0xc6e00bf3, 0xd5a79147, 0x06ca6351, 0x14292967,
   0x27b70a85, 0x2e1b2138, 0x4d2c6dfc, 0x53380d13, 0x650a7354, 0x766a0abb, 0x81c2c92e, 0x92722c85,
   0xa2bfe8a1, 0xa81a664b, 0xc24b8b70, 0xc76c51a3, 0xd192e819, 0xd6990624, 0xf40e3585, 0x106aa070,
   0x19a4c116, 0x1e376c08, 0x2748774c, 0x34b0bcb5, 0x391c0cb3, 0x4ed8aa4a, 0x5b9cca4f, 0x682e6ff3,
   0x748f82ee, 0x78a5636f, 0x84c87814, 0x8cc70208, 0x90befffa, 0xa4506ceb, 0xbef9a3f7, 0xc67178f2]

/-- The state that SHA-256 starts with. -/
def start : HashState :=
  ⟨0x6a09e667, 0xbb67ae85, 0x3c6ef372, 0xa54ff53a, 0x510e527f, 0x9b05688c, 0x1f83d9ab, 0x5be0cd19⟩

/-- Compute a word before it is used. -/
def withWord {α : Type} (x : Nat) (f : Nat → α) : α :=
  match x with
  | 0 => f 0
  | n + 1 => f (n + 1)

/-- One round with its constant and its word of the schedule. -/
def round (s : HashState) (k word : Nat) : HashState :=
  withWord (addWord s.h (addWord (bigSigma1 s.e) (addWord (choose s.e s.f s.g)
    (addWord k word)))) fun t₁ =>
  withWord (addWord s.d t₁) fun e =>
  withWord (addWord t₁ (addWord (bigSigma0 s.a) (majority s.a s.b s.c))) fun a =>
  ⟨a, s.a, s.b, s.c, e, s.e, s.f, s.g⟩

/-- The next word of the schedule after the last sixteen. -/
def nextWord (window : List Nat) : Nat :=
  addWord (addWord (smallSigma1 (window.getD 14 0)) (window.getD 9 0))
    (addWord (smallSigma0 (window.getD 1 0)) (window.getD 0 0))

/-- The rounds of one block. -/
def rounds : List Nat → List Nat → HashState → HashState
  | [], _, s => s
  | k :: ks, window, s =>
      withWord (nextWord window) fun next =>
      rounds ks (window.tail ++ [next]) (round s k (window.headD 0))

/-- One block of sixteen words. -/
def compress (s : HashState) (block : List Nat) : HashState :=
  let r := rounds constants block s
  ⟨addWord s.a r.a, addWord s.b r.b, addWord s.c r.c, addWord s.d r.d, addWord s.e r.e,
    addWord s.f r.f, addWord s.g r.g, addWord s.h r.h⟩

/-- A number as big-endian bytes. -/
def toBytes : Nat → Nat → List UInt8
  | 0, _ => []
  | n + 1, x => UInt8.ofNat (x >>> (8 * n)) :: toBytes n x

/-- Four bytes as one word. -/
def toWord (bytes : List UInt8) : Nat := bytes.foldl (fun x byte => x * 256 + byte.toNat) 0

/-- The message with its padding and its length. -/
def padded (m : Bytes) : Bytes :=
  m ++ 0x80 :: List.replicate ((119 - m.length % 64) % 64) 0 ++ toBytes 8 (8 * m.length)

theorem toBytes_length : ∀ n x, (toBytes n x).length = n := by
  intro n
  induction n with
  | zero => exact fun _ => rfl
  | succ n ih => exact fun x => congrArg Nat.succ (ih x)

/-- The digest is the eight words. -/
def HashState.digest (s : HashState) : Digest where
  bytes := toBytes 4 s.a ++ toBytes 4 s.b ++ toBytes 4 s.c ++ toBytes 4 s.d ++ toBytes 4 s.e ++
    toBytes 4 s.f ++ toBytes 4 s.g ++ toBytes 4 s.h
  length_eq := by simp only [List.length_append, toBytes_length]

end Sha256

/-- SHA-256. -/
def sha256 (m : Bytes) : Digest :=
  Sha256.HashState.digest
    ((((Sha256.padded m).toChunks 4).map Sha256.toWord).toChunks 16 |>.foldl Sha256.compress
      Sha256.start)

/-! ### Hexadecimal text -/

/-- The value of a hexadecimal digit. -/
def hexValue (c : Char) : Option Nat :=
  if '0' ≤ c ∧ c ≤ '9' then some (c.toNat - '0'.toNat)
  else if 'a' ≤ c ∧ c ≤ 'f' then some (c.toNat - 'a'.toNat + 10)
  else if 'A' ≤ c ∧ c ≤ 'F' then some (c.toNat - 'A'.toNat + 10)
  else none

/-- The bytes of a text; `index` counts its characters. -/
def hexBytes : Nat → List Char → Except FromHexError Bytes
  | index, high :: low :: rest => do
      let h ← CosmWasm.okOr (hexValue high) (.invalidHexCharacter high index)
      let l ← CosmWasm.okOr (hexValue low) (.invalidHexCharacter low (index + 1))
      let bytes ← hexBytes (index + 2) rest
      .ok (UInt8.ofNat (h * 16 + l) :: bytes)
  | _, _ => .ok []

/-- `hex::decode_to_slice` into 32 bytes. -/
def decodeToSlice (text : String) : Except FromHexError Digest :=
  if text.utf8ByteSize % 2 = 1 then .error .oddLength
  else if text.utf8ByteSize / 2 ≠ 32 then .error .invalidStringLength
  else do
    let bytes ← hexBytes 0 text.toList
    if h : bytes.length = 32 then .ok ⟨bytes, h⟩ else .error .invalidStringLength

/-- The packages as they are. -/
def codec : Codec := ⟨sha256, decodeToSlice⟩

example : (decodeToSlice "ba7816bf8f01cfea414140de5dae2223b00361a396177a9cb410ff61f20015ad").map
    Digest.bytes = .ok (sha256 "abc".toUTF8.data.toList).bytes := by
  decide +kernel

end NeutronTge.MerkleAirdrop
