import VehicleOta.Python.Basics

/-!
# SHA-256, HMAC-SHA256 and CRC-32

The digests of `hashlib`, `hmac` and `binascii` on byte lists, written so that the kernel
can run them.  No proof about the vehicle unfolds them.
-/

namespace Hash

open VehicleOta (Bytes intFromBytes intToBytes)

/-! ## SHA-256 -/

def rotr (x : UInt32) (n : UInt32) : UInt32 := (x >>> n) ||| (x <<< (32 - n))

def roundConstants : List UInt32 :=
  [0x428a2f98, 0x71374491, 0xb5c0fbcf, 0xe9b5dba5, 0x3956c25b, 0x59f111f1, 0x923f82a4,
   0xab1c5ed5, 0xd807aa98, 0x12835b01, 0x243185be, 0x550c7dc3, 0x72be5d74, 0x80deb1fe,
   0x9bdc06a7, 0xc19bf174, 0xe49b69c1, 0xefbe4786, 0x0fc19dc6, 0x240ca1cc, 0x2de92c6f,
   0x4a7484aa, 0x5cb0a9dc, 0x76f988da, 0x983e5152, 0xa831c66d, 0xb00327c8, 0xbf597fc7,
   0xc6e00bf3, 0xd5a79147, 0x06ca6351, 0x14292967, 0x27b70a85, 0x2e1b2138, 0x4d2c6dfc,
   0x53380d13, 0x650a7354, 0x766a0abb, 0x81c2c92e, 0x92722c85, 0xa2bfe8a1, 0xa81a664b,
   0xc24b8b70, 0xc76c51a3, 0xd192e819, 0xd6990624, 0xf40e3585, 0x106aa070, 0x19a4c116,
   0x1e376c08, 0x2748774c, 0x34b0bcb5, 0x391c0cb3, 0x4ed8aa4a, 0x5b9cca4f, 0x682e6ff3,
   0x748f82ee, 0x78a5636f, 0x84c87814, 0x8cc70208, 0x90befffa, 0xa4506ceb, 0xbef9a3f7,
   0xc67178f2]

/-- The eight chaining words. -/
structure State where
  a : UInt32
  b : UInt32
  c : UInt32
  d : UInt32
  e : UInt32
  f : UInt32
  g : UInt32
  h : UInt32

def initial : State :=
  ⟨0x6a09e667, 0xbb67ae85, 0x3c6ef372, 0xa54ff53a, 0x510e527f, 0x9b05688c, 0x1f83d9ab,
   0x5be0cd19⟩

def State.add (s t : State) : State :=
  ⟨s.a + t.a, s.b + t.b, s.c + t.c, s.d + t.d, s.e + t.e, s.f + t.f, s.g + t.g, s.h + t.h⟩

def State.bytes (s : State) : Bytes :=
  [s.a, s.b, s.c, s.d, s.e, s.f, s.g, s.h].flatMap fun w ↦ intToBytes 4 w.toNat

def round (s : State) (kw : UInt32 × UInt32) : State :=
  let s1 := rotr s.e 6 ^^^ rotr s.e 11 ^^^ rotr s.e 25
  let choice := (s.e &&& s.f) ^^^ (~~~s.e &&& s.g)
  let t1 := s.h + s1 + choice + kw.1 + kw.2
  let s0 := rotr s.a 2 ^^^ rotr s.a 13 ^^^ rotr s.a 22
  let majority := (s.a &&& s.b) ^^^ (s.a &&& s.c) ^^^ (s.b &&& s.c)
  ⟨t1 + (s0 + majority), s.a, s.b, s.c, s.d + t1, s.e, s.f, s.g⟩

/-- One more word of the message schedule; `ws` holds the words so far, the newest first. -/
def nextWord (ws : List UInt32) : UInt32 :=
  let x := ws.getD 14 0
  let y := ws.getD 1 0
  let s0 := rotr x 7 ^^^ rotr x 18 ^^^ (x >>> 3)
  let s1 := rotr y 17 ^^^ rotr y 19 ^^^ (y >>> 10)
  ws.getD 15 0 + s0 + ws.getD 6 0 + s1

def schedule (block : Bytes) : List UInt32 :=
  let words := (List.range 16).map fun i ↦
    UInt32.ofNat (intFromBytes ((block.drop (4 * i)).take 4))
  ((List.range 48).foldl (fun ws _ ↦ nextWord ws :: ws) words.reverse).reverse

def compress (s : State) (block : Bytes) : State :=
  s.add ((roundConstants.zip (schedule block)).foldl round s)

def pad (message : Bytes) : Bytes :=
  message ++ 0x80 :: List.replicate ((119 - message.length % 64) % 64) 0 ++
    intToBytes 8 (8 * message.length)

/-- `hashlib.sha256(message).digest()` -/
@[irreducible] def sha256 (message : Bytes) : Bytes :=
  let padded := pad message
  ((List.range (padded.length / 64)).foldl
    (fun s i ↦ compress s ((padded.drop (64 * i)).take 64)) initial).bytes

theorem length_sha256 (message : Bytes) : (sha256 message).length = 32 := by
  rw [sha256]
  rfl

/-- The digest of the three letters "abc" in FIPS 180-4. -/
example : sha256 [0x61, 0x62, 0x63] =
    [0xba, 0x78, 0x16, 0xbf, 0x8f, 0x01, 0xcf, 0xea, 0x41, 0x41, 0x40, 0xde, 0x5d, 0xae, 0x22,
     0x23, 0xb0, 0x03, 0x61, 0xa3, 0x96, 0x17, 0x7a, 0x9c, 0xb4, 0x10, 0xff, 0x61, 0xf2, 0x00,
     0x15, 0xad] := by
  decide +kernel

/-! ## HMAC -/

/-- `hmac.new(key, message, hashlib.sha256).digest()` -/
@[irreducible] def hmacSha256 (key message : Bytes) : Bytes :=
  let key := if 64 < key.length then sha256 key else key
  let block := key ++ List.replicate (64 - key.length) 0
  sha256 (block.map (· ^^^ 0x5c) ++ sha256 (block.map (· ^^^ 0x36) ++ message))

/-! ## CRC-32 -/

def crcBit (crc : UInt32) : UInt32 :=
  if crc &&& 1 = 1 then (crc >>> 1) ^^^ 0xedb88320 else crc >>> 1

def crcByte (crc : UInt32) (b : UInt8) : UInt32 :=
  (List.range 8).foldl (fun c _ ↦ crcBit c) (crc ^^^ UInt32.ofNat b.toNat)

/-- `binascii.crc32(message)` -/
@[irreducible] def crc32 (message : Bytes) : ℕ :=
  (message.foldl crcByte 0xffffffff ^^^ 0xffffffff).toNat

theorem crc32_lt (message : Bytes) : crc32 message < 256 ^ 4 := by
  rw [crc32]
  exact UInt32.toNat_lt _

/-- The check value of CRC-32: the nine digits "123456789". -/
example : crc32 [0x31, 0x32, 0x33, 0x34, 0x35, 0x36, 0x37, 0x38, 0x39] = 0xcbf43926 := by
  decide +kernel

/-! ## Hexadecimal digests -/

def hexDigit (n : ℕ) : Char := "0123456789abcdef".toList.getD n '0'

/-- `digest.hex()` -/
def hexDigest (digest : Bytes) : String :=
  String.ofList (digest.flatMap fun b ↦ [hexDigit (b.toNat / 16), hexDigit (b.toNat % 16)])

end Hash
