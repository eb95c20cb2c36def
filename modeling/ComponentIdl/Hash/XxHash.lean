/-!
# The 64-bit xxHash of a byte list, with seed zero

The bytes are cut into little-endian lanes of eight, with a tail of at most seven. Four lanes make a
stripe; four accumulators absorb the stripes, and a final hash absorbs the lanes and tail bytes that
are left. Every step is a function of its own on words that wrap at 64 bits, and each of them can be
undone: the primes are odd, so multiplication by one has an inverse.
-/

namespace ComponentIdl.Hash

def prime1 : UInt64 := 0x9E3779B185EBCA87
def prime2 : UInt64 := 0xC2B2AE3D27D4EB4F
def prime3 : UInt64 := 0x165667B19E3779F9
def prime4 : UInt64 := 0x85EBCA77C2B2AE63
def prime5 : UInt64 := 0x27D4EB2F165667C5

/-- The word with its upper `r` bits moved to the lower end, for `0 < r < 64`. -/
def rotateLeft (x r : UInt64) : UInt64 := (x <<< r) ||| (x >>> (64 - r))

def round (acc lane : UInt64) : UInt64 := rotateLeft (acc + lane * prime2) 31 * prime1

/-- The number written by the bytes, least significant first. -/
def ofLittleEndian (bytes : List UInt8) : UInt64 :=
  bytes.foldr (fun b rest => b.toUInt64 + (rest <<< 8)) 0

/-- The whole lanes of eight bytes, and the tail. -/
def lanes : List UInt8 → List UInt64 × List UInt8
  | b0 :: b1 :: b2 :: b3 :: b4 :: b5 :: b6 :: b7 :: rest =>
    let cut := lanes rest
    (ofLittleEndian [b0, b1, b2, b3, b4, b5, b6, b7] :: cut.1, cut.2)
  | tail => ([], tail)

/-- The accumulators of the four lanes of a stripe. -/
structure Accumulators where
  a : UInt64
  b : UInt64
  c : UInt64
  d : UInt64

namespace Accumulators

def start : Accumulators := ⟨prime1 + prime2, prime2, 0, 0 - prime1⟩

/-- All whole stripes are absorbed; the lanes left are at most three. -/
def absorb : Accumulators → List UInt64 → Accumulators × List UInt64
  | acc, w :: x :: y :: z :: rest =>
    absorb ⟨round acc.a w, round acc.b x, round acc.c y, round acc.d z⟩ rest
  | acc, rest => (acc, rest)

def join (hash acc : UInt64) : UInt64 := (hash ^^^ round 0 acc) * prime1 + prime4

def merge (acc : Accumulators) : UInt64 :=
  let hash := rotateLeft acc.a 1 + rotateLeft acc.b 7 + rotateLeft acc.c 12 + rotateLeft acc.d 18
  join (join (join (join hash acc.a) acc.b) acc.c) acc.d

end Accumulators

def absorbLane (hash lane : UInt64) : UInt64 :=
  rotateLeft (hash ^^^ round 0 lane) 27 * prime1 + prime4

/-- The hash absorbs half a lane, four bytes. -/
def absorbHalf (hash half : UInt64) : UInt64 :=
  rotateLeft (hash ^^^ (half * prime1)) 23 * prime2 + prime3

def absorbByte (hash : UInt64) (byte : UInt8) : UInt64 :=
  rotateLeft (hash ^^^ (byte.toUInt64 * prime5)) 11 * prime1

/-- The tail is absorbed as half a lane if it is long enough, then byte by byte. -/
def absorbTail (hash : UInt64) : List UInt8 → UInt64
  | b0 :: b1 :: b2 :: b3 :: rest =>
    rest.foldl absorbByte (absorbHalf hash (ofLittleEndian [b0, b1, b2, b3]))
  | rest => rest.foldl absorbByte hash

/-- The last mixing: every bit comes to depend on every other. -/
def avalanche (hash : UInt64) : UInt64 :=
  let h1 := (hash ^^^ (hash >>> 33)) * prime2
  let h2 := (h1 ^^^ (h1 >>> 29)) * prime3
  h2 ^^^ (h2 >>> 32)

def xxHash64 (bytes : List UInt8) : UInt64 :=
  let cut := lanes bytes
  let stripes :=
    if cut.1.length < 4 then (prime5, cut.1)
    else
      let absorbed := Accumulators.start.absorb cut.1
      (absorbed.1.merge, absorbed.2)
  let hash := stripes.1 + UInt64.ofNat bytes.length
  avalanche (absorbTail (stripes.2.foldl absorbLane hash) cut.2)

end ComponentIdl.Hash
