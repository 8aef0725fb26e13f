/-!
The 64-bit XXH3 digest, unseeded, of short byte strings. Strata are seeded by the digest of their
name and character grams are put into buckets by theirs; both are between 3 and 32 bytes long.
-/

namespace DefectGraphs.Text.Digest

/-- The bytes of the standard secret that short inputs are mixed with. -/
private def secret : List UInt8 :=
  [0xb8, 0xfe, 0x6c, 0x39, 0x23, 0xa4, 0x4b, 0xbe, 0x7c, 0x01, 0x81, 0x2c, 0xf7, 0x21, 0xad, 0x1c,
    0xde, 0xd4, 0x6d, 0xe9, 0x83, 0x90, 0x97, 0xdb, 0x72, 0x40, 0xa4, 0xa4, 0xb7, 0xb3, 0x67, 0x1f,
    0xcb, 0x79, 0xe6, 0x4e, 0xcc, 0xc0, 0xe5, 0x78, 0x82, 0x5a, 0xd0, 0x7d, 0xcc, 0xff, 0x72, 0x21,
    0xb8, 0x08, 0x46, 0x74, 0xf7, 0x43, 0x24, 0x8e, 0xe0, 0x35, 0x90, 0xe6, 0x81, 0x3a, 0x26, 0x4c]

private def prime1 : UInt64 := 0x9E3779B185EBCA87
private def prime2 : UInt64 := 0xC2B2AE3D27D4EB4F
private def prime3 : UInt64 := 0x165667B19E3779F9

/-- The number whose little-endian bytes are the `count` bytes from `offset` on. -/
private def wordAt (bytes : List UInt8) (offset count : Nat) : UInt64 :=
  ((bytes.drop offset).take count).foldr (fun byte word => (word <<< 8) ||| byte.toUInt64) 0

private def secretAt (offset : Nat) : UInt64 :=
  wordAt secret offset 8

private def rotate (word : UInt64) (count : UInt64) : UInt64 :=
  (word <<< count) ||| (word >>> (64 - count))

private def byteSwap (word : UInt64) : UInt64 :=
  (List.range 8).foldl
    (fun swapped index => (swapped <<< 8) ||| ((word >>> (8 * index.toUInt64)) &&& 0xFF)) 0

/-- The halves of the full product, combined. -/
private def fold (left right : UInt64) : UInt64 :=
  let product := left.toNat * right.toNat
  (product % UInt64.size).toUInt64 ^^^ (product / UInt64.size).toUInt64

private def avalanche (word : UInt64) : UInt64 :=
  let mixed := (word ^^^ (word >>> 37)) * 0x165667919E3779F9
  mixed ^^^ (mixed >>> 32)

private def avalancheShort (word : UInt64) : UInt64 :=
  let first := (word ^^^ (word >>> 33)) * prime2
  let second := (first ^^^ (first >>> 29)) * prime3
  second ^^^ (second >>> 32)

private def ofUpTo3 (bytes : List UInt8) (length : Nat) : UInt64 :=
  let first := wordAt bytes 0 1
  let middle := wordAt bytes (length / 2) 1
  let last := wordAt bytes (length - 1) 1
  let combined := (first <<< 16) ||| (middle <<< 24) ||| last ||| (length.toUInt64 <<< 8)
  avalancheShort (combined ^^^ wordAt secret 0 4 ^^^ wordAt secret 4 4)

private def ofUpTo8 (bytes : List UInt8) (length : Nat) : UInt64 :=
  let keyed := (wordAt bytes (length - 4) 4 + (wordAt bytes 0 4 <<< 32)) ^^^
    (secretAt 8 ^^^ secretAt 16)
  let rotated := keyed ^^^ rotate keyed 49 ^^^ rotate keyed 24
  let first := rotated * 0x9FB21C651E98DF25
  let second := (first ^^^ ((first >>> 35) + length.toUInt64)) * 0x9FB21C651E98DF25
  second ^^^ (second >>> 28)

private def ofUpTo16 (bytes : List UInt8) (length : Nat) : UInt64 :=
  let low := wordAt bytes 0 8 ^^^ (secretAt 24 ^^^ secretAt 32)
  let high := wordAt bytes (length - 8) 8 ^^^ (secretAt 40 ^^^ secretAt 48)
  avalanche (length.toUInt64 + byteSwap low + high + fold low high)

private def ofUpTo32 (bytes : List UInt8) (length : Nat) : UInt64 :=
  avalanche (length.toUInt64 * prime1 +
    fold (wordAt bytes 0 8 ^^^ secretAt 0) (wordAt bytes 8 8 ^^^ secretAt 8) +
    fold (wordAt bytes (length - 16) 8 ^^^ secretAt 16)
      (wordAt bytes (length - 8) 8 ^^^ secretAt 24))

/-- The digest of at most 32 bytes. No longer string is ever digested; it would have digest 0. -/
def ofBytes (bytes : List UInt8) : UInt64 :=
  let length := bytes.length
  if length = 0 then 0x2D06800538D394C2
  else if length ≤ 3 then ofUpTo3 bytes length
  else if length ≤ 8 then ofUpTo8 bytes length
  else if length ≤ 16 then ofUpTo16 bytes length
  else if length ≤ 32 then ofUpTo32 bytes length
  else 0

end Digest

def digest (text : String) : UInt64 :=
  Digest.ofBytes text.toUTF8.toList

end DefectGraphs.Text
