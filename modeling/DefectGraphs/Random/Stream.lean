/-!
The generator behind every random choice: the ChaCha keystream with eight rounds, read word by word.
A stream is a key and a position, so a word depends on nothing but the seed and on how many words
were read before it.
-/

namespace DefectGraphs.Random

abbrev Key := Vector UInt32 8

abbrev Block := Vector UInt32 16

/-- One step of the generator that spreads a 64-bit seed over the words of a key. -/
private def nextSeed (state : UInt64) : UInt64 :=
  state * 6364136223846793005 + 11634580027462260723

private def seedWord (state : UInt64) : UInt32 :=
  let mixed := (((state >>> 18) ^^^ state) >>> 27).toUInt32
  let turn := (state >>> 59).toUInt32
  (mixed >>> turn) ||| (mixed <<< (32 - turn))

private def seedState (seed : UInt64) : Nat → UInt64
  | 0 => nextSeed seed
  | index + 1 => nextSeed (seedState seed index)

def Key.ofSeed (seed : UInt64) : Key :=
  Vector.ofFn fun index => seedWord (seedState seed index.val)

private def rotate (word count : UInt32) : UInt32 :=
  (word <<< count) ||| (word >>> (32 - count))

private def quarterRound (block : Block) (a b c d : Fin 16) : Block :=
  let block := block.set a (block[a] + block[b])
  let block := block.set d (rotate (block[d] ^^^ block[a]) 16)
  let block := block.set c (block[c] + block[d])
  let block := block.set b (rotate (block[b] ^^^ block[c]) 12)
  let block := block.set a (block[a] + block[b])
  let block := block.set d (rotate (block[d] ^^^ block[a]) 8)
  let block := block.set c (block[c] + block[d])
  block.set b (rotate (block[b] ^^^ block[c]) 7)

/-- The four columns and then the four diagonals of the block, read as a square. -/
private def doubleRound (block : Block) : Block :=
  let block := quarterRound block 0 4 8 12
  let block := quarterRound block 1 5 9 13
  let block := quarterRound block 2 6 10 14
  let block := quarterRound block 3 7 11 15
  let block := quarterRound block 0 5 10 15
  let block := quarterRound block 1 6 11 12
  let block := quarterRound block 2 7 8 13
  quarterRound block 3 4 9 14

/-- The constants, the key, a block counter of two words and two words of zero. -/
private def initialBlock (key : Key) (counter : UInt64) : Block :=
  #v[0x61707865, 0x3320646e, 0x79622d32, 0x6b206574,
    key[0], key[1], key[2], key[3], key[4], key[5], key[6], key[7],
    counter.toUInt32, (counter >>> 32).toUInt32, 0, 0]

def keystreamBlock (key : Key) (index : Nat) : Block :=
  let start := initialBlock key index.toUInt64
  let mixed := doubleRound (doubleRound (doubleRound (doubleRound start)))
  Vector.zipWith (· + ·) mixed start

/-- A position in a keystream, with the block that it lies in. -/
structure Stream where
  key : Key
  position : Nat
  block : Block
  block_eq : block = keystreamBlock key (position / 16)

namespace Stream

def ofPosition (key : Key) (position : Nat) : Stream :=
  ⟨key, position, keystreamBlock key (position / 16), rfl⟩

def ofSeed (seed : Nat) : Stream :=
  Stream.ofPosition (Key.ofSeed seed.toUInt64) 0

def word (stream : Stream) : UInt32 :=
  stream.block.get ⟨stream.position % 16, Nat.mod_lt _ (by decide)⟩

def advance (stream : Stream) : Stream :=
  if h : (stream.position + 1) / 16 = stream.position / 16 then
    ⟨stream.key, stream.position + 1, stream.block, by rw [h]; exact stream.block_eq⟩
  else
    Stream.ofPosition stream.key (stream.position + 1)

def next32 (stream : Stream) : UInt32 × Stream :=
  (stream.word, stream.advance)

/-- Two words, the low half first. -/
def next64 (stream : Stream) : UInt64 × Stream :=
  let (low, afterLow) := stream.next32
  let (high, afterHigh) := afterLow.next32
  ((high.toUInt64 <<< 32) ||| low.toUInt64, afterHigh)

end Stream

end DefectGraphs.Random
