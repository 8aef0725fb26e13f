import DefectGraphs.Random.Stream

/-!
Numbers drawn from a stream: fractions of one, and integers below a bound.
-/

namespace DefectGraphs.Random.Stream

/-- A multiple of `2 ^ -24` below one. -/
def unitSingle (stream : Stream) : Float32 × Stream :=
  let (word, rest) := stream.next32
  ((word >>> 8).toFloat32 / 16777216, rest)

/-- A multiple of `2 ^ -53` below one. -/
def unitDouble (stream : Stream) : Float × Stream :=
  let (word, rest) := stream.next64
  ((word >>> 11).toFloat / 9007199254740992, rest)

/-- A bounded integer from words of `range` values: the high part of word times bound. When the low
part shows that this would favour some results, the high part of a second product is carried in. -/
private def scaled (range bound word : Nat) (second : Unit → Nat × Stream) (rest : Stream) :
    Nat × Stream :=
  let product := word * bound
  if product % range > range - bound then
    let (extra, rest) := second ()
    let carry := if product % range + extra * bound / range ≥ range then 1 else 0
    (product / range + carry, rest)
  else
    (product / range, rest)

/-- An integer below `bound`, which is positive; bounds above `2 ^ 32 - 1` take words of 64 bits. -/
def below (stream : Stream) (bound : Nat) : Nat × Stream :=
  if bound < UInt32.size then
    let (word, rest) := stream.next32
    let second (_ : Unit) := let (extra, rest) := rest.next32; (extra.toNat, rest)
    scaled UInt32.size bound word.toNat second rest
  else
    let (word, rest) := stream.next64
    let second (_ : Unit) := let (extra, rest) := rest.next64; (extra.toNat, rest)
    scaled UInt64.size bound word.toNat second rest

/-- The carry never reaches the bound: where the high part is the greatest, the low part shows it. -/
private theorem scaled_lt {range bound word : Nat} (second : Unit → Nat × Stream) (rest : Stream)
    (short : word < range) (some : 0 < bound) :
    (scaled range bound word second rest).1 < bound := by
  have within : word * bound / range < bound :=
    Nat.div_lt_of_lt_mul (Nat.mul_lt_mul_of_pos_right short some)
  unfold scaled
  dsimp only
  split
  · rename_i favours
    have carried : word * bound / range + 1 < bound := by
      refine Nat.lt_of_le_of_ne within fun greatest => ?_
      have whole := Nat.div_add_mod (word * bound) range
      have most : (word + 1) * bound ≤ range * bound := Nat.mul_le_mul_right bound short
      have all : range * (word * bound / range + 1) = range * bound := by rw [greatest]
      rw [Nat.succ_mul] at most
      rw [Nat.mul_succ] at all
      omega
    split <;> omega
  · exact within

theorem below_lt (stream : Stream) {bound : Nat} (some : 0 < bound) :
    (stream.below bound).1 < bound := by
  unfold below
  split
  · exact scaled_lt _ _ (UInt32.toNat_lt _) some
  · exact scaled_lt _ _ (UInt64.toNat_lt _) some

end DefectGraphs.Random.Stream

namespace DefectGraphs.Random

/-- How random numbers are drawn from a source: fractions of one in single and in double precision,
and integers below a bound. -/
structure Draws (σ : Type) where
  single : σ → Float32 × σ
  double : σ → Float × σ
  below : σ → Nat → Nat × σ
  below_lt : ∀ source bound, 0 < bound → (below source bound).1 < bound

def Draws.ofStream : Draws Stream where
  single := Stream.unitSingle
  double := Stream.unitDouble
  below := Stream.below
  below_lt := fun stream _ => stream.below_lt

end DefectGraphs.Random
