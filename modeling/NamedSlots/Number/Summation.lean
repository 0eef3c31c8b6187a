/-!
# Pairwise summation

Long sums are split in halves, blocks of at most 128 numbers are summed in eight interleaved
accumulators, and fewer than eight numbers are summed one after the other.
-/

namespace NamedSlots.Number

/-- Sums one after the other, starting from the negative zero, which no sum depends on. -/
def sumInOrder (add : Float → Float → Float) (xs : List Float) : Float :=
  xs.foldl add (-0.0)

private def addEight (add : Float → Float → Float) (acc xs : List Float) : List Float :=
  List.zipWith add acc xs

/-- Sums a block in eight interleaved accumulators, which are then added as a balanced tree. -/
def sumBlock (add : Float → Float → Float) (xs : List Float) : Float :=
  go (xs.length / 8) (xs.take 8) (xs.drop 8)
where
  go : Nat → List Float → List Float → Float
    | 0, acc, rest | 1, acc, rest =>
      match acc with
      | [a, b, c, d, e, f, g, h] =>
        rest.foldl add (add (add (add a b) (add c d)) (add (add e f) (add g h)))
      | _ => rest.foldl add (sumInOrder add acc)
    | n + 2, acc, rest => go (n + 1) (addEight add acc (rest.take 8)) (rest.drop 8)

/-- The pairwise sum of numbers, for a given addition. The depth bounds the halving. -/
def sumPairwise (add : Float → Float → Float) : (depth : Nat) → List Float → Float
  | 0, xs => sumInOrder add xs
  | depth + 1, xs =>
    if xs.length < 8 then sumInOrder add xs
    else if xs.length ≤ 128 then sumBlock add xs
    else
      let half := xs.length / 2
      let cut := half - half % 8
      add (sumPairwise add depth (xs.take cut)) (sumPairwise add depth (xs.drop cut))

def sum (add : Float → Float → Float) (xs : List Float) : Float :=
  sumPairwise add xs.length xs

end NamedSlots.Number
