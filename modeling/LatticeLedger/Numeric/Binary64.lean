/-!
# The range of double precision

A number too large for a 64-bit floating-point number can be told apart from one that fits by
integer arithmetic alone. Finite numbers have 53 significant bits; a number that rounds to the
first power of two beyond them is out of range.
-/

namespace LatticeLedger.Binary64

/-- A natural number rounded to 53 significant bits; a tie goes to the even neighbour. -/
def round (n : Nat) : Nat :=
  let excess := n.log2 + 1 - 53
  let unit := 1 <<< excess
  let kept := n / unit
  let dropped := n % unit
  if unit < 2 * dropped ∨ (unit = 2 * dropped ∧ kept % 2 = 1) then (kept + 1) * unit
  else kept * unit

/-- The least natural number that is out of range: half a unit in the last place above the
largest finite number, where the tie goes upwards. -/
def threshold : Nat := (1 <<< 54 - 1) <<< 970

/-- Whether `digits * 10 ^ exponent` overflows. No power of ten is computed that the answer does
not need. -/
def decimalOverflows (digits : Nat) (exponent : Int) : Bool :=
  if digits = 0 then false
  else match exponent with
    | .ofNat up => 308 < up || threshold ≤ digits * Nat.pow 10 up
    | .negSucc down => down + 1 ≤ digits.log2 && threshold * Nat.pow 10 (down + 1) ≤ digits

end LatticeLedger.Binary64
