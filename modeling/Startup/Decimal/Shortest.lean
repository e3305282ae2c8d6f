/-!
# The fewest digits that read back

A finite binary number stands for all reals that round to it. Among the decimals of those reals
the ones with the fewest digits are chosen, and of these the nearest; the caller says which of
two equally near ones is taken.
-/

namespace Startup.Decimal

/-- A positive number `significand * 2 ^ exponent`, with the gap to its lower neighbour being half
of the gap to the upper one if `lowerGapHalved`. -/
structure Binary where
  significand : Nat
  exponent : Int
  lowerGapHalved : Bool
  deriving Repr

inductive Tie where
  | even
  | up
  deriving DecidableEq, Repr

structure Scientific where
  significand : Nat
  exponent : Int
  deriving DecidableEq, Repr

def Binary.ofFloat? (x : Float) : Option Binary :=
  let bits := x.toBits.toNat
  let fraction := bits % Nat.pow 2 52
  let biased := bits / Nat.pow 2 52 % Nat.pow 2 11
  if biased = 0 then
    if fraction = 0 then none else some ⟨fraction, -1074, false⟩
  else if biased = 2047 then none
  else some ⟨Nat.pow 2 52 + fraction, Int.ofNat biased - 1075, fraction = 0 && 1 < biased⟩

def digitCount (n : Nat) : Nat :=
  (Nat.toDigits 10 n).length

def ceilLog (n : Nat) : Nat :=
  if n ≤ 1 then 0 else digitCount (n - 1)

namespace Binary

/-- A quarter of the last place, as a fraction: the ends of the interval lie on this grid. -/
def quarter (b : Binary) : Nat × Nat :=
  let e := b.exponent - 2
  (Nat.pow 2 e.toNat, Nat.pow 2 (-e).toNat)

def magnitude (b : Binary) : Int :=
  let (num, den) := b.quarter
  let value := 4 * b.significand * num
  if den ≤ value then digitCount (value / den)
  else 1 - (ceilLog ((den + value - 1) / value) : Int)

/-- The nearest multiple of `10 ^ place` that reads back as `b`, if there is one. -/
def hit? (tie : Tie) (b : Binary) (place : Int) : Option Nat :=
  let (num, den) := b.quarter
  let up := num * Nat.pow 10 (-place).toNat
  let unit := den * Nat.pow 10 place.toNat
  let value := 4 * b.significand * up
  let low := (4 * b.significand - if b.lowerGapHalved then 1 else 2) * up
  let high := (4 * b.significand + 2) * up
  let closed := b.significand % 2 = 0
  let inside (c : Nat) : Bool :=
    if closed then low ≤ c * unit && c * unit ≤ high else low < c * unit && c * unit < high
  let below := value / unit
  let above := below + 1
  match inside below, inside above with
  | false, false => none
  | true, false => some below
  | false, true => some above
  | true, true =>
    let gapBelow := value - below * unit
    let gapAbove := above * unit - value
    if gapBelow < gapAbove then some below
    else if gapAbove < gapBelow then some above
    else match tie with
      | .even => some (if below % 2 = 0 then below else above)
      | .up => some above

def dropZeros : Nat → Nat → Int → Scientific
  | 0, n, e => ⟨n, e⟩
  | fuel + 1, n, e => if n % 10 = 0 && n ≠ 0 then dropZeros fuel (n / 10) (e + 1) else ⟨n, e⟩

/-- Seventeen digits always read back, so the grids after the seventeenth need no trial. -/
def shortest (tie : Tie) (b : Binary) : Scientific :=
  let places := (List.range 17).map fun (n : Nat) => b.magnitude - 1 - (n : Int)
  match places.findSome? fun place => (b.hit? tie place).map fun c => (c, place) with
  | some (c, place) => dropZeros (digitCount c) c place
  | none => ⟨0, 0⟩

end Binary

end Startup.Decimal
