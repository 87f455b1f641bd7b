/-!
# Shortest decimals

Between the two neighbours of a binary floating-point number lies an interval of reals that read
back as that number. The shortest decimal of the number is the one with the fewest digits in that
interval, and of several with as few digits the nearest.

* `Interval`: a positive number with the interval that reads back as it, over one denominator.
* `shortest`: the digits and the exponent of its shortest decimal.
-/

namespace MemberAccess.Decimal

/-- The decimal `digits · 10 ^ exponent`. -/
structure Scientific where
  digits : Nat
  exponent : Int
  deriving DecidableEq, Repr

/--
The number `value / unit` and the reals from `low / unit` to `high / unit` that read back as it;
the ends belong to them iff `closed`.
-/
structure Interval where
  low : Nat
  value : Nat
  high : Nat
  unit : Nat
  closed : Bool
  deriving DecidableEq, Repr

namespace Interval

def holds (i : Interval) (n d : Nat) : Bool :=
  if i.closed then decide (i.low * d ≤ n * i.unit) && decide (n * i.unit ≤ i.high * d)
  else decide (i.low * d < n * i.unit) && decide (n * i.unit < i.high * d)

/--
The point of the grid of multiples of `num / den` that is in the interval and nearest to the
value, the larger one when two are equally near. Only the two grid points next to the value can be
that point.
-/
def gridPoint? (i : Interval) (num den : Nat) : Option Nat :=
  let below := i.value * den / (i.unit * num)
  let above := below + 1
  let gapBelow := i.value * den - below * (i.unit * num)
  let gapAbove := above * (i.unit * num) - i.value * den
  match i.holds (below * num) den, i.holds (above * num) den with
  | true, true => some (if gapBelow < gapAbove then below else above)
  | true, false => some below
  | false, true => some above
  | false, false => none

end Interval

def powerOfTen (e : Int) : Nat × Nat :=
  if 0 ≤ e then (Nat.pow 10 e.toNat, 1) else (1, Nat.pow 10 (-e).toNat)

/--
The shortest decimal of the interval: grids are tried from the one with spacing `10 ^ top`
downwards, each ten times finer than the one before, and the first with a point inside is taken.
-/
def shortest (i : Interval) : (grids : Nat) → (top : Int) → Option Scientific
  | 0, _ => none
  | grids + 1, top =>
    let (num, den) := powerOfTen top
    match i.gridPoint? num den with
    | some n => some ⟨n, top⟩
    | none => shortest i grids (top - 1)

end MemberAccess.Decimal
