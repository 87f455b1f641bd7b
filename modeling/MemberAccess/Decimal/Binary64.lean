import MemberAccess.Decimal.Shortest

/-!
# Numbers in 64 bits

Binary floating-point numbers of 64 bits, held as their bits, so that two of them are the same
exactly when their bits are.

* `Binary64.sameNumber`: numeric equality, under which a NaN differs from everything and the two
  zeros agree.
* `Binary64.text`: the shortest decimal that reads back, written without an exponent.
-/

namespace MemberAccess

/-- A binary floating-point number of 64 bits. -/
structure Binary64 where
  bits : UInt64
  deriving DecidableEq, Repr, Inhabited

namespace Binary64

open Decimal (Interval Scientific)

/-! ## Fields of the number -/

def negative (x : Binary64) : Bool := decide (Nat.pow 2 63 ≤ x.bits.toNat)

def exponentField (x : Binary64) : Nat := x.bits.toNat / Nat.pow 2 52 % Nat.pow 2 11

def fraction (x : Binary64) : Nat := x.bits.toNat % Nat.pow 2 52

def isNaN (x : Binary64) : Bool := x.exponentField == 2047 && x.fraction != 0

def isInfinite (x : Binary64) : Bool := x.exponentField == 2047 && x.fraction == 0

def isZero (x : Binary64) : Bool := x.exponentField == 0 && x.fraction == 0

def zero : Binary64 := ⟨0⟩

/-- Numeric equality: a NaN equals nothing, the two zeros are equal. -/
def sameNumber (x y : Binary64) : Bool :=
  !x.isNaN && !y.isNaN && ((x.isZero && y.isZero) || x.bits == y.bits)

/-- The significand of a finite number: an integer `m` with the number's magnitude `m · 2 ^ q`. -/
def significand (x : Binary64) : Nat :=
  if x.exponentField = 0 then x.fraction else Nat.pow 2 52 + x.fraction

/-! ## Decimal text -/

/--
The magnitude of a finite number with the interval that reads back as it. Both neighbours are as
far away, except below a power of two, where the gap is half as wide.
-/
def interval (x : Binary64) : Interval :=
  let m := x.significand
  let q : Int := (max x.exponentField 1 : Nat) - 1075
  let below := if x.fraction = 0 ∧ 1 < x.exponentField then 1 else 2
  let scale := Nat.pow 2 (q - 2).toNat
  ⟨(4 * m - below) * scale, 4 * m * scale, (4 * m + 2) * scale, Nat.pow 2 (2 - q).toNat,
    m % 2 == 0⟩

/-- A scientific decimal in positional digits, without an exponent or a point that ends it. -/
def positional (s : Scientific) : String :=
  let digits := Nat.toDigits 10 s.digits
  if 0 ≤ s.exponent then
    String.ofList (digits ++ List.replicate s.exponent.toNat '0')
  else
    let places := (-s.exponent).toNat
    if places < digits.length then
      String.ofList (digits.take (digits.length - places)) ++ "." ++
        String.ofList (digits.drop (digits.length - places))
    else
      "0." ++ String.ofList (List.replicate (places - digits.length) '0' ++ digits)

/-- The shortest decimal text of the number; every grid from `10 ^ 309` to `10 ^ -343` is tried. -/
def text (x : Binary64) : String :=
  if x.isNaN then "NaN"
  else
    let sign := if x.negative then "-" else ""
    if x.isInfinite then sign ++ "inf"
    else if x.isZero then sign ++ "0"
    else
      match Decimal.shortest x.interval 653 309 with
      | some s => sign ++ positional s
      | none => sign

end Binary64

end MemberAccess
