import MemberAccess.Permission.Basic
import MemberAccess.Text.Letters

/-!
# Permission expressions

A permission is written as a name, as a numeral in hexadecimal (`0x..`) or decimal digits, or as
several of these with `|` between them, in any case and with blanks around the parts.

* `Permission.parse?`: one name or numeral.
* `Permission.parseCombined?`: the union of the parts of an expression.
-/

namespace MemberAccess.Permission

/-! ## Numerals -/

/-- The value of a digit below `base`, letters being capital. -/
def digitValue? (base : Nat) (c : Char) : Option Nat :=
  let d :=
    if '0' ≤ c ∧ c ≤ '9' then c.toNat - '0'.toNat
    else if 'A' ≤ c ∧ c ≤ 'F' then c.toNat - 'A'.toNat + 10
    else base
  if d < base then some d else Option.none

/-- The value of digits after a number whose value is `high`. -/
def digitsValue? (base : Nat) : (high : Nat) → List Char → Option Nat
  | high, [] => some high
  | high, c :: rest =>
    match digitValue? base c with
    | some d => digitsValue? base (high * base + d) rest
    | Option.none => Option.none

/-- The value of one or more digits, which a plus sign may precede. -/
def numeral? (base : Nat) : List Char → Option Nat
  | [] => Option.none
  | '+' :: rest => if rest.isEmpty then Option.none else digitsValue? base 0 rest
  | c :: rest => digitsValue? base 0 (c :: rest)

/-! ## Expressions -/

/-- A trimmed name or numeral in capitals. -/
def ofCapitals? (word : List Char) : Option Permission :=
  match named.find? (fun entry => entry.1.toList == word) with
  | some entry => some entry.2
  | Option.none =>
    let value :=
      match word with
      | '0' :: 'X' :: digits => numeral? 16 digits
      | _ => numeral? 10 word
    match value with
    | some n => if n < 128 then some (ofBits n) else Option.none
    | Option.none => Option.none

def parse? (s : String) : Option Permission := ofCapitals? (Text.upper (Text.trim s.toList))

def barPieces : List Char → List (List Char)
  | [] => [[]]
  | c :: rest =>
    match barPieces rest with
    | [] => [[c]]
    | piece :: more => if c = '|' then [] :: piece :: more else (c :: piece) :: more

/-- The union of all parts, if every one of them is a permission. -/
def unionOfParts? : List (List Char) → Option Permission
  | [] => some none
  | part :: rest =>
    match ofCapitals? (Text.upper (Text.trim part)), unionOfParts? rest with
    | some p, some q => some (p.union q)
    | _, _ => Option.none

def parseCombined? (s : String) : Option Permission := unionOfParts? (barPieces s.toList)

end MemberAccess.Permission
