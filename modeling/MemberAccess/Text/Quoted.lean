import MemberAccess.Text.Printable

/-!
# Quoted texts and records

How diagnostic texts show a string and a record of named fields.

* `quoted`: a string between double quotes, with escapes for what cannot stand as itself.
* `record`: a name followed by its fields in braces.
-/

namespace MemberAccess.Text

/-- A natural number in lower-case hexadecimal digits. -/
def hexadecimal (n : Nat) : String := String.ofList (Nat.toDigits 16 n)

/-- A natural number in hexadecimal digits, filled with zeros to a width. -/
def hexadecimalPadded (width n : Nat) : String :=
  let digits := Nat.toDigits 16 n
  String.ofList (List.replicate (width - digits.length) '0' ++ digits)

/-- The spelling of one character inside quotes. -/
def escaped (c : Char) : String :=
  match c with
  | '\x00' => "\\0"
  | '\t' => "\\t"
  | '\n' => "\\n"
  | '\r' => "\\r"
  | '"' => "\\\""
  | '\\' => "\\\\"
  | _ => if isPrintable c then c.toString else "\\u\x7b" ++ hexadecimal c.toNat ++ "\x7d"

def quoted (s : String) : String := "\"" ++ String.join (s.toList.map escaped) ++ "\""

def truth (b : Bool) : String := if b then "true" else "false"

/-- A record: its name, then `field: text` for each field, in braces. -/
def record (name : String) (fields : List (String × String)) : String :=
  name ++ " \x7b " ++ String.intercalate ", " (fields.map fun f => f.1 ++ ": " ++ f.2) ++ " \x7d"

example : quoted "a\"é\x1b\u0000" = "\"a\\\"é\\u\x7b1b\x7d\\0\"" := by decide +kernel
example : record "Pair" [("a", "1"), ("b", "2")] = "Pair \x7b a: 1, b: 2 \x7d" := by decide +kernel

end MemberAccess.Text
