import MemberAccess.Toml.Value

/-!
# TOML scalars

Readers for the parts of a document that hold no other value: blanks, strings, numbers, dates and
times. A reader takes the text that is left and gives what it read with the text after it.

* `blanks`, `lineEnd`, `gaps`: what may stand between the parts.
* `lineString`, `textString`: the two kinds of string on one line, and all four kinds.
* `number`, `moment`: numbers, and dates with times.
-/

namespace MemberAccess.Toml

/-- A reader: what it read, and the text after it. -/
abbrev Reader (α : Type) := List Char → Option (α × List Char)

/-! ## Characters and blanks -/

def isBlank (c : Char) : Bool := c == ' ' || c == '\t'

/-- A character of a line: a tab, or any that is no control. -/
def isInLine (c : Char) : Bool := c == '\t' || (0x20 ≤ c.toNat && c.toNat ≠ 0x7F)

def blanks (text : List Char) : List Char := text.dropWhile isBlank

/-- The text after a comment, if one starts here. -/
def comment : List Char → List Char
  | '#' :: rest => rest.dropWhile isInLine
  | text => text

def newline? : List Char → Option (List Char)
  | '\n' :: rest => some rest
  | '\r' :: '\n' :: rest => some rest
  | _ => none

/-- The text after the rest of a line that holds nothing but blanks and a comment. -/
def lineEnd (text : List Char) : Option (List Char) :=
  match comment (blanks text) with
  | [] => some []
  | rest => newline? rest

/-- The text after blanks, line breaks and comments that end with a line break. -/
def gapsFrom : (fuel : Nat) → List Char → List Char
  | 0, text => text
  | fuel + 1, text =>
    match newline? (comment (blanks text)) with
    | some rest => gapsFrom fuel rest
    | none => blanks text

/-- The text after blanks, line breaks and comments. -/
def gaps (text : List Char) : List Char := gapsFrom text.length text

/-! ## Strings -/

/-- The value of a hexadecimal digit of either case. -/
def hexDigit? (c : Char) : Option Nat :=
  if '0' ≤ c ∧ c ≤ '9' then some (c.toNat - '0'.toNat)
  else if 'a' ≤ c ∧ c ≤ 'f' then some (c.toNat - 'a'.toNat + 10)
  else if 'A' ≤ c ∧ c ≤ 'F' then some (c.toNat - 'A'.toNat + 10)
  else none

def hexValue? (digits : List Char) : Option Nat :=
  digits.foldl (fun n c => n.bind fun m => (hexDigit? c).map fun d => 16 * m + d) (some 0)

/-- The character with a code point; surrogates are none. -/
def scalar? (n : Nat) : Option Char :=
  if n < 0xD800 ∨ (0xDFFF < n ∧ n < 0x110000) then some (Char.ofNat n) else none

/-- The character with a code point in hexadecimal digits. -/
def codePoint? (digits : List Char) : Option Char := (hexValue? digits).bind scalar?

/-- The character that an escape of one letter stands for. -/
def escape? : Char → Option Char
  | 'b' => some '\x08'
  | 't' => some '\t'
  | 'n' => some '\n'
  | 'f' => some '\x0c'
  | 'r' => some '\r'
  | '"' => some '"'
  | '\\' => some '\\'
  | _ => none

/-- Puts a character before what a reader of characters read. -/
def push (c : Char) : Option (List Char × List Char) → Option (List Char × List Char) :=
  Option.map fun r => (c :: r.1, r.2)

/-- The rest of a string between double quotes. -/
def basicBody : Reader (List Char)
  | [] => none
  | '"' :: rest => some ([], rest)
  | '\\' :: 'u' :: a :: b :: c :: d :: rest =>
    (codePoint? [a, b, c, d]).bind fun x => push x (basicBody rest)
  | '\\' :: 'U' :: a :: b :: c :: d :: e :: f :: g :: h :: rest =>
    (codePoint? [a, b, c, d, e, f, g, h]).bind fun x => push x (basicBody rest)
  | '\\' :: e :: rest => (escape? e).bind fun x => push x (basicBody rest)
  | c :: rest => if isInLine c then push c (basicBody rest) else none

/-- The rest of a string between single quotes. -/
def literalBody : Reader (List Char)
  | [] => none
  | '\'' :: rest => some ([], rest)
  | c :: rest => if isInLine c then push c (literalBody rest) else none

/-- Where a reader of a long string is: in its text, after a backslash that ends a line, or among
the blanks and line breaks that follow such a line. -/
inductive Folding where
  | none
  | lineOpen
  | lineDone
  deriving DecidableEq

/-- The rest of a string between three double quotes; up to two quotes may stand before the last
three. -/
def longBasicBody : Folding → Reader (List Char)
  | _, [] => none
  | .lineOpen, '\n' :: rest => longBasicBody .lineDone rest
  | .lineOpen, '\r' :: '\n' :: rest => longBasicBody .lineDone rest
  | .lineOpen, c :: rest => if isBlank c then longBasicBody .lineOpen rest else none
  | .lineDone, ' ' :: rest => longBasicBody .lineDone rest
  | .lineDone, '\t' :: rest => longBasicBody .lineDone rest
  | .lineDone, '\n' :: rest => longBasicBody .lineDone rest
  | .lineDone, '\r' :: '\n' :: rest => longBasicBody .lineDone rest
  | _, '"' :: '"' :: '"' :: '"' :: '"' :: rest => some (['"', '"'], rest)
  | _, '"' :: '"' :: '"' :: '"' :: rest => some (['"'], rest)
  | _, '"' :: '"' :: '"' :: rest => some ([], rest)
  | _, '\\' :: 'u' :: a :: b :: c :: d :: rest =>
    (codePoint? [a, b, c, d]).bind fun x => push x (longBasicBody .none rest)
  | _, '\\' :: 'U' :: a :: b :: c :: d :: e :: f :: g :: h :: rest =>
    (codePoint? [a, b, c, d, e, f, g, h]).bind fun x => push x (longBasicBody .none rest)
  | _, '\\' :: '\r' :: '\n' :: rest => longBasicBody .lineDone rest
  | _, '\\' :: e :: rest =>
    if e = '\n' then longBasicBody .lineDone rest
    else if isBlank e then longBasicBody .lineOpen rest
    else (escape? e).bind fun x => push x (longBasicBody .none rest)
  | _, '\r' :: '\n' :: rest => push '\n' (longBasicBody .none rest)
  | _, c :: rest => if c = '\n' ∨ isInLine c then push c (longBasicBody .none rest) else none

/-- The rest of a string between three single quotes; up to two quotes may stand before the last
three. -/
def longLiteralBody : Reader (List Char)
  | [] => none
  | '\'' :: '\'' :: '\'' :: '\'' :: '\'' :: rest => some (['\'', '\''], rest)
  | '\'' :: '\'' :: '\'' :: '\'' :: rest => some (['\''], rest)
  | '\'' :: '\'' :: '\'' :: rest => some ([], rest)
  | '\r' :: '\n' :: rest => push '\n' (longLiteralBody rest)
  | c :: rest => if c = '\n' ∨ isInLine c then push c (longLiteralBody rest) else none

/-- The text after the line break that may follow an opening of three quotes. -/
def afterOpening (text : List Char) : List Char := (newline? text).getD text

def asString : Option (List Char × List Char) → Option (String × List Char) :=
  Option.map fun r => (String.ofList r.1, r.2)

/-- A string on one line, as a key may be one. -/
def lineString : Reader String
  | '"' :: rest => asString (basicBody rest)
  | '\'' :: rest => asString (literalBody rest)
  | _ => none

def textString : Reader String
  | '"' :: '"' :: '"' :: rest => asString (longBasicBody .none (afterOpening rest))
  | '\'' :: '\'' :: '\'' :: rest => asString (longLiteralBody (afterOpening rest))
  | text => lineString text

/-! ## Numbers -/

/-- Digits that single underscores may separate, after a first digit. -/
def moreDigits (isDigit : Char → Bool) : List Char → List Char × List Char
  | '_' :: d :: rest =>
    if isDigit d then
      let (digits, after) := moreDigits isDigit rest
      (d :: digits, after)
    else ([], '_' :: d :: rest)
  | d :: rest =>
    if isDigit d then
      let (digits, after) := moreDigits isDigit rest
      (d :: digits, after)
    else ([], d :: rest)
  | [] => ([], [])

/-- One or more digits that single underscores may separate. -/
def digits (isDigit : Char → Bool) : Reader (List Char)
  | d :: rest =>
    if isDigit d then
      let (more, after) := moreDigits isDigit rest
      some (d :: more, after)
    else none
  | [] => none

def isDecimal (c : Char) : Bool := '0' ≤ c && c ≤ '9'

/-- A sign that may be left out, true for minus. -/
def sign : List Char → Bool × List Char
  | '+' :: rest => (false, rest)
  | '-' :: rest => (true, rest)
  | text => (false, text)

def wholeDigits : Reader (List Char)
  | '0' :: rest => some (['0'], rest)
  | text => digits isDecimal text

def valueIn (base : Nat) (ds : List Char) : Nat :=
  ds.foldl (fun n c => base * n + (hexDigit? c).getD 0) 0

def integer? (negative : Bool) (n : Nat) : Option Value :=
  if negative then if n ≤ Nat.pow 2 63 then some (.integer (-n)) else none
  else if n < Nat.pow 2 63 then some (.integer n) else none

def basedInteger (base : Nat) (isDigit : Char → Bool) (text : List Char) :
    Option (Value × List Char) :=
  match digits isDigit text with
  | some (ds, rest) => (integer? false (valueIn base ds)).map fun v => (v, rest)
  | none => none

/-- An integer in hexadecimal, octal, binary or decimal digits. -/
def integer : Reader Value
  | '0' :: 'x' :: rest => basedInteger 16 (fun c => (hexDigit? c).isSome) rest
  | '0' :: 'o' :: rest => basedInteger 8 (fun c => '0' ≤ c && c ≤ '7') rest
  | '0' :: 'b' :: rest => basedInteger 2 (fun c => c == '0' || c == '1') rest
  | text =>
    let (negative, rest) := sign text
    match wholeDigits rest with
    | some (ds, rest) => (integer? negative (valueIn 10 ds)).map fun v => (v, rest)
    | none => none

/-- The decimal `n · 10 ^ e` is too large for a float of 64 bits: at least halfway between the
largest one and the next power of two. -/
def overflows (n : Nat) (e : Int) : Bool :=
  let limit := Nat.pow 2 1024 - Nat.pow 2 970
  if n = 0 then false
  else if 400 < e then true
  else if 0 ≤ e then decide (limit ≤ n * Nat.pow 10 e.toNat)
  else
    let length := (Nat.toDigits 10 n).length
    if length < (-e).toNat then false else decide (limit * Nat.pow 10 (-e).toNat ≤ n)

def fractionPart : Reader (List Char)
  | '.' :: rest => digits isDecimal rest
  | _ => none

def exponentPart (text : List Char) : Option (Int × List Char) :=
  match text with
  | e :: rest =>
    if e = 'e' ∨ e = 'E' then
      let (negative, rest) := sign rest
      match digits isDecimal rest with
      | some (ds, rest) =>
        let n : Int := valueIn 10 ds
        some (if negative then -n else n, rest)
      | none => none
    else none
  | [] => none

/-- A float, if it is not too large; a negative one may be. -/
def finiteFloat (text : List Char) (negative : Bool) (n : Nat) (e : Int) (rest : List Char) :
    Option (Value × List Char) :=
  if !negative && overflows n e then none
  else some (.float (String.ofList (text.take (text.length - rest.length))), rest)

/-- A float with a point, an exponent, or both. -/
def decimalFloat (text : List Char) : Option (Value × List Char) :=
  let (negative, afterSign) := sign text
  match wholeDigits afterSign with
  | none => none
  | some (ds, rest) =>
    match exponentPart rest with
    | some (e, rest) => finiteFloat text negative (valueIn 10 ds) e rest
    | none =>
      match fractionPart rest with
      | none => none
      | some (fs, rest) =>
        let n := valueIn 10 (ds ++ fs)
        match exponentPart rest with
        | some (e, rest) => finiteFloat text negative n (e - fs.length) rest
        | none => finiteFloat text negative n (-fs.length) rest

/-- An infinity or a NaN, which a sign may precede. -/
def specialFloat (text : List Char) : Option (Value × List Char) :=
  match (sign text).2 with
  | 'i' :: 'n' :: 'f' :: rest => some (.float "inf", rest)
  | 'n' :: 'a' :: 'n' :: rest => some (.float "nan", rest)
  | _ => none

/-! ## Dates and times -/

def twoDigits (low high : Nat) : Reader Nat
  | a :: b :: rest =>
    let n := valueIn 10 [a, b]
    if isDecimal a && isDecimal b && low ≤ n && n ≤ high then some (n, rest) else none
  | _ => none

def fourDigits : Reader Nat
  | a :: b :: c :: d :: rest =>
    if [a, b, c, d].all isDecimal then some (valueIn 10 [a, b, c, d], rest) else none
  | _ => none

/-- The text after a character that has to stand here. -/
def expect (c : Char) : List Char → Option (List Char)
  | d :: rest => if d = c then some rest else none
  | [] => none

def padded (width n : Nat) : String :=
  let ds := Nat.toDigits 10 n
  String.ofList (List.replicate (width - ds.length) '0' ++ ds)

def daysIn (year month : Nat) : Nat :=
  if month = 2 then
    if year % 4 = 0 ∧ (year % 100 ≠ 0 ∨ year % 400 = 0) then 29 else 28
  else if month = 4 ∨ month = 6 ∨ month = 9 ∨ month = 11 then 30
  else 31

def date (text : List Char) : Option (String × List Char) := do
  let (year, rest) ← fourDigits text
  let rest ← expect '-' rest
  let (month, rest) ← twoDigits 1 12 rest
  let rest ← expect '-' rest
  let (day, rest) ← twoDigits 1 (daysIn year month) rest
  some (padded 4 year ++ "-" ++ padded 2 month ++ "-" ++ padded 2 day, rest)

/-- The part of a second: nine digits count, and zeros at the end are not written. -/
def secondPart (text : List Char) : Option (String × List Char) :=
  match text with
  | '.' :: rest =>
    let ds := rest.takeWhile isDecimal
    if ds.isEmpty then none
    else
      let kept := ((ds.take 9).reverse.dropWhile (· == '0')).reverse
      some (if kept.isEmpty then "" else "." ++ String.ofList kept, rest.dropWhile isDecimal)
  | _ => some ("", text)

def timeOfDay (text : List Char) : Option (String × List Char) := do
  let (hour, rest) ← twoDigits 0 23 text
  let rest ← expect ':' rest
  let (minute, rest) ← twoDigits 0 59 rest
  let rest ← expect ':' rest
  let (second, rest) ← twoDigits 0 60 rest
  let (part, rest) ← secondPart rest
  some (padded 2 hour ++ ":" ++ padded 2 minute ++ ":" ++ padded 2 second ++ part, rest)

/-- The distance of a local time from universal time. -/
def offset (text : List Char) : Option (String × List Char) :=
  match text with
  | 'Z' :: rest | 'z' :: rest => some ("Z", rest)
  | s :: rest =>
    if s = '+' ∨ s = '-' then do
      let (hours, rest) ← twoDigits 0 23 rest
      let rest ← expect ':' rest
      let (minutes, rest) ← twoDigits 0 59 rest
      let written := if hours = 0 ∧ minutes = 0 then "+" else s.toString
      some (written ++ padded 2 hours ++ ":" ++ padded 2 minutes, rest)
    else some ("", text)
  | [] => some ("", [])

/-- What may follow a date: a time of day, with or without an offset. -/
def afterDate (day : String) (text : List Char) : Option (String × List Char) :=
  match text with
  | t :: rest =>
    if t = 'T' ∨ t = 't' ∨ t = ' ' then
      match timeOfDay rest with
      | some (time, rest) => (offset rest).map fun (zone, rest) => (day ++ "T" ++ time ++ zone, rest)
      | none => some (day, text)
    else some (day, text)
  | [] => some (day, [])

def moment (text : List Char) : Option (Value × List Char) :=
  let read :=
    match date text with
    | some (day, rest) => afterDate day rest
    | none => timeOfDay text
  read.map fun (written, rest) => (.dateTime written, rest)

def number (text : List Char) : Option (Value × List Char) :=
  (moment text).or ((decimalFloat text).or ((specialFloat text).or (integer text)))

end MemberAccess.Toml
