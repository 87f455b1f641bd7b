import MemberAccess.Toml.Scalar
import MemberAccess.Toml.Tree

/-!
# TOML documents

* `key`: a key or dotted key.
* `value`: a value, in which arrays and tables in braces may be nested to a depth.
* `Draft`: the document read so far, with the table that the last header opened.
* `parse?`: a whole document; nothing if it breaks a rule.
-/

namespace MemberAccess.Toml

/-! ## Keys -/

def isBareKey (c : Char) : Bool :=
  ('a' ≤ c && c ≤ 'z') || ('A' ≤ c && c ≤ 'Z') || ('0' ≤ c && c ≤ '9') || c == '_' || c == '-'

/-- One part of a key: bare, or a string on one line. -/
def keyPart (text : List Char) : Option (String × List Char) :=
  match text with
  | '"' :: _ | '\'' :: _ => lineString text
  | _ =>
    let name := text.takeWhile isBareKey
    if name.isEmpty then none else some (String.ofList name, text.dropWhile isBareKey)

/-- The parts of a key, with points and blanks between them. -/
def keyFrom : (fuel : Nat) → List Char → Option (List String × List Char)
  | 0, _ => none
  | fuel + 1, text =>
    match keyPart (blanks text) with
    | none => none
    | some (part, rest) =>
      match blanks rest with
      | '.' :: rest => (keyFrom fuel rest).map fun (parts, rest) => (part :: parts, rest)
      | rest => some ([part], rest)

/-- How many parts a key may have, and how deep values may be nested: fewer than this. -/
def depthLimit : Nat := 80

/-- A key, as the path to its last part and that part. -/
def key (text : List Char) : Option ((List String × String) × List Char) :=
  match keyFrom text.length text with
  | none => none
  | some (parts, rest) =>
    if parts.length < depthLimit then
      parts.getLast?.map fun last => ((parts.dropLast, last), rest)
    else none

/-! ## Values -/

/-- The elements of an array after its opening, separated by commas, with gaps around them. -/
def arrayFrom (element : Reader Value) : (fuel : Nat) → List Char → Option (List Value × List Char)
  | 0, _ => none
  | fuel + 1, text =>
    match gaps text with
    | ']' :: rest => some ([], rest)
    | text =>
      match element text with
      | none => none
      | some (v, rest) =>
        match gaps rest with
        | ',' :: rest => (arrayFrom element fuel rest).map fun (vs, rest) => (v :: vs, rest)
        | ']' :: rest => some ([v], rest)
        | _ => none

/-- A key with its value, as lines and tables in braces have them. -/
def assignment (element : Reader Value) (text : List Char) :
    Option (((List String × String) × Value) × List Char) :=
  match key text with
  | some (k, '=' :: rest) => (element (blanks rest)).map fun (v, rest) => ((k, v), rest)
  | _ => none

/-- The assignments in braces after the first opening, separated by commas. -/
def bracesFrom (element : Reader Value) : (fuel : Nat) → Entries → List Char →
    Option (Entries × List Char)
  | 0, _, _ => none
  | fuel + 1, entries, text =>
    match assignment element text with
    | none => none
    | some (((path, name), v), rest) =>
      match assign path name v entries with
      | none => none
      | some entries =>
        match blanks rest with
        | ',' :: rest => bracesFrom element fuel entries rest
        | '\x7d' :: rest => some (entries, rest)
        | _ => none

def braces (element : Reader Value) (text : List Char) : Option (Value × List Char) :=
  match blanks text with
  | '\x7d' :: rest => some (.table [], rest)
  | text =>
    (bracesFrom element text.length [] text).map fun (entries, rest) =>
      (.table (entryValues entries), rest)

/-- A value in which arrays and tables may be nested `depth` deep. -/
def value : (depth : Nat) → Reader Value
  | depth, text =>
    match text with
    | '"' :: _ | '\'' :: _ => (textString text).map fun (s, rest) => (.string s, rest)
    | 't' :: 'r' :: 'u' :: 'e' :: rest => some (.boolean true, rest)
    | 'f' :: 'a' :: 'l' :: 's' :: 'e' :: rest => some (.boolean false, rest)
    | '[' :: rest =>
      match depth with
      | 0 => none
      | depth + 1 =>
        (arrayFrom (value depth) rest.length rest).map fun (vs, rest) => (.array vs, rest)
    | '\x7b' :: rest =>
      match depth with
      | 0 => none
      | depth + 1 => braces (value depth) rest
    | _ => number text

/-! ## Lines -/

/-- The document read so far: what earlier headers filled, and the table that the last one opened,
with its path; before the first header that is the root. -/
structure Draft where
  root : Entries
  current : Entries
  path : List String
  /-- The last header was in double brackets. -/
  repeated : Bool

namespace Draft

def start : Draft := ⟨[], [], [], false⟩

def close (d : Draft) : Option Entries :=
  match d.path.getLast? with
  | none => some d.current
  | some last =>
    let change (_ : Origin) (inner : Entries) : Option (Entries × Unit) :=
      match inner.lookup last, d.repeated with
      | none, false => some (inner ++ [(last, .table .defined d.current)], ())
      | some (.tables elements), true =>
        some (Keyed.put last (.tables (elements ++ [d.current])) inner, ())
      | _, _ => none
    (within false change d.path.dropLast .defined d.root).map Prod.fst

/-- Opens a table. What paths of earlier headers implied of it is taken over. -/
def openTable (path : List String) (last : String) (root : Entries) : Option Draft :=
  let change (_ : Origin) (inner : Entries) : Option (Entries × Entries) :=
    match inner.lookup last with
    | none => some (inner, [])
    | some (.table .implied entries) => some (Keyed.without last inner, entries)
    | some _ => none
  (within false change path .defined root).map fun (root, current) =>
    ⟨root, current, path ++ [last], false⟩

/-- Opens one more of the tables under a header in double brackets. -/
def openElement (path : List String) (last : String) (root : Entries) : Option Draft :=
  let change (_ : Origin) (inner : Entries) : Option (Entries × Unit) :=
    match inner.lookup last with
    | none => some (inner ++ [(last, .tables [])], ())
    | some (.tables _) => some (inner, ())
    | some _ => none
  (within false change path .defined root).map fun (root, _) => ⟨root, [], path ++ [last], true⟩

def readAssignment (d : Draft) (text : List Char) : Option (Draft × List Char) := do
  let (((path, name), v), rest) ← assignment (value (depthLimit - 1)) text
  let rest ← lineEnd rest
  let current ← assign path name v d.current
  some ({ d with current }, rest)

def readHeader (d : Draft) (text : List Char) : Option (Draft × List Char) :=
  match text with
  | '[' :: text => do
    let ((path, last), rest) ← key text
    let rest ← expect ']' rest
    let rest ← expect ']' rest
    let rest ← lineEnd rest
    let root ← d.close
    let d ← openElement path last root
    some (d, rest)
  | _ => do
    let ((path, last), rest) ← key text
    let rest ← expect ']' rest
    let rest ← lineEnd rest
    let root ← d.close
    let d ← openTable path last root
    some (d, rest)

def readLines : (fuel : Nat) → Draft → List Char → Option Draft
  | 0, _, _ => none
  | fuel + 1, d, text =>
    match blanks text with
    | [] => some d
    | '[' :: rest =>
      match d.readHeader rest with
      | some (d, rest) => readLines fuel d rest
      | none => none
    | '\n' :: _ | '\r' :: _ | '#' :: _ =>
      match lineEnd text with
      | some rest => readLines fuel d rest
      | none => none
    | text =>
      match d.readAssignment text with
      | some (d, rest) => readLines fuel d rest
      | none => none

end Draft

/-- The text after a byte order mark, if it starts with one. -/
def afterMark : List Char → List Char
  | '\ufeff' :: rest => rest
  | text => text

def parse? (s : String) : Option (List (String × Value)) :=
  let text := afterMark s.toList
  match Draft.start.readLines (text.length + 1) text with
  | none => none
  | some d => d.close.map entryValues

end MemberAccess.Toml
