import MemberAccess.Toml.Scalar

/-!
# Dates as tables

A date may be written out as a table whose first key is `dateKey`; its value there is the text of
the date, and what else the table holds does not count.

* `isDateText`: the values that may stand under that key.
* `Value.isSound`: no table in a value claims to be a date and is none.
-/

namespace MemberAccess.Toml

/-- The key that marks a table as a date, and under which a date is shown where a table is asked
for. -/
def dateKey : String := "$__toml_private_datetime"

/-- A string that is a date, a time, or both, and nothing else. -/
def isDateText : Value → Bool
  | .string s =>
    match moment s.toList with
    | some (_, []) => true
    | _ => false
  | _ => false

mutual

/-- Every table in the value that is marked as a date is one; in such a table the first entry alone
is read. -/
def Value.isSound : Value → Bool
  | .array elements => soundElements elements
  | .table [] => true
  | .table ((key, v) :: rest) =>
    if key = dateKey then isDateText v else v.isSound && soundEntries rest
  | _ => true

def soundElements : List Value → Bool
  | [] => true
  | v :: rest => v.isSound && soundElements rest

/-- All values under keys are sound; none of the keys is the first of its table. -/
def soundEntries : List (String × Value) → Bool
  | [] => true
  | (_, v) :: rest => v.isSound && soundEntries rest

end

example : isDateText (.string "2024-02-29") = true ∧ isDateText (.string "2023-02-29") = false := by
  decide +kernel
example : isDateText (.string "1979-05-27 ") = false ∧ isDateText (.string "07:32:00Z") = false := by
  decide +kernel

end MemberAccess.Toml
