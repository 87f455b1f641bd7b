/-!
# TOML values

* `Toml.Value`: what a document holds. Tables keep the order of the document; no key appears twice
  in a table that was read.
* `Toml.Value.string?`: the text of a string.
-/

namespace MemberAccess.Toml

/-- A value of a document. -/
inductive Value where
  | string (s : String)
  | integer (i : Int)
  /-- A float, by the text that stands for it. -/
  | float (text : String)
  | boolean (b : Bool)
  /-- A date, a time, or both, in its normal spelling. -/
  | dateTime (text : String)
  | array (elements : List Value)
  | table (entries : List (String × Value))

instance : Inhabited Value := ⟨.table []⟩

def Value.string? : Value → Option String
  | string s => some s
  | _ => none

end MemberAccess.Toml
