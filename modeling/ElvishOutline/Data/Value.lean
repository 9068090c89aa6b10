import ElvishOutline.Decimal.Binary64

/-!
# Structured values

The common shape of what reports are made of and what is read back: scalars, lists, and records
whose fields keep their order. JSON and YAML are two ways to write it.
-/

namespace ElvishOutline

/-- A structured value. -/
inductive Value where
  | null
  | bool (value : Bool)
  | integer (value : Int)
  | real (value : Binary64)
  | text (value : String)
  | list (items : List Value)
  | record (fields : List (String × Value))
  deriving Repr

namespace Value

/-- A natural number as a value. -/
def nat (n : Nat) : Value := integer n

/-- The value of a field, if the value is a record that has it. -/
def field? (key : String) : Value → Option Value
  | record fields => (fields.find? (·.1 == key)).map (·.2)
  | _ => none

end Value

end ElvishOutline
