/-!
# JSON values

The values that labels are made of and that modes, outcomes and histories are written to.
Objects keep the order in which their fields were written.

## Main definitions

- `Json`: a JSON value. A number is a mantissa and a count of decimal places.
- `Json.field?`: the value of a field of an object.
-/

namespace Statechart

/-- A JSON value; `number m e` is `m` divided by ten to the power `e`. -/
inductive Json where
  | null
  | bool (value : Bool)
  | number (mantissa : Int) (places : Nat)
  | text (value : String)
  | array (items : List Json)
  | object (fields : List (String × Json))
deriving Repr, Inhabited

namespace Json

/-- The text of a string value. -/
def text? : Json → Option String
  | .text s => some s
  | _ => none

/-- The items of an array. -/
def items? : Json → Option (List Json)
  | .array items => some items
  | _ => none

/-- The value of a field, the first one of that name. -/
def field? (name : String) : Json → Option Json
  | .object fields => fields.lookup name
  | _ => none

/-- The values of the named fields in order: an object names them, in any order and among others;
an array lists them and nothing else. -/
def fields? (names : List String) : Json → Option (List Json)
  | .object fields => names.mapM fun name => fields.lookup name
  | .array items => if items.length = names.length then some items else none
  | _ => none

end Json

end Statechart
