/-!
# JSON documents

Numbers are either integers, which are written out, or doubles, which are written with the fewest
digits that read back.

The fields of an object are a list.  Objects are written with their fields in the order of the list,
so whoever makes an object puts the names into ascending order.
-/

namespace Binding

/-- A JSON document. -/
inductive Json where
  | null
  | boolean (value : Bool)
  | integer (value : Int)
  | float (value : Float)
  | string (value : String)
  | array (items : List Json)
  | object (fields : List (String × Json))

namespace Json

/-- The string, or `null` if there is none. -/
def ofString? : Option String → Json
  | none => .null
  | some value => .string value

end Json

end Binding
