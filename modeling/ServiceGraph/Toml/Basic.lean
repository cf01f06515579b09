import ServiceGraph.Number.Extended
import ServiceGraph.Number.Integer64
import ServiceGraph.OrderedMap
import ServiceGraph.Toml.Moment

/-!
# TOML values

`Toml` is the tree of a TOML text. A table is a list of members in written order.
-/

set_option autoImplicit false

namespace ServiceGraph

/-- The tree of a TOML text. -/
inductive Toml where
  | string (value : String)
  | integer (value : Int)
  | float (value : Extended)
  | boolean (value : Bool)
  | moment (value : Moment)
  | array (items : List Toml)
  | table (members : List (String × Toml))
  deriving Repr, Inhabited

namespace Toml

/-- The members of a table in written order. -/
abbrev Members := List (String × Toml)

end Toml

end ServiceGraph
