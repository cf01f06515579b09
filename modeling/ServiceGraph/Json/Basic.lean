import ServiceGraph.OrderedMap
import ServiceGraph.Number.Binary64
import ServiceGraph.Number.Integer64

/-!
# JSON values

`Json` is the tree of a JSON text, with the members of an object in written order. The reader
keeps a repeated key as it stands; `Json.mergeMembers` leaves each key once, at its first place
and with its last value. `Json.DistinctKeys` says that no object repeats a key, and
`distinctKeys_mergeMembers` that merging establishes it.
-/

set_option autoImplicit false

namespace ServiceGraph

/-- A JSON number: an integer from `-2 ^ 63` to `2 ^ 64 - 1`, or a binary64 number. -/
inductive Number where
  | whole (value : Integer64)
  | float (value : Binary64)
  deriving DecidableEq, Repr, Inhabited

namespace Number

/-- An integer as a number; out of range it is the nearest binary64 number. -/
def integer (n : Int) : Number :=
  match BoundedInt.ofInt? n with
  | some i => .whole i
  | none => .float (.ofInt n)

/-- The integer, when it fits in 64 signed bits. -/
def toInt64? : Number → Option Integer64.Signed
  | .whole i => BoundedInt.ofInt? i.value
  | .float _ => none

/-- The nearest binary64 number. -/
def toBinary64 : Number → Binary64
  | .whole i => .ofInt i.value
  | .float x => x

/-- Whether the number is zero, of either sign. -/
def isZero : Number → Bool
  | .whole i => i.value = 0
  | .float x => x.isZero

end Number

/-- The tree of a JSON text. -/
inductive Json where
  | null
  | bool (value : Bool)
  | number (value : Number)
  | string (value : String)
  | array (items : List Json)
  | object (members : List (String × Json))
  deriving Repr, Inhabited

namespace Json

/-- The name of a value's type. -/
def typeName : Json → String
  | .null => "null"
  | .bool _ => "boolean"
  | .number _ => "number"
  | .string _ => "string"
  | .array _ => "array"
  | .object _ => "object"

/-- Whether a value is `null`. -/
def isNull : Json → Bool
  | .null => true
  | _ => false

/-- The value of a member. -/
def member? (key : String) (members : List (String × Json)) : Option Json :=
  OrderedMap.valueAt key members

/-! ## Repeated keys -/

mutual

/-- The value in which every object has each key once, at its first place and with its last
value. -/
def mergeMembers : Json → Json
  | .array items => .array (mergeItems items)
  | .object members => .object (OrderedMap.ofList (mergeValues members)).entries
  | value => value

/-- `mergeMembers` on each item. -/
def mergeItems : List Json → List Json
  | [] => []
  | item :: rest => mergeMembers item :: mergeItems rest

/-- `mergeMembers` on each member's value. -/
def mergeValues : List (String × Json) → List (String × Json)
  | [] => []
  | (key, value) :: rest => (key, mergeMembers value) :: mergeValues rest

end

mutual

/-- No object of the value repeats a key. -/
def DistinctKeys : Json → Prop
  | .array items => ItemsDistinctKeys items
  | .object members => (members.map Prod.fst).Nodup ∧ ValuesDistinctKeys members
  | _ => True

/-- No object of an item repeats a key. -/
def ItemsDistinctKeys : List Json → Prop
  | [] => True
  | item :: rest => DistinctKeys item ∧ ItemsDistinctKeys rest

/-- No object of a member's value repeats a key. -/
def ValuesDistinctKeys : List (String × Json) → Prop
  | [] => True
  | (_, value) :: rest => DistinctKeys value ∧ ValuesDistinctKeys rest

end

theorem valuesDistinctKeys_insertEntry (key : String) (value : Json) (h : DistinctKeys value) :
    ∀ {l : List (String × Json)}, ValuesDistinctKeys l →
      ValuesDistinctKeys (OrderedMap.insertEntry key value l)
  | [], _ => by simp [OrderedMap.insertEntry, ValuesDistinctKeys, h]
  | (k, v) :: rest, hl => by
      simp only [ValuesDistinctKeys] at hl
      by_cases hk : k = key
      · simp [OrderedMap.insertEntry, hk, ValuesDistinctKeys, h, hl.2]
      · simp only [OrderedMap.insertEntry, if_neg hk, ValuesDistinctKeys]
        exact ⟨hl.1, valuesDistinctKeys_insertEntry key value h hl.2⟩

theorem valuesDistinctKeys_insertMany :
    ∀ {l : List (String × Json)} {m : OrderedMap String Json}, ValuesDistinctKeys l →
      ValuesDistinctKeys m.entries → ValuesDistinctKeys (m.insertMany l).entries
  | [], _, _, hm => hm
  | (k, v) :: rest, m, hl, hm => by
      simp only [ValuesDistinctKeys] at hl
      exact valuesDistinctKeys_insertMany (m := m.insert k v) hl.2
        (valuesDistinctKeys_insertEntry k v hl.1 hm)

mutual

/-- Merging leaves no repeated key, at any depth. -/
theorem distinctKeys_mergeMembers : ∀ (value : Json), DistinctKeys (mergeMembers value)
  | .null => by simp [mergeMembers, DistinctKeys]
  | .bool _ => by simp [mergeMembers, DistinctKeys]
  | .number _ => by simp [mergeMembers, DistinctKeys]
  | .string _ => by simp [mergeMembers, DistinctKeys]
  | .array items => by
      simp only [mergeMembers, DistinctKeys]
      exact itemsDistinctKeys_mergeItems items
  | .object members => by
      simp only [mergeMembers, DistinctKeys]
      refine ⟨(OrderedMap.ofList (mergeValues members)).nodup, ?_⟩
      exact valuesDistinctKeys_insertMany (valuesDistinctKeys_mergeValues members) trivial

theorem itemsDistinctKeys_mergeItems : ∀ (items : List Json),
    ItemsDistinctKeys (mergeItems items)
  | [] => by simp [mergeItems, ItemsDistinctKeys]
  | item :: rest => by
      simp only [mergeItems, ItemsDistinctKeys]
      exact ⟨distinctKeys_mergeMembers item, itemsDistinctKeys_mergeItems rest⟩

theorem valuesDistinctKeys_mergeValues : ∀ (members : List (String × Json)),
    ValuesDistinctKeys (mergeValues members)
  | [] => by simp [mergeValues, ValuesDistinctKeys]
  | (_, value) :: rest => by
      simp only [mergeValues, ValuesDistinctKeys]
      exact ⟨distinctKeys_mergeMembers value, valuesDistinctKeys_mergeValues rest⟩

end

end Json

end ServiceGraph
