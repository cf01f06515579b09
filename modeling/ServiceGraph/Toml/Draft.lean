import ServiceGraph.Toml.Basic

/-!
# Tables under construction

While a text is read, its tables are open: later statements may add to them. A `Draft` remembers
how each table came about (`Origin`), because that decides who may add to it. A table with a header
of its own gets keys below that header only; a table that came about by a dotted key gets dotted
keys only; a table that a longer header implied may still get its own header; values are closed.
-/

set_option autoImplicit false

namespace ServiceGraph.Toml

/-- How an open table came about. -/
inductive Origin where
  /-- By a header of its own, or as the table of the whole text. -/
  | header
  /-- On the way to the table of a header. -/
  | implied
  /-- On the way to the last part of a key. -/
  | dotted
  deriving DecidableEq, Repr, Inhabited

/-- A value, an open table, or tables that headers in double brackets add. -/
inductive Node where
  /-- A value, to which nothing can be added. -/
  | closed (value : Toml)
  | table (origin : Origin) (members : List (String × Node))
  /-- Tables, each with a header in double brackets; the last one is open. -/
  | series (tables : List (List (String × Node)))
  deriving Inhabited

/-- The members of an open table. -/
abbrev Draft := List (String × Node)

namespace Draft

/-- What is found at a key. -/
def node? (d : Draft) (key : String) : Option Node := OrderedMap.valueAt key d

/-- The draft with a node at a key. -/
def setNode (d : Draft) (key : String) (node : Node) : Draft := OrderedMap.insertEntry key node d

/-- How a path goes through the tables on it. -/
inductive Passage where
  /-- The path of a header. -/
  | header
  /-- The path of a dotted key. -/
  | dotted
  /-- The path of a table that is open already. -/
  | free
  deriving DecidableEq, Repr

namespace Passage

/-- Whether a path may go through a table. -/
def allows : Passage → Origin → Bool
  | .dotted, .header => false
  | _, _ => true

/-- How a table comes about that a path makes on its way. -/
def origin : Passage → Origin
  | .dotted => .dotted
  | .header => .implied
  | .free => .header

end Passage

/-- Applies a change to the table that a path leads to, given the origin of the table the path
starts from. Tables are made where there is nothing; a series stands for its last table. -/
def changeAt? (passage : Passage) (change : Origin → Draft → Option Draft) :
    List String → Origin → Draft → Option Draft
  | [], origin, d => change origin d
  | key :: path, _, d =>
    match d.node? key with
    | none =>
      (changeAt? passage change path passage.origin []).map fun inner =>
        d.setNode key (.table passage.origin inner)
    | some (.table origin members) =>
      if passage.allows origin then
        (changeAt? passage change path origin members).map fun inner =>
          d.setNode key (.table origin inner)
      else none
    | some (.series tables) =>
      match tables.getLast? with
      | none => none
      | some last =>
        (changeAt? passage change path .header last).map fun inner =>
          d.setNode key (.series (tables.dropLast ++ [inner]))
    | some (.closed _) => none

/-- Sets a key, which must be free. A dotted key must lead into a table of dotted keys, and a plain
key must not. -/
def set? (path : List String) (key : String) (value : Toml) (origin : Origin) (d : Draft) :
    Option Draft :=
  changeAt? .dotted
    (fun origin inner =>
      if decide (origin = .dotted) = path.isEmpty then none
      else
        match inner.node? key with
        | some _ => none
        | none => some (inner.setNode key (.closed value)))
    path origin d

/-- Makes the table of a header. A table that is there already must have been implied. -/
def openTable? (path : List String) (key : String) (d : Draft) : Option Draft :=
  changeAt? .header
    (fun _ inner =>
      match inner.node? key with
      | none => some (inner.setNode key (.table .header []))
      | some (.table .implied members) => some (inner.setNode key (.table .header members))
      | some _ => none)
    path .header d

/-- Adds the table of a header in double brackets to its series. -/
def addTable? (path : List String) (key : String) (d : Draft) : Option Draft :=
  changeAt? .header
    (fun _ inner =>
      match inner.node? key with
      | none => some (inner.setNode key (.series [[]]))
      | some (.series tables) => some (inner.setNode key (.series (tables ++ [[]])))
      | some _ => none)
    path .header d

end Draft

mutual

/-- The value that a node has become. -/
def Node.toToml : Node → Toml
  | .closed value => value
  | .table _ members => .table (membersToToml members)
  | .series tables => .array (tablesToToml tables)

/-- The members that nodes have become. -/
def membersToToml : List (String × Node) → Members
  | [] => []
  | (key, node) :: rest => (key, node.toToml) :: membersToToml rest

/-- The tables that the tables of a series have become. -/
def tablesToToml : List (List (String × Node)) → List Toml
  | [] => []
  | members :: rest => .table (membersToToml members) :: tablesToToml rest

end

end ServiceGraph.Toml
