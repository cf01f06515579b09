import ServiceGraph.Graph.Basic

/-!
# Flattening inheritance

A definition with a parent is replaced by itself laid over its flattened parent; the parent is
found through aliases. Flattening one definition walks up its parents (`Graph.climb`) and then
comes down again, laying each definition over the one above it (`Graph.layDown`). The walk keeps
the ids it has passed, so it ends: at a definition without parent, at one that was flattened
before, at a parent that is no definition, or at an id it has passed before.

`Graph.resolveInheritance` flattens every definition with the flattened forms collected on the way,
or fails; `Graph.flattenInheritance` is the step that does so to the graph under construction.
-/

set_option autoImplicit false

namespace ServiceGraph.Graph

/-- The definition of an id. -/
def lookup (g : Graph) (id : String) : Except Failure Definition :=
  match g.definitions.get? id with
  | some d => .ok d
  | none => .error (.serviceNotFound id)

/-- The ids passed on the way up from `id`, the last one first; `walked` holds those passed so far,
`id` first, and `done` the flattened forms known so far. -/
def climb (g : Graph) (done : OrderedMap String Definition) (walked : List String) (id : String) :
    Except Failure (List String) :=
  if done.contains id then .ok walked
  else
    match g.lookup id with
    | .error e => .error e
    | .ok d =>
      match d.parent with
      | none => .ok walked
      | some parent =>
        if _hk : g.definitions.contains (g.resolveAlias parent) = true then
          if _hw : g.resolveAlias parent ∈ walked then
            .error (.parentCycle (g.resolveAlias parent :: walked).reverse)
          else climb g done (g.resolveAlias parent :: walked) (g.resolveAlias parent)
        else .error (.missingParent id parent)
termination_by g.definitions.unvisited walked
decreasing_by exact OrderedMap.unvisited_cons_lt ((OrderedMap.mem_keys_iff _ _).2 _hk) _hw

/-- The flattened form of an id if it is known, its definition otherwise. -/
def formOf (g : Graph) (done : OrderedMap String Definition) (id : String) :
    Except Failure Definition :=
  match done.get? id with
  | some flat => .ok flat
  | none => g.lookup id

/-- Adds the flattened form of `child`, whose parent is `parent`, unless it is known. -/
def layOver (g : Graph) (done : OrderedMap String Definition) (parent child : String) :
    Except Failure (OrderedMap String Definition) :=
  if done.contains child then .ok done
  else do
    let above ← g.formOf done parent
    let d ← g.lookup child
    return done.insert child (d.inherit above)

/-- Flattens the ids of a walk from its upper end down, each below the one before it. -/
def layDown (g : Graph) (done : OrderedMap String Definition) :
    List String → Except Failure (OrderedMap String Definition)
  | parent :: child :: rest => do
    layDown g (← g.layOver done parent child) (child :: rest)
  | _ => .ok done

/-- Adds the flattened forms of a definition and of everything above it. -/
def flatten (g : Graph) (done : OrderedMap String Definition) (id : String) :
    Except Failure (OrderedMap String Definition) := do
  g.layDown done (← g.climb done [id] id)

/-- The definitions that have a parent. -/
def children (g : Graph) : List (String × Definition) :=
  g.definitions.entries.filter fun e => e.2.parent.isSome

/-- The flattened forms of ids and of everything above them, on top of those known so far. -/
def flattenAll (g : Graph) :
    OrderedMap String Definition → List String → Except Failure (OrderedMap String Definition)
  | done, [] => .ok done
  | done, id :: rest => do flattenAll g (← g.flatten done id) rest

/-- Replaces every definition that has a parent by its flattened form, and counts them. -/
def resolveInheritance (g : Graph) : Except Failure (Graph × Nat) := do
  let flattened ← g.flattenAll ∅ (g.children.map Prod.fst)
  return ({ g with definitions := g.definitions.insertMany flattened.entries }, flattened.size)

/-- The step that flattens the definitions of the graph under construction. -/
def flattenInheritance : Building Nat := do
  let (g, count) ← liftExcept (← get).resolveInheritance
  set g
  return count

end ServiceGraph.Graph
