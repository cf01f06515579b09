import ServiceGraph.Capability.Basic
import ServiceGraph.Graph.Basic

/-!
# Tag wiring

A `WiringRule` binds the definitions that carry a tag into one target definition, by method calls
added to the target. Targets and tags stand under a common scope. A rule whose target leads to no
definition is skipped. Handlers and subscribers are made on first use, so they must be public and
concrete and have a class that is recorded for the capability of the rule.

The calls of a rule are collected before any is added, so a rule that fails adds none
(`Wiring.apply`).
-/

set_option autoImplicit false

namespace ServiceGraph

/-- How a tagged definition is bound into the target of a rule. -/
inductive Binding where
  /-- One call `addFilter` with a reference to the definition. -/
  | filter
  /-- One call `registerHandler` for each tag, with the value of an attribute and the id. -/
  | handler (key : String) (capability : Capability)
  /-- One call `registerService` with the class and the id. -/
  | subscriber (capability : Capability)
  deriving DecidableEq, Repr

/-- A rule: the tag to collect, the target to bind into, and how. Both names stand under the
scope. -/
structure WiringRule where
  target : String
  tag : String
  binding : Binding
  deriving DecidableEq, Repr

/-- The rules in the order they run. -/
def wiringRules : List WiringRule :=
  [⟨"command_pipeline", "command_filter", .filter⟩,
    ⟨"command_service_map", "command_handler", .handler "command" .commandHandler⟩,
    ⟨"event_dispatcher", "event_subscriber", .subscriber .eventSubscriber⟩,
    ⟨"query_pipeline", "query_filter", .filter⟩,
    ⟨"query_service_map", "query_handler", .handler "query" .queryHandler⟩]

/-- The scope of targets and tags, and the capabilities of classes. -/
structure Wiring where
  scope : String := "common"
  capabilities : CapabilityRegistry := .empty
  deriving Inhabited

namespace Wiring

/-- A name under the scope. -/
def underScope (w : Wiring) (name : String) : String := w.scope ++ "." ++ name

/-- The class of a definition that meets the requirements of a capability: it is public, not
abstract, and its class, placeholders replaced, is recorded for the capability. -/
def eligibleClass (w : Wiring) (parameters : Parameters) (id : String) (d : Definition)
    (capability : Capability) : Except Failure String := do
  if !d.isPublic then throw (.wiring id (.notPublic capability))
  if d.isAbstract then throw (.wiring id (.abstract capability))
  match d.className with
  | none => throw (.wiring id (.withoutClass capability))
  | some className =>
    let className ← Placeholder.expand parameters className
    if w.capabilities.implements className capability then return className
    else throw (.wiring id (.notRegistered className capability))

/-- The calls that bind one definition by a rule. -/
def callsFor (w : Wiring) (parameters : Parameters) (rule : WiringRule) (id : String)
    (d : Definition) : Except Failure (List MethodCall) :=
  match rule.binding with
  | .filter => .ok [⟨"addFilter", [.reference (.required id true)]⟩]
  | .handler key capability => do
    let _ ← w.eligibleClass parameters id d capability
    (d.tagsNamed (w.underScope rule.tag)).mapM fun tag =>
      match tag.attribute? key with
      | none => .error (.wiring id (.missingAttribute key (w.underScope rule.tag)))
      | some value => .ok ⟨"registerHandler", [.scalar value, .string id]⟩
  | .subscriber capability => do
    let className ← w.eligibleClass parameters id d capability
    return [⟨"registerService", [.string className, .string id]⟩]

/-- The calls that bind every tagged definition by a rule, in definition order. -/
def bindings (w : Wiring) (g : Graph) (rule : WiringRule) : Except Failure (List MethodCall) := do
  let calls ← (g.tagged (w.underScope rule.tag)).mapM fun e => w.callsFor g.parameters rule e.1 e.2
  return calls.flatten

/-- Runs one rule; the result is the number of calls it added. -/
def apply (w : Wiring) (g : Graph) (rule : WiringRule) : Except Failure (Graph × Nat) := do
  let target := g.resolveAlias (w.underScope rule.target)
  if g.definitions.contains target then
    let calls ← w.bindings g rule
    let definitions := g.definitions.update target fun d => { d with calls := d.calls ++ calls }
    return ({ g with definitions }, calls.length)
  else return (g, 0)

/-- Runs rules one after the other; the result is the number of calls they added. The calls of the
rules before one that fails stay. -/
def applyAll (w : Wiring) : List WiringRule → Building Nat
  | [] => pure 0
  | rule :: rest => do
    match w.apply (← get) rule with
    | .error e => throw e
    | .ok (g, count) =>
      set g
      return count + (← applyAll w rest)

/-- Runs every rule; the result is the number of calls added. -/
def process (w : Wiring) : Building Nat := w.applyAll wiringRules

end Wiring

end ServiceGraph
