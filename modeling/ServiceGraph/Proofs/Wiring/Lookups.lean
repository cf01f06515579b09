import ServiceGraph.Graph.Inheritance
import ServiceGraph.Proofs.Wiring.Bindings

/-!
# Wiring by looking ids up

A rule finds the ids that carry its tag and its target in the graph itself. Looking each of these
ids up again, and following the aliases of the target anew for each call (`Wiring.applyByLookup`),
makes no difference: an id that carries a tag is a definition, and adding calls neither removes a
definition nor moves an alias, so no lookup can fail (`Wiring.applyByLookup_eq`).
-/

set_option autoImplicit false

namespace ServiceGraph

namespace Graph

/-- Calls added one after the other to what an id leads to. -/
def addCalls (g : Graph) (id : String) (calls : List MethodCall) : Except Failure Graph :=
  calls.foldlM (fun g call => g.addCall id call) g

theorem addCall_of_contains {g : Graph} {id : String}
    (h : g.definitions.contains (g.resolveAlias id) = true) (call : MethodCall) :
    g.addCall id call =
      .ok (g.withCalls fun other => if g.resolveAlias id = other then [call] else []) := by
  rw [addCall, if_pos h, ← update_calls_eq_withCalls]
  rfl

/-- Once an id leads to a definition, it leads there after every call. -/
theorem addCalls_of_contains {g : Graph} {id : String}
    (h : g.definitions.contains (g.resolveAlias id) = true) (calls : List MethodCall) :
    g.addCalls id calls =
      .ok (g.withCalls fun other => if g.resolveAlias id = other then calls else []) := by
  induction calls generalizing g with
  | nil =>
      simp only [ite_self, withCalls_none]
      rfl
  | cons call rest ih =>
      have hkeep : (g.withCalls fun other =>
          if g.resolveAlias id = other then [call] else []).definitions.contains
            (g.resolveAlias id) = true := by
        rwa [← OrderedMap.mem_keys_iff, keys_withCalls, OrderedMap.mem_keys_iff]
      have hstep : g.addCalls id (call :: rest) =
          (g.addCall id call).bind fun g' => g'.addCalls id rest := rfl
      rw [hstep, addCall_of_contains h]
      show (g.withCalls _).addCalls id rest = _
      rw [ih hkeep, resolveAlias_withCalls, withCalls_withCalls]
      refine congrArg Except.ok (congrArg g.withCalls (funext fun other => ?_))
      by_cases hother : g.resolveAlias id = other
      · simp [hother]
      · simp [hother]

/-- An id that carries a tag is the id of its definition. -/
theorem lookup_of_mem_tagged {g : Graph} {tag id : String} {d : Definition}
    (h : (id, d) ∈ g.tagged tag) : g.lookup id = .ok d := by
  rw [tagged_eq_carriers] at h
  rw [lookup, (Wiring.mem_carriers_iff.1 h).1]

end Graph

namespace Wiring

variable {w : Wiring} {g : Graph} {rule : WiringRule}

/-- The class that a rule needs of an id, whose definition is looked up. -/
def eligibleClassOf (w : Wiring) (g : Graph) (id : String) (capability : Capability) :
    Except Failure String := do
  w.eligibleClass g.parameters id (← g.lookup id) capability

/-- The calls that bind an id by its tags. -/
def callsByLookup (w : Wiring) (g : Graph) (rule : WiringRule) (id : String) (tags : List Tag) :
    Except Failure (List MethodCall) :=
  match rule.binding with
  | .filter => .ok [⟨"addFilter", [.reference (.required id true)]⟩]
  | .handler key capability => do
    let _ ← w.eligibleClassOf g id capability
    tags.mapM (registration key (w.underScope rule.tag) id)
  | .subscriber capability => do
    let className ← w.eligibleClassOf g id capability
    return [⟨"registerService", [.string className, .string id]⟩]

/-- Runs one rule, with every id looked up again. -/
def applyByLookup (w : Wiring) (g : Graph) (rule : WiringRule) : Except Failure (Graph × Nat) := do
  let target := w.underScope rule.target
  let tag := w.underScope rule.tag
  if g.definitions.contains (g.resolveAlias target) then
    let blocks ← (g.tagged tag).mapM fun e => w.callsByLookup g rule e.1 (e.2.tagsNamed tag)
    return (← g.addCalls target blocks.flatten, blocks.flatten.length)
  else return (g, 0)

theorem callsByLookup_eq {id : String} {d : Definition}
    (h : (id, d) ∈ g.tagged (w.underScope rule.tag)) :
    w.callsByLookup g rule id (d.tagsNamed (w.underScope rule.tag)) =
      w.callsFor g.parameters rule id d := by
  have hlookup := Graph.lookup_of_mem_tagged h
  cases hrule : rule.binding with
  | filter => rw [callsByLookup, callsFor, hrule]
  | handler key capability =>
      rw [callsFor_handler hrule, callsByLookup, hrule]
      simp only [eligibleClassOf, hlookup]
      rfl
  | subscriber capability =>
      rw [callsFor_subscriber hrule, callsByLookup, hrule]
      simp only [eligibleClassOf, hlookup]
      rfl

/-- No lookup of a rule fails. -/
theorem applyByLookup_eq (w : Wiring) (g : Graph) (rule : WiringRule) :
    w.applyByLookup g rule = w.apply g rule := by
  rw [applyByLookup, apply]
  by_cases htarget : g.definitions.contains (g.resolveAlias (w.underScope rule.target)) = true
  · simp only [if_pos htarget, bindings]
    -- each definition with the tag is bound as before
    rw [mapM_congr_of_mem fun e he => callsByLookup_eq he]
    cases (g.tagged (w.underScope rule.tag)).mapM fun e => w.callsFor g.parameters rule e.1 e.2 with
    | error e => rfl
    | ok blocks =>
        show (g.addCalls _ blocks.flatten).bind _ = _
        rw [Graph.addCalls_of_contains htarget, ← Graph.update_calls_eq_withCalls]
        rfl
  · simp only [if_neg htarget]

end Wiring

end ServiceGraph
