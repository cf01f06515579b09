import ServiceGraph.Proofs.Construction

/-!
# The effect of wiring

Running the wiring rules succeeds exactly when every rule is satisfied by the graph before the run,
and otherwise only the rules before the first one that is not satisfied have added their calls
(`Wiring.process_ok_iff_satisfied`).

A run that succeeds adds to each definition the calls of the rules that lead to it and changes
nothing else (`Wiring.Effect`). In a graph that operations have constructed, a definition is not
hidden behind an alias, so each added call names a service that its id leads to
(`Wiring.process_adds_bindings`).
-/

set_option autoImplicit false

namespace ServiceGraph

/-! ## Counting calls -/

theorem length_flatMap_append {α β : Type} (l : List α) (f f' : α → List β) :
    (l.flatMap fun x => f x ++ f' x).length = (l.flatMap f).length + (l.flatMap f').length := by
  induction l with
  | nil => rfl
  | cons x rest ih =>
      simp only [List.flatMap_cons, List.length_append, ih]
      omega

/-- A list that stands for one key of a list stands there once. -/
theorem flatMap_ite_eq {α β : Type} [DecidableEq α] {keys : List α} (hkeys : keys.Nodup) (x : α)
    (ys : List β) :
    (keys.flatMap fun k => if x = k then ys else []) = if x ∈ keys then ys else [] := by
  induction keys with
  | nil => rfl
  | cons k rest ih =>
      -- the key stands at the head or in the rest, not in both
      obtain ⟨hk, hrest⟩ := List.nodup_cons.1 hkeys
      rw [List.flatMap_cons, ih hrest]
      by_cases hx : x = k
      · subst hx
        rw [if_pos rfl, if_neg hk, if_pos List.mem_cons_self, List.append_nil]
      · rw [if_neg hx, List.nil_append]
        simp only [List.mem_cons, hx, false_or]

namespace Graph

/-- The number of method calls of all definitions. -/
def callCount (g : Graph) : Nat := (g.definitions.entries.flatMap fun e => e.2.calls).length

theorem callCount_withCalls (g : Graph) (added : String → List MethodCall) :
    (g.withCalls added).callCount = g.callCount + (g.definitions.keys.flatMap added).length := by
  rw [callCount, callCount, OrderedMap.keys, withCalls, OrderedMap.mapValues, List.flatMap_map,
    List.flatMap_map]
  exact length_flatMap_append _ _ _

/-- An id that is no alias leads to itself. -/
theorem resolveAlias_of_not_mem {g : Graph} {id : String} (h : id ∉ g.aliases.keys) :
    g.resolveAlias id = id := by
  rw [resolveAlias, followAliases, OrderedMap.get?_eq_none_iff.2 h]

end Graph

namespace Wiring

variable {w : Wiring} {g : Graph} {rule : WiringRule}

/-! ## The services that calls name -/

/-- The id of the service that a call of a rule binds: the reference of a filter, and the second
argument of a registration. -/
def boundId? (call : MethodCall) : Option String :=
  match call.arguments with
  | [.reference (.required id _)] => some id
  | [_, .scalar (.string id)] => some id
  | _ => none

theorem Binds.boundId?_eq {id : String} {d : Definition} {calls : List MethodCall}
    (h : w.Binds g rule id d calls) {call : MethodCall} (hcall : call ∈ calls) :
    boundId? call = some id := by
  cases h with
  | filter _ =>
      obtain rfl := List.mem_singleton.1 hcall
      rfl
  | handler _ _ =>
      obtain ⟨value, -, rfl⟩ := List.mem_map.1 hcall
      rfl
  | subscriber _ _ _ =>
      obtain rfl := List.mem_singleton.1 hcall
      rfl

/-- Each call of a rule names a definition that carries the tag of the rule. -/
theorem RuleCalls.exists_boundId? {calls : List MethodCall} (h : w.RuleCalls g rule calls)
    {call : MethodCall} (hcall : call ∈ calls) :
    ∃ id d, boundId? call = some id ∧ g.definitions.get? id = some d ∧
      d.Carries (w.underScope rule.tag) := by
  cases h with
  | skipped _ => exact absurd hcall List.not_mem_nil
  | @bound blocks _ hblocks =>
      obtain ⟨block, hblock, hcall⟩ := List.mem_flatten.1 hcall
      obtain ⟨⟨id, d⟩, hmem, hbinds⟩ := exists_left_of_forall₂ hblocks hblock
      obtain ⟨hd, htag⟩ := mem_carriers_iff.1 hmem
      exact ⟨id, d, hbinds.boundId?_eq hcall, hd, htag⟩

/-- Every call of the rules is added to one definition. -/
theorem length_flatMap_callsTo {bound : Bound} (h : ∀ b ∈ bound, w.RuleCalls g b.1 b.2) :
    (g.definitions.keys.flatMap (w.callsTo g bound)).length = (bound.flatMap Prod.snd).length := by
  induction bound with
  | nil =>
      have hnone : ∀ id ∈ g.definitions.keys, w.callsTo g [] id = [] := fun _ _ => rfl
      rw [List.flatMap_eq_nil_iff.2 hnone]
      rfl
  | cons b rest ih =>
      obtain ⟨rule, calls⟩ := b
      have hcons : w.callsTo g ((rule, calls) :: rest) = fun id =>
          (if w.targetIn g rule = id then calls else []) ++ w.callsTo g rest id :=
        funext (callsTo_cons rule calls rest)
      -- the calls of the first rule go to its target, which is there unless there are none
      have hfirst : (if w.targetIn g rule ∈ g.definitions.keys then calls else []) = calls := by
        cases h (rule, calls) List.mem_cons_self with
        | bound htarget _ => rw [if_pos htarget]
        | skipped htarget => rw [if_neg htarget]
      rw [hcons, length_flatMap_append, flatMap_ite_eq g.definitions.keys_nodup, hfirst,
        ih fun b hb => h b (List.mem_cons_of_mem _ hb), List.flatMap_cons, List.length_append]

/-! ## Running all rules -/

/-- `g'` is `g` with the calls of all rules, `n` calls in total. -/
structure Effect (w : Wiring) (g : Graph) (bound : Bound) (n : Nat) (g' : Graph) : Prop where
  /-- The calls of the rules are those of the graph before any was added. -/
  binds : w.BindsAll g wiringRules bound
  only_definitions : g' = { g with definitions := g'.definitions }
  keys_eq : g'.definitions.keys = g.definitions.keys
  /-- A definition is as before, but for the calls of the rules that lead to it, which follow its
  own ones in rule order. -/
  definition (id : String) (d : Definition) : g.definitions.get? id = some d →
    g'.definitions.get? id = some { d with calls := d.calls ++ w.callsTo g bound id }
  count_eq : n = (bound.flatMap Prod.snd).length
  callCount_eq : g'.callCount = g.callCount + n

theorem BindsAll.effect {bound : Bound} (h : w.BindsAll g wiringRules bound) :
    w.Effect g bound (bound.flatMap Prod.snd).length (g.withCalls (w.callsTo g bound)) where
  binds := h
  only_definitions := rfl
  keys_eq := g.keys_withCalls _
  definition id d hd := by rw [Graph.get?_withCalls, hd, Option.map_some]
  count_eq := rfl
  callCount_eq := by rw [Graph.callCount_withCalls, length_flatMap_callsTo h.calls]

/-- A run of the rules that succeeds on a constructed graph adds exactly the calls of the rules,
which the graph before the run determines. Each call names a definition with the tag of its rule,
and the id of this definition leads to itself. -/
theorem process_adds_bindings {log : List (String × Entry)} {n : Nat} {g' : Graph}
    (hconstructed : Graph.Evolves {} log g) (hrun : w.process.runOn g = (.ok n, g')) :
    ∃ bound, w.Effect g bound n g' ∧
      (∀ bound', w.BindsAll g wiringRules bound' → bound' = bound) ∧
      ∀ b ∈ bound, ∀ call ∈ b.2, ∃ id d, boundId? call = some id ∧
        g.definitions.get? id = some d ∧ d.Carries (w.underScope b.1.tag) ∧
        id ∈ g'.definitions.keys ∧ g'.resolveAlias id = id := by
  rcases process_bound_or_refused w g with
    ⟨bound, hbound, -, hrun'⟩ | ⟨-, -, -, bound, e, -, -, -, -, hrun'⟩
  · -- the run is the one that adds the calls of all rules
    obtain ⟨hn, rfl⟩ := Prod.mk.inj (hrun'.symm.trans hrun)
    obtain rfl := Except.ok.inj hn
    refine ⟨bound, hbound.effect, fun bound' hbound' => hbound'.unique hbound, ?_⟩
    intro b hb call hcall
    obtain ⟨id, d, hid, hd, htag⟩ := (hbound.calls b hb).exists_boundId? hcall
    have hmem := OrderedMap.mem_keys_of_get? hd
    refine ⟨id, d, hid, hd, htag, ?_, ?_⟩
    · rwa [Graph.keys_withCalls]
    · -- a definition of a constructed graph is no alias
      rw [Graph.resolveAlias_withCalls]
      exact Graph.resolveAlias_of_not_mem fun ha =>
        hconstructed.sets.recorded.disjoint id ⟨hmem, ha⟩
  · exact nomatch congrArg Prod.fst (hrun'.symm.trans hrun)

/-- A handler of two commands. -/
def greeter : Definition where
  className := some "App\\Greet"
  tags := [⟨"common.command_handler", .ofList [("command", .string "hi")]⟩,
    ⟨"common.query_handler", ∅⟩,
    ⟨"common.command_handler", .ofList [("command", .string "bye")]⟩]

/-- A pipeline under a second id that is a filter for itself, a subscriber that is a filter too and
whose class is named by a parameter, and the handler. -/
def dispatchLog : List (String × Entry) :=
  [("common.command_pipeline", .aliasing ⟨"bus", true⟩),
    ("common.command_service_map", .definition {}),
    ("bus", .definition { tags := [⟨"common.command_filter", ∅⟩] }),
    ("common.event_dispatcher", .definition {}),
    ("greet", .definition greeter),
    ("audit", .definition {
      className := some "%ns%\\Audit"
      tags := [⟨"common.event_subscriber", ∅⟩, ⟨"common.command_filter", ∅⟩] })]

/-- The graph of that log, with the parameter. -/
def dispatch : Graph := (Graph.setAll {} dispatchLog).setParameter "ns" (.string "App")

/-- The capabilities of the two classes. -/
def dispatchWiring : Wiring where
  capabilities := (CapabilityRegistry.empty.register ⟨"App\\Greet", [.commandHandler]⟩).register
    ⟨"App\\Audit", [.eventSubscriber]⟩

/-- The calls of the rules on that graph, for each rule. -/
def dispatchCalls : List (List MethodCall) :=
  [[⟨"addFilter", [.reference (.required "bus" true)]⟩,
      ⟨"addFilter", [.reference (.required "audit" true)]⟩],
    [⟨"registerHandler", [.scalar (.string "hi"), .string "greet"]⟩,
      ⟨"registerHandler", [.scalar (.string "bye"), .string "greet"]⟩],
    [⟨"registerService", [.string "App\\Audit", .string "audit"]⟩],
    [], []]

theorem dispatch_bindsAll :
    dispatchWiring.BindsAll dispatch wiringRules (wiringRules.zip dispatchCalls) := by
  have hcommand (s : String) : HasAttribute "command"
      ⟨"common.command_handler", .ofList [("command", .string s)]⟩ (.string s) := ⟨rfl, nofun⟩
  have hclass : Placeholder.expand dispatch.parameters "%ns%\\Audit" = .ok "App\\Audit" := by
    decide +kernel
  have hfilters : List.Forall₂
      (fun e calls => dispatchWiring.Binds dispatch ⟨"command_pipeline", "command_filter", .filter⟩
        e.1 e.2 calls)
      (dispatch.carriers "common.command_filter")
      [[⟨"addFilter", [.reference (.required "bus" true)]⟩],
        [⟨"addFilter", [.reference (.required "audit" true)]⟩]] :=
    .cons (.filter rfl) (.cons (.filter rfl) .nil)
  -- two of the three tags of the handler are of the rule, each with its command
  have hgreeter : dispatchWiring.Binds dispatch
      ⟨"command_service_map", "command_handler", .handler "command" .commandHandler⟩ "greet" greeter
      ([.string "hi", .string "bye"].map fun value =>
        ⟨"registerHandler", [.scalar value, .string "greet"]⟩) :=
    .handler rfl (.cons (hcommand "hi") (.cons (hcommand "bye") .nil))
  have hhandlers : List.Forall₂
      (fun e calls => dispatchWiring.Binds dispatch
        ⟨"command_service_map", "command_handler", .handler "command" .commandHandler⟩
        e.1 e.2 calls)
      (dispatch.carriers "common.command_handler")
      [[⟨"registerHandler", [.scalar (.string "hi"), .string "greet"]⟩,
        ⟨"registerHandler", [.scalar (.string "bye"), .string "greet"]⟩]] :=
    .cons hgreeter .nil
  have hsubscribers : List.Forall₂
      (fun e calls => dispatchWiring.Binds dispatch
        ⟨"event_dispatcher", "event_subscriber", .subscriber .eventSubscriber⟩ e.1 e.2 calls)
      (dispatch.carriers "common.event_subscriber")
      [[⟨"registerService", [.string "App\\Audit", .string "audit"]⟩]] :=
    .cons (.subscriber rfl rfl hclass) .nil
  exact .cons (.bound (by decide) hfilters) (.cons (.bound (by decide) hhandlers)
    (.cons (.bound (by decide) hsubscribers)
      (.cons (.skipped (by decide)) (.cons (.skipped (by decide)) .nil))))

/-- The two commands of the handler are registered in the order of its tags, the subscriber by its
class with the parameter in it, and the pipeline is reached by its second id. -/
theorem process_adds_bindings_dispatch :
    ∃ g', dispatchWiring.process.runOn dispatch = (.ok 5, g') ∧
      dispatchWiring.Effect dispatch (wiringRules.zip dispatchCalls) 5 g' ∧
      ∀ b ∈ wiringRules.zip dispatchCalls, ∀ call ∈ b.2, ∃ id d, boundId? call = some id ∧
        dispatch.definitions.get? id = some d ∧ d.Carries (dispatchWiring.underScope b.1.tag) ∧
        id ∈ g'.definitions.keys ∧ g'.resolveAlias id = id := by
  rcases hrun : dispatchWiring.process.runOn dispatch with ⟨outcome, g'⟩
  have houtcome : (dispatchWiring.process.runOn dispatch).1 = .ok 5 := by decide +kernel
  rw [hrun] at houtcome
  obtain rfl : outcome = .ok 5 := houtcome
  have hconstructed : Graph.Evolves {} dispatchLog dispatch :=
    (Graph.Evolves.start.setAll dispatchLog).step (.parameterSet "ns" (.string "App"))
  obtain ⟨bound, heffect, hunique, hnames⟩ := process_adds_bindings hconstructed hrun
  obtain rfl := hunique _ dispatch_bindsAll
  exact ⟨g', rfl, heffect, hnames⟩

/-- Running the rules succeeds exactly when the graph satisfies each of them. When it fails, the
rules before one that is not satisfied have added all their calls, and nothing else has changed. -/
theorem process_ok_iff_satisfied (w : Wiring) (g : Graph) :
    ((∃ n g', w.process.runOn g = (.ok n, g')) ↔ ∀ rule ∈ wiringRules, w.Satisfied g rule) ∧
    ∀ e g', w.process.runOn g = (.error e, g') →
      ∃ before rule after bound, wiringRules = before ++ rule :: after ∧
        (∀ earlier ∈ before, w.Satisfied g earlier) ∧ ¬ w.Satisfied g rule ∧
        w.BindsAll g before bound ∧ g' = g.withCalls (w.callsTo g bound) := by
  rcases process_bound_or_refused w g with
    ⟨bound, hbound, hsatisfied, hrun⟩ |
    ⟨before, rule, after, bound, e, hrules, hbound, hbefore, hrefused, hrun⟩
  · refine ⟨⟨fun _ => hsatisfied, fun _ => ⟨_, _, hrun⟩⟩, fun e g' hrun' => ?_⟩
    exact nomatch congrArg Prod.fst (hrun.symm.trans hrun')
  · refine ⟨⟨?_, fun hall => ?_⟩, fun e' g' hrun' => ?_⟩
    · rintro ⟨n, g', hrun'⟩
      exact nomatch congrArg Prod.fst (hrun.symm.trans hrun')
    · refine absurd (hall rule ?_) hrefused
      rw [hrules]
      exact List.mem_append_right _ List.mem_cons_self
    · obtain ⟨-, rfl⟩ := Prod.mk.inj (hrun.symm.trans hrun')
      exact ⟨before, rule, after, bound, hrules, hbefore, hrefused, hbound, rfl⟩

end Wiring

end ServiceGraph
