import ServiceGraph.Proofs.CompilationFailures
import ServiceGraph.Proofs.Construction

/-!
# What the failures of wiring name

The rules stop at one definition: the first that its rule does not admit, of the first rule that
does not admit them all (`Wiring.StopsAt`). Either this definition violates a requirement of the
rule (`Wiring.Violates`), and the message of the failure names its id (`WiringFault.names_message`),
or the class of the definition names parameters that cannot be resolved, and the failure is that of
the parameters, which would be the same under any other id (`Wiring.process_fails_at_definition`).
-/

set_option autoImplicit false

namespace ServiceGraph

/-- An id stands in a message. -/
def Names (message id : String) : Prop := id.toList <:+: message.toList

instance (message id : String) : Decidable (Names message id) :=
  inferInstanceAs (Decidable (id.toList <:+: message.toList))

namespace Names

variable {message id : String}

theorem last (before id : String) : Names (before ++ id) id := by
  rw [Names, String.toList_append]
  exact (List.suffix_append _ _).isInfix

theorem append (h : Names message id) (after : String) : Names (message ++ after) id := by
  rw [Names, String.toList_append]
  exact h.trans (List.prefix_append _ _).isInfix

end Names

/-- The words for a violated requirement name the service. -/
theorem WiringFault.names_message (id : String) (fault : WiringFault) :
    Names (fault.message id) id := by
  have hstart : Names ("The service \"" ++ id) id := Names.last _ id
  cases fault with
  | notPublic role => exact ((hstart.append _).append _).append _
  | abstract role => exact ((hstart.append _).append _).append _
  | withoutClass role => exact ((hstart.append _).append _).append _
  | notRegistered className role =>
      exact ((((((hstart.append _).append _).append _).append _).append _).append _).append _
  | missingAttribute key tag =>
      exact (((((Names.last _ id).append _).append _).append _).append _).append _

theorem eq_error_of_bind_eq_error {α β : Type} {x : Except Failure α} {next : α → Except Failure β}
    {f : Failure} (h : x.bind next = .error f) :
    x = .error f ∨ ∃ a, x = .ok a ∧ next a = .error f := by
  cases x with
  | error e => exact Or.inl (congrArg Except.error (Except.error.inj h))
  | ok a => exact Or.inr ⟨a, rfl, h⟩

/-- The capability that a rule asks of the definitions that carry its tag, if it asks for one. -/
def WiringRule.capability? (rule : WiringRule) : Option Capability :=
  match rule.binding with
  | .filter => none
  | .handler _ capability => some capability
  | .subscriber capability => some capability

namespace Wiring

variable {w : Wiring} {g : Graph} {rule : WiringRule} {id : String} {d : Definition} {f : Failure}

/-! ## Violated requirements -/

/-- A definition violates a requirement of a rule. -/
inductive Violates (w : Wiring) (g : Graph) (rule : WiringRule) (d : Definition) :
    WiringFault → Prop
  | notPublic {role : Capability} (hrole : rule.capability? = some role)
      (hpublic : d.publicFlag = some false) : Violates w g rule d (.notPublic role)
  | abstract {role : Capability} (hrole : rule.capability? = some role)
      (habstract : d.abstractFlag = some true) : Violates w g rule d (.abstract role)
  | withoutClass {role : Capability} (hrole : rule.capability? = some role)
      (hclass : d.className = none) : Violates w g rule d (.withoutClass role)
  | notRegistered {role : Capability} {className resolved : String}
      (hrole : rule.capability? = some role) (hclass : d.className = some className)
      (hresolved : Placeholder.expand g.parameters className = .ok resolved)
      (hunregistered : w.capabilities.implements resolved role = false) :
      Violates w g rule d (.notRegistered resolved role)
  /-- One of the tags lacks the attribute, or has null in its place. -/
  | missingAttribute {key : String} {role : Capability} {tag : Tag}
      (hrule : rule.binding = .handler key role) (htag : tag ∈ d.tags)
      (hname : tag.name = w.underScope rule.tag)
      (hmissing : ∀ value, ¬ HasAttribute key tag value) :
      Violates w g rule d (.missingAttribute key (w.underScope rule.tag))

/-- A class that cannot be resolved fails a rule under every id in the same way. -/
theorem callsFor_of_unresolved {role : Capability} {className : String}
    (hrole : rule.capability? = some role) (hpublic : d.publicFlag ≠ some false)
    (hconcrete : d.abstractFlag ≠ some true) (hclass : d.className = some className)
    (hunresolved : Placeholder.expand g.parameters className = .error f) (id : String) :
    w.callsFor g.parameters rule id d = .error f := by
  have heligible : w.eligibleClass g.parameters id d role = .error f := by
    rw [eligibleClass_eq]
    simp only [if_neg hpublic, if_neg hconcrete, hclass, hunresolved]
  cases hrule : rule.binding with
  | filter =>
      rw [WiringRule.capability?, hrule] at hrole
      cases hrole
  | handler key role' =>
      rw [WiringRule.capability?, hrule] at hrole
      obtain rfl := Option.some.inj hrole
      rw [callsFor_handler hrule, heligible]
      rfl
  | subscriber role' =>
      rw [WiringRule.capability?, hrule] at hrole
      obtain rfl := Option.some.inj hrole
      rw [callsFor_subscriber hrule, heligible]
      rfl

/-- A rule fails at a definition. Either the failure names the id of the definition and a
requirement that the definition violates, or it is the failure to resolve the class of the
definition. The latter is about parameters and would be the same under any other id. -/
inductive FailsAt (w : Wiring) (g : Graph) (rule : WiringRule) (id : String) (d : Definition)
    (f : Failure) : Prop
  | violated {fault : WiringFault} (hviolates : Violates w g rule d fault)
      (hf : f = .wiring id fault) (hnames : Names f.message id)
  | unresolved {className : String} (hclass : d.className = some className)
      (hunresolved : Placeholder.expand g.parameters className = .error f)
      (hkind : f.kind = .parameter)
      (hany : ∀ other, w.callsFor g.parameters rule other d = .error f)

theorem Violates.failsAt {fault : WiringFault} (h : Violates w g rule d fault) (id : String) :
    FailsAt w g rule id d (.wiring id fault) :=
  .violated h rfl (fault.names_message id)

/-- The checks fail by a requirement that is violated, or by a class that cannot be resolved. -/
theorem failsAt_of_eligibleClass {role : Capability} (hrole : rule.capability? = some role)
    (h : w.eligibleClass g.parameters id d role = .error f) : FailsAt w g rule id d f := by
  rw [eligibleClass_eq] at h
  split at h
  · rename_i hpublic
    obtain rfl := Except.error.inj h
    exact (Violates.notPublic hrole hpublic).failsAt id
  · rename_i hpublic
    split at h
    · rename_i habstract
      obtain rfl := Except.error.inj h
      exact (Violates.abstract hrole habstract).failsAt id
    · rename_i habstract
      split at h
      · rename_i hclass
        obtain rfl := Except.error.inj h
        exact (Violates.withoutClass hrole hclass).failsAt id
      · rename_i className hclass
        split at h
        · rename_i e hexpand
          obtain rfl := Except.error.inj h
          have hkind := List.mem_singleton.1 (Placeholder.failsAs_expand _ _ e hexpand)
          exact .unresolved hclass hexpand hkind
            (callsFor_of_unresolved hrole hpublic habstract hclass hexpand)
        · rename_i resolved hexpand
          split at h
          · cases h
          · rename_i hunregistered
            obtain rfl := Except.error.inj h
            exact (Violates.notRegistered hrole hclass hexpand
              (Bool.eq_false_iff.2 hunregistered)).failsAt id

/-- A tag is not registered for lack of its attribute. -/
theorem failsAt_of_registration {key : String} {role : Capability} {tag : Tag}
    (hrule : rule.binding = .handler key role) (htag : tag ∈ d.tagsNamed (w.underScope rule.tag))
    (h : registration key (w.underScope rule.tag) id tag = .error f) : FailsAt w g rule id d f := by
  rw [registration] at h
  cases hvalue : tag.attribute? key with
  | some value =>
      rw [hvalue] at h
      cases h
  | none =>
      rw [hvalue] at h
      obtain rfl := Except.error.inj h
      obtain ⟨hmem, hname⟩ := Definition.mem_tagsNamed_iff.1 htag
      refine (Violates.missingAttribute hrule hmem hname fun value hhas => ?_).failsAt id
      cases hvalue.symm.trans (attribute?_eq_some_iff.2 hhas)

/-- A rule that does not bind a definition fails at it. -/
theorem failsAt_of_callsFor (h : w.callsFor g.parameters rule id d = .error f) :
    FailsAt w g rule id d f := by
  cases hrule : rule.binding with
  | filter =>
      rw [callsFor, hrule] at h
      cases h
  | handler key role =>
      have hrole : rule.capability? = some role := by rw [WiringRule.capability?, hrule]
      rw [callsFor_handler hrule] at h
      rcases eq_error_of_bind_eq_error h with hclass | ⟨resolved, -, htags⟩
      · exact failsAt_of_eligibleClass hrole hclass
      · obtain ⟨tag, htag, hfail⟩ := exists_mem_of_mapM_eq_error htags
        exact failsAt_of_registration hrule htag hfail
  | subscriber role =>
      have hrole : rule.capability? = some role := by rw [WiringRule.capability?, hrule]
      rw [callsFor_subscriber hrule] at h
      rcases eq_error_of_bind_eq_error h with hclass | ⟨resolved, -, hcalls⟩
      · exact failsAt_of_eligibleClass hrole hclass
      · cases hcalls

/-! ## Where the rules stop -/

/-- The rules stop at a definition: the first, in definition order, that carries the tag of its rule
and is not admitted, of the first rule that is not satisfied. -/
structure StopsAt (w : Wiring) (g : Graph) (rule : WiringRule) (id : String) (d : Definition) :
    Prop where
  earlier_satisfied : ∃ earlier later, wiringRules = earlier ++ rule :: later ∧
    ∀ r ∈ earlier, w.Satisfied g r
  leads : w.targetIn g rule ∈ g.definitions.keys
  carries : d.Carries (w.underScope rule.tag)
  earlier_admitted : ∃ before after, g.definitions.entries = before ++ (id, d) :: after ∧
    ∀ e ∈ before, e.2.Carries (w.underScope rule.tag) → w.Admits g rule e.2
  not_admitted : ¬ w.Admits g rule d

theorem admits_of_callsFor {calls : List MethodCall}
    (h : w.callsFor g.parameters rule id d = .ok calls) : w.Admits g rule d := by
  rcases callsFor_binds_or_fails w g rule id d with ⟨-, -, hadmits, -⟩ | ⟨e, hfail, -⟩
  · exact hadmits
  · exact nomatch h.symm.trans hfail

theorem not_admits_of_callsFor (h : w.callsFor g.parameters rule id d = .error f) :
    ¬ w.Admits g rule d := by
  rcases callsFor_binds_or_fails w g rule id d with ⟨calls, hcalls, -⟩ | ⟨-, -, hnot⟩
  · exact nomatch h.symm.trans hcalls
  · exact hnot

/-- A rule that fails leads to a definition, and fails at the first that carries its tag and is not
admitted. -/
theorem exists_first_of_apply {added : String → List MethodCall}
    (h : w.apply (g.withCalls added) rule = .error f) :
    w.targetIn g rule ∈ g.definitions.keys ∧ ∃ before id d after,
      g.definitions.entries = before ++ (id, d) :: after ∧ d.Carries (w.underScope rule.tag) ∧
        (∀ e ∈ before, e.2.Carries (w.underScope rule.tag) → w.Admits g rule e.2) ∧
        w.callsFor g.parameters rule id d = .error f := by
  rw [apply, Graph.resolveAlias_withCalls, ← targetIn, bindings_withCalls] at h
  dsimp only at h
  split at h
  · rename_i hcontains
    rw [← OrderedMap.mem_keys_iff, Graph.keys_withCalls] at hcontains
    refine ⟨hcontains, ?_⟩
    rcases eq_error_of_bind_eq_error h with hbindings | ⟨calls, -, hcalls⟩
    · rw [bindings, Graph.tagged_eq_carriers] at hbindings
      rcases eq_error_of_bind_eq_error hbindings with hblocks | ⟨blocks, -, hblocks⟩
      · obtain ⟨earlier, ⟨id, d⟩, later, hsplit, hearlier, hfail⟩ :=
          exists_split_of_mapM_eq_error hblocks
        -- the definitions before it that carry the tag are those that were bound before it
        obtain ⟨before, rest, hentries, hbefore, hrest⟩ := List.filter_eq_append_iff.1 hsplit
        obtain ⟨others, after, rfl, hothers, hcarries, -⟩ := List.filter_eq_cons_iff.1 hrest
        rw [← List.append_assoc] at hentries
        refine ⟨before ++ others, id, d, after, hentries, of_decide_eq_true hcarries, ?_, hfail⟩
        intro e he htag
        rcases List.mem_append.1 he with he | he
        · have hmem : e ∈ earlier := hbefore ▸ List.mem_filter.2 ⟨he, decide_eq_true htag⟩
          obtain ⟨calls, hcalls⟩ := hearlier e hmem
          exact admits_of_callsFor hcalls
        · exact absurd (decide_eq_true htag) (hothers e he)
      · cases hblocks
    · cases hcalls
  · cases h

/-- A run of rules that fails does so at the first rule that is not satisfied. The rules before it
have added calls, which are of no account for it. -/
theorem exists_rule_of_applyAll {rules : List WiringRule} {added : String → List MethodCall}
    {g' : Graph} (h : (w.applyAll rules).runOn (g.withCalls added) = (.error f, g')) :
    ∃ earlier rule later added', rules = earlier ++ rule :: later ∧
      (∀ r ∈ earlier, w.Satisfied g r) ∧ w.apply (g.withCalls added') rule = .error f := by
  induction rules generalizing added g' with
  | nil => exact nomatch congrArg Prod.fst h
  | cons rule rest ih =>
      rw [runOn_applyAll_cons] at h
      rcases apply_bound_or_refused w g rule added with
        ⟨calls, -, hsatisfied, happly⟩ | ⟨e, -, happly⟩
      · simp only [happly] at h
        rcases hrest : (w.applyAll rest).runOn (g.withCalls fun id =>
            added id ++ if w.targetIn g rule = id then calls else []) with ⟨outcome, g''⟩
        rw [hrest] at h
        cases outcome with
        | ok total => exact nomatch congrArg Prod.fst h
        | error e =>
            obtain rfl := Except.error.inj (congrArg Prod.fst h)
            obtain ⟨earlier, last, later, added', rfl, hearlier, hfail⟩ := ih hrest
            refine ⟨rule :: earlier, last, later, added', rfl, fun r hr => ?_, hfail⟩
            rcases List.mem_cons.1 hr with rfl | hr
            · exact hsatisfied
            · exact hearlier r hr
      · simp only [happly] at h
        obtain rfl := Except.error.inj (congrArg Prod.fst h)
        exact ⟨[], rule, rest, added, rfl, fun _ hr => absurd hr List.not_mem_nil, happly⟩

/-- A failing run stops at a definition, and its failure is that of the rule at this definition. -/
theorem exists_stop_of_process {g' : Graph} (h : w.process.runOn g = (.error f, g')) :
    ∃ rule id d, w.StopsAt g rule id d ∧ w.callsFor g.parameters rule id d = .error f := by
  rw [← g.withCalls_none] at h
  obtain ⟨earlier, rule, later, added, hrules, hearlier, happly⟩ := exists_rule_of_applyAll h
  obtain ⟨hleads, before, id, d, after, hsplit, hcarries, hbefore, hfail⟩ :=
    exists_first_of_apply happly
  exact ⟨rule, id, d, ⟨⟨earlier, later, hrules, hearlier⟩, hleads, hcarries,
    ⟨before, after, hsplit, hbefore⟩, not_admits_of_callsFor hfail⟩, hfail⟩

/-- When the rules fail, they stop at one definition, and the failure names the id of this
definition for every requirement but one: that the parameters in its class can be resolved. -/
theorem process_fails_at_definition {g' : Graph} (hrun : w.process.runOn g = (.error f, g')) :
    ∃ rule id d, w.StopsAt g rule id d ∧ FailsAt w g rule id d f := by
  obtain ⟨rule, id, d, hstops, hfail⟩ := exists_stop_of_process hrun
  exact ⟨rule, id, d, hstops, failsAt_of_callsFor hfail⟩

/-- A service map and a handler for it, whose second tag says no command. -/
def handlersLog : List (String × Entry) :=
  [("common.command_service_map", .definition {}),
    ("greet", .definition {
      className := some "Greet"
      tags := [⟨"common.command_handler", .ofList [("command", .string "hi")]⟩,
        ⟨"common.command_handler", ∅⟩] })]

/-- The class of that handler, recorded for its capability. -/
def handlersWiring : Wiring where
  capabilities := CapabilityRegistry.empty.register ⟨"Greet", [.commandHandler]⟩

/-- The second tag is the one without command, and the message names the handler. -/
theorem process_fails_at_definition_handlers :
    ∃ f g', handlersWiring.process.runOn (Graph.setAll {} handlersLog) = (.error f, g') ∧
      Names f.message "greet" ∧ ∃ rule d,
        handlersWiring.StopsAt (Graph.setAll {} handlersLog) rule "greet" d ∧
        FailsAt handlersWiring (Graph.setAll {} handlersLog) rule "greet" d f := by
  rcases hrun : handlersWiring.process.runOn (Graph.setAll {} handlersLog) with ⟨outcome, g'⟩
  have houtcome : (handlersWiring.process.runOn (Graph.setAll {} handlersLog)).1 =
      .error (.wiring "greet" (.missingAttribute "command" "common.command_handler")) := by
    decide +kernel
  rw [hrun] at houtcome
  obtain rfl : outcome = _ := houtcome
  obtain ⟨rule, id, d, hstops, hfails⟩ := process_fails_at_definition hrun
  -- the failure is no parameter's, so it is the one that names the definition
  obtain ⟨hid, hnames⟩ : id = "greet" ∧ Names (Failure.message _) id := by
    cases hfails with
    | violated _ hf hnames => exact ⟨(Failure.wiring.inj hf).1.symm, hnames⟩
    | unresolved _ _ hkind _ => exact nomatch hkind
  subst hid
  exact ⟨_, g', rfl, hnames, rule, d, hstops, hfails⟩

/-- A dispatcher and a subscriber whose class is named by a parameter that is not there. -/
def subscriberLog : List (String × Entry) :=
  [("common.event_dispatcher", .definition {}),
    ("audit", .definition { className := some "%ns%Audit",
                            tags := [⟨"common.event_subscriber", ∅⟩] })]

/-- The failure to resolve a class does not name the service: the rules stop at `audit`, and the
message speaks of a parameter `ns` only. -/
theorem process_fails_without_id :
    ∃ g f g', Graph.Evolves {} subscriberLog g ∧
      ({} : Wiring).process.runOn g = (.error f, g') ∧
      g.carriers "common.event_subscriber" =
        [("audit", { className := some "%ns%Audit", tags := [⟨"common.event_subscriber", ∅⟩] })] ∧
      f.message = "You have requested a non-existent parameter \"ns\"" ∧
      ¬ Names f.message "audit" := by
  rcases hrun : ({} : Wiring).process.runOn (Graph.setAll {} subscriberLog) with ⟨outcome, g'⟩
  have houtcome : (({} : Wiring).process.runOn (Graph.setAll {} subscriberLog)).1 =
      .error (.unknownParameter "ns") := by
    decide +kernel
  rw [hrun] at houtcome
  obtain rfl : outcome = _ := houtcome
  exact ⟨_, _, g', Graph.Evolves.start.setAll subscriberLog, hrun, rfl, by decide +kernel,
    by decide +kernel⟩

end Wiring

end ServiceGraph
