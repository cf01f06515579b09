import ServiceGraph.Proofs.Building
import ServiceGraph.Proofs.OrderedMap
import ServiceGraph.Wiring

/-!
# What the wiring rules bind

A rule leads to a target through aliases (`Wiring.targetIn`), asks requirements of the definitions
that carry its tag (`Wiring.Satisfied`), and binds each of them by calls (`Wiring.RuleCalls`). Which
definitions these are, and by which tags, is read off the entries of the graph and the tags that
they list (`Graph.carriers`). All this is said of one graph, and of what it holds besides method
calls, so it is the same before and after calls are added (`Wiring.bindings_withCalls`).

Running rules on a graph either adds the calls of all of them, or meets a rule whose requirements
are not satisfied and adds the calls of the rules before it (`Wiring.applyAll_bound_or_refused`).
-/

set_option autoImplicit false

namespace ServiceGraph

/-! ## Flags and tags of definitions -/

namespace Definition

variable {d : Definition} {tag : String}

theorem isPublic_eq_false_iff : d.isPublic = false ↔ d.publicFlag = some false := by
  rw [isPublic]
  cases d.publicFlag with
  | none => exact iff_of_false nofun nofun
  | some b => exact Option.some_inj.symm

theorem isAbstract_eq_true_iff : d.isAbstract = true ↔ d.abstractFlag = some true := by
  rw [isAbstract]
  cases d.abstractFlag with
  | none => exact iff_of_false nofun nofun
  | some b => exact Option.some_inj.symm

/-- One of the tags of a definition has the name. -/
def Carries (d : Definition) (tag : String) : Prop := ∃ t ∈ d.tags, t.name = tag

instance (d : Definition) (tag : String) : Decidable (d.Carries tag) :=
  inferInstanceAs (Decidable (∃ t ∈ d.tags, t.name = tag))

theorem hasTag_iff : d.hasTag tag = true ↔ d.Carries tag := by
  simp only [hasTag, Carries, List.any_eq_true, decide_eq_true_eq]

theorem mem_tagsNamed_iff {t : Tag} : t ∈ d.tagsNamed tag ↔ t ∈ d.tags ∧ t.name = tag := by
  rw [tagsNamed, List.mem_filter, decide_eq_true_eq]

end Definition

/-- The definitions of a graph that carry a tag, in definition order. -/
def Graph.carriers (g : Graph) (tag : String) : List (String × Definition) :=
  g.definitions.entries.filter fun e => e.2.Carries tag

theorem Graph.tagged_eq_carriers (g : Graph) (tag : String) : g.tagged tag = g.carriers tag := by
  refine List.filter_congr fun e _ => ?_
  rw [Bool.eq_iff_iff, decide_eq_true_eq]
  exact Definition.hasTag_iff

/-! ## Adding calls to a graph -/

/-- A graph whose definitions have further calls, to each id those that are added for it. -/
def Graph.withCalls (g : Graph) (added : String → List MethodCall) : Graph :=
  { g with
    definitions := g.definitions.mapValues fun id d => { d with calls := d.calls ++ added id } }

namespace Graph

variable (g : Graph) (added : String → List MethodCall)

theorem keys_withCalls : (g.withCalls added).definitions.keys = g.definitions.keys :=
  OrderedMap.keys_mapValues _ _

theorem get?_withCalls (id : String) :
    (g.withCalls added).definitions.get? id =
      (g.definitions.get? id).map fun d => { d with calls := d.calls ++ added id } :=
  OrderedMap.get?_mapValues _ _ id

theorem resolveAlias_withCalls (id : String) :
    (g.withCalls added).resolveAlias id = g.resolveAlias id := rfl

theorem withCalls_none : (g.withCalls fun _ => []) = g := by
  have hdefinitions : (g.withCalls fun _ => []).definitions = g.definitions := by
    refine OrderedMap.ext ?_
    show g.definitions.entries.map _ = g.definitions.entries
    simp only [List.append_nil, List.map_id']
  show { g with definitions := (g.withCalls fun _ => []).definitions } = g
  rw [hdefinitions]

theorem withCalls_withCalls (added' : String → List MethodCall) :
    (g.withCalls added).withCalls added' = g.withCalls fun id => added id ++ added' id := by
  have hdefinitions : ((g.withCalls added).withCalls added').definitions =
      (g.withCalls fun id => added id ++ added' id).definitions := by
    refine OrderedMap.ext ?_
    simp only [withCalls, OrderedMap.mapValues, List.map_map, Function.comp_def, List.append_assoc]
  show { g with definitions := ((g.withCalls added).withCalls added').definitions } = _
  rw [hdefinitions]
  rfl

/-- Adding calls to one definition. -/
theorem update_calls_eq_withCalls (target : String) (calls : List MethodCall) :
    { g with definitions := g.definitions.update target fun d =>
      { d with calls := d.calls ++ calls } } =
      g.withCalls fun id => if target = id then calls else [] := by
  have hdefinitions : (g.definitions.update target fun d => { d with calls := d.calls ++ calls }) =
      (g.withCalls fun id => if target = id then calls else []).definitions := by
    refine OrderedMap.ext (List.map_congr_left fun e _ => ?_)
    by_cases he : e.1 = target
    · simp [he]
    · simp [he, Ne.symm he]
  rw [hdefinitions]
  rfl

/-- Calls do not matter for which definitions carry a tag. -/
theorem carriers_withCalls (tag : String) :
    (g.withCalls added).carriers tag =
      (g.carriers tag).map fun e => (e.1, { e.2 with calls := e.2.calls ++ added e.1 }) := by
  show (g.definitions.entries.map _).filter _ = (g.definitions.entries.filter _).map _
  rw [List.filter_map]
  rfl

end Graph

namespace Wiring

variable {w : Wiring} {g : Graph} {rule : WiringRule}

/-! ## What a rule asks for and what it binds -/

/-- The id that the target of a rule leads to. -/
def targetIn (w : Wiring) (g : Graph) (rule : WiringRule) : String :=
  g.resolveAlias (w.underScope rule.target)

/-- A definition can be made on first use and plays the role of a capability. It is public unless
it says otherwise, and concrete unless it says otherwise. -/
structure Eligible (w : Wiring) (g : Graph) (capability : Capability) (d : Definition) : Prop where
  isPublic : d.publicFlag ≠ some false
  concrete : d.abstractFlag ≠ some true
  /-- The class, with its placeholders replaced, is recorded for the capability. -/
  registered : ∃ className resolved, d.className = some className ∧
    Placeholder.expand g.parameters className = .ok resolved ∧
    w.capabilities.implements resolved capability = true

/-- A tag has an attribute with a value that is not null. -/
def HasAttribute (key : String) (tag : Tag) (value : Scalar) : Prop :=
  tag.attributes.get? key = some value ∧ value ≠ .null

/-- What a rule asks of a definition that carries its tag. -/
def Admits (w : Wiring) (g : Graph) (rule : WiringRule) (d : Definition) : Prop :=
  match rule.binding with
  | .filter => True
  | .handler key capability =>
    w.Eligible g capability d ∧
      ∀ t ∈ d.tags, t.name = w.underScope rule.tag → ∃ value, HasAttribute key t value
  | .subscriber capability => w.Eligible g capability d

/-- A rule that leads to a definition admits every definition that carries its tag. -/
def Satisfied (w : Wiring) (g : Graph) (rule : WiringRule) : Prop :=
  w.targetIn g rule ∈ g.definitions.keys →
    ∀ id d, g.definitions.get? id = some d → d.Carries (w.underScope rule.tag) → w.Admits g rule d

/-- The calls by which a rule binds a definition that carries its tag. -/
inductive Binds (w : Wiring) (g : Graph) (rule : WiringRule) (id : String) (d : Definition) :
    List MethodCall → Prop
  | filter (hrule : rule.binding = .filter) :
      Binds w g rule id d [⟨"addFilter", [.reference (.required id true)]⟩]
  /-- One call for each of the tags with the name, in written order, with the value of its
  attribute. -/
  | handler {key : String} {capability : Capability} {values : List Scalar}
      (hrule : rule.binding = .handler key capability)
      (hvalues : List.Forall₂ (HasAttribute key)
        (d.tags.filter fun t => t.name = w.underScope rule.tag) values) :
      Binds w g rule id d
        (values.map fun value => ⟨"registerHandler", [.scalar value, .string id]⟩)
  /-- One call, with the class after its placeholders are replaced. -/
  | subscriber {capability : Capability} {className resolved : String}
      (hrule : rule.binding = .subscriber capability) (hclass : d.className = some className)
      (hresolved : Placeholder.expand g.parameters className = .ok resolved) :
      Binds w g rule id d [⟨"registerService", [.string resolved, .string id]⟩]

/-- The calls of a rule: those that bind the definitions that carry its tag, in definition order,
and none when the rule leads to no definition. -/
inductive RuleCalls (w : Wiring) (g : Graph) (rule : WiringRule) : List MethodCall → Prop
  | bound {blocks : List (List MethodCall)} (htarget : w.targetIn g rule ∈ g.definitions.keys)
      (hblocks : List.Forall₂ (fun e calls => w.Binds g rule e.1 e.2 calls)
        (g.carriers (w.underScope rule.tag)) blocks) :
      RuleCalls w g rule blocks.flatten
  | skipped (htarget : w.targetIn g rule ∉ g.definitions.keys) : RuleCalls w g rule []

theorem mem_carriers_iff {tag id : String} {d : Definition} :
    (id, d) ∈ g.carriers tag ↔ g.definitions.get? id = some d ∧ d.Carries tag := by
  rw [OrderedMap.get?_eq_some_iff, Graph.carriers, List.mem_filter, decide_eq_true_eq]

theorem Binds.unique {id : String} {d : Definition} {calls calls' : List MethodCall}
    (h : w.Binds g rule id d calls) (h' : w.Binds g rule id d calls') : calls = calls' := by
  cases h with
  | filter hrule =>
      cases h' with
      | filter _ => rfl
      | handler hrule' _ => exact nomatch hrule.symm.trans hrule'
      | subscriber hrule' _ _ => exact nomatch hrule.symm.trans hrule'
  | @handler key _ _ hrule hvalues =>
      cases h' with
      | filter hrule' => exact nomatch hrule.symm.trans hrule'
      | subscriber hrule' _ _ => exact nomatch hrule.symm.trans hrule'
      | handler hrule' hvalues' =>
          obtain ⟨rfl, rfl⟩ := Binding.handler.inj (hrule.symm.trans hrule')
          -- the attribute of a tag has one value
          have hunique : Relator.RightUnique (HasAttribute key) :=
            fun tag value value' hv hv' => Option.some.inj (hv.1.symm.trans hv'.1)
          rw [List.right_unique_forall₂' hunique hvalues hvalues']
  | subscriber hrule hclass hresolved =>
      cases h' with
      | filter hrule' => exact nomatch hrule.symm.trans hrule'
      | handler hrule' _ => exact nomatch hrule.symm.trans hrule'
      | subscriber _ hclass' hresolved' =>
          obtain rfl := Option.some.inj (hclass.symm.trans hclass')
          obtain rfl := Except.ok.inj (hresolved.symm.trans hresolved')
          rfl

/-- The calls of a rule are determined by the graph. -/
theorem RuleCalls.unique {calls calls' : List MethodCall} (h : w.RuleCalls g rule calls)
    (h' : w.RuleCalls g rule calls') : calls = calls' := by
  cases h with
  | skipped htarget =>
      cases h' with
      | skipped _ => rfl
      | bound htarget' _ => exact absurd htarget' htarget
  | bound htarget hblocks =>
      cases h' with
      | skipped htarget' => exact absurd htarget htarget'
      | bound _ hblocks' =>
          rw [List.right_unique_forall₂' (fun _ _ _ hb hb' => hb.unique hb') hblocks hblocks']

/-! ## The requirements of one definition -/

/-- The checks on a definition in their order. -/
theorem eligibleClass_eq (parameters : Parameters) (id : String) (d : Definition)
    (capability : Capability) :
    w.eligibleClass parameters id d capability =
      if d.publicFlag = some false then .error (.wiring id (.notPublic capability))
      else if d.abstractFlag = some true then .error (.wiring id (.abstract capability))
      else
        match d.className with
        | none => .error (.wiring id (.withoutClass capability))
        | some className =>
          match Placeholder.expand parameters className with
          | .error e => .error e
          | .ok resolved =>
            if w.capabilities.implements resolved capability = true then .ok resolved
            else .error (.wiring id (.notRegistered resolved capability)) := by
  simp only [eligibleClass, ← Definition.isPublic_eq_false_iff,
    ← Definition.isAbstract_eq_true_iff]
  cases d.isPublic with
  | false => rfl
  | true =>
      cases d.isAbstract with
      | true => rfl
      | false =>
          cases d.className with
          | none => rfl
          | some className =>
              cases hexpand : Placeholder.expand parameters className with
              | error e => simp [bind, Except.bind, hexpand]
              | ok resolved =>
                  cases himplements : w.capabilities.implements resolved capability with
                  | true => simp [bind, Except.bind, pure, Except.pure, hexpand, himplements]
                  | false =>
                      simp [bind, Except.bind, throw, throwThe, MonadExceptOf.throw, hexpand,
                        himplements]

/-- The checks pass with a class exactly when the definition is eligible with this class. -/
theorem eligibleClass_eq_ok_iff {id resolved : String} {d : Definition} {capability : Capability} :
    w.eligibleClass g.parameters id d capability = .ok resolved ↔
      w.Eligible g capability d ∧ ∃ className, d.className = some className ∧
        Placeholder.expand g.parameters className = .ok resolved := by
  rw [eligibleClass_eq]
  constructor
  · intro h
    split at h
    · cases h
    · rename_i hpublic
      split at h
      · cases h
      · rename_i habstract
        split at h
        · cases h
        · rename_i className hclass
          split at h
          · cases h
          · rename_i found hexpand
            split at h
            · rename_i himplements
              obtain rfl := Except.ok.inj h
              exact ⟨⟨hpublic, habstract, className, found, hclass, hexpand, himplements⟩,
                className, hclass, hexpand⟩
            · cases h
  · rintro ⟨heligible, className, hclass, hexpand⟩
    obtain ⟨className', resolved', hclass', hexpand', himplements⟩ := heligible.registered
    obtain rfl := Option.some.inj (hclass.symm.trans hclass')
    obtain rfl := Except.ok.inj (hexpand.symm.trans hexpand')
    simp only [if_neg heligible.isPublic, if_neg heligible.concrete, hclass, hexpand,
      if_pos himplements]

theorem attribute?_eq_some_iff {tag : Tag} {key : String} {value : Scalar} :
    tag.attribute? key = some value ↔ HasAttribute key tag value := by
  rw [Tag.attribute?, HasAttribute]
  cases tag.attributes.get? key with
  | none => simp
  | some found => cases found <;> simp [Scalar.isNull] <;> rintro rfl <;> simp

theorem not_eligible_of_error {id : String} {d : Definition} {capability : Capability} {e : Failure}
    (h : w.eligibleClass g.parameters id d capability = .error e) :
    ¬ w.Eligible g capability d := by
  intro heligible
  obtain ⟨className, resolved, hclass, hexpand, -⟩ := heligible.registered
  have hok : w.eligibleClass g.parameters id d capability = .ok resolved :=
    eligibleClass_eq_ok_iff.2 ⟨heligible, className, hclass, hexpand⟩
  exact nomatch h.symm.trans hok

/-! ## The calls for one definition -/

/-- The call that registers a handler by one of its tags. -/
def registration (key name id : String) (tag : Tag) : Except Failure MethodCall :=
  match tag.attribute? key with
  | none => .error (.wiring id (.missingAttribute key name))
  | some value => .ok ⟨"registerHandler", [.scalar value, .string id]⟩

theorem exists_values_of_registrations {key name id : String} {tags : List Tag}
    {calls : List MethodCall}
    (h : List.Forall₂ (fun tag call => registration key name id tag = .ok call) tags calls) :
    ∃ values, List.Forall₂ (HasAttribute key) tags values ∧
      calls = values.map fun value => ⟨"registerHandler", [.scalar value, .string id]⟩ := by
  induction h with
  | nil => exact ⟨[], .nil, rfl⟩
  | @cons tag call tags calls hcall _ ih =>
      obtain ⟨values, hvalues, rfl⟩ := ih
      rw [registration] at hcall
      cases hvalue : tag.attribute? key with
      | none =>
          rw [hvalue] at hcall
          exact nomatch hcall
      | some value =>
          rw [hvalue] at hcall
          obtain rfl := Except.ok.inj hcall
          exact ⟨value :: values, .cons (attribute?_eq_some_iff.1 hvalue) hvalues, rfl⟩

/-- Tags are registered when each of them has the attribute. -/
theorem registrations_register_or_fail (key name id : String) (tags : List Tag) :
    (∃ values, tags.mapM (registration key name id) =
        .ok (values.map fun value => ⟨"registerHandler", [.scalar value, .string id]⟩) ∧
      (∀ t ∈ tags, ∃ value, HasAttribute key t value) ∧
      List.Forall₂ (HasAttribute key) tags values) ∨
    ∃ e, tags.mapM (registration key name id) = .error e ∧
      ¬ ∀ t ∈ tags, ∃ value, HasAttribute key t value := by
  cases hcalls : tags.mapM (registration key name id) with
  | ok calls =>
      obtain ⟨values, hvalues, rfl⟩ := exists_values_of_registrations (mapM_eq_ok_iff.1 hcalls)
      have hboth : List.Forall₂ (fun tag value => (∃ v, HasAttribute key tag v) ∧
          HasAttribute key tag value) tags values :=
        hvalues.imp fun _ value hvalue => ⟨⟨value, hvalue⟩, hvalue⟩
      exact Or.inl ⟨values, rfl, (List.forall₂_and_left tags values).1 hboth⟩
  | error e =>
      refine Or.inr ⟨e, rfl, fun hattributed => ?_⟩
      obtain ⟨tag, htag, hfail⟩ := exists_mem_of_mapM_eq_error hcalls
      obtain ⟨value, hvalue⟩ := hattributed tag htag
      rw [registration, attribute?_eq_some_iff.2 hvalue] at hfail
      exact nomatch hfail

theorem callsFor_handler {parameters : Parameters} {id key : String} {d : Definition}
    {capability : Capability} (hrule : rule.binding = .handler key capability) :
    w.callsFor parameters rule id d =
      (w.eligibleClass parameters id d capability).bind fun _ =>
        (d.tagsNamed (w.underScope rule.tag)).mapM
          (registration key (w.underScope rule.tag) id) := by
  rw [callsFor, hrule]
  rfl

theorem callsFor_subscriber {parameters : Parameters} {id : String} {d : Definition}
    {capability : Capability} (hrule : rule.binding = .subscriber capability) :
    w.callsFor parameters rule id d =
      (w.eligibleClass parameters id d capability).bind fun className =>
        .ok [⟨"registerService", [.string className, .string id]⟩] := by
  rw [callsFor, hrule]
  rfl

/-- A definition is bound when its rule admits it, and the rule fails at it otherwise. -/
theorem callsFor_binds_or_fails (w : Wiring) (g : Graph) (rule : WiringRule) (id : String)
    (d : Definition) :
    (∃ calls, w.callsFor g.parameters rule id d = .ok calls ∧ w.Admits g rule d ∧
      w.Binds g rule id d calls) ∨
    ∃ e, w.callsFor g.parameters rule id d = .error e ∧ ¬ w.Admits g rule d := by
  cases hrule : rule.binding with
  | filter =>
      rw [callsFor, Admits, hrule]
      exact Or.inl ⟨_, rfl, trivial, .filter hrule⟩
  | handler key capability =>
      rw [callsFor_handler hrule, Admits, hrule]
      cases hclass : w.eligibleClass g.parameters id d capability with
      | error e => exact Or.inr ⟨e, rfl, fun hadmits => not_eligible_of_error hclass hadmits.1⟩
      | ok resolved =>
          have heligible := (eligibleClass_eq_ok_iff.1 hclass).1
          have htags (t : Tag) : t ∈ d.tagsNamed (w.underScope rule.tag) ↔
              t ∈ d.tags ∧ t.name = w.underScope rule.tag := Definition.mem_tagsNamed_iff
          rcases registrations_register_or_fail key (w.underScope rule.tag) id
              (d.tagsNamed (w.underScope rule.tag)) with
            ⟨values, hcalls, hattributed, hvalues⟩ | ⟨e, hfail, hnot⟩
          · have hadmits : ∀ t ∈ d.tags, t.name = w.underScope rule.tag →
                ∃ value, HasAttribute key t value :=
              fun t ht hname => hattributed t ((htags t).2 ⟨ht, hname⟩)
            exact Or.inl ⟨_, hcalls, ⟨heligible, hadmits⟩, .handler hrule hvalues⟩
          · refine Or.inr ⟨e, hfail, fun hadmits => hnot fun t ht => ?_⟩
            obtain ⟨hmem, hname⟩ := (htags t).1 ht
            exact hadmits.2 t hmem hname
  | subscriber capability =>
      rw [callsFor_subscriber hrule, Admits, hrule]
      cases hclass : w.eligibleClass g.parameters id d capability with
      | error e => exact Or.inr ⟨e, rfl, not_eligible_of_error hclass⟩
      | ok resolved =>
          obtain ⟨heligible, className, hname, hexpand⟩ := eligibleClass_eq_ok_iff.1 hclass
          exact Or.inl ⟨_, rfl, heligible, .subscriber hrule hname hexpand⟩

/-! ## The calls of one rule -/

/-- The bindings of a rule exist when it admits every definition that carries its tag, and the rule
fails otherwise. -/
theorem bindings_bind_or_fail (w : Wiring) (g : Graph) (rule : WiringRule) :
    (∃ blocks, w.bindings g rule = .ok blocks.flatten ∧
      (∀ e ∈ g.carriers (w.underScope rule.tag), w.Admits g rule e.2) ∧
      List.Forall₂ (fun e calls => w.Binds g rule e.1 e.2 calls)
        (g.carriers (w.underScope rule.tag)) blocks) ∨
    ∃ e, w.bindings g rule = .error e ∧
      ∃ x ∈ g.carriers (w.underScope rule.tag), ¬ w.Admits g rule x.2 := by
  rw [bindings, Graph.tagged_eq_carriers]
  cases hblocks : (g.carriers (w.underScope rule.tag)).mapM
      (fun e => w.callsFor g.parameters rule e.1 e.2) with
  | error e =>
      obtain ⟨x, hx, hfail⟩ := exists_mem_of_mapM_eq_error hblocks
      refine Or.inr ⟨e, rfl, x, hx, ?_⟩
      rcases callsFor_binds_or_fails w g rule x.1 x.2 with ⟨calls, hcalls, -⟩ | ⟨-, -, hnot⟩
      · exact nomatch hfail.symm.trans hcalls
      · exact hnot
  | ok blocks =>
      have hbinds : List.Forall₂ (fun e calls => w.Admits g rule e.2 ∧
          w.Binds g rule e.1 e.2 calls) (g.carriers (w.underScope rule.tag)) blocks := by
        refine (mapM_eq_ok_iff.1 hblocks).imp fun x calls hcalls => ?_
        rcases callsFor_binds_or_fails w g rule x.1 x.2 with
          ⟨calls', hcalls', hbinds⟩ | ⟨e, hfail, -⟩
        · obtain rfl := Except.ok.inj (hcalls.symm.trans hcalls')
          exact hbinds
        · exact nomatch hcalls.symm.trans hfail
      exact Or.inl ⟨blocks, rfl, (List.forall₂_and_left _ _).1 hbinds⟩

/-- The bindings of a rule depend on nothing that adding calls changes. -/
theorem bindings_withCalls (added : String → List MethodCall) :
    w.bindings (g.withCalls added) rule = w.bindings g rule := by
  rw [bindings, bindings, Graph.tagged_eq_carriers, Graph.tagged_eq_carriers,
    Graph.carriers_withCalls]
  have hsame : ((g.carriers (w.underScope rule.tag)).map fun e =>
      (e.1, { e.2 with calls := e.2.calls ++ added e.1 })).mapM
        (fun e => w.callsFor (g.withCalls added).parameters rule e.1 e.2) =
      (g.carriers (w.underScope rule.tag)).mapM fun e => w.callsFor g.parameters rule e.1 e.2 := by
    rw [List.mapM_map]
    rfl
  rw [hsame]

/-- One rule, run after calls were added, adds its calls to its target or fails. -/
theorem apply_bound_or_refused (w : Wiring) (g : Graph) (rule : WiringRule)
    (added : String → List MethodCall) :
    (∃ calls, w.RuleCalls g rule calls ∧ w.Satisfied g rule ∧
      w.apply (g.withCalls added) rule =
        .ok (g.withCalls fun id => added id ++ if w.targetIn g rule = id then calls else [],
          calls.length)) ∨
    ∃ e, ¬ w.Satisfied g rule ∧ w.apply (g.withCalls added) rule = .error e := by
  have htarget : (g.withCalls added).definitions.contains (w.targetIn g rule) = true ↔
      w.targetIn g rule ∈ g.definitions.keys := by
    rw [← OrderedMap.mem_keys_iff, Graph.keys_withCalls]
  rw [apply, Graph.resolveAlias_withCalls, ← targetIn]
  by_cases hmem : w.targetIn g rule ∈ g.definitions.keys
  · simp only [if_pos (htarget.2 hmem), bindings_withCalls]
    rcases bindings_bind_or_fail w g rule with
      ⟨blocks, hblocks, hadmits, hbinds⟩ | ⟨e, hfail, x, hx, hnot⟩
    · refine Or.inl ⟨_, .bound hmem hbinds, ?_, ?_⟩
      · intro _ id d hd htag
        exact hadmits (id, d) (mem_carriers_iff.2 ⟨hd, htag⟩)
      · rw [hblocks]
        simp only [bind, Except.bind, pure, Except.pure, Graph.update_calls_eq_withCalls,
          Graph.withCalls_withCalls]
    · refine Or.inr ⟨e, fun hsatisfied => hnot ?_, ?_⟩
      · obtain ⟨hd, htag⟩ := mem_carriers_iff.1 hx
        exact hsatisfied hmem x.1 x.2 hd htag
      · rw [hfail]
        rfl
  · -- the rule leads to no definition
    refine Or.inl ⟨[], .skipped hmem, fun hmem' => absurd hmem' hmem, ?_⟩
    simp only [if_neg (htarget.not.2 hmem), ite_self, List.append_nil]
    rfl

/-! ## Running rules one after the other -/

/-- Rules, each with calls. -/
abbrev Bound := List (WiringRule × List MethodCall)

/-- Each of the rules stands with its own calls. -/
structure BindsAll (w : Wiring) (g : Graph) (rules : List WiringRule) (bound : Bound) : Prop where
  rules_eq : bound.map Prod.fst = rules
  calls : ∀ b ∈ bound, w.RuleCalls g b.1 b.2

/-- The calls that rules add to the definition of an id: those of the rules that lead to it, in rule
order. -/
def callsTo (w : Wiring) (g : Graph) (bound : Bound) (id : String) : List MethodCall :=
  (bound.filter fun b => w.targetIn g b.1 = id).flatMap Prod.snd

theorem callsTo_cons (rule : WiringRule) (calls : List MethodCall) (bound : Bound) (id : String) :
    w.callsTo g ((rule, calls) :: bound) id =
      (if w.targetIn g rule = id then calls else []) ++ w.callsTo g bound id := by
  by_cases h : w.targetIn g rule = id
  · simp [callsTo, h]
  · simp [callsTo, h]

namespace BindsAll

variable {rules : List WiringRule} {bound : Bound} {calls : List MethodCall}

theorem nil : w.BindsAll g [] [] where
  rules_eq := rfl
  calls := fun _ h => absurd h List.not_mem_nil

theorem cons (h : w.RuleCalls g rule calls) (hrest : w.BindsAll g rules bound) :
    w.BindsAll g (rule :: rules) ((rule, calls) :: bound) where
  rules_eq := congrArg _ hrest.rules_eq
  calls := by
    intro b hb
    rcases List.mem_cons.1 hb with rfl | hb
    · exact h
    · exact hrest.calls b hb

/-- The calls of the rules are determined by the graph. -/
theorem unique {bound' : Bound} (h : w.BindsAll g rules bound) (h' : w.BindsAll g rules bound') :
    bound = bound' := by
  induction rules generalizing bound bound' with
  | nil => rw [List.map_eq_nil_iff.1 h.rules_eq, List.map_eq_nil_iff.1 h'.rules_eq]
  | cons rule rest ih =>
      obtain ⟨⟨first, calls⟩, tail, rfl, hfirst, htail⟩ := List.map_eq_cons_iff.1 h.rules_eq
      obtain ⟨⟨first', calls'⟩, tail', rfl, hfirst', htail'⟩ := List.map_eq_cons_iff.1 h'.rules_eq
      obtain rfl : first = rule := hfirst
      obtain rfl : first' = first := hfirst'
      have hcalls : calls = calls' :=
        (h.calls (first', calls) List.mem_cons_self).unique
          (h'.calls (first', calls') List.mem_cons_self)
      rw [hcalls, ih ⟨htail, fun b hb => h.calls b (List.mem_cons_of_mem _ hb)⟩
        ⟨htail', fun b hb => h'.calls b (List.mem_cons_of_mem _ hb)⟩]

end BindsAll

theorem runOn_applyAll_cons (w : Wiring) (rule : WiringRule) (rest : List WiringRule) (g : Graph) :
    (w.applyAll (rule :: rest)).runOn g =
      match w.apply g rule with
      | .error e => (.error e, g)
      | .ok (g', count) =>
        match (w.applyAll rest).runOn g' with
        | (.error e, g'') => (.error e, g'')
        | (.ok total, g'') => (.ok (count + total), g'') := by
  rw [applyAll, Building.runOn_bind, Building.runOn_get]
  dsimp only
  cases w.apply g rule with
  | error e => rfl
  | ok result =>
      obtain ⟨g', count⟩ := result
      have hset : (set g' : Building PUnit).runOn g = (.ok ⟨⟩, g') := rfl
      simp only [Building.runOn_bind, hset]
      rcases (w.applyAll rest).runOn g' with ⟨outcome, g''⟩
      cases outcome with
      | error e => rfl
      | ok total => rfl

/-- Running rules adds the calls of all of them, or stops at a rule that is not satisfied and adds
the calls of the rules before it. The calls are those of the graph before any were added. -/
theorem applyAll_bound_or_refused (w : Wiring) (g : Graph) (rules : List WiringRule)
    (added : String → List MethodCall) :
    (∃ bound, w.BindsAll g rules bound ∧ (∀ rule ∈ rules, w.Satisfied g rule) ∧
      (w.applyAll rules).runOn (g.withCalls added) =
        (.ok (bound.flatMap Prod.snd).length,
          g.withCalls fun id => added id ++ w.callsTo g bound id)) ∨
    ∃ before rule after bound e, rules = before ++ rule :: after ∧ w.BindsAll g before bound ∧
      (∀ earlier ∈ before, w.Satisfied g earlier) ∧ ¬ w.Satisfied g rule ∧
      (w.applyAll rules).runOn (g.withCalls added) =
        (.error e, g.withCalls fun id => added id ++ w.callsTo g bound id) := by
  induction rules generalizing added with
  | nil =>
      refine Or.inl ⟨[], .nil, fun _ h => absurd h List.not_mem_nil, ?_⟩
      simp only [callsTo, List.filter_nil, List.flatMap_nil, List.append_nil]
      rfl
  | cons rule rest ih =>
      rw [runOn_applyAll_cons]
      rcases apply_bound_or_refused w g rule added with
        ⟨calls, hcalls, hsatisfied, happly⟩ | ⟨e, hrefused, happly⟩
      · -- the rules that follow find the calls of this one added, and their own are the same
        simp only [happly]
        have hadded : ∀ bound id, (added id ++ if w.targetIn g rule = id then calls else []) ++
            w.callsTo g bound id = added id ++ w.callsTo g ((rule, calls) :: bound) id := by
          intro bound id
          rw [callsTo_cons, List.append_assoc]
        have hall : ∀ earlier, (∀ r ∈ earlier, w.Satisfied g r) →
            ∀ r ∈ rule :: earlier, w.Satisfied g r := by
          intro earlier hearlier r hr
          rcases List.mem_cons.1 hr with rfl | hr
          · exact hsatisfied
          · exact hearlier r hr
        rcases ih fun id => added id ++ if w.targetIn g rule = id then calls else [] with
          ⟨bound, hbound, hrest, hrun⟩ |
          ⟨before, last, after, bound, e, rfl, hbound, hbefore, hrefused, hrun⟩
        · refine Or.inl ⟨(rule, calls) :: bound, hbound.cons hcalls, hall rest hrest, ?_⟩
          simp only [hrun, hadded, List.flatMap_cons, List.length_append]
        · refine Or.inr ⟨rule :: before, last, after, (rule, calls) :: bound, e, rfl,
            hbound.cons hcalls, hall before hbefore, hrefused, ?_⟩
          simp only [hrun, hadded]
      · refine Or.inr ⟨[], rule, rest, [], e, rfl, .nil, fun _ h => absurd h List.not_mem_nil,
          hrefused, ?_⟩
        simp only [happly, callsTo, List.filter_nil, List.flatMap_nil, List.append_nil]

/-- Running every rule on a graph. -/
theorem process_bound_or_refused (w : Wiring) (g : Graph) :
    (∃ bound, w.BindsAll g wiringRules bound ∧ (∀ rule ∈ wiringRules, w.Satisfied g rule) ∧
      w.process.runOn g = (.ok (bound.flatMap Prod.snd).length, g.withCalls (w.callsTo g bound))) ∨
    ∃ before rule after bound e, wiringRules = before ++ rule :: after ∧
      w.BindsAll g before bound ∧ (∀ earlier ∈ before, w.Satisfied g earlier) ∧
      ¬ w.Satisfied g rule ∧
      w.process.runOn g = (.error e, g.withCalls (w.callsTo g bound)) := by
  have h := applyAll_bound_or_refused w g wiringRules fun _ => []
  simp only [Graph.withCalls_none, List.nil_append] at h
  exact h

/-- Whatever the outcome, running the rules only adds calls. -/
theorem exists_withCalls (w : Wiring) (g : Graph) :
    ∃ added, (w.process.runOn g).2 = g.withCalls added := by
  rcases process_bound_or_refused w g with
    ⟨bound, -, -, hrun⟩ | ⟨-, -, -, bound, e, -, -, -, -, hrun⟩
  · exact ⟨_, congrArg Prod.snd hrun⟩
  · exact ⟨_, congrArg Prod.snd hrun⟩

end Wiring

end ServiceGraph
