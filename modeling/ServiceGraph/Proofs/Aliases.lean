import Mathlib.Data.Finset.Card
import Mathlib.Logic.Relation
import ServiceGraph.Proofs.Construction
import ServiceGraph.Proofs.Wiring.Lookups

/-!
# Following aliases

The chain of aliases from an id ends at an id that is no alias (`ChainEnds`), or it runs into a loop
(`ChainLoops`). Both are said of the aliases alone, not of a number of steps. An id is followed for
one step more than there are aliases: a chain that has not ended by then has met an alias twice, so
it stands on a loop (`followAliases_ends_or_loops`).

In a graph that operations have constructed no alias has the id of a definition, so an id that
stands on a loop leads to no definition. Looking an id up and adding a call to it therefore succeed
exactly when it leads to a definition along the chain (`Graph.LeadsTo`), and both report the id
otherwise (`Graph.Evolves.resolves_exactly`).
-/

set_option autoImplicit false

namespace ServiceGraph

/-! ## Chains of aliases -/

/-- An alias points to its target. -/
def PointsTo (aliases : OrderedMap String Alias) (id target : String) : Prop :=
  ∃ a, aliases.get? id = some a ∧ a.target = target

/-- The chain of aliases from an id ends at an id that is no alias. -/
inductive ChainEnds (aliases : OrderedMap String Alias) : String → String → Prop
  | here {id : String} (hid : id ∉ aliases.keys) : ChainEnds aliases id id
  | next {id target last : String} (hstep : PointsTo aliases id target)
      (hrest : ChainEnds aliases target last) : ChainEnds aliases id last

/-- The chain of aliases from an id runs into a loop, and an alias is on that loop. -/
structure ChainLoops (aliases : OrderedMap String Alias) (id looping : String) : Prop where
  reached : Relation.ReflTransGen (PointsTo aliases) id looping
  loop : Relation.TransGen (PointsTo aliases) looping looping

section

variable {aliases : OrderedMap String Alias} {id target last : String}

namespace PointsTo

theorem unique {target' : String} (h : PointsTo aliases id target)
    (h' : PointsTo aliases id target') : target = target' := by
  obtain ⟨a, ha, rfl⟩ := h
  obtain ⟨a', ha', rfl⟩ := h'
  rw [Option.some.inj (ha.symm.trans ha')]

theorem mem_keys (h : PointsTo aliases id target) : id ∈ aliases.keys := by
  obtain ⟨a, ha, -⟩ := h
  exact OrderedMap.mem_keys_of_get? ha

end PointsTo

namespace ChainLoops

theorem mem_keys {looping : String} (h : ChainLoops aliases id looping) :
    looping ∈ aliases.keys := by
  obtain ⟨target, hstep, -⟩ := Relation.TransGen.head'_iff.1 h.loop
  exact hstep.mem_keys

/-- What is reached from a loop leads back to where it was reached from. -/
theorem reaches_back {looping other : String}
    (hloop : Relation.TransGen (PointsTo aliases) looping looping)
    (h : Relation.ReflTransGen (PointsTo aliases) looping other) :
    Relation.ReflTransGen (PointsTo aliases) other looping := by
  induction h with
  | refl => exact .refl
  | tail _ hstep ih =>
      -- the way back starts with the only step that there is
      rcases Relation.ReflTransGen.cases_head ih with rfl | ⟨_, hstep', hrest⟩
      · obtain ⟨_, hstep', hrest⟩ := Relation.TransGen.head'_iff.1 hloop
        rwa [hstep.unique hstep']
      · rwa [hstep.unique hstep']

/-- A chain runs into one loop. -/
theorem reaches {looping looping' : String} (h : ChainLoops aliases id looping)
    (h' : ChainLoops aliases id looping') :
    Relation.ReflTransGen (PointsTo aliases) looping looping' := by
  rcases Relation.ReflTransGen.total_of_right_unique (fun _ _ _ h h' => h.unique h') h.reached
    h'.reached with hforth | hback
  · exact hforth
  · exact reaches_back h'.loop hback

end ChainLoops

namespace ChainEnds

theorem unique {last' : String} (h : ChainEnds aliases id last) (h' : ChainEnds aliases id last') :
    last = last' := by
  induction h with
  | here hid =>
      cases h' with
      | here _ => rfl
      | next hstep _ => exact absurd hstep.mem_keys hid
  | next hstep _ ih =>
      cases h' with
      | here hid => exact absurd hstep.mem_keys hid
      | next hstep' hrest' =>
          obtain rfl := hstep.unique hstep'
          exact ih hrest'

/-- A chain that ends runs into no loop. -/
theorem not_loops (h : ChainEnds aliases id last) (looping : String) :
    ¬ ChainLoops aliases id looping := by
  induction h with
  | here hid =>
      rintro ⟨hreached, hloop⟩
      rcases Relation.ReflTransGen.cases_head hreached with rfl | ⟨_, hstep, -⟩
      · exact hid (ChainLoops.mem_keys ⟨.refl, hloop⟩)
      · exact hid hstep.mem_keys
  | next hstep _ ih =>
      rintro ⟨hreached, hloop⟩
      rcases Relation.ReflTransGen.cases_head hreached with rfl | ⟨_, hstep', hrest⟩
      · -- a loop through the id is one that its target runs into
        obtain ⟨_, hstep', hback⟩ := Relation.TransGen.head'_iff.1 hloop
        obtain rfl := hstep.unique hstep'
        exact ih ⟨hback, hloop⟩
      · obtain rfl := hstep.unique hstep'
        exact ih ⟨hrest, hloop⟩

end ChainEnds

/-! ## Following for a number of steps -/

theorem followAliases_of_not_mem (hid : id ∉ aliases.keys) (steps : Nat) :
    followAliases aliases steps id = id := by
  cases steps with
  | zero => rfl
  | succ n => rw [followAliases, OrderedMap.get?_eq_none_iff.2 hid]

theorem followAliases_succ_of_pointsTo (h : PointsTo aliases id target) (steps : Nat) :
    followAliases aliases (steps + 1) id = followAliases aliases steps target := by
  obtain ⟨a, ha, rfl⟩ := h
  rw [followAliases, ha]

theorem exists_pointsTo (h : id ∈ aliases.keys) : ∃ target, PointsTo aliases id target := by
  obtain ⟨a, ha⟩ := OrderedMap.exists_get?_of_mem_keys h
  exact ⟨a.target, a, ha, rfl⟩

theorem followAliases_add (m n : Nat) (id : String) :
    followAliases aliases (m + n) id = followAliases aliases n (followAliases aliases m id) := by
  induction m generalizing id with
  | zero =>
      rw [Nat.zero_add]
      rfl
  | succ m ih =>
      by_cases hid : id ∈ aliases.keys
      · obtain ⟨target, hstep⟩ := exists_pointsTo hid
        rw [Nat.succ_add, followAliases_succ_of_pointsTo hstep,
          followAliases_succ_of_pointsTo hstep, ih]
      · simp only [followAliases_of_not_mem hid]

/-- An alias that is met after some steps points to what is met one step later. -/
theorem pointsTo_followAliases {n : Nat} (h : followAliases aliases n id ∈ aliases.keys) :
    PointsTo aliases (followAliases aliases n id) (followAliases aliases (n + 1) id) := by
  obtain ⟨target, hstep⟩ := exists_pointsTo h
  rw [followAliases_add, followAliases_succ_of_pointsTo hstep]
  exact hstep

/-- What is met on the way to an alias is an alias. -/
theorem mem_keys_of_le {m n : Nat} (hmn : m ≤ n)
    (h : followAliases aliases n id ∈ aliases.keys) :
    followAliases aliases m id ∈ aliases.keys := by
  by_contra hm
  obtain ⟨k, rfl⟩ := Nat.exists_eq_add_of_le hmn
  rw [followAliases_add, followAliases_of_not_mem hm] at h
  exact hm h

theorem reaches_followAliases {m n : Nat} (hmn : m ≤ n)
    (h : followAliases aliases n id ∈ aliases.keys) :
    Relation.ReflTransGen (PointsTo aliases) (followAliases aliases m id)
      (followAliases aliases n id) := by
  induction n, hmn using Nat.le_induction with
  | base => exact .refl
  | succ n _ ih =>
      have hn := mem_keys_of_le (Nat.le_succ n) h
      exact (ih hn).tail (pointsTo_followAliases hn)

theorem chainEnds_followAliases (n : Nat) (h : followAliases aliases n id ∉ aliases.keys) :
    ChainEnds aliases id (followAliases aliases n id) := by
  induction n generalizing id with
  | zero => exact .here h
  | succ n ih =>
      by_cases hid : id ∈ aliases.keys
      · obtain ⟨target, hstep⟩ := exists_pointsTo hid
        rw [followAliases_succ_of_pointsTo hstep] at h ⊢
        exact .next hstep (ih h)
      · rw [followAliases_of_not_mem hid]
        exact .here hid

/-- Among more aliases than there are, two are equal. -/
theorem exists_repeat {n : Nat} (hn : aliases.size < n)
    (h : followAliases aliases n id ∈ aliases.keys) :
    ∃ i j, i < j ∧ j ≤ n ∧ followAliases aliases i id = followAliases aliases j id := by
  -- all that is met on the way is among the aliases, and there are fewer of them
  have hcard : aliases.keys.toFinset.card < (Finset.range n).card := by
    rw [Finset.card_range]
    refine lt_of_le_of_lt (List.toFinset_card_le aliases.keys) ?_
    rwa [OrderedMap.keys, List.length_map]
  have hmaps : ∀ k ∈ Finset.range n, followAliases aliases k id ∈ aliases.keys.toFinset :=
    fun k hk => List.mem_toFinset.2 (mem_keys_of_le (Finset.mem_range.1 hk).le h)
  obtain ⟨i, hi, j, hj, hne, heq⟩ := Finset.exists_ne_map_eq_of_card_lt_of_maps_to hcard hmaps
  rcases Nat.lt_or_gt_of_ne hne with hij | hji
  · exact ⟨i, j, hij, (Finset.mem_range.1 hj).le, heq⟩
  · exact ⟨j, i, hji, (Finset.mem_range.1 hi).le, heq.symm⟩

/-- One step more than there are aliases leads to the end of the chain or onto its loop. -/
theorem followAliases_ends_or_loops (aliases : OrderedMap String Alias) (id : String) :
    ChainEnds aliases id (followAliases aliases (aliases.size + 1) id) ∨
      ChainLoops aliases id (followAliases aliases (aliases.size + 1) id) := by
  by_cases hend : followAliases aliases (aliases.size + 1) id ∈ aliases.keys
  · right
    obtain ⟨i, j, hij, hj, heq⟩ := exists_repeat (Nat.lt_succ_self _) hend
    -- from the first of the two on, the chain comes back after `j - i` steps
    have hback : followAliases aliases (aliases.size + 1 + (j - i)) id =
        followAliases aliases (aliases.size + 1) id := by
      have hsplit : aliases.size + 1 + (j - i) = j + (aliases.size + 1 - i) := by omega
      have hsplit' : aliases.size + 1 = i + (aliases.size + 1 - i) := by omega
      rw [hsplit, followAliases_add, ← heq, ← followAliases_add, ← hsplit']
    have hagain : followAliases aliases (aliases.size + 1 + (j - i)) id ∈ aliases.keys := by
      rwa [hback]
    have hstep := pointsTo_followAliases hend
    have hrest := reaches_followAliases (show aliases.size + 1 + 1 ≤ _ by omega) hagain
    rw [hback] at hrest
    exact ⟨reaches_followAliases (Nat.zero_le _) hend, .head' hstep hrest⟩
  · exact Or.inl (chainEnds_followAliases _ hend)

end

/-! ## What an id leads to -/

/-- Adding a call as a step that changes a graph. -/
def Building.addCall (id : String) (call : MethodCall) : Building Unit := do
  match (← get).addCall id call with
  | .error e => throw e
  | .ok g => set g

theorem Building.runOn_addCall (id : String) (call : MethodCall) (g : Graph) :
    (Building.addCall id call).runOn g =
      match g.addCall id call with
      | .error e => (.error e, g)
      | .ok g' => (.ok (), g') := by
  rw [Building.addCall, Building.runOn_bind, Building.runOn_get]
  show Building.runOn (match g.addCall id call with
    | .error e => throw e
    | .ok g' => set g') g = _
  cases g.addCall id call with
  | error e => rfl
  | ok g' => rfl

namespace Graph

variable {g : Graph} {id last : String}

/-- The chain of aliases from an id ends at a definition. -/
structure LeadsTo (g : Graph) (id last : String) : Prop where
  ends : ChainEnds g.aliases id last
  defined : last ∈ g.definitions.keys

/-- The chain of aliases from an id ends at no definition, or it loops. -/
inductive LeadsNowhere (g : Graph) (id : String) : Prop
  | dangling {last : String} (hends : ChainEnds g.aliases id last)
      (hundefined : last ∉ g.definitions.keys)
  | looping {onLoop : String} (hloops : ChainLoops g.aliases id onLoop)

/-- `g'` is `g` with a call appended to those of one definition. -/
structure CallAdded (g : Graph) (last : String) (call : MethodCall) (g' : Graph) : Prop where
  only_definitions : g' = { g with definitions := g'.definitions }
  keys_eq : g'.definitions.keys = g.definitions.keys
  appended (d : Definition) : g.definitions.get? last = some d →
    g'.definitions.get? last = some { d with calls := d.calls ++ [call] }
  others (other : String) : other ≠ last →
    g'.definitions.get? other = g.definitions.get? other

theorem callAdded_withCalls (g : Graph) (last : String) (call : MethodCall) :
    g.CallAdded last call (g.withCalls fun other => if last = other then [call] else []) where
  only_definitions := rfl
  keys_eq := g.keys_withCalls _
  appended d hd := by rw [get?_withCalls, hd, Option.map_some, if_pos rfl]
  others other hother := by
    have hcalls : (fun d : Definition =>
        { d with calls := d.calls ++ if last = other then [call] else [] }) = fun d => d := by
      simp only [if_neg (Ne.symm hother), List.append_nil]
    rw [get?_withCalls, hcalls, Option.map_id']

theorem resolveAlias_ends_or_loops (g : Graph) (id : String) :
    ChainEnds g.aliases id (g.resolveAlias id) ∨ ChainLoops g.aliases id (g.resolveAlias id) :=
  followAliases_ends_or_loops g.aliases id

theorem resolveAlias_of_ends (h : ChainEnds g.aliases id last) : g.resolveAlias id = last := by
  rcases g.resolveAlias_ends_or_loops id with hends | hloops
  · exact hends.unique h
  · exact absurd hloops (h.not_loops _)

theorem resolveAlias_of_loops {onLoop : String} (h : ChainLoops g.aliases id onLoop) :
    ChainLoops g.aliases id (g.resolveAlias id) := by
  rcases g.resolveAlias_ends_or_loops id with hends | hloops
  · exact absurd h (hends.not_loops onLoop)
  · exact hloops

/-- Where no id is both a definition and an alias, an id leads to the definition that its aliases
were followed to. -/
theorem leadsTo_iff (hdisjoint : ∀ id, ¬ (id ∈ g.definitions.keys ∧ id ∈ g.aliases.keys)) :
    g.LeadsTo id last ↔ g.resolveAlias id = last ∧ last ∈ g.definitions.keys := by
  constructor
  · rintro ⟨hends, hdefined⟩
    exact ⟨resolveAlias_of_ends hends, hdefined⟩
  · rintro ⟨rfl, hdefined⟩
    -- an alias on a loop would be a definition too
    rcases g.resolveAlias_ends_or_loops id with hends | hloops
    · exact ⟨hends, hdefined⟩
    · exact absurd ⟨hdefined, hloops.mem_keys⟩ (hdisjoint _)

theorem leadsNowhere_iff (hdisjoint : ∀ id, ¬ (id ∈ g.definitions.keys ∧ id ∈ g.aliases.keys)) :
    g.LeadsNowhere id ↔ g.resolveAlias id ∉ g.definitions.keys := by
  constructor
  · rintro (⟨hends, hundefined⟩ | hloops)
    · rwa [resolveAlias_of_ends hends]
    · exact fun hdefined => hdisjoint _ ⟨hdefined, (resolveAlias_of_loops hloops).mem_keys⟩
  · intro hundefined
    rcases g.resolveAlias_ends_or_loops id with hends | hloops
    · exact .dangling hends hundefined
    · exact .looping hloops

theorem get_freeze (g : Graph) (id : String) :
    g.freeze.get id =
      match g.definitions.get? (g.resolveAlias id) with
      | some d => .ok d
      | none => .error (.serviceNotFound id) := rfl

theorem get_freeze_eq_ok_iff {d : Definition} :
    g.freeze.get id = .ok d ↔ g.definitions.get? (g.resolveAlias id) = some d := by
  rw [get_freeze]
  cases g.definitions.get? (g.resolveAlias id) with
  | none => simp
  | some d' => simp

theorem runOn_addCall_of_mem (h : g.resolveAlias id ∈ g.definitions.keys) (call : MethodCall) :
    (Building.addCall id call).runOn g =
      (.ok (), g.withCalls fun other => if g.resolveAlias id = other then [call] else []) := by
  rw [OrderedMap.mem_keys_iff] at h
  rw [Building.runOn_addCall, addCall_of_contains h]

theorem runOn_addCall_of_not_mem (h : g.resolveAlias id ∉ g.definitions.keys) (call : MethodCall) :
    (Building.addCall id call).runOn g = (.error (.serviceNotFound id), g) := by
  rw [OrderedMap.mem_keys_iff] at h
  rw [Building.runOn_addCall, Graph.addCall, if_neg h]

/-! ## Constructed graphs -/

/-- Looking an id up and adding calls to it go by where the chain of its aliases ends. -/
structure ResolvesExactly (g : Graph) (id : String) : Prop where
  ends (last : String) : ChainEnds g.aliases id last → g.resolveAlias id = last
  /-- What a chain that loops is followed to is an alias of the same loop. -/
  loops (onLoop : String) : ChainLoops g.aliases id onLoop →
    ChainLoops g.aliases id (g.resolveAlias id) ∧
      Relation.ReflTransGen (PointsTo g.aliases) onLoop (g.resolveAlias id)
  leads_or_not : (∃ last, g.LeadsTo id last) ∨ g.LeadsNowhere id
  get_iff (d : Definition) : g.freeze.get id = .ok d ↔
    ∃ last, g.LeadsTo id last ∧ g.definitions.get? last = some d
  get_missing : g.LeadsNowhere id → g.freeze.get id = .error (.serviceNotFound id)
  call_added (last : String) (call : MethodCall) : g.LeadsTo id last →
    ∃ g', (Building.addCall id call).runOn g = (.ok (), g') ∧ g.CallAdded last call g'
  call_refused (call : MethodCall) : g.LeadsNowhere id →
    (Building.addCall id call).runOn g = (.error (.serviceNotFound id), g)

/-- In every graph that operations make of the empty graph, following the aliases of an id finds the
end of their chain, and an alias of the loop when they loop. The id is found and takes calls exactly
when the chain ends at a definition, and a call is appended to that definition only. -/
theorem Evolves.resolves_exactly {log : List (String × Entry)} (h : Evolves {} log g)
    (id : String) : g.ResolvesExactly id := by
  -- no id of a constructed graph is both a definition and an alias
  have hdisjoint := h.sets.recorded.disjoint
  constructor
  case ends =>
    intro last hends
    exact resolveAlias_of_ends hends
  case loops =>
    intro onLoop hloops
    have hresolved := resolveAlias_of_loops hloops
    exact ⟨hresolved, hloops.reaches hresolved⟩
  case leads_or_not =>
    by_cases hdefined : g.resolveAlias id ∈ g.definitions.keys
    · exact Or.inl ⟨_, (leadsTo_iff hdisjoint).2 ⟨rfl, hdefined⟩⟩
    · exact Or.inr ((leadsNowhere_iff hdisjoint).2 hdefined)
  case get_iff =>
    intro d
    rw [get_freeze_eq_ok_iff]
    constructor
    · intro hd
      exact ⟨_, (leadsTo_iff hdisjoint).2 ⟨rfl, OrderedMap.mem_keys_of_get? hd⟩, hd⟩
    · rintro ⟨last, hleads, hd⟩
      rwa [((leadsTo_iff hdisjoint).1 hleads).1]
  case get_missing =>
    intro hnowhere
    rw [get_freeze, OrderedMap.get?_eq_none_iff.2 ((leadsNowhere_iff hdisjoint).1 hnowhere)]
  case call_added =>
    intro last call hleads
    obtain ⟨rfl, hdefined⟩ := (leadsTo_iff hdisjoint).1 hleads
    exact ⟨_, runOn_addCall_of_mem hdefined call, callAdded_withCalls g _ call⟩
  case call_refused =>
    exact fun call hnowhere =>
      runOn_addCall_of_not_mem ((leadsNowhere_iff hdisjoint).1 hnowhere) call

/-- A chain of two aliases, a loop of two, and an alias that leads into the loop. -/
def chainedLog : List (String × Entry) :=
  [("m", .aliasing ⟨"mailer", true⟩), ("mailer", .aliasing ⟨"smtp", true⟩),
    ("a", .aliasing ⟨"b", true⟩), ("b", .aliasing ⟨"a", true⟩), ("c", .aliasing ⟨"a", true⟩),
    ("smtp", .definition { className := some "Smtp" })]

/-- The graph of that log. -/
def chained : Graph := setAll {} chainedLog

theorem Evolves.resolves_exactly_chained :
    Evolves {} chainedLog chained ∧
      (chained.LeadsTo "m" "smtp" ∧ chained.ResolvesExactly "m") ∧
      (ChainLoops chained.aliases "c" "a" ∧ chained.ResolvesExactly "c") := by
  have hevolves : Evolves {} chainedLog chained := Evolves.start.setAll chainedLog
  have hm : PointsTo chained.aliases "m" "mailer" := ⟨⟨"mailer", true⟩, by decide +kernel, rfl⟩
  have hmailer : PointsTo chained.aliases "mailer" "smtp" :=
    ⟨⟨"smtp", true⟩, by decide +kernel, rfl⟩
  have ha : PointsTo chained.aliases "a" "b" := ⟨⟨"b", true⟩, by decide +kernel, rfl⟩
  have hb : PointsTo chained.aliases "b" "a" := ⟨⟨"a", true⟩, by decide +kernel, rfl⟩
  have hc : PointsTo chained.aliases "c" "a" := ⟨⟨"a", true⟩, by decide +kernel, rfl⟩
  have hends : ChainEnds chained.aliases "m" "smtp" :=
    .next hm (.next hmailer (.here (by decide +kernel)))
  exact ⟨hevolves, ⟨⟨hends, by decide +kernel⟩, resolves_exactly hevolves "m"⟩,
    ⟨.single hc, .head ha (.single hb)⟩, resolves_exactly hevolves "c"⟩

end Graph

end ServiceGraph
