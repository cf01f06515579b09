import ServiceGraph.CommandLine.Run
import ServiceGraph.Proofs.Loading.Additions
import ServiceGraph.Proofs.Loading.Files
import ServiceGraph.Proofs.Loading.Invariants

/-!
# The extension stage

After the documents are loaded, the extensions consume the blocks that were written under their
names. No block waits in vain: loading refuses a document that writes under a name without
extension, so every name with blocks is registered (`Loader.preserves_registered`).

Extensions that set parameters write one parameter for each member of each of their blocks.
`ExtensionRegistry.writes` lists these writes in the order in which they are made: by extension in
registration order, by block in load order, by member as written. Names with dots can make different
extensions write the same parameter, and a document may have set it before. The last write decides
(`Compiler.extensions_last_write_wins`).
-/

set_option autoImplicit false

namespace ServiceGraph

open Loading (runOn)

/-! ## Registered names -/

theorem Loader.has_of_checkExtensions {r : ExtensionRegistry} {d : Document}
    (h : Loader.checkExtensions r d = .ok ()) : ∀ part ∈ d.extensions, r.has part.1 = true := by
  intro part hpart
  have hcheck := forM_eq_ok_iff.1 h part hpart
  by_contra hnot
  rw [if_neg hnot] at hcheck
  exact nomatch hcheck

/-- Blocks wait for registered extensions only. -/
def Graph.BlocksRegistered (g : Graph) (r : ExtensionRegistry) : Prop :=
  ∀ name ∈ g.blocks.keys, r.has name = true

theorem Loader.preserves_registered {m : Type → Type} (l : Loader m) :
    l.Preserves fun g => g.BlocksRegistered l.extensions where
  recorded _ _ hg := hg
  parts d g hcheck hg := by
    intro name hname
    have hadds := (g.adds_addParameters d.parameters).trans (Graph.adds_addBlocks _ d.extensions)
    rcases hadds.mem_blocks_iff.1 hname with hold | hnew
    · exact hg name hold
    · -- the name is that of a part of the document, which was checked
      obtain ⟨block, hblock, rfl⟩ := List.mem_map.1 hnew
      obtain ⟨part, hpart, rfl⟩ := List.mem_map.1 hblock
      exact Loader.has_of_checkExtensions hcheck part hpart
  services file services g hg := by
    intro name hname
    obtain ⟨_, _, -, -, hadds, -⟩ := Graph.adds_addServices file services g
    rcases hadds.mem_blocks_iff.1 hname with hold | hnew
    · exact hg name hold
    · exact absurd hnew List.not_mem_nil

/-! ## Extensions that set parameters -/

namespace ExtensionRegistry

/-- Every extension sets the parameters of the name that it is registered under. -/
def SetsOwnParameters (r : ExtensionRegistry) : Prop :=
  ∀ entry ∈ r.extensions.entries, entry.2 = .parameters entry.1

theorem SetsOwnParameters.register {r r' : ExtensionRegistry} {name : String}
    (h : r.SetsOwnParameters) (hregister : r.register (.parameters name) = .ok r') :
    r'.SetsOwnParameters := by
  rw [ExtensionRegistry.register] at hregister
  by_cases hhas : r.has (Extension.parameters name).name = true
  · rw [if_pos hhas] at hregister
    exact nomatch hregister
  · rw [if_neg hhas] at hregister
    obtain rfl := Except.ok.inj hregister
    have hnew : name ∉ r.extensions.keys := fun hmem => hhas ((OrderedMap.mem_keys_iff _ _).1 hmem)
    intro entry hentry
    have hentries := OrderedMap.entries_insert_of_not_mem (Extension.parameters name) hnew
    rcases List.mem_append.1 (hentries ▸ hentry) with hold | hlast
    · exact h entry hold
    · obtain rfl := List.mem_singleton.1 hlast
      rfl

/-- The registry of a command line has such extensions only. -/
theorem setsOwnParameters_parameterExtensions (names : List String) :
    (CommandLine.parameterExtensions names).SetsOwnParameters := by
  rw [CommandLine.parameterExtensions]
  refine List.foldlRecOn names _ (fun _ hentry => absurd hentry List.not_mem_nil) ?_
  intro r hr name _
  cases hregister : r.register (.parameters name) with
  | error e => exact hr
  | ok r' => exact hr.register hregister

theorem SetsOwnParameters.extensions_eq {r : ExtensionRegistry} (h : r.SetsOwnParameters) :
    r.extensions.entries.map Prod.snd = r.names.map Extension.parameters := by
  rw [names, OrderedMap.keys, List.map_map]
  exact List.map_congr_left h

end ExtensionRegistry

/-! ## Writes -/

/-- What an extension writes for blocks: one parameter for each member. -/
def Extension.writes (name : String) (blocks : List Block) : List (String × Json) :=
  blocks.flatMap fun block => block.map fun member => (name ++ "." ++ member.1, member.2)

/-- The writes of all extensions, in the order in which they are made. -/
def ExtensionRegistry.writes (r : ExtensionRegistry) (g : Graph) : List (String × Json) :=
  r.names.flatMap fun name => Extension.writes name (g.blocksOf name)

/-- The two loops over blocks and members are one over the writes. -/
theorem Extension.foldl_setParameters (name : String) (blocks : List Block) (g : Graph) :
    blocks.foldl (setParameters name) g = g.addParameters (writes name blocks) := by
  rw [writes, Graph.addParameters, List.foldl_flatMap]
  refine congrArg (fun step => blocks.foldl step g) (funext fun g => funext fun block => ?_)
  rw [List.foldl_map]
  rfl

theorem Extension.runOn_load_parameters (name : String) (blocks : List Block) (g : Graph) :
    ((parameters name).load blocks).runOn g = (.ok (), g.addParameters (writes name blocks)) := by
  rw [← foldl_setParameters]
  rfl

namespace Graph

theorem addParameters_append (g : Graph) (l l' : List (String × Json)) :
    g.addParameters (l ++ l') = (g.addParameters l).addParameters l' :=
  List.foldl_append

theorem addParameters_eq (g : Graph) (l : List (String × Json)) :
    g.addParameters l =
      { g with
        parameters := g.parameters.insertMany (l.map fun p => (p.1, Value.ofJson p.2)) } := by
  induction l generalizing g with
  | nil => rfl
  | cons p rest ih => exact ih (g.setParameter p.1 (Value.ofJson p.2))

theorem get?_addParameters_of_not_mem (g : Graph) {l : List (String × Json)} {name : String}
    (h : name ∉ l.map Prod.fst) :
    (g.addParameters l).parameters.get? name = g.parameters.get? name := by
  have hnone : OrderedMap.valueAt name (l.map fun p => (p.1, Value.ofJson p.2)).reverse = none := by
    rw [OrderedMap.valueAt_eq_none_iff, List.map_reverse,
      List.mem_reverse, List.map_map]
    exact h
  rw [addParameters_eq, OrderedMap.get?_insertMany, hnone, Option.none_or]

theorem blocksOf_addParameters (g : Graph) (l : List (String × Json)) (name : String) :
    (g.addParameters l).blocksOf name = g.blocksOf name := by
  rw [addParameters_eq]
  rfl

/-- A name has the value of the last of the parameters added under it. -/
theorem get?_addParameters_of_last (g : Graph) {before after : List (String × Json)}
    {name : String} {value : Json} (hlast : name ∉ after.map Prod.fst) :
    (g.addParameters (before ++ (name, value) :: after)).parameters.get? name =
      some (Value.ofJson value) := by
  have hunset (g : Graph) : (g.addParameters after).parameters.get? name = g.parameters.get? name :=
    get?_addParameters_of_not_mem g hlast
  rw [addParameters_append]
  show (((g.addParameters before).setParameter name (Value.ofJson value)).addParameters
    after).parameters.get? name = _
  rw [hunset]
  show ((g.addParameters before).parameters.insert name (Value.ofJson value)).get? name = _
  rw [OrderedMap.get?_insert, if_pos rfl]

end Graph

/-! ## The stage -/

namespace ExtensionRegistry

theorem runOn_processAll_parameters (names : List String) (g : Graph) :
    (processAll (names.map Extension.parameters)).runOn g =
      (.ok (names.filter fun name => !(g.blocksOf name).isEmpty).length,
        g.addParameters (names.flatMap fun name => Extension.writes name (g.blocksOf name))) := by
  induction names generalizing g with
  | nil => rfl
  | cons name rest ih =>
      rw [List.map_cons, processAll, Building.runOn_bind, Building.runOn_get, List.flatMap_cons,
        Graph.addParameters_append]
      show Building.runOn (if (g.blocksOf name).isEmpty = true then _ else _) g = _
      by_cases hempty : (g.blocksOf name).isEmpty = true
      · -- an extension without blocks is passed over, and it would write nothing
        have hwrites : Extension.writes name (g.blocksOf name) = [] := by
          rw [List.isEmpty_iff.1 hempty]
          rfl
        rw [if_pos hempty, ih, List.filter_cons_of_neg (by simp [hempty]), hwrites]
        rfl
      · -- its writes come first, and they leave the blocks of the others where they are
        rw [if_neg hempty, Building.runOn_bind, Extension.runOn_load_parameters]
        dsimp only
        rw [Building.runOn_bind, ih, List.filter_cons_of_pos (by simp [hempty])]
        simp only [Graph.blocksOf_addParameters]
        rfl

/-- `g'` is `g` after the extensions wrote their parameters, which `count` of them did. -/
structure Effect (r : ExtensionRegistry) (g : Graph) (count : Nat) (g' : Graph) : Prop where
  count_eq : count = (r.names.filter fun name => !(g.blocksOf name).isEmpty).length
  /-- The last write of a parameter decides about its value. -/
  written (before after : List (String × Json)) (name : String) (value : Json) :
    r.writes g = before ++ (name, value) :: after → name ∉ after.map Prod.fst →
      g'.parameters.get? name = some (Value.ofJson value)
  /-- A parameter that is that of no member has the value it had. -/
  unwritten (name : String) :
    (∀ registered ∈ r.names, ∀ block ∈ g.blocksOf registered, ∀ member ∈ block,
      registered ++ "." ++ member.1 ≠ name) →
    g'.parameters.get? name = g.parameters.get? name
  /-- Parameters keep their places, and new ones follow in the order of their first writes. -/
  keys_eq : g'.parameters.keys =
    g.parameters.keys ++ (((r.writes g).map Prod.fst).filter (· ∉ g.parameters.keys)).eraseDups
  only_parameters : g' = { g with parameters := g'.parameters }

theorem mem_writes_iff {r : ExtensionRegistry} {g : Graph} {write : String × Json} :
    write ∈ r.writes g ↔ ∃ name ∈ r.names, ∃ block ∈ g.blocksOf name, ∃ member ∈ block,
      (name ++ "." ++ member.1, member.2) = write := by
  simp only [writes, Extension.writes, List.mem_flatMap, List.mem_map]

/-- Adding what the extensions write as parameters is their effect. -/
theorem effect_addParameters (r : ExtensionRegistry) (g : Graph) :
    r.Effect g (r.names.filter fun name => !(g.blocksOf name).isEmpty).length
      (g.addParameters (r.writes g)) where
  count_eq := rfl
  written before after name value hwrites hlast := by
    rw [hwrites]
    exact g.get?_addParameters_of_last hlast
  unwritten name hnone := by
    apply g.get?_addParameters_of_not_mem
    intro hmem
    -- a write under the name would be that of a member
    obtain ⟨write, hwrite, rfl⟩ := List.mem_map.1 hmem
    obtain ⟨registered, hregistered, block, hblock, member, hmember, rfl⟩ :=
      mem_writes_iff.1 hwrite
    exact hnone registered hregistered block hblock member hmember rfl
  keys_eq := by
    rw [Graph.addParameters_eq, OrderedMap.keys_insertMany, List.map_map]
    rfl
  only_parameters := by rw [Graph.addParameters_eq]

theorem SetsOwnParameters.effect {r : ExtensionRegistry} (h : r.SetsOwnParameters) (g : Graph) :
    ∃ count g', r.process.runOn g = (.ok count, g') ∧ r.Effect g count g' := by
  refine ⟨_, _, ?_, r.effect_addParameters g⟩
  rw [process, h.extensions_eq, runOn_processAll_parameters]
  rfl

end ExtensionRegistry

namespace Compiler

variable {m : Type → Type} [Monad m] [LawfulMonad m]

/-- In every compilation whose extensions set parameters, every name that blocks wait for after
loading is registered. The extension stage then succeeds and counts the extensions with blocks; it
changes parameters only, of which the last write decides. -/
theorem extensions_last_write_wins (c : Compiler m) (entries : List String)
    (hextensions : c.loader.extensions.SetsOwnParameters) :
    Ensures
      (fun result => result.1 = .ok () →
        result.2.graph.BlocksRegistered c.loader.extensions ∧
          ∃ count g', c.loader.extensions.process.runOn result.2.graph = (.ok count, g') ∧
            c.loader.extensions.Effect result.2.graph count g')
      ((c.loader.loadAll entries).run.run {}) := by
  have hempty : ({} : Graph).BlocksRegistered c.loader.extensions :=
    fun _ hname => absurd hname List.not_mem_nil
  have hload := c.loader.preserves_registered.keeps_loadAll entries {} hempty
  exact hload.imp fun result hregistered _ => ⟨hregistered, hextensions.effect result.2.graph⟩

/-- A parameter that a document and the extensions of two names write, one of them from a block of
an imported document. -/
def collidingFiles : MemoryFiles := .ofJson
  [("/app.json", .object
      [("imports", .array [MemoryFiles.importing "base.json"]),
        ("parameters", .object [("a.b.c", .string "document"), ("host", .string "app")]),
        ("a", .object [("b.c", .string "short")]),
        ("a.b", .object [("c", .string "long"), ("d", .string "new")])]),
    ("/base.json", .object [("a", .object [("b.c", .string "base")])])]

/-- The compiler of these files, with the longer name registered first. -/
def colliding : Compiler Id where
  loader := { locator := collidingFiles.locator
              extensions := CommandLine.parameterExtensions ["a.b", "unused", "a"] }

theorem extensions_last_write_wins_colliding :
    colliding.loader.extensions.SetsOwnParameters ∧
    ∃ s g', runOn (colliding.loader.loadAll ["app.json"]) {} = (.ok (), s) ∧
      s.graph.BlocksRegistered colliding.loader.extensions ∧
      colliding.loader.extensions.process.runOn s.graph = (.ok 2, g') ∧
      colliding.loader.extensions.Effect s.graph 2 g' ∧
      g'.parameters.keys = ["a.b.c", "host", "a.b.d"] ∧
      (g'.parameters.get? "a.b.c").bind Value.text? = some "short" := by
  have hextensions := ExtensionRegistry.setsOwnParameters_parameterExtensions ["a.b", "unused", "a"]
  have hstage := extensions_last_write_wins colliding ["app.json"] hextensions
  rw [Ensures.id_iff, ← runOn] at hstage
  rcases hrun : runOn (colliding.loader.loadAll ["app.json"]) {} with ⟨outcome, s⟩
  have hfacts : (runOn (colliding.loader.loadAll ["app.json"]) {}).1 = .ok () ∧
      ∀ result, colliding.loader.extensions.process.runOn
        (runOn (colliding.loader.loadAll ["app.json"]) {}).2.graph = result →
      result.1 = .ok 2 ∧ result.2.parameters.keys = ["a.b.c", "host", "a.b.d"] ∧
        (result.2.parameters.get? "a.b.c").bind Value.text? = some "short" := by
    refine ⟨by decide +kernel, ?_⟩
    rintro _ rfl
    decide +kernel
  rw [hrun] at hstage hfacts
  obtain ⟨rfl, hfacts⟩ := hfacts
  obtain ⟨hregistered, count, g', hprocess, heffect⟩ := hstage rfl
  obtain ⟨hcount, hkeys, hvalue⟩ := hfacts _ hprocess
  obtain rfl : count = 2 := Except.ok.inj hcount
  exact ⟨hextensions, s, g', rfl, hregistered, hprocess, heffect, hkeys, hvalue⟩

end Compiler

end ServiceGraph
