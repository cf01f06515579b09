import ServiceGraph.Locator.InMemory
import ServiceGraph.Proofs.Loading.Additions

/-!
# Kinds of failures

`FailsAs kinds x` says that a computation that may fail does so with failures of some kinds only.
The property passes through the ways in which readers are put together, so each reader has one
lemma: what is wrong with a service entry is its shape, or a factory or configurator that is given
as a reference (`Entry.failsAs_read`); what is wrong with a document by itself is its syntax, its
shape or the name of an extension (`Document.failsAs_parse`, `Loader.failsAs_accept`); and files in
memory are only ever missing (`MemoryFiles.onlyMisses`).
-/

set_option autoImplicit false

namespace ServiceGraph

/-- A computation fails with failures of some kinds only, if it does. -/
def FailsAs {α : Type} (kinds : List FailureKind) (x : Except Failure α) : Prop :=
  ∀ e, x = .error e → e.kind ∈ kinds

namespace FailsAs

variable {α β : Type} {kinds kinds' : List FailureKind}

theorem ok (a : α) : FailsAs kinds (.ok a) := nofun

theorem error {e : Failure} (h : e.kind ∈ kinds) : FailsAs kinds (.error e : Except Failure α) := by
  intro e' he
  rwa [← Except.error.inj he]

theorem mono {x : Except Failure α} (h : FailsAs kinds x) (hkinds : kinds ⊆ kinds') :
    FailsAs kinds' x := fun e he => hkinds (h e he)

theorem kind_ne {x : Except Failure α} {e : Failure} {kind : FailureKind} (h : FailsAs kinds x)
    (hkind : kind ∉ kinds) (he : x = .error e) : e.kind ≠ kind := by
  rintro rfl
  exact hkind (h e he)

theorem ne_importCycle {x : Except Failure α} (h : FailsAs kinds x) (hkinds : .recursion ∉ kinds)
    {chain : List Path} : x ≠ .error (.importCycle chain) := fun he => h.kind_ne hkinds he rfl

theorem bind {x : Except Failure α} {f : α → Except Failure β} (hx : FailsAs kinds x)
    (hf : ∀ a, FailsAs kinds (f a)) : FailsAs kinds (x >>= f) := by
  cases x with
  | error e => exact error (hx e rfl)
  | ok a => exact hf a

theorem map {x : Except Failure α} (hx : FailsAs kinds x) (f : α → β) :
    FailsAs kinds (x.map f) := by
  cases x with
  | error e => exact error (hx e rfl)
  | ok a => exact ok (f a)

theorem mapM {f : α → Except Failure β} (hf : ∀ a, FailsAs kinds (f a)) (xs : List α) :
    FailsAs kinds (xs.mapM f) := by
  intro e he
  obtain ⟨x, -, hx⟩ := exists_mem_of_mapM_eq_error he
  exact hf x e hx

theorem forM {f : α → Except Failure Unit} (hf : ∀ a, FailsAs kinds (f a)) (xs : List α) :
    FailsAs kinds (xs.forM f) := by
  induction xs with
  | nil => exact ok ()
  | cons x rest ih => exact (hf x).bind fun _ => ih

end FailsAs

/-! ## Service entries -/

namespace Entry

variable (site : EntrySite) (fields : List (String × Json))

theorem failsAs_fault {α : Type} (fault : EntryFault) :
    FailsAs [.schema] (.error (site.fault fault) : Except Failure α) :=
  .error List.mem_cons_self

theorem failsAs_checkKeys : FailsAs [.schema] (checkKeys site fields) := by
  unfold checkKeys
  split
  · exact .ok ()
  · exact .error List.mem_cons_self

theorem failsAs_readString (key : String) : FailsAs [.schema] (readString site fields key) := by
  unfold readString
  split
  · exact .ok none
  · exact .ok _
  · exact failsAs_fault site _

theorem failsAs_readFlag (key : String) : FailsAs [.schema] (readFlag site fields key) := by
  unfold readFlag
  split
  · exact .ok none
  · exact .ok _
  · exact failsAs_fault site _

theorem failsAs_readValues (key : String) (value : Json) :
    FailsAs [.schema] (readValues site key value) := by
  unfold readValues
  split
  · exact .ok _
  · exact failsAs_fault site _

theorem failsAs_readDeprecation : FailsAs [.schema] (readDeprecation site fields) := by
  unfold readDeprecation
  split
  · exact .ok none
  · exact .ok _
  · split
    · exact .ok _
    · exact failsAs_fault site _

theorem failsAs_readArguments : FailsAs [.schema] (readArguments site fields) := by
  unfold readArguments
  split
  · exact .ok []
  · exact failsAs_readValues site _ _

theorem failsAs_readProperties : FailsAs [.schema] (readProperties site fields) := by
  unfold readProperties
  split
  · exact .ok ∅
  · exact .ok _
  · exact failsAs_fault site _

theorem failsAs_readCall (value : Json) : FailsAs [.schema] (readCall site value) := by
  have hsplit : FailsAs [.schema] (splitCall site value) := by
    unfold splitCall
    split
    all_goals first | exact .ok _ | exact failsAs_fault site _
  refine hsplit.bind fun parts => ?_
  obtain ⟨method, arguments⟩ := parts
  dsimp only
  split
  · split
    · exact .ok _
    · exact .ok _
    · exact (failsAs_readValues site _ _).bind fun _ => .ok _
  · exact failsAs_fault site _

theorem failsAs_readCalls : FailsAs [.schema] (readCalls site fields) := by
  unfold readCalls
  split
  · exact .ok []
  · exact .mapM (failsAs_readCall site) _
  · exact failsAs_fault site _

theorem failsAs_readTag (value : Json) : FailsAs [.schema] (readTag site value) := by
  have hattribute : ∀ name field, FailsAs [.schema] (readAttribute site name field) := by
    intro name field
    unfold readAttribute
    split
    · exact .ok _
    · exact .error List.mem_cons_self
  unfold readTag
  split
  · split
    · exact failsAs_fault site _
    · split
      · exact failsAs_fault site _
      · exact (FailsAs.mapM (hattribute _) _).bind fun _ => .ok _
    · exact failsAs_fault site _
  · exact failsAs_fault site _

theorem failsAs_readTags : FailsAs [.schema] (readTags site fields) := by
  unfold readTags
  split
  · exact .ok []
  · exact .mapM (failsAs_readTag site) _
  · exact failsAs_fault site _

theorem failsAs_readDecoration : FailsAs [.schema] (readDecoration site fields) := by
  have hpriority : FailsAs [.schema] (readPriority site fields) := by
    unfold readPriority
    split
    · exact .ok 0
    · split
      · exact .ok _
      · exact failsAs_fault site _
    · exact failsAs_fault site _
  refine (failsAs_readString site fields _).bind fun found => ?_
  cases found with
  | none => exact .ok none
  | some id =>
      have hrest : FailsAs [.schema] (do
          let innerName ← readString site fields "decoration_inner_name"
          let priority ← readPriority site fields
          return some (Decoration.mk id innerName priority)) :=
        (failsAs_readString site fields _).bind fun _ => hpriority.bind fun _ => .ok _
      -- a decorated service that is given as a reference is a fault of shape, unlike a callable
      dsimp only
      split
      · exact .error List.mem_cons_self
      · exact hrest

theorem failsAs_readAutowiringTypes : FailsAs [.schema] (readAutowiringTypes site fields) := by
  have htype : ∀ value, FailsAs [.schema] (readAutowiringType site value) := by
    intro value
    unfold readAutowiringType
    split
    · exact .ok _
    · exact failsAs_fault site _
  unfold readAutowiringTypes
  split
  · exact .ok []
  · exact .ok _
  · exact .mapM htype _
  · exact failsAs_fault site _

/-- The kinds of what can be wrong with an entry. -/
def faultKinds : List FailureKind := [.schema, .invalidFactoryReference]

theorem failsAs_of_schema {α : Type} {x : Except Failure α} (h : FailsAs [.schema] x) :
    FailsAs faultKinds x :=
  h.mono (List.cons_subset_cons _ (List.nil_subset _))

/-- A callable is the one part of an entry whose fault need not be one of its shape. -/
theorem failsAs_readCallable (key : String) :
    FailsAs faultKinds (readCallable site fields key) := by
  have hfault : ∀ fault, FailsAs faultKinds (.error (site.fault fault) : Except Failure Callable) :=
    fun fault => .error List.mem_cons_self
  have htext : ∀ s, FailsAs faultKinds (readCallableText site key s) := by
    intro s
    unfold readCallableText
    dsimp only
    split
    · -- the text starts with the sign of a reference
      exact .error (List.mem_cons_of_mem _ List.mem_cons_self)
    · split
      · exact .ok _
      · split
        · exact hfault _
        · exact .ok _
  have hvalue : ∀ value, FailsAs faultKinds (readCallableValue site key value) := by
    intro value
    unfold readCallableValue
    split
    · exact htext _
    · split
      · exact hfault _
      · exact .ok _
    · exact hfault _
    · exact hfault _
  unfold readCallable
  split
  · exact .ok none
  · exact (hvalue _).map some

theorem failsAs_readDefinition : FailsAs faultKinds (readDefinition site fields) := by
  have hstring := fun key => failsAs_of_schema (failsAs_readString site fields key)
  have hflag := fun key => failsAs_of_schema (failsAs_readFlag site fields key)
  have hcallable := failsAs_readCallable site fields
  -- the keys are read in this order
  refine (hstring "parent").bind fun _ => (hstring "class").bind fun _ => ?_
  refine (hflag "shared").bind fun _ => (hflag "synthetic").bind fun _ => ?_
  refine (hflag "lazy").bind fun _ => (hflag "public").bind fun _ => ?_
  refine (hflag "abstract").bind fun _ => ?_
  refine (failsAs_of_schema (failsAs_readDeprecation site fields)).bind fun _ => ?_
  refine (hcallable "factory").bind fun _ => (hstring "file").bind fun _ => ?_
  refine (failsAs_of_schema (failsAs_readArguments site fields)).bind fun _ => ?_
  refine (failsAs_of_schema (failsAs_readProperties site fields)).bind fun _ => ?_
  refine (hcallable "configurator").bind fun _ => ?_
  refine (failsAs_of_schema (failsAs_readCalls site fields)).bind fun _ => ?_
  refine (failsAs_of_schema (failsAs_readTags site fields)).bind fun _ => ?_
  refine (failsAs_of_schema (failsAs_readDecoration site fields)).bind fun _ => ?_
  refine (hflag "autowire").bind fun _ => ?_
  exact (failsAs_of_schema (failsAs_readAutowiringTypes site fields)).bind fun _ => .ok _

/-- What is wrong with an entry is its shape, or a factory or configurator given as a reference. -/
theorem failsAs_read (value : Json) : FailsAs faultKinds (read site value) := by
  unfold read
  split
  · split
    · exact .ok _
    · exact .error List.mem_cons_self
  · refine (failsAs_of_schema (failsAs_checkKeys site _)).bind fun _ => ?_
    refine (failsAs_of_schema (failsAs_readString site _ "alias")).bind fun target => ?_
    cases target with
    | some target => exact .ok _
    | none => exact (failsAs_readDefinition site _).bind fun _ => .ok _
  · exact .error List.mem_cons_self

end Entry

/-! ## Documents -/

theorem Document.failsAs_parse (text file : String) :
    FailsAs [.parse, .schema] (Document.parse text file) := by
  unfold parse
  split
  · exact .ok none
  · split
    · exact .error List.mem_cons_self
    · exact .ok none
    · exact .ok _
    · exact .error (List.mem_cons_of_mem _ List.mem_cons_self)

theorem Document.failsAs_checkParts (d : Document) : FailsAs [.schema] d.checkParts := by
  refine .forM (fun part => ?_) _
  split
  · exact .ok ()
  · unfold checkPart
    split
    · exact .ok ()
    · split
      · exact .ok ()
      · exact .error List.mem_cons_self

theorem Loader.failsAs_accept (l : Loader Id) (d : Document) :
    FailsAs [.schema, .unknownExtension] (l.accept d) := by
  have hparts : FailsAs [.schema, .unknownExtension] d.checkParts :=
    d.failsAs_checkParts.mono (List.cons_subset_cons _ (List.nil_subset _))
  refine hparts.bind fun _ => .forM (fun part => ?_) _
  split
  · exact .ok ()
  · exact .error (List.mem_cons_of_mem _ List.mem_cons_self)

theorem Import.failsAs_read (file : String) (item : Json) :
    FailsAs [.schema] (Import.read file item) := by
  unfold read
  split
  · split
    · split
      all_goals first | exact .ok _ | exact .error List.mem_cons_self
    · exact .error List.mem_cons_self
  · exact .error List.mem_cons_self

theorem Graph.failsAs_addServices (file : String) (services : List (String × Json)) (g : Graph) :
    FailsAs Entry.faultKinds ((Graph.addServices file services).runOn g).1 := by
  induction services generalizing g with
  | nil => exact .ok ()
  | cons service rest ih =>
      obtain ⟨id, value⟩ := service
      rw [runOn_addServices_cons]
      -- an id that is taken counts as a fault of shape
      by_cases hid : g.has id = true
      · rw [if_pos hid]
        exact .error List.mem_cons_self
      · rw [if_neg hid]
        cases hread : Entry.read ⟨id, file⟩ value with
        | error e => exact .error (Entry.failsAs_read _ _ e hread)
        | ok entry => exact ih (g.setEntry id entry)

theorem Loader.failsAs_mergeOwn (d : Document) (g : Graph) :
    FailsAs Entry.faultKinds (mergeOwn d g).1 :=
  Graph.failsAs_addServices d.file d.services _

/-! ## Files in memory -/

/-- The locator of a loader fails only for want of what it looks for. -/
structure Loader.OnlyMisses (l : Loader Id) : Prop where
  pathOf (resource : String) (dir : Option Path) : FailsAs [.imports] (l.pathOf resource dir)
  textOf (path : Path) : FailsAs [.imports] (l.textOf path)

namespace MemoryFiles

theorem failsAs_locate (f : MemoryFiles) (resource : String) (dir : Option Path) :
    FailsAs [.imports] (f.locate resource dir) := by
  have hlocal : FailsAs [.imports] (localPath resource) := by
    unfold localPath
    split
    · exact .ok _
    · split
      · exact .ok _
      · split
        · exact .error List.mem_cons_self
        · exact .ok _
  refine hlocal.bind fun p => ?_
  dsimp only
  split
  · exact .ok _
  · exact .error List.mem_cons_self

theorem failsAs_read (f : MemoryFiles) (path : Path) : FailsAs [.imports] (f.read path) := by
  unfold read
  split
  · exact .ok _
  · exact .error List.mem_cons_self

theorem onlyMisses {f : MemoryFiles} {l : Loader Id} (hfiles : l.locator = f.locator) :
    l.OnlyMisses where
  pathOf resource dir := by
    rw [Loader.pathOf, hfiles]
    exact f.failsAs_locate resource dir
  textOf path := by
    rw [Loader.textOf, hfiles]
    exact f.failsAs_read path

end MemoryFiles

end ServiceGraph
