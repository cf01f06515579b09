import ServiceGraph.Proofs.JsonEquality
import ServiceGraph.Proofs.Loading.Loadable

/-!
# The order of imports

Two documents are reorderings of each other when they differ in the order of their imports only
(`Document.Reorders`), and so are two loaders when they find resources in the same places and read
reordered documents there (`Loader.Reorders`). Reordered loaders reach the same documents, so the
same entry documents are loadable for both (`Loader.Reorders.loadable`), and the graphs that are
merged from these documents have the same contents (`Graph.SameContents`).

For files in memory, with room for all of them, loading entry documents therefore succeeds for one
order exactly when it succeeds for the other, and with the same contents
(`MemoryFiles.Reorders.loadAll_in_any_order`).
-/

set_option autoImplicit false

namespace ServiceGraph

open Loading (runOn)
open Relation (TransGen)

/-! ## Reordered documents -/

/-- A top-level part is the same, or both hold imports that were put in another order. -/
inductive PartReorders : String × Json → String × Json → Prop
  | same (part : String × Json) : PartReorders part part
  | imports {items items' : List Json} (hitems : items.Perm items') :
      PartReorders (DocumentPart.imports.key, .array items)
        (DocumentPart.imports.key, .array items')

/-- Two documents of one file differ in the order of their imports only. -/
structure Document.Reorders (d d' : Document) : Prop where
  file_eq : d'.file = d.file
  parts : List.Forall₂ PartReorders d.parts d'.parts

/-- What is read at two places is no document at all, or a document and a reordering of it. -/
inductive ResultReorders :
    Except Failure (Option Document) → Except Failure (Option Document) → Prop
  | failed (e e' : Failure) : ResultReorders (.error e) (.error e')
  | empty : ResultReorders (.ok none) (.ok none)
  | document {d d' : Document} (h : d.Reorders d') : ResultReorders (.ok (some d)) (.ok (some d'))

theorem PartReorders.symm {part part' : String × Json} (h : PartReorders part part') :
    PartReorders part' part := by
  cases h with
  | same => exact .same part
  | imports hitems => exact .imports hitems.symm

namespace Document.Reorders

variable {d d' : Document}

theorem refl (d : Document) : d.Reorders d where
  file_eq := rfl
  parts := List.forall₂_same.2 fun part _ => .same part

theorem symm (h : d.Reorders d') : d'.Reorders d where
  file_eq := h.file_eq.symm
  parts := h.parts.flip.imp fun _ _ hpart => hpart.symm

/-- A part is the same in both documents, unless it holds imports. -/
theorem member?_eq_or_imports {parts parts' : List (String × Json)}
    (h : List.Forall₂ PartReorders parts parts') (key : String) :
    Json.member? key parts' = Json.member? key parts ∨
      key = DocumentPart.imports.key ∧ ∃ items items', items.Perm items' ∧
        Json.member? key parts = some (.array items) ∧
        Json.member? key parts' = some (.array items') := by
  induction h with
  | nil => exact Or.inl rfl
  | @cons part part' rest rest' hpart _ ih =>
      have hcons : ∀ (p : String × Json) (ps : List (String × Json)),
          Json.member? key (p :: ps) = if p.1 = key then some p.2 else Json.member? key ps :=
        fun _ _ => rfl
      rw [hcons, hcons]
      -- the first part of the key decides, and it has the same key in both documents
      cases hpart with
      | same =>
          by_cases hkey : part.1 = key
          · rw [if_pos hkey, if_pos hkey]
            exact Or.inl rfl
          · rw [if_neg hkey, if_neg hkey]
            exact ih
      | @imports items items' hitems =>
          by_cases hkey : DocumentPart.imports.key = key
          · rw [if_pos hkey, if_pos hkey]
            exact Or.inr ⟨hkey.symm, items, items', hitems, rfl, rfl⟩
          · rw [if_neg hkey, if_neg hkey]
            exact ih

theorem part?_eq (h : d.Reorders d') {part : DocumentPart} (hpart : part ≠ .imports) :
    d'.part? part = d.part? part := by
  rcases member?_eq_or_imports h.parts part.key with heq | ⟨hkey, -⟩
  · exact heq
  · -- the key is that of imports, so the part would be
    cases part with
    | imports => exact absurd rfl hpart
    | parameters => exact absurd hkey (by decide)
    | services => exact absurd hkey (by decide)

theorem parameters_eq (h : d.Reorders d') : d'.parameters = d.parameters := by
  have hpart : d'.part? .parameters = d.part? .parameters := h.part?_eq nofun
  rw [Document.parameters, Document.parameters, hpart]

theorem services_eq (h : d.Reorders d') : d'.services = d.services := by
  have hpart : d'.part? .services = d.part? .services := h.part?_eq nofun
  rw [Document.services, Document.services, hpart]

theorem imports_perm (h : d.Reorders d') : d.imports.Perm d'.imports := by
  rw [Document.imports, Document.imports, Document.part?, Document.part?]
  rcases member?_eq_or_imports h.parts DocumentPart.imports.key with
    heq | ⟨-, items, items', hitems, hitems₁, hitems₂⟩
  · rw [heq]
  · rw [hitems₁, hitems₂]
    exact hitems

/-- Imports belong to no extension. -/
theorem filter_extensions {parts parts' : List (String × Json)}
    (h : List.Forall₂ PartReorders parts parts') :
    (parts'.filter fun part => (DocumentPart.ofKey? part.1).isNone) =
      parts.filter fun part => (DocumentPart.ofKey? part.1).isNone := by
  induction h with
  | nil => rfl
  | cons hpart _ ih =>
      cases hpart with
      | same => rw [List.filter_cons, List.filter_cons, ih]
      | imports _ =>
          have hreserved : ¬ (DocumentPart.ofKey? DocumentPart.imports.key).isNone = true := by
            decide
          rw [List.filter_cons, List.filter_cons, if_neg hreserved, if_neg hreserved, ih]

theorem extensions_eq (h : d.Reorders d') : d'.extensions = d.extensions :=
  filter_extensions h.parts

theorem checkParts_eq (h : d.Reorders d') : d'.checkParts = d.checkParts := by
  rw [Document.checkParts, Document.checkParts]
  refine congrArg (fun check => DocumentPart.all.forM check) (funext fun part => ?_)
  rw [h.file_eq, Document.part?, Document.part?]
  rcases member?_eq_or_imports h.parts part.key with heq | ⟨hkey, items, items', -, hitems, hitems'⟩
  · rw [heq]
  · -- both hold an array where an array must be
    rw [hitems, hitems', hkey]
    rfl

/-- The checks of a document do not depend on the order of its imports. -/
theorem accept_eq (h : d.Reorders d') (l : Loader Id) : l.accept d' = l.accept d := by
  rw [Loader.accept, Loader.accept, h.checkParts_eq, Loader.checkExtensions,
    Loader.checkExtensions, h.extensions_eq, h.file_eq]

theorem ids_eq (h : d.Reorders d') : d'.ids = d.ids := by
  rw [Document.ids, Document.ids, h.services_eq]

end Document.Reorders

namespace ResultReorders

variable {result result' : Except Failure (Option Document)}

theorem refl (result : Except Failure (Option Document)) : ResultReorders result result := by
  rcases result with e | _ | d
  · exact .failed e e
  · exact .empty
  · exact .document (.refl d)

theorem symm (h : ResultReorders result result') : ResultReorders result' result := by
  cases h with
  | failed e e' => exact .failed e' e
  | empty => exact .empty
  | document h => exact .document h.symm

theorem exists_document (h : ResultReorders result result') {d : Document}
    (hd : result = .ok (some d)) : ∃ d', result' = .ok (some d') ∧ d.Reorders d' := by
  cases h with
  | failed e e' => exact nomatch hd
  | empty => exact nomatch Except.ok.inj hd
  | @document d₁ d' h =>
      obtain rfl := Option.some.inj (Except.ok.inj hd)
      exact ⟨d', rfl, h⟩

theorem exists_ok (h : ResultReorders result result') {found : Option Document}
    (hfound : result = .ok found) : ∃ found', result' = .ok found' := by
  cases h with
  | failed e e' => exact nomatch hfound
  | empty => exact ⟨none, rfl⟩
  | document _ => exact ⟨_, rfl⟩

end ResultReorders

/-! ## Reordered loaders -/

/-- Two loaders find resources in the same places and read reordered documents there. -/
structure Loader.Reorders (l l' : Loader Id) : Prop where
  pathOf_eq (resource : String) (dir : Option Path) : l'.pathOf resource dir = l.pathOf resource dir
  documentAt (path : Path) : ResultReorders (l.documentAt path) (l'.documentAt path)
  extensions_eq : l'.extensions = l.extensions

namespace Loader.Reorders

variable {l l' : Loader Id} {entries entries' : List String}

theorem symm (h : l.Reorders l') : l'.Reorders l where
  pathOf_eq resource dir := (h.pathOf_eq resource dir).symm
  documentAt path := (h.documentAt path).symm
  extensions_eq := h.extensions_eq.symm

theorem accept_eq (h : l.Reorders l') {d d' : Document} (hd : d.Reorders d') :
    l'.accept d' = l.accept d := by
  rw [hd.accept_eq, Loader.accept, Loader.accept, h.extensions_eq]

theorem allMandatory (h : l.Reorders l') (hall : l.AllMandatory) : l'.AllMandatory := by
  intro path d' hdocument' item hitem entry hentry
  obtain ⟨d, hdocument, hd⟩ := (h.symm.documentAt path).exists_document hdocument'
  exact hall path d hdocument item (hd.imports_perm.mem_iff.1 hitem) entry (hd.file_eq ▸ hentry)

theorem needs (h : l.Reorders l') {path target : Path} (hneeds : l.Needs path target) :
    l'.Needs path target := by
  obtain ⟨hdocument, hitem, hentry, htarget⟩ := hneeds
  obtain ⟨d', hdocument', hd⟩ := (h.documentAt path).exists_document hdocument
  refine .intro hdocument' (hd.imports_perm.mem_iff.1 hitem) ?_ ((h.pathOf_eq _ _).trans htarget)
  rw [hd.file_eq]
  exact hentry

theorem reaches (h : l.Reorders l') (hentries : entries ⊆ entries') {path : Path}
    (hpath : l.Reaches entries path) : l'.Reaches entries' path := by
  induction hpath with
  | entry hname hfound => exact .entry (hentries hname) ((h.pathOf_eq _ _).trans hfound)
  | imported _ hneeds ih => exact ih.imported (h.needs hneeds)

theorem mergeable (h : l.Reorders l') {path : Path} {d d' : Document} (hd : d.Reorders d')
    (hmergeable : l.Mergeable path d) : l'.Mergeable path d' where
  accepted := (h.accept_eq hd).trans hmergeable.accepted
  imports item hitem := by
    obtain ⟨entry, target, hentry, htarget⟩ :=
      hmergeable.imports item (hd.imports_perm.mem_iff.2 hitem)
    exact ⟨entry, target, hd.file_eq ▸ hentry, (h.pathOf_eq _ _).trans htarget⟩
  produce := by
    rw [hd.file_eq, hd.services_eq]
    exact hmergeable.produce
  nodup := hd.ids_eq ▸ hmergeable.nodup

/-- What is loadable does not depend on the order of imports or entry documents. -/
theorem loadable (h : l.Reorders l') (hentries : entries.Perm entries')
    (hl : l.Loadable entries) : l'.Loadable entries' := by
  -- every condition is taken back to the document that the first loader reads
  have hreaches : ∀ path, l'.Reaches entries' path → l.Reaches entries path :=
    fun path => h.symm.reaches hentries.symm.subset
  refine ⟨fun name hname => ?_, fun path hpath => ?_, fun path d' hpath hdocument' => ?_, ?_, ?_⟩
  · obtain ⟨path, hpath⟩ := hl.found name (hentries.mem_iff.2 hname)
    exact ⟨path, (h.pathOf_eq _ _).trans hpath⟩
  · obtain ⟨result, hresult⟩ := hl.opened path (hreaches path hpath)
    exact (h.documentAt path).exists_ok hresult
  · obtain ⟨d, hdocument, hd⟩ := (h.symm.documentAt path).exists_document hdocument'
    exact h.mergeable hd.symm (hl.mergeable path d (hreaches path hpath) hdocument)
  · intro path path' d₁' d₂' hpath hpath' hne hdocument₁' hdocument₂'
    obtain ⟨d₁, hdocument₁, hd₁⟩ := (h.symm.documentAt path).exists_document hdocument₁'
    obtain ⟨d₂, hdocument₂, hd₂⟩ := (h.symm.documentAt path').exists_document hdocument₂'
    rw [← hd₁.ids_eq, ← hd₂.ids_eq]
    exact hl.apart path path' d₁ d₂ (hreaches path hpath) (hreaches path' hpath') hne hdocument₁
      hdocument₂
  · intro path hpath hcycle
    exact hl.acyclic path (hreaches path hpath) (hcycle.lift id fun _ _ => h.symm.needs)

theorem documentsOf_singleton {path : Path}
    (h : ResultReorders (l.documentAt path) (l'.documentAt path)) :
    List.Forall₂ Document.Reorders (l.documentsOf [path]) (l'.documentsOf [path]) := by
  simp only [Loader.documentsOf, List.filterMap_cons, List.filterMap_nil]
  generalize l.documentAt path = result at h ⊢
  generalize l'.documentAt path = result' at h ⊢
  cases h with
  | failed e e' => exact .nil
  | empty => exact .nil
  | document hd => exact .cons hd .nil

theorem documentsOf (h : l.Reorders l') (paths : List Path) :
    List.Forall₂ Document.Reorders (l.documentsOf paths) (l'.documentsOf paths) := by
  induction paths with
  | nil => exact .nil
  | cons path rest ih =>
      have hfirst := documentsOf_singleton (h.documentAt path)
      have hboth : List.Forall₂ Document.Reorders (l.documentsOf [path] ++ l.documentsOf rest)
          (l'.documentsOf [path] ++ l'.documentsOf rest) := List.rel_append hfirst ih
      rwa [← Loader.documentsOf_append, ← Loader.documentsOf_append] at hboth

end Loader.Reorders

/-! ## The contents of a graph -/

/-- Two graphs hold the same, apart from the order in which they hold it and from the values of
parameters. -/
structure Graph.SameContents (g g' : Graph) : Prop where
  resources : g'.resources.Perm g.resources
  definition (id : String) : g'.definitions.get? id = g.definitions.get? id
  aliasing (id : String) : g'.aliases.get? id = g.aliases.get? id
  parameter_names (name : String) : name ∈ g'.parameters.keys ↔ name ∈ g.parameters.keys
  blocks (name : String) : (g'.blocksOf name).Perm (g.blocksOf name)

/-- Documents and reorderings of them, in any order. -/
def SameDocuments (documents documents' : List Document) : Prop :=
  ∃ middle, documents.Perm middle ∧ List.Forall₂ Document.Reorders middle documents'

namespace SameDocuments

variable {documents documents' : List Document}

/-- What documents list apart from their imports is the same, up to its order. -/
theorem perm_flatMap {β : Type} (h : SameDocuments documents documents') {f : Document → List β}
    (hf : ∀ d d', Document.Reorders d d' → f d' = f d) :
    (documents'.flatMap f).Perm (documents.flatMap f) := by
  obtain ⟨middle, hperm, hreorders⟩ := h
  have hsame : documents'.flatMap f = middle.flatMap f := by
    clear hperm
    induction hreorders with
    | nil => rfl
    | cons hd _ ih => rw [List.flatMap_cons, List.flatMap_cons, hf _ _ hd, ih]
  rw [hsame]
  exact hperm.symm.flatMap_right f

end SameDocuments

theorem OrderedMap.get?_eq_of_perm {κ α : Type} [DecidableEq κ] {m n : OrderedMap κ α}
    (h : m.entries.Perm n.entries) (k : κ) : m.get? k = n.get? k :=
  valueAt_eq_of_perm h n.nodup k

/-- Graphs that are merged from the same documents have the same contents. -/
theorem Graph.Merges.sameContents {g g' : Graph} {documents documents' : List Document}
    (h : g.Merges documents) (h' : g'.Merges documents')
    (hdocuments : SameDocuments documents documents')
    (hresources : g'.resources.Perm g.resources) : g.SameContents g' where
  resources := hresources
  definition := by
    refine OrderedMap.get?_eq_of_perm ?_
    rw [h.definitions, h'.definitions]
    refine hdocuments.perm_flatMap fun d d' hd => ?_
    rw [hd.file_eq, hd.services_eq]
  aliasing := by
    refine OrderedMap.get?_eq_of_perm ?_
    rw [h.aliases, h'.aliases]
    refine hdocuments.perm_flatMap fun d d' hd => ?_
    rw [hd.file_eq, hd.services_eq]
  parameter_names name := by
    have hperm := hdocuments.perm_flatMap fun d d' hd => hd.parameters_eq
    rw [h.parameter_names, h'.parameter_names, List.mem_eraseDups, List.mem_eraseDups]
    exact (hperm.map Prod.fst).mem_iff
  blocks name := by
    have hperm := hdocuments.perm_flatMap fun d d' hd => hd.extensions_eq
    rw [h.blocks, h'.blocks]
    exact (hperm.filter _).map _

/-! ## Loading in another order -/

namespace Loader.Reorders

variable {l l' : Loader Id} {entries entries' : List String}

/-- What was loaded in two orders has the same contents. -/
theorem sameContents (h : l.Reorders l') (hentries : entries.Perm entries') {g g' : Graph}
    {order order' : List Path} (hg : l.Loaded entries g order)
    (hg' : l'.Loaded entries' g' order') : g.SameContents g' := by
  -- both orders list the documents that are reached, each once
  have horder : order.Perm order' := by
    refine (List.perm_ext_iff_of_nodup hg.nodup hg'.nodup).2 fun path => ?_
    rw [hg.mem_iff, hg'.mem_iff]
    exact ⟨h.reaches hentries.subset, h.symm.reaches hentries.symm.subset⟩
  refine hg.merges.sameContents hg'.merges ⟨_, horder.filterMap _, h.documentsOf order'⟩ ?_
  exact (hg'.resources.trans horder.symm).trans hg.resources.symm

/-- Where no import may fail and there is room for all documents, loading succeeds in one order when
it succeeds in the other, and with the same contents. -/
theorem sameOutcome (h : l.Reorders l') (hentries : entries.Perm entries') (hall : l.AllMandatory)
    (hroom : l.HasRoom entries) (hroom' : l'.HasRoom entries') :
    ((∃ s, runOn (l.loadAll entries) {} = (.ok (), s)) ↔
      ∃ s', runOn (l'.loadAll entries') {} = (.ok (), s')) ∧
    ∀ s s', runOn (l.loadAll entries) {} = (.ok (), s) →
      runOn (l'.loadAll entries') {} = (.ok (), s') → s.graph.SameContents s'.graph := by
  have hall' := h.allMandatory hall
  constructor
  · rw [loadAll_ok_iff_loadable hall hroom, loadAll_ok_iff_loadable hall' hroom']
    exact ⟨h.loadable hentries, h.symm.loadable hentries.symm⟩
  · intro s s' hrun hrun'
    obtain ⟨-, order, hloaded⟩ := loadable_of_loadAll hall hrun
    obtain ⟨-, order', hloaded'⟩ := loadable_of_loadAll hall' hrun'
    exact h.sameContents hentries hloaded hloaded'

end Loader.Reorders

/-! ## Files in memory -/

namespace MemoryFiles

/-- The loader of files in memory. -/
def loader (f : MemoryFiles) (extensions : ExtensionRegistry) (maxDepth : Nat) : Loader Id where
  locator := f.locator
  extensions := extensions
  maxDepth := maxDepth

/-- Two file trees have the same files, whose documents are reorderings of each other. -/
def Reorders (f f' : MemoryFiles) : Prop :=
  List.Forall₂ (fun file file' => file'.1 = file.1 ∧
      ∀ name, ResultReorders (Document.parse file.2 name) (Document.parse file'.2 name))
    f.files.entries f'.files.entries

/-- With room for all files there is room for all documents that can be reached. -/
theorem hasRoom {f : MemoryFiles} {l : Loader Id} (hfiles : l.locator = f.locator)
    (hdepth : f.files.size ≤ l.maxDepth) (entries : List String) : l.HasRoom entries := by
  intro paths hnodup hreach
  -- whatever is reached was located
  have hlocated : ∀ path ∈ paths, ∃ resource dir, l.pathOf resource dir = .ok path := by
    intro path hpath
    cases hreach path hpath with
    | entry _ hfound => exact ⟨_, _, hfound⟩
    | imported _ hneeds =>
        obtain ⟨-, -, -, htarget⟩ := hneeds
        exact ⟨_, _, htarget⟩
  exact (length_le_size hfiles hnodup hlocated).trans hdepth

namespace Reorders

variable {f f' : MemoryFiles}

theorem keys_eq (h : f.Reorders f') : f'.files.keys = f.files.keys := by
  have hkeys : List.Forall₂ (· = ·) f.files.keys f'.files.keys := by
    rw [OrderedMap.keys, OrderedMap.keys, List.forall₂_map_left_iff, List.forall₂_map_right_iff]
    exact List.Forall₂.imp (fun _ _ hfile => hfile.1.symm) h
  rw [List.forall₂_eq_eq_eq] at hkeys
  exact hkeys.symm

/-- Where one tree has a file the other one has a reordering of it. -/
theorem exists_of_get? (h : f.Reorders f') {names : List String} {text : String}
    (htext : f.files.get? names = some text) :
    ∃ text', f'.files.get? names = some text' ∧
      ∀ name, ResultReorders (Document.parse text name) (Document.parse text' name) := by
  obtain ⟨file', hfile', hkey, hparse⟩ :=
    exists_left_of_forall₂ (List.Forall₂.flip h) (OrderedMap.get?_eq_some_iff.1 htext)
  obtain ⟨names', text'⟩ := file'
  obtain rfl : names' = names := hkey
  exact ⟨text', OrderedMap.get?_eq_some_iff.2 hfile', hparse⟩

theorem documentAt (h : f.Reorders f') (extensions : ExtensionRegistry) (maxDepth : Nat)
    (path : Path) :
    ResultReorders ((f.loader extensions maxDepth).documentAt path)
      ((f'.loader extensions maxDepth).documentAt path) := by
  show ResultReorders (do Document.parse (← f.read path) path.text)
    (do Document.parse (← f'.read path) path.text)
  rw [read, read]
  cases plainNames? path with
  | none => exact .failed _ _
  | some names =>
      rw [Option.bind_some, Option.bind_some]
      cases hnames : f.files.get? names with
      | none =>
          have hnone : f'.files.get? names = none := by
            rw [OrderedMap.get?_eq_none_iff, h.keys_eq, ← OrderedMap.get?_eq_none_iff, hnames]
          rw [hnone]
          exact .failed _ _
      | some text =>
          obtain ⟨text', hnames', hparse⟩ := h.exists_of_get? hnames
          rw [hnames']
          exact hparse path.text

theorem loader (h : f.Reorders f') (extensions : ExtensionRegistry) (maxDepth : Nat) :
    (f.loader extensions maxDepth).Reorders (f'.loader extensions maxDepth) where
  pathOf_eq resource dir := by
    have hcontains : ∀ names, f'.files.contains names = f.files.contains names := by
      intro names
      rw [Bool.eq_iff_iff, ← OrderedMap.mem_keys_iff, ← OrderedMap.mem_keys_iff, h.keys_eq]
    show f'.locate resource dir = f.locate resource dir
    simp only [locate, hcontains]
  documentAt := h.documentAt extensions maxDepth
  extensions_eq := rfl

/-- The order of the imports in each document and the order of the entry documents do not decide
what is loaded from files in memory, when no import may fail and imports may nest as deep as there
are files: loading succeeds for both orders or for neither, and what was loaded is the same. -/
theorem loadAll_in_any_order (h : f.Reorders f') {entries entries' : List String}
    (hentries : entries.Perm entries') {extensions : ExtensionRegistry} {maxDepth : Nat}
    (hdepth : f.files.size ≤ maxDepth)
    (hall : (f.loader extensions maxDepth).AllMandatory) :
    ((∃ s, runOn ((f.loader extensions maxDepth).loadAll entries) {} = (.ok (), s)) ↔
      ∃ s', runOn ((f'.loader extensions maxDepth).loadAll entries') {} = (.ok (), s')) ∧
    ∀ s s', runOn ((f.loader extensions maxDepth).loadAll entries) {} = (.ok (), s) →
      runOn ((f'.loader extensions maxDepth).loadAll entries') {} = (.ok (), s') →
        s.graph.SameContents s'.graph := by
  have hsize : f'.files.size = f.files.size := by
    have hlength := congrArg List.length h.keys_eq
    rwa [OrderedMap.keys, OrderedMap.keys, List.length_map, List.length_map] at hlength
  exact (h.loader extensions maxDepth).sameOutcome hentries hall (hasRoom rfl hdepth entries)
    (hasRoom rfl (hsize.trans_le hdepth) entries')

end Reorders

/-- The parts of a document that imports others. -/
def forkParts (imports : List String) : List (String × Json) :=
  [("imports", .array (imports.map importing)), ("services", .object [("db", .string "@base")])]

/-- A document that imports two others, which both import a third one. -/
def forkFiles (imports : List String) : MemoryFiles := .ofJson
  [("/app.json", .object (forkParts imports)),
    ("/a.json", .object
      [("imports", .array [importing "base.json"]),
        ("parameters", .object [("host", .string "a")])]),
    ("/b.json", .object
      [("imports", .array [importing "base.json"]),
        ("parameters", .object [("host", .string "b")])]),
    ("/base.json", .object [("services", .object [("base", .object [("class", .string "Base")])])])]

/-- The two imports may change places. -/
theorem reorders_forkFiles :
    (forkFiles ["a.json", "b.json"]).Reorders (forkFiles ["b.json", "a.json"]) := by
  -- the name of a file does not matter for its parts, so one name is enough to read them
  have hparse : Document.parse (Json.object (forkParts ["a.json", "b.json"])).compact "" =
      .ok (some ⟨"", forkParts ["a.json", "b.json"]⟩) := by decide +kernel
  have hparse' : Document.parse (Json.object (forkParts ["b.json", "a.json"])).compact "" =
      .ok (some ⟨"", forkParts ["b.json", "a.json"]⟩) := by decide +kernel
  have happ : ∀ name, ResultReorders
      (Document.parse (Json.object (forkParts ["a.json", "b.json"])).compact name)
      (Document.parse (Json.object (forkParts ["b.json", "a.json"])).compact name) := by
    intro name
    rw [Document.parse_eq_of_ok hparse name, Document.parse_eq_of_ok hparse' name]
    exact .document ⟨rfl, .cons (.imports (.swap _ _ _)) (.cons (.same _) .nil)⟩
  have hfiles : (forkFiles ["a.json", "b.json"]).files.entries =
      (["app.json"], (Json.object (forkParts ["a.json", "b.json"])).compact) ::
        (forkFiles ["a.json", "b.json"]).files.entries.tail := by decide +kernel
  have hfiles' : (forkFiles ["b.json", "a.json"]).files.entries =
      (["app.json"], (Json.object (forkParts ["b.json", "a.json"])).compact) ::
        (forkFiles ["a.json", "b.json"]).files.entries.tail := by decide +kernel
  rw [Reorders, hfiles, hfiles']
  exact .cons ⟨rfl, happ⟩ (List.forall₂_same.2 fun _ _ => ⟨rfl, fun _ => .refl _⟩)

theorem Reorders.loadAll_in_any_order_fork :
    ∃ s s', runOn (((forkFiles ["a.json", "b.json"]).loader .empty 4).loadAll
        ["app.json", "base.json"]) {} = (.ok (), s) ∧
      runOn (((forkFiles ["b.json", "a.json"]).loader .empty 4).loadAll
        ["base.json", "app.json"]) {} = (.ok (), s') ∧
      s.graph.resources = [⟨"/app.json"⟩, ⟨"/a.json"⟩, ⟨"/base.json"⟩, ⟨"/b.json"⟩] ∧
      s'.graph.resources = [⟨"/base.json"⟩, ⟨"/app.json"⟩, ⟨"/b.json"⟩, ⟨"/a.json"⟩] ∧
      s.graph.SameContents s'.graph := by
  have hall : ((forkFiles ["a.json", "b.json"]).loader .empty 4).AllMandatory :=
    allMandatory (f := forkFiles ["a.json", "b.json"]) rfl (by decide +kernel)
  have hdepth : (forkFiles ["a.json", "b.json"]).files.size ≤ 4 := by decide +kernel
  rcases hrun : runOn (((forkFiles ["a.json", "b.json"]).loader .empty 4).loadAll
    ["app.json", "base.json"]) {} with ⟨outcome, s⟩
  rcases hrun' : runOn (((forkFiles ["b.json", "a.json"]).loader .empty 4).loadAll
    ["base.json", "app.json"]) {} with ⟨outcome', s'⟩
  have hfacts : (runOn (((forkFiles ["a.json", "b.json"]).loader .empty 4).loadAll
        ["app.json", "base.json"]) {}).1 = .ok () ∧
      (runOn (((forkFiles ["a.json", "b.json"]).loader .empty 4).loadAll
        ["app.json", "base.json"]) {}).2.graph.resources =
          [⟨"/app.json"⟩, ⟨"/a.json"⟩, ⟨"/base.json"⟩, ⟨"/b.json"⟩] := by
    decide +kernel
  have hfacts' : (runOn (((forkFiles ["b.json", "a.json"]).loader .empty 4).loadAll
        ["base.json", "app.json"]) {}).1 = .ok () ∧
      (runOn (((forkFiles ["b.json", "a.json"]).loader .empty 4).loadAll
        ["base.json", "app.json"]) {}).2.graph.resources =
          [⟨"/base.json"⟩, ⟨"/app.json"⟩, ⟨"/b.json"⟩, ⟨"/a.json"⟩] := by
    decide +kernel
  rw [hrun] at hfacts
  rw [hrun'] at hfacts'
  obtain ⟨rfl, hresources⟩ := hfacts
  obtain ⟨rfl, hresources'⟩ := hfacts'
  obtain ⟨-, hsame⟩ := reorders_forkFiles.loadAll_in_any_order (.swap _ _ _) hdepth hall
  exact ⟨s, s', rfl, rfl, hresources, hresources', hsame s s' hrun hrun'⟩

end MemoryFiles

end ServiceGraph
