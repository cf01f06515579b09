import Mathlib.Data.List.Forall2
import ServiceGraph.Capability.Manifest
import ServiceGraph.Proofs.EntryGrammar
import ServiceGraph.Proofs.OrderedMap

/-!
# What a capability manifest means

A name denotes a capability when it is the name of the capability in letters of any case, with or
without blanks around it (`Capability.Denotes`). A leading backslash of a class name says nothing,
but only one (`CapabilityRegistry.SameClass`).

Registering a descriptor adds its capabilities to those of its class and takes none away
(`CapabilityRegistry.implements_foldl_register`), and a class keeps the spelling under which it was
registered first (`CapabilityRegistry.spelling_foldl_register`). So neither the order of the entries
of a manifest nor the spelling of their classes matters for what a class can do
(`Manifest.registry_means_listed`).
-/

set_option autoImplicit false

namespace ServiceGraph

/-! ## Blanks around a text -/

namespace Text

theorem toLower_of_isBlank {x : Char} (h : isBlank x = true) : x.toLower = x := by
  have hupper : ¬ (65 ≤ x.toNat ∧ x.toNat ≤ 90) := by
    simp only [isBlank, blankRanges, List.any_cons, List.any_nil, Bool.or_false, Bool.or_eq_true,
      Bool.and_eq_true, decide_eq_true_eq] at h
    omega
  refine dif_neg ?_
  rintro ⟨hlow, hhigh⟩
  exact hupper ⟨UInt32.le_iff_toNat_le.1 hlow, UInt32.le_iff_toNat_le.1 hhigh⟩

/-- A text is what trimming leaves of it, with blanks around. -/
theorem exists_eq_append_trim (s : String) :
    ∃ before after : List Char, s.toList = before ++ (trim s).toList ++ after ∧
      (∀ x ∈ before, isBlank x = true) ∧ ∀ x ∈ after, isBlank x = true := by
  -- the blanks at the end are those at the front of the reversed rest
  have hback : s.toList.dropWhile isBlank =
      (trim s).toList ++ ((s.toList.dropWhile isBlank).reverse.takeWhile isBlank).reverse := by
    rw [trim, String.toList_ofList, ← List.reverse_append, List.takeWhile_append_dropWhile,
      List.reverse_reverse]
  refine ⟨s.toList.takeWhile isBlank,
    ((s.toList.dropWhile isBlank).reverse.takeWhile isBlank).reverse, ?_, ?_, ?_⟩
  · rw [List.append_assoc, ← hback, List.takeWhile_append_dropWhile]
  · exact fun x hx => List.mem_takeWhile_imp hx
  · exact fun x hx => List.mem_takeWhile_imp (List.mem_reverse.1 hx)

/-- Trimming takes the blanks away from around what has none. -/
theorem toList_trim_of_eq_append {s : String} {before core after : List Char}
    (h : s.toList = before ++ core ++ after) (hbefore : ∀ x ∈ before, isBlank x = true)
    (hafter : ∀ x ∈ after, isBlank x = true) (hcore : ∀ x ∈ core, ¬ isBlank x = true)
    (hne : core ≠ []) : (trim s).toList = core := by
  -- dropping blanks stops at the first character of what has none, from either side
  have hdrop (l l' : List Char) (hl : ∀ x ∈ l, ¬ isBlank x = true) (hne : l ≠ []) :
      (l ++ l').dropWhile isBlank = l ++ l' := by
    obtain ⟨x, rest, rfl⟩ := List.exists_cons_of_ne_nil hne
    rw [List.cons_append, List.dropWhile_cons_of_neg (hl x List.mem_cons_self)]
  have hend := hdrop core.reverse [] (fun x hx => hcore x (List.mem_reverse.1 hx))
    (mt List.reverse_eq_nil_iff.1 hne)
  rw [List.append_nil] at hend
  rw [trim, String.toList_ofList, h, List.append_assoc, List.dropWhile_append_of_pos hbefore,
    hdrop core after hcore hne, List.reverse_append,
    List.dropWhile_append_of_pos fun x hx => hafter x (List.mem_reverse.1 hx), hend,
    List.reverse_reverse]

end Text

/-! ## Names of capabilities -/

namespace Capability

/-- A name denotes a capability: but for blanks around it, it is the name of the capability in
letters of any case. -/
def Denotes (c : Capability) (name : String) : Prop :=
  ∃ before core after : List Char, name.toList = before ++ core ++ after ∧
    (∀ x ∈ before, Text.isBlank x = true) ∧ (∀ x ∈ after, Text.isBlank x = true) ∧
    core.map Char.toLower = c.name.toList.map Char.toLower

theorem map_toLower_name (c : Capability) :
    c.name.toList.map Char.toLower = c.name.toList := by
  cases c with
  | commandHandler => decide
  | queryHandler => decide
  | eventSubscriber => decide

theorem not_isBlank_of_mem_name {c : Capability} {x : Char} (h : x ∈ c.name.toList) :
    ¬ Text.isBlank x = true := by
  have hall : c.name.toList.all (fun x => !Text.isBlank x) = true := by
    cases c with
    | commandHandler => decide
    | queryHandler => decide
    | eventSubscriber => decide
  simpa using List.all_eq_true.1 hall x h

theorem ofName?_eq_some_iff_trim {name : String} {c : Capability} :
    ofName? name = some c ↔ (Text.trim name).toList.map Char.toLower = c.name.toList := by
  constructor
  · intro h
    rw [ofName?] at h
    have hfound := List.find?_some h
    exact (of_decide_eq_true hfound).symm
  · intro h
    rw [ofName?, h]
    cases c with
    | commandHandler => rfl
    | queryHandler => rfl
    | eventSubscriber => rfl

theorem ofName?_eq_some_iff {name : String} {c : Capability} :
    ofName? name = some c ↔ c.Denotes name := by
  rw [ofName?_eq_some_iff_trim, Denotes, map_toLower_name]
  constructor
  · intro htrim
    obtain ⟨before, after, happend, hbefore, hafter⟩ := Text.exists_eq_append_trim name
    exact ⟨before, _, after, happend, hbefore, hafter, htrim⟩
  · rintro ⟨before, core, after, happend, hbefore, hafter, hcore⟩
    have hblank : ∀ x ∈ core, ¬ Text.isBlank x = true := by
      -- a blank has no other case, so it would be a character of the name
      intro x hx hblank
      have hmem : x.toLower ∈ c.name.toList := hcore ▸ List.mem_map_of_mem hx
      rw [Text.toLower_of_isBlank hblank] at hmem
      exact not_isBlank_of_mem_name hmem hblank
    have hne : core ≠ [] := by
      rintro rfl
      cases c with
      | commandHandler => exact nomatch hcore
      | queryHandler => exact nomatch hcore
      | eventSubscriber => exact nomatch hcore
    rw [Text.toList_trim_of_eq_append happend hbefore hafter hblank hne, hcore]

end Capability

/-! ## Descriptors -/

namespace ClassDescriptor

theorem mem_addCapability {l : List Capability} {c c' : Capability} :
    c' ∈ addCapability l c ↔ c' ∈ l ∨ c' = c := by
  rw [addCapability]
  by_cases h : c ∈ l
  · rw [if_pos h]
    exact ⟨Or.inl, fun hc' => hc'.elim id fun heq => heq ▸ h⟩
  · rw [if_neg h, List.mem_append, List.mem_singleton]

theorem mem_foldl_add (l : List Capability) (d : ClassDescriptor) (c : Capability) :
    c ∈ (l.foldl add d).capabilities ↔ c ∈ d.capabilities ∨ c ∈ l := by
  induction l generalizing d with
  | nil => simp
  | cons first rest ih =>
      rw [List.foldl_cons, ih, add, mem_addCapability, List.mem_cons, or_assoc]

theorem className_foldl_add (l : List Capability) (d : ClassDescriptor) :
    (l.foldl add d).className = d.className := by
  induction l generalizing d with
  | nil => rfl
  | cons first rest ih => exact ih (d.add first)

theorem mem_ofList {className : String} {l : List Capability} {c : Capability} :
    c ∈ (ofList className l).capabilities ↔ c ∈ l := by
  rw [ofList, mem_foldl_add, or_iff_right List.not_mem_nil]

end ClassDescriptor

/-! ## Spellings of a class -/

namespace CapabilityRegistry

/-- A class name spells a bare name: it has one more backslash in front, or it is the bare name,
which does not begin with one. -/
def Spells (name bare : String) : Prop :=
  name.toList = '\\' :: bare.toList ∨ name = bare ∧ name.toList.head? ≠ some '\\'

/-- Two class names are equal after dropping at most one leading backslash from each. -/
def SameClass (name name' : String) : Prop := ∃ bare, Spells name bare ∧ Spells name' bare

theorem normalize_eq_iff {name bare : String} : normalize name = bare ↔ Spells name bare := by
  rw [normalize, Spells]
  split
  · rename_i rest hname
    rw [hname]
    constructor
    · rintro rfl
      exact Or.inl (by rw [String.toList_ofList])
    · rintro (hrest | ⟨-, hhead⟩)
      · rw [(List.cons.inj hrest).2, String.ofList_toList]
      · exact absurd rfl hhead
  · rename_i hplain
    constructor
    · rintro rfl
      refine Or.inr ⟨rfl, fun hhead => ?_⟩
      obtain ⟨rest, hname⟩ := List.head?_eq_some_iff.1 hhead
      exact hplain rest hname
    · rintro (hname | ⟨hname, -⟩)
      · exact absurd hname (hplain _)
      · exact hname

theorem sameClass_iff {name name' : String} :
    SameClass name name' ↔ normalize name = normalize name' := by
  simp only [SameClass, ← normalize_eq_iff, exists_eq_left']
  exact eq_comm

instance (name name' : String) : Decidable (SameClass name name') :=
  decidable_of_iff _ sameClass_iff.symm

/-! ## Registering -/

variable (r : CapabilityRegistry) (d : ClassDescriptor) (ds : List ClassDescriptor)

/-- What a class has after a descriptor of it was registered. -/
def merged : ClassDescriptor :=
  match r.classes.get? (normalize d.className) with
  | none => d
  | some known => d.capabilities.foldl ClassDescriptor.add known

theorem classes_register :
    (r.register d).classes = r.classes.insert (normalize d.className) (r.merged d) := by
  rw [register, merged]
  cases r.classes.get? (normalize d.className) with
  | none => rfl
  | some known => rfl

theorem implements_iff {q : String} {c : Capability} :
    r.implements q c = true ↔
      ∃ known, r.classes.get? (normalize q) = some known ∧ c ∈ known.capabilities := by
  rw [implements, descriptor?]
  cases r.classes.get? (normalize q) with
  | none => simp
  | some known => simp [ClassDescriptor.implements]

/-- Registering a descriptor adds its capabilities to those of its class. -/
theorem implements_register (q : String) (c : Capability) :
    (r.register d).implements q c = true ↔
      r.implements q c = true ∨ normalize d.className = normalize q ∧ c ∈ d.capabilities := by
  rw [implements_iff, implements_iff, classes_register, OrderedMap.get?_insert]
  by_cases hkey : normalize d.className = normalize q
  · rw [if_pos hkey, merged, hkey]
    cases r.classes.get? (normalize q) with
    | none => simp
    | some known => simp [ClassDescriptor.mem_foldl_add]
  · rw [if_neg hkey]
    exact (or_iff_left fun h => hkey h.1).symm

theorem implements_foldl_register (q : String) (c : Capability) :
    (ds.foldl register r).implements q c = true ↔
      r.implements q c = true ∨
        ∃ d ∈ ds, normalize d.className = normalize q ∧ c ∈ d.capabilities := by
  induction ds generalizing r with
  | nil => simp
  | cons d rest ih =>
      rw [List.foldl_cons, ih, implements_register, or_assoc]
      simp only [List.mem_cons, exists_eq_or_imp]

/-- The spelling under which a class is recorded. -/
def spelling? (key : String) : Option String := (r.classes.get? key).map ClassDescriptor.className

/-- A class keeps its spelling. -/
theorem spelling_register (key : String) :
    (r.register d).spelling? key =
      (r.spelling? key).or (if normalize d.className = key then some d.className else none) := by
  rw [spelling?, spelling?, classes_register, OrderedMap.get?_insert]
  by_cases hkey : normalize d.className = key
  · rw [if_pos hkey, if_pos hkey, merged, hkey]
    cases r.classes.get? key with
    | none => rfl
    | some known => exact congrArg some (ClassDescriptor.className_foldl_add _ _)
  · rw [if_neg hkey, if_neg hkey, Option.or_none]

/-- A class has the spelling under which it was registered first. -/
theorem spelling_foldl_register (key : String) :
    (ds.foldl register r).spelling? key =
      (r.spelling? key).or
        ((ds.map ClassDescriptor.className).find? fun name => normalize name = key) := by
  induction ds generalizing r with
  | nil => simp
  | cons d rest ih =>
      rw [List.foldl_cons, ih, spelling_register, List.map_cons, List.find?_cons, Option.or_assoc]
      by_cases hkey : normalize d.className = key
      · simp [hkey]
      · simp [hkey]

/-- Classes are recorded in the order in which they were registered first. -/
theorem keys_foldl_register :
    (ds.foldl register r).classes.keys =
      r.classes.keys ++
        ((ds.map fun d => normalize d.className).filter (· ∉ r.classes.keys)).eraseDups := by
  have hclasses : (ds.foldl register r).classes = ds.foldl
      (fun classes d => classes.insert (normalize d.className) (merged ⟨classes⟩ d)) r.classes := by
    induction ds generalizing r with
    | nil => rfl
    | cons d rest ih => rw [List.foldl_cons, ih, classes_register, List.foldl_cons]
  rw [hclasses, OrderedMap.keys_foldl_insert]

variable {ds} {key : String} {known : ClassDescriptor}

/-- A descriptor is recorded under the class that its spelling stands for, which is the one that was
registered first. -/
theorem first_of_mem_classes (h : (key, known) ∈ (ds.foldl register empty).classes.entries) :
    normalize known.className = key ∧
      (ds.map ClassDescriptor.className).find? (fun name => normalize name = key) =
        some known.className := by
  have hspelling : (ds.foldl register empty).spelling? key = some known.className := by
    rw [spelling?, OrderedMap.get?_eq_some_iff.2 h, Option.map_some]
  have hfound : (ds.map ClassDescriptor.className).find? (fun name => normalize name = key) =
      some known.className := by
    rw [← hspelling, spelling_foldl_register]
    rfl
  have hkey := List.find?_some hfound
  exact ⟨of_decide_eq_true hkey, hfound⟩

theorem descriptors_foldl_register :
    (ds.foldl register empty).descriptors.map (fun d => normalize d.className) =
      (ds.map fun d => normalize d.className).eraseDups := by
  have hkeys := keys_foldl_register empty ds
  have hnone : (empty : CapabilityRegistry).classes.keys = [] := rfl
  rw [hnone, List.nil_append, List.filter_eq_self.2 fun _ _ => by simp] at hkeys
  rw [← hkeys, descriptors, List.map_map, OrderedMap.keys]
  exact List.map_congr_left fun entry hentry => (first_of_mem_classes hentry).1

end CapabilityRegistry

/-! ## Manifests -/

namespace Manifest

theorem readCapability_eq_ok_iff {name : String} {c : Capability} :
    readCapability name = .ok c ↔ c.Denotes name := by
  rw [readCapability, ← Capability.ofName?_eq_some_iff]
  cases Capability.ofName? name with
  | none => simp
  | some c' => simp

/-- A descriptor has the capabilities that listed names denote. -/
structure Describes (className : String) (names : List String) (d : ClassDescriptor) : Prop where
  className_eq : d.className = className
  mem_iff (c : Capability) : c ∈ d.capabilities ↔ ∃ name ∈ names, c.Denotes name

theorem describes_of_descriptor_eq_ok {className : String} {names : List String}
    {d : ClassDescriptor} (h : descriptor className names = .ok d) :
    Describes className names d := by
  rw [descriptor] at h
  cases hread : names.mapM readCapability with
  | error e =>
      rw [hread] at h
      exact nomatch h
  | ok capabilities =>
      rw [hread] at h
      obtain rfl := Except.ok.inj h
      have hdenotes := (mapM_eq_ok_iff.1 hread).imp fun _ _ => readCapability_eq_ok_iff.1
      refine ⟨ClassDescriptor.className_foldl_add _ _, fun c => ?_⟩
      rw [ClassDescriptor.mem_ofList]
      constructor
      · exact fun hc => exists_left_of_forall₂ hdenotes hc
      · rintro ⟨name, hname, hc⟩
        obtain ⟨c', hc', hc''⟩ := exists_left_of_forall₂ hdenotes.flip hname
        -- a name denotes one capability
        have heq : some c' = some c :=
          (Capability.ofName?_eq_some_iff.2 hc'').symm.trans (Capability.ofName?_eq_some_iff.2 hc)
        exact Option.some.inj heq ▸ hc'

theorem accepts_registry_iff (m : Manifest) :
    Accepts m.registry ↔
      ∀ entry ∈ m.classes.entries, ∀ name ∈ entry.2, ∃ c : Capability, c.Denotes name := by
  rw [registry]
  refine (accepts_bind_ok_iff.trans accepts_mapM_iff).trans ?_
  refine forall₂_congr fun entry _ => ?_
  rw [descriptor, accepts_map_iff, accepts_mapM_iff]
  exact forall₂_congr fun name _ => exists_congr fun c => readCapability_eq_ok_iff

theorem exists_descriptors_of_registry_eq_ok {m : Manifest} {r : CapabilityRegistry}
    (h : m.registry = .ok r) :
    ∃ ds, List.Forall₂ (fun entry d => Describes entry.1 entry.2 d) m.classes.entries ds ∧
      r = ds.foldl CapabilityRegistry.register .empty := by
  obtain ⟨ds, hds, hr⟩ := bind_eq_ok_iff.1 h
  exact ⟨ds, (mapM_eq_ok_iff.1 hds).imp fun _ _ => describes_of_descriptor_eq_ok,
    (Except.ok.inj hr).symm⟩

theorem map_className_of_describes {entries : List (String × List String)}
    {ds : List ClassDescriptor}
    (h : List.Forall₂ (fun entry d => Describes entry.1 entry.2 d) entries ds) :
    ds.map ClassDescriptor.className = entries.map Prod.fst := by
  induction h with
  | nil => rfl
  | cons hfirst _ ih => rw [List.map_cons, List.map_cons, hfirst.className_eq, ih]

/-- A registry records what a manifest lists and nothing else. -/
structure RecordedIn (m : Manifest) (r : CapabilityRegistry) : Prop where
  implements_iff (q : String) (c : Capability) : r.implements q c = true ↔
    ∃ entry ∈ m.classes.entries, CapabilityRegistry.SameClass entry.1 q ∧
      ∃ name ∈ entry.2, c.Denotes name
  /-- There is one descriptor for each class, in the order in which the classes are listed. -/
  one_each : r.descriptors.map (fun d => CapabilityRegistry.normalize d.className) =
    (m.classes.keys.map CapabilityRegistry.normalize).eraseDups
  /-- A class has the spelling that is listed first. -/
  first_spelling (d : ClassDescriptor) : d ∈ r.descriptors →
    m.classes.keys.find? (fun name => CapabilityRegistry.SameClass name d.className) =
      some d.className
  /-- Further registrations take nothing away. -/
  kept (ds : List ClassDescriptor) (q : String) (c : Capability) : r.implements q c = true →
    (ds.foldl CapabilityRegistry.register r).implements q c = true

/-- Reading a manifest succeeds exactly when every listed name denotes a capability, and the
registry then records what is listed for each class under all its spellings, in any order. -/
theorem registry_means_listed (m : Manifest) :
    ((∃ r, m.registry = .ok r) ↔
      ∀ entry ∈ m.classes.entries, ∀ name ∈ entry.2, ∃ c : Capability, c.Denotes name) ∧
    ∀ r, m.registry = .ok r → m.RecordedIn r := by
  refine ⟨m.accepts_registry_iff, fun r hr => ?_⟩
  obtain ⟨ds, hds, rfl⟩ := exists_descriptors_of_registry_eq_ok hr
  have hnames : ds.map ClassDescriptor.className = m.classes.keys := map_className_of_describes hds
  constructor
  case implements_iff =>
    intro q c
    rw [CapabilityRegistry.implements_foldl_register]
    refine (or_iff_right Bool.false_ne_true).trans ?_
    constructor
    · rintro ⟨d, hd, hclass, hc⟩
      obtain ⟨entry, hentry, hdescribes⟩ := exists_left_of_forall₂ hds hd
      rw [hdescribes.className_eq, ← CapabilityRegistry.sameClass_iff] at hclass
      exact ⟨entry, hentry, hclass, (hdescribes.mem_iff c).1 hc⟩
    · rintro ⟨entry, hentry, hclass, hc⟩
      obtain ⟨d, hd, hdescribes⟩ := exists_left_of_forall₂ hds.flip hentry
      rw [← hdescribes.className_eq, CapabilityRegistry.sameClass_iff] at hclass
      exact ⟨d, hd, hclass, (hdescribes.mem_iff c).2 hc⟩
  case one_each =>
    rw [CapabilityRegistry.descriptors_foldl_register, ← hnames, List.map_map]
    rfl
  case first_spelling =>
    intro d hd
    obtain ⟨⟨key, d⟩, hentry, rfl⟩ := List.mem_map.1 hd
    obtain ⟨rfl, hfirst⟩ := CapabilityRegistry.first_of_mem_classes hentry
    rw [hnames] at hfirst
    simp only [CapabilityRegistry.sameClass_iff]
    exact hfirst
  case kept =>
    intro ds' q c hc
    exact (CapabilityRegistry.implements_foldl_register _ ds' q c).2 (Or.inl hc)

/-- A class that is listed under both spellings, with another class in between. -/
def twiceListed : Manifest where
  classes := .ofList
    [("\\App\\Greeter", [" Command_Handler\t"]), ("App\\Mailer", []),
      ("App\\Greeter", ["QUERY_HANDLER", "command_handler"])]

theorem registry_means_listed_twice : ∃ r, twiceListed.registry = .ok r ∧
    twiceListed.RecordedIn r ∧
    r.descriptors.map ClassDescriptor.className = ["\\App\\Greeter", "App\\Mailer"] ∧
    r.implements "App\\Greeter" .commandHandler = true ∧
    r.implements "\\App\\Greeter" .queryHandler = true := by
  cases hread : twiceListed.registry with
  | error e =>
      have hok : twiceListed.registry.isOk = true := by decide +kernel
      rw [hread] at hok
      exact nomatch hok
  | ok r =>
      have hfacts : twiceListed.registry.map (fun r =>
          (r.descriptors.map ClassDescriptor.className, r.implements "App\\Greeter" .commandHandler,
            r.implements "\\App\\Greeter" .queryHandler)) =
          .ok (["\\App\\Greeter", "App\\Mailer"], true, true) := by decide +kernel
      rw [hread] at hfacts
      obtain ⟨hclasses, hrest⟩ := Prod.mk.inj (Except.ok.inj hfacts)
      obtain ⟨hcommand, hquery⟩ := Prod.mk.inj hrest
      exact ⟨r, rfl, (registry_means_listed twiceListed).2 r hread, hclasses, hcommand, hquery⟩

end Manifest

end ServiceGraph
