import ServiceGraph.Locator.InMemory

/-!
# Paths of files in memory

The names that are left when a path is folded are plain (`Path.IsPlain`): none is empty, none has a
slash in it, and none is a dot or two. So the path that is made of them has them as its steps
(`Path.components_ofNames`), and what a locator of files in memory has found it can read
(`MemoryFiles.exists_read_of_locate`).
-/

set_option autoImplicit false

namespace ServiceGraph

namespace Path

/-! ## Folding a path -/

/-- A name that stands for itself as a step of a path. -/
structure IsPlain (name : String) : Prop where
  busy : isIdle name.toList = false
  not_up : name.toList ≠ ['.', '.']
  no_slash : '/' ∉ name.toList

/-- No part between slashes has a slash in it. -/
theorem slash_not_mem_of_mem_splitSlashes {s part : List Char} (h : part ∈ splitSlashes s) :
    '/' ∉ part := by
  rw [splitSlashes] at h
  induction s generalizing part with
  | nil =>
      rw [List.splitOn_nil, List.mem_singleton] at h
      exact h ▸ List.not_mem_nil
  | cons c rest ih =>
      rw [List.splitOn_cons_eq_if_modifyHead] at h
      by_cases hc : c = '/'
      · rw [if_pos (beq_iff_eq.2 hc), List.mem_cons] at h
        rcases h with rfl | h
        · exact List.not_mem_nil
        · exact ih h
      · obtain ⟨first, parts, hparts⟩ := List.exists_cons_of_ne_nil (List.splitOn_ne_nil '/' rest)
        rw [hparts] at ih
        rw [if_neg (mt beq_iff_eq.1 hc), hparts, List.modifyHead_cons, List.mem_cons] at h
        rcases h with rfl | h
        · exact List.not_mem_cons_of_ne_of_not_mem (Ne.symm hc) (ih List.mem_cons_self)
        · exact ih (List.mem_cons_of_mem first h)

theorem isPlain_of_stepOf {part : List Char} {name : String} (h : stepOf part = .name name)
    (hbusy : isIdle part = false) (hslash : '/' ∉ part) : IsPlain name := by
  by_cases hup : part = ['.', '.']
  · rw [stepOf, if_pos hup] at h
    cases h
  · rw [stepOf, if_neg hup] at h
    obtain rfl := Component.name.inj h
    constructor <;> rwa [String.toList_ofList]

/-- The names among the steps of a path are plain. -/
theorem isPlain_of_mem_components {p : Path} {name : String} (h : .name name ∈ p.components) :
    IsPlain name := by
  simp only [components, List.mem_append, List.mem_map, List.mem_filter] at h
  rcases h with hstart | ⟨part, ⟨hpart, hbusy⟩, hstep⟩
  · -- the start of a path is no name
    split at hstart
    · simp at hstart
    · split at hstart <;> simp at hstart
  · exact isPlain_of_stepOf hstep (by simpa using hbusy) (slash_not_mem_of_mem_splitSlashes hpart)

/-- Folding leaves only names that are steps of the path. -/
theorem isPlain_of_mem_fold {steps : List Component}
    (h : ∀ name, .name name ∈ steps → IsPlain name) {name : String} (hname : name ∈ fold steps) :
    IsPlain name := by
  refine List.foldlRecOn (motive := fun names => ∀ name ∈ names, IsPlain name) steps _
    (fun _ hnone => absurd hnone List.not_mem_nil) (fun names hnames step hstep => ?_)
    name hname
  cases step with
  | up => exact fun name hname => hnames name (names.dropLast_subset hname)
  | name text =>
      intro name hname
      rcases List.mem_append.1 hname with hname | hname
      · exact hnames name hname
      · rw [List.mem_singleton.1 hname]
        exact h text hstep
  | root => exact hnames
  | here => exact hnames

/-! ## Paths made of names -/

theorem toList_ofNames (names : List String) :
    (ofNames names).text.toList = '/' :: ['/'].intercalate (names.map String.toList) := by
  simp [ofNames, String.toList_intercalate]

/-- Plain names with slashes between them are cut apart again. -/
theorem splitOn_intercalate_names {names : List String} (h : ∀ name ∈ names, IsPlain name)
    (hnames : names ≠ []) :
    (['/'].intercalate (names.map String.toList)).splitOn '/' = names.map String.toList := by
  refine List.splitOn_intercalate '/' (fun part hpart => ?_) (by simpa using hnames)
  obtain ⟨name, hname, rfl⟩ := List.mem_map.1 hpart
  exact (h name hname).no_slash

theorem components_ofNames {names : List String} (h : ∀ name ∈ names, IsPlain name) :
    (ofNames names).components = .root :: names.map .name := by
  have hparts : ((splitSlashes (['/'].intercalate (names.map String.toList))).filter
      fun part => !isIdle part) = names.map String.toList := by
    by_cases hnames : names = []
    · subst hnames
      rfl
    · rw [splitSlashes, splitOn_intercalate_names h hnames, List.filter_eq_self]
      intro part hpart
      obtain ⟨name, hname, rfl⟩ := List.mem_map.1 hpart
      simp [(h name hname).busy]
  have hsteps : (names.map String.toList).map stepOf = names.map .name := by
    rw [List.map_map]
    refine List.map_congr_left fun name hname => ?_
    simp [stepOf, (h name hname).not_up]
  simp only [components, toList_ofNames, splitStart, hparts, hsteps]
  rfl

end Path

namespace MemoryFiles

theorem plainNames?_ofNames {names : List String} (h : ∀ name ∈ names, Path.IsPlain name) :
    plainNames? (Path.ofNames names) = some names := by
  rw [plainNames?, Path.components_ofNames h]
  dsimp only
  clear h
  induction names with
  | nil => rfl
  | cons name rest ih =>
      rw [List.map_cons, List.mapM_cons, ih]
      rfl

theorem read_ofNames {f : MemoryFiles} {names : List String} {text : String}
    (hplain : ∀ name ∈ names, Path.IsPlain name) (h : f.files.get? names = some text) :
    f.read (Path.ofNames names) = .ok text := by
  simp only [read, plainNames?_ofNames hplain, Option.bind_some, h]

/-- What is located is the folded path, and a file has it. -/
theorem exists_names_of_locate {f : MemoryFiles} {resource : String} {dir : Option Path}
    {path : Path} (h : f.locate resource dir = .ok path) :
    ∃ p, localPath resource = .ok p ∧ path = Path.ofNames (namesFrom (dir.getD root) p) ∧
      f.files.contains (namesFrom (dir.getD root) p) = true := by
  rw [locate] at h
  cases hlocal : localPath resource with
  | error e =>
      rw [hlocal] at h
      cases h
  | ok p =>
      rw [hlocal] at h
      simp only [bind, Except.bind] at h
      split at h
      · rename_i hcontains
        exact ⟨p, rfl, (Except.ok.inj h).symm, hcontains⟩
      · cases h

/-- What was located can be read. -/
theorem exists_read_of_locate {f : MemoryFiles} {resource : String} {dir : Option Path}
    {path : Path} (h : f.locate resource dir = .ok path) : ∃ text, f.read path = .ok text := by
  obtain ⟨p, -, rfl, hcontains⟩ := exists_names_of_locate h
  have hplain : ∀ name ∈ namesFrom (dir.getD root) p, Path.IsPlain name :=
    fun name => Path.isPlain_of_mem_fold fun _ => Path.isPlain_of_mem_components
  obtain ⟨text, htext⟩ := Option.isSome_iff_exists.1 hcontains
  exact ⟨text, read_ofNames hplain htext⟩

end MemoryFiles

end ServiceGraph
