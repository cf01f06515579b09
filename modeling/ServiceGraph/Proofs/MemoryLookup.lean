import ServiceGraph.Proofs.MemoryPaths
import ServiceGraph.Proofs.OrderedMap

/-!
# Finding files in memory

The text of a path is cut at its slashes, and the segments are taken one by one from the root: an
empty segment or a dot says nothing, and two dots take the last name back, if there is one
(`Path.foldedNames`). What is left of a path that is joined to a directory depends on what is left
of the directory only (`Path.foldedNames_join`).

Files in memory are found by what is left of their paths. `MemoryFiles.locate_agrees` says which
resources are found after any sequence of insertions, that the path which is found is canonical,
that reading it gives the text of the last insertion under it, and that it is found again under its
own text.
-/

set_option autoImplicit false

namespace ServiceGraph

namespace Path

/-! ## Names from segments -/

/-- The parts of a path between slashes, empty ones included. -/
def segments (p : Path) : List String := (p.text.toList.splitOn '/').map String.ofList

/-- The names after one more segment. -/
def enter (names : List String) (segment : String) : List String :=
  if segment = "" ∨ segment = "." then names
  else if segment = ".." then names.dropLast
  else names ++ [segment]

/-- The names to which the segments of a path fold. -/
def foldedNames (p : Path) : List String := p.segments.foldl enter []

/-- The path of these names. -/
def folded (p : Path) : Path := ofNames p.foldedNames

/-- An absolute path without dots and empty segments. -/
def IsCanonical (p : Path) : Prop :=
  ∃ names : List String, p.text = "/" ++ "/".intercalate names ∧
    ∀ name ∈ names, name ≠ "" ∧ name ≠ "." ∧ name ≠ ".." ∧ '/' ∉ name.toList

/-- The names after one more step. -/
def takeStep (names : List String) : Component → List String
  | .up => names.dropLast
  | .name text => names ++ [text]
  | .root => names
  | .here => names

theorem fold_eq (steps : List Component) : fold steps = steps.foldl takeStep [] := by
  rw [fold]
  congr 1

/-- A segment that says something is a step. -/
theorem enter_ofList (names : List String) (part : List Char) :
    enter names (String.ofList part) =
      if isIdle part then names else takeStep names (stepOf part) := by
  have hempty : String.ofList part = "" ↔ part = [] := by simp [← String.toList_inj]
  have hdot : String.ofList part = "." ↔ part = ['.'] := by simp [← String.toList_inj]
  have hdots : String.ofList part = ".." ↔ part = ['.', '.'] := by simp [← String.toList_inj]
  simp only [enter, isIdle, stepOf, hempty, hdot, hdots, Bool.or_eq_true, decide_eq_true_eq]
  by_cases hidle : part = [] ∨ part = ['.']
  · rw [if_pos hidle, if_pos hidle]
  · rw [if_neg hidle, if_neg hidle]
    by_cases hup : part = ['.', '.']
    · rw [if_pos hup, if_pos hup, takeStep]
    · rw [if_neg hup, if_neg hup, takeStep]

theorem foldl_takeStep (parts : List (List Char)) (names : List String) :
    ((parts.filter fun part => !isIdle part).map stepOf).foldl takeStep names =
      (parts.map String.ofList).foldl enter names := by
  induction parts generalizing names with
  | nil => rfl
  | cons part rest ih =>
      rw [List.map_cons, List.foldl_cons, enter_ofList, ← ih]
      by_cases hidle : isIdle part = true
      · simp [hidle]
      · simp [hidle]

/-- The steps of a path fold to the same names as its segments. -/
theorem fold_components (p : Path) : fold p.components = p.foldedNames := by
  rw [fold_eq, foldedNames, segments, components]
  simp only [splitSlashes, List.foldl_append, foldl_takeStep]
  -- the start of the text says nothing, in whichever way it is cut off
  generalize p.text.toList = s
  unfold splitStart
  split
  · simp [List.splitOn_cons_eq_if_modifyHead, takeStep, enter]
  · simp [List.splitOn_cons_eq_if_modifyHead, takeStep, enter]
  · simp [List.splitOn_cons_eq_if_modifyHead, takeStep, enter]
  · simp

theorem isPlain_of_mem_foldedNames {p : Path} {name : String} (h : name ∈ p.foldedNames) :
    IsPlain name := by
  rw [← fold_components] at h
  exact isPlain_of_mem_fold (fun _ => isPlain_of_mem_components) h

/-- Names that stand for themselves are all that is left of their path. -/
theorem foldedNames_ofNames {names : List String} (h : ∀ name ∈ names, IsPlain name) :
    (ofNames names).foldedNames = names := by
  have hnames : ∀ before : List String,
      (names.map Component.name).foldl takeStep before = before ++ names := by
    clear h
    induction names with
    | nil => exact fun before => (List.append_nil before).symm
    | cons name rest ih =>
        intro before
        rw [List.map_cons, List.foldl_cons, takeStep, ih, List.append_assoc, List.singleton_append]
  rw [← fold_components, components_ofNames h, fold_eq, List.foldl_cons, takeStep, hnames,
    List.nil_append]

theorem foldedNames_folded (p : Path) : p.folded.foldedNames = p.foldedNames :=
  foldedNames_ofNames fun _ => isPlain_of_mem_foldedNames

theorem folded_folded (p : Path) : p.folded.folded = p.folded :=
  congrArg ofNames p.foldedNames_folded

theorem isCanonical_folded (p : Path) : p.folded.IsCanonical := by
  refine ⟨p.foldedNames, rfl, fun name hname => ?_⟩
  obtain ⟨hbusy, hup, hslash⟩ := isPlain_of_mem_foldedNames hname
  simp only [isIdle, Bool.or_eq_false_iff, decide_eq_false_iff_not] at hbusy
  refine ⟨?_, ?_, ?_, hslash⟩
  · rintro rfl
    exact hbusy.1 rfl
  · rintro rfl
    exact hbusy.2 rfl
  · rintro rfl
    exact hup rfl

theorem isAbsolute_folded (p : Path) : p.folded.isAbsolute = true := by
  simp [folded, ofNames, isAbsolute]

/-! ## Joined paths -/

theorem segments_append_slash (a b : String) :
    segments ⟨a ++ "/" ++ b⟩ = segments ⟨a⟩ ++ segments ⟨b⟩ := by
  have htext : (a ++ "/" ++ b).toList = a.toList ++ '/' :: b.toList := by simp
  rw [segments, htext, List.splitOn_append_cons_self, List.map_append]
  rfl

/-- An absolute path folds by itself, and a relative one from what is left of the directory. -/
theorem foldedNames_join (dir p : Path) :
    (dir.join p).foldedNames =
      p.segments.foldl enter (if p.isAbsolute then [] else dir.foldedNames) := by
  rw [join]
  by_cases habsolute : p.isAbsolute = true
  · rw [if_pos habsolute, if_pos habsolute, foldedNames]
  rw [if_neg habsolute, if_neg habsolute]
  split
  · rename_i hend
    rcases hend with hempty | hslash
    · have htext : dir.text = "" := String.toList_eq_nil_iff.1 hempty
      have hnone : dir.foldedNames = [] := by simp [foldedNames, segments, htext, enter]
      rw [hnone, htext, String.empty_append, foldedNames]
    · -- the slash at the end of the directory cuts the two texts apart
      obtain ⟨front, hfront⟩ := List.getLast?_eq_some_iff.1 hslash
      have htext : dir.text = String.ofList front ++ "/" := by simp [← String.toList_inj, hfront]
      have hdir : dir.foldedNames = foldedNames ⟨String.ofList front⟩ := by
        have hsegments := segments_append_slash (String.ofList front) ""
        rw [String.append_empty, ← htext] at hsegments
        rw [foldedNames, hsegments, List.foldl_append, foldedNames]
        simp [segments, enter]
      rw [hdir, foldedNames, htext, segments_append_slash, List.foldl_append, foldedNames]
  · rw [foldedNames, segments_append_slash, List.foldl_append, foldedNames]

end Path

/-! ## Local resources -/

theorem splitScheme?_eq_some {s scheme rest : List Char}
    (h : splitScheme? s = some (scheme, rest)) :
    s = scheme ++ ':' :: '/' :: '/' :: rest := by
  induction s using splitScheme?.induct generalizing scheme with
  | case1 => exact nomatch h
  | case2 rest' =>
      obtain ⟨rfl, rfl⟩ := Prod.mk.inj (Option.some.inj h)
      rfl
  | case3 c tail hmark ih =>
      rw [splitScheme?] at h
      · obtain ⟨⟨scheme', rest'⟩, hsplit, hcons⟩ := Option.map_eq_some_iff.1 h
        obtain ⟨rfl, rfl⟩ := Prod.mk.inj hcons
        rw [List.cons_append, ← ih hsplit]
      · exact hmark

/-- A resource without `file://` in front of it. -/
def withoutFileScheme (resource : String) : String :=
  if "file://".toList <+: resource.toList then String.ofList (resource.toList.drop 7) else resource

theorem withoutFileScheme_of_not_file {resource : String}
    (h : ∀ rest, splitScheme? resource.toList ≠ some (['f', 'i', 'l', 'e'], rest)) :
    withoutFileScheme resource = resource := by
  refine if_neg fun hfile => ?_
  obtain ⟨rest, hrest⟩ := hfile
  exact h rest (hrest ▸ rfl)

/-- The path of a local resource is what follows `file://`, or the resource itself. -/
theorem eq_of_localPath {resource : String} {q : Path} (h : localPath resource = .ok q) :
    q = ⟨withoutFileScheme resource⟩ := by
  rw [localPath] at h
  split at h
  · rename_i hnone
    rw [withoutFileScheme_of_not_file fun rest hfile => nomatch hnone.symm.trans hfile]
    exact (Except.ok.inj h).symm
  · rename_i scheme rest hsplit
    split at h
    · rename_i hscheme
      have htext := splitScheme?_eq_some hsplit
      rw [hscheme] at htext
      have hprefix : "file://".toList <+: resource.toList := ⟨rest, htext.symm⟩
      rw [withoutFileScheme, if_pos hprefix, htext]
      exact (Except.ok.inj h).symm
    · rename_i hscheme
      split at h
      · exact nomatch h
      · rw [withoutFileScheme_of_not_file]
        · exact (Except.ok.inj h).symm
        · intro rest' hfile
          exact hscheme (Prod.mk.inj (Option.some.inj (hsplit.symm.trans hfile))).1

/-- Plain names with slashes between them have no two slashes in a row. -/
theorem Path.intercalate_names_ne {names : List String} (h : ∀ name ∈ names, IsPlain name)
    (before rest : List Char) :
    ['/'].intercalate (names.map String.toList) ≠ before ++ '/' :: '/' :: rest := by
  intro htext
  by_cases hnames : names = []
  · subst hnames
    simp at htext
  · have hempty : [] ∈ names.map String.toList := by
      rw [← splitOn_intercalate_names h hnames, htext, List.splitOn_append_cons_self]
      simp [List.splitOn_cons_eq_if_modifyHead]
    obtain ⟨name, hname, hnil⟩ := List.mem_map.1 hempty
    have hbusy := (h name hname).busy
    rw [hnil] at hbusy
    exact absurd hbusy (by decide)

/-- No scheme stands in the text of a folded path, so the text names a local file. -/
theorem Path.localPath_folded (p : Path) : localPath p.folded.text = .ok p.folded := by
  have hnone : splitScheme? p.folded.text.toList = none := by
    rw [Option.eq_none_iff_forall_ne_some]
    rintro ⟨scheme, rest⟩ hsplit
    have htext := splitScheme?_eq_some hsplit
    rw [folded, toList_ofNames] at htext
    cases scheme with
    | nil => simp at htext
    | cons c scheme =>
        have hplain : ∀ name ∈ p.foldedNames, IsPlain name := fun _ => isPlain_of_mem_foldedNames
        refine intercalate_names_ne hplain (scheme ++ [':']) rest ?_
        rw [List.cons_append] at htext
        rw [(List.cons.inj htext).2, List.append_assoc, List.singleton_append]
  rw [localPath, hnone]

namespace MemoryFiles

theorem namesFrom_eq (dir p : Path) : namesFrom dir p = (dir.join p).foldedNames :=
  Path.fold_components _

/-! ## Inserted files -/

/-- The files after a sequence of insertions. -/
def ofInserts (inserts : List (Path × String)) : MemoryFiles :=
  inserts.foldl (fun f e => f.insert e.1 e.2) empty

theorem namesFrom_root (p : Path) : namesFrom root p = p.foldedNames := by
  rw [namesFrom_eq, Path.foldedNames_join]
  have hroot : root.foldedNames = [] := by decide
  rw [hroot, ite_self, Path.foldedNames]

theorem files_ofInserts (inserts : List (Path × String)) :
    (ofInserts inserts).files = .ofList (inserts.map fun e => (e.1.foldedNames, e.2)) := by
  have hall : ∀ f : MemoryFiles, (inserts.foldl (fun f e => f.insert e.1 e.2) f).files =
      f.files.insertMany (inserts.map fun e => (e.1.foldedNames, e.2)) := by
    induction inserts with
    | nil => exact fun f => rfl
    | cons e rest ih =>
        intro f
        rw [List.foldl_cons, ih, List.map_cons, OrderedMap.insertMany_cons, insert, namesFrom_root]
  exact hall empty

theorem contains_ofInserts_iff {inserts : List (Path × String)} {names : List String} :
    (ofInserts inserts).files.contains names = true ↔ ∃ e ∈ inserts, e.1.foldedNames = names := by
  rw [OrderedMap.contains, files_ofInserts, OrderedMap.get?_ofList, OrderedMap.valueAt_isSome_iff,
    List.map_reverse, List.mem_reverse, List.map_map, List.mem_map]
  rfl

/-- The last insertion under a path decides about its text. -/
theorem get?_ofInserts {before after : List (Path × String)} {e : Path × String}
    (h : ∀ later ∈ after, later.1.foldedNames ≠ e.1.foldedNames) :
    (ofInserts (before ++ e :: after)).files.get? e.1.foldedNames = some e.2 := by
  have hafter : OrderedMap.valueAt e.1.foldedNames
      (after.map fun e => (e.1.foldedNames, e.2)).reverse = none := by
    rw [OrderedMap.valueAt_eq_none_iff, List.map_reverse, List.mem_reverse, List.map_map,
      List.mem_map]
    rintro ⟨later, hlater, hsame⟩
    exact h later hlater hsame
  rw [files_ofInserts, OrderedMap.get?_ofList, List.map_append, List.map_cons, List.reverse_append,
    List.reverse_cons, List.append_assoc, OrderedMap.valueAt_append, hafter, Option.none_or,
    List.singleton_append, OrderedMap.valueAt, if_pos rfl]

theorem exists_last_insert {inserts : List (Path × String)} {names : List String}
    (h : ∃ e ∈ inserts, e.1.foldedNames = names) :
    ∃ before e after, inserts = before ++ e :: after ∧ e.1.foldedNames = names ∧
      ∀ later ∈ after, later.1.foldedNames ≠ names := by
  obtain ⟨e, he, hnames⟩ := h
  have hfind : (inserts.reverse.find? fun e => decide (e.1.foldedNames = names)).isSome = true := by
    rw [List.find?_isSome]
    exact ⟨e, List.mem_reverse.2 he, decide_eq_true hnames⟩
  obtain ⟨last, hlast⟩ := Option.isSome_iff_exists.1 hfind
  obtain ⟨hsame, after, before, hsplit, hafter⟩ := List.find?_eq_some_iff_append.1 hlast
  refine ⟨before.reverse, last, after.reverse, ?_, of_decide_eq_true hsame, fun later hlater => ?_⟩
  · rw [← List.reverse_reverse inserts, hsplit, List.reverse_append, List.reverse_cons,
      List.append_assoc, List.singleton_append]
  · simpa using hafter later (List.mem_reverse.1 hlater)

/-! ## Locating -/

variable {inserts : List (Path × String)} {dir : Option Path} {resource : String}

/-- A local resource is found exactly when a file was inserted under the same names. -/
theorem locate_eq_ok_iff {q p : Path} (hlocal : localPath resource = .ok q) :
    (ofInserts inserts).locate resource dir = .ok p ↔
      (∃ e ∈ inserts, e.1.foldedNames = ((dir.getD root).join q).foldedNames) ∧
        p = ((dir.getD root).join q).folded := by
  rw [locate, hlocal]
  simp only [bind, Except.bind]
  rw [namesFrom_eq, ← contains_ofInserts_iff]
  by_cases hcontains :
      (ofInserts inserts).files.contains ((dir.getD root).join q).foldedNames = true
  · rw [if_pos hcontains, and_iff_right hcontains]
    exact ⟨fun h => (Except.ok.inj h).symm, fun h => h ▸ rfl⟩
  · rw [if_neg hcontains]
    refine iff_of_false (fun h => ?_) fun h => hcontains h.1
    cases h

/-- The directory may be folded first. -/
theorem locate_folded_dir (f : MemoryFiles) (resource : String) (d : Path) :
    f.locate resource (some d.folded) = f.locate resource (some d) := by
  rw [locate, locate]
  refine congrArg _ (funext fun q => ?_)
  simp only [Option.getD_some, namesFrom_eq, Path.foldedNames_join, Path.foldedNames_folded]

theorem join_folded (d p : Path) : d.join p.folded = p.folded :=
  if_pos p.isAbsolute_folded

/-- After any sequence of insertions, a local resource is found exactly when a file was inserted
under the names to which the directory joined with the resource folds. The path that is found is the
canonical one of these names; reading it gives the text of the last insertion under them, and its
own text finds it again from every directory. Folding the directory first makes no difference. -/
theorem locate_agrees (inserts : List (Path × String)) (dir : Option Path) {resource : String}
    (hlocal : ∃ q, localPath resource = .ok q) :
    (∀ p, (ofInserts inserts).locate resource dir = .ok p ↔
      (∃ e ∈ inserts,
        e.1.foldedNames = ((dir.getD root).join ⟨withoutFileScheme resource⟩).foldedNames) ∧
      p = ((dir.getD root).join ⟨withoutFileScheme resource⟩).folded) ∧
    (∀ p, (ofInserts inserts).locate resource dir = .ok p →
      p.IsCanonical ∧
      (∃ before e after, inserts = before ++ e :: after ∧ e.1.foldedNames = p.foldedNames ∧
        (∀ later ∈ after, later.1.foldedNames ≠ p.foldedNames) ∧
        (ofInserts inserts).read p = .ok e.2) ∧
      ∀ dir', (ofInserts inserts).locate p.text dir' = .ok p) ∧
    ∀ d, dir = some d →
      (ofInserts inserts).locate resource (some d.folded) =
        (ofInserts inserts).locate resource dir := by
  obtain ⟨q, hlocal⟩ := hlocal
  have hq := eq_of_localPath hlocal
  rw [hq] at hlocal
  refine ⟨fun p => locate_eq_ok_iff hlocal, fun p hp => ?_, fun d hd => ?_⟩
  · obtain ⟨hinserted, rfl⟩ := (locate_eq_ok_iff hlocal).1 hp
    generalize (dir.getD root).join ⟨withoutFileScheme resource⟩ = joined at hinserted
    refine ⟨joined.isCanonical_folded, ?_, fun dir' => ?_⟩
    · obtain ⟨before, e, after, rfl, hnames, hlast⟩ := exists_last_insert hinserted
      rw [Path.foldedNames_folded]
      refine ⟨before, e, after, rfl, hnames, hlast, ?_⟩
      refine read_ofNames (fun _ => Path.isPlain_of_mem_foldedNames) ?_
      rw [← hnames] at hlast ⊢
      exact get?_ofInserts hlast
    · refine (locate_eq_ok_iff joined.localPath_folded).2 ?_
      rw [join_folded, Path.foldedNames_folded, joined.folded_folded]
      exact ⟨hinserted, rfl⟩
  · rw [hd, locate_folded_dir]

/-- Two spellings of one path, and a path with two dots above the root. -/
def spelledInserts : List (Path × String) :=
  [(⟨"/conf/a/../b.json"⟩, "old"), (⟨"../app.json"⟩, "app"), (⟨"conf//./b.json"⟩, "new")]

theorem locate_agrees_spelled :
    (∃ q, localPath "file://../b.json" = .ok q) ∧
    (ofInserts spelledInserts).locate "file://../b.json" (some ⟨"conf/x/"⟩) =
      .ok ⟨"/conf/b.json"⟩ ∧
    (ofInserts spelledInserts).locate "file://../b.json" (some ⟨"/conf/x"⟩) =
      .ok ⟨"/conf/b.json"⟩ ∧
    (∀ dir, (ofInserts spelledInserts).locate "/conf/b.json" dir = .ok ⟨"/conf/b.json"⟩) ∧
    (ofInserts spelledInserts).read ⟨"/conf/b.json"⟩ = .ok "new" := by
  have hlocal : ∃ q, localPath "file://../b.json" = .ok q := ⟨⟨"../b.json"⟩, by decide +kernel⟩
  have hdir : Path.folded ⟨"conf/x/"⟩ = ⟨"/conf/x"⟩ := by decide +kernel
  obtain ⟨hfound, hagrees, hfolded⟩ := locate_agrees spelledInserts (some ⟨"conf/x/"⟩) hlocal
  have hlocate : (ofInserts spelledInserts).locate "file://../b.json" (some ⟨"conf/x/"⟩) =
      .ok ⟨"/conf/b.json"⟩ := by
    refine (hfound _).2 ⟨⟨(⟨"conf//./b.json"⟩, "new"), ?_, ?_⟩, ?_⟩
    · simp [spelledInserts]
    · decide +kernel
    · decide +kernel
  obtain ⟨-, -, hagain⟩ := hagrees _ hlocate
  refine ⟨hlocal, hlocate, ?_, hagain, by decide +kernel⟩
  rw [← hdir, hfolded _ rfl, hlocate]

end MemoryFiles

end ServiceGraph
