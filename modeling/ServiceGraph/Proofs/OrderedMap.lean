import Mathlib.Data.List.Nodup
import ServiceGraph.OrderedMap

/-!
# Laws of insertion-ordered maps

What a sequence of insertions leaves behind. Inserting entries one after the other keeps the keys
that were there, appends the new ones in the order of their first entries
(`OrderedMap.keys_insertMany`) and gives each key its last value (`OrderedMap.get?_insertMany`).
Keys and values are all that there is to a map (`OrderedMap.eq_of_keys_of_get?`), so laying maps
over each other in this way is associative, the order of the keys included
(`OrderedMap.insertMany_entries_insertMany`).

Insertions mixed with removals are edits (`OrderedMap.edit`). The last edit of a key decides about
it (`OrderedMap.get?_edit`), and keys that are never removed keep their order
(`OrderedMap.filter_keys_edit`). Changing the values in place changes nothing about the keys
(`OrderedMap.mapValues`).
-/

set_option autoImplicit false

namespace ServiceGraph.OrderedMap

universe u v

variable {κ : Type u} {α : Type v} [DecidableEq κ]

/-! ## Entries and lookup -/

theorem valueAt_eq_some_of_mem {k : κ} {a : α} :
    ∀ {l : List (κ × α)}, (l.map Prod.fst).Nodup → (k, a) ∈ l → valueAt k l = some a
  | [], _, h => absurd h List.not_mem_nil
  | e :: rest, hd, h => by
      rw [List.map_cons, List.nodup_cons] at hd
      rcases List.mem_cons.1 h with rfl | h
      · exact if_pos rfl
      · have hne : e.1 ≠ k := fun he => hd.1 (he ▸ List.mem_map_of_mem (f := Prod.fst) h)
        rw [valueAt, if_neg hne]
        exact valueAt_eq_some_of_mem hd.2 h

theorem mem_of_valueAt_eq_some {k : κ} {a : α} :
    ∀ {l : List (κ × α)}, valueAt k l = some a → (k, a) ∈ l
  | [], h => by simp [valueAt] at h
  | e :: rest, h => by
      by_cases he : e.1 = k
      · rw [valueAt, if_pos he, Option.some.injEq] at h
        subst he h
        exact List.mem_cons_self
      · rw [valueAt, if_neg he] at h
        exact List.mem_cons_of_mem e (mem_of_valueAt_eq_some h)

theorem valueAt_eq_none_iff {k : κ} {l : List (κ × α)} :
    valueAt k l = none ↔ k ∉ l.map Prod.fst := by
  rw [← Option.not_isSome_iff_eq_none, valueAt_isSome_iff]

/-- The order of entries with distinct keys is of no account for the values. -/
theorem valueAt_eq_of_perm {l l' : List (κ × α)} (h : l'.Perm l) (hd : (l.map Prod.fst).Nodup)
    (k : κ) : valueAt k l' = valueAt k l := by
  have hd' : (l'.map Prod.fst).Nodup := (h.map Prod.fst).nodup_iff.2 hd
  apply Option.ext
  intro a
  constructor
  · exact fun ha => valueAt_eq_some_of_mem hd (h.subset (mem_of_valueAt_eq_some ha))
  · exact fun ha => valueAt_eq_some_of_mem hd' (h.symm.subset (mem_of_valueAt_eq_some ha))

/-- The value at a key is the one it has among the entries. -/
theorem get?_eq_some_iff {m : OrderedMap κ α} {k : κ} {a : α} :
    m.get? k = some a ↔ (k, a) ∈ m.entries :=
  ⟨mem_of_valueAt_eq_some, valueAt_eq_some_of_mem m.nodup⟩

theorem get?_eq_none_iff {m : OrderedMap κ α} {k : κ} : m.get? k = none ↔ k ∉ m.keys := by
  rw [mem_keys_iff, contains, Bool.not_eq_true, Option.isSome_eq_false_iff,
    Option.isNone_iff_eq_none]

theorem exists_get?_of_mem_keys {m : OrderedMap κ α} {k : κ} (h : k ∈ m.keys) :
    ∃ a, m.get? k = some a := by
  cases hk : m.get? k with
  | none => exact absurd h (get?_eq_none_iff.1 hk)
  | some a => exact ⟨a, rfl⟩

/-! ## One insertion -/

theorem keys_insert (m : OrderedMap κ α) (k : κ) (a : α) :
    (m.insert k a).keys = if k ∈ m.keys then m.keys else m.keys ++ [k] := by
  by_cases h : k ∈ m.keys
  · rw [if_pos h, keys_insert_of_mem a h]
  · rw [if_neg h, keys_insert_of_not_mem a h]

theorem erase_of_not_mem {m : OrderedMap κ α} {k : κ} (h : k ∉ m.keys) : m.erase k = m := by
  refine ext (List.filter_eq_self.2 fun e he => ?_)
  have hne : e.1 ≠ k := fun hk => h (hk ▸ List.mem_map_of_mem (f := Prod.fst) he)
  exact decide_eq_true hne

/-! ## Many insertions -/

theorem insertMany_cons (m : OrderedMap κ α) (e : κ × α) (l : List (κ × α)) :
    m.insertMany (e :: l) = (m.insert e.1 e.2).insertMany l := rfl

theorem insertMany_append (m : OrderedMap κ α) (l l' : List (κ × α)) :
    m.insertMany (l ++ l') = (m.insertMany l).insertMany l' :=
  List.foldl_append

/-- After many insertions the keys are the old ones and then the new ones, each at its first
entry. The value of an insertion may depend on the map so far. -/
theorem keys_foldl_insert {β : Type*} (key : β → κ) (value : OrderedMap κ α → β → α) (l : List β)
    (m : OrderedMap κ α) :
    (l.foldl (fun acc e => acc.insert (key e) (value acc e)) m).keys =
      m.keys ++ ((l.map key).filter (· ∉ m.keys)).eraseDups := by
  induction l generalizing m with
  | nil => simp
  | cons e rest ih =>
      rw [List.foldl_cons, ih, keys_insert]
      by_cases h : key e ∈ m.keys
      · simp [h]
      · -- the new key is dropped from the later entries, as the duplicates of it are
        have hf : (rest.map key).filter (· ∉ m.keys ++ [key e]) =
            ((rest.map key).filter (· ∉ m.keys)).filter fun b => !b == key e := by
          rw [List.filter_filter]
          refine List.filter_congr fun b _ => ?_
          by_cases hb : b = key e <;> simp [hb]
        rw [if_neg h, hf, List.map_cons, List.filter_cons_of_pos (by simpa using h),
          List.eraseDups_cons, List.append_assoc, List.singleton_append]

theorem keys_insertMany (l : List (κ × α)) (m : OrderedMap κ α) :
    (m.insertMany l).keys = m.keys ++ ((l.map Prod.fst).filter (· ∉ m.keys)).eraseDups :=
  keys_foldl_insert Prod.fst (fun _ e => e.2) l m

theorem valueAt_append (k : κ) (l l' : List (κ × α)) :
    valueAt k (l ++ l') = (valueAt k l).or (valueAt k l') := by
  induction l with
  | nil => rfl
  | cons e rest ih =>
      by_cases he : e.1 = k
      · simp [valueAt, he]
      · simp only [List.cons_append, valueAt, if_neg he, ih]

/-- Entries appended under other keys leave the value of a key as it was. -/
theorem get?_eq_of_append {m m' : OrderedMap κ α} {l : List (κ × α)}
    (h : m'.entries = m.entries ++ l) {k : κ} (hk : k ∉ l.map Prod.fst) : m'.get? k = m.get? k := by
  rw [get?, h, valueAt_append, valueAt_eq_none_iff.2 hk, Option.or_none, get?]

theorem valueAt_map {β : Type*} (f : α → β) (k : κ) (l : List (κ × α)) :
    valueAt k (l.map fun e => (e.1, f e.2)) = (valueAt k l).map f := by
  induction l with
  | nil => rfl
  | cons e rest ih =>
      by_cases he : e.1 = k
      · simp [valueAt, he]
      · simp only [List.map_cons, valueAt, if_neg he, ih]

/-- After many insertions a key has the value of its last entry. -/
theorem get?_insertMany (l : List (κ × α)) (m : OrderedMap κ α) (k : κ) :
    (m.insertMany l).get? k = (valueAt k l.reverse).or (m.get? k) := by
  induction l generalizing m with
  | nil => rfl
  | cons e rest ih =>
      rw [insertMany_cons, ih, get?_insert, List.reverse_cons, valueAt_append, Option.or_assoc]
      by_cases he : e.1 = k <;> simp [valueAt, he]

/-- The entries of a map take precedence over those that were there. -/
theorem get?_insertMany_entries (m n : OrderedMap κ α) (k : κ) :
    (m.insertMany n.entries).get? k = (n.get? k).or (m.get? k) := by
  have hreverse : valueAt k n.entries.reverse = n.get? k := by
    have hnodup : (n.entries.reverse.map Prod.fst).Nodup := by
      rw [List.map_reverse]
      exact List.nodup_reverse.2 n.nodup
    rcases hk : n.get? k with _ | a
    · rcases hv : valueAt k n.entries.reverse with _ | a
      · rfl
      · have hmem := List.mem_reverse.1 (mem_of_valueAt_eq_some hv)
        rw [get?_eq_some_iff.2 hmem] at hk
        exact nomatch hk
    · exact valueAt_eq_some_of_mem hnodup (List.mem_reverse.2 (get?_eq_some_iff.1 hk))
  rw [get?_insertMany, hreverse]

/-- Inserting at keys that are there keeps the keys. -/
theorem keys_insertMany_of_subset {m : OrderedMap κ α} {l : List (κ × α)}
    (h : ∀ k ∈ l.map Prod.fst, k ∈ m.keys) : (m.insertMany l).keys = m.keys := by
  have hnone : (l.map Prod.fst).filter (· ∉ m.keys) = [] := by
    rw [List.filter_eq_nil_iff]
    intro k hk
    simpa using h k hk
  rw [keys_insertMany, hnone, List.eraseDups_nil, List.append_nil]

/-- The keys of a list of entries, each at its first entry. -/
theorem keys_ofList (l : List (κ × α)) :
    (ofList l).keys = (l.map Prod.fst).eraseDups := by
  rw [ofList, keys_insertMany]
  simp [empty, keys]

/-- A key of a list of entries has the value of its last entry. -/
theorem get?_ofList (l : List (κ × α)) (k : κ) : (ofList l).get? k = valueAt k l.reverse := by
  rw [ofList, get?_insertMany]
  exact Option.or_none

/-! ## A map over a map -/

theorem entries_eq_filterMap (m : OrderedMap κ α) :
    m.entries = m.keys.filterMap fun k => (m.get? k).map fun a => (k, a) := by
  have hentry : ∀ e ∈ m.entries, ((m.get? e.1).map fun a => (e.1, a)) = some e := by
    intro e he
    rw [get?_eq_some_iff.2 he, Option.map_some]
  rw [keys, List.filterMap_map]
  exact ((List.filterMap_congr hentry).trans List.filterMap_some).symm

/-- A map is its keys, in their order, with the value of each. -/
theorem eq_of_keys_of_get? {m n : OrderedMap κ α} (hkeys : m.keys = n.keys)
    (hget : ∀ k, m.get? k = n.get? k) : m = n := by
  refine ext ?_
  rw [entries_eq_filterMap m, entries_eq_filterMap n, hkeys]
  simp only [hget]

theorem eraseDups_of_nodup {l : List κ} (h : l.Nodup) : l.eraseDups = l := by
  induction l with
  | nil => rfl
  | cons k rest ih =>
      obtain ⟨hk, hrest⟩ := List.nodup_cons.1 h
      have hkeep : rest.filter (fun b => !b == k) = rest := by
        refine List.filter_eq_self.2 fun b hb => ?_
        have hne : b ≠ k := fun heq => hk (heq ▸ hb)
        simpa using hne
      rw [List.eraseDups_cons, hkeep, ih hrest]

/-- The keys of a map laid over another one that are new come last, in their order. -/
theorem keys_insertMany_entries (m n : OrderedMap κ α) :
    (m.insertMany n.entries).keys = m.keys ++ n.keys.filter (· ∉ m.keys) := by
  rw [keys_insertMany, ← keys, eraseDups_of_nodup (n.keys_nodup.filter _)]

/-- Three maps come to the same whichever two of them are laid over each other first, the order of
the keys included. -/
theorem insertMany_entries_insertMany (m n o : OrderedMap κ α) :
    m.insertMany (n.insertMany o.entries).entries =
      (m.insertMany n.entries).insertMany o.entries := by
  refine eq_of_keys_of_get? ?_ fun k => ?_
  · -- a key of the third map is new when neither of the others has it
    have hnew : o.keys.filter (· ∉ m.keys ++ n.keys.filter (· ∉ m.keys)) =
        (o.keys.filter (· ∉ n.keys)).filter (· ∉ m.keys) := by
      rw [List.filter_filter]
      refine List.filter_congr fun k _ => ?_
      by_cases hm : k ∈ m.keys <;> simp [hm]
    simp only [keys_insertMany_entries, List.filter_append, List.append_assoc, hnew]
  · simp only [get?_insertMany_entries, Option.or_assoc]

/-! ## Edits -/

theorem keys_erase (m : OrderedMap κ α) (k : κ) : (m.erase k).keys = m.keys.filter (· ≠ k) := by
  rw [keys, keys, erase, List.filter_map]
  rfl

/-- One edit: a value sets its key, and no value removes it. -/
def editEntry (m : OrderedMap κ α) (e : κ × Option α) : OrderedMap κ α :=
  match e.2 with
  | some a => m.insert e.1 a
  | none => m.erase e.1

/-- Edits one after the other. -/
def edit (m : OrderedMap κ α) (l : List (κ × Option α)) : OrderedMap κ α := l.foldl editEntry m

theorem edit_append (m : OrderedMap κ α) (l l' : List (κ × Option α)) :
    m.edit (l ++ l') = (m.edit l).edit l' :=
  List.foldl_append

theorem get?_editEntry (m : OrderedMap κ α) (e : κ × Option α) (k : κ) :
    (m.editEntry e).get? k = if e.1 = k then e.2 else m.get? k := by
  obtain ⟨j, value⟩ := e
  cases value with
  | none => exact get?_erase m j k
  | some a => exact get?_insert m j a k

/-- After many edits the last one of a key decides about it. -/
theorem get?_edit (l : List (κ × Option α)) (m : OrderedMap κ α) (k : κ) :
    (m.edit l).get? k = (valueAt k l.reverse).getD (m.get? k) := by
  induction l generalizing m with
  | nil => rfl
  | cons e rest ih =>
      have hcons : m.edit (e :: rest) = (m.editEntry e).edit rest := rfl
      rw [hcons, ih, get?_editEntry, List.reverse_cons, valueAt_append]
      cases valueAt k rest.reverse with
      | some last => rfl
      | none =>
          by_cases he : e.1 = k
          · simp [valueAt, he]
          · simp [valueAt, he]

/-- The keys after an edit depend on the keys before it only. -/
theorem keys_edit_congr {m n : OrderedMap κ α} (h : m.keys = n.keys) (l : List (κ × Option α)) :
    (m.edit l).keys = (n.edit l).keys := by
  induction l generalizing m n with
  | nil => exact h
  | cons e rest ih =>
      refine ih ?_
      obtain ⟨j, value⟩ := e
      cases value with
      | none =>
          show (m.erase j).keys = (n.erase j).keys
          rw [keys_erase, keys_erase, h]
      | some a =>
          show (m.insert j a).keys = (n.insert j a).keys
          rw [keys_insert, keys_insert, h]

/-- Keys that are there and never removed keep their order. -/
theorem filter_keys_edit {m : OrderedMap κ α} {l : List (κ × Option α)} {p : κ → Bool}
    (hp : ∀ k, p k = true → k ∈ m.keys ∧ (k, none) ∉ l) :
    (m.edit l).keys.filter p = m.keys.filter p := by
  induction l generalizing m with
  | nil => rfl
  | cons e rest ih =>
      obtain ⟨j, value⟩ := e
      cases value with
      | none =>
          have hstep : (m.erase j).keys.filter p = m.keys.filter p := by
            rw [keys_erase, List.filter_filter]
            refine List.filter_congr fun k _ => ?_
            by_cases hk : p k = true
            · have hne : k ≠ j := fun he => (hp k hk).2 (he ▸ List.mem_cons_self)
              simp [hk, hne]
            · simp [hk]
          refine (ih fun k hk => ?_).trans hstep
          have hne : k ≠ j := fun he => (hp k hk).2 (he ▸ List.mem_cons_self)
          have hkeep : k ∈ (m.erase j).keys := by
            rw [keys_erase, List.mem_filter]
            exact ⟨(hp k hk).1, decide_eq_true hne⟩
          exact ⟨hkeep, fun hrest => (hp k hk).2 (List.mem_cons_of_mem _ hrest)⟩
      | some a =>
          have hkeep : ∀ k ∈ m.keys, k ∈ (m.insert j a).keys := by
            intro k hk
            rw [keys_insert]
            split
            · exact hk
            · exact List.mem_append_left _ hk
          have hstep : (m.insert j a).keys.filter p = m.keys.filter p := by
            rw [keys_insert]
            by_cases hj : j ∈ m.keys
            · rw [if_pos hj]
            · -- the new key stands at the end and is not one of the keys in question
              have hnot : ¬ p j = true := fun hpj => hj (hp j hpj).1
              rw [if_neg hj, List.filter_append, List.filter_cons_of_neg hnot, List.filter_nil,
                List.append_nil]
          refine (ih fun k hk => ?_).trans hstep
          exact ⟨hkeep k (hp k hk).1, fun hrest => (hp k hk).2 (List.mem_cons_of_mem _ hrest)⟩

/-! ## Values changed in place -/

/-- A map with each value changed in its place. -/
def mapValues (m : OrderedMap κ α) (f : κ → α → α) : OrderedMap κ α where
  entries := m.entries.map fun e => (e.1, f e.1 e.2)
  nodup := by
    rw [List.map_map]
    exact m.nodup

omit [DecidableEq κ] in
theorem keys_mapValues (m : OrderedMap κ α) (f : κ → α → α) : (m.mapValues f).keys = m.keys := by
  rw [keys, keys, mapValues, List.map_map]
  rfl

theorem get?_mapValues (m : OrderedMap κ α) (f : κ → α → α) (k : κ) :
    (m.mapValues f).get? k = (m.get? k).map (f k) := by
  cases hk : m.get? k with
  | none =>
      rw [Option.map_none, get?_eq_none_iff, keys_mapValues]
      exact get?_eq_none_iff.1 hk
  | some a =>
      rw [Option.map_some, get?_eq_some_iff]
      exact List.mem_map.2 ⟨(k, a), get?_eq_some_iff.1 hk, rfl⟩

end ServiceGraph.OrderedMap
