/-!
# Insertion-ordered maps

An `OrderedMap κ α` is a list of entries with pairwise distinct keys. A key keeps the place of
its first insertion: inserting it again replaces the value only (`keys_insert_of_mem`), and a new
key goes to the end (`entries_insert_of_not_mem`). Removing a key leaves the order of the others.

Lookup is described by `get?_insert` and `get?_erase`, membership by `mem_keys_iff`. The functions
`valueAt` and `insertEntry` work on bare lists of entries.
-/

set_option autoImplicit false

namespace ServiceGraph

universe u v w

/-- Entries in insertion order, one for each key. -/
structure OrderedMap (κ : Type u) (α : Type v) where
  /-- The entries, oldest key first. -/
  entries : List (κ × α)
  /-- No key occurs twice. -/
  nodup : (entries.map Prod.fst).Nodup

namespace OrderedMap

variable {κ : Type u} {α : Type v} {β : Type w}

theorem ext {m n : OrderedMap κ α} (h : m.entries = n.entries) : m = n := by
  cases m
  cases n
  cases h
  rfl

/-- The map without entries. -/
def empty : OrderedMap κ α := ⟨[], List.nodup_nil⟩

instance : EmptyCollection (OrderedMap κ α) := ⟨empty⟩

instance : Inhabited (OrderedMap κ α) := ⟨empty⟩

/-- The keys, oldest first. -/
def keys (m : OrderedMap κ α) : List κ := m.entries.map Prod.fst

/-- The number of keys. -/
def size (m : OrderedMap κ α) : Nat := m.entries.length

/-- Whether there is no key. -/
def isEmpty (m : OrderedMap κ α) : Bool := m.entries.isEmpty

theorem keys_nodup (m : OrderedMap κ α) : m.keys.Nodup := m.nodup

section Lookup

variable [DecidableEq κ]

/-- The value of the first entry with key `k`. -/
def valueAt (k : κ) : List (κ × α) → Option α
  | [] => none
  | e :: rest => if e.1 = k then some e.2 else valueAt k rest

/-- Entries with `k` set to `a`: in place when `k` is there, at the end otherwise. -/
def insertEntry (k : κ) (a : α) : List (κ × α) → List (κ × α)
  | [] => [(k, a)]
  | e :: rest => if e.1 = k then (k, a) :: rest else e :: insertEntry k a rest

theorem insertEntry_of_not_mem (k : κ) (a : α) :
    ∀ {l : List (κ × α)}, k ∉ l.map Prod.fst → insertEntry k a l = l ++ [(k, a)]
  | [], _ => rfl
  | e :: rest, h => by
      simp only [List.map_cons, List.mem_cons, not_or] at h
      simp only [insertEntry, if_neg (Ne.symm h.1), insertEntry_of_not_mem k a h.2,
        List.cons_append]

theorem keys_insertEntry_of_mem (k : κ) (a : α) :
    ∀ {l : List (κ × α)}, k ∈ l.map Prod.fst →
      (insertEntry k a l).map Prod.fst = l.map Prod.fst
  | [], h => absurd h (by simp)
  | e :: rest, h => by
      by_cases hk : e.1 = k
      · simp [insertEntry, hk]
      · have hr : k ∈ rest.map Prod.fst := by
          simp only [List.map_cons, List.mem_cons] at h
          exact h.resolve_left (Ne.symm hk)
        simp only [insertEntry, if_neg hk, List.map_cons, keys_insertEntry_of_mem k a hr]

theorem nodup_insertEntry (k : κ) (a : α) {l : List (κ × α)} (h : (l.map Prod.fst).Nodup) :
    ((insertEntry k a l).map Prod.fst).Nodup := by
  by_cases hk : k ∈ l.map Prod.fst
  · rw [keys_insertEntry_of_mem k a hk]
    exact h
  · rw [insertEntry_of_not_mem k a hk, List.map_append, List.nodup_append]
    refine ⟨h, by simp, ?_⟩
    intro x hx y hy
    simp only [List.map_cons, List.map_nil, List.mem_singleton] at hy
    subst hy
    exact fun e => hk (e ▸ hx)

/-- The value at a key. -/
def get? (m : OrderedMap κ α) (k : κ) : Option α := valueAt k m.entries

/-- Whether a key has a value. -/
def contains (m : OrderedMap κ α) (k : κ) : Bool := (m.get? k).isSome

/-- Sets a key, in place when it is there and at the end otherwise. -/
def insert (m : OrderedMap κ α) (k : κ) (a : α) : OrderedMap κ α :=
  ⟨insertEntry k a m.entries, nodup_insertEntry k a m.nodup⟩

/-- Removes a key; the others keep their order. -/
def erase (m : OrderedMap κ α) (k : κ) : OrderedMap κ α where
  entries := m.entries.filter fun e => e.1 ≠ k
  nodup := m.nodup.sublist (List.filter_sublist.map Prod.fst)

/-- Applies `f` to the value at a key, if there is one. -/
def update (m : OrderedMap κ α) (k : κ) (f : α → α) : OrderedMap κ α where
  entries := m.entries.map fun e => if e.1 = k then (e.1, f e.2) else e
  nodup := by
    have h : (m.entries.map fun e => if e.1 = k then (e.1, f e.2) else e).map Prod.fst =
        m.entries.map Prod.fst := by
      rw [List.map_map]
      refine List.map_congr_left fun e _ => ?_
      by_cases hk : e.1 = k <;> simp [hk]
    rw [h]
    exact m.nodup

/-- Inserts entries one after the other. -/
def insertMany (m : OrderedMap κ α) (l : List (κ × α)) : OrderedMap κ α :=
  l.foldl (fun acc e => acc.insert e.1 e.2) m

/-- The map of a list of entries: a key that occurs again keeps its first place and takes the
last value. -/
def ofList (l : List (κ × α)) : OrderedMap κ α := empty.insertMany l

/-- The number of keys that are not in a list. -/
def unvisited (m : OrderedMap κ α) (visited : List κ) : Nat :=
  (m.keys.filter fun k => k ∉ visited).length

/-! ## Membership -/

theorem valueAt_isSome_iff (k : κ) :
    ∀ (l : List (κ × α)), (valueAt k l).isSome ↔ k ∈ l.map Prod.fst
  | [] => by simp [valueAt]
  | e :: rest => by
      by_cases hk : e.1 = k
      · simp [valueAt, hk]
      · have ih := valueAt_isSome_iff k rest
        simp only [valueAt, if_neg hk, List.map_cons, List.mem_cons, Ne.symm hk, false_or]
        exact ih

/-- A key is in the map exactly when it has a value. -/
theorem mem_keys_iff (m : OrderedMap κ α) (k : κ) : k ∈ m.keys ↔ m.contains k = true :=
  (valueAt_isSome_iff k m.entries).symm

theorem mem_keys_of_get? {m : OrderedMap κ α} {k : κ} {a : α} (h : m.get? k = some a) :
    k ∈ m.keys := by
  rw [mem_keys_iff, contains, h]
  rfl

theorem length_filter_lt_of_mem {p q : κ → Bool} {k : κ} (hpq : ∀ x, p x = true → q x = true)
    (hq : q k = true) (hp : p k = false) :
    ∀ {l : List κ}, k ∈ l → (l.filter p).length < (l.filter q).length
  | [], h => absurd h (by simp)
  | x :: rest, h => by
      have hle : (rest.filter p).length ≤ (rest.filter q).length := by
        rw [← List.countP_eq_length_filter, ← List.countP_eq_length_filter]
        exact List.countP_mono_left fun y _ => hpq y
      by_cases hx : x = k
      · subst hx
        rw [List.filter_cons_of_pos hq, List.filter_cons_of_neg (by simp [hp]), List.length_cons]
        omega
      · have hr : k ∈ rest := (List.mem_cons.1 h).resolve_left (Ne.symm hx)
        have ih := length_filter_lt_of_mem hpq hq hp hr
        by_cases hpx : p x = true
        · rw [List.filter_cons_of_pos hpx, List.filter_cons_of_pos (hpq x hpx), List.length_cons,
            List.length_cons]
          omega
        · rw [List.filter_cons_of_neg hpx]
          exact Nat.lt_of_lt_of_le ih ((List.sublist_cons_self x rest).filter q).length_le

/-- Visiting one more key of the map leaves fewer keys unvisited. -/
theorem unvisited_cons_lt {m : OrderedMap κ α} {visited : List κ} {k : κ} (hk : k ∈ m.keys)
    (hv : k ∉ visited) : m.unvisited (k :: visited) < m.unvisited visited :=
  length_filter_lt_of_mem (k := k) (by simp +contextual) (by simp [hv]) (by simp) hk

/-! ## Insertion -/

theorem entries_insert_of_not_mem {m : OrderedMap κ α} {k : κ} (a : α) (h : k ∉ m.keys) :
    (m.insert k a).entries = m.entries ++ [(k, a)] :=
  insertEntry_of_not_mem k a h

theorem keys_insert_of_mem {m : OrderedMap κ α} {k : κ} (a : α) (h : k ∈ m.keys) :
    (m.insert k a).keys = m.keys :=
  keys_insertEntry_of_mem k a h

theorem keys_insert_of_not_mem {m : OrderedMap κ α} {k : κ} (a : α) (h : k ∉ m.keys) :
    (m.insert k a).keys = m.keys ++ [k] := by
  simp [keys, entries_insert_of_not_mem a h]

theorem valueAt_insertEntry (k : κ) (a : α) (j : κ) :
    ∀ (l : List (κ × α)), valueAt j (insertEntry k a l) = if k = j then some a else valueAt j l
  | [] => rfl
  | e :: rest => by
      have ih := valueAt_insertEntry k a j rest
      by_cases hk : e.1 = k
      · by_cases hj : k = j <;> simp_all [insertEntry, valueAt]
      · by_cases hj : e.1 = j
        · have hkj : ¬ k = j := fun h => hk (hj.trans h.symm)
          simp only [insertEntry, if_neg hk, valueAt, if_pos hj, if_neg hkj]
        · simp only [insertEntry, if_neg hk, valueAt, if_neg hj, ih]

/-- Lookup after an insertion. -/
theorem get?_insert (m : OrderedMap κ α) (k : κ) (a : α) (j : κ) :
    (m.insert k a).get? j = if k = j then some a else m.get? j :=
  valueAt_insertEntry k a j m.entries

/-! ## Removal and update -/

theorem valueAt_filter_ne (k j : κ) :
    ∀ (l : List (κ × α)),
      valueAt j (l.filter fun e => e.1 ≠ k) = if k = j then none else valueAt j l
  | [] => by simp [valueAt]
  | e :: rest => by
      have ih := valueAt_filter_ne k j rest
      by_cases hk : e.1 = k
      · rw [List.filter_cons_of_neg (by simp [hk]), ih]
        by_cases hj : k = j <;> simp [valueAt, hk, hj]
      · rw [List.filter_cons_of_pos (by simp [hk])]
        by_cases hj : e.1 = j
        · have hkj : ¬ k = j := fun h => hk (hj.trans h.symm)
          simp [valueAt, hj, hkj]
        · simp only [valueAt, if_neg hj, ih]

/-- Lookup after a removal. -/
theorem get?_erase (m : OrderedMap κ α) (k j : κ) :
    (m.erase k).get? j = if k = j then none else m.get? j :=
  valueAt_filter_ne k j m.entries

theorem keys_update (m : OrderedMap κ α) (k : κ) (f : α → α) : (m.update k f).keys = m.keys := by
  simp only [keys, update, List.map_map]
  refine List.map_congr_left fun e _ => ?_
  by_cases hk : e.1 = k <;> simp [hk]

end Lookup

end OrderedMap

end ServiceGraph
