import Mathlib.Data.List.Basic
import ServiceGraph.Graph.Export

/-!
# The export determines the graph

Two compiled graphs with the same JSON form are the same graph, entry by entry and in the same order
(`CompiledGraph.toJson_eq_iff`).

The JSON form is put together from a few kinds of node, each of which keeps what it is given:
objects with one member, lists, maps, and values that may be missing. A missing value is written as
null, so nothing else may be (`Json.optional_injective`). A value is written under the name of its
type, which tells the shapes apart (`Value.marker_toJson`); the parts of a value are compared by
induction on the value.
-/

set_option autoImplicit false

namespace ServiceGraph

open Function (Injective)

/-! ## Nodes -/

namespace Json

theorem string_injective : Injective Json.string := by
  intro s t h
  exact Json.string.inj h

theorem bool_injective : Injective Json.bool := by
  intro a b h
  exact Json.bool.inj h

theorem int_injective : Injective Json.int := by
  intro a b h
  exact Integer64.ofSigned_inj.1 (Number.whole.inj (Json.number.inj h))

theorem tagged_injective (key : String) : Injective (tagged key) := by
  intro a b h
  simpa [tagged] using h

variable {α : Type} {f : α → Json}

/-- A value that may be missing is kept, unless it is written as null. -/
theorem optional_injective (hf : Injective f) (hnull : ∀ a, f a ≠ .null) :
    Injective (Json.optional f) := by
  intro a b h
  cases a with
  | none =>
      cases b with
      | none => rfl
      | some b => exact absurd h.symm (hnull b)
  | some a =>
      cases b with
      | none => exact absurd h (hnull a)
      | some b => exact congrArg some (hf h)

theorem list_injective (hf : Injective f) : Injective (Json.list f) := by
  intro l l' h
  exact List.map_injective_iff.2 hf (Json.array.inj h)

/-- A map is kept with the order of its keys. -/
theorem map_injective (hf : Injective f) : Injective (Json.map f) := by
  intro m m' h
  have hentry : Injective fun e : String × α => (e.1, f e.2) := by
    rintro ⟨k, a⟩ ⟨k', a'⟩ he
    obtain ⟨hk, ha⟩ := Prod.mk.inj he
    exact Prod.ext hk (hf ha)
  exact OrderedMap.ext (List.map_injective_iff.2 hentry (Json.object.inj h))

end Json

/-! ## References and values -/

theorem Reference.toJson_injective : Injective Reference.toJson := by
  intro r r' h
  -- the member `kind` tells the references apart
  cases r <;> cases r' <;> simp_all [toJson]

namespace Scalar

/-- An attribute of a tag is written without the name of its type. -/
theorem toJson_injective : Injective Scalar.toJson := by
  intro a b h
  cases a <;> cases b <;> simp_all [toJson, Json.int, Integer64.ofSigned_inj]

theorem toTaggedJson_injective : Injective Scalar.toTaggedJson := by
  intro a b h
  cases a <;> cases b <;>
    simp_all [toTaggedJson, toJson, Json.int, Integer64.ofSigned_inj, Json.tagged, typeName]

end Scalar

/-- The word that a node starts with: a text, or the key of the only member. -/
def Json.marker? : Json → Option String
  | .string s => some s
  | .object [(key, _)] => some key
  | _ => none

namespace Value

/-- A value is written under the name of its type. -/
theorem marker_toJson (v : Value) : v.toJson.marker? = some v.typeName := by
  cases v with
  | scalar s => cases s <;> simp [toJson, Scalar.toTaggedJson, Json.tagged, Json.marker?, typeName,
      Scalar.typeName]
  | list items => simp [toJson, Json.tagged, Json.marker?, typeName]
  | map entries => simp [toJson, Json.tagged, Json.marker?, typeName]
  | reference r => simp [toJson, Json.tagged, Json.marker?, typeName]

theorem typeName_eq {v w : Value} (h : v.toJson = w.toJson) : v.typeName = w.typeName := by
  have hmarker := congrArg Json.marker? h
  rw [marker_toJson, marker_toJson] at hmarker
  exact Option.some.inj hmarker

/-- Values with the same name of their types have the same shape. -/
theorem shape_eq {v w : Value} (h : v.typeName = w.typeName) :
    match v with
    | .scalar _ => ∃ s, w = .scalar s
    | .list _ => ∃ items, w = .list items
    | .map _ => ∃ entries, w = .map entries
    | .reference _ => ∃ r, w = .reference r := by
  -- the name of a scalar's type is none of the other names
  have hscalar (s : Scalar) : s.typeName ∉ ["list", "map", "reference"] := by
    cases s <;> simp [Scalar.typeName]
  cases v <;> cases w <;> simp [typeName] at h ⊢
  case scalar.list s _ => exact hscalar s (by simp [h])
  case scalar.map s _ => exact hscalar s (by simp [h])
  case scalar.reference s _ => exact hscalar s (by simp [h])
  case list.scalar _ s => exact hscalar s (by simp [← h])
  case map.scalar _ s => exact hscalar s (by simp [← h])
  case reference.scalar _ s => exact hscalar s (by simp [← h])

mutual

theorem eq_of_toJson_eq : ∀ v w : Value, v.toJson = w.toJson → v = w
  | .scalar s, w, h => by
      obtain ⟨t, rfl⟩ := shape_eq (typeName_eq h)
      simp only [toJson] at h
      exact congrArg scalar (Scalar.toTaggedJson_injective h)
  | .list items, w, h => by
      obtain ⟨items', rfl⟩ := shape_eq (typeName_eq h)
      simp only [toJson] at h
      have hitems := Json.array.inj (Json.tagged_injective "list" h)
      exact congrArg list (eq_of_itemsToJson_eq items items' hitems)
  | .map entries, w, h => by
      obtain ⟨entries', rfl⟩ := shape_eq (typeName_eq h)
      simp only [toJson] at h
      have hentries := Json.object.inj (Json.tagged_injective "map" h)
      exact congrArg map (eq_of_entriesToJson_eq entries entries' hentries)
  | .reference r, w, h => by
      obtain ⟨r', rfl⟩ := shape_eq (typeName_eq h)
      simp only [toJson] at h
      exact congrArg reference (Reference.toJson_injective (Json.tagged_injective "reference" h))

theorem eq_of_itemsToJson_eq : ∀ xs ys : List Value, itemsToJson xs = itemsToJson ys → xs = ys
  | [], [], _ => rfl
  | [], _ :: _, h => by simp [itemsToJson] at h
  | _ :: _, [], h => by simp [itemsToJson] at h
  | x :: xs, y :: ys, h => by
      simp only [itemsToJson, List.cons.injEq] at h
      obtain ⟨hfirst, hrest⟩ := h
      rw [eq_of_toJson_eq x y hfirst, eq_of_itemsToJson_eq xs ys hrest]

theorem eq_of_entriesToJson_eq :
    ∀ xs ys : List (String × Value), entriesToJson xs = entriesToJson ys → xs = ys
  | [], [], _ => rfl
  | [], (_, _) :: _, h => by simp [entriesToJson] at h
  | (_, _) :: _, [], h => by simp [entriesToJson] at h
  | (k, v) :: xs, (k', v') :: ys, h => by
      simp only [entriesToJson, List.cons.injEq, Prod.mk.injEq] at h
      obtain ⟨⟨rfl, hvalue⟩, hrest⟩ := h
      rw [eq_of_toJson_eq v v' hvalue, eq_of_entriesToJson_eq xs ys hrest]

end

theorem toJson_injective : Injective Value.toJson := by
  intro v w h
  exact eq_of_toJson_eq v w h

end Value

/-! ## The parts of a definition -/

theorem Callable.toJson_injective : Injective Callable.toJson := by
  intro c c' h
  cases c with
  | function name =>
      cases c' with
      | function name' =>
          exact congrArg function (Json.string.inj (Json.tagged_injective "function" h))
      | method target' name' => simp [toJson, Json.tagged] at h
  | method target name =>
      cases c' with
      | function name' => simp [toJson, Json.tagged] at h
      | method target' name' =>
          simp only [toJson, Json.tagged, Json.object.injEq, List.cons.injEq, Prod.mk.injEq,
            Json.string.injEq, true_and, and_true] at h
          obtain ⟨htarget, rfl⟩ := h
          rw [Value.toJson_injective htarget]

theorem MethodCall.toJson_injective : Injective MethodCall.toJson := by
  rintro ⟨method, arguments⟩ ⟨method', arguments'⟩ h
  simp only [toJson, Json.object.injEq, List.cons.injEq, Prod.mk.injEq, Json.string.injEq,
    true_and, and_true] at h
  obtain ⟨rfl, harguments⟩ := h
  rw [Json.list_injective Value.toJson_injective harguments]

theorem Tag.toJson_injective : Injective Tag.toJson := by
  rintro ⟨name, attributes⟩ ⟨name', attributes'⟩ h
  simp only [toJson, Json.object.injEq, List.cons.injEq, Prod.mk.injEq, Json.string.injEq,
    true_and, and_true] at h
  obtain ⟨rfl, hattributes⟩ := h
  rw [Json.map_injective Scalar.toJson_injective hattributes]

/-- A text that may be missing is kept. -/
theorem Json.optional_string_injective : Injective (Json.optional Json.string) :=
  Json.optional_injective Json.string_injective nofun

/-- An unset flag is told apart from one that is set, to true or to false. -/
theorem Json.optional_bool_injective : Injective (Json.optional Json.bool) :=
  Json.optional_injective Json.bool_injective nofun

theorem Decoration.toJson_injective : Injective Decoration.toJson := by
  rintro ⟨id, innerName, priority⟩ ⟨id', innerName', priority'⟩ h
  simp only [toJson, Json.object.injEq, List.cons.injEq, Prod.mk.injEq, Json.string.injEq,
    true_and, and_true] at h
  obtain ⟨rfl, hinner, hpriority⟩ := h
  rw [Json.optional_string_injective hinner, Json.int_injective hpriority]

theorem Deprecation.toJson_injective : Injective Deprecation.toJson := by
  rintro ⟨message⟩ ⟨message'⟩ h
  simp only [toJson, Json.object.injEq, List.cons.injEq, Prod.mk.injEq, true_and, and_true] at h
  rw [Json.optional_string_injective h]

theorem Alias.toJson_injective : Injective Alias.toJson := by
  rintro ⟨target, isPublic⟩ ⟨target', isPublic'⟩ h
  simp only [toJson, Json.object.injEq, List.cons.injEq, Prod.mk.injEq, Json.string.injEq,
    Json.bool.injEq, true_and, and_true] at h
  obtain ⟨rfl, rfl⟩ := h
  rfl

theorem Callable.toJson_ne_null (c : Callable) : c.toJson ≠ .null := by
  cases c <;> simp [toJson, Json.tagged]

/-! ## Definitions and graphs -/

theorem Definition.toJson_injective : Injective Definition.toJson := by
  intro d d' h
  have hcallable : Injective (Json.optional Callable.toJson) :=
    Json.optional_injective Callable.toJson_injective Callable.toJson_ne_null
  have hdecoration : Injective (Json.optional Decoration.toJson) :=
    Json.optional_injective Decoration.toJson_injective fun _ h => nomatch h
  have hdeprecation : Injective (Json.optional Deprecation.toJson) :=
    Json.optional_injective Deprecation.toJson_injective nofun
  have hstring := @Json.optional_string_injective
  have hflag := @Json.optional_bool_injective
  cases d
  cases d'
  simp only [toJson, Json.object.injEq, List.cons.injEq, Prod.mk.injEq, true_and, and_true] at h
  obtain ⟨parent, className, shared, isLazy, isPublic, isAbstract, synthetic, autowire, factory,
    configurator, file, arguments, properties, calls, tags, decoration, deprecation,
    autowiringTypes⟩ := h
  simp only [Definition.mk.injEq]
  exact ⟨hstring parent, hstring className, hflag shared, hflag isLazy, hflag isPublic,
    hflag isAbstract, hflag synthetic, hflag autowire, hcallable factory, hcallable configurator,
    hstring file, Json.list_injective Value.toJson_injective arguments,
    Json.map_injective Value.toJson_injective properties,
    Json.list_injective MethodCall.toJson_injective calls,
    Json.list_injective Tag.toJson_injective tags, hdecoration decoration,
    hdeprecation deprecation, Json.list_injective Json.string_injective autowiringTypes⟩

/-- The JSON form of a compiled graph loses nothing: it is the same for two graphs only if they
have the same parameters, definitions, aliases and documents, each in the same order. Numbers that
are not integers are finite here and have forms of their own, so graphs may hold them. -/
theorem CompiledGraph.toJson_eq_iff (g h : CompiledGraph) : g.toJson = h.toJson ↔ g = h := by
  constructor
  · intro heq
    have hpath : Injective fun p : Path => Json.string p.text := by
      rintro ⟨text⟩ ⟨text'⟩ hp
      exact congrArg Path.mk (Json.string.inj hp)
    obtain ⟨parameters, definitions, aliases, resources⟩ := g
    obtain ⟨parameters', definitions', aliases', resources'⟩ := h
    simp only [toJson, Json.object.injEq, List.cons.injEq, Prod.mk.injEq, true_and, and_true]
      at heq
    obtain ⟨hparameters, hdefinitions, haliases, hresources⟩ := heq
    rw [Json.map_injective Value.toJson_injective hparameters,
      Json.map_injective Definition.toJson_injective hdefinitions,
      Json.map_injective Alias.toJson_injective haliases, Json.list_injective hpath hresources]
  · intro heq
    exact congrArg toJson heq

end ServiceGraph
