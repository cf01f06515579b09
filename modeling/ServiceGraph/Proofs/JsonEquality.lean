import ServiceGraph.Document.Basic

/-!
# Comparing JSON trees

`Json.same` compares two trees node by node, and holds of equal trees only (`Json.same_iff`). So
equality of trees, and with it equality of documents, can be decided by evaluation.
-/

set_option autoImplicit false

namespace ServiceGraph

namespace Json

mutual

/-- Whether two trees are the same, node by node. -/
def same : Json → Json → Bool
  | .null, .null => true
  | .bool a, .bool b => decide (a = b)
  | .number a, .number b => decide (a = b)
  | .string a, .string b => decide (a = b)
  | .array xs, .array ys => sameItems xs ys
  | .object ms, .object ns => sameMembers ms ns
  | _, _ => false

/-- Whether two lists of trees are the same. -/
def sameItems : List Json → List Json → Bool
  | [], [] => true
  | x :: xs, y :: ys => same x y && sameItems xs ys
  | _, _ => false

/-- Whether two lists of members are the same, keys and values in the same order. -/
def sameMembers : List (String × Json) → List (String × Json) → Bool
  | [], [] => true
  | (k, x) :: ms, (j, y) :: ns => decide (k = j) && same x y && sameMembers ms ns
  | _, _ => false

end

mutual

theorem same_iff : ∀ a b : Json, same a b = true ↔ a = b
  | .null, b => by cases b <;> simp [same]
  | .bool _, b => by cases b <;> simp [same]
  | .number _, b => by cases b <;> simp [same]
  | .string _, b => by cases b <;> simp [same]
  | .array xs, b => by
      cases b with
      | array ys => rw [same, sameItems_iff xs ys, Json.array.injEq]
      | _ => simp [same]
  | .object ms, b => by
      cases b with
      | object ns => rw [same, sameMembers_iff ms ns, Json.object.injEq]
      | _ => simp [same]

theorem sameItems_iff : ∀ xs ys : List Json, sameItems xs ys = true ↔ xs = ys
  | [], [] => by simp [sameItems]
  | [], _ :: _ => by simp [sameItems]
  | _ :: _, [] => by simp [sameItems]
  | x :: xs, y :: ys => by
      rw [sameItems, Bool.and_eq_true, same_iff x y, sameItems_iff xs ys, List.cons.injEq]

theorem sameMembers_iff : ∀ ms ns : List (String × Json), sameMembers ms ns = true ↔ ms = ns
  | [], [] => by simp [sameMembers]
  | [], _ :: _ => by simp [sameMembers]
  | (_, _) :: _, [] => by simp [sameMembers]
  | (k, x) :: ms, (j, y) :: ns => by
      rw [sameMembers, Bool.and_eq_true, Bool.and_eq_true, decide_eq_true_iff, same_iff x y,
        sameMembers_iff ms ns, List.cons.injEq, Prod.mk.injEq]

end

instance : DecidableEq Json := fun a b => decidable_of_iff (same a b = true) (same_iff a b)

end Json

deriving instance DecidableEq for Document

end ServiceGraph
