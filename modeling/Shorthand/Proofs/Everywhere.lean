import Shorthand.Node

/-!
# All nodes of a tree

What holds of a node and of all nodes below it. It can be decided if it can be decided of a node.
-/

namespace Shorthand

namespace Node

/-- A node and all nodes below it satisfy `P`. -/
inductive Everywhere (P : Node → Prop) : Node → Prop
  | intro {n : Node} : P n → (∀ c ∈ n.children, Everywhere P c) → Everywhere P n

theorem everywhere_iff {P : Node → Prop} {n : Node} :
    n.Everywhere P ↔ P n ∧ ∀ c ∈ n.children, c.Everywhere P :=
  ⟨fun | .intro h hc => ⟨h, hc⟩, fun h => .intro h.1 h.2⟩

mutual

def decidableEverywhere (P : Node → Prop) [DecidablePred P] : ∀ n : Node, Decidable (n.Everywhere P)
  | ⟨tag, id, classes, attributes, text, children⟩ =>
    have := decidableForest P children
    decidable_of_iff (P ⟨tag, id, classes, attributes, text, children⟩
      ∧ ∀ c ∈ children, c.Everywhere P) everywhere_iff.symm

def decidableForest (P : Node → Prop) [DecidablePred P] :
    ∀ ns : List Node, Decidable (∀ n ∈ ns, n.Everywhere P)
  | [] => .isTrue (by simp)
  | n :: ns =>
    have := decidableEverywhere P n
    have := decidableForest P ns
    decidable_of_iff (n.Everywhere P ∧ ∀ k ∈ ns, k.Everywhere P) List.forall_mem_cons.symm

end

instance (P : Node → Prop) [DecidablePred P] (ns : List Node) :
    Decidable (∀ n ∈ ns, n.Everywhere P) :=
  decidableForest P ns

theorem Everywhere.here {P : Node → Prop} {n : Node} : n.Everywhere P → P n
  | .intro h _ => h

/-- What follows at one node follows at all of them. -/
theorem Everywhere.imp {P Q : Node → Prop} (hpq : ∀ n, P n → Q n) {n : Node}
    (h : n.Everywhere P) : n.Everywhere Q := by
  induction h with
  | @intro n h _ ih => exact .intro (hpq n h) ih

end Node

end Shorthand
