import Shorthand.Proofs.UnclosedNames

/-!
# Attributes of elements

An element is its node with the attributes resolved (`Shows`): what the node says about attributes
is listed once for each name, in the place of the first mention and with the value of the last one.
A node that says just that, and has neither identifier nor classes, is the same element
(`Resolved`, `Resolved.shows`).
-/

namespace Shorthand

/-- All that a node says about attributes: its identifier, unless that is empty, then its classes,
if there are some, then its attributes. -/
def Node.assigned (n : Node) : List (Text × Text) :=
  let identifier : List (Text × Text) := match n.id with
    | some (c :: r) => [("id", c :: r)]
    | _ => []
  let classes : List (Text × Text) := match n.classes with
    | [] => []
    | c :: cs => [("class", (" " : Text).intercalate (c :: cs))]
  identifier ++ classes ++ n.attributes

namespace Element

/-- A node and its element: the same tag, the same children in the same order, and each attribute
once. -/
inductive Shows : Node → Element → Prop
  | intro {n : Node} {attributes : List (Text × Text)} {children : List Element} :
    (attributes.map (·.1)).Nodup → LastWins n.assigned attributes →
    List.Forall₂ Shows n.children children →
    Shows n ⟨n.tag, attributes, nonEmpty n.text, children⟩

/-- A node and what it is if its attributes are resolved, at every depth. -/
inductive Resolved : Node → Node → Prop
  | intro {n : Node} {attributes : List (Text × Text)} {children : List Node} :
    LastWins n.assigned attributes → List.Forall₂ Resolved n.children children →
    Resolved n ⟨n.tag, none, [], attributes, n.text, children⟩

theorem ofNode_eq (n : Node) :
    ofNode n = ⟨n.tag, Entries.putAll n.assigned, nonEmpty n.text, ofNodes n.children⟩ := by
  obtain ⟨tag, _ | (_ | ⟨i, r⟩), _ | ⟨c, cs⟩, attributes, text, children⟩ := n <;> rfl

mutual

theorem shows_ofNode : ∀ n : Node, Shows n (ofNode n)
  | ⟨tag, id, classes, attributes, text, children⟩ => by
    rw [ofNode_eq]
    exact .intro (LastWins.putAll _).nodup (LastWins.putAll _) (forall₂_ofNodes children)

theorem forall₂_ofNodes : ∀ ns : List Node, List.Forall₂ Shows ns (ofNodes ns)
  | [] => .nil
  | n :: ns => .cons (shows_ofNode n) (forall₂_ofNodes ns)

end

mutual

/-- Nothing else is the element of a node. -/
theorem Shows.eq : ∀ {n : Node} {e : Element}, Shows n e → e = ofNode n
  | ⟨tag, id, classes, attributes, text, children⟩, _, .intro _ hattributes hchildren => by
    rw [ofNode_eq, hattributes.unique (LastWins.putAll _), eq_ofNodes hchildren]

theorem eq_ofNodes : ∀ {ns : List Node} {es : List Element}, List.Forall₂ Shows ns es →
    es = ofNodes ns
  | [], [], .nil => rfl
  | _ :: _, _ :: _, .cons h hs => by rw [ofNodes, h.eq, eq_ofNodes hs]

end

mutual

theorem Resolved.shows : ∀ {n m : Node} {e : Element}, Resolved n m → Shows n e → Shows m e
  | ⟨_, _, _, _, _, _⟩, _, _, .intro hresolved hbelow, .intro hnodup hattributes hchildren => by
    rw [← hresolved.unique hattributes] at hnodup ⊢
    exact .intro hnodup (.of_nodup hnodup) (forall₂_shows hbelow hchildren)

theorem forall₂_shows : ∀ {ns ms : List Node} {es : List Element}, List.Forall₂ Resolved ns ms →
    List.Forall₂ Shows ns es → List.Forall₂ Shows ms es
  | [], [], [], .nil, .nil => .nil
  | _ :: _, _ :: _, _ :: _, .cons hr hrs, .cons h hs => .cons (hr.shows h) (forall₂_shows hrs hs)

end

mutual

theorem exists_resolved : ∀ n : Node, ∃ m, Resolved n m
  | ⟨tag, id, classes, attributes, text, children⟩ => by
    obtain ⟨below, hbelow⟩ := exists_forall₂_resolved children
    exact ⟨_, .intro (LastWins.putAll _) hbelow⟩

theorem exists_forall₂_resolved : ∀ ns : List Node, ∃ ms, List.Forall₂ Resolved ns ms
  | [] => ⟨[], .nil⟩
  | n :: ns => by
    obtain ⟨m, hm⟩ := exists_resolved n
    obtain ⟨ms, hms⟩ := exists_forall₂_resolved ns
    exact ⟨m :: ms, .cons hm hms⟩

end

/-- The element of a node has each attribute once, in the place of the first mention and with the
value of the last one, at every depth. It does not change if the attributes are resolved before,
those of the node only or all. -/
theorem ofNode_lastWins (n : Node) :
    (∀ e, Shows n e ↔ e = ofNode n)
      ∧ (∀ attributes, LastWins n.assigned attributes →
          ofNode { n with id := none, classes := [], attributes := attributes } = ofNode n)
      ∧ (∃ m, Resolved n m) ∧ ∀ m, Resolved n m → ofNode m = ofNode n := by
  refine ⟨fun e => ⟨Shows.eq, fun h => h ▸ shows_ofNode n⟩, fun attributes h => ?_,
    exists_resolved n, fun m h => (h.shows (shows_ofNode n)).eq.symm⟩
  have hagain : attributes = Entries.putAll attributes :=
    (LastWins.of_nodup h.nodup).unique (LastWins.putAll attributes)
  have hassigned : Node.assigned { n with id := none, classes := [], attributes := attributes } =
    attributes := rfl
  rw [ofNode_eq, ofNode_eq, hassigned, ← hagain, h.unique (LastWins.putAll n.assigned)]

/-- The identifier keeps its place and takes the value of an attribute. -/
example : Entries.putAll
      (Node.assigned ⟨"i", some "a", ["b", "c"], [("x", "1"), ("id", "d")], none, []⟩) =
    ([("id", "d"), ("class", "b c"), ("x", "1")] : List (Text × Text)) := by
  decide

end Element

end Shorthand
