import Mathlib.Algebra.Order.Group.Multiset
import Shorthand.Expansion
import Shorthand.Proofs.Result

/-!
# No element is lost

The elements of a forest are its nodes, each without its children. Composing the levels of a chain
hangs nodes under other nodes and does nothing else to them, so the elements of what an expression
expands to are those of its leaves, each as often as its leaf occurs in the tree
(`expand_elements`).
-/

namespace Shorthand

open TokenSource

/-! ### Elements -/

mutual

/-- A node and all nodes below it, without their children, in pre-order. -/
def Node.elements : Node → List Node
  | ⟨tag, id, classes, attributes, text, children⟩ =>
    ⟨tag, id, classes, attributes, text, []⟩ :: forestElements children

def forestElements : List Node → List Node
  | [] => []
  | n :: ns => n.elements ++ forestElements ns

end

theorem forestElements_eq_flatMap (ns : List Node) :
    forestElements ns = ns.flatMap Node.elements := by
  induction ns with
  | nil => rfl
  | cons n ns ih => rw [forestElements, ih, List.flatMap_cons]

theorem Node.elements_eq (n : Node) : n.elements = n.bare :: n.children.flatMap Node.elements := by
  obtain ⟨tag, id, classes, attributes, text, children⟩ := n
  rw [elements, forestElements_eq_flatMap]
  rfl

theorem forestElements_append (ms ns : List Node) :
    forestElements (ms ++ ns) = forestElements ms ++ forestElements ns := by
  simp only [forestElements_eq_flatMap, List.flatMap_append]

theorem Node.elements_adopt (n : Node) (more : List Node) :
    (n.adopt more).elements = n.elements ++ forestElements more := by
  rw [elements_eq, elements_eq, bare_adopt, children_adopt, List.flatMap_append, List.cons_append,
    forestElements_eq_flatMap]

mutual

/-- The sources of the leaves in a segment, in order. -/
def Segment.leaves : Segment → List Text
  | .leaf source => [source]
  | .group _ body => chainsLeaves body

def Chain.leaves : Chain → List Text
  | ⟨_, levels⟩ => levelsLeaves levels

def chainsLeaves : List Chain → List Text
  | [] => []
  | c :: cs => c.leaves ++ chainsLeaves cs

def levelsLeaves : List Segment → List Text
  | [] => []
  | s :: ss => s.leaves ++ levelsLeaves ss

end

/-! ### Composition -/

/-- The first node of each level takes in the next level, so that every node finds one parent. -/
theorem elements_nest : ∀ {first n : Node} {levels : List (List Node)}, nest first levels = .ok n →
    (n.elements : Multiset Node) = first.elements + forestElements levels.flatten
  | first, n, [], h => by
    rw [← Except.ok.inj h]
    exact (add_zero _).symm
  | _, _, [] :: _, h => by cases h
  | first, n, (m :: ms) :: levels, h => by
    obtain ⟨child, hchild, hn⟩ := bind_eq_ok_iff.1 h
    rw [← Except.ok.inj hn, Node.elements_adopt, forestElements, List.flatten_cons,
      List.cons_append, forestElements, forestElements_append]
    simp only [← Multiset.coe_add, elements_nest hchild]
    rw [add_assoc, add_comm (forestElements ms : Multiset Node)]

theorem composeChain_eq_ok_iff {e : Option Text} {source : Text} {levels : List (List Node)}
    {n : Node} : composeChain e source levels = .ok n ↔
      ∃ root rest, levels = [root] :: rest ∧ nest root rest = .ok n := by
  rcases levels with _ | ⟨_ | ⟨root, _ | ⟨other, roots⟩⟩, rest⟩ <;> simp [composeChain, compose]

section

variable (defaultTag : Text) (e : Option Text)

/-- The elements of a forest are what these leaves expand to. -/
def Keeps (leaves : List Text) (ns : List Node) : Prop :=
  ∃ elements, leaves.mapM (Leaf.expand defaultTag e) = .ok elements
    ∧ (forestElements ns : Multiset Node) = elements

variable {defaultTag e}

theorem Keeps.append {xs ys : List Text} {ms ns : List Node} (hx : Keeps defaultTag e xs ms)
    (hy : Keeps defaultTag e ys ns) : Keeps defaultTag e (xs ++ ys) (ms ++ ns) := by
  obtain ⟨es, hes, hms⟩ := hx
  obtain ⟨fs, hfs, hns⟩ := hy
  refine ⟨es ++ fs, mapM_append_eq_ok_iff.2 ⟨es, fs, hes, hfs, rfl⟩, ?_⟩
  rw [forestElements_append, ← Multiset.coe_add, hms, hns, Multiset.coe_add]

theorem Leaf.children_expand {t : Text} {n : Node} (h : Leaf.expand defaultTag e t = .ok n) :
    n.children = [] := by
  unfold Leaf.expand at h
  dsimp only at h
  split at h
  all_goals
    obtain ⟨attributes, -, hn⟩ := bind_eq_ok_iff.1 h
    rw [← Except.ok.inj hn]

theorem Keeps.leaf {t : Text} {n : Node} (h : Leaf.expand defaultTag e t = .ok n) :
    Keeps defaultTag e [t] [n] := by
  have hn : forestElements [n] = [n] := by
    obtain ⟨tag, id, classes, attributes, text, children⟩ := n
    obtain rfl : children = [] := Leaf.children_expand h
    rfl
  refine ⟨[n], ?_, congrArg _ hn⟩
  rw [List.mapM_cons, h]
  rfl

mutual

theorem Segment.keeps : ∀ {s : Segment} {ns : List Node}, s.nodes defaultTag e = .ok ns →
    Keeps defaultTag e s.leaves ns
  | .leaf source, ns, h => by
    rw [Segment.nodes] at h
    split at h
    · rename_i n hn
      rw [← Except.ok.inj h]
      exact .leaf hn
    · cases h
  | .group _ body, ns, h => by
    rw [Segment.nodes] at h
    exact chainNodes_keeps h

theorem Chain.keeps : ∀ {c : Chain} {n : Node}, c.node defaultTag e = .ok n →
    Keeps defaultTag e c.leaves [n]
  | ⟨source, levels⟩, n, h => by
    rw [Chain.node] at h
    obtain ⟨nss, hnss, hn⟩ := bind_eq_ok_iff.1 h
    obtain ⟨root, rest, rfl, hnest⟩ := composeChain_eq_ok_iff.1 hn
    obtain ⟨elements, hleaves, helements⟩ := levelNodes_keeps hnss
    refine ⟨elements, hleaves, ?_⟩
    rw [← helements, forestElements, forestElements, List.append_nil, elements_nest hnest]
    rfl

theorem chainNodes_keeps : ∀ {cs : List Chain} {ns : List Node},
    chainNodes defaultTag e cs = .ok ns → Keeps defaultTag e (chainsLeaves cs) ns
  | [], ns, h => by
    rw [← Except.ok.inj h]
    exact ⟨[], rfl, rfl⟩
  | c :: cs, ns, h => by
    rw [chainNodes] at h
    obtain ⟨n, hn, h⟩ := bind_eq_ok_iff.1 h
    obtain ⟨ms, hms, h⟩ := bind_eq_ok_iff.1 h
    rw [← Except.ok.inj h]
    exact (Chain.keeps hn).append (chainNodes_keeps hms)

theorem levelNodes_keeps : ∀ {ss : List Segment} {nss : List (List Node)},
    levelNodes defaultTag e ss = .ok nss → Keeps defaultTag e (levelsLeaves ss) nss.flatten
  | [], nss, h => by
    rw [← Except.ok.inj h]
    exact ⟨[], rfl, rfl⟩
  | s :: ss, nss, h => by
    rw [levelNodes] at h
    obtain ⟨ns, hns, h⟩ := bind_eq_ok_iff.1 h
    obtain ⟨mss, hmss, h⟩ := bind_eq_ok_iff.1 h
    rw [← Except.ok.inj h]
    exact (Segment.keeps hns).append (levelNodes_keeps hmss)

end

/-- Each chain has one root. -/
theorem length_chainNodes : ∀ {cs : List Chain} {ns : List Node},
    chainNodes defaultTag e cs = .ok ns → ns.length = cs.length
  | [], ns, h => by
    rw [← Except.ok.inj h]
    rfl
  | c :: cs, ns, h => by
    rw [chainNodes] at h
    obtain ⟨n, -, h⟩ := bind_eq_ok_iff.1 h
    obtain ⟨ms, hms, h⟩ := bind_eq_ok_iff.1 h
    rw [← Except.ok.inj h, List.length_cons, length_chainNodes hms, List.length_cons]

end

/-! ### Expansion -/

/-- What an expression expands to is what the chains of its tree come to. -/
theorem tree_of_expand {s : Settings} {source : Text} {drawn : Nat} {ns : List Node}
    (h : expand s source drawn = .ok ns) :
    let text := Text.normalize source
    ∃ tokens chains, forText text s.placeholderBase drawn = .ok tokens
      ∧ (extract tokens text).tree (some text) = .ok chains
      ∧ chainNodes s.defaultTag (some text) chains = .ok ns := by
  intro text
  unfold expand run at h
  dsimp only at h
  split at h
  · cases h
  rename_i tokens htokens
  split at h
  · cases h
  unfold Extraction.evaluate at h
  dsimp only at h
  split at h
  · cases h
  rename_i chains hchains
  exact ⟨tokens, chains, htokens, hchains, h⟩

/-- The elements of what an expression expands to are what the leaves of its tree expand to, in some
order, and there is one root for each of its siblings. -/
theorem expand_elements {s : Settings} {source : Text} {drawn : Nat} {ns : List Node}
    (h : expand s source drawn = .ok ns) :
    let text := Text.normalize source
    ∃ tokens chains elements, forText text s.placeholderBase drawn = .ok tokens
      ∧ (extract tokens text).tree (some text) = .ok chains
      ∧ (chainsLeaves chains).mapM (Leaf.expand s.defaultTag (some text)) = .ok elements
      ∧ (forestElements ns : Multiset Node) = elements
      ∧ ns.length = chains.length := by
  obtain ⟨tokens, chains, htokens, hchains, hns⟩ := tree_of_expand h
  obtain ⟨elements, hleaves, helements⟩ := chainNodes_keeps hns
  exact ⟨tokens, chains, elements, htokens, hchains, hleaves, helements, length_chainNodes hns⟩

theorem expand_elements_of_wide_levels :
    ∃ ns, expand {} "a > (b + c) > (d.x > e + f#y) > g + (b > c)(h)" 3 = .ok ns
      ∧ let text := Text.normalize "a > (b + c) > (d.x > e + f#y) > g + (b > c)(h)"
        ∃ tokens chains elements, forText text none 3 = .ok tokens
          ∧ (extract tokens text).tree (some text) = .ok chains
          ∧ (chainsLeaves chains).mapM (Leaf.expand defaultTag (some text)) = .ok elements
          ∧ (forestElements ns : Multiset Node) = elements
          ∧ ns.length = chains.length := by
  have hok : (expand {} "a > (b + c) > (d.x > e + f#y) > g + (b > c)(h)" 3).isOk = true := by
    decide +kernel
  rcases h : expand {} "a > (b + c) > (d.x > e + f#y) > g + (b > c)(h)" 3 with failure | ns
  · rw [h] at hok
    cases hok
  · exact ⟨ns, rfl, expand_elements h⟩

end Shorthand
