import Shorthand.Proofs.Concatenation
import Shorthand.Proofs.Conservation
import Shorthand.Proofs.Label
import Shorthand.Proofs.Trimming

/-!
# Groups and levels

What marks come to is told level by level (`gives_single`), and a group comes to what is inside of
it (`levelGives_pair`). So a group under a leaf gives the leaf its forest as children, a group alone
is its forest if that is a single tree, and the sign for a new level associates to the right
(`expand_nested`).
-/

namespace Shorthand

theorem node_eq_ok_iff {defaultTag : Text} {e : Option Text} {source : Text}
    {levels : List Segment} {n : Node} : (Chain.mk source levels).node defaultTag e = .ok n ↔
      ∃ root rest, List.Forall₂ (fun s ns => s.nodes defaultTag e = .ok ns) levels ([root] :: rest)
        ∧ nest root rest = .ok n := by
  simp only [Chain.node, bind_eq_ok_iff, levelNodes_eq_mapM, mapM_eq_ok_iff, composeChain_eq_ok_iff]
  constructor
  · rintro ⟨nss, h, root, rest, rfl, hn⟩
    exact ⟨root, rest, h, hn⟩
  · rintro ⟨root, rest, h, hn⟩
    exact ⟨_, h, root, rest, rfl, hn⟩

/-! ### Marks and their forests -/

namespace Mark

section

variable (defaultTag : Text)

/-- Marks without a blank place, and what their tree is evaluated to. -/
def Gives (ms : List Mark) (ns : List Node) : Prop :=
  (∀ p ∈ places ms, p.Filled) ∧ chainNodes defaultTag none (tree ms) = .ok ns

/-- A level without a blank place, and the nodes that come out of it. -/
def LevelGives (level : List Mark) (ns : List Node) : Prop :=
  (level ≠ [] ∧ ∀ p ∈ levelPlaces level, p.Filled)
    ∧ (segment level).nodes defaultTag none = .ok ns

variable {defaultTag} {ms inner level s : List Mark} {ns : List Node}

theorem levelGives_pair : LevelGives defaultTag [.pair inner] ns ↔ Gives defaultTag inner ns := by
  have hne : [Mark.pair inner] ≠ [] := List.cons_ne_nil _ _
  unfold LevelGives Gives
  rw [and_iff_right hne]
  rfl

theorem LevelGives.of_leaf (h : LevelGives defaultTag level ns) (hl : inside? level = none) :
    ∃ n, n.children = [] ∧ ns = [n] := by
  obtain ⟨-, h⟩ := h
  rw [segment, hl, nodes_leaf] at h
  obtain ⟨n, hn, h⟩ := bind_eq_ok_iff.1 ((bind_pure_comp _ _).trans h)
  exact ⟨n, Leaf.children_expand (mapError_eq_ok_iff.1 hn), (Except.ok.inj h).symm⟩

theorem forall₂_levelGives_iff {ls : List (List Mark)} {nss : List (List Node)} :
    List.Forall₂ (LevelGives defaultTag) ls nss ↔
      (∀ l ∈ ls, l ≠ [] ∧ ∀ p ∈ levelPlaces l, p.Filled)
        ∧ List.Forall₂ (fun l ns => (segment l).nodes defaultTag none = .ok ns) ls nss :=
  List.forall₂_and_left ls nss

theorem filled_single_iff (h : .char '+' ∉ ms) : (∀ p ∈ places ms, p.Filled) ↔
    ∀ l ∈ levels ms, l ≠ [] ∧ ∀ p ∈ levelPlaces l, p.Filled := by
  rw [filled_places_iff, siblings_eq_singleton h, List.forall_mem_singleton,
    filled_chainPlaces_iff, levels_trim, and_iff_right_iff_imp]
  intro hl
  rw [← levels_trim] at hl
  exact ne_nil_of_levels fun l hm => (hl l hm).1

/-- A single sibling is composed of what comes out of its levels. -/
theorem gives_single (h : .char '+' ∉ ms) : Gives defaultTag ms ns ↔
    ∃ root rest n, List.Forall₂ (LevelGives defaultTag) (levels ms) ([root] :: rest)
      ∧ nest root rest = .ok n ∧ ns = [n] := by
  have hnodes : chainNodes defaultTag none (tree ms) = .ok ns ↔
      ∃ n, (chainOf (trim ms)).node defaultTag none = .ok n ∧ ns = [n] := by
    rw [tree_eq, siblings_eq_singleton h, List.map_singleton, chainNodes_eq_mapM, mapM_eq_ok_iff]
    constructor
    · rintro (_ | ⟨hn, _ | _⟩)
      exact ⟨_, hn, rfl⟩
    · rintro ⟨n, hn, rfl⟩
      exact .cons hn .nil
  unfold Gives
  simp only [filled_single_iff h, hnodes, chainOf, levels_trim, node_eq_ok_iff,
    List.forall₂_map_left_iff, forall₂_levelGives_iff]
  constructor
  · rintro ⟨hl, n, ⟨root, rest, hr, hn⟩, rfl⟩
    exact ⟨root, rest, n, ⟨hl, hr⟩, hn, rfl⟩
  · rintro ⟨root, rest, n, ⟨hl, hr⟩, hn, rfl⟩
    exact ⟨hl, n, ⟨root, rest, hr, hn⟩, rfl⟩

end

end Mark

/-! ### Expressions and their marks -/

theorem Mark.matched_sources {ms : List Mark} (h : ∀ m ∈ ms, m.Balanced) :
    (sources ms).Matched := by
  unfold Text.Matched
  rw [read_sources_of_balanced h]
  intro m hm
  rcases h m hm with ⟨ho, hc⟩ | _
  · simp [isStray, ho, hc]
  · rfl

/-- Marks outside of all parentheses are not blank, and so not affected by normalizing. -/
theorem Text.Matched.mem_read_normalize {t : Text} (h : t.Matched) {c : CodePoint}
    (hc : isBlank c = false) (ho : c ≠ '(') (hcl : c ≠ ')') :
    .char c ∈ Mark.read (normalize t) → .char c ∈ Mark.read t := by
  intro hm
  have hb := (matched_normalize.2 h).balanced
  obtain ⟨ms, ns, hread⟩ := List.append_of_mem hm
  rw [hread, List.forall_mem_append, List.forall_mem_cons] at hb
  have hsource := Mark.sources_read (normalize t)
  rw [hread, Mark.sources_append] at hsource
  obtain ⟨u, v, rfl, hu, hv⟩ := exists_of_normalize_eq hc hsource.symm
  have hum : Matched u := matched_normalize.1 (hu ▸ Mark.matched_sources hb.1)
  have hvm : Matched v := matched_normalize.1 (hv ▸ Mark.matched_sources hb.2.2)
  rw [hum.read_append_cons hvm ho hcl]
  simp

section

variable {s : Settings} (h : ∀ p ∈ s.placeholderBase, isSafeBase p = true) {t : Text}
  {ms : List Mark} (hm : ∀ m ∈ ms, m.Balanced) (ht : Text.normalize t = Mark.sources ms)

include h hm ht

theorem expand_eq_ok_iff {drawn : Nat} {ns : List Node} :
    expand s t drawn = .ok ns ↔ Mark.Gives s.defaultTag ms ns := by
  unfold Mark.Gives
  rw [expand_eq h, ht, expandMarks_eq_ok_iff (Mark.matched_sources hm),
    Mark.read_sources_of_balanced hm, Mark.tree_eq, chainNodes_eq_mapM, List.mapM_map]
  rfl

theorem expand_of_filled (hf : ∀ p ∈ Mark.places ms, p.Filled) (drawn : Nat) :
    expand s t drawn = chainNodes s.defaultTag (some (Text.normalize t)) (Mark.tree ms) := by
  rw [expand_eq h, ht, expandMarks_of_check (check_of_matched (Mark.matched_sources hm) _),
    Mark.read_sources_of_balanced hm, (Mark.parse_eq_ok_iff _).2 ⟨hf, rfl⟩]
  rfl

end

/-! ### A leaf and an expression -/

theorem safe_of_expand {s : Settings} {source : Text} {drawn : Nat} {ns : List Node}
    (h : expand s source drawn = .ok ns) : ∀ p ∈ s.placeholderBase, isSafeBase p = true := by
  obtain ⟨_, _, htokens, -⟩ := tree_of_expand h
  exact TokenSource.safe_of_forText htokens

theorem nest_forest {n : Node} (hn : n.children = []) {ns : List Node} (hns : ns ≠ []) :
    nest n [ns] = .ok { n with children := ns } := by
  obtain ⟨c, cs, rfl⟩ := List.exists_cons_of_ne_nil hns
  show Except.ok (n.adopt (c :: cs)) = _
  rw [Node.adopt, hn, List.nil_append]

theorem composeChain_of_many {e : Option Text} {source : Text} {roots : List Node}
    (h : 1 < roots.length) : composeChain e source [roots] =
      .error (.rejected ⟨.rootCount roots.length, e, some source⟩) := by
  rcases roots with _ | ⟨root, _ | ⟨other, roots⟩⟩
  · simp at h
  · simp at h
  · rfl

theorem Mark.Gives.length_eq {defaultTag : Text} {ms : List Mark} {ns : List Node}
    (h : Gives defaultTag ms ns) : ns.length = (siblings ms).length := by
  rw [length_chainNodes h.2, tree_eq, List.length_map]

theorem Mark.Gives.ne_nil {defaultTag : Text} {ms : List Mark} {ns : List Node}
    (h : Gives defaultTag ms ns) : ns ≠ [] := by
  rw [← List.length_pos_iff, h.length_eq]
  exact List.length_pos_iff.2 (siblings_ne_nil ms)

/-- The marks of a leaf text. -/
def leafMarks (l : Text) : List Mark :=
  (Text.normalize l).map .char

theorem notMem_leafMarks {l cs : Text} (h : l.Lacks cs) (hcs : ∀ c ∈ cs, Text.isBlank c = false) :
    ∀ c ∈ cs, .char c ∉ leafMarks l := by
  intro c hc hm
  obtain ⟨d, hd, he⟩ := List.mem_map.1 hm
  cases he
  exact h c hc ((Text.mem_normalize_iff (hcs c hc)).1 hd)

theorem balanced_leafMarks {l : Text} (ho : .char '(' ∉ leafMarks l)
    (hc : .char ')' ∉ leafMarks l) : ∀ m ∈ leafMarks l, m.Balanced := by
  intro m hm
  obtain ⟨c, -, rfl⟩ := List.mem_map.1 hm
  exact .char (fun h => ho (h ▸ hm)) fun h => hc (h ▸ hm)

theorem normalize_group (b : Text) : Text.normalize ("(" ++ b ++ ")") =
    Mark.sources [.pair (Mark.read (Text.normalize b))] := by
  have hopen := Text.normalize_append_cons (c := .char '(') (by decide) [] (b ++ [.char ')'])
  have hclose := Text.normalize_append_cons (c := .char ')') (by decide) b []
  rw [hclose] at hopen
  refine Eq.trans ?_ (hopen.trans ?_)
  · rfl
  · simp [Mark.sources_read, Text.normalize, Text.collapse]

theorem normalize_under (l t : Text) : Text.normalize (l ++ ">" ++ t) =
    Mark.sources (leafMarks l ++ .char '>' :: Mark.read (Text.normalize t)) := by
  have hgt := Text.normalize_append_cons (c := .char '>') (by decide) l t
  rw [Mark.sources_append, Mark.sources_cons, Mark.sources_read, leafMarks, Mark.sources_map_char,
    List.append_assoc]
  exact hgt

section

variable {s : Settings} (h : ∀ p ∈ s.placeholderBase, isSafeBase p = true) {b : Text}
  (hb : b.Matched) {ns : List Node}

include hb in
theorem balanced_group : ∀ m ∈ [Mark.pair (Mark.read (Text.normalize b))], m.Balanced :=
  List.forall_mem_singleton.2 (.pair (Text.matched_normalize.2 hb).balanced)

include hb in
theorem read_group : Mark.read (Text.normalize ("(" ++ b ++ ")")) =
    [.pair (Mark.read (Text.normalize b))] := by
  rw [normalize_group]
  exact Mark.read_sources_of_balanced (balanced_group hb)

include h hb

theorem gives_of_expand {j : Nat} (hns : expand s b j = .ok ns) :
    Mark.Gives s.defaultTag (Mark.read (Text.normalize b)) ns :=
  (expand_eq_ok_iff h (Text.matched_normalize.2 hb).balanced (Mark.sources_read _).symm).1 hns

theorem expand_group_single {j k : Nat} {n : Node} (hn : expand s b j = .ok [n]) :
    expand s ("(" ++ b ++ ")") k = .ok [n] := by
  have hgives := Mark.levelGives_pair.2 (gives_of_expand h hb hn)
  rw [expand_eq_ok_iff h (balanced_group hb) (normalize_group b), Mark.gives_single (by simp),
    Mark.levels_pair]
  exact ⟨n, [], n, .cons hgives .nil, rfl, rfl⟩

/-- The tree of a group alone can be parsed, but its chain has too many nodes for a root. -/
theorem expand_group_many {j k : Nat} (hns : expand s b j = .ok ns) (hmany : 1 < ns.length) :
    let text := Text.normalize ("(" ++ b ++ ")")
    expand s ("(" ++ b ++ ")") k =
      .error (.rejected ⟨.rootCount ns.length, some text, some text⟩) := by
  intro text
  have hgives := gives_of_expand h hb hns
  have hfilled : ∀ p ∈ Mark.places [Mark.pair (Mark.read (Text.normalize b))], p.Filled := by
    rw [Mark.filled_single_iff (by simp), Mark.levels_pair, List.forall_mem_singleton]
    exact (Mark.levelGives_pair.2 hgives).1
  have hlevel : chainNodes s.defaultTag (some text) (Mark.tree (Mark.read (Text.normalize b)))
      = .ok ns := by
    rw [chainNodes_about, mapError_eq_ok_iff]
    exact hgives.2
  have htree : Mark.tree [Mark.pair (Mark.read (Text.normalize b))]
      = [⟨text, [.group [] (Mark.tree (Mark.read (Text.normalize b)))]⟩] := by
    rw [Mark.tree_eq, Mark.siblings_eq_singleton (by simp), List.map_singleton, Mark.chainOf,
      Mark.levels_trim, Mark.levels_pair]
    show [Chain.mk (Mark.sources [_]) _] = _
    rw [← normalize_group]
    rfl
  rw [expand_of_filled h (balanced_group hb) (normalize_group b) hfilled, htree, chainNodes,
    Chain.node, levelNodes, Segment.nodes, hlevel]
  show composeChain _ _ [ns] >>= _ = _
  rw [composeChain_of_many hmany]
  rfl

end

section

variable {s : Settings} (h : ∀ p ∈ s.placeholderBase, isSafeBase p = true) {l : Text}
  (hl : l.Lacks ['+', '>', '(', ')']) {n : Node} {i : Nat} (hn : expand s l i = .ok [n])

include h hl hn

/-- A leaf text is a single level, which comes to a node without children. -/
theorem levelGives_leafMarks : n.children = [] ∧
    List.Forall₂ (Mark.LevelGives s.defaultTag) (Mark.levels (leafMarks l)) [[n]] := by
  have hnone := notMem_leafMarks hl (by decide)
  have hlevels := Mark.levels_eq_singleton (hnone (.char '>') (by simp))
  have hbal := balanced_leafMarks (hnone (.char '(') (by simp)) (hnone (.char ')') (by simp))
  rw [expand_eq_ok_iff h hbal (Mark.sources_map_char _).symm,
    Mark.gives_single (hnone (.char '+') (by simp)), hlevels] at hn
  obtain ⟨root, rest, _, _ | ⟨hlevel, _ | _⟩, hnest, hns⟩ := hn
  obtain rfl : root = n := (Except.ok.inj hnest).trans (List.cons.inj hns).1.symm
  obtain ⟨m, hm, he⟩ := hlevel.of_leaf
    (by rw [leafMarks, Mark.trim_map_char, Mark.inside?_map_char])
  obtain rfl : root = m := (List.cons.inj he).1
  exact ⟨hm, hlevels ▸ .cons hlevel .nil⟩

theorem expand_under {t : Text} (ht : t.Matched)
    (hplus : .char '+' ∉ Mark.read (Text.normalize t)) {nss : List (List Node)} {m : Node}
    (hnss : List.Forall₂ (Mark.LevelGives s.defaultTag)
      (Mark.levels (Mark.read (Text.normalize t))) nss)
    (hm : nest n nss = .ok m) (k : Nat) : expand s (l ++ ">" ++ t) k = .ok [m] := by
  have hnone := notMem_leafMarks hl (by decide)
  have hbal := balanced_leafMarks (hnone (.char '(') (by simp)) (hnone (.char ')') (by simp))
  have hmarks : ∀ m ∈ leafMarks l ++ .char '>' :: Mark.read (Text.normalize t), m.Balanced :=
    List.forall_mem_append.2 ⟨hbal, List.forall_mem_cons.2
      ⟨.char (by decide) (by decide), (Text.matched_normalize.2 ht).balanced⟩⟩
  have hsingle : .char '+' ∉ leafMarks l ++ .char '>' :: Mark.read (Text.normalize t) := by
    simpa [hplus] using hnone (.char '+') (by simp)
  rw [expand_eq_ok_iff h hmarks (normalize_under l t), Mark.gives_single hsingle,
    Mark.levels_append_gt]
  exact ⟨n, nss, m, List.rel_append (levelGives_leafMarks h hl hn).2 hnss, hm, rfl⟩

end

/-- The nodes of a group become the children of the leaf over it. A group alone is what is in it,
which has to be a single node. A chain under a leaf is the same with parentheses around it. -/
theorem expand_nested {s : Settings} {l b : Text} (hl : l.Lacks ['+', '>', '(', ')'])
    (hb : b.Matched) {n : Node} {ns : List Node} {i j : Nat}
    (hn : expand s l i = .ok [n]) (hns : expand s b j = .ok ns) (k m : Nat) :
    expand s (l ++ ">(" ++ b ++ ")") k = .ok [{ n with children := ns }]
      ∧ (ns.length = 1 → expand s ("(" ++ b ++ ")") k = .ok ns)
      ∧ (1 < ns.length → ∃ r, expand s ("(" ++ b ++ ")") k = .error (.rejected r)
        ∧ r.problem = .rootCount ns.length ∧ r.problem.code = "E_INVALID_EXPRESSION")
      ∧ (.char '+' ∉ Mark.read b →
        expand s (l ++ ">" ++ b) m = expand s (l ++ ">(" ++ b ++ ")") k) := by
  have h := safe_of_expand hn
  have hgives := gives_of_expand h hb hns
  have hchildren := (levelGives_leafMarks h hl hn).1
  have hgroup : expand s (l ++ ">(" ++ b ++ ")") k = .ok [{ n with children := ns }] := by
    have htext : l ++ ">(" ++ b ++ ")" = l ++ ">" ++ ("(" ++ b ++ ")" : Text) := by
      simp [Text.ofString]
    have hmatched : Text.Matched ("(" ++ b ++ ")") := by
      rw [← Text.matched_normalize, normalize_group]
      exact Mark.matched_sources (balanced_group hb)
    rw [htext]
    refine expand_under h hl hn hmatched ?_ ?_ (nest_forest hchildren hgives.ne_nil) k
    · rw [read_group hb]
      simp
    · rw [read_group hb, Mark.levels_pair]
      exact .cons (Mark.levelGives_pair.2 hgives) .nil
  refine ⟨hgroup, fun hone => ?_, fun hmany => ?_, fun hplus => ?_⟩
  · obtain ⟨c, rfl⟩ := List.length_eq_one_iff.1 hone
    exact expand_group_single h hb hns
  · exact ⟨_, expand_group_many h hb hns hmany, rfl, rfl⟩
  · -- The levels of `b` are composed to the only node of its forest, under `n` as well.
    have hplus : .char '+' ∉ Mark.read (Text.normalize b) :=
      mt (hb.mem_read_normalize (by decide) (by decide) (by decide)) hplus
    obtain ⟨root, rest, c, hlevels, hc, rfl⟩ := (Mark.gives_single hplus).1 hgives
    rw [hgroup]
    refine expand_under h hl hn hb hplus hlevels ?_ m
    rw [nest, hc]
    show Except.ok (n.adopt [c]) = _
    rw [Node.adopt, hchildren, List.nil_append]

theorem expand_nested_of_chain : Text.Lacks " x.y\t[a=b] " ['+', '>', '(', ')']
    ∧ Text.Matched " (a > (b + c)) > (d + e) "
    ∧ .char '+' ∉ Mark.read " (a > (b + c)) > (d + e) "
    ∧ ∃ n c, expand { placeholderBase := some "p" } " x.y\t[a=b] " = .ok [n]
      ∧ expand { placeholderBase := some "p" } " (a > (b + c)) > (d + e) " = .ok [c]
      ∧ expand { placeholderBase := some "p" }
          (Text.ofString " x.y\t[a=b] " ++ ">(" ++ " (a > (b + c)) > (d + e) " ++ ")")
        = .ok [{ n with children := [c] }]
      ∧ expand { placeholderBase := some "p" }
          (Text.ofString " x.y\t[a=b] " ++ ">" ++ " (a > (b + c)) > (d + e) ")
        = .ok [{ n with children := [c] }]
      ∧ expand { placeholderBase := some "p" }
          ("(" ++ Text.ofString " (a > (b + c)) > (d + e) " ++ ")") = .ok [c] := by
  have hl : Text.Lacks " x.y\t[a=b] " ['+', '>', '(', ')'] := by decide +kernel
  have hb : Text.Matched " (a > (b + c)) > (d + e) " := by decide +kernel
  have hchars : ∀ m ∈ Mark.read " (a > (b + c)) > (d + e) ", m.isChar '+' = false := by
    decide +kernel
  have hplus : .char '+' ∉ Mark.read " (a > (b + c)) > (d + e) " :=
    fun hm => absurd (hchars _ hm) (by decide)
  have hsingle {x : Except Failure (List Node)} (hx : x.toOption.map List.length = some 1) :
      ∃ n, x = .ok [n] := by
    rcases x with failure | ns
    · cases hx
    · obtain ⟨n, rfl⟩ := List.length_eq_one_iff.1 (Option.some.inj hx)
      exact ⟨n, rfl⟩
  obtain ⟨n, hn⟩ : ∃ n, expand { placeholderBase := some "p" } " x.y\t[a=b] " = .ok [n] :=
    hsingle (by decide +kernel)
  obtain ⟨c, hc⟩ :
      ∃ c, expand { placeholderBase := some "p" } " (a > (b + c)) > (d + e) " = .ok [c] :=
    hsingle (by decide +kernel)
  obtain ⟨hunder, halone, -, hright⟩ :=
    expand_nested (s := { placeholderBase := some "p" }) hl hb hn hc 0 0
  exact ⟨hl, hb, hplus, n, c, hn, hc, hunder, (hright hplus).trans hunder, halone rfl⟩

end Shorthand
