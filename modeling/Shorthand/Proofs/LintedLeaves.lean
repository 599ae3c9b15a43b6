import Shorthand.Proofs.Fields
import Shorthand.Proofs.Findings
import Shorthand.Proofs.TreeLeaves

/-!
# The leaves that lint looks at

Lint cuts the flat text and every group at all operators. So it looks at the levels of a text and of
what is inside of any pair of its parentheses (`Reads.mem_leaves_iff`), and misses no leaf of the
tree (`lint_covers_leaves`). A pair may also be a part of a leaf, though, and then what lint takes
for leaves inside of it are none (`lint_beyond_leaves`).
-/

namespace Shorthand

open TokenSource

/-! ### Rules about leaves -/

/-- What is flawed in a leaf, for the rules that are about leaves. -/
def Flaw.FoundIn (leaf : Text) : Flaw → Prop
  | unbalanced .. => False
  | operatorInBlock _ => False
  | manyTexts => 1 < leaf.count (.char '{')
  | manyAttributeBlocks => .char '[' ∈ (Leaf.split leaf).selector
  | manyIds => ∃ front, Text.UpTo '.' (Leaf.split leaf).selector front
      ∧ 1 < front.count (.char '#')
  | emptyClass => ∃ piece ∈ ((Leaf.split leaf).selector.splitOn (.char '.')).tail,
      ∀ c ∈ piece, Text.isBlank c = true

def leafRules : List Flaw :=
  [.manyTexts, .manyAttributeBlocks, .manyIds, .emptyClass]

theorem Flaw.FoundIn.mem_leafRules {leaf : Text} : ∀ {flaw : Flaw}, flaw.FoundIn leaf →
    flaw ∈ leafRules
  | manyTexts, _ => by decide
  | manyAttributeBlocks, _ => by decide
  | manyIds, _ => by decide
  | emptyClass, _ => by decide

theorem Flaw.FoundIn.ne_nil {leaf : Text} : ∀ {flaw : Flaw}, flaw.FoundIn leaf → leaf ≠ []
  | manyTexts, h => by rintro rfl; cases h
  | manyAttributeBlocks, h => by rintro rfl; cases h
  | manyIds, h => by
    rintro rfl
    obtain ⟨front, hfront, hcount⟩ := h
    obtain rfl : front = [] := List.prefix_nil.1 hfront.isPrefix
    cases hcount
  | emptyClass, h => by
    rintro rfl
    obtain ⟨piece, hpiece, -⟩ := h
    cases hpiece

/-- A node gets an empty class from a leaf in which a class is blank. -/
theorem Leaf.nil_mem_classes_iff {defaultTag t : Text} {e : Option Text} {n : Node}
    (h : Leaf.expand defaultTag e t = .ok n) :
    [] ∈ n.classes ↔ Flaw.emptyClass.FoundIn t := by
  rw [(fieldsOf_expand h).classes]
  simp only [selector, Flaw.FoundIn, List.mem_map, Text.trim_eq_nil_iff]

namespace Lint

variable {expression leaf : Text} {f : Finding}

theorem mem_leafFlaws_iff {flaw : Flaw} : flaw ∈ leafFlaws leaf ↔ flaw.FoundIn leaf := by
  have hnil {p : Text} : (Text.trim p).isEmpty = true ↔ ∀ c ∈ p, Text.isBlank c = true := by
    rw [List.isEmpty_iff, Text.trim_eq_nil_iff]
  cases flaw <;>
    simp [leafFlaws, Flaw.FoundIn, Text.upTo_iff_headD_splitOn, hnil]

/-- What is found by the rules about leaves. -/
theorem mem_findings_iff_of_leafRules {base : Text} (hf : f.flaw ∈ leafRules) :
    f ∈ findings base expression ↔ ∃ leaf ∈ leaves (extraction base expression),
      f.flaw.FoundIn leaf ∧ f = ⟨f.flaw, expression, some leaf⟩ := by
  rw [mem_findings]
  constructor
  · rintro (h | h | ⟨leaf, hl, h⟩)
    · obtain ⟨m, n, rfl⟩ := of_mem_balance h
      simp [leafRules] at hf
    · obtain ⟨-, ⟨c, hc⟩, -⟩ := of_mem_blocks h
      rw [hc] at hf
      simp [leafRules] at hf
    · obtain ⟨flaw, hflaw, rfl⟩ := List.mem_map.1 h
      exact ⟨leaf, hl, mem_leafFlaws_iff.1 hflaw, rfl⟩
  · rintro ⟨leaf, hl, hfound, hf⟩
    refine .inr (.inr ⟨leaf, hl, ?_⟩)
    rw [hf]
    exact List.mem_map.2 ⟨f.flaw, mem_leafFlaws_iff.2 hfound, rfl⟩

end Lint

namespace Extraction

variable {g : Extraction} {t x leaf : Text} {ms : List Mark}

/-! ### Where lint looks for leaves -/

theorem Reads.isLeaf_iff (h : g.Reads t) (hx : g.Stands x ms) (hp : Mark.PartOf t ms) :
    (!x.isEmpty && !g.isPlaceholder x) = true ↔ ms ≠ [] ∧ Mark.inside? ms = none := by
  rw [Bool.and_eq_true, Bool.not_eq_true', Bool.not_eq_true', hx.isEmpty_eq, isPlaceholder,
    List.isEmpty_eq_false_iff, Option.isSome_eq_false_iff, Option.isNone_iff_eq_none]
  refine and_congr_right fun _ => ⟨fun hb => ?_, fun hi => ?_⟩
  · rw [Option.eq_none_iff_forall_ne_some]
    intro inner hi
    obtain rfl := Mark.inside?_eq_some.1 hi
    obtain ⟨body, hbody, -⟩ := hx.body_of_pair
    rw [hb] at hbody
    cases hbody
  · rw [Option.eq_none_iff_forall_ne_some]
    intro body hb
    obtain ⟨inner, rfl⟩ := h.pair_of_body hx hp hb
    cases hi

/-- Lint looks for leaves on the levels of the text and of what is inside of any pair in it. -/
theorem Reads.mem_leaves_iff (h : g.Reads t) : leaf ∈ Lint.leaves g ↔
    ∃ b, Mark.BodyOf b (Mark.read t) ∧ ∃ level ∈ Mark.allLevels b,
      level ≠ [] ∧ Mark.inside? level = none ∧ Mark.sources level = leaf := by
  have hpart {b level : List Mark} (hb : Mark.BodyOf b (Mark.read t))
      (hl : level ∈ Mark.allLevels b) : Mark.PartOf t level :=
    hb.partOf.sub (Mark.infix_of_mem_allLevels hl)
  simp only [Lint.leaves, List.mem_map, List.mem_filter, List.mem_flatMap (l := _ :: _)]
  constructor
  · rintro ⟨x, ⟨⟨piece, hpiece, hx⟩, hleaf⟩, rfl⟩
    -- A piece is the flat text or the body of a group, and stands for such a `b`.
    obtain ⟨b, hb, hstands⟩ : ∃ b, Mark.BodyOf b (Mark.read t) ∧ g.Stands piece b := by
      rcases List.mem_cons.1 hpiece with rfl | hpiece
      · exact ⟨_, .inl rfl, h.flat⟩
      · obtain ⟨p, hp, rfl⟩ := List.mem_map.1 hpiece
        obtain ⟨b, hstands, hb⟩ := h.bodies p hp
        exact ⟨b, .inr hb, hstands⟩
    obtain ⟨level, hl, hlevel⟩ := exists_of_mem_forall₂ (hstands.allLevels h.safe) hx
    obtain ⟨hne, hi⟩ := (h.isLeaf_iff hlevel (hpart hb hl)).1 hleaf
    exact ⟨b, hb, level, hl, hne, hi, (h.restore hlevel (hpart hb hl)).symm⟩
  · rintro ⟨b, hb, level, hl, hne, hi, rfl⟩
    obtain ⟨piece, hpiece, hstands⟩ : ∃ piece ∈ g.flat :: g.groups.map (·.2),
        g.Stands piece b := by
      rcases hb with rfl | hb
      · exact ⟨_, List.mem_cons_self, h.flat⟩
      · obtain ⟨p, hp, hstands⟩ := h.flat.exists_body hb
        exact ⟨p.2, List.mem_cons_of_mem _ (List.mem_map_of_mem hp), hstands⟩
    obtain ⟨x, hx, hlevel⟩ := exists_of_mem_forall₂ (hstands.allLevels h.safe).flip hl
    refine ⟨x, ⟨⟨piece, hpiece, hx⟩, ?_⟩, h.restore hlevel (hpart hb hl)⟩
    exact (h.isLeaf_iff hlevel (hpart hb hl)).2 ⟨hne, hi⟩

end Extraction

/-- Where `leaf` would be one if what is in some parentheses of `outer` were an expression. -/
def Text.Suggests (outer leaf : Text) : Prop :=
  ∃ inner, Mark.Within inner (Mark.read outer) ∧ leaf ∈ chainsLeaves (Mark.tree inner)

namespace Extraction

variable {g : Extraction} {t leaf : Text} {b level : List Mark}

/-- A level at which lint looks is a leaf, or would be one inside of a leaf. -/
theorem leaf_of_level (hb : Mark.BodyOf b (Mark.read t)) (hl : level ∈ Mark.allLevels b)
    (hi : Mark.inside? level = none) :
    Mark.sources level ∈ chainsLeaves (Mark.tree (Mark.read t))
      ∨ ∃ outer ∈ chainsLeaves (Mark.tree (Mark.read t)), outer.Suggests (Mark.sources level) := by
  have hbody : .body b ∈ Mark.places (Mark.read t)
      ∨ ∃ outer, .leaf outer ∈ Mark.places (Mark.read t) ∧ Mark.Within b outer := by
    rcases hb with rfl | hb
    · exact .inl (Mark.body_mem_places_iff.2 (.inl rfl))
    · exact Mark.within_cases hb
  rcases hbody with hbody | ⟨outer, houter, hb⟩
  · exact .inl (Mark.mem_chainsLeaves_tree.2 ⟨level, Mark.leaf_of_body hbody hl hi, rfl⟩)
  · refine .inr ⟨_, Mark.mem_chainsLeaves_tree.2 ⟨outer, houter, rfl⟩, b, ?_, ?_⟩
    · rwa [read_leaf houter]
    · exact Mark.mem_chainsLeaves_tree.2 ⟨level, Mark.leaf_mem_places_iff.2 (.inl ⟨hl, hi⟩), rfl⟩

/-- Lint looks at the levels of leaves and of what would be leaves inside of them. -/
theorem level_of_leaf (h : leaf ∈ chainsLeaves (Mark.tree (Mark.read t))
      ∨ ∃ outer ∈ chainsLeaves (Mark.tree (Mark.read t)), outer.Suggests leaf) :
    ∃ b level, Mark.BodyOf b (Mark.read t) ∧ level ∈ Mark.allLevels b
      ∧ Mark.inside? level = none ∧ Mark.sources level = leaf := by
  rcases h with h | ⟨_, houter, inner, hinner, h⟩
  · obtain ⟨level, hlevel, rfl⟩ := Mark.mem_chainsLeaves_tree.1 h
    obtain ⟨b, hb, hl, hi⟩ := Mark.exists_body_of_leaf hlevel
    exact ⟨b, level, hb, hl, hi, rfl⟩
  · obtain ⟨outer, hplace, rfl⟩ := Mark.mem_chainsLeaves_tree.1 houter
    obtain ⟨level, hlevel, rfl⟩ := Mark.mem_chainsLeaves_tree.1 h
    rw [read_leaf hplace] at hinner
    obtain ⟨a, ha, hla, -⟩ := Mark.exists_body_of_leaf hplace
    obtain ⟨b, hb, hl, hi⟩ := Mark.exists_body_of_leaf hlevel
    -- The leaf `outer` is a part of `a`, so the pair around `inner` is in the text as well.
    have hin := ha.within (hinner.mono (Mark.infix_of_mem_allLevels hla).subset)
    exact ⟨b, level, hb.trans (.inr hin), hl, hi, rfl⟩

/-- Besides the leaves of the tree, lint looks at what seem to be leaves inside of them. -/
theorem Reads.mem_leaves_iff_tree (h : g.Reads t) : leaf ∈ Lint.leaves g ↔
    leaf ≠ [] ∧ (leaf ∈ chainsLeaves (Mark.tree (Mark.read t))
      ∨ ∃ outer ∈ chainsLeaves (Mark.tree (Mark.read t)), outer.Suggests leaf) := by
  rw [h.mem_leaves_iff]
  constructor
  · rintro ⟨b, hb, level, hl, hne, hi, rfl⟩
    exact ⟨mt Mark.sources_eq_nil_iff.1 hne, leaf_of_level hb hl hi⟩
  · rintro ⟨hne, hleaf⟩
    obtain ⟨b, level, hb, hl, hi, rfl⟩ := level_of_leaf hleaf
    exact ⟨b, hb, level, hl, mt Mark.sources_eq_nil_iff.2 hne, hi, rfl⟩

end Extraction

namespace Lint

theorem reads_extraction {base : Text} (h : SafeBase base) (t : Text) :
    (extraction base t).Reads t :=
  Extraction.reads_extract ⟨extendBase_safe h, extendBase_fresh (by omega)⟩

variable {source leaf : Text} {tokens : TokenSource} {chains : List Chain} {e : Option Text}

/-- What the rules about leaves find: flaws of the leaves of the tree and of what seem to be
leaves inside of them. -/
theorem mem_lint_iff_of_leafRules (h : tokens.FitFor (Text.normalize source))
    (hc : (extract tokens (Text.normalize source)).tree e = .ok chains) {f : Finding} :
    f ∈ lint source ∧ f.flaw ∈ leafRules ↔
      ∃ leaf, f = ⟨f.flaw, Text.normalize source, some leaf⟩ ∧ f.flaw.FoundIn leaf
        ∧ (leaf ∈ chainsLeaves chains ∨ ∃ outer ∈ chainsLeaves chains, outer.Suggests leaf) := by
  have hreads := reads_extraction (safeBase_drawnBase 0) (Text.normalize source)
  rw [(Extraction.reads_extract h).leaves_tree hc]
  constructor
  · rintro ⟨hf, hrule⟩
    obtain ⟨leaf, hl, hfound, he⟩ := (mem_findings_iff_of_leafRules hrule).1 hf
    exact ⟨leaf, he, hfound, (hreads.mem_leaves_iff_tree.1 hl).2⟩
  · rintro ⟨leaf, he, hfound, hl⟩
    refine ⟨(mem_findings_iff_of_leafRules hfound.mem_leafRules).2 ⟨leaf, ?_, hfound, he⟩,
      hfound.mem_leafRules⟩
    exact hreads.mem_leaves_iff_tree.2 ⟨hfound.ne_nil, hl⟩

theorem mem_lint_of_leaf (h : tokens.FitFor (Text.normalize source))
    (hc : (extract tokens (Text.normalize source)).tree e = .ok chains)
    (hl : leaf ∈ chainsLeaves chains) {flaw : Flaw} (hflaw : flaw.FoundIn leaf) :
    ⟨flaw, Text.normalize source, some leaf⟩ ∈ lint source :=
  ((mem_lint_iff_of_leafRules h hc).2 ⟨leaf, rfl, hflaw, .inl hl⟩).1

end Lint

/-! ### Leaves that are linted -/

/-- Lint misses no flaw of a leaf of the tree, and no empty class of a node. -/
theorem lint_covers_leaves {source : Text} {base : Option Text} {drawn : Nat} {tokens : TokenSource}
    {e : Option Text} {chains : List Chain}
    (ht : forText (Text.normalize source) base drawn = .ok tokens)
    (hc : (extract tokens (Text.normalize source)).tree e = .ok chains) :
    (∀ leaf ∈ chainsLeaves chains, ∀ flaw : Flaw, flaw.FoundIn leaf →
        ⟨flaw, Text.normalize source, some leaf⟩ ∈ lint source)
      ∧ ∀ s n ns, expand s source n = .ok ns → (∃ k ∈ forestElements ns, [] ∈ k.classes) →
        ∃ f ∈ lint source, f.flaw = .emptyClass := by
  refine ⟨fun leaf hl flaw => Lint.mem_lint_of_leaf (fitFor_of_forText ht) hc hl, ?_⟩
  rintro s n ns hns ⟨k, hk, hempty⟩
  obtain ⟨tokens', chains', ht', hc', hnodes⟩ := tree_of_expand hns
  obtain ⟨leaf, hl, hexpand⟩ := (chainNodes_keeps hnodes).exists_leaf hk
  have hfound : Flaw.emptyClass.FoundIn leaf := (Leaf.nil_mem_classes_iff hexpand).1 hempty
  exact ⟨_, Lint.mem_lint_of_leaf (fitFor_of_forText ht') hc' hl hfound, rfl⟩

theorem lint_covers_leaves_of_nested :
    ∃ tokens chains, forText (Text.normalize "ul>(li.x..y+(b#i#j>c{d}{e}))") none = .ok tokens
      ∧ (extract tokens (Text.normalize "ul>(li.x..y+(b#i#j>c{d}{e}))")).tree none = .ok chains
      ∧ (∀ leaf ∈ chainsLeaves chains, ∀ flaw : Flaw, flaw.FoundIn leaf →
        ⟨flaw, Text.normalize "ul>(li.x..y+(b#i#j>c{d}{e}))", some leaf⟩
          ∈ lint "ul>(li.x..y+(b#i#j>c{d}{e}))")
      ∧ ∃ f ∈ lint "ul>(li.x..y+(b#i#j>c{d}{e}))", f.flaw = .emptyClass := by
  have hok : (forText (Text.normalize "ul>(li.x..y+(b#i#j>c{d}{e}))") none).toOption.any
      (fun tokens => ((extract tokens
        (Text.normalize "ul>(li.x..y+(b#i#j>c{d}{e}))")).tree none).isOk) = true := by
    decide +kernel
  have hempty : (expand {} "ul>(li.x..y+(b#i#j>c{d}{e}))").toOption.any
      (fun ns => (forestElements ns).any fun k => k.classes.contains []) = true := by
    decide +kernel
  rcases ht : forText (Text.normalize "ul>(li.x..y+(b#i#j>c{d}{e}))") none with failure | tokens
    <;> rw [ht] at hok
  · cases hok
  rcases hc : (extract tokens (Text.normalize "ul>(li.x..y+(b#i#j>c{d}{e}))")).tree none
    with r | chains
  · simp [Except.toOption, hc, Except.isOk, Except.toBool] at hok
  rcases hns : expand {} "ul>(li.x..y+(b#i#j>c{d}{e}))" with failure | ns <;> rw [hns] at hempty
  · cases hempty
  obtain ⟨hleaves, hnodes⟩ := lint_covers_leaves ht hc
  refine ⟨tokens, chains, rfl, hc, hleaves, hnodes {} 0 ns hns ?_⟩
  simpa [Except.toOption] using hempty

/-- Of an expression that expands, lint tells about the leaves of the tree, and also about what
would be leaves if the parentheses inside of a leaf were groups. If no leaf has a pair of
parentheses, lint tells about the leaves of the tree only, and finds an empty class only where a
node has one. -/
theorem lint_beyond_leaves {s : Settings} {source : Text} {drawn : Nat} {ns : List Node}
    (h : expand s source drawn = .ok ns) :
    let text := Text.normalize source
    ∃ tokens chains, forText text s.placeholderBase drawn = .ok tokens
      ∧ (extract tokens text).tree (some text) = .ok chains
      ∧ (∀ f, f ∈ lint source ∧ f.flaw ∈ leafRules ↔
          ∃ leaf, f = ⟨f.flaw, text, some leaf⟩ ∧ f.flaw.FoundIn leaf
            ∧ (leaf ∈ chainsLeaves chains ∨ ∃ outer ∈ chainsLeaves chains, outer.Suggests leaf))
      ∧ ((∀ leaf ∈ chainsLeaves chains, ∀ inner, .pair inner ∉ Mark.read leaf) →
          (∀ f ∈ lint source, f.flaw ∈ leafRules →
            ∃ leaf ∈ chainsLeaves chains, f.segment = some leaf)
          ∧ ∀ f ∈ lint source, f.flaw = .emptyClass → ∃ k ∈ forestElements ns, [] ∈ k.classes) := by
  intro text
  obtain ⟨tokens, chains, ht, hc, hnodes⟩ := tree_of_expand h
  have hlint {f : Finding} := Lint.mem_lint_iff_of_leafRules (f := f) (fitFor_of_forText ht) hc
  refine ⟨tokens, chains, ht, hc, fun f => hlint, fun hflat => ?_⟩
  -- Without a pair in it, no leaf suggests anything.
  have honly {f : Finding} (hf : f ∈ lint source) (hrule : f.flaw ∈ leafRules) :
      ∃ leaf ∈ chainsLeaves chains, f.segment = some leaf ∧ f.flaw.FoundIn leaf := by
    obtain ⟨leaf, he, hfound, hl | ⟨outer, houter, inner, hinner, -⟩⟩ := hlint.1 ⟨hf, hrule⟩
    · exact ⟨leaf, hl, congrArg Finding.segment he, hfound⟩
    · obtain ⟨pair, hpair, -⟩ := Mark.within_iff.1 hinner
      exact absurd hpair (hflat outer houter pair)
  refine ⟨fun f hf hrule => ?_, fun f hf hflaw => ?_⟩
  · obtain ⟨leaf, hl, hs, -⟩ := honly hf hrule
    exact ⟨leaf, hl, hs⟩
  · obtain ⟨leaf, hl, -, hfound⟩ := honly hf (by rw [hflaw]; decide)
    obtain ⟨k, hk, hexpand⟩ := (chainNodes_keeps hnodes).exists_element hl
    exact ⟨k, hk, (Leaf.nil_mem_classes_iff hexpand).2 (hflaw ▸ hfound)⟩

theorem lint_beyond_leaves_of_aside :
    ∃ ns, expand {} "ul>(li.x..y+p{see (e.g.)})" = .ok ns
      ∧ let text := Text.normalize "ul>(li.x..y+p{see (e.g.)})"
        ∃ tokens chains, forText text none = .ok tokens
          ∧ (extract tokens text).tree (some text) = .ok chains
          ∧ (∀ f, f ∈ lint "ul>(li.x..y+p{see (e.g.)})" ∧ f.flaw ∈ leafRules ↔
              ∃ leaf, f = ⟨f.flaw, text, some leaf⟩ ∧ f.flaw.FoundIn leaf
                ∧ (leaf ∈ chainsLeaves chains
                  ∨ ∃ outer ∈ chainsLeaves chains, outer.Suggests leaf))
          ∧ ((∀ leaf ∈ chainsLeaves chains, ∀ inner, .pair inner ∉ Mark.read leaf) →
              (∀ f ∈ lint "ul>(li.x..y+p{see (e.g.)})", f.flaw ∈ leafRules →
                ∃ leaf ∈ chainsLeaves chains, f.segment = some leaf)
              ∧ ∀ f ∈ lint "ul>(li.x..y+p{see (e.g.)})", f.flaw = .emptyClass →
                  ∃ k ∈ forestElements ns, [] ∈ k.classes) := by
  have hok : (expand {} "ul>(li.x..y+p{see (e.g.)})").isOk = true := by decide +kernel
  rcases h : expand {} "ul>(li.x..y+p{see (e.g.)})" with failure | ns
  · rw [h] at hok
    cases hok
  · exact ⟨ns, rfl, lint_beyond_leaves h⟩

/-- Two dots in parentheses in a text block are taken for an empty class. -/
theorem emptyClass_of_aside :
    ∃ ns tokens chains, expand {} "p{see (e.g.)}" = .ok ns
      ∧ forText (Text.normalize "p{see (e.g.)}") none = .ok tokens
      ∧ (extract tokens (Text.normalize "p{see (e.g.)}")).tree
          (some (Text.normalize "p{see (e.g.)}")) = .ok chains
      ∧ (∃ f ∈ lint "p{see (e.g.)}", f.flaw = .emptyClass
        ∧ ∀ leaf ∈ chainsLeaves chains, f.segment ≠ some leaf)
      ∧ ∀ k ∈ forestElements ns, [] ∉ k.classes := by
  have hlint : ⟨.emptyClass, Text.normalize "p{see (e.g.)}", some (Text.ofString "e.g.")⟩
      ∈ lint "p{see (e.g.)}" :=
    (Lint.mem_findings_iff_of_leafRules (by decide)).2 ⟨"e.g.", by decide +kernel,
      Lint.mem_leafFlaws_iff.1 (by decide +kernel), rfl⟩
  have hleaves : (forText (Text.normalize "p{see (e.g.)}") none).toOption.any (fun tokens =>
      ((extract tokens (Text.normalize "p{see (e.g.)}")).tree
        (some (Text.normalize "p{see (e.g.)}"))).toOption.any
        fun chains => chainsLeaves chains == [Text.ofString "p{see (e.g.)}"]) = true := by
    decide +kernel
  have hnodes : (expand {} "p{see (e.g.)}").toOption.any
      (fun ns => (forestElements ns).all fun k => !k.classes.contains []) = true := by
    decide +kernel
  rcases hns : expand {} "p{see (e.g.)}" with failure | ns <;> rw [hns] at hnodes
  · cases hnodes
  obtain ⟨tokens, chains, ht, hc, -⟩ := tree_of_expand hns
  rw [ht] at hleaves
  have htree : chainsLeaves chains = [Text.ofString "p{see (e.g.)}"] := by
    simpa [Except.toOption, hc] using hleaves
  refine ⟨ns, tokens, chains, rfl, ht, hc, ⟨_, hlint, rfl, ?_⟩, ?_⟩
  · rw [htree]
    decide
  · simpa [Except.toOption] using hnodes

end Shorthand
