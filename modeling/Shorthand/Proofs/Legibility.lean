import Shorthand.Proofs.Label
import Shorthand.Proofs.LintedLeaves

/-!
# Nodes of leaves with single blocks

A leaf with one text block and one attribute block at most leaves no bracket in its selector, and
none in its blocks but those that close the other kind. So what it expands to is legible
(`legible_expand`). Since lint misses no leaf, the nodes of an expression in which it finds no
second block can be told from their labels (`expand_labels`).
-/

namespace Shorthand

open TokenSource

/-! ### What is not in a part -/

namespace Leaf

variable {t block text : Text}

theorem HasBlock.notMem (h : HasBlock t block) (hc : t.count (.char '{') ≤ 1) :
    .char '{' ∉ block := by
  obtain ⟨front, before, rest, hfront, rfl, -, hup⟩ := h
  refine fun hm => hfront.notMem hc ?_
  exact List.mem_append_right _ (List.mem_cons_of_mem _ (hup.isPrefix.subset hm))

theorem selector_lacks (hc : t.count (.char '{') ≤ 1) (hs : .char '[' ∉ (split t).selector) :
    (split t).selector.Lacks ['[', '{'] := by
  obtain ⟨front, hfront, hsub⟩ := exists_selector_subset t
  exact Text.lacks_cons.2 ⟨hs, Text.lacks_cons.2 ⟨fun hm => hfront.notMem hc (hsub hm),
    Text.lacks_nil _⟩⟩

/-! ### Selectors without brackets -/

/-- A tag that is read back from the front of a selector. -/
structure PlainTag (tag : Text) : Prop where
  trimmed : Text.trim tag = tag
  filled : tag ≠ []
  lacks : tag.Lacks ['.', '#', '[', '{']

theorem plainTag_default : PlainTag defaultTag :=
  ⟨by decide, by decide, by decide⟩

theorem plainTag_selector {defaultTag x : Text} (h : x.Lacks ['[', '{'])
    (hd : PlainTag defaultTag) : PlainTag (selector defaultTag x).tag := by
  rcases tag_selector defaultTag x with heq | ⟨hne, hname⟩
  · rw [heq]
    exact hd
  · exact ⟨hname.trimmed, hne, hname.lacks_append h⟩

/-! ### Legible leaves -/

/-- What a leaf without a second block of a kind expands to is legible. -/
theorem legible_expand {defaultTag : Text} {e : Option Text} {n : Node} (hd : PlainTag defaultTag)
    (h : expand defaultTag e t = .ok n) (htexts : ¬ Flaw.manyTexts.FoundIn t)
    (hblocks : ¬ Flaw.manyAttributeBlocks.FoundIn t) : n.Legible := by
  have hcount : t.count (.char '{') ≤ 1 := Nat.le_of_not_lt htexts
  have hselector := selector_lacks hcount hblocks
  have hfields := fieldsOf_expand h
  have htag := hfields.tag ▸ plainTag_selector hselector hd
  have hid : ∀ i ∈ n.id, Text.trim i = i ∧ i ≠ [] ∧ i.Lacks ['.', '#', '[', '{'] := by
    intro i hi
    obtain ⟨hne, hname⟩ := id_selector (hfields.id ▸ hi)
    exact ⟨hname.trimmed, hne, hname.lacks_append hselector⟩
  have hclasses : ∀ k ∈ n.classes, Text.trim k = k ∧ k.Lacks ['.', '[', '{'] := by
    intro k hk
    have hname := class_selector (hfields.classes ▸ hk)
    exact ⟨hname.trimmed, hname.lacks_append hselector⟩
  have hpair : ∀ a ∈ n.attributes, ∃ block, PairIn block a ∧ block.Lacks ['[', ']', '{'] := by
    intro a ha
    obtain ⟨block, hblock, hpair⟩ := hfields.exists_block ha
    have hbrace : block.Lacks ['{'] :=
      Text.lacks_cons.2 ⟨hblock.notMem hcount, Text.lacks_nil _⟩
    exact ⟨block, hpair, hblock.lacks.append hbrace⟩
  refine ⟨fun name hname => ?_, ⟨htag.filled, htag.lacks⟩, fun i hi => (hid i hi).2,
    fun k hk => (hclasses k hk).2, fun a ha => ?_, fun a ha => ?_, fun text ht => ?_⟩
  · rcases List.mem_cons.1 hname with rfl | hname
    · exact htag.trimmed
    rcases List.mem_append.1 hname with hname | hname
    · exact (hid name (Option.mem_toList.1 hname)).1
    · exact (hclasses name hname).1
  · obtain ⟨block, hin, hlacks⟩ := hpair a ha
    exact ⟨hin.solid.1, Text.lacks_cons.2 ⟨hin.notMem, hlacks.sub hin.subset.1⟩⟩
  · obtain ⟨block, hin, hlacks⟩ := hpair a ha
    exact ⟨hin.solid.2, hlacks.sub hin.subset.2⟩
  · obtain ⟨htext, hne⟩ := hfields.of_text ht
    exact ⟨hne, (split_text_eq_some_iff.1 htext).lacks⟩

end Leaf

/-! ### Labels of the nodes of an expression -/

/-- If lint finds no second block in any leaf, every node of what an expression expands to is what
its label stands for, its children apart. -/
theorem expand_labels {source : Text} {drawn : Nat} {ns : List Node}
    (h : expand {} source drawn = .ok ns)
    (hlint : ∀ f ∈ lint source, f.flaw.code ≠ "L_MULTIPLE_TEXT_BLOCKS"
      ∧ f.flaw.code ≠ "L_MULTIPLE_ATTRIBUTE_BLOCKS") (e : Option Text) :
    ∀ n ∈ ns, n.Everywhere fun k => Leaf.expand defaultTag e k.label = .ok k.bare := by
  obtain ⟨tokens, chains, ht, hc, hnodes⟩ := tree_of_expand h
  refine (chainNodes_keeps hnodes).everywhere
    (P := fun k => Leaf.expand defaultTag e k.label = .ok k.bare) fun leaf hl k hk => ?_
  have hfind {flaw : Flaw} (hflaw : flaw.FoundIn leaf) :=
    hlint _ (Lint.mem_lint_of_leaf (fitFor_of_forText ht) hc hl hflaw)
  have hlegible : k.Legible := Leaf.legible_expand Leaf.plainTag_default hk
    (fun htexts => (hfind htexts).1 rfl) fun hblocks => (hfind hblocks).2 rfl
  exact hlegible.expand_label defaultTag e

theorem expand_labels_of_quoted :
    ∃ ns, expand {} "p#i.a..b[x=\"q\"r]{t} > (.c[y=1] + #d{e})" = .ok ns
      ∧ (∀ f ∈ lint "p#i.a..b[x=\"q\"r]{t} > (.c[y=1] + #d{e})",
        f.flaw.code ≠ "L_MULTIPLE_TEXT_BLOCKS" ∧ f.flaw.code ≠ "L_MULTIPLE_ATTRIBUTE_BLOCKS")
      ∧ ∀ n ∈ ns, n.Everywhere fun k => Leaf.expand defaultTag none k.label = .ok k.bare := by
  have hok : (expand {} "p#i.a..b[x=\"q\"r]{t} > (.c[y=1] + #d{e})").isOk = true := by
    decide +kernel
  have hlint : ∀ f ∈ lint "p#i.a..b[x=\"q\"r]{t} > (.c[y=1] + #d{e})",
      f.flaw.code ≠ "L_MULTIPLE_TEXT_BLOCKS"
        ∧ f.flaw.code ≠ "L_MULTIPLE_ATTRIBUTE_BLOCKS" := by
    decide +kernel
  rcases h : expand {} "p#i.a..b[x=\"q\"r]{t} > (.c[y=1] + #d{e})" with failure | ns
  · rw [h] at hok
    cases hok
  · exact ⟨ns, rfl, hlint, expand_labels h hlint none⟩

end Shorthand
