import Shorthand.Proofs.Fields
import Shorthand.Proofs.TreeLeaves

/-!
# Nodes that are well cut

Every field of a node is cut out of a leaf at what tells the fields apart, whatever brackets the
leaf has and in whatever order. So a field never holds what it was cut at, and its only blanks are
spaces, as in a normalized text. Only the default tag is taken as it is. This is the case for every
node, at any depth (`wellCut_of_expand`).
-/

namespace Shorthand

open TokenSource

/-- All blanks are spaces. -/
def Text.Spaced (t : Text) : Prop :=
  ∀ c ∈ t, isBlank c = true → c = ' '

theorem Text.spaced_normalize (t : Text) : t.normalize.Spaced :=
  fun _ hc hb => isBlank_of_mem_collapse hc hb

/-- The fields of a node are free of what they were cut at, but for a default tag. The first of the
fields is the tag. -/
structure Node.WellCut (defaultTag : Text) (n : Node) : Prop where
  tag : n.tag = defaultTag
    ∨ n.tag ≠ [] ∧ Text.trim n.tag = n.tag ∧ n.tag.Lacks ['.', '#'] ∧ n.tag.Spaced
  id : ∀ i ∈ n.id, i ≠ [] ∧ Text.trim i = i ∧ i.Lacks ['.', '#']
  classes : ∀ k ∈ n.classes, Text.trim k = k ∧ k.Lacks ['.']
  attribute_names : ∀ a ∈ n.attributes,
    (∀ c ∈ a.1, Text.isBlank c = false) ∧ a.1.Lacks ['=', '[', ']']
  attribute_values : ∀ a ∈ n.attributes,
    (∀ c ∈ a.2, Text.isBlank c = false) ∧ a.2.Lacks ['[', ']']
  text : ∀ t ∈ n.text, t ≠ [] ∧ t.Lacks ['{', '}']
  spaced : ∀ f ∈ n.fields.tail, f.Spaced

theorem Node.WellCut.of_bare {defaultTag : Text} {n : Node} (h : n.bare.WellCut defaultTag) :
    n.WellCut defaultTag :=
  ⟨h.tag, h.id, h.classes, h.attribute_names, h.attribute_values, h.text, h.spaced⟩

/-- What a leaf expands to is well cut, if the leaf has no blanks but spaces. -/
theorem Leaf.wellCut_expand {defaultTag t : Text} {e : Option Text} {n : Node} (ht : t.Spaced)
    (h : expand defaultTag e t = .ok n) : n.WellCut defaultTag := by
  have hfields := fieldsOf_expand h
  obtain ⟨htag, hrest⟩ := fields_subset h
  have hspaced {f : Text} (hf : f ⊆ t) : f.Spaced := fun c hc => ht c (hf hc)
  refine ⟨?tag, fun i hi => ?id, fun k hk => ?classes, fun a ha => ?names, fun a ha => ?values,
    fun text htext => ?text, fun f hf => hspaced (hrest f hf)⟩
  case tag =>
    rcases htag with heq | hsub
    · exact .inl heq
    rcases tag_selector defaultTag (split t).selector with heq | ⟨hne, hname⟩
    · exact .inl (hfields.tag.trans heq)
    · rw [← hfields.tag] at hne hname
      exact .inr ⟨hne, hname.trimmed, hname.lacks, hspaced hsub⟩
  case id =>
    obtain ⟨hne, hname⟩ := id_selector (hfields.id ▸ hi)
    exact ⟨hne, hname.trimmed, hname.lacks⟩
  case classes =>
    have hname := class_selector (hfields.classes ▸ hk)
    exact ⟨hname.trimmed, hname.lacks⟩
  case names =>
    obtain ⟨block, hblock, hpair⟩ := hfields.exists_block ha
    exact ⟨hpair.solid.1, Text.lacks_cons.2 ⟨hpair.notMem, hblock.lacks.sub hpair.subset.1⟩⟩
  case values =>
    obtain ⟨block, hblock, hpair⟩ := hfields.exists_block ha
    exact ⟨hpair.solid.2, hblock.lacks.sub hpair.subset.2⟩
  case text =>
    obtain ⟨hblock, hne⟩ := hfields.of_text htext
    exact ⟨hne, (split_text_eq_some_iff.1 hblock).lacks⟩

/-- What holds of the nodes of all leaves that are in a text holds of every node of what the text
expands to. -/
theorem everywhere_of_expand {s : Settings} {source : Text} {drawn : Nat} {ns : List Node}
    (h : expand s source drawn = .ok ns) {P : Node → Prop}
    (hp : ∀ leaf, leaf <:+: Text.normalize source →
      ∀ k, Leaf.expand s.defaultTag (some (Text.normalize source)) leaf = .ok k → P k) :
    ∀ n ∈ ns, n.Everywhere fun k => P k.bare := by
  obtain ⟨tokens, chains, htokens, hc, hnodes⟩ := tree_of_expand h
  have hreads := Extraction.reads_extract (fitFor_of_forText htokens)
  exact (chainNodes_keeps hnodes).everywhere fun leaf hl =>
    hp leaf (hreads.infix_of_mem_chainsLeaves hc hl)

/-- Every node of what an expression expands to is well cut, at any depth, and so is the node that
the whole of it stands for as a single leaf. -/
theorem wellCut_of_expand (s : Settings) (source : Text) :
    (∀ drawn ns, expand s source drawn = .ok ns →
        ∀ n ∈ ns, n.Everywhere (Node.WellCut s.defaultTag))
      ∧ ∀ n, expandSingle s source = .ok n → n.Everywhere (Node.WellCut s.defaultTag) := by
  have hspaced : (Text.normalize source).Spaced := Text.spaced_normalize source
  constructor
  · intro drawn ns h n hn
    refine (everywhere_of_expand (P := Node.WellCut s.defaultTag) h ?_ n hn).imp
      fun k hk => hk.of_bare
    exact fun leaf hleaf k hk => Leaf.wellCut_expand (fun c hc => hspaced c (hleaf.subset hc)) hk
  · intro n h
    refine .intro (Leaf.wellCut_expand hspaced h) ?_
    rw [Leaf.children_expand h]
    simp

theorem wellCut_of_expand_of_crossed :
    let s : Settings := { defaultTag := " .\t#", placeholderBase := some "p" }
    let source : Text :=
      "#i\u2003j#k.a#b . [x=1 [y=\"q\"r\u00a0=z=]\x7bu\x7d\x7bt\u2003[ > (.m + (n#\u2003#o > [=]))"
    (∃ ns, expand s source = .ok ns ∧ ∀ n ∈ ns, n.Everywhere (Node.WellCut s.defaultTag))
      ∧ ∃ n, expandSingle s source = .ok n ∧ n.Everywhere (Node.WellCut s.defaultTag) := by
  intro s source
  obtain ⟨ns, hns⟩ := isOk_iff.1 (show (expand s source).isOk = true by decide +kernel)
  obtain ⟨n, hn⟩ := isOk_iff.1 (show (expandSingle s source).isOk = true by decide +kernel)
  obtain ⟨hforest, hnode⟩ := wellCut_of_expand s source
  exact ⟨⟨ns, hns, hforest 0 ns hns⟩, n, hn, hnode n hn⟩

/-- A class may be empty, and whatever is not a dot may be in it. -/
example : (expandSingle {} " .. a]#b ").toOption.map Node.classes
    = some [Text.ofString "", Text.ofString "a]#b"] := by
  decide +kernel

end Shorthand
