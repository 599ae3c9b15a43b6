import Shorthand.Proofs.Concatenation
import Shorthand.Proofs.Portable
import Shorthand.Proofs.WellCut

/-!
# Where the characters of a node come from

All fields of a node are cut out of its leaf, but for the default tag, and leaves are parts of the
expression. So an expression of characters expands to nodes of characters (`halfFree_of_expand`).
-/

namespace Shorthand

/-! ### Expressions -/

/-- Normalizing puts in spaces at most. -/
theorem Text.HalfFree.normalize {t : Text} (h : t.HalfFree) : t.normalize.HalfFree := by
  intro c hc
  rcases hb : Text.isBlank c with _ | _
  · exact h c ((Text.mem_normalize_iff hb).1 hc)
  · exact Text.not_isHalf (Text.isBlank_iff_within.1 hb) (by decide)

/-- The fields of a node are made of characters. -/
def Node.HalfFree (n : Node) : Prop :=
  ∀ f ∈ n.fields, f.HalfFree

/-- The default tag is the only text in a node that is no part of the expression. -/
theorem halfFree_of_expand {s : Settings} {source : Text} {drawn : Nat} {ns : List Node}
    (h : expand s source drawn = .ok ns) (ht : s.defaultTag.HalfFree) (hs : source.HalfFree) :
    ∀ n ∈ ns, n.Everywhere Node.HalfFree := by
  refine everywhere_of_expand (P := Node.HalfFree) h fun leaf hleaf k hk => ?_
  have hfree {f : Text} (hf : f ⊆ leaf) : f.HalfFree :=
    fun c hc => hs.normalize c (hleaf.subset (hf hc))
  obtain ⟨htag, hrest⟩ := Leaf.fields_subset hk
  refine List.forall_mem_cons.2 ⟨?_, fun f hf => hfree (hrest f hf)⟩
  rcases htag with heq | htag
  · rwa [heq]
  · exact hfree htag

/-! ### Data -/

theorem itemsHalfFree_map {α : Type} {f : α → Data} : ∀ {l : List α}, (∀ a ∈ l, (f a).HalfFree) →
    itemsHalfFree (l.map f)
  | [], _ => trivial
  | _ :: _, h =>
    ⟨h _ List.mem_cons_self, itemsHalfFree_map fun a ha => h a (List.mem_cons_of_mem _ ha)⟩

theorem entriesHalfFree_append : ∀ {es fs : List (Text × Data)}, entriesHalfFree es →
    entriesHalfFree fs → entriesHalfFree (es ++ fs)
  | [], _, _, h => h
  | _ :: _, _, ⟨hk, hd, hes⟩, h => ⟨hk, hd, entriesHalfFree_append hes h⟩

theorem entriesHalfFree_textField {key : Text} (hk : key.HalfFree) {value : Option Text}
    (h : ∀ t ∈ value, t.HalfFree) : entriesHalfFree (Data.textField key value) := by
  cases value with
  | none => trivial
  | some t => exact ⟨hk, h t rfl, trivial⟩

theorem entriesHalfFree_listField {key : Text} (hk : key.HalfFree) {items : List Data}
    (h : itemsHalfFree items) : entriesHalfFree (Data.listField key items) := by
  unfold Data.listField
  split_ifs
  · trivial
  · exact ⟨hk, h, trivial⟩

mutual

/-- The keys are ASCII, and the values are the fields of the node. -/
theorem halfFree_ofNode : ∀ {n : Node}, n.Everywhere Node.HalfFree → (Data.ofNode n).HalfFree
  | ⟨tag, id, classes, attributes, text, children⟩, h => by
    obtain ⟨hn, hchildren⟩ := Node.everywhere_iff.1 h
    simp only [Node.HalfFree, Node.fields, Node.names, List.forall_mem_append, List.forall_mem_cons,
      Option.mem_toList, List.mem_flatMap] at hn
    obtain ⟨⟨⟨htag, hid, hclasses⟩, hattributes⟩, htext⟩ := hn
    refine ⟨by decide, htag, entriesHalfFree_append (entriesHalfFree_textField (by decide) hid)
      (entriesHalfFree_append (entriesHalfFree_listField (by decide) ?_) (entriesHalfFree_append
        (entriesHalfFree_listField (by decide) ?_) (entriesHalfFree_append
          (entriesHalfFree_textField (by decide) htext)
          (entriesHalfFree_listField (by decide) ?_))))⟩
    · exact itemsHalfFree_map hclasses
    · refine itemsHalfFree_map fun a ha => ?_
      exact ⟨hattributes _ ⟨a, ha, by simp⟩, hattributes _ ⟨a, ha, by simp⟩, trivial⟩
    · exact itemsHalfFree_ofNodes hchildren

theorem itemsHalfFree_ofNodes : ∀ {ns : List Node}, (∀ n ∈ ns, n.Everywhere Node.HalfFree) →
    itemsHalfFree (Data.ofNodes ns)
  | [], _ => trivial
  | _ :: _, h =>
    ⟨halfFree_ofNode (h _ List.mem_cons_self),
      itemsHalfFree_ofNodes fun k hk => h k (List.mem_cons_of_mem _ hk)⟩

end

end Shorthand
