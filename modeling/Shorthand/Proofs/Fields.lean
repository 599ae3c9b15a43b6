import Shorthand.Proofs.Conservation
import Shorthand.Proofs.Everywhere
import Shorthand.Proofs.Faults
import Shorthand.Proofs.Label
import Shorthand.Proofs.Parts
import Shorthand.Proofs.Trimming

/-!
# What is in the fields of a node

The fields of a node are cut out of the parts of its leaf (`fieldsOf_expand`, `fields_subset`), and
the nodes of a forest are those of the leaves of its tree. So what a node of any leaf has to satisfy
is satisfied everywhere in the forest (`Keeps.everywhere`).
-/

namespace Shorthand

/-! ### Parts -/

namespace Text

variable {c : CodePoint}

theorem BeforeLast.notMem {t front : Text} (h : BeforeLast c t front) (hc : t.count c ≤ 1) :
    c ∉ front := by
  rcases h with ⟨ht, rfl⟩ | ⟨r, rfl, -⟩
  · exact ht
  · rw [List.count_append, List.count_cons_self] at hc
    exact List.count_eq_zero.1 (by omega)

theorem of_mem_words {t w : Text} (h : w ∈ words t) : (∀ c ∈ w, isBlank c = false) ∧ w <:+: t := by
  have hw := (List.mem_filter.1 h).1
  exact ⟨not_of_mem_splitOnP w hw, infix_of_mem_splitOnP hw⟩

end Text

namespace Leaf

variable {t block : Text}

/-- The text block of a leaf: what stands after the last `{`, up to the next `}` or to the end. -/
def HasText (t text : Text) : Prop :=
  ∃ before rest : Text, t = before ++ .char '{' :: rest ∧ .char '{' ∉ rest
    ∧ Text.UpTo '}' rest text

theorem blockBefore_eq_iff {c : CodePoint} : blockBefore c t = block ↔ Text.UpTo c t block := by
  rw [Text.upTo_iff, blockBefore]
  rcases Text.cutFirst c t <;> rfl

theorem snd_cutText (t : Text) :
    (cutText t).2 = (Text.cutLast '{' t).map fun cut => blockBefore '}' cut.2 := by
  unfold cutText
  rcases Text.cutLast '{' t <;> rfl

theorem split_text_eq_some_iff {text : Text} : (split t).text = some text ↔ HasText t text := by
  show (cutText t).2 = some text ↔ _
  rw [snd_cutText, Option.map_eq_some_iff]
  constructor
  · rintro ⟨⟨before, rest⟩, hcut, htext⟩
    obtain ⟨rfl, hrest⟩ := Text.cutLast_eq_some_iff.1 hcut
    exact ⟨before, rest, rfl, hrest, blockBefore_eq_iff.1 htext⟩
  · rintro ⟨before, rest, ht, hrest, htext⟩
    exact ⟨(before, rest), Text.cutLast_eq_some_iff.2 ⟨ht, hrest⟩, blockBefore_eq_iff.2 htext⟩

theorem HasText.subset {text : Text} (h : HasText t text) : text ⊆ t := by
  obtain ⟨before, rest, rfl, -, hup⟩ := h
  exact fun c hc => List.mem_append_right _ (List.mem_cons_of_mem _ (hup.isPrefix.subset hc))

theorem HasText.lacks {text : Text} (h : HasText t text) : text.Lacks ['{', '}'] := by
  obtain ⟨before, rest, -, hrest, hup⟩ := h
  exact Text.lacks_cons.2 ⟨fun hm => hrest (hup.isPrefix.subset hm),
    Text.lacks_cons.2 ⟨hup.notMem, Text.lacks_nil _⟩⟩

theorem HasBlock.lacks (h : HasBlock t block) : block.Lacks ['[', ']'] := by
  obtain ⟨front, before, rest, -, -, hopen, hup⟩ := h
  exact Text.lacks_cons.2 ⟨fun hm => hopen (hup.isPrefix.subset hm),
    Text.lacks_cons.2 ⟨hup.notMem, Text.lacks_nil _⟩⟩

theorem fst_cutAttributes_subset (t : Text) : (cutAttributes t).1 ⊆ t := by
  rw [cutAttributes_eq]
  rcases hcut : cutBlock '[' ']' t with _ | ⟨before, content, between⟩
  · exact List.Subset.refl t
  · obtain ⟨block, rfl, -⟩ := (cutBlock_eq_some_iff (by decide)).1 hcut
    rw [Option.elim_some, List.append_assoc]
    exact List.append_subset.2 ⟨List.subset_append_left _ _,
      List.subset_append_of_subset_right _ (List.subset_append_right _ _)⟩

/-- The selector is cut out of what stands before the text block. -/
theorem exists_selector_subset (t : Text) :
    ∃ front, Text.BeforeLast '{' t front ∧ (split t).selector ⊆ front := by
  refine ⟨(cutText t).1, ?_, fst_cutAttributes_subset _⟩
  rw [Text.beforeLast_iff, fst_cutText]

theorem selector_subset (t : Text) : (split t).selector ⊆ t := by
  obtain ⟨front, hfront, hselector⟩ := exists_selector_subset t
  exact List.Subset.trans hselector hfront.isPrefix.subset

theorem nonEmpty_eq_some_iff {u : Text} : nonEmpty t = some u ↔ t = u ∧ u ≠ [] := by
  unfold nonEmpty
  split_ifs with h
  · rw [List.isEmpty_iff] at h
    simp [h, eq_comm]
  · rw [List.isEmpty_iff] at h
    simp only [Option.some.injEq]
    exact ⟨fun he => ⟨he, he ▸ h⟩, And.left⟩

/-- A name that is cut out of the selector `x` between `seps`. -/
structure NameIn (x seps name : Text) : Prop where
  subset : name ⊆ x
  trimmed : Text.trim name = name
  lacks : name.Lacks seps

theorem NameIn.lacks_append {x seps cs name : Text} (h : NameIn x seps name) (hx : x.Lacks cs) :
    name.Lacks (seps ++ cs) :=
  h.lacks.append (hx.sub h.subset)

section

variable {x : Text}

theorem nameIn_trim {seps w : Text} (hw : w ⊆ x) (hlacks : w.Lacks seps) :
    NameIn x seps (Text.trim w) :=
  ⟨List.Subset.trans (Text.trim_subset w) hw, Text.trim_trim w, hlacks.sub (Text.trim_subset w)⟩

/-- What stands before the first dot is cut at the number signs. -/
theorem lacks_head {w : Text}
    (hw : w ∈ ((x.splitOn (.char '.')).headD []).splitOn (.char '#')) :
    w ⊆ x ∧ w.Lacks ['.', '#'] := by
  have hhead := Text.headD_mem_splitOn (.char '.') x
  have hin := Text.infix_of_mem_splitOnP hw
  refine ⟨(hin.trans (Text.infix_of_mem_splitOnP hhead)).subset, ?_⟩
  exact (((Text.lacks_nil x).piece hhead).piece hw).of_subset (by simp)

theorem tag_selector (defaultTag x : Text) : (selector defaultTag x).tag = defaultTag
    ∨ (selector defaultTag x).tag ≠ [] ∧ NameIn x ['.', '#'] (selector defaultTag x).tag := by
  unfold selector orElse
  dsimp only
  split_ifs with hnil
  · exact .inl rfl
  · obtain ⟨hsub, hlacks⟩ :=
      lacks_head (Text.headD_mem_splitOn (.char '#') ((x.splitOn (.char '.')).headD []))
    exact .inr ⟨by simpa using hnil, nameIn_trim hsub hlacks⟩

theorem id_selector {defaultTag i : Text} (hi : i ∈ (selector defaultTag x).id) :
    i ≠ [] ∧ NameIn x ['.', '#'] i := by
  obtain ⟨w, hw, hne⟩ := Option.bind_eq_some_iff.1 hi
  obtain ⟨rfl, hnil⟩ := nonEmpty_eq_some_iff.1 hne
  obtain ⟨hsub, hlacks⟩ := lacks_head (List.mem_of_mem_tail (List.mem_of_mem_head? hw))
  exact ⟨hnil, nameIn_trim hsub hlacks⟩

theorem class_selector {defaultTag k : Text} (hk : k ∈ (selector defaultTag x).classes) :
    NameIn x ['.'] k := by
  obtain ⟨w, hw, rfl⟩ := List.mem_map.1 hk
  have hpiece := List.mem_of_mem_tail hw
  exact nameIn_trim (Text.infix_of_mem_splitOnP hpiece).subset ((Text.lacks_nil x).piece hpiece)

end

theorem infix_unquote (value : Text) : unquote value <:+: value := by
  unfold unquote
  rcases h : Text.cutFirst '"' value with _ | ⟨a, r⟩
  · exact List.infix_refl value
  obtain ⟨rfl, -⟩ := Text.cutFirst_eq_some_iff.1 h
  have hr : r <:+ a ++ .char '"' :: r := (List.suffix_cons _ r).trans (List.suffix_append _ _)
  rcases hl : Text.cutLast '"' r with _ | ⟨inner, b⟩ <;> simp only [hl]
  · exact List.nil_infix
  · obtain ⟨rfl, -⟩ := Text.cutLast_eq_some_iff.1 hl
    exact (List.prefix_append inner _).isInfix.trans hr.isInfix

/-- An item of an attribute block and the attribute that is read from it. -/
def ItemOf (item : Text) (a : Text × Text) : Prop :=
  ∃ value, item = a.1 ++ .char '=' :: value ∧ .char '=' ∉ a.1 ∧ a.2 <:+: value

theorem itemOf_pair {e : Option Text} {item : Text} {a : Text × Text}
    (h : pair e block item = .ok a) : ItemOf item a := by
  unfold pair at h
  rcases hc : Text.cutFirst '=' item with _ | ⟨name, value⟩ <;> rw [hc] at h
  · cases h
  · obtain ⟨hitem, hname⟩ := Text.cutFirst_eq_some_iff.1 hc
    rw [← Except.ok.inj h]
    exact ⟨value, hitem, hname, infix_unquote value⟩

theorem ItemOf.subset {item : Text} {a : Text × Text} (h : ItemOf item a) :
    a.1 ⊆ item ∧ a.2 ⊆ item := by
  obtain ⟨value, rfl, -, hvalue⟩ := h
  refine ⟨List.subset_append_left _ _, fun c hc => ?_⟩
  exact List.mem_append_right _ (List.mem_cons_of_mem _ (hvalue.subset hc))

/-- An attribute that is cut out of an attribute block between blanks. -/
structure PairIn (block : Text) (a : Text × Text) : Prop where
  subset : a.1 ⊆ block ∧ a.2 ⊆ block
  solid : (∀ c ∈ a.1, Text.isBlank c = false) ∧ ∀ c ∈ a.2, Text.isBlank c = false
  notMem : .char '=' ∉ a.1

theorem ItemOf.pairIn {item : Text} {a : Text × Text} (h : ItemOf item a)
    (hitem : item ∈ Text.words block) : PairIn block a := by
  obtain ⟨hsolid, hin⟩ := Text.of_mem_words hitem
  obtain ⟨hname, hvalue⟩ := h.subset
  obtain ⟨value, -, heq, -⟩ := h
  exact ⟨⟨List.Subset.trans hname hin.subset, List.Subset.trans hvalue hin.subset⟩,
    ⟨fun c hc => hsolid c (hname hc), fun c hc => hsolid c (hvalue hc)⟩, heq⟩

/-! ### Fields -/

/-- What the fields of a node are in terms of the parts of a leaf. -/
structure FieldsOf (defaultTag : Text) (p : Parts) (n : Node) : Prop where
  tag : n.tag = (selector defaultTag p.selector).tag
  id : n.id = (selector defaultTag p.selector).id
  classes : n.classes = (selector defaultTag p.selector).classes
  text : n.text = p.text.bind nonEmpty
  attributes : ∀ a ∈ n.attributes, ∃ block, p.attributes = some block
    ∧ ∃ item ∈ Text.words block, ItemOf item a

variable {defaultTag : Text} {e : Option Text} {n : Node}

theorem FieldsOf.exists_block (h : FieldsOf defaultTag (split t) n) {a : Text × Text}
    (ha : a ∈ n.attributes) : ∃ block, HasBlock t block ∧ PairIn block a := by
  obtain ⟨block, hblock, item, hitem, hof⟩ := h.attributes a ha
  exact ⟨block, split_attributes_eq_some_iff.1 hblock, hof.pairIn hitem⟩

theorem fieldsOf_expand (h : expand defaultTag e t = .ok n) : FieldsOf defaultTag (split t) n := by
  unfold expand at h
  dsimp only at h
  split at h
  · rename_i source hsource
    obtain ⟨block, hblock, hnonEmpty⟩ := Option.bind_eq_some_iff.1 hsource
    obtain ⟨rfl, -⟩ := nonEmpty_eq_some_iff.1 hnonEmpty
    obtain ⟨attrs, hattrs, hn⟩ := bind_eq_ok_iff.1 h
    rw [← Except.ok.inj hn]
    refine ⟨rfl, rfl, rfl, rfl, fun a ha => ⟨block, hblock, ?_⟩⟩
    obtain ⟨item, hitem, hpair⟩ := exists_of_mem_mapM_ok hattrs ha
    exact ⟨item, hitem, itemOf_pair hpair⟩
  · obtain ⟨attrs, hattrs, hn⟩ := bind_eq_ok_iff.1 h
    rw [← Except.ok.inj hn, ← Except.ok.inj hattrs]
    exact ⟨rfl, rfl, rfl, rfl, by simp⟩

theorem FieldsOf.of_text {p : Parts} (h : FieldsOf defaultTag p n) {text : Text}
    (ht : n.text = some text) : p.text = some text ∧ text ≠ [] := by
  rw [h.text] at ht
  obtain ⟨u, hu, hne⟩ := Option.bind_eq_some_iff.1 ht
  obtain ⟨rfl, hnil⟩ := nonEmpty_eq_some_iff.1 hne
  exact ⟨hu, hnil⟩

/-- All fields but the default tag are cut out of the leaf. -/
theorem fields_subset (h : expand defaultTag e t = .ok n) :
    (n.tag = defaultTag ∨ n.tag ⊆ t) ∧ ∀ f ∈ n.fields.tail, f ⊆ t := by
  have hfields := fieldsOf_expand h
  have hname {x : Text} {seps : Text} (hx : NameIn (split t).selector seps x) : x ⊆ t :=
    List.Subset.trans hx.subset (selector_subset t)
  refine ⟨?_, fun f hf => ?_⟩
  · rw [hfields.tag]
    exact (tag_selector defaultTag (split t).selector).imp_right fun htag => hname htag.2
  simp only [Node.fields, Node.names, List.cons_append, List.tail_cons, List.mem_append,
    Option.mem_toList, List.mem_flatMap] at hf
  rcases hf with ((hid | hclass) | ⟨a, ha, hf⟩) | htext
  · exact hname (id_selector (hfields.id ▸ hid)).2
  · exact hname (class_selector (hfields.classes ▸ hclass))
  · obtain ⟨block, hblock, hpair⟩ := hfields.exists_block ha
    have hin : block ⊆ t := hblock.isInfix.subset
    simp only [List.mem_cons, List.not_mem_nil, or_false] at hf
    rcases hf with rfl | rfl
    · exact List.Subset.trans hpair.subset.1 hin
    · exact List.Subset.trans hpair.subset.2 hin
  · exact (split_text_eq_some_iff.1 (hfields.of_text htext).1).subset

end Leaf

/-! ### Forests -/

theorem Node.everywhere_of_elements {P : Node → Prop} (n : Node) (h : ∀ k ∈ n.elements, P k) :
    n.Everywhere fun k => P k.bare := by
  have helements : ∀ k ∈ n.bare :: n.children.flatMap Node.elements, P k := n.elements_eq ▸ h
  obtain ⟨hn, hchildren⟩ := List.forall_mem_cons.1 helements
  refine .intro hn fun c hc => ?_
  have hlt := List.sizeOf_lt_of_mem hc
  exact c.everywhere_of_elements fun k hk => hchildren k (List.mem_flatMap.2 ⟨c, hc, hk⟩)
termination_by sizeOf n
decreasing_by
  cases n
  simp_all only [Node.mk.sizeOf_spec]
  omega

theorem Node.Everywhere.of_mem_elements {P : Node → Prop} {n k : Node}
    (h : n.Everywhere fun m => P m.bare) (hk : k ∈ n.elements) : P k := by
  induction h generalizing k with
  | @intro n hn _ ih =>
    rw [n.elements_eq] at hk
    rcases List.mem_cons.1 hk with rfl | hk
    · exact hn
    · obtain ⟨c, hc, hk⟩ := List.mem_flatMap.1 hk
      exact ih c hc hk

namespace Keeps

variable {defaultTag : Text} {e : Option Text} {leaves : List Text} {ns : List Node}
  (h : Keeps defaultTag e leaves ns)

include h

theorem exists_leaf {k : Node} (hk : k ∈ forestElements ns) :
    ∃ leaf ∈ leaves, Leaf.expand defaultTag e leaf = .ok k := by
  obtain ⟨elements, hleaves, helements⟩ := h
  have hmem : k ∈ elements := by
    rwa [← Multiset.mem_coe, ← helements, Multiset.mem_coe]
  exact exists_of_mem_mapM_ok hleaves hmem

theorem exists_element {leaf : Text} (hl : leaf ∈ leaves) :
    ∃ k ∈ forestElements ns, Leaf.expand defaultTag e leaf = .ok k := by
  obtain ⟨elements, hleaves, helements⟩ := h
  obtain ⟨k, hk, hexpand⟩ := exists_of_mem_forall₂ (mapM_eq_ok_iff.1 hleaves) hl
  refine ⟨k, ?_, hexpand⟩
  rwa [← Multiset.mem_coe, helements, Multiset.mem_coe]

/-- What the nodes of all leaves satisfy is satisfied everywhere in the forest. -/
theorem everywhere {P : Node → Prop}
    (hp : ∀ leaf ∈ leaves, ∀ k, Leaf.expand defaultTag e leaf = .ok k → P k) :
    ∀ n ∈ ns, n.Everywhere fun k => P k.bare := by
  intro n hn
  refine n.everywhere_of_elements fun k hk => ?_
  have hmem : k ∈ forestElements ns := by
    rw [forestElements_eq_flatMap]
    exact List.mem_flatMap.2 ⟨n, hn, hk⟩
  obtain ⟨leaf, hl, hexpand⟩ := h.exists_leaf hmem
  exact hp leaf hl k hexpand

end Keeps

end Shorthand
