import Mathlib.Tactic.MkIffOfInductiveProp
import Shorthand.Expansion
import Shorthand.Outline
import Shorthand.Proofs.Result
import Shorthand.Proofs.Tidy

/-!
# Labels are read back

A legible node has nothing in its fields that would be taken for the start of another part of its
label, so that each part is found where it was put (`expand_label`). Quotes may stand in a value,
since the outer ones count, and a class may be empty. If normalizing leaves the fields alone too,
the label is an expression for the node (`expandSingle_label`).
-/

namespace Shorthand

/-- None of `cs` is in the text. -/
def Text.Lacks (t cs : Text) : Prop :=
  ∀ c ∈ cs, c ∉ t

instance (t cs : Text) : Decidable (t.Lacks cs) :=
  inferInstanceAs (Decidable (∀ c ∈ cs, c ∉ t))

namespace Text

variable {c : CodePoint} {t u w cs ds : Text}

theorem Lacks.sub (h : t.Lacks cs) (hu : u ⊆ t) : u.Lacks cs :=
  fun d hd hm => h d hd (hu hm)

theorem Lacks.of_subset (h : t.Lacks cs) (hd : ds ⊆ cs) : t.Lacks ds :=
  fun d hm => h d (hd hm)

theorem lacks_nil (t : Text) : t.Lacks [] :=
  fun _ hd => absurd hd List.not_mem_nil

theorem lacks_cons : t.Lacks (c :: cs) ↔ c ∉ t ∧ t.Lacks cs :=
  List.forall_mem_cons

theorem Lacks.append (hc : t.Lacks cs) (hd : t.Lacks ds) : t.Lacks (cs ++ ds) :=
  List.forall_mem_append.2 ⟨hc, hd⟩

/-- A piece lacks the separator, and what the text lacks. -/
theorem Lacks.piece (h : t.Lacks cs) (hw : w ∈ t.splitOn c) : w.Lacks (c :: cs) :=
  lacks_cons.2 ⟨notMem_of_mem_splitOn hw, h.sub (infix_of_mem_splitOnP hw).subset⟩

end Text

namespace Node

/-- The parts of a selector. -/
def names (n : Node) : List Text :=
  n.tag :: (n.id.toList ++ n.classes)

/-- Whether the label of a node can be told apart into the fields of the node. -/
@[mk_iff] structure Legible (n : Node) : Prop where
  trimmed : ∀ name ∈ n.names, Text.trim name = name
  tag : n.tag ≠ [] ∧ n.tag.Lacks ['.', '#', '[', '{']
  id : ∀ i ∈ n.id, i ≠ [] ∧ i.Lacks ['.', '#', '[', '{']
  classes : ∀ k ∈ n.classes, k.Lacks ['.', '[', '{']
  attribute_names : ∀ a ∈ n.attributes,
    (∀ c ∈ a.1, Text.isBlank c = false) ∧ a.1.Lacks ['=', '[', ']', '{']
  attribute_values : ∀ a ∈ n.attributes,
    (∀ c ∈ a.2, Text.isBlank c = false) ∧ a.2.Lacks ['[', ']', '{']
  text : ∀ t ∈ n.text, t ≠ [] ∧ t.Lacks ['{', '}']

instance (n : Node) : Decidable n.Legible :=
  decidable_of_iff _ (legible_iff n).symm

def headLabel (n : Node) : Text :=
  n.tag ++ n.id.toList.flatMap (.char '#' :: ·)

def selectorLabel (n : Node) : Text :=
  n.headLabel ++ n.classes.flatMap (.char '.' :: ·)

def attributesLabel (n : Node) : Text :=
  if n.attributes.isEmpty then []
  else "[" ++ (" " : Text).intercalate (n.attributes.map attributeLabel) ++ "]"

def textLabel (n : Node) : Text :=
  n.text.elim [] fun t => "\x7b" ++ t ++ "\x7d"

theorem label_eq (n : Node) : n.label = n.selectorLabel ++ n.attributesLabel ++ n.textLabel := by
  have hid : (n.id.elim [] ('#' :: ·) : Text) = n.id.toList.flatMap (.char '#' :: ·) := by
    rcases n.id with _ | i <;> simp
  unfold label selectorLabel headLabel
  rw [← hid]
  rfl

variable {n : Node} {c : CodePoint}

theorem mem_headLabel (h : c ∈ n.headLabel) : c ∈ n.tag ∨ ∃ i ∈ n.id, c = '#' ∨ c ∈ i := by
  rcases List.mem_append.1 h with h | h
  · exact .inl h
  · obtain ⟨i, hi, h⟩ := List.mem_flatMap.1 h
    exact .inr ⟨i, Option.mem_toList.1 hi, List.mem_cons.1 h⟩

theorem mem_selectorLabel (h : c ∈ n.selectorLabel) :
    c ∈ n.headLabel ∨ ∃ k ∈ n.classes, c = '.' ∨ c ∈ k := by
  rcases List.mem_append.1 h with h | h
  · exact .inl h
  · obtain ⟨k, hk, h⟩ := List.mem_flatMap.1 h
    exact .inr ⟨k, hk, List.mem_cons.1 h⟩

theorem mem_attributeLabel {a : Text × Text} (h : c ∈ attributeLabel a) :
    c ∈ a.1 ∨ c = '=' ∨ c = '"' ∨ c ∈ a.2 := by
  rcases List.mem_append.1 h with h | h
  · rcases List.mem_append.1 h with h | h
    · rcases List.mem_append.1 h with h | h
      · exact .inl h
      · simp [Text.ofString] at h
        tauto
    · exact .inr (.inr (.inr h))
  · simp [Text.ofString] at h
    exact .inr (.inr (.inl h))

/-- A value may have quotes in it, the ones put around it are the outer ones. -/
theorem unquote_quoted (value : Text) : Leaf.unquote ("\"" ++ value ++ "\"") = value := by
  have hquoted : ("\"" ++ value ++ "\"" : Text) = .char '"' :: (value ++ [.char '"']) := by
    simp [Text.ofString]
  have hfirst := Text.cutFirst_append (c := .char '"') List.not_mem_nil (value ++ [.char '"'])
  rw [List.nil_append] at hfirst
  rw [hquoted, Leaf.unquote, hfirst]
  simp only [Text.cutLast_append value List.not_mem_nil]

theorem pair_attributeLabel {a : Text × Text} (h : .char '=' ∉ a.1) (e : Option Text)
    (source : Text) : Leaf.pair e source (attributeLabel a) = .ok a := by
  have hcut : attributeLabel a = a.1 ++ .char '=' :: ("\"" ++ a.2 ++ "\"" : Text) := by
    simp [attributeLabel, Text.ofString]
  rw [hcut, Leaf.pair, Text.cutFirst_append h]
  simp only [unquote_quoted]

namespace Legible

variable (h : n.Legible)

include h

theorem headLabel_lacks : n.headLabel.Lacks ['.', '[', '{'] := by
  intro d hd hmem
  rcases mem_headLabel hmem with hc | ⟨i, hi, rfl | hc⟩
  · exact h.tag.2 d (by simp at hd ⊢; tauto) hc
  · simp at hd
  · exact (h.id i hi).2 d (by simp at hd ⊢; tauto) hc

theorem selectorLabel_lacks : n.selectorLabel.Lacks ['[', '{'] := by
  intro d hd hmem
  rcases mem_selectorLabel hmem with hc | ⟨k, hk, rfl | hc⟩
  · exact h.headLabel_lacks d (List.mem_cons_of_mem _ hd) hc
  · simp at hd
  · exact h.classes k hk d (List.mem_cons_of_mem _ hd) hc

theorem attributes_lack :
    Text.Lacks ((" " : Text).intercalate (n.attributes.map attributeLabel)) ['[', ']', '{'] := by
  intro d hd hmem
  rcases Text.mem_intercalate hmem with hc | ⟨t, ht, hc⟩
  · rw [List.mem_singleton.1 hc] at hd
    exact absurd hd (by decide)
  · obtain ⟨a, ha, rfl⟩ := List.mem_map.1 ht
    rcases mem_attributeLabel hc with hc | rfl | rfl | hc
    · exact (h.attribute_names a ha).2 d (List.mem_cons_of_mem _ hd) hc
    · simp at hd
    · simp at hd
    · exact (h.attribute_values a ha).2 d hd hc

/-- The text block is at the last opening brace. -/
theorem cutText_label :
    Leaf.cutText n.label = (n.selectorLabel ++ n.attributesLabel, n.text) := by
  rw [label_eq, Leaf.cutText]
  unfold textLabel
  rcases ht : n.text with _ | t
  · have hlacks : .char '{' ∉ n.selectorLabel ++ n.attributesLabel := by
      rw [List.mem_append, not_or]
      refine ⟨h.selectorLabel_lacks _ (by simp), ?_⟩
      unfold attributesLabel
      split_ifs
      · simp
      · simpa [Text.ofString] using h.attributes_lack (.char '{') (by simp)
    rw [Option.elim_none, List.append_nil, Text.cutLast_eq_none hlacks]
  · obtain ⟨-, hlacks⟩ := h.text t ht
    have hopen : .char '{' ∉ t ++ [.char '}'] := by
      simpa using hlacks (.char '{') (by simp)
    have hblock : ("\x7b" ++ t ++ "\x7d" : Text) = .char '{' :: (t ++ [.char '}']) := by
      simp [Text.ofString]
    rw [Option.elim_some, hblock, Text.cutLast_append _ hopen]
    simp only [Leaf.blockBefore]
    rw [Text.cutFirst_append (hlacks (.char '}') (by simp))]

/-- The attribute block is at the last opening bracket. -/
theorem cutAttributes_label :
    Leaf.cutAttributes (n.selectorLabel ++ n.attributesLabel) =
      (n.selectorLabel, if n.attributes.isEmpty then none
        else some ((" " : Text).intercalate (n.attributes.map attributeLabel))) := by
  have hsel : .char '[' ∉ n.selectorLabel := h.selectorLabel_lacks _ (by simp)
  have hopen := h.attributes_lack (.char '[') (by simp)
  have hclose := h.attributes_lack (.char ']') (by simp)
  unfold Leaf.cutAttributes attributesLabel
  split_ifs
  · rw [List.append_nil, Text.cutLast_eq_none hsel]
  · generalize (" " : Text).intercalate (n.attributes.map attributeLabel) = block at *
    have hblock : ("[" ++ block ++ "]" : Text) = .char '[' :: (block ++ [.char ']']) := by
      simp [Text.ofString]
    rw [hblock, Text.cutLast_append _ (by simpa using hopen)]
    simp only [Text.cutFirst_append hclose, List.append_nil]

theorem words_attributes : ∀ t ∈ n.attributes.map attributeLabel,
    t ≠ [] ∧ ∀ c ∈ t, Text.isBlank c = false := by
  intro t ht
  obtain ⟨a, ha, rfl⟩ := List.mem_map.1 ht
  refine ⟨by simp [attributeLabel, Text.ofString], fun c hc => ?_⟩
  rcases mem_attributeLabel hc with hc | rfl | rfl | hc
  · exact (h.attribute_names a ha).1 c hc
  · decide
  · decide
  · exact (h.attribute_values a ha).1 c hc

/-- Every item of the block is cut at its equals sign, which is the first one in it. -/
theorem attributes_intercalate (e : Option Text) :
    Leaf.attributes e ((" " : Text).intercalate (n.attributes.map attributeLabel))
      = .ok n.attributes := by
  unfold Leaf.attributes
  rw [Text.words_intercalate h.words_attributes]
  refine (mapM_map_ok (b := fun a => a) fun a ha => ?_).trans (by rw [List.map_id'])
  exact pair_attributeLabel ((h.attribute_names a ha).2 _ (by simp)) e _

theorem splitOn_headLabel : n.headLabel.splitOn (.char '#') = n.tag :: n.id.toList := by
  refine Text.splitOn_flatMap (h.tag.2 _ (by simp)) fun i hi => ?_
  exact (h.id i (Option.mem_toList.1 hi)).2 _ (by simp)

theorem splitOn_selectorLabel :
    n.selectorLabel.splitOn (.char '.') = n.headLabel :: n.classes :=
  Text.splitOn_flatMap (h.headLabel_lacks _ (by simp)) fun k hk => h.classes k hk _ (by simp)

theorem selector_label (defaultTag : Text) :
    Leaf.selector defaultTag n.selectorLabel = ⟨n.tag, n.id, n.classes⟩ := by
  have htag : Text.trim n.tag = n.tag := h.trimmed _ List.mem_cons_self
  have hclasses : n.classes.map Text.trim = n.classes := by
    nth_rewrite 2 [← List.map_id n.classes]
    exact List.map_congr_left fun k hk => h.trimmed k (by simp [names, hk])
  unfold Leaf.selector
  simp only [h.splitOn_selectorLabel, List.headD_cons, h.splitOn_headLabel, List.tail_cons, htag,
    hclasses]
  congr 1
  · simp [Leaf.orElse, h.tag.1]
  · rcases hi : n.id with _ | i
    · rfl
    · simp [Leaf.nonEmpty, (h.id i hi).1, h.trimmed i (by simp [names, hi])]

/-- A block without items is not written, and one that is written is read. -/
theorem block_label (e : Option Text) {block : Option Text}
    (hb : block = if n.attributes.isEmpty then none
      else some ((" " : Text).intercalate (n.attributes.map attributeLabel))) :
    (block.bind Leaf.nonEmpty = none ∧ n.attributes = []) ∨
      ∃ source, block.bind Leaf.nonEmpty = some source
        ∧ Leaf.attributes e source = .ok n.attributes := by
  have hjoin := h.attributes_intercalate e
  split_ifs at hb with ha
  · exact .inl ⟨by rw [hb]; rfl, List.isEmpty_iff.1 ha⟩
  · rw [hb, Option.bind_some]
    rcases hj : (" " : Text).intercalate (n.attributes.map attributeLabel) with _ | ⟨c, r⟩
      <;> rw [hj] at hjoin
    · exact .inl ⟨rfl, (Except.ok.inj hjoin).symm⟩
    · exact .inr ⟨c :: r, rfl, hjoin⟩

/-- A legible node is what its label stands for, its children apart. -/
theorem expand_label (defaultTag : Text) (e : Option Text) :
    Leaf.expand defaultTag e n.label = .ok n.bare := by
  have htext : n.text.bind Leaf.nonEmpty = n.text := by
    rcases ht : n.text with _ | t
    · rfl
    · simp [Leaf.nonEmpty, (h.text t ht).1]
  unfold Leaf.expand Leaf.split
  simp only [h.cutText_label, h.cutAttributes_label, h.selector_label, htext]
  rcases h.block_label e rfl with ⟨hb, ha⟩ | ⟨source, hb, ha⟩
  · rw [hb, bare, ha]
    rfl
  · rw [hb]
    simp only [ha]
    rfl

end Legible

/-- A legible node whose fields are left alone by normalizing. -/
@[mk_iff] structure Stable (n : Node) : Prop extends Legible n where
  normalized : ∀ f ∈ n.names ++ n.text.toList, Text.normalize f = f

instance (n : Node) : Decidable n.Stable :=
  decidable_of_iff _ (stable_iff n).symm

namespace Stable

variable (h : n.Stable)

include h

theorem solid_name {name : Text} (hn : name ∈ n.names) : name.Solid :=
  Text.solid_iff.2 ⟨h.trimmed name hn, h.normalized name (List.mem_append_left _ hn)⟩

theorem solid_selectorLabel : n.selectorLabel.Solid := by
  have hid : Text.Solid (n.id.toList.flatMap (.char '#' :: ·)) :=
    Text.solid_flatMap (by decide) fun i hi => h.solid_name (by unfold names; simp [hi])
  have hclasses : Text.Solid (n.classes.flatMap (.char '.' :: ·)) :=
    Text.solid_flatMap (by decide) fun k hk => h.solid_name (by unfold names; simp [hk])
  exact ((h.solid_name List.mem_cons_self).append hid).append hclasses

theorem solid_attributesLabel : n.attributesLabel.Solid := by
  unfold attributesLabel
  split_ifs
  · exact Text.solid_nil
  · have hjoin := (Text.tidy_intercalate h.words_attributes).1.between (c := .char '[')
      (d := .char ']') (by decide) (by decide)
    simpa [Text.ofString] using hjoin

theorem solid_textLabel : n.textLabel.Solid := by
  unfold textLabel
  rcases ht : n.text with _ | t
  · exact Text.solid_nil
  · have htidy := Text.normalize_eq_self_iff.1 (h.normalized t (by simp [ht]))
    have hblock := htidy.between (c := .char '{') (d := .char '}') (by decide) (by decide)
    simpa [Text.ofString] using hblock

/-- A label has single spaces only, and none at its ends. -/
theorem solid_label : n.label.Solid := by
  rw [label_eq]
  exact (h.solid_selectorLabel.append h.solid_attributesLabel).append h.solid_textLabel

end Stable

theorem bare_eq_self (h : n.children = []) : n.bare = n := by
  cases n
  cases h
  rfl

/-- The label of a stable node without children is an expression for the node, as a single leaf.
Operators and parentheses may stand in any field. -/
theorem expandSingle_label (h : n.Stable) (hc : n.children = []) (s : Settings) :
    expandSingle s n.label = .ok n := by
  have hnormal : Text.normalize n.label = n.label := (Text.solid_iff.1 h.solid_label).2
  unfold expandSingle
  rw [hnormal, h.expand_label, bare_eq_self hc]

/-- A node with brackets, operators and quotes wherever they may be. -/
def crowded : Node where
  tag := "a > (b]"
  id := some "x+]\x7d"
  classes := ["", "c]#d\x7d", "c]#d\x7d"]
  attributes := [("n", "a\"b=c)"), ("n", "\""), ("", "")]
  text := some " t [u] (v=\"w\") "

theorem expandSingle_label_of_crowded : crowded.Stable ∧ crowded.children = []
    ∧ expandSingle {} crowded.label = .ok crowded := by
  have h : crowded.Stable := by decide +kernel
  exact ⟨h, rfl, expandSingle_label h rfl {}⟩

/-! ### The characters of a label -/

def fields (n : Node) : List Text :=
  n.names ++ n.attributes.flatMap (fun a => [a.1, a.2]) ++ n.text.toList

/-- The characters that a label has besides those of the fields. -/
def punctuation : Text :=
  ['#', '.', '[', '=', '"', ' ', ']', '{', '}']

/-- Every character of `t` comes from a field or is punctuation. -/
def Shows (n : Node) (t : Text) : Prop :=
  ∀ c ∈ t, (∃ f ∈ n.fields, c ∈ f) ∨ c ∈ punctuation

theorem shows_field {f : Text} (h : f ∈ n.fields) : n.Shows f :=
  fun _ hc => .inl ⟨f, h, hc⟩

theorem shows_of_subset {t : Text} (h : t ⊆ punctuation) : n.Shows t :=
  fun _ hc => .inr (h hc)

theorem Shows.append {a b : Text} (ha : n.Shows a) (hb : n.Shows b) : n.Shows (a ++ b) :=
  fun c hc => (List.mem_append.1 hc).elim (ha c) (hb c)

theorem shows_flatMap {d : CodePoint} (hd : d ∈ punctuation) {ts : List Text}
    (h : ∀ t ∈ ts, n.Shows t) : n.Shows (ts.flatMap (d :: ·)) := by
  intro c hc
  obtain ⟨t, ht, hc⟩ := List.mem_flatMap.1 hc
  rcases List.mem_cons.1 hc with rfl | hc
  · exact .inr hd
  · exact h t ht c hc

theorem shows_intercalate {sep : Text} (hsep : n.Shows sep) {ts : List Text}
    (h : ∀ t ∈ ts, n.Shows t) : n.Shows (sep.intercalate ts) := by
  intro c hc
  rcases Text.mem_intercalate hc with hc | ⟨t, ht, hc⟩
  · exact hsep c hc
  · exact h t ht c hc

theorem shows_name {name : Text} (h : name ∈ n.names) : n.Shows name :=
  shows_field (List.mem_append_left _ (List.mem_append_left _ h))

theorem shows_selectorLabel : n.Shows n.selectorLabel := by
  have hid : n.Shows (n.id.toList.flatMap (.char '#' :: ·)) :=
    shows_flatMap (by decide) fun i hi => shows_name (by unfold names; simp [hi])
  have hclasses : n.Shows (n.classes.flatMap (.char '.' :: ·)) :=
    shows_flatMap (by decide) fun k hk => shows_name (by unfold names; simp [hk])
  exact ((shows_name List.mem_cons_self).append hid).append hclasses

theorem shows_attributesLabel : n.Shows n.attributesLabel := by
  unfold attributesLabel
  split_ifs
  · exact shows_of_subset (List.nil_subset _)
  have hitems : ∀ t ∈ n.attributes.map attributeLabel, n.Shows t := by
    intro t ht
    obtain ⟨a, ha, rfl⟩ := List.mem_map.1 ht
    have hfields : ∀ f ∈ [a.1, a.2], n.Shows f := fun f hf => shows_field
      (List.mem_append_left _ (List.mem_append_right _ (List.mem_flatMap.2 ⟨a, ha, hf⟩)))
    have hname := (hfields a.1 (by simp)).append (shows_of_subset (t := "=\"") (by decide))
    exact (hname.append (hfields a.2 (by simp))).append (shows_of_subset (by decide))
  have hjoin := shows_intercalate (shows_of_subset (t := " ") (by decide)) hitems
  exact ((shows_of_subset (by decide)).append hjoin).append (shows_of_subset (by decide))

theorem shows_textLabel : n.Shows n.textLabel := by
  unfold textLabel
  rcases ht : n.text with _ | t
  · exact shows_of_subset (List.nil_subset _)
  · have hfield : n.Shows t := shows_field (List.mem_append_right _ (by simp [ht]))
    exact ((shows_of_subset (by decide)).append hfield).append (shows_of_subset (by decide))

theorem shows_label : n.Shows n.label := by
  rw [label_eq]
  exact (shows_selectorLabel.append shows_attributesLabel).append shows_textLabel

end Node

end Shorthand
