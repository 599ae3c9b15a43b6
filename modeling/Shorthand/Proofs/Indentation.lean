import Shorthand.Outline
import Shorthand.Proofs.LoadedSettings
import Shorthand.Proofs.WellCut

/-!
# Outlines

An outline has a line for each node of a forest, in pre-order. If no label ends a line or starts
with a space, the lines tell the depths of the nodes, and two forests with the same outline have the
same labels at the same places (`sameLabels_of_outline`). Nodes that come from an expression have
such labels, since their fields have no blanks but spaces and a tag has none at its ends
(`outline_expand`).
-/

namespace Shorthand

/-- What holds up to some place and not there tells that place. -/
theorem cut_of_head {α : Type} {p : α → Bool} {a b : List α} (ha : ∀ x ∈ a, p x = true)
    (hb : ∀ x ∈ b.head?, p x = false) :
    (a ++ b).takeWhile p = a ∧ (a ++ b).dropWhile p = b := by
  rw [List.takeWhile_append_of_pos ha, List.dropWhile_append_of_pos ha]
  rcases b with _ | ⟨x, b⟩
  · exact ⟨List.append_nil a, rfl⟩
  · have hx : ¬ p x = true := by simp [hb x rfl]
    rw [List.takeWhile_cons_of_neg hx, List.dropWhile_cons_of_neg hx, List.append_nil]
    exact ⟨rfl, rfl⟩

namespace Node

/-! ### Places of nodes -/

mutual

/-- A node and all nodes below it in pre-order, each after its depth. -/
def ranked (depth : Nat) : Node → List (Nat × Node)
  | ⟨tag, id, classes, attributes, text, children⟩ =>
    (depth, ⟨tag, id, classes, attributes, text, children⟩) :: forestRanked (depth + 1) children

def forestRanked (depth : Nat) : List Node → List (Nat × Node)
  | [] => []
  | n :: ns => n.ranked depth ++ forestRanked depth ns

end

/-- Two nodes with the same label that have alike nodes below them, in the same order. -/
inductive SameLabels : Node → Node → Prop
  | intro {m n : Node} : m.label = n.label → List.Forall₂ SameLabels m.children n.children →
    SameLabels m n

variable {depth : Nat} {m n : Node} {ms ns : List Node} {p : Nat × Node}

theorem ranked_eq (depth : Nat) (n : Node) :
    n.ranked depth = (depth, n) :: forestRanked (depth + 1) n.children := by
  obtain ⟨tag, id, classes, attributes, text, children⟩ := n
  rfl

mutual

theorem le_of_mem_ranked {depth : Nat} : ∀ {n : Node}, p ∈ n.ranked depth → depth ≤ p.1
  | ⟨_, _, _, _, _, children⟩, h => by
    rw [ranked] at h
    rcases List.mem_cons.1 h with rfl | h
    · exact le_rfl
    · exact (Nat.le_succ _).trans (le_of_mem_forestRanked h)

theorem le_of_mem_forestRanked {depth : Nat} : ∀ {ns : List Node}, p ∈ forestRanked depth ns →
    depth ≤ p.1
  | [], h => by cases h
  | n :: ns, h => by
    rw [forestRanked] at h
    rcases List.mem_append.1 h with h | h
    · exact le_of_mem_ranked h
    · exact le_of_mem_forestRanked h

end

mutual

theorem Everywhere.of_mem_ranked {P : Node → Prop} {depth : Nat} : ∀ {n : Node}, n.Everywhere P →
    p ∈ n.ranked depth → P p.2
  | ⟨_, _, _, _, _, children⟩, hn, h => by
    rw [ranked] at h
    rcases List.mem_cons.1 h with rfl | h
    · exact hn.here
    · exact of_mem_forestRanked (everywhere_iff.1 hn).2 h

theorem of_mem_forestRanked {P : Node → Prop} {depth : Nat} : ∀ {ns : List Node},
    (∀ n ∈ ns, n.Everywhere P) → p ∈ forestRanked depth ns → P p.2
  | [], _, h => by cases h
  | n :: ns, hns, h => by
    obtain ⟨hn, hns⟩ := List.forall_mem_cons.1 hns
    rw [forestRanked] at h
    rcases List.mem_append.1 h with h | h
    · exact hn.of_mem_ranked h
    · exact of_mem_forestRanked hns h

end

theorem forestRanked_ne_nil (h : ns ≠ []) : forestRanked depth ns ≠ [] := by
  obtain ⟨n, ns, rfl⟩ := List.exists_cons_of_ne_nil h
  rw [forestRanked, ranked_eq]
  exact List.cons_ne_nil _ _

/-! ### Depths tell the places -/

/-- What a line shows of a node. -/
def shown (p : Nat × Node) : Nat × Text :=
  (p.1, p.2.label)

/-- The nodes below one node come before the first that is not deeper than it. -/
theorem head?_forestRanked (depth : Nat) (ns : List Node) :
    ∀ x ∈ ((forestRanked depth ns).map shown).head?, decide (depth < x.1) = false := by
  rcases ns with _ | ⟨n, ns⟩
  · simp [forestRanked]
  · simp [forestRanked, ranked_eq, shown]

theorem depth_lt_of_mem (depth : Nat) (ns : List Node) :
    ∀ x ∈ (forestRanked (depth + 1) ns).map shown, decide (depth < x.1) = true := by
  intro x hx
  obtain ⟨p, hp, rfl⟩ := List.mem_map.1 hx
  exact decide_eq_true (le_of_mem_forestRanked hp)

theorem sameLabels_of_ranked {depth : Nat} : ∀ {ms ns : List Node},
    (forestRanked depth ms).map shown = (forestRanked depth ns).map shown →
      List.Forall₂ SameLabels ms ns
  | [], [], _ => .nil
  | [], n :: ns, h => by
    rw [forestRanked, forestRanked, ranked_eq] at h
    cases h
  | m :: ms, [], h => by
    rw [forestRanked, forestRanked, ranked_eq] at h
    cases h
  | m :: ms, n :: ns, h => by
    simp only [forestRanked, ranked_eq, List.map_append, List.map_cons, List.cons_append,
      List.cons.injEq] at h
    obtain ⟨hlabel, h⟩ := h
    obtain ⟨hbelow, hbeside⟩ := cut_of_head (depth_lt_of_mem depth m.children)
      (head?_forestRanked depth ms)
    obtain ⟨hbelow', hbeside'⟩ := cut_of_head (depth_lt_of_mem depth n.children)
      (head?_forestRanked depth ns)
    rw [h] at hbelow hbeside
    exact .cons (.intro (Prod.mk.inj hlabel).2 (sameLabels_of_ranked (hbelow.symm.trans hbelow')))
      (sameLabels_of_ranked (hbeside.symm.trans hbeside'))
termination_by ms => sizeOf ms
decreasing_by
  all_goals
    cases m
    simp_all only [Node.mk.sizeOf_spec, List.cons.sizeOf_spec]
    omega

/-! ### Lines -/

/-- The line of a node at some depth. -/
def line (p : Nat × Node) : Text :=
  List.replicate (2 * p.1) (.char ' ') ++ p.2.label

/-- The depth and the label that a line shows. -/
def readLine (t : Text) : Nat × Text :=
  let isSpace (c : CodePoint) : Bool := c == ' '
  ((t.takeWhile isSpace).length / 2, t.dropWhile isSpace)

/-- A label that stands on a line of its own and does not look like an indentation. -/
structure OneLine (n : Node) : Prop where
  unbroken : .char '\n' ∉ n.label
  flush : ∀ c ∈ n.label.head?, c ≠ ' '

theorem readLine_line {p : Nat × Node} (h : p.2.OneLine) : readLine (line p) = shown p := by
  have hspaces : ∀ c ∈ List.replicate (2 * p.1) (CodePoint.char ' '), (c == ' ') = true :=
    fun c hc => by rw [List.eq_of_mem_replicate hc, beq_self_eq_true]
  obtain ⟨hindent, hlabel⟩ := cut_of_head hspaces fun c hc => beq_false_of_ne (h.flush c hc)
  rw [readLine, line, hindent, hlabel, List.length_replicate, Nat.mul_div_cancel_left _ Nat.two_pos]
  rfl

theorem indentation_eq : ∀ depth : Nat,
    indentation "  " depth = List.replicate (2 * depth) (.char ' ')
  | 0 => rfl
  | depth + 1 => by
    rw [indentation, List.replicate_succ, List.flatten_cons, ← indentation, indentation_eq depth,
      Nat.mul_succ, Nat.add_comm, List.replicate_add]
    rfl

mutual

theorem outlineLines_eq (depth : Nat) : ∀ n : Node,
    outlineLines "  " depth n = (n.ranked depth).map line
  | ⟨tag, id, classes, attributes, text, children⟩ => by
    rw [outlineLines, ranked, List.map_cons, forestLines_eq (depth + 1) children, indentation_eq]
    rfl

theorem forestLines_eq (depth : Nat) : ∀ ns : List Node,
    forestLines "  " depth ns = (forestRanked depth ns).map line
  | [] => rfl
  | n :: ns => by
    rw [forestLines, forestRanked, List.map_append, outlineLines_eq depth n,
      forestLines_eq depth ns]

end

theorem splitOn_outline (hne : ns ≠ []) (h : ∀ n ∈ ns, n.Everywhere OneLine) :
    (outline "  " ns).splitOn (.char '\n') = (forestRanked 0 ns).map line := by
  rw [outline, forestLines_eq]
  refine List.splitOn_intercalate (CodePoint.char '\n') (fun t ht => ?_)
    (by simpa using forestRanked_ne_nil hne)
  obtain ⟨p, hp, rfl⟩ := List.mem_map.1 ht
  rw [line, List.mem_append, List.mem_replicate, not_or]
  exact ⟨fun hspace => absurd hspace.2 (by decide), (of_mem_forestRanked h hp).unbroken⟩

theorem map_shown_forestRanked (hne : ns ≠ []) (h : ∀ n ∈ ns, n.Everywhere OneLine) :
    (forestRanked 0 ns).map shown = ((outline "  " ns).splitOn (.char '\n')).map readLine := by
  rw [splitOn_outline hne h, List.map_map]
  exact List.map_congr_left fun p hp => (readLine_line (of_mem_forestRanked h hp)).symm

/-- Forests of labels on one line are told apart by their outlines, up to what labels leave out. -/
theorem sameLabels_of_outline (hm : ms ≠ []) (hms : ∀ m ∈ ms, m.Everywhere OneLine) (hn : ns ≠ [])
    (hns : ∀ n ∈ ns, n.Everywhere OneLine) (h : outline "  " ms = outline "  " ns) :
    List.Forall₂ SameLabels ms ns := by
  have hshown : (forestRanked 0 ms).map shown = (forestRanked 0 ns).map shown := by
    rw [map_shown_forestRanked hm hms, h, map_shown_forestRanked hn hns]
  exact sameLabels_of_ranked hshown

/-! ### Labels of nodes that are well cut -/

theorem WellCut.unbroken (h : n.WellCut defaultTag) : .char '\n' ∉ n.label := by
  intro hm
  have hspaced {f : Text} (hf : f.Spaced) : .char '\n' ∉ f := fun hn => absurd (hf _ hn) (by decide)
  rcases shows_label _ hm with ⟨f, hf, hc⟩ | hc
  · rcases List.mem_cons.1 (show f ∈ n.tag :: n.fields.tail from hf) with rfl | hf
    · rcases h.tag with htag | ⟨-, -, -, htag⟩
      · rw [htag] at hc
        exact absurd hc (by decide)
      · exact hspaced htag hc
    · exact hspaced (h.spaced f hf) hc
  · exact absurd hc (by decide)

/-- A label starts with its tag, which is never empty. -/
theorem WellCut.flush (h : n.WellCut defaultTag) : ∀ c ∈ n.label.head?, c ≠ ' ' := by
  have htag : n.tag ≠ [] ∧ ∀ c ∈ n.tag.head?, c ≠ ' ' := by
    rcases h.tag with heq | ⟨hne, htrim, -⟩
    · rw [heq]
      decide
    · refine ⟨hne, fun c hc hspace => ?_⟩
      have hends : ∀ c ∈ n.tag.head?, Text.isBlank c = false :=
        (dropWhile_rdropWhile_eq_self.1 htrim).1
      exact absurd (hends c hc) (by rw [hspace]; decide)
  obtain ⟨d, r, hd⟩ := List.exists_cons_of_ne_nil htag.1
  intro c hc
  rw [label_eq, selectorLabel, headLabel, hd] at hc
  exact htag.2 c (by rw [hd]; exact hc)

end Node

theorem oneLine_of_expand {source : Text} {drawn : Nat} {ns : List Node}
    (h : expand {} source drawn = .ok ns) : ns ≠ [] ∧ ∀ n ∈ ns, n.Everywhere Node.OneLine := by
  constructor
  · rcases expand_of_safe (s := {}) (by simp) source drawn with ⟨ms, hms, hne⟩ | ⟨r, hr, -⟩
    · rw [h] at hms
      exact Except.ok.inj hms ▸ hne
    · rw [h] at hr
      cases hr
  · refine fun n hn => (everywhere_of_expand (P := Node.WellCut defaultTag) h ?_ n hn).imp
      fun k hk => ⟨hk.of_bare.unbroken, hk.of_bare.flush⟩
    intro leaf hleaf k hk
    exact Leaf.wellCut_expand (fun c hc => Text.spaced_normalize source c (hleaf.subset hc)) hk

/-- The outline of what an expression expands to has a line for each node, in pre-order, which is
indented by two spaces for each level and then shows the label. No label starts with a space, so
that expressions with the same outline expand to the same labels at the same places. -/
theorem outline_expand {source : Text} {drawn : Nat} {ns : List Node}
    (h : expand {} source drawn = .ok ns) :
    (outline "  " ns).splitOn (.char '\n') = (Node.forestRanked 0 ns).map
        (fun p => List.replicate (2 * p.1) (.char ' ') ++ p.2.label)
      ∧ (∀ p ∈ Node.forestRanked 0 ns, p.2.label.head? ≠ some (.char ' '))
      ∧ ∀ (other : Text) (drawn' : Nat) (ms : List Node), expand {} other drawn' = .ok ms →
        outline "  " ms = outline "  " ns → List.Forall₂ Node.SameLabels ms ns := by
  obtain ⟨hne, hns⟩ := oneLine_of_expand h
  refine ⟨Node.splitOn_outline hne hns, fun p hp hspace => ?_, fun other drawn' ms hms heq => ?_⟩
  · exact (Node.of_mem_forestRanked hns hp).flush _ hspace rfl
  · obtain ⟨hne', hms⟩ := oneLine_of_expand hms
    exact Node.sameLabels_of_outline hne' hms hne hns heq

/-- A second open brace puts the text block before it into the tag, which the label does not
tell. -/
theorem outline_expand_of_braces :
    ∃ ns ms, expand {} "ul>(a{b c}+li)+p" = .ok ns
      ∧ expand {} " ul > ( a\x7bb c\x7d\x7b + li ) + p" 7 = .ok ms
      ∧ (outline "  " ns).splitOn (.char '\n') = (Node.forestRanked 0 ns).map
        (fun p => List.replicate (2 * p.1) (.char ' ') ++ p.2.label)
      ∧ (∀ p ∈ Node.forestRanked 0 ns, p.2.label.head? ≠ some (.char ' '))
      ∧ outline "  " ms = outline "  " ns ∧ List.Forall₂ Node.SameLabels ms ns := by
  have hsame : (expand {} " ul > ( a\x7bb c\x7d\x7b + li ) + p" 7).toOption.map (outline "  ")
      = (expand {} "ul>(a{b c}+li)+p").toOption.map (outline "  ") := by
    decide +kernel
  obtain ⟨ns, hns⟩ := isOk_iff.1
    (show (expand {} "ul>(a{b c}+li)+p").isOk = true by decide +kernel)
  obtain ⟨ms, hms⟩ := isOk_iff.1
    (show (expand {} " ul > ( a\x7bb c\x7d\x7b + li ) + p" 7).isOk = true by decide +kernel)
  rw [hns, hms] at hsame
  have hout : outline "  " ms = outline "  " ns := Option.some.inj hsame
  obtain ⟨hlines, hflush, hlabels⟩ := outline_expand hns
  exact ⟨ns, ms, hns, hms, hlines, hflush, hout, hlabels _ 7 ms hms hout⟩

end Shorthand
