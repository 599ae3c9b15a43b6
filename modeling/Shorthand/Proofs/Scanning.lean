import Shorthand.Proofs.Fields
import Shorthand.Proofs.Findings
import Shorthand.Proofs.Label
import Shorthand.Proofs.TreeLeaves

/-!
# Blocks that are scanned

Lint scans the whole text for operators in blocks, one open block at a time. If it finds none, no
block is open at an operator, so that every leaf could have been scanned alone (`Quiet.leaf`). In a
leaf, though, lint takes the first bracket for the start of a block, while a node has its text from
the last brace. The two agree about a block unless it starts inside of one of the other kind, and
then the operators in it come after the end of that one (`operators_in_blocks`).
-/

namespace Shorthand

open TokenSource

namespace Lint

/-! ### Quiet scans -/

/-- What closes the block that is open after a text, if one is. -/
def opened : Option CodePoint → Text → Option CodePoint
  | block, [] => block
  | none, c :: r => opened (closerOf c) r
  | some d, c :: r => opened (if c = d then none else some d) r

/-- No operator is read while a block is open. -/
def Quiet : Option CodePoint → Text → Prop
  | _, [] => True
  | none, c :: r => Quiet (closerOf c) r
  | some d, c :: r => if c = d then Quiet none r else isOperator c = false ∧ Quiet (some d) r

variable {block : Option CodePoint} {a b t : Text} {c d : CodePoint}

theorem blocksFrom_eq_nil_iff {expression : Text} : ∀ {b : Option Block} {t : Text},
    (∀ k ∈ b, k.flagged = false) →
      (blocksFrom expression b t = [] ↔ Quiet (b.map Block.closer) t)
  | none, [], _ => by simp [blocksFrom, Quiet]
  | some b, [], _ => by simp [blocksFrom, Quiet]
  | none, c :: r, _ => by
    rw [blocksFrom, blocksFrom_eq_nil_iff (by simp), Option.map_map, Option.map_none, Quiet]
    rcases closerOf c <;> rfl
  | some b, c :: r, h => by
    have hflag : b.flagged = false := h b rfl
    rw [blocksFrom, hflag, Option.map_some, Quiet]
    split_ifs with hc ho
    · exact blocksFrom_eq_nil_iff (b := none) (by simp)
    · simp_all
    · rw [blocksFrom_eq_nil_iff h]
      simp_all

theorem quiet_append : Quiet block (a ++ b) ↔ Quiet block a ∧ Quiet (opened block a) b := by
  induction a generalizing block with
  | nil => cases block <;> simp [Quiet, opened]
  | cons c r ih =>
    rcases block with _ | d
    · exact ih
    · rw [List.cons_append, Quiet, Quiet, opened]
      split_ifs
      · exact ih
      · rw [ih, and_assoc]

theorem Quiet.front (h : Quiet block t) (ha : a <+: t) : Quiet block a := by
  obtain ⟨r, rfl⟩ := ha
  exact (quiet_append.1 h).1

/-- After an operator no block is open. -/
theorem Quiet.after_operator (h : Quiet block (a ++ c :: b)) (hc : isOperator c = true) :
    Quiet none b := by
  have hcloser : closerOf c = none := by
    simp only [isOperator, Bool.or_eq_true, beq_iff_eq] at hc
    rcases hc with ((rfl | rfl) | rfl) | rfl <;> rfl
  have hb := (quiet_append.1 h).2
  generalize opened block a = state at hb
  rcases state with _ | d <;> rw [Quiet] at hb
  · rwa [hcloser] at hb
  · split_ifs at hb
    · exact hb
    · exact absurd (hb.1.symm.trans hc) Bool.false_ne_true

theorem closerOf_of_isBlank (h : Text.isBlank c = true) : closerOf c = none := by
  unfold closerOf
  split_ifs with h1 h2
  · subst h1
    cases h
  · subst h2
    cases h
  · rfl

theorem Quiet.after_blanks (h : Quiet none (a ++ b)) (ha : ∀ c ∈ a, Text.isBlank c = true) :
    Quiet none b := by
  induction a with
  | nil => exact h
  | cons c r ih =>
    obtain ⟨hc, hr⟩ := List.forall_mem_cons.1 ha
    rw [List.cons_append, Quiet, closerOf_of_isBlank hc] at h
    exact ih h hr

/-! ### Leaves are scanned alone -/

section Leaves

variable {ms w l : List Mark}

theorem Quiet.piece {op : CodePoint} (ho : isOperator op = true)
    (h : Quiet none (Mark.sources ms)) (hw : w ∈ ms.splitOnP (Mark.isChar op)) :
    Quiet none (Mark.sources w) := by
  rcases Text.piece_cases hw with ⟨r, rfl⟩ | ⟨m, b, ⟨l, rfl⟩, hm, ⟨r, rfl⟩⟩
  · exact h.front ⟨Mark.sources r, (Mark.sources_append w r).symm⟩
  · obtain rfl := Mark.eq_of_isChar hm
    rw [Mark.sources_append, Mark.sources_cons, Mark.source_char, List.singleton_append] at h
    exact (h.after_operator ho).front ⟨Mark.sources r, (Mark.sources_append w r).symm⟩

theorem Quiet.trim (h : Quiet none (Mark.sources ms)) :
    Quiet none (Mark.sources (Mark.trim ms)) := by
  obtain ⟨a, b, hms, ha, -⟩ := exists_trimBy Mark.isBlank ms
  rw [hms, Mark.sources_append, Mark.sources_append, List.append_assoc] at h
  exact (h.after_blanks (Mark.isBlank_of_mem_sources ha)).front (List.prefix_append _ _)

theorem Quiet.level (h : Quiet none (Mark.sources ms)) (hl : l ∈ Mark.allLevels ms) :
    Quiet none (Mark.sources l) := by
  obtain ⟨s, hs, hl⟩ := List.mem_flatMap.1 hl
  obtain ⟨w, hw, rfl⟩ := List.mem_map.1 hs
  obtain ⟨v, hv, rfl⟩ := List.mem_map.1 hl
  exact (((h.piece (by decide) hw).trim).piece (by decide) hv).trim

theorem Quiet.leaf (h : Quiet none (Mark.sources ms)) (hl : .leaf l ∈ Mark.places ms) :
    Quiet none (Mark.sources l) := by
  induction ms using Mark.level_induction with
  | step ms ih =>
    rcases Mark.leaf_mem_places_iff.1 hl with ⟨hl, -⟩ | ⟨k, hk, inner, hi, hl⟩
    · exact h.level hl
    · refine ih k hk inner hi ?_ hl
      -- Between the parentheses of a group the scan starts anew.
      have hgroup := h.level hk
      rw [Mark.inside?_eq_some.1 hi, Mark.sources_cons, Mark.source_pair, Mark.sources_nil,
        List.append_nil] at hgroup
      exact (Quiet.after_operator (a := []) hgroup (by decide)).front (List.prefix_append _ _)

end Leaves

/-! ### Blocks of a leaf -/

/-- Every operator in a text comes after some `d`. -/
def OperatorsAfter (d : CodePoint) (t : Text) : Prop :=
  ∀ a c b, t = a ++ c :: b → isOperator c = true → d ∈ a

theorem opened_of_notMem (h : d ∉ a) : opened (some d) a = some d := by
  induction a with
  | nil => rfl
  | cons c r ih =>
    obtain ⟨hc, hr⟩ := not_or.1 (mt List.mem_cons.2 h)
    rw [opened, if_neg fun he => hc he.symm, ih hr]

theorem Quiet.operatorsAfter (h : Quiet (some d) t) (hd : isOperator d = false) :
    OperatorsAfter d t := by
  rintro a c b rfl hc
  by_contra ha
  have hb := (quiet_append.1 h).2
  rw [opened_of_notMem ha, Quiet] at hb
  split_ifs at hb with hcd
  · exact absurd (hcd ▸ hc) (by rw [hd]; exact Bool.false_ne_true)
  · exact absurd (hb.1.symm.trans hc) Bool.false_ne_true

/-- A text without `d` has no operators then. -/
theorem OperatorsAfter.lacks (h : OperatorsAfter d t) (hd : d ∉ t) :
    t.Lacks ['+', '>', '(', ')'] := by
  intro c hc hm
  have hop : isOperator c = true := by
    simp only [List.mem_cons, List.not_mem_nil, or_false] at hc
    rcases hc with rfl | rfl | rfl | rfl <;> rfl
  obtain ⟨a, b, rfl⟩ := List.append_of_mem hm
  exact hd (List.mem_append_left _ (h a c b rfl hop))

theorem OperatorsAfter.of_notMem (h : OperatorsAfter d t) (hd : d ∉ t) (c : CodePoint) :
    OperatorsAfter c t := by
  rintro a op b rfl hop
  exact absurd (List.mem_append_left _ (h a op b rfl hop)) hd

/-- Only these can be open. -/
def states : List (Option CodePoint) :=
  [none, some '}', some ']']

theorem opened_mem_states (h : block ∈ states) : opened block a ∈ states := by
  have hcloser (c : CodePoint) : closerOf c ∈ states := by
    unfold closerOf
    split_ifs <;> decide
  induction a generalizing block with
  | nil => cases block <;> exact h
  | cons c r ih =>
    rcases block with _ | d
    · exact ih (hcloser c)
    · rw [opened]
      refine ih ?_
      split_ifs
      · decide
      · exact h

/-- After an opening bracket some block is open, this one or one of the other kind. -/
theorem Quiet.after_opener {o : CodePoint} (ho : o = '{' ∨ o = '[')
    (h : Quiet none (a ++ o :: b)) : Quiet (some '}') b ∨ Quiet (some ']') b := by
  have hb := (quiet_append.1 h).2
  have hstate : opened none a ∈ states := opened_mem_states (by decide)
  simp only [states, List.mem_cons, List.not_mem_nil, or_false] at hstate
  rcases hstate with hs | hs | hs <;> rw [hs, Quiet] at hb
  · rcases ho with rfl | rfl
    · exact .inl hb
    · exact .inr hb
  · rw [if_neg (by rcases ho with rfl | rfl <;> decide)] at hb
    exact .inl hb.2
  · rw [if_neg (by rcases ho with rfl | rfl <;> decide)] at hb
    exact .inr hb.2

theorem Quiet.of_hasText (h : Quiet none t) {text : Text} (ht : Leaf.HasText t text) :
    OperatorsAfter ']' text := by
  obtain ⟨before, rest, rfl, -, hup⟩ := ht
  rcases h.after_opener (.inl rfl) with hrest | hrest
  · exact ((hrest.front hup.isPrefix).operatorsAfter (by decide)).of_notMem hup.notMem ']'
  · exact (hrest.front hup.isPrefix).operatorsAfter (by decide)

theorem Quiet.of_hasBlock (h : Quiet none t) {block : Text} (hb : Leaf.HasBlock t block) :
    OperatorsAfter '}' block := by
  obtain ⟨front, before, rest, hfront, rfl, -, hup⟩ := hb
  rcases (h.front hfront.isPrefix).after_opener (.inr rfl) with hrest | hrest
  · exact (hrest.front hup.isPrefix).operatorsAfter (by decide)
  · exact ((hrest.front hup.isPrefix).operatorsAfter (by decide)).of_notMem hup.notMem '}'

theorem quiet_of_lint {source : Text} (h : ∀ f ∈ lint source, f.flaw.code ≠ "L_OPERATOR_IN_BLOCK") :
    Quiet none (Text.normalize source) := by
  have hnil : blocks (Text.normalize source) = [] := by
    rw [List.eq_nil_iff_forall_not_mem]
    intro f hf
    obtain ⟨-, ⟨c, hc⟩, -⟩ := of_mem_blocks hf
    refine h f (mem_findings.2 (.inr (.inl hf))) ?_
    rw [hc]
    rfl
  exact (blocksFrom_eq_nil_iff (b := none) (by simp)).1 hnil

end Lint

/-! ### Operators in nodes -/

/-- None of `cs` is in what a node has from the blocks of its leaf. -/
def Node.BlocksLack (n : Node) (cs : Text) : Prop :=
  (∀ t ∈ n.text, t.Lacks cs) ∧ ∀ a ∈ n.attributes, a.1.Lacks cs ∧ a.2.Lacks cs

theorem Leaf.blocksLack_expand {defaultTag leaf cs : Text} {e : Option Text} {n : Node}
    (h : Leaf.expand defaultTag e leaf = .ok n) (ht : ∀ t, Leaf.HasText leaf t → t.Lacks cs)
    (hb : ∀ b, Leaf.HasBlock leaf b → b.Lacks cs) : n.BlocksLack cs := by
  have hfields := fieldsOf_expand h
  refine ⟨fun t htext => ?_, fun a ha => ?_⟩
  · exact ht t (split_text_eq_some_iff.1 (hfields.of_text htext).1)
  · obtain ⟨block, hblock, item, hitem, hof⟩ := hfields.attributes a ha
    have hlacks := (hb block (split_attributes_eq_some_iff.1 hblock)).sub
      (Text.of_mem_words hitem).2.subset
    exact ⟨hlacks.sub hof.subset.1, hlacks.sub hof.subset.2⟩

/-- If lint finds no operator in a block, an operator in the text block of a leaf comes after a
closing bracket in that block, and one in the attribute block after a closing brace. If there are
none of these in the blocks, no node has an operator in its text or in an attribute. -/
theorem operators_in_blocks {s : Settings} {source : Text} {drawn : Nat} {ns : List Node}
    (h : expand s source drawn = .ok ns)
    (hlint : ∀ f ∈ lint source, f.flaw.code ≠ "L_OPERATOR_IN_BLOCK") :
    let text := Text.normalize source
    ∃ tokens chains, forText text s.placeholderBase drawn = .ok tokens
      ∧ (extract tokens text).tree (some text) = .ok chains
      ∧ (∀ leaf ∈ chainsLeaves chains,
          (∀ t, Leaf.HasText leaf t → Lint.OperatorsAfter ']' t)
            ∧ ∀ b, Leaf.HasBlock leaf b → Lint.OperatorsAfter '}' b)
      ∧ ((∀ leaf ∈ chainsLeaves chains,
            (∀ t, Leaf.HasText leaf t → .char ']' ∉ t)
              ∧ ∀ b, Leaf.HasBlock leaf b → .char '}' ∉ b) →
          ∀ n ∈ ns, n.Everywhere fun k => k.BlocksLack ['+', '>', '(', ')']) := by
  intro text
  obtain ⟨tokens, chains, ht, hc, hnodes⟩ := tree_of_expand h
  have hquiet : Lint.Quiet none (Mark.sources (Mark.read text)) := by
    rw [Mark.sources_read]
    exact Lint.quiet_of_lint hlint
  have hblocks : ∀ leaf ∈ chainsLeaves chains,
      (∀ t, Leaf.HasText leaf t → Lint.OperatorsAfter ']' t)
        ∧ ∀ b, Leaf.HasBlock leaf b → Lint.OperatorsAfter '}' b := by
    intro leaf hl
    rw [(Extraction.reads_extract (fitFor_of_forText ht)).leaves_tree hc] at hl
    obtain ⟨level, hlevel, rfl⟩ := Mark.mem_chainsLeaves_tree.1 hl
    exact ⟨fun t => (hquiet.leaf hlevel).of_hasText, fun b => (hquiet.leaf hlevel).of_hasBlock⟩
  refine ⟨tokens, chains, ht, hc, hblocks, fun hfree => ?_⟩
  refine (chainNodes_keeps hnodes).everywhere (P := (·.BlocksLack ['+', '>', '(', ')']))
    fun leaf hl k hk => ?_
  obtain ⟨htext, hblock⟩ := hblocks leaf hl
  obtain ⟨hnoText, hnoBlock⟩ := hfree leaf hl
  exact Leaf.blocksLack_expand hk (fun t ht => (htext t ht).lacks (hnoText t ht))
    fun b hb => (hblock b hb).lacks (hnoBlock b hb)

theorem operators_in_blocks_of_bracket :
    ∃ ns, expand {} "ul > (li.x{a ] b} + p[x=1]{c})" = .ok ns
      ∧ (∀ f ∈ lint "ul > (li.x{a ] b} + p[x=1]{c})", f.flaw.code ≠ "L_OPERATOR_IN_BLOCK")
      ∧ let text := Text.normalize "ul > (li.x{a ] b} + p[x=1]{c})"
        ∃ tokens chains, forText text none = .ok tokens
          ∧ (extract tokens text).tree (some text) = .ok chains
          ∧ (∀ leaf ∈ chainsLeaves chains,
              (∀ t, Leaf.HasText leaf t → Lint.OperatorsAfter ']' t)
                ∧ ∀ b, Leaf.HasBlock leaf b → Lint.OperatorsAfter '}' b)
          ∧ ((∀ leaf ∈ chainsLeaves chains,
                (∀ t, Leaf.HasText leaf t → .char ']' ∉ t)
                  ∧ ∀ b, Leaf.HasBlock leaf b → .char '}' ∉ b) →
              ∀ n ∈ ns, n.Everywhere fun k => k.BlocksLack ['+', '>', '(', ')']) := by
  have hok : (expand {} "ul > (li.x{a ] b} + p[x=1]{c})").isOk = true := by decide +kernel
  have hlint : ∀ f ∈ lint "ul > (li.x{a ] b} + p[x=1]{c})",
      f.flaw.code ≠ "L_OPERATOR_IN_BLOCK" := by decide +kernel
  rcases h : expand {} "ul > (li.x{a ] b} + p[x=1]{c})" with failure | ns
  · rw [h] at hok
    cases hok
  · exact ⟨ns, rfl, hlint, operators_in_blocks h hlint⟩

/-- A text block that starts in an attribute block and goes on after it. -/
theorem operators_unseen_of_crossed :
    ∃ ns, expand {} "p[a={b](c+d)}" = .ok ns ∧ lint "p[a={b](c+d)}" = []
      ∧ ¬ ∀ n ∈ ns, n.Everywhere fun k => k.BlocksLack ['+', '>', '(', ')'] := by
  have htext : (expand {} "p[a={b](c+d)}").toOption.any
      (fun ns => ns.any fun n => n.text == some (Text.ofString "b](c+d)")) = true := by
    decide +kernel
  rcases h : expand {} "p[a={b](c+d)}" with failure | ns <;> rw [h] at htext
  · cases htext
  obtain ⟨n, hn, ht⟩ := List.any_eq_true.1 htext
  refine ⟨ns, rfl, by decide +kernel, fun hall => ?_⟩
  exact (hall n hn).here.1 _ (eq_of_beq ht) '+' (by decide) (by decide)

end Shorthand
