import Shorthand.Proofs.DirectExpansion
import Shorthand.Proofs.Everywhere
import Shorthand.Proofs.Label

/-!
# Forests written as expressions

A forest is written by its labels, with the children of a node in a group under it. The marks of
such an expression are known (`read_forestCode`), so are its chains (`parse_forestMarks`), and these
are evaluated to the forest again (`chainNodes_chains`).
-/

namespace Shorthand

mutual

/-- A node as an expression, its children in a group under its label. -/
def Node.code : Node → Text
  | ⟨tag, id, classes, attributes, text, children⟩ =>
    Node.label ⟨tag, id, classes, attributes, text, []⟩ ++
      if children.isEmpty then []
      else (">(" ++ ("+" : Text).intercalate (codes children) ++ ")" : Text)

def codes : List Node → List Text
  | [] => []
  | n :: ns => n.code :: codes ns

end

/-- The expressions of the nodes with plus signs between them. -/
def forestCode (ns : List Node) : Text :=
  ("+" : Text).intercalate (codes ns)

mutual

/-- The marks of the expression of a node. -/
def Node.marks : Node → List Mark
  | ⟨tag, id, classes, attributes, text, children⟩ =>
    (Node.label ⟨tag, id, classes, attributes, text, []⟩).map .char ++
      if children.isEmpty then [] else [.char (.char '>'), .pair (forestMarks children)]

def forestMarks : List Node → List Mark
  | [] => []
  | n :: ns => n.marks ++ if ns.isEmpty then [] else .char (.char '+') :: forestMarks ns

end

mutual

/-- The chain that the expression of a node is parsed to. -/
def Node.chain : Node → Chain
  | ⟨tag, id, classes, attributes, text, children⟩ =>
    ⟨Node.code ⟨tag, id, classes, attributes, text, children⟩,
      .leaf (Node.label ⟨tag, id, classes, attributes, text, []⟩) ::
        if children.isEmpty then [] else [.group [] (chains children)]⟩

def chains : List Node → List Chain
  | [] => []
  | n :: ns => n.chain :: chains ns

end

theorem codes_eq_map (ns : List Node) : codes ns = ns.map Node.code := by
  induction ns with
  | nil => rfl
  | cons n ns ih => rw [codes, ih, List.map_cons]

theorem chains_eq_map (ns : List Node) : chains ns = ns.map Node.chain := by
  induction ns with
  | nil => rfl
  | cons n ns ih => rw [chains, ih, List.map_cons]

namespace Node

theorem code_eq (n : Node) : n.code =
    n.label ++ if n.children.isEmpty then []
      else (">(" ++ forestCode n.children ++ ")" : Text) := by
  obtain ⟨tag, id, classes, attributes, text, children⟩ := n
  rw [code]
  rfl

theorem marks_eq (n : Node) : n.marks = n.label.map .char ++
    if n.children.isEmpty then [] else [.char (.char '>'), .pair (forestMarks n.children)] := by
  obtain ⟨tag, id, classes, attributes, text, children⟩ := n
  rw [marks]
  rfl

theorem chain_eq (n : Node) : n.chain = ⟨n.code, .leaf n.label ::
    if n.children.isEmpty then [] else [.group [] (chains n.children)]⟩ := by
  obtain ⟨tag, id, classes, attributes, text, children⟩ := n
  rw [chain]
  rfl

end Node

mutual

/-- The marks of an expression spell it. -/
theorem Node.sources_marks : ∀ n : Node, Mark.sources n.marks = n.code
  | ⟨tag, id, classes, attributes, text, children⟩ => by
    rw [Node.marks, Node.code, Mark.sources_append, Mark.sources_map_char]
    split_ifs
    · rfl
    · have ih := sources_forestMarks children
      unfold forestCode at ih
      simp [ih, Text.ofString]

theorem sources_forestMarks : ∀ ns : List Node, Mark.sources (forestMarks ns) = forestCode ns
  | [] => rfl
  | [n] => by
    rw [forestMarks, Mark.sources_append, Node.sources_marks n]
    simp [forestCode, codes]
  | n :: m :: ns => by
    have ih := sources_forestMarks (m :: ns)
    unfold forestCode codes at ih
    rw [forestMarks, Mark.sources_append, Node.sources_marks n, if_neg (by simp), forestCode, codes,
      codes, List.intercalate_cons_cons, ← ih]
    simp [Text.ofString]

end

namespace Node

/-- A stable node with no operators and no parentheses in its fields. -/
@[mk_iff] structure Encodable (n : Node) : Prop extends Stable n where
  no_operators : ∀ f ∈ n.fields, f.Lacks ['+', '>', '(', ')']

instance (n : Node) : Decidable n.Encodable :=
  decidable_of_iff _ (encodable_iff n).symm

namespace Encodable

variable {n : Node} (h : n.Encodable)

include h

/-- Nothing in a label is taken for an operator or a parenthesis. -/
theorem label_lacks : n.label.Lacks ['+', '>', '(', ')'] := by
  intro c hc hmem
  rcases shows_label c hmem with ⟨f, hf, hcf⟩ | hp
  · exact h.no_operators f hf c hc hcf
  · have hoperators : ∀ d ∈ (['+', '>', '(', ')'] : Text), d ∉ punctuation := by decide
    exact hoperators c hc hp

theorem label_ne_nil : n.label ≠ [] := by
  simp [label_eq, selectorLabel, headLabel, h.tag.1]

end Encodable

end Node

/-! ### Reading -/

theorem mem_forestMarks {m : Mark} : ∀ {ns : List Node}, m ∈ forestMarks ns →
    m = .char (.char '+') ∨ ∃ n ∈ ns, m ∈ n.marks
  | [], h => by cases h
  | n :: ns, h => by
    rw [forestMarks] at h
    split_ifs at h
    · exact .inr ⟨n, List.mem_cons_self, by simpa using h⟩
    · rcases List.mem_append.1 h with h | h
      · exact .inr ⟨n, List.mem_cons_self, h⟩
      rcases List.mem_cons.1 h with rfl | h
      · exact .inl rfl
      · rcases mem_forestMarks h with rfl | ⟨k, hk, h⟩
        · exact .inl rfl
        · exact .inr ⟨k, List.mem_cons_of_mem n hk, h⟩

theorem balanced_forestMarks {ns : List Node} (h : ∀ n ∈ ns, ∀ m ∈ n.marks, m.Balanced) :
    ∀ m ∈ forestMarks ns, m.Balanced := by
  intro m hm
  rcases mem_forestMarks hm with rfl | ⟨n, hn, hm⟩
  · exact .char (by decide) (by decide)
  · exact h n hn m hm

theorem Node.Everywhere.balanced_marks {n : Node} (h : n.Everywhere Encodable) :
    ∀ m ∈ n.marks, m.Balanced := by
  induction h with
  | @intro n h _ ih =>
    intro m hm
    rw [marks_eq] at hm
    rcases List.mem_append.1 hm with hm | hm
    · obtain ⟨c, hc, rfl⟩ := List.mem_map.1 hm
      refine .char ?_ ?_ <;> rintro rfl
      · exact h.label_lacks (.char '(') (by simp) hc
      · exact h.label_lacks (.char ')') (by simp) hc
    · split_ifs at hm
      · cases hm
      rcases List.mem_cons.1 hm with rfl | hm
      · exact .char (by decide) (by decide)
      · obtain rfl := List.mem_singleton.1 hm
        exact .pair (balanced_forestMarks ih)

/-- The parentheses of an expression are those of its groups. -/
theorem read_forestCode {ns : List Node} (h : ∀ n ∈ ns, n.Everywhere Node.Encodable) :
    Mark.read (forestCode ns) = forestMarks ns := by
  rw [← sources_forestMarks]
  exact Mark.read_sources_of_balanced (balanced_forestMarks fun n hn => (h n hn).balanced_marks)

theorem solid_forestCode {ns : List Node} (h : ∀ n ∈ ns, n.code.Solid) : (forestCode ns).Solid := by
  unfold forestCode
  rw [codes_eq_map]
  exact Text.Solid.intercalate (Text.solid_of_no_blank (by decide)) (List.forall_mem_map.2 h)

theorem Node.Everywhere.solid_code {n : Node} (h : n.Everywhere Encodable) : n.code.Solid := by
  induction h with
  | @intro n h _ ih =>
    rw [code_eq]
    refine h.solid_label.append ?_
    split_ifs
    · exact Text.solid_nil
    · have hopen : Text.Solid ">(" := Text.solid_of_no_blank (by decide)
      have hclose : Text.Solid ")" := Text.solid_of_no_blank (by decide)
      exact (hopen.append (solid_forestCode ih)).append hclose

/-! ### Parsing -/

theorem Mark.trim_eq_self {ms : List Mark} (hh : ∀ m ∈ ms.head?, m.isBlank = false)
    (hl : ∀ m ∈ ms.getLast?, m.isBlank = false) : Mark.trim ms = ms :=
  dropWhile_rdropWhile_eq_self.2 ⟨hh, hl⟩

namespace Node.Encodable

variable {n : Node} (h : n.Encodable)

include h

theorem not_isChar_label {c : CodePoint} (hc : c ∈ (['+', '>', '(', ')'] : Text)) :
    ∀ m ∈ n.label.map Mark.char, m.isChar c = false := by
  intro m hm
  obtain ⟨d, hd, rfl⟩ := List.mem_map.1 hm
  exact beq_false_of_ne fun he => h.label_lacks c hc (he ▸ hd)

theorem ends_label : (∀ m ∈ (n.label.map Mark.char).head?, m.isBlank = false)
    ∧ ∀ m ∈ (n.label.map Mark.char).getLast?, m.isBlank = false := by
  constructor <;> intro m hm
  · rw [List.head?_map] at hm
    obtain ⟨c, hc, rfl⟩ := Option.map_eq_some_iff.1 hm
    exact h.solid_label.head c hc
  · rw [List.getLast?_map] at hm
    obtain ⟨c, hc, rfl⟩ := Option.map_eq_some_iff.1 hm
    exact h.solid_label.last c hc

theorem trim_label : Mark.trim (n.label.map .char) = n.label.map .char :=
  Mark.trim_eq_self h.ends_label.1 h.ends_label.2

theorem trim_marks : Mark.trim n.marks = n.marks := by
  rw [marks_eq]
  split_ifs
  · rw [List.append_nil, h.trim_label]
  · refine Mark.trim_eq_self (fun m hm => h.ends_label.1 m ?_) fun m hm => ?_
    · rwa [List.head?_append_of_ne_nil _ (by simpa using h.label_ne_nil)] at hm
    · rw [List.getLast?_append_of_ne_nil _ (List.cons_ne_nil _ _)] at hm
      obtain rfl := Option.mem_some_iff.1 hm
      rfl

theorem marks_ne_nil : n.marks ≠ [] := by
  rw [marks_eq]
  simp [h.label_ne_nil]

theorem not_isChar_marks : ∀ m ∈ n.marks, m.isChar '+' = false := by
  intro m hm
  rw [marks_eq] at hm
  rcases List.mem_append.1 hm with hm | hm
  · exact h.not_isChar_label (by simp) m hm
  · split_ifs at hm
    · cases hm
    rcases List.mem_cons.1 hm with rfl | hm
    · decide
    · obtain rfl := List.mem_singleton.1 hm
      rfl

/-- A node has one level, and a second one for the group of its children if it has any. -/
theorem levels_marks : Mark.levels n.marks = n.label.map .char ::
    if n.children.isEmpty then [] else [[.pair (forestMarks n.children)]] := by
  have hlabel := h.not_isChar_label (c := '>') (by simp)
  unfold Mark.levels
  rw [marks_eq]
  split_ifs
  · rw [List.append_nil, List.splitOnP_eq_singleton hlabel, List.map_singleton, h.trim_label]
  · rw [List.splitOnP_append_cons_of_forall_mem hlabel _ rfl, List.map_cons, h.trim_label]
    rfl

end Node.Encodable

/-- The plus signs outside of groups are those between the nodes. -/
theorem siblings_forestMarks : ∀ {ns : List Node}, ns ≠ [] → (∀ n ∈ ns, n.Encodable) →
    Mark.siblings (forestMarks ns) = ns.map Node.marks
  | [], hne, _ => absurd rfl hne
  | [n], _, h => by
    have hn := h n List.mem_cons_self
    rw [forestMarks, List.isEmpty_nil, if_pos rfl, List.append_nil, Mark.siblings,
      List.splitOnP_eq_singleton hn.not_isChar_marks, List.map_singleton, hn.trim_marks]
    rfl
  | n :: k :: ns, _, h => by
    obtain ⟨hn, hns⟩ := List.forall_mem_cons.1 h
    have ih := siblings_forestMarks (List.cons_ne_nil k ns) hns
    unfold Mark.siblings at ih ⊢
    rw [forestMarks, if_neg (by simp),
      List.splitOnP_append_cons_of_forall_mem hn.not_isChar_marks _ rfl, List.map_cons,
      hn.trim_marks, ih]
    rfl

section

variable (e : Option Text)

theorem parse_forestMarks_of {ns : List Node} (hne : ns ≠ []) (h : ∀ n ∈ ns, n.Encodable)
    (hs : ∀ n ∈ ns, Mark.parseSibling e n.marks = .ok n.chain) :
    Mark.parse e (forestMarks ns) = .ok (chains ns) := by
  have hfull : ¬ (ns.map Node.marks).any (·.isEmpty) = true := by
    simpa [List.any_eq_true] using fun n hn => (h n hn).marks_ne_nil
  rw [Mark.parse_eq, siblings_forestMarks hne h, if_neg hfull, chains_eq_map]
  exact mapM_map_ok hs

theorem inside?_label (n : Node) : Mark.inside? (n.label.map .char) = none := by
  rcases n.label with _ | ⟨c, _ | ⟨d, r⟩⟩ <;> rfl

/-- The group under a label holds the children, which are parsed before. -/
theorem Node.Everywhere.parseSibling_marks {n : Node} (h : n.Everywhere Encodable) :
    Mark.parseSibling e n.marks = .ok n.chain := by
  induction h with
  | @intro n h hc ih =>
    have hleaf : Mark.parseLevel e (n.label.map .char) = .ok (.leaf n.label) := by
      rw [Mark.parseLevel, inside?_label, Mark.sources_map_char]
    have hgroup (hne : n.children ≠ []) :
        Mark.parseLevel e [.pair (forestMarks n.children)]
          = .ok (.group [] (chains n.children)) := by
      show Segment.group [] <$> Mark.parse e (forestMarks n.children) = _
      rw [parse_forestMarks_of e hne (fun c hm => (hc c hm).here) ih]
      rfl
    have hroot : ¬ (n.label.map Mark.char).isEmpty = true := by simp [h.label_ne_nil]
    unfold Mark.parseSibling
    rw [h.levels_marks, n.chain_eq, sources_marks, List.headD_cons, if_neg hroot]
    by_cases hnone : n.children.isEmpty = true
    · rw [if_pos hnone, if_pos hnone, if_neg (by simpa using hroot), List.mapM_cons, hleaf]
      rfl
    · rw [if_neg hnone, if_neg hnone, if_neg (by simpa using hroot), List.mapM_cons, hleaf,
        List.mapM_cons, hgroup (mt List.isEmpty_iff.2 hnone)]
      rfl

/-- Whatever expression errors are reported in, there is none. -/
theorem parse_forestMarks {ns : List Node} (hne : ns ≠ [])
    (h : ∀ n ∈ ns, n.Everywhere Node.Encodable) :
    Mark.parse e (forestMarks ns) = .ok (chains ns) :=
  parse_forestMarks_of e hne (fun n hn => (h n hn).here) fun n hn => (h n hn).parseSibling_marks e

/-! ### Evaluating -/

variable (defaultTag : Text)

theorem chainNodes_chains_of {ns : List Node}
    (h : ∀ n ∈ ns, n.chain.node defaultTag e = .ok n) :
    chainNodes defaultTag e (chains ns) = .ok ns := by
  induction ns with
  | nil => rfl
  | cons n ns ih =>
    obtain ⟨hn, hns⟩ := List.forall_mem_cons.1 h
    rw [chains, chainNodes, hn, ih hns]
    rfl

/-- A node is its label, with its children given to it. -/
theorem Node.adopt_children (n : Node) : n.bare.adopt n.children = n := by
  cases n
  rfl

theorem Node.Everywhere.node_chain {n : Node} (h : n.Everywhere Legible) :
    n.chain.node defaultTag e = .ok n := by
  induction h with
  | @intro n h _ ih =>
    have hleaf : (Segment.leaf n.label).nodes defaultTag e = .ok [n.bare] := by
      rw [Segment.nodes, h.expand_label]
    have hgroup : (Segment.group [] (chains n.children)).nodes defaultTag e = .ok n.children := by
      rw [Segment.nodes, chainNodes_chains_of e defaultTag ih]
    rw [chain_eq, Chain.node]
    rcases hc : n.children with _ | ⟨c, cs⟩
    · rw [if_pos List.isEmpty_nil, levelNodes, hleaf]
      exact congrArg Except.ok (bare_eq_self hc)
    · rw [hc] at hgroup
      rw [if_neg (by simp), levelNodes, hleaf, levelNodes, hgroup]
      show Except.ok (n.bare.adopt (c :: cs)) = .ok n
      rw [← hc, adopt_children]

end

/-! ### Round trip -/

/-- Whatever the settings: every node of the forest has a tag of its own. -/
theorem expandMarks_forestCode {ns : List Node} (hne : ns ≠ [])
    (h : ∀ n ∈ ns, n.Everywhere Node.Encodable) (s : Settings) :
    expandMarks s (forestCode ns) = ([], .ok ns) := by
  have hbalanced := balanced_forestMarks fun n hn => (h n hn).balanced_marks
  have hstray : ¬ (forestMarks ns).any Mark.isStray = true := by
    rw [Mark.any_isStray]
    rintro (hm | hm) <;> rcases hbalanced _ hm with ⟨ho, hc⟩
    · exact ho rfl
    · exact hc rfl
  unfold expandMarks Mark.check
  rw [read_forestCode h, if_neg hstray, parse_forestMarks _ hne h]
  simp only
  rw [chainNodes_chains_of]
  exact fun n hn => ((h n hn).imp fun _ hk => hk.toLegible).node_chain _ _

/-- A forest is read back from its expression, and there is nothing to warn of. -/
theorem run_forestCode {ns : List Node} (hne : ns ≠ [])
    (h : ∀ n ∈ ns, n.Everywhere Node.Encodable) (drawn : Nat) :
    (run {} (forestCode ns) drawn).warnings = []
      ∧ (run {} (forestCode ns) drawn).result = .ok ns := by
  have hnormal : Text.normalize (forestCode ns) = forestCode ns :=
    (Text.solid_iff.1 (solid_forestCode fun n hn => (h n hn).solid_code)).2
  have hrun := outcome_run (s := {}) (by simp) (forestCode ns) drawn
  rw [hnormal, expandMarks_forestCode hne h] at hrun
  exact Prod.mk.inj hrun

def sampleForest : List Node :=
  [{ tag := "a b", id := some "x", classes := ["", "c #d", "c #d"],
     children :=
      [{ tag := "p", attributes := [("n", "a\"b=c"), ("", "")], text := some " t [u] " },
       { tag := "q", classes := [""], children := [{ tag := "r", text := some "=" }] }] },
   { tag := "s" }]

theorem run_forestCode_sample : sampleForest ≠ []
    ∧ (∀ n ∈ sampleForest, n.Everywhere Node.Encodable)
    ∧ (run {} (forestCode sampleForest) 3).warnings = []
    ∧ (run {} (forestCode sampleForest) 3).result = .ok sampleForest := by
  have hne : sampleForest ≠ [] := List.cons_ne_nil _ _
  have h : ∀ n ∈ sampleForest, n.Everywhere Node.Encodable := by decide +kernel
  exact ⟨hne, h, run_forestCode hne h 3⟩

end Shorthand
