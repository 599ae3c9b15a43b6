import Shorthand.Expansion
import Shorthand.Proofs.FlatParse

/-!
# Expanding without tokens

A run warns of the stray parentheses among the marks, parses the marks, and evaluates the chains,
for which keys mean nothing. So what comes out of it does not depend on the base of its tokens
(`outcome_run`), and two runs with different bases cannot be told apart.
-/

namespace Shorthand

open TokenSource

/-! ### Evaluation without keys -/

section

variable (defaultTag : Text) (e : Option Text)

mutual

theorem Segment.nodes_unkeyed : ∀ s : Segment,
    s.unkeyed.nodes defaultTag e = s.nodes defaultTag e
  | .leaf _ => rfl
  | .group _ body => by
    rw [Segment.unkeyed, Segment.nodes, Segment.nodes, chainNodes_unkeyed body]

theorem Chain.node_unkeyed : ∀ c : Chain, c.unkeyed.node defaultTag e = c.node defaultTag e
  | ⟨source, levels⟩ => by
    rw [Chain.unkeyed, Chain.node, Chain.node, levelNodes_unkeyed levels]

theorem chainNodes_unkeyed : ∀ cs : List Chain,
    chainNodes defaultTag e (chainsUnkeyed cs) = chainNodes defaultTag e cs
  | [] => rfl
  | c :: cs => by
    rw [chainsUnkeyed, chainNodes, chainNodes, Chain.node_unkeyed c, chainNodes_unkeyed cs]

theorem levelNodes_unkeyed : ∀ ss : List Segment,
    levelNodes defaultTag e (levelsUnkeyed ss) = levelNodes defaultTag e ss
  | [] => rfl
  | s :: ss => by
    rw [levelsUnkeyed, levelNodes, levelNodes, Segment.nodes_unkeyed s, levelNodes_unkeyed ss]

end

end

/-! ### Stray parentheses -/

namespace Mark

/-- Whether a mark is a parenthesis without a partner. -/
def isStray : Mark → Bool
  | char c => c == '(' || c == ')'
  | pair _ => false

def check (ms : List Mark) (expression : Text) (strict : Bool) : Except Rejection (List Warning) :=
  if ms.any isStray then
    if strict then .error ⟨.unbalanced, some expression, some (sources ms)⟩ else .ok [⟨expression⟩]
  else .ok []

theorem any_isStray {ms : List Mark} :
    ms.any isStray = true ↔ .char (.char '(') ∈ ms ∨ .char (.char ')') ∈ ms := by
  rw [List.any_eq_true]
  constructor
  · rintro ⟨c | inner, hm, hc⟩
    · rcases Bool.or_eq_true_iff.1 hc with hc | hc <;> obtain rfl := eq_of_beq hc
      · exact .inl hm
      · exact .inr hm
    · cases hc
  · rintro (hm | hm)
    · exact ⟨_, hm, rfl⟩
    · exact ⟨_, hm, rfl⟩

/-- Marks are read back if their stray parentheses are among those of a text, where the closing ones
come before the opening ones. -/
theorem read_sources_of_strays {t : Text} {ms : List Mark} (hw : ∀ m ∈ ms, m.Whole)
    (hs : (ms.filter isStray).Sublist ((read t).filter isStray)) : read (sources ms) = ms := by
  obtain ⟨source, hfit⟩ := exists_fitFor t
  have hreads := Extraction.reads_extract hfit
  obtain ⟨mp, mq, hread, ho, hc⟩ := hreads.flat.closing_first hreads.safe (flat_extract hfit.safe)
  rw [hread, List.filter_append] at hs
  obtain ⟨fp, fq, hf, hsp, hsq⟩ := List.sublist_append_iff.1 hs
  obtain ⟨np, nq, rfl, rfl, rfl⟩ := List.filter_eq_append_iff.1 hf
  refine read_sources hw (fun h => ho ?_) fun h => hc ?_
  · exact List.mem_of_mem_filter (hsp.subset (List.mem_filter.2 ⟨h, rfl⟩))
  · exact List.mem_of_mem_filter (hsq.subset (List.mem_filter.2 ⟨h, rfl⟩))

end Mark

namespace Extraction

variable {g : Extraction} {x t : Text} {ms : List Mark}

theorem Stands.mem_iff (hs : SafeBase g.source.base) {c : CodePoint} (hc : isBaseChar c = false)
    (h : g.Stands x ms) : c ∈ x ↔ .char c ∈ ms := by
  refine ⟨fun hm => ?_, h.mem_of_char⟩
  obtain ⟨a, b, he⟩ := List.append_of_mem hm
  obtain ⟨ma, mb, rfl, -, -⟩ := h.split hs hc he
  simp

theorem Reads.isBalanced (h : g.Reads t) : g.isBalanced = !(Mark.read t).any Mark.isStray := by
  have ho := h.flat.mem_iff h.safe (isBaseChar_structure '(' (by simp))
  have hc := h.flat.mem_iff h.safe (isBaseChar_structure ')' (by simp))
  unfold Extraction.isBalanced
  rw [← Bool.not_or, Bool.not_inj_iff, Bool.eq_iff_iff, Mark.any_isStray, Bool.or_eq_true,
    List.contains_iff_mem, List.contains_iff_mem, ho, hc]

theorem Reads.check (h : g.Reads t) (expression : Text) (strict : Bool) :
    g.check expression strict = Mark.check (Mark.read t) expression strict := by
  unfold Extraction.check Mark.check
  rw [h.isBalanced, h.restore_flat, Mark.sources_read]
  cases (Mark.read t).any Mark.isStray <;> rfl

end Extraction

/-! ### Runs -/

/-- What a run comes to: what it warns of, and the nodes or the failure. -/
def Run.outcome {α : Type} (r : Run α) : List Warning × Except Failure α :=
  (r.warnings, r.result)

/-- Expands the marks of a text. -/
def expandMarks (s : Settings) (text : Text) : List Warning × Except Failure (List Node) :=
  match Mark.check (Mark.read text) text s.strictGrouping with
  | .error r => ([], .error (.rejected r))
  | .ok warnings =>
    match Mark.parse (some text) (Mark.read text) with
    | .error r => (warnings, .error (.rejected r))
    | .ok chains => (warnings, chainNodes s.defaultTag (some text) chains)

theorem result_evaluate {g : Extraction} {t : Text} (h : g.Reads t) (s : Settings)
    (expression : Text) : (g.evaluate s expression).result =
      match Mark.parse (some expression) (Mark.read t) with
      | .error r => .error (.rejected r)
      | .ok chains => chainNodes s.defaultTag (some expression) chains := by
  unfold Extraction.evaluate
  rw [← h.tree (some expression)]
  rcases g.tree (some expression) with r | chains
  · rfl
  · change _ = chainNodes s.defaultTag (some expression) (chains.map Chain.unkeyed)
    rw [← chainsUnkeyed_eq_map, chainNodes_unkeyed]

theorem outcome_run {s : Settings} (h : ∀ b ∈ s.placeholderBase, isSafeBase b = true)
    (source : Text) (drawn : Nat) :
    (run s source drawn).outcome = expandMarks s (Text.normalize source) := by
  obtain ⟨tokens, hok, -, hfit⟩ := forText_ok (t := Text.normalize source) drawn h
  have hr := Extraction.reads_extract hfit
  unfold run expandMarks
  simp only [hok, hr.check]
  rcases Mark.check _ _ _ with r | warnings
  · rfl
  · unfold Run.outcome
    simp only [result_evaluate hr]
    split <;> rfl

/-- The base of the tokens, chosen or drawn, has no influence on what a run comes to. -/
theorem run_base_irrelevant (s : Settings) (source : Text) {p q : Option Text}
    (hp : ∀ b ∈ p, isSafeBase b = true) (hq : ∀ b ∈ q, isSafeBase b = true) (m n : Nat) :
    (run { s with placeholderBase := p } source m).warnings
        = (run { s with placeholderBase := q } source n).warnings
      ∧ (run { s with placeholderBase := p } source m).result
        = (run { s with placeholderBase := q } source n).result := by
  have hrp := outcome_run (s := { s with placeholderBase := p }) hp source m
  have hrq := outcome_run (s := { s with placeholderBase := q }) hq source n
  exact Prod.mk.inj (hrp.trans hrq.symm)

theorem run_base_irrelevant_of_lookalike :
    (∀ b ∈ some (Text.ofString "p"), isSafeBase b = true)
      ∧ (∀ b ∈ (none : Option Text), isSafeBase b = true)
      ∧ (run { placeholderBase := some "p" } "segment_7_(p0_>(a)+b)>c(").warnings
        = (run {} "segment_7_(p0_>(a)+b)>c(" 7).warnings
      ∧ (run { placeholderBase := some "p" } "segment_7_(p0_>(a)+b)>c(").result
        = (run {} "segment_7_(p0_>(a)+b)>c(" 7).result :=
  ⟨by decide +kernel, by simp, run_base_irrelevant {} _ (by decide +kernel) (by simp) 0 7⟩

end Shorthand
