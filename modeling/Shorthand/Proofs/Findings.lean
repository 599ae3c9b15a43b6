import Mathlib.Data.List.Infix
import Shorthand.Lint

/-!
# What lint finds

Sorting and dropping repetitions aside, a finding comes from the balance of the text, from a block
of it or from a leaf (`mem_findings`). Only the balance is told under its code, and the segment of
a finding in a block is the rest of the text from the start of the block.
-/

namespace Shorthand

namespace Lint

variable {expression : Text} {f : Finding}

theorem mem_once {t : Text} : ∀ {seen ts : List Text}, t ∈ once seen ts ↔ t ∈ ts ∧ t ∉ seen
  | seen, [] => by simp [once]
  | seen, u :: ts => by
    rw [once]
    split_ifs with h
    · rw [List.contains_iff_mem] at h
      rw [mem_once, List.mem_cons]
      constructor
      · rintro ⟨ht, hs⟩
        exact ⟨.inr ht, hs⟩
      · rintro ⟨rfl | ht, hs⟩
        · exact absurd h hs
        · exact ⟨ht, hs⟩
    · rw [List.contains_iff_mem] at h
      rw [List.mem_cons, mem_once, List.mem_cons, List.mem_cons, not_or]
      constructor
      · rintro (rfl | ⟨ht, -, hs⟩)
        · exact ⟨.inl rfl, h⟩
        · exact ⟨.inr ht, hs⟩
      · rintro ⟨rfl | ht, hs⟩
        · exact .inl rfl
        · by_cases hu : t = u
          · exact .inl hu
          · exact .inr ⟨ht, hu, hs⟩

theorem mem_findings {base : Text} : f ∈ findings base expression ↔
    f ∈ balance expression ∨ f ∈ blocks expression ∨
      ∃ leaf ∈ leaves (extraction base expression), f ∈ ofLeaf expression leaf := by
  simp only [findings, sort, List.mem_mergeSort, List.mem_append, List.mem_flatMap, mem_once,
    List.not_mem_nil, not_false_eq_true, and_true, or_assoc]

/-! ### Where findings come from -/

theorem of_mem_balance (h : f ∈ balance expression) :
    ∃ m n, f = ⟨.unbalanced m n, expression, none⟩ := by
  obtain ⟨-, h⟩ := List.mem_ite_nil_left.1 h
  exact ⟨_, _, List.mem_singleton.1 h⟩

/-- The start of a block that is open is found in the text, like what is still to be read. -/
theorem of_mem_blocksFrom : ∀ {block : Option Block} {r : Text}, r <:+ expression →
    (∀ b ∈ block, b.start <:+ expression) → f ∈ blocksFrom expression block r →
      f.expression = expression ∧ (∃ c, f.flaw = .operatorInBlock c)
        ∧ ∃ segment, f.segment = some segment ∧ segment <:+ expression
  | _, [], _, _, h => by simp [blocksFrom] at h
  | none, c :: r, hr, _, h => by
    rw [blocksFrom] at h
    refine of_mem_blocksFrom ((List.suffix_cons c r).trans hr) (fun b hb => ?_) h
    obtain ⟨d, -, rfl⟩ := Option.map_eq_some_iff.1 hb
    exact hr
  | some b, c :: r, hr, hb, h => by
    have hrest : r <:+ expression := (List.suffix_cons c r).trans hr
    have hstart : b.start <:+ expression := hb b rfl
    rw [blocksFrom] at h
    split_ifs at h
    · exact of_mem_blocksFrom hrest (by simp) h
    · rcases List.mem_cons.1 h with rfl | h
      · exact ⟨rfl, ⟨c, rfl⟩, b.start, rfl, hstart⟩
      · exact of_mem_blocksFrom hrest (by simpa using hstart) h
    · exact of_mem_blocksFrom hrest hb h

theorem of_mem_blocks (h : f ∈ blocks expression) :
    f.expression = expression ∧ (∃ c, f.flaw = .operatorInBlock c)
      ∧ ∃ segment, f.segment = some segment ∧ segment <:+ expression :=
  of_mem_blocksFrom List.suffix_rfl (by simp) h

/-- The segment of a finding in a leaf is the whole leaf. -/
theorem of_mem_ofLeaf {leaf : Text} (h : f ∈ ofLeaf expression leaf) :
    f.expression = expression ∧ f.segment = some leaf ∧ f.flaw ∈ leafFlaws leaf := by
  obtain ⟨flaw, hflaw, rfl⟩ := List.mem_map.1 h
  exact ⟨rfl, rfl, hflaw⟩

/-! ### Balance -/

theorem code_unbalanced_iff {flaw : Flaw} :
    flaw.code = "L_UNBALANCED_GROUPING" ↔ ∃ m n, flaw = .unbalanced m n := by
  cases flaw <;> simp [Flaw.code]
  all_goals decide

theorem unbalanced_notMem_leafFlaws {leaf : Text} (m n : Nat) :
    .unbalanced m n ∉ leafFlaws leaf := by
  simp [leafFlaws]

/-- Only the balance of the text is found under its code. -/
theorem mem_balance_iff {base : Text} :
    f ∈ findings base expression ∧ f.flaw.code = "L_UNBALANCED_GROUPING" ↔
      f ∈ balance expression := by
  rw [mem_findings]
  constructor
  · rintro ⟨h | h | ⟨leaf, -, h⟩, hcode⟩
    · exact h
    · obtain ⟨-, ⟨c, hc⟩, -⟩ := of_mem_blocks h
      rw [hc] at hcode
      obtain ⟨m, n, hf⟩ := code_unbalanced_iff.1 hcode
      cases hf
    · obtain ⟨m, n, hf⟩ := code_unbalanced_iff.1 hcode
      exact absurd (hf ▸ (of_mem_ofLeaf h).2.2) (unbalanced_notMem_leafFlaws m n)
  · intro h
    obtain ⟨m, n, rfl⟩ := of_mem_balance h
    exact ⟨.inl h, rfl⟩

end Lint

end Shorthand
