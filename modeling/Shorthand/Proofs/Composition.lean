import Mathlib.Algebra.GroupWithZero.Nat
import Shorthand.Proofs.Conservation
import Shorthand.Proofs.Faults

/-!
# Levels that are composed

Composing the levels of a chain hangs each level, as it is in the end, under the first node of the
level before it, after the children that this node has already (`Attached`). Nothing else changes.
It takes a single root and no level that is empty (`compose_attaches`).
-/

namespace Shorthand

theorem Node.eq_adopt_iff {n first : Node} {more : List Node} :
    n = first.adopt more ↔ n.bare = first.bare ∧ n.children = first.children ++ more := by
  constructor
  · rintro rfl
    exact ⟨bare_adopt first more, children_adopt first more⟩
  · rintro ⟨hbare, hchildren⟩
    cases n
    cases first
    simp only [bare, adopt, mk.injEq] at *
    tauto

/-! ### Attachment -/

/-- The levels of a chain before and after each is hung under the first node of the one before. -/
structure Attached (before after : List (List Node)) : Prop where
  length : after.length = before.length
  level : ∀ i level, before[i]? = some level → ∃ first others n, level = first :: others
    ∧ after[i]? = some (n :: others) ∧ n.bare = first.bare
    ∧ n.children = first.children ++ after[i + 1]?.getD []

variable {first n : Node} {others : List Node} {levels after : List (List Node)}

theorem attached_nil : Attached [] after ↔ after = [] := by
  refine ⟨fun h => List.length_eq_zero_iff.1 h.length, ?_⟩
  rintro rfl
  exact ⟨rfl, by simp⟩

theorem not_attached_nil_cons : ¬ Attached ([] :: levels) after := by
  intro h
  obtain ⟨first, others, n, hnil, -⟩ := h.level 0 [] rfl
  cases hnil

/-- What hangs under the first node is the next level as it is in the end. -/
theorem attached_cons : Attached ((first :: others) :: levels) after ↔
    ∃ below, after = (first.adopt (below.head?.getD []) :: others) :: below
      ∧ Attached levels below := by
  constructor
  · intro h
    obtain ⟨_, _, n, hlevel, hn, hbare, hchildren⟩ := h.level 0 _ rfl
    obtain ⟨rfl, rfl⟩ := List.cons.inj hlevel
    obtain ⟨below, rfl⟩ : ∃ below, after = (n :: others) :: below := by
      rcases after with _ | ⟨top, below⟩
      · cases hn
      · exact ⟨below, by rw [Option.some.inj hn]⟩
    rw [List.getElem?_cons_succ, ← List.head?_eq_getElem?] at hchildren
    refine ⟨below, by rw [← Node.eq_adopt_iff.2 ⟨hbare, hchildren⟩], ?_, fun i level hi => ?_⟩
    · exact Nat.succ.inj h.length
    · exact h.level (i + 1) level hi
  · rintro ⟨below, rfl, hlength, hlevel⟩
    refine ⟨congrArg Nat.succ hlength, fun i level hi => ?_⟩
    rcases i with _ | i
    · rw [← Option.some.inj hi]
      refine ⟨first, others, _, rfl, rfl, rfl, ?_⟩
      rw [List.getElem?_cons_succ, ← List.head?_eq_getElem?]
      rfl
    · exact hlevel i level hi

/-- The levels under a first node are hung there if the node takes them in. -/
theorem nest_eq_ok_iff : ∀ {levels : List (List Node)} {first n : Node} (others : List Node),
    nest first levels = .ok n ↔
      ∃ after, Attached ((first :: others) :: levels) ((n :: others) :: after)
  | [], first, n, others => by
    have hfirst : first.adopt [] = first :=
      (Node.eq_adopt_iff.2 ⟨rfl, (List.append_nil _).symm⟩).symm
    simp [nest, attached_cons, attached_nil, hfirst, eq_comm]
  | [] :: _, first, n, others => by
    simp [nest, attached_cons, not_attached_nil_cons]
  | (m :: ms) :: levels, first, n, others => by
    have hinner {child : Node} : nest m levels = .ok child ↔
        ∃ after, Attached ((m :: ms) :: levels) ((child :: ms) :: after) := nest_eq_ok_iff ms
    -- The next first node takes in the levels under it before it is taken in itself.
    rw [nest, bind_eq_ok_iff]
    constructor
    · rintro ⟨child, hchild, hn⟩
      obtain ⟨after, hafter⟩ := hinner.1 hchild
      refine ⟨(child :: ms) :: after, attached_cons.2 ⟨(child :: ms) :: after, ?_, hafter⟩⟩
      rw [← Except.ok.inj hn]
      rfl
    · rintro ⟨after, h⟩
      obtain ⟨below, heq, hbelow⟩ := attached_cons.1 h
      obtain ⟨after', rfl, -⟩ := attached_cons.1 hbelow
      obtain ⟨hn, rfl⟩ := List.cons.inj heq
      refine ⟨_, hinner.2 ⟨after', hbelow⟩, ?_⟩
      rw [(List.cons.inj hn).1]
      rfl

theorem nest_of_empty : ∀ (first : Node) {levels : List (List Node)}, [] ∈ levels →
    nest first levels = .error .missingLevel
  | _, [] :: _, _ => rfl
  | first, (m :: ms) :: levels, h => by
    rw [nest, nest_of_empty m (by simpa using h)]
    rfl

theorem nest_eq_error_iff {failure : Failure} :
    nest first levels = .error failure ↔ [] ∈ levels ∧ failure = .missingLevel := by
  by_cases h : [] ∈ levels
  · simp [nest_of_empty first h, h, eq_comm]
  · obtain ⟨n, hn⟩ := nest_ok first fun ns hns hnil => h (hnil ▸ hns)
    simp [hn, h]

/-! ### Sizes -/

theorem length_forestElements (ns : List Node) :
    (forestElements ns).length = (ns.map fun n => n.elements.length).sum := by
  rw [forestElements_eq_flatMap, List.length_flatMap]

/-- There are as many nodes in the result as in all levels. -/
theorem length_elements_nest (h : nest first levels = .ok n) :
    n.elements.length = first.elements.length + (forestElements levels.flatten).length := by
  have hperm := congrArg Multiset.card (elements_nest h)
  simpa only [Multiset.card_add, Multiset.coe_card] using hperm

/-! ### Composition -/

section

variable {e segment : Option Text}

theorem compose_eq_ok_iff : compose e segment levels = .ok n ↔
    ∃ root rest, levels = [root] :: rest ∧ nest root rest = .ok n := by
  rcases levels with _ | ⟨_ | ⟨root, _ | ⟨other, roots⟩⟩, rest⟩ <;> simp [compose]

theorem compose_of_roots {roots : List Node} (h : roots.length ≠ 1) :
    compose e segment (roots :: levels) =
      .error (.rejected ⟨.rootCount roots.length, e, segment⟩) := by
  rcases roots with _ | ⟨root, _ | ⟨other, roots⟩⟩
  · rfl
  · exact absurd rfl h
  · rfl

theorem exists_compose_iff : (∃ n, compose e segment levels = .ok n) ↔
    ∃ root rest, levels = [root] :: rest ∧ [] ∉ rest := by
  simp only [compose_eq_ok_iff]
  constructor
  · rintro ⟨n, root, rest, rfl, hn⟩
    refine ⟨root, rest, rfl, fun hmem => ?_⟩
    rw [nest_of_empty root hmem] at hn
    cases hn
  · rintro ⟨root, rest, rfl, hmem⟩
    obtain ⟨n, hn⟩ := nest_ok root fun ns hns hnil => hmem (hnil ▸ hns)
    exact ⟨n, root, rest, rfl, hn⟩

theorem compose_eq_rejected_iff {r : Rejection} :
    compose e segment levels = .error (.rejected r) ↔ ∃ roots rest, levels = roots :: rest
      ∧ roots.length ≠ 1 ∧ r = ⟨.rootCount roots.length, e, segment⟩ := by
  constructor
  · intro h
    rcases levels with _ | ⟨roots, rest⟩
    · cases h
    refine ⟨roots, rest, rfl, ?_⟩
    by_cases hone : roots.length = 1
    · obtain ⟨root, rfl⟩ := List.length_eq_one_iff.1 hone
      cases (nest_eq_error_iff.1 h).2
    · rw [compose_of_roots hone] at h
      exact ⟨hone, (Failure.rejected.inj (Except.error.inj h)).symm⟩
  · rintro ⟨roots, rest, rfl, hone, rfl⟩
    exact compose_of_roots hone

theorem compose_eq_missingLevel_iff : compose e segment levels = .error .missingLevel ↔
    levels = [] ∨ ∃ root rest, levels = [root] :: rest ∧ [] ∈ rest := by
  constructor
  · intro h
    rcases levels with _ | ⟨roots, rest⟩
    · exact .inl rfl
    by_cases hone : roots.length = 1
    · obtain ⟨root, rfl⟩ := List.length_eq_one_iff.1 hone
      exact .inr ⟨root, rest, rfl, (nest_eq_error_iff.1 h).1⟩
    · rw [compose_of_roots hone] at h
      cases h
  · rintro (rfl | ⟨root, rest, rfl, hmem⟩)
    · rfl
    · exact nest_of_empty root hmem

end

/-- Composition succeeds on levels with a single root of which none is empty, and hangs each under
the first node of the one before, so that all nodes are in the result. A number of roots that is
not one is rejected, and a level that is not there is missed. -/
theorem compose_attaches (e segment : Option Text) (levels : List (List Node)) :
    (∀ n, compose e segment levels = .ok n ↔
        ∃ root rest after, levels = [root] :: rest ∧ Attached levels ([n] :: after))
      ∧ ((∃ n, compose e segment levels = .ok n) ↔
        ∃ root rest, levels = [root] :: rest ∧ [] ∉ rest)
      ∧ (∀ n, compose e segment levels = .ok n →
        n.elements.length = (levels.flatten.map fun k => k.elements.length).sum)
      ∧ (∀ r, compose e segment levels = .error (.rejected r) ↔ ∃ roots rest,
        levels = roots :: rest ∧ roots.length ≠ 1 ∧ r = ⟨.rootCount roots.length, e, segment⟩)
      ∧ (compose e segment levels = .error .missingLevel ↔
        levels = [] ∨ ∃ root rest, levels = [root] :: rest ∧ [] ∈ rest) := by
  refine ⟨fun n => ?_, exists_compose_iff, fun n hn => ?_, fun r => compose_eq_rejected_iff,
    compose_eq_missingLevel_iff⟩
  · rw [compose_eq_ok_iff]
    constructor
    · rintro ⟨root, rest, rfl, hn⟩
      obtain ⟨after, hafter⟩ := (nest_eq_ok_iff []).1 hn
      exact ⟨root, rest, after, rfl, hafter⟩
    · rintro ⟨root, rest, after, rfl, hafter⟩
      exact ⟨root, rest, rfl, (nest_eq_ok_iff []).2 ⟨after, hafter⟩⟩
  · obtain ⟨root, rest, rfl, hnest⟩ := compose_eq_ok_iff.1 hn
    rw [List.flatten_cons, List.singleton_append, List.map_cons, List.sum_cons,
      length_elements_nest hnest, length_forestElements]

theorem compose_attaches_of_parents :
    let levels : List (List Node) :=
      [[{ tag := "a", children := [{ tag := "b" }] }],
        [{ tag := "c", id := some "i", children := [{ tag := "d" }] },
          { tag := "e", children := [{ tag := "f" }] }],
        [{ tag := "g" }, { tag := "d" }]]
    let root : Node :=
      { tag := "a"
        children := [{ tag := "b" },
          { tag := "c", id := some "i"
            children := [{ tag := "d" }, { tag := "g" }, { tag := "d" }] },
          { tag := "e", children := [{ tag := "f" }] }] }
    compose none none levels = .ok root ∧ (∃ after, Attached levels ([root] :: after))
      ∧ root.elements.length = 8 := by
  intro levels root
  have hroot : compose none none levels = .ok root := rfl
  obtain ⟨hok, -, hsize, -⟩ := compose_attaches none none levels
  obtain ⟨-, -, after, -, hafter⟩ := (hok root).1 hroot
  exact ⟨hroot, ⟨after, hafter⟩, hsize root hroot⟩

end Shorthand
