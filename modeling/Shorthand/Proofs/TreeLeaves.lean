import Shorthand.Proofs.Conservation
import Shorthand.Proofs.DirectExpansion
import Shorthand.Proofs.Places
import Shorthand.Proofs.Trimming

/-!
# The leaves of a tree

The leaves of the tree of marks are what its leaf places were read from (`mem_chainsLeaves_tree`).
A leaf is on a level of the whole or of the inside of a pair (`exists_body_of_leaf`). The other way
round, the inside of a pair is the body of a group or a part of a leaf (`within_cases`).
-/

namespace Shorthand

open TokenSource

/-! ### Leaves and keys -/

theorem chainsLeaves_eq_flatMap (cs : List Chain) : chainsLeaves cs = cs.flatMap Chain.leaves := by
  induction cs with
  | nil => rfl
  | cons c cs ih => rw [chainsLeaves, ih, List.flatMap_cons]

theorem levelsLeaves_eq_flatMap (ss : List Segment) :
    levelsLeaves ss = ss.flatMap Segment.leaves := by
  induction ss with
  | nil => rfl
  | cons s ss ih => rw [levelsLeaves, ih, List.flatMap_cons]

mutual

theorem Segment.leaves_unkeyed : ∀ s : Segment, s.unkeyed.leaves = s.leaves
  | .leaf _ => rfl
  | .group _ body => by
    rw [Segment.unkeyed, Segment.leaves, Segment.leaves, chainsLeaves_unkeyed body]

theorem Chain.leaves_unkeyed : ∀ c : Chain, c.unkeyed.leaves = c.leaves
  | ⟨source, levels⟩ => by
    rw [Chain.unkeyed, Chain.leaves, Chain.leaves, levelsLeaves_unkeyed levels]

theorem chainsLeaves_unkeyed : ∀ cs : List Chain,
    chainsLeaves (chainsUnkeyed cs) = chainsLeaves cs
  | [] => rfl
  | c :: cs => by
    rw [chainsUnkeyed, chainsLeaves, chainsLeaves, Chain.leaves_unkeyed c, chainsLeaves_unkeyed cs]

theorem levelsLeaves_unkeyed : ∀ ss : List Segment,
    levelsLeaves (levelsUnkeyed ss) = levelsLeaves ss
  | [] => rfl
  | s :: ss => by
    rw [levelsUnkeyed, levelsLeaves, levelsLeaves, Segment.leaves_unkeyed s,
      levelsLeaves_unkeyed ss]

end

namespace Mark

variable {b level ms : List Mark}

/-! ### Leaf places -/

/-- What is on the levels of the chains of a body. -/
def allLevels (ms : List Mark) : List (List Mark) :=
  (siblings ms).flatMap levels

theorem infix_of_mem_allLevels (h : level ∈ allLevels ms) : level <:+: ms := by
  obtain ⟨s, hs, hl⟩ := List.mem_flatMap.1 h
  exact (infix_of_mem_levels hl).trans (infix_of_mem_siblings hs)

/-- A place of marks is one of a body, of one of its chains, or a place at one of its levels. -/
theorem mem_places_iff {p : Place} : p ∈ places ms ↔ p = .body ms
    ∨ (∃ s ∈ siblings ms, p = .chain s ∨ p = .root s) ∨ ∃ l ∈ allLevels ms,
      (inside? l = none ∧ p = .leaf l) ∨ ∃ inner, inside? l = some inner ∧ p ∈ places inner := by
  have hlevel {l : List Mark} : p ∈ levelPlaces l ↔ (inside? l = none ∧ p = .leaf l)
      ∨ ∃ inner, inside? l = some inner ∧ p ∈ places inner := by
    unfold levelPlaces
    rcases inside? l with _ | inner <;> simp
  simp only [← hlevel]
  rw [places_eq]
  simp only [chainPlaces, allLevels, List.mem_cons, List.mem_append, List.mem_flatMap,
    List.not_mem_nil, or_false]
  constructor
  · rintro (h | ⟨s, hs, (h | ⟨l, hl, h⟩) | h⟩)
    · exact .inl h
    · exact .inr (.inl ⟨s, hs, .inl h⟩)
    · exact .inr (.inr ⟨l, ⟨s, hs, hl⟩, h⟩)
    · exact .inr (.inl ⟨s, hs, .inr h⟩)
  · rintro (h | ⟨s, hs, h | h⟩ | ⟨l, ⟨s, hs, hl⟩, h⟩)
    · exact .inl h
    · exact .inr ⟨s, hs, .inl (.inl h)⟩
    · exact .inr ⟨s, hs, .inr h⟩
    · exact .inr ⟨s, hs, .inl (.inr ⟨l, hl, h⟩)⟩

/-- A leaf place is a level that is no group, or one among the places of a group. -/
theorem leaf_mem_places_iff : .leaf level ∈ places ms ↔
    (level ∈ allLevels ms ∧ inside? level = none) ∨
      ∃ l ∈ allLevels ms, ∃ inner, inside? l = some inner ∧ .leaf level ∈ places inner := by
  simp only [@mem_places_iff ms, reduceCtorEq, false_or, or_self, and_false, exists_false,
    Place.leaf.injEq, and_or_left, exists_or]
  constructor
  · rintro (⟨l, hl, hi, rfl⟩ | h)
    · exact .inl ⟨hl, hi⟩
    · exact .inr h
  · rintro (⟨hl, hi⟩ | h)
    · exact .inl ⟨level, hl, hi, rfl⟩
    · exact .inr h

theorem body_mem_places_iff : .body b ∈ places ms ↔ b = ms ∨
    ∃ l ∈ allLevels ms, ∃ inner, inside? l = some inner ∧ .body b ∈ places inner := by
  simp only [@mem_places_iff ms, reduceCtorEq, false_or, or_self, and_false, exists_false,
    Place.body.injEq]

/-- What holds of marks if it holds of the insides of the groups on their levels. -/
theorem level_induction {P : List Mark → Prop}
    (step : ∀ ms, (∀ l ∈ allLevels ms, ∀ inner, inside? l = some inner → P inner) → P ms)
    (ms : List Mark) : P ms := by
  induction ms using inside_induction with
  | step ms ih =>
    refine step ms fun l hl inner hi => ?_
    obtain ⟨s, hs, hl⟩ := List.mem_flatMap.1 hl
    exact ih s hs l hl inner hi

/-- A level of the whole or of the body of a group is a leaf, unless it is a group. -/
theorem leaf_of_body (h : .body b ∈ places ms) (hl : level ∈ allLevels b)
    (hi : inside? level = none) : .leaf level ∈ places ms := by
  induction ms using level_induction with
  | step ms ih =>
    rw [leaf_mem_places_iff]
    rcases body_mem_places_iff.1 h with rfl | ⟨l, hmem, inner, hinner, h⟩
    · exact .inl ⟨hl, hi⟩
    · exact .inr ⟨l, hmem, inner, hinner, ih l hmem inner hinner h⟩

theorem within_of_level {inner : List Mark} (hl : level ∈ allLevels ms)
    (hi : inside? level = some inner) : Within inner ms := by
  refine .here ((infix_of_mem_allLevels hl).subset ?_)
  rw [inside?_eq_some.1 hi]
  exact List.mem_cons_self

/-- A leaf is on a level of the whole or of the inside of a pair. -/
theorem exists_body_of_leaf (h : .leaf level ∈ places ms) :
    ∃ b, BodyOf b ms ∧ level ∈ allLevels b ∧ inside? level = none := by
  induction ms using level_induction with
  | step ms ih =>
    rcases leaf_mem_places_iff.1 h with ⟨hl, hi⟩ | ⟨l, hl, inner, hi, h⟩
    · exact ⟨ms, .inl rfl, hl, hi⟩
    · obtain ⟨b, hb, hlevel⟩ := ih l hl inner hi h
      exact ⟨b, hb.trans (.inr (within_of_level hl hi)), hlevel⟩

/-- The inside of a pair is the body of a group, or the pair is a part of a leaf. -/
theorem within_cases (h : Within b ms) :
    .body b ∈ places ms ∨ ∃ level, .leaf level ∈ places ms ∧ Within b level := by
  induction ms using level_induction with
  | step ms ih =>
    obtain ⟨outer, hm, hb⟩ := within_iff.1 h
    obtain ⟨s, hs, hm⟩ := exists_mem_split (c := '+') hm rfl rfl
    obtain ⟨l, hl, hm⟩ := exists_mem_split (c := '>') hm rfl rfl
    have hl : l ∈ allLevels ms := List.mem_flatMap.2 ⟨s, hs, hl⟩
    rcases hi : inside? l with _ | inner
    · exact .inr ⟨l, leaf_mem_places_iff.2 (.inl ⟨hl, hi⟩), within_iff.2 ⟨outer, hm, hb⟩⟩
    rw [inside?_eq_some.1 hi, List.mem_singleton, Mark.pair.injEq] at hm
    subst hm
    rw [body_mem_places_iff]
    rcases hb with rfl | hb
    · exact .inl (.inr ⟨l, hl, b, hi, body_mem_places_iff.2 (.inl rfl)⟩)
    rcases ih l hl outer hi hb with hbody | ⟨level, hlevel, hw⟩
    · exact .inl (.inr ⟨l, hl, outer, hi, hbody⟩)
    · exact .inr ⟨level, leaf_mem_places_iff.2 (.inr ⟨l, hl, outer, hi, hlevel⟩), hw⟩

/-! ### The leaves of the tree -/

def Place.leaves : Place → List Text
  | body _ => []
  | chain _ => []
  | leaf level => [sources level]
  | root _ => []

theorem chainsLeaves_tree (ms : List Mark) :
    chainsLeaves (tree ms) = (places ms).flatMap Place.leaves := by
  induction ms using inside_induction with
  | step ms ih =>
    rw [flatMap_places, tree_eq, chainsLeaves_eq_flatMap, List.flatMap_map, Place.leaves,
      List.nil_append]
    refine List.flatMap_congr fun s hs => ?_
    rw [flatMap_chainPlaces, chainOf, Chain.leaves, levelsLeaves_eq_flatMap, List.flatMap_map,
      Place.leaves, Place.leaves, List.nil_append, List.append_nil]
    refine List.flatMap_congr fun l hl => ?_
    unfold segment levelPlaces
    rcases hi : inside? l with _ | inner
    · rfl
    · exact ih s hs l hl inner hi

theorem mem_chainsLeaves_tree {leaf : Text} : leaf ∈ chainsLeaves (tree ms) ↔
    ∃ level, .leaf level ∈ places ms ∧ sources level = leaf := by
  rw [chainsLeaves_tree, List.mem_flatMap]
  constructor
  · rintro ⟨p, hp, h⟩
    cases p with
    | leaf level => exact ⟨level, hp, (List.mem_singleton.1 h).symm⟩
    | body | chain | root => cases h
  · rintro ⟨level, hl, rfl⟩
    exact ⟨.leaf level, hl, List.mem_singleton_self _⟩

end Mark

namespace Extraction

variable {g : Extraction} {t x : Text} {ms : List Mark}

/-! ### The leaves of a text -/

theorem Reads.leaves_tree (h : g.Reads t) {e : Option Text} {chains : List Chain}
    (hc : g.tree e = .ok chains) :
    chainsLeaves chains = chainsLeaves (Mark.tree (Mark.read t)) := by
  rw [← (h.of_tree e hc).2, ← chainsUnkeyed_eq_map, chainsLeaves_unkeyed]

theorem Reads.infix_of_mem_chainsLeaves {leaf : Text} (h : g.Reads t) {e : Option Text}
    {chains : List Chain} (hc : g.tree e = .ok chains) (hl : leaf ∈ chainsLeaves chains) :
    leaf <:+: t := by
  rw [h.leaves_tree hc] at hl
  obtain ⟨level, hlevel, rfl⟩ := Mark.mem_chainsLeaves_tree.1 hl
  have hi := Mark.infix_of_mem_places hlevel
  rwa [Mark.sources_read] at hi

theorem Stands.allLevels (hs : SafeBase g.source.base) (h : g.Stands x ms) :
    List.Forall₂ g.Stands
      ((x.splitOn (.char '+')).flatMap fun s => (s.splitOn (.char '>')).map Text.trim)
      (Mark.allLevels ms) := by
  have hlevels : Mark.allLevels ms = (ms.splitOnP (Mark.isChar '+')).flatMap Mark.levels := by
    simp only [Mark.allLevels, Mark.siblings, List.flatMap_map, Mark.levels_trim]
  rw [hlevels]
  exact List.rel_flatMap (h.splitOn hs (isBaseChar_structure '+' (by simp)))
    fun _ _ hw => hw.levels hs

/-- The body of a group stands for the inside of each pair, at any depth. -/
theorem Stands.exists_body {b : List Mark} (h : g.Stands x ms) (hb : Mark.Within b ms) :
    ∃ p ∈ g.groups, g.Stands p.2 b := by
  have hpair {x : Text} {ms inner : List Mark} (h : g.Stands x ms) (hm : .pair inner ∈ ms) :
      ∃ p ∈ g.groups, g.Stands p.2 inner := by
    induction h with
    | nil => cases hm
    | char _ _ ih =>
      rcases List.mem_cons.1 hm with hm | hm
      · cases hm
      · exact ih hm
    | @pair n body x outer ms hk hi _ _ ih =>
      rcases List.mem_cons.1 hm with hm | hm
      · cases hm
        obtain ⟨l, r, hl, -⟩ := List.lookup_eq_some_iff.1 hk
        exact ⟨(tokenOf g.source.base n, body), by simp [hl], hi⟩
      · exact ih hm
  induction hb generalizing x with
  | here hm => exact hpair h hm
  | deeper hm _ ih =>
    obtain ⟨p, -, hp⟩ := hpair h hm
    exact ih hp

/-- Inside of a pair no parenthesis is left over, at any depth. -/
theorem balanced_within {b : List Mark} (h : Mark.Within b (Mark.read t)) :
    ∀ m ∈ b, m.Balanced := by
  have hpair {inner : List Mark} : (Mark.pair inner).Balanced → ∀ m ∈ inner, m.Balanced
    | .pair h => h
  have hdeep {outer : List Mark} (hw : Mark.Within b outer) :
      (∀ m ∈ outer, m.Balanced) → ∀ m ∈ b, m.Balanced := by
    induction hw with
    | here hm => exact fun houter => hpair (houter _ hm)
    | deeper hm _ ih => exact fun houter => ih (hpair (houter _ hm))
  obtain ⟨outer, hm, hb⟩ := Mark.within_iff.1 h
  have houter := hpair (whole_read t _ hm).balanced
  rcases hb with rfl | hb
  · exact houter
  · exact hdeep hb houter

/-- The marks at a leaf place of a text are those of the leaf. -/
theorem read_leaf {level : List Mark} (h : .leaf level ∈ Mark.places (Mark.read t)) :
    Mark.read (Mark.sources level) = level := by
  obtain ⟨b, hb, hlevel, -⟩ := Mark.exists_body_of_leaf h
  have hin := Mark.infix_of_mem_allLevels hlevel
  rcases hb with rfl | hb
  · refine Mark.read_sources_of_strays (t := t) (fun m hm => ?_) (hin.sublist.filter _)
    exact whole_read t m (hin.subset hm)
  · exact Mark.read_sources_of_balanced fun m hm => balanced_within hb m (hin.subset hm)

end Extraction

end Shorthand
