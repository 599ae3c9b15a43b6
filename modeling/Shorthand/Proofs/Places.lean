import Shorthand.Proofs.FlatParse

/-!
# The places of an expression

The places of marks, in the order in which an expression is gone through: a body of siblings, each
chain of it, what is on the levels of the chain, and the chain once more when its levels are done.
A parse fails at the first place where something is blank, and otherwise gives the tree of the marks
(`settles_parse`), which does not depend on anything else. So an extraction has this tree, keys
aside (`Extraction.Reads.of_tree`).
-/

namespace Shorthand

namespace Mark

/-- A body is what is read as siblings: a whole expression, or the inside of a group. -/
inductive Place where
  | body (ms : List Mark)
  | chain (sibling : List Mark)
  | leaf (level : List Mark)
  | root (sibling : List Mark)

def Place.marks : Place → List Mark
  | body ms => ms
  | chain s => s
  | leaf l => l
  | root s => s

/-- The places of marks. The inside of a level is gone through if the level is just one pair. -/
def places (ms : List Mark) : List Place :=
  .body ms :: (siblings ms).attach.flatMap fun ⟨s, _⟩ =>
    .chain s :: ((levels s).attach.flatMap fun ⟨level, _⟩ =>
      match _h : inside? level with
      | some inner => places inner
      | none => [.leaf level]) ++ [.root s]
termination_by depths ms
decreasing_by exact depths_inside ‹_› ‹_› ‹_›

def levelPlaces (level : List Mark) : List Place :=
  match inside? level with
  | some inner => places inner
  | none => [.leaf level]

def chainPlaces (s : List Mark) : List Place :=
  .chain s :: (levels s).flatMap levelPlaces ++ [.root s]

theorem places_eq (ms : List Mark) :
    places ms = .body ms :: (siblings ms).flatMap chainPlaces := by
  rw [places, List.flatMap_subtype (g := chainPlaces), List.unattach_attach]
  intro s hs
  dsimp only
  rw [List.flatMap_subtype (g := levelPlaces), List.unattach_attach]
  · rfl
  · intro level hl
    dsimp only [levelPlaces]
    split <;> simp_all

/-- The tree of marks. -/
def tree (ms : List Mark) : List Chain :=
  (siblings ms).attach.map fun ⟨s, _⟩ =>
    ⟨sources s, (levels s).attach.map fun ⟨level, _⟩ =>
      match _h : inside? level with
      | some inner => .group [] (tree inner)
      | none => .leaf (sources level)⟩
termination_by depths ms
decreasing_by exact depths_inside ‹_› ‹_› ‹_›

def segment (level : List Mark) : Segment :=
  match inside? level with
  | some inner => .group [] (tree inner)
  | none => .leaf (sources level)

def chainOf (s : List Mark) : Chain :=
  ⟨sources s, (levels s).map segment⟩

theorem tree_eq (ms : List Mark) : tree ms = (siblings ms).map chainOf := by
  rw [tree, List.map_subtype (g := chainOf), List.unattach_attach]
  intro s hs
  dsimp only
  rw [List.map_subtype (g := segment), List.unattach_attach]
  · rfl
  · intro level hl
    dsimp only [segment]
    split <;> simp_all

/-- What holds of marks if it holds of the insides of their groups holds of all marks. -/
theorem inside_induction {P : List Mark → Prop}
    (step : ∀ ms, (∀ s ∈ siblings ms, ∀ l ∈ levels s, ∀ inner, inside? l = some inner → P inner) →
      P ms) (ms : List Mark) : P ms :=
  step ms fun _ hs _ hl inner hi =>
    have := depths_inside hs hl hi
    inside_induction step inner
termination_by depths ms

/-- Every place is found in the source. -/
theorem infix_of_mem_places {p : Place} {ms : List Mark} (h : p ∈ places ms) :
    sources p.marks <:+: sources ms := by
  induction ms using inside_induction with
  | step ms ih =>
    rw [places_eq] at h
    rcases List.mem_cons.1 h with rfl | h
    · exact List.infix_refl _
    obtain ⟨s, hs, h⟩ := List.mem_flatMap.1 h
    have hsub : sources s <:+: sources ms := infix_sources (infix_of_mem_siblings hs)
    rcases List.mem_append.1 h with h | h
    · rcases List.mem_cons.1 h with rfl | h
      · exact hsub
      obtain ⟨level, hl, h⟩ := List.mem_flatMap.1 h
      have hlevel : sources level <:+: sources s := infix_sources (infix_of_mem_levels hl)
      refine List.IsInfix.trans ?_ (hlevel.trans hsub)
      unfold levelPlaces at h
      split at h
      · rename_i inner hi
        refine (ih s hs level hl inner hi h).trans ?_
        rw [inside?_eq_some.1 hi]
        exact infix_sources_pair inner
      · rw [List.mem_singleton.1 h]
        exact List.infix_refl _
    · rw [List.mem_singleton.1 h]
      exact hsub

/-! ### Blank places -/

/-- No sibling of a body and no level of a chain is blank. -/
def Place.Filled : Place → Prop
  | body ms => ∀ s ∈ siblings ms, s ≠ []
  | chain s => ∀ l ∈ levels s, l ≠ []
  | leaf _ => True
  | root _ => True

theorem filled_places_iff {ms : List Mark} : (∀ p ∈ places ms, p.Filled) ↔
    ∀ s ∈ siblings ms, s ≠ [] ∧ ∀ p ∈ chainPlaces s, p.Filled := by
  rw [places_eq, List.forall_mem_cons, List.forall_mem_flatMap]
  constructor
  · rintro ⟨hbody, hchains⟩ s hs
    exact ⟨hbody s hs, hchains s hs⟩
  · exact fun h => ⟨fun s hs => (h s hs).1, fun s hs => (h s hs).2⟩

theorem filled_chainPlaces_iff {s : List Mark} : (∀ p ∈ chainPlaces s, p.Filled) ↔
    ∀ l ∈ levels s, l ≠ [] ∧ ∀ p ∈ levelPlaces l, p.Filled := by
  have hroot : (Place.root s).Filled := trivial
  rw [chainPlaces, List.forall_mem_append, List.forall_mem_cons, List.forall_mem_flatMap,
    List.forall_mem_singleton, and_iff_left hroot]
  constructor
  · rintro ⟨hchain, hlevels⟩ l hl
    exact ⟨hchain l hl, hlevels l hl⟩
  · exact fun h => ⟨fun l hl => (h l hl).1, fun l hl => (h l hl).2⟩

theorem ne_nil_of_levels {s : List Mark} (h : ∀ l ∈ levels s, l ≠ []) : s ≠ [] := by
  rintro rfl
  exact h [] List.mem_cons_self rfl

section

variable (e : Option Text)

def Place.blanks : Place → List Rejection
  | body ms =>
    if (siblings ms).any (·.isEmpty) then [⟨.emptySibling, e, some (sources ms)⟩] else []
  | chain s =>
    (if ((levels s).headD []).isEmpty then [⟨.emptyRoot, e, some (sources s)⟩] else []) ++
      if (levels s).any (·.isEmpty) then [⟨.emptyLevel, e, some (sources s)⟩] else []
  | leaf _ => []
  | root _ => []

/-- What a parse objects to, in order. -/
def blanks (ms : List Mark) : List Rejection :=
  (places ms).flatMap (Place.blanks e)

theorem levels_ne_nil (s : List Mark) : levels s ≠ [] := by
  simp [levels, List.splitOnP_ne_nil]

theorem siblings_ne_nil (ms : List Mark) : siblings ms ≠ [] := by
  simp [siblings, List.splitOnP_ne_nil]

theorem not_any_isEmpty {ls : List (List Mark)} :
    ¬ ls.any (·.isEmpty) = true ↔ ∀ l ∈ ls, l ≠ [] := by
  simp only [List.any_eq_true, List.isEmpty_iff, not_exists, not_and, ne_eq]

theorem Place.blanks_eq_nil {p : Place} : p.blanks e = [] ↔ p.Filled := by
  cases p with
  | body ms => simp only [Place.blanks, Place.Filled, ite_eq_right_iff, List.cons_ne_nil,
      imp_false, not_any_isEmpty]
  | chain s =>
    obtain ⟨l, ls, h⟩ := List.exists_cons_of_ne_nil (levels_ne_nil s)
    simp only [Place.blanks, Place.Filled, List.append_eq_nil_iff, ite_eq_right_iff,
      List.cons_ne_nil, imp_false, not_any_isEmpty, and_iff_right_iff_imp]
    intro hall
    simp [h, hall l (by simp [h])]
  | leaf l => simp [Place.blanks, Place.Filled]
  | root s => simp [Place.blanks, Place.Filled]

theorem Place.of_mem_blanks {p : Place} {r : Rejection} (h : r ∈ p.blanks e) :
    r.expression = e ∧ r.segment = some (sources p.marks)
      ∧ r.problem.code = "E_INVALID_EXPRESSION" := by
  cases p with
  | body ms =>
    simp only [Place.blanks, List.mem_ite_nil_right, List.mem_singleton] at h
    obtain ⟨-, rfl⟩ := h
    exact ⟨rfl, rfl, rfl⟩
  | chain s =>
    simp only [Place.blanks, List.mem_append, List.mem_ite_nil_right, List.mem_singleton] at h
    rcases h with ⟨-, rfl⟩ | ⟨-, rfl⟩
    · exact ⟨rfl, rfl, rfl⟩
    · exact ⟨rfl, rfl, rfl⟩
  | leaf l => cases h
  | root s => cases h

theorem blanks_eq_nil {ms : List Mark} : blanks e ms = [] ↔ ∀ p ∈ places ms, p.Filled := by
  simp only [blanks, List.flatMap_eq_nil_iff, Place.blanks_eq_nil]

theorem flatMap_chainPlaces {α : Type} {f : Place → List α} (s : List Mark) :
    (chainPlaces s).flatMap f =
      f (.chain s) ++ ((levels s).flatMap fun l => (levelPlaces l).flatMap f) ++ f (.root s) := by
  simp only [chainPlaces, List.flatMap_append, List.flatMap_cons, List.flatMap_nil,
    List.flatMap_assoc, List.append_nil]

theorem flatMap_places {α : Type} {f : Place → List α} (ms : List Mark) :
    (places ms).flatMap f =
      f (.body ms) ++ (siblings ms).flatMap fun s => (chainPlaces s).flatMap f := by
  rw [places_eq, List.flatMap_cons, List.flatMap_assoc]

theorem settles_parseLevel {level : List Mark}
    (ih : ∀ inner, inside? level = some inner →
      Settles (tree inner = ·) (blanks e inner) (parse e inner)) :
    Settles (segment level = ·) ((levelPlaces level).flatMap (Place.blanks e))
      (parseLevel e level) := by
  unfold levelPlaces parseLevel segment
  rcases hi : inside? level with _ | inner
  · exact .ok rfl
  · exact (ih inner hi).map fun cs hcs => congrArg (Segment.group []) hcs

theorem settles_parseSibling {s : List Mark}
    (ih : ∀ l ∈ levels s, ∀ inner, inside? l = some inner →
      Settles (tree inner = ·) (blanks e inner) (parse e inner)) :
    Settles (chainOf s = ·) ((chainPlaces s).flatMap (Place.blanks e)) (parseSibling e s) := by
  rw [flatMap_chainPlaces]
  unfold parseSibling
  simp only [Place.blanks, List.append_assoc]
  refine .guard fun _ => .guard fun _ => ?_
  refine (Settles.mapM fun l hl => settles_parseLevel e (ih l hl)).bind fun segments hs => .ok ?_
  rw [← List.forall₂_map_left_iff, List.forall₂_eq_eq_eq] at hs
  rw [chainOf, hs]

/-- A parse fails at the first blank place. -/
theorem settles_parse (ms : List Mark) : Settles (tree ms = ·) (blanks e ms) (parse e ms) := by
  induction ms using inside_induction with
  | step ms ih =>
    rw [blanks, flatMap_places, parse_eq]
    refine .guard fun _ => ?_
    refine (Settles.mapM fun s hs => settles_parseSibling e (ih s hs)).imp fun cs hcs => ?_
    rw [← List.forall₂_map_left_iff, List.forall₂_eq_eq_eq] at hcs
    rw [tree_eq, hcs]

theorem parse_eq_ok_iff {ms : List Mark} {cs : List Chain} :
    parse e ms = .ok cs ↔ (∀ p ∈ places ms, p.Filled) ∧ cs = tree ms := by
  rw [(settles_parse e ms).ok_iff, blanks_eq_nil]

end

end Mark

/-! ### Trees of extractions -/

section

variable {g : Extraction} {t : Text} (h : g.Reads t) (e : Option Text)

include h

theorem Extraction.Reads.of_tree {chains : List Chain} (hc : g.tree e = .ok chains) :
    (∀ p ∈ Mark.places (Mark.read t), p.Filled)
      ∧ chains.map Chain.unkeyed = Mark.tree (Mark.read t) := by
  have hparse := h.tree e
  rw [hc] at hparse
  exact (Mark.parse_eq_ok_iff e).1 hparse.symm

theorem Extraction.Reads.exists_tree (hf : ∀ p ∈ Mark.places (Mark.read t), p.Filled) :
    ∃ chains, g.tree e = .ok chains ∧ chains.map Chain.unkeyed = Mark.tree (Mark.read t) := by
  have hparse := h.tree e
  rw [(Mark.parse_eq_ok_iff e).2 ⟨hf, rfl⟩] at hparse
  rcases hc : g.tree e with r | chains <;> rw [hc] at hparse
  · cases hparse
  · exact ⟨chains, rfl, Except.ok.inj hparse⟩

end

end Shorthand
