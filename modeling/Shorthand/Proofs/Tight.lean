import Shorthand.Proofs.DirectExpansion
import Shorthand.Proofs.Places
import Shorthand.Proofs.Trimming

/-!
# Tight marks

Marks are tight without the blanks that are trimmed off when they are parsed. They are parsed like
the marks they come from: their siblings and levels are those of the marks, made tight
(`siblings_tight`, `levels_tightSibling`), and none that was filled has become blank
(`filled_tight`). The tight marks of a text are the marks of what they spell
(`read_sources_tight`), since no parenthesis has been lost and none has changed places.
-/

namespace Shorthand

open TokenSource

namespace Mark

/-! ### Marks without the blanks around levels -/

/-- Marks without the blanks that are trimmed off when they are parsed. -/
def tight (ms : List Mark) : List Mark :=
  [char '+'].intercalate ((siblings ms).attach.map fun ⟨s, _⟩ =>
    [char '>'].intercalate ((levels s).attach.map fun ⟨level, _⟩ =>
      match _h : inside? level with
      | some inner => [.pair (tight inner)]
      | none => level))
termination_by depths ms
decreasing_by exact depths_inside ‹_› ‹_› ‹_›

/-- Only a group has anything inside that can be made tight. -/
def tightLevel (level : List Mark) : List Mark :=
  match inside? level with
  | some inner => [.pair (tight inner)]
  | none => level

def tightSibling (s : List Mark) : List Mark :=
  [char '>'].intercalate ((levels s).map tightLevel)

theorem tight_eq (ms : List Mark) :
    tight ms = [char '+'].intercalate ((siblings ms).map tightSibling) := by
  rw [tight, List.map_subtype (g := tightSibling), List.unattach_attach]
  intro s hs
  dsimp only
  rw [List.map_subtype (g := tightLevel), List.unattach_attach]
  · rfl
  · intro level hl
    dsimp only [tightLevel]
    split <;> simp_all

theorem tightLevel_pair (inner : List Mark) : tightLevel [.pair inner] = [.pair (tight inner)] :=
  rfl

theorem tightLevel_of_leaf {l : List Mark} (h : inside? l = none) : tightLevel l = l := by
  rw [tightLevel, h]

/-- A level is the pair of a group or a leaf. -/
theorem level_cases (l : List Mark) : (∃ inner, l = [.pair inner]) ∨ inside? l = none := by
  rcases h : inside? l with _ | inner
  · exact .inr rfl
  · exact .inl ⟨inner, inside?_eq_some.1 h⟩

/-! ### Siblings and levels of tight marks -/

/-- A piece has neither the sign that it was cut at nor blanks at its ends. -/
theorem notMem_of_mem_splitOnP {c : CodePoint} {w ms : List Mark}
    (h : w ∈ (ms.splitOnP (isChar c)).map trim) : .char c ∉ w ∧ trim w = w := by
  obtain ⟨v, hv, rfl⟩ := List.mem_map.1 h
  refine ⟨fun hc => ?_, trim_trim v⟩
  have hchar := Text.not_of_mem_splitOnP v hv _ ((infix_trim v).subset hc)
  exact Bool.false_ne_true (hchar.symm.trans (beq_self_eq_true c))

/-- Pieces like these are found again when the sign is put between them. -/
theorem splitOnP_intercalate {c : CodePoint} {ls : List (List Mark)} (hne : ls ≠ [])
    (h : ∀ l ∈ ls, .char c ∉ l ∧ trim l = l) :
    (([char c].intercalate ls).splitOnP (isChar c)).map trim = ls := by
  classical
  rw [isChar_eq, ← List.splitOn_eq_splitOnP,
    List.splitOn_intercalate (char c) (fun l hl => (h l hl).1) hne]
  exact (List.map_congr_left fun l hl => (h l hl).2).trans (List.map_id ls)

theorem char_mem_tightLevel {c : CodePoint} {l : List Mark} (h : .char c ∈ tightLevel l) :
    .char c ∈ l := by
  rcases level_cases l with ⟨inner, rfl⟩ | hl
  · simp [tightLevel_pair] at h
  · rwa [tightLevel_of_leaf hl] at h

/-- The sign between two levels is put back, and nothing else is new. -/
theorem char_mem_tightSibling {c : CodePoint} {s : List Mark} (h : .char c ∈ tightSibling s) :
    c = '>' ∨ .char c ∈ s := by
  rcases Text.mem_intercalate h with hc | ⟨k, hk, h⟩
  · exact .inl (Mark.char.inj (List.mem_singleton.1 hc))
  · obtain ⟨l, hl, rfl⟩ := List.mem_map.1 hk
    exact .inr ((infix_of_mem_levels hl).subset (char_mem_tightLevel h))

theorem trim_tightLevel {l : List Mark} (h : trim l = l) : trim (tightLevel l) = tightLevel l := by
  rcases level_cases l with ⟨inner, rfl⟩ | hl
  · rfl
  · rwa [tightLevel_of_leaf hl]

theorem trim_tightSibling (s : List Mark) : trim (tightSibling s) = tightSibling s := by
  refine trimBy_intercalate (by decide) fun k hk => ?_
  obtain ⟨l, hl, rfl⟩ := List.mem_map.1 hk
  exact trim_tightLevel (notMem_of_mem_splitOnP hl).2

theorem siblings_tight (ms : List Mark) : siblings (tight ms) = (siblings ms).map tightSibling := by
  rw [tight_eq]
  refine splitOnP_intercalate (by simp [siblings_ne_nil]) fun k hk => ?_
  obtain ⟨s, hs, rfl⟩ := List.mem_map.1 hk
  refine ⟨fun h => ?_, trim_tightSibling s⟩
  rcases char_mem_tightSibling h with h | h
  · exact absurd h (by decide)
  · exact (notMem_of_mem_splitOnP hs).1 h

theorem levels_tightSibling (s : List Mark) :
    levels (tightSibling s) = (levels s).map tightLevel := by
  refine splitOnP_intercalate (by simp [levels_ne_nil]) fun k hk => ?_
  obtain ⟨l, hl, rfl⟩ := List.mem_map.1 hk
  have hpiece := notMem_of_mem_splitOnP hl
  exact ⟨fun h => hpiece.1 (char_mem_tightLevel h), trim_tightLevel hpiece.2⟩

theorem tightLevel_ne_nil {l : List Mark} (h : l ≠ []) : tightLevel l ≠ [] := by
  rcases level_cases l with ⟨inner, rfl⟩ | hl
  · exact List.cons_ne_nil _ _
  · rwa [tightLevel_of_leaf hl]

theorem filled_tight {ms : List Mark} (h : ∀ p ∈ places ms, p.Filled) :
    ∀ p ∈ places (tight ms), p.Filled := by
  induction ms using inside_induction with
  | step ms ih =>
    rw [filled_places_iff] at h ⊢
    rw [siblings_tight, List.forall_mem_map]
    intro s hs
    have hlevels := filled_chainPlaces_iff.1 (h s hs).2
    have htight : ∀ l ∈ levels (tightSibling s), l ≠ [] ∧ ∀ p ∈ levelPlaces l, p.Filled := by
      rw [levels_tightSibling, List.forall_mem_map]
      intro l hl
      refine ⟨tightLevel_ne_nil (hlevels l hl).1, ?_⟩
      rcases level_cases l with ⟨inner, rfl⟩ | hleaf
      · exact ih s hs _ hl inner rfl (hlevels _ hl).2
      · rw [tightLevel_of_leaf hleaf]
        exact (hlevels l hl).2
    exact ⟨ne_nil_of_levels fun l hl => (htight l hl).1, filled_chainPlaces_iff.2 htight⟩

/-! ### Reading -/

theorem isStray_of_isBlank {m : Mark} (h : m.isBlank = true) : m.isStray = false := by
  have hparen : m.isStray = (m.isChar '(' || m.isChar ')') := by cases m <;> rfl
  rw [hparen, isChar_of_isBlank (by decide) h, isChar_of_isBlank (by decide) h]
  rfl

theorem filter_splitOnP {c : CodePoint} (hc : (char c).isStray = false) (ms : List Mark) :
    ((ms.splitOnP (isChar c)).map trim).flatMap (·.filter isStray) = ms.filter isStray := by
  have htrim (w : List Mark) : (trim w).filter isStray = w.filter isStray :=
    filter_trimBy (fun _ => isStray_of_isBlank) w
  conv_rhs => rw [← intercalate_splitOnP c ms, Text.filter_intercalate hc]
  rw [List.flatMap_map]
  simp only [htrim]

theorem filter_tightLevel (l : List Mark) : (tightLevel l).filter isStray = l.filter isStray := by
  rcases level_cases l with ⟨inner, rfl⟩ | hl
  · rfl
  · rw [tightLevel_of_leaf hl]

theorem filter_tightSibling (s : List Mark) :
    (tightSibling s).filter isStray = s.filter isStray := by
  rw [tightSibling, Text.filter_intercalate (by decide), List.flatMap_map]
  simp only [filter_tightLevel]
  exact filter_splitOnP (by decide) s

/-- The parentheses without a partner outside of all pairs are left where they are. -/
theorem filter_tight (ms : List Mark) : (tight ms).filter isStray = ms.filter isStray := by
  rw [tight_eq, Text.filter_intercalate (by decide), List.flatMap_map]
  simp only [filter_tightSibling]
  exact filter_splitOnP (by decide) ms

/-- What a tight mark can be. -/
theorem mem_tight {m : Mark} {ms : List Mark} (h : m ∈ tight ms) :
    m = .char '+' ∨ m = .char '>' ∨ m ∈ ms ∨ ∃ s ∈ siblings ms, ∃ l ∈ levels s, ∃ inner,
      inside? l = some inner ∧ .pair inner ∈ ms ∧ m = .pair (tight inner) := by
  rw [tight_eq] at h
  rcases Text.mem_intercalate h with hm | ⟨k, hk, h⟩
  · exact .inl (List.mem_singleton.1 hm)
  obtain ⟨s, hs, rfl⟩ := List.mem_map.1 hk
  rcases Text.mem_intercalate h with hm | ⟨k, hk, h⟩
  · exact .inr (.inl (List.mem_singleton.1 hm))
  obtain ⟨l, hl, rfl⟩ := List.mem_map.1 hk
  have hsub := ((infix_of_mem_levels hl).trans (infix_of_mem_siblings hs)).subset
  rcases level_cases l with ⟨inner, rfl⟩ | hleaf
  · exact .inr (.inr (.inr ⟨s, hs, _, hl, inner, rfl, hsub List.mem_cons_self,
      List.mem_singleton.1 h⟩))
  · rw [tightLevel_of_leaf hleaf] at h
    exact .inr (.inr (.inl (hsub h)))

theorem balanced_tight {ms : List Mark} (h : ∀ m ∈ ms, m.Balanced) :
    ∀ m ∈ tight ms, m.Balanced := by
  induction ms using inside_induction with
  | step ms ih =>
    intro m hm
    rcases mem_tight hm with rfl | rfl | hm | ⟨s, hs, l, hl, inner, hi, hmem, rfl⟩
    · exact .char (by decide) (by decide)
    · exact .char (by decide) (by decide)
    · exact h m hm
    · rcases h _ hmem with _ | hinner
      exact .pair (ih s hs l hl inner hi hinner)

theorem whole_tight {ms : List Mark} (h : ∀ m ∈ ms, m.Whole) : ∀ m ∈ tight ms, m.Whole := by
  intro m hm
  rcases mem_tight hm with rfl | rfl | hm | ⟨s, hs, l, hl, inner, hi, hmem, rfl⟩
  · exact .char _
  · exact .char _
  · exact h m hm
  · rcases h _ hmem with _ | hinner
    exact .pair (balanced_tight hinner)

theorem read_sources_tight (t : Text) : read (sources (tight (read t))) = tight (read t) :=
  read_sources_of_strays (whole_tight (Extraction.whole_read t)) (by rw [filter_tight])

end Mark

end Shorthand
