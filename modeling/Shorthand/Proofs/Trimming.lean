import Shorthand.Proofs.DirectParse
import Shorthand.Proofs.Tidy

/-!
# Trimming and cutting

Trimming takes off nothing but blanks (`exists_trimBy`), and blanks at the ends do not matter to the
trimmed pieces (`map_trimBy_splitOnP`), because no separator is blank. So the levels of a sibling
are those of the text it was trimmed from.
-/

namespace Shorthand

/-! ### Lists without their ends -/

section

variable {α : Type} {p q : α → Bool}

/-- What is left of a list without the members at its ends that satisfy `q`. -/
def trimBy (q : α → Bool) (l : List α) : List α :=
  (l.dropWhile q).rdropWhile q

theorem trimBy_append_left {a : List α} (ha : ∀ c ∈ a, q c = true) (l : List α) :
    trimBy q (a ++ l) = trimBy q l := by
  rw [trimBy, List.dropWhile_append_of_pos ha, trimBy]

theorem rdropWhile_append_of_pos {b : List α} (hb : ∀ c ∈ b, q c = true) (l : List α) :
    (l ++ b).rdropWhile q = l.rdropWhile q := by
  rw [List.rdropWhile, List.reverse_append, List.dropWhile_append_of_pos (by simpa using hb),
    List.rdropWhile]

theorem trimBy_append_right (l : List α) {b : List α} (hb : ∀ c ∈ b, q c = true) :
    trimBy q (l ++ b) = trimBy q l := by
  rw [trimBy, trimBy, List.dropWhile_append]
  split_ifs with h
  · rw [List.isEmpty_iff.1 h, List.dropWhile_eq_nil_iff.2 hb]
  · exact rdropWhile_append_of_pos hb _

/-- Only members that satisfy `q` are taken off. -/
theorem exists_trimBy (q : α → Bool) (l : List α) :
    ∃ a b, l = a ++ trimBy q l ++ b ∧ (∀ c ∈ a, q c = true) ∧ ∀ c ∈ b, q c = true := by
  refine ⟨l.takeWhile q, (l.dropWhile q).rtakeWhile q, ?_, fun c hc => List.mem_takeWhile_imp hc,
    fun c hc => List.mem_rtakeWhile_imp hc⟩
  rw [List.append_assoc, trimBy, List.rdropWhile_append_rtakeWhile, List.takeWhile_append_dropWhile]

theorem trimBy_trimBy (l : List α) : trimBy q (trimBy q l) = trimBy q l := by
  obtain ⟨a, b, hl, ha, hb⟩ := exists_trimBy q l
  conv_rhs => rw [hl, trimBy_append_right _ hb, trimBy_append_left ha]

/-- Nothing is taken off at the seam. -/
theorem trimBy_append {a b : List α} (ha : trimBy q a = a) (hb : trimBy q b = b) :
    trimBy q (a ++ b) = a ++ b := by
  unfold trimBy at *
  rw [dropWhile_rdropWhile_eq_self] at *
  constructor
  · intro c hc
    rw [List.head?_append, Option.mem_def, Option.or_eq_some_iff] at hc
    exact hc.elim (ha.1 c) fun h => hb.1 c h.2
  · intro c hc
    rw [List.getLast?_append, Option.mem_def, Option.or_eq_some_iff] at hc
    exact hc.elim (hb.2 c) fun h => ha.2 c h.2

theorem trimBy_intercalate {x : α} (hx : q x = false) : ∀ {ls : List (List α)},
    (∀ l ∈ ls, trimBy q l = l) → trimBy q ([x].intercalate ls) = [x].intercalate ls
  | [], _ => rfl
  | [l], h => by rw [List.intercalate_singleton, h l List.mem_cons_self]
  | l :: k :: ls, h => by
    obtain ⟨hl, hls⟩ := List.forall_mem_cons.1 h
    have hsep : trimBy q [x] = [x] := by simp [trimBy, List.rdropWhile, hx]
    rw [List.intercalate_cons_cons]
    exact trimBy_append (trimBy_append hl hsep) (trimBy_intercalate hx hls)

/-- Trimming takes nothing from what is not trimmed off anywhere. -/
theorem filter_trimBy (h : ∀ c, q c = true → p c = false) (l : List α) :
    (trimBy q l).filter p = l.filter p := by
  obtain ⟨a, b, hl, ha, hb⟩ := exists_trimBy q l
  have hnil {k : List α} (hk : ∀ c ∈ k, q c = true) : k.filter p = [] := by
    rw [List.filter_eq_nil_iff]
    intro c hc
    simp [h c (hk c hc)]
  conv_rhs => rw [hl, List.filter_append, List.filter_append, hnil ha, hnil hb, List.nil_append,
    List.append_nil]

theorem mem_trimBy {l : List α} {c : α} (h : c ∈ l) (hc : q c = false) : c ∈ trimBy q l := by
  have hmem : c ∈ l.filter fun d => !q d := List.mem_filter.2 ⟨h, by rw [hc]; rfl⟩
  rw [← filter_trimBy (q := q) fun d hd => by rw [hd]; rfl] at hmem
  exact List.mem_of_mem_filter hmem

/-! ### Pieces -/

namespace Text

/-- A list is free of separators or has a last one. -/
theorem exists_last_separator (p : α → Bool) : ∀ l : List α, (∀ c ∈ l, p c = false) ∨
    ∃ a s b, l = a ++ s :: b ∧ p s = true ∧ ∀ c ∈ b, p c = false
  | [] => .inl (by simp)
  | d :: r => by
    rcases exists_last_separator p r with hr | ⟨a, s, b, rfl, hs, hb⟩
    · rcases hd : p d with _ | _
      · exact .inl (List.forall_mem_cons.2 ⟨hd, hr⟩)
      · exact .inr ⟨[], d, r, rfl, hd, hr⟩
    · exact .inr ⟨d :: a, s, b, rfl, hs, hb⟩

theorem map_trimBy_splitOnP_append_left (h : ∀ c, q c = true → p c = false) {a : List α}
    (ha : ∀ c ∈ a, q c = true) (l : List α) :
    ((a ++ l).splitOnP p).map (trimBy q) = (l.splitOnP p).map (trimBy q) := by
  rw [splitOnP_append fun c hc => h c (ha c hc)]
  rcases l.splitOnP p with _ | ⟨w, ws⟩
  · rfl
  · rw [List.modifyHead_cons, List.map_cons, List.map_cons, trimBy_append_left ha]

theorem map_trimBy_splitOnP_append_right (h : ∀ c, q c = true → p c = false) (l : List α)
    {b : List α} (hb : ∀ c ∈ b, q c = true) :
    ((l ++ b).splitOnP p).map (trimBy q) = (l.splitOnP p).map (trimBy q) := by
  have hfree {l : List α} (hl : ∀ c ∈ l, p c = false) : ∀ c ∈ l ++ b, p c = false :=
    List.forall_mem_append.2 ⟨hl, fun c hc => h c (hb c hc)⟩
  rcases exists_last_separator p l with hl | ⟨x, s, y, rfl, hs, hy⟩
  · rw [List.splitOnP_eq_singleton (hfree hl), List.splitOnP_eq_singleton hl, List.map_singleton,
      List.map_singleton, trimBy_append_right l hb]
  · rw [List.append_assoc, List.cons_append, List.splitOnP_append_cons _ _ hs,
      List.splitOnP_append_cons _ _ hs, List.splitOnP_eq_singleton (hfree hy),
      List.splitOnP_eq_singleton hy, List.map_append, List.map_append,
      List.map_singleton, List.map_singleton, trimBy_append_right y hb]

/-- No separator satisfies `q`, so that only the first and the last piece can differ before they are
trimmed. -/
theorem map_trimBy_splitOnP (h : ∀ c, q c = true → p c = false) (l : List α) :
    ((trimBy q l).splitOnP p).map (trimBy q) = (l.splitOnP p).map (trimBy q) := by
  obtain ⟨a, b, hl, ha, hb⟩ := exists_trimBy q l
  conv_rhs => rw [hl, map_trimBy_splitOnP_append_right h _ hb,
    map_trimBy_splitOnP_append_left h ha]

theorem trim_trim (t : Text) : trim (trim t) = trim t :=
  trimBy_trimBy t

theorem trim_subset (t : Text) : trim t ⊆ t := by
  obtain ⟨a, b, ht, -⟩ := exists_trimBy isBlank t
  conv_rhs => rw [ht]
  exact List.subset_append_of_subset_left _ (List.subset_append_right _ _)

theorem trim_eq_nil_iff {t : Text} : trim t = [] ↔ ∀ c ∈ t, isBlank c = true := by
  constructor
  · intro h
    obtain ⟨a, b, ht, ha, hb⟩ := exists_trimBy isBlank t
    have hnil : trimBy isBlank t = [] := h
    rw [ht, hnil, List.append_nil]
    exact List.forall_mem_append.2 ⟨ha, hb⟩
  · intro h
    have hdrop : t.dropWhile isBlank = [] := List.dropWhile_eq_nil_iff.2 h
    rw [trim, trimStart, hdrop]
    rfl

end Text

end

/-! ### Siblings and levels of marks -/

namespace Mark

variable {ms : List Mark}

theorem trim_trim (ms : List Mark) : trim (trim ms) = trim ms :=
  trimBy_trimBy ms

theorem isBlank_of_mem_sources : ∀ {ms : List Mark}, (∀ m ∈ ms, m.isBlank = true) →
    ∀ c ∈ sources ms, Text.isBlank c = true
  | [], _, c, hc => by cases hc
  | .pair _ :: _, h, _, _ => by cases (List.forall_mem_cons.1 h).1
  | .char d :: ms, h, c, hc => by
    obtain ⟨hd, hms⟩ := List.forall_mem_cons.1 h
    rcases List.mem_cons.1 hc with rfl | hc
    · exact hd
    · exact isBlank_of_mem_sources hms c hc

theorem eq_of_isChar {c : CodePoint} : ∀ {m : Mark}, m.isChar c = true → m = .char c
  | .char d, h => by rw [eq_of_beq h]
  | .pair _, h => by cases h

theorem isChar_eq [DecidableEq Mark] (c : CodePoint) : isChar c = (· == char c) := by
  funext m
  cases m <;> simp [isChar]

/-- The pieces of some marks are the marks again if the characters between them are put back. -/
theorem intercalate_splitOnP (c : CodePoint) (ms : List Mark) :
    [char c].intercalate (ms.splitOnP (isChar c)) = ms := by
  classical
  rw [isChar_eq]
  exact List.intercalate_splitOn (char c)

theorem isChar_of_isBlank {c : CodePoint} (hc : Text.isBlank c = false) {m : Mark}
    (h : m.isBlank = true) : m.isChar c = false := by
  rcases m with d | inner
  · refine beq_false_of_ne ?_
    rintro rfl
    exact Bool.false_ne_true (hc.symm.trans h)
  · rfl

theorem levels_trim (ms : List Mark) : levels (trim ms) = levels ms :=
  Text.map_trimBy_splitOnP (fun _ => isChar_of_isBlank (by decide)) ms

/-- A mark that is neither blank nor the operator is left in a trimmed piece. -/
theorem exists_mem_split {c : CodePoint} {m : Mark} (h : m ∈ ms) (hc : m.isChar c = false)
    (hb : m.isBlank = false) : ∃ w ∈ (ms.splitOnP (isChar c)).map trim, m ∈ w := by
  obtain ⟨w, hw, hm⟩ := Text.exists_mem_splitOnP h hc
  exact ⟨trim w, List.mem_map_of_mem hw, mem_trimBy hm hb⟩

theorem isChar_of_notMem {c : CodePoint} (h : .char c ∉ ms) : ∀ m ∈ ms, m.isChar c = false := by
  rintro (d | inner) hm
  · exact beq_false_of_ne fun hd => h (hd ▸ hm)
  · rfl

theorem siblings_eq_singleton (h : .char '+' ∉ ms) : siblings ms = [trim ms] := by
  rw [siblings, List.splitOnP_eq_singleton (isChar_of_notMem h)]
  rfl

theorem levels_eq_singleton (h : .char '>' ∉ ms) : levels ms = [trim ms] := by
  rw [levels, List.splitOnP_eq_singleton (isChar_of_notMem h)]
  rfl

/-- The sign for a new level keeps the levels on its two sides apart. -/
theorem levels_append_gt (ms ns : List Mark) :
    levels (ms ++ .char '>' :: ns) = levels ms ++ levels ns := by
  have hgt : isChar '>' (.char '>') = true := by decide
  rw [levels, List.splitOnP_append_cons _ _ hgt, List.map_append]
  rfl

theorem levels_pair (inner : List Mark) : levels [.pair inner] = [[.pair inner]] :=
  levels_eq_singleton (by simp)

/-! ### Text without parentheses -/

theorem trim_map_char (t : Text) : trim (t.map char) = (Text.trim t).map char := by
  show trimBy isBlank (t.map char) = (trimBy (isBlank ∘ char) t).map char
  unfold trimBy List.rdropWhile
  rw [List.dropWhile_map, ← List.map_reverse, List.dropWhile_map, ← List.map_reverse]

theorem inside?_map_char (t : Text) : inside? (t.map char) = none := by
  rcases t with _ | ⟨c, _ | ⟨d, r⟩⟩ <;> rfl

end Mark

end Shorthand
