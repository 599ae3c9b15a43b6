import Mathlib.Data.List.Infix
import Shorthand.Text.Blank

/-!
# Taking texts apart

What the pieces, words and cuts of a text are when it has been put together from them.
-/

namespace Shorthand

/-! ### Pieces -/

namespace Text

variable {α : Type} {p : α → Bool}

/-- Members that are no separators go to the front of the first piece. -/
theorem splitOnP_append {l : List α} (h : ∀ c ∈ l, p c = false) (r : List α) :
    (l ++ r).splitOnP p = (r.splitOnP p).modifyHead (l ++ ·) := by
  induction l with
  | nil =>
    obtain ⟨w, ws, hw⟩ := List.exists_cons_of_ne_nil (List.splitOnP_ne_nil p r)
    simp [hw]
  | cons c l ih =>
    obtain ⟨hc, hl⟩ := List.forall_mem_cons.1 h
    rw [List.cons_append, List.splitOnP_cons_eq_if_modifyHead, hc, ih hl,
      List.modifyHead_modifyHead]
    rfl

/-- The first piece is at the front, and every other one comes after a separator. -/
theorem follow_splitOnP : ∀ {l w : List α} {ws : List (List α)}, l.splitOnP p = w :: ws →
    w <+: l ∧ ∀ v ∈ ws, ∃ s b, s :: b <:+ l ∧ p s = true ∧ v <+: b
  | [], w, ws, h => by
    obtain ⟨rfl, rfl⟩ := List.cons.inj h
    exact ⟨List.nil_prefix, by simp⟩
  | c :: r, w, ws, h => by
    obtain ⟨v, vs, hv⟩ := List.exists_cons_of_ne_nil (List.splitOnP_ne_nil p r)
    obtain ⟨hp, hf⟩ := follow_splitOnP hv
    have hlater : ∀ u ∈ vs, ∃ s b, s :: b <:+ c :: r ∧ p s = true ∧ u <+: b := by
      intro u hu
      obtain ⟨s, b, hb, hs, hu⟩ := hf u hu
      exact ⟨s, b, hb.trans (List.suffix_cons c r), hs, hu⟩
    rw [List.splitOnP_cons_eq_if_modifyHead, hv] at h
    split_ifs at h with hc
    · obtain ⟨rfl, rfl⟩ := List.cons.inj h
      exact ⟨List.nil_prefix, List.forall_mem_cons.2 ⟨⟨c, r, List.suffix_rfl, hc, hp⟩, hlater⟩⟩
    · obtain ⟨rfl, rfl⟩ := List.cons.inj h
      exact ⟨List.cons_prefix_cons.2 ⟨rfl, hp⟩, hlater⟩

theorem piece_cases {l w : List α} (h : w ∈ l.splitOnP p) :
    w <+: l ∨ ∃ s b, s :: b <:+ l ∧ p s = true ∧ w <+: b := by
  obtain ⟨v, vs, hv⟩ := List.exists_cons_of_ne_nil (List.splitOnP_ne_nil p l)
  obtain ⟨hp, hf⟩ := follow_splitOnP hv
  rw [hv] at h
  rcases List.mem_cons.1 h with rfl | h
  · exact .inl hp
  · exact .inr (hf w h)

theorem infix_of_mem_splitOnP {l w : List α} (h : w ∈ l.splitOnP p) : w <:+: l := by
  rcases piece_cases h with hp | ⟨s, b, hb, -, hp⟩
  · exact hp.isInfix
  · exact hp.isInfix.trans ((List.suffix_cons s b).trans hb).isInfix

/-- There is no separator in a piece. -/
theorem not_of_mem_splitOnP {l : List α} : ∀ w ∈ l.splitOnP p, ∀ c ∈ w, p c = false := by
  induction l with
  | nil => simp
  | cons d r ih =>
    obtain ⟨v, vs, hv⟩ := List.exists_cons_of_ne_nil (List.splitOnP_ne_nil p r)
    rw [hv, List.forall_mem_cons] at ih
    rw [List.splitOnP_cons_eq_if_modifyHead, hv]
    split_ifs with hd
    · exact List.forall_mem_cons.2 ⟨by simp, List.forall_mem_cons.2 ih⟩
    · exact List.forall_mem_cons.2
        ⟨List.forall_mem_cons.2 ⟨Bool.not_eq_true _ ▸ hd, ih.1⟩, ih.2⟩

theorem flatten_splitOnP (l : List α) : (l.splitOnP p).flatten = l.filter fun c => !p c := by
  induction l with
  | nil => rfl
  | cons c r ih =>
    obtain ⟨w, ws, hw⟩ := List.exists_cons_of_ne_nil (List.splitOnP_ne_nil p r)
    rw [hw, List.flatten_cons] at ih
    rw [List.splitOnP_cons_eq_if_modifyHead, hw]
    split_ifs with hc
    · rw [List.flatten_cons, List.nil_append, List.flatten_cons, ih, List.filter_cons_of_neg]
      simpa using hc
    · rw [List.modifyHead_cons, List.flatten_cons, List.cons_append, ih, List.filter_cons_of_pos]
      simpa using hc

/-- What is no separator is in a piece. -/
theorem exists_mem_splitOnP {l : List α} {c : α} (h : c ∈ l) (hc : p c = false) :
    ∃ w ∈ l.splitOnP p, c ∈ w := by
  rw [← List.mem_flatten, flatten_splitOnP, List.mem_filter]
  exact ⟨h, by rw [hc]; rfl⟩

variable {c : CodePoint}

theorem notMem_of_mem_splitOn {t w : Text} (h : w ∈ t.splitOn c) : c ∉ w :=
  fun hm => Bool.false_ne_true ((not_of_mem_splitOnP w h c hm).symm.trans (beq_self_eq_true c))

theorem headD_mem_splitOn (c : CodePoint) (t : Text) : (t.splitOn c).headD [] ∈ t.splitOn c := by
  obtain ⟨w, ws, h⟩ := List.exists_cons_of_ne_nil (List.splitOn_ne_nil c t)
  rw [h]
  exact List.mem_cons_self

/-- A text in which each of the parts after the first follows a separator. -/
theorem splitOn_flatMap : ∀ {t : Text} {ts : List Text}, c ∉ t → (∀ u ∈ ts, c ∉ u) →
    (t ++ ts.flatMap (c :: ·)).splitOn c = t :: ts
  | t, [], h, _ => by
    rw [List.flatMap_nil, List.append_nil]
    exact List.splitOn_eq_singleton h
  | t, u :: ts, h, hts => by
    obtain ⟨hu, hts⟩ := List.forall_mem_cons.1 hts
    rw [List.flatMap_cons, List.cons_append, List.splitOn_append_cons_self_of_not_mem h]
    exact congrArg (t :: ·) (splitOn_flatMap hu hts)

/-! ### Separators -/

theorem mem_intercalate {sep : List α} {x : α} : ∀ {ls : List (List α)}, x ∈ sep.intercalate ls →
    x ∈ sep ∨ ∃ l ∈ ls, x ∈ l
  | [], h => by cases h
  | [l], h => .inr ⟨l, List.mem_cons_self, by rwa [List.intercalate_singleton] at h⟩
  | l :: k :: ls, h => by
    rw [List.intercalate_cons_cons, List.append_assoc, List.mem_append, List.mem_append] at h
    rcases h with h | h | h
    · exact .inr ⟨l, List.mem_cons_self, h⟩
    · exact .inl h
    · obtain hx | ⟨m, hm, h⟩ := mem_intercalate h
      · exact .inl hx
      · exact .inr ⟨m, List.mem_cons_of_mem l hm, h⟩

theorem filter_intercalate {x : α} {q : α → Bool} (hx : q x = false) : ∀ ls : List (List α),
    ([x].intercalate ls).filter q = ls.flatMap (·.filter q)
  | [] => rfl
  | [l] => by simp
  | l :: k :: ls => by
    have hsep : [x].filter q = [] := by simp [hx]
    rw [List.intercalate_cons_cons, List.filter_append, List.filter_append, hsep, List.append_nil,
      filter_intercalate hx (k :: ls), List.flatMap_cons, List.flatMap_cons, List.flatMap_cons]

/-! ### Words -/

theorem intercalate_space (t u : Text) (ts : List Text) :
    (" " : Text).intercalate (t :: u :: ts)
      = t ++ .char ' ' :: (" " : Text).intercalate (u :: ts) := by
  rw [List.intercalate_cons_cons, List.append_assoc]
  rfl

theorem words_intercalate : ∀ {ts : List Text}, (∀ t ∈ ts, t ≠ [] ∧ ∀ c ∈ t, isBlank c = false) →
    words ((" " : Text).intercalate ts) = ts
  | [], _ => rfl
  | [t], h => by
    obtain ⟨hne, ht⟩ := h t List.mem_cons_self
    rw [List.intercalate_singleton, words, List.splitOnP_eq_singleton ht]
    simp [hne]
  | t :: u :: ts, h => by
    obtain ⟨⟨hne, ht⟩, hts⟩ := List.forall_mem_cons.1 h
    rw [intercalate_space, words,
      List.splitOnP_append_cons_of_forall_mem ht (.char ' ') isBlank_space,
      List.filter_cons_of_pos (by simp [hne])]
    exact congrArg (t :: ·) (words_intercalate hts)

/-! ### Cuts -/

theorem cutFirst_append {a : Text} (h : c ∉ a) (b : Text) :
    cutFirst c (a ++ c :: b) = some (a, b) := by
  induction a with
  | nil => simp [cutFirst]
  | cons d a ih =>
    obtain ⟨hd, ha⟩ := not_or.1 (mt List.mem_cons.2 h)
    rw [List.cons_append, cutFirst, if_neg (Ne.symm hd), ih ha]
    rfl

theorem cutLast_eq_none : ∀ {t : Text}, c ∉ t → cutLast c t = none
  | [], _ => rfl
  | d :: r, h => by
    obtain ⟨hd, hr⟩ := not_or.1 (mt List.mem_cons.2 h)
    rw [cutLast, cutLast_eq_none hr]
    exact if_neg (Ne.symm hd)

theorem cutLast_append (a : Text) {b : Text} (h : c ∉ b) :
    cutLast c (a ++ c :: b) = some (a, b) := by
  induction a with
  | nil => simp [cutLast, cutLast_eq_none h]
  | cons d a ih => rw [List.cons_append, cutLast, ih]

theorem cutFirst_eq_none_iff {t : Text} : cutFirst c t = none ↔ c ∉ t := by
  constructor
  · intro h hc
    obtain ⟨a, b, rfl, ha⟩ := List.eq_append_cons_of_mem hc
    rw [cutFirst_append ha] at h
    cases h
  · intro hc
    rcases h : cutFirst c t with _ | ⟨a, b⟩
    · rfl
    · rw [eq_of_cutFirst h] at hc
      simp at hc

theorem cutFirst_eq_some_iff {t a b : Text} :
    cutFirst c t = some (a, b) ↔ t = a ++ c :: b ∧ c ∉ a := by
  refine ⟨fun h => ⟨eq_of_cutFirst h, ?_⟩, fun ⟨ht, ha⟩ => ht ▸ cutFirst_append ha b⟩
  have hc : c ∈ t := by simp [eq_of_cutFirst h]
  obtain ⟨a', b', rfl, ha⟩ := List.eq_append_cons_of_mem hc
  rw [cutFirst_append ha] at h
  cases h
  exact ha

theorem exists_last_of_mem {t : Text} (h : c ∈ t) : ∃ a b, t = a ++ c :: b ∧ c ∉ b := by
  obtain ⟨b, a, hr, hb⟩ := List.eq_append_cons_of_mem (List.mem_reverse.2 h)
  refine ⟨a.reverse, b.reverse, ?_, by simpa using hb⟩
  rw [← List.reverse_reverse t, hr]
  simp

theorem cutLast_eq_none_iff {t : Text} : cutLast c t = none ↔ c ∉ t := by
  refine ⟨fun h hc => ?_, cutLast_eq_none⟩
  obtain ⟨a, b, rfl, hb⟩ := exists_last_of_mem hc
  rw [cutLast_append a hb] at h
  cases h

theorem cutLast_eq_some_iff {t a b : Text} :
    cutLast c t = some (a, b) ↔ t = a ++ c :: b ∧ c ∉ b := by
  refine ⟨fun h => ⟨eq_of_cutLast h, ?_⟩, fun ⟨ht, hb⟩ => ht ▸ cutLast_append a hb⟩
  have hc : c ∈ t := by simp [eq_of_cutLast h]
  obtain ⟨a', b', rfl, hb⟩ := exists_last_of_mem hc
  rw [cutLast_append a' hb] at h
  cases h
  exact hb

/-- What stands before the last `c`, or all of a text without one. -/
def BeforeLast (c : CodePoint) (t front : Text) : Prop :=
  (c ∉ t ∧ front = t) ∨ ∃ r, t = front ++ c :: r ∧ c ∉ r

/-- What stands before the first `c`, or all of a text without one. -/
def UpTo (c : CodePoint) (t front : Text) : Prop :=
  (c ∉ t ∧ front = t) ∨ ∃ r, t = front ++ c :: r ∧ c ∉ front

theorem beforeLast_iff {t front : Text} :
    BeforeLast c t front ↔ ((cutLast c t).elim t fun cut => cut.1) = front := by
  have hcut : BeforeLast c t front ↔
      (cutLast c t = none ∧ front = t) ∨ ∃ r, cutLast c t = some (front, r) :=
    or_congr (and_congr_left' cutLast_eq_none_iff.symm)
      (exists_congr fun _ => cutLast_eq_some_iff.symm)
  rw [hcut]
  rcases cutLast c t with _ | ⟨a, b⟩
  · simp [eq_comm]
  · simp

theorem upTo_iff {t front : Text} :
    UpTo c t front ↔ ((cutFirst c t).elim t fun cut => cut.1) = front := by
  have hcut : UpTo c t front ↔
      (cutFirst c t = none ∧ front = t) ∨ ∃ r, cutFirst c t = some (front, r) :=
    or_congr (and_congr_left' cutFirst_eq_none_iff.symm)
      (exists_congr fun _ => cutFirst_eq_some_iff.symm)
  rw [hcut]
  rcases cutFirst c t with _ | ⟨a, b⟩
  · simp [eq_comm]
  · simp

theorem BeforeLast.isPrefix {t front : Text} : BeforeLast c t front → front <+: t
  | .inl ⟨_, h⟩ => h ▸ List.prefix_rfl
  | .inr ⟨_, h, _⟩ => h ▸ List.prefix_append _ _

theorem UpTo.isPrefix {t front : Text} : UpTo c t front → front <+: t
  | .inl ⟨_, h⟩ => h ▸ List.prefix_rfl
  | .inr ⟨_, h, _⟩ => h ▸ List.prefix_append _ _

theorem UpTo.notMem {t front : Text} : UpTo c t front → c ∉ front
  | .inl ⟨hc, h⟩ => h ▸ hc
  | .inr ⟨_, _, hc⟩ => hc

/-- The first piece is what stands before the first separator. -/
theorem upTo_iff_headD_splitOn {t front : Text} :
    UpTo c t front ↔ (t.splitOn c).headD [] = front := by
  constructor
  · rintro (⟨h, rfl⟩ | ⟨r, rfl, h⟩)
    · rw [List.splitOn_eq_singleton h, List.headD_cons]
    · rw [List.splitOn_append_cons_self_of_not_mem h, List.headD_cons]
  · rintro rfl
    by_cases h : c ∈ t
    · obtain ⟨a, b, rfl, ha⟩ := List.eq_append_cons_of_mem h
      rw [List.splitOn_append_cons_self_of_not_mem ha]
      exact .inr ⟨b, rfl, ha⟩
    · rw [List.splitOn_eq_singleton h]
      exact .inl ⟨h, rfl⟩

end Text

end Shorthand
