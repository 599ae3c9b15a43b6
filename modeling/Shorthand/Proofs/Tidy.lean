import Mathlib.Data.List.Chain
import Mathlib.Data.List.DropRight
import Shorthand.Proofs.Splitting

/-!
# Texts that stay as they are

Normalizing leaves a text alone if its only blanks are single spaces (`normalize_eq_self_iff`). A
solid text has no blank at its ends either, so that trimming leaves it alone too, and texts put
together from solid ones are solid again.
-/

namespace Shorthand

namespace Text

/-- All blanks are spaces, and no two of them are next to each other. -/
structure Tidy (t : Text) : Prop where
  space : ∀ c ∈ t, isBlank c = true → c = ' '
  apart : t.IsChain fun c d => isBlank c = false ∨ isBlank d = false

theorem head?_collapse {c : CodePoint} (hc : isBlank c = false) (r : Text) :
    (collapse (c :: r)).head? = some c := by
  cases r <;> simp [collapse, hc]

theorem tidy_collapse (t : Text) : (collapse t).Tidy := by
  refine ⟨fun c hc hb => isBlank_of_mem_collapse hc hb, ?_⟩
  fun_induction collapse t with
  | case1 => exact .nil
  | case2 => exact .singleton _
  | case3 => exact .singleton _
  | case4 c d r _ _ ih => exact ih
  | case5 c d r _ hd ih =>
    rw [Bool.not_eq_true] at hd
    refine List.isChain_cons.2 ⟨fun e he => ?_, ih⟩
    rw [head?_collapse hd, Option.mem_some_iff] at he
    exact .inr (he ▸ hd)
  | case6 c d r hc ih => exact List.isChain_cons.2 ⟨fun _ _ => .inl (by simpa using hc), ih⟩

theorem Tidy.collapse_eq {t : Text} (h : t.Tidy) : collapse t = t := by
  obtain ⟨hs, ha⟩ := h
  fun_induction collapse t with
  | case1 => rfl
  | case2 c hc => rw [hs c List.mem_cons_self hc]
  | case3 => rfl
  | case4 c d r hc hd =>
    rcases (List.isChain_cons_cons.1 ha).1 with h | h
    · simp [hc] at h
    · simp [hd] at h
  | case5 c d r hc _ ih =>
    rw [ih (List.forall_mem_cons.1 hs).2 (List.isChain_cons_cons.1 ha).2,
      hs c List.mem_cons_self hc]
  | case6 c d r _ ih => rw [ih (List.forall_mem_cons.1 hs).2 (List.isChain_cons_cons.1 ha).2]

/-- What vanishes when a text is normalized is blank. -/
theorem keeps_of_not_blank {c : CodePoint} (hc : isBlank c = false) :
    (!(c == '\t' || c == '\n' || c == '\r')) = true := by
  rw [Bool.not_eq_true', ← Bool.not_eq_true]
  intro hctl
  simp only [Bool.or_eq_true, beq_iff_eq] at hctl
  rcases hctl with (rfl | rfl) | rfl <;> exact absurd hc (by decide)

theorem normalize_eq_self_iff {t : Text} : normalize t = t ↔ t.Tidy := by
  refine ⟨fun h => h ▸ tidy_collapse _, fun h => ?_⟩
  have hkeep : t.filter (fun c : CodePoint => !(c == '\t' || c == '\n' || c == '\r')) = t := by
    rw [List.filter_eq_self]
    intro c hc
    rcases hb : isBlank c with _ | _
    · exact keeps_of_not_blank hb
    · rw [h.space c hc hb]
      decide
  rw [normalize, hkeep, h.collapse_eq]

theorem Tidy.append {a b : Text} (ha : a.Tidy) (hb : b.Tidy)
    (h : ∀ c ∈ a.getLast?, ∀ d ∈ b.head?, isBlank c = false ∨ isBlank d = false) :
    (a ++ b).Tidy :=
  ⟨fun c hc => (List.mem_append.1 hc).elim (ha.space c) (hb.space c),
    List.isChain_append.2 ⟨ha.apart, hb.apart, h⟩⟩

theorem tidy_of_no_blank {t : Text} (h : ∀ c ∈ t, isBlank c = false) : t.Tidy where
  space c hc hb := by simp [h c hc] at hb
  apart := by
    induction t with
    | nil => exact .nil
    | cons c r ih =>
      obtain ⟨hc, hr⟩ := List.forall_mem_cons.1 h
      exact List.isChain_cons.2 ⟨fun _ _ => .inl hc, ih hr⟩

end Text

/-! ### Ends -/

/-- A list keeps its ends if what is cut off there is not at them. -/
theorem dropWhile_rdropWhile_eq_self {α : Type} {p : α → Bool} {l : List α} :
    (l.dropWhile p).rdropWhile p = l ↔
      (∀ a ∈ l.head?, p a = false) ∧ ∀ a ∈ l.getLast?, p a = false := by
  have hhead : l.dropWhile p = l ↔ ∀ a ∈ l.head?, p a = false := by
    rcases l with _ | ⟨a, l⟩
    · simp
    · rw [List.dropWhile_eq_self_iff]
      simp
  have hlast : l.rdropWhile p = l ↔ ∀ a ∈ l.getLast?, p a = false := by
    rw [List.rdropWhile_eq_self_iff]
    rcases l.eq_nil_or_concat with rfl | ⟨l, a, rfl⟩
    · simp
    · simp
  rw [← hhead, ← hlast]
  constructor
  · intro h
    have hle := (List.rdropWhile_prefix p (l.dropWhile p)).length_le
    rw [h] at hle
    have hdrop := (List.dropWhile_suffix p (l := l)).eq_of_length_le hle
    exact ⟨hdrop, by rwa [hdrop] at h⟩
  · rintro ⟨h1, h2⟩
    rw [h1, h2]

namespace Text

/-- A tidy text without blanks at its ends. -/
structure Solid (t : Text) : Prop where
  tidy : t.Tidy
  head : ∀ c ∈ t.head?, isBlank c = false
  last : ∀ c ∈ t.getLast?, isBlank c = false

theorem solid_iff {t : Text} : t.Solid ↔ trim t = t ∧ normalize t = t := by
  have htrim : trim t = t ↔ _ := dropWhile_rdropWhile_eq_self (p := isBlank)
  rw [htrim, normalize_eq_self_iff]
  exact ⟨fun h => ⟨⟨h.head, h.last⟩, h.tidy⟩, fun h => ⟨h.2, h.1.1, h.1.2⟩⟩

theorem solid_nil : Solid [] :=
  ⟨tidy_of_no_blank (by simp), by simp, by simp⟩

theorem solid_of_no_blank {t : Text} (h : ∀ c ∈ t, isBlank c = false) : t.Solid :=
  ⟨tidy_of_no_blank h, fun c hc => h c (List.mem_of_mem_head? hc),
    fun c hc => h c (List.mem_of_mem_getLast? hc)⟩

theorem Solid.append {a b : Text} (ha : a.Solid) (hb : b.Solid) : (a ++ b).Solid where
  tidy := ha.tidy.append hb.tidy fun c hc _ _ => .inl (ha.last c hc)
  head c hc := by
    rw [List.head?_append, Option.mem_def, Option.or_eq_some_iff] at hc
    exact hc.elim (ha.head c) fun h => hb.head c h.2
  last c hc := by
    rw [List.getLast?_append, Option.mem_def, Option.or_eq_some_iff] at hc
    exact hc.elim (hb.last c) fun h => ha.last c h.2

theorem solid_flatMap {c : CodePoint} (hc : isBlank c = false) : ∀ {ts : List Text},
    (∀ t ∈ ts, t.Solid) → Solid (ts.flatMap (c :: ·))
  | [], _ => solid_nil
  | t :: ts, h => by
    obtain ⟨ht, hts⟩ := List.forall_mem_cons.1 h
    have hsep : Solid [c] := solid_of_no_blank (List.forall_mem_singleton.2 hc)
    exact (hsep.append ht).append (solid_flatMap hc hts)

theorem Solid.intercalate {sep : Text} (hs : sep.Solid) : ∀ {ts : List Text},
    (∀ t ∈ ts, t.Solid) → Solid (sep.intercalate ts)
  | [], _ => solid_nil
  | [t], h => by
    rw [List.intercalate_singleton]
    exact h t List.mem_cons_self
  | t :: u :: ts, h => by
    obtain ⟨ht, hts⟩ := List.forall_mem_cons.1 h
    rw [List.intercalate_cons_cons]
    exact (ht.append hs).append (hs.intercalate hts)

theorem Tidy.between {t : Text} (h : t.Tidy) {c d : CodePoint} (hc : isBlank c = false)
    (hd : isBlank d = false) : Solid (c :: (t ++ [d])) where
  tidy := by
    have hsingle : ∀ {e : CodePoint}, isBlank e = false → Tidy [e] := fun he =>
      tidy_of_no_blank (List.forall_mem_singleton.2 he)
    have hend : (t ++ [d]).Tidy := h.append (hsingle hd) fun _ _ e he => by
      rw [List.head?_cons, Option.mem_some_iff] at he
      exact .inr (he ▸ hd)
    exact (hsingle hc).append hend fun e he _ _ => by
      rw [List.getLast?_singleton, Option.mem_some_iff] at he
      exact .inl (he ▸ hc)
  head e he := by
    rw [List.head?_cons, Option.mem_some_iff] at he
    exact he ▸ hc
  last e he := by
    rw [← List.cons_append, List.getLast?_concat, Option.mem_some_iff] at he
    exact he ▸ hd

theorem Tidy.cons_space {t : Text} (h : t.Tidy) (hh : ∀ c ∈ t.head?, isBlank c = false) :
    Tidy (.char ' ' :: t) where
  space c hc hb := (List.mem_cons.1 hc).elim id fun hc => h.space c hc hb
  apart := List.isChain_cons.2 ⟨fun d hd => .inr (hh d hd), h.apart⟩

/-- Words with single spaces between them. -/
theorem tidy_intercalate : ∀ {ts : List Text}, (∀ t ∈ ts, t ≠ [] ∧ ∀ c ∈ t, isBlank c = false) →
    Tidy ((" " : Text).intercalate ts)
      ∧ ∀ c ∈ ((" " : Text).intercalate ts).head?, isBlank c = false
  | [], _ => ⟨solid_nil.tidy, solid_nil.head⟩
  | [t], h => by
    have ht := solid_of_no_blank (h t List.mem_cons_self).2
    rw [List.intercalate_singleton]
    exact ⟨ht.tidy, ht.head⟩
  | t :: u :: ts, h => by
    obtain ⟨⟨hne, ht⟩, hts⟩ := List.forall_mem_cons.1 h
    obtain ⟨htidy, hhead⟩ := tidy_intercalate hts
    have hsolid := solid_of_no_blank ht
    rw [intercalate_space]
    refine ⟨hsolid.tidy.append (htidy.cons_space hhead) fun c hc _ _ => .inl (hsolid.last c hc),
      fun c hc => ?_⟩
    rw [List.head?_append_of_ne_nil _ hne] at hc
    exact hsolid.head c hc

end Text

end Shorthand
