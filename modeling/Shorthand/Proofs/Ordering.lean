import Shorthand.Command.Outcome

/-!
# The order of diagnostics

Texts are ordered by the first code points that differ, and lists of texts by the first texts that
differ. Both orders are linear, so that sorting puts diagnostics in order by what they apply to and
by their codes (`pairwise_sort`), and loses none (`Diagnostic.perm_sort`).
-/

namespace Shorthand

/-- No character has the number of half of a surrogate pair. -/
theorem CodePoint.toNat_injective : Function.Injective CodePoint.toNat := by
  intro c d h
  rcases c with c | m <;> rcases d with d | n
  · exact congrArg _ (Char.toNat_inj.1 h)
  · have hvalid : c.toNat < 0xD800 ∨ 0xDFFF < c.toNat ∧ c.toNat < 0x110000 := c.valid
    have := n.isLt
    simp only [CodePoint.toNat] at h
    omega
  · have hvalid : d.toNat < 0xD800 ∨ 0xDFFF < d.toNat ∧ d.toNat < 0x110000 := d.valid
    have := m.isLt
    simp only [CodePoint.toNat] at h
    omega
  · simp only [CodePoint.toNat] at h
    exact congrArg _ (Fin.ext (by omega))

namespace Text

theorem atMost_cons {c d : CodePoint} {r s : Text} :
    atMost (c :: r) (d :: s) = true ↔ c.toNat < d.toNat ∨ c = d ∧ atMost r s = true := by
  rw [atMost, Bool.or_eq_true, Bool.and_eq_true, decide_eq_true_eq, beq_iff_eq]

theorem atMost_total : ∀ t u : Text, atMost t u = true ∨ atMost u t = true
  | [], _ => .inl rfl
  | _ :: _, [] => .inr rfl
  | c :: r, d :: s => by
    rw [atMost_cons, atMost_cons]
    rcases Nat.lt_trichotomy c.toNat d.toNat with h | h | h
    · exact .inl (.inl h)
    · obtain rfl := CodePoint.toNat_injective h
      exact (atMost_total r s).imp (fun h => .inr ⟨rfl, h⟩) fun h => .inr ⟨rfl, h⟩
    · exact .inr (.inl h)

theorem atMost_trans : ∀ {t u v : Text}, atMost t u = true → atMost u v = true →
    atMost t v = true
  | [], _, _, _, _ => rfl
  | _ :: _, [], _, h, _ => by cases h
  | _ :: _, _ :: _, [], _, h => by cases h
  | c :: r, d :: s, e :: w, h, h' => by
    rw [atMost_cons] at *
    rcases h with h | ⟨rfl, h⟩ <;> rcases h' with h' | ⟨rfl, h'⟩
    · exact .inl (Nat.lt_trans h h')
    · exact .inl h
    · exact .inl h'
    · exact .inr ⟨rfl, atMost_trans h h'⟩

theorem atMost_antisymm : ∀ {t u : Text}, atMost t u = true → atMost u t = true → t = u
  | [], [], _, _ => rfl
  | [], _ :: _, _, h => by cases h
  | _ :: _, [], h, _ => by cases h
  | c :: r, d :: s, h, h' => by
    rw [atMost_cons] at h h'
    rcases h with h | ⟨rfl, h⟩ <;> rcases h' with h' | ⟨hd, h'⟩
    · omega
    · exact absurd h (hd ▸ Nat.lt_irrefl _)
    · exact absurd h' (Nat.lt_irrefl _)
    · rw [atMost_antisymm h h']

/-- Whether a text comes before another: by the first code points that differ. -/
def Precedes (t u : Text) : Prop :=
  t.map CodePoint.toNat < u.map CodePoint.toNat

theorem atMost_iff : ∀ {t u : Text}, atMost t u = true ↔ t = u ∨ t.Precedes u
  | [], [] => by simp [atMost]
  | [], d :: s => by simp [atMost, Precedes]
  | c :: r, [] => by simp [atMost, Precedes]
  | c :: r, d :: s => by
    rw [atMost_cons, atMost_iff, and_or_left, or_left_comm, Precedes, Precedes, List.map_cons,
      List.map_cons, List.cons_lt_cons_iff, CodePoint.toNat_injective.eq_iff, List.cons.injEq]

theorem listAtMost_cons {t u : Text} {ts us : List Text} : listAtMost (t :: ts) (u :: us) = true ↔
    t ≠ u ∧ atMost t u = true ∨ t = u ∧ listAtMost ts us = true := by
  by_cases h : t = u <;> simp [listAtMost, h]

theorem listAtMost_total : ∀ ts us : List Text,
    listAtMost ts us = true ∨ listAtMost us ts = true
  | [], _ => .inl rfl
  | _ :: _, [] => .inr rfl
  | t :: ts, u :: us => by
    rw [listAtMost_cons, listAtMost_cons]
    by_cases h : t = u
    · exact (listAtMost_total ts us).imp (fun hl => .inr ⟨h, hl⟩) fun hl => .inr ⟨h.symm, hl⟩
    · exact (atMost_total t u).imp (fun ht => .inl ⟨h, ht⟩) fun hu => .inl ⟨Ne.symm h, hu⟩

theorem listAtMost_trans : ∀ {ts us vs : List Text}, listAtMost ts us = true →
    listAtMost us vs = true → listAtMost ts vs = true
  | [], _, _, _, _ => rfl
  | _ :: _, [], _, h, _ => by cases h
  | _ :: _, _ :: _, [], _, h => by cases h
  | t :: ts, u :: us, v :: vs, h, h' => by
    rw [listAtMost_cons] at *
    rcases h with ⟨hne, h⟩ | ⟨rfl, h⟩ <;> rcases h' with ⟨hne', h'⟩ | ⟨rfl, h'⟩
    · refine .inl ⟨?_, atMost_trans h h'⟩
      rintro rfl
      exact hne (atMost_antisymm h h')
    · exact .inl ⟨hne, h⟩
    · exact .inl ⟨hne', h'⟩
    · exact .inr ⟨rfl, listAtMost_trans h h'⟩

/-- What is sorted by a list of texts is in the order of these lists. -/
theorem pairwise_mergeSort {α : Type} (key : α → List Text) (l : List α) :
    (l.mergeSort fun a b => listAtMost (key a) (key b)).Pairwise
      fun a b => listAtMost (key a) (key b) = true := by
  refine List.pairwise_mergeSort (fun a b c h h' => ?_) (fun a b => ?_) l
  · exact listAtMost_trans h h'
  · rw [Bool.or_eq_true]
    exact listAtMost_total (key a) (key b)

end Text

namespace Diagnostic

theorem perm_sort (ds : List Diagnostic) : (sort ds).Perm ds :=
  List.mergeSort_perm ds _

/-- Whether a diagnostic is listed before another: by its expression, its segment and its code. -/
def Before (d e : Diagnostic) : Prop :=
  Text.listAtMost d.sortKey e.sortKey = true

theorem pairwise_sort (ds : List Diagnostic) : (sort ds).Pairwise Before :=
  Text.pairwise_mergeSort sortKey ds

end Diagnostic

end Shorthand
