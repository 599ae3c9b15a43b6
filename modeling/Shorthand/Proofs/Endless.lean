import Mathlib.Data.Finset.Card
import Mathlib.Logic.Function.Iterate
import Shorthand.Yaml.Reader

/-!
# Scalars without end

A mapping may stand for a scalar, which it gives under the key that is an equals sign. What stands
there may be such a mapping again, even the same one. Reading gives up after as many places as there
are parts, and one more. That is late enough: a place has come up twice by then, so that there is no
end to it (`scalarText_eq_endless_iff`).
-/

namespace Shorthand

namespace Yaml

namespace Parts

variable {ps : Parts} {place : Nat}

/-- From a place on, mappings give their scalars one by the other without end. -/
def Endless (ps : Parts) (place : Nat) : Prop :=
  ∃ places : Nat → Nat, places 0 = place ∧ ∀ n, ps.scalarPlace? (places n) = some (places (n + 1))

/-- The place where a mapping gives its scalar, or the same place if it gives none. -/
def nextPlace (ps : Parts) (place : Nat) : Nat :=
  (ps.scalarPlace? place).getD place

theorem lt_size_of_scalarPlace? (h : (ps.scalarPlace? place).isSome) : place < ps.size := by
  by_contra hlt
  simp [scalarPlace?, entriesAt, Array.getElem?_eq_none (Nat.le_of_not_lt hlt)] at h

theorem scalarPlace?_eq_some (h : (ps.scalarPlace? place).isSome) :
    ps.scalarPlace? place = some (ps.nextPlace place) := by
  obtain ⟨next, hnext⟩ := Option.isSome_iff_exists.1 h
  rw [nextPlace, hnext, Option.getD_some]

theorem endless_iff :
    ps.Endless place ↔ ∀ n, (ps.scalarPlace? (ps.nextPlace^[n] place)).isSome := by
  constructor
  · rintro ⟨places, hstart, hnext⟩ n
    have hplace : ∀ n, ps.nextPlace^[n] place = places n := by
      intro n
      induction n with
      | zero => exact hstart.symm
      | succ n ih => rw [Function.iterate_succ_apply', ih, nextPlace, hnext, Option.getD_some]
    rw [hplace, hnext]
    rfl
  · intro h
    refine ⟨fun n => ps.nextPlace^[n] place, rfl, fun n => ?_⟩
    dsimp only
    rw [Function.iterate_succ_apply']
    exact scalarPlace?_eq_some (h n)

/-- Of more places than there are parts two are the same, and from the second one on all come up
again. -/
theorem endless_of_size
    (h : ∀ n < ps.size + 1, (ps.scalarPlace? (ps.nextPlace^[n] place)).isSome) :
    ps.Endless place := by
  have hmaps : ∀ n ∈ Finset.range (ps.size + 1), ps.nextPlace^[n] place ∈ Finset.range ps.size :=
    fun n hn => Finset.mem_range.2 (lt_size_of_scalarPlace? (h n (Finset.mem_range.1 hn)))
  obtain ⟨i, j, hij, hj, heq⟩ :
      ∃ i j, i < j ∧ j < ps.size + 1 ∧ ps.nextPlace^[i] place = ps.nextPlace^[j] place := by
    obtain ⟨i, hi, j, hj, hne, heq⟩ :=
      Finset.exists_ne_map_eq_of_card_lt_of_maps_to (by simp) hmaps
    rcases Nat.lt_or_gt_of_ne hne with hlt | hlt
    · exact ⟨i, j, hlt, Finset.mem_range.1 hj, heq⟩
    · exact ⟨j, i, hlt, Finset.mem_range.1 hi, heq.symm⟩
  refine endless_iff.2 fun n => ?_
  induction n using Nat.strongRecOn with
  | ind n ih =>
    by_cases hn : n < ps.size + 1
    · exact h n hn
    · have hback : ps.nextPlace^[n] place = ps.nextPlace^[n - j + i] place := by
        rw [Function.iterate_add_apply, heq, ← Function.iterate_add_apply]
        congr 1
        omega
      rw [hback]
      exact ih _ (by omega)

end Parts

theorem scalarText_eq_endless_iff_forall {ps : Parts} : ∀ {n place : Nat},
    scalarText ps n place = .error .endless
      ↔ ∀ i < n, (ps.scalarPlace? (ps.nextPlace^[i] place)).isSome
  | 0, place => by simp [scalarText]
  | n + 1, place => by
    rcases hplace : ps.scalarPlace? place with _ | next
    · have hfirst : ¬ ∀ i < n + 1, (ps.scalarPlace? (ps.nextPlace^[i] place)).isSome := by
        intro h
        have hzero := h 0 (Nat.zero_lt_succ n)
        rw [Function.iterate_zero_apply, hplace] at hzero
        cases hzero
      rw [iff_false_right hfirst, scalarText, hplace]
      split <;> simp_all
    · have hnext : ps.nextPlace place = next := by rw [Parts.nextPlace, hplace, Option.getD_some]
      rw [scalarText, hplace]
      simp only [scalarText_eq_endless_iff_forall (n := n), Nat.forall_lt_succ_left,
        Function.iterate_zero_apply, Function.iterate_succ_apply, hplace, hnext,
        Option.isSome_some, true_and]

/-- Reading gives up if and only if there is no end. -/
theorem scalarText_eq_endless_iff {ps : Parts} {place : Nat} :
    scalarText ps (ps.size + 1) place = .error .endless ↔ ps.Endless place := by
  rw [scalarText_eq_endless_iff_forall]
  exact ⟨Parts.endless_of_size, fun h n _ => Parts.endless_iff.1 h n⟩

end Yaml

end Shorthand
