import Mathlib.Order.Bounds.Basic
import Shorthand.Proofs.Token

/-!
# How many underscores a base needs

Underscores are put behind a base by a loop that stops by itself (`ExtendLoop`). It puts as few of
them as it can (`ExtendLoop.isLeast`), and since the base gets longer than the text, there is always
an end to it (`ExtendLoop.of_extendBase`, `ExtendLoop.steps_le`).
-/

namespace Shorthand

namespace TokenSource

/-- A base with so many underscores behind it. -/
def underscored (base : Text) (n : Nat) : Text :=
  base ++ List.replicate n (CodePoint.char '_')

/-- A run of the loop that puts underscores behind a base, with how many it puts there: it goes on
as long as the base occurs in the text. -/
inductive ExtendLoop (t : Text) : Text → Nat → Text → Prop
  | stop {base : Text} : Text.occursIn base t = false → ExtendLoop t base 0 base
  | step {base last : Text} {n : Nat} : Text.occursIn base t = true →
      ExtendLoop t (base ++ "_") n last → ExtendLoop t base (n + 1) last

theorem underscored_zero (base : Text) : underscored base 0 = base :=
  List.append_nil base

theorem underscored_succ (base : Text) (n : Nat) :
    underscored base (n + 1) = underscored (base ++ "_") n := by
  rw [underscored, underscored, List.replicate_succ, List.append_assoc]
  rfl

theorem length_underscored (base : Text) (n : Nat) :
    (underscored base n).length = base.length + n := by
  simp [underscored]

namespace ExtendLoop

variable {t base last other : Text} {m n : Nat}

theorem eq_underscored (h : ExtendLoop t base n last) : last = underscored base n := by
  induction h with
  | stop => exact (underscored_zero _).symm
  | step _ _ ih => rw [ih, underscored_succ]

theorem fresh (h : ExtendLoop t base n last) : ¬ last <:+: t := by
  induction h with
  | stop hstop => simpa [← Text.occursIn_iff] using hstop
  | step _ _ ih => exact ih

/-- Each step is taken because the underscores so far are not enough. -/
theorem infix_of_lt (h : ExtendLoop t base n last) : ∀ k < n, underscored base k <:+: t := by
  induction h with
  | stop => simp
  | step hstep _ ih =>
    rintro (_ | k) hk
    · rw [underscored_zero]
      exact Text.occursIn_iff.1 hstep
    · rw [underscored_succ]
      exact ih k (by omega)

theorem isLeast (h : ExtendLoop t base n last) :
    IsLeast {k | ¬ underscored base k <:+: t} n := by
  constructor
  · rw [Set.mem_ofPred_eq, ← h.eq_underscored]
    exact h.fresh
  · intro k hk
    by_contra hlt
    exact hk (h.infix_of_lt k (by omega))

/-- The loop goes in one way only. -/
theorem unique (h : ExtendLoop t base n last) (h' : ExtendLoop t base m other) :
    m = n ∧ other = last := by
  obtain rfl := h'.isLeast.unique h.isLeast
  exact ⟨rfl, h'.eq_underscored.trans h.eq_underscored.symm⟩

/-- Before its last step, the base is not longer than the text. -/
theorem steps_le (h : ExtendLoop t base n last) : n ≤ t.length + 1 - base.length := by
  rcases n with _ | n
  · exact Nat.zero_le _
  · have hle := (h.infix_of_lt n (by omega)).length_le
    rw [length_underscored] at hle
    omega

/-- Extending a base is a whole run of the loop if it makes the base fresh. -/
theorem of_extendBase : ∀ (fuel : Nat) {base : Text}, ¬ extendBase t fuel base <:+: t →
    ∃ n, ExtendLoop t base n (extendBase t fuel base)
  | 0, base, h => ⟨0, .stop (by simpa [extendBase, ← Text.occursIn_iff] using h)⟩
  | fuel + 1, base, h => by
    rw [extendBase] at h ⊢
    split_ifs at h ⊢ with hoccurs
    · obtain ⟨n, hn⟩ := of_extendBase fuel h
      exact ⟨n + 1, .step hoccurs hn⟩
    · exact ⟨0, .stop (by simpa using hoccurs)⟩

end ExtendLoop

/-- A base `start` and what the loop makes of it, `n` underscores later, for tokens in `t`. -/
structure Lengthens (t start : Text) (n : Nat) (last : Text) : Prop where
  loop : ExtendLoop t start n last
  only : ∀ m other, ExtendLoop t start m other → m = n ∧ other = last
  steps_le : n ≤ t.length + 1 - start.length
  eq_underscored : last = underscored start n
  isLeast : IsLeast {k | ¬ underscored start k <:+: t} n
  fresh : ¬ last <:+: t
  safe : isSafeBase last = true

/-- Whatever the text, the loop ends, with the least number of underscores behind the base for which
it does not occur in the text. The base is still safe then. -/
theorem forText_lengthens {t : Text} {base : Option Text} (drawn : Nat)
    (h : ∀ b ∈ base, isSafeBase b = true) :
    ∃ n last, forText t base drawn = .ok { base := last }
      ∧ Lengthens t (base.getD (drawnBase drawn)) n last := by
  have hfresh : ¬ extendBase t (t.length + 1) (base.getD (drawnBase drawn)) <:+: t :=
    extendBase_fresh (by omega)
  obtain ⟨n, hloop⟩ := ExtendLoop.of_extendBase (t.length + 1) hfresh
  refine ⟨n, _, forText_eq drawn h, hloop, fun m other => hloop.unique, hloop.steps_le,
    hloop.eq_underscored, hloop.isLeast, hfresh, ?_⟩
  exact isSafeBase_iff.2 (extendBase_safe (safeBase_getD drawn h))

theorem forText_lengthens_of_runs : (∀ b ∈ some ("t_" : Text), isSafeBase b = true)
    ∧ forText "t_x(t___)" (some "t_") = .ok { base := "t____" }
    ∧ Lengthens "t_x(t___)" "t_" 3 "t____" := by
  have hsafe : ∀ b ∈ some ("t_" : Text), isSafeBase b = true := by decide +kernel
  have hrun : forText "t_x(t___)" (some "t_") = .ok { base := "t____" } := by decide +kernel
  obtain ⟨n, last, hok, hlengthens⟩ := forText_lengthens (t := "t_x(t___)") 0 hsafe
  obtain rfl : "t____" = last := by simpa [hrun] using hok
  have hlength : 5 = 2 + n :=
    (congrArg List.length hlengthens.eq_underscored).trans (length_underscored _ n)
  obtain rfl : n = 3 := by omega
  exact ⟨hsafe, hrun, hlengthens⟩

end TokenSource

end Shorthand
