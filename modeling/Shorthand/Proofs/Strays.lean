import Shorthand.Proofs.Faults
import Shorthand.Proofs.Findings

/-!
# Parentheses without a partner

The flat text of an extraction keeps the parentheses that a stack finds no partner for, closing ones
first, and they are as many as a counter of the depth finds (`strays_flat`). So a run that warns of
them, a run that rejects them and a lint that counts them agree (`reports_agree`).
-/

namespace Shorthand

open TokenSource

/-- Every parenthesis has a partner. -/
def Text.Matched (t : Text) : Prop :=
  ∀ m ∈ Mark.read t, m.isStray = false

instance (t : Text) : Decidable t.Matched :=
  inferInstanceAs (Decidable (∀ m ∈ Mark.read t, m.isStray = false))

theorem Mark.any_isStray_iff {t : Text} : (Mark.read t).any Mark.isStray = true ↔ ¬ t.Matched := by
  simp [Text.Matched]

/-! ### The depth counter -/

namespace Lint

variable {depth stray : Nat}

/-- What is balanced leaves the counter where it was. -/
theorem strays_balanced : ∀ {ms : List Mark}, (∀ m ∈ ms, m.Balanced) →
    ∀ (depth stray : Nat) (r : Text),
      strays depth stray (Mark.sources ms ++ r) = strays depth stray r
  | [], _, _, _, _ => by simp
  | .char c :: ms, h, depth, stray, r => by
    obtain ⟨hc, hms⟩ := List.forall_mem_cons.1 h
    obtain ⟨h1, h2⟩ : c ≠ '(' ∧ c ≠ ')' := by cases hc; exact ⟨‹_›, ‹_›⟩
    rw [Mark.sources_cons, Mark.source_char, List.append_assoc, List.singleton_append, strays,
      if_neg h1, if_neg h2, strays_balanced hms]
  | .pair inner :: ms, h, depth, stray, r => by
    obtain ⟨hp, hms⟩ := List.forall_mem_cons.1 h
    have hi : ∀ m ∈ inner, m.Balanced := by cases hp; assumption
    have hsrc : Mark.sources (.pair inner :: ms) ++ r
        = .char '(' :: (Mark.sources inner ++ .char ')' :: (Mark.sources ms ++ r)) := by simp
    rw [hsrc, strays, if_pos rfl, strays_balanced hi, strays, if_neg (by decide), if_pos rfl,
      if_neg (Nat.succ_ne_zero depth), strays_balanced hms, Nat.add_sub_cancel]

theorem strays_no_open : ∀ {ms : List Mark}, (∀ m ∈ ms, m.Whole) → .char '(' ∉ ms →
    ∀ (stray : Nat) (r : Text), strays 0 stray (Mark.sources ms ++ r) =
      strays 0 (stray + ms.countP (Mark.isChar ')')) r
  | [], _, _, _, _ => by simp
  | .pair inner :: ms, h, ho, stray, r => by
    obtain ⟨hp, hms⟩ := List.forall_mem_cons.1 h
    have hb : ∀ m ∈ [Mark.pair inner], m.Balanced := List.forall_mem_singleton.2 hp.balanced
    rw [← List.singleton_append, Mark.sources_append, List.append_assoc, strays_balanced hb,
      strays_no_open hms fun hm => ho (List.mem_cons_of_mem _ hm), List.singleton_append,
      List.countP_cons_of_neg (by simp [Mark.isChar])]
  | .char c :: ms, h, ho, stray, r => by
    have ih := fun stray => strays_no_open (List.forall_mem_cons.1 h).2
      (fun hm => ho (List.mem_cons_of_mem _ hm)) stray r
    have h1 : c ≠ '(' := fun hc => ho (hc ▸ List.mem_cons_self)
    rw [Mark.sources_cons, Mark.source_char, List.append_assoc, List.singleton_append, strays,
      if_neg h1]
    by_cases h2 : c = ')'
    · rw [if_pos h2, if_pos rfl, ih, List.countP_cons_of_pos (by simp [Mark.isChar, h2]),
        Nat.add_right_comm, Nat.add_assoc]
    · rw [if_neg h2, ih, List.countP_cons_of_neg (by simp [Mark.isChar, h2])]

theorem strays_no_close : ∀ {ms : List Mark}, (∀ m ∈ ms, m.Whole) → .char ')' ∉ ms →
    ∀ depth stray : Nat, strays depth stray (Mark.sources ms) =
      (depth + ms.countP (Mark.isChar '('), stray)
  | [], _, _, _, _ => rfl
  | .pair inner :: ms, h, hc, depth, stray => by
    obtain ⟨hp, hms⟩ := List.forall_mem_cons.1 h
    have hb : ∀ m ∈ [Mark.pair inner], m.Balanced := List.forall_mem_singleton.2 hp.balanced
    rw [← List.singleton_append, Mark.sources_append, strays_balanced hb,
      strays_no_close hms fun hm => hc (List.mem_cons_of_mem _ hm), List.singleton_append,
      List.countP_cons_of_neg (by simp [Mark.isChar])]
  | .char c :: ms, h, hc, depth, stray => by
    have ih := fun depth => strays_no_close (List.forall_mem_cons.1 h).2
      (fun hm => hc (List.mem_cons_of_mem _ hm)) depth stray
    have h2 : c ≠ ')' := fun he => hc (he ▸ List.mem_cons_self)
    rw [Mark.sources_cons, Mark.source_char, List.singleton_append, strays]
    by_cases h1 : c = '('
    · rw [if_pos h1, ih, List.countP_cons_of_pos (by simp [Mark.isChar, h1]),
        Nat.add_right_comm, Nat.add_assoc]
    · rw [if_neg h1, if_neg h2, ih, List.countP_cons_of_neg (by simp [Mark.isChar, h1])]

end Lint

/-! ### The flat text -/

namespace Extraction

variable {g : Extraction} {x t : Text} {ms : List Mark}

theorem Stands.count_eq (hs : SafeBase g.source.base) {c : CodePoint} (hc : isBaseChar c = false)
    (h : g.Stands x ms) : x.count c = ms.countP (Mark.isChar c) := by
  induction h with
  | nil => rfl
  | @char d x ms _ ih =>
    rw [List.count_cons, List.countP_cons, ih]
    rfl
  | @pair n body x inner ms _ _ _ _ ih =>
    have htoken : (tokenOf g.source.base n).count c = 0 :=
      List.count_eq_zero.2 (notMem_tokenOf hs hc n)
    rw [List.count_append, htoken, Nat.zero_add, ih,
      List.countP_cons_of_neg (by simp [Mark.isChar])]

/-- The depth counter finds the parentheses that are left in the flat text. -/
theorem Reads.strays_flat (h : g.Reads t) (hf : firstGroup g.flat = none) :
    Lint.strays 0 0 t = (g.flat.count (.char '('), g.flat.count (.char ')')) := by
  -- Nothing is open in `mp` and nothing is closed in `mq`, so that each part is counted alone.
  obtain ⟨mp, mq, hm, ho, hc⟩ := h.flat.closing_first h.safe hf
  have hw : ∀ m ∈ mp ++ mq, m.Whole := hm ▸ h.whole
  obtain ⟨hwp, hwq⟩ := List.forall_mem_append.1 hw
  have hnone {c : CodePoint} {ns : List Mark} (hn : .char c ∉ ns) :
      ns.countP (Mark.isChar c) = 0 := by
    rw [List.countP_eq_zero]
    rintro (d | inner) hd hchar
    · exact hn (eq_of_beq hchar ▸ hd)
    · cases hchar
  have hopen := h.flat.count_eq h.safe (isBaseChar_structure (.char '(') (by simp))
  have hclose := h.flat.count_eq h.safe (isBaseChar_structure (.char ')') (by simp))
  rw [hm, List.countP_append, hnone ho, Nat.zero_add] at hopen
  rw [hm, List.countP_append, hnone hc, Nat.add_zero] at hclose
  rw [hopen, hclose, ← Mark.sources_read t, hm, Mark.sources_append, Lint.strays_no_open hwp ho,
    Lint.strays_no_close hwq hc, Nat.zero_add, Nat.zero_add]

theorem Reads.matched_iff (h : g.Reads t) : t.Matched ↔ g.isBalanced = true := by
  rw [h.isBalanced, Bool.not_eq_true', ← Bool.not_eq_true, Mark.any_isStray_iff, not_not]

end Extraction

theorem Text.matched_iff_strays {t : Text} : t.Matched ↔ Lint.strays 0 0 t = (0, 0) := by
  obtain ⟨source, hfit⟩ := exists_fitFor t
  have h := Extraction.reads_extract hfit
  rw [h.strays_flat (flat_extract hfit.safe), h.matched_iff, Prod.mk.injEq, List.count_eq_zero,
    List.count_eq_zero]
  simp [Extraction.isBalanced]

/-! ### Reports -/

namespace Lint

theorem balance_eq (t : Text) : balance t =
    if t.Matched then [] else [⟨.unbalanced (strays 0 0 t).1 (strays 0 0 t).2, t, none⟩] := by
  refine if_congr ?_ rfl rfl
  rw [Text.matched_iff_strays, Prod.ext_iff]
  simp

theorem mem_lint_iff {source : Text} {f : Finding} :
    f ∈ lint source ∧ f.flaw.code = "L_UNBALANCED_GROUPING" ↔
      f ∈ balance (Text.normalize source) :=
  mem_balance_iff

end Lint

theorem check_of_matched {t : Text} (h : t.Matched) (strict : Bool) :
    Mark.check (Mark.read t) t strict = .ok [] :=
  if_neg (mt Mark.any_isStray_iff.1 (not_not.2 h))

theorem check_lenient {t : Text} (h : ¬ t.Matched) :
    Mark.check (Mark.read t) t false = .ok [⟨t⟩] :=
  if_pos (Mark.any_isStray_iff.2 h)

theorem check_strict {t : Text} (h : ¬ t.Matched) :
    Mark.check (Mark.read t) t true
      = .error ⟨.unbalanced, some t, some (Mark.sources (Mark.read t))⟩ :=
  if_pos (Mark.any_isStray_iff.2 h)

/-- A run warns of stray parentheses, unless it is strict and rejects them. -/
theorem warnings_run {s : Settings} (h : ∀ b ∈ s.placeholderBase, isSafeBase b = true)
    (source : Text) (drawn : Nat) : (run s source drawn).warnings =
      if s.strictGrouping ∨ (Text.normalize source).Matched then []
      else [⟨Text.normalize source⟩] := by
  have hrun : (run s source drawn).warnings = (expandMarks s (Text.normalize source)).1 :=
    congrArg Prod.fst (outcome_run h source drawn)
  rw [hrun]
  by_cases hm : (Text.normalize source).Matched
  · rw [if_pos (.inr hm), expandMarks_of_check (check_of_matched hm _)]
  · rcases hs : s.strictGrouping
    · have hcheck := check_lenient hm
      rw [← hs] at hcheck
      rw [if_neg (by simp [hm]), expandMarks_of_check hcheck]
    · rw [if_pos (.inl rfl), expandMarks, hs, check_strict hm]

/-- Nothing that is found wrong with the tree is a matter of balance. -/
theorem problem_ne_unbalanced {e : Option Text} {ms : List Mark} {r : Rejection}
    (h : r ∈ Mark.blanks e ms ++ Mark.faults e ms) : r.problem ≠ .unbalanced := by
  intro hr
  have hcode : r.problem.code = "E_UNBALANCED_GROUPING" := by rw [hr]; rfl
  rcases List.mem_append.1 h with h | h
  · obtain ⟨p, -, h⟩ := List.mem_flatMap.1 h
    rw [(Mark.Place.of_mem_blanks e h).2.2] at hcode
    exact absurd hcode (by decide)
  · obtain ⟨p, -, h⟩ := List.mem_flatMap.1 h
    rw [(Mark.Place.of_mem_faults e h).2.2] at hcode
    revert hcode
    unfold Mark.Place.faultCode
    split <;> decide

theorem strict_unbalanced_iff {s : Settings} (h : ∀ b ∈ s.placeholderBase, isSafeBase b = true)
    (hs : s.strictGrouping = true) (source : Text) (drawn : Nat) :
    (∃ r, expand s source drawn = .error (.rejected r) ∧ r.problem = .unbalanced) ↔
      ¬ (Text.normalize source).Matched := by
  simp only [expand_eq_error_iff h, rejections, hs, Mark.any_isStray_iff, true_and]
  constructor
  · rintro ⟨r, hr, hproblem⟩ hm
    rw [if_neg (not_not.2 hm), List.nil_append] at hr
    exact problem_ne_unbalanced (List.mem_of_mem_head? hr) hproblem
  · intro hm
    rw [if_pos hm]
    exact ⟨_, rfl, rfl⟩

/-- A run that warns, a strict run that rejects and lint report a text if, and only if, one of its
parentheses has no partner. Lint tells how many there are: those left in the flat text, where the
closing ones come first. If there is none, it makes no difference whether a run is strict. -/
theorem reports_agree {s : Settings} (h : ∀ b ∈ s.placeholderBase, isSafeBase b = true)
    (source : Text) (m n : Nat) :
    let text := Text.normalize source
    let lenient := run { s with strictGrouping := false } source m
    let strict := run { s with strictGrouping := true } source n
    (lenient.warnings ≠ [] ↔ ¬ text.Matched)
      ∧ ((∃ r, strict.result = .error (.rejected r) ∧ r.problem = .unbalanced) ↔ ¬ text.Matched)
      ∧ ((∃ f ∈ lint source, f.flaw.code = "L_UNBALANCED_GROUPING") ↔ ¬ text.Matched)
      ∧ (∀ base drawn tokens, (∀ b ∈ base, isSafeBase b = true) →
          forText text base drawn = .ok tokens →
          let flat := (extract tokens text).flat
          (∀ f ∈ lint source, f.flaw.code = "L_UNBALANCED_GROUPING" →
            f.flaw.message = Text.decimal (flat.count (.char '(')) ++ " unclosed '(' and " ++
              Text.decimal (flat.count (.char ')')) ++ " unopened ')' are kept as literal text")
          ∧ ∃ p q, flat = p ++ q ∧ .char '(' ∉ p ∧ .char ')' ∉ q)
      ∧ (text.Matched → lenient.outcome = strict.outcome) := by
  intro text lenient strict
  have hlenient : lenient.outcome = expandMarks { s with strictGrouping := false } text :=
    outcome_run (s := { s with strictGrouping := false }) h source m
  have hstrict : strict.outcome = expandMarks { s with strictGrouping := true } text :=
    outcome_run (s := { s with strictGrouping := true }) h source n
  refine ⟨?_, strict_unbalanced_iff (s := { s with strictGrouping := true }) h rfl source n, ?_, ?_,
    fun hm => ?_⟩
  · have hwarn := warnings_run (s := { s with strictGrouping := false }) h source m
    rw [hwarn]
    simp [text]
  · simp only [Lint.mem_lint_iff, Lint.balance_eq]
    by_cases hm : text.Matched
    · rw [if_pos hm]
      simp [hm]
    · rw [if_neg hm]
      simp [hm]
  · intro base drawn tokens hb hok flat
    obtain ⟨_, hok', -, hfit⟩ := forText_ok (t := text) drawn hb
    obtain rfl := Except.ok.inj (hok.symm.trans hok')
    have hflat := flat_extract (t := text) hfit.safe
    refine ⟨fun f hf hcode => ?_, firstGroup_eq_none_iff.1 hflat⟩
    have hf := Lint.mem_lint_iff.1 ⟨hf, hcode⟩
    rw [Lint.balance_eq, List.mem_ite_nil_left, List.mem_singleton,
      (Extraction.reads_extract hfit).strays_flat hflat] at hf
    rw [hf.2]
    rfl
  · rw [hlenient, hstrict, expandMarks_of_check (check_of_matched hm _),
      expandMarks_of_check (check_of_matched hm _)]

theorem reports_agree_of_crossed :
    (∀ b ∈ some (Text.ofString "p"), isSafeBase b = true)
      ∧ ¬ (Text.normalize "a)>(b+(c)").Matched
      ∧ (run { placeholderBase := some "p" } "a)>(b+(c)").warnings ≠ []
      ∧ (∃ r, (run { strictGrouping := true, placeholderBase := some "p" } "a)>(b+(c)" 7).result
          = .error (.rejected r) ∧ r.problem = .unbalanced)
      ∧ ∃ f ∈ lint "a)>(b+(c)", f.flaw.code = "L_UNBALANCED_GROUPING" := by
  have hb : ∀ b ∈ some (Text.ofString "p"), isSafeBase b = true := by decide +kernel
  have hm : ¬ (Text.normalize "a)>(b+(c)").Matched := by decide +kernel
  obtain ⟨hwarn, hreject, hlint, -⟩ :=
    reports_agree (s := { placeholderBase := some "p" }) hb "a)>(b+(c)" 0 7
  exact ⟨hb, hm, hwarn.2 hm, hreject.2 hm, hlint.2 hm⟩

end Shorthand
