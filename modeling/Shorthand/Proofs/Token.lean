import Mathlib.Data.List.Infix
import Mathlib.Logic.Function.Iterate
import Shorthand.Group.Base
import Shorthand.Text.Blank

/-!
# Tokens are found where they are put

A token tells its number (`tokenOf_injective`), and the base that a source is given is safe and
does not occur in the text (`forText_ok`): underscores are put behind the base until it is longer
than the text, and a base that does not overlap itself keeps this property, because it starts with
a letter.
-/

namespace Shorthand

namespace Text

theorem within_eq_false {ranges classes : List (Nat × Nat)} {c : CodePoint}
    (hd : ranges.all (fun (a, b) => classes.all fun (x, y) => b < x || y < a) = true)
    (hc : within classes c = true) : within ranges c = false := by
  simp only [within, List.any_eq_true, Bool.and_eq_true, decide_eq_true_eq] at hc
  obtain ⟨⟨x, y⟩, hxy, hx, hy⟩ := hc
  by_contra h
  simp only [within, Bool.not_eq_false, List.any_eq_true, Bool.and_eq_true,
    decide_eq_true_eq] at h
  obtain ⟨⟨a, b⟩, hab, ha, hb⟩ := h
  have := List.all_eq_true.1 (List.all_eq_true.1 hd _ hab) _ hxy
  simp only [Bool.or_eq_true, decide_eq_true_eq] at this
  omega

/-- The blanks as ranges. -/
theorem isBlank_iff_within {c : CodePoint} : isBlank c = true ↔ within [(9, 13), (28, 32),
    (0x85, 0x85), (0xA0, 0xA0), (0x1680, 0x1680), (0x2000, 0x200A), (0x2028, 0x2029),
    (0x202F, 0x202F), (0x205F, 0x205F), (0x3000, 0x3000)] c = true := by
  simp only [isBlank, within, List.any_cons, List.any_nil, Bool.or_eq_true, Bool.and_eq_true,
    decide_eq_true_eq, beq_iff_eq, Bool.or_false]
  omega

theorem isBlank_of_isLetter {c : CodePoint} (h : isLetter c = true) : isBlank c = false := by
  by_contra hb
  rw [Bool.not_eq_false, isBlank_iff_within] at hb
  have hl : within letters c = false := within_eq_false (by decide +kernel) hb
  rw [isLetter, hl] at h
  exact Bool.false_ne_true h

theorem occursIn_iff {s : Text} : ∀ {t : Text}, occursIn s t = true ↔ s <:+: t
  | [] => by simp [occursIn]
  | c :: r => by
    rw [occursIn, Bool.or_eq_true, List.isPrefixOf_iff_prefix, occursIn_iff, List.infix_cons_iff]

/-! ### Decimal digits -/

/-- The number that decimal digits are read as. -/
def readDecimal (t : Text) : Nat :=
  t.foldl (fun n c => 10 * n + (c.toNat - 48)) 0

theorem digit_facts : ∀ k < 10, (digit k).toNat = k + 48 ∧ isDecimalDigit (digit k) = true
    ∧ isLetter (digit k) = false := by
  decide +kernel

theorem digit_mod (n : Nat) : digit n = digit (n % 10) := by
  simp [digit]

theorem toNat_digit (n : Nat) : (digit n).toNat = n % 10 + 48 := by
  rw [digit_mod]
  exact (digit_facts _ (Nat.mod_lt _ (by omega))).1

theorem isDecimalDigit_digit (n : Nat) : isDecimalDigit (digit n) = true := by
  rw [digit_mod]
  exact (digit_facts _ (Nat.mod_lt _ (by omega))).2.1

theorem isLetter_digit (n : Nat) : isLetter (digit n) = false := by
  rw [digit_mod]
  exact (digit_facts _ (Nat.mod_lt _ (by omega))).2.2

theorem readDecimal_decimal (n : Nat) : readDecimal (decimal n) = n := by
  rw [decimal]
  split
  · simp only [readDecimal, List.foldl_cons, List.foldl_nil, toNat_digit]
    omega
  · have ih := readDecimal_decimal (n / 10)
    simp only [readDecimal, List.foldl_append, List.foldl_cons, List.foldl_nil,
      toNat_digit] at ih ⊢
    rw [ih]
    omega

theorem decimal_injective {m n : Nat} (h : decimal m = decimal n) : m = n := by
  rw [← readDecimal_decimal m, h, readDecimal_decimal]

theorem exists_digit_of_mem_decimal {n : Nat} {c : CodePoint} (h : c ∈ decimal n) :
    ∃ k, c = digit k := by
  rw [decimal] at h
  split at h
  · exact ⟨n, List.mem_singleton.1 h⟩
  · rcases List.mem_append.1 h with h | h
    · exact exists_digit_of_mem_decimal h
    · exact ⟨n, List.mem_singleton.1 h⟩
termination_by n

theorem isDecimalDigit_of_mem_decimal {n : Nat} {c : CodePoint} (h : c ∈ decimal n) :
    isDecimalDigit c = true := by
  obtain ⟨k, rfl⟩ := exists_digit_of_mem_decimal h
  exact isDecimalDigit_digit k

theorem decimal_ne_nil (n : Nat) : decimal n ≠ [] := by
  rw [decimal]
  split <;> simp

end Text

/-! ### Safe bases -/

theorem beginsWithEndOf_iff {t : Text} :
    ∀ {e : Text}, beginsWithEndOf t e = true ↔ ∃ s, s ≠ [] ∧ s <:+ e ∧ s <+: t
  | [] => by simp [beginsWithEndOf]
  | c :: r => by
    rw [beginsWithEndOf, Bool.or_eq_true, List.isPrefixOf_iff_prefix, beginsWithEndOf_iff]
    constructor
    · rintro (h | ⟨s, hs, hr, ht⟩)
      · exact ⟨c :: r, by simp, List.suffix_refl _, h⟩
      · exact ⟨s, hs, hr.trans (List.suffix_cons c r), ht⟩
    · rintro ⟨s, hs, hr, ht⟩
      rcases List.suffix_cons_iff.1 hr with rfl | hr
      · exact .inl ht
      · exact .inr ⟨s, hs, hr, ht⟩

/-- What is asked of a base. An end of it that is also a start of it is nothing or all of it. -/
structure SafeBase (base : Text) : Prop where
  starts : ∃ c r, base = c :: r ∧ Text.isLetter c = true
  chars : ∀ c ∈ base, isBaseChar c = true
  borderless : ∀ s, s <:+ base → s <+: base → s = [] ∨ s = base

theorem overlapsItself_iff {t : Text} :
    overlapsItself t = false ↔ ∀ s, s <:+ t → s <+: t → s = [] ∨ s = t := by
  rcases t with _ | ⟨c, r⟩
  · simp [overlapsItself, beginsWithEndOf]
  rw [overlapsItself, ← Bool.not_eq_true, beginsWithEndOf_iff, List.tail_cons]
  constructor
  · intro h s hr ht
    rcases List.suffix_cons_iff.1 hr with rfl | hr
    · exact .inr rfl
    · by_contra hs
      exact h ⟨s, fun h0 => hs (.inl h0), hr, ht⟩
  · rintro h ⟨s, hs, hr, ht⟩
    rcases h s (hr.trans (List.suffix_cons c r)) ht with rfl | rfl
    · exact hs rfl
    · have hle := hr.length_le
      simp only [List.length_cons] at hle
      omega

theorem isSafeBase_iff {base : Text} : isSafeBase base = true ↔ SafeBase base := by
  rw [isSafeBase, Bool.and_eq_true, Bool.and_eq_true, Bool.not_eq_true', overlapsItself_iff,
    List.all_eq_true]
  constructor
  · rintro ⟨⟨hl, hc⟩, hb⟩
    rcases base with _ | ⟨c, r⟩
    · simp at hl
    · exact ⟨⟨c, r, rfl, by simpa using hl⟩, hc, hb⟩
  · rintro ⟨⟨c, r, rfl, hl⟩, hc, hb⟩
    exact ⟨⟨by simpa using hl, hc⟩, hb⟩

theorem isLetter_underscore : Text.isLetter '_' = false := by decide +kernel

/-- An end of the longer base that is also a start of it ends in an underscore; without that it is
an end and a start of the base, or nothing, and the base does not start with an underscore. -/
theorem SafeBase.push {base : Text} (h : SafeBase base) : SafeBase (base ++ "_") := by
  obtain ⟨c, r, rfl, hc⟩ := h.starts
  refine ⟨⟨c, r ++ "_", rfl, hc⟩, ?_, ?_⟩
  · intro d hd
    rcases List.mem_append.1 hd with hd | hd
    · exact h.chars d hd
    · rw [List.mem_singleton.1 hd]
      decide +kernel
  · intro s hs hp
    rcases List.eq_nil_or_concat' s with rfl | ⟨s', d, rfl⟩
    · exact .inl rfl
    obtain ⟨hs', hd⟩ : s' <:+ c :: r ∧ d = '_' := by
      obtain ⟨p, hp⟩ := hs
      rw [← List.append_assoc] at hp
      obtain ⟨h1, h2⟩ := List.append_inj' hp rfl
      exact ⟨⟨p, h1⟩, (List.cons.inj h2).1⟩
    subst hd
    rcases hs'.length_le.lt_or_eq with hlt | heq
    · exfalso
      have hp' : s' ++ [CodePoint.char '_'] <+: c :: r :=
        List.prefix_of_prefix_length_le hp (List.prefix_append _ _) (by
          simp only [List.length_append, List.length_cons, List.length_nil] at hlt ⊢
          omega)
      rcases h.borderless s' hs' ((List.prefix_append _ _).trans hp') with rfl | rfl
      · obtain ⟨q, hq⟩ := hp'
        rw [← (List.cons.inj hq).1, isLetter_underscore] at hc
        exact Bool.false_ne_true hc
      · simp at hlt
    · rw [hs'.eq_of_length heq]
      exact .inr rfl

theorem SafeBase.of_head_notMem {c : CodePoint} {r : Text} (hc : Text.isLetter c = true)
    (hr : ∀ d ∈ r, isBaseChar d = true) (hn : c ∉ r) : SafeBase (c :: r) := by
  refine ⟨⟨c, r, rfl, hc⟩, ?_, ?_⟩
  · intro d hd
    rcases List.mem_cons.1 hd with rfl | hd
    · simp [isBaseChar, hc]
    · exact hr d hd
  · intro s hs hp
    rcases List.suffix_cons_iff.1 hs with rfl | hs
    · exact .inr rfl
    rcases s with _ | ⟨d, s⟩
    · exact .inl rfl
    · rw [(List.cons_prefix_cons.1 hp).1] at hs
      exact absurd (hs.subset List.mem_cons_self) hn

theorem isBaseChar_of_mem_decimal {n : Nat} {c : CodePoint} (h : c ∈ Text.decimal n) :
    isBaseChar c = true := by
  simp [isBaseChar, Text.isDecimalDigit_of_mem_decimal h]

theorem safeBase_drawnBase (n : Nat) : SafeBase (drawnBase n) := by
  have hmem : ∀ d ∈ ("egment_" : Text) ++ Text.decimal n ++ "_",
      d ∈ ("egment__" : Text) ∨ d ∈ Text.decimal n := by
    intro d hd
    rcases List.mem_append.1 hd with hd | hd
    · exact (List.mem_append.1 hd).imp (fun h => List.mem_append_left ("_" : Text) h) id
    · exact .inl (List.mem_append_right ("egment_" : Text) hd)
  refine .of_head_notMem (c := .char 's') (by decide +kernel) (fun d hd => ?_) fun hs => ?_
  · rcases hmem d hd with hd | hd
    · exact List.all_eq_true.1 (by decide +kernel : ("egment__" : Text).all isBaseChar = true) d hd
    · exact isBaseChar_of_mem_decimal hd
  · rcases hmem _ hs with hs | hs
    · exact absurd hs (by decide)
    · exact absurd (Text.isDecimalDigit_of_mem_decimal hs) (by decide +kernel)

/-! ### Sources and their tokens -/

namespace TokenSource

theorem extendBase_safe {t : Text} :
    ∀ {n : Nat} {base : Text}, SafeBase base → SafeBase (extendBase t n base)
  | 0, _, h => h
  | n + 1, base, h => by
    rw [extendBase]
    split
    · exact extendBase_safe h.push
    · exact h

/-- If all underscores are needed, the base has become longer than the text. -/
theorem extendBase_fresh {t : Text} :
    ∀ {n : Nat} {base : Text}, t.length < base.length + n → ¬ extendBase t n base <:+: t
  | 0, base, hn => fun h => by
    have hle : base.length ≤ t.length := h.length_le
    omega
  | n + 1, base, hn => by
    rw [extendBase]
    split
    · refine extendBase_fresh ?_
      rw [List.length_append]
      show t.length < base.length + 1 + n
      omega
    · rw [← Text.occursIn_iff]
      assumption

/-- A source whose tokens can be found again in what is made of `t`. -/
structure FitFor (source : TokenSource) (t : Text) : Prop where
  safe : SafeBase source.base
  fresh : ¬ source.base <:+: t

theorem forText_eq {t : Text} {base : Option Text} (drawn : Nat)
    (h : ∀ b ∈ base, isSafeBase b = true) : forText t base drawn =
      .ok { base := extendBase t (t.length + 1) (base.getD (drawnBase drawn)) } := by
  refine if_neg ?_
  rcases base with _ | b
  · simp
  · simp [h b rfl]

theorem safeBase_getD {base : Option Text} (drawn : Nat) (h : ∀ b ∈ base, isSafeBase b = true) :
    SafeBase (base.getD (drawnBase drawn)) := by
  rcases base with _ | b
  · exact safeBase_drawnBase drawn
  · exact isSafeBase_iff.1 (h b rfl)

theorem forText_ok {t : Text} {base : Option Text} (drawn : Nat)
    (h : ∀ b ∈ base, isSafeBase b = true) :
    ∃ source, forText t base drawn = .ok source ∧ source.next = 0 ∧ source.FitFor t :=
  ⟨_, forText_eq drawn h, rfl, extendBase_safe (safeBase_getD drawn h),
    extendBase_fresh (by omega)⟩

/-- No tokens are made for an unsafe base. -/
theorem safe_of_forText {t : Text} {base : Option Text} {drawn : Nat} {source : TokenSource}
    (h : forText t base drawn = .ok source) : ∀ b ∈ base, isSafeBase b = true := by
  intro b hb
  by_contra hunsafe
  rw [Option.mem_def.1 hb] at h
  simp [forText, hunsafe] at h

theorem fitFor_of_forText {t : Text} {base : Option Text} {drawn : Nat} {source : TokenSource}
    (h : forText t base drawn = .ok source) : source.FitFor t := by
  obtain ⟨_, hok, -, hfit⟩ := forText_ok drawn (safe_of_forText h)
  rw [h] at hok
  exact Except.ok.inj hok ▸ hfit

theorem forText_some {t base : Text} (h : isSafeBase base = true) :
    ∃ source, forText t (some base) = .ok source ∧ source.FitFor t := by
  have hb : ∀ b ∈ some base, isSafeBase b = true := by simpa using h
  obtain ⟨source, hok, -, hfit⟩ := forText_ok (t := t) 0 hb
  exact ⟨source, hok, hfit⟩

theorem exists_fitFor (t : Text) : ∃ source : TokenSource, source.FitFor t := by
  have hb : ∀ b ∈ (none : Option Text), isSafeBase b = true := by simp
  obtain ⟨source, -, -, hfit⟩ := forText_ok (t := t) 0 hb
  exact ⟨source, hfit⟩

/-- Drawing tokens does not change the base. -/
theorem FitFor.iterate_advance {t : Text} : ∀ (n : Nat) {source : TokenSource}, source.FitFor t →
    (advance^[n] source).FitFor t
  | 0, _, h => h
  | n + 1, _, h => iterate_advance n ⟨h.safe, h.fresh⟩

/-- Parentheses and operators are in no token. -/
theorem isBaseChar_structure :
    ∀ c ∈ (['(', ')', '+', '>'] : Text), isBaseChar c = false := by decide +kernel

variable {base : Text}

theorem notMem_tokenOf_of_notMem {c : CodePoint} (hb : c ∉ base) (hc : isBaseChar c = false)
    (n : Nat) : c ∉ tokenOf base n := by
  intro hm
  rcases List.mem_append.1 hm with hm | hm
  · rcases List.mem_append.1 hm with hm | hm
    · exact hb hm
    · rw [isBaseChar_of_mem_decimal hm] at hc
      cases hc
  · rw [List.mem_singleton.1 hm] at hc
    exact absurd hc (by decide +kernel)

theorem notMem_tokenOf (h : SafeBase base) {c : CodePoint} (hc : isBaseChar c = false) (n : Nat) :
    c ∉ tokenOf base n := by
  refine notMem_tokenOf_of_notMem (fun hb => ?_) hc n
  rw [h.chars c hb] at hc
  cases hc

theorem isDecimalDigit_underscore : Text.isDecimalDigit '_' = false := by decide +kernel

/-- An underscore ends a run of digits. -/
theorem takeWhile_digits {digits : Text} (h : ∀ c ∈ digits, Text.isDecimalDigit c = true)
    (x : Text) : (digits ++ "_" ++ x).takeWhile Text.isDecimalDigit = digits := by
  have hx : (("_" : Text) ++ x).takeWhile Text.isDecimalDigit = [] := by
    show List.takeWhile _ (.char '_' :: x) = []
    rw [List.takeWhile_cons, isDecimalDigit_underscore]
    rfl
  rw [List.append_assoc, List.takeWhile_append_of_pos h, hx, List.append_nil]

/-- No digits come after the number of a token, so it cannot be mistaken for a longer one. -/
theorem takeWhile_decimal (n : Nat) (x : Text) :
    (Text.decimal n ++ "_" ++ x).takeWhile Text.isDecimalDigit = Text.decimal n :=
  takeWhile_digits (fun _ => Text.isDecimalDigit_of_mem_decimal) x

theorem tokenOf_append_inj {m n : Nat} {x y : Text}
    (h : tokenOf base m ++ x = tokenOf base n ++ y) : m = n ∧ x = y := by
  simp only [tokenOf, List.append_assoc, List.append_cancel_left_eq] at h
  have hm := takeWhile_decimal m x
  rw [List.append_assoc, h, ← List.append_assoc, takeWhile_decimal] at hm
  obtain rfl := Text.decimal_injective hm
  simpa using h

theorem tokenOf_injective : Function.Injective (tokenOf base) := fun m n h =>
  (tokenOf_append_inj (x := []) (y := []) (by rw [h])).1

theorem tokenOf_ne_nil (n : Nat) : tokenOf base n ≠ [] := by
  simp [tokenOf, Text.decimal_ne_nil]

end TokenSource

end Shorthand
