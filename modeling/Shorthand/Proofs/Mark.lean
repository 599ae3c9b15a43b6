import Mathlib.Data.List.Infix
import Shorthand.Text.Basic

/-!
# Marks

A text with its parentheses matched: `Mark.read` reads it with a stack. A parenthesis without a
partner is a character like any other. Nothing is lost by reading (`sources_read`), and marks that
could have been read are read back from their source (`read_sources`). Pairs are found at any depth
(`Within`).
-/

namespace Shorthand

/-- A character outside of the pairs around it, or a matched pair of parentheses. -/
inductive Mark where
  | char (c : CodePoint)
  | pair (inner : List Mark)

namespace Mark

mutual

/-- What a mark was read from. -/
def source : Mark → Text
  | .char c => [c]
  | .pair inner => "(" ++ sources inner ++ ")"

def sources : List Mark → Text
  | [] => []
  | m :: ms => m.source ++ sources ms

end

mutual

/-- How deep the pairs are nested in a mark. -/
def depth : Mark → Nat
  | .char _ => 0
  | .pair inner => depths inner + 1

def depths : List Mark → Nat
  | [] => 0
  | m :: ms => max m.depth (depths ms)

end

mutual

/-- The number of pairs in a mark. -/
def count : Mark → Nat
  | .char _ => 0
  | .pair inner => counts inner + 1

def counts : List Mark → Nat
  | [] => 0
  | m :: ms => m.count + counts ms

end

/-- An opening parenthesis that is never closed is a character. -/
def unwind : List (List Mark) → List Mark → List Mark
  | [], ms => ms
  | before :: stack, ms => unwind stack (before ++ .char '(' :: ms)

/-- Reads on after the marks `ms`. The stack holds the marks before each parenthesis that is open,
the innermost first. -/
def readFrom : List (List Mark) → List Mark → Text → List Mark
  | stack, ms, [] => unwind stack ms
  | stack, ms, c :: r =>
    if c = '(' then readFrom (ms :: stack) [] r
    else if c = ')' then
      match stack with
      | [] => readFrom [] (ms ++ [.char c]) r
      | before :: stack => readFrom stack (before ++ [.pair ms]) r
    else readFrom stack (ms ++ [.char c]) r

/-- The marks of a text. -/
def read (t : Text) : List Mark :=
  readFrom [] [] t

@[simp] theorem source_char (c : CodePoint) : (char c).source = [c] := rfl

@[simp] theorem source_pair (ms : List Mark) :
    (pair ms).source = .char '(' :: (sources ms ++ [.char ')']) := rfl

@[simp] theorem sources_nil : sources [] = [] := rfl

@[simp] theorem sources_cons (m : Mark) (ms : List Mark) :
    sources (m :: ms) = m.source ++ sources ms := rfl

@[simp] theorem sources_append (ms ns : List Mark) :
    sources (ms ++ ns) = sources ms ++ sources ns := by
  induction ms with
  | nil => rfl
  | cons m ms ih => simp [ih]

@[simp] theorem sources_map_char (t : Text) : sources (t.map char) = t := by
  induction t with
  | nil => rfl
  | cons c r ih => simp [ih]

theorem source_ne_nil (m : Mark) : m.source ≠ [] := by
  cases m <;> simp

theorem sources_eq_nil_iff {ms : List Mark} : sources ms = [] ↔ ms = [] := by
  rcases ms with _ | ⟨m, ms⟩
  · simp
  · simp [source_ne_nil m]

@[simp] theorem counts_append (ms ns : List Mark) :
    counts (ms ++ ns) = counts ms + counts ns := by
  induction ms with
  | nil => simp [counts]
  | cons m ms ih => simp [counts, ih, Nat.add_assoc]

@[simp] theorem counts_map_char (t : Text) : counts (t.map char) = 0 := by
  induction t with
  | nil => rfl
  | cons c r ih => simp [counts, count, ih]

theorem depths_le_counts : ∀ ms : List Mark, depths ms ≤ counts ms
  | [] => le_rfl
  | .char c :: ms => by
    have := depths_le_counts ms
    simp only [depths, depth, counts, count]
    omega
  | .pair inner :: ms => by
    have h1 := depths_le_counts inner
    have h2 := depths_le_counts ms
    simp only [depths, depth, counts, count]
    omega

theorem depth_le_depths {m : Mark} {ms : List Mark} (h : m ∈ ms) : m.depth ≤ depths ms := by
  induction ms with
  | nil => simp at h
  | cons n ms ih =>
    simp only [depths]
    rcases List.mem_cons.1 h with rfl | h
    · exact le_max_left _ _
    · exact (ih h).trans (le_max_right _ _)

theorem depths_le {ms : List Mark} {n : Nat} (h : ∀ m ∈ ms, m.depth ≤ n) : depths ms ≤ n := by
  induction ms with
  | nil => exact Nat.zero_le n
  | cons m ms ih =>
    exact max_le (h m List.mem_cons_self) (ih fun k hk => h k (List.mem_cons_of_mem m hk))

theorem depths_mono {ms ns : List Mark} (h : ms ⊆ ns) : depths ms ≤ depths ns :=
  depths_le fun _ hm => depth_le_depths (h hm)

/-- What is inside of a pair is nested less deeply, on which recursion into pairs rests. -/
theorem depths_lt_of_mem {inner ms : List Mark} (h : .pair inner ∈ ms) :
    depths inner < depths ms :=
  depth_le_depths h

/-! ### Reading -/

section Reading

variable (stack : List (List Mark)) (ms : List Mark) (r : Text)

@[simp] theorem readFrom_nil : readFrom stack ms [] = unwind stack ms := by
  rw [readFrom.eq_def]

@[simp] theorem readFrom_open :
    readFrom stack ms (.char '(' :: r) = readFrom (ms :: stack) [] r := by
  rw [readFrom.eq_def]
  exact if_pos rfl

@[simp] theorem readFrom_close (before : List Mark) :
    readFrom (before :: stack) ms (.char ')' :: r) = readFrom stack (before ++ [.pair ms]) r := by
  rw [readFrom, if_neg (by decide), if_pos rfl]

@[simp] theorem readFrom_stray :
    readFrom [] ms (.char ')' :: r) = readFrom [] (ms ++ [.char (.char ')')]) r := by
  rw [readFrom, if_neg (by decide), if_pos rfl]

variable {c : CodePoint}

theorem readFrom_char (h1 : c ≠ '(') (h2 : c ≠ ')') :
    readFrom stack ms (c :: r) = readFrom stack (ms ++ [.char c]) r := by
  rw [readFrom.eq_def]
  exact (if_neg h1).trans (if_neg h2)

end Reading

theorem sources_unwind : ∀ (stack : List (List Mark)) (ms : List Mark),
    sources (unwind stack ms) = sources (unwind stack []) ++ sources ms
  | [], ms => rfl
  | before :: stack, ms => by
    rw [unwind, sources_unwind stack, unwind, sources_unwind stack (before ++ _)]
    simp

/-- What was read before, and what is still open, comes before the rest of the text. -/
theorem sources_readFrom : ∀ (t : Text) (stack : List (List Mark)) (ms : List Mark),
    sources (readFrom stack ms t) = sources (unwind stack []) ++ sources ms ++ t
  | [], stack, ms => by rw [readFrom_nil, sources_unwind, List.append_nil]
  | c :: r, stack, ms => by
    by_cases h1 : c = '('
    · subst h1
      rw [readFrom_open, sources_readFrom r, unwind, sources_unwind]
      simp
    by_cases h2 : c = ')'
    · subst h2
      rcases stack with _ | ⟨before, stack⟩
      · rw [readFrom_stray, sources_readFrom r]
        simp
      · rw [readFrom_close, sources_readFrom r, unwind, sources_unwind stack (before ++ _)]
        simp
    · rw [readFrom_char stack ms r h1 h2, sources_readFrom r]
      simp

theorem sources_read (t : Text) : sources (read t) = t :=
  sources_readFrom t [] []

/-- What is found in a text: the source is part of it, and the pairs are nested no deeper. -/
structure PartOf (t : Text) (ms : List Mark) : Prop where
  source : sources ms <:+: t
  depth : depths ms ≤ depths (read t)

theorem infix_sources {ms ns : List Mark} (h : ms <:+: ns) : sources ms <:+: sources ns := by
  obtain ⟨p, q, rfl⟩ := h
  exact ⟨sources p, sources q, by simp⟩

theorem partOf_read (t : Text) : PartOf t (read t) :=
  ⟨by rw [sources_read], le_rfl⟩

theorem PartOf.sub {t : Text} {ms ns : List Mark} (h : PartOf t ms) (hn : ns <:+: ms) :
    PartOf t ns :=
  ⟨(infix_sources hn).trans h.source, (depths_mono hn.subset).trans h.depth⟩

theorem infix_sources_pair (inner : List Mark) : sources inner <:+: sources [.pair inner] :=
  ⟨"(", ")", by simp [Text.ofString]⟩

/-! ### Pairs at any depth -/

/-- The marks `inner` are the inside of a pair of `ms`, or of a pair within one. -/
inductive Within (inner : List Mark) : List Mark → Prop
  | here {ms : List Mark} : .pair inner ∈ ms → Within inner ms
  | deeper {outer ms : List Mark} : .pair outer ∈ ms → Within inner outer → Within inner ms

section Within

variable {inner ms ns : List Mark}

theorem within_iff :
    Within inner ms ↔ ∃ outer, .pair outer ∈ ms ∧ (inner = outer ∨ Within inner outer) := by
  constructor
  · rintro (hm | ⟨hm, hw⟩)
    · exact ⟨inner, hm, .inl rfl⟩
    · exact ⟨_, hm, .inr hw⟩
  · rintro ⟨outer, hm, rfl | hw⟩
    · exact .here hm
    · exact .deeper hm hw

theorem Within.trans {b : List Mark} (hb : Within b inner) (h : Within inner ms) :
    Within b ms := by
  induction h with
  | here hm => exact .deeper hm hb
  | deeper hm _ ih => exact .deeper hm ih

theorem Within.mono (h : Within inner ms) (hs : ms ⊆ ns) : Within inner ns := by
  rcases h with hm | ⟨hm, hw⟩
  · exact .here (hs hm)
  · exact .deeper (hs hm) hw

theorem within_append : Within inner (ms ++ ns) ↔ Within inner ms ∨ Within inner ns := by
  rw [within_iff, within_iff, within_iff]
  simp only [List.mem_append, or_and_right, exists_or]

theorem within_char_cons {c : CodePoint} : Within inner (.char c :: ms) ↔ Within inner ms := by
  rw [within_iff, within_iff]
  simp only [List.mem_cons, reduceCtorEq, false_or]

theorem within_pair_cons {outer : List Mark} :
    Within inner (.pair outer :: ms) ↔ (inner = outer ∨ Within inner outer) ∨ Within inner ms := by
  rw [within_iff, @within_iff inner ms]
  simp only [List.mem_cons, Mark.pair.injEq, or_and_right, exists_or, exists_eq_left]

theorem Within.depths_lt (h : Within inner ms) : depths inner < depths ms := by
  induction h with
  | here hm => exact depths_lt_of_mem hm
  | deeper hm _ ih => exact ih.trans (depths_lt_of_mem hm)

/-- The inside of a pair stands between parentheses in the source. -/
theorem Within.exists_around (h : Within inner ms) :
    ∃ before after, sources ms = before ++ ("(" ++ sources inner ++ ")") ++ after := by
  have hpair {outer ns : List Mark} (hm : .pair outer ∈ ns) :
      ∃ before after, sources ns = before ++ ("(" ++ sources outer ++ ")") ++ after := by
    obtain ⟨l, r, rfl⟩ := List.append_of_mem hm
    exact ⟨sources l, sources r, by simp [Text.ofString]⟩
  induction h with
  | here hm => exact hpair hm
  | deeper hm _ ih =>
    obtain ⟨b, a, hin⟩ := ih
    obtain ⟨before, after, hout⟩ := hpair hm
    exact ⟨before ++ "(" ++ b, a ++ ")" ++ after, by rw [hout, hin]; simp⟩

theorem PartOf.within {t : Text} (h : PartOf t ms) (hw : Within inner ms) : PartOf t inner where
  source := by
    obtain ⟨before, after, hs⟩ := hw.exists_around
    refine List.IsInfix.trans ⟨before ++ "(", ")" ++ after, ?_⟩ h.source
    rw [hs]
    simp
  depth := hw.depths_lt.le.trans h.depth

theorem PartOf.inside {t : Text} (h : PartOf t [.pair inner]) : PartOf t inner :=
  h.within (.here List.mem_cons_self)

/-- The marks `inner` are all of `ms`, or the inside of a pair at some depth. -/
def BodyOf (inner ms : List Mark) : Prop :=
  inner = ms ∨ Within inner ms

theorem BodyOf.within {b : List Mark} (h : BodyOf inner ms) (hb : Within b inner) :
    Within b ms := by
  rcases h with rfl | h
  · exact hb
  · exact hb.trans h

theorem BodyOf.trans {b : List Mark} (hb : BodyOf b inner) (h : BodyOf inner ms) :
    BodyOf b ms := by
  rcases hb with rfl | hb
  · exact h
  · exact .inr (h.within hb)

theorem BodyOf.partOf {t : Text} (h : BodyOf inner (read t)) : PartOf t inner := by
  rcases h with rfl | h
  · exact partOf_read t
  · exact (partOf_read t).within h

end Within

/-! ### Marks that are read back -/

/-- No parenthesis without a partner, at any depth. -/
inductive Balanced : Mark → Prop
  | char {c : CodePoint} : c ≠ '(' → c ≠ ')' → Balanced (.char c)
  | pair {inner : List Mark} : (∀ m ∈ inner, m.Balanced) → Balanced (.pair inner)

/-- Any character, or a pair without stray parentheses inside. -/
inductive Whole : Mark → Prop
  | char (c : CodePoint) : Whole (.char c)
  | pair {inner : List Mark} : (∀ m ∈ inner, m.Balanced) → Whole (.pair inner)

theorem whole_of_text (t : Text) : ∀ m ∈ t.map Mark.char, m.Whole := by
  intro m hm
  obtain ⟨c, -, rfl⟩ := List.mem_map.1 hm
  exact .char c

theorem Whole.balanced {inner : List Mark} (h : (Mark.pair inner).Whole) :
    (Mark.pair inner).Balanced := by
  cases h
  exact .pair ‹_›

/-- Balanced marks are read without a look at what is open around them. -/
theorem readFrom_balanced : ∀ {ms : List Mark}, (∀ m ∈ ms, m.Balanced) →
    ∀ (stack : List (List Mark)) (before : List Mark) (r : Text),
      readFrom stack before (sources ms ++ r) = readFrom stack (before ++ ms) r
  | [], _, stack, before, r => by simp
  | .char c :: ms, h, stack, before, r => by
    obtain ⟨hc, hms⟩ := List.forall_mem_cons.1 h
    obtain ⟨h1, h2⟩ : c ≠ '(' ∧ c ≠ ')' := by cases hc; exact ⟨‹_›, ‹_›⟩
    rw [sources_cons, source_char, List.append_assoc, List.singleton_append,
      readFrom_char _ _ _ h1 h2, readFrom_balanced hms]
    simp
  | .pair inner :: ms, h, stack, before, r => by
    obtain ⟨hp, hms⟩ := List.forall_mem_cons.1 h
    have hi : ∀ m ∈ inner, m.Balanced := by cases hp; assumption
    have hsrc : sources (.pair inner :: ms) ++ r
        = .char '(' :: (sources inner ++ .char ')' :: (sources ms ++ r)) := by simp
    rw [hsrc, readFrom_open, readFrom_balanced hi, List.nil_append, readFrom_close,
      readFrom_balanced hms]
    simp

/-- While nothing is open, a closing parenthesis is a character. -/
theorem readFrom_no_open : ∀ {ms : List Mark}, (∀ m ∈ ms, m.Whole) → .char '(' ∉ ms →
    ∀ (before : List Mark) (r : Text),
      readFrom [] before (sources ms ++ r) = readFrom [] (before ++ ms) r
  | [], _, _, before, r => by simp
  | .pair inner :: ms, h, ho, before, r => by
    obtain ⟨hp, hms⟩ := List.forall_mem_cons.1 h
    have hb : ∀ m ∈ [pair inner], m.Balanced := List.forall_mem_singleton.2 hp.balanced
    rw [← List.singleton_append, sources_append, List.append_assoc, readFrom_balanced hb,
      readFrom_no_open hms fun hm => ho (List.mem_cons_of_mem _ hm), List.append_assoc]
  | .char c :: ms, h, ho, before, r => by
    have ih := readFrom_no_open (List.forall_mem_cons.1 h).2
      (fun hm => ho (List.mem_cons_of_mem _ hm)) (before ++ [.char c]) r
    have h1 : c ≠ '(' := fun hc => ho (hc ▸ List.mem_cons_self)
    rw [sources_cons, source_char, List.append_assoc, List.singleton_append]
    by_cases h2 : c = ')'
    · subst h2
      rw [readFrom_stray, ih]
      simp
    · rw [readFrom_char _ _ _ h1 h2, ih]
      simp

/-- Where nothing is closed any more, an opening parenthesis is a character. -/
theorem readFrom_no_close : ∀ {ms : List Mark}, (∀ m ∈ ms, m.Whole) → .char ')' ∉ ms →
    ∀ (stack : List (List Mark)) (before : List Mark),
      readFrom stack before (sources ms) = unwind stack (before ++ ms)
  | [], _, _, stack, before => by simp
  | .pair inner :: ms, h, hc, stack, before => by
    obtain ⟨hp, hms⟩ := List.forall_mem_cons.1 h
    have hb : ∀ m ∈ [pair inner], m.Balanced := List.forall_mem_singleton.2 hp.balanced
    rw [← List.singleton_append, sources_append, readFrom_balanced hb,
      readFrom_no_close hms fun hm => hc (List.mem_cons_of_mem _ hm), List.append_assoc]
  | .char c :: ms, h, hc, stack, before => by
    have hms := (List.forall_mem_cons.1 h).2
    have hc' : .char ')' ∉ ms := fun hm => hc (List.mem_cons_of_mem _ hm)
    have h2 : c ≠ ')' := fun he => hc (he ▸ List.mem_cons_self)
    rw [sources_cons, source_char, List.singleton_append]
    by_cases h1 : c = '('
    · subst h1
      rw [readFrom_open, readFrom_no_close hms hc', unwind, List.nil_append]
    · rw [readFrom_char _ _ _ h1 h2, readFrom_no_close hms hc']
      simp

/-- Of the parentheses without a partner, those that close come before those that open. -/
theorem read_sources {ms ns : List Mark} (h : ∀ m ∈ ms ++ ns, m.Whole) (ho : .char '(' ∉ ms)
    (hc : .char ')' ∉ ns) : read (sources (ms ++ ns)) = ms ++ ns := by
  have hms : ∀ m ∈ ms, m.Whole := fun m hm => h m (List.mem_append_left ns hm)
  have hns : ∀ m ∈ ns, m.Whole := fun m hm => h m (List.mem_append_right ms hm)
  rw [read, sources_append, readFrom_no_open hms ho, readFrom_no_close hns hc]
  simp [unwind]

theorem read_sources_of_balanced {ms : List Mark} (h : ∀ m ∈ ms, m.Balanced) :
    read (sources ms) = ms := by
  have := readFrom_balanced h [] [] []
  rw [List.append_nil, List.nil_append, readFrom_nil] at this
  exact this

end Mark

end Shorthand
