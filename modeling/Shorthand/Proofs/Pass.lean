import Shorthand.Proofs.Extraction

/-!
# Extraction in one pass

Cutting out the first group again and again comes to the same as reading the text once from left to
right with a stack of buffers, one for each parenthesis that is open (`extract_eq_pass`). While
nothing is cut out, the buffers put back in order are the text that has been read; in it no
parenthesis is closed after one has been opened, so that the first group is the one that the next
closing parenthesis ends (`firstGroup_append`). Since the pass never looks ahead, the beginning of a
text has the first groups of the text.
-/

namespace Shorthand

open TokenSource

/-! ### The pass -/

/-- Parentheses that are never closed are literal. -/
def putBack : List Text → Text → Text
  | [], buffer => buffer
  | outer :: stack, buffer => putBack stack (outer ++ .char '(' :: buffer)

/-- Reads on with the buffer that is being filled. The stack holds the buffers around it, the
innermost first. -/
def passFrom (source : TokenSource) (stack : List Text) (buffer : Text) : Text → Extraction
  | [] => ⟨putBack stack buffer, [], source⟩
  | c :: r =>
    if c = '(' then passFrom source (buffer :: stack) [] r
    else if c = ')' then
      match stack with
      | [] => passFrom source [] (buffer ++ [c]) r
      | outer :: stack =>
        let rest := passFrom source.advance stack (outer ++ source.token) r
        { rest with groups := (source.token, buffer) :: rest.groups }
    else passFrom source stack (buffer ++ [c]) r

def pass (source : TokenSource) (t : Text) : Extraction :=
  passFrom source [] [] t

section

variable (s : TokenSource) (stack : List Text) (buffer r : Text)

theorem passFrom_open :
    passFrom s stack buffer (.char '(' :: r) = passFrom s (buffer :: stack) [] r := by
  rw [passFrom.eq_def]
  exact if_pos rfl

theorem passFrom_close (outer : Text) :
    passFrom s (outer :: stack) buffer (.char ')' :: r) =
      { passFrom s.advance stack (outer ++ s.token) r with
        groups := (s.token, buffer) ::
          (passFrom s.advance stack (outer ++ s.token) r).groups } := by
  rw [passFrom, if_neg (by decide), if_pos rfl]

theorem passFrom_stray :
    passFrom s [] buffer (.char ')' :: r) = passFrom s [] (buffer ++ [.char ')']) r := by
  rw [passFrom, if_neg (by decide), if_pos rfl]

theorem passFrom_char {c : CodePoint} (h1 : c ≠ '(') (h2 : c ≠ ')') :
    passFrom s stack buffer (c :: r) = passFrom s stack (buffer ++ [c]) r := by
  rw [passFrom.eq_def]
  exact (if_neg h1).trans (if_neg h2)

end

theorem putBack_append : ∀ (stack : List Text) (buffer x : Text),
    putBack stack (buffer ++ x) = putBack stack buffer ++ x
  | [], _, _ => rfl
  | outer :: stack, buffer, x => by
    rw [putBack, putBack, ← putBack_append stack]
    simp

/-! ### The first group -/

theorem closeAt_append : ∀ {a : Text}, .char '(' ∉ a → .char ')' ∉ a → ∀ b : Text,
    closeAt (a ++ .char ')' :: b) = some (a, b)
  | [], _, _, b => by rw [List.nil_append, closeAt, if_pos rfl]
  | c :: a, ho, hc, b => by
    rw [List.mem_cons, not_or] at ho hc
    rw [List.cons_append, closeAt, if_neg (Ne.symm hc.1), if_neg (Ne.symm ho.1),
      closeAt_append ho.2 hc.2]
    rfl

theorem closeAt_eq_none : ∀ {a : Text}, .char ')' ∉ a → ∀ b : Text,
    closeAt (a ++ .char '(' :: b) = none
  | [], _, b => by rw [List.nil_append, closeAt, if_neg (by decide), if_pos rfl]
  | c :: a, hc, b => by
    rw [List.mem_cons, not_or] at hc
    rw [List.cons_append, closeAt, if_neg (Ne.symm hc.1), closeAt_eq_none hc.2]
    split_ifs <;> rfl

theorem firstGroup_append : ∀ {before inner : Text}, ClosingFirst before → .char '(' ∉ inner →
    .char ')' ∉ inner → ∀ after : Text,
      firstGroup (before ++ .char '(' :: (inner ++ .char ')' :: after)) =
        some (before, inner, after)
  | [], inner, _, ho, hc, after => by
    rw [List.nil_append, firstGroup, if_pos rfl, closeAt_append ho hc]
  | c :: before, inner, h, ho, hc, after => by
    obtain ⟨htail, hopen⟩ := h.of_cons
    have hclose : (if c = '(' then
        closeAt (before ++ .char '(' :: (inner ++ .char ')' :: after)) else none) = none := by
      split_ifs with h1
      · exact closeAt_eq_none (hopen h1) _
      · rfl
    rw [List.cons_append, firstGroup, hclose]
    simp only [firstGroup_append htail ho hc after, Option.map_some]

/-! ### Buffers -/

/-- Only the outermost buffer may hold parentheses, which are closing ones without a partner. -/
def Buffers : List Text → Text → Prop
  | [], buffer => .char '(' ∉ buffer
  | outer :: stack, buffer => .char '(' ∉ buffer ∧ .char ')' ∉ buffer ∧ Buffers stack outer

theorem putBack_cons (outer : Text) (stack : List Text) (buffer : Text) :
    putBack (outer :: stack) buffer = putBack stack outer ++ .char '(' :: buffer :=
  putBack_append stack outer _

namespace Buffers

theorem closingFirst : ∀ {stack : List Text} {buffer : Text}, Buffers stack buffer →
    ClosingFirst (putBack stack buffer)
  | [], buffer, h => ⟨buffer, [], (List.append_nil buffer).symm, h, by simp⟩
  | outer :: stack, buffer, ⟨_, hc, hstack⟩ => by
    obtain ⟨p, q, he, hp, hq⟩ := closingFirst hstack
    exact ⟨p, q ++ .char '(' :: buffer, by rw [putBack_cons, he, List.append_assoc], hp,
      by simp [hq, hc]⟩

/-- Text without parentheses may be put into any buffer. -/
theorem append {stack : List Text} {buffer x : Text} (h : Buffers stack buffer)
    (ho : .char '(' ∉ x) (hc : .char ')' ∉ x) : Buffers stack (buffer ++ x) := by
  cases stack with
  | nil => exact List.not_mem_append h ho
  | cons outer stack =>
    obtain ⟨hbo, hbc, hstack⟩ := h
    exact ⟨List.not_mem_append hbo ho, List.not_mem_append hbc hc, hstack⟩

end Buffers

/-! ### Extraction -/

namespace TokenSource

/-- A source whose tokens hold no parentheses. -/
def Plain (s : TokenSource) : Prop :=
  .char '(' ∉ s.base ∧ .char ')' ∉ s.base

instance (s : TokenSource) : Decidable s.Plain :=
  inferInstanceAs (Decidable (_ ∧ _))

theorem Plain.token {s : TokenSource} (h : s.Plain) : .char '(' ∉ s.token ∧ .char ')' ∉ s.token :=
  ⟨notMem_tokenOf_of_notMem h.1 (isBaseChar_structure _ (by simp)) s.next,
    notMem_tokenOf_of_notMem h.2 (isBaseChar_structure _ (by simp)) s.next⟩

end TokenSource

/-- The text that has been read is in the buffers, and what a step of extraction cuts out is what
the next closing parenthesis with a partner ends. -/
theorem extractWithin_putBack : ∀ (r : Text) (n : Nat) (s : TokenSource) (stack : List Text)
    (buffer : Text), s.Plain → Buffers stack buffer → r.count (.char ')') ≤ n →
      extractWithin n s (putBack stack buffer ++ r) = passFrom s stack buffer r
  | [], n, s, stack, buffer, _, hb, _ => by
    rw [List.append_nil, extractWithin_none n hb.closingFirst.firstGroup_eq_none]
    rfl
  | c :: r, n, s, stack, buffer, hs, hb, hn => by
    by_cases h1 : c = '('
    · subst h1
      have ih := extractWithin_putBack r n s (buffer :: stack) [] hs ⟨by simp, by simp, hb⟩
        (by simpa using hn)
      rw [passFrom_open, ← ih, putBack_cons]
      simp
    by_cases h2 : c = ')'
    · subst h2
      rcases stack with _ | ⟨outer, stack⟩
      · have ih := extractWithin_putBack r n s [] (buffer ++ [.char ')']) hs
          (List.not_mem_append hb (by decide)) (List.count_le_count_cons.trans hn)
        rw [passFrom_stray, ← ih]
        simp [putBack]
      · obtain ⟨ho, hc, hstack⟩ := hb
        obtain _ | n := n
        · simp at hn
        have hf : firstGroup (putBack (outer :: stack) buffer ++ .char ')' :: r) =
            some (putBack stack outer, buffer, r) := by
          rw [putBack_cons, List.append_assoc, List.cons_append]
          exact firstGroup_append hstack.closingFirst ho hc r
        have ih := extractWithin_putBack r n s.advance stack (outer ++ s.token) hs
          (hstack.append hs.token.1 hs.token.2) (by simpa using hn)
        rw [extractWithin_some n hf, passFrom_close, ← ih, putBack_append]
    · have ih := extractWithin_putBack r n s stack (buffer ++ [c]) hs
        (hb.append (by simpa using Ne.symm h1) (by simpa using Ne.symm h2))
        (List.count_le_count_cons.trans hn)
      rw [passFrom_char _ _ _ _ h1 h2, ← ih, putBack_append]
      simp

/-! ### The order of the groups -/

/-- The pass does not look ahead. -/
theorem groups_passFrom_append :
    ∀ (u v : Text) (s : TokenSource) (stack : List Text) (buffer : Text),
      (passFrom s stack buffer u).groups <+: (passFrom s stack buffer (u ++ v)).groups
  | [], _, _, _, _ => List.nil_prefix
  | c :: u, v, s, stack, buffer => by
    rw [List.cons_append]
    by_cases h1 : c = '('
    · subst h1
      rw [passFrom_open, passFrom_open]
      exact groups_passFrom_append u v ..
    by_cases h2 : c = ')'
    · subst h2
      rcases stack with _ | ⟨outer, stack⟩
      · rw [passFrom_stray, passFrom_stray]
        exact groups_passFrom_append u v ..
      · rw [passFrom_close, passFrom_close]
        exact (List.prefix_cons_inj _).2 (groups_passFrom_append u v ..)
    · rw [passFrom_char _ _ _ _ h1 h2, passFrom_char _ _ _ _ h1 h2]
      exact groups_passFrom_append u v ..

theorem counts_unwind : ∀ (stack : List (List Mark)) (ms : List Mark),
    Mark.counts (Mark.unwind stack ms) = Mark.counts (Mark.unwind stack []) + Mark.counts ms
  | [], ms => by simp [Mark.unwind, Mark.counts]
  | before :: stack, ms => by
    rw [Mark.unwind, Mark.unwind, counts_unwind stack, counts_unwind stack (before ++ _)]
    simp [Mark.counts, Mark.count, Nat.add_assoc]

/-- The pass makes a group where a pair is read. -/
theorem length_groups_passFrom : ∀ (r : Text) (s : TokenSource) (stack : List Text) (buffer : Text)
    (marks : List (List Mark)) (ms : List Mark), marks.length = stack.length →
      Mark.counts (Mark.readFrom marks ms r) =
        Mark.counts (Mark.unwind marks ms) + (passFrom s stack buffer r).groups.length
  | [], _, _, _, _, _, _ => by simp [passFrom]
  | c :: r, s, stack, buffer, marks, ms, h => by
    by_cases h1 : c = '('
    · subst h1
      rw [Mark.readFrom_open, passFrom_open,
        length_groups_passFrom r s (buffer :: stack) [] _ [] (by simpa using h),
        Mark.unwind, counts_unwind marks ms, counts_unwind marks (ms ++ _)]
      simp [Mark.counts, Mark.count]
    by_cases h2 : c = ')'
    · subst h2
      rcases stack with _ | ⟨outer, stack⟩
      · obtain rfl := List.length_eq_zero_iff.1 h
        rw [Mark.readFrom_stray, passFrom_stray,
          length_groups_passFrom r s [] (buffer ++ [.char ')']) _ _ rfl]
        simp [Mark.unwind, Mark.counts, Mark.count]
      · obtain ⟨before, marks, rfl⟩ := List.exists_cons_of_length_eq_add_one h
        rw [Mark.readFrom_close, passFrom_close,
          length_groups_passFrom r s.advance stack (outer ++ s.token) _ _ (by simpa using h),
          Mark.unwind, counts_unwind marks (before ++ _), counts_unwind marks (before ++ _)]
        simp [Mark.counts, Mark.count]
        omega
    · rw [Mark.readFrom_char _ _ _ h1 h2, passFrom_char _ _ _ _ h1 h2,
        length_groups_passFrom r s stack (buffer ++ [c]) _ _ h, counts_unwind marks ms,
        counts_unwind marks (ms ++ _)]
      simp [Mark.counts, Mark.count]

/-- The steps of extraction come to one pass. The groups are numbered on from the next number of the
source, in the order in which the pairs of the text are closed: those that the beginning of a text
holds are the first ones, and there is one for each pair that is closed in it. -/
theorem extract_eq_pass {s : TokenSource} (hs : s.Plain) (t : Text) :
    extract s t = pass s t
      ∧ (extract s t).groups.map (·.1) =
          (List.range' s.next (Mark.counts (Mark.read t))).map (tokenOf s.base)
      ∧ ∀ u v, t = u ++ v →
          (extract s u).groups = (extract s t).groups.take (Mark.counts (Mark.read u)) := by
  have hpass (t : Text) : extract s t = pass s t :=
    extractWithin_putBack t t.length s [] [] hs (by simp [Buffers]) List.count_le_length
  have hcount (t : Text) : Mark.counts (Mark.read t) = (extract s t).groups.length := by
    have := length_groups_passFrom t s [] [] [] [] rfl
    simpa [hpass t, pass, Mark.read, Mark.unwind, Mark.counts] using this
  refine ⟨hpass t, ?_, ?_⟩
  · rw [hcount]
    exact keys_extract s t
  · rintro u v rfl
    rw [hcount, hpass, hpass]
    exact List.prefix_iff_eq_take.1 (groups_passFrom_append u v ..)

/-- The base need not be safe: here it occurs in the text, and so does a token. -/
theorem extract_eq_pass_of_unsafe_base :
    TokenSource.Plain ⟨"1", 7⟩ ∧ isSafeBase "1" = false
      ∧ extract ⟨"1", 7⟩ ")(a(1)(b))17_)(c(1" = pass ⟨"1", 7⟩ ")(a(1)(b))17_)(c(1"
      ∧ pass ⟨"1", 7⟩ ")(a(1)(b))17_)(c(1" =
          ⟨")19_17_)(c(1", [("17_", "1"), ("18_", "b"), ("19_", "a17_18_")], ⟨"1", 10⟩⟩
      ∧ (extract ⟨"1", 7⟩ ")(a(1)(b").groups =
          (extract ⟨"1", 7⟩ ")(a(1)(b))17_)(c(1").groups.take 1 := by
  have hs : TokenSource.Plain ⟨"1", 7⟩ := by decide
  obtain ⟨hpass, -, hfirst⟩ := extract_eq_pass hs ")(a(1)(b))17_)(c(1"
  have hcount : Mark.counts (Mark.read ")(a(1)(b") = 1 := by decide +kernel
  refine ⟨hs, by decide +kernel, hpass, by decide +kernel, ?_⟩
  rw [hfirst ")(a(1)(b" "))17_)(c(1" (by decide), hcount]

end Shorthand
