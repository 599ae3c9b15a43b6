import Mathlib.Algebra.BigOperators.Group.List.Basic
import Mathlib.Algebra.GroupWithZero.Nat
import Shorthand.Proofs.Restoration

/-!
# Tokens are used once, where they were put

An extraction of pieces tells the tokens that it has put in from characters that look alike
(`CutsTo`). A step moves the pieces between two parentheses to a group and puts one new token in
their place, so that no token is lost or doubled (`CutsTo.count_token`), and the base still stands
nowhere in the characters (`Clean.cut`). Then it is in the text of the pieces only where a token
begins (`Clean.exists_token`): reading tokens off the texts of an extraction finds exactly those
that were put in (`linear_extract`).
-/

namespace Shorthand

open TokenSource

/-- In how many places `s` is in a text. -/
def Text.occurrences (s t : Text) : Nat :=
  t.tails.countP (s.isPrefixOf ·)

/-- What the pattern of a base matches: the base, digits and an underscore. -/
def TokenSource.Matches (base m : Text) : Prop :=
  ∃ digits : Text, digits ≠ [] ∧ (∀ c ∈ digits, Text.isDecimalDigit c = true)
    ∧ m = base ++ digits ++ "_"

namespace Extraction

/-! ### Pieces -/

def Piece.text : Piece → Text
  | .char c => [c]
  | .token t => t

/-- The text that pieces make. -/
def texts (ps : List Piece) : Text :=
  ps.flatMap Piece.text

section Texts

variable (c : CodePoint) (k : Text) (ps qs : List Piece)

@[simp] theorem texts_nil : texts [] = [] := rfl

@[simp] theorem texts_char : texts (.char c :: ps) = c :: texts ps := rfl

@[simp] theorem texts_token : texts (.token k :: ps) = k ++ texts ps := rfl

@[simp] theorem texts_append : texts (ps ++ qs) = texts ps ++ texts qs :=
  List.flatMap_append

@[simp] theorem texts_map_char : ∀ t : Text, texts (t.map .char) = t
  | [] => rfl
  | c :: r => congrArg (c :: ·) (texts_map_char r)

end Texts

/-- The extraction of the pieces `ps`: it ends in the pieces `flat`, and each group holds pieces.
Only the new token of a step is put in as one piece. -/
inductive CutsTo : TokenSource → List Piece → List Piece → List (Text × List Piece) → Prop
  | done {s : TokenSource} {ps : List Piece} :
      firstGroup (texts ps) = none → CutsTo s ps ps []
  | cut {s : TokenSource} {before inner after flat : List Piece}
      {bodies : List (Text × List Piece)} :
      firstGroup (texts (before ++ .char '(' :: (inner ++ .char ')' :: after))) =
        some (texts before, texts inner, texts after) →
      CutsTo s.advance (before ++ .token s.token :: after) flat bodies →
      CutsTo s (before ++ .char '(' :: (inner ++ .char ')' :: after)) flat
        ((s.token, inner) :: bodies)

/-- Pieces whose tokens are tokens of the base, which is nowhere in the characters between them. -/
structure Clean (base : Text) (ps : List Piece) : Prop where
  tokens : ∀ {k : Text}, .token k ∈ ps → ∃ n, k = tokenOf base n
  fresh : ¬ base.map .char <:+: ps

theorem prefix_cons_of_notMem {α : Type} {w l : List α} {a : α} (h : w <+: a :: l)
    (ha : a ∉ w) : w = [] := by
  rcases w with _ | ⟨b, w⟩
  · rfl
  · rw [(List.cons_prefix_cons.1 h).1] at ha
    exact absurd List.mem_cons_self ha

/-- What stands in a list, but not across one of its members. -/
theorem infix_of_append_cons {α : Type} {w l r : List α} {a : α} (h : w <:+: l ++ a :: r)
    (ha : a ∉ w) : w <:+: l ∨ w <:+: r := by
  rcases List.infix_append_iff.1 h with h | h | ⟨u, v, rfl, hu, hv⟩
  · exact .inl h
  · rcases List.infix_cons_iff.1 h with h | h
    · rw [prefix_cons_of_notMem h ha]
      exact .inl List.nil_infix
    · exact .inr h
  · rw [prefix_cons_of_notMem hv fun hm => ha (List.mem_append_right u hm), List.append_nil]
    exact .inl hu.isInfix

variable {base : Text} {ps qs : List Piece}

namespace Clean

theorem of_text {t : Text} (h : ¬ base <:+: t) : Clean base (t.map .char) where
  tokens hk := by simp at hk
  fresh hi := by
    obtain ⟨a, b, he⟩ := hi
    have := congrArg texts he
    simp only [texts_append, texts_map_char] at this
    exact h ⟨texts a, texts b, this⟩

theorem of_infix (h : Clean base ps) (hq : qs <:+: ps) : Clean base qs :=
  ⟨fun hk => h.tokens (hq.subset hk), fun hi => h.fresh (hi.trans hq)⟩

theorem tail {p : Piece} (h : Clean base (p :: ps)) : Clean base ps :=
  h.of_infix (List.suffix_cons p ps).isInfix

/-- A token between two parts keeps the characters of one apart from those of the other. -/
theorem token (hp : Clean base ps) (hq : Clean base qs) (n : Nat) :
    Clean base (ps ++ .token (tokenOf base n) :: qs) where
  tokens hk := by
    rcases List.mem_append.1 hk with hk | hk
    · exact hp.tokens hk
    rcases List.mem_cons.1 hk with he | hk
    · exact ⟨n, Piece.token.inj he⟩
    · exact hq.tokens hk
  fresh hi := (infix_of_append_cons hi (by simp)).elim hp.fresh hq.fresh

/-- The parts of a cut. -/
theorem parts {before inner after : List Piece} {p q : Piece}
    (h : Clean base (before ++ p :: (inner ++ q :: after))) :
    Clean base before ∧ Clean base inner ∧ Clean base after :=
  ⟨h.of_infix (List.prefix_append _ _).isInfix,
    h.of_infix ⟨before ++ [p], q :: after, by simp⟩,
    h.of_infix ⟨before ++ p :: (inner ++ [q]), [], by simp⟩⟩

/-- An end of the base that the text starts with cannot reach into a token: it would be a start of
the base. -/
theorem prefix_map_char (hs : SafeBase base) : ∀ {ps : List Piece} {e : Text},
    (∀ {k}, .token k ∈ ps → ∃ n, k = tokenOf base n) → e <:+ base → e ≠ base →
      e <+: texts ps → e.map Piece.char <+: ps
  | _, [], _, _, _, _ => List.nil_prefix
  | [], _ :: _, _, _, _, hp => by simp at hp
  | .char c :: ps, d :: e, ht, he, hne, hp => by
    obtain ⟨rfl, hrest⟩ := List.cons_prefix_cons.1 hp
    have hlt : e.length < base.length := he.length_le
    have ih := prefix_map_char hs (fun hk => ht (List.mem_cons_of_mem _ hk))
      ((List.suffix_cons d e).trans he) (fun h => by simp [h] at hlt) hrest
    exact List.cons_prefix_cons.2 ⟨rfl, ih⟩
  | .token k :: ps, d :: e, ht, he, hne, hp => by
    obtain ⟨n, rfl⟩ := ht List.mem_cons_self
    have hb : base <+: tokenOf base n ++ texts ps := by simp [tokenOf, List.append_assoc]
    rcases hs.borderless _ he (List.prefix_of_prefix_length_le hp hb he.length_le) with h | h
    · simp at h
    · exact absurd h hne

/-- The base is at a token, and at no character. -/
theorem token_of_prefix (hs : SafeBase base) (h : Clean base ps) (hp : base <+: texts ps) :
    ∃ n qs, ps = .token (tokenOf base n) :: qs := by
  obtain ⟨c, e, rfl, -⟩ := hs.starts
  rcases ps with _ | ⟨d | k, ps⟩
  · simp at hp
  · obtain ⟨rfl, hrest⟩ := List.cons_prefix_cons.1 hp
    have hchars : e.map Piece.char <+: ps :=
      prefix_map_char hs h.tail.tokens (List.suffix_cons c e) (by simp) hrest
    exact absurd (List.cons_prefix_cons.2 ⟨rfl, hchars⟩).isInfix h.fresh
  · obtain ⟨n, rfl⟩ := h.tokens List.mem_cons_self
    exact ⟨n, ps, rfl⟩

end Clean

/-- The base is not in a token again: it would overlap itself, or begin in the number. -/
theorem not_prefix_of_suffix (hs : SafeBase base) {n : Nat} {e : Text}
    (he : e <:+ tokenOf base n) (hne : e ≠ tokenOf base n) (h0 : e ≠ []) (x : Text) :
    ¬ base <+: e ++ x := by
  intro hp
  have hnumber : ¬ e <:+ Text.decimal n ++ "_" := by
    intro hnum
    obtain ⟨c, b, rfl, hc⟩ := hs.starts
    obtain ⟨d, e, rfl⟩ := List.exists_cons_of_ne_nil h0
    obtain ⟨rfl, -⟩ := List.cons_prefix_cons.1 hp
    rcases List.mem_append.1 (hnum.subset List.mem_cons_self) with hm | hm
    · obtain ⟨k, rfl⟩ := Text.exists_digit_of_mem_decimal hm
      exact Bool.false_ne_true ((Text.isLetter_digit k).symm.trans hc)
    · exact Bool.false_ne_true (isLetter_underscore.symm.trans (List.mem_singleton.1 hm ▸ hc))
  obtain ⟨p, he⟩ := he
  rw [tokenOf, List.append_assoc] at he
  rcases List.append_eq_append_iff.1 he with ⟨b, hb, rfl⟩ | ⟨q, -, hq⟩
  · have hsuffix : b <:+ base := ⟨p, hb.symm⟩
    have hstart : b <+: base :=
      List.prefix_of_prefix_length_le (by simp) hp hsuffix.length_le
    rcases hs.borderless b hsuffix hstart with rfl | rfl
    · exact hnumber (List.suffix_refl _)
    · exact hne (by simp [tokenOf])
  · exact hnumber ⟨q, hq.symm⟩

/-! ### Where the base is -/

namespace Clean

/-- The base is in a text of pieces only where a token begins. -/
theorem exists_token (hs : SafeBase base) : ∀ {ps : List Piece} {u v : Text}, Clean base ps →
    texts ps = u ++ base ++ v →
      ∃ n pu pv, ps = pu ++ .token (tokenOf base n) :: pv ∧ texts pu = u
  | ps, [], v, h, he => by
    obtain ⟨n, qs, rfl⟩ := h.token_of_prefix hs ⟨v, he.symm⟩
    exact ⟨n, [], qs, rfl, rfl⟩
  | [], _ :: _, _, _, he => by simp at he
  | .char d :: ps, c :: u, v, h, he => by
    obtain ⟨rfl, hrest⟩ := List.cons.inj he
    obtain ⟨n, pu, pv, rfl, rfl⟩ := exists_token hs h.tail hrest
    exact ⟨n, .char d :: pu, pv, rfl, rfl⟩
  | .token k :: ps, c :: u, v, h, he => by
    obtain ⟨m, rfl⟩ := h.tokens List.mem_cons_self
    rw [texts_token, List.append_assoc] at he
    rcases List.append_eq_append_iff.1 he with ⟨w, hw, hrest⟩ | ⟨w, hw, hrest⟩
    · rw [← List.append_assoc] at hrest
      obtain ⟨n, pu, pv, rfl, rfl⟩ := exists_token hs h.tail hrest
      exact ⟨n, .token (tokenOf base m) :: pu, pv, rfl, hw.symm⟩
    by_cases h0 : w = []
    · subst h0
      obtain ⟨n, qs, rfl⟩ := h.tail.token_of_prefix hs ⟨v, hrest⟩
      exact ⟨n, [.token (tokenOf base m)], qs, rfl, by simp [hw]⟩
    · have hne : w ≠ tokenOf base m := by
        intro hwm
        have hlen := congrArg List.length hw
        rw [← hwm, List.length_append, List.length_cons] at hlen
        omega
      exact absurd ⟨v, hrest⟩ (not_prefix_of_suffix hs ⟨c :: u, hw.symm⟩ hne h0 (texts ps))

/-- A match of the pattern is a token that was put in. -/
theorem exists_matches (hs : SafeBase base) (h : Clean base ps) {u m v : Text}
    (hm : Matches base m) (he : texts ps = u ++ m ++ v) :
    ∃ pu pv, ps = pu ++ .token m :: pv ∧ texts pu = u ∧ texts pv = v := by
  obtain ⟨digits, -, hd, rfl⟩ := hm
  obtain ⟨n, pu, pv, rfl, rfl⟩ := h.exists_token hs (u := u) (v := digits ++ "_" ++ v)
    (by simp [he])
  have hrest : Text.decimal n ++ "_" ++ texts pv = digits ++ "_" ++ v := by
    simpa [tokenOf] using he
  have hn : Text.decimal n = digits := by
    rw [← takeWhile_decimal n (texts pv), hrest, takeWhile_digits hd]
  subst hn
  exact ⟨pu, pv, rfl, rfl, by simpa using hrest⟩

end Clean

/-- Scanning finds the pieces again. -/
theorem Clean.scan_texts (hs : SafeBase base) : ∀ {ps : List Piece}, Clean base ps →
    scan base (texts ps) = ps
  | [], _ => rfl
  | .char c :: ps, h => by
    have hp : ¬ base <+: c :: texts ps := by
      intro hp
      obtain ⟨n, qs, he⟩ := h.token_of_prefix hs hp
      cases he
    rw [texts_char, scan_char hp, h.tail.scan_texts hs]
  | .token k :: ps, h => by
    obtain ⟨n, rfl⟩ := h.tokens List.mem_cons_self
    rw [texts_token, scan_token, h.tail.scan_texts hs]

/-! ### Counting tokens -/

section Occurrences

variable {s t : Text} {c : CodePoint}

theorem occurrences_cons_pos (h : s <+: c :: t) :
    Text.occurrences s (c :: t) = Text.occurrences s t + 1 := by
  rw [Text.occurrences, List.tails_cons, List.countP_cons_of_pos (by simpa using h)]
  rfl

theorem occurrences_cons_neg (h : ¬ s <+: c :: t) :
    Text.occurrences s (c :: t) = Text.occurrences s t := by
  rw [Text.occurrences, List.tails_cons, List.countP_cons_of_neg (by simpa using h)]
  rfl

/-- Nothing is found where it does not begin. -/
theorem occurrences_append : ∀ {e : Text}, (∀ d, d <:+ e → d ≠ [] → ¬ s <+: d ++ t) →
    Text.occurrences s (e ++ t) = Text.occurrences s t
  | [], _ => rfl
  | c :: e, h => by
    have hc : ¬ s <+: c :: (e ++ t) := h (c :: e) (List.suffix_refl _) (by simp)
    rw [List.cons_append, occurrences_cons_neg hc,
      occurrences_append fun d hd => h d (hd.trans (List.suffix_cons c e))]

end Occurrences

theorem base_prefix_tokenOf (n : Nat) : base <+: tokenOf base n := by
  simp [tokenOf, List.append_assoc]

/-- A token is in a text as often as it was put in. -/
theorem Clean.occurrences_texts (hs : SafeBase base) (m : Nat) : ∀ {ps : List Piece},
    Clean base ps →
      Text.occurrences (tokenOf base m) (texts ps) = ps.count (.token (tokenOf base m))
  | [], _ => by simp [Text.occurrences, tokenOf_ne_nil]
  | .char c :: ps, h => by
    have hp : ¬ tokenOf base m <+: texts (.char c :: ps) := by
      intro hp
      obtain ⟨n, qs, he⟩ := h.token_of_prefix hs ((base_prefix_tokenOf m).trans hp)
      simp at he
    rw [texts_char] at hp ⊢
    rw [occurrences_cons_neg hp, h.tail.occurrences_texts hs, List.count_cons_of_ne]
    simp
  | .token k :: ps, h => by
    obtain ⟨n, rfl⟩ := h.tokens List.mem_cons_self
    obtain ⟨c, e, he⟩ := List.exists_cons_of_ne_nil (@tokenOf_ne_nil base n)
    have hrest : Text.occurrences (tokenOf base m) (e ++ texts ps) =
        ps.count (.token (tokenOf base m)) := by
      rw [← h.tail.occurrences_texts hs]
      refine occurrences_append fun d hd h0 hp => ?_
      refine not_prefix_of_suffix (n := n) hs ?_ ?_ h0 (texts ps) ((base_prefix_tokenOf m).trans hp)
      · exact he ▸ hd.trans (List.suffix_cons c e)
      · rintro rfl
        have hle := hd.length_le
        rw [he, List.length_cons] at hle
        omega
    rw [texts_token, he, List.cons_append]
    by_cases hm : m = n
    · subst hm
      rw [occurrences_cons_pos, hrest, ← he, List.count_cons_self]
      rw [he, ← List.cons_append]
      exact List.prefix_append _ _
    · rw [occurrences_cons_neg, hrest, List.count_cons_of_ne]
      · rw [← he]
        simpa using fun h => hm (tokenOf_injective h).symm
      · rw [← List.cons_append, ← he]
        rintro ⟨x, hx⟩
        exact hm (tokenOf_append_inj hx).1

/-! ### Steps on pieces -/

/-- A character that is in no token is a piece of its own. -/
theorem exists_char {c : CodePoint} : ∀ {ps : List Piece} {a b : Text},
    (∀ {k}, .token k ∈ ps → c ∉ k) → texts ps = a ++ c :: b →
      ∃ pa pb, ps = pa ++ .char c :: pb ∧ texts pa = a ∧ texts pb = b
  | [], _, _, _, he => by simp at he
  | .char d :: ps, [], b, _, he => by
    obtain ⟨rfl, rfl⟩ := List.cons.inj he
    exact ⟨[], ps, rfl, rfl, rfl⟩
  | .char d :: ps, e :: a, b, hc, he => by
    obtain ⟨rfl, hrest⟩ := List.cons.inj he
    obtain ⟨pa, pb, rfl, rfl, rfl⟩ := exists_char (fun hk => hc (List.mem_cons_of_mem _ hk)) hrest
    exact ⟨.char d :: pa, pb, rfl, rfl, rfl⟩
  | .token k :: ps, a, b, hc, he => by
    rw [texts_token] at he
    have hps : ∀ {k}, .token k ∈ ps → c ∉ k := fun hk => hc (List.mem_cons_of_mem _ hk)
    rcases List.append_eq_append_iff.1 he with ⟨w, rfl, hrest⟩ | ⟨w, rfl, hrest⟩
    · obtain ⟨pa, pb, rfl, rfl, rfl⟩ := exists_char hps hrest
      exact ⟨.token k :: pa, pb, rfl, rfl, rfl⟩
    rcases w with _ | ⟨d, w⟩
    · obtain ⟨pa, pb, rfl, hw, rfl⟩ := exists_char (a := []) hps hrest.symm
      exact ⟨.token (a ++ []) :: pa, pb, rfl, by simp [hw], rfl⟩
    · obtain ⟨rfl, -⟩ := List.cons.inj hrest
      exact absurd (by simp) (hc List.mem_cons_self)

theorem Clean.notMem_token (hs : SafeBase base) (h : Clean base ps) {c : CodePoint}
    (hc : isBaseChar c = false) {k : Text} (hk : .token k ∈ ps) : c ∉ k := by
  obtain ⟨n, rfl⟩ := h.tokens hk
  exact notMem_tokenOf hs hc n

/-- The first group of a text of pieces is made of pieces. -/
theorem Clean.exists_cut (hs : SafeBase base) (h : Clean base ps) {before inner after : Text}
    (hf : firstGroup (texts ps) = some (before, inner, after)) :
    ∃ pb pi pa, ps = pb ++ .char '(' :: (pi ++ .char ')' :: pa)
      ∧ texts pb = before ∧ texts pi = inner ∧ texts pa = after := by
  obtain ⟨pb, pr, rfl, rfl, hr⟩ := exists_char
    (h.notMem_token hs (isBaseChar_structure _ (by simp))) (firstGroup_some hf).1
  have hpr : Clean base pr := h.of_infix ⟨pb ++ [.char (.char '(')], [], by simp⟩
  obtain ⟨pi, pa, rfl, rfl, rfl⟩ := exists_char
    (hpr.notMem_token hs (isBaseChar_structure _ (by simp))) hr
  exact ⟨pb, pi, pa, rfl, rfl, rfl, rfl⟩

/-- The extraction of a text does the same, and forgets which parts are tokens. -/
theorem exists_cutsTo : ∀ (n : Nat) {s : TokenSource} {ps : List Piece}, SafeBase s.base →
    Clean s.base ps → (texts ps).count (.char ')') ≤ n →
      ∃ flat bodies, CutsTo s ps flat bodies ∧ (extractWithin n s (texts ps)).flat = texts flat
        ∧ (extractWithin n s (texts ps)).groups = bodies.map fun p => (p.1, texts p.2)
  | 0, s, ps, hs, hp, hn =>
    ⟨ps, [], .done (flat_extractWithin 0 hs hn), rfl, rfl⟩
  | n + 1, s, ps, hs, hp, hn => by
    rcases hf : firstGroup (texts ps) with _ | ⟨before, inner, after⟩
    · rw [extractWithin_none _ hf]
      exact ⟨ps, [], .done hf, rfl, rfl⟩
    obtain ⟨pb, pi, pa, rfl, rfl, rfl, rfl⟩ := hp.exists_cut hs hf
    obtain ⟨hb, -, ha⟩ := hp.parts
    have htexts : texts (pb ++ .token s.token :: pa) = texts pb ++ s.token ++ texts pa := by simp
    have hcount : s.token.count (.char ')') = 0 :=
      List.count_eq_zero.2 (notMem_tokenOf hs (isBaseChar_structure _ (by simp)) s.next)
    have hnext : Clean s.base (pb ++ .token s.token :: pa) := hb.token ha s.next
    have hn' : (texts (pb ++ .token s.token :: pa)).count (.char ')') ≤ n := by
      rw [(firstGroup_some hf).1] at hn
      simp only [htexts, List.count_append, hcount, List.count_cons, beq_self_eq_true,
        if_true] at hn ⊢
      omega
    obtain ⟨flat, bodies, hcuts, hflat, hgroups⟩ := exists_cutsTo n (s := s.advance) hs hnext hn'
    rw [htexts] at hflat hgroups
    rw [extractWithin_some n hf]
    exact ⟨flat, (s.token, pi) :: bodies, .cut hf hcuts, hflat, congrArg (_ :: ·) hgroups⟩

namespace CutsTo

variable {s : TokenSource} {flat : List Piece} {bodies : List (Text × List Piece)}

theorem clean (h : CutsTo s ps flat bodies) (hp : Clean s.base ps) :
    Clean s.base flat ∧ ∀ p ∈ bodies, Clean s.base p.2 := by
  induction h with
  | done _ => exact ⟨hp, by simp⟩
  | @cut s before inner after flat bodies _ _ ih =>
    obtain ⟨hb, hi, ha⟩ := hp.parts
    obtain ⟨hflat, hbodies⟩ := ih (hb.token ha s.next)
    exact ⟨hflat, List.forall_mem_cons.2 ⟨hi, hbodies⟩⟩

/-- A step puts one new token in, and moves the others. -/
theorem count_token (h : CutsTo s ps flat bodies) (k : Text) :
    flat.count (.token k) + (bodies.map (·.2.count (.token k))).sum =
      ps.count (.token k) + (bodies.map (·.1)).count k := by
  induction h with
  | done _ => simp
  | @cut s before inner after flat bodies _ _ ih =>
    have hk : (Piece.token s.token == .token k) = (s.token == k) := by simp [beq_eq_decide]
    have hchar (c : CodePoint) : (Piece.char c == .token k) = false := rfl
    simp only [List.count_append, List.count_cons, List.map_cons, List.sum_cons, hk, hchar,
      Bool.false_eq_true, if_false] at ih ⊢
    omega

theorem token_mem_flat (h : CutsTo s ps flat bodies) {k : Text} (hk : .token k ∈ flat) :
    .token k ∈ ps ∨ k ∈ bodies.map (·.1) := by
  have hcount := h.count_token k
  have hpos := List.count_pos_iff.2 hk
  rw [← List.count_pos_iff, ← List.count_pos_iff]
  omega

/-- A group holds tokens of the groups before it, and those that were there at first. -/
theorem token_mem (h : CutsTo s ps flat bodies) : ∀ {l r : List (Text × List Piece)} {key k : Text}
    {body : List Piece}, bodies = l ++ (key, body) :: r → .token k ∈ body →
      .token k ∈ ps ∨ k ∈ l.map (·.1) := by
  induction h with
  | done _ => intro l r key k body he; simp at he
  | @cut s before inner after flat bodies _ _ ih =>
    rintro (_ | ⟨p, l⟩) r key k body he hk
    · obtain ⟨he, -⟩ := List.cons.inj he
      obtain ⟨-, rfl⟩ := Prod.mk.inj he
      exact .inl (by simp [hk])
    · obtain ⟨rfl, hrest⟩ := List.cons.inj he
      rcases ih hrest hk with hm | hm
      · simp only [List.mem_append, List.mem_cons, Piece.token.injEq, reduceCtorEq, false_or,
          List.map_cons] at hm ⊢
        tauto
      · exact .inr (List.mem_cons_of_mem _ hm)

/-- What is cut out has no parentheses in it. -/
theorem notMem_body (h : CutsTo s ps flat bodies) :
    ∀ p ∈ bodies, .char '(' ∉ texts p.2 ∧ .char ')' ∉ texts p.2 := by
  induction h with
  | done _ => simp
  | cut hf _ ih => exact List.forall_mem_cons.2 ⟨(firstGroup_some hf).2, ih⟩

end CutsTo

/-! ### The tokens of an extraction -/

/-- Every match of the pattern in the text of the pieces is one of the tokens `keys`, in the place
where it was put in. -/
def Placed (base : Text) (keys : List Text) (ps : List Piece) : Prop :=
  ∀ u m v, Matches base m → texts ps = u ++ m ++ v →
    m ∈ keys ∧ ∃ pu pv, ps = pu ++ .token m :: pv ∧ texts pu = u ∧ texts pv = v

/-- An extraction and that of its pieces, which ends in the pieces that scanning finds. In a
body there are only tokens of groups that were cut out before it. -/
structure Linear (s : TokenSource) (t : Text) (flat : List Piece)
    (bodies : List (Text × List Piece)) : Prop where
  cuts : CutsTo s (t.map .char) flat bodies
  flat_eq : (extract s t).flat = texts flat
  groups_eq : (extract s t).groups = bodies.map fun p => (p.1, texts p.2)
  scan_flat : scan s.base (extract s t).flat = flat
  scan_bodies : ∀ p ∈ bodies, scan s.base (texts p.2) = p.2
  distinct : ((extract s t).groups.map (·.1)).Nodup
  once : ∀ k ∈ (extract s t).groups.map (·.1),
    Text.occurrences k (extract s t).flat
      + ((extract s t).groups.map fun p => Text.occurrences k p.2).sum = 1
  plain : ∀ p ∈ (extract s t).groups, .char '(' ∉ p.2 ∧ .char ')' ∉ p.2
  placed_flat : Placed s.base ((extract s t).groups.map (·.1)) flat
  placed_body : ∀ {l r : List (Text × List Piece)} {key : Text} {body : List Piece},
    bodies = l ++ (key, body) :: r → Placed s.base (l.map (·.1)) body

theorem exists_linear {s : TokenSource} {t : Text} (h : s.FitFor t) :
    ∃ flat bodies, Linear s t flat bodies := by
  have hs := h.safe
  have hclean : Clean s.base (t.map .char) := .of_text h.fresh
  have hle : (texts (t.map .char)).count (.char ')') ≤ t.length := by
    rw [texts_map_char]
    exact List.count_le_length
  obtain ⟨flat, bodies, hcuts, hflat, hgroups⟩ := exists_cutsTo t.length hs hclean hle
  rw [texts_map_char] at hflat hgroups
  change (extract s t).flat = _ at hflat
  change (extract s t).groups = _ at hgroups
  obtain ⟨hcf, hcb⟩ := hcuts.clean hclean
  have hkeys : (extract s t).groups.map (·.1) = bodies.map (·.1) := by
    rw [hgroups, List.map_map]
    rfl
  have hnodup := nodup_keys_extract s t
  refine ⟨flat, bodies, hcuts, hflat, hgroups, hflat ▸ hcf.scan_texts hs,
    fun p hp => (hcb p hp).scan_texts hs, hnodup, fun k hk => ?_, fun p hp => ?_,
    fun u m v hm he => ?_, fun {l r key body} hb u m v hm he => ?_⟩
  · obtain ⟨n, rfl⟩ : ∃ n, k = tokenOf s.base n := by
      rw [keys_extract] at hk
      obtain ⟨n, -, rfl⟩ := List.mem_map.1 hk
      exact ⟨n, rfl⟩
    have hcount := hcuts.count_token (tokenOf s.base n)
    have hbodies : (extract s t).groups.map (fun p => Text.occurrences (tokenOf s.base n) p.2) =
        bodies.map (·.2.count (.token (tokenOf s.base n))) := by
      rw [hgroups, List.map_map]
      exact List.map_congr_left fun p hp => (hcb p hp).occurrences_texts hs n
    rw [hflat, hcf.occurrences_texts hs, hbodies, hcount, ← hkeys,
      List.count_eq_one_of_mem hnodup hk, List.count_eq_zero.2 (by simp)]
  · rw [hgroups] at hp
    obtain ⟨body, hbody, rfl⟩ := List.mem_map.1 hp
    exact hcuts.notMem_body body hbody
  · obtain ⟨pu, pv, rfl, hu, hv⟩ := hcf.exists_matches hs hm he
    have hmem := hcuts.token_mem_flat (k := m) (by simp)
    exact ⟨hkeys ▸ hmem.resolve_left (by simp), pu, pv, rfl, hu, hv⟩
  · obtain ⟨pu, pv, rfl, hu, hv⟩ := (hcb (key, body) (by simp [hb])).exists_matches hs hm he
    have hmem := hcuts.token_mem hb (k := m) (by simp)
    exact ⟨hmem.resolve_left (by simp), pu, pv, rfl, hu, hv⟩

/-- Tokens are drawn from a source that was made for the text, however many were drawn before. -/
theorem linear_extract {t base : Text} (h : isSafeBase base = true) (drawn : Nat) :
    ∃ source, forText t (some base) = .ok source
      ∧ ∃ flat bodies, Linear (advance^[drawn] source) t flat bodies := by
  obtain ⟨source, hok, hfit⟩ := forText_some (t := t) h
  exact ⟨source, hok, exists_linear (hfit.iterate_advance drawn)⟩

theorem linear_extract_of_lookalike : isSafeBase "a1_b" = true ∧
    ∃ source, forText "(a1_)b3_(a1_b0_ (x)b7_))" (some "a1_b") = .ok source
      ∧ ∃ flat bodies,
          Linear (advance^[3] source) "(a1_)b3_(a1_b0_ (x)b7_))" flat bodies :=
  ⟨by decide +kernel, linear_extract (by decide +kernel) 3⟩

end Extraction

end Shorthand
