import Mathlib.Data.List.Nodup
import Mathlib.Data.List.Range
import Shorthand.Group.Extraction
import Shorthand.Proofs.Mark
import Shorthand.Proofs.Token

/-!
# What an extraction stands for

Flat text stands for marks (`Stands`): a character for itself, and a token for a pair around what
the text of its group stands for. A step of extraction replaces two parentheses and what is between
them by a token, which stands for the pair (`Stands.cut`), and extraction ends when no step is left.
So the flat text stands for the marks of the source text (`reads_extract`).
-/

namespace Shorthand

open TokenSource

/-! ### The first group -/

theorem closeAt_some : ∀ {t a b : Text}, closeAt t = some (a, b) →
    t = a ++ .char ')' :: b ∧ .char '(' ∉ a ∧ .char ')' ∉ a
  | [], a, b, h => by simp [closeAt] at h
  | c :: r, a, b, h => by
    rw [closeAt] at h
    split_ifs at h with h1 h2
    · simp only [Option.some.injEq, Prod.mk.injEq] at h
      obtain ⟨rfl, rfl⟩ := h
      exact ⟨by rw [h1]; rfl, by simp, by simp⟩
    · obtain ⟨⟨a', b'⟩, hr, he⟩ := Option.map_eq_some_iff.1 h
      cases he
      obtain ⟨rfl, ho, hc⟩ := closeAt_some hr
      exact ⟨rfl, by simp [ho, Ne.symm h2], by simp [hc, Ne.symm h1]⟩

theorem firstGroup_some : ∀ {t before inner after : Text},
    firstGroup t = some (before, inner, after) →
      t = before ++ .char '(' :: (inner ++ .char ')' :: after)
        ∧ .char '(' ∉ inner ∧ .char ')' ∉ inner
  | [], _, _, _, h => by simp [firstGroup] at h
  | c :: r, before, inner, after, h => by
    rw [firstGroup] at h
    split at h
    · rename_i hc
      split_ifs at hc with h1
      simp only [Option.some.injEq, Prod.mk.injEq] at h
      obtain ⟨rfl, rfl, rfl⟩ := h
      obtain ⟨rfl, ho, hcl⟩ := closeAt_some hc
      exact ⟨by rw [h1]; rfl, ho, hcl⟩
    · obtain ⟨⟨b', i', a'⟩, hr, he⟩ := Option.map_eq_some_iff.1 h
      cases he
      obtain ⟨rfl, ho, hcl⟩ := firstGroup_some hr
      exact ⟨rfl, ho, hcl⟩

theorem firstGroup_cons_none {c : CodePoint} {r : Text} (h : firstGroup (c :: r) = none) :
    (c = '(' → closeAt r = none) ∧ firstGroup r = none := by
  rw [firstGroup] at h
  split at h
  · simp at h
  · rename_i hc
    refine ⟨fun h1 => ?_, by simpa using h⟩
    rwa [if_pos h1] at hc

theorem not_mem_close : ∀ {r : Text}, closeAt r = none → firstGroup r = none → .char ')' ∉ r
  | [], _, _ => by simp
  | c :: r, h, hf => by
    obtain ⟨hc, hr⟩ := firstGroup_cons_none hf
    rw [closeAt] at h
    split_ifs at h with h1 h2
    · simp [not_mem_close (hc h2) hr, Ne.symm h1]
    · simp [not_mem_close (by simpa using h) hr, Ne.symm h1]

/-- If there is no group, all closing parentheses come before all opening ones. -/
theorem firstGroup_none : ∀ {t : Text}, firstGroup t = none →
    .char '(' ∉ t ∨ ∃ p q, t = p ++ .char '(' :: q ∧ .char '(' ∉ p ∧ .char ')' ∉ q
  | [], _ => .inl (by simp)
  | c :: r, h => by
    obtain ⟨hc, hr⟩ := firstGroup_cons_none h
    by_cases h1 : c = '('
    · subst h1
      exact .inr ⟨[], r, rfl, by simp, not_mem_close (hc rfl) hr⟩
    · rcases firstGroup_none hr with hp | ⟨p, q, rfl, hp, hq⟩
      · exact .inl (by simp [hp, Ne.symm h1])
      · exact .inr ⟨c :: p, q, rfl, by simp [hp, Ne.symm h1], hq⟩

/-- No parenthesis is closed after one has been opened. -/
def ClosingFirst (t : Text) : Prop :=
  ∃ p q, t = p ++ q ∧ .char '(' ∉ p ∧ .char ')' ∉ q

namespace ClosingFirst

theorem of_cons {c : CodePoint} {r : Text} (h : ClosingFirst (c :: r)) :
    ClosingFirst r ∧ (c = '(' → .char ')' ∉ r) := by
  obtain ⟨p, q, he, hp, hq⟩ := h
  rcases p with _ | ⟨d, p⟩
  · rw [List.nil_append] at he
    subst he
    have hr : .char ')' ∉ r := fun hm => hq (List.mem_cons_of_mem c hm)
    exact ⟨⟨[], r, rfl, by simp, hr⟩, fun _ => hr⟩
  · obtain ⟨rfl, rfl⟩ := List.cons.inj he
    rw [List.mem_cons, not_or] at hp
    exact ⟨⟨p, q, rfl, hp.2, hq⟩, fun hc => absurd hc.symm hp.1⟩

theorem firstGroup_eq_none : ∀ {t : Text}, ClosingFirst t → firstGroup t = none
  | [], _ => rfl
  | c :: r, h => by
    obtain ⟨htail, hopen⟩ := h.of_cons
    have hclose : (if c = '(' then closeAt r else none) = none := by
      split_ifs with hc
      · rcases hr : closeAt r with _ | ⟨a, b⟩
        · rfl
        · exact absurd (by simp [(closeAt_some hr).1]) (hopen hc)
      · rfl
    rw [firstGroup, hclose]
    simp only [firstGroup_eq_none htail, Option.map_none]

end ClosingFirst

theorem firstGroup_eq_none_iff {t : Text} : firstGroup t = none ↔ ClosingFirst t := by
  refine ⟨fun h => ?_, fun h => h.firstGroup_eq_none⟩
  rcases firstGroup_none h with ho | ⟨p, q, rfl, ho, hc⟩
  · exact ⟨t, [], by simp, ho, by simp⟩
  · exact ⟨p, .char '(' :: q, rfl, ho, by simpa using hc⟩

/-! ### The run of an extraction -/

section Run

variable {s : TokenSource} {t before inner after : Text}

theorem extractWithin_none (n : Nat) (h : firstGroup t = none) :
    extractWithin n s t = ⟨t, [], s⟩ := by
  cases n with
  | zero => rfl
  | succ n => rw [extractWithin, h]

theorem extractWithin_some (n : Nat) (h : firstGroup t = some (before, inner, after)) :
    extractWithin (n + 1) s t =
      { extractWithin n s.advance (before ++ s.token ++ after) with
        groups := (s.token, inner) ::
          (extractWithin n s.advance (before ++ s.token ++ after)).groups } := by
  rw [extractWithin, h]

theorem source_extractWithin : ∀ (n : Nat) (s : TokenSource) (t : Text),
    (extractWithin n s t).source.base = s.base
  | 0, _, _ => rfl
  | n + 1, s, t => by
    rcases h : firstGroup t with _ | ⟨before, inner, after⟩
    · rw [extractWithin_none _ h]
    · rw [extractWithin_some n h]
      exact source_extractWithin n s.advance _

/-- The tokens of an extraction are numbered from the next one of the source on. -/
theorem keys_extractWithin : ∀ (n : Nat) (s : TokenSource) (t : Text),
    (extractWithin n s t).groups.map (·.1) =
      (List.range' s.next (extractWithin n s t).groups.length).map (tokenOf s.base)
  | 0, _, _ => rfl
  | n + 1, s, t => by
    rcases h : firstGroup t with _ | ⟨before, inner, after⟩
    · rw [extractWithin_none _ h]
      rfl
    · rw [extractWithin_some n h, List.map_cons, keys_extractWithin n, List.length_cons,
        List.range'_succ, List.map_cons]
      rfl

theorem keys_extract (s : TokenSource) (t : Text) : (extract s t).groups.map (·.1) =
    (List.range' s.next (extract s t).groups.length).map (tokenOf s.base) :=
  keys_extractWithin ..

theorem nodup_keys_extract (s : TokenSource) (t : Text) :
    ((extract s t).groups.map (·.1)).Nodup := by
  rw [keys_extract]
  exact (List.nodup_range' ..).map tokenOf_injective

/-- A step replaces a closing parenthesis by a token, in which there is none. -/
theorem flat_extractWithin : ∀ (n : Nat) {s : TokenSource} {t : Text},
    SafeBase s.base → t.count (.char ')') ≤ n → firstGroup (extractWithin n s t).flat = none
  | 0, s, t, _, hn => by
    rcases h : firstGroup t with _ | ⟨before, inner, after⟩
    · rwa [extractWithin_none _ h]
    · rw [(firstGroup_some h).1] at hn
      simp at hn
  | n + 1, s, t, hs, hn => by
    rcases h : firstGroup t with _ | ⟨before, inner, after⟩
    · rwa [extractWithin_none _ h]
    · rw [extractWithin_some n h]
      refine flat_extractWithin n (s := s.advance) hs ?_
      have htok : s.token.count (.char ')') = 0 :=
        List.count_eq_zero.2 (notMem_tokenOf hs (isBaseChar_structure _ (by simp)) s.next)
      rw [(firstGroup_some h).1] at hn
      simp only [List.count_append, htok, List.count_cons, beq_self_eq_true, if_true] at hn ⊢
      omega

theorem flat_extract (hs : SafeBase s.base) : firstGroup (extract s t).flat = none :=
  flat_extractWithin t.length hs List.count_le_length

end Run

namespace Extraction

theorem body?_of_mem {s : TokenSource} {t key body : Text}
    (h : (key, body) ∈ (extract s t).groups) : (extract s t).body? key = some body := by
  obtain ⟨l, r, hl⟩ := List.append_of_mem h
  have hnd := nodup_keys_extract s t
  rw [body?, List.lookup_eq_some_iff]
  refine ⟨l, r, hl, fun p hp => ?_⟩
  rw [hl, List.map_append, List.map_cons] at hnd
  have hne : key ≠ p.1 := fun he => List.disjoint_of_nodup_append hnd
    (List.mem_map_of_mem hp) (he ▸ List.mem_cons_self)
  simpa using hne

/-! ### Flat text and marks -/

/-- In an extraction, a text with tokens in it stands for marks. -/
inductive Stands (g : Extraction) : Text → List Mark → Prop
  | nil : Stands g [] []
  | char (c : CodePoint) {x : Text} {ms : List Mark} :
      Stands g x ms → Stands g (c :: x) (.char c :: ms)
  | pair {n : Nat} {body x : Text} {inner ms : List Mark} :
      g.body? (tokenOf g.source.base n) = some body → Stands g body inner → Stands g x ms →
      Stands g (tokenOf g.source.base n ++ x) (.pair inner :: ms)

namespace Stands

variable {g : Extraction} {x y : Text} {ms ns : List Mark}

theorem of_text (g : Extraction) : ∀ t : Text, g.Stands t (t.map .char)
  | [] => .nil
  | c :: r => .char c (of_text g r)

theorem append (hx : g.Stands x ms) (hy : g.Stands y ns) : g.Stands (x ++ y) (ms ++ ns) := by
  induction hx with
  | nil => exact hy
  | char c _ ih => exact .char c ih
  | pair hb hi _ _ ih =>
    rw [List.append_assoc]
    exact .pair hb hi ih

theorem mem_of_char (h : g.Stands x ms) {c : CodePoint} (hc : .char c ∈ ms) : c ∈ x := by
  induction h with
  | nil => simp at hc
  | char d _ ih =>
    rcases List.mem_cons.1 hc with he | hc
    · cases he
      exact List.mem_cons_self
    · exact List.mem_cons_of_mem d (ih hc)
  | pair _ _ _ _ ih =>
    rcases List.mem_cons.1 hc with he | hc
    · cases he
    · exact List.mem_append_right _ (ih hc)

/-- A character that is in no token stands for itself. -/
theorem split (hs : SafeBase g.source.base) {c : CodePoint} (hc : isBaseChar c = false)
    (h : g.Stands x ms) : ∀ {a b : Text}, x = a ++ c :: b →
      ∃ ma mb, ms = ma ++ .char c :: mb ∧ g.Stands a ma ∧ g.Stands b mb := by
  induction h with
  | nil => intro a b he; simp at he
  | @char d x ms hx ih =>
    intro a b he
    rcases a with _ | ⟨e, a⟩
    · obtain ⟨rfl, rfl⟩ := List.cons.inj he
      exact ⟨[], ms, rfl, .nil, hx⟩
    · obtain ⟨rfl, he'⟩ := List.cons.inj he
      obtain ⟨ma, mb, rfl, ha, hb⟩ := ih he'
      exact ⟨.char d :: ma, mb, rfl, .char d ha, hb⟩
  | @pair n body x inner ms hk hi hx _ ih =>
    intro a b he
    rcases List.append_eq_append_iff.1 he with ⟨a', rfl, he'⟩ | ⟨t, ht, he'⟩
    · obtain ⟨ma, mb, rfl, ha, hb⟩ := ih he'
      exact ⟨.pair inner :: ma, mb, rfl, .pair hk hi ha, hb⟩
    · rcases t with _ | ⟨e, t⟩
      · obtain ⟨ma, mb, rfl, ha, hb⟩ := ih (a := []) he'.symm
        rw [List.append_nil] at ht
        refine ⟨.pair inner :: ma, mb, rfl, ?_, hb⟩
        rw [← ht]
        simpa using Stands.pair hk hi ha
      · obtain ⟨rfl, -⟩ := List.cons.inj he'
        exact absurd (by simp [ht]) (notMem_tokenOf hs hc n)

/-- One step: what is between the two parentheses is balanced, and the token that replaces them
stands for the pair. -/
theorem cut (hs : SafeBase g.source.base) (h : g.Stands x ms) (hw : ∀ m ∈ ms, m.Whole)
    {before inner after : Text} (hf : firstGroup x = some (before, inner, after)) {n : Nat}
    (hk : g.body? (tokenOf g.source.base n) = some inner) :
    ∃ mb mi ma, ms = mb ++ .char '(' :: (mi ++ .char ')' :: ma) ∧ g.Stands before mb
      ∧ g.Stands inner mi ∧ g.Stands after ma ∧ (∀ m ∈ mb ++ .pair mi :: ma, m.Whole)
      ∧ g.Stands (before ++ tokenOf g.source.base n ++ after) (mb ++ .pair mi :: ma) := by
  obtain ⟨hx, ho, hc⟩ := firstGroup_some hf
  obtain ⟨mb, mr, rfl, hb, hr⟩ := h.split hs (isBaseChar_structure _ (by simp)) hx
  obtain ⟨mi, ma, rfl, hi, ha⟩ := hr.split hs (isBaseChar_structure _ (by simp)) rfl
  have hbal : ∀ m ∈ mi, m.Balanced := by
    intro m hm
    rcases hw m (by simp [hm]) with c | hp
    · refine .char ?_ ?_ <;> rintro rfl
      · exact ho (hi.mem_of_char hm)
      · exact hc (hi.mem_of_char hm)
    · exact .pair hp
  refine ⟨mb, mi, ma, rfl, hb, hi, ha, fun m hm => ?_, ?_⟩
  · rcases List.mem_append.1 hm with hm | hm
    · exact hw m (List.mem_append_left _ hm)
    rcases List.mem_cons.1 hm with rfl | hm
    · exact .pair hbal
    · exact hw m (by simp [hm])
  · rw [List.append_assoc]
    exact hb.append (.pair hk hi ha)

end Stands

/-- What a run of extraction that starts at the marks `ms` ends in: the flat text stands for marks
of the same source, with one more pair for each group, and a group for what is in a pair. No pair is
taken apart on the way. -/
structure EndsIn (g run : Extraction) (ms ns : List Mark) : Prop where
  flat : g.Stands run.flat ns
  source : Mark.sources ns = Mark.sources ms
  whole : ∀ m ∈ ns, m.Whole
  count : Mark.counts ns = Mark.counts ms + run.groups.length
  within : ∀ {inner : List Mark}, Mark.Within inner ms → Mark.Within inner ns
  bodies : ∀ p ∈ run.groups, ∃ inner, g.Stands p.2 inner ∧ Mark.Within inner ns

/-- The step before a run that ends: two parentheses were left for characters until then. -/
theorem EndsIn.cons {g : Extraction} {key inner flat : Text} {groups : List (Text × Text)}
    {source : TokenSource} {mb mi ma ns : List Mark} (hi : g.Stands inner mi)
    (h : g.EndsIn ⟨flat, groups, source⟩ (mb ++ .pair mi :: ma) ns) :
    g.EndsIn ⟨flat, (key, inner) :: groups, source⟩
      (mb ++ .char '(' :: (mi ++ .char ')' :: ma)) ns := by
  have hsrc : Mark.sources (mb ++ .pair mi :: ma)
      = Mark.sources (mb ++ .char '(' :: (mi ++ .char ')' :: ma)) := by simp
  refine ⟨h.flat, h.source.trans hsrc, h.whole, ?_, fun {k} hk => h.within ?_,
    List.forall_mem_cons.2 ⟨⟨mi, hi, h.within ?_⟩, h.bodies⟩⟩
  · have hcount := h.count
    simp only [Mark.counts_append, Mark.counts, Mark.count, List.length_cons] at hcount ⊢
    omega
  · simp only [Mark.within_append, Mark.within_char_cons, Mark.within_pair_cons] at hk ⊢
    tauto
  · exact .here (by simp)

theorem endsIn_extractWithin {g : Extraction} (hs : SafeBase g.source.base) :
    ∀ (n : Nat) {s : TokenSource} {x : Text} {ms : List Mark}, s.base = g.source.base →
      (∀ p ∈ (extractWithin n s x).groups, g.body? p.1 = some p.2) → g.Stands x ms →
      (∀ m ∈ ms, m.Whole) → ∃ ns, g.EndsIn (extractWithin n s x) ms ns
  | 0, s, x, ms, _, _, h, hw => ⟨ms, h, rfl, hw, rfl, id, by simp [extractWithin]⟩
  | n + 1, s, x, ms, hb, hg, h, hw => by
    rcases hf : firstGroup x with _ | ⟨before, inner, after⟩
    · rw [extractWithin_none _ hf]
      exact ⟨ms, h, rfl, hw, rfl, id, by simp⟩
    rw [extractWithin_some n hf] at hg ⊢
    obtain ⟨hk, hg⟩ := List.forall_mem_cons.1 hg
    unfold token at hk hg ⊢
    rw [hb] at hk hg ⊢
    -- The step makes one pair of the marks, and the rest of the run starts there.
    obtain ⟨mb, mi, ma, rfl, -, hi, -, hw', hcut⟩ := h.cut hs hw hf hk
    obtain ⟨ns, hns⟩ := endsIn_extractWithin hs n (s := s.advance) hb hg hcut hw'
    exact ⟨ns, hns.cons hi⟩

/-- Marks whose text holds no group any more: the closing parentheses come before the opening
ones. -/
theorem Stands.closing_first {g : Extraction} (hs : SafeBase g.source.base) {x : Text}
    {ms : List Mark} (h : g.Stands x ms) (hf : firstGroup x = none) :
    ∃ mp mq, ms = mp ++ mq ∧ .char '(' ∉ mp ∧ .char ')' ∉ mq := by
  rcases firstGroup_none hf with ho | ⟨p, q, rfl, ho, hc⟩
  · exact ⟨ms, [], by simp, fun hm => ho (h.mem_of_char hm), by simp⟩
  · obtain ⟨mp, mq, rfl, hp, hq⟩ := h.split hs (isBaseChar_structure _ (by simp)) rfl
    refine ⟨mp, .char (.char '(') :: mq, rfl, fun hm => ho (hp.mem_of_char hm), fun hm => ?_⟩
    rcases List.mem_cons.1 hm with he | hm
    · cases he
    · exact hc (hq.mem_of_char hm)

theorem Stands.read_sources {g : Extraction} (hs : SafeBase g.source.base) {x : Text}
    {ms : List Mark} (h : g.Stands x ms) (hw : ∀ m ∈ ms, m.Whole) (hf : firstGroup x = none) :
    Mark.read (Mark.sources ms) = ms := by
  obtain ⟨mp, mq, rfl, ho, hc⟩ := h.closing_first hs hf
  exact Mark.read_sources hw ho hc

theorem token_of_body? {s : TokenSource} {t key body : Text}
    (h : (extract s t).body? key = some body) : ∃ n, key = tokenOf s.base n := by
  obtain ⟨l, r, hl, -⟩ := List.lookup_eq_some_iff.1 h
  have hmem : key ∈ (extract s t).groups.map (·.1) := by simp [hl]
  rw [keys_extract] at hmem
  obtain ⟨n, -, rfl⟩ := List.mem_map.1 hmem
  exact ⟨n, rfl⟩

/-- What is known of an extraction of `t`: its flat text stands for the marks of `t`, and a group
for the inside of a pair of them, its keys are tokens, and tokens can be told from the rest of
`t`. -/
structure Reads (g : Extraction) (t : Text) : Prop where
  safe : SafeBase g.source.base
  fresh : ¬ g.source.base <:+: t
  keys : ∀ {key body : Text}, g.body? key = some body → ∃ n, key = tokenOf g.source.base n
  flat : g.Stands g.flat (Mark.read t)
  whole : ∀ m ∈ Mark.read t, m.Whole
  count : Mark.counts (Mark.read t) = g.groups.length
  bodies : ∀ p ∈ g.groups, ∃ inner, g.Stands p.2 inner ∧ Mark.Within inner (Mark.read t)

/-- The run ends in marks that are read back from their source, which is still `t`. -/
theorem reads_extract {s : TokenSource} {t : Text} (h : s.FitFor t) : (extract s t).Reads t := by
  have hb : (extract s t).source.base = s.base := source_extractWithin _ s t
  have hs : SafeBase (extract s t).source.base := hb ▸ h.safe
  obtain ⟨ns, hns⟩ := endsIn_extractWithin hs t.length hb.symm
    (fun p hp => body?_of_mem hp) (Stands.of_text _ t) (Mark.whole_of_text t)
  have hread := hns.flat.read_sources hs hns.whole (flat_extract h.safe)
  rw [hns.source, Mark.sources_map_char] at hread
  subst hread
  refine ⟨hs, hb ▸ h.fresh, fun hk => hb ▸ token_of_body? hk, hns.flat, hns.whole, ?_,
    hns.bodies⟩
  rw [hns.count, Mark.counts_map_char, Nat.zero_add, extract]

/-- Inside of a pair no parenthesis is left over, whatever is left over around it. -/
theorem whole_read (t : Text) : ∀ m ∈ Mark.read t, m.Whole := by
  obtain ⟨source, hfit⟩ := exists_fitFor t
  exact (reads_extract hfit).whole

theorem Reads.depth_le {g : Extraction} {t : Text} (h : g.Reads t) :
    Mark.depths (Mark.read t) ≤ g.groups.length :=
  h.count ▸ Mark.depths_le_counts _

end Extraction

end Shorthand
