import Shorthand.Proofs.Extraction

/-!
# Restoring undoes extraction

Restoring a text gives the source of the marks that it stands for (`restore_stands`): scanning
finds a token wherever one was put, and no other, because the base does not occur in the source and
cannot begin in it and reach into a token without overlapping itself.
-/

namespace Shorthand

open TokenSource

namespace Extraction

variable {base : Text}

/-! ### Scanning -/

theorem tokenAt_eq_none {t : Text} (h : ¬ base <+: t) : tokenAt base t = none := by
  rw [← List.isPrefixOf_iff_prefix] at h
  simp [tokenAt, h]

theorem tokenAt_tokenOf (n : Nat) (x : Text) :
    tokenAt base (tokenOf base n ++ x) = some (tokenOf base n) := by
  have hp : base.isPrefixOf (tokenOf base n ++ x) = true := by
    simp [tokenOf, List.append_assoc]
  have hr : (tokenOf base n ++ x).drop base.length = Text.decimal n ++ "_" ++ x := by
    simp only [tokenOf, List.append_assoc, List.drop_left]
  have hd : (Text.decimal n ++ "_" ++ x).drop (Text.decimal n).length = .char '_' :: x := by
    rw [List.append_assoc, List.drop_left]
    rfl
  unfold tokenAt
  rw [if_pos hp, hr]
  simp only [takeWhile_decimal, hd]
  rw [if_pos (by simp [Text.decimal_ne_nil, Text.startsWith])]
  rfl

theorem scanFrom_length : ∀ l x : Text, scanFrom base l.length (l ++ x) = scan base x
  | [], x => rfl
  | c :: l, x => by
    rw [List.length_cons, List.cons_append, scanFrom]
    exact scanFrom_length l x

theorem scan_char {c : CodePoint} {x : Text} (h : ¬ base <+: c :: x) :
    scan base (c :: x) = .char c :: scan base x := by
  rw [scan, scanFrom, tokenAt_eq_none h]
  rfl

theorem scan_token (n : Nat) (x : Text) :
    scan base (tokenOf base n ++ x) = .token (tokenOf base n) :: scan base x := by
  have ht : tokenAt base (tokenOf base n ++ x) = some (tokenOf base n) := tokenAt_tokenOf n x
  rcases h : tokenOf base n with _ | ⟨c, l⟩
  · exact absurd h (tokenOf_ne_nil n)
  rw [h, List.cons_append] at ht
  rw [List.cons_append, scan, scanFrom, ht]
  simp only [List.length_cons, Nat.add_sub_cancel, scanFrom_length]

/-! ### Restoring -/

variable {g : Extraction}

theorem restoreWithin_nil (n : Nat) : g.restoreWithin (n + 1) [] = some [] := rfl

theorem restoreWithin_char {c : CodePoint} {x : Text} (n : Nat)
    (h : ¬ g.source.base <+: c :: x) :
    g.restoreWithin (n + 1) (c :: x) = (c :: ·) <$> g.restoreWithin (n + 1) x := by
  rw [restoreWithin, restoreWithin, scan_char h, List.mapM_cons]
  generalize List.mapM (m := Option) _ (scan g.source.base x) = rest
  cases rest <;> rfl

theorem restoreWithin_token {k n : Nat} {body x : Text}
    (h : g.body? (tokenOf g.source.base k) = some body) :
    g.restoreWithin (n + 1) (tokenOf g.source.base k ++ x) =
      (g.restoreWithin n body).bind fun b =>
        (("(" ++ b ++ ")") ++ ·) <$> g.restoreWithin (n + 1) x := by
  rw [restoreWithin, restoreWithin, scan_token, List.mapM_cons]
  generalize List.mapM (m := Option) _ (scan g.source.base x) = rest
  simp only [h]
  cases g.restoreWithin n body <;> cases rest <;> rfl

namespace Stands

variable {x : Text} {ms : List Mark}

/-- An end of the base that the text starts with cannot reach into a token: it would be a start of
the base. -/
theorem prefix_sources (hs : SafeBase g.source.base) (h : g.Stands x ms) :
    ∀ {e : Text}, e <:+ g.source.base → e ≠ g.source.base → e <+: x → e <+: Mark.sources ms := by
  induction h with
  | nil => exact fun _ _ hx => hx
  | @char c x ms _ ih =>
    intro e he hne hx
    rcases e with _ | ⟨d, e⟩
    · exact List.nil_prefix
    obtain ⟨rfl, hx'⟩ := List.cons_prefix_cons.1 hx
    have he' : e <:+ g.source.base := (List.suffix_cons d e).trans he
    have hne' : e ≠ g.source.base := by
      rintro rfl
      have hle := he.length_le
      simp only [List.length_cons] at hle
      omega
    simpa using ih he' hne' hx'
  | @pair n body x inner ms _ _ _ _ _ =>
    intro e he hne hx
    have hb : g.source.base <+: tokenOf g.source.base n ++ x := by
      simp [tokenOf, List.append_assoc]
    have hp := List.prefix_of_prefix_length_le hx hb he.length_le
    rcases hs.borderless e he hp with rfl | rfl
    · exact List.nil_prefix
    · exact absurd rfl hne

/-- No token starts at a character of the source. -/
theorem not_starts (hs : SafeBase g.source.base) (h : g.Stands x ms) {c : CodePoint}
    (hf : ¬ g.source.base <:+: c :: Mark.sources ms) : ¬ g.source.base <+: c :: x := by
  intro hp
  obtain ⟨d, e, he, -⟩ := hs.starts
  rw [he] at hp
  obtain ⟨rfl, hx⟩ := List.cons_prefix_cons.1 hp
  have hsrc : e <+: Mark.sources ms :=
    h.prefix_sources hs (he ▸ List.suffix_cons d e) (by simp [he]) hx
  apply hf
  rw [he]
  exact (List.cons_prefix_cons.2 ⟨rfl, hsrc⟩).isInfix

end Stands

theorem restoreWithin_stands (hs : SafeBase g.source.base) {x : Text} {ms : List Mark}
    (h : g.Stands x ms) (hf : ¬ g.source.base <:+: Mark.sources ms) :
    ∀ {n : Nat}, Mark.depths ms ≤ n → g.restoreWithin (n + 1) x = some (Mark.sources ms) := by
  induction h with
  | nil => exact fun _ => restoreWithin_nil _
  | @char c x ms hx ih =>
    intro n hn
    have hf' : ¬ g.source.base <:+: Mark.sources ms :=
      fun hi => hf (hi.trans (List.suffix_cons c _).isInfix)
    rw [restoreWithin_char n (hx.not_starts hs hf),
      ih hf' ((Mark.depths_mono (List.subset_cons_self _ _)).trans hn)]
    rfl
  | @pair k body x inner ms hk _ _ ihi ih =>
    intro n hn
    have hinner : Mark.sources inner <:+: Mark.sources (.pair inner :: ms) :=
      ⟨"(", ")" ++ Mark.sources ms, by simp [Text.ofString]⟩
    have hms : Mark.sources ms <:+: Mark.sources (.pair inner :: ms) :=
      (List.suffix_append _ _).isInfix
    have hlt : Mark.depths inner < n :=
      (Mark.depths_lt_of_mem List.mem_cons_self).trans_le hn
    obtain ⟨m, rfl⟩ : ∃ m, n = m + 1 := ⟨n - 1, by omega⟩
    rw [restoreWithin_token hk, ihi (fun hi => hf (hi.trans hinner)) (by omega),
      ih (fun hi => hf (hi.trans hms))
        ((Mark.depths_mono (List.subset_cons_self _ _)).trans hn)]
    simp [Text.ofString]

theorem restore_stands (hs : SafeBase g.source.base) {x : Text} {ms : List Mark}
    (h : g.Stands x ms) (hf : ¬ g.source.base <:+: Mark.sources ms)
    (hd : Mark.depths ms ≤ g.groups.length) : g.restore x = Mark.sources ms := by
  rw [restore, restoreWithin_stands hs h hf hd]
  rfl

theorem Reads.restore {t x : Text} {ms : List Mark} (h : g.Reads t) (hx : g.Stands x ms)
    (hp : Mark.PartOf t ms) : g.restore x = Mark.sources ms :=
  restore_stands h.safe hx (fun hi => h.fresh (hi.trans hp.source)) (hp.depth.trans h.depth_le)

theorem Reads.restore_flat {t : Text} (h : g.Reads t) : g.restore g.flat = t := by
  rw [h.restore h.flat (Mark.partOf_read t), Mark.sources_read]

/-! ### Cuts -/

/-- A group is cut out of a text: what is before, in and after its parentheses. -/
structure Cut where
  before : Text
  inner : Text
  after : Text

/-- The cuts of a run of extraction, each of the text that the cuts before it have left. -/
def cutsWithin : Nat → TokenSource → Text → List Cut
  | 0, _, _ => []
  | n + 1, s, t =>
    match firstGroup t with
    | none => []
    | some (before, inner, after) =>
      ⟨before, inner, after⟩ :: cutsWithin n s.advance (before ++ s.token ++ after)

def cuts (s : TokenSource) (t : Text) : List Cut :=
  cutsWithin t.length s t

theorem cutsWithin_none {s : TokenSource} {t : Text} (n : Nat) (h : firstGroup t = none) :
    cutsWithin n s t = [] := by
  cases n with
  | zero => rfl
  | succ n => rw [cutsWithin, h]

/-- A group holds the text of a cut, and restored it is in `t` where the cut was made. -/
def CutFrom (g : Extraction) (t : Text) (group : Text × Text) (cut : Cut) : Prop :=
  group.2 = cut.inner
    ∧ t = g.restore cut.before ++ ("(" ++ g.restore group.2 ++ ")") ++ g.restore cut.after

theorem Stands.cutFrom (hs : SafeBase g.source.base) {before inner after : Text}
    {mb mi ma : List Mark} (hb : g.Stands before mb) (hi : g.Stands inner mi)
    (ha : g.Stands after ma)
    (hf : ¬ g.source.base <:+: Mark.sources (mb ++ .char '(' :: (mi ++ .char ')' :: ma)))
    (hd : Mark.counts (mb ++ .char '(' :: (mi ++ .char ')' :: ma)) ≤ g.groups.length)
    (key : Text) :
    g.CutFrom (Mark.sources (mb ++ .char '(' :: (mi ++ .char ')' :: ma))) (key, inner)
      ⟨before, inner, after⟩ := by
  have hsrc : Mark.sources (mb ++ .char '(' :: (mi ++ .char ')' :: ma))
      = Mark.sources mb ++ ("(" ++ Mark.sources mi ++ ")") ++ Mark.sources ma := by
    simp [Text.ofString]
  rw [hsrc] at hf ⊢
  simp only [Mark.counts_append, Mark.counts, Mark.count] at hd
  have hdb := Mark.depths_le_counts mb
  have hdi := Mark.depths_le_counts mi
  have hda := Mark.depths_le_counts ma
  have hrb := restore_stands hs hb (fun h => hf (h.trans ?_)) (by omega)
  have hri := restore_stands hs hi (fun h => hf (h.trans ?_)) (by omega)
  have hra := restore_stands hs ha (fun h => hf (h.trans ?_)) (by omega)
  · exact ⟨rfl, by rw [hrb, hri, hra]⟩
  · exact (List.suffix_append _ _).isInfix
  · exact ⟨Mark.sources mb ++ "(", ")" ++ Mark.sources ma, by simp⟩
  · rw [List.append_assoc]
    exact (List.prefix_append _ _).isInfix

/-- Along a run every text stands for the same source, so that every cut can be found in it. -/
theorem cutFrom_cutsWithin (hs : SafeBase g.source.base) :
    ∀ (n : Nat) {s : TokenSource} {x : Text} {ms : List Mark}, s.base = g.source.base →
      (∀ p ∈ (extractWithin n s x).groups, g.body? p.1 = some p.2) → g.Stands x ms →
      (∀ m ∈ ms, m.Whole) → ¬ g.source.base <:+: Mark.sources ms →
      Mark.counts ms + (extractWithin n s x).groups.length ≤ g.groups.length →
      List.Forall₂ (g.CutFrom (Mark.sources ms)) (extractWithin n s x).groups (cutsWithin n s x)
  | 0, _, _, _, _, _, _, _, _, _ => .nil
  | n + 1, s, x, ms, hb, hg, h, hw, hf, hd => by
    rcases hfg : firstGroup x with _ | ⟨before, inner, after⟩
    · rw [extractWithin_none _ hfg, cutsWithin_none _ hfg]
      exact .nil
    rw [extractWithin_some n hfg] at hg hd ⊢
    rw [cutsWithin, hfg]
    obtain ⟨hk, hg⟩ := List.forall_mem_cons.1 hg
    unfold token at hk hg hd ⊢
    rw [hb] at hk hg hd ⊢
    obtain ⟨mb, mi, ma, rfl, hbm, him, ham, hw', hcut⟩ := h.cut hs hw hfg hk
    refine .cons (hbm.cutFrom hs him ham hf (by simp only [List.length_cons] at hd; omega) _) ?_
    have hsrc : Mark.sources (mb ++ .char '(' :: (mi ++ .char ')' :: ma))
        = Mark.sources (mb ++ .pair mi :: ma) := by simp
    rw [hsrc] at hf ⊢
    refine cutFrom_cutsWithin hs n (s := s.advance) hb hg hcut hw' hf ?_
    simp only [Mark.counts_append, Mark.counts, Mark.count, List.length_cons] at hd ⊢
    omega

theorem cutFrom_cuts {s : TokenSource} {t : Text} (h : s.FitFor t) :
    List.Forall₂ ((extract s t).CutFrom t) (extract s t).groups (cuts s t) := by
  have hb : (extract s t).source.base = s.base := source_extractWithin _ s t
  have hcuts := cutFrom_cutsWithin (hb ▸ h.safe) t.length hb.symm
    (fun p hp => body?_of_mem hp) (Stands.of_text _ t) (Mark.whole_of_text t)
    (by rw [hb, Mark.sources_map_char]; exact h.fresh)
    (by rw [Mark.counts_map_char, Nat.zero_add, extract])
  rwa [Mark.sources_map_char] at hcuts

/-- Restoring the flat text gives the source back, and every group is, in its parentheses, the part
of the source that it was cut from, however many tokens were drawn before. -/
theorem restore_extract {t base : Text} (h : isSafeBase base = true) (drawn : Nat) :
    ∃ source, forText t (some base) = .ok source
      ∧ (extract (advance^[drawn] source) t).restore (extract (advance^[drawn] source) t).flat = t
      ∧ List.Forall₂ ((extract (advance^[drawn] source) t).CutFrom t)
          (extract (advance^[drawn] source) t).groups (cuts (advance^[drawn] source) t) := by
  obtain ⟨source, hok, hfit⟩ := forText_some (t := t) h
  have hfit := hfit.iterate_advance drawn
  exact ⟨source, hok, (reads_extract hfit).restore_flat, cutFrom_cuts hfit⟩

theorem restore_extract_of_lookalike : isSafeBase "a1_b" = true ∧
    ∃ source, forText "a1_(a1_b0_ (x)b7_)" (some "a1_b") = .ok source
      ∧ (extract (advance^[2] source) "a1_(a1_b0_ (x)b7_)").restore
          (extract (advance^[2] source) "a1_(a1_b0_ (x)b7_)").flat = "a1_(a1_b0_ (x)b7_)"
      ∧ List.Forall₂ ((extract (advance^[2] source) "a1_(a1_b0_ (x)b7_)").CutFrom
            "a1_(a1_b0_ (x)b7_)")
          (extract (advance^[2] source) "a1_(a1_b0_ (x)b7_)").groups
          (cuts (advance^[2] source) "a1_(a1_b0_ (x)b7_)") :=
  ⟨by decide +kernel, restore_extract (by decide +kernel) 2⟩

end Extraction

end Shorthand
