import Shorthand.Proofs.FlatParse

/-!
# How long extraction runs and how deep calls nest

Extraction is a loop that stops by itself, after one step for each pair of the text (`CutLoop`).
Restoring and parsing call themselves for the bodies of groups, which a map holds (`RestoreCalls`,
`ParseCalls`). Nothing in the map itself keeps a body from mentioning its own token; but a body
stands for the inside of a pair, so that calls are nested as the pairs of the text are
(`GoesInside.nests`).
-/

namespace Shorthand

open TokenSource

/-! ### The loop -/

/-- A run of the loop of extraction with its number of steps: it goes on as long as there is a group
to cut out. -/
inductive CutLoop : TokenSource → Text → Nat → Extraction → Prop
  | stop {s : TokenSource} {t : Text} : firstGroup t = none → CutLoop s t 0 ⟨t, [], s⟩
  | step {s : TokenSource} {t before inner after : Text} {n : Nat} {rest : Extraction} :
      firstGroup t = some (before, inner, after) →
      CutLoop s.advance (before ++ s.token ++ after) n rest →
      CutLoop s t (n + 1) { rest with groups := (s.token, inner) :: rest.groups }

namespace CutLoop

variable {s : TokenSource} {t : Text} {m n : Nat} {g g' : Extraction}

/-- The loop goes in one way only. -/
theorem unique (h : CutLoop s t m g) (h' : CutLoop s t n g') : n = m ∧ g' = g := by
  induction h generalizing n g' with
  | stop hnone =>
    cases h' with
    | stop => exact ⟨rfl, rfl⟩
    | step hsome =>
      rw [hnone] at hsome
      cases hsome
  | step hsome _ ih =>
    cases h' with
    | stop hnone =>
      rw [hnone] at hsome
      cases hsome
    | step hsome' hrest =>
      rw [hsome] at hsome'
      cases hsome'
      obtain ⟨rfl, rfl⟩ := ih hrest
      exact ⟨rfl, rfl⟩

/-- Extraction is a whole run of the loop if it leaves no group. -/
theorem of_extractWithin : ∀ (n : Nat) {s : TokenSource} {t : Text},
    firstGroup (extractWithin n s t).flat = none →
      CutLoop s t (extractWithin n s t).groups.length (extractWithin n s t)
  | 0, _, _, h => .stop h
  | n + 1, s, t, h => by
    rcases hfirst : firstGroup t with _ | ⟨before, inner, after⟩
    · rw [extractWithin_none _ hfirst]
      exact .stop hfirst
    · rw [extractWithin_some n hfirst] at h ⊢
      exact .step hfirst (of_extractWithin n h)

end CutLoop

/-! ### Calls -/

/-- From `x` on, calls are nested through at most so many levels, the first call included. -/
def Nests {α : Type} (calls : α → α → Prop) : Nat → α → Prop
  | 0, _ => False
  | n + 1, x => ∀ y, calls x y → Nests calls n y

theorem isSome_mapM {α β : Type} {f : α → Option β} (l : List α) :
    (l.mapM f).isSome ↔ ∀ a ∈ l, (f a).isSome := by
  induction l with
  | nil => simp
  | cons a l ih =>
    rw [List.mapM_cons, List.forall_mem_cons, ← ih]
    rcases f a with _ | b
    · simp
    · rcases l.mapM f with _ | bs <;> simp

/-- Two computations with fuel that come to the same end. -/
def Agrees {α : Type} (a b : ExceptT Rejection Option α) : Prop :=
  ∃ r, a.run = some r ∧ b.run = some r

namespace Agrees

variable {α β : Type} {a b : ExceptT Rejection Option α}

theorem pure (x : α) : Agrees (Pure.pure x) (Pure.pure x) :=
  ⟨.ok x, rfl, rfl⟩

theorem run_bind_error {k : α → ExceptT Rejection Option β} {e : Rejection}
    (h : a.run = some (.error e)) : (a >>= k).run = some (.error e) := by
  rw [ExceptT.run_bind, h]
  rfl

theorem run_bind_ok {k : α → ExceptT Rejection Option β} {x : α} (h : a.run = some (.ok x)) :
    (a >>= k).run = (k x).run := by
  rw [ExceptT.run_bind, h]
  rfl

theorem bind {k l : α → ExceptT Rejection Option β} (h : Agrees a b)
    (hk : ∀ x, a.run = some (.ok x) → Agrees (k x) (l x)) : Agrees (a >>= k) (b >>= l) := by
  obtain ⟨e | x, ha, hb⟩ := h
  · exact ⟨.error e, run_bind_error ha, run_bind_error hb⟩
  · obtain ⟨r, hr, hr'⟩ := hk x ha
    exact ⟨r, (run_bind_ok ha).trans hr, (run_bind_ok hb).trans hr'⟩

theorem map {f : α → β} (h : Agrees a b) : Agrees (f <$> a) (f <$> b) := by
  rw [← bind_pure_comp, ← bind_pure_comp]
  exact h.bind fun x _ => pure (f x)

theorem mapM {f f' : β → ExceptT Rejection Option α} : ∀ {l : List β},
    (∀ y ∈ l, Agrees (f y) (f' y)) → Agrees (l.mapM f) (l.mapM f')
  | [], _ => pure []
  | y :: l, h => by
    obtain ⟨hy, hl⟩ := List.forall_mem_cons.1 h
    rw [List.mapM_cons, List.mapM_cons]
    exact hy.bind fun x _ => (mapM hl).bind fun xs _ => pure (x :: xs)

end Agrees

namespace Extraction

variable (g : Extraction)

/-- Restoring a text calls restoring for the bodies of the tokens in it. -/
def RestoreCalls (x y : Text) : Prop :=
  ∃ key, .token key ∈ scan g.source.base x ∧ g.body? key = some y

/-- The pieces that parsing a text cuts out of it, at plus signs and then at levels. -/
def siblingsOf (x : Text) : List Text :=
  (x.splitOn (.char '+')).map Text.trim

def levelsOf (x : Text) : List Text :=
  (x.splitOn (.char '>')).map Text.trim

/-- Parsing a text calls parsing for the bodies of the levels that are tokens, unless the text is
rejected before. -/
def ParseCalls (x y : Text) : Prop :=
  ∃ sibling ∈ siblingsOf x, ∃ level ∈ levelsOf sibling, g.body? level = some y

/-- The texts that parsing a text restores, without those of its calls. -/
inductive Restored (x : Text) : Text → Prop
  | whole : Restored x x
  | sibling {y : Text} : y ∈ siblingsOf x → Restored x y
  | level {y z : Text} : y ∈ siblingsOf x → z ∈ levelsOf y → Restored x z

/-- Fuel counts how deep the calls of restoring are nested. -/
theorem isSome_restoreWithin_iff : ∀ (n : Nat) (x : Text),
    (g.restoreWithin n x).isSome ↔ Nests g.RestoreCalls n x
  | 0, x => by simp [restoreWithin, Nests]
  | n + 1, x => by
    rw [restoreWithin, Option.map_eq_map, Option.isSome_map, isSome_mapM, Nests]
    constructor
    · rintro h y ⟨key, hkey, hbody⟩
      have hpiece := h _ hkey
      simp only [hbody, Option.map_eq_map, Option.isSome_map] at hpiece
      exact (isSome_restoreWithin_iff n y).1 hpiece
    · rintro h (c | key) hpiece
      · rfl
      · dsimp only
        rcases hbody : g.body? key with _ | y
        · rfl
        · rw [Option.map_eq_map, Option.isSome_map]
          exact (isSome_restoreWithin_iff n y).2 (h y ⟨key, hpiece, hbody⟩)

theorem eq_of_splitSiblings {e : Option Text} {x : Text} {ys : List Text}
    (h : (splitSiblings e x).mapError g.restoreSegment = .ok ys) : ys = siblingsOf x := by
  unfold splitSiblings at h
  dsimp only at h
  split_ifs at h
  · cases h
  · cases h
    rfl

theorem eq_of_splitLevels {e : Option Text} {x : Text} {ys : List Text}
    (h : (splitLevels e x).mapError g.restoreSegment = .ok ys) : ys = levelsOf x := by
  unfold splitLevels at h
  dsimp only at h
  split_ifs at h
  · cases h
  · cases h
  · cases h
    rfl

/-- Fuel for as many levels as the calls of parsing are nested is enough. -/
theorem agrees_parseWithin (e : Option Text) : ∀ {m n : Nat} {x : Text},
    Nests g.ParseCalls m x → m ≤ n → Agrees (g.parseWithin e m x) (g.parseWithin e n x)
  | 0, _, _, h, _ => h.elim
  | _ + 1, 0, _, _, hle => absurd hle (Nat.not_succ_le_zero _)
  | m + 1, n + 1, x, h, hle => by
    rw [parseWithin, parseWithin]
    refine .bind ⟨_, rfl, rfl⟩ fun ys hys => .mapM fun y hy => ?_
    refine .bind ⟨_, rfl, rfl⟩ fun zs hzs => .bind (.mapM fun z hz => ?_) fun segments _ => .pure _
    rcases hbody : g.body? z with _ | body
    · exact .pure _
    · have hcall : g.ParseCalls x body := by
        obtain rfl := g.eq_of_splitSiblings (Option.some.inj hys)
        obtain rfl := g.eq_of_splitLevels (Option.some.inj hzs)
        exact ⟨y, hy, z, hz, hbody⟩
      exact (agrees_parseWithin e (h body hcall) (Nat.le_of_succ_le_succ hle)).map

/-! ### The calls of an extraction -/

variable {g} {t x y : Text} {ms : List Mark}

/-- A piece of a text that is read for restoring stands for a mark. -/
inductive StandsFor (g : Extraction) : Piece → Mark → Prop
  | char (c : CodePoint) : StandsFor g (.char c) (.char c)
  | token {key body : Text} {inner : List Mark} :
      g.body? key = some body → g.Stands body inner → StandsFor g (.token key) (.pair inner)

/-- Scanning finds the tokens that stand for pairs, and no other. -/
theorem Reads.scan_stands (h : g.Reads t) (hx : g.Stands x ms) (hp : Mark.PartOf t ms) :
    List.Forall₂ g.StandsFor (scan g.source.base x) ms := by
  induction hx with
  | nil => exact .nil
  | char c hx ih =>
    rw [scan_char (hx.not_starts h.safe fun hi => h.fresh (hi.trans hp.source))]
    exact .cons (.char c) (ih (hp.sub (List.suffix_cons _ _).isInfix))
  | pair hk hi _ _ ih =>
    rw [scan_token]
    exact .cons (.token hk hi) (ih (hp.sub (List.suffix_cons _ _).isInfix))

/-- Calls that only go from a text to the inside of one of the pairs that it stands for. -/
def GoesInside (g : Extraction) (t : Text) (calls : Text → Text → Prop) : Prop :=
  ∀ x y ms, g.Stands x ms → Mark.PartOf t ms → calls x y →
    ∃ inner, .pair inner ∈ ms ∧ g.Stands y inner

/-- Such calls are nested as the pairs are. -/
theorem GoesInside.nests {calls : Text → Text → Prop} (h : g.GoesInside t calls) :
    ∀ {n : Nat} {x : Text} {ms : List Mark}, g.Stands x ms → Mark.PartOf t ms →
      Mark.depths ms < n → Nests calls n x
  | 0, _, _, _, _, hn => absurd hn (Nat.not_lt_zero _)
  | _ + 1, _, _, hx, hp, hn => fun y hcall => by
    obtain ⟨inner, hm, hy⟩ := h _ _ _ hx hp hcall
    refine h.nests hy (hp.within (.here hm)) ?_
    exact (Mark.depths_lt_of_mem hm).trans_le (Nat.le_of_lt_succ hn)

theorem Reads.restoreCalls_inside (h : g.Reads t) : g.GoesInside t g.RestoreCalls := by
  rintro x y ms hx hp ⟨key, hkey, hbody⟩
  obtain ⟨m, hm, hstands⟩ := exists_of_mem_forall₂ (h.scan_stands hx hp) hkey
  cases hstands with
  | @token _ body inner hk hi =>
    cases hk.symm.trans hbody
    exact ⟨inner, hm, hi⟩

theorem Reads.restoreCalls_of_pair (h : g.Reads t) (hx : g.Stands x ms) (hp : Mark.PartOf t ms)
    {inner : List Mark} (hm : .pair inner ∈ ms) :
    ∃ y, g.RestoreCalls x y ∧ g.Stands y inner := by
  obtain ⟨piece, hpiece, hstands⟩ := exists_of_mem_forall₂ (h.scan_stands hx hp).flip hm
  cases hstands with
  | @token key body _ hk hi => exact ⟨body, ⟨key, hpiece, hk⟩, hi⟩

/-- Restoring goes inside of every pair, so that its calls are nested just as deep. -/
theorem Reads.nests_restoreCalls_iff (h : g.Reads t) : ∀ (n : Nat) {x : Text} {ms : List Mark},
    g.Stands x ms → Mark.PartOf t ms → (Nests g.RestoreCalls n x ↔ Mark.depths ms < n)
  | 0, _, _, _, _ => iff_of_false id (Nat.not_lt_zero _)
  | n + 1, x, ms, hx, hp => by
    refine ⟨fun hn => Nat.lt_succ_of_le (Mark.depths_le fun m hm => ?_),
      h.restoreCalls_inside.nests hx hp⟩
    rcases m with c | inner
    · exact Nat.zero_le n
    · obtain ⟨y, hcall, hy⟩ := h.restoreCalls_of_pair hx hp hm
      exact (h.nests_restoreCalls_iff n hy (hp.within (.here hm))).1 (hn y hcall)

theorem Stands.of_restored (hs : SafeBase g.source.base) (hx : g.Stands x ms)
    (hy : Restored x y) : ∃ ns, ns <:+: ms ∧ g.Stands y ns := by
  rcases hy with _ | hy | ⟨hy, hz⟩
  · exact ⟨ms, List.infix_rfl, hx⟩
  · obtain ⟨ns, hns, hy⟩ := exists_of_mem_forall₂ (hx.siblings hs) hy
    exact ⟨ns, Mark.infix_of_mem_siblings hns, hy⟩
  · obtain ⟨ns, hns, hy⟩ := exists_of_mem_forall₂ (hx.siblings hs) hy
    obtain ⟨ls, hls, hz⟩ := exists_of_mem_forall₂ (hy.levels hs) hz
    exact ⟨ls, (Mark.infix_of_mem_levels hls).trans (Mark.infix_of_mem_siblings hns), hz⟩

theorem Reads.parseCalls_inside (h : g.Reads t) : g.GoesInside t g.ParseCalls := by
  rintro x y ms hx hp ⟨sibling, hsibling, level, hlevel, hbody⟩
  obtain ⟨ns, hns, hstands⟩ := hx.of_restored h.safe (.level hsibling hlevel)
  obtain ⟨inner, rfl⟩ := h.pair_of_body hstands (hp.sub hns) hbody
  obtain ⟨body, hbody', hinner⟩ := hstands.body_of_pair
  cases hbody'.symm.trans hbody
  exact ⟨inner, hns.subset List.mem_cons_self, hinner⟩

/-- From a text on, the calls of parsing are nested through at most `depth` levels, and so are those
of restoring it and the pieces that parsing restores; no fuel beyond that changes a result. -/
structure CallsEnd (g : Extraction) (depth : Nat) (x : Text) : Prop where
  restore_nests : ∀ y, Restored x y → Nests g.RestoreCalls depth y
  restore_ends : ∀ y, Restored x y → ∀ n, depth ≤ n → g.restoreWithin n y = some (g.restore y)
  parse_nests : Nests g.ParseCalls depth x
  parse_ends : ∀ e n, depth ≤ n → (g.parseWithin e n x).run = some (g.parse e x)

theorem Reads.restoreWithin_eq (h : g.Reads t) (hx : g.Stands x ms) (hp : Mark.PartOf t ms)
    {n : Nat} (hn : Mark.depths ms < n) : g.restoreWithin n x = some (g.restore x) := by
  obtain ⟨n, rfl⟩ := Nat.exists_eq_succ_of_ne_zero (Nat.ne_zero_of_lt hn)
  rw [h.restore hx hp]
  exact restoreWithin_stands h.safe hx (fun hi => h.fresh (hi.trans hp.source))
    (Nat.le_of_lt_succ hn)

theorem Reads.callsEnd (h : g.Reads t) (hx : g.Stands x ms) (hp : Mark.PartOf t ms) :
    g.CallsEnd (1 + Mark.depths (Mark.read t)) x where
  restore_nests y hy := by
    obtain ⟨ns, hns, hy⟩ := hx.of_restored h.safe hy
    have hp := hp.sub hns
    exact h.restoreCalls_inside.nests hy hp (Nat.lt_one_add_iff.2 hp.depth)
  restore_ends y hy n hn := by
    obtain ⟨ns, hns, hy⟩ := hx.of_restored h.safe hy
    have hp := hp.sub hns
    exact h.restoreWithin_eq hy hp ((Nat.lt_one_add_iff.2 hp.depth).trans_le hn)
  parse_nests := h.parseCalls_inside.nests hx hp (Nat.lt_one_add_iff.2 hp.depth)
  parse_ends e n hn := by
    have hnests := h.parseCalls_inside.nests hx hp (Nat.lt_one_add_iff.2 hp.depth)
    -- The parser itself takes as much fuel as there are groups, and one more.
    obtain ⟨r, hr, hrun⟩ := g.agrees_parseWithin e hnests hn
    have hlength : 1 + Mark.depths (Mark.read t) ≤ g.groups.length + 1 := by
      rw [Nat.add_comm]
      exact Nat.add_le_add_right h.depth_le 1
    obtain ⟨r', hr', hparse⟩ := g.agrees_parseWithin e hnests hlength
    cases hr.symm.trans hr'
    rw [hrun, parse, hparse, Option.getD_some]

/-- The loop of extraction stops after one step for each pair of the text. From the flat text and
from the bodies of groups, the calls of restoring and those of parsing are nested through at most
one level more than the pairs are, and restoring the flat text takes just so many. -/
theorem calls_extract {t base : Text} (h : isSafeBase base = true) :
    ∃ source, forText t (some base) = .ok source
      ∧ CutLoop source t (Mark.counts (Mark.read t)) (extract source t)
      ∧ (∀ n g, CutLoop source t n g → n = Mark.counts (Mark.read t) ∧ g = extract source t)
      ∧ (∀ n, ((extract source t).restoreWithin n (extract source t).flat).isSome ↔
          1 + Mark.depths (Mark.read t) ≤ n)
      ∧ ∀ x, (x = (extract source t).flat ∨ x ∈ (extract source t).groups.map (·.2)) →
          (extract source t).CallsEnd (1 + Mark.depths (Mark.read t)) x := by
  obtain ⟨source, hok, hfit⟩ := forText_some (t := t) h
  have hreads := reads_extract hfit
  have hloop := CutLoop.of_extractWithin t.length (flat_extract hfit.safe)
  rw [← extract, ← hreads.count] at hloop
  refine ⟨source, hok, hloop, fun n g hg => hloop.unique hg, fun n => ?_, fun x hx => ?_⟩
  · rw [isSome_restoreWithin_iff,
      hreads.nests_restoreCalls_iff n hreads.flat (Mark.partOf_read t), Nat.one_add_le_iff]
  · rcases hx with rfl | hx
    · exact hreads.callsEnd hreads.flat (Mark.partOf_read t)
    · obtain ⟨p, hp, rfl⟩ := List.mem_map.1 hx
      obtain ⟨inner, hinner, hwithin⟩ := hreads.bodies p hp
      exact hreads.callsEnd hinner ((Mark.partOf_read t).within hwithin)

theorem calls_extract_of_lookalike : isSafeBase "a1_b" = true ∧
    ∃ source, forText "a1_(a1_b0_>(x)+b7_)" (some "a1_b") = .ok source
      ∧ CutLoop source "a1_(a1_b0_>(x)+b7_)" 2 (extract source "a1_(a1_b0_>(x)+b7_)")
      ∧ ∀ x, (x = (extract source "a1_(a1_b0_>(x)+b7_)").flat
            ∨ x ∈ (extract source "a1_(a1_b0_>(x)+b7_)").groups.map (·.2)) →
          (extract source "a1_(a1_b0_>(x)+b7_)").CallsEnd 3 x := by
  have hcounts : Mark.counts (Mark.read "a1_(a1_b0_>(x)+b7_)") = 2 := by decide +kernel
  have hdepths : 1 + Mark.depths (Mark.read "a1_(a1_b0_>(x)+b7_)") = 3 := by decide +kernel
  have hsafe : isSafeBase "a1_b" = true := by decide +kernel
  obtain ⟨source, hok, hloop, -, -, hends⟩ := calls_extract (t := "a1_(a1_b0_>(x)+b7_)") hsafe
  rw [hcounts] at hloop
  rw [hdepths] at hends
  exact ⟨hsafe, source, hok, hloop, hends⟩

end Extraction

end Shorthand
