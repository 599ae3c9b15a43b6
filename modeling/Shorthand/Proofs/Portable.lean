import Mathlib.Data.List.SplitBy
import Mathlib.Data.List.TakeWhile
import Shorthand.Json.Printer
import Shorthand.Proofs.OneLine
import Shorthand.Yaml.Printer

/-!
# Data that can be delivered

A text with no half of a surrogate pair and no escape character can be written to a file and to a
terminal as it is (`Portable.toUtf8`, `Portable.withoutSequences`). YAML escapes both, so that all
data can be written (`portable_toYaml`); JSON escapes control characters only, so that its texts
must be made of characters (`Data.HalfFree.portable_toJson`).
-/

namespace Shorthand

namespace Text

/-- A text of characters, with no half of a surrogate pair in it. -/
def HalfFree (t : Text) : Prop :=
  ∀ c ∈ t, c.isHalf = false

instance (t : Text) : Decidable t.HalfFree :=
  inferInstanceAs (Decidable (∀ c ∈ t, c.isHalf = false))

/-- A text that can be encoded, and in which no control sequence of a terminal can begin. -/
def Portable (t : Text) : Prop :=
  ∀ c ∈ t, c.isHalf = false ∧ c ≠ '\x1b'

instance (t : Text) : Decidable t.Portable :=
  inferInstanceAs (Decidable (∀ c ∈ t, c.isHalf = false ∧ c ≠ '\x1b'))

/-- Ranges that are apart from the surrogates have no half of a pair in them. -/
theorem not_isHalf {ranges : List (Nat × Nat)} {c : CodePoint} (h : within ranges c = true)
    (hd : [(0xD800, 0xDFFF)].all (fun (a, b) => ranges.all fun (x, y) => b < x || y < a) = true) :
    c.isHalf = false := by
  rcases c with c | n
  · rfl
  · have hhalf : within [(0xD800, 0xDFFF)] (.half n) = true :=
      within_of_mem (List.mem_singleton_self _) (Nat.le_add_right _ _)
        (Nat.add_le_add_left (Nat.le_of_lt_succ n.isLt) _)
    exact absurd ((within_eq_false hd h).symm.trans hhalf) (by decide)

/-- The escape character is not printable, and no half of a pair is. -/
theorem Printable.portable {t : Text} (h : t.Printable) : t.Portable := by
  intro c hc
  refine ⟨not_isHalf (h c hc) (by decide +kernel), ?_⟩
  rintro rfl
  exact h.notMem_escape hc

theorem HalfFree.append {t u : Text} (ht : t.HalfFree) (hu : u.HalfFree) : (t ++ u).HalfFree :=
  List.forall_mem_append.2 ⟨ht, hu⟩

theorem HalfFree.toUtf8 {t : Text} (h : t.HalfFree) :
    Text.toUtf8 t = .ok (t.flatMap Utf8.octets) := by
  have hall : t.takeWhile (fun c => !c.isHalf) = t :=
    List.takeWhile_eq_self_iff.2 fun c hc => by simp [h c hc]
  have hnone : Utf8.unwritable? t = none := by
    simp [Utf8.unwritable?, hall]
  rw [Text.toUtf8, hnone]

namespace Portable

variable {t u : Text}

theorem append (ht : t.Portable) (hu : u.Portable) : (t ++ u).Portable :=
  List.forall_mem_append.2 ⟨ht, hu⟩

theorem cons {c : CodePoint} (hc : c.isHalf = false ∧ c ≠ '\x1b') (ht : t.Portable) :
    Portable (c :: t) :=
  List.forall_mem_cons.2 ⟨hc, ht⟩

theorem reverse (ht : t.Portable) : Portable t.reverse := fun c hc =>
  ht c (List.mem_reverse.1 hc)

theorem replicate (n : Nat) : Portable (List.replicate n ' ') := fun c hc => by
  rw [List.eq_of_mem_replicate hc]
  decide

theorem flatMap {α : Type} {f : α → Text} {l : List α} (h : ∀ a ∈ l, (f a).Portable) :
    Portable (l.flatMap f) := by
  intro c hc
  obtain ⟨a, ha, hca⟩ := List.mem_flatMap.1 hc
  exact h a ha c hca

/-- Nothing is left out on a terminal. -/
theorem withoutSequences (h : t.Portable) : Text.withoutSequences t = t :=
  withoutSequences_eq_self fun hm => (h _ hm).2 rfl

theorem halfFree (h : t.Portable) : t.HalfFree := fun c hc => (h c hc).1

/-- The encoding cannot fail. -/
theorem toUtf8 (h : t.Portable) : Text.toUtf8 t = .ok (t.flatMap Utf8.octets) :=
  h.halfFree.toUtf8

end Portable

end Text

/-! ### JSON -/

mutual

/-- All texts of the data, the keys among them, are made of characters. -/
def Data.HalfFree : Data → Prop
  | .null | .bool _ | .number _ => True
  | .text t => t.HalfFree
  | .list ds => itemsHalfFree ds
  | .record es => entriesHalfFree es

def itemsHalfFree : List Data → Prop
  | [] => True
  | d :: ds => d.HalfFree ∧ itemsHalfFree ds

def entriesHalfFree : List (Text × Data) → Prop
  | [] => True
  | (k, d) :: es => k.HalfFree ∧ d.HalfFree ∧ entriesHalfFree es

end

namespace Json

open Text

theorem portable_unitEscape (c : CodePoint) : (unitEscape c).Portable := by
  have hunit (n : Nat) : Portable ("\\u" ++ hex 4 n) :=
    .append (by decide) (printable_hex 4 n).portable
  unfold unitEscape
  dsimp only
  split_ifs
  · exact hunit _
  · rw [List.append_assoc]
    exact (hunit _).append (hunit _)

/-- What is written as it is cannot be an escape character, which is a control character. -/
theorem portable_escape {c : CodePoint} (hc : c.isHalf = false) : (escape false c).Portable := by
  unfold escape
  split_ifs with _ _ _ _ _ _ _ hcontrol
  iterate 7 · decide
  · exact portable_unitEscape c
  · refine List.forall_mem_singleton.2 ⟨hc, ?_⟩
    rintro rfl
    exact hcontrol (by decide)

theorem portable_string {t : Text} (h : t.HalfFree) : (string false t).Portable :=
  .append (.append (by decide) (.flatMap fun c hc => portable_escape (h c hc))) (by decide)

theorem portable_newline (depth : Nat) : (newline depth).Portable :=
  .cons (by decide) (.replicate _)

mutual

/-- Only the texts of the data matter, since what is put between them is ASCII. -/
theorem portable_write : ∀ {d : Data}, d.HalfFree → ∀ depth, (write false depth d).Portable
  | .null, _, _ => (by decide : Portable "null")
  | .bool true, _, _ => (by decide : Portable "true")
  | .bool false, _, _ => (by decide : Portable "false")
  | .number n, _, _ => (printable_decimal n).portable
  | .text _, h, _ => portable_string h
  | .list [], _, _ => (by decide : Portable "[]")
  | .list (d :: ds), ⟨hd, hds⟩, depth => by
    have hopen : Portable ("[" ++ newline (depth + 1)) :=
      .append (by decide) (portable_newline _)
    have hfirst := portable_write hd (depth + 1)
    have hrest := portable_writeItems hds (depth + 1)
    have hclose : Portable (newline depth ++ "]") := (portable_newline _).append (by decide)
    rw [write, List.append_assoc _ (newline depth)]
    exact ((hopen.append hfirst).append hrest).append hclose
  | .record [], _, _ => (by decide : Portable "\x7b\x7d")
  | .record ((k, d) :: es), ⟨hk, hd, hes⟩, depth => by
    have hopen : Portable ("\x7b" ++ newline (depth + 1)) :=
      .append (by decide) (portable_newline _)
    have hname : Portable (string false k ++ ": ") := (portable_string hk).append (by decide)
    have hfirst := portable_write hd (depth + 1)
    have hrest := portable_writeEntries hes (depth + 1)
    have hclose : Portable (newline depth ++ "\x7d") := (portable_newline _).append (by decide)
    rw [write, List.append_assoc _ (newline depth), List.append_assoc _ (string false k)]
    exact (((hopen.append hname).append hfirst).append hrest).append hclose

theorem portable_writeItems : ∀ {ds : List Data}, itemsHalfFree ds → ∀ depth,
    (writeItems false depth ds).Portable
  | [], _, _ => by simp [writeItems, Portable]
  | d :: ds, ⟨hd, hds⟩, depth => by
    have hcomma : Portable ("," ++ newline depth) := .append (by decide) (portable_newline _)
    have hitem := portable_write hd depth
    have hrest := portable_writeItems hds depth
    exact (hcomma.append hitem).append hrest

theorem portable_writeEntries : ∀ {es : List (Text × Data)}, entriesHalfFree es → ∀ depth,
    (writeEntries false depth es).Portable
  | [], _, _ => by simp [writeEntries, Portable]
  | (k, d) :: es, ⟨hk, hd, hes⟩, depth => by
    have hcomma : Portable ("," ++ newline depth) := .append (by decide) (portable_newline _)
    have hname : Portable (string false k ++ ": ") := (portable_string hk).append (by decide)
    have hvalue := portable_write hd depth
    have hrest := portable_writeEntries hes depth
    rw [writeEntries, List.append_assoc _ (string false k)]
    exact ((hcomma.append hname).append hvalue).append hrest

end

end Json

theorem Data.HalfFree.portable_toJson {d : Data} (h : d.HalfFree) : (d.toJson false).Portable :=
  Json.portable_write h 0

/-! ### YAML -/

namespace Yaml

open Text

/-- The characters that are written without an escape, as ranges. -/
def ordinaries : List (Nat × Nat) :=
  [(0x0A, 0x0A), (0x20, 0x7E), (0x85, 0x85), (0xA0, 0xD7FF), (0xE000, 0xFFFD), (0x10000, 0x10FFFF)]

theorem portable_of_within {c : CodePoint} (h : within ordinaries c = true) :
    c.isHalf = false ∧ c ≠ '\x1b' := by
  refine ⟨not_isHalf h (by decide), ?_⟩
  rintro rfl
  exact absurd h (by decide)

/-- The line feed is the only ordinary character before the space. -/
theorem portable_of_isOrdinary {c : CodePoint} (h : isOrdinary c = true) :
    c.isHalf = false ∧ c ≠ '\x1b' := by
  refine portable_of_within ?_
  simp only [isOrdinary, Bool.or_eq_true, Bool.and_eq_true, decide_eq_true_eq, beq_iff_eq] at h
  rcases h with ((((rfl | ⟨h1, h2⟩) | h) | ⟨h1, h2⟩) | ⟨⟨h1, h2⟩, -⟩) | ⟨h1, h2⟩
  · decide
  · exact within_of_mem (by simp [ordinaries]) h1 h2
  · exact within_of_mem (by simp [ordinaries]) h.ge h.le
  · exact within_of_mem (by simp [ordinaries]) h1 h2
  · exact within_of_mem (by simp [ordinaries]) h1 h2
  · exact within_of_mem (by simp [ordinaries]) h1 h2.le

theorem portable_of_needsEscape {c : CodePoint} (h : needsEscape c = false) :
    c.isHalf = false ∧ c ≠ '\x1b' := by
  refine portable_of_within ?_
  simp only [needsEscape, Bool.or_eq_false_iff, Bool.not_eq_false', Bool.or_eq_true,
    Bool.and_eq_true, decide_eq_true_eq] at h
  rcases h.2 with (⟨h1, h2⟩ | ⟨h1, h2⟩) | ⟨h1, h2⟩
  · exact within_of_mem (by simp [ordinaries]) h1 h2
  · exact within_of_mem (by simp [ordinaries]) h1 h2
  · exact within_of_mem (by simp [ordinaries]) h1 h2

/-- Special characters are found one by one, whatever is next to them. -/
theorem special_features : ∀ (t : Text) (previous : Option CodePoint) (found : Features),
    (features previous found t).special = (found.special || t.any (!isOrdinary ·))
  | [], _, _ => by simp [features]
  | c :: r, previous, found => by
    unfold features
    dsimp only
    rw [special_features r, List.any_cons, Bool.or_assoc]

/-- What is not written with escapes has no special characters. -/
theorem portable_of_styleOf {key : Bool} {t : Text} (h : styleOf key t ≠ .double) :
    t.Portable := by
  have hspecial : (featuresOf t).special = false := by
    unfold styleOf at h
    dsimp only at h
    split_ifs at h with hplain hsingle
    · simp only [Features.allowsPlain, Bool.and_eq_true, Bool.not_eq_true'] at hplain
      tauto
    · simp only [Features.allowsSingle, Bool.and_eq_true, Bool.not_eq_true'] at hsingle
      tauto
    · exact absurd rfl h
  rw [featuresOf, special_features, Bool.or_eq_false_iff, List.any_eq_false] at hspecial
  exact fun c hc => portable_of_isOrdinary (by simpa using hspecial.2 c hc)

theorem portable_of_mem_runs {t : Text} (h : t.Portable) : ∀ run ∈ runs t, run.Portable := by
  intro run hrun c hc
  refine h c ?_
  rw [← List.flatten_splitBy (fun a b => classOf a = classOf b) t]
  exact List.mem_flatten.2 ⟨run, hrun, hc⟩

namespace Pen

/-- What the pen has written so far. -/
def Portable (p : Pen) : Prop :=
  Text.Portable p.reversed

variable {p : Pen} {t : Text}

theorem Portable.put (h : p.Portable) (ht : t.Portable) : (p.put t).Portable :=
  Text.Portable.append ht.reverse h

theorem Portable.lineBreak (h : p.Portable) {c : CodePoint} (hc : c.isHalf = false ∧ c ≠ '\x1b') :
    (p.lineBreak c).Portable :=
  Text.Portable.cons hc h

theorem Portable.settled (h : p.Portable) : p.settled.Portable :=
  h

theorem Portable.indentTo (h : p.Portable) (n : Nat) : (p.indentTo n).Portable := by
  have hline : (if p.indenting && (p.column < n || (p.column == n && p.fresh)) then p
      else p.lineBreak '\n').Portable := by
    split_ifs
    · exact h
    · exact h.lineBreak (by decide)
  unfold Pen.indentTo
  dsimp only
  split_ifs at hline ⊢
  all_goals first | exact hline | exact hline.put (.replicate _)

theorem Portable.indicator (h : p.Portable) {c : CodePoint} (hc : c.isHalf = false ∧ c ≠ '\x1b')
    (spaced indents : Bool) : (p.indicator c spaced indents).Portable := by
  have hmark : Text.Portable (if p.fresh || !spaced then [c] else [.char ' ', c]) := by
    split_ifs
    · exact List.forall_mem_singleton.2 hc
    · exact .cons (by decide) (List.forall_mem_singleton.2 hc)
  exact h.put hmark

end Pen

open Pen (Portable)

theorem portable_putBreaks {p : Pen} (h : p.Portable) (indent : Nat) {run : Text}
    (hr : run.Portable) : (putBreaks p indent run).Portable := by
  have hstart : (if Text.startsWith run '\n' then p.lineBreak '\n' else p).Portable := by
    split_ifs
    · exact h.lineBreak (by decide)
    · exact h
  refine Portable.indentTo ?_ indent
  generalize (if Text.startsWith run '\n' then p.lineBreak '\n' else p) = q at hstart ⊢
  induction run generalizing q with
  | nil => exact hstart
  | cons c r ih =>
    obtain ⟨hc, hr⟩ := List.forall_mem_cons.1 hr
    exact ih hr (q.lineBreak c) (hstart.lineBreak hc)

theorem portable_putSingle (indent : Nat) (fold : Bool) :
    ∀ {runs : List Text} (first : Bool) {p : Pen}, p.Portable → (∀ run ∈ runs, run.Portable) →
      (putSingle indent fold first p runs).Portable
  | [], _, _, h, _ => h
  | run :: rest, first, p, h, hr => by
    obtain ⟨hrun, hrest⟩ := List.forall_mem_cons.1 hr
    have hquotes : Text.Portable (run.flatMap doubleQuotes) := by
      refine .flatMap fun c hc => ?_
      unfold doubleQuotes
      split_ifs
      · decide
      · exact List.forall_mem_singleton.2 (hrun c hc)
    unfold putSingle
    dsimp only
    refine portable_putSingle indent fold false ?_ hrest
    split
    · split_ifs
      · exact h.indentTo indent
      · exact h.put hrun
    · exact portable_putBreaks h indent hrun
    · exact h.put hquotes

theorem portable_putPlain (indent : Nat) (fold : Bool) : ∀ {runs : List Text} {p : Pen},
    p.Portable → (∀ run ∈ runs, run.Portable) → (putPlain indent fold p runs).Portable
  | [], _, h, _ => h
  | run :: rest, p, h, hr => by
    obtain ⟨hrun, hrest⟩ := List.forall_mem_cons.1 hr
    unfold putPlain
    dsimp only
    refine portable_putPlain indent fold ?_ hrest
    split_ifs
    · exact (h.indentTo indent).settled
    · exact h.put hrun

theorem isPrintable_toUpper : ∀ k < 16, isPrintable (hexDigit k).toUpper = true := by
  decide +kernel

theorem printable_upperHex : ∀ digits n : Nat, (upperHex digits n).Printable
  | 0, _ => by simp [upperHex, hex, Printable]
  | digits + 1, n => by
    have hdigit : hexDigit n = hexDigit (n % 16) := by simp [hexDigit]
    have hlast : isPrintable (hexDigit n).toUpper = true :=
      hdigit ▸ isPrintable_toUpper _ (Nat.mod_lt _ (by omega))
    rw [upperHex, hex, List.map_append]
    exact (printable_upperHex digits (n / 16)).append (List.forall_mem_singleton.2 hlast)

/-- An escape is made of printable characters, whatever it stands for. -/
theorem portable_escapeOf (c : CodePoint) : (escapeOf c).Portable := by
  have hshort : ∀ p ∈ shortEscapes, Text.Portable [.char '\\', p.2] := by decide
  have hcode (digits n : Nat) : (upperHex digits n).Portable :=
    (printable_upperHex digits n).portable
  unfold escapeOf
  split
  · rename_i e he
    obtain ⟨l, r, hl, -⟩ := List.lookup_eq_some_iff.1 he
    exact hshort (c, e) (by simp [hl])
  · dsimp only
    split_ifs <;> exact .append (by decide) (hcode _ _)

/-- A character is pending only if it needs no escape, so that what is pending is portable too. -/
theorem portable_putDouble (indent : Nat) (fold : Bool) : ∀ {t : Text} (first : Bool) {p : Pen}
    {pending : Text}, p.Portable → pending.Portable →
      (putDouble indent fold first p pending t).Portable
  | [], _, _, _, h, hp => h.put hp.reverse
  | c :: r, first, p, pending, h, hp => by
    have hfold {q : Pen} {u : Text} (hq : q.Portable) (hu : u.Portable) :
        ((q.put (u.reverse ++ "\\")).indentTo indent).settled.Portable :=
      ((hq.put (hu.reverse.append (by decide))).indentTo indent).settled
    have hnil : Text.Portable [] := by simp [Text.Portable]
    unfold putDouble
    dsimp only
    rcases hc : needsEscape c with _ | _
    · simp only [Bool.false_eq_true, if_false]
      refine portable_putDouble indent fold false ?_ (.cons (portable_of_needsEscape hc) ?_)
      · split_ifs
        · exact (hfold h hp).put (by decide)
        · exact hfold h hp
        · exact h
      · split_ifs
        · exact hnil
        · exact hp
    · simp only [if_true]
      have hescaped := (h.put hp.reverse).put (portable_escapeOf c)
      refine portable_putDouble indent fold false ?_ ?_
      · split_ifs
        · exact (hfold hescaped hnil).put (by decide)
        · exact hfold hescaped hnil
        · exact hescaped
      · split_ifs <;> exact hnil

/-- Any text, since one that is not portable is written with escapes. -/
theorem portable_putText {p : Pen} (h : p.Portable) (indent : Nat) (key : Bool) (t : Text) :
    (putText p indent key t).Portable := by
  have hmark {q : Pen} (hq : q.Portable) {c : CodePoint} (hc : c.isHalf = false ∧ c ≠ '\x1b')
      (spaced : Bool) : (q.indicator c spaced false).Portable := hq.indicator hc spaced false
  unfold putText
  split
  · rename_i hstyle
    have ht : t.Portable := portable_of_styleOf (by rw [hstyle]; decide)
    refine portable_putPlain _ _ ?_ (portable_of_mem_runs ht)
    split_ifs
    · exact h
    · exact h.put (by decide)
  · rename_i hstyle
    have ht : t.Portable := portable_of_styleOf (by rw [hstyle]; decide)
    exact hmark (portable_putSingle _ _ _ (hmark h (by decide) _) (portable_of_mem_runs ht))
      (by decide) _
  · exact hmark (portable_putDouble _ _ _ (hmark h (by decide) _) (by simp [Text.Portable]))
      (by decide) _

theorem portable_putWord {p : Pen} (h : p.Portable) {t : Text} (ht : t.Portable) :
    (putWord p t).Portable := by
  unfold putWord
  split_ifs
  · exact (h.put ht).settled
  · exact ((h.put (by decide)).put ht).settled

theorem portable_putKey {p : Pen} (h : p.Portable) (indent : Nat) (k : Text) :
    (putKey p indent k).Portable := by
  have hstart := h.indentTo indent
  unfold putKey
  dsimp only
  split_ifs
  · exact (portable_putText hstart _ _ k).indicator (by decide) _ _
  · have hkey := portable_putText (hstart.indicator (c := '?') (by decide) true true) (indent + 2)
      false k
    exact (hkey.indentTo indent).indicator (by decide) _ _

mutual

theorem portable_put : ∀ (d : Data) {p : Pen} (indent : Option Nat) (inRecord : Bool), p.Portable →
    (put p indent inRecord d).Portable
  | .null, _, _, _, h => portable_putWord h (by decide)
  | .bool b, _, _, _, h => portable_putWord h (by cases b <;> decide)
  | .number n, _, _, _, h => portable_putWord h (printable_decimal n).portable
  | .text t, _, _, _, h => portable_putText h _ _ t
  | .list [], _, _, _, h => (h.indicator (by decide) _ _).indicator (by decide) _ _
  | .list (d :: ds), _, _, _, h => portable_putItems (d :: ds) _ h
  | .record [], _, _, _, h => (h.indicator (by decide) _ _).indicator (by decide) _ _
  | .record (e :: es), _, _, _, h => portable_putEntries (e :: es) _ h

theorem portable_putItems : ∀ (ds : List Data) {p : Pen} (indent : Nat), p.Portable →
    (putItems p indent ds).Portable
  | [], _, _, h => h
  | d :: ds, _, indent, h =>
    portable_putItems ds indent
      (portable_put d _ _ ((h.indentTo indent).indicator (by decide) _ _))

theorem portable_putEntries : ∀ (es : List (Text × Data)) {p : Pen} (indent : Nat), p.Portable →
    (putEntries p indent es).Portable
  | [], _, _, h => h
  | (k, d) :: es, _, indent, h =>
    portable_putEntries es indent (portable_put d _ _ (portable_putKey h indent k))

end

end Yaml

/-- Whatever is in the data. -/
theorem Data.portable_toYaml (d : Data) : d.toYaml.Portable := by
  have hstart : Yaml.Pen.Portable {} := by simp [Yaml.Pen.Portable, Text.Portable]
  exact Text.Portable.reverse ((Yaml.portable_put d none false hstart).indentTo 0)

end Shorthand
