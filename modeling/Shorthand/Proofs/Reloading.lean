import Shorthand.Proofs.BatchNames
import Shorthand.Proofs.Files
import Shorthand.Proofs.Octets
import Shorthand.Proofs.Trimming

/-!
# Batches that are written and loaded again

The expressions of a file of lines are what is left of its lines without the blanks around them, the
empty ones and the comments. Each of them is such a line itself (`FromLine`): it is trimmed, so that
nothing is left to take off, and it ends no line, whatever ends a line. So a file that has them one
on each line (`OnLines`) is the same batch again (`reload_lines`).
-/

namespace Shorthand

namespace Text

/-! ### Lines -/

/-- What ends a line of a file: a line feed after a carriage return, or one character. -/
inductive LineBreak : Text → Prop
  | pair : LineBreak ['\r', '\n']
  | single {c : CodePoint} : isLineEnd c = true → LineBreak [c]

/-- A text has others one on each line. The end of the last line may be left out. -/
inductive OnLines : List Text → Text → Prop
  | nil : OnLines [] []
  | last (e : Text) : OnLines [e] e
  | cons {e lineBreak rest : Text} {es : List Text} :
      LineBreak lineBreak → OnLines es rest → OnLines (e :: es) (e ++ lineBreak ++ rest)

/-- With a line feed after each text. -/
theorem onLines_lineFeeds : ∀ ts : List Text, OnLines ts (onLines ts)
  | [] => .nil
  | _ :: ts => .cons (.single (by decide)) (onLines_lineFeeds ts)

theorem unifyLineEnds_cons {c : CodePoint} (h : c ≠ '\r') (r : Text) :
    unifyLineEnds (c :: r) = c :: unifyLineEnds r := by
  rw [unifyLineEnds]
  · rintro r rfl
    exact absurd rfl h
  · rintro rfl
    exact absurd rfl h

theorem unifyLineEnds_append {e : Text} (h : .char '\r' ∉ e) (r : Text) :
    unifyLineEnds (e ++ r) = e ++ unifyLineEnds r := by
  induction e with
  | nil => rfl
  | cons c e ih =>
    obtain ⟨hc, he⟩ := not_or.1 (mt List.mem_cons.2 h)
    rw [List.cons_append, unifyLineEnds_cons (Ne.symm hc), ih he, List.cons_append]

theorem unifyLineEnds_return {r : Text} (h : ∀ c ∈ r.head?, isLineEnd c = false) :
    unifyLineEnds (.char '\r' :: r) = .char '\n' :: unifyLineEnds r := by
  rw [unifyLineEnds]
  rintro r rfl
  exact absurd (h _ rfl) (by decide)

theorem isLineEnd_feed : isLineEnd '\n' = true := by decide

/-- The end of a line is still one character after that. -/
theorem LineBreak.exists_unified {lineBreak rest : Text} (h : LineBreak lineBreak)
    (hr : ∀ c ∈ rest.head?, isLineEnd c = false) :
    ∃ c, isLineEnd c = true ∧ unifyLineEnds (lineBreak ++ rest) = c :: unifyLineEnds rest := by
  rcases h with _ | @⟨c, hc⟩
  · exact ⟨'\n', isLineEnd_feed, by rw [List.cons_append, List.singleton_append, unifyLineEnds]⟩
  · by_cases hreturn : c = '\r'
    · subst hreturn
      exact ⟨'\n', isLineEnd_feed, unifyLineEnds_return hr⟩
    · exact ⟨c, hc, unifyLineEnds_cons hreturn rest⟩

theorem mem_splitOnP_of_mem_lines {t w : Text} (h : w ∈ lines t) :
    w ∈ t.splitOnP isLineEnd := by
  unfold lines at h
  dsimp only at h
  split_ifs at h
  · exact List.mem_of_mem_dropLast h
  · exact h

/-! ### Characters -/

theorem HalfFree.sub {t u : Text} (h : t.HalfFree) (hu : u ⊆ t) : u.HalfFree :=
  fun c hc => h c (hu hc)

theorem HalfFree.unifyLineEnds {t : Text} (h : t.HalfFree) : (unifyLineEnds t).HalfFree := by
  fun_induction Text.unifyLineEnds t with
  | case1 => exact h
  | case2 r ih => exact List.forall_mem_cons.2 ⟨rfl, ih (h.sub (by simp))⟩
  | case3 r _ ih => exact List.forall_mem_cons.2 ⟨rfl, ih (h.sub (by simp))⟩
  | case4 c r _ _ ih =>
    obtain ⟨hc, hr⟩ := List.forall_mem_cons.1 h
    exact List.forall_mem_cons.2 ⟨hc, ih hr⟩

theorem LineBreak.halfFree {lineBreak : Text} (h : LineBreak lineBreak) : lineBreak.HalfFree := by
  rcases h with _ | hc
  · decide
  · exact List.forall_mem_singleton.2 (not_isHalf (isLineEnd_iff_within.1 hc) (by decide))

theorem OnLines.halfFree {es : List Text} {t : Text} (h : OnLines es t)
    (he : ∀ e ∈ es, e.HalfFree) : t.HalfFree := by
  induction h with
  | nil => nofun
  | last e => exact he e List.mem_cons_self
  | cons hb _ ih =>
    obtain ⟨he, hes⟩ := List.forall_mem_cons.1 he
    exact (he.append hb.halfFree).append (ih hes)

end Text

namespace Batch

open Text (LineBreak OnLines)

/-- The expressions of a file of lines. -/
def expressions (t : Text) : List Text :=
  ((Text.lines t).map Text.trim).filter isExpression

theorem ofLines_eq (t : Text) : ofLines t = numbered 1 (expressions t) :=
  rfl

/-- An expression as a line of a file can give it. -/
structure FromLine (e : Text) : Prop where
  ne_nil : e ≠ []
  trimmed : Text.trim e = e
  no_comment : e.head? ≠ some (.char '#')
  one_line : ∀ c ∈ e, Text.isLineEnd c = false

namespace FromLine

variable {e : Text}

theorem isExpression (h : FromLine e) : isExpression e = true := by
  simp [Batch.isExpression, Text.startsWith, h.ne_nil, h.no_comment]

theorem of_mem {t : Text} (h : e ∈ expressions t) : FromLine e := by
  obtain ⟨he, hexpression⟩ := List.mem_filter.1 h
  obtain ⟨w, hw, rfl⟩ := List.mem_map.1 he
  simp only [Batch.isExpression, Text.startsWith, Bool.and_eq_true, Bool.not_eq_true',
    List.isEmpty_eq_false_iff, beq_eq_false_iff_ne] at hexpression
  exact ⟨hexpression.1, Text.trim_trim w, hexpression.2,
    fun c hc => Text.not_of_mem_splitOnP w (Text.mem_splitOnP_of_mem_lines hw) c
      (Text.trim_subset w hc)⟩

theorem head_append (h : FromLine e) (r : Text) :
    ∀ c ∈ (e ++ r).head?, Text.isLineEnd c = false := by
  intro c hc
  rw [List.head?_append_of_ne_nil _ h.ne_nil] at hc
  exact h.one_line c (List.mem_of_mem_head? hc)

theorem no_return (h : FromLine e) : .char '\r' ∉ e :=
  fun hc => absurd (h.one_line _ hc) (by decide)

end FromLine

theorem subset_of_mem_expressions {e t : Text} (h : e ∈ expressions t) : e ⊆ t := by
  obtain ⟨w, hw, rfl⟩ := List.mem_map.1 (List.mem_filter.1 h).1
  have hin := Text.infix_of_mem_splitOnP (Text.mem_splitOnP_of_mem_lines hw)
  exact fun c hc => hin.subset (Text.trim_subset w hc)

section

variable {es : List Text} {t : Text}

theorem head_of_onLines (h : OnLines es t) (he : ∀ e ∈ es, FromLine e) :
    ∀ c ∈ t.head?, Text.isLineEnd c = false := by
  cases h with
  | nil => nofun
  | last e =>
    have hhead := (he t List.mem_cons_self).head_append []
    rwa [List.append_nil] at hhead
  | cons =>
    rw [List.append_assoc]
    exact (he _ List.mem_cons_self).head_append _

/-- Unified and cut at the ends of its lines, such a text gives the expressions, and nothing after
the last one if its line has an end. -/
theorem splitOnP_onLines (h : OnLines es t) (he : ∀ e ∈ es, FromLine e) :
    (Text.unifyLineEnds t).splitOnP Text.isLineEnd = es ++ [[]]
      ∨ es ≠ [] ∧ (Text.unifyLineEnds t).splitOnP Text.isLineEnd = es := by
  induction h with
  | nil => exact .inl rfl
  | last e =>
    have hlast := he e List.mem_cons_self
    have hunified := Text.unifyLineEnds_append hlast.no_return []
    rw [List.append_nil, Text.unifyLineEnds, List.append_nil] at hunified
    refine .inr ⟨List.cons_ne_nil e [], ?_⟩
    rw [hunified, List.splitOnP_eq_singleton hlast.one_line]
  | @cons e lineBreak rest es hb hrest ih =>
    obtain ⟨hline, hes⟩ := List.forall_mem_cons.1 he
    obtain ⟨c, hc, hunified⟩ := hb.exists_unified (head_of_onLines hrest hes)
    rw [List.append_assoc, Text.unifyLineEnds_append hline.no_return, hunified,
      List.splitOnP_append_cons_of_forall_mem hline.one_line c hc]
    rcases ih hes with ih | ⟨-, ih⟩
    · exact .inl (by rw [ih, List.cons_append])
    · exact .inr ⟨List.cons_ne_nil e es, by rw [ih]⟩

theorem lines_of_onLines (h : OnLines es t) (he : ∀ e ∈ es, FromLine e) :
    Text.lines (Text.unifyLineEnds t) = es := by
  unfold Text.lines
  dsimp only
  rcases splitOnP_onLines h he with hp | ⟨hne, hp⟩
  · rw [hp, List.getLast?_concat, List.dropLast_concat]
    rfl
  · have hlast : ((es.getLast hne).isEmpty) = false :=
      List.isEmpty_eq_false_iff.2 (he _ (List.getLast_mem hne)).ne_nil
    rw [hp, List.getLast?_eq_some_getLast hne, Option.any_some, hlast]
    rfl

theorem expressions_of_onLines (h : OnLines es t) (he : ∀ e ∈ es, FromLine e) :
    expressions (Text.unifyLineEnds t) = es := by
  have htrim : es.map Text.trim = es :=
    (List.map_congr_left fun e hm => (he e hm).trimmed).trans (List.map_id' es)
  rw [expressions, lines_of_onLines h he, htrim,
    List.filter_eq_self.2 fun e hm => (he e hm).isExpression]

end

/-! ### Files -/

section

variable {s : Store} {path : Text} {octets : List UInt8} {t : Text}

theorem holds_of_read {p : Path} (h : s.read p = .ok octets) : s.holds p = .ok true := by
  obtain ⟨e, he, -⟩ := bind_eq_ok_iff.1 h
  rw [Store.holds, he]

theorem load_lines (hf : formatOf (Path.ofText path) = some .lines)
    (hr : s.read (Path.ofText path) = .ok octets) (ht : Text.ofUtf8 octets = .ok t) :
    load s path = .ok (ofLines (Text.unifyLineEnds t)) := by
  have hdocument : s.document (Path.ofText path) = .ok (Text.unifyLineEnds t) := by
    simp only [Store.document, hr, ht]
  unfold load
  simp only [holds_of_read hr, hdocument, hf, ofText]
  rfl

/-- A file of lines that is loaded gives expressions that are trimmed lines of text and no comments,
named by their positions. Written one on each line of a file, they are loaded as the same batch. -/
theorem reload_lines (hf : formatOf (Path.ofText path) = some .lines)
    (hr : s.read (Path.ofText path) = .ok octets) (ht : Text.ofUtf8 octets = .ok t) :
    ∃ es, load s path = .ok (numbered 1 es) ∧ (∀ e ∈ es, FromLine e)
      ∧ ∀ written, OnLines es written → ∃ content, Text.toUtf8 written = .ok content
        ∧ ∀ (before after : Store) (copy : Text), formatOf (Path.ofText copy) = some .lines →
          before.write (Path.ofText copy) content = .ok after →
            load after copy = .ok (numbered 1 es) := by
  have hfree : ∀ e ∈ expressions (Text.unifyLineEnds t), e.HalfFree := fun e he =>
    (Text.halfFree_of_ofUtf8 ht).unifyLineEnds.sub (subset_of_mem_expressions he)
  refine ⟨expressions (Text.unifyLineEnds t), load_lines hf hr ht, fun e he => .of_mem he,
    fun written hw => ?_⟩
  have hwritten := hw.halfFree hfree
  refine ⟨_, hwritten.toUtf8, fun before after copy hcopy hwrite => ?_⟩
  rw [load_lines hcopy (Store.read_of_write hwrite) (Text.ofUtf8_octets hwritten), ofLines_eq,
    expressions_of_onLines hw fun e he => .of_mem he]

/-- Lines that end in many ways, blanks of many kinds, and comments that only trimming shows. -/
def manyEnds : Text :=
  "\u2028 #a\x0d\n  div.b \x0b\x1cp>q \x0d# c\n\u00a0#d\u0085\u3000 a+é\n\n"

def manyEndsStore : Store where
  entries := [(["list.TXT"], .file (manyEnds.flatMap Text.Utf8.octets))]

example : load manyEndsStore "list.TXT" = .ok [("1", "div.b"), ("2", "p>q"), ("3", "a+é")] := by
  decide +kernel

theorem reload_lines_of_many_ends :
    formatOf (Path.ofText "list.TXT") = some .lines
      ∧ manyEndsStore.read (Path.ofText "list.TXT") = .ok (manyEnds.flatMap Text.Utf8.octets)
      ∧ Text.ofUtf8 (manyEnds.flatMap Text.Utf8.octets) = .ok manyEnds
      ∧ ∃ es content, load manyEndsStore "list.TXT" = .ok (numbered 1 es) ∧ (∀ e ∈ es, FromLine e)
        ∧ Text.toUtf8 (Text.onLines es) = .ok content
        ∧ ∀ after, manyEndsStore.write (Path.ofText "copy.txt") content = .ok after →
          load after "copy.txt" = .ok (numbered 1 es) := by
  have hf : formatOf (Path.ofText "list.TXT") = some .lines := by decide
  have hr : manyEndsStore.read (Path.ofText "list.TXT") =
      .ok (manyEnds.flatMap Text.Utf8.octets) := by decide +kernel
  have ht := Text.ofUtf8_octets (t := manyEnds) (by decide)
  obtain ⟨es, hload, hes, hagain⟩ := reload_lines hf hr ht
  obtain ⟨content, hcontent, hcopy⟩ := hagain _ (Text.onLines_lineFeeds es)
  exact ⟨hf, hr, ht, es, content, hload, hes, hcontent,
    fun after hw => hcopy manyEndsStore after "copy.txt" (by decide) hw⟩

end

end Batch

end Shorthand
