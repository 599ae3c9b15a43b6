import Shorthand.Proofs.Ordering
import Shorthand.Proofs.Splitting
import Shorthand.Proofs.Token

/-!
# One line for each diagnostic

A quoted text is printable, whatever stands in the text (`printable_quoted`), and so is all that is
told of a rejection (`Rejection.printable_render`). Printable characters end no line and start no
terminal sequence, so that the lines of what is written about a list of diagnostics are the
diagnostics, in order (`errors_of_reported`, `lines_onLines`).
-/

namespace Shorthand

namespace Text

/-! ### Printable texts -/

/-- A text of printable characters, which take up one line and leave the terminal as it is. -/
def Printable (t : Text) : Prop :=
  ∀ c ∈ t, isPrintable c = true

instance (t : Text) : Decidable t.Printable :=
  inferInstanceAs (Decidable (∀ c ∈ t, isPrintable c = true))

theorem Printable.append {t u : Text} (ht : t.Printable) (hu : u.Printable) :
    (t ++ u).Printable :=
  List.forall_mem_append.2 ⟨ht, hu⟩

theorem Printable.cons {c : CodePoint} {t : Text} (hc : isPrintable c = true)
    (ht : t.Printable) : Printable (c :: t) :=
  List.forall_mem_cons.2 ⟨hc, ht⟩

/-- The digits of all bases up to sixteen. -/
theorem isPrintable_digits :
    ∀ k < 16, isPrintable (hexDigit k) = true ∧ isPrintable (digit k) = true := by
  decide +kernel

theorem isPrintable_hexDigit (n : Nat) : isPrintable (hexDigit n) = true := by
  have h : hexDigit n = hexDigit (n % 16) := by simp [hexDigit]
  rw [h]
  exact (isPrintable_digits _ (Nat.mod_lt _ (by omega))).1

theorem isPrintable_digit (n : Nat) : isPrintable (digit n) = true := by
  rw [digit_mod]
  exact (isPrintable_digits _ (by omega)).2

theorem printable_hex : ∀ width n : Nat, (hex width n).Printable
  | 0, _ => by simp [hex, Printable]
  | width + 1, n =>
    (printable_hex width (n / 16)).append (List.forall_mem_singleton.2 (isPrintable_hexDigit n))

theorem printable_decimal (n : Nat) : (decimal n).Printable := by
  intro c hc
  obtain ⟨k, rfl⟩ := exists_digit_of_mem_decimal hc
  exact isPrintable_digit k

theorem printable_escapeCode (c : CodePoint) : (escapeCode c).Printable := by
  unfold escapeCode
  dsimp only
  split_ifs <;> exact Printable.append (by decide +kernel) (printable_hex _ _)

/-- An escape stands for what does not print. -/
theorem printable_escape {quote : CodePoint} (hq : isPrintable quote = true) (c : CodePoint) :
    (escape quote c).Printable := by
  unfold escape
  split_ifs with hquote _ _ _ hc
  · rw [Bool.or_eq_true, decide_eq_true_eq, decide_eq_true_eq] at hquote
    refine .cons (by decide +kernel) (List.forall_mem_singleton.2 ?_)
    rcases hquote with rfl | rfl
    · exact hq
    · decide +kernel
  · decide +kernel
  · decide +kernel
  · decide +kernel
  · exact List.forall_mem_singleton.2 hc
  · exact printable_escapeCode c

/-- What is quoted may be anything, the quotes themselves included. -/
theorem printable_quoted (t : Text) : (quoted t).Printable := by
  have hq : isPrintable (quoteFor t) = true := by
    unfold quoteFor
    split_ifs <;> decide +kernel
  refine .cons hq (.append (fun c hc => ?_) (List.forall_mem_singleton.2 hq))
  obtain ⟨d, -, hd⟩ := List.mem_flatMap.1 hc
  exact printable_escape hq d c hd

/-! ### Lines and sequences -/

/-- The line ends as ranges, to be compared with those of the printable characters. -/
theorem isLineEnd_iff_within {c : CodePoint} : isLineEnd c = true ↔ within [(10, 13), (28, 30),
    (0x85, 0x85), (0x2028, 0x2029)] c = true := by
  simp only [isLineEnd, within, List.any_cons, List.any_nil, Bool.or_eq_true, Bool.and_eq_true,
    decide_eq_true_eq, beq_iff_eq, Bool.or_false]
  omega

theorem isLineEnd_of_isPrintable {c : CodePoint} (h : isPrintable c = true) :
    isLineEnd c = false := by
  rw [← Bool.not_eq_true, isLineEnd_iff_within, Bool.not_eq_true]
  exact within_eq_false (by decide +kernel) h

theorem Printable.notMem_escape {t : Text} (h : t.Printable) : .char '\x1b' ∉ t := fun hm =>
  absurd (h _ hm) (by decide +kernel)

/-- Each text with a line feed after it. -/
def onLines (ts : List Text) : Text :=
  ts.flatMap fun t => t ++ "\n"

theorem splitOnP_onLines : ∀ {ts : List Text}, (∀ t ∈ ts, t.Printable) →
    (onLines ts).splitOnP isLineEnd = ts ++ [[]]
  | [], _ => rfl
  | t :: ts, h => by
    obtain ⟨ht, hts⟩ := List.forall_mem_cons.1 h
    have hline : ∀ c ∈ t, isLineEnd c = false := fun c hc => isLineEnd_of_isPrintable (ht c hc)
    have hcons : onLines (t :: ts) = t ++ .char '\n' :: onLines ts :=
      List.append_assoc t "\n" (onLines ts)
    rw [hcons, List.splitOnP_append_cons_of_forall_mem hline (.char '\n') (by decide),
      splitOnP_onLines hts, List.cons_append]

theorem lines_onLines {ts : List Text} (h : ∀ t ∈ ts, t.Printable) : lines (onLines ts) = ts := by
  unfold lines
  simp [splitOnP_onLines h]

theorem escape_notMem_onLines {ts : List Text} (h : ∀ t ∈ ts, t.Printable) :
    .char '\x1b' ∉ onLines ts := by
  intro hm
  obtain ⟨t, ht, hc⟩ := List.mem_flatMap.1 hm
  rcases List.mem_append.1 hc with hc | hc
  · exact (h t ht).notMem_escape hc
  · exact absurd hc (by decide)

/-- Where nothing starts a sequence, nothing is left out. -/
theorem withoutSequences_eq_self : ∀ {t : Text}, .char '\x1b' ∉ t → withoutSequences t = t
  | [], _ => rfl
  | c :: r, h => by
    rw [List.mem_cons, not_or] at h
    have ih := withoutSequences_eq_self h.2
    unfold withoutSequences at ih ⊢
    rw [Terminal.clean, if_neg (Ne.symm h.1), if_neg (by decide)]
    exact congrArg (c :: ·) ih

end Text

/-! ### Diagnostics -/

theorem Problem.printable_code (p : Problem) : p.code.Printable := by
  unfold code
  split <;> decide +kernel

theorem Problem.printable_message (p : Problem) : p.message.Printable := by
  cases p with
  | rootCount n => exact .append (by decide +kernel) (Text.printable_decimal n)
  | attributeWithoutValue item =>
    exact .append (.append (by decide +kernel) (Text.printable_quoted item)) (by decide +kernel)
  | _ => decide +kernel

/-- A place is told by quoted texts. -/
theorem Diagnostic.printable_place (d : Diagnostic) : d.place.Printable := by
  unfold place
  split
  · decide +kernel
  · exact Text.printable_quoted _
  · exact Text.printable_quoted _
  · exact .append (.append (Text.printable_quoted _) (by decide +kernel)) (Text.printable_quoted _)

theorem Rejection.printable_render (r : Rejection) : r.diagnostic.render.Printable :=
  .append (.append (.append (.append r.diagnostic.printable_place (by decide +kernel))
    r.problem.printable_code) (by decide +kernel)) r.problem.printable_message

/-- What is written about diagnostics that fit on a line each, after the steps if they are asked
for. -/
theorem Outcome.errors_of_reported {o : Outcome} {ds : List Diagnostic} {code : Nat}
    (h : o.ending = .reported ds code) (hp : ∀ d ∈ ds, d.render.Printable) (verbose : Bool) :
    o.errors verbose = (if verbose then o.steps.flatMap Step.line else []) ++
      Text.onLines ((Diagnostic.sort ds).map Diagnostic.render) := by
  have hsorted : ∀ t ∈ (Diagnostic.sort ds).map Diagnostic.render, t.Printable := by
    intro t ht
    obtain ⟨d, hd, rfl⟩ := List.mem_map.1 ht
    exact hp d ((Diagnostic.perm_sort ds).mem_iff.1 hd)
  have hescape := Text.escape_notMem_onLines hsorted
  unfold Text.onLines at hescape ⊢
  rw [List.flatMap_map] at hescape ⊢
  unfold errors
  rw [h]
  exact congrArg (_ ++ ·) (Text.withoutSequences_eq_self hescape)

end Shorthand
