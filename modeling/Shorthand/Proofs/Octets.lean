import Shorthand.Proofs.Portable
import Shorthand.Text.Utf8

/-!
# Octets

A text of characters is read back from its octets (`ofUtf8_octets`), and what is read from octets is
a text of characters (`halfFree_of_ofUtf8`). The octets of a character are a lead, which tells how
many octets follow, and six bits of the number of the character in each of the others; the two
octets that a reader compares with each other belong to the shortest form of no half of a surrogate
pair.
-/

namespace Shorthand

namespace Text

namespace Utf8

/-! ### Steps of reading -/

section Steps

variable {pos : Nat} {p : Pending} {b : UInt8} {r : List UInt8}

theorem readFrom_single (h : b.toNat < 0x80) :
    readFrom pos none (b :: r) =
      (readFrom (pos + 1) none r).map (.char (Char.ofNat b.toNat) :: ·) := by
  rw [readFrom, if_pos h]

theorem readFrom_lead (h : 0x80 ≤ b.toNat) (hp : Pending.ofLead pos b = some p) :
    readFrom pos none (b :: r) = readFrom (pos + 1) (some p) r := by
  rw [readFrom, if_neg (Nat.not_lt.2 h), hp]

theorem readFrom_more (ha : p.accepts b = true) (hn : (p.push b).need ≠ 0) :
    readFrom pos (some p) (b :: r) = readFrom (pos + 1) (some (p.push b)) r := by
  rw [readFrom, if_pos ha]
  exact if_neg hn

theorem readFrom_last (ha : p.accepts b = true) (hn : (p.push b).need = 0) :
    readFrom pos (some p) (b :: r) =
      (readFrom (pos + 1) none r).map (.char (Char.ofNat (p.push b).code) :: ·) := by
  rw [readFrom, if_pos ha]
  exact if_pos hn

/-- What is asked of an octet after the lead, and of the first one of these. -/
theorem accepts_iff : p.accepts b = true ↔ 0x80 ≤ b.toNat ∧ b.toNat < 0xC0 ∧ (p.seen = 1 →
    (p.lead.toNat = 0xE0 → 0xA0 ≤ b.toNat) ∧ (p.lead.toNat = 0xED → b.toNat < 0xA0)
      ∧ (p.lead.toNat = 0xF0 → 0x90 ≤ b.toNat) ∧ (p.lead.toNat = 0xF4 → b.toNat < 0x90)) := by
  simp only [Pending.accepts, Bool.and_eq_true, Bool.or_eq_true, decide_eq_true_eq, bne_iff_ne]
  tauto

end Steps

/-! ### The octets of a character -/

theorem toNat_ofNat_of_lt {n : Nat} (h : n < 256) : (UInt8.ofNat n).toNat = n := by
  rw [UInt8.toNat_ofNat']
  exact Nat.mod_eq_of_lt h

/-- An octet after the lead holds six bits. -/
theorem toNat_tail (n : Nat) : (UInt8.ofNat (n % 64 + 128)).toNat = n % 64 + 128 :=
  toNat_ofNat_of_lt (by omega)

/-- Only the first octet after the lead has to be compared with it. -/
theorem accepts_tail {p : Pending} (n : Nat) (h : p.seen ≠ 1) :
    p.accepts (UInt8.ofNat (n % 64 + 128)) = true := by
  rw [accepts_iff, toNat_tail]
  exact ⟨by omega, by omega, fun hseen => absurd hseen h⟩

section

variable {v : Nat} (pos : Nat) (r : List UInt8)

theorem readFrom_two (h : 0x80 ≤ v) (hv : v < 0x800) :
    readFrom pos none (UInt8.ofNat (v / 64 % 32 + 192) :: UInt8.ofNat (v % 64 + 128) :: r) =
      (readFrom (pos + 2) none r).map (.char (Char.ofNat v) :: ·) := by
  have hlead : (UInt8.ofNat (v / 64 % 32 + 192)).toNat = v / 64 + 192 := by
    rw [toNat_ofNat_of_lt (by omega)]
    omega
  have hcode : (v / 64 + 192 - 0xC0) * 64 + (v % 64 + 128) % 64 = v := by omega
  have hp : Pending.ofLead pos (UInt8.ofNat (v / 64 % 32 + 192)) =
      some ⟨pos, UInt8.ofNat (v / 64 % 32 + 192), 1, 1, v / 64 + 192 - 0xC0⟩ := by
    unfold Pending.ofLead
    dsimp only
    rw [hlead, if_neg (by omega), if_pos (by omega)]
  rw [readFrom_lead (by omega) hp, readFrom_last (accepts_iff.2 ?_) rfl]
  · simp only [Pending.push, toNat_tail, hcode]
  · rw [toNat_tail, hlead]
    omega

/-- The second octet of a lead of zeros has a bit of the shortest form, and no half of a surrogate
pair comes in. -/
theorem readFrom_three (h : 0x800 ≤ v) (hv : v < 0xD800 ∨ 0xDFFF < v ∧ v < 0x10000) :
    readFrom pos none (UInt8.ofNat (v / 4096 % 16 + 224) :: UInt8.ofNat (v / 64 % 64 + 128) ::
        UInt8.ofNat (v % 64 + 128) :: r) =
      (readFrom (pos + 3) none r).map (.char (Char.ofNat v) :: ·) := by
  have hlead : (UInt8.ofNat (v / 4096 % 16 + 224)).toNat = v / 4096 + 224 := by
    rw [toNat_ofNat_of_lt (by omega)]
    omega
  have hcode : ((v / 4096 + 224 - 0xE0) * 64 + (v / 64 % 64 + 128) % 64) * 64
      + (v % 64 + 128) % 64 = v := by omega
  have hp : Pending.ofLead pos (UInt8.ofNat (v / 4096 % 16 + 224)) =
      some ⟨pos, UInt8.ofNat (v / 4096 % 16 + 224), 1, 2, v / 4096 + 224 - 0xE0⟩ := by
    unfold Pending.ofLead
    dsimp only
    rw [hlead, if_neg (by omega), if_neg (by omega), if_pos (by omega)]
  rw [readFrom_lead (by omega) hp, readFrom_more (accepts_iff.2 ?_) ?_,
    readFrom_last (accepts_tail _ ?_) rfl]
  · simp only [Pending.push, toNat_tail, hcode]
  · simp [Pending.push]
  · rw [toNat_tail, hlead]
    omega
  · simp [Pending.push]

theorem readFrom_four (h : 0x10000 ≤ v) (hv : v < 0x110000) :
    readFrom pos none (UInt8.ofNat (v / 262144 % 8 + 240) :: UInt8.ofNat (v / 4096 % 64 + 128) ::
        UInt8.ofNat (v / 64 % 64 + 128) :: UInt8.ofNat (v % 64 + 128) :: r) =
      (readFrom (pos + 4) none r).map (.char (Char.ofNat v) :: ·) := by
  have hlead : (UInt8.ofNat (v / 262144 % 8 + 240)).toNat = v / 262144 + 240 := by
    rw [toNat_ofNat_of_lt (by omega)]
    omega
  have hcode : (((v / 262144 + 240 - 0xF0) * 64 + (v / 4096 % 64 + 128) % 64) * 64
      + (v / 64 % 64 + 128) % 64) * 64 + (v % 64 + 128) % 64 = v := by omega
  have hp : Pending.ofLead pos (UInt8.ofNat (v / 262144 % 8 + 240)) =
      some ⟨pos, UInt8.ofNat (v / 262144 % 8 + 240), 1, 3, v / 262144 + 240 - 0xF0⟩ := by
    unfold Pending.ofLead
    dsimp only
    rw [hlead, if_neg (by omega), if_neg (by omega), if_neg (by omega), if_pos (by omega)]
  rw [readFrom_lead (by omega) hp, readFrom_more (accepts_iff.2 ?_) ?_,
    readFrom_more (accepts_tail _ ?_) ?_, readFrom_last (accepts_tail _ ?_) rfl]
  · simp only [Pending.push, toNat_tail, hcode]
  · simp [Pending.push]
  · simp [Pending.push]
  · simp [Pending.push]
  · rw [toNat_tail, hlead]
    omega
  · simp [Pending.push]

end

theorem readFrom_octets (c : Char) (pos : Nat) : ∃ next, ∀ r : List UInt8,
    readFrom pos none (octets (.char c) ++ r) = (readFrom next none r).map (.char c :: ·) := by
  have hvalid : c.toNat < 0xD800 ∨ 0xDFFF < c.toNat ∧ c.toNat < 0x110000 := c.valid
  have hc : Char.ofNat c.toNat = c := Char.ofNat_toNat c
  have hoctets : octets (.char c) = String.utf8EncodeChar c := rfl
  unfold Char.toNat at hvalid hc
  rw [hoctets, String.utf8EncodeChar]
  generalize c.val.toNat = v at hvalid hc
  subst hc
  split_ifs with h1 h2 h3
  · refine ⟨pos + 1, fun r => ?_⟩
    have hb : (UInt8.ofNat v).toNat = v := toNat_ofNat_of_lt (by omega)
    rw [List.singleton_append, readFrom_single (by omega), hb]
  · exact ⟨pos + 2, fun r => readFrom_two pos r (by omega) (by omega)⟩
  · exact ⟨pos + 3, fun r => readFrom_three pos r (by omega) (by omega)⟩
  · exact ⟨pos + 4, fun r => readFrom_four pos r (by omega) (by omega)⟩

theorem readFrom_flatMap : ∀ {t : Text}, t.HalfFree → ∀ pos : Nat,
    readFrom pos none (t.flatMap octets) = .ok t
  | [], _, _ => by rw [List.flatMap_nil, readFrom]
  | .half n :: _, h, _ => absurd (h (.half n) List.mem_cons_self) (by simp [CodePoint.isHalf])
  | .char c :: t, h, pos => by
    obtain ⟨next, hnext⟩ := readFrom_octets c pos
    rw [List.flatMap_cons, hnext, readFrom_flatMap (List.forall_mem_cons.1 h).2]
    rfl

/-- A reader gives characters only. -/
theorem halfFree_readFrom : ∀ {l : List UInt8} {pos : Nat} {p : Option Pending} {t : Text},
    readFrom pos p l = .ok t → t.HalfFree
  | [], _, none, t, h => by
    rw [readFrom] at h
    cases h
    nofun
  | [], _, some _, t, h => by
    rw [readFrom] at h
    cases h
  | b :: r, pos, p, t, h => by
    have hmap {c : Char} {next : Nat} {u : Text}
        (hu : (readFrom next none r).map (CodePoint.char c :: ·) = .ok u) : u.HalfFree := by
      rcases hr : readFrom next none r with f | v <;> rw [hr] at hu <;> cases hu
      exact List.forall_mem_cons.2 ⟨rfl, halfFree_readFrom hr⟩
    rcases p with _ | p <;> rw [readFrom] at h
    · split_ifs at h
      · exact hmap h
      · split at h
        · cases h
        · exact halfFree_readFrom h
    · split_ifs at h
      · dsimp only at h
        split_ifs at h
        · exact hmap h
        · exact halfFree_readFrom h

end Utf8

theorem ofUtf8_octets {t : Text} (h : t.HalfFree) : ofUtf8 (t.flatMap Utf8.octets) = .ok t :=
  Utf8.readFrom_flatMap h 0

theorem halfFree_of_ofUtf8 {l : List UInt8} {t : Text} (h : ofUtf8 l = .ok t) : t.HalfFree :=
  Utf8.halfFree_readFrom h

end Text

end Shorthand
