import Shorthand.Text.Quoted

/-!
# UTF-8

Writing a text as octets and reading it back. Halves of surrogate pairs cannot be written; the first
run of them is reported. A reader steps one octet at a time; what it refuses is reported with the
span of octets that cannot be read and the reason.
-/

namespace Shorthand

namespace Text

namespace Utf8

/-- Code points `first` to `last` are halves of surrogate pairs; `half` is the first of them. -/
structure Unwritable where
  first : Nat
  last : Nat
  half : CodePoint
  deriving Repr, DecidableEq

def Unwritable.message (u : Unwritable) : Text :=
  let span : Text :=
    if u.first = u.last then
      "character '" ++ escapeCode u.half ++ "' in position " ++ decimal u.first
    else "characters in position " ++ decimal u.first ++ "-" ++ decimal u.last
  "'utf-8' codec can't encode " ++ span ++ ": surrogates not allowed"

/-- The first run of halves of surrogate pairs. -/
def unwritable? (t : Text) : Option Unwritable :=
  let before := t.takeWhile (!·.isHalf)
  let run := (t.drop before.length).takeWhile (·.isHalf)
  run.head?.map fun h => ⟨before.length, before.length + run.length - 1, h⟩

/-- The octets of a character; half of a surrogate pair has none. -/
def octets : CodePoint → List UInt8
  | .char c => String.utf8EncodeChar c
  | .half _ => []

inductive Reason where
  | start
  | continuation
  | truncated
  deriving Repr, DecidableEq

/-- Octets `first` to `last` cannot be read; `octet` is the first of them. -/
structure Fault where
  first : Nat
  last : Nat
  octet : UInt8
  reason : Reason
  deriving Repr, DecidableEq

def Reason.message : Reason → Text
  | .start => "invalid start byte"
  | .continuation => "invalid continuation byte"
  | .truncated => "unexpected end of data"

def Fault.message (f : Fault) : Text :=
  let span :=
    if f.first = f.last then
      "byte 0x" ++ hex 2 f.octet.toNat ++ " in position " ++ decimal f.first
    else "bytes in position " ++ decimal f.first ++ "-" ++ decimal f.last
  "'utf-8' codec can't decode " ++ span ++ ": " ++ f.reason.message

/-- A character of several octets of which the first ones have been read. -/
structure Pending where
  first : Nat
  lead : UInt8
  seen : Nat
  need : Nat
  code : Nat

/-- What an octet begins that is no character by itself. -/
def Pending.ofLead (pos : Nat) (b : UInt8) : Option Pending :=
  let n := b.toNat
  if n < 0xC2 then none
  else if n < 0xE0 then some ⟨pos, b, 1, 1, n - 0xC0⟩
  else if n < 0xF0 then some ⟨pos, b, 1, 2, n - 0xE0⟩
  else if n < 0xF5 then some ⟨pos, b, 1, 3, n - 0xF0⟩
  else none

/-- The second octet also rules out overlong forms, surrogates and code points past the last. -/
def Pending.accepts (p : Pending) (b : UInt8) : Bool :=
  let n := b.toNat
  let lead := p.lead.toNat
  0x80 ≤ n && n < 0xC0 &&
    (p.seen != 1 ||
      ((lead != 0xE0 || 0xA0 ≤ n) && (lead != 0xED || n < 0xA0) &&
        (lead != 0xF0 || 0x90 ≤ n) && (lead != 0xF4 || n < 0x90)))

def Pending.push (p : Pending) (b : UInt8) : Pending :=
  { p with seen := p.seen + 1, need := p.need - 1, code := p.code * 64 + b.toNat % 64 }

def readFrom (pos : Nat) : Option Pending → List UInt8 → Except Fault Text
  | none, [] => .ok []
  | some p, [] => .error ⟨p.first, pos - 1, p.lead, .truncated⟩
  | none, b :: r =>
    if b.toNat < 0x80 then (readFrom (pos + 1) none r).map (.char (Char.ofNat b.toNat) :: ·)
    else match Pending.ofLead pos b with
      | none => .error ⟨pos, pos, b, .start⟩
      | some p => readFrom (pos + 1) (some p) r
  | some p, b :: r =>
    if p.accepts b then
      let q := p.push b
      if q.need = 0 then (readFrom (pos + 1) none r).map (.char (Char.ofNat q.code) :: ·)
      else readFrom (pos + 1) (some q) r
    else .error ⟨p.first, pos - 1, p.lead, .continuation⟩

end Utf8

/-- The number of octets that a text takes. -/
def octetCount (t : Text) : Nat :=
  (t.flatMap Utf8.octets).length

def toUtf8 (t : Text) : Except Utf8.Unwritable (List UInt8) :=
  match Utf8.unwritable? t with
  | some u => .error u
  | none => .ok (t.flatMap Utf8.octets)

def ofUtf8 (octets : List UInt8) : Except Utf8.Fault Text :=
  Utf8.readFrom 0 none octets

end Text

end Shorthand
