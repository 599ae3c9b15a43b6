import Shorthand.Decimal.Float
import Shorthand.Yaml.Fault
import Shorthand.Yaml.Scalar

/-!
# Points in time

The date and the time of day that a scalar stands for, if the calendar and the clock have them.
-/

namespace Shorthand

namespace Yaml

def isLeapYear (y : Nat) : Bool :=
  y % 4 = 0 && (y % 100 != 0 || y % 400 = 0)

def daysIn (year month : Nat) : Nat :=
  if month = 2 then if isLeapYear year then 29 else 28
  else if month = 4 || month = 6 || month = 9 || month = 11 then 30
  else 31

/-- The offset from universal time in minutes, which is less than a day. -/
def offsetOf (zone : Text) : Except Fault Int :=
  match zone with
  | s :: r =>
    let parts := (r.splitOn (.char ':')).map Decimal.digitsValue
    let size : Int := 60 * parts.headD 0 + parts.tail.headD 0
    let minutes := if s = '-' then -size else size
    if size < 1440 then .ok minutes else .error (.offset minutes)
  | [] => .ok 0

/-- The millionths of a second that the digits after the point stand for, cut after six. -/
def microOf (fraction : Text) : Nat :=
  Decimal.digitsValue ((fraction ++ "000000").take 6)

def checkDate (year month day : Nat) : Except Fault Unit :=
  if year = 0 then .error .year
  else if month < 1 || 12 < month then .error .month
  else if day < 1 || daysIn year month < day then .error .day
  else .ok ()

def checkClock (hour minute second : Nat) : Except Fault Unit :=
  if 24 ≤ hour then .error .hour
  else if 60 ≤ minute then .error .minute
  else if 60 ≤ second then .error .second
  else .ok ()

/-- The offset is looked at before the date, and the date before the clock. -/
def TimeParts.moment (p : TimeParts) : Except Fault Moment := do
  let year := Decimal.digitsValue p.year
  let month := Decimal.digitsValue p.month
  let day := Decimal.digitsValue p.day
  match p.clock with
  | none =>
    checkDate year month day
    return ⟨year, month, day, none⟩
  | some (h, m, s) =>
    let offset ← p.zone.mapM offsetOf
    let hour := Decimal.digitsValue h
    let minute := Decimal.digitsValue m
    let second := Decimal.digitsValue s
    checkDate year month day
    checkClock hour minute second
    return ⟨year, month, day, some ⟨hour, minute, second, microOf p.fraction, offset⟩⟩

def readMoment (t : Text) : Except Fault Moment :=
  match timeParts? (withoutFinalBreak t) with
  | some p => p.moment
  | none => .error .noTime

end Yaml

end Shorthand
