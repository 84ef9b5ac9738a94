import Aml.Number.Integer

/-!
# Timestamps

A timestamp is a date of four, two and two digits with hyphens between them, alone, or followed by
a time of day: after a letter T with an offset from universal time, or after spaces without one.
Leading zeros may be left out, except in the year, and seconds may have a fraction.
-/
namespace Aml.Yaml.Timestamp

/-- The length of a month in a year. -/
def daysIn (year month : Nat) : Nat :=
  if month = 2 then
    if year % 4 = 0 ∧ (year % 100 ≠ 0 ∨ year % 400 = 0) then 29 else 28
  else if month = 4 ∨ month = 6 ∨ month = 9 ∨ month = 11 then 30
  else 31

/-- The value of a decimal digit. -/
def digit? (byte : UInt8) : Option Nat :=
  if Numeral.isDigit byte then some (byte.toNat - 48) else none

/-- Reads a number of two digits, or of one when no second one follows. -/
def number? : Text → Option (Nat × Text)
  | [] => none
  | first :: rest => do
    let tens ← digit? first
    match rest with
    | [] => some (tens, [])
    | second :: rest =>
      match digit? second with
      | some ones => some (tens * 10 + ones, rest)
      | none => some (tens, second :: rest)

/-- Reads a number of exactly two digits. -/
def twoDigits? : Text → Option (Nat × Text)
  | first :: second :: rest => do
    let tens ← digit? first
    let ones ← digit? second
    some (tens * 10 + ones, rest)
  | _ => none

/-- Reads one given byte. -/
def expect? (byte : UInt8) : Text → Option Text
  | first :: rest => if first = byte then some rest else none
  | [] => none

/-- Reads a year of exactly four digits. -/
def year? (text : Text) : Option (Nat × Text) :=
  let digits := text.takeWhile Numeral.isDigit
  if digits.length = 4 then
    some (digits.foldl (fun value digit => value * 10 + (digit.toNat - 48)) 0, text.drop 4)
  else none

/-- Reads a date that exists. -/
def date? (text : Text) : Option Text := do
  let (year, text) ← year? text
  let (month, text) ← number? (← expect? 45 text)
  let (day, text) ← number? (← expect? 45 text)
  if 1 ≤ month ∧ month ≤ 12 ∧ 1 ≤ day ∧ day ≤ daysIn year month then some text else none

/-- Drops a fraction of a second. -/
def withoutFraction : Text → Text
  | point :: digit :: rest =>
    if (point = 46 ∨ point = 44) ∧ Numeral.isDigit digit then rest.dropWhile Numeral.isDigit
    else point :: digit :: rest
  | text => text

/-- Reads a time of day. -/
def time? (text : Text) : Option Text := do
  let (hour, text) ← number? text
  let (minute, text) ← number? (← expect? 58 text)
  let (second, text) ← number? (← expect? 58 text)
  if hour < 24 ∧ minute < 60 ∧ second < 60 then some (withoutFraction text) else none

/-- Whether a text is an offset from universal time. -/
def isOffset : Text → Bool
  | [90] => true
  | sign :: rest =>
    (sign = 43 || sign = 45) && (do
      let (hours, rest) ← twoDigits? rest
      let (minutes, rest) ← twoDigits? (← expect? 58 rest)
      some (hours ≤ 24 && minutes ≤ 60 && rest.isEmpty : Bool)).getD false
  | [] => false

/-- Whether a text is a timestamp. -/
def isTimestamp (text : Text) : Bool :=
  match date? text with
  | none => false
  | some [] => true
  | some (separator :: rest) =>
    if separator = 84 ∨ separator = 116 then (time? rest).any isOffset
    else if separator = 32 then (time? (rest.dropWhile (· = 32))).any List.isEmpty
    else false

end Aml.Yaml.Timestamp
