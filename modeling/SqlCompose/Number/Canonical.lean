import SqlCompose.Text.Blank
import SqlCompose.Text.Digit

/-!
Integers written in ASCII digits. The canonical form is digits, perhaps after a minus, that start
with a zero only if it is the only one. A text in another form is tidied before it is read.
-/

namespace SqlCompose

inductive IntFault where
  | unreadable
  /-- The text starts with a number of too many characters. -/
  | tooLong
  deriving DecidableEq

/-- A minus that a text may start with, and what follows. -/
def takeMinus : List Char → Bool × List Char
  | '-' :: s => (true, s)
  | s => (false, s)

/-- The integer that a text is the canonical form of. A minus counts toward the length, and too
long a number is noticed whatever follows it. -/
def canonicalInt (s : List Char) : Except IntFault Int :=
  let (negative, unsigned) := takeMinus s
  let digits := unsigned.takeWhile Char.isDigit
  let length := if negative then digits.length + 1 else digits.length
  if digits.head? = some '0' ∧ digits ≠ ['0'] then .error .unreadable
  else if maxDigits < length then .error .tooLong
  else if digits = [] ∨ digits ≠ unsigned then .error .unreadable
  else .ok (signed negative (digitsValue digits))

/-- Drops the zeros at the head of a text, and underscores among them, if a number follows, with or
without a minus; otherwise all but the last of these characters. -/
def dropLeadingZeros (s : List Char) : List Char :=
  let zeros := s.takeWhile fun c => c == '0' || c == '_'
  let rest := s.drop zeros.length
  if rest.head?.any fun c => c.isDigit || c == '-' then rest
  else s.drop (zeros.length - 1)

/-- Drops a point with one or more zeros after it, and nothing else, from the end of a text. -/
def dropZeroPlaces (s : List Char) : List Char :=
  match s.dropWhile (· ≠ '.') with
  | '.' :: '0' :: places => if places.all (· == '0') then s.takeWhile (· ≠ '.') else s
  | _ => s

/-- Drops single underscores between other characters. -/
def dropUnderscores? : List Char → Option (List Char) :=
  grouped? fun c => if c = '_' then none else some c

/-- The text of a number without the blanks around it, a plus, zeros that it can do without, and
underscores. A digit comes first, or after the sign. -/
def tidied? (s : List Char) : Option (List Char) :=
  let (negative, unsigned) := takeSign (trimBoth isSpaceChar s)
  if unsigned.head?.any Char.isDigit then
    (dropUnderscores? (dropZeroPlaces (dropLeadingZeros unsigned))).map fun s =>
      if negative then '-' :: s else s
  else none

/-- The integer that a text writes. Only as it stands can a text be too long; what is too long when
tidied is not readable. -/
def readInt (s : List Char) : Except IntFault Int :=
  match canonicalInt s with
  | .error .unreadable =>
    match (tidied? s).map canonicalInt with
    | some (.ok n) => .ok n
    | _ => .error .unreadable
  | r => r

end SqlCompose
