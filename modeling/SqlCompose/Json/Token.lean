import SqlCompose.Number.Reading

/-!
Tokens of a JSON text. Besides the grammar of JSON, `NaN`, `Infinity` and `-Infinity` are numbers.
-/

namespace SqlCompose.Json

/-- What is wrong with a JSON text. -/
inductive Problem where
  | byteOrderMark
  | noValue
  | noName
  | noColon
  | noComma
  | extraData
  | unterminated
  | controlChar
  | badEscape
  | badUnicodeEscape
  deriving DecidableEq

def Problem.message : Problem → String
  | .byteOrderMark => "Unexpected UTF-8 BOM (decode using utf-8-sig)"
  | .noValue => "Expecting value"
  | .noName => "Expecting property name enclosed in double quotes"
  | .noColon => "Expecting ':' delimiter"
  | .noComma => "Expecting ',' delimiter"
  | .extraData => "Extra data"
  | .unterminated => "Unterminated string starting at"
  | .controlChar => "Invalid control character at"
  | .badEscape => "Invalid \\escape"
  | .badUnicodeEscape => "Invalid \\uXXXX escape"

/-- A problem and the number of characters before it. -/
structure Fault where
  problem : Problem
  offset : Nat
  deriving DecidableEq

inductive Lexeme where
  | openArray
  | closeArray
  | openObject
  | closeObject
  | comma
  | colon
  | text (s : String)
  /-- A value other than a text that is written as one token. -/
  | literal (v : Value)
  /-- An ill-formed text. -/
  | badText (f : Fault)
  /-- An integer with too many digits. -/
  | longInt (digits : Nat)
  /-- The start of no token. -/
  | junk

structure Token where
  lexeme : Lexeme
  offset : Nat

def isSpace (c : Char) : Bool := c == ' ' || c == '\t' || c == '\n' || c == '\r'

def hexDigit? (c : Char) : Option Nat :=
  if '0' ≤ c ∧ c ≤ '9' then some (c.toNat - '0'.toNat)
  else if 'a' ≤ c ∧ c ≤ 'f' then some (c.toNat - 'a'.toNat + 10)
  else if 'A' ≤ c ∧ c ≤ 'F' then some (c.toNat - 'A'.toNat + 10)
  else none

/-- The unit written by four hexadecimal digits. -/
def unit? (a b c d : Char) : Option Nat := do
  return (((← hexDigit? a) * 16 + (← hexDigit? b)) * 16 + (← hexDigit? c)) * 16 + (← hexDigit? d)

def isHighSurrogate (n : Nat) : Bool := 0xD800 ≤ n && n ≤ 0xDBFF

def isLowSurrogate (n : Nat) : Bool := 0xDC00 ≤ n && n ≤ 0xDFFF

/-- The character of a unit. A surrogate on its own, which is no character here, is read as the
replacement character. -/
def unitChar (n : Nat) : Char :=
  if isHighSurrogate n || isLowSurrogate n then '\ufffd' else Char.ofNat n

def surrogatePair (high low : Nat) : Char :=
  Char.ofNat (0x10000 + (high - 0xD800) * 0x400 + (low - 0xDC00))

def escaped? : Char → Option Char
  | '"' => some '"'
  | '\\' => some '\\'
  | '/' => some '/'
  | 'b' => some '\x08'
  | 'f' => some '\x0c'
  | 'n' => some '\n'
  | 'r' => some '\r'
  | 't' => some '\t'
  | _ => none

/-- The character that a numeric escape stands for and the number of characters after its
backslash, which is at `offset`. What follows the `u` is given: four digits and another character,
and after a high surrogate perhaps a second escape, which needs a character after it too. -/
def unicodeEscape (offset : Nat) : List Char → Except Fault (Char × Nat)
  | a :: b :: c :: d :: e :: s =>
    match unit? a b c d with
    | none => .error ⟨.badUnicodeEscape, offset + 1⟩
    | some high =>
      match isHighSurrogate high, e, s with
      | true, '\\', 'u' :: a :: b :: c :: d :: _ :: _ =>
        match unit? a b c d with
        | none => .error ⟨.badUnicodeEscape, offset + 7⟩
        | some low =>
          if isLowSurrogate low then .ok (surrogatePair high low, 11) else .ok (unitChar high, 5)
      | _, _, _ => .ok (unitChar high, 5)
  | _ => .error ⟨.badUnicodeEscape, offset + 1⟩

/-- The character that an escape in the text from `start` stands for and the number of characters
after its backslash, which is at `offset`. -/
def escape (start offset : Nat) : List Char → Except Fault (Char × Nat)
  | [] => .error ⟨.unterminated, start⟩
  | 'u' :: s => unicodeEscape offset s
  | c :: _ =>
    match escaped? c with
    | some x => .ok (x, 1)
    | none => .error ⟨.badEscape, offset⟩

/-- The text whose opening quote is at `start`, after the characters `done` in reverse, and the
offset of its end. Of what is left `skip` characters belong to an escape already read. -/
def textFrom (start : Nat) (skip offset : Nat) (done : List Char) :
    List Char → Except Fault (String × Nat)
  | [] => .error ⟨.unterminated, start⟩
  | c :: s =>
    match skip with
    | k + 1 => textFrom start k (offset + 1) done s
    | 0 =>
      if c = '"' then .ok (String.ofList done.reverse, offset + 1)
      else if c = '\\' then
        match escape start offset s with
        | .error f => .error f
        | .ok (x, length) => textFrom start length (offset + 1) (x :: done) s
      else if c.toNat < 0x20 then .error ⟨.controlChar, offset⟩
      else textFrom start 0 (offset + 1) (c :: done) s

/-- The places after the point that a text starts with. -/
def places : List Char → List Char
  | '.' :: s => s.takeWhile Char.isDigit
  | _ => []

/-- The exponent that a text starts with and the number of its characters. -/
def exponent? : List Char → Option (Int × Nat)
  | [] => none
  | c :: s =>
    let (negative, unsigned) := takeSign s
    let digits := unsigned.takeWhile Char.isDigit
    if (c = 'e' ∨ c = 'E') ∧ digits ≠ [] then
      some (signed negative (digitsValue digits), 1 + (s.length - unsigned.length) + digits.length)
    else none

/-- The digits before the point, a lone zero or digits that start with none. -/
def wholeDigits : List Char → List Char
  | '0' :: _ => ['0']
  | s => s.takeWhile Char.isDigit

/-- The longest number without a sign that a text starts with, and the number of its characters.
It is an integer if it has neither places nor an exponent. -/
def unsignedNumber? (negative : Bool) (s : List Char) : Option (Lexeme × Nat) :=
  let whole := wholeDigits s
  let fraction := places (s.drop whole.length)
  let length := whole.length + if fraction = [] then 0 else fraction.length + 1
  let float (exponent : Int) : Lexeme :=
    .literal (.float
      (.ofDecimal negative (digitsValue (whole ++ fraction)) (exponent - fraction.length)))
  if whole = [] then none
  else
    match exponent? (s.drop length) with
    | some (exponent, more) => some (float exponent, length + more)
    | none =>
      if fraction ≠ [] then some (float 0, length)
      else if maxDigits < whole.length then some (.longInt whole.length, length)
      else some (.literal (.int (signed negative (digitsValue whole))), length)

/-- The longest number that a text starts with. -/
def number? : List Char → Option (Lexeme × Nat)
  | '-' :: s => (unsignedNumber? true s).map fun (l, length) => (l, length + 1)
  | s => unsignedNumber? false s

/-- Values that are written as words. -/
def wordValues : List (List Char × Value) := [
  ("null".toList, .null), ("true".toList, .bool true), ("false".toList, .bool false),
  ("NaN".toList, .float .nan), ("Infinity".toList, .float (.infinity false)),
  ("-Infinity".toList, .float (.infinity true))]

/-- The token at the head of a text that starts with no space, and the number of its characters. -/
def lexeme (offset : Nat) (s : List Char) : Lexeme × Nat :=
  match s with
  | '[' :: _ => (.openArray, 1)
  | ']' :: _ => (.closeArray, 1)
  | '\x7b' :: _ => (.openObject, 1)
  | '\x7d' :: _ => (.closeObject, 1)
  | ',' :: _ => (.comma, 1)
  | ':' :: _ => (.colon, 1)
  | '"' :: rest =>
    match textFrom offset 0 (offset + 1) [] rest with
    | .ok (t, stop) => (.text t, stop - offset)
    | .error f => (.badText f, s.length)
  | _ =>
    match wordValues.find? (·.1.isPrefixOf s) with
    | some (w, v) => (.literal v, w.length)
    | none => (number? s).getD (.junk, s.length)

/-- The tokens of a text that starts at `offset`, up to the first that is not well-formed. The first
`skip` characters belong to a token already read. -/
def tokensFrom (skip offset : Nat) : List Char → List Token
  | [] => []
  | c :: s =>
    match skip with
    | k + 1 => tokensFrom k (offset + 1) s
    | 0 =>
      if isSpace c then tokensFrom 0 (offset + 1) s
      else
        let (l, length) := lexeme offset (c :: s)
        ⟨l, offset⟩ :: tokensFrom (length - 1) (offset + 1) s

end SqlCompose.Json
