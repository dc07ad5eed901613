import SqlCompose.Text.Blank
import SqlCompose.Text.Digit
import SqlCompose.Text.Quoted
import SqlCompose.Value

/-!
Integers read from texts and from other values.
-/

namespace SqlCompose

/-- Why a value is not taken for an integer. -/
inductive NumberFault where
  /-- The value is of a kind that no number is read from. -/
  | noNumber (kind : String)
  | unreadable (text : String)
  | tooManyDigits (count : Nat)
  | notANumber
  | infinite

def tooManyDigitsMessage (count : Nat) : String :=
  s!"Exceeds the limit ({maxDigits} digits) for integer string conversion: value has {count} digits; use sys.set_int_max_str_digits() to increase the limit"

/-- How many characters of a quoted text a message shows. -/
def shownChars : Nat := 200

def NumberFault.message : NumberFault → String
  | .noNumber kind =>
    s!"int() argument must be a string, a bytes-like object or a real number, not '{kind}'"
  | .unreadable text =>
    "invalid literal for int() with base 10: " ++ String.ofList ((quoted text).toList.take shownChars)
  | .tooManyDigits count => tooManyDigitsMessage count
  | .notANumber => "cannot convert float NaN to integer"
  | .infinite => "cannot convert float infinity to integer"

/-- The digits that a text starts with, and the underscores among them. -/
def digitSpan (digit? : Char → Option Nat) (s : List Char) : List Char × List Char :=
  s.span fun c => c == '_' || (digit? c).isSome

/-- The integer that a text shows in the digits of any script, with white space around it. -/
def Value.intOfText (text : String) : Except NumberFault Int :=
  let (negative, s) := takeSign (trimBoth isSpaceChar text.toList)
  let (number, rest) := digitSpan anyDigit? s
  match grouped? anyDigit? number with
  | none => .error (.unreadable text)
  | some ds =>
    if maxDigits < ds.length then .error (.tooManyDigits ds.length)
    else if rest.isEmpty then .ok (signed negative (ofDigits ds))
    else .error (.unreadable text)

/-- The integer nearest to a value toward zero. -/
def Value.toInt : Value → Except NumberFault Int
  | .null => .error (.noNumber "NoneType")
  | .bool b => .ok (if b then 1 else 0)
  | .int n => .ok n
  | .float x =>
    if x.isNaN then .error .notANumber
    else if x.isFinite then .ok x.truncate
    else .error .infinite
  | .str s => Value.intOfText s
  | .arr _ => .error (.noNumber "list")
  | .obj _ => .error (.noNumber "dict")

end SqlCompose
