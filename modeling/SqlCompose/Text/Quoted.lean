import SqlCompose.Text.Blank
import SqlCompose.Text.HiddenTable

/-!
Quoted texts, as error messages show them. A text stands between single quotes, or between double
quotes if it holds a single quote and no double quote. The quote in use, the backslash and what
cannot be seen are escaped.
-/

namespace SqlCompose

private def hexDigits (width n : Nat) : List Char :=
  let ds := Nat.toDigits 16 n
  List.replicate (width - ds.length) '0' ++ ds

/-- A code point by its number, in the shortest of the forms `\xhh`, `\uhhhh` and `\Uhhhhhhhh`. -/
def codePointEscape (n : Nat) : List Char :=
  if n < 0x100 then '\\' :: 'x' :: hexDigits 2 n
  else if n < 0x10000 then '\\' :: 'u' :: hexDigits 4 n
  else '\\' :: 'U' :: hexDigits 8 n

def quotedChar (quote c : Char) : List Char :=
  if c = quote ∨ c = '\\' then ['\\', c]
  else if c = '\n' then ['\\', 'n']
  else if c = '\r' then ['\\', 'r']
  else if c = '\t' then ['\\', 't']
  else if inRanges c.toNat hiddenRanges then codePointEscape c.toNat
  else [c]

def quoteFor (s : List Char) : Char :=
  if s.contains '\'' && !s.contains '"' then '"' else '\''

def quoted (s : String) : String :=
  let quote := quoteFor s.toList
  String.ofList (quote :: s.toList.flatMap (quotedChar quote) ++ [quote])

/-- Texts in brackets, such as `['a', 'b']`. -/
def quotedList (ss : List String) : String :=
  "[" ++ ", ".intercalate (ss.map quoted) ++ "]"

end SqlCompose
