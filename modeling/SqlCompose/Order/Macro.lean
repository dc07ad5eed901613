import SqlCompose.Error
import SqlCompose.Order.Term
import SqlCompose.Text.Scan

/-!
Order macros, the marks in a text that stand for the order terms of the request.
-/

namespace SqlCompose

inductive OrderMacro where
  /-- The terms as they are. -/
  | forward
  /-- The terms reversed. -/
  | backward
  deriving DecidableEq

namespace OrderMacro

def spelling : OrderMacro → String
  | forward => "$order_by"
  | backward => "$rev_order_by"

/-- A macro at the head of a text. It ends where a word ends. -/
def head? (s : List Char) : Option (OrderMacro × Nat) :=
  ([backward, forward].find? fun m =>
    m.spelling.toList.isPrefixOf s && atWordEnd (s.drop m.spelling.length)).map
      fun m => (m, m.spelling.length)

def expansion (terms : List String) : OrderMacro → String
  | forward => ", ".intercalate terms
  | backward => ", ".intercalate (terms.map reverseTerm)

end OrderMacro

/-- Replaces all macros of a text at once. What is put in their place is not looked at again. -/
def expandOrder (terms : List String) (text : String) : Except BuildError String :=
  let ps := pieces OrderMacro.head? text.toList
  if ps.all (·.found?.isNone) then .ok text
  else if terms.isEmpty then .error .noOrderTerms
  else .ok (String.ofList (fill (fun m => (m.expansion terms).toList) ps))

end SqlCompose
