import SqlCompose.Json.Token

/-!
Values from JSON texts. The reader keeps a stack of the arrays and objects that are still open, so
that it recurses on the tokens alone.
-/

namespace SqlCompose.Json

inductive ReadError where
  | malformed (f : Fault)
  | longInt (digits : Nat)
  deriving DecidableEq

/-- An array or object that is open, with what it holds so far: the items in reverse, or the
members and the name of the member being read. -/
inductive Frame where
  | array (items : List Value)
  | object (members : List (String × Value)) (name : String)

/-- What may come next. -/
inductive Expected where
  | value
  /-- The first item of an array, or its end. -/
  | firstItem
  /-- The first name in an object, or its end. -/
  | firstName
  | name (members : List (String × Value))
  | colon (members : List (String × Value)) (name : String)
  /-- A comma or the end of the innermost open frame, or of the text, after a value. -/
  | after (v : Value)

/-- The problem of a text that does not go on as expected. -/
def Expected.problem (stack : List Frame) : Expected → Problem
  | .value | .firstItem => .noValue
  | .firstName | .name _ => .noName
  | .colon .. => .noColon
  | .after _ => if stack.isEmpty then .extraData else .noComma

/-- Reads the tokens of a text of `size` characters. -/
def readTokens (size : Nat) : List Frame → Expected → List Token → Except ReadError Value
  | [], .after v, [] => .ok v
  | stack, expected, [] => .error (.malformed ⟨expected.problem stack, size⟩)
  | stack, expected, ⟨l, offset⟩ :: ts =>
    let wrong := Except.error (.malformed ⟨expected.problem stack, offset⟩)
    match expected, l with
    | .value, .openArray | .firstItem, .openArray => readTokens size (.array [] :: stack) .firstItem ts
    | .value, .openObject | .firstItem, .openObject => readTokens size stack .firstName ts
    | .value, .text t | .firstItem, .text t => readTokens size stack (.after (.str t)) ts
    | .value, .literal v | .firstItem, .literal v => readTokens size stack (.after v) ts
    | .value, .longInt digits | .firstItem, .longInt digits => .error (.longInt digits)
    | .value, .badText f | .firstItem, .badText f => .error (.malformed f)
    | .firstItem, .closeArray => readTokens size stack.tail (.after (.arr [])) ts
    | .firstName, .closeObject => readTokens size stack (.after (.obj [])) ts
    | .firstName, .text t => readTokens size stack (.colon [] t) ts
    | .name members, .text t => readTokens size stack (.colon members t) ts
    | .firstName, .badText f | .name _, .badText f => .error (.malformed f)
    | .colon members name, .colon => readTokens size (.object members name :: stack) .value ts
    | .after v, l =>
      match stack, l with
      | .array items :: stack, .comma => readTokens size (.array (v :: items) :: stack) .value ts
      | .array items :: stack, .closeArray =>
        readTokens size stack (.after (.arr (v :: items).reverse)) ts
      | .object members name :: stack, .comma =>
        readTokens size stack (.name (putMember name v members)) ts
      | .object members name :: stack, .closeObject =>
        readTokens size stack (.after (.obj (putMember name v members))) ts
      | _, _ => wrong
    | _, _ => wrong

/-- The value that a JSON text writes. Of two members of one name the last gives the value and the
first the place. -/
def read (text : String) : Except ReadError Value :=
  let s := text.toList
  if s.head? = some '\ufeff' then .error (.malformed ⟨.byteOrderMark, 0⟩)
  else readTokens s.length [] .value (tokensFrom 0 0 s)

/-- A fault with its place in the text by line, column and offset, lines and columns from one. -/
def Fault.describe (text : String) (f : Fault) : String :=
  let before := text.toList.take f.offset
  let line := before.count '\n' + 1
  let column := (before.reverse.takeWhile (· ≠ '\n')).length + 1
  s!"{f.problem.message}: line {line} column {column} (char {f.offset})"

end SqlCompose.Json
