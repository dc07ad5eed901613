import SqlCompose.Shape.Fault
import SqlCompose.Number.Canonical
import SqlCompose.Value

/-!
Decoding values. Parts are decoded independently, and the faults of all of them are reported in
order.
-/

namespace SqlCompose.Shape

def Decoded (α : Type) : Type := Except (List Fault) α

namespace Decoded

/-- Keeps the faults of both sides. -/
def seq (f : Decoded (α → β)) (x : Decoded α) : Decoded β :=
  match f, x with
  | .ok f, .ok a => .ok (f a)
  | .ok _, .error e => .error e
  | .error e, .ok _ => .error e
  | .error e, .error e' => .error (e ++ e')

instance : Applicative Decoded where
  pure := Except.ok
  seq f x := f.seq (x ())

def fault (p : Problem) : Decoded α := .error [⟨[], p⟩]

/-- Places the faults of a part within the whole. -/
def under (s : Step) (x : Decoded α) : Decoded α :=
  x.mapError fun e => e.map fun f => { f with path := s :: f.path }

end Decoded

open Decoded

def text : Value → Decoded String
  | .str s => pure s
  | _ => fault .noText

/-- The integers of 64 bits are those from `-wordBound` to less than `wordBound`. -/
def wordBound : Nat := 0x8000000000000000

/-- The integer that a float is. It must lie strictly between the bounds of 64 bits. -/
def intOfFloat (x : Binary64) : Decoded Int :=
  if !x.isFinite then fault .infiniteInt
  else if !x.isIntegral then fault .fractionalInt
  else if x.truncate.natAbs < wordBound then pure x.truncate
  else fault .longInt

/-- Integers are also read from booleans, floats and texts. -/
def int : Value → Decoded Int
  | .int n => pure n
  | .bool b => pure (if b then 1 else 0)
  | .float x => intOfFloat x
  | .str s =>
    match readInt s.toList with
    | .ok n => pure n
    | .error .tooLong => fault .longInt
    | .error .unreadable => fault .unreadableInt
  | _ => fault .noInt

def trueTexts : List String := ["1", "true", "t", "yes", "y", "on"]

def falseTexts : List String := ["0", "false", "f", "no", "n", "off"]

/-- Zero and one are booleans. -/
def boolOfInt (n : Int) : Decoded Bool :=
  if n = 0 then pure false else if n = 1 then pure true else fault .unreadableBool

/-- Booleans are also read from texts in any case and from integers and floats, of which only those
are looked at that are integers of 64 bits. -/
def bool : Value → Decoded Bool
  | .bool b => pure b
  | .int n =>
    if -(wordBound : Int) ≤ n ∧ n < wordBound then boolOfInt n else fault .noBool
  | .float x =>
    match intOfFloat x with
    | .ok n => boolOfInt n
    | .error _ => fault .noBool
  | .str s =>
    let s := String.ofList (s.toList.map Char.toLower)
    if s ∈ trueTexts then pure true
    else if s ∈ falseTexts then pure false
    else fault .unreadableBool
  | _ => fault .noBool

def nullable (decode : Value → Decoded α) : Value → Decoded (Option α)
  | .null => pure none
  | v => some <$> decode v

/-- The items of a list that begins at `index`. -/
def items (decode : Value → Decoded α) (index : Nat) : List Value → Decoded (List α)
  | [] => pure []
  | v :: vs => List.cons <$> (decode v).under (.item index) <*> items decode (index + 1) vs

def list (decode : Value → Decoded α) : Value → Decoded (List α)
  | .arr vs => items decode 0 vs
  | _ => fault .noList

def entries (decode : Value → Decoded α) :
    List (String × Value) → Decoded (List (String × α))
  | [] => pure []
  | (name, v) :: rest =>
    List.cons <$> (Prod.mk name <$> (decode v).under (.member name)) <*> entries decode rest

def map (decode : Value → Decoded α) : Value → Decoded (List (String × α))
  | .obj ms => entries decode ms
  | _ => fault .noMap

def anyValue (v : Value) : Decoded Value := pure v

/-- The member `name`, or `default` if there is none. -/
def member (ms : List (String × Value)) (name : String) (default : α)
    (decode : Value → Decoded α) : Decoded α :=
  match ms.lookup name with
  | none => pure default
  | some v => (decode v).under (.member name)

def requiredMember (ms : List (String × Value)) (name : String) (decode : Value → Decoded α) :
    Decoded α :=
  match ms.lookup name with
  | none => (fault .missing).under (.member name)
  | some v => (decode v).under (.member name)

/-- Refuses members other than those named. -/
def onlyMembers (names : List String) (ms : List (String × Value)) : Decoded Unit :=
  match ms.filter fun m => m.1 ∉ names with
  | [] => pure ()
  | others => .error (others.map fun m => ⟨[.member m.1], .unknownMember⟩)

end SqlCompose.Shape
