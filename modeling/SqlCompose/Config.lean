import SqlCompose.Error
import SqlCompose.Identifier
import SqlCompose.Shape.Decoded

/-!
Settings of a composer, and the calls that set them one after another.
-/

namespace SqlCompose

open Shape Shape.Decoded

/-- The dialect to write for and the names of the two window columns, which only paged and ordered
statements carry, and those only if `windowColumns` is set. -/
structure Config where
  target : String := "sqlite"
  numColumn : String := "_num"
  remainingColumn : String := "_remaining"
  windowColumns : Bool := true
  deriving DecidableEq

def decodeColumn (v : Value) : Decoded String :=
  match v with
  | .str s =>
    if isPlainIdentifier s then pure s
    else fault (.rejected ("'" ++ s ++ "' is not a plain SQL identifier"))
  | _ => fault .noText

namespace Config

def decode : Value → Decoded Config
  | .obj ms =>
    Config.mk <$> member ms "target" "sqlite" text <*>
        member ms "num_column" "_num" decodeColumn <*>
        member ms "remaining_column" "_remaining" decodeColumn <*>
        member ms "pagination_columns" true bool <*
      onlyMembers ["target", "num_column", "remaining_column", "pagination_columns"] ms
  | _ => fault (.noRecord .config)

def toValue (c : Config) : Value :=
  .obj [("target", .str c.target), ("num_column", .str c.numColumn),
    ("remaining_column", .str c.remainingColumn), ("pagination_columns", .bool c.windowColumns)]

/-- One setting of a config under construction. The arguments are not checked before the end. -/
inductive Call where
  | target (name : Value)
  /-- Turns the window columns on, under these names. Both may be left out. -/
  | paginationColumns (num remaining : Option Value)
  | withoutPaginationColumns

/-- What a call puts into the members gathered so far. -/
def Call.apply (ms : List (String × Value)) : Call → List (String × Value)
  | .target name => putMember "target" name ms
  | .paginationColumns num remaining =>
    putMember "pagination_columns" (.bool true)
      (putMember "remaining_column" (remaining.getD (.str "_remaining"))
        (putMember "num_column" (num.getD (.str "_num")) ms))
  | .withoutPaginationColumns => putMember "pagination_columns" (.bool false) ms

def ofCalls (calls : List Call) : Decoded Config := decode (.obj (calls.foldl Call.apply []))

/-- The config that calls have set, which is checked as a whole. -/
def build (calls : List Call) : Except BuildError Config :=
  (ofCalls calls).mapError fun faults => .malformedConfig ⟨.config, faults⟩

end Config
end SqlCompose
