import SqlCompose.Error

/-!
Dialects differ in the marker that they write for the parameter at a position. Positions count from
one. Under the names of targets are registered not dialects but what makes them, each time that a
name is asked for. The last registration of a name counts.
-/

namespace SqlCompose

structure Dialect where
  name : String
  marker : Int → Except Abort String

namespace Dialect

/-- Dialects are made when they are asked for, and making one may fail. -/
abbrev Maker := Except Abort Dialect

def sqlite : Dialect := ⟨"sqlite", fun _ => .ok "?"⟩

def postgres : Dialect := ⟨"postgres", fun n => .ok ("$" ++ toString n)⟩

def mysql : Dialect := ⟨"mysql", fun _ => .ok "%s"⟩

end Dialect

structure Registry where
  entries : List (String × Dialect.Maker)

namespace Registry

def builtin : Registry :=
  ⟨[("sqlite", .ok .sqlite), ("postgres", .ok .postgres), ("mysql", .ok .mysql)]⟩

def register (r : Registry) (name : String) (make : Dialect.Maker) : Registry :=
  ⟨putMember name make r.entries⟩

/-- The registered names in the order of code points. -/
def targets (r : Registry) : List String := (r.entries.map (·.1)).mergeSort

/-- Makes the dialect that is registered under a name. If that fails, the failure is told as it
is. -/
def find (r : Registry) (name : String) : Except Abort Dialect :=
  match r.entries.lookup name with
  | some make => make
  | none => .error (.refused (.unknownTarget name r.targets))

end Registry
end SqlCompose
