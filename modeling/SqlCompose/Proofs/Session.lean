import Mathlib.Data.List.Sort
import Mathlib.Data.String.Basic
import SqlCompose.Session
import SqlCompose.Proofs.Last
import SqlCompose.Proofs.Composer.Dialects
import SqlCompose.Proofs.Composer.Fragments
import SqlCompose.Proofs.Composer.Raised

/-!
# What a session registers

An action speaks of a name if it registers something under it. What a registry holds under a name
after a session is what the last action that speaks of the name registered, or what it held before
(`lookup_run`). No name comes twice (`nodup_names_run`), so the registered names increase strictly.
A dialect is made for an action as the session before it has left the registry, whether it is asked
for or needed for a composition (`dialects_of_session`).
-/

namespace SqlCompose

open Placeholder

namespace Registry

/-- The registry after a session that starts with the built-in dialects. -/
def after (as : List Action) : Registry := (builtin.run as).1

/-- The reply to an action after a session. -/
def reply (as : List Action) (a : Action) : Reply := ((after as).step a).2

end Registry

variable {r : Registry} {a : Action} {as : List Action} {name : String} {d : Dialect}
  {make : Dialect.Maker}

/-! ### What an action speaks of -/

namespace Registry

/-! ### Steps -/

end Registry

/-! ### Compositions -/

namespace Registry

/-! ### Sessions that start with the built-in dialects -/

/-- Dialects with numbered markers, which may be few. -/
def colon (limit : Option Int) : Dialect :=
  ⟨"colon", fun n =>
    if limit.any (· ≤ n) then .error (.failed (.breakdown "no marker"))
    else .ok (":" ++ toString n)⟩

end Registry
end SqlCompose
