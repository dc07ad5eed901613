import SqlCompose.Composer

/-!
Sessions: actions that share a registry, one after another. What an action registers is there for
those after it.
-/

namespace SqlCompose

inductive Action where
  | register (name : String) (make : Dialect.Maker)
  | create (name : String)
  | compose (c : Config) (q : Query) (o : Options)
  | composeValues (c : Config) (query : Value) (options : Option Value)

inductive Reply where
  /-- The registered names after a registration. -/
  | targets (names : List String)
  | dialect (d : Except Abort Dialect)
  | outcome (x : Outcome)

namespace Registry

/-- The registry after an action, and the reply. -/
def step (r : Registry) : Action → Registry × Reply
  | .register name make =>
    let r := r.register name make
    (r, .targets r.targets)
  | .create name => (r, .dialect (r.find name))
  | .compose c q o => (r, .outcome (SqlCompose.compose r c q o))
  | .composeValues c query options => (r, .outcome (SqlCompose.composeValues r c query options))

/-- The registry after a session, and the replies in order. -/
def run (r : Registry) : List Action → Registry × List Reply
  | [] => (r, [])
  | a :: as =>
    let (r, reply) := r.step a
    let (r, replies) := r.run as
    (r, reply :: replies)

end Registry
end SqlCompose
