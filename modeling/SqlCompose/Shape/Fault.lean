/-!
Faults in the shape of a value: where it is not what a record asks for, and why.
-/

namespace SqlCompose

/-- The records that values are decoded into. -/
inductive Model where
  | query
  | subquery
  | view
  | options
  | config
  | pageInfo
  deriving DecidableEq

namespace Shape

inductive Step where
  | member (name : String)
  | item (index : Nat)
  deriving DecidableEq

inductive Problem where
  | noRecord (model : Model)
  | missing
  | unknownMember
  | noText
  | noMap
  | noList
  | noInt
  | unreadableInt
  | longInt
  | fractionalInt
  | infiniteInt
  | noBool
  | unreadableBool
  /-- A check of the record's own refuses the member. -/
  | rejected (reason : String)
  deriving DecidableEq

structure Fault where
  path : List Step
  problem : Problem
  deriving DecidableEq

/-- The faults of a value that was to become a record of the kind `model`. -/
structure Error where
  model : Model
  faults : List Fault
  deriving DecidableEq

end Shape
end SqlCompose
