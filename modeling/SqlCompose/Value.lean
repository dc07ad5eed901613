import SqlCompose.Number.Binary64

/-!
Values of requests, parameters and rows. The members of an object keep their order.
-/

namespace SqlCompose

inductive Value where
  | null
  | bool (b : Bool)
  | int (n : Int)
  | float (x : Binary64)
  | str (s : String)
  | arr (items : List Value)
  | obj (members : List (String × Value))
  deriving Inhabited

/-- Gives `name` the value `a`: in its place if it has one, otherwise at the end. -/
def putMember (name : String) (a : α) : List (String × α) → List (String × α)
  | [] => [(name, a)]
  | (n, b) :: rest => if n = name then (n, a) :: rest else (n, b) :: putMember name a rest

theorem lookup_putMember (n m : String) (a : α) (l : List (String × α)) :
    (putMember n a l).lookup m = if m = n then some a else l.lookup m := by
  induction l with
  | nil =>
    by_cases h : m = n
    · simp [putMember, h]
    · have : (m == n) = false := by simpa using h
      simp [putMember, List.lookup_cons, h, this]
  | cons e l ih =>
    obtain ⟨k, b⟩ := e
    by_cases hk : k = n
    · by_cases h : m = n
      · simp [putMember, hk, h]
      · have : (m == n) = false := by simpa using h
        simp [putMember, List.lookup_cons, hk, h, this]
    · by_cases h : m = k
      · simp [putMember, hk, h]
      · have : (m == k) = false := by simpa using h
        simp [putMember, List.lookup_cons, hk, this, ih]

theorem mem_names_putMember {n m : String} {a : α} {l : List (String × α)} :
    m ∈ (putMember n a l).map Prod.fst ↔ m = n ∨ m ∈ l.map Prod.fst := by
  induction l with
  | nil => simp [putMember]
  | cons e l ih =>
    obtain ⟨k, b⟩ := e
    by_cases hk : k = n
    · simp [putMember, hk]
    · rw [putMember, if_neg hk, List.map_cons, List.mem_cons, ih, List.map_cons, List.mem_cons]
      exact or_left_comm

theorem isSome_lookup_iff_mem {name : String} {l : List (String × α)} :
    (l.lookup name).isSome ↔ name ∈ l.map Prod.fst := by
  rw [List.lookup_isSome_iff, List.mem_map]
  exact exists_congr fun e => and_congr_right fun _ => by rw [beq_iff_eq, eq_comm]

theorem exists_lookup_iff_mem {name : String} {l : List (String × α)} :
    (∃ a, l.lookup name = some a) ↔ name ∈ l.map Prod.fst := by
  rw [← Option.isSome_iff_exists, isSome_lookup_iff_mem]

theorem lookup_eq_none_iff_not_mem {name : String} {l : List (String × α)} :
    l.lookup name = none ↔ name ∉ l.map Prod.fst := by
  rw [← isSome_lookup_iff_mem, Option.not_isSome_iff_eq_none]

end SqlCompose
