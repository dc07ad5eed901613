/-!
Scanning a text for occurrences of something. Occurrences are found from the left and do not
overlap; each other character stands for itself.
-/

namespace SqlCompose

inductive Piece (α : Type) where
  | char (c : Char)
  | found (a : α)

/-- The pieces of a text whose first `k` characters belong to an occurrence already found. What
starts at the head of a text, and the number of its characters, is given by `head?`. -/
def piecesAfter (head? : List Char → Option (α × Nat)) : Nat → List Char → List (Piece α)
  | _, [] => []
  | k + 1, _ :: s => piecesAfter head? k s
  | 0, c :: s =>
    match head? (c :: s) with
    | some (a, n) => .found a :: piecesAfter head? (n - 1) s
    | none => .char c :: piecesAfter head? 0 s

def pieces (head? : List Char → Option (α × Nat)) (s : List Char) : List (Piece α) :=
  piecesAfter head? 0 s

theorem piecesAfter_eq (head? : List Char → Option (α × Nat)) (k : Nat) (s : List Char) :
    piecesAfter head? k s = pieces head? (s.drop k) := by
  unfold pieces
  induction s generalizing k with
  | nil => cases k <;> rfl
  | cons c s ih =>
    cases k with
    | zero => rfl
    | succ k => exact ih k

@[simp] theorem pieces_nil (head? : List Char → Option (α × Nat)) : pieces head? [] = [] := rfl

theorem pieces_cons_of_none {head? : List Char → Option (α × Nat)} {c : Char} {s : List Char}
    (h : head? (c :: s) = none) : pieces head? (c :: s) = .char c :: pieces head? s := by
  simp only [pieces, piecesAfter, h]

theorem pieces_cons_of_some {head? : List Char → Option (α × Nat)} {c : Char} {s : List Char}
    {a : α} {n : Nat} (h : head? (c :: s) = some (a, n)) :
    pieces head? (c :: s) = .found a :: pieces head? (s.drop (n - 1)) := by
  simp only [pieces, piecesAfter, h]
  rw [piecesAfter_eq, pieces]

def Piece.found? : Piece α → Option α
  | .char _ => none
  | .found a => some a

/-- What is found in a text, in order. -/
def occurrences (head? : List Char → Option (α × Nat)) (s : List Char) : List α :=
  (pieces head? s).filterMap Piece.found?

/-- The text of the pieces, with `f a` in the place of each `a`. -/
def fill (f : α → List Char) (ps : List (Piece α)) : List Char :=
  ps.flatMap fun
    | .char c => [c]
    | .found a => f a

@[simp] theorem fill_nil (f : α → List Char) : fill f [] = [] := rfl

@[simp] theorem fill_char (f : α → List Char) (c : Char) (ps : List (Piece α)) :
    fill f (.char c :: ps) = c :: fill f ps := rfl

@[simp] theorem fill_found (f : α → List Char) (a : α) (ps : List (Piece α)) :
    fill f (.found a :: ps) = f a ++ fill f ps := rfl

end SqlCompose
