import SqlCompose.Text.Run

/-!
Sets of characters given by ranges of code points, the blank characters among them, and texts
without those around them.
-/

namespace SqlCompose

/-- Whether `n` lies in one of the ranges, which are in increasing order. -/
def inRanges (n : Nat) : List (Nat × Nat) → Bool
  | [] => false
  | (first, last) :: rest => first ≤ n && (n ≤ last || inRanges n rest)

/-- Unicode white space together with the separators U+001C to U+001F. -/
def blankRanges : List (Nat × Nat) := [
  (0x9, 0xD), (0x1C, 0x20), (0x85, 0x85), (0xA0, 0xA0), (0x1680, 0x1680), (0x2000, 0x200A),
  (0x2028, 0x2029), (0x202F, 0x202F), (0x205F, 0x205F), (0x3000, 0x3000)]

def isBlankChar (c : Char) : Bool := inRanges c.toNat blankRanges

/-- Unicode white space, to which the separators U+001C to U+001F do not belong. -/
def isSpaceChar (c : Char) : Bool :=
  isBlankChar c && !(0x1C ≤ c.toNat && c.toNat ≤ 0x1F)

def trimRight (p : Char → Bool) (s : List Char) : List Char := (s.reverse.dropWhile p).reverse

def trimBoth (p : Char → Bool) (s : List Char) : List Char := trimRight p (s.dropWhile p)

/-- Nothing but blank characters, and possibly nothing at all. -/
def isBlank (s : String) : Bool := s.toList.all isBlankChar

def strip (s : String) : String := String.ofList (trimBoth isBlankChar s.toList)

theorem strip_of_not_blank {s : String} (h : ∀ c ∈ s.toList, isBlankChar c = false) :
    strip s = s := by
  have hdrop {l : List Char} (hl : ∀ c ∈ l, isBlankChar c = false) :
      l.dropWhile isBlankChar = l := by
    cases l with
    | nil => rfl
    | cons c l => rw [List.dropWhile_cons_of_neg (by simp [hl c List.mem_cons_self])]
  rw [strip, trimBoth, trimRight, hdrop h, hdrop (by simpa using h), List.reverse_reverse,
    String.ofList_toList]

def stripRight (s : String) : String := String.ofList (trimRight isBlankChar s.toList)

/-- The maximal runs without blank characters. -/
def wordsBetweenBlanks (s : List Char) : List (List Char) :=
  (runs isBlankChar s).filter fun r => !r.all isBlankChar

end SqlCompose
