/-!
Identifiers. Names of tables, aliases, CTEs and output fields are reduced to the characters
`A-Z a-z 0-9 _` before they enter a statement.
-/

namespace SqlCompose

def isIdentifierChar (c : Char) : Bool := c.isAlphanum || c == '_'

/-- Drops every character that an identifier does not have. -/
def sanitize (s : String) : String := String.ofList (s.toList.filter isIdentifierChar)

/-- A text that is an identifier as it stands. -/
def isPlainIdentifier (s : String) : Bool := s != "" && s.toList.all isIdentifierChar

/-- A text that leaves an identifier when sanitized. -/
def hasIdentifierChars (s : String) : Bool := s.toList.any isIdentifierChar

@[simp] theorem toList_sanitize (s : String) :
    (sanitize s).toList = s.toList.filter isIdentifierChar := by simp [sanitize]

theorem sanitize_sanitize (s : String) : sanitize (sanitize s) = sanitize s := by
  simp [sanitize]

theorem hasIdentifierChars_iff (s : String) : hasIdentifierChars s ↔ sanitize s ≠ "" := by
  rw [ne_eq, ← String.toList_inj]
  simp [hasIdentifierChars]

theorem isPlainIdentifier_iff (s : String) : isPlainIdentifier s ↔ s ≠ "" ∧ sanitize s = s := by
  rw [← @String.toList_inj (sanitize s)]
  simp [isPlainIdentifier, List.filter_eq_self]

end SqlCompose
