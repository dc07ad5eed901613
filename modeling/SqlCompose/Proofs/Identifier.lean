import SqlCompose.Identifier
import SqlCompose.Text.Blank
import SqlCompose.Text.Word

/-!
# Characters of identifiers

The characters of identifiers are ASCII characters, so what holds of all of them is decided by
looking at each (`of_isIdentifierChar`). They are characters of words and not blank; hence
sanitizing a text leaves it blank or not, as it was, if the text is blank or has a character of an
identifier.
-/

namespace SqlCompose

variable {c : Char} {s : String}

theorem isIdentifierChar_iff :
    isIdentifierChar c ↔
      ('A' ≤ c ∧ c ≤ 'Z') ∨ ('a' ≤ c ∧ c ≤ 'z') ∨ ('0' ≤ c ∧ c ≤ '9') ∨ c = '_' := by
  change ((decide ('A'.val ≤ c.val ∧ c.val ≤ 'Z'.val) || ('a'.val ≤ c.val && c.val ≤ 'z'.val)) ||
    ('0'.val ≤ c.val && c.val ≤ '9'.val)) || c == '_' ↔ _
  simp only [Bool.or_eq_true, Bool.and_eq_true, decide_eq_true_eq, beq_iff_eq, or_assoc]
  rfl

theorem toNat_lt_of_isIdentifierChar (h : isIdentifierChar c) : c.toNat < 128 := by
  have hle {d : Char} (hc : c ≤ d) (hd : d.toNat < 128) : c.toNat < 128 :=
    Nat.lt_of_le_of_lt (UInt32.le_iff_toNat_le.mp hc) hd
  rcases isIdentifierChar_iff.mp h with h | h | h | rfl
  · exact hle h.2 (by decide)
  · exact hle h.2 (by decide)
  · exact hle h.2 (by decide)
  · decide

theorem of_isIdentifierChar {p : Char → Bool}
    (hp : ∀ n < 128, isIdentifierChar (Char.ofNat n) → p (Char.ofNat n))
    (h : isIdentifierChar c) : p c := by
  have hc := hp c.toNat (toNat_lt_of_isIdentifierChar h)
  rw [Char.ofNat_toNat] at hc
  exact hc h

theorem isWordChar_of_isIdentifierChar (h : isIdentifierChar c) : isWordChar c :=
  of_isIdentifierChar (by decide) h

theorem not_isBlankChar_of_isIdentifierChar (h : isIdentifierChar c) : isBlankChar c = false := by
  simpa using of_isIdentifierChar (p := fun c => !isBlankChar c) (by decide) h

/-! ### Sanitized texts -/

theorem isIdentifierChar_of_mem_sanitize (h : c ∈ (sanitize s).toList) : isIdentifierChar c := by
  rw [toList_sanitize] at h
  exact (List.mem_filter.mp h).2

theorem hasIdentifierChars_sanitize (s : String) :
    hasIdentifierChars (sanitize s) = hasIdentifierChars s := by
  rw [Bool.eq_iff_iff, hasIdentifierChars_iff, hasIdentifierChars_iff, sanitize_sanitize]

theorem hasIdentifierChars_of_isPlainIdentifier (h : isPlainIdentifier s) :
    hasIdentifierChars s := by
  obtain ⟨hne, hsan⟩ := (isPlainIdentifier_iff s).mp h
  rwa [hasIdentifierChars_iff, hsan]

theorem not_isBlank_of_hasIdentifierChars (h : hasIdentifierChars s) : isBlank s = false := by
  obtain ⟨c, hc, hid⟩ := List.any_eq_true.mp h
  refine Bool.eq_false_iff.mpr fun hblank => ?_
  have := List.all_eq_true.mp hblank c hc
  rw [not_isBlankChar_of_isIdentifierChar hid] at this
  contradiction

theorem isBlank_sanitize (h : isBlank s) : isBlank (sanitize s) := by
  refine List.all_eq_true.mpr fun c hc => List.all_eq_true.mp h c ?_
  rw [toList_sanitize] at hc
  exact (List.mem_filter.mp hc).1

end SqlCompose
