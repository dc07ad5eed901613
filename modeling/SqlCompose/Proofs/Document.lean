import SqlCompose.Document
import SqlCompose.Proofs.Json
import SqlCompose.Proofs.Composer.Raised

/-!
# What comes of a document

Where dialects are made, a statement or an error of composition comes of a document unless reading
it meets an integer of too many digits, which is told as no error of composition
(`composeJson_outcome`). Such a document can be a request like any other (`longValueRequest`).
Documents are read whatever their nesting; a reader with a limit on it agrees up to that limit.
-/

namespace SqlCompose

theorem composeJson_eq_longInt_iff {r : Registry} {c : Config} {text : String} {digits : Nat} :
    composeJson r c text = .error (.longInt digits) ↔ Json.MeetsLongInt text digits := by
  rw [← Json.read_eq_longInt_iff]
  unfold composeJson
  cases Json.read text with
  | error e => cases e <;> simp
  | ok v =>
    dsimp only
    split
    · simp
    · next query options _ =>
      cases (composeValues r c query options).result with
      | ok s => simp [Except.mapError]
      | error a => cases a <;> simp [Except.mapError, DocumentError.ofAbort]

/-- Only a dialect that cannot be made fails. -/
theorem lookup_of_composeJson_eq_failed {r : Registry} {c : Config} {text : String} {f : Failure}
    (h : composeJson r c text = .error (.failed f)) :
    r.entries.lookup c.target = some (.error (.failed f)) := by
  unfold composeJson at h
  split at h
  · simp at h
  · simp at h
  · split at h
    · simp at h
    · next query options _ =>
      cases hresult : (composeValues r c query options).result with
      | ok s => simp [hresult, Except.mapError] at h
      | error a =>
        cases a with
        | refused e => simp [hresult, Except.mapError, DocumentError.ofAbort] at h
        | failed f' =>
          obtain rfl : f' = f := by
            simpa [hresult, Except.mapError, DocumentError.ofAbort] using h
          exact (composeValues_eq_failed_iff.mp hresult).making

theorem composeJson_outcome (r : Registry) (c : Config) (text : String) :
    (r.Makes c.target →
      (((∃ s, composeJson r c text = .ok s) ∨ ∃ e, composeJson r c text = .error (.build e)) ↔
        ∀ digits, ¬ Json.MeetsLongInt text digits)) ∧
    (∀ digits, composeJson r c text = .error (.longInt digits) ↔
      Json.MeetsLongInt text digits) ∧
    (∀ digits, Json.MeetsLongInt text digits →
      maxDigits < digits ∧ Json.HasDigits digits text.toList) ∧
    ∀ f, composeJson r c text = .error (.failed f) →
      r.entries.lookup c.target = some (.error (.failed f)) := by
  refine ⟨fun hmakes => ?_, fun _ => composeJson_eq_longInt_iff,
    fun _ => Json.digits_of_meetsLongInt, fun _ => lookup_of_composeJson_eq_failed⟩
  simp only [← composeJson_eq_longInt_iff (r := r) (c := c)]
  cases h : composeJson r c text with
  | ok s => simp
  | error e =>
    cases e with
    | build e => simp
    | longInt digits => simp
    | failed f => exact absurd (lookup_of_composeJson_eq_failed h) (hmakes f)

/-- A request up to the value of a parameter. -/
def longValueOpening : List Char :=
  "\x7b\"query\":\x7b\"source_table\":\"t\",\"alias\":\"t\",".toList ++
    "\"fields\":\x7b\"n\":\"t.n\"\x7d\x7d,\"options\":\x7b\"params\":\x7b\"a\":".toList

/-- A request that gives a value of 4301 digits. -/
def longValueRequest : String :=
  String.ofList (longValueOpening ++ (List.replicate 4301 '1' ++ ['\x7d', '\x7d', '\x7d']))

set_option maxRecDepth 4000 in
theorem tokensFrom_longValueOpening (s : List Char) :
    Json.tokensFrom 0 0 (longValueOpening ++ s) =
      Json.tokensFrom 0 0 longValueOpening ++ Json.tokensFrom 0 longValueOpening.length s :=
  rfl

theorem meetsLongInt_longValueRequest : Json.MeetsLongInt longValueRequest 4301 := by
  have hdigits : ∀ c ∈ List.replicate 4301 '1', c.isDigit = true := fun c hc => by
    rw [List.eq_of_mem_replicate hc]
    rfl
  have hrest : ∀ c ∈ ['\x7d', '\x7d', '\x7d'].head?, Json.EndsInteger c := by simp [Json.EndsInteger]
  have hlength : (List.replicate 4301 '1').length = 4301 := List.length_replicate
  obtain ⟨after, hafter⟩ := Json.exists_tokensFrom_append hdigits (by decide) hrest
    longValueOpening.length (by rw [hlength]; decide)
  rw [hlength] at hafter
  simp only [Json.MeetsLongInt, longValueRequest, String.toList_ofList]
  refine ⟨by decide, Json.tokensFrom 0 0 longValueOpening, longValueOpening.length, after, ?_, ?_⟩
  · rw [tokensFrom_longValueOpening, hafter]
  · exact ⟨0, List.replicate 3 ⟨.closeObject, 0⟩, _, rfl⟩

theorem composeJson_outcome_of_longValueRequest :
    Registry.builtin.Makes ({} : Config).target ∧ Json.MeetsLongInt longValueRequest 4301 ∧
      maxDigits < 4301 ∧ Json.HasDigits 4301 longValueRequest.toList ∧
      ∀ e, composeJson .builtin {} longValueRequest ≠ .error (.build e) := by
  have hmakes := Registry.makes_builtin ({} : Config).target
  have hmeets := meetsLongInt_longValueRequest
  obtain ⟨houtcome, -, hdigits, -⟩ := composeJson_outcome .builtin {} longValueRequest
  obtain ⟨hlong, hrun⟩ := hdigits 4301 hmeets
  exact ⟨hmakes, hmeets, hlong, hrun, fun e he => (houtcome hmakes).mp (.inr ⟨e, he⟩) 4301 hmeets⟩

theorem composeJson_longValueRequest :
    ¬ ((∃ s, composeJson .builtin {} longValueRequest = .ok s) ∨
      ∃ e, composeJson .builtin {} longValueRequest = .error (.build e)) := by
  have h := (composeJson_eq_longInt_iff (r := .builtin) (c := {})).mpr meetsLongInt_longValueRequest
  rintro (⟨s, hs⟩ | ⟨e, he⟩)
  · cases h.symm.trans hs
  · cases h.symm.trans he

end SqlCompose
