import Mathlib.Data.List.TakeWhile
import SqlCompose.Json.Reader
import SqlCompose.Text.Run

/-!
# Integers that are too long for a JSON text

An integer of more than `maxDigits` digits is a token of its own: such a token is only made of as
many digits of the text (`digits_of_longInt_mem`), and so many digits make no other
(`exists_tokensFrom_append`). It is what reading a text ends with exactly if the tokens before it
begin a document that goes on with a value (`read_eq_longInt_iff`). For that a token either moves
the reader on or stops it, whatever comes after (`reads`), and what is open after a value can be
closed (`exists_closing`).
-/

namespace SqlCompose.Json

/-! ## Tokens -/

theorem wholeDigits_isPrefix (s : List Char) : wholeDigits s <+: s := by
  unfold wholeDigits
  split
  · exact ⟨_, rfl⟩
  · exact List.takeWhile_prefix _

theorem isDigit_of_mem_wholeDigits {s : List Char} {c : Char} (h : c ∈ wholeDigits s) :
    c.isDigit = true := by
  unfold wholeDigits at h
  split at h
  · rw [List.mem_singleton.mp h]
    rfl
  · exact List.mem_takeWhile_imp h

/-- There are `n` digits in a row. -/
def HasDigits (n : Nat) (s : List Char) : Prop :=
  ∃ ds, ds <:+: s ∧ ds.length = n ∧ ∀ c ∈ ds, c.isDigit = true

theorem HasDigits.cons {n : Nat} {s : List Char} (h : HasDigits n s) (c : Char) :
    HasDigits n (c :: s) :=
  let ⟨ds, hin, hlength, hdigit⟩ := h
  ⟨ds, hin.trans (List.suffix_cons c s).isInfix, hlength, hdigit⟩

theorem unsignedNumber?_eq_longInt {negative : Bool} {s : List Char} {n length : Nat}
    (h : unsignedNumber? negative s = some (.longInt n, length)) :
    maxDigits < n ∧ HasDigits n s := by
  simp only [unsignedNumber?] at h
  split at h
  · cases h
  · split at h
    · cases h
    · split at h
      · cases h
      · split at h
        · next hmany =>
          cases h
          exact ⟨hmany, wholeDigits s, (wholeDigits_isPrefix s).isInfix, rfl,
            fun c => isDigit_of_mem_wholeDigits⟩
        · cases h

theorem number?_eq_longInt {s : List Char} {n length : Nat}
    (h : number? s = some (.longInt n, length)) : maxDigits < n ∧ HasDigits n s := by
  unfold number? at h
  split at h
  · next s =>
    obtain ⟨⟨l, k⟩, hl, heq⟩ := Option.map_eq_some_iff.mp h
    cases heq
    obtain ⟨hmany, hdigits⟩ := unsignedNumber?_eq_longInt hl
    exact ⟨hmany, hdigits.cons '-'⟩
  · exact unsignedNumber?_eq_longInt h

theorem lexeme_eq_longInt {offset : Nat} {s : List Char} {n length : Nat}
    (h : lexeme offset s = (.longInt n, length)) : maxDigits < n ∧ HasDigits n s := by
  unfold lexeme at h
  split at h
  any_goals cases h
  · split at h <;> cases h
  · split at h
    · cases h
    · cases hnumber : number? s with
      | none => rw [hnumber] at h; cases h
      | some x =>
        rw [hnumber] at h
        cases h
        exact number?_eq_longInt hnumber

theorem digits_of_longInt_mem {skip offset start n : Nat} {s : List Char}
    (h : ⟨.longInt n, offset⟩ ∈ tokensFrom skip start s) : maxDigits < n ∧ HasDigits n s := by
  induction s generalizing skip start with
  | nil => cases h
  | cons c s ih =>
    have hskip : ∀ {skip}, ⟨.longInt n, offset⟩ ∈ tokensFrom skip (start + 1) s →
        maxDigits < n ∧ HasDigits n (c :: s) := fun h => (ih h).imp id (·.cons c)
    unfold tokensFrom at h
    split at h
    · exact hskip h
    · split at h
      · exact hskip h
      · rcases List.mem_cons.mp h with heq | h
        · injection heq with hl
          exact lexeme_eq_longInt (Prod.ext hl.symm rfl)
        · exact hskip h

/-- No integer goes on with the character, nor does it make a float of one. -/
def EndsInteger (c : Char) : Prop := c.isDigit = false ∧ c ≠ '.' ∧ c ≠ 'e' ∧ c ≠ 'E'

section

variable {ds rest : List Char} (hds : ∀ c ∈ ds, c.isDigit = true) (hzero : ds.head? ≠ some '0')
  (hrest : ∀ c ∈ rest.head?, EndsInteger c)
include hds hzero hrest

theorem wholeDigits_append : wholeDigits (ds ++ rest) = ds := by
  unfold wholeDigits
  split
  · next heq =>
    cases ds with
    | nil => cases rest with
      | nil => cases heq
      | cons c rest =>
        cases heq
        exact absurd (hrest '0' rfl).1 (by decide)
    | cons c ds =>
      cases heq
      exact absurd rfl hzero
  · exact takeWhile_run_append hds fun c hc => (hrest c hc).1

theorem unsignedNumber?_append (negative : Bool) (hmany : maxDigits < ds.length) :
    unsignedNumber? negative (ds ++ rest) = some (.longInt ds.length, ds.length) := by
  have hplaces : places rest = [] := by
    cases rest with
    | nil => rfl
    | cons c rest =>
      unfold places
      split
      · next heq =>
        cases heq
        exact absurd rfl (hrest '.' rfl).2.1
      · rfl
  have hexponent : exponent? rest = none := by
    cases rest with
    | nil => rfl
    | cons c rest => simp [exponent?, (hrest c rfl).2.2]
  have hne : ds ≠ [] := List.ne_nil_of_length_pos (Nat.zero_lt_of_lt hmany)
  simp [unsignedNumber?, wholeDigits_append hds hzero hrest, hplaces, hexponent, hne, hmany]

theorem lexeme_append (offset : Nat) (hmany : maxDigits < ds.length) :
    lexeme offset (ds ++ rest) = (.longInt ds.length, ds.length) := by
  have hnumber := unsignedNumber?_append hds hzero hrest false hmany
  obtain ⟨c, ds, rfl⟩ := List.exists_cons_of_length_pos (Nat.zero_lt_of_lt hmany)
  have hc : c.isDigit = true := hds c List.mem_cons_self
  have hne : ∀ x : Char, x.isDigit = false → c ≠ x := by
    rintro x hx rfl
    rw [hc] at hx
    cases hx
  have hword : wordValues.find? (·.1.isPrefixOf (c :: (ds ++ rest))) = none := by
    simp [wordValues, (hne _ _).symm]
  have hunsigned : number? (c :: (ds ++ rest)) = unsignedNumber? false (c :: (ds ++ rest)) := by
    unfold number?
    split
    · next heq => exact absurd (List.cons.inj heq).1 (hne '-' rfl)
    · rfl
  rw [List.cons_append] at hnumber ⊢
  unfold lexeme
  split
  case h_8 => simp only [hword, hunsigned, hnumber, Option.getD_some]
  all_goals next heq => exact absurd (List.cons.inj heq).1 (hne _ rfl)

theorem exists_tokensFrom_append (offset : Nat) (hmany : maxDigits < ds.length) :
    ∃ after, tokensFrom 0 offset (ds ++ rest) = ⟨.longInt ds.length, offset⟩ :: after := by
  have hlexeme := lexeme_append hds hzero hrest offset hmany
  obtain ⟨c, ds, rfl⟩ := List.exists_cons_of_length_pos (Nat.zero_lt_of_lt hmany)
  have hspace : isSpace c = false := by
    have hc : c.isDigit = true := hds c List.mem_cons_self
    rw [Bool.eq_false_iff]
    intro hs
    simp only [isSpace, Bool.or_eq_true, beq_iff_eq] at hs
    obtain ((rfl | rfl) | rfl) | rfl := hs <;> cases hc
  rw [List.cons_append] at hlexeme ⊢
  exact ⟨_, by simp only [tokensFrom, hspace, hlexeme]; rfl⟩

end

/-! ## Reading -/

/-- What one token does to the reading, whatever follows it. -/
inductive Reads (size : Nat) (stack : List Frame) (expected : Expected) (t : Token) : Prop
  | goesOn (stack' : List Frame) (expected' : Expected)
    (h : ∀ ts, readTokens size stack expected (t :: ts) = readTokens size stack' expected' ts)
  | malformed (f : Fault)
    (h : ∀ ts, readTokens size stack expected (t :: ts) = .error (.malformed f))
  | longInt (digits : Nat) (hl : t.lexeme = .longInt digits)
    (h : ∀ ts, readTokens size stack expected (t :: ts) = .error (.longInt digits))
    (hnull : ∀ ts, readTokens size stack expected (⟨.literal .null, t.offset⟩ :: ts) =
      readTokens size stack (.after .null) ts)

theorem reads (size : Nat) (stack : List Frame) (expected : Expected) (t : Token) :
    Reads size stack expected t := by
  obtain ⟨l, offset⟩ := t
  cases expected with
  | value | firstItem =>
    cases l with
    | longInt digits => cases stack <;> exact .longInt digits rfl (fun _ => rfl) fun _ => rfl
    | _ => cases stack <;> first | exact .goesOn _ _ fun _ => rfl | exact .malformed _ fun _ => rfl
  | firstName | name members | colon members name =>
    cases l <;> cases stack <;>
      first | exact .goesOn _ _ fun _ => rfl | exact .malformed _ fun _ => rfl
  | after v =>
    cases stack with
    | nil => exact .malformed _ fun _ => rfl
    | cons frame stack =>
      cases frame <;> cases l <;>
        first | exact .goesOn _ _ fun _ => rfl | exact .malformed _ fun _ => rfl

/-- After a value all that is open can be closed. -/
theorem exists_closing (size : Nat) (stack : List Frame) (v : Value) :
    ∃ ts w, readTokens size stack (.after v) ts = .ok w := by
  induction stack generalizing v with
  | nil => exact ⟨[], v, rfl⟩
  | cons frame stack ih =>
    cases frame with
    | array items =>
      obtain ⟨ts, w, h⟩ := ih (.arr (v :: items).reverse)
      exact ⟨⟨.closeArray, 0⟩ :: ts, w, h⟩
    | object members name =>
      obtain ⟨ts, w, h⟩ := ih (.obj (putMember name v members))
      exact ⟨⟨.closeObject, 0⟩ :: ts, w, h⟩

/-- Where a null may stand an integer that is too long is met. -/
theorem readTokens_longInt_of_null {size : Nat} {stack : List Frame} {expected : Expected}
    {o offset digits : Nat} {rest after : List Token} {v : Value}
    (h : readTokens size stack expected (⟨.literal .null, o⟩ :: rest) = .ok v) :
    readTokens size stack expected (⟨.longInt digits, offset⟩ :: after) =
      .error (.longInt digits) := by
  cases expected with
  | value | firstItem => cases stack <;> rfl
  | firstName | name members | colon members name => cases stack <;> cases h
  | after w =>
    cases stack with
    | nil => cases h
    | cons frame stack => cases frame <;> cases h

/-- With a value after them the tokens begin what is expected. Any value would do for the null. -/
def GoOnWithValue (size : Nat) (stack : List Frame) (expected : Expected) (ts : List Token) : Prop :=
  ∃ offset rest v,
    readTokens size stack expected (ts ++ ⟨.literal .null, offset⟩ :: rest) = .ok v

theorem readTokens_eq_longInt_iff {size : Nat} {stack : List Frame} {expected : Expected}
    {ts : List Token} {digits : Nat} :
    readTokens size stack expected ts = .error (.longInt digits) ↔
      ∃ before offset after, ts = before ++ ⟨.longInt digits, offset⟩ :: after ∧
        GoOnWithValue size stack expected before := by
  constructor
  · intro h
    induction ts generalizing stack expected with
    | nil => cases stack <;> cases expected <;> cases h
    | cons t ts ih =>
      cases reads size stack expected t with
      | goesOn stack' expected' hstep =>
        obtain ⟨before, offset, after, rfl, o, rest, v, hok⟩ := ih (hstep ts ▸ h)
        exact ⟨t :: before, offset, after, rfl, o, rest, v, (hstep _).trans hok⟩
      | malformed f hstep => cases (hstep ts).symm.trans h
      | longInt n hl hstep hnull =>
        cases (hstep ts).symm.trans h
        obtain ⟨rest, v, hok⟩ := exists_closing size stack .null
        exact ⟨[], t.offset, ts, by rw [← hl]; rfl, t.offset, rest, v, (hnull rest).trans hok⟩
  · rintro ⟨before, offset, after, rfl, o, rest, v, hok⟩
    induction before generalizing stack expected with
    | nil => exact readTokens_longInt_of_null hok
    | cons t before ih =>
      cases reads size stack expected t with
      | goesOn stack' expected' hstep => exact (hstep _).trans (ih ((hstep _).symm.trans hok))
      | malformed f hstep => cases (hstep _).symm.trans hok
      | longInt n hl hstep hnull => cases (hstep _).symm.trans hok

/-- Reading the text comes to an integer of `digits` digits, more than may be read. -/
def MeetsLongInt (text : String) (digits : Nat) : Prop :=
  text.toList.head? ≠ some '\ufeff' ∧
    ∃ before offset after,
      tokensFrom 0 0 text.toList = before ++ ⟨.longInt digits, offset⟩ :: after ∧
        GoOnWithValue text.toList.length [] .value before

theorem read_eq_longInt_iff {text : String} {digits : Nat} :
    read text = .error (.longInt digits) ↔ MeetsLongInt text digits := by
  simp only [read, MeetsLongInt]
  split
  · next h => simp [h]
  · next h => simp [h, readTokens_eq_longInt_iff]

theorem digits_of_meetsLongInt {text : String} {digits : Nat} (h : MeetsLongInt text digits) :
    maxDigits < digits ∧ HasDigits digits text.toList := by
  obtain ⟨-, before, offset, after, htokens, -⟩ := h
  exact digits_of_longInt_mem (htokens ▸ List.mem_append_cons_self)

end SqlCompose.Json
