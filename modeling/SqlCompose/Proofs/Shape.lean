import SqlCompose.Shape.Decoded

/-!
# Decoders that succeed

A record is decoded only if all of its parts are, so a decoder that succeeds can be opened part by
part (`seq_eq_ok`, `member_eq_ok`, `exists_of_mem_list`). In the other direction, what is written
item by item is read back if each item is (`list_map`, `map_map`, `member_of_lookup`). A member may
be replaced by one that is decoded alike (`member_putMember`).
-/

namespace SqlCompose.Shape

open Decoded

variable {α β : Type} {decode : Value → Decoded α} {encode : α → Value}
  {ms : List (String × Value)} {name : String} {a default : α} {v : Value}

/-! ### What a decoder that succeeds has read -/

theorem Decoded.map_eq_ok {f : α → β} {x : Decoded α} {b : β} (h : f <$> x = .ok b) :
    ∃ a, x = .ok a ∧ f a = b := by
  cases x with
  | error e => contradiction
  | ok a => exact ⟨a, rfl, Except.ok.inj h⟩

theorem Decoded.seq_eq_ok {f : Decoded (α → β)} {x : Decoded α} {b : β}
    (h : f <*> x = .ok b) : ∃ g a, f = .ok g ∧ x = .ok a ∧ g a = b := by
  cases f with
  | error e => cases x <;> contradiction
  | ok g =>
    cases x with
    | error e => contradiction
    | ok a => exact ⟨g, a, rfl, rfl, Except.ok.inj h⟩

theorem Decoded.seqLeft_eq_ok {x : Decoded α} {y : Decoded β} {a : α}
    (h : x <* y = .ok a) : x = .ok a := by
  cases x with
  | error e => cases y <;> contradiction
  | ok b =>
    cases y with
    | error e => contradiction
    | ok _ => exact h

theorem Decoded.under_eq_ok {s : Step} {x : Decoded α} (h : x.under s = .ok a) : x = .ok a := by
  cases x with
  | error e => contradiction
  | ok b => exact h

theorem member_eq_ok (h : member ms name default decode = .ok a) :
    a = default ∨ ∃ v, decode v = .ok a := by
  unfold member at h
  split at h
  · exact .inl (Except.ok.inj h).symm
  · next v _ => exact .inr ⟨v, under_eq_ok h⟩

theorem exists_of_mem_items {i : Nat} {vs : List Value} {as : List α}
    (h : items decode i vs = .ok as) : ∀ a ∈ as, ∃ v, decode v = .ok a := by
  induction vs generalizing i as with
  | nil =>
    obtain rfl := Except.ok.inj h
    simp
  | cons v vs ih =>
    obtain ⟨f, rest, hf, hrest, rfl⟩ := seq_eq_ok h
    obtain ⟨a, ha, rfl⟩ := map_eq_ok hf
    rintro b (_ | ⟨_, hb⟩)
    · exact ⟨v, under_eq_ok ha⟩
    · exact ih hrest b hb

theorem exists_of_mem_list {as : List α} (h : list decode v = .ok as) :
    ∀ a ∈ as, ∃ v, decode v = .ok a := by
  cases v with
  | arr vs => exact exists_of_mem_items h
  | _ => contradiction

/-! ### What is read back -/

theorem member_of_lookup (h : ms.lookup name = some v) (hv : decode v = .ok a) :
    member ms name default decode = .ok a := by
  simp only [member, h, hv]
  rfl

theorem requiredMember_of_lookup (h : ms.lookup name = some v) (hv : decode v = .ok a) :
    requiredMember ms name decode = .ok a := by
  simp only [requiredMember, h, hv]
  rfl

theorem onlyMembers_of_subset {names : List String} (h : ∀ m ∈ ms, m.1 ∈ names) :
    onlyMembers names ms = .ok () := by
  have hnone : ms.filter (fun m => m.1 ∉ names) = [] := by simpa [List.filter_eq_nil_iff] using h
  rw [onlyMembers, hnone]
  rfl

theorem items_map {as : List α} (h : ∀ a ∈ as, decode (encode a) = .ok a) (i : Nat) :
    items decode i (as.map encode) = .ok as := by
  induction as generalizing i with
  | nil => rfl
  | cons a as ih =>
    rw [List.map_cons, items, h a List.mem_cons_self,
      ih (fun b hb => h b (List.mem_cons_of_mem a hb))]
    rfl

theorem list_map {as : List α} (h : ∀ a ∈ as, decode (encode a) = .ok a) :
    list decode (.arr (as.map encode)) = .ok as :=
  items_map h 0

theorem map_map {entries : List (String × α)} (h : ∀ a, decode (encode a) = .ok a) :
    map decode (.obj (entries.map fun e => (e.1, encode e.2))) = .ok entries := by
  change Shape.entries decode _ = _
  induction entries with
  | nil => rfl
  | cons e entries ih =>
    rw [List.map_cons, Shape.entries, h, ih]
    rfl

theorem map_anyValue (ms : List (String × Value)) : map anyValue (.obj ms) = .ok ms := by
  have h : map anyValue (.obj (ms.map fun e => (e.1, id e.2))) = .ok ms := map_map fun _ => rfl
  have hms : (ms.map fun e => (e.1, id e.2)) = ms := List.map_id ms
  rwa [hms] at h

theorem nullable_of_ne_null (h : v ≠ .null) (hv : decode v = .ok a) :
    nullable decode v = .ok (some a) := by
  cases v with
  | null => contradiction
  | _ =>
    rw [nullable, hv]
    · rfl
    · simp

/-! ### What is put in the place of a member -/

theorem member_putMember_of_ne {n : String} (h : name ≠ n) :
    member (putMember n v ms) name default decode = member ms name default decode := by
  simp only [member, lookup_putMember, if_neg h]

theorem member_putMember {w : Value} (hw : ms.lookup name = some w) (hv : decode v = decode w) :
    member (putMember name v ms) name default decode = member ms name default decode := by
  simp only [member, lookup_putMember, if_true, hw, hv]

theorem onlyMembers_putMember {names : List String} (h : name ∈ names) :
    onlyMembers names (putMember name v ms) = onlyMembers names ms := by
  have hfilter : (putMember name v ms).filter (fun m => m.1 ∉ names) =
      ms.filter fun m => m.1 ∉ names := by
    induction ms with
    | nil => simp [putMember, h]
    | cons m ms ih =>
      obtain ⟨n, w⟩ := m
      by_cases hn : n = name
      · simp [putMember, hn, h]
      · simp only [putMember, if_neg hn, List.filter_cons, ih]
  rw [onlyMembers, onlyMembers, hfilter]

end SqlCompose.Shape
