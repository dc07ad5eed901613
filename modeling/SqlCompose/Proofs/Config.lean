import SqlCompose.Config
import SqlCompose.Proofs.Shape

/-!
# Accepted configs

A config is accepted if it is the decoding of a value. Its window columns are then plain
identifiers, whether they are given or not (`Accepted.columns`).
-/

namespace SqlCompose

open Shape Shape.Decoded

namespace Config

/-- A config that is the decoding of a value. -/
def Accepted (c : Config) : Prop := ∃ v, decode v = .ok c

theorem isPlainIdentifier_of_decodeColumn {v : Value} {s : String} (h : decodeColumn v = .ok s) :
    isPlainIdentifier s := by
  unfold decodeColumn at h
  split at h
  · split at h
    · next hs => exact Except.ok.inj h ▸ hs
    · contradiction
  · contradiction

theorem isPlainIdentifier_of_member {ms : List (String × Value)} {name default s : String}
    (hdefault : isPlainIdentifier default) (h : member ms name default decodeColumn = .ok s) :
    isPlainIdentifier s := by
  rcases member_eq_ok h with rfl | ⟨v, hv⟩
  · exact hdefault
  · exact isPlainIdentifier_of_decodeColumn hv

theorem Accepted.columns {c : Config} (h : c.Accepted) :
    isPlainIdentifier c.numColumn ∧ isPlainIdentifier c.remainingColumn := by
  obtain ⟨v, hv⟩ := h
  cases v with
  | obj ms =>
    obtain ⟨f, windowColumns, hf, -, rfl⟩ := seq_eq_ok (seqLeft_eq_ok hv)
    obtain ⟨g, remaining, hg, hremaining, rfl⟩ := seq_eq_ok hf
    obtain ⟨i, num, hi, hnum, rfl⟩ := seq_eq_ok hg
    obtain ⟨target, -, rfl⟩ := map_eq_ok hi
    exact ⟨isPlainIdentifier_of_member (by decide) hnum,
      isPlainIdentifier_of_member (by decide) hremaining⟩
  | _ => contradiction

end Config

end SqlCompose
