import Mathlib.Data.List.Basic

/-!
# Byte strings made of frames

A log file is the concatenation of the frames of its records. A start of it that is shorter than the
whole consists of some frames and, behind them, the start of the next one.
-/

namespace Crane.Data

open List

variable {R α : Type}

lemma take_flatMap_lt (frame : R → List α) {records : List R} {cut : Nat}
    (hcut : cut < (records.flatMap frame).length) :
    ∃ done next rest cut', records = done ++ next :: rest ∧ cut' < (frame next).length ∧
      (records.flatMap frame).take cut = done.flatMap frame ++ (frame next).take cut' := by
  induction records generalizing cut with
  | nil => exact absurd hcut (Nat.not_lt_zero _)
  | cons record records ih =>
    rw [flatMap_cons, length_append] at hcut
    by_cases hfst : cut < (frame record).length
    · refine ⟨[], record, records, cut, rfl, hfst, ?_⟩
      rw [flatMap_cons, take_append_of_le_length (Nat.le_of_lt hfst)]
      rfl
    have hrest : cut - (frame record).length < (records.flatMap frame).length := by omega
    obtain ⟨done, next, rest, cut', rfl, hcut', htake⟩ := ih hrest
    refine ⟨record :: done, next, rest, cut', rfl, hcut', ?_⟩
    rw [flatMap_cons, take_append, htake, take_of_length_le (by omega), flatMap_cons, append_assoc]

end Crane.Data
