import Mathlib.Order.Lattice
import Mathlib.Data.List.Basic

/-!
# Keeping the largest — a fold with an incumbent

Candidates come one by one; one that is admitted and larger than the
incumbent takes its place. The incumbent the fold starts from need not
be admitted: it stays unless a larger admitted candidate comes.
-/

namespace WaylandWebStream

namespace Largest

variable {β γ : Type*} [LinearOrder γ] (admitted : β → Prop) [DecidablePred admitted] (size : β → γ)

/-- The incumbent after one candidate. -/
def larger (best cand : β) : β := if admitted cand ∧ size best < size cand then cand else best

variable {admitted size} {best cand : β} {l : List β}

theorem size_le_larger : size best ≤ size (larger admitted size best cand) := by
  rw [larger]
  split
  · next h => exact le_of_lt h.2
  · exact le_refl _

theorem cand_le_larger (h : admitted cand) : size cand ≤ size (larger admitted size best cand) := by
  rw [larger]
  split
  · exact le_refl _
  · next hnot => exact not_lt.1 fun hlt => hnot ⟨h, hlt⟩

/-- The fold never leaves a larger incumbent. -/
theorem size_le_foldl : size best ≤ size (l.foldl (larger admitted size) best) := by
  induction l generalizing best with
  | nil => exact le_refl _
  | cons cand l ih => exact le_trans size_le_larger ih

/-- **No admitted candidate is larger** than what is kept. -/
theorem mem_le_foldl (hcand : cand ∈ l) (h : admitted cand) :
    size cand ≤ size (l.foldl (larger admitted size) best) := by
  induction l generalizing best with
  | nil => exact absurd hcand List.not_mem_nil
  | cons c l ih =>
    rcases List.mem_cons.1 hcand with rfl | hcand
    · exact le_trans (cand_le_larger h) size_le_foldl
    · exact ih hcand

/-- **What is kept** is the first incumbent, or an admitted candidate
larger than it. -/
theorem foldl_eq_or_mem :
    l.foldl (larger admitted size) best = best ∨
      (l.foldl (larger admitted size) best ∈ l ∧
        admitted (l.foldl (larger admitted size) best) ∧
        size best < size (l.foldl (larger admitted size) best)) := by
  induction l generalizing best with
  | nil => exact .inl rfl
  | cons c l ih =>
    rw [List.foldl_cons]
    by_cases hc : admitted c ∧ size best < size c
    · have hlarger : larger admitted size best c = c := if_pos hc
      rw [hlarger]
      rcases @ih c with heq | ⟨hmem, hadm, hlt⟩
      · rw [heq]
        exact .inr ⟨List.mem_cons_self, hc⟩
      · exact .inr ⟨List.mem_cons_of_mem _ hmem, hadm, lt_trans hc.2 hlt⟩
    · have hlarger : larger admitted size best c = best := if_neg hc
      rw [hlarger]
      rcases @ih best with heq | ⟨hmem, hadm, hlt⟩
      · exact .inl heq
      · exact .inr ⟨List.mem_cons_of_mem _ hmem, hadm, hlt⟩

end Largest

end WaylandWebStream
