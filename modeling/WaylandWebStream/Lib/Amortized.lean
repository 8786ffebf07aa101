import Mathlib.Algebra.BigOperators.Group.List.Basic
import Mathlib.Algebra.Order.Ring.Nat
import WaylandWebStream.Lib.Machine

/-!
# Potentials — how long a machine can go on

A potential says how much work there is left in a state. A step does some
of it, and may bring in some from outside, its credit. So a schedule is
no longer than the work there was and the credit its actions brought
(`Potential.length_le`), and what costs no credit comes to rest by itself
(`Potential.exists_atRest`).
-/

namespace WaylandWebStream

namespace Machine

variable {σ α : Type*} (M : Machine σ α)

/-- **A potential**, for the states of which `Q` is known. -/
structure Potential (Q : σ → Prop) (work : σ → ℕ) (credit : α → ℕ) : Prop where
  keeps : ∀ s a s', Q s → M.step s a = some s' → Q s'
  spends : ∀ s a s', Q s → M.step s a = some s' → work s' + 1 ≤ work s + credit a

/-- No action of a kind is enabled. -/
def AtRest (own : α → Prop) (s : σ) : Prop := ∀ a, own a → M.step s a = none

variable {M} {Q : σ → Prop} {work : σ → ℕ} {credit : α → ℕ} {own : α → Prop} {s s' : σ}

/-- What is known stays known. -/
theorem Potential.keeps_exec (h : M.Potential Q work credit) {acts : List α} (hs : Q s)
    (hexec : M.exec s acts = some s') : Q s' := by
  induction acts generalizing s with
  | nil =>
    obtain rfl := Option.some.inj hexec
    exact hs
  | cons a acts ih =>
    rw [exec_cons, Option.bind_eq_some_iff] at hexec
    obtain ⟨t, ht, hexec⟩ := hexec
    exact ih (h.keeps s a t hs ht) hexec

/-- **A schedule is paid for** by the work there was and the credit of its
actions. -/
theorem Potential.length_le (h : M.Potential Q work credit) {acts : List α} (hs : Q s)
    (hexec : M.exec s acts = some s') :
    acts.length + work s' ≤ work s + (acts.map credit).sum := by
  induction acts generalizing s with
  | nil =>
    obtain rfl := Option.some.inj hexec
    simp
  | cons a acts ih =>
    rw [exec_cons, Option.bind_eq_some_iff] at hexec
    obtain ⟨t, ht, hexec⟩ := hexec
    have hstep := h.spends s a t hs ht
    have hrest := ih (h.keeps s a t hs ht) hexec
    rw [List.length_cons, List.map_cons, List.sum_cons]
    omega

/-- **What costs no credit comes to rest**, in as many steps as there is work. -/
theorem Potential.exists_atRest (h : M.Potential Q work credit)
    (hfree : ∀ a, own a → credit a = 0) (hs : Q s) :
    ∃ acts s', M.Run (fun _ a => own a) s acts s' ∧ M.AtRest own s' ∧ acts.length ≤ work s := by
  induction hwork : work s using Nat.strongRecOn generalizing s with
  | _ n ih =>
    by_cases hrest : M.AtRest own s
    · exact ⟨[], s, rfl, hrest, Nat.zero_le _⟩
    · have hmoves : ∃ a, own a ∧ ∃ t, M.step s a = some t := by
        simpa [AtRest, Option.ne_none_iff_exists'] using hrest
      obtain ⟨a, ha, t, ht⟩ := hmoves
      have hspent := h.spends s a t hs ht
      rw [hfree a ha] at hspent
      obtain ⟨acts, s', hrun, hat, hlength⟩ :=
        ih (work t) (by omega) (h.keeps s a t hs ht) rfl
      refine ⟨a :: acts, s', ⟨ha, t, ht, hrun⟩, hat, ?_⟩
      rw [List.length_cons]
      omega

/-- A run is a schedule. -/
theorem Run.exec {ok : σ → α → Prop} {acts : List α} (h : M.Run ok s acts s') :
    M.exec s acts = some s' := by
  induction acts generalizing s with
  | nil =>
    obtain rfl : s = s' := h
    rfl
  | cons a acts ih =>
    obtain ⟨-, t, ht, h⟩ := h
    rw [exec_cons, ht]
    exact ih h

end Machine

/-! ## What a list of parties weighs -/

section Load

variable {α : Type*} {l : List α} {i : ℕ} {a : α}

/-- One party changes, and the load by the difference. -/
theorem load_set (weight : α → ℕ) (b : α) (h : l[i]? = some a) :
    ((l.set i b).map weight).sum + weight a = (l.map weight).sum + weight b := by
  induction l generalizing i with
  | nil => cases h
  | cons c l ih =>
    cases i with
    | zero =>
      obtain rfl := Option.some.inj h
      simp only [List.set_cons_zero, List.map_cons, List.sum_cons]
      omega
    | succ i =>
      have hrest := ih (i := i) h
      simp only [List.set_cons_succ, List.map_cons, List.sum_cons]
      omega

end Load

end WaylandWebStream
