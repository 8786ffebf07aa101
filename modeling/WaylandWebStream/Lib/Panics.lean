import Mathlib.Data.List.Basic

/-!
# Panicking loops

A loop whose body may panic is a fold in `Except`. It comes to an end
where every step of it does, with what the panic-free fold computes; and
it panics where the body panics at one of its elements, whatever has been
accumulated by then.
-/

namespace WaylandWebStream

namespace Panics

variable {σ α ε : Type*} {step : σ → α → Except ε σ} {pass : σ → α → σ} {I : σ → Prop} {c : σ}
  {l : List α} {a : α}

/-- What always panics afterwards panics. -/
theorem bind_panics {ε β γ : Type} {x : Except ε β} {f : β → Except ε γ} (h : ∀ v, ∃ e, f v = .error e) :
    ∃ e, x >>= f = .error e := by
  cases x with
  | error e => exact ⟨e, rfl⟩
  | ok v => exact h v

theorem foldlM_cons_ok {c' : σ} (h : step c a = .ok c') :
    (a :: l).foldlM step c = l.foldlM step c' := by
  rw [List.foldlM_cons, h]
  rfl

theorem foldlM_cons_error {e : ε} (h : step c a = .error e) :
    (a :: l).foldlM step c = .error e := by
  rw [List.foldlM_cons, h]
  rfl

/-- **No step panics**: the loop is the fold of what its steps compute. -/
theorem foldlM_eq_ok
    (hstep : ∀ c, I c → ∀ a ∈ l, step c a = .ok (pass c a) ∧ I (pass c a)) (hc : I c) :
    l.foldlM step c = .ok (l.foldl pass c) := by
  induction l generalizing c with
  | nil => rfl
  | cons a l ih =>
    obtain ⟨hok, hI⟩ := hstep c hc a List.mem_cons_self
    rw [foldlM_cons_ok hok, List.foldl_cons]
    exact ih (fun c hc b hb => hstep c hc b (List.mem_cons_of_mem _ hb)) hI

/-- **One step panics**, whatever it is given: so does the loop. -/
theorem foldlM_panics (ha : a ∈ l) (hpanic : ∀ c, ∃ e, step c a = .error e) (c : σ) :
    ∃ e, l.foldlM step c = .error e := by
  induction l generalizing c with
  | nil => exact absurd ha List.not_mem_nil
  | cons b l ih =>
    cases hb : step c b with
    | error e => exact ⟨e, foldlM_cons_error hb⟩
    | ok c' =>
      rcases List.mem_cons.1 ha with rfl | ha
      · obtain ⟨e, he⟩ := hpanic c
        rw [he] at hb
        cases hb
      · rw [foldlM_cons_ok hb]
        exact ih ha c'

end Panics

end WaylandWebStream
