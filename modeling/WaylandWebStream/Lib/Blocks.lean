import Mathlib.Data.List.Basic

/-!
# Blocks — a stream cut into blocks of one length

However a stream arrives, blocks of `n` items taken off its front, with what
is left over carried on, are the consecutive `n`-item stretches of the whole.
-/

namespace WaylandWebStream

namespace Blocks

variable {α : Type*} {n : ℕ} {blocks : List (List α)} {rest : List α}

/-- **Each block is a stretch of the stream.** -/
theorem getElem?_eq (rest : List α) (hlen : ∀ b ∈ blocks, b.length = n) {k : ℕ} {b : List α}
    (hk : blocks[k]? = some b) :
    b = ((blocks.flatten ++ rest).drop (n * k)).take n := by
  induction blocks generalizing k with
  | nil => simp at hk
  | cons c blocks ih =>
    have hc : c.length = n := hlen c List.mem_cons_self
    rw [List.flatten_cons, List.append_assoc]
    cases k with
    | zero =>
      rw [List.getElem?_cons_zero, Option.some.injEq] at hk
      rw [Nat.mul_zero, List.drop_zero, ← hc, List.take_left, hk]
    | succ k =>
      rw [List.getElem?_cons_succ] at hk
      have hdrop : n * (k + 1) = c.length + n * k := by rw [hc, Nat.mul_succ, Nat.add_comm]
      rw [hdrop, List.drop_length_add_append]
      exact ih (fun d hd => hlen d (List.mem_cons_of_mem _ hd)) hk

/-- Streams put together from pieces of the same lengths agree exactly when
the pieces do. -/
theorem flatMap_eq_iff {β : Type*} {f g : β → List α} {xs : List β}
    (hlen : ∀ x ∈ xs, (f x).length = (g x).length) :
    xs.flatMap f = xs.flatMap g ↔ ∀ x ∈ xs, f x = g x := by
  induction xs with
  | nil => simp
  | cons x xs ih =>
    have hx := hlen x List.mem_cons_self
    rw [List.flatMap_cons, List.flatMap_cons, List.forall_mem_cons,
      ← ih fun y hy => hlen y (List.mem_cons_of_mem _ hy)]
    constructor
    · intro heq
      exact List.append_inj heq hx
    · rintro ⟨hhead, htail⟩
      rw [hhead, htail]

end Blocks

end WaylandWebStream
