import Mathlib.Data.List.Infix
import Mathlib.Data.Option.Basic

/-!
# FIFO queues — what is behind an item, and what is left at the end

A queue is a list, read at its head and written at its end. `Behind a P`
says that wherever `a` is queued, what was queued after it satisfies `P`:
the form an ordering guarantee between two kinds of messages takes.
`final stored queue` is what a cell holds once every value queued for it
has overwritten it; it does not change when a value moves from one queue
of a line to the next, nor when the head is stored.
-/

namespace WaylandWebStream

namespace Fifo

variable {α β : Type*} {a e : α} {P Q : List α → Prop} {l m : List α}

/-! ## What is queued behind an item -/

/-- **Wherever `a` is queued, what comes after it satisfies `P`.** -/
def Behind (a : α) (P : List α → Prop) (l : List α) : Prop :=
  ∀ rest, a :: rest <:+ l → P rest

theorem Behind.of_notMem (h : a ∉ l) : Behind a P l :=
  fun _ hs => (h (hs.subset List.mem_cons_self)).elim

/-- Reading the head keeps the guarantee. -/
theorem Behind.tail (h : Behind a P (e :: l)) : Behind a P l :=
  fun rest hs => h rest (List.suffix_cons_iff.2 (.inr hs))

/-- At the head, the guarantee is about the rest of the queue. -/
theorem Behind.head (h : Behind a P (a :: l)) : P l := h l (List.suffix_refl _)

theorem Behind.cons (he : a = e → P l) (h : Behind a P l) : Behind a P (e :: l) := by
  intro rest hs
  rcases List.suffix_cons_iff.1 hs with heq | hs
  · obtain ⟨rfl, rfl⟩ := List.cons_eq_cons.1 heq
    exact he rfl
  · exact h rest hs

theorem Behind.mono (h : Behind a P l) (hPQ : ∀ rest, P rest → Q rest) : Behind a Q l :=
  fun rest hs => hPQ rest (h rest hs)

/-- **Writing at the end keeps the guarantee**, when what is written keeps
`P` of everything it is queued behind. -/
theorem Behind.append (h : Behind a P l) (hm : Behind a Q m) (hP : ∀ rest, P rest → Q (rest ++ m)) :
    Behind a Q (l ++ m) := by
  induction l with
  | nil => exact hm
  | cons e l ih =>
    refine .cons (fun heq => ?_) (ih h.tail)
    subst heq
    exact hP l h.head

/-! ## What a cell holds in the end -/

/-- **What is stored once the queue has been written through.** -/
def final (stored : Option α) (queue : List α) : Option α := queue.getLast?.or stored

variable {stored : Option α} {queue : List α}

@[simp] theorem final_nil : final stored [] = stored := rfl

@[simp] theorem final_concat : final stored (queue ++ [a]) = some a := by
  simp [final]

/-- Storing the head changes nothing. -/
@[simp] theorem final_cons : final stored (a :: queue) = final (some a) queue := by
  cases queue with
  | nil => rfl
  | cons b queue => simp [final, List.getLast?_cons]

/-! ## What is numbered as it is queued -/

/-- Items numbered by their places in a list, the numbers increasing from
`k` on, are found in that order behind its first `k`. -/
theorem sublist_drop_of_numbered {idx : α → ℕ} {val : α → β} {sent : List β} (k : ℕ)
    (hinc : l.Pairwise fun a b => idx a < idx b) (hk : ∀ a ∈ l, k ≤ idx a)
    (hval : ∀ a ∈ l, sent[idx a]? = some (val a)) : (l.map val).Sublist (sent.drop k) := by
  induction l generalizing k with
  | nil => exact List.nil_sublist _
  | cons a l ih =>
    obtain ⟨hhead, htail⟩ := List.pairwise_cons.1 hinc
    obtain ⟨hlt, hget⟩ := List.getElem?_eq_some_iff.1 (hval a List.mem_cons_self)
    have hrest : (l.map val).Sublist (sent.drop (idx a + 1)) :=
      ih (idx a + 1) htail (fun b hb => hhead b hb) fun b hb => hval b (List.mem_cons_of_mem _ hb)
    have hdrop : (sent.drop (idx a)).Sublist (sent.drop k) :=
      List.drop_sublist_drop_left _ (hk a List.mem_cons_self)
    rw [List.map_cons, ← hget]
    refine List.Sublist.trans ?_ hdrop
    rw [List.drop_eq_getElem_cons hlt]
    exact hrest.cons_cons _

/-- **Numbered in order, sent in order.** -/
theorem sublist_of_numbered (idx : α → ℕ) {val : α → β} {sent : List β}
    (hinc : l.Pairwise fun a b => idx a < idx b) (hval : ∀ a ∈ l, sent[idx a]? = some (val a)) :
    (l.map val).Sublist sent := by
  have hsub := sublist_drop_of_numbered 0 hinc (fun _ _ => Nat.zero_le _) hval
  rwa [List.drop_zero] at hsub

end Fifo

end WaylandWebStream
