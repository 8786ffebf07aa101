import Mathlib.Data.Finset.Basic
import WaylandWebStream.Lib.Machine

/-!
# Held things — presses, releases and what is left

A stream of presses and releases over arbitrary things, with a release
of everything at once, and the set such a stream leaves held. A thing is
held at the end exactly when some press of it is followed by nothing
that lets it go, so that nothing is held exactly when every press is
followed by something that does.
-/

namespace WaylandWebStream

/-- A change of what is held. -/
inductive Edge (α : Type*)
  | press (a : α)
  | release (a : α)
  /-- Everything is let go at once. -/
  | clear
  deriving DecidableEq

namespace Edge

variable {α : Type*} [DecidableEq α] {a b : α} {e : Edge α} {edges before after : List (Edge α)}

/-- What is held after one change. -/
def apply (h : Finset α) : Edge α → Finset α
  | press a => insert a h
  | release a => h.erase a
  | clear => ∅

/-- What a stream leaves held. -/
def held (edges : List (Edge α)) : Finset α := edges.foldl apply ∅

/-- The change lets go of the thing. -/
def LetsGo (a : α) (e : Edge α) : Prop := e = release a ∨ e = clear

instance : Decidable (LetsGo a e) := inferInstanceAs (Decidable (_ ∨ _))

@[simp] theorem held_nil : held ([] : List (Edge α)) = ∅ := rfl

theorem held_concat : held (edges ++ [e]) = apply (held edges) e := List.foldl_concat ..

theorem mem_apply {h : Finset α} : a ∈ apply h e ↔ e = press a ∨ a ∈ h ∧ ¬ e.LetsGo a := by
  cases e with
  | press b =>
    simp only [apply, Finset.mem_insert, LetsGo, press.injEq, reduceCtorEq, or_self,
      not_false_eq_true, and_true, eq_comm]
  | release b =>
    simp only [apply, Finset.mem_erase, LetsGo, reduceCtorEq, release.injEq, or_false, false_or]
    constructor
    · rintro ⟨hne, hmem⟩
      exact ⟨hmem, fun h => hne h.symm⟩
    · rintro ⟨hmem, hne⟩
      exact ⟨fun h => hne h.symm, hmem⟩
  | clear => simp [apply, LetsGo]

/-- **What is held was pressed, and not let go since.** -/
theorem mem_held : a ∈ held edges ↔
    ∃ before after, edges = before ++ press a :: after ∧ ∀ e ∈ after, ¬ e.LetsGo a := by
  induction edges using List.reverseRecOn with
  | nil => simp
  | append_singleton edges e ih =>
    rw [held_concat, mem_apply, ih]
    constructor
    · rintro (rfl | ⟨⟨before, after, rfl, hafter⟩, he⟩)
      · exact ⟨edges, [], rfl, by simp⟩
      · refine ⟨before, after ++ [e], by simp, fun f hf => ?_⟩
        rcases List.mem_append.1 hf with hf | hf
        · exact hafter f hf
        · rwa [List.mem_singleton.1 hf]
    · rintro ⟨before, after, hsplit, hafter⟩
      rcases concat_eq_append_cons.1 hsplit with ⟨-, -, hlast⟩ | ⟨init, rfl, hinit⟩
      · exact .inl hlast
      · exact .inr ⟨⟨before, init, hinit, fun g hg => hafter g (List.mem_append_left _ hg)⟩,
          hafter e (by simp)⟩

/-- **Nothing is held** exactly when every press is let go later. -/
theorem held_eq_empty_iff : held edges = ∅ ↔
    ∀ (a : α) (before after), edges = before ++ press a :: after → ∃ e ∈ after, e.LetsGo a := by
  rw [Finset.eq_empty_iff_forall_notMem]
  constructor
  · intro h a before after hsplit
    by_contra hno
    exact h a (mem_held.2 ⟨before, after, hsplit, fun e he hgo => hno ⟨e, he, hgo⟩⟩)
  · intro h a hmem
    obtain ⟨before, after, hsplit, hafter⟩ := mem_held.1 hmem
    obtain ⟨e, he, hgo⟩ := h a before after hsplit
    exact hafter e he hgo

/-- The same for messages some of which are presses and releases. -/
theorem held_filterMap_eq_empty_iff {β : Type*} {change : β → Option (Edge α)} {l : List β} :
    held (l.filterMap change) = ∅ ↔
      ∀ (a : α) (before x after), l = before ++ x :: after → change x = some (press a) →
        ∃ y ∈ after, ∃ e, change y = some e ∧ e.LetsGo a := by
  rw [held_eq_empty_iff]
  constructor
  · rintro h a before x after rfl hx
    have hsplit : (before ++ x :: after).filterMap change =
        before.filterMap change ++ press a :: after.filterMap change := by
      rw [List.filterMap_append, List.filterMap_cons_some hx]
    obtain ⟨e, he, hgo⟩ := h a _ _ hsplit
    obtain ⟨y, hy, hye⟩ := List.mem_filterMap.1 he
    exact ⟨y, hy, e, hye, hgo⟩
  · intro h a before after hsplit
    obtain ⟨l₁, l₂, rfl, -, hrest⟩ := List.filterMap_eq_append_iff.1 hsplit
    obtain ⟨l₃, x, l₄, rfl, -, hx, rfl⟩ := List.filterMap_eq_cons_iff.1 hrest
    obtain ⟨y, hy, e, hye, hgo⟩ := h a (l₁ ++ l₃) x l₄ (by simp) hx
    exact ⟨e, List.mem_filterMap.2 ⟨y, hy, hye⟩, hgo⟩

end Edge

end WaylandWebStream
