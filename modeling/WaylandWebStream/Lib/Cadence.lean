import Mathlib.Data.List.Basic
import Mathlib.Algebra.Order.Ring.Nat
import Mathlib.Tactic.Ring

/-!
# Cadence — events paced by a deadline and by a gap

Events are let through at a deadline, or early when an interval has
passed since the last one; and each event moves the deadline on by at
least an interval, and at least to its own instant. Either gate alone
spaces events an interval apart. Together they let one event more into a
window than that. Whether a window may take one more is a matter of the
instant: `Room` says when, the deadline never comes before there is room,
and `sparse_cons` is the step in both directions.
-/

namespace WaylandWebStream

namespace Cadence

/-- How many of the instants are at or after `a`. -/
def since (a : ℕ) (log : List ℕ) : ℕ := log.countP fun t => decide (a ≤ t)

/-- How many of them lie in the window of length `T` that starts at `a`. -/
def within (a T : ℕ) (log : List ℕ) : ℕ := log.countP fun t => decide (a ≤ t ∧ t ≤ a + T)

variable {I deadline deadline' last last' a T t s : ℕ} {log : List ℕ}

theorem since_cons : since a (t :: log) = since a log + if a ≤ t then 1 else 0 := by
  simp [since, List.countP_cons]

theorem within_cons :
    within a T (t :: log) = within a T log + if a ≤ t ∧ t ≤ a + T then 1 else 0 := by
  simp [within, List.countP_cons]

/-- Nothing is in a window that ends before it all. -/
theorem within_eq_zero (h : ∀ t ∈ log, t < a) : within a T log = 0 := by
  rw [within, List.countP_eq_zero]
  intro t ht hin
  have hlt := h t ht
  have hle := of_decide_eq_true hin
  omega

theorem within_le_since : within a T log ≤ since a log := by
  refine List.countP_mono_left fun t _ hin => ?_
  have hle := of_decide_eq_true hin
  exact decide_eq_true hle.1

/-- **The cap**: a window holds two events more than it has intervals. -/
def Sparse (I : ℕ) (log : List ℕ) : Prop := ∀ a T, within a T log ≤ T / I + 2

/-- **There is room at `t`**: after any instant it comes as many intervals
later as there have been events since, but for one. -/
def Room (I : ℕ) (log : List ℕ) (t : ℕ) : Prop :=
  ∀ a, 0 < since a log → a + (since a log - 1) * I ≤ t

theorem room_nil : Room I [] t := fun _ h => absurd h (Nat.lt_irrefl _)

/-- The events themselves are the instants to look at. -/
theorem room_iff : Room I log t ↔ ∀ a ∈ log, a + (since a log - 1) * I ≤ t := by
  constructor
  · intro h a ha
    exact h a (List.countP_pos_iff.2 ⟨a, ha, decide_eq_true le_rfl⟩)
  · intro h a ha
    have hex : ∃ b, b ∈ log ∧ a ≤ b := by
      obtain ⟨b, hb, hab⟩ := List.countP_pos_iff.1 ha
      exact ⟨b, hb, of_decide_eq_true hab⟩
    -- the first event at or after `a` has the same events after it
    obtain ⟨hb, hab⟩ := Nat.find_spec hex
    have hsame : since a log = since (Nat.find hex) log := by
      refine List.countP_congr fun s hs => ?_
      have hfirst : a ≤ s → Nat.find hex ≤ s := fun hle => Nat.find_min' hex ⟨hs, hle⟩
      simp only [decide_eq_true_eq]
      omega
    have hle := h _ hb
    rw [← hsame] at hle
    omega

instance : Decidable (Room I log t) := decidable_of_iff _ room_iff.symm

/-- There is room later too. -/
theorem Room.mono (h : Room I log deadline) (hle : deadline ≤ deadline') :
    Room I log deadline' := fun a ha => (h a ha).trans hle

/-- **A deadline moved on leaves room** for the event after. -/
theorem Room.cons (h : Room I log deadline) (hon : deadline + I ≤ deadline') (hto : t ≤ deadline') :
    Room I (t :: log) deadline' := by
  intro a ha
  rw [since_cons] at ha ⊢
  rcases Nat.eq_zero_or_pos (since a log) with hzero | hpos
  · rw [hzero] at ha ⊢
    split_ifs at ha ⊢ with hat
    · simp only [Nat.zero_add, Nat.sub_self, Nat.zero_mul, Nat.add_zero]
      exact hat.trans hto
    · omega
  · have hle := h a hpos
    have hcount : since a log + (if a ≤ t then 1 else 0) - 1 ≤ since a log - 1 + 1 := by
      split_ifs <;> omega
    have hmul := Nat.mul_le_mul_right I hcount
    rw [Nat.add_mul, Nat.one_mul] at hmul
    omega

/-- An interval after the last of sparse events there is room. -/
theorem Sparse.room (h : Sparse I log) (hlast : ∀ s ∈ log, s ≤ last)
    (hgap : last + I ≤ t) : Room I log t := by
  intro a ha
  obtain ⟨s, hs, has⟩ := List.countP_pos_iff.1 ha
  have hal : a ≤ last := (of_decide_eq_true has).trans (hlast s hs)
  have hall : within a (last - a) log = since a log := by
    refine List.countP_congr fun s hs => ?_
    have := hlast s hs
    simp only [decide_eq_true_eq]
    omega
  have hcap := h a (last - a)
  rw [hall] at hcap
  have hcount : since a log - 1 ≤ (last - a) / I + 1 := by omega
  have hmul := Nat.mul_le_mul_right I hcount
  have hdiv := Nat.div_mul_le_self (last - a) I
  rw [Nat.add_mul, Nat.one_mul] at hmul
  omega

theorem sparse_nil : Sparse I [] := fun a T => by
  rw [within, List.countP_nil]
  exact Nat.zero_le _

/-- **One more event keeps the cap exactly where there is room for it.** -/
theorem sparse_cons (hI : 0 < I) (hle : ∀ s ∈ log, s ≤ t) (h : Sparse I log) :
    Sparse I (t :: log) ↔ Room I log t := by
  constructor
  · intro hcons a ha
    obtain ⟨s, hs, has⟩ := List.countP_pos_iff.1 ha
    have hat : a ≤ t := (of_decide_eq_true has).trans (hle s hs)
    -- the window up to the event has it and all since `a`
    have hall : within a (t - a) log = since a log := by
      refine List.countP_congr fun s hs => ?_
      have := hle s hs
      simp only [decide_eq_true_eq]
      omega
    have hcap := hcons a (t - a)
    rw [within_cons, hall, if_pos ⟨hat, by omega⟩] at hcap
    have hcount : since a log - 1 ≤ (t - a) / I := by omega
    have hmul := Nat.mul_le_mul_right I hcount
    have hdiv := Nat.div_mul_le_self (t - a) I
    omega
  · intro hroom a T
    rw [within_cons]
    split_ifs with hin
    · rcases Nat.eq_zero_or_pos (since a log) with hzero | hpos
      · have hsince : within a T log ≤ since a log := within_le_since
        rw [hzero, Nat.le_zero] at hsince
        rw [hsince]
        exact Nat.le_add_left _ _
      · have hreach := hroom a hpos
        have hsince : within a T log ≤ since a log := within_le_since
        have hcount : since a log - 1 ≤ T / I :=
          (Nat.le_div_iff_mul_le hI).2 (by omega)
        omega
    · exact h a T

/-- **Paced events**, `log` of them up to `last`, with a deadline for the
next. -/
structure Paced (I deadline last : ℕ) (log : List ℕ) : Prop where
  le_last : ∀ t ∈ log, t ≤ last
  room : Room I log deadline
  sparse : Sparse I log

/-- Nothing has happened. -/
theorem Paced.nil : Paced I deadline last [] where
  le_last t ht := by cases ht
  room := room_nil
  sparse := sparse_nil

/-- The deadline may be moved on at any time. -/
theorem Paced.relax (h : Paced I deadline last log) (hle : deadline ≤ deadline') :
    Paced I deadline' last log :=
  { h with room := h.room.mono hle }

/-- **One more event**, at the deadline or an interval after the last one. -/
theorem Paced.event (h : Paced I deadline last log) (hI : 0 < I) (hlast : last ≤ t)
    (hgate : deadline ≤ t ∨ last + I ≤ t) (hon : deadline + I ≤ deadline') (hto : t ≤ deadline') :
    Paced I deadline' t (t :: log) := by
  have hle : ∀ s ∈ log, s ≤ t := fun s hs => (h.le_last s hs).trans hlast
  have hroom : Room I log t := by
    rcases hgate with hdue | hearly
    · exact h.room.mono hdue
    · exact h.sparse.room h.le_last hearly
  refine ⟨fun s hs => ?_, h.room.cons hon hto, (sparse_cons hI hle h.sparse).2 hroom⟩
  rcases List.mem_cons.1 hs with rfl | hs
  · exact le_rfl
  · exact hle s hs

/-- Events that each end before the next one begins: a window has at most
one end more than it has beginnings. -/
inductive Apart : List (ℕ × ℕ) → Prop
  | nil : Apart []
  | cons {t s : ℕ} {log : List (ℕ × ℕ)} : Apart log → t ≤ s → (∀ e ∈ log, e.2 ≤ t) →
      Apart ((t, s) :: log)

theorem Apart.within_le {log : List (ℕ × ℕ)} (h : Apart log) (a T : ℕ) :
    within a T (log.map Prod.snd) ≤ within a T (log.map Prod.fst) + 1 := by
  induction h with
  | nil => exact Nat.zero_le _
  | @cons t s log _ hts hbefore ih =>
    rw [List.map_cons, List.map_cons, within_cons, within_cons]
    by_cases hbegun : a ≤ t
    · split_ifs with hend hbegin
      · omega
      · omega
      · omega
      · omega
    · -- it begins before the window, where everything else has ended
      have hzero : within a T (log.map Prod.snd) = 0 := by
        refine within_eq_zero fun s' hs' => ?_
        obtain ⟨e, he, rfl⟩ := List.mem_map.1 hs'
        have hle := hbefore e he
        omega
      rw [hzero]
      split_ifs <;> omega

end Cadence

end WaylandWebStream
