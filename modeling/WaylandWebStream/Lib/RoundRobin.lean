import Mathlib.Data.List.Basic
import Mathlib.Data.Nat.ModEq

/-!
# Round robin — slots given out in turn, with no way back

A pool of `n` slots is given out in turn, and now and then replaced by a
fresh pool. Nobody says when a slot is no longer used: a draw takes the
next one. `Recent` bounds how old a use can be; where it holds, the next
draw meets no slot in use exactly when no use is a whole round old.
-/

namespace WaylandWebStream

namespace RoundRobin

/-- **The draws of a pool**: how many there were, how many of them before
the present pool was made, and which are still in use, by their numbers. -/
structure Rounds where
  drawn : ℕ
  base : ℕ
  uses : List ℕ

namespace Rounds

variable (n : ℕ) (r : Rounds)

/-- The slot of a draw of the present pool. -/
def slot (k : ℕ) : ℕ := (k - r.base) % n

/-- No use of the present pool is a whole round old. -/
def Timely : Prop := ∀ k ∈ r.uses, r.base ≤ k → r.drawn < k + n

/-- The next draw meets no slot in use. -/
def Apart : Prop := ∀ k ∈ r.uses, r.base ≤ k → r.slot n k ≠ r.slot n r.drawn

/-- A fresh pool. -/
def rebuild : Rounds := { r with base := r.drawn }

/-- The next slot is drawn, and not used. -/
def pass : Rounds := { r with drawn := r.drawn + 1 }

/-- The next slot is drawn, and in use. -/
def draw : Rounds := { r with drawn := r.drawn + 1, uses := r.uses ++ [r.drawn] }

/-- Uses are of draws made, and in the present pool at most a round old. -/
structure Recent : Prop where
  base_le : r.base ≤ r.drawn
  lt : ∀ k ∈ r.uses, k < r.drawn
  le : ∀ k ∈ r.uses, r.base ≤ k → r.drawn ≤ k + n

variable {n r}

/-- **The next draw meets no slot in use exactly when it is timely**: a
use less than a round old has another slot, and one a round old the same. -/
theorem Recent.apart_iff_timely (h : r.Recent n) : r.Apart n ↔ r.Timely n := by
  constructor
  · intro hapart k hk hbase
    have hle := h.le k hk hbase
    refine lt_of_le_of_ne hle fun heq => hapart k hk hbase ?_
    have hround : r.drawn - r.base = k - r.base + n := by omega
    rw [slot, slot, hround, Nat.add_mod_right]
  · intro htimely k hk hbase hsame
    have hlt := h.lt k hk
    have hage := htimely k hk hbase
    have hmod : (k - r.base + (r.drawn - k)) % n = (k - r.base + 0) % n := by
      have hsum : k - r.base + (r.drawn - k) = r.drawn - r.base := by omega
      rw [hsum, Nat.add_zero]
      exact hsame.symm
    have hzero : r.drawn - k ≡ 0 [MOD n] := Nat.ModEq.add_left_cancel' _ hmod
    have hdvd : n ∣ r.drawn - k := (Nat.modEq_zero_iff_dvd).1 hzero
    have hge := Nat.le_of_dvd (by omega) hdvd
    omega

/-! ## The operations -/

theorem Recent.rebuild (h : r.Recent n) : r.rebuild.Recent n where
  base_le := le_rfl
  lt := h.lt
  le k hk hbase := by
    have hle : r.drawn ≤ k := hbase
    exact hle.trans (Nat.le_add_right _ _)

theorem Recent.pass (h : r.Recent n) (htimely : r.Timely n) : r.pass.Recent n where
  base_le := h.base_le.trans (Nat.le_succ _)
  lt k hk := (h.lt k hk).trans (Nat.lt_succ_self _)
  le k hk hbase := htimely k hk hbase

/-- A draw that is timely is used, in a pool with slots. -/
theorem Recent.draw (h : r.Recent n) (htimely : r.Timely n) (hn : 0 < n) : r.draw.Recent n where
  base_le := h.base_le.trans (Nat.le_succ _)
  lt k hk := by
    rcases List.mem_append.1 hk with hk | hk
    · exact (h.lt k hk).trans (Nat.lt_succ_self _)
    · rw [List.mem_singleton.1 hk]
      exact Nat.lt_succ_self _
  le k hk hbase := by
    rcases List.mem_append.1 hk with hk | hk
    · exact htimely k hk hbase
    · rw [List.mem_singleton.1 hk]
      exact Nat.add_le_add_left hn _

/-- Uses end, in any order. -/
theorem Recent.release {uses : List ℕ} (h : r.Recent n) (hsub : ∀ k ∈ uses, k ∈ r.uses) :
    { r with uses }.Recent n where
  base_le := h.base_le
  lt k hk := h.lt k (hsub k hk)
  le k hk hbase := h.le k (hsub k hk) hbase

end Rounds

end RoundRobin

end WaylandWebStream
