import Mathlib.Algebra.GroupWithZero.Nat
import Mathlib.Algebra.Order.BigOperators.Group.List
import Mathlib.Data.List.Induction
import Mathlib.Data.List.Infix
import WaylandWebStream.Lib.Machine

/-!
# Backlogs — what arrives, and what is served of it

A queue in numbers: amounts arrive, and each service offers room for an
amount and takes what there is, up to it. The backlog stays within a
bound exactly when no stretch of the history brings in more than its
services have room for and the bound (`within_iff`). And where amounts
arrive in multiples of `k`, every service begins at a multiple exactly
when none comes after one that was cut short of a multiple
(`aligned_iff`).
-/

namespace WaylandWebStream

/-- What happens to a backlog. -/
inductive Flow
  | arrive (n : ℕ)
  /-- There is room for so much. -/
  | serve (room : ℕ)
  deriving DecidableEq

namespace Flow

def arrival : Flow → ℕ
  | arrive n => n
  | serve _ => 0

def room : Flow → ℕ
  | arrive _ => 0
  | serve n => n

/-- What is left to serve afterwards. -/
def after (w : ℕ) : Flow → ℕ
  | arrive n => w + n
  | serve n => w - n

end Flow

namespace Backlog

open WaylandWebStream.Flow

/-- What a history brings in. -/
def arrived (l : List Flow) : ℕ := (l.map arrival).sum

/-- What its services have room for. -/
def offered (l : List Flow) : ℕ := (l.map room).sum

/-- **The backlog** a history leaves. -/
def backlog (l : List Flow) : ℕ := l.foldl after 0

/-- What its services took. -/
def taken (l : List Flow) : ℕ := arrived l - backlog l

variable {l before stretch : List Flow} {n k bound : ℕ} {e : Flow}

@[simp] theorem arrived_nil : arrived [] = 0 := rfl

@[simp] theorem offered_nil : offered [] = 0 := rfl

@[simp] theorem backlog_nil : backlog [] = 0 := rfl

@[simp] theorem arrived_append (l m : List Flow) : arrived (l ++ m) = arrived l + arrived m := by
  simp [arrived]

@[simp] theorem offered_append (l m : List Flow) : offered (l ++ m) = offered l + offered m := by
  simp [offered]

@[simp] theorem arrived_singleton : arrived [e] = e.arrival := by simp [arrived]

@[simp] theorem offered_singleton : offered [e] = e.room := by simp [offered]

theorem backlog_concat : backlog (l ++ [e]) = after (backlog l) e := List.foldl_concat ..

@[simp] theorem backlog_arrive : backlog (l ++ [arrive n]) = backlog l + n := backlog_concat

@[simp] theorem backlog_serve : backlog (l ++ [serve n]) = backlog l - n := backlog_concat

/-! ## Bounds -/

/-- What arrives is served or waits. -/
theorem backlog_le_arrived (l : List Flow) : backlog l ≤ arrived l := by
  induction l using List.reverseRecOn with
  | nil => exact le_rfl
  | append_singleton l e ih =>
    cases e with
    | arrive n => simpa [arrival] using ih
    | serve n =>
      simp only [backlog_serve, arrived_append, arrived_singleton, arrival]
      omega

/-- However much was waiting before a stretch, what it brings in waits
after it, but for what it has room for. -/
theorem arrived_le (before stretch : List Flow) :
    arrived stretch ≤ backlog (before ++ stretch) + offered stretch := by
  induction stretch using List.reverseRecOn with
  | nil => exact Nat.zero_le _
  | append_singleton stretch e ih =>
    rw [← List.append_assoc]
    cases e with
    | arrive n =>
      simp only [backlog_arrive, arrived_append, arrived_singleton, arrival, offered_append,
        offered_singleton, room]
      omega
    | serve n =>
      simp only [backlog_serve, arrived_append, arrived_singleton, arrival, offered_append,
        offered_singleton, room]
      omega

/-- **The stretch that left the backlog**: the one since nothing was
waiting. -/
theorem exists_stretch (l : List Flow) :
    ∃ stretch, stretch <:+ l ∧ backlog l + offered stretch = arrived stretch := by
  induction l using List.reverseRecOn with
  | nil => exact ⟨[], List.suffix_rfl, rfl⟩
  | append_singleton l e ih =>
    obtain ⟨stretch, hsuffix, heq⟩ := ih
    have hnext : stretch ++ [e] <:+ l ++ [e] := by
      obtain ⟨rest, rfl⟩ := hsuffix
      exact ⟨rest, by simp⟩
    cases e with
    | arrive n =>
      refine ⟨_, hnext, ?_⟩
      simp only [backlog_arrive, arrived_append, arrived_singleton, arrival, offered_append,
        offered_singleton, room]
      omega
    | serve n =>
      rcases Nat.lt_or_ge (backlog l) n with hlt | hge
      · -- everything was served: a new stretch begins
        refine ⟨[], List.nil_suffix, ?_⟩
        rw [backlog_serve, offered_nil, arrived_nil]
        omega
      · refine ⟨_, hnext, ?_⟩
        simp only [backlog_serve, arrived_append, arrived_singleton, arrival, offered_append,
          offered_singleton, room]
        omega

/-- The backlog was never above a bound. -/
def Within (bound : ℕ) (l : List Flow) : Prop := ∀ before, before <+: l → backlog before ≤ bound

theorem within_nil : Within bound [] := fun before hbefore => by
  rw [List.prefix_nil.1 hbefore]
  exact Nat.zero_le _

theorem within_concat : Within bound (l ++ [e]) ↔ Within bound l ∧ backlog (l ++ [e]) ≤ bound := by
  constructor
  · intro h
    exact ⟨fun before hbefore => h before (hbefore.trans (List.prefix_append _ _)),
      h _ List.prefix_rfl⟩
  · rintro ⟨h, hlast⟩ before hbefore
    rcases List.prefix_concat_iff.1 hbefore with rfl | hbefore
    · exact hlast
    · exact h before hbefore

/-- **When a backlog stays within a bound**: exactly when no stretch
brings in more than there is room for in it, and the bound. -/
theorem within_iff : Within bound l ↔
    ∀ stretch, stretch <:+: l → arrived stretch ≤ offered stretch + bound := by
  constructor
  · rintro h stretch ⟨before, rest, rfl⟩
    have hle := arrived_le before stretch
    have hbound := h (before ++ stretch) (List.prefix_append _ _)
    omega
  · intro h before hbefore
    obtain ⟨stretch, hsuffix, heq⟩ := exists_stretch before
    have hle := h stretch (hsuffix.isInfix.trans hbefore.isInfix)
    omega

/-! ## Alignment -/

/-- **Every service that takes something begins at a multiple of `k`.** -/
def Aligned (k : ℕ) (l : List Flow) : Prop :=
  ∀ before n rest, l = before ++ serve n :: rest → 0 < min n (backlog before) → k ∣ taken before

/-- A service is cut short, and not at a multiple of `k`. -/
def Cut (k : ℕ) (l : List Flow) : Prop :=
  ∃ before n rest, l = before ++ serve n :: rest ∧ n < backlog before ∧ ¬ k ∣ n

/-- A service with room comes after one that was cut so. -/
def Splits (k : ℕ) (l : List Flow) : Prop :=
  ∃ before n rest, l = before ++ serve n :: rest ∧ 0 < n ∧ Cut k before

theorem aligned_nil : Aligned k [] := fun before n rest h => by simp at h

theorem not_cut_nil : ¬ Cut k [] := fun ⟨before, n, rest, h, _⟩ => by simp at h

theorem not_splits_nil : ¬ Splits k [] := fun ⟨before, n, rest, h, _⟩ => by simp at h

theorem aligned_concat : Aligned k (l ++ [e]) ↔
    Aligned k l ∧ (0 < min e.room (backlog l) → k ∣ taken l) := by
  constructor
  · intro h
    refine ⟨fun before n rest hsplit => h before n (rest ++ [e]) (by simp [hsplit]), ?_⟩
    cases e with
    | arrive n => simp [room]
    | serve n => exact h l n [] rfl
  · rintro ⟨h, hlast⟩ before n rest hsplit
    rcases concat_eq_append_cons.1 hsplit with ⟨-, rfl, rfl⟩ | ⟨init, -, hinit⟩
    · exact hlast
    · exact h before n init hinit

theorem cut_concat : Cut k (l ++ [e]) ↔
    Cut k l ∨ ∃ n, e = serve n ∧ n < backlog l ∧ ¬ k ∣ n := by
  constructor
  · rintro ⟨before, n, rest, hsplit, hcut⟩
    rcases concat_eq_append_cons.1 hsplit with ⟨-, rfl, rfl⟩ | ⟨init, -, hinit⟩
    · exact .inr ⟨n, rfl, hcut⟩
    · exact .inl ⟨before, n, init, hinit, hcut⟩
  · rintro (⟨before, n, rest, rfl, hcut⟩ | ⟨n, rfl, hcut⟩)
    · exact ⟨before, n, rest ++ [e], by simp, hcut⟩
    · exact ⟨l, n, [], rfl, hcut⟩

theorem splits_concat : Splits k (l ++ [e]) ↔ Splits k l ∨ 0 < e.room ∧ Cut k l := by
  constructor
  · rintro ⟨before, n, rest, hsplit, hn, hcut⟩
    rcases concat_eq_append_cons.1 hsplit with ⟨-, rfl, rfl⟩ | ⟨init, -, hinit⟩
    · exact .inr ⟨hn, hcut⟩
    · exact .inl ⟨before, n, init, hinit, hn, hcut⟩
  · rintro (⟨before, n, rest, rfl, hn, hcut⟩ | ⟨hroom, hcut⟩)
    · exact ⟨before, n, rest ++ [e], by simp, hn, hcut⟩
    · cases e with
      | arrive n => exact absurd hroom (Nat.lt_irrefl 0)
      | serve n => exact ⟨l, n, [], rfl, hroom, hcut⟩

/-- What a service takes. -/
theorem taken_concat : taken (l ++ [e]) = taken l + min e.room (backlog l) := by
  have hle := backlog_le_arrived l
  cases e with
  | arrive n =>
    simp only [taken, arrived_append, arrived_singleton, arrival, backlog_arrive, room]
    omega
  | serve n =>
    simp only [taken, arrived_append, arrived_singleton, arrival, backlog_serve, room]
    omega

theorem dvd_arrived (harrive : ∀ n, arrive n ∈ l → k ∣ n) : k ∣ arrived l := by
  induction l with
  | nil => exact Nat.dvd_zero k
  | cons e l ih =>
    have hrest := ih fun n hn => harrive n (List.mem_cons_of_mem _ hn)
    rw [← List.singleton_append, arrived_append, arrived_singleton]
    cases e with
    | arrive n => exact Nat.dvd_add (harrive n List.mem_cons_self) hrest
    | serve n => simpa [arrival] using hrest

/-- All that arrived is a multiple, so what waits is one when what was
taken is. -/
theorem dvd_taken_iff (harrive : ∀ n, arrive n ∈ l → k ∣ n) : k ∣ taken l ↔ k ∣ backlog l := by
  have hall := dvd_arrived harrive
  have hsum : taken l + backlog l = arrived l := Nat.sub_add_cancel (backlog_le_arrived l)
  rw [← hsum] at hall
  exact ⟨fun h => (Nat.dvd_add_right h).1 hall, fun h => (Nat.dvd_add_left h).1 hall⟩

/-- As long as every service is aligned, the next one would be exactly
when none was cut. -/
theorem aligned_and_cut (harrive : ∀ n, arrive n ∈ l → k ∣ n) :
    (Aligned k l ↔ ¬ Splits k l) ∧ (Aligned k l → (k ∣ taken l ↔ ¬ Cut k l)) := by
  induction l using List.reverseRecOn with
  | nil =>
    exact ⟨iff_of_true aligned_nil not_splits_nil,
      fun _ => iff_of_true (Nat.dvd_zero k) not_cut_nil⟩
  | append_singleton l e ih =>
    have hl : ∀ n, arrive n ∈ l → k ∣ n := fun n hn => harrive n (List.mem_append_left _ hn)
    obtain ⟨hiff, hcut⟩ := ih hl
    have hwaits := dvd_taken_iff hl
    rw [aligned_concat, splits_concat, cut_concat, taken_concat, hiff]
    rw [hiff] at hcut
    constructor
    · rw [not_or, not_and]
      refine and_congr_right fun halign => ?_
      rw [hcut halign]
      constructor
      · intro hnext hroom hwas
        -- something cut off is waiting
        have hleft : 0 < backlog l := by
          refine Nat.pos_of_ne_zero fun hzero => ?_
          rw [hzero] at hwaits
          exact (hcut halign).1 (hwaits.2 (Nat.dvd_zero k)) hwas
        exact hnext (lt_min hroom hleft) hwas
      · intro hnext hmin
        exact hnext (lt_of_lt_of_le hmin (Nat.min_le_left _ _))
    · rintro ⟨halign, hnext⟩
      by_cases hdvd : k ∣ taken l
      · have hnot := (hcut halign).1 hdvd
        rw [Nat.dvd_add_right hdvd, not_or]
        cases e with
        | arrive n => simp [room, hnot]
        | serve n =>
          rcases Nat.lt_or_ge n (backlog l) with hlt | hge
          · simp [room, hnot, Nat.min_eq_left hlt.le, hlt]
          · simp [room, hnot, Nat.min_eq_right hge, hwaits.1 hdvd, Nat.not_lt.2 hge]
      · have hzero : min e.room (backlog l) = 0 := by
          by_contra hne
          exact hdvd (hnext (Nat.pos_of_ne_zero hne))
        have hwas : Cut k l := not_not.1 fun hnot => hdvd ((hcut halign).2 hnot)
        rw [hzero, Nat.add_zero]
        exact iff_of_false hdvd (not_not.2 (.inl hwas))

/-- **When every service is aligned**: exactly when none with room comes
after one that was cut short of a multiple. -/
theorem aligned_iff (harrive : ∀ n, arrive n ∈ l → k ∣ n) : Aligned k l ↔ ¬ Splits k l :=
  (aligned_and_cut harrive).1

end Backlog

end WaylandWebStream
