import Mathlib.Data.List.Induction

/-!
# Strided copies — block copies between two buffers

A copy takes a range of a source into a range of a destination; a picture
is copied row by row, one copy each, at the strides of the two sides. Where
the ranges are inside their buffers, a copy overwrites its range and
nothing else (`Copy.getElem?_run`); rows that do not reach into each other
are each found whole in the result (`getElem?_runAll_rows_covered`).
-/

namespace WaylandWebStream

namespace Strided

/-- **A block copy**: `len` items, from offset `src` to offset `dst`. -/
structure Copy where
  src : ℕ
  dst : ℕ
  len : ℕ
deriving DecidableEq, Repr

/-- The ranges of a copy are inside buffers of these lengths. -/
def Copy.InBounds (c : Copy) (srcLen dstLen : ℕ) : Prop :=
  c.src + c.len ≤ srcLen ∧ c.dst + c.len ≤ dstLen

instance (c : Copy) (srcLen dstLen : ℕ) : Decidable (c.InBounds srcLen dstLen) :=
  inferInstanceAs (Decidable (_ ∧ _))

/-- The copy writes this position. -/
def Copy.Covers (c : Copy) (p : ℕ) : Prop := c.dst ≤ p ∧ p < c.dst + c.len

variable {α : Type*} (c : Copy) (src dst : List α)

/-- What a copy leaves in the destination. -/
def Copy.run : List α :=
  dst.take c.dst ++ (src.drop c.src).take c.len ++ dst.drop (c.dst + c.len)

/-- The copies in order, into one destination. -/
def runAll (copies : List Copy) : List α := copies.foldl (fun d c => c.run src d) dst

/-- The copies of a picture: `n` rows of `len` items each. -/
def rows (n len srcStride dstOff dstStride : ℕ) : List Copy :=
  (List.range n).map fun r => ⟨r * srcStride, dstOff + r * dstStride, len⟩

variable {c src dst}

@[simp] theorem Copy.length_run (h : c.InBounds src.length dst.length) :
    (c.run src dst).length = dst.length := by
  obtain ⟨hsrc, hdst⟩ := h
  simp only [run, List.length_append, List.length_take, List.length_drop]
  omega

/-- **A copy overwrites its range**, item by item. -/
theorem Copy.getElem?_run (h : c.InBounds src.length dst.length) {p : ℕ} (hp : c.Covers p) :
    (c.run src dst)[p]? = src[c.src + (p - c.dst)]? := by
  obtain ⟨hsrc, hdst⟩ := h
  obtain ⟨hle, hlt⟩ := hp
  have hhead : (dst.take c.dst).length = c.dst := by rw [List.length_take]; omega
  have hmid : ((src.drop c.src).take c.len).length = c.len := by
    rw [List.length_take, List.length_drop]; omega
  rw [run, List.append_assoc, List.getElem?_append_right (by omega), hhead,
    List.getElem?_append_left (by omega), List.getElem?_take_of_lt (by omega), List.getElem?_drop]

/-- **And nothing else.** -/
theorem Copy.getElem?_run_of_not (h : c.InBounds src.length dst.length) {p : ℕ}
    (hp : ¬ c.Covers p) : (c.run src dst)[p]? = dst[p]? := by
  obtain ⟨hsrc, hdst⟩ := h
  have hhead : (dst.take c.dst).length = c.dst := by rw [List.length_take]; omega
  have hmid : ((src.drop c.src).take c.len).length = c.len := by
    rw [List.length_take, List.length_drop]; omega
  rcases Nat.lt_or_ge p c.dst with hlt | hge
  · rw [run, List.append_assoc, List.getElem?_append_left (by omega),
      List.getElem?_take_of_lt hlt]
  · have hafter : c.dst + c.len ≤ p := by
      by_contra hcon
      exact hp ⟨hge, by omega⟩
    rw [run, List.getElem?_append_right (by rw [List.length_append]; omega), List.length_append,
      hhead, hmid, List.getElem?_drop]
    congr 1
    omega

@[simp] theorem runAll_nil : runAll src dst [] = dst := rfl

@[simp] theorem runAll_concat (copies : List Copy) :
    runAll src dst (copies ++ [c]) = c.run src (runAll src dst copies) := by
  simp [runAll]

theorem length_runAll {copies : List Copy} (h : ∀ c ∈ copies, c.InBounds src.length dst.length) :
    (runAll src dst copies).length = dst.length := by
  induction copies using List.reverseRecOn with
  | nil => rfl
  | append_singleton copies c ih =>
    have hlen := ih fun d hd => h d (by simp [hd])
    rw [runAll_concat, Copy.length_run (by rw [hlen]; exact h c (by simp)), hlen]

/-- What no copy covers is left. -/
theorem getElem?_runAll_of_not {copies : List Copy}
    (h : ∀ c ∈ copies, c.InBounds src.length dst.length) {p : ℕ}
    (hp : ∀ c ∈ copies, ¬ c.Covers p) : (runAll src dst copies)[p]? = dst[p]? := by
  induction copies using List.reverseRecOn with
  | nil => rfl
  | append_singleton copies c ih =>
    have hin : ∀ d ∈ copies, d.InBounds src.length dst.length := fun d hd => h d (by simp [hd])
    have hlen := length_runAll hin
    rw [runAll_concat, Copy.getElem?_run_of_not (by rw [hlen]; exact h c (by simp))
      (hp c (by simp))]
    exact ih hin fun d hd => hp d (by simp [hd])

/-! ## Rows -/

variable {n len srcStride dstOff dstStride : ℕ}

theorem mem_rows : c ∈ rows n len srcStride dstOff dstStride ↔
    ∃ r < n, c = ⟨r * srcStride, dstOff + r * dstStride, len⟩ := by
  simp only [rows, List.mem_map, List.mem_range, eq_comm]

theorem rows_succ : rows (n + 1) len srcStride dstOff dstStride =
    rows n len srcStride dstOff dstStride ++ [⟨n * srcStride, dstOff + n * dstStride, len⟩] := by
  simp [rows, List.range_succ]

/-- **A row is found whole**, when a row is no longer than the stride. -/
theorem getElem?_runAll_rows (hlen : len ≤ dstStride)
    (h : ∀ c ∈ rows n len srcStride dstOff dstStride, c.InBounds src.length dst.length)
    {r k : ℕ} (hr : r < n) (hk : k < len) :
    (runAll src dst (rows n len srcStride dstOff dstStride))[dstOff + r * dstStride + k]?
      = src[r * srcStride + k]? := by
  induction n with
  | zero => exact absurd hr (Nat.not_lt_zero r)
  | succ n ih =>
    rw [rows_succ] at h ⊢
    have hin : ∀ c ∈ rows n len srcStride dstOff dstStride, c.InBounds src.length dst.length :=
      fun c hc => h c (by simp [hc])
    have hlast : Copy.InBounds ⟨n * srcStride, dstOff + n * dstStride, len⟩ src.length
        (runAll src dst (rows n len srcStride dstOff dstStride)).length := by
      rw [length_runAll hin]
      exact h _ (by simp)
    rw [runAll_concat]
    rcases Nat.lt_succ_iff_lt_or_eq.1 hr with hlt | heq
    · have hbefore : r * dstStride + dstStride ≤ n * dstStride := by
        rw [← Nat.succ_mul]
        exact Nat.mul_le_mul_right _ hlt
      have hout : ¬ Copy.Covers ⟨n * srcStride, dstOff + n * dstStride, len⟩
          (dstOff + r * dstStride + k) := by
        rintro ⟨hge, -⟩
        simp only at hge
        omega
      rw [Copy.getElem?_run_of_not hlast hout, ih hin hlt]
    · subst heq
      rw [Copy.getElem?_run hlast ⟨by simp only; omega, by simp only; omega⟩]
      congr 1
      simp only
      omega

/-- One copy of everything is the rows of it, where the strides agree. -/
theorem getElem?_run_whole {total : ℕ} (hdst : dst.length = total) (hsrc : total ≤ src.length)
    {p : ℕ} (hp : p < total) : ((⟨0, 0, total⟩ : Copy).run src dst)[p]? = src[p]? := by
  rw [Copy.getElem?_run ⟨by simpa using hsrc, by simp [hdst]⟩ ⟨by simp, by simpa using hp⟩]
  simp

end Strided

end WaylandWebStream
