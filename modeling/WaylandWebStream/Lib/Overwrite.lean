import Mathlib.Data.Set.Lattice
import WaylandWebStream.Lib.Bytes

/-!
# Overwriting — passes that put a fixed picture into a region

`Overwrites R v c c'`: going from `c` to `c'`, every place in the region
`R` took the value `v` has there and every other place kept its own. What
makes the relation useful is how it composes: passes with one picture add
up their regions, in any order and overlapping as they like, and a pass
confined to an earlier pass's region only changes the picture.
-/

namespace WaylandWebStream

variable {γ ι β : Type*} {get : γ → ι → β}

/-- **A pass from `c` to `c'`** that puts `v` into `R` and keeps the rest. -/
structure Overwrites (get : γ → ι → β) (R : Set ι) (v : ι → β) (c c' : γ) : Prop where
  inside : ∀ i ∈ R, get c' i = v i
  outside : ∀ i, i ∉ R → get c' i = get c i

namespace Overwrites

variable {R S E : Set ι} {v v' : ι → β} {c c' c'' : γ}

/-- Doing nothing overwrites nothing. -/
theorem refl (c : γ) : Overwrites get ∅ v c c := ⟨fun _ h => h.elim, fun _ _ => rfl⟩

/-- The picture matters only inside, the region only as a set. -/
theorem congr (h : Overwrites get R v c c') (hR : ∀ i, i ∈ R ↔ i ∈ S)
    (hv : ∀ i ∈ R, v i = v' i) : Overwrites get S v' c c' := by
  refine ⟨fun i hi => ?_, fun i hi => h.outside i fun hR' => hi ((hR i).1 hR')⟩
  have hiR := (hR i).2 hi
  rw [h.inside i hiR, hv i hiR]

/-- **Two passes with one picture** make one over both regions. -/
theorem union (h : Overwrites get R v c c') (h' : Overwrites get S v c' c'') :
    Overwrites get (R ∪ S) v c c'' := by
  refine ⟨fun i hi => ?_, fun i hi => ?_⟩
  · by_cases hS : i ∈ S
    · exact h'.inside i hS
    · rw [h'.outside i hS]
      exact h.inside i (hi.resolve_right hS)
  · rw [h'.outside i fun hS => hi (Or.inr hS)]
    exact h.outside i fun hR => hi (Or.inl hR)

/-- A pass over the same region leaves nothing of the earlier one. -/
theorem again (h : Overwrites get R v c c') (h' : Overwrites get R v' c' c'') :
    Overwrites get R v' c c'' :=
  ⟨h'.inside, fun i hi => (h'.outside i hi).trans (h.outside i hi)⟩

open Classical in
/-- **A pass confined to an earlier one's region** only repaints it. -/
theorem confined (h : Overwrites get R v c c') (h' : Overwrites get (R ∩ E) v' c' c'') :
    Overwrites get R (fun i => if i ∈ E then v' i else v i) c c'' := by
  refine ⟨fun i hi => ?_, fun i hi => ?_⟩
  · by_cases hE : i ∈ E
    · rw [if_pos hE]
      exact h'.inside i ⟨hi, hE⟩
    · rw [if_neg hE, h'.outside i fun hRE => hE hRE.2]
      exact h.inside i hi
  · rw [h'.outside i fun hRE => hi hRE.1]
    exact h.outside i hi

/-- **A loop of passes with one picture** overwrites all their regions. -/
theorem foldl {α : Type*} {pass : γ → α → γ} {region : α → Set ι} {I : γ → Prop} (l : List α)
    (hI : ∀ c, I c → ∀ a ∈ l, I (pass c a))
    (hpass : ∀ c, I c → ∀ a ∈ l, Overwrites get (region a) v c (pass c a)) (c : γ) (hc : I c) :
    Overwrites get {i | ∃ a ∈ l, i ∈ region a} v c (l.foldl pass c) := by
  induction l generalizing c with
  | nil =>
    have hnone : Overwrites get ∅ v c c := refl c
    exact hnone.congr (by simp) fun _ _ => rfl
  | cons a l ih =>
    have hrest := ih (fun c hc b hb => hI c hc b (List.mem_cons_of_mem _ hb))
      (fun c hc b hb => hpass c hc b (List.mem_cons_of_mem _ hb)) (pass c a)
      (hI c hc a List.mem_cons_self)
    refine ((hpass c hc a List.mem_cons_self).union hrest).congr (fun i => ?_) fun _ _ => rfl
    simp

end Overwrites

/-! ## Byte strings -/

namespace Bytes

/-- Writes `src` over the bytes from `start` on. -/
def splice (dst : Bytes) (start : ℕ) (src : Bytes) : Bytes :=
  dst.take start ++ src ++ dst.drop (start + src.length)

variable {dst src : Bytes} {start : ℕ}

theorem length_splice (h : start + src.length ≤ dst.length) :
    (splice dst start src).length = dst.length := by
  simp only [splice, List.length_append, List.length_take, List.length_drop]
  omega

/-- **A splice overwrites its range** and nothing else. -/
theorem overwrites_splice (h : start + src.length ≤ dst.length) :
    Overwrites (fun (bs : Bytes) i => bs[i]?) {i | start ≤ i ∧ i < start + src.length}
      (fun i => src[i - start]?) dst (splice dst start src) := by
  have htake : (dst.take start).length = start := by
    rw [List.length_take]
    omega
  refine ⟨fun i hi => ?_, fun i hi => ?_⟩
  · obtain ⟨hlo, hhi⟩ := hi
    show (splice dst start src)[i]? = src[i - start]?
    rw [splice, List.append_assoc, List.getElem?_append_right (by omega),
      List.getElem?_append_left (by omega), htake]
  · show (splice dst start src)[i]? = dst[i]?
    by_cases hlo : i < start
    · rw [splice, List.append_assoc, List.getElem?_append_left (by omega),
        List.getElem?_take_of_lt hlo]
    · have hhi : start + src.length ≤ i := by
        by_contra hlt
        exact hi ⟨by omega, by omega⟩
      rw [splice, List.getElem?_append_right (by simp only [List.length_append]; omega),
        List.getElem?_drop]
      congr 1
      simp only [List.length_append, htake]
      omega

end Bytes

end WaylandWebStream
