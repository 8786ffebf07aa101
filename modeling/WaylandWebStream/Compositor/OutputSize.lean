import WaylandWebStream.Bitrate.Options
import WaylandWebStream.Compositor.Paint
import WaylandWebStream.Lib.Machine

/-!
# Output sizes — what the options and the clients can bring about

The output starts at `--initial-resolution` as it is parsed; from then on
every size comes from a client's request, cut to `--max-resolution`,
rounded down to even and refused below 16. So the sizes in force are
those of the two routes, and the `u32` products computed from them fit
where they fit at the start and at the largest size a client can get.
-/

namespace WaylandWebStream

namespace Compositor

/-! ## The options -/

/-- The options of `Config` that the output size depends on. -/
structure CommandLine extends Bitrate.Config where
  initialResolution : String := "1280x720"
  maxResolution : String := "3840x2160"
  framerate : ℕ := 60

/-- A width and a height. -/
abbrev Size := ℕ × ℕ

/-- `str::parse::<u32>`: a plus sign at most, digits, no overflow. -/
def parseU32 (chars : List Char) : Option ℕ :=
  let digits := if chars.head? = some '+' then chars.tail else chars
  if digits ≠ [] ∧ digits.all Char.isDigit then
    let n := digits.foldl (fun n c => n * 10 + (c.toNat - '0'.toNat)) 0
    if n < 2 ^ 32 then some n else none
  else none

/-- `WIDTHxHEIGHT`. -/
def parseResolution (res : String) : Option Size :=
  match res.toList.splitOn 'x' with
  | [w, h] => do
    let width ← parseU32 w
    let height ← parseU32 h
    pure (width, height)
  | _ => none

/-- `main` goes on with both resolutions parsed and the bitrate bounds in
order: the initial size, and the largest. -/
def CommandLine.accepted (cmd : CommandLine) : Option (Size × Size) := do
  let initial ← parseResolution cmd.initialResolution
  let max ← parseResolution cmd.maxResolution
  if cmd.toConfig.accepted then some (initial, max) else none

/-! ## Resizing -/

/-- `& !1u32`. -/
def evenFloor (n : ℕ) : ℕ := n - n % 2

/-- A client's request, as far as it is granted. -/
def sanitizeResolution (req max : Size) : Option Size :=
  let width := evenFloor (min req.1 max.1)
  let height := evenFloor (min req.2 max.2)
  if width < 16 ∨ height < 16 then none else some (width, height)

/-- **The output size**: it starts as the options say, and a request that
is granted replaces it. -/
def outputSize (initial max : Size) : Machine Size Size where
  init size := size = initial
  step size req := some ((sanitizeResolution req max).getD size)

/-! ## What is computed from it -/

/-- `u32::div_ceil`. -/
def divCeil (a b : ℕ) : ℕ := if a % b > 0 then a / b + 1 else a / b

/-- A row of the H.264 level table. -/
structure H264Level where
  idc : ℕ
  maxMbps : ℕ
  maxFs : ℕ
  deriving DecidableEq

def h264Levels : List H264Level :=
  [⟨10, 1485, 99⟩, ⟨11, 3000, 396⟩, ⟨12, 6000, 396⟩, ⟨13, 11880, 396⟩, ⟨20, 11880, 396⟩,
    ⟨21, 19800, 792⟩, ⟨22, 20250, 1620⟩, ⟨30, 40500, 1620⟩, ⟨31, 108000, 3600⟩,
    ⟨32, 216000, 5120⟩, ⟨40, 245760, 8192⟩, ⟨41, 245760, 8192⟩, ⟨42, 522240, 8704⟩,
    ⟨50, 589824, 22080⟩, ⟨51, 983040, 36864⟩, ⟨52, 2073600, 36864⟩]

/-- The lowest level whose limits cover the size and the rate, the highest
where none does. -/
def selectH264Level (width height framerate : ℕ) : ℕ :=
  let mbsPerFrame := u32 (divCeil width 16 * divCeil height 16)
  let mbps := u32 (mbsPerFrame * framerate)
  match h264Levels.find? fun l => mbps ≤ l.maxMbps ∧ mbsPerFrame ≤ l.maxFs with
  | some l => l.idc
  | none => 52

/-- The macroblocks of a frame. -/
def macroblocks (size : Size) : ℕ := divCeil size.1 16 * divCeil size.2 16

/-- **None of the `u32` products wraps**: a frame's bytes, a row's, the
offsets at which `clear_region` and `blit_bgra` write, the macroblocks of
a frame and of a second. -/
structure ProductsFit (framerate : ℕ) (size : Size) : Prop where
  frame : size.1 * size.2 * 4 < 2 ^ 32
  rowBytes : size.1 * 4 < 2 ^ 32
  rowOffset : ∀ y < size.2, ∀ x ≤ size.1, (y * size.1 + x) * 4 < 2 ^ 32
  macroblocks : macroblocks size < 2 ^ 32
  rate : Compositor.macroblocks size * framerate < 2 ^ 32

/-- **A size that can be encoded**: even, between 16 and the maximum on
both axes. -/
structure Allowed (max size : Size) : Prop where
  even : size.1 % 2 = 0 ∧ size.2 % 2 = 0
  atLeast : 16 ≤ size.1 ∧ 16 ≤ size.2
  atMost : size.1 ≤ max.1 ∧ size.2 ≤ max.2

/-- The largest size a client can get. -/
def largest (max : Size) : Size := (evenFloor max.1, evenFloor max.2)

/-- The largest size's bytes and macroblocks fit. -/
structure LargestFits (framerate : ℕ) (max : Size) : Prop where
  frame : (largest max).1 * (largest max).2 * 4 < 2 ^ 32
  rate : macroblocks (largest max) * framerate < 2 ^ 32

variable {initial max size req : Size} {framerate : ℕ}

/-! ## The sizes in force -/

theorem evenFloor_even (n : ℕ) : evenFloor n % 2 = 0 := by
  unfold evenFloor
  omega

theorem evenFloor_le (n : ℕ) : evenFloor n ≤ n := Nat.sub_le _ _

/-- An even number below another is below that rounded down. -/
theorem le_evenFloor {m n : ℕ} (hm : m % 2 = 0) (h : m ≤ n) : m ≤ evenFloor n := by
  unfold evenFloor
  omega

/-- **A granted request is allowed.** -/
theorem sanitizeResolution_allowed (h : sanitizeResolution req max = some size) :
    Allowed max size := by
  obtain ⟨hsmall, heq⟩ := Option.ite_none_left_eq_some.1 h
  obtain rfl := Option.some.inj heq
  rw [not_or, Nat.not_lt, Nat.not_lt] at hsmall
  refine ⟨⟨evenFloor_even _, evenFloor_even _⟩, hsmall, ?_, ?_⟩
  · exact (evenFloor_le _).trans (Nat.min_le_right _ _)
  · exact (evenFloor_le _).trans (Nat.min_le_right _ _)

/-- Asking for an allowed size gets the largest one for asking the most. -/
theorem sanitizeResolution_max (h : Allowed max size) :
    sanitizeResolution max max = some (largest max) := by
  have hwidth : 16 ≤ evenFloor max.1 := h.atLeast.1.trans (le_evenFloor h.even.1 h.atMost.1)
  have hheight : 16 ≤ evenFloor max.2 := h.atLeast.2.trans (le_evenFloor h.even.2 h.atMost.2)
  simp only [sanitizeResolution, Nat.min_self]
  rw [if_neg (by omega)]
  rfl

/-- **Every size in force is allowed** where the first one is. -/
theorem allowed_of_reachable (hinit : Allowed max initial)
    (h : (outputSize initial max).Reachable size) : Allowed max size := by
  refine h.invariant (fun _ hs => by rw [hs]; exact hinit) fun s req s' hstep hs => ?_
  cases hstep
  cases hreq : sanitizeResolution req max with
  | none => exact hs
  | some size => exact sanitizeResolution_allowed hreq

/-! ## The products -/

theorem divCeil_mono {a b : ℕ} (h : a ≤ b) : divCeil a 16 ≤ divCeil b 16 := by
  unfold divCeil
  split <;> split <;> omega

theorem divCeil_le (a : ℕ) : divCeil a 16 ≤ a := by
  unfold divCeil
  split <;> omega

/-- The largest size bounds the allowed ones. -/
theorem Allowed.le_largest (h : Allowed max size) :
    size.1 ≤ (largest max).1 ∧ size.2 ≤ (largest max).2 :=
  ⟨le_evenFloor h.even.1 h.atMost.1, le_evenFloor h.even.2 h.atMost.2⟩

/-- **What fits at the largest size fits at every allowed one.** -/
theorem LargestFits.productsFit (hfits : LargestFits framerate max) (h : Allowed max size) :
    ProductsFit framerate size := by
  obtain ⟨hwidth, hheight⟩ := h.le_largest
  have hframe : size.1 * size.2 * 4 < 2 ^ 32 :=
    Nat.lt_of_le_of_lt (Nat.mul_le_mul_right 4 (Nat.mul_le_mul hwidth hheight)) hfits.frame
  have hrow : size.1 ≤ size.1 * size.2 :=
    Nat.le_mul_of_pos_right _ (Nat.lt_of_lt_of_le (by decide) h.atLeast.2)
  have hblocks : macroblocks size ≤ macroblocks (largest max) :=
    Nat.mul_le_mul (divCeil_mono hwidth) (divCeil_mono hheight)
  have hpixels : macroblocks size ≤ size.1 * size.2 :=
    Nat.mul_le_mul (divCeil_le _) (divCeil_le _)
  refine ⟨hframe, by omega, fun y hy x hx => ?_, by omega, ?_⟩
  · have hrows : (y + 1) * size.1 ≤ size.2 * size.1 := Nat.mul_le_mul_right _ hy
    have hnext : (y + 1) * size.1 = y * size.1 + size.1 := Nat.succ_mul _ _
    have hcomm : size.2 * size.1 = size.1 * size.2 := Nat.mul_comm _ _
    omega
  · exact Nat.lt_of_le_of_lt (Nat.mul_le_mul_right _ hblocks) hfits.rate

/-- **The level that is chosen covers the stream**, unless none does. -/
theorem selectH264Level_covers (h : ProductsFit framerate size) :
    (∃ l ∈ h264Levels, selectH264Level size.1 size.2 framerate = l.idc ∧
      macroblocks size * framerate ≤ l.maxMbps ∧ macroblocks size ≤ l.maxFs) ∨
    (selectH264Level size.1 size.2 framerate = 52 ∧ ∀ l ∈ h264Levels,
      ¬ (macroblocks size * framerate ≤ l.maxMbps ∧ macroblocks size ≤ l.maxFs)) := by
  have hblocks : u32 (divCeil size.1 16 * divCeil size.2 16) = macroblocks size :=
    Nat.mod_eq_of_lt h.macroblocks
  have hrate : u32 (macroblocks size * framerate) = macroblocks size * framerate :=
    Nat.mod_eq_of_lt h.rate
  simp only [selectH264Level, hblocks, hrate]
  cases hfind : h264Levels.find? fun l =>
      decide (macroblocks size * framerate ≤ l.maxMbps ∧ macroblocks size ≤ l.maxFs) with
  | some l =>
    have hcovers := List.find?_some hfind
    exact .inl ⟨l, List.mem_of_find?_eq_some hfind, rfl, of_decide_eq_true hcovers⟩
  | none =>
    refine .inr ⟨rfl, fun l hl hcovers => ?_⟩
    have hnot := List.find?_eq_none.1 hfind l hl
    exact hnot (decide_eq_true hcovers)

/-! ## The command lines -/

/-- **Every size in force can be encoded**, whatever the clients request. -/
def CommandLine.Encodable (cmd : CommandLine) : Prop :=
  ∀ initial max, cmd.accepted = some (initial, max) →
    ∀ size, (outputSize initial max).Reachable size →
      Allowed max size ∧ ProductsFit cmd.framerate size

/-- **The options are within bounds**: the initial size is one a client
could get, and the largest size's bytes and macroblocks fit. -/
def CommandLine.OptionsFit (cmd : CommandLine) : Prop :=
  ∀ initial max, cmd.accepted = some (initial, max) →
    Allowed max initial ∧ LargestFits cmd.framerate max

/-- **When output sizes stay encodable**: exactly when the options are
within bounds. -/
theorem encodable_iff (cmd : CommandLine) : cmd.Encodable ↔ cmd.OptionsFit := by
  constructor
  · intro h initial max haccepted
    have hsizes := h initial max haccepted
    have hinit : Allowed max initial := (hsizes initial (.start rfl)).1
    have hlargest : (outputSize initial max).Reachable (largest max) := by
      refine Machine.Reachable.next (a := max) (.start rfl) ?_
      show some ((sanitizeResolution max max).getD initial) = some (largest max)
      rw [sanitizeResolution_max hinit]
      rfl
    have hfits := (hsizes _ hlargest).2
    exact ⟨hinit, hfits.frame, hfits.rate⟩
  · intro h initial max haccepted size hsize
    obtain ⟨hinit, hfits⟩ := h initial max haccepted
    have hallowed := allowed_of_reachable hinit hsize
    exact ⟨hallowed, hfits.productsFit hallowed⟩

/-- `--initial-resolution 1281x721`. -/
def oddInitial : CommandLine := { initialResolution := "1281x721" }

/-- **An odd initial size** is accepted and in force. -/
theorem oddInitial_not_encodable :
    oddInitial.accepted = some ((1281, 721), (3840, 2160)) ∧ ¬ oddInitial.Encodable := by
  have haccepted : oddInitial.accepted = some ((1281, 721), (3840, 2160)) := by decide
  refine ⟨haccepted, fun h => ?_⟩
  have hallowed := (h _ _ haccepted _ (.start rfl)).1
  exact absurd hallowed.even.1 (by decide)

end Compositor

end WaylandWebStream
