import WaylandWebStream.Encoder.X264
import WaylandWebStream.Lib.Machine

/-!
# The YUV frame across submits

A submit converts its frame in full when it is told to, and otherwise
converts the rows its damage covers and trusts the persistent YUV frame
with the rest. Which of the two it does is settled before the codec is
called, so a keyframe the codec places on its own is as right as what
lies outside the bands. And a submit that fails before it has converted
consumes its frame's damage without converting it: the flag that asks for
a full conversion is cleared by a success, and no failure sets it.
-/

namespace WaylandWebStream

namespace Encoder

open Compositor (DamageRect u32)

/-- Pair `j` lies in a band the damage converts. -/
def Banded (damage : List DamageRect) (height j : ℕ) : Prop :=
  ∃ rect ∈ damage, bandStart rect ≤ 2 * j ∧ 2 * j < bandStop rect height

variable {scaler : Scaler} {f raw : RawFrame} {yuv : YuvFrame} {j : ℕ}

/-- **A band leaves the other pairs as they are.** -/
theorem swsScale_showsPair_iff {y0 y1 : ℕ} (hband : Aligned f y0 y1) :
    (swsScale scaler f.width f.data y0 y1 yuv).ShowsPair scaler f j ↔
      (y0 ≤ 2 * j ∧ 2 * j < y1) ∨ yuv.ShowsPair scaler f j := by
  refine ⟨fun h => ?_, swsScale_showsPair hband⟩
  by_cases hin : y0 ≤ 2 * j ∧ 2 * j < y1
  · exact Or.inl hin
  have hout1 : ¬ (y0 ≤ 2 * j + 1 ∧ 2 * j + 1 < y1) := by
    obtain ⟨heven, -, -⟩ := hband
    omega
  obtain ⟨h0, h1, hu, hv⟩ := h
  refine Or.inr ⟨?_, fun hj1 => ?_, ?_, ?_⟩
  · simpa only [swsScale, if_neg hin] using h0
  · simpa only [swsScale, if_neg hout1] using h1 hj1
  · simpa only [swsScale, if_neg hin] using hu
  · simpa only [swsScale, if_neg hin] using hv

/-- **A conversion by damage shows a pair** exactly where some band has it,
or where it was right before. -/
theorem convertDamagedRows_showsPair_iff (damage : List DamageRect) :
    (convertDamagedRows scaler f.width f.data damage f.height yuv).ShowsPair scaler f j ↔
      Banded damage f.height j ∨ yuv.ShowsPair scaler f j := by
  refine ⟨fun h => ?_, convertDamagedRows_showsPair damage⟩
  induction damage generalizing yuv with
  | nil => exact Or.inr h
  | cons rect rest ih =>
    rw [convertDamagedRows, List.foldl_cons] at h
    rcases ih h with ⟨rect', hmem, hin⟩ | h
    · exact Or.inl ⟨rect', List.mem_cons_of_mem _ hmem, hin⟩
    by_cases hempty : bandStop rect f.height ≤ bandStart rect
    · rw [if_pos hempty] at h
      exact Or.inr h
    · rw [if_neg hempty] at h
      rcases (swsScale_showsPair_iff (band_aligned rect)).1 h with hin | h
      · exact Or.inl ⟨rect, List.mem_cons_self, hin⟩
      · exact Or.inr h

namespace X264Encoder

variable {e e' : X264Encoder} {force : Bool} {ffmpeg : Ffmpeg} {packets : List EncodedPacket}

/-! ## Keyframes -/

/-- Whether a submit converts in full, as the code asks it. -/
theorem full_iff : (e.needsFullConvert || force || raw.damage.isEmpty) = true ↔
    e.needsFullConvert = true ∨ force = true ∨ raw.damage = [] := by
  rw [Bool.or_eq_true, Bool.or_eq_true, List.isEmpty_iff, or_assoc]

/-- A submit that succeeds on a full conversion leaves it in the YUV frame. -/
theorem submit_full_shows (hdims : e.inputFrame = (raw.width, raw.height))
    (hsubmit : e.submit scaler (.cpu raw) force ffmpeg = (e', some packets))
    (hfull : e.needsFullConvert = true ∨ force = true ∨ raw.damage = []) :
    e'.yuvFrame.Shows scaler raw := by
  obtain ⟨-, -, -, hyuv⟩ := submit_cpu hsubmit
  rw [hyuv, hdims, if_pos (full_iff.2 hfull)]
  exact fullConvert_shows _

/-- One that succeeds on a conversion by damage shows its frame where the
bands do, or the YUV frame did before. -/
theorem submit_bands_shows_iff (hdims : e.inputFrame = (raw.width, raw.height))
    (hsubmit : e.submit scaler (.cpu raw) force ffmpeg = (e', some packets))
    (hfull : ¬ (e.needsFullConvert = true ∨ force = true ∨ raw.damage = [])) :
    e'.yuvFrame.Shows scaler raw ↔ ∀ j, 2 * j < raw.height →
      Banded raw.damage raw.height j ∨ e.yuvFrame.ShowsPair scaler raw j := by
  obtain ⟨-, -, -, hyuv⟩ := submit_cpu hsubmit
  rw [hyuv, hdims, if_neg (mt full_iff.1 hfull), shows_iff]
  exact forall₂_congr fun j _ => convertDamagedRows_showsPair_iff _

/-- A forced keyframe is pixel-correct. -/
theorem forced_shows (hdims : e.inputFrame = (raw.width, raw.height))
    (hsubmit : e.submit scaler (.cpu raw) true ffmpeg = (e', some packets)) :
    e'.yuvFrame.Shows scaler raw :=
  submit_full_shows hdims hsubmit (Or.inr (Or.inl rfl))

/-- And so is the first keyframe after a resize. -/
theorem reinitialized_shows {d : X264Encoder} {opened : Ffmpeg}
    (hopen : d.reinitialize raw.width raw.height opened = some e)
    (hsubmit : e.submit scaler (.cpu raw) force ffmpeg = (e', some packets)) :
    e'.yuvFrame.Shows scaler raw := by
  obtain ⟨-, -, hdims, hneeds⟩ := reinitialize_eq hopen
  exact submit_full_shows hdims hsubmit (Or.inl hneeds)

/-- **When a keyframe is pixel-correct.** Whatever the YUV frame held,
whoever asked for a keyframe and whichever packets are one: what was
submitted is right after a full conversion, and after a conversion by
damage where the rows outside the bands were right. -/
theorem keyframe_shows_iff (hdims : e.inputFrame = (raw.width, raw.height))
    (hsubmit : e.submit scaler (.cpu raw) force ffmpeg = (e', some packets)) :
    e'.yuvFrame.Shows scaler raw ↔
      (e.needsFullConvert = true ∨ force = true ∨ raw.damage = []) ∨
      ∀ j, 2 * j < raw.height →
        Banded raw.damage raw.height j ∨ e.yuvFrame.ShowsPair scaler raw j := by
  by_cases hfull : e.needsFullConvert = true ∨ force = true ∨ raw.damage = []
  · exact iff_of_true (submit_full_shows hdims hsubmit hfull) (Or.inl hfull)
  · rw [submit_bands_shows_iff hdims hsubmit hfull, or_iff_right hfull]

/-- A converter that copies the rows. -/
private def copyRows : Scaler := fun _ r0 r1 => ⟨r0, r1.getD [], r0, r0⟩

/-- An encoder whose YUV frame is empty, trusted all the same. -/
private def staleEncoder : X264Encoder where
  config := ⟨2, 4, .bitrate 2000000⟩
  encoder := ⟨2, 4, .bitrate 2000000⟩
  inputFrame := (2, 4)
  yuvFrame := ⟨fun _ => [], fun _ => [], fun _ => []⟩
  frameCount := 120
  nextFrameId := 120
  needsFullConvert := false

/-- A frame of one colour, damaged in its first row. -/
private def topDamaged (colour : UInt8) : RawFrame :=
  ⟨List.replicate 32 colour, 2, 4, [⟨0, 1⟩]⟩

/-- A keyframe asked for repairs the stale rows. -/
theorem keyframe_shows_iff_forced :
    (staleEncoder.submit copyRows (.cpu (topDamaged 1)) true {}).1.yuvFrame.Shows copyRows
      (topDamaged 1) :=
  have hsubmit : staleEncoder.submit copyRows (.cpu (topDamaged 1)) true {} =
      ((staleEncoder.submit copyRows (.cpu (topDamaged 1)) true {}).1, some [⟨[], true, 120⟩]) := rfl
  (keyframe_shows_iff rfl hsubmit).2 (Or.inl (Or.inr (Or.inl rfl)))

/-- The second pair of rows is in no band of the top row. -/
private theorem topDamaged_not_banded (colour : UInt8) :
    ¬ Banded (topDamaged colour).damage (topDamaged colour).height 1 := by
  rintro ⟨rect, hmem, hband⟩
  rw [List.mem_singleton.1 hmem] at hband
  have hstop : 2 * 1 < bandStop ⟨0, 1⟩ 4 := hband.2
  exact absurd hstop (by decide)

/-- Submitted to an encoder, not forced and with damage in its first row
only, the frame becomes a keyframe with stale rows. -/
private def KeyframeStale (e : X264Encoder) : Prop :=
  ∃ e' packets,
    e.submit copyRows (.cpu (topDamaged 1)) false { packet := ([], true) } = (e', some packets) ∧
    e.inputFrame = ((topDamaged 1).width, (topDamaged 1).height) ∧
    (∃ p ∈ packets, p.isKeyframe = true) ∧ ¬ e'.yuvFrame.Shows copyRows (topDamaged 1)

private theorem keyframeStale_of_rows (hdims : e.inputFrame = (2, 4))
    (hneeds : e.needsFullConvert = false) (hyuv : e.yuvFrame = staleEncoder.yuvFrame)
    (hsubmit : e.submit copyRows (.cpu (topDamaged 1)) false { packet := ([], true) } =
      (e', some [⟨[], true, 120⟩])) : KeyframeStale e := by
  refine ⟨_, _, hsubmit, hdims, ⟨_, List.mem_cons_self, rfl⟩, fun hshows => ?_⟩
  have hdamage : (topDamaged 1).damage ≠ [] := List.cons_ne_nil _ _
  have hpairs := (submit_bands_shows_iff hdims hsubmit (by simp [hneeds, hdamage])).1 hshows
  rcases hpairs 1 (by decide) with hbanded | hpair
  · exact topDamaged_not_banded 1 hbanded
  · -- and was never converted
    have hrow := hpair.y0
    rw [hyuv] at hrow
    cases hrow

/-- **A keyframe with stale rows**: one that libx264 places at the end of a
GOP, or at the start of the stream of an encoder opened for a new rate, is
converted by damage like any other frame. -/
theorem unforced_keyframe_stale :
    KeyframeStale staleEncoder ∧ KeyframeStale (staleEncoder.changeBitrate 1500000 {}) :=
  ⟨keyframeStale_of_rows rfl rfl rfl rfl, keyframeStale_of_rows rfl rfl rfl rfl⟩

end X264Encoder

/-! ## Failed submits -/

/-- A call of `submit` on a CPU frame, and what FFmpeg does during it. -/
structure Submit where
  raw : RawFrame
  force : Bool := false
  ffmpeg : Ffmpeg := {}

namespace Submit

variable (c : Submit) (e : X264Encoder)

/-- The buffer is too small for the input frame. -/
def short : Bool := c.raw.data.length < u32 (u32 (e.inputFrame.1 * e.inputFrame.2) * 4)

/-- The whole frame is to be converted. -/
def full : Bool := e.needsFullConvert || c.force || c.raw.damage.isEmpty

/-- The call fails before the frame is converted. -/
def misses : Bool := c.short e || c.full e && !c.ffmpeg.converts

/-- The call succeeds on a conversion by damage. -/
def landsByDamage : Bool := !c.short e && !c.full e && c.ffmpeg.sends && c.ffmpeg.drains

variable {c e}

/-- **A submit that fails before the conversion** changes nothing but the
YUV frame. -/
theorem submit_of_misses (scaler : Scaler) (h : c.misses e = true) :
    let r := e.submit scaler (.cpu c.raw) c.force c.ffmpeg
    r.2 = none ∧ r.1.needsFullConvert = e.needsFullConvert := by
  simp only [X264Encoder.submit, X264Encoder.encodeFrame]
  by_cases hshort : c.raw.data.length < u32 (u32 (e.inputFrame.1 * e.inputFrame.2) * 4)
  · simp only [if_pos hshort, and_self]
  · have hfull : ((e.needsFullConvert || c.force || c.raw.damage.isEmpty) &&
        !c.ffmpeg.converts) = true :=
      (Bool.or_eq_true_iff.1 h).resolve_left (mt of_decide_eq_true hshort)
    simp only [if_neg hshort, if_pos hfull, and_self]

/-- **A submit that converts** leaves the frame converted, whatever becomes
of it in the encoder. -/
theorem submit_of_converts (scaler : Scaler) (h : c.misses e = false) :
    let r := e.submit scaler (.cpu c.raw) c.force c.ffmpeg
    r.1.yuvFrame =
      (if c.full e then swsScale scaler e.inputFrame.1 c.raw.data 0 e.inputFrame.2 e.yuvFrame
        else convertDamagedRows scaler e.inputFrame.1 c.raw.data c.raw.damage c.raw.height
          e.yuvFrame) ∧
    r.2.isSome = (c.ffmpeg.sends && c.ffmpeg.drains) := by
  simp only [misses, short, full, Bool.or_eq_false_iff] at h
  obtain ⟨hshort, hconverts⟩ := h
  have hlong := of_decide_eq_false hshort
  simp only [X264Encoder.submit, X264Encoder.encodeFrame, full, if_neg hlong, hconverts]
  cases c.ffmpeg.sends <;> cases c.ffmpeg.drains <;> exact ⟨rfl, rfl⟩

end Submit

/-- A run of submits: the encoder, the frame last submitted and whether its
submit succeeded, and whether a frame was missed since the last full
conversion with none asked for. -/
structure Submits where
  encoder : X264Encoder
  last : Option RawFrame
  landed : Bool
  missed : Bool

namespace Submits

/-- One more submit. -/
def next (scaler : Scaler) (s : Submits) (c : Submit) : Submits :=
  let r := s.encoder.submit scaler (.cpu c.raw) c.force c.ffmpeg
  { encoder := r.1
    last := some c.raw
    landed := r.2.isSome
    missed := if c.misses s.encoder then s.missed || !s.encoder.needsFullConvert
      else s.missed && !c.full s.encoder }

/-- The runs of submits of a new encoder. -/
def machine (scaler : Scaler) : Machine Submits Submit where
  init s := ∃ config fresh, s = ⟨X264Encoder.new config fresh, none, false, false⟩
  step s c := some (s.next scaler c)

/-- What the encoder is handed: frames of its own size, each with damage
that covers its difference from the frame submitted before. -/
structure Fed (s : Submits) (c : Submit) : Prop where
  dims : s.encoder.inputFrame = (c.raw.width, c.raw.height)
  rows : c.raw.height < 2 ^ 30
  follows : ∀ b, s.last = some b → b.Follows c.raw

/-- The YUV frame shows the frame last submitted, unless a full conversion
is due or a frame was missed. -/
def Trusted (scaler : Scaler) (s : Submits) : Prop :=
  s.encoder.needsFullConvert = true ∨ s.missed = true ∨
    ∃ b, s.last = some b ∧ s.encoder.yuvFrame.Shows scaler b

variable {s : Submits} {c : Submit}

/-- One submit keeps the YUV frame trusted where it says so, and makes it
right where it succeeds: unless it converts by damage after a miss. -/
theorem next_trusted (hfed : Fed s c) (hok : ¬ (s.missed = true ∧ c.landsByDamage s.encoder = true))
    (h : Trusted scaler s) :
    Trusted scaler (s.next scaler c) ∧
      ((s.next scaler c).landed = true → (s.next scaler c).encoder.yuvFrame.Shows scaler c.raw) := by
  by_cases hmiss : c.misses s.encoder = true
  · -- a miss converts nothing: it is on record, unless a full conversion was due anyway
    obtain ⟨hnone, hneeds⟩ := Submit.submit_of_misses scaler hmiss
    refine ⟨?_, fun hlanded => ?_⟩
    · by_cases hdue : s.encoder.needsFullConvert = true
      · exact Or.inl (hneeds.trans hdue)
      · refine Or.inr (Or.inl ?_)
        simp [next, hmiss, hdue]
    · rw [next, hnone] at hlanded
      cases hlanded
  rw [Bool.not_eq_true] at hmiss
  obtain ⟨hyuv, hlands⟩ := Submit.submit_of_converts scaler hmiss
  rw [hfed.dims] at hyuv
  by_cases hfull : c.full s.encoder = true
  · rw [if_pos hfull] at hyuv
    have hshows : (s.next scaler c).encoder.yuvFrame.Shows scaler c.raw := by
      rw [next, hyuv]
      exact fullConvert_shows _
    exact ⟨Or.inr (Or.inr ⟨c.raw, rfl, hshows⟩), fun _ => hshows⟩
  rw [if_neg hfull] at hyuv
  rw [Bool.not_eq_true] at hfull
  by_cases hmissed : s.missed = true
  · -- still missed, and by assumption no success
    refine ⟨Or.inr (Or.inl (by simp [next, hmiss, hmissed, hfull])), fun hlanded => ?_⟩
    have hlong : c.short s.encoder = false := by
      rw [Submit.misses, Bool.or_eq_false_iff] at hmiss
      exact hmiss.1
    rw [next, hlands, Bool.and_eq_true] at hlanded
    exact absurd ⟨hmissed, by simp [Submit.landsByDamage, hlong, hfull, hlanded]⟩ hok
  · have hneeds : s.encoder.needsFullConvert = false ∧ c.raw.damage ≠ [] := by
      simp only [Submit.full, Bool.or_eq_false_iff, List.isEmpty_eq_false_iff] at hfull
      exact ⟨hfull.1.1, hfull.2⟩
    -- nothing missed, the rows outside the damage are the last frame's, and so this one's
    obtain ⟨b, hlast, hb⟩ := (h.resolve_left (by simp [hneeds.1])).resolve_left hmissed
    have hcovers := (hfed.follows b hlast).resolve_left hneeds.2
    have hshows : (s.next scaler c).encoder.yuvFrame.Shows scaler c.raw := by
      rw [next, hyuv]
      exact convertDamagedRows_shows hfed.rows hb hcovers
    exact ⟨Or.inr (Or.inr ⟨c.raw, rfl, hshows⟩), fun _ => hshows⟩

/-- **Failed submits leave no stale rows** in the runs where, once a submit
has failed before converting its frame and no full conversion was due, none
succeeds by damage before the next full conversion. -/
theorem landed_shows {s : Submits}
    (h : (machine scaler).Reach (fun s c => Fed s c ∧
      ¬ (s.missed = true ∧ c.landsByDamage s.encoder = true)) s) (hlanded : s.landed = true) :
    ∃ raw, s.last = some raw ∧ s.encoder.yuvFrame.Shows scaler raw := by
  have hinv : Trusted scaler s ∧
      (s.landed = true → ∃ raw, s.last = some raw ∧ s.encoder.yuvFrame.Shows scaler raw) := by
    refine Machine.Reach.invariant (P := fun s => Trusted scaler s ∧ (s.landed = true →
      ∃ raw, s.last = some raw ∧ s.encoder.yuvFrame.Shows scaler raw)) ?_ ?_ h
    · rintro s ⟨config, fresh, rfl⟩
      exact ⟨Or.inl rfl, fun hlanded => by cases hlanded⟩
    · rintro s c s' ⟨hfed, hok⟩ hstep ⟨htrusted, -⟩
      cases hstep
      obtain ⟨htrusted, hshows⟩ := next_trusted hfed hok htrusted
      exact ⟨htrusted, fun hlanded => ⟨c.raw, rfl, hshows hlanded⟩⟩
  exact hinv.2 hlanded

/-- A new encoder, with nothing submitted. -/
private def started : Submits :=
  ⟨X264Encoder.new ⟨2, 4, .bitrate 2000000⟩ ⟨fun _ => [], fun _ => [], fun _ => []⟩,
    none, false, false⟩

/-- A picture of one colour, as a whole frame. -/
private def whole (colour : UInt8) : RawFrame := { X264Encoder.topDamaged colour with damage := [] }

/-- Damage in the first row covers no change at all. -/
private theorem topDamaged_follows (colour : UInt8) (b : RawFrame) (h : b = whole colour) :
    b.Follows (X264Encoder.topDamaged colour) := by
  refine Or.inr fun k _ => Or.inr ?_
  rw [h]
  exact ⟨rfl, rfl, rfl⟩

/-- A frame by damage after a whole one. -/
theorem landed_shows_two :
    ∃ raw, ((started.next X264Encoder.copyRows ⟨whole 1, false, {}⟩).next X264Encoder.copyRows
        ⟨X264Encoder.topDamaged 1, false, {}⟩).last = some raw ∧
      ((started.next X264Encoder.copyRows ⟨whole 1, false, {}⟩).next X264Encoder.copyRows
        ⟨X264Encoder.topDamaged 1, false, {}⟩).encoder.yuvFrame.Shows X264Encoder.copyRows raw := by
  refine landed_shows (.next (.next (.start ⟨_, _, rfl⟩) ⟨⟨rfl, by decide, ?_⟩, ?_⟩ rfl)
    ⟨⟨rfl, by decide, ?_⟩, ?_⟩ rfl) rfl
  · exact fun b hlast => by cases hlast
  · decide
  · exact fun b hlast => topDamaged_follows 1 b (Option.some.inj hlast).symm
  · decide

/-- **A failed submit leaves stale rows.** A first picture lands. A second
one is to be a forced keyframe, its conversion fails before it writes
anything, and the flag is clear. The second picture comes again, damaged in
its first row: the submit succeeds, over the first picture's other rows. -/
theorem failed_convert_stale :
    ∃ s, (machine X264Encoder.copyRows).Reach Fed s ∧ s.landed = true ∧
      s.last = some (X264Encoder.topDamaged 2) ∧
      ¬ s.encoder.yuvFrame.Shows X264Encoder.copyRows (X264Encoder.topDamaged 2) := by
  refine ⟨((started.next X264Encoder.copyRows ⟨whole 1, false, {}⟩).next X264Encoder.copyRows
      ⟨whole 2, true, { converts := false }⟩).next X264Encoder.copyRows
      ⟨X264Encoder.topDamaged 2, false, {}⟩,
    .next (.next (.next (.start ⟨_, _, rfl⟩) ⟨rfl, by decide, ?_⟩ rfl) ⟨rfl, by decide, ?_⟩ rfl)
      ⟨rfl, by decide, ?_⟩ rfl, rfl, rfl, fun hshows => ?_⟩
  · exact fun b hlast => by cases hlast
  · exact fun b _ => Or.inl rfl
  · exact fun b hlast => topDamaged_follows 2 b (Option.some.inj hlast).symm
  · have hpair := shows_iff.1 hshows 1 (by decide)
    rcases (convertDamagedRows_showsPair_iff _).1 hpair with hbanded | hpair
    · exact X264Encoder.topDamaged_not_banded 2 hbanded
    · -- the rows of the first picture are still there
      have hrow : List.replicate 8 (1 : UInt8) = List.replicate 8 2 := hpair.y0
      exact absurd hrow (by decide)

end Submits

end Encoder

end WaylandWebStream
