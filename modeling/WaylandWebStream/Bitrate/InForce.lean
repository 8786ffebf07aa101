import WaylandWebStream.Bitrate.Options
import WaylandWebStream.Encoder.Vaapi
import WaylandWebStream.Lib.Machine

/-!
# Adaptive bitrate — from the controller to the live encoder

The controller sends a rate to the encoder thread, then reports it on the
bitrate watch and marks it as applied; the encoder records the rate,
rebuilds itself, and reports nothing back. While every rebuild succeeds
the rate recorded is the rate of the live encoder, and once the messages
are handled it is the rate reported. A rebuild that fails leaves the old
encoder under the new rate's name, and asking again for that rate is a
request for what is recorded.
-/

namespace WaylandWebStream

namespace Bitrate

open Encoder (LiveEncoder EncoderControl RateControl Ffmpeg)

/-- The control queue's capacity. -/
def controlCapacity : ℕ := 8

/-- The controller's end, the control queue and the encoder thread's end. -/
structure Link where
  encoder : LiveEncoder
  control : List EncoderControl
  exited : Bool
  /-- The rate `apply` has sent and not reported yet. -/
  applying : Option ℕ
  bitrateTx : ℕ
  lastAppliedBitrate : ℕ

/-- The steps: `apply` sends and then reports, someone asks for a keyframe,
and the encoder thread takes a message or is rebuilt for a size. -/
inductive LinkAction
  | send (newRate : ℕ)
  | report
  | forceKeyframe
  | handle (opens : Bool)
  | resize (width height : ℕ) (ffmpeg : Ffmpeg)

namespace Link

variable (s : Link)

/-- A message, if there is someone to read it. -/
def push (m : EncoderControl) : List EncoderControl :=
  if s.exited then s.control else s.control ++ [m]

/-- There is room for a message, or no one to wait for. -/
def ready : Bool := s.exited || decide (s.control.length < controlCapacity)

/-- One step. -/
def step : LinkAction → Option Link
  | .send newRate =>
    if s.applying = none ∧ s.ready then
      some { s with control := s.push (.changeBitrate newRate), applying := some newRate }
    else none
  | .report =>
    s.applying.map fun newRate =>
      { s with applying := none, bitrateTx := newRate, lastAppliedBitrate := newRate }
  | .forceKeyframe => if s.ready then some { s with control := s.push .forceKeyframe } else none
  | .handle opens =>
    if s.exited then none
    else
      match s.control with
      | [] => none
      | .forceKeyframe :: control => some { s with control }
      | .changeBitrate bitrate :: control =>
        some { s with control, encoder := s.encoder.changeBitrate bitrate opens }
  | .resize width height ffmpeg =>
    if s.exited then none
    else
      match s.encoder.reinitialize width height ffmpeg with
      | some encoder => some { s with encoder }
      | none => some { s with exited := true }

/-- An encoder just built at the rate the watch starts with. -/
structure Started : Prop where
  encoder : s.encoder.Started
  rate : s.encoder.recorded = .bitrate s.bitrateTx
  control : s.control = []
  exited : s.exited = false
  applying : s.applying = none

/-- The link as a machine. -/
def machine : Machine Link LinkAction where
  init := Started
  step := step

/-- Nothing is under way. -/
structure Quiescent : Prop where
  exited : s.exited = false
  control : s.control = []
  applying : s.applying = none

/-- **All or nothing**: the rate recorded is that of the live encoder, and
with nothing under way it is the rate last reported. -/
structure Agrees : Prop where
  recorded : s.encoder.recorded = s.encoder.inForce
  reported : s.Quiescent → s.encoder.inForce = .bitrate s.bitrateTx

/-- The step is a rebuild for another rate, and it fails. -/
def RebuildFails : LinkAction → Prop
  | .handle opens => opens = false ∧ ∃ r bitrate rest, s.encoder.recorded = .bitrate r ∧
      s.control = .changeBitrate bitrate :: rest ∧ r ≠ bitrate
  | _ => False

/-- The rates still on their way to the encoder. -/
def changes : List EncoderControl → List ℕ
  | [] => []
  | .forceKeyframe :: rest => changes rest
  | .changeBitrate bitrate :: rest => bitrate :: changes rest

theorem changes_append (ms ms' : List EncoderControl) :
    changes (ms ++ ms') = changes ms ++ changes ms' := by
  induction ms with
  | nil => rfl
  | cons m ms ih =>
    cases m with
    | forceKeyframe => exact ih
    | changeBitrate bitrate => exact congrArg (bitrate :: ·) ih

/-- **The last rate on its way is the last one sent**, and with none on its
way that is the rate recorded. -/
def Follows : Prop :=
  s.exited = false → ∃ r, s.encoder.recorded = .bitrate r ∧
    (changes s.control).getLastD r = s.applying.getD s.bitrateTx

variable {s} {s' : Link} {a : LinkAction}

/-! ## What a step does -/

theorem step_send {newRate : ℕ} (h : s.step (.send newRate) = some s') :
    s' = { s with control := s.push (.changeBitrate newRate), applying := some newRate } := by
  rw [step] at h
  split_ifs at h
  exact (Option.some.inj h).symm

theorem step_report (h : s.step .report = some s') : ∃ newRate, s.applying = some newRate ∧
    s' = { s with applying := none, bitrateTx := newRate, lastAppliedBitrate := newRate } := by
  obtain ⟨newRate, happlying, rfl⟩ := Option.map_eq_some_iff.1 h
  exact ⟨newRate, happlying, rfl⟩

theorem step_forceKeyframe (h : s.step .forceKeyframe = some s') :
    s' = { s with control := s.push .forceKeyframe } := by
  rw [step] at h
  split_ifs at h
  exact (Option.some.inj h).symm

theorem step_handle {opens : Bool} (h : s.step (.handle opens) = some s') : s.exited = false ∧
    ((∃ control, s.control = .forceKeyframe :: control ∧ s' = { s with control }) ∨
      ∃ bitrate control, s.control = .changeBitrate bitrate :: control ∧
        s' = { s with control, encoder := s.encoder.changeBitrate bitrate opens }) := by
  rw [step] at h
  split_ifs at h with hexited
  refine ⟨by simpa using hexited, ?_⟩
  split at h
  · cases h
  · rename_i control hcontrol
    exact Or.inl ⟨control, hcontrol, (Option.some.inj h).symm⟩
  · rename_i bitrate control hcontrol
    exact Or.inr ⟨bitrate, control, hcontrol, (Option.some.inj h).symm⟩

theorem step_resize {width height : ℕ} {ffmpeg : Ffmpeg}
    (h : s.step (.resize width height ffmpeg) = some s') : s.exited = false ∧
    ((∃ encoder, s.encoder.reinitialize width height ffmpeg = some encoder ∧
        s' = { s with encoder }) ∨ s' = { s with exited := true }) := by
  rw [step] at h
  split_ifs at h with hexited
  refine ⟨by simpa using hexited, ?_⟩
  split at h
  · rename_i encoder hopen
    exact Or.inl ⟨encoder, hopen, (Option.some.inj h).symm⟩
  · exact Or.inr (Option.some.inj h).symm

/-- Every step keeps the encoder behind the controller by the queue alone. -/
theorem Follows.step (h : Follows s) (hstep : s.step a = some s') : Follows s' := by
  intro hlive'
  cases a with
  | send newRate =>
    obtain rfl := step_send hstep
    obtain ⟨r, hr, -⟩ := h hlive'
    have hlive : s.exited = false := hlive'
    refine ⟨r, hr, ?_⟩
    simp [push, hlive, changes_append, changes]
  | report =>
    obtain ⟨newRate, happlying, rfl⟩ := step_report hstep
    obtain ⟨r, hr, hlast⟩ := h hlive'
    rw [happlying] at hlast
    exact ⟨r, hr, hlast⟩
  | forceKeyframe =>
    obtain rfl := step_forceKeyframe hstep
    obtain ⟨r, hr, hlast⟩ := h hlive'
    have hlive : s.exited = false := hlive'
    refine ⟨r, hr, ?_⟩
    simpa [push, hlive, changes_append, changes] using hlast
  | handle opens =>
    obtain ⟨hlive, hwhat⟩ := step_handle hstep
    obtain ⟨r, hr, hlast⟩ := h hlive
    rcases hwhat with ⟨control, hcontrol, rfl⟩ | ⟨bitrate, control, hcontrol, rfl⟩
    · rw [hcontrol] at hlast
      exact ⟨r, hr, hlast⟩
    · rw [hcontrol, changes, List.getLastD_cons] at hlast
      refine ⟨bitrate, ?_, hlast⟩
      -- the rate recorded already is not set again
      by_cases hsame : r = bitrate
      · rw [hsame] at hr
        exact (congrArg LiveEncoder.recorded (LiveEncoder.changeBitrate_same hr)).trans hr
      · exact (LiveEncoder.changeBitrate_other opens hr hsame).1
  | resize width height ffmpeg =>
    obtain ⟨hlive, hwhat⟩ := step_resize hstep
    obtain ⟨r, hr, hlast⟩ := h hlive
    rcases hwhat with ⟨encoder, hopen, rfl⟩ | rfl
    · exact ⟨r, (LiveEncoder.reinitialize_rates hopen).1.trans hr, hlast⟩
    · cases hlive'

/-- A step that is no failed rebuild keeps what is recorded in force. -/
theorem recorded_step (hfollows : Follows s) (h : s.encoder.recorded = s.encoder.inForce)
    (hok : ¬ s.RebuildFails a) (hstep : s.step a = some s') :
    s'.encoder.recorded = s'.encoder.inForce := by
  cases a with
  | send newRate =>
    obtain rfl := step_send hstep
    exact h
  | report =>
    obtain ⟨newRate, -, rfl⟩ := step_report hstep
    exact h
  | forceKeyframe =>
    obtain rfl := step_forceKeyframe hstep
    exact h
  | handle opens =>
    obtain ⟨hlive, hwhat⟩ := step_handle hstep
    obtain ⟨r, hr, -⟩ := hfollows hlive
    rcases hwhat with ⟨control, hcontrol, rfl⟩ | ⟨bitrate, control, hcontrol, rfl⟩
    · exact h
    · by_cases hsame : r = bitrate
      · rw [hsame] at hr
        have hnothing : s.encoder.changeBitrate bitrate opens = s.encoder :=
          LiveEncoder.changeBitrate_same hr
        show (s.encoder.changeBitrate bitrate opens).recorded = _
        rw [hnothing]
        exact h
      · have hopens : opens = true := by
          by_contra hfails
          exact hok ⟨by simpa using hfails, r, bitrate, control, hr, hcontrol, hsame⟩
        obtain ⟨hrecorded, hforce⟩ := LiveEncoder.changeBitrate_other opens hr hsame
        rw [hrecorded, hforce, if_pos hopens]
  | resize width height ffmpeg =>
    obtain ⟨-, ⟨encoder, hopen, rfl⟩ | rfl⟩ := step_resize hstep
    · obtain ⟨hrecorded, hforce⟩ := LiveEncoder.reinitialize_rates hopen
      rw [hrecorded, hforce]
    · exact h

/-! ## Whole runs -/

/-- **A bitrate change is all or nothing as long as no rebuild fails**, and
not after one that does. In every run without a failed rebuild the recorded
rate is in force throughout and, when nothing is under way, reported; and a
failed rebuild ends that at once. -/
theorem change_bitrate_all_or_nothing (s : Link) :
    (machine.Reach (fun s a => ¬ s.RebuildFails a) s → s.Agrees) ∧
    ∀ a s', s.Agrees → s.RebuildFails a → machine.step s a = some s' → ¬ s'.Agrees := by
  constructor
  · intro h
    have hinv : s.encoder.recorded = s.encoder.inForce ∧ Follows s := by
      refine Machine.Reach.invariant (P := fun s =>
        s.encoder.recorded = s.encoder.inForce ∧ Follows s) ?_ ?_ h
      · intro s hs
        refine ⟨hs.encoder.inForce_eq.symm, fun _ => ⟨_, hs.rate, ?_⟩⟩
        rw [hs.control, hs.applying]
        rfl
      · intro s a s' hok hstep hs
        exact ⟨recorded_step hs.2 hs.1 hok hstep, hs.2.step hstep⟩
    refine ⟨hinv.1, fun hquiet => ?_⟩
    obtain ⟨r, hr, hlast⟩ := hinv.2 hquiet.exited
    rw [hquiet.control, hquiet.applying] at hlast
    rw [← hinv.1, hr]
    exact congrArg RateControl.bitrate hlast
  · intro a s' h hfails hstep h'
    cases a with
    | handle opens =>
      obtain ⟨rfl, r, bitrate, rest, hr, hcontrol, hne⟩ := hfails
      obtain ⟨-, ⟨control, hfirst, -⟩ | ⟨other, control, hfirst, rfl⟩⟩ := step_handle hstep
      · rw [hcontrol] at hfirst
        cases hfirst
      rw [hcontrol] at hfirst
      cases hfirst
      obtain ⟨hrecorded, hforce⟩ := LiveEncoder.changeBitrate_other false hr hne
      -- the old rate is in force, under the new one's name
      have hold : RateControl.bitrate bitrate = .bitrate r := by
        rw [← hrecorded, ← hr, h.recorded]
        exact h'.recorded.trans hforce
      cases hold
      exact hne rfl
    | _ => exact hfails

/-- A new encoder of either backend, at two megabits. -/
private def newX264 : LiveEncoder :=
  .x264 (.new ⟨1280, 720, .bitrate 2000000⟩ ⟨fun _ => [], fun _ => [], fun _ => []⟩)

private def newVaapi : LiveEncoder := .vaapi (.new ⟨1280, 720, .bitrate 2000000⟩ true)

/-- A new encoder's rate is changed, and a second change is on its way. -/
private def changesOnce : List LinkAction :=
  [.send 1500000, .report, .handle true, .send 1000000, .report]

/-- The change that opens an encoder is in force, beside a request for a
third rate; that rate's rebuild then fails. -/
theorem change_bitrate_all_or_nothing_changed :
    ∃ s, machine.Reach (fun s a => ¬ s.RebuildFails a) s ∧ s.Agrees ∧
      s.encoder.inForce = .bitrate 1500000 ∧
      ∃ s', machine.step s (.handle false) = some s' ∧ s'.Quiescent ∧ ¬ s'.Agrees := by
  have hinit : Started ⟨newX264, [], false, none, 2000000, 2000000⟩ :=
    ⟨Or.inl ⟨_, _, rfl⟩, rfl, rfl, rfl, rfl⟩
  have hreach : ∃ s, machine.exec ⟨newX264, [], false, none, 2000000, 2000000⟩ changesOnce = some s ∧
      machine.Reach (fun s a => ¬ s.RebuildFails a) s :=
    ⟨_, rfl, .next (.next (.next (.next (.next (.start hinit)
      (a := .send 1500000) id rfl) (a := .report) id rfl) (a := .handle true) nofun rfl)
      (a := .send 1000000) id rfl) (a := .report) id rfl⟩
  obtain ⟨s, hexec, hreach⟩ := hreach
  have hagrees : s.Agrees := (change_bitrate_all_or_nothing s).1 hreach
  cases hexec
  exact ⟨_, hreach, hagrees, rfl, _, rfl, ⟨rfl, rfl, rfl⟩,
    (change_bitrate_all_or_nothing _).2 (.handle false) _ hagrees
      ⟨rfl, 1500000, 1000000, [], rfl, rfl, by decide⟩ rfl⟩

/-- From an encoder's failed change on, the old rate is in force under the
new one's name, and asking for that rate again, with a rebuild that would
succeed, changes nothing. -/
private def StaysBehind (s : Link) : Prop :=
  s.Quiescent ∧ s.encoder.recorded = .bitrate 1500000 ∧ s.bitrateTx = 1500000 ∧
    s.encoder.inForce = .bitrate 2000000 ∧
    ∃ s', machine.exec s [.send 1500000, .report, .handle true] = some s' ∧ s'.Quiescent ∧
      s'.encoder.inForce = .bitrate 2000000

private theorem staysBehind_of_started {e : LiveEncoder} (hstarted : e.Started)
    (hrate : e.recorded = .bitrate 2000000) :
    ∃ s, machine.exec ⟨e, [], false, none, 2000000, 2000000⟩
      [.send 1500000, .report, .handle false] = some s ∧ StaysBehind s := by
  obtain ⟨hrecorded, hforce⟩ :=
    LiveEncoder.changeBitrate_other false hrate (by decide : 2000000 ≠ 1500000)
  have hold : (e.changeBitrate 1500000 false).inForce = .bitrate 2000000 := by
    rw [hforce, ← hrate]
    exact hstarted.inForce_eq
  exact ⟨⟨e.changeBitrate 1500000 false, [], false, none, 1500000, 1500000⟩, rfl, ⟨rfl, rfl, rfl⟩,
    hrecorded, rfl, hold, ⟨_, [], false, none, 1500000, 1500000⟩, rfl, ⟨rfl, rfl, rfl⟩,
    (congrArg LiveEncoder.inForce (LiveEncoder.changeBitrate_same hrecorded)).trans hold⟩

/-- **A failed change is recorded and reported**, with either backend. -/
theorem failed_change_recorded :
    (∃ s, machine.Reachable s ∧ s.encoder = newX264.changeBitrate 1500000 false ∧
      StaysBehind s) ∧
    ∃ s, machine.Reachable s ∧ s.encoder = newVaapi.changeBitrate 1500000 false ∧
      StaysBehind s := by
  have hx264 : newX264.Started := Or.inl ⟨_, _, rfl⟩
  have hvaapi : newVaapi.Started := Or.inr ⟨_, _, rfl⟩
  constructor
  · obtain ⟨s, hrun, hs⟩ := staysBehind_of_started hx264 rfl
    have hinit : Started ⟨newX264, [], false, none, 2000000, 2000000⟩ := ⟨hx264, rfl, rfl, rfl, rfl⟩
    have hr := Machine.reach_of_exec _ (Machine.Reachable.start hinit) hrun
    cases hrun
    exact ⟨_, hr, rfl, hs⟩
  · obtain ⟨s, hrun, hs⟩ := staysBehind_of_started hvaapi rfl
    have hinit : Started ⟨newVaapi, [], false, none, 2000000, 2000000⟩ := ⟨hvaapi, rfl, rfl, rfl, rfl⟩
    have hr := Machine.reach_of_exec _ (Machine.Reachable.start hinit) hrun
    cases hrun
    exact ⟨_, hr, rfl, hs⟩

end Link

end Bitrate

end WaylandWebStream
