import WaylandWebStream.Input.Channels

/-!
# Input — the loop left to itself

With nothing more dispatched, the render loop empties the channels: it
takes from the one it is draining until nothing is left, goes on to the
next, and one whole pass after that finds them all empty.
-/

namespace WaylandWebStream

namespace Input

open Relation

/-- The steps that are the loop's own. -/
def Action.isLoop : Action → Bool
  | .beginPass | .take | .advance => true
  | _ => false

/-- A step of the loop. -/
def Loops (s s' : State) : Prop := ∃ a : Action, a.isLoop = true ∧ s.step a = some s'

variable {s s' : State} {device : Device}

/-- Where the loop goes from a channel it has emptied. -/
def Device.next : Device → Option Device
  | .touch => some .pointer
  | .pointer => some .key
  | .key => none

theorem Loops.phase (h : Loops s s') : s'.phase = s.phase := by
  obtain ⟨a, ha, hstep⟩ := h
  cases trans_of_step hstep with
  | @advance device _ _ => cases device <;> rfl
  | beginPass _ | take _ _ => rfl
  | connect | serve _ | refuse _ | queued _ _ | dropped _ _ _ | leave _ | teardown _ _ => cases ha

theorem Loops.log (h : Loops s s') : s'.log = s.log := by
  obtain ⟨a, ha, hstep⟩ := h
  cases trans_of_step hstep with
  | @advance device _ _ => cases device <;> rfl
  | beginPass _ | take _ _ => rfl
  | connect | serve _ | refuse _ | queued _ _ | dropped _ _ _ | leave _ | teardown _ _ => cases ha

/-- Message after message is taken from a channel. -/
theorem exists_emptied (l : List Entry) (hstage : s.stage = some device)
    (hchannel : s.channel device = l) : ∃ s', ReflTransGen Loops s s' ∧ s'.stage = some device ∧
      s'.channel = Function.update s.channel device [] := by
  induction l generalizing s with
  | nil => exact ⟨s, .refl, hstage, by rw [← hchannel, Function.update_eq_self]⟩
  | cons e rest ih =>
    have htake : Loops s (s.inject device e rest) :=
      ⟨.take, rfl, by simp only [State.step, hstage, hchannel]⟩
    obtain ⟨s', hrun, hstage', hchannel'⟩ :=
      ih (s := s.inject device e rest) hstage (Function.update_self ..)
    refine ⟨s', .head htake hrun, hstage', ?_⟩
    rw [hchannel']
    exact Function.update_idem ..

/-- A channel is emptied, and the loop is past it. -/
theorem exists_passed (hstage : s.stage = some device) : ∃ s', ReflTransGen Loops s s' ∧
    s'.stage = device.next ∧ s'.channel = Function.update s.channel device [] := by
  obtain ⟨s₁, hrun, hstage₁, hchannel₁⟩ := exists_emptied _ hstage rfl
  have hempty : s₁.channel device = [] := by rw [hchannel₁, Function.update_self]
  have hadvance : Loops s₁ (s₁.passed device) :=
    ⟨.advance, rfl, by simp only [State.step, hstage₁, hempty, if_true]⟩
  refine ⟨_, hrun.tail hadvance, ?_, ?_⟩
  · cases device <;> rfl
  · rw [← hchannel₁]
    cases device <;> rfl

/-- The loop comes to the end of the pass it is in. -/
theorem exists_idle (s : State) : ∃ s', ReflTransGen Loops s s' ∧ s'.stage = none := by
  have hkey : ∀ s : State, s.stage = some .key → ∃ s', ReflTransGen Loops s s' ∧ s'.stage = none :=
    fun s hs => (exists_passed hs).imp fun _ h => ⟨h.1, h.2.1⟩
  have hpointer : ∀ s : State, s.stage = some .pointer →
      ∃ s', ReflTransGen Loops s s' ∧ s'.stage = none := by
    intro s hs
    obtain ⟨s₁, hrun, hstage, -⟩ := exists_passed hs
    obtain ⟨s₂, hrun₂, hidle⟩ := hkey s₁ hstage
    exact ⟨s₂, hrun.trans hrun₂, hidle⟩
  cases hstage : s.stage with
  | none => exact ⟨s, .refl, hstage⟩
  | some device =>
    cases device with
    | key => exact hkey s hstage
    | pointer => exact hpointer s hstage
    | touch =>
      obtain ⟨s₁, hrun, hstage₁, -⟩ := exists_passed hstage
      obtain ⟨s₂, hrun₂, hidle⟩ := hpointer s₁ hstage₁
      exact ⟨s₂, hrun.trans hrun₂, hidle⟩

/-- **The loop drains the channels.** -/
theorem exists_drained (s : State) : ∃ s', ReflTransGen Loops s s' ∧ s'.Drained := by
  obtain ⟨s₁, hrun, hidle⟩ := exists_idle s
  have hbegin : Loops s₁ { s₁ with stage := some .touch, begun := s₁.begun + 1 } :=
    ⟨.beginPass, rfl, by simp only [State.step, hidle, if_true]⟩
  obtain ⟨s₂, hrun₂, hstage₂, hchannel₂⟩ :=
    exists_passed (s := { s₁ with stage := some .touch, begun := s₁.begun + 1 }) rfl
  obtain ⟨s₃, hrun₃, hstage₃, hchannel₃⟩ := exists_passed hstage₂
  obtain ⟨s₄, hrun₄, -, hchannel₄⟩ := exists_passed hstage₃
  refine ⟨s₄, (((hrun.tail hbegin).trans hrun₂).trans hrun₃).trans hrun₄, fun device => ?_⟩
  rw [hchannel₄, hchannel₃, hchannel₂]
  cases device <;> simp

end Input

end WaylandWebStream
