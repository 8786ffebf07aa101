import WaylandWebStream.Input.Channels

/-!
# Input — the order of what is injected

Each channel is first in, first out, so the events of one device reach
the seat in the client's order with nothing missing but moves. Between
devices there is no such order: a pass drains the channels one after the
other, and what two channels hold at once comes out in the order of the
channels. Two messages keep their order when a whole pass lies between
their arrivals; `Timed` is the invariant that shows it.
-/

namespace WaylandWebStream

namespace Input

variable {s s' : State} {a : Action} {d : Dimensions} {device : Device} {e : Entry}

/-- A pass began after the first message was dispatched, and had ended
when the second one was. -/
def WholePassBetween (first second : Entry) : Prop := first.begun < second.ended

/-- The pass the loop is in has left the channel behind. -/
def Past : Option Device → Device → Bool
  | some .pointer, .touch | some .key, .touch | some .key, .pointer => true
  | _, _ => false

/-- **When what is queued was dispatched**: not before the last pass
began, in a channel this pass has left behind, and not before the one
before it ended, in the others. -/
structure Timed (s : State) : Prop where
  idle : s.stage = none → s.ended = s.begun
  draining : s.stage ≠ none → s.begun = s.ended + 1
  queued : ∀ device, ∀ e ∈ s.channel device,
    (if Past s.stage device then s.begun else s.ended) ≤ e.begun
  ended_le : ∀ device, ∀ e ∈ s.channel device, e.ended ≤ s.ended
  injected_le : ∀ e ∈ s.injected, e.ended ≤ s.ended
  ordered : s.injected.Pairwise fun x y => ¬ WholePassBetween y x

theorem Timed.ended_le_begun (h : Timed s) : s.ended ≤ s.begun := by
  by_cases hstage : s.stage = none
  · rw [h.idle hstage]
  · rw [h.draining hstage]
    exact Nat.le_succ _

theorem mem_enqueue {f : Entry} (hf : f ∈ (s.enqueue e).channel device) :
    f ∈ s.channel device ∨ f = e := by
  by_cases hdevice : device = e.message.device
  · subst hdevice
    simpa [State.enqueue] using hf
  · simp only [State.enqueue, Function.update_of_ne hdevice] at hf
    exact .inl hf

theorem mem_inject {dev : Device} {rest : List Entry} {f : Entry}
    (hchannel : s.channel device = e :: rest) (hf : f ∈ (s.inject device e rest).channel dev) :
    f ∈ s.channel dev := by
  by_cases hdev : dev = device
  · subst hdev
    simp only [State.inject, Function.update_self] at hf
    rw [hchannel]
    exact List.mem_cons_of_mem _ hf
  · simpa only [State.inject, Function.update_of_ne hdev] using hf

/-- A message queued now. -/
theorem Timed.enqueue (h : Timed s) {i : ℕ} {message : InputMessage} :
    Timed (s.enqueue (s.entry i message true)) := by
  have hle := h.ended_le_begun
  refine ⟨h.idle, h.draining, fun device f hf => ?_, fun device f hf => ?_, h.injected_le,
    h.ordered⟩
  · rcases mem_enqueue hf with hf | rfl
    · exact h.queued device f hf
    · have hnow : (if Past s.stage device then s.begun else s.ended) ≤ s.begun := by
        split_ifs
        · exact le_rfl
        · exact hle
      exact hnow
  · rcases mem_enqueue hf with hf | rfl
    · exact h.ended_le device f hf
    · exact le_rfl

/-- A message taken: what was injected before it was not dispatched after
a pass that began later than it. -/
theorem Timed.inject (h : Timed s) {rest : List Entry} (hstage : s.stage = some device)
    (hchannel : s.channel device = e :: rest) : Timed (s.inject device e rest) := by
  have he : e ∈ s.channel device := by simp [hchannel]
  have hbegun : s.ended ≤ e.begun := by
    have hqueued := h.queued device e he
    have hpast : Past s.stage device = false := by
      rw [hstage]
      cases device <;> rfl
    simpa [hpast] using hqueued
  refine ⟨h.idle, h.draining, fun dev f hf => h.queued dev f (mem_inject hchannel hf),
    fun dev f hf => h.ended_le dev f (mem_inject hchannel hf), fun f hf => ?_, ?_⟩
  · rcases List.mem_append.1 hf with hf | hf
    · exact h.injected_le f hf
    · rw [List.mem_singleton.1 hf]
      exact h.ended_le device e he
  · refine List.pairwise_append.2 ⟨h.ordered, List.pairwise_singleton _ _, fun x hx y hy => ?_⟩
    rw [List.mem_singleton.1 hy]
    exact not_lt.2 ((h.injected_le x hx).trans hbegun)

/-- A channel found empty is left behind; after the last, the pass has
ended. -/
theorem Timed.passed (h : Timed s) (hstage : s.stage = some device)
    (hchannel : s.channel device = []) : Timed (s.passed device) := by
  have hbegun := h.draining (by rw [hstage]; exact Option.some_ne_none _)
  have hqueued := h.queued
  rw [hstage] at hqueued
  cases device with
  | touch =>
    refine ⟨nofun, fun _ => hbegun, fun dev f hf => ?_, h.ended_le, h.injected_le, h.ordered⟩
    cases dev with
    | touch => exact absurd (show f ∈ s.channel .touch from hf) (by rw [hchannel]; exact List.not_mem_nil)
    | pointer => exact hqueued .pointer f hf
    | key => exact hqueued .key f hf
  | pointer =>
    refine ⟨nofun, fun _ => hbegun, fun dev f hf => ?_, h.ended_le, h.injected_le, h.ordered⟩
    cases dev with
    | touch => exact hqueued .touch f hf
    | pointer => exact absurd (show f ∈ s.channel .pointer from hf) (by rw [hchannel]; exact List.not_mem_nil)
    | key => exact hqueued .key f hf
  | key =>
    refine ⟨fun _ => hbegun.symm, fun hne => absurd rfl hne, fun dev f hf => ?_,
      fun dev f hf => (h.ended_le dev f hf).trans (Nat.le_succ _),
      fun f hf => (h.injected_le f hf).trans (Nat.le_succ _), h.ordered⟩
    -- What is left in the channels came after the pass had gone past them.
    have hlate : s.begun ≤ f.begun := by
      cases dev with
      | touch => exact hqueued .touch f hf
      | pointer => exact hqueued .pointer f hf
      | key => exact absurd (show f ∈ s.channel .key from hf) (by rw [hchannel]; exact List.not_mem_nil)
    show s.ended + 1 ≤ f.begun
    omega

theorem Timed.step (h : Timed s) (hstep : s.step a = some s') : Timed s' := by
  cases trans_of_step hstep with
  | connect => exact ⟨h.idle, h.draining, h.queued, h.ended_le, h.injected_le, h.ordered⟩
  | serve _ => exact ⟨h.idle, h.draining, h.queued, h.ended_le, h.injected_le, h.ordered⟩
  | refuse _ => exact ⟨h.idle, h.draining, h.queued, h.ended_le, h.injected_le, h.ordered⟩
  | queued _ _ => exact h.enqueue
  | dropped _ _ _ => exact ⟨h.idle, h.draining, h.queued, h.ended_le, h.injected_le, h.ordered⟩
  | leave _ => exact ⟨h.idle, h.draining, h.queued, h.ended_le, h.injected_le, h.ordered⟩
  | @teardown i _ _ =>
    have hqueued : Timed (s.enqueue (s.entry i (.touch (.touchcancel [])) true)) := h.enqueue
    exact ⟨hqueued.idle, hqueued.draining, hqueued.queued, hqueued.ended_le, hqueued.injected_le,
      hqueued.ordered⟩
  | beginPass hstage =>
    have hidle := h.idle hstage
    refine ⟨nofun, fun _ => by rw [← hidle], fun device f hf => ?_, h.ended_le, h.injected_le,
      h.ordered⟩
    have hqueued := h.queued device f hf
    rw [hstage] at hqueued
    cases device <;> exact hqueued
  | take hstage hchannel => exact h.inject hstage hchannel
  | advance hstage hchannel => exact h.passed hstage hchannel

theorem timed (h : (machine d).Reachable s) : Timed s := by
  refine Machine.Reachable.invariant ?_ (fun s a s' hstep hs => Timed.step hs hstep) h
  rintro s rfl
  exact ⟨fun _ => rfl, fun hne => absurd rfl hne, fun _ _ he => absurd he List.not_mem_nil,
    fun _ _ he => absurd he List.not_mem_nil, fun _ he => absurd he List.not_mem_nil,
    List.Pairwise.nil⟩

/-- **The order of what is injected.** In every run, for each device the
events injected, then those still queued, are the events dispatched for
it, in order, without the dropped ones, all of them moves; once drained,
those injected are all. And of two events of any devices, the one
injected first was not dispatched a whole pass after the other. -/
theorem injected_order (h : (machine d).Reachable s) :
    (∀ device, (s.log.filter (Entry.goesTo device)).filter Entry.accepted =
      s.injected.filter (Entry.goesTo device) ++ s.channel device) ∧
    (s.Drained → ∀ device, (s.log.filter (Entry.goesTo device)).filter Entry.accepted =
      s.injected.filter (Entry.goesTo device)) ∧
    (∀ e ∈ s.log, e.accepted = false → e.message.isMove) ∧
    s.injected.Pairwise fun x y => ¬ WholePassBetween y x := by
  have haccount := accounted h
  have hfilter : ∀ device, (s.log.filter (Entry.goesTo device)).filter Entry.accepted =
      s.log.filter (Entry.queuedIn device) := by
    intro device
    rw [List.filter_filter]
    rfl
  refine ⟨fun device => ?_, fun hdrained device => ?_, haccount.dropped_move, (timed h).ordered⟩
  · rw [hfilter, haccount.channel_eq]
  · rw [hfilter, haccount.injected_eq hdrained]

/-- A key goes down, and the left button after it, before a pass begins. -/
def keyThenClick : List Action :=
  [.connect, .serve 1, .receive 1 (.key (.down "ControlLeft")),
    .receive 1 (.pointer (.down ⟨0.5, 0.5, 0, "mouse", 0⟩)),
    .beginPass, .advance, .take, .advance, .take, .advance]

/-- **The click overtakes the key**: sent second, it is injected first. -/
theorem click_overtakes_key :
    ∃ s, (machine ⟨1920, 1080⟩).Reachable s ∧ s.Drained ∧
      s.log.map (·.message) = [.key (.down "ControlLeft"),
        .pointer (.down ⟨0.5, 0.5, 0, "mouse", 0⟩)] ∧
      s.injected.map (·.message) = [.pointer (.down ⟨0.5, 0.5, 0, "mouse", 0⟩),
        .key (.down "ControlLeft")] := by
  have hrun : ∃ s, (machine ⟨1920, 1080⟩).exec (initial ⟨1920, 1080⟩) keyThenClick = some s ∧
      s.Drained ∧
      s.log.map (·.message) = [.key (.down "ControlLeft"),
        .pointer (.down ⟨0.5, 0.5, 0, "mouse", 0⟩)] ∧
      s.injected.map (·.message) = [.pointer (.down ⟨0.5, 0.5, 0, "mouse", 0⟩),
        .key (.down "ControlLeft")] := by
    refine ⟨_, rfl, fun device => ?_, rfl, rfl⟩
    cases device <;> rfl
  obtain ⟨s, hexec, hs⟩ := hrun
  exact ⟨s, Machine.reach_of_exec _ (Machine.Reachable.start rfl) hexec, hs⟩

/-- The order theorem at the end of that run. -/
theorem injected_order_keyThenClick :
    ∃ s, (machine ⟨1920, 1080⟩).Reachable s ∧ s.injected.length = 2 ∧
      s.injected.Pairwise fun x y => ¬ WholePassBetween y x := by
  have hrun : ∃ s, (machine ⟨1920, 1080⟩).exec (initial ⟨1920, 1080⟩) keyThenClick = some s ∧
      s.injected.length = 2 := ⟨_, rfl, rfl⟩
  obtain ⟨s, hexec, hlength⟩ := hrun
  have hreach := Machine.reach_of_exec _ (Machine.Reachable.start rfl) hexec
  exact ⟨s, hreach, hlength, (injected_order hreach).2.2.2⟩

end Input

end WaylandWebStream
