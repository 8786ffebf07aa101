import WaylandWebStream.Bitrate.Algorithm
import WaylandWebStream.Lib.Machine
import Mathlib.Logic.Function.Basic

/-!
# Latency reports — whose decode latency holds growth off

Every connection's handler turns the reports of its client into events of
one channel, and the algorithm keeps the last latency it was sent. Nothing
says whose it was, and nothing clears it: it stays until another client's
report, or a later one of the same client, has a decode latency too. So a
latency above the ceiling outlives a client that leaves with it, or that
goes on reporting without a decode latency.
-/

namespace WaylandWebStream

namespace Bitrate

/-- The capacity of the controller's event channel. -/
def eventCapacity : ℕ := 32

/-- The connections, their reports, and the controller they are sent to. -/
structure Reports (Ms : Type*) where
  /-- The generations connected; a new one gets the next number. -/
  connected : List ℕ
  generations : ℕ
  /-- The `decoding_ms` of each generation's last report. -/
  decodingMs : ℕ → Option Ms
  /-- The events on their way, each with the generation that sent it. -/
  channel : List (ℕ × Signal Ms)
  algo : BitrateAlgorithm Ms
  /-- The latency the algorithm keeps, with the generation that sent it. -/
  recorded : Option (ℕ × Ms)

/-- What can happen next. -/
inductive ReportAction (Ms : Type*)
  | connect
  /-- The client is gone: its handler ends. -/
  | close (gen : ℕ)
  /-- A latency report, with or without a decode latency. -/
  | latency (gen : ℕ) (decodingMs : Option Ms)
  /-- A report of bursty arrival. -/
  | arrivalStall (gen : ℕ)
  /-- The server's own backpressure, dropped where the channel is full. -/
  | sendBacklog (gen : ℕ)
  /-- The controller takes the next event. -/
  | receive (now : ℕ)
  | tick (now : ℕ)

namespace Reports

variable {Ms : Type*} (cfg : AdaptiveBitrateConfig Ms)

/-- Nobody connected, nothing reported. -/
def initial : Reports Ms where
  connected := []
  generations := 0
  decodingMs := fun _ => none
  channel := []
  algo := .new cfg
  recorded := none

section Steps

variable (s : Reports Ms)

/-- An event sent; the sender waits while the channel is full. -/
def send (gen : ℕ) (signal : Signal Ms) : Option (Reports Ms) :=
  if s.channel.length < eventCapacity then
    some { s with channel := s.channel ++ [(gen, signal)] }
  else none

/-- A latency report handled: only a decode latency is passed on. -/
def report (gen : ℕ) (decodingMs : Option Ms) : Option (Reports Ms) :=
  let s := { s with decodingMs := Function.update s.decodingMs gen decodingMs }
  match decodingMs with
  | some ms => s.send gen (.latency ms)
  | none => some s

/-- Who the recorded latency is from, once an event is received. -/
def recordOf (recorded : Option (ℕ × Ms)) (gen : ℕ) : Signal Ms → Option (ℕ × Ms)
  | .latency ms => some (gen, ms)
  | _ => recorded

variable [LT Ms] [DecidableLT Ms]

/-- One step. -/
def step (s : Reports Ms) : ReportAction Ms → Option (Reports Ms)
  | .connect =>
    some { s with
      connected := s.connected ++ [s.generations], generations := s.generations + 1 }
  | .close gen => some { s with connected := s.connected.filter (· ≠ gen) }
  | .latency gen decodingMs => if gen ∈ s.connected then s.report gen decodingMs else none
  | .arrivalStall gen => if gen ∈ s.connected then s.send gen .arrivalStall else none
  | .sendBacklog gen =>
    if gen ∈ s.connected then some ((s.send gen .sendBacklog).getD s) else none
  | .receive now =>
    match s.channel with
    | [] => none
    | (gen, signal) :: channel =>
      some { s with
        channel := channel, algo := (s.algo.call ⟨signal, now⟩).1,
        recorded := recordOf s.recorded gen signal }
  | .tick now => some { s with algo := (s.algo.tick now).1 }

/-- **The reports and the controller.** -/
def machine : Machine (Reports Ms) (ReportAction Ms) := ⟨fun s => s = initial cfg, step⟩

end Steps

/-- The client is connected, and its last report had a decode latency. -/
def Reporting (s : Reports Ms) (gen : ℕ) : Prop :=
  gen ∈ s.connected ∧ (s.decodingMs gen).isSome

variable [LT Ms] [DecidableLT Ms]

/-- **A latency of the client's is above the ceiling** and recorded, or on
its way to be. -/
def Outstanding (s : Reports Ms) (gen : ℕ) : Prop :=
  ∃ ms, cfg.latencyCeilingMs < ms ∧ (s.recorded = some (gen, ms) ∨ (gen, .latency ms) ∈ s.channel)

/-- **Nobody goes silent with a latency outstanding**, by leaving or by a
report without a decode latency. -/
def Answerable (s : Reports Ms) : ReportAction Ms → Prop
  | .close gen => ¬ s.Outstanding cfg gen
  | .latency gen none => ¬ s.Outstanding cfg gen
  | _ => True

end Reports

namespace BitrateAlgorithm

variable {Ms : Type*} [LT Ms] [DecidableLT Ms] {a : BitrateAlgorithm Ms} {c : Call Ms} {now : ℕ}

/-- **A tick that the latency holds off.** -/
def HeldOff (a : BitrateAlgorithm Ms) (now : ℕ) : Prop :=
  a.inCooldown now = false ∧ a.latencyElevated = true

/-- It declines to grow, and would not without the latency. -/
theorem tick_of_heldOff (h : a.HeldOff now) : a.tick now = (a, none) := by
  rw [tick, if_neg (by rw [h.1]; exact Bool.false_ne_true), if_pos h.2]

/-- Only a latency report moves the latency that is kept. -/
theorem call_lastLatencyMs : (a.call c).1.lastLatencyMs =
    match c.signal with
    | .latency ms => some ms
    | _ => a.lastLatencyMs := by
  rw [call_state]
  obtain ⟨signal, now⟩ := c
  split_ifs with hcuts hgrows
  · rfl
  · cases signal with
    | tick => rfl
    | latency ms => exact absurd hgrows Bool.false_ne_true
    | sendBacklog => exact absurd hgrows Bool.false_ne_true
    | arrivalStall => exact absurd hgrows Bool.false_ne_true
  · rfl

end BitrateAlgorithm

namespace Reports

variable {Ms : Type*} [LT Ms] [DecidableLT Ms] {cfg : AdaptiveBitrateConfig Ms}
  {s s' : Reports Ms} {a : ReportAction Ms} {gen : ℕ}

/-- **The latency kept is one that was reported**, and whoever has one
above the ceiling outstanding is still reporting. -/
structure Answered (cfg : AdaptiveBitrateConfig Ms) (s : Reports Ms) : Prop where
  config : s.algo.config = cfg
  recorded : s.recorded.map Prod.snd = s.algo.lastLatencyMs
  reporting : ∀ gen, s.Outstanding cfg gen → s.Reporting gen

namespace Answered

omit [DecidableLT Ms] in
/-- What is not outstanding before an event is sent is outstanding by it. -/
theorem outstanding_send {signal : Signal Ms} (h : s.send gen signal = some s') {i : ℕ}
    (hi : s'.Outstanding cfg i) :
    s.Outstanding cfg i ∨ (i = gen ∧ ∃ ms, signal = .latency ms) := by
  obtain ⟨-, heq⟩ := Option.ite_none_right_eq_some.1 h
  cases heq
  obtain ⟨ms, hms, hrec | hmem⟩ := hi
  · exact .inl ⟨ms, hms, .inl hrec⟩
  · rcases List.mem_append.1 hmem with hmem | hmem
    · exact .inl ⟨ms, hms, .inr hmem⟩
    · cases List.mem_singleton.1 hmem
      exact .inr ⟨rfl, ms, rfl⟩

omit [DecidableLT Ms] in
/-- An event that is no latency leaves nobody more to answer for. -/
theorem send (h : Answered cfg s) {signal : Signal Ms} (hsignal : ∀ ms, signal ≠ .latency ms)
    (hsend : s.send gen signal = some s') : Answered cfg s' := by
  have hout : ∀ i, s'.Outstanding cfg i →
      s.Outstanding cfg i ∨ (i = gen ∧ ∃ ms, signal = .latency ms) :=
    fun i hi => outstanding_send hsend hi
  obtain ⟨-, heq⟩ := Option.ite_none_right_eq_some.1 hsend
  cases heq
  refine ⟨h.config, h.recorded, fun i hi => h.reporting i ((hout i hi).resolve_right ?_)⟩
  rintro ⟨-, ms, rfl⟩
  exact hsignal ms rfl

/-- What the controller receives was outstanding before. -/
theorem receive (h : Answered cfg s) {signal : Signal Ms} {channel : List (ℕ × Signal Ms)}
    (hchannel : s.channel = (gen, signal) :: channel) (now : ℕ) :
    Answered cfg { s with
      channel := channel, algo := (s.algo.call ⟨signal, now⟩).1,
      recorded := recordOf s.recorded gen signal } := by
  refine ⟨BitrateAlgorithm.call_config.trans h.config, ?_, fun i hi => h.reporting i ?_⟩
  · rw [BitrateAlgorithm.call_lastLatencyMs]
    cases signal with
    | latency ms => rfl
    | tick => exact h.recorded
    | sendBacklog => exact h.recorded
    | arrivalStall => exact h.recorded
  · obtain ⟨ms, hms, hrec | hmem⟩ := hi
    · cases signal with
      | latency ms' =>
        cases hrec
        exact ⟨ms, hms, .inr (by rw [hchannel]; exact List.mem_cons_self)⟩
      | tick => exact ⟨ms, hms, .inl hrec⟩
      | sendBacklog => exact ⟨ms, hms, .inl hrec⟩
      | arrivalStall => exact ⟨ms, hms, .inl hrec⟩
    · exact ⟨ms, hms, .inr (by rw [hchannel]; exact List.mem_cons_of_mem _ hmem)⟩

/-- **Every answerable step keeps the reporters answerable.** -/
theorem step (h : Answered cfg s) (ha : s.Answerable cfg a) (hstep : s.step a = some s') :
    Answered cfg s' := by
  cases a with
  | connect =>
    cases hstep
    exact ⟨h.config, h.recorded, fun i hi =>
      ⟨List.mem_append_left _ (h.reporting i hi).1, (h.reporting i hi).2⟩⟩
  | close gen =>
    cases hstep
    refine ⟨h.config, h.recorded, fun i hi => ⟨List.mem_filter.2 ⟨(h.reporting i hi).1, ?_⟩,
      (h.reporting i hi).2⟩⟩
    simp only [decide_eq_true_eq]
    rintro rfl
    exact ha hi
  | latency gen decodingMs =>
    obtain ⟨hgen, hreport⟩ := Option.ite_none_right_eq_some.1 hstep
    cases decodingMs with
    | none =>
      cases hreport
      refine ⟨h.config, h.recorded, fun i hi => ⟨(h.reporting i hi).1, ?_⟩⟩
      -- this connection has nothing outstanding, so the one that has is another
      have hne : i ≠ gen := by
        rintro rfl
        exact ha hi
      show (Function.update s.decodingMs gen none i).isSome
      rw [Function.update_of_ne hne]
      exact (h.reporting i hi).2
    | some ms =>
      have hframe := (Option.ite_none_right_eq_some.1 hreport).2
      have hout : ∀ i, s'.Outstanding cfg i →
          s.Outstanding cfg i ∨ (i = gen ∧ ∃ ms', Signal.latency ms = .latency ms') :=
        fun i hi => outstanding_send hreport hi
      cases hframe
      refine ⟨h.config, h.recorded, fun i hi => ?_⟩
      by_cases hne : i = gen
      · subst hne
        refine ⟨hgen, ?_⟩
        show (Function.update s.decodingMs i (some ms) i).isSome
        rw [Function.update_self]
        rfl
      · have hi' := (hout i hi).resolve_right fun hnew => hne hnew.1
        refine ⟨(h.reporting i hi').1, ?_⟩
        show (Function.update s.decodingMs gen (some ms) i).isSome
        rw [Function.update_of_ne hne]
        exact (h.reporting i hi').2
  | arrivalStall gen =>
    obtain ⟨-, hsend⟩ := Option.ite_none_right_eq_some.1 hstep
    exact h.send (fun ms heq => by cases heq) hsend
  | sendBacklog gen =>
    obtain ⟨-, hsend⟩ := Option.ite_none_right_eq_some.1 hstep
    cases hsome : s.send gen .sendBacklog with
    | none =>
      rw [hsome] at hsend
      cases hsend
      exact h
    | some t =>
      rw [hsome] at hsend
      cases hsend
      exact h.send (fun ms heq => by cases heq) hsome
  | receive now =>
    rw [Reports.step] at hstep
    cases hchannel : s.channel with
    | nil =>
      rw [hchannel] at hstep
      cases hstep
    | cons head channel =>
      obtain ⟨gen, signal⟩ := head
      rw [hchannel] at hstep
      cases hstep
      exact h.receive hchannel now
  | tick now =>
    cases hstep
    refine ⟨?_, ?_, h.reporting⟩
    · exact (BitrateAlgorithm.call_config (c := ⟨.tick, now⟩)).trans h.config
    · exact h.recorded.trans (BitrateAlgorithm.call_lastLatencyMs (c := ⟨.tick, now⟩)).symm

end Answered

theorem answered_of_reach (h : (machine cfg).Reach (Answerable cfg) s) : Answered cfg s := by
  refine h.invariant ?_ fun _ _ _ ha hstep hs => hs.step ha hstep
  rintro s rfl
  refine ⟨rfl, rfl, fun gen hgen => ?_⟩
  obtain ⟨ms, -, hrec | hmem⟩ := hgen
  · cases hrec
  · exact absurd hmem List.not_mem_nil

/-- **Growth is held off for a client that is there.** In every run in
which nobody goes silent with a latency outstanding: where a tick declines
because of the latency, a connected client reported it, and is still
reporting a decode latency. -/
theorem heldOff_reporting (h : (machine cfg).Reach (Answerable cfg) s) {now : ℕ}
    (hheld : s.algo.HeldOff now) :
    ∃ gen ms, s.recorded = some (gen, ms) ∧ s.algo.lastLatencyMs = some ms ∧ s.Reporting gen := by
  have hanswered := answered_of_reach h
  obtain ⟨ms, hms, hceiling⟩ := (Option.any_eq_true _ _).1 hheld.2
  obtain ⟨⟨gen, ms'⟩, hrec, rfl⟩ := Option.map_eq_some_iff.1 (hanswered.recorded.trans hms)
  refine ⟨gen, ms', hrec, hms, hanswered.reporting gen ⟨ms', ?_, .inl hrec⟩⟩
  rw [← hanswered.config]
  exact of_decide_eq_true hceiling

/-- A client reports a latency above the ceiling. -/
def slowClient : List (ReportAction ℕ) :=
  [.connect, .latency 0 (some 200), .receive 0]

/-- Growth is held off for it. -/
theorem heldOff_reporting_slow : ∃ s : Reports ℕ,
    (machine .default).exec (initial .default) slowClient = some s ∧ s.algo.HeldOff 1 ∧
      ∃ gen ms, s.recorded = some (gen, ms) ∧ s.algo.lastLatencyMs = some ms ∧
        s.Reporting gen :=
  ⟨_, rfl, ⟨rfl, rfl⟩, heldOff_reporting (.next (.next (.next (.start rfl)
    (a := .connect) trivial rfl) (a := .latency 0 (some 200)) trivial rfl)
      (a := .receive 0) trivial rfl) (⟨rfl, rfl⟩ : BitrateAlgorithm.HeldOff _ 1)⟩

/-- **The client leaves, another connects**: the latency of the one that
is gone holds growth off. -/
theorem heldOff_by_gone : ∃ s : Reports ℕ, (machine .default).Reachable s ∧ s.algo.HeldOff 1 ∧
    s.recorded = some (0, 200) ∧ s.connected = [1] :=
  ⟨_, Machine.reach_of_exec (slowClient ++ [.close 0, .connect]) (.start rfl) rfl,
    ⟨rfl, rfl⟩, rfl, rfl⟩

end Reports

end Bitrate

end WaylandWebStream
