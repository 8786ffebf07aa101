import Mathlib.Logic.Function.Basic
import Mathlib.Tactic.FinCases
import Mathlib.Data.Fintype.Basic
import WaylandWebStream.Lib.Machine
import WaylandWebStream.Lib.Watch

/-!
# Single-client takeover

Only one `/client` connection is served at a time. A new one claims the
next generation of the shared counter, subscribes to the watch channel
and publishes its generation there; every connection the publication
wakes re-reads the counter, and closes itself if the counter has moved
past its own generation. The counter and the channel are two objects and
nothing orders the handlers' accesses to them, so what is shown here is
shown for any number of handlers in any interleaving.
-/

namespace WaylandWebStream

namespace Takeover

variable {ι : Type*} [DecidableEq ι]

/-- Where a connection handler stands between its claim and its end. -/
inductive Phase
  /-- The socket is not there yet. -/
  | idle
  /-- Holds a generation, not subscribed. -/
  | claimed
  /-- Subscribed, its own generation not published. -/
  | subscribed
  /-- Published, in the handler's loop. -/
  | serving
  /-- Woken by a change, the counter not re-read yet. -/
  | woken
  /-- Closed itself: a newer client replaced it. -/
  | replaced
  /-- Ended for a reason of its own: the peer, a failed send, a shutdown. -/
  | gone
  deriving DecidableEq

/-- One connection: its phase, the generation it claimed, its receiver. -/
structure Conn where
  phase : Phase := .idle
  myGen : ℕ := 0
  clientGenRx : Watch.Receiver := ⟨0⟩

/-- The shared counter, the channel beside it, and the connections. -/
structure State (ι : Type*) where
  clientGen : ℕ
  clientGenTx : Watch ℕ
  conn : ι → Conn

/-- The handlers' atomic steps. -/
inductive Action (ι : Type*)
  /-- `client_gen.fetch_add(1) + 1`. -/
  | claim (i : ι)
  /-- `client_gen_tx.subscribe()`. -/
  | subscribe (i : ι)
  /-- `client_gen_tx.send(my_gen)`. -/
  | publish (i : ι)
  /-- `client_gen_rx.changed()` resolves, the version now seen. -/
  | wake (i : ι)
  /-- `client_gen.load()` after a wake-up, and what follows from it. -/
  | reread (i : ι)
  /-- The connection ends for a reason of its own. -/
  | drop (i : ι)

/-- The connection whose handler takes the step. -/
@[simp] def Action.handler : Action ι → ι
  | claim i | subscribe i | publish i | wake i | reread i | drop i => i

/-- Generation `0` is the "no client yet" sentinel. -/
def initial : State ι := ⟨0, Watch.channel 0, fun _ => {}⟩

namespace State

variable (s : State ι)

/-- Replaces one connection. -/
def setConn (i : ι) (c : Conn) : State ι := { s with conn := Function.update s.conn i c }

/-- One step of one handler. There is no await between the claim and the
publication, so a connection ends for its own reasons only after both. -/
def step : Action ι → Option (State ι)
  | .claim i =>
    if (s.conn i).phase = .idle then
      some ({ s with clientGen := s.clientGen + 1 }.setConn i
        { s.conn i with phase := .claimed, myGen := s.clientGen + 1 })
    else none
  | .subscribe i =>
    if (s.conn i).phase = .claimed then
      some (s.setConn i
        { s.conn i with phase := .subscribed, clientGenRx := s.clientGenTx.subscribe })
    else none
  | .publish i =>
    if (s.conn i).phase = .subscribed then
      some ({ s with clientGenTx := s.clientGenTx.send (s.conn i).myGen }.setConn i
        { s.conn i with phase := .serving })
    else none
  | .wake i =>
    if (s.conn i).phase = .serving ∧ s.clientGenTx.hasChanged (s.conn i).clientGenRx then
      some (s.setConn i
        { s.conn i with phase := .woken, clientGenRx := s.clientGenTx.subscribe })
    else none
  | .reread i =>
    if (s.conn i).phase = .woken then
      some (s.setConn i
        { s.conn i with phase := if s.clientGen ≠ (s.conn i).myGen then .replaced else .serving })
    else none
  | .drop i =>
    if (s.conn i).phase = .serving ∨ (s.conn i).phase = .woken then
      some (s.setConn i { s.conn i with phase := .gone })
    else none

/-- Connection `i` has claimed a generation. -/
def Claimed (i : ι) : Prop := (s.conn i).phase ≠ .idle

/-- Connection `i` has claimed a generation and not published it. -/
def Unpublished (i : ι) : Prop := (s.conn i).phase = .claimed ∨ (s.conn i).phase = .subscribed

/-- Connection `i` has subscribed and not closed. -/
def Listening (i : ι) : Prop :=
  (s.conn i).phase = .subscribed ∨ (s.conn i).phase = .serving ∨ (s.conn i).phase = .woken

/-- Connection `i` has a change to act on: one it has not seen, or one
its wake-up saw and it has yet to re-read the counter for. -/
def Pending (i : ι) : Prop :=
  s.clientGenTx.hasChanged (s.conn i).clientGenRx ∨ (s.conn i).phase = .woken

/-- No connection has claimed a generation newer than `i`'s. -/
def Newest (i : ι) : Prop := s.Claimed i ∧ ∀ j, s.Claimed j → (s.conn j).myGen ≤ (s.conn i).myGen

/-- Every claimed generation is published and every wake-up is over. -/
def Settled : Prop :=
  (∀ i, ¬ s.Unpublished i) ∧ ∀ i, (s.conn i).phase = .serving ∨ (s.conn i).phase = .woken →
    ¬ s.Pending i

end State

/-- The handlers of every connection, interleaved. -/
def machine (ι : Type*) [DecidableEq ι] : Machine (State ι) (Action ι) where
  init s := s = initial
  step := State.step

variable {s s' : State ι} {i j : ι}

namespace State

@[simp] theorem setConn_clientGen (c : Conn) : (s.setConn i c).clientGen = s.clientGen := rfl

@[simp] theorem setConn_clientGenTx (c : Conn) :
    (s.setConn i c).clientGenTx = s.clientGenTx := rfl

@[simp] theorem setConn_self (c : Conn) : (s.setConn i c).conn i = c := by simp [setConn]

theorem setConn_of_ne (c : Conn) (h : j ≠ i) : (s.setConn i c).conn j = s.conn j := by
  simp [setConn, h]

/-! ## What a step does -/

theorem step_claim (h : s.step (.claim i) = some s') : (s.conn i).phase = .idle ∧
    s' = { s with clientGen := s.clientGen + 1 }.setConn i
      { s.conn i with phase := .claimed, myGen := s.clientGen + 1 } := by
  simpa [step, eq_comm] using h

theorem step_subscribe (h : s.step (.subscribe i) = some s') : (s.conn i).phase = .claimed ∧
    s' = s.setConn i
      { s.conn i with phase := .subscribed, clientGenRx := s.clientGenTx.subscribe } := by
  simpa [step, eq_comm] using h

theorem step_publish (h : s.step (.publish i) = some s') : (s.conn i).phase = .subscribed ∧
    s' = { s with clientGenTx := s.clientGenTx.send (s.conn i).myGen }.setConn i
      { s.conn i with phase := .serving } := by
  simpa [step, eq_comm] using h

theorem step_wake (h : s.step (.wake i) = some s') : (s.conn i).phase = .serving ∧
    s' = s.setConn i
      { s.conn i with phase := .woken, clientGenRx := s.clientGenTx.subscribe } := by
  simp only [step, Option.ite_none_right_eq_some, Option.some.injEq] at h
  exact ⟨h.1.1, h.2.symm⟩

theorem step_reread (h : s.step (.reread i) = some s') : (s.conn i).phase = .woken ∧
    s' = s.setConn i { s.conn i with
      phase := if s.clientGen ≠ (s.conn i).myGen then .replaced else .serving } := by
  simp only [step, Option.ite_none_right_eq_some, Option.some.injEq] at h
  exact ⟨h.1, h.2.symm⟩

theorem step_drop (h : s.step (.drop i) = some s') :
    ((s.conn i).phase = .serving ∨ (s.conn i).phase = .woken) ∧
    s' = s.setConn i { s.conn i with phase := .gone } := by
  simpa [step, eq_comm] using h

/-- A step touches no connection but its handler's. -/
theorem step_of_ne {a : Action ι} (h : s.step a = some s') (hj : j ≠ a.handler) :
    s'.conn j = s.conn j := by
  cases a with
  | claim i => obtain ⟨-, rfl⟩ := step_claim h; exact setConn_of_ne _ hj
  | subscribe i => obtain ⟨-, rfl⟩ := step_subscribe h; exact setConn_of_ne _ hj
  | publish i => obtain ⟨-, rfl⟩ := step_publish h; exact setConn_of_ne _ hj
  | wake i => obtain ⟨-, rfl⟩ := step_wake h; exact setConn_of_ne _ hj
  | reread i => obtain ⟨-, rfl⟩ := step_reread h; exact setConn_of_ne _ hj
  | drop i => obtain ⟨-, rfl⟩ := step_drop h; exact setConn_of_ne _ hj

/-- The counter and the channel's version only grow. -/
theorem step_mono {a : Action ι} (h : s.step a = some s') :
    s.clientGen ≤ s'.clientGen ∧ s.clientGenTx.version ≤ s'.clientGenTx.version := by
  cases a with
  | claim i => obtain ⟨-, rfl⟩ := step_claim h; simp
  | subscribe i => obtain ⟨-, rfl⟩ := step_subscribe h; simp
  | publish i => obtain ⟨-, rfl⟩ := step_publish h; simp
  | wake i => obtain ⟨-, rfl⟩ := step_wake h; simp
  | reread i => obtain ⟨-, rfl⟩ := step_reread h; simp
  | drop i => obtain ⟨-, rfl⟩ := step_drop h; simp

end State

/-! ## The generations

A generation is claimed once, none is above the counter, and the counter
is one that somebody claimed. -/

/-- **What the counter knows of the claims.** -/
structure Generations (s : State ι) : Prop where
  pos : ∀ i, s.Claimed i → 0 < (s.conn i).myGen
  le : ∀ i, s.Claimed i → (s.conn i).myGen ≤ s.clientGen
  inj : ∀ i j, s.Claimed i → s.Claimed j → (s.conn i).myGen = (s.conn j).myGen → i = j
  newest : 0 < s.clientGen → ∃ i, s.Claimed i ∧ (s.conn i).myGen = s.clientGen

/-- A step that is not a claim leaves the counter, the generations and who
holds one as they were. -/
theorem generations_of_setConn {c : Conn} {w : Watch ℕ} (hg : Generations s) (hi : s.Claimed i)
    (hc : c.phase ≠ .idle) (hgen : c.myGen = (s.conn i).myGen) :
    Generations ({ s with clientGenTx := w }.setConn i c) := by
  have hsame : ∀ j, (({ s with clientGenTx := w }.setConn i c).conn j).myGen = (s.conn j).myGen ∧
      (({ s with clientGenTx := w }.setConn i c).Claimed j ↔ s.Claimed j) := by
    intro j
    by_cases hj : j = i
    · subst hj
      simpa [State.Claimed, hgen, hc] using hi
    · simp only [State.Claimed, State.setConn_of_ne _ hj, and_self]
  refine ⟨fun j hj => ?_, fun j hj => ?_, fun j k hj hk h => ?_, fun h => ?_⟩
  · rw [(hsame j).1]; exact hg.pos j ((hsame j).2.1 hj)
  · rw [(hsame j).1]; exact hg.le j ((hsame j).2.1 hj)
  · rw [(hsame j).1, (hsame k).1] at h
    exact hg.inj j k ((hsame j).2.1 hj) ((hsame k).2.1 hk) h
  · obtain ⟨j, hj, hgj⟩ := hg.newest h
    exact ⟨j, (hsame j).2.2 hj, by rw [(hsame j).1]; exact hgj⟩

theorem generations_claim (hg : Generations s) (hi : (s.conn i).phase = .idle) :
    Generations ({ s with clientGen := s.clientGen + 1 }.setConn i
      { s.conn i with phase := .claimed, myGen := s.clientGen + 1 }) := by
  have hother : ∀ j, j ≠ i → ({ s with clientGen := s.clientGen + 1 }.setConn i
      { s.conn i with phase := .claimed, myGen := s.clientGen + 1 }).conn j = s.conn j :=
    fun j hj => State.setConn_of_ne _ hj
  refine ⟨fun j hj => ?_, fun j hj => ?_, fun j k hj hk h => ?_, fun _ => ⟨i, by
    simp [State.Claimed], by simp⟩⟩
  · by_cases hji : j = i
    · subst hji; simp
    · rw [State.Claimed, hother j hji] at hj
      rw [hother j hji]; exact hg.pos j hj
  · by_cases hji : j = i
    · subst hji; simp
    · rw [State.Claimed, hother j hji] at hj
      rw [hother j hji]
      exact Nat.le_succ_of_le (hg.le j hj)
  · by_cases hji : j = i <;> by_cases hki : k = i
    · rw [hji, hki]
    · subst hji
      rw [State.Claimed, hother k hki] at hk
      rw [hother k hki, State.setConn_self] at h
      have := hg.le k hk
      simp only at h
      omega
    · subst hki
      rw [State.Claimed, hother j hji] at hj
      rw [hother j hji, State.setConn_self] at h
      have := hg.le j hj
      simp only at h
      omega
    · rw [State.Claimed, hother j hji] at hj
      rw [State.Claimed, hother k hki] at hk
      rw [hother j hji, hother k hki] at h
      exact hg.inj j k hj hk h

theorem generations_step {a : Action ι} (hg : Generations s) (h : s.step a = some s') :
    Generations s' := by
  cases a with
  | claim i =>
    obtain ⟨hp, rfl⟩ := State.step_claim h
    exact generations_claim hg hp
  | subscribe i =>
    obtain ⟨hp, rfl⟩ := State.step_subscribe h
    exact generations_of_setConn hg (by simp [State.Claimed, hp]) (by simp) rfl
  | publish i =>
    obtain ⟨hp, rfl⟩ := State.step_publish h
    exact generations_of_setConn hg (by simp [State.Claimed, hp]) (by simp) rfl
  | wake i =>
    obtain ⟨hp, rfl⟩ := State.step_wake h
    exact generations_of_setConn hg (by simp [State.Claimed, hp]) (by simp) rfl
  | reread i =>
    obtain ⟨hp, rfl⟩ := State.step_reread h
    refine generations_of_setConn hg (by simp [State.Claimed, hp]) ?_ rfl
    dsimp only
    split <;> simp
  | drop i =>
    obtain ⟨hp, rfl⟩ := State.step_drop h
    refine generations_of_setConn hg ?_ (by simp) rfl
    rcases hp with hp | hp <;> simp [State.Claimed, hp]

theorem reachable_generations (h : (machine ι).Reachable s) : Generations s := by
  refine Machine.Reachable.invariant (P := Generations) (fun s hs => ?_)
    (fun s a s' hstep hg => generations_step hg hstep) h
  subst hs
  exact ⟨fun i hi => absurd rfl hi, fun i hi => absurd rfl hi,
    fun i _ hi => absurd rfl hi, fun h => absurd h (Nat.lt_irrefl 0)⟩

/-! ## Nobody misses a takeover -/

/-- A receiver never claims to have seen a version not sent yet. -/
def SeenBounded (s : State ι) : Prop := ∀ i, (s.conn i).clientGenRx.seen ≤ s.clientGenTx.version

/-- **No wake-up is lost.** A connection in its loop whose generation the
counter has passed has a change it has not seen, unless a newer claimant
is still on its way to publish. -/
def Watched (s : State ι) : Prop := ∀ i, (s.conn i).phase = .serving →
  (s.conn i).myGen < s.clientGen → s.clientGenTx.hasChanged (s.conn i).clientGenRx = true ∨
    ∃ j, (s.conn i).myGen < (s.conn j).myGen ∧ s.Unpublished j

theorem seenBounded_step {a : Action ι} (hb : SeenBounded s) (h : s.step a = some s') :
    SeenBounded s' := by
  intro j
  have hj := hb j
  by_cases hja : j = a.handler
  · subst hja
    cases a with
    | claim i => obtain ⟨-, rfl⟩ := State.step_claim h; simpa using hj
    | subscribe i => obtain ⟨-, rfl⟩ := State.step_subscribe h; simp
    | publish i =>
      obtain ⟨-, rfl⟩ := State.step_publish h
      simpa using Nat.le_succ_of_le hj
    | wake i => obtain ⟨-, rfl⟩ := State.step_wake h; simp
    | reread i => obtain ⟨-, rfl⟩ := State.step_reread h; simpa using hj
    | drop i => obtain ⟨-, rfl⟩ := State.step_drop h; simpa using hj
  · rw [State.step_of_ne h hja]
    exact Nat.le_trans hj (State.step_mono h).2

theorem reachable_seenBounded (h : (machine ι).Reachable s) : SeenBounded s :=
  Machine.Reachable.invariant (P := SeenBounded)
    (fun s hs => by subst hs; exact fun _ => Nat.le_refl 0)
    (fun _ _ _ hstep hb => seenBounded_step hb hstep) h

/-- A step that only changes connection `i`, leaving it out of its loop
and its publication no further away, keeps the others watched. -/
theorem watched_of_setConn {c : Conn} (hw : Watched s)
    (hc : c.phase ≠ .serving) (hgen : c.myGen = (s.conn i).myGen)
    (hpub : s.Unpublished i → c.phase = .claimed ∨ c.phase = .subscribed) :
    Watched (s.setConn i c) := by
  intro j hj hlt
  have hji : j ≠ i := by rintro rfl; exact hc (by simpa using hj)
  rw [State.setConn_of_ne _ hji] at hj hlt ⊢
  rcases hw j hj hlt with hch | ⟨k, hk, hunp⟩
  · exact Or.inl hch
  · refine Or.inr ⟨k, ?_, ?_⟩
    · by_cases hki : k = i
      · subst hki; simpa [hgen] using hk
      · rw [State.setConn_of_ne _ hki]; exact hk
    · by_cases hki : k = i
      · subst hki; simpa [State.Unpublished] using hpub hunp
      · simpa only [State.Unpublished, State.setConn_of_ne _ hki] using hunp

theorem watched_step {a : Action ι} (hg : Generations s) (hb : SeenBounded s) (hw : Watched s)
    (h : s.step a = some s') : Watched s' := by
  cases a with
  | claim i =>
    obtain ⟨hp, rfl⟩ := State.step_claim h
    intro j hj _
    have hji : j ≠ i := by rintro rfl; simp at hj
    rw [State.setConn_of_ne _ hji] at hj ⊢
    change (s.conn j).phase = .serving at hj
    -- the claim itself is the newer generation still to be published
    refine Or.inr ⟨i, ?_, Or.inl (by simp)⟩
    have := hg.le j (by simp [State.Claimed, hj])
    rw [State.setConn_self]
    simp only
    omega
  | subscribe i =>
    obtain ⟨-, rfl⟩ := State.step_subscribe h
    exact watched_of_setConn hw (by simp) rfl (by simp)
  | publish i =>
    obtain ⟨-, rfl⟩ := State.step_publish h
    intro j _ _
    left
    by_cases hji : j = i
    · subst hji
      simpa using Watch.hasChanged_send (hb j) _
    · rw [State.setConn_of_ne _ hji]
      exact Watch.hasChanged_send (hb j) _
  | wake i =>
    obtain ⟨hp, rfl⟩ := State.step_wake h
    exact watched_of_setConn hw (by simp) rfl (by simp [State.Unpublished, hp])
  | reread i =>
    obtain ⟨hp, rfl⟩ := State.step_reread h
    by_cases hsame : s.clientGen = (s.conn i).myGen
    · intro j hj hlt
      by_cases hji : j = i
      · -- it stays only where the counter is still its own
        subst hji
        simp [hsame] at hlt
      · rw [State.setConn_of_ne _ hji] at hj hlt ⊢
        rcases hw j hj hlt with hch | ⟨k, hk, hunp⟩
        · exact Or.inl hch
        · have hki : k ≠ i := by rintro rfl; simp [State.Unpublished, hp] at hunp
          refine Or.inr ⟨k, ?_, ?_⟩
          · rw [State.setConn_of_ne _ hki]; exact hk
          · simpa only [State.Unpublished, State.setConn_of_ne _ hki] using hunp
    · exact watched_of_setConn hw (by simp [hsame]) rfl (by simp [State.Unpublished, hp])
  | drop i =>
    obtain ⟨hp, rfl⟩ := State.step_drop h
    refine watched_of_setConn hw (by simp) rfl fun hunp => ?_
    rcases hp with hp | hp <;> simp [State.Unpublished, hp] at hunp

theorem reachable_watched (h : (machine ι).Reachable s) : Watched s :=
  Machine.Reach.invariant_of (Q := fun s => Generations s ∧ SeenBounded s)
    (fun _ hs => ⟨reachable_generations hs, reachable_seenBounded hs⟩)
    (fun s hs => by subst hs; exact fun i hi => by simp [initial] at hi)
    (fun _ _ _ hQ _ _ hstep hw => watched_step hQ.1 hQ.2 hw hstep) h

/-- **Only a superseded connection is replaced.** -/
def ReplacedOld (s : State ι) : Prop :=
  ∀ i, (s.conn i).phase = .replaced → (s.conn i).myGen < s.clientGen

theorem replacedOld_step {a : Action ι} (hg : Generations s) (hr : ReplacedOld s)
    (h : s.step a = some s') : ReplacedOld s' := by
  intro j hj
  by_cases hja : j = a.handler
  · subst hja
    cases a with
    | claim i => obtain ⟨-, rfl⟩ := State.step_claim h; simp at hj
    | subscribe i => obtain ⟨-, rfl⟩ := State.step_subscribe h; simp at hj
    | publish i => obtain ⟨-, rfl⟩ := State.step_publish h; simp at hj
    | wake i => obtain ⟨-, rfl⟩ := State.step_wake h; simp at hj
    | reread i =>
      -- it closed itself because the counter was not its own
      obtain ⟨hp, rfl⟩ := State.step_reread h
      have hle := hg.le i (by simp [State.Claimed, hp])
      by_cases hsame : s.clientGen = (s.conn i).myGen
      · simp [hsame] at hj
      · simp only [Action.handler, State.setConn_self, State.setConn_clientGen]
        omega
    | drop i => obtain ⟨-, rfl⟩ := State.step_drop h; simp at hj
  · rw [State.step_of_ne h hja] at hj ⊢
    exact Nat.lt_of_lt_of_le (hr j hj) (State.step_mono h).1

theorem reachable_replacedOld (h : (machine ι).Reachable s) : ReplacedOld s :=
  Machine.Reach.invariant_of (Q := Generations) (fun _ hs => reachable_generations hs)
    (fun s hs => by subst hs; exact fun i hi => by simp [initial] at hi)
    (fun _ _ _ hQ _ _ hstep hr => replacedOld_step hQ hr hstep) h

/-! ## Takeover is exact -/

omit [DecidableEq ι] in
/-- A connection is the newest exactly when the counter is its own. -/
theorem newest_iff (hg : Generations s) (hi : s.Claimed i) :
    s.Newest i ↔ (s.conn i).myGen = s.clientGen := by
  constructor
  · rintro ⟨-, hall⟩
    obtain ⟨j, hj, hjg⟩ := hg.newest (lt_of_lt_of_le (hg.pos i hi) (hg.le i hi))
    have h1 := hall j hj
    have h2 := hg.le i hi
    omega
  · intro hgen
    exact ⟨hi, fun j hj => hgen ▸ hg.le j hj⟩

/-- The newest connection is never replaced. -/
theorem not_replaced_of_newest (h : (machine ι).Reachable s) (hi : s.Newest i) :
    (s.conn i).phase ≠ .replaced := by
  intro hp
  have hlt := reachable_replacedOld h i hp
  rw [(newest_iff (reachable_generations h) hi.1).1 hi] at hlt
  exact lt_irrefl _ hlt

/-- A superseded connection that listens has a change to act on, or a
publication is still to come: a newer claimant's, or its own. -/
theorem pending_of_superseded (h : (machine ι).Reachable s) (hl : s.Listening i)
    (hi : ¬ s.Newest i) :
    s.Pending i ∨ (∃ j, (s.conn i).myGen < (s.conn j).myGen ∧ s.Unpublished j) ∨
      s.Unpublished i := by
  have hg := reachable_generations h
  rcases hl with hp | hp | hp
  · exact Or.inr (Or.inr (Or.inr hp))
  · have hcl : s.Claimed i := by simp [State.Claimed, hp]
    have hlt : (s.conn i).myGen < s.clientGen :=
      lt_of_le_of_ne (hg.le i hcl) fun heq => hi ((newest_iff hg hcl).2 heq)
    rcases reachable_watched h i hp hlt with hch | hj
    · exact Or.inl (Or.inl hch)
    · exact Or.inr (Or.inl hj)
  · exact Or.inl (Or.inr hp)

/-- Once everything is published and acted on, whoever still listens is
the newest. -/
theorem newest_of_settled (h : (machine ι).Reachable s) (hs : s.Settled) (hl : s.Listening i) :
    s.Newest i := by
  by_contra hi
  rcases pending_of_superseded h hl hi with hpend | ⟨j, -, hj⟩ | hunp
  · rcases hl with hp | hp
    · exact hs.1 i (Or.inr hp)
    · exact hs.2 i hp hpend
  · exact hs.1 j hj
  · exact hs.1 i hunp

/-- **Takeover is exact.** The newest connection is never replaced. Every
other one that listens has a change to act on, or some publication that
concerns it is still to come: a newer claimant's, or its own. So once
all claimed generations are published and all wake-ups are over there is
a newest connection, nobody else listens, and it listens itself unless
it ended for a reason of its own. -/
theorem takeover_exact (h : (machine ι).Reachable s) :
    (∀ i, s.Newest i → (s.conn i).phase ≠ .replaced) ∧
    (∀ i, s.Listening i → ¬ s.Newest i →
      s.Pending i ∨ (∃ j, (s.conn i).myGen < (s.conn j).myGen ∧ s.Unpublished j) ∨
        s.Unpublished i) ∧
    (s.Settled → (∃ i, s.Claimed i) → ∃ n, s.Newest n ∧ (∀ i, s.Listening i → i = n) ∧
      ((s.conn n).phase = .serving ∨ (s.conn n).phase = .gone)) := by
  have hg := reachable_generations h
  refine ⟨fun i => not_replaced_of_newest h, fun i => pending_of_superseded h,
    fun hs ⟨i, hi⟩ => ?_⟩
  obtain ⟨n, hn, hngen⟩ := hg.newest (lt_of_lt_of_le (hg.pos i hi) (hg.le i hi))
  have hnew : s.Newest n := (newest_iff hg hn).2 hngen
  refine ⟨n, hnew, fun j hj => ?_, ?_⟩
  · have hjnew := newest_of_settled h hs hj
    exact hg.inj j n hjnew.1 hn (le_antisymm (hnew.2 j hjnew.1) (hjnew.2 n hn))
  · have hrep := not_replaced_of_newest h hnew
    have hunp := hs.1 n
    have hpend := hs.2 n
    cases hp : (s.conn n).phase with
    | idle => exact absurd hp hn
    | claimed => exact absurd (Or.inl hp) hunp
    | subscribed => exact absurd (Or.inr hp) hunp
    | serving => exact Or.inl rfl
    | woken => exact absurd (Or.inr hp) (hpend (Or.inr hp))
    | replaced => exact absurd hp hrep
    | gone => exact Or.inr rfl

/-- Two clients, the second kicking the first: after the first has acted
on the second's publication, and the second on its own, only the second
is left. -/
theorem takeover_exact_two : ∃ s : State (Fin 2), (machine (Fin 2)).Reachable s ∧
    (s.conn 0).phase = .replaced ∧ (s.conn 1).phase = .serving ∧ s.Newest 1 ∧
    (s.conn 1).phase ≠ .replaced := by
  have hr := Machine.reach_of_exec (M := machine (Fin 2))
    [.claim 0, .subscribe 0, .publish 0, .claim 1, .subscribe 1, .publish 1,
      .wake 0, .reread 0, .wake 1, .reread 1] (Machine.Reachable.start rfl) rfl
  have hnew : State.Newest _ (1 : Fin 2) := (newest_iff (reachable_generations hr)
    (by simp [State.Claimed]; decide)).2 rfl
  exact ⟨_, hr, rfl, rfl, hnew, (takeover_exact hr).1 1 hnew⟩

/-- **A superseded connection can be in sight of nothing.** The first
client subscribes only after the second has claimed and published: no
change is unseen to it and every newer claimant has published. Its own
publication is what will wake it. -/
theorem subscribed_after_publish : ∃ s : State (Fin 2), (machine (Fin 2)).Reachable s ∧
    s.Listening 0 ∧ ¬ s.Newest 0 ∧ ¬ s.Pending 0 ∧
    ¬ ∃ j, (s.conn 0).myGen < (s.conn j).myGen ∧ s.Unpublished j := by
  have hr := Machine.reach_of_exec (M := machine (Fin 2))
    [.claim 0, .claim 1, .subscribe 1, .publish 1, .subscribe 0]
    (Machine.Reachable.start rfl) rfl
  refine ⟨_, hr, Or.inl rfl, fun h => ?_, ?_, ?_⟩
  · exact absurd ((newest_iff (reachable_generations hr) h.1).1 h) (by decide)
  · rintro (h | h)
    · exact absurd h (by decide)
    · exact absurd h (by decide)
  · rintro ⟨j, hj, hunp⟩
    have hj1 : j = 1 := by
      fin_cases j
      · exact absurd hj (by decide)
      · rfl
    subst hj1
    rcases hunp with h | h <;> exact absurd h (by decide)

end Takeover

end WaylandWebStream
