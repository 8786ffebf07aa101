import WaylandWebStream.Encoder.Vaapi
import WaylandWebStream.Lib.RoundRobin
import WaylandWebStream.Pipeline.Steps
import Mathlib.Data.List.Forall2

/-!
# Dmabufs — the render targets, and the frames drawn in them

The GL backend draws into two dmabufs in turn, and hands each out as a
frame. Nothing tells it when a frame is done with: up to four wait in the
queue, and the encoder thread has one. `Traced` numbers the draws beside
the pipeline, so that the frames in use are the uses of a round-robin pool
(`RoundRobin.Rounds`), and a draw is safe as long as each frame is
finished before the draw after the next.
-/

namespace WaylandWebStream

namespace Pipeline

open Encoder
open RoundRobin (Rounds)

/-- Size and target pool differ, or there is no pool yet. -/
def Gl.needsRebuild (g : Gl) (size : ℕ × ℕ) : Bool :=
  match g.sized with
  | some s => decide (s.size ≠ size)
  | none => true

/-- The target a render at a size takes. -/
def Gl.target (g : Gl) (size : ℕ × ℕ) : ℕ :=
  (g.ensureSized size).1.targets (g.ensureSized size).1.nextTarget

/-- The frame the render loop has in hand. -/
def Loop.inHand : Loop → List CapturedFrame
  | sending frame => [frame]
  | top | resizing _ _ | requesting | rendering => []

/-- The dmabuf a frame is in. -/
def frameDmabuf : CapturedFrame → Option ℕ
  | .cpu _ => none
  | .gpu dmabuf _ _ => some dmabuf

namespace State

variable {ι ρ E Ω : Type*} (s : State ι ρ E)

/-- The frames accepted, and not yet skipped, drained or encoded. -/
def accepted : List CapturedFrame := if s.thread.isExited then [] else s.inFlight

/-- The frames in use: those, and the one about to be sent. -/
def uses : List CapturedFrame := s.accepted ++ s.loop.inHand

/-- The dmabufs in use. -/
def inUse : List ℕ := s.uses.filterMap frameDmabuf

/-- The size a render captures at. -/
def size : ℕ × ℕ := (s.screen.state.width, s.screen.state.height)

/-- The dmabuf a step draws into. -/
def drawsInto (c : Config) : Action ι ρ Ω → Option ℕ
  | .loop outcome =>
    match c.backend, s.loop, outcome with
    | .gl _, .rendering, .drawn | .gl _, .rendering, .notDrawn _ =>
      some (s.screen.gl.target s.size)
    | _, _, _ => none
  | _ => none

end State

/-- The pipeline, with its draws numbered: the frames in use, each by the
draw it was handed out by. -/
structure Traced (ι ρ E : Type*) where
  state : State ι ρ E
  rounds : Rounds

section Draws

variable {ι ρ E Ω : Type*} (c : Config) (V : VideoEncoder E Ω)

namespace Traced

variable (t : Traced ι ρ E)

/-- The draws, at the moment of a render. -/
def upcoming : Rounds :=
  if t.state.screen.gl.needsRebuild t.state.size then t.rounds.rebuild else t.rounds

/-- What a step leaves in use: a frame is handed out at the end of the
line, the encoder thread finishes with the oldest, and the queue refuses
the newest. -/
def record (a : Action ι ρ Ω) (s' : State ι ρ E) : Traced ι ρ E :=
  let n := s'.uses.length
  match t.state.drawsInto c a, a with
  | some _, .loop .drawn => ⟨s', t.upcoming.draw⟩
  | some _, _ => ⟨s', t.upcoming.pass⟩
  | none, .encoder _ =>
    ⟨s', { t.rounds with uses := t.rounds.uses.drop (t.rounds.uses.length - n) }⟩
  | none, _ => ⟨s', { t.rounds with uses := t.rounds.uses.take n }⟩

end Traced

variable [DecidableEq ι] [DecidableEq ρ]

/-- The pipeline, with its draws numbered, as a machine. -/
def traced : Machine (Traced ι ρ E) (Action ι ρ Ω) where
  init t := Started V t.state ∧ t.rounds = ⟨0, 0, []⟩
  step t a := (t.state.step c V a).map (t.record c a)

/-- **Draws are timely**: when render draws, no frame in use was handed out
before the draw before, at this size. -/
def Timely (t : Traced ι ρ E) (a : Action ι ρ Ω) : Prop :=
  t.state.drawsInto c a ≠ none → t.upcoming.Timely 2

variable {c V} {s s' : State ι ρ E} {t t' : Traced ι ρ E} {a : Action ι ρ Ω}

/-- **Numbering the draws changes nothing**: each run of the pipeline is one
of the traced pipeline. -/
theorem traced_of_reachable (h : (machine ι ρ c V).Reachable s) :
    ∃ t, (traced c V).Reachable t ∧ t.state = s := by
  induction h with
  | start hs => exact ⟨⟨_, ⟨0, 0, []⟩⟩, .start ⟨hs, rfl⟩, rfl⟩
  | next _ _ hstep ih =>
    obtain ⟨t, ht, rfl⟩ := ih
    exact ⟨_, ht.next (Option.map_eq_some_iff.2 ⟨_, hstep, rfl⟩), by
      unfold Traced.record
      split <;> rfl⟩

/-! ## The target pool -/

/-- Each entry of one list has its partner in the other. -/
theorem exists_partner {α β : Type*} {R : α → β → Prop} {l₁ : List α} {l₂ : List β}
    (h : List.Forall₂ R l₁ l₂) : ∀ a ∈ l₁, ∃ b ∈ l₂, R a b := by
  induction h with
  | nil => exact fun a ha => absurd ha List.not_mem_nil
  | cons hab _ ih =>
    intro a ha
    rcases List.mem_cons.1 ha with rfl | ha
    · exact ⟨_, List.mem_cons_self, hab⟩
    · obtain ⟨b, hb, hr⟩ := ih a ha
      exact ⟨b, List.mem_cons_of_mem _ hb, hr⟩

/-- A frame handed out by a draw: of the present pool, in the draw's
target, or of an older one, in a dmabuf allocated before. -/
def HandedOut (allocated : ℕ) (r : Rounds) (frame : CapturedFrame) (k : ℕ) : Prop :=
  ∃ dmabuf width height, frame = .gpu dmabuf width height ∧
    (r.base ≤ k → dmabuf + 2 = allocated + r.slot 2 k) ∧ (k < r.base → dmabuf + 2 < allocated)

/-- **The pool and the frames in use agree with the draws.** -/
structure Pooled (pool : SizedState) (allocated : ℕ) (r : Rounds) (frames : List CapturedFrame) :
    Prop where
  recent : r.Recent 2
  targets : ∀ i, pool.targets i + 2 = allocated + i
  nextTarget : (pool.nextTarget : ℕ) = r.slot 2 r.drawn
  frames : List.Forall₂ (HandedOut allocated r) frames r.uses

namespace Pooled

variable {pool : SizedState} {allocated : ℕ} {r : Rounds} {frames frames' : List CapturedFrame}

/-- The next target is in use exactly when the next draw is not apart. -/
theorem unused_iff_apart (h : Pooled pool allocated r frames) :
    pool.targets pool.nextTarget ∉ frames.filterMap frameDmabuf ↔ r.Apart 2 := by
  have htarget : pool.targets pool.nextTarget + 2 = allocated + r.slot 2 r.drawn := by
    rw [h.targets, h.nextTarget]
  constructor
  · intro hnot k hk hbase hsame
    obtain ⟨frame, hframe, dmabuf, width, height, rfl, hnow, -⟩ :=
      exists_partner h.frames.flip k hk
    have hd := hnow hbase
    have heq : pool.targets pool.nextTarget = dmabuf := by omega
    exact hnot (List.mem_filterMap.2 ⟨_, hframe, congrArg some heq.symm⟩)
  · intro hapart hin
    obtain ⟨frame, hframe, hd⟩ := List.mem_filterMap.1 hin
    obtain ⟨k, hk, dmabuf, width, height, rfl, hnow, hold⟩ :=
      exists_partner h.frames frame hframe
    have heq : dmabuf = pool.targets pool.nextTarget := Option.some.inj hd
    rcases Nat.lt_or_ge k r.base with hlt | hge
    · have hless := hold hlt
      omega
    · have hd := hnow hge
      exact hapart k hk hge (by omega)

/-- The frames in use are dmabufs. -/
theorem gpu (h : Pooled pool allocated r frames) :
    ∀ frame ∈ frames, ∃ dmabuf width height, frame = .gpu dmabuf width height := by
  intro frame hframe
  obtain ⟨k, -, dmabuf, width, height, heq, -⟩ :=
    exists_partner h.frames frame hframe
  exact ⟨dmabuf, width, height, heq⟩

/-- The newest frames are refused. -/
theorem prefix_uses (h : Pooled pool allocated r frames) (hpre : frames' <+: frames) :
    Pooled pool allocated { r with uses := r.uses.take frames'.length } frames' := by
  refine ⟨h.recent.release fun k hk => List.mem_of_mem_take hk, h.targets, h.nextTarget, ?_⟩
  have htake := List.forall₂_take frames'.length h.frames
  rw [← List.prefix_iff_eq_take.1 hpre] at htake
  exact htake

/-- The oldest frames are finished with. -/
theorem suffix_uses (h : Pooled pool allocated r frames) (hsuf : frames' <:+ frames) :
    Pooled pool allocated
      { r with uses := r.uses.drop (r.uses.length - frames'.length) } frames' := by
  refine ⟨h.recent.release fun k hk => List.mem_of_mem_drop hk, h.targets, h.nextTarget, ?_⟩
  have hdrop := List.forall₂_drop (r.uses.length - frames'.length) h.frames
  rw [← h.frames.length_eq, ← List.suffix_iff_eq_drop.1 hsuf] at hdrop
  rw [← h.frames.length_eq]
  exact hdrop

/-- The target after the next. -/
theorem nextTarget_succ (h : Pooled pool allocated r frames) :
    ((pool.nextTarget + 1 : Fin 2) : ℕ) = r.slot 2 (r.drawn + 1) := by
  have hbase := h.recent.base_le
  have hnext := h.nextTarget
  rw [Rounds.slot] at hnext
  rw [Fin.val_add, hnext, Rounds.slot, Nat.sub_add_comm hbase]
  exact (Nat.add_mod _ _ _).symm

/-- A fresh pool has no target in use. -/
theorem rebuild (h : Pooled pool allocated r frames) {g : Gl} {size : ℕ × ℕ}
    (hg : g.allocated = allocated) : Pooled (g.build size) (allocated + 2) r.rebuild frames := by
  refine ⟨h.recent.rebuild, fun i => ?_, ?_, ?_⟩
  · simp only [Gl.build, hg]
    omega
  · simp [Gl.build, Rounds.slot, Rounds.rebuild]
  · obtain ⟨hlength, hall⟩ := List.forall₂_iff_zip.1 h.frames
    refine List.forall₂_iff_zip.2 ⟨hlength, @fun frame k hmem => ?_⟩
    have hlt := h.recent.lt _ (List.of_mem_zip hmem).2
    obtain ⟨dmabuf, width, height, heq, hnow, hold⟩ := hall hmem
    refine ⟨dmabuf, width, height, heq, fun hge => absurd hlt (Nat.not_lt.2 hge), fun _ => ?_⟩
    rcases Nat.lt_or_ge k r.base with hbefore | hafter
    · have hd := hold hbefore
      omega
    · have hd := hnow hafter
      have hslot : r.slot 2 k < 2 := Nat.mod_lt _ (by decide)
      omega

/-- A timely draw takes the next target, and comes to nothing. -/
theorem pass (h : Pooled pool allocated r frames) (htimely : r.Timely 2) :
    Pooled { pool with nextTarget := pool.nextTarget + 1 } allocated r.pass frames :=
  ⟨h.recent.pass htimely, h.targets, h.nextTarget_succ, h.frames⟩

/-- A timely draw takes the next target, and its frame is in use. -/
theorem draw (h : Pooled pool allocated r frames) (htimely : r.Timely 2) {width height : ℕ} :
    Pooled { pool with nextTarget := pool.nextTarget + 1 } allocated r.draw
      (frames ++ [.gpu (pool.targets pool.nextTarget) width height]) := by
  refine ⟨h.recent.draw htimely (by decide), h.targets, h.nextTarget_succ, ?_⟩
  have hnew : HandedOut allocated r.draw (.gpu (pool.targets pool.nextTarget) width height)
      r.drawn := by
    refine ⟨_, _, _, rfl, fun _ => ?_, fun hlt => ?_⟩
    · rw [h.targets, h.nextTarget]
      rfl
    · exact absurd hlt (Nat.not_lt.2 h.recent.base_le)
  exact List.rel_append h.frames (.cons hnew .nil)

end Pooled

namespace Traced

/-- **The frames in use are the uses of the draws.** -/
def Sound (t : Traced ι ρ E) : Prop :=
  match t.state.screen.gl.sized with
  | some pool => Pooled pool t.state.screen.gl.allocated t.rounds t.state.uses
  | none => t.rounds = ⟨0, 0, []⟩ ∧ t.state.uses = []

omit [DecidableEq ι] [DecidableEq ρ] in
/-- And so they are of the pool a render draws from. -/
theorem Sound.upcoming (h : t.Sound) :
    Pooled (t.state.screen.gl.ensureSized t.state.size).1
      (t.state.screen.gl.ensureSized t.state.size).2 t.upcoming t.state.uses := by
  unfold Sound at h
  unfold Traced.upcoming Gl.needsRebuild Gl.ensureSized
  cases hsized : t.state.screen.gl.sized with
  | some pool =>
    simp only [hsized] at h ⊢
    by_cases hsize : pool.size = t.state.size
    · simp only [hsize, ne_eq, not_true_eq_false, decide_false, if_true]
      exact h
    · simp only [hsize, ne_eq, not_false_eq_true, decide_true, if_true, if_false]
      exact h.rebuild rfl
  | none =>
    simp only [hsized] at h ⊢
    obtain ⟨hrounds, huses⟩ := h
    rw [hrounds, huses]
    refine ⟨⟨le_rfl, nofun, nofun⟩, fun i => ?_, rfl, .nil⟩
    simp only [Gl.build]
    omega

omit [DecidableEq ι] [DecidableEq ρ] in
/-- The frames in use are dmabufs. -/
theorem Sound.gpu (h : t.Sound) :
    ∀ frame ∈ t.state.uses, ∃ dmabuf width height, frame = .gpu dmabuf width height := by
  unfold Sound at h
  split at h
  · exact h.gpu
  · rw [h.2]
    exact fun frame hframe => absurd hframe List.not_mem_nil

omit [DecidableEq ι] [DecidableEq ρ] in
/-- The newest frames are refused. -/
theorem Sound.prefix_uses (h : t.Sound) (hgl : s'.screen.gl = t.state.screen.gl)
    (hpre : s'.uses <+: t.state.uses) :
    Sound ⟨s', { t.rounds with uses := t.rounds.uses.take s'.uses.length }⟩ := by
  unfold Sound at h ⊢
  rw [hgl]
  split at h
  · exact h.prefix_uses hpre
  · obtain ⟨hrounds, huses⟩ := h
    rw [huses] at hpre
    rw [hrounds]
    exact ⟨by rw [List.take_nil], List.prefix_nil.1 hpre⟩

omit [DecidableEq ι] [DecidableEq ρ] in
/-- The oldest frames are finished with. -/
theorem Sound.suffix_uses (h : t.Sound) (hgl : s'.screen.gl = t.state.screen.gl)
    (hsuf : s'.uses <:+ t.state.uses) :
    Sound ⟨s', { t.rounds with
      uses := t.rounds.uses.drop (t.rounds.uses.length - s'.uses.length) }⟩ := by
  unfold Sound at h ⊢
  rw [hgl]
  split at h
  · exact h.suffix_uses hsuf
  · obtain ⟨hrounds, huses⟩ := h
    rw [huses] at hsuf
    rw [hrounds]
    exact ⟨by rw [List.drop_nil], List.suffix_nil.1 hsuf⟩

end Traced

/-! ## One step -/

omit [DecidableEq ι] [DecidableEq ρ] in
/-- The encoder thread finishes with the oldest frames. -/
theorem uses_suffix (h : s'.accepted <:+ s.accepted) (hloop : s'.loop = s.loop) :
    s'.uses <:+ s.uses := by
  rw [State.uses, State.uses, hloop]
  exact List.suffix_append_self_iff.2 h

omit [DecidableEq ι] [DecidableEq ρ] in
/-- The queue refuses the newest, or takes it. -/
theorem uses_prefix (h : s'.accepted = s.accepted) (hloop : s'.loop.inHand <+: s.loop.inHand) :
    s'.uses <+: s.uses := by
  rw [State.uses, State.uses, h]
  exact (List.prefix_append_right_inj _).2 hloop

/-- **The encoder thread takes frames from the front**, and does not touch
the pool. -/
theorem Trans.encoder_uses {o : Ω} (h : Trans c V s (.encoder o) s')
    (hgpu : ∀ frame ∈ s.uses, ∃ dmabuf width height, frame = .gpu dmabuf width height) :
    s'.screen.gl = s.screen.gl ∧ s'.uses <:+ s.uses := by
  have hkeep : ∀ {t : State ι ρ E}, t.thread.inHand = s.thread.inHand →
      t.thread.isExited = s.thread.isExited → t.frames = s.frames → t.accepted <:+ s.accepted := by
    intro t hhand hexit hframes
    have hsame : t.accepted = s.accepted := by
      rw [State.accepted, State.accepted, State.inFlight, State.inFlight, hhand, hexit, hframes]
    exact hsame ▸ List.suffix_rfl
  have hline : ∀ {t : State ι ρ E}, s.thread.isExited = false → t.thread.isExited = false →
      t.thread.inHand ++ t.frames <:+ s.thread.inHand ++ s.frames → t.accepted <:+ s.accepted := by
    intro t hexit hexit' hsuffix
    rw [State.accepted, State.accepted, hexit, hexit']
    exact hsuffix
  cases h with
  | control hthread hcontrol =>
    rename_i m rest
    cases m with
    | forceKeyframe => exact ⟨rfl, uses_suffix (hkeep rfl rfl rfl) rfl⟩
    | changeBitrate bitrate => exact ⟨rfl, uses_suffix (hkeep rfl rfl rfl) rfl⟩
  | drained hthread hframes =>
    refine ⟨rfl, uses_suffix (hline (by rw [hthread]; rfl) (by rw [hthread]; rfl) ?_) rfl⟩
    rw [hframes, hthread]
    exact List.suffix_cons _ _
  | received hthread hframes =>
    refine ⟨rfl, uses_suffix (hline (by rw [hthread]; rfl) rfl ?_) rfl⟩
    rw [hframes, hthread]
    exact List.suffix_rfl
  | skipped hthread hframes =>
    rename_i frame newer frames
    refine ⟨rfl, uses_suffix (hline (by rw [hthread]; rfl) rfl ?_) rfl⟩
    -- a dmabuf frame is let go for the newer one whole
    obtain ⟨dmabuf, width, height, rfl⟩ := hgpu frame (by
      rw [State.uses, State.accepted, hthread, State.inFlight, hthread]
      exact List.mem_cons_self)
    rw [hframes, hthread]
    exact List.suffix_cons _ _
  | failed hthread => exact ⟨rfl, uses_suffix (List.nil_suffix) rfl⟩
  | submitted hthread hsubmit =>
    refine ⟨rfl, uses_suffix (hline (by rw [hthread]; rfl) rfl ?_) rfl⟩
    rw [hthread]
    exact List.suffix_cons _ _
  | controlled hthread | resized hthread | notResized hthread | reinitialized hthread
  | newest hthread | matched hthread | rebuilt hthread | controlledAgain hthread =>
    exact ⟨rfl, uses_suffix (hkeep (by rw [hthread]; rfl) (by rw [hthread]; rfl) rfl) rfl⟩

/-- **No other step takes a frame**, and but for a draw none touches the
pool. -/
theorem Trans.other_uses (h : Trans c V s a s') (hgl : c.backend = .gl true)
    (ha : ∀ o, a ≠ .encoder o) (hdraw : s.drawsInto c a = none) :
    s'.screen.gl = s.screen.gl ∧ s'.uses <+: s.uses := by
  have hkeep : ∀ {t : State ι ρ E}, t.thread = s.thread → t.frames = s.frames →
      t.accepted = s.accepted := by
    intro t hthread hframes
    rw [State.accepted, State.accepted, State.inFlight, State.inFlight, hthread, hframes]
  have hnothing : ∀ {t : State ι ρ E}, t.loop.inHand = [] →
      t.loop.inHand <+: s.loop.inHand := by
    intro t hloop
    rw [hloop]
    exact List.nil_prefix
  -- a render that draws nothing had no pool to draw from
  have hnotSized : ∀ {o : RenderOutcome}, s.loop = .rendering →
      s.drawsInto c (.loop o : Action ι ρ Ω) = none → s.screen.render c o = (none, s.screen) := by
    intro o hloop ho
    cases o with
    | notSized =>
      rw [Screen.render, hgl]
    | drawn | notDrawn left => simp [State.drawsInto, hgl, hloop] at ho
  cases h with
  | tickWork htop hwork hnext =>
    refine ⟨rfl, uses_prefix (hkeep rfl rfl) (hnothing ?_)⟩
    rcases hnext with rfl | rfl
    · rfl
    · rfl
  | rendered hloop hrender =>
    rw [hnotSized hloop hdraw] at hrender
    cases hrender
  | notRendered hloop hrender =>
    rw [hnotSized hloop hdraw] at hrender
    cases hrender
    exact ⟨rfl, uses_prefix (hkeep rfl rfl) (hnothing rfl)⟩
  | accepted hloop hexit hroom =>
    -- the frame in hand is now the last of the queue
    refine ⟨rfl, ?_⟩
    rw [State.uses, State.uses, State.accepted, State.accepted, State.inFlight, State.inFlight,
      hexit, hloop]
    simp [Loop.inHand]
  | refusedCpu hloop hexit hfull =>
    refine ⟨?_, uses_prefix (hkeep rfl rfl) (hnothing rfl)⟩
    rename_i raw
    obtain ⟨damage, hscreen, -⟩ := s.screen.readdDamage_eq raw.damage
    show (s.screen.readdDamage raw.damage).gl = s.screen.gl
    rw [hscreen]
  | tickIdle htop | resize htop | told htop | requested htop | closed htop | refusedGpu htop =>
    exact ⟨rfl, uses_prefix (hkeep rfl rfl) (hnothing rfl)⟩
  | client htop | store hr | send hr | changeBitrate =>
    exact ⟨rfl, uses_prefix (hkeep rfl rfl) List.prefix_rfl⟩
  | _ => exact absurd rfl (ha _)

/-- **A draw takes the next target**, and its frame is in the loop's hand or
comes to nothing. -/
theorem step_draw (hgl : c.backend = .gl true) (h : s.step c V a = some s')
    (hdraw : s.drawsInto c a ≠ none) :
    s'.screen.gl.sized = some { (s.screen.gl.ensureSized s.size).1 with
        nextTarget := (s.screen.gl.ensureSized s.size).1.nextTarget + 1 } ∧
      s'.screen.gl.allocated = (s.screen.gl.ensureSized s.size).2 ∧
      (a = .loop .drawn ∧
          s'.uses = s.uses ++ [.gpu (s.screen.gl.target s.size) s.size.1 s.size.2] ∨
        (∃ left, a = .loop (.notDrawn left)) ∧ s'.uses = s.uses) := by
  cases a with
  | loop o =>
    have hloop : s.loop = .rendering := by
      cases hloop : s.loop with
      | rendering => rfl
      | _ => simp [State.drawsInto, hgl, hloop] at hdraw
    have huses : s.uses = s.accepted := by
      rw [State.uses, hloop]
      exact List.append_nil _
    simp only [State.step, State.stepLoop, hloop, Screen.render, hgl] at h
    cases o with
    | notSized => simp [State.drawsInto, hgl, hloop] at hdraw
    | drawn =>
      cases h
      refine ⟨rfl, rfl, Or.inl ⟨rfl, ?_⟩⟩
      rw [huses]
      rfl
    | notDrawn left =>
      cases h
      refine ⟨rfl, rfl, Or.inr ⟨⟨left, rfl⟩, ?_⟩⟩
      rw [huses]
      exact List.append_nil _
  | _ => exact absurd rfl hdraw

namespace Traced

/-- **A timely step keeps the frames in use and the draws in agreement.** -/
theorem Sound.step (h : t.Sound) (hgl : c.backend = .gl true) (hok : Timely c t a)
    (hstep : (traced c V).step t a = some t') : t'.Sound := by
  obtain ⟨s', hs, rfl⟩ := Option.map_eq_some_iff.1 hstep
  by_cases hdraw : t.state.drawsInto c a = none
  · -- without a draw, the encoder drops uses at the old end and the loop at the new one
    by_cases hencoder : ∃ o, a = .encoder o
    · obtain ⟨o, rfl⟩ := hencoder
      obtain ⟨hgl', hsuf⟩ := (trans_of_step hs).encoder_uses h.gpu
      exact h.suffix_uses hgl' hsuf
    · have ha : ∀ o, a ≠ .encoder o := fun o ho => hencoder ⟨o, ho⟩
      obtain ⟨hgl', hpre⟩ := (trans_of_step hs).other_uses hgl ha hdraw
      have hrecord : t.record c a s' =
          ⟨s', { t.rounds with uses := t.rounds.uses.take s'.uses.length }⟩ := by
        unfold record
        rw [hdraw]
        cases a with
        | encoder o => exact absurd rfl (ha o)
        | _ => rfl
      rw [hrecord]
      exact h.prefix_uses hgl' hpre
  · obtain ⟨hsized, hallocated, hwhat⟩ := step_draw hgl hs hdraw
    obtain ⟨target, htarget⟩ := Option.ne_none_iff_exists'.1 hdraw
    have htimely := hok hdraw
    rcases hwhat with ⟨rfl, huses⟩ | ⟨⟨left, rfl⟩, huses⟩
    · have hrecord : t.record c (.loop .drawn : Action ι ρ Ω) s' = ⟨s', t.upcoming.draw⟩ := by
        unfold record
        rw [htarget]
      rw [hrecord, Sound]
      dsimp only
      rw [hsized, hallocated, huses]
      exact h.upcoming.draw htimely
    · have hrecord :
          t.record c (.loop (.notDrawn left) : Action ι ρ Ω) s' = ⟨s', t.upcoming.pass⟩ := by
        unfold record
        rw [htarget]
      rw [hrecord, Sound]
      dsimp only
      rw [hsized, hallocated, huses]
      exact h.upcoming.pass htimely

end Traced

/-! ## Whole runs -/

/-- As long as draws are timely, the frames in use are the uses of the
draws. -/
theorem sound_of_reach (hgl : c.backend = .gl true) (h : (traced c V).Reach (Timely c) t) :
    t.Sound := by
  refine Machine.Reach.invariant (fun t ht => ?_) (fun t a t' hok hstep ht => ?_) h
  · obtain ⟨hstart, hrounds⟩ := ht
    unfold Traced.Sound
    rw [hstart.gl]
    refine ⟨hrounds, ?_⟩
    rw [State.uses, State.accepted, State.inFlight, hstart.thread, hstart.frames, hstart.loop]
    rfl
  · exact ht.step hgl hok hstep

/-- **Dmabufs in use are kept exactly as long as draws are timely**: after
any run whose draws were timely, the next draw goes into a dmabuf that is
not in use if and only if it is timely too. -/
theorem undisturbed_iff_timely (hgl : c.backend = .gl true)
    (h : (traced c V).Reach (Timely c) t) :
    ∀ (a : Action ι ρ Ω) (target : ℕ), t.state.drawsInto c a = some target →
      (target ∉ t.state.inUse ↔ Timely c t a) := by
  intro a target hdraw
  have hpooled := (sound_of_reach hgl h).upcoming
  have htarget : t.state.screen.gl.target t.state.size = target := by
    unfold State.drawsInto at hdraw
    split at hdraw
    · split at hdraw
      · exact Option.some.inj hdraw
      · exact Option.some.inj hdraw
      · cases hdraw
    · cases hdraw
  have hunused := hpooled.unused_iff_apart.trans hpooled.recent.apart_iff_timely
  rw [← htarget]
  constructor
  · intro hnot _
    exact hunused.1 hnot
  · intro htimely
    exact hunused.2 (htimely (by rw [hdraw]; exact Option.some_ne_none _))

end Draws

/-! ## A small output -/

/-- A pipeline of dmabuf frames, for fixed runs. -/
def someGpuConfig : Config := ⟨.gl true, fun _ _ _ => [], 60⟩

/-- An encoder of dmabuf frames, for fixed runs. -/
def someVaapi : VaapiEncoder := VaapiEncoder.new ⟨2, 4, .bitrate 1000⟩ true

theorem someVaapi_started : Started vaapi (start 2 4 someVaapi : State Unit Bool VaapiEncoder) :=
  started_start _ (by decide) (by decide) ⟨_, _, rfl⟩

/-- With the first frame in the queue, the second goes into the other
dmabuf. -/
theorem undisturbed_iff_timely_second : ∃ t : Traced Unit Bool VaapiEncoder,
    t.state.inUse = [0] ∧
      t.state.drawsInto someGpuConfig (.loop .drawn : Action Unit Bool Vaapi) = some 1 ∧
      (1 ∉ t.state.inUse ↔ Timely someGpuConfig t (.loop .drawn : Action Unit Bool Vaapi)) := by
  have hrun : ∃ t : Traced Unit Bool VaapiEncoder,
      (traced someGpuConfig vaapi).Run (Timely someGpuConfig) ⟨start 2 4 someVaapi, ⟨0, 0, []⟩⟩
        [.tick, .loop .drawn, .loop .drawn, .store false, .tick] t ∧
      t.state.inUse = [0] ∧
      t.state.drawsInto someGpuConfig (.loop .drawn : Action Unit Bool Vaapi) = some 1 := by
    refine ⟨_, ⟨fun h => absurd rfl h, _, rfl, fun _ => nofun, _, rfl, fun h => absurd rfl h, _,
      rfl, fun h => absurd rfl h, _, rfl, fun h => absurd rfl h, _, rfl, rfl⟩, rfl, rfl⟩
  obtain ⟨t, hrun, huse, hdraw⟩ := hrun
  have hinit : (traced someGpuConfig vaapi).init ⟨start 2 4 someVaapi, ⟨0, 0, []⟩⟩ :=
    ⟨someVaapi_started, rfl⟩
  have hr := Machine.Reach.run _ (.start hinit) hrun
  exact ⟨t, huse, hdraw, undisturbed_iff_timely rfl hr _ _ hdraw⟩

/-- The encoder thread is about to encode the first frame while two more
are captured: the third is drawn over it. -/
theorem encoding_frame_drawn_over : ¬ ∀ (s : State Unit Bool VaapiEncoder)
    (a : Action Unit Bool Vaapi) (target : ℕ), (machine Unit Bool someGpuConfig vaapi).Reachable s →
      s.drawsInto someGpuConfig a = some target → target ∉ s.inUse := by
  intro h
  have hrun : ∃ s : State Unit Bool VaapiEncoder,
      (machine Unit Bool someGpuConfig vaapi).exec (start 2 4 someVaapi)
        [.tick, .loop .drawn, .loop .drawn, .encoder {}, .encoder {}, .encoder {}, .encoder {},
          .encoder {}, .encoder {}, .store false, .tick, .loop .drawn, .loop .drawn,
          .store true, .tick] = some s ∧
      s.thread = .submitting (.gpu 0 2 4) ∧ s.inUse = [0, 1] ∧
      s.drawsInto someGpuConfig (.loop .drawn : Action Unit Bool Vaapi) = some 0 :=
    ⟨_, rfl, rfl, rfl, rfl⟩
  obtain ⟨s, hrun, -, huse, hdraw⟩ := hrun
  have hr := Machine.reach_of_exec _ (Machine.Reachable.start someVaapi_started) hrun
  exact h s _ 0 hr hdraw (huse ▸ List.mem_cons_self)

end Pipeline

end WaylandWebStream
