import WaylandWebStream.Lib.Machine

/-!
# Machines that keep a log

What the steps of a machine let others see, kept in the order of the
steps. A log changes nothing of the runs: a logged run is a run
(`Reach.unlogged`), and every run has its log (`Reach.logged`).
-/

namespace WaylandWebStream

namespace Machine

variable {σ α ε : Type*}

/-- **A machine with a log** of what its steps emit. -/
def logged (M : Machine σ α) (emit : σ → α → σ → List ε) : Machine (σ × List ε) α where
  init p := M.init p.1 ∧ p.2 = []
  step p a := (M.step p.1 a).map fun s' => (s', p.2 ++ emit p.1 a s')

variable {M : Machine σ α} {emit : σ → α → σ → List ε} {ok : σ → α → Prop} {s : σ} {a : α}
  {p p' : σ × List ε} {P : σ × List ε → Prop}

theorem step_logged : (M.logged emit).step p a = some p' ↔
    M.step p.1 a = some p'.1 ∧ p'.2 = p.2 ++ emit p.1 a p'.1 := by
  rw [logged, Option.map_eq_some_iff]
  constructor
  · rintro ⟨s', hs', rfl⟩
    exact ⟨hs', rfl⟩
  · rintro ⟨hstep, hlog⟩
    exact ⟨p'.1, hstep, Prod.ext rfl hlog.symm⟩

/-- A logged run is a run. -/
theorem Reach.unlogged (h : (M.logged emit).Reach (fun p a => ok p.1 a) p) : M.Reach ok p.1 := by
  induction h with
  | start hp => exact .start hp.1
  | next _ hok hstep ih => exact .next ih hok (step_logged.1 hstep).1

/-- Every run has its log. -/
theorem Reach.logged (h : M.Reach ok s) :
    ∃ log, (M.logged emit).Reach (fun p a => ok p.1 a) (s, log) := by
  induction h with
  | start hs => exact ⟨[], .start ⟨hs, rfl⟩⟩
  | @next s s' a _ hok hstep ih =>
    obtain ⟨log, hlog⟩ := ih
    have hnext : (M.logged emit).step (s, log) a = some (s', log ++ emit s a s') :=
      step_logged.2 ⟨hstep, rfl⟩
    exact ⟨_, .next hlog hok hnext⟩

/-- **The invariant rule of a logged machine**: the machine's own
invariant is at hand on both sides of a step. -/
theorem Reach.logged_invariant {Q : σ → Prop} (hQ : ∀ s, M.Reach ok s → Q s)
    (hinit : ∀ s, M.init s → P (s, []))
    (hstep : ∀ s log a s', Q s → Q s' → ok s a → M.step s a = some s' → P (s, log) →
      P (s', log ++ emit s a s'))
    (h : (M.logged emit).Reach (fun p a => ok p.1 a) p) : P p := by
  induction h with
  | @start p hp =>
    obtain ⟨s, log⟩ := p
    obtain ⟨hs, rfl⟩ := hp
    exact hinit s hs
  | @next p p' a hp hok hstep' ih =>
    obtain ⟨s', log'⟩ := p'
    obtain ⟨hs', hlog⟩ := step_logged.1 hstep'
    dsimp only at hs' hlog
    subst hlog
    exact hstep p.1 p.2 a s' (hQ _ hp.unlogged) (hQ _ (hp.unlogged.next hok hs')) hok hs' ih

end Machine

end WaylandWebStream
