import Mathlib.Logic.Relation
import Mathlib.Data.List.Basic

/-!
# Guarded machines — runs and their invariants

A machine is an executable step function over labelled actions; a
nondeterministic system is the machine whose labels carry the choices.
`Reach` is reachability along the steps a side condition admits, so that
one relation serves both the whole system (`Reachable`, nothing
excluded) and the runs a conditional guarantee speaks of. The induction
over runs is done once, in `Reach.invariant`; `exec` runs a concrete
schedule, and `reach_of_exec` makes what it computes a reachable state.
-/

namespace WaylandWebStream

/-! ## Histories, one entry longer -/

section Histories

variable {α : Type*} {l before after : List α} {e x : α}

/-- Where an entry stands in a history: it is the last, or stands in the
history before. -/
theorem concat_eq_append_cons : l ++ [e] = before ++ x :: after ↔
    (after = [] ∧ l = before ∧ e = x) ∨
      ∃ init, after = init ++ [e] ∧ l = before ++ x :: init := by
  constructor
  · intro h
    rcases List.eq_nil_or_concat' after with rfl | ⟨init, y, rfl⟩
    · obtain ⟨hl, he⟩ := List.append_inj' h rfl
      exact .inl ⟨rfl, hl, List.singleton_inj.1 he⟩
    · rw [← List.cons_append, ← List.append_assoc] at h
      obtain ⟨hl, he⟩ := List.append_inj' h rfl
      exact .inr ⟨init, by rw [List.singleton_inj.1 he], hl⟩
  · rintro (⟨rfl, rfl, rfl⟩ | ⟨init, rfl, rfl⟩)
    · rfl
    · simp

/-- **What is said of every entry and those before it**, of a history one
entry longer. -/
theorem forall_split_concat {P : List α → α → Prop} :
    (∀ before x after, l ++ [e] = before ++ x :: after → P before x) ↔
      (∀ before x after, l = before ++ x :: after → P before x) ∧ P l e := by
  constructor
  · intro h
    exact ⟨fun before x after hsplit => h before x (after ++ [e]) (by simp [hsplit]),
      h l e [] rfl⟩
  · rintro ⟨h, hlast⟩ before x after hsplit
    rcases concat_eq_append_cons.1 hsplit with ⟨-, rfl, rfl⟩ | ⟨init, -, hinit⟩
    · exact hlast
    · exact h before x init hinit

end Histories

/-! ## Machines -/

/-- **A machine**: the states a run may start in, and what an action does
to a state, `none` where the action is not enabled. -/
structure Machine (σ : Type*) (α : Type*) where
  /-- The states a run may start in. -/
  init : σ → Prop
  /-- The state an enabled action leads to. -/
  step : σ → α → Option σ

namespace Machine

variable {σ α : Type*} (M : Machine σ α)

/-- **The states a run reaches when every step meets `ok`.** -/
inductive Reach (ok : σ → α → Prop) : σ → Prop
  /-- A run starts somewhere. -/
  | start {s : σ} : M.init s → Reach ok s
  /-- And goes on by an enabled action the side condition admits. -/
  | next {s s' : σ} {a : α} : Reach ok s → ok s a → M.step s a = some s' → Reach ok s'

/-- The states some run reaches, no step excluded. -/
def Reachable (s : σ) : Prop := M.Reach (fun _ _ => True) s

variable {M} {ok ok' : σ → α → Prop} {P Q : σ → Prop} {s s' : σ} {a : α}

/-- A weaker side condition reaches at least as much. -/
theorem Reach.mono (h : M.Reach ok s) (hok : ∀ s a, ok s a → ok' s a) : M.Reach ok' s := by
  induction h with
  | start hs => exact .start hs
  | next _ ha hstep ih => exact .next ih (hok _ _ ha) hstep

theorem Reach.reachable (h : M.Reach ok s) : M.Reachable s :=
  h.mono fun _ _ _ => trivial

theorem Reachable.start (h : M.init s) : M.Reachable s := Reach.start h

theorem Reachable.next (h : M.Reachable s) (hstep : M.step s a = some s') : M.Reachable s' :=
  Reach.next h trivial hstep

/-- **The invariant rule.** What holds at the start and is kept by every
admitted step holds of every state reached. -/
theorem Reach.invariant (hinit : ∀ s, M.init s → P s)
    (hstep : ∀ s a s', ok s a → M.step s a = some s' → P s → P s') (h : M.Reach ok s) : P s := by
  induction h with
  | start hs => exact hinit _ hs
  | next _ ha hs ih => exact hstep _ _ _ ha hs ih

/-- The invariant rule relative to an invariant already established. -/
theorem Reach.invariant_of (hQ : ∀ s, M.Reach ok s → Q s) (hinit : ∀ s, M.init s → P s)
    (hstep : ∀ s a s', Q s → Q s' → ok s a → M.step s a = some s' → P s → P s')
    (h : M.Reach ok s) : P s := by
  induction h with
  | start hs => exact hinit _ hs
  | next hr ha hs ih => exact hstep _ _ _ (hQ _ hr) (hQ _ (.next hr ha hs)) ha hs ih

/-- The invariant rule over all runs. -/
theorem Reachable.invariant (hinit : ∀ s, M.init s → P s)
    (hstep : ∀ s a s', M.step s a = some s' → P s → P s') (h : M.Reachable s) : P s :=
  Reach.invariant hinit (fun s a s' _ => hstep s a s') h

variable (M) in
/-- Runs a schedule, `none` as soon as one of its actions is not enabled. -/
def exec (s : σ) (acts : List α) : Option σ := acts.foldlM M.step s

@[simp] theorem exec_nil : M.exec s [] = some s := rfl

@[simp] theorem exec_cons (acts : List α) :
    M.exec s (a :: acts) = (M.step s a).bind fun t => M.exec t acts := by
  simp [exec, List.foldlM_cons]

/-- A schedule in two parts. -/
theorem exec_append (acts acts' : List α) :
    M.exec s (acts ++ acts') = (M.exec s acts).bind fun t => M.exec t acts' := by
  simp [exec, List.foldlM_append]

/-- **What a schedule computes is reachable.** -/
theorem reach_of_exec (acts : List α) (hs : M.Reachable s) (h : M.exec s acts = some s') :
    M.Reachable s' := by
  induction acts generalizing s with
  | nil => cases h; exact hs
  | cons a acts ih =>
    rw [exec_cons, Option.bind_eq_some_iff] at h
    obtain ⟨t, ht, h⟩ := h
    exact ih (hs.next ht) h

variable (M) in
/-- A schedule from one state to another whose every step `ok` admits. -/
def Run (ok : σ → α → Prop) : σ → List α → σ → Prop
  | s, [], s' => s = s'
  | s, a :: acts, s' => ok s a ∧ ∃ t, M.step s a = some t ∧ Run ok t acts s'

/-- A concrete run can be checked. -/
instance Run.decidable [DecidableEq σ] [∀ s a, Decidable (ok s a)] :
    ∀ s acts s', Decidable (M.Run ok s acts s')
  | s, [], s' => inferInstanceAs (Decidable (s = s'))
  | s, a :: acts, s' =>
    match h : M.step s a with
    | some t =>
      have := Run.decidable t acts s'
      decidable_of_iff (ok s a ∧ M.Run ok t acts s')
        ⟨fun hrun => ⟨hrun.1, t, h, hrun.2⟩, fun ⟨hok, _, ht, hrun⟩ =>
          ⟨hok, Option.some.inj (h.symm.trans ht) ▸ hrun⟩⟩
    | none => .isFalse fun ⟨_, _, ht, _⟩ => nomatch h.symm.trans ht

/-- A weaker side condition admits at least as much. -/
theorem Run.mono {acts : List α} (h : M.Run ok s acts s') (hok : ∀ s a, ok s a → ok' s a) :
    M.Run ok' s acts s' := by
  induction acts generalizing s with
  | nil => exact h
  | cons a acts ih =>
    obtain ⟨ha, t, ht, h⟩ := h
    exact ⟨hok _ _ ha, t, ht, ih h⟩

/-- One schedule after another. -/
theorem Run.append {t : σ} {acts acts' : List α} (h : M.Run ok s acts t)
    (h' : M.Run ok t acts' s') : M.Run ok s (acts ++ acts') s' := by
  induction acts generalizing s with
  | nil =>
    obtain rfl : s = t := h
    exact h'
  | cons a acts ih =>
    obtain ⟨hok, u, hu, h⟩ := h
    exact ⟨hok, u, hu, ih h⟩

/-- **A property each admitted step keeps, and no other**, holds after a
schedule exactly when it did before and every step was admitted. -/
theorem iff_run {acts : List α} (hQ : ∀ s a s', Q s → M.step s a = some s' → Q s')
    (hstep : ∀ s a s', Q s → M.step s a = some s' → (P s' ↔ ok s a ∧ P s)) (hs : Q s)
    (hexec : M.exec s acts = some s') : P s' ↔ P s ∧ M.Run ok s acts s' := by
  induction acts generalizing s with
  | nil =>
    obtain rfl := Option.some.inj hexec
    exact ⟨fun h => ⟨h, rfl⟩, And.left⟩
  | cons a acts ih =>
    rw [exec_cons, Option.bind_eq_some_iff] at hexec
    obtain ⟨t, ht, hexec⟩ := hexec
    rw [ih (hQ s a t hs ht) hexec, hstep s a t hs ht]
    constructor
    · rintro ⟨⟨hok, hP⟩, hrun⟩
      exact ⟨hP, hok, t, ht, hrun⟩
    · rintro ⟨hP, hok, t', ht', hrun⟩
      rw [ht] at ht'
      obtain rfl := Option.some.inj ht'
      exact ⟨⟨hok, hP⟩, hrun⟩

variable (M) in
/-- A property of every state a schedule goes through. -/
def Throughout (P : σ → Prop) (s : σ) (acts : List α) : Prop :=
  ∀ before t, before <+: acts → M.exec s before = some t → P t

theorem throughout_cons {acts : List α} :
    M.Throughout P s (a :: acts) ↔ P s ∧ ∀ t, M.step s a = some t → M.Throughout P t acts := by
  constructor
  · intro h
    refine ⟨h [] s List.nil_prefix rfl, fun t ht before t' hbefore ht' => ?_⟩
    refine h (a :: before) t' ((List.prefix_cons_inj a).2 hbefore) ?_
    rw [exec_cons, ht]
    exact ht'
  · rintro ⟨hs, h⟩ before t' hbefore ht'
    rcases List.prefix_cons_iff.1 hbefore with rfl | ⟨rest, rfl, hrest⟩
    · obtain rfl := Option.some.inj ht'
      exact hs
    · rw [exec_cons, Option.bind_eq_some_iff] at ht'
      obtain ⟨t, ht, ht'⟩ := ht'
      exact h t ht rest t' hrest ht'

/-- **A property the admitted steps keep, and the others break**, holds
throughout a schedule exactly when every step was admitted; what else is
known of the states may rest on the property. -/
theorem throughout_iff_run {acts : List α}
    (hQ : ∀ s a s', Q s → P s → M.step s a = some s' → P s' → Q s')
    (hstep : ∀ s a s', Q s → P s → M.step s a = some s' → (P s' ↔ ok s a)) (hs : Q s)
    (hP : P s) (hexec : M.exec s acts = some s') :
    M.Throughout P s acts ↔ M.Run ok s acts s' := by
  induction acts generalizing s with
  | nil =>
    obtain rfl := Option.some.inj hexec
    refine ⟨fun _ => rfl, fun _ before t hbefore ht => ?_⟩
    rw [List.prefix_nil.1 hbefore] at ht
    obtain rfl := Option.some.inj ht
    exact hP
  | cons a acts ih =>
    rw [exec_cons, Option.bind_eq_some_iff] at hexec
    obtain ⟨t, ht, hexec⟩ := hexec
    have hok := hstep s a t hs hP ht
    have hrest := fun hPt => ih (hQ s a t hs hP ht hPt) hPt hexec
    rw [throughout_cons]
    constructor
    · rintro ⟨-, h⟩
      have hPt : P t := h t ht [] t List.nil_prefix rfl
      exact ⟨hok.1 hPt, t, ht, (hrest hPt).1 (h t ht)⟩
    · rintro ⟨hadmitted, t', ht', hrun⟩
      refine ⟨hP, fun t'' ht'' => ?_⟩
      obtain rfl : t = t' := Option.some.inj (ht.symm.trans ht')
      obtain rfl : t = t'' := Option.some.inj (ht.symm.trans ht'')
      exact (hrest (hok.2 hadmitted)).2 hrun

/-- **A property that sums up another**: each step adds what the other
says of the state it leads to. -/
theorem iff_throughout {R : σ → Prop} {acts : List α}
    (hQ : ∀ s a s', Q s → M.step s a = some s' → Q s')
    (hstep : ∀ s a s', Q s → M.step s a = some s' → (P s' ↔ P s ∧ R s')) (hs : Q s)
    (hR : P s → R s) (hexec : M.exec s acts = some s') : P s' ↔ P s ∧ M.Throughout R s acts := by
  induction acts generalizing s with
  | nil =>
    obtain rfl := Option.some.inj hexec
    refine ⟨fun h => ⟨h, fun before t hbefore ht => ?_⟩, And.left⟩
    rw [List.prefix_nil.1 hbefore] at ht
    obtain rfl := Option.some.inj ht
    exact hR h
  | cons a acts ih =>
    rw [exec_cons, Option.bind_eq_some_iff] at hexec
    obtain ⟨t, ht, hexec⟩ := hexec
    have hadd := hstep s a t hs ht
    rw [ih (hQ s a t hs ht) (fun hP => (hadd.1 hP).2) hexec, hadd, throughout_cons]
    constructor
    · rintro ⟨⟨hP, -⟩, hrest⟩
      refine ⟨hP, hR hP, fun t' ht' => ?_⟩
      obtain rfl := Option.some.inj (ht.symm.trans ht')
      exact hrest
    · rintro ⟨hP, -, hrest⟩
      exact ⟨⟨hP, hrest t ht [] t List.nil_prefix rfl⟩, hrest t ht⟩

variable (M) in
/-- The machine that does only what is admitted. -/
def guarded (ok : σ → α → Prop) [∀ s a, Decidable (ok s a)] : Machine σ α where
  init := M.init
  step s a := if ok s a then M.step s a else none

/-- **What a guarded schedule computes is reached by admitted steps.** -/
theorem Reach.exec_guarded [∀ s a, Decidable (ok s a)] (acts : List α) (hs : M.Reach ok s)
    (h : (M.guarded ok).exec s acts = some s') : M.Reach ok s' := by
  induction acts generalizing s with
  | nil => cases h; exact hs
  | cons a acts ih =>
    rw [exec_cons, Option.bind_eq_some_iff] at h
    obtain ⟨t, ht, h⟩ := h
    obtain ⟨hok, hstep⟩ := Option.ite_none_right_eq_some.1 ht
    exact ih (hs.next hok hstep) h

theorem Reach.run (acts : List α) (hs : M.Reach ok s) (h : M.Run ok s acts s') : M.Reach ok s' := by
  induction acts generalizing s with
  | nil => cases h; exact hs
  | cons a acts ih =>
    obtain ⟨hok, t, ht, h⟩ := h
    exact ih (hs.next hok ht) h

end Machine

end WaylandWebStream
