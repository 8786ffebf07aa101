import WaylandWebStream.Client.Pipelines

/-!
# The stream in the worker — the same as on the main thread

In whatever order page, worker, socket and user take their turns, the page
is in one of four situations (`Stands`): it probes, or it has a stream on
the main thread, or one in the worker, or it is left and has neither. In
the worker the stream has reacted to the first of the calls and the rest
are in the inbox; what it said is delivered or in the outbox.
-/

namespace WaylandWebStream

namespace Stage

open Client (Phase VideoPipeline)

variable {σ κ ε ο : Type*} {R : Reactor σ (Input κ ε) ο} {s s' : State σ κ ε ο}
  {w : Worker σ κ ο} {a : Action κ ε}

/-! ## The four situations -/

/-- The calls a stream reacted to. -/
def callsOf (history : List (Input κ ε)) : List κ := history.filterMap Input.call?

/-- What messages of the worker report. -/
def reportsOf (messages : List (WorkerToMain ο)) : List ο :=
  messages.filterMap WorkerToMain.report?

/-- **The page probes.** Nothing has come and nothing is drawn. -/
structure Probing (s : State σ κ ε ο) : Prop where
  probing : s.probing = true
  offscreen : s.offscreen = false
  pipeline : s.pipeline = none
  stream : s.stream = none
  calls : s.calls = []
  history : s.history = []
  delivered : s.delivered = []
  worker : ∃ w, s.worker = some w ∧ w.stream = none ∧
    (w.inbox = [.probe] ∧ w.outbox = [] ∨ w.inbox = [] ∧ w.outbox = [.webglProbe w.webgl])
  phase : s.disposed = false ∧ s.phase = .idle ∨
    s.disposed = true ∧ s.phase = .closed ∧ s.closedByCaller = true

variable (R) in
/-- **The stream is on the main thread.** -/
structure OnMain (s : State σ κ ε ο) : Prop where
  probing : s.probing = false
  disposed : s.disposed = false
  offscreen : s.offscreen = false
  pipeline : s.pipeline = some .main
  worker : s.worker = none
  phase : s.phase ≠ .idle
  stream : s.stream = some (R.run s.history).1
  calls : callsOf s.history = s.calls
  delivered : (R.run s.history).2 = s.delivered

variable (R) in
/-- A worker that is behind with the calls: it has not started its stream,
or has reacted to the first of them. -/
def Behind (calls : List κ) (history : List (Input κ ε)) (delivered : List ο)
    (w : Worker σ κ ο) : Prop :=
  (w.inbox = .init :: calls.map .call ∧ w.stream = none ∧ w.outbox = [] ∧ history = [] ∧
    delivered = []) ∨
  ∃ pending, w.inbox = pending.map .call ∧ w.stream = some (R.run history).1 ∧
    callsOf history ++ pending = calls ∧ (R.run history).2 = delivered ++ reportsOf w.outbox

variable (R) in
/-- **The stream is in the worker.** -/
structure OnWorker (s : State σ κ ε ο) : Prop where
  probing : s.probing = false
  disposed : s.disposed = false
  offscreen : s.offscreen = true
  pipeline : s.pipeline = some .worker
  stream : s.stream = none
  phase : s.phase ≠ .idle
  worker : ∃ w, s.worker = some w ∧ Behind R s.calls s.history s.delivered w

variable (R) in
/-- **The page is left.** -/
structure Gone (s : State σ κ ε ο) : Prop where
  probing : s.probing = false
  disposed : s.disposed = true
  pipeline : s.pipeline = none
  stream : s.stream = none
  worker : s.worker = none
  phase : s.phase = .closed
  closedByCaller : s.closedByCaller = true
  calls : callsOf s.history <+: s.calls
  delivered : s.delivered <+: (R.run s.history).2

variable (R) in
/-- Where the page stands. -/
def Stands (s : State σ κ ε ο) : Prop := Probing s ∨ OnMain R s ∨ OnWorker R s ∨ Gone R s

/-! ## Steps -/

@[simp] theorem callsOf_nil : callsOf ([] : List (Input κ ε)) = [] := rfl

@[simp] theorem callsOf_concat_call (history : List (Input κ ε)) (c : κ) (e : ε) :
    callsOf (history ++ [.call c e]) = callsOf history ++ [c] := by
  simp [callsOf, Input.call?]

@[simp] theorem callsOf_concat_own (history : List (Input κ ε)) (e : ε) :
    callsOf (history ++ [.own e]) = callsOf history := by
  simp [callsOf, Input.call?]

@[simp] theorem reportsOf_nil : reportsOf ([] : List (WorkerToMain ο)) = [] := rfl

@[simp] theorem reportsOf_append (messages more : List (WorkerToMain ο)) :
    reportsOf (messages ++ more) = reportsOf messages ++ reportsOf more :=
  List.filterMap_append ..

@[simp] theorem reportsOf_map_report (said : List ο) : reportsOf (said.map .report) = said := by
  induction said with
  | nil => rfl
  | cons o said ih => exact congrArg (o :: ·) ih

@[simp] theorem reportsOf_rendererBackend :
    reportsOf ([.rendererBackend] : List (WorkerToMain ο)) = [] := rfl

/-- The promise resolves with the pipeline of the main thread. -/
theorem Probing.resolveMain (h : Probing s) : Stands R (s.resolveMain R) := by
  unfold State.resolveMain
  rcases h.phase with ⟨hdisposed, hphase⟩ | ⟨hdisposed, hphase, hcaller⟩
  · rw [if_neg (Bool.not_eq_true _ ▸ hdisposed)]
    refine .inr (.inl ⟨rfl, hdisposed, h.offscreen, rfl, rfl, nofun, ?_, ?_, ?_⟩)
    · simp [State.begin, h.history]
    · simp [State.begin, h.history, h.calls]
    · simp [State.begin, h.history, h.delivered]
  · rw [if_pos hdisposed]
    refine .inr (.inr (.inr ⟨rfl, hdisposed, h.pipeline, h.stream, rfl, hphase, hcaller, ?_, ?_⟩))
    · simp [h.history]
    · simp [h.delivered]

/-- Or with that of the worker, who has answered and has nothing to do. -/
theorem Probing.resolveWorker (h : Probing s) (hstream : w.stream = none) (hinbox : w.inbox = [])
    (houtbox : w.outbox = []) : Stands R (s.resolveWorker w) := by
  unfold State.resolveWorker
  rcases h.phase with ⟨hdisposed, hphase⟩ | ⟨hdisposed, hphase, hcaller⟩
  · rw [if_neg (Bool.not_eq_true _ ▸ hdisposed)]
    refine .inr (.inr (.inl ⟨rfl, hdisposed, rfl, rfl, h.stream, nofun, _, rfl, .inl ?_⟩))
    simp [State.begin, hstream, hinbox, houtbox, h.calls, h.history, h.delivered]
  · rw [if_pos hdisposed]
    refine .inr (.inr (.inr ⟨rfl, hdisposed, h.pipeline, h.stream, rfl, hphase, hcaller, ?_, ?_⟩))
    · simp [h.history]
    · simp [h.delivered]

theorem Probing.step (h : Probing s) (hstep : s.step R a = some s') : Stands R s' := by
  obtain ⟨w, hworker, hstream, hstage⟩ := h.worker
  have hquiet : s.phase ≠ .opened ∧ s.phase ≠ .connecting := by
    rcases h.phase with ⟨-, hphase⟩ | ⟨-, hphase, -⟩ <;> rw [hphase] <;> exact ⟨nofun, nofun⟩
  cases a with
  | work e =>
    -- The worker takes the question, and answers.
    simp only [State.step, hworker] at hstep
    rcases hstage with ⟨hinbox, houtbox⟩ | ⟨hinbox, houtbox⟩
    · simp only [hinbox, Option.some.injEq] at hstep
      subst hstep
      refine .inl ⟨h.probing, h.offscreen, h.pipeline, h.stream, h.calls, ?_, h.delivered,
        ⟨_, rfl, hstream, .inr ⟨rfl, ?_⟩⟩, h.phase⟩
      · simp [h.history]
      · simp [Worker.onmessage, houtbox]
    · simp [hinbox] at hstep
  | workerOwn e => simp [State.step, hworker, hstream] at hstep
  | onmessage transfers =>
    -- The page takes the answer.
    simp only [State.step, hworker] at hstep
    rcases hstage with ⟨hinbox, houtbox⟩ | ⟨hinbox, houtbox⟩
    · simp [houtbox] at hstep
    · simp only [houtbox, Option.some.injEq, State.onWorkerMessage, h.probing, if_true] at hstep
      split at hstep
      · exact hstep ▸ h.resolveWorker hstream hinbox rfl
      · exact hstep ▸ h.resolveMain
  | timeout =>
    simp only [State.step, h.probing, if_true, Option.some.injEq] at hstep
    exact hstep ▸ h.resolveMain
  | mainOwn e => simp [State.step, h.stream] at hstep
  | opens => simp [State.step, hquiet.2] at hstep
  | drops => simp [State.step, hquiet.1, hquiet.2] at hstep
  | message c e => simp [State.step, hquiet.1] at hstep
  | interact =>
    -- A click while it probes does not connect.
    have hidle : ¬ (s.phase = .closed ∧ s.closedByCaller = false) := by
      rintro ⟨hclosed, hcaller⟩
      rcases h.phase with ⟨-, hphase⟩ | ⟨-, -, hcaller'⟩
      · rw [hphase] at hclosed
        cases hclosed
      · rw [hcaller] at hcaller'
        cases hcaller'
    simp only [State.step, if_neg hidle, Option.some.injEq] at hstep
    exact hstep ▸ .inl h
  | teardown =>
    cases hstep
    refine .inl ⟨h.probing, h.offscreen, rfl, rfl, h.calls, h.history, h.delivered,
      ⟨w, ?_, hstream, hstage⟩, .inr ⟨rfl, rfl, rfl⟩⟩
    simp [State.teardown, h.pipeline, hworker]

theorem OnMain.step (h : OnMain R s) (hstep : s.step R a = some s') : Stands R s' := by
  cases a with
  | work e => simp [State.step, h.worker] at hstep
  | workerOwn e => simp [State.step, h.worker] at hstep
  | onmessage transfers => simp [State.step, h.worker] at hstep
  | timeout => simp [State.step, h.probing] at hstep
  | mainOwn e =>
    simp only [State.step, h.stream, Option.map_some, Option.some.injEq] at hstep
    subst hstep
    refine .inr (.inl ⟨h.probing, h.disposed, h.offscreen, h.pipeline, h.worker, h.phase,
      ?_, ?_, ?_⟩)
    · simp
    · simp [h.calls]
    · simp [h.delivered]
  | opens =>
    obtain ⟨-, hstep⟩ := Option.ite_none_right_eq_some.1 hstep
    cases hstep
    exact .inr (.inl { h with phase := nofun })
  | drops =>
    obtain ⟨-, hstep⟩ := Option.ite_none_right_eq_some.1 hstep
    cases hstep
    exact .inr (.inl { h with phase := nofun })
  | message c e =>
    obtain ⟨-, hstep⟩ := Option.ite_none_right_eq_some.1 hstep
    cases hstep
    simp only [State.handle, h.pipeline, h.stream]
    refine .inr (.inl ⟨h.probing, h.disposed, h.offscreen, rfl, h.worker, h.phase, ?_, ?_, ?_⟩)
    · simp
    · simp [h.calls]
    · simp [h.delivered]
  | interact =>
    simp only [State.step] at hstep
    split at hstep <;> cases hstep
    · exact .inr (.inl { h with phase := nofun })
    · exact .inr (.inl h)
  | teardown =>
    cases hstep
    refine .inr (.inr (.inr ⟨h.probing, rfl, rfl, rfl, ?_, rfl, rfl, ?_, ?_⟩))
    · simp [State.teardown, h.pipeline]
    · exact h.calls ▸ List.prefix_rfl
    · exact h.delivered ▸ List.prefix_rfl

section Behind

variable {calls : List κ} {history : List (Input κ ε)} {delivered : List ο}

/-- The stream in the worker reacts, and what it says is in the outbox. -/
theorem Behind.react {pending : List κ} {input : Input κ ε}
    (hinbox : w.inbox = pending.map .call)
    (hcalls : callsOf (history ++ [input]) ++ pending = calls)
    (hsaid : (R.run history).2 = delivered ++ reportsOf w.outbox) :
    Behind R calls (history ++ [input]) delivered (w.react R (R.run history).1 input) := by
  refine .inr ⟨pending, hinbox, ?_, hcalls, ?_⟩
  · simp [Worker.react]
  · simp [Worker.react, hsaid]

/-- A call more. -/
theorem Behind.post (h : Behind R calls history delivered w) (c : κ) :
    Behind R (calls ++ [c]) history delivered { w with inbox := w.inbox ++ [.call c] } := by
  rcases h with ⟨hinbox, hstream, houtbox, hhistory, hdelivered⟩ |
    ⟨pending, hinbox, hstream, hcalls, hsaid⟩
  · refine .inl ⟨?_, hstream, houtbox, hhistory, hdelivered⟩
    simp [hinbox]
  · refine .inr ⟨pending ++ [c], ?_, hstream, ?_, hsaid⟩
    · simp [hinbox]
    · rw [← hcalls, List.append_assoc]

/-- What has come of the calls and of what was said. -/
theorem Behind.prefixes (h : Behind R calls history delivered w) :
    callsOf history <+: calls ∧ delivered <+: (R.run history).2 := by
  rcases h with ⟨-, -, -, rfl, rfl⟩ | ⟨pending, -, -, rfl, hsaid⟩
  · exact ⟨List.nil_prefix, List.nil_prefix⟩
  · exact ⟨List.prefix_append .., hsaid ▸ List.prefix_append ..⟩

end Behind

theorem reportsOf_cons (m : WorkerToMain ο) (messages : List (WorkerToMain ο)) :
    reportsOf (m :: messages) = m.report?.toList ++ reportsOf messages := by
  cases m <;> rfl

/-- Once it does not probe, the page reads the reports. -/
theorem onWorkerMessage_of_not_probing (h : s.probing = false) (transfers : Bool)
    (m : WorkerToMain ο) : s.onWorkerMessage R transfers w m =
      { s with worker := some w, delivered := s.delivered ++ m.report?.toList } := by
  cases m <;> simp [State.onWorkerMessage, WorkerToMain.report?, h]

/-- The page goes on with the worker. -/
theorem OnWorker.go (h : OnWorker R s) {calls : List κ} {history : List (Input κ ε)}
    {delivered : List ο} (hbehind : Behind R calls history delivered w) :
    Stands R { s with worker := some w, calls, history, delivered } :=
  .inr (.inr (.inl ⟨h.probing, h.disposed, h.offscreen, h.pipeline, h.stream, h.phase,
    w, rfl, hbehind⟩))

theorem OnWorker.step (h : OnWorker R s) (hstep : s.step R a = some s') : Stands R s' := by
  obtain ⟨w, hworker, hbehind⟩ := h.worker
  cases a with
  | work e =>
    simp only [State.step, hworker] at hstep
    rcases hbehind with ⟨hinbox, hstream, houtbox, hhistory, hdelivered⟩ |
      ⟨pending, hinbox, hstream, hcalls, hsaid⟩
    · -- it starts its stream
      simp only [hinbox, hstream, Option.some.injEq] at hstep
      subst hstep
      refine h.go (.inr ⟨s.calls, rfl, ?_, ?_, ?_⟩)
      · simp [Worker.onmessage, hhistory]
      · simp [hhistory]
      · simp [Worker.onmessage, hhistory, houtbox, hdelivered]
    · -- or passes on a call
      cases pending with
      | nil => simp [hinbox] at hstep
      | cons c pending =>
        simp only [hinbox, hstream, List.map_cons, Option.some.injEq] at hstep
        subst hstep
        refine h.go ?_
        simp only [Worker.onmessage]
        refine Behind.react (w := { w with inbox := pending.map .call }) rfl ?_ hsaid
        simp [← hcalls]
  | workerOwn e =>
    simp only [State.step, hworker] at hstep
    rcases hbehind with ⟨hinbox, hstream, houtbox, hhistory, hdelivered⟩ |
      ⟨pending, hinbox, hstream, hcalls, hsaid⟩
    · simp [hstream] at hstep
    · simp only [hstream, Option.map_some, Option.some.injEq] at hstep
      subst hstep
      refine h.go (Behind.react hinbox ?_ hsaid)
      rw [callsOf_concat_own, hcalls]
  | onmessage transfers =>
    -- A report is delivered, and of the rest nothing follows.
    simp only [State.step, hworker] at hstep
    rcases hbehind with ⟨hinbox, hstream, houtbox, hhistory, hdelivered⟩ |
      ⟨pending, hinbox, hstream, hcalls, hsaid⟩
    · simp [houtbox] at hstep
    · cases houtbox : w.outbox with
      | nil => simp [houtbox] at hstep
      | cons m outbox =>
        simp only [houtbox, Option.some.injEq, onWorkerMessage_of_not_probing h.probing] at hstep
        subst hstep
        rw [houtbox, reportsOf_cons, ← List.append_assoc] at hsaid
        exact h.go (w := { w with outbox }) (.inr ⟨pending, hinbox, hstream, hcalls, hsaid⟩)
  | timeout => simp [State.step, h.probing] at hstep
  | mainOwn e => simp [State.step, h.stream] at hstep
  | opens =>
    obtain ⟨-, hstep⟩ := Option.ite_none_right_eq_some.1 hstep
    cases hstep
    exact .inr (.inr (.inl { h with phase := nofun }))
  | drops =>
    obtain ⟨-, hstep⟩ := Option.ite_none_right_eq_some.1 hstep
    cases hstep
    exact .inr (.inr (.inl { h with phase := nofun }))
  | message c e =>
    obtain ⟨-, hstep⟩ := Option.ite_none_right_eq_some.1 hstep
    cases hstep
    simp only [State.handle, h.pipeline, hworker, Option.map_some]
    exact .inr (.inr (.inl ⟨h.probing, h.disposed, h.offscreen, rfl, h.stream, h.phase,
      _, rfl, hbehind.post c⟩))
  | interact =>
    simp only [State.step] at hstep
    split at hstep <;> cases hstep
    · exact .inr (.inr (.inl { h with phase := nofun }))
    · exact .inr (.inr (.inl h))
  | teardown =>
    cases hstep
    obtain ⟨hcalls, hdelivered⟩ := hbehind.prefixes
    refine .inr (.inr (.inr ⟨h.probing, rfl, rfl, rfl, ?_, rfl, rfl, hcalls, hdelivered⟩))
    simp [State.teardown, h.pipeline]

theorem Gone.step (h : Gone R s) (hstep : s.step R a = some s') : Stands R s' := by
  refine .inr (.inr (.inr ?_))
  cases a with
  | work e => simp [State.step, h.worker] at hstep
  | workerOwn e => simp [State.step, h.worker] at hstep
  | onmessage transfers => simp [State.step, h.worker] at hstep
  | timeout => simp [State.step, h.probing] at hstep
  | mainOwn e => simp [State.step, h.stream] at hstep
  | opens => simp [State.step, h.phase] at hstep
  | drops => simp [State.step, h.phase] at hstep
  | message c e => simp [State.step, h.phase] at hstep
  | interact =>
    simp only [State.step, h.closedByCaller] at hstep
    simp at hstep
    exact hstep ▸ h
  | teardown =>
    cases hstep
    refine ⟨h.probing, rfl, rfl, rfl, ?_, rfl, rfl, h.calls, h.delivered⟩
    simp [State.teardown, h.worker]

/-- **Wherever the page is, it stands so.** -/
theorem stands_of_reachable (h : (machine R).Reachable s) : Stands R s := by
  refine h.invariant (fun s hinit => ?_) fun s a s' hstep hs => ?_
  · rcases hinit with rfl | ⟨webgl, rfl⟩
    · refine .inr (.inl ⟨rfl, rfl, rfl, rfl, rfl, nofun, ?_, rfl, ?_⟩)
      · rfl
      · rfl
    · exact .inl ⟨rfl, rfl, rfl, rfl, rfl, rfl, rfl, ⟨_, rfl, rfl, .inl ⟨rfl, rfl⟩⟩,
        .inl ⟨rfl, rfl⟩⟩
  · rcases hs with hs | hs | hs | hs
    · exact hs.step hstep
    · exact hs.step hstep
    · exact hs.step hstep
    · exact hs.step hstep

/-! ## One page, one stream -/

variable (R) in
/-- **What holds of the page over its life.** -/
structure Orderly (s : State σ κ ε ο) : Prop where
  /-- A stream on the main thread has the canvas, and there is no worker. -/
  main : s.stream ≠ none → s.offscreen = false ∧ s.worker = none
  /-- A stream in the worker has it, and there is none on the main thread. -/
  worker : ∀ w, s.worker = some w → w.stream ≠ none → s.offscreen = true ∧ s.stream = none
  /-- While there is no pipeline there is no connection to lose a message of. -/
  connected : s.phase = .connecting ∨ s.phase = .opened → s.pipeline ≠ none
  /-- The stream gets the calls in order, each once, and is heard the same way. -/
  calls : callsOf s.history <+: s.calls
  delivered : s.delivered <+: (R.run s.history).2
  /-- The probe ends, if not by an answer. -/
  probe : s.probing = true → ∃ s', s.step R .timeout = some s' ∧ s'.probing = false
  /-- A page that is left leaves nothing, once it does not probe. -/
  left : s.disposed = true → s.probing = false →
    s.stream = none ∧ s.worker = none ∧ s.phase = .closed

theorem Probing.orderly (h : Probing s) : Orderly R s := by
  obtain ⟨w, hworker, hstream, -⟩ := h.worker
  refine ⟨fun hne => absurd h.stream hne, fun w' hw' hne => ?_, fun hphase => ?_, ?_, ?_,
    fun _ => ?_, fun _ hnot => ?_⟩
  · rw [hworker] at hw'
    cases hw'
    exact absurd hstream hne
  · rcases h.phase with ⟨-, hidle⟩ | ⟨-, hclosed, -⟩
    · rw [hidle] at hphase
      exact absurd hphase (by simp)
    · rw [hclosed] at hphase
      exact absurd hphase (by simp)
  · rw [h.history]
    exact List.nil_prefix
  · rw [h.delivered]
    exact List.nil_prefix
  · refine ⟨s.resolveMain R, if_pos h.probing, ?_⟩
    unfold State.resolveMain
    split <;> rfl
  · rw [h.probing] at hnot
    cases hnot

theorem OnMain.orderly (h : OnMain R s) : Orderly R s where
  main _ := ⟨h.offscreen, h.worker⟩
  worker w hw := by
    rw [h.worker] at hw
    cases hw
  connected _ := by
    rw [h.pipeline]
    exact nofun
  calls := h.calls ▸ List.prefix_rfl
  delivered := h.delivered ▸ List.prefix_rfl
  probe hprobing := by
    rw [h.probing] at hprobing
    cases hprobing
  left hdisposed := by
    rw [h.disposed] at hdisposed
    cases hdisposed

theorem OnWorker.orderly (h : OnWorker R s) : Orderly R s := by
  obtain ⟨w, -, hbehind⟩ := h.worker
  refine ⟨fun hne => absurd h.stream hne, fun _ _ _ => ⟨h.offscreen, h.stream⟩, fun _ => ?_,
    hbehind.prefixes.1, hbehind.prefixes.2, fun hprobing => ?_, fun hdisposed => ?_⟩
  · rw [h.pipeline]
    exact nofun
  · rw [h.probing] at hprobing
    cases hprobing
  · rw [h.disposed] at hdisposed
    cases hdisposed

theorem Gone.orderly (h : Gone R s) : Orderly R s where
  main hne := absurd h.stream hne
  worker w hw := by
    rw [h.worker] at hw
    cases hw
  connected hphase := by
    rw [h.phase] at hphase
    exact absurd hphase (by simp)
  calls := h.calls
  delivered := h.delivered
  probe hprobing := by
    rw [h.probing] at hprobing
    cases hprobing
  left _ _ := ⟨h.stream, h.worker, h.phase⟩

/-- **The page keeps order**: it never has two streams, loses no message for
want of a pipeline, and leaves nothing behind, in whatever order the worker
answers, the timer fires, the canvas lets itself be transferred or does not,
the user clicks and the page is left. -/
theorem lifecycle (h : (machine R).Reachable s) : Orderly R s := by
  rcases stands_of_reachable h with hs | hs | hs | hs
  · exact hs.orderly
  · exact hs.orderly
  · exact hs.orderly
  · exact hs.orderly

/-- The page is left while the worker is asked, which answers then. -/
def leftProbing : List (Action (Call Bool) Decoding) :=
  [.work default, .teardown, .onmessage true]

theorem lifecycle_leftProbing : ∃ s : State (Client.VideoStream Bool) (Call Bool) Decoding Control,
    s.offscreen = true ∧ s.stream = none ∧ s.worker = none ∧ s.phase = .closed := by
  have hstart : (machine (videoStream id "avc1.42E01F")).Reachable (mounted (some (.fresh true))) :=
    .start (.inr ⟨true, rfl⟩)
  have hrun : ∃ s, (machine (videoStream id "avc1.42E01F")).exec (mounted (some (.fresh true)))
      leftProbing = some s ∧ s.disposed = true ∧ s.probing = false ∧ s.offscreen = true :=
    ⟨_, rfl, rfl, rfl, rfl⟩
  obtain ⟨s, hexec, hdisposed, hprobing, hoffscreen⟩ := hrun
  exact ⟨s, hoffscreen, (lifecycle (Machine.reach_of_exec _ hstart hexec)).left hdisposed hprobing⟩

/-! ## The worker and the main thread -/

/-- Nothing is on its way between page and worker. -/
def State.Idle (s : State σ κ ε ο) : Prop :=
  ∀ w, s.worker = some w → w.inbox = [] ∧ w.outbox = []

variable (R) in
/-- **What a pipeline can show**: some run brings the stream in use there,
with nothing on its way, with these calls, and this was reported. -/
def Shows (pipeline : VideoPipeline) (t : σ) (calls : List κ) (delivered : List ο) : Prop :=
  ∃ s : State σ κ ε ο, (machine R).Reachable s ∧ s.Idle ∧ s.pipeline = some pipeline ∧
    (s.stream = some t ∨ ∃ w, s.worker = some w ∧ w.stream = some t) ∧
    s.calls = calls ∧ s.delivered = delivered

theorem Stands.onMain (h : Stands R s) (hpipeline : s.pipeline = some .main) : OnMain R s := by
  rcases h with hs | hs | hs | hs
  · exact absurd (hs.pipeline.symm.trans hpipeline) nofun
  · exact hs
  · exact absurd (hs.pipeline.symm.trans hpipeline) nofun
  · exact absurd (hs.pipeline.symm.trans hpipeline) nofun

theorem Stands.onWorker (h : Stands R s) (hpipeline : s.pipeline = some .worker) :
    OnWorker R s := by
  rcases h with hs | hs | hs | hs
  · exact absurd (hs.pipeline.symm.trans hpipeline) nofun
  · exact absurd (hs.pipeline.symm.trans hpipeline) nofun
  · exact hs
  · exact absurd (hs.pipeline.symm.trans hpipeline) nofun

/-- What is shown is the run of a history. -/
theorem run_of_shows {pipeline : VideoPipeline} {t : σ} {calls : List κ} {delivered : List ο}
    (h : Shows R pipeline t calls delivered) :
    ∃ history : List (Input κ ε), R.run history = (t, delivered) ∧ callsOf history = calls := by
  obtain ⟨s, hreach, hidle, hpipeline, hstream, rfl, rfl⟩ := h
  have hstands := stands_of_reachable hreach
  cases pipeline with
  | main =>
    have hmain := hstands.onMain hpipeline
    rcases hstream with hstream | ⟨w, hw, -⟩
    · refine ⟨s.history, Prod.ext ?_ hmain.delivered, hmain.calls⟩
      exact Option.some.inj (hmain.stream.symm.trans hstream)
    · exact absurd (hw.symm.trans hmain.worker) (Option.some_ne_none w)
  | worker =>
    have hworker := hstands.onWorker hpipeline
    obtain ⟨w, hw, hbehind⟩ := hworker.worker
    obtain ⟨hinbox, houtbox⟩ := hidle w hw
    rcases hstream with hstream | ⟨w', hw', hstream⟩
    · exact absurd (hstream.symm.trans hworker.stream) (Option.some_ne_none t)
    · obtain rfl := Option.some.inj (hw.symm.trans hw')
      rcases hbehind with ⟨hinit, -⟩ | ⟨pending, hpending, hrun, hcalls, hsaid⟩
      · exact absurd (hinit.symm.trans hinbox) (List.cons_ne_nil _ _)
      · have hnone : pending = [] := List.map_eq_nil_iff.1 (hpending.symm.trans hinbox)
        rw [hnone, List.append_nil] at hcalls
        rw [houtbox, reportsOf_nil, List.append_nil] at hsaid
        exact ⟨s.history, Prod.ext (Option.some.inj (hrun.symm.trans hstream)) hsaid, hcalls⟩

/-- The main thread can go through any history. -/
theorem exists_onMain (history : List (Input κ ε)) : ∃ s : State σ κ ε ο, (machine R).Reachable s ∧
    s.pipeline = some .main ∧ s.phase = .opened ∧ s.history = history := by
  induction history using List.reverseRecOn with
  | nil =>
    have hstart : (machine R).Reachable ((mounted none : State σ κ ε ο).resolveMain R) :=
      .start (.inl rfl)
    exact ⟨_, hstart.next (a := .opens) rfl, rfl, rfl, rfl⟩
  | append_singleton history input ih =>
    obtain ⟨s, hreach, hpipeline, hphase, rfl⟩ := ih
    have hstream := ((stands_of_reachable hreach).onMain hpipeline).stream
    cases input with
    | call c e =>
      have hstep : (machine R).step s (.message c e) = some (s.handle R c e) := if_pos hphase
      refine ⟨_, hreach.next hstep, ?_⟩
      simp only [State.handle, hpipeline, hstream]
      exact ⟨trivial, hphase, trivial⟩
    | own e =>
      have hstep : (machine R).step s (.mainOwn e) = some { s with
          stream := some (R.react (R.run s.history).1 (.own e)).1
          history := s.history ++ [.own e]
          delivered := s.delivered ++ (R.react (R.run s.history).1 (.own e)).2 } := by
        simp only [machine, State.step, hstream, Option.map_some]
      exact ⟨_, hreach.next hstep, hpipeline, hphase, rfl⟩

/-- A page connected, with its worker and nothing for it to do. -/
structure Settled (s : State σ κ ε ο) (w : Worker σ κ ο) : Prop where
  pipeline : s.pipeline = some .worker
  phase : s.phase = .opened
  worker : s.worker = some w
  inbox : w.inbox = []

/-- What the worker said is read. -/
theorem exists_drained (hreach : (machine R).Reachable s) (hs : Settled s w) :
    ∃ (s' : State σ κ ε ο) (w' : Worker σ κ ο), (machine R).Reachable s' ∧ Settled s' w' ∧
      w'.outbox = [] ∧ s'.history = s.history := by
  obtain ⟨webgl, inbox, stream, outbox⟩ := w
  induction outbox generalizing s with
  | nil => exact ⟨s, _, hreach, hs, rfl, rfl⟩
  | cons m outbox ih =>
    have hprobing := ((stands_of_reachable hreach).onWorker hs.pipeline).probing
    have hstep : (machine R).step s (.onmessage true) = some { s with
        worker := some ⟨webgl, inbox, stream, outbox⟩
        delivered := s.delivered ++ m.report?.toList } := by
      simp only [machine, State.step, hs.worker, onWorkerMessage_of_not_probing hprobing]
    exact ih (s := { s with
      worker := some ⟨webgl, inbox, stream, outbox⟩
      delivered := s.delivered ++ m.report?.toList }) (hreach.next hstep)
      ⟨hs.pipeline, hs.phase, rfl, hs.inbox⟩

/-- And so can the worker. -/
theorem exists_onWorker [Inhabited ε] (history : List (Input κ ε)) :
    ∃ (s : State σ κ ε ο) (w : Worker σ κ ο), (machine R).Reachable s ∧ Settled s w ∧
      w.outbox = [] ∧ s.history = history := by
  induction history using List.reverseRecOn with
  | nil =>
    -- it says that it can, gets the canvas and starts its stream
    have hstart : (machine R).Reachable (mounted (some (.fresh true)) : State σ κ ε ο) :=
      .start (.inr ⟨true, rfl⟩)
    have hasked := hstart.next (a := .work default) rfl
    have hresolved := hasked.next (a := .onmessage true) rfl
    have hopened := hresolved.next (a := .opens) rfl
    have hstarted := hopened.next (a := .work default) rfl
    exact exists_drained hstarted ⟨rfl, rfl, rfl, rfl⟩
  | append_singleton history input ih =>
    obtain ⟨s, w, hreach, hs, houtbox, rfl⟩ := ih
    obtain ⟨w', hw', hbehind⟩ := ((stands_of_reachable hreach).onWorker hs.pipeline).worker
    obtain rfl := Option.some.inj (hs.worker.symm.trans hw')
    have hstream : w.stream = some (R.run s.history).1 := by
      rcases hbehind with ⟨hinit, -⟩ | ⟨-, -, hrun, -⟩
      · exact absurd (hs.inbox.symm.trans hinit) nofun
      · exact hrun
    cases input with
    | call c e =>
      have hposted : (machine R).step s (.message c e) = some { s with
          calls := s.calls ++ [c]
          worker := some { w with inbox := [.call c] } } := by
        simp [machine, State.step, hs.phase, State.handle, hs.pipeline, hs.worker, hs.inbox]
      have hworked : (machine R).step { s with
          calls := s.calls ++ [c]
          worker := some { w with inbox := [.call c] } } (.work e) = some { s with
          calls := s.calls ++ [c]
          worker := some ({ w with inbox := [] }.react R (R.run s.history).1 (.call c e))
          history := s.history ++ [.call c e] } := by
        simp [machine, State.step, hstream, Worker.onmessage]
      exact exists_drained ((hreach.next hposted).next hworked) ⟨hs.pipeline, hs.phase, rfl, rfl⟩
    | own e =>
      have hworked : (machine R).step s (.workerOwn e) = some { s with
          worker := some (w.react R (R.run s.history).1 (.own e))
          history := s.history ++ [.own e] } := by
        simp [machine, State.step, hs.worker, hstream]
      exact exists_drained (hreach.next hworked) ⟨hs.pipeline, hs.phase, rfl, hs.inbox⟩

/-- **A pipeline shows what some history makes of the stream**, wherever the
stream runs. -/
theorem shows_iff_run [Inhabited ε] (pipeline : VideoPipeline) (t : σ) (calls : List κ)
    (delivered : List ο) : Shows R pipeline t calls delivered ↔
      ∃ history : List (Input κ ε), R.run history = (t, delivered) ∧ callsOf history = calls := by
  refine ⟨run_of_shows, ?_⟩
  rintro ⟨history, hrun, rfl⟩
  cases pipeline with
  | main =>
    obtain ⟨s, hreach, hpipeline, -, rfl⟩ := exists_onMain (R := R) history
    have hmain := (stands_of_reachable hreach).onMain hpipeline
    refine ⟨s, hreach, fun w hw => ?_, hpipeline, .inl ?_, hmain.calls.symm, ?_⟩
    · exact absurd (hmain.worker.symm.trans hw) nofun
    · rw [hmain.stream, hrun]
    · rw [← hmain.delivered, hrun]
  | worker =>
    obtain ⟨s, w, hreach, hs, houtbox, rfl⟩ := exists_onWorker (R := R) history
    have hworker := (stands_of_reachable hreach).onWorker hs.pipeline
    have hidle : s.Idle := by
      intro w' hw'
      obtain rfl := Option.some.inj (hs.worker.symm.trans hw')
      exact ⟨hs.inbox, houtbox⟩
    obtain ⟨w', hw', hbehind⟩ := hworker.worker
    obtain rfl := Option.some.inj (hs.worker.symm.trans hw')
    rcases hbehind with ⟨hinit, -⟩ | ⟨pending, hpending, hstream, hcalls, hsaid⟩
    · exact absurd (hs.inbox.symm.trans hinit) nofun
    · have hnone : pending = [] := List.map_eq_nil_iff.1 (hpending.symm.trans hs.inbox)
      rw [hnone, List.append_nil] at hcalls
      rw [houtbox, reportsOf_nil, List.append_nil, hrun] at hsaid
      exact ⟨s, hreach, hidle, hs.pipeline, .inr ⟨w, hw', by rw [hstream, hrun]⟩, hcalls.symm,
        hsaid.symm⟩

/-- **It makes no difference where the stream runs**: what the page can come
to with its stream in the worker, with nothing on its way, it can with the
stream on the main thread, and the other way round. The stream is the same
after the same calls, and so is all it reported, in order. -/
theorem shows_worker_iff_shows_main [Inhabited ε] (t : σ) (calls : List κ) (delivered : List ο) :
    Shows R .worker t calls delivered ↔ Shows R .main t calls delivered :=
  (shows_iff_run .worker t calls delivered).trans (shows_iff_run .main t calls delivered).symm

end Stage

end WaylandWebStream
