import WaylandWebStream.Clipboard.Contents
import WaylandWebStream.Lib.Fifo

/-!
# Serving the device's payloads — what is answered, and what is set

Every source of the bridge is created for one payload, and all of them
are served from one buffer. A request that reaches the bridge after a
newer payload is answered with the newer one's bytes. And a payload whose
bytes are the last value seen is not set at all, whatever the nest's
selection has become since that value was seen.
-/

namespace WaylandWebStream

namespace Clipboard

open Wire (ClipboardData maxClipboardBytes)

/-! ## Requests for the bytes of a source -/

/-- **One request answered**: the source that was asked, the latest
source by then, and the bytes that were written. -/
structure Answer where
  source : ℕ
  latest : ℕ
  bytes : Bytes
  deriving DecidableEq

/-- The bridge and the nest, with the payload each source was created for
and the requests answered so far. -/
structure Serving where
  world : World
  payloads : List ClipboardData := []
  answers : List Answer := []

/-- What can happen next. -/
inductive ServingAction
  | act (a : Action)
  /-- A source is asked that may have been replaced since it was offered. -/
  | ask (source : ℕ)

namespace Serving

/-- The payload a source was created for. -/
def payloadOf (t : Serving) (source : ℕ) : Option ClipboardData := t.payloads[source - 1]?

/-- What an action adds to the payloads. -/
def created (w : World) : Action → List ClipboardData
  | .payload data => if (setSelection w.bridge data).2.isSome then [data] else []
  | _ => []

/-- And to the answers. -/
def answered (w : World) : Action → List Answer
  | .dispatch _ =>
    match w.events with
    | .send k :: _ => [⟨k, w.bridge.created, onSourceSend w.bridge⟩]
    | _ => []
  | _ => []

/-- One step. -/
def step (t : Serving) : ServingAction → Option Serving
  | .act a => (t.world.step a).map fun w =>
    ⟨w, t.payloads ++ created t.world a, t.answers ++ answered t.world a⟩
  | .ask k =>
    if 1 ≤ k ∧ k ≤ t.world.bridge.created then
      some { t with world := { t.world with events := t.world.events ++ [.send k] } }
    else none

/-- **The bridge, and the record of what it served.** -/
def machine : Machine Serving ServingAction where
  init t := ∃ first, t = { world := World.start first }
  step := step

end Serving

/-- A source of the bridge that exists. -/
def World.IsSource (w : World) (k : ℕ) : Prop := 1 ≤ k ∧ k ≤ w.bridge.created

/-- **What the record says of the bridge**: the buffer holds the latest
payload, and every answer was the latest payload of its time. -/
structure Recorded (t : Serving) : Prop where
  count : t.payloads.length = t.world.bridge.created
  serves : ∀ p, t.payloads.getLast? = some p → t.world.bridge.serveBytes = bytesOf p
  asked : ∀ k, .send k ∈ t.world.events → t.world.IsSource k
  requested : ∀ r ∈ t.world.requests, t.world.IsSource r.source
  owner : ∀ k, t.world.nest.owner = some k → t.world.IsSource k
  answers : ∀ a ∈ t.answers, (1 ≤ a.source ∧ a.source ≤ a.latest) ∧
    ∃ p, t.payloadOf a.latest = some p ∧ a.bytes = bytesOf p

variable {w w' : World} {t t' : Serving} {a : Answer} {data : ClipboardData} {k : ℕ}
  {e : Event} {es : List Event}

/-- **What a payload does**: nothing, where it is too large or the last
value seen; a new source that serves it, otherwise. -/
theorem setSelection_cases (s : ClipState) (data : ClipboardData) :
    ((maxClipboardBytes < (bytesOf data).length ∨ s.lastValue = some (bytesOf data)) ∧
      setSelection s data = (s, none)) ∨
    (s.lastValue ≠ some (bytesOf data) ∧
      setSelection s data =
        ({ s with
            created := s.created + 1, serveBytes := bytesOf data, serveMimes := mimesOf data,
            source := some (s.created + 1), owning := true, lastValue := some (bytesOf data) },
          some ⟨s.created + 1, mimesOf data⟩)) := by
  unfold setSelection
  split_ifs with hsize hlast
  · exact .inl ⟨.inl hsize, rfl⟩
  · exact .inl ⟨.inr hlast, rfl⟩
  · exact .inr ⟨hlast, rfl⟩

/-- A change of the selection asks no source for bytes. -/
theorem send_notMem_select (origin : Option Origin)
    (h : .send k ∈ (w.select origin).events) : .send k ∈ w.events := by
  rcases List.mem_append.1 h with h | h
  · exact h
  · rcases List.mem_append.1 h with h | h
    · obtain ⟨_, -, heq⟩ := List.mem_map.1 h
      cases heq
    · cases hoff : w.nest.offer origin with
      | none =>
        rw [hoff] at h
        cases List.mem_singleton.1 h
      | some off =>
        rw [hoff] at h
        rcases List.mem_cons.1 h with heq | h
        · cases heq
        · rcases List.mem_append.1 h with h | h
          · obtain ⟨_, -, heq⟩ := List.mem_map.1 h
            cases heq
          · cases List.mem_singleton.1 h

namespace Recorded

/-- The latest source's payload is what is served. -/
theorem latest (h : Recorded t) (hk : t.world.IsSource k) :
    ∃ p, t.payloadOf t.world.bridge.created = some p ∧
      onSourceSend t.world.bridge = bytesOf p := by
  have hpos : 0 < t.payloads.length := by
    rw [h.count]
    exact Nat.lt_of_lt_of_le hk.1 hk.2
  obtain ⟨p, hp⟩ : ∃ p, t.payloads.getLast? = some p :=
    ⟨t.payloads.getLast (List.ne_nil_of_length_pos hpos), List.getLast?_eq_getLast_of_ne_nil _⟩
  refine ⟨p, ?_, h.serves p hp⟩
  rw [Serving.payloadOf, ← h.count, ← List.getLast?_eq_getElem?]
  exact hp

/-- A change of the selection creates no source. -/
theorem select (h : Recorded t) {rs : List Request} (hrs : ∀ r ∈ rs, r ∈ t.world.requests)
    (origin : Option Origin)
    (horigin : ∀ k, origin.bind Origin.source? = some k → t.world.IsSource k) :
    Recorded { t with world := ({ t.world with requests := rs }).select origin } where
  count := h.count
  serves := h.serves
  asked k hk := h.asked k (send_notMem_select (w := { t.world with requests := rs }) origin hk)
  requested r hr := h.requested r (hrs r hr)
  owner k hk := by
    have howner := owner_select (w := { t.world with requests := rs }) origin
    rw [howner] at hk
    exact horigin k hk
  answers := h.answers

/-- A source is asked. -/
theorem ask (h : Recorded t) (hk : t.world.IsSource k) :
    Recorded { t with world := { t.world with events := t.world.events ++ [.send k] } } where
  count := h.count
  serves := h.serves
  asked j hj := by
    rcases List.mem_append.1 hj with hj | hj
    · exact h.asked j hj
    · cases List.mem_singleton.1 hj
      exact hk
  requested := h.requested
  owner := h.owner
  answers := h.answers

/-- A payload of the device, and its source. -/
theorem payload (h : Recorded t) (data : ClipboardData) :
    Recorded ⟨t.world.payload data, t.payloads ++ Serving.created t.world (.payload data),
      t.answers⟩ := by
  rcases setSelection_cases t.world.bridge data with ⟨-, heq⟩ | ⟨-, heq⟩
  · -- a payload that makes no new source changes nothing
    have hworld : t.world.payload data = t.world := by
      simp [World.payload, heq]
    have hnone : Serving.created t.world (.payload data) = [] := by
      simp [Serving.created, heq]
    rw [hworld, hnone, List.append_nil]
    exact h
  · have hsome : Serving.created t.world (.payload data) = [data] := by
      simp [Serving.created, heq]
    have hmono : ∀ {k}, t.world.IsSource k → (t.world.payload data).IsSource k := by
      intro k hk
      refine ⟨hk.1, ?_⟩
      show k ≤ (setSelection t.world.bridge data).1.created
      rw [heq]
      exact Nat.le_succ_of_le hk.2
    rw [hsome]
    refine ⟨?_, fun p hp => ?_, fun k hk => hmono (h.asked k hk), fun r hr => ?_,
      fun k hk => hmono (h.owner k hk), fun a ha => ?_⟩
    · show (t.payloads ++ [data]).length = (setSelection t.world.bridge data).1.created
      rw [heq, List.length_append, h.count]
      rfl
    · show (setSelection t.world.bridge data).1.serveBytes = bytesOf p
      rw [List.getLast?_concat] at hp
      rw [heq, ← Option.some.inj hp]
    · have hr' : r ∈ t.world.requests ++ (setSelection t.world.bridge data).2.toList := hr
      rw [heq] at hr'
      rcases List.mem_append.1 hr' with hr' | hr'
      · exact hmono (h.requested r hr')
      · have hrequest : r = ⟨t.world.bridge.created + 1, mimesOf data⟩ := by
          simpa using hr'
        rw [hrequest]
        refine ⟨Nat.succ_pos _, ?_⟩
        show _ ≤ (setSelection t.world.bridge data).1.created
        rw [heq]
    · obtain ⟨hle, p, hp, hbytes⟩ := h.answers a ha
      refine ⟨hle, p, ?_, hbytes⟩
      obtain ⟨hlt, -⟩ := List.getElem?_eq_some_iff.1 hp
      show (t.payloads ++ [data])[a.latest - 1]? = some p
      rw [List.getElem?_append_left hlt]
      exact hp

/-- A dispatch, and what it answers. -/
theorem dispatch (h : Recorded t) (he : t.world.events = e :: es) (delivered : Option Bytes) :
    Recorded ⟨t.world.dispatch delivered e es, t.payloads,
      t.answers ++ Serving.answered t.world (.dispatch delivered)⟩ := by
  have hcreated : (t.world.dispatch delivered e es).bridge.created = t.world.bridge.created :=
    handle_created t.world.bridge delivered e
  have hsource : ∀ {k}, t.world.IsSource k → (t.world.dispatch delivered e es).IsSource k := by
    rintro k ⟨hpos, hle⟩
    exact ⟨hpos, by rw [hcreated]; exact hle⟩
  refine ⟨h.count.trans hcreated.symm, fun p hp => ?_, fun k hk => hsource (h.asked k ?_),
    fun r hr => hsource (h.requested r hr), fun k hk => hsource (h.owner k hk), fun a ha => ?_⟩
  · show (handle t.world.bridge delivered e).1.serveBytes = bytesOf p
    rw [handle_serveBytes]
    exact h.serves p hp
  · rw [he]
    exact List.mem_cons_of_mem _ hk
  · rcases List.mem_append.1 ha with ha | ha
    · exact h.answers a ha
    · rw [Serving.answered, he] at ha
      cases e with
      | send k =>
        obtain rfl := List.mem_singleton.1 ha
        have hk : t.world.IsSource k := h.asked k (by rw [he]; exact List.mem_cons_self)
        exact ⟨hk, h.latest hk⟩
      | dataOffer off => exact absurd ha List.not_mem_nil
      | offerMime off mime => exact absurd ha List.not_mem_nil
      | selection sel => exact absurd ha List.not_mem_nil
      | cancelled k => exact absurd ha List.not_mem_nil

/-- **Every step keeps the record.** -/
theorem step {a : ServingAction} (h : Recorded t) (hstep : t.step a = some t') : Recorded t' := by
  cases a with
  | ask k =>
    obtain ⟨hk, heq⟩ := Option.ite_none_right_eq_some.1 hstep
    cases heq
    exact h.ask hk
  | act a =>
    obtain ⟨w, hw, rfl⟩ := Option.map_eq_some_iff.1 hstep
    cases a with
    | payload data =>
      cases hw
      rw [show Serving.answered t.world (.payload data) = [] from rfl, List.append_nil]
      exact h.payload data
    | dispatch delivered =>
      rw [World.step] at hw
      cases he : t.world.events with
      | nil =>
        rw [he] at hw
        cases hw
      | cons e es =>
        rw [he] at hw
        cases hw
        rw [show Serving.created t.world (.dispatch delivered) = [] from rfl, List.append_nil]
        exact h.dispatch he delivered
    | process =>
      rw [World.step] at hw
      cases hr : t.world.requests with
      | nil =>
        rw [hr] at hw
        cases hw
      | cons r rs =>
        rw [hr] at hw
        cases hw
        have hreq : t.world.IsSource r.source :=
          h.requested r (by rw [hr]; exact List.mem_cons_self)
        simp only [Serving.created, Serving.answered, List.append_nil]
        exact h.select (fun r' hr' => by rw [hr]; exact List.mem_cons_of_mem _ hr')
          (some (.own r.source r.mimes)) fun k hk => by cases hk; exact hreq
    | copy c =>
      cases hw
      simp only [Serving.created, Serving.answered, List.append_nil]
      exact h.select (fun _ hr => hr) (some (.foreign c)) fun k hk => by cases hk
    | clear =>
      cases hw
      simp only [Serving.created, Serving.answered, List.append_nil]
      exact h.select (fun _ hr => hr) none fun k hk => by cases hk
    | paste =>
      obtain ⟨k, hk, rfl⟩ := Option.map_eq_some_iff.1 hw
      simp only [Serving.created, Serving.answered, List.append_nil]
      exact h.ask (h.owner k hk)

end Recorded

theorem recorded_of_reachable (h : Serving.machine.Reachable t) : Recorded t := by
  refine h.invariant ?_ fun _ _ _ hstep hs => hs.step hstep
  rintro t ⟨first, rfl⟩
  refine ⟨rfl, fun p hp => (by cases hp), fun k hk => ?_, fun r hr => absurd hr List.not_mem_nil,
    fun k hk => ?_, fun a ha => absurd ha List.not_mem_nil⟩
  · exact absurd (send_notMem_select (w := {}) _ hk) List.not_mem_nil
  · rw [World.start, owner_select] at hk
    cases first <;> cases hk

/-- **When a request is answered with its source's bytes.** In every run,
an answer is the payload of the source that was asked exactly when the
latest source of that time was created for the same bytes. -/
theorem answer_iff (h : Serving.machine.Reachable t) (ha : a ∈ t.answers) :
    ∃ p latest, t.payloadOf a.source = some p ∧ t.payloadOf a.latest = some latest ∧
      (a.bytes = bytesOf p ↔ bytesOf latest = bytesOf p) := by
  obtain ⟨⟨hpos, hle⟩, latest, hlatest, hbytes⟩ := (recorded_of_reachable h).answers a ha
  obtain ⟨hlt, -⟩ := List.getElem?_eq_some_iff.1 hlatest
  have hsource : a.source - 1 < t.payloads.length := by omega
  exact ⟨t.payloads[a.source - 1], latest, List.getElem?_eq_getElem hsource, hlatest,
    by rw [hbytes]⟩

/-- A payload set and pasted, `between` happening before the paste's
request reaches the bridge. -/
def pasted (between : List ServingAction) : List ServingAction :=
  [.act (.payload (.text "a")), .act .process, .act .paste] ++ between ++
    List.replicate 9 (.act (.dispatch none))

theorem pasted_isSome :
    (Serving.machine.exec { world := World.start none } (pasted [])).isSome = true := by
  decide +kernel

/-- Without anything between, the answer is the payload. -/
theorem answer_iff_pasted : ∃ t, Serving.machine.Reachable t ∧ ⟨1, 1, [97]⟩ ∈ t.answers ∧
    ∃ p latest, t.payloadOf 1 = some p ∧ t.payloadOf 1 = some latest ∧
      ([97] = bytesOf p ↔ bytesOf latest = bytesOf p) := by
  have ht : Serving.machine.Reachable (Option.get _ pasted_isSome) :=
    Machine.reach_of_exec (pasted []) (.start ⟨none, rfl⟩) (Option.some_get pasted_isSome).symm
  have ha : ⟨1, 1, [97]⟩ ∈ (Option.get _ pasted_isSome).answers := by decide +kernel
  exact ⟨_, ht, ha, answer_iff ht ha⟩

theorem pasted_late_isSome : (Serving.machine.exec { world := World.start none }
    (pasted [.act (.payload (.text "b"))])).isSome = true := by
  decide +kernel

/-- **A newer payload between** answers the request for the older one. -/
theorem pasted_late_answer : ∃ t, Serving.machine.Reachable t ∧ ⟨1, 2, [98]⟩ ∈ t.answers ∧
    t.payloadOf 1 = some (.text "a") := by
  have ht : Serving.machine.Reachable (Option.get _ pasted_late_isSome) :=
    Machine.reach_of_exec (pasted [.act (.payload (.text "b"))]) (.start ⟨none, rfl⟩)
      (Option.some_get pasted_late_isSome).symm
  exact ⟨_, ht, by decide +kernel, by decide +kernel⟩

/-! ## Setting a payload -/

/-- No payload follows, and no client changes the selection. -/
def World.Undisturbed (_ : World) : Action → Prop
  | .dispatch _ | .process | .paste => True
  | .payload _ | .copy _ | .clear => False

/-- **What is behind the selection** once the nest has got to the requests
under way. -/
def World.prospect (w : World) : Option Origin :=
  Fifo.final (w.nest.selection.map Offer.origin) (w.requests.map fun r => .own r.source r.mimes)

/-- A source of the bridge is offered under the payload's types, and the
bridge serves the payload's bytes. -/
def ServesAs (origin : Option Origin) (s : ClipState) (data : ClipboardData) : Prop :=
  (∃ source, origin = some (.own source (mimesOf data))) ∧ s.serveBytes = bytesOf data

/-- **The payload is the nest's selection.** -/
def World.Serves (w : World) (data : ClipboardData) : Prop :=
  ServesAs (w.nest.selection.map Offer.origin) w.bridge data

/-- **The payload is set, or need not be**: its bytes are not the last
value seen, or it is what the selection is about to be. -/
def World.Takes (w : World) (data : ClipboardData) : Prop :=
  w.bridge.lastValue ≠ some (bytesOf data) ∨ ServesAs w.prospect w.bridge data

/-- Undisturbed, the prospect and what is served stay. -/
theorem undisturbed_step {a : Action} (ha : w.Undisturbed a) (h : w.step a = some w') :
    w'.prospect = w.prospect ∧ w'.bridge.serveBytes = w.bridge.serveBytes := by
  cases a with
  | payload data => exact ha.elim
  | copy c => exact ha.elim
  | clear => exact ha.elim
  | paste =>
    obtain ⟨k, -, rfl⟩ := Option.map_eq_some_iff.1 h
    exact ⟨rfl, rfl⟩
  | dispatch delivered =>
    rw [World.step] at h
    cases he : w.events with
    | nil =>
      rw [he] at h
      cases h
    | cons e es =>
      rw [he] at h
      cases h
      exact ⟨rfl, handle_serveBytes w.bridge delivered e⟩
  | process =>
    rw [World.step] at h
    cases hr : w.requests with
    | nil =>
      rw [hr] at h
      cases h
    | cons r rs =>
      rw [hr] at h
      cases h
      refine ⟨?_, rfl⟩
      rw [World.prospect, World.prospect, hr, List.map_cons, Fifo.final_cons]
      rfl

theorem undisturbed_run (acts : List Action)
    (h : World.machine.Run World.Undisturbed w acts w') :
    w'.prospect = w.prospect ∧ w'.bridge.serveBytes = w.bridge.serveBytes := by
  induction acts generalizing w with
  | nil =>
    cases h
    exact ⟨rfl, rfl⟩
  | cons a acts ih =>
    obtain ⟨ha, t, ht, h⟩ := h
    obtain ⟨hprospect, hbytes⟩ := ih h
    obtain ⟨hprospect', hbytes'⟩ := undisturbed_step ha ht
    exact ⟨hprospect.trans hprospect', hbytes.trans hbytes'⟩

/-- The nest can get to every request under way. -/
theorem exists_processed (w : World) :
    ∃ w', World.machine.Run World.Undisturbed w (List.replicate w.requests.length .process) w' ∧
      w'.requests = [] := by
  cases hr : w.requests with
  | nil => exact ⟨w, rfl, hr⟩
  | cons r rs =>
    have hlength : ({ w with requests := rs }.select
        (some (.own r.source r.mimes))).requests.length < w.requests.length := by
      rw [hr]
      exact Nat.lt_succ_self _
    obtain ⟨w', hrun, hdone⟩ :=
      exists_processed ({ w with requests := rs }.select (some (.own r.source r.mimes)))
    refine ⟨w', ⟨trivial, _, ?_, hrun⟩, hdone⟩
    show w.step .process = some _
    rw [World.step, hr]
termination_by w.requests.length

/-- What a payload makes the prospect. -/
theorem payload_servesAs_iff (hsize : (bytesOf data).length ≤ maxClipboardBytes) :
    ServesAs (w.payload data).prospect (w.payload data).bridge data ↔ w.Takes data := by
  rcases setSelection_cases w.bridge data with ⟨hsame, heq⟩ | ⟨hnew, heq⟩
  · have hlast := hsame.resolve_left (Nat.not_lt.2 hsize)
    have hworld : w.payload data = w := by
      simp [World.payload, heq]
    rw [hworld]
    exact ⟨.inr, fun h => h.resolve_left fun hne => hne hlast⟩
  · have hbytes : (w.payload data).bridge.serveBytes = bytesOf data := by
      show (setSelection w.bridge data).1.serveBytes = _
      rw [heq]
    have hprospect : (w.payload data).prospect =
        some (.own (w.bridge.created + 1) (mimesOf data)) := by
      rw [World.prospect]
      show Fifo.final _ ((w.requests ++ (setSelection w.bridge data).2.toList).map _) = _
      rw [heq, Option.toList_some, List.map_append, List.map_singleton, Fifo.final_concat]
    exact iff_of_true ⟨⟨_, hprospect⟩, hbytes⟩ (.inl hnew)

/-- **When setting the remote clipboard takes effect.** After a payload of
admissible size, and once the nest has got to the bridge's requests with
nobody else changing the selection, the selection is a source of the
bridge that serves the payload, exactly when the payload was taken. -/
theorem setSelection_effective_iff (hsize : (bytesOf data).length ≤ maxClipboardBytes)
    {acts : List Action}
    (hrun : World.machine.Run World.Undisturbed (w.payload data) acts w')
    (hdone : w'.requests = []) : w'.Serves data ↔ w.Takes data := by
  obtain ⟨hprospect, hbytes⟩ := undisturbed_run acts hrun
  have hselection : w'.nest.selection.map Offer.origin = (w.payload data).prospect := by
    rw [← hprospect, World.prospect, hdone]
    rfl
  rw [World.Serves, ServesAs, hselection, hbytes]
  exact payload_servesAs_iff hsize

/-- The first payload of a session is set. -/
theorem setSelection_effective_first : ∃ w', World.machine.Run World.Undisturbed
    ((World.start none).payload (.text "a")) [.process] w' ∧ w'.Serves (.text "a") := by
  have hrun : World.machine.Run World.Undisturbed ((World.start none).payload (.text "a")) [.process]
      (({ (World.start none).payload (.text "a") with requests := [] }).select
        (some (.own 1 textMimes))) := ⟨trivial, _, rfl, rfl⟩
  have hsize : (bytesOf (.text "a")).length ≤ maxClipboardBytes := by decide
  exact ⟨_, hrun, (setSelection_effective_iff hsize hrun rfl).2 (.inl (by decide))⟩

/-- A payload set, and the selection cleared. -/
def cleared : List Action :=
  [.payload (.text "a"), .process, .clear] ++ List.replicate 10 (.dispatch none)

theorem cleared_isSome : (World.machine.exec (World.start none) cleared).isSome = true := by
  decide +kernel

/-- **The same payload again** is not set. -/
theorem cleared_not_effective : ∃ w, World.machine.Reachable w ∧ w.Quiescent ∧
    (bytesOf (.text "a")).length ≤ maxClipboardBytes ∧
      (w.payload (.text "a")).Quiescent ∧ ¬ (w.payload (.text "a")).Serves (.text "a") := by
  have hw : World.machine.Reachable (Option.get _ cleared_isSome) :=
    Machine.reach_of_exec cleared (.start ⟨none, rfl⟩) (Option.some_get cleared_isSome).symm
  have hnone : ((Option.get _ cleared_isSome).payload (.text "a")).nest.selection = none := by
    decide +kernel
  refine ⟨_, hw, by decide +kernel, by decide, by decide +kernel, ?_⟩
  rintro ⟨⟨source, hsource⟩, -⟩
  rw [hnone] at hsource
  cases hsource

end Clipboard

end WaylandWebStream
