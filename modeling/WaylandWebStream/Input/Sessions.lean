import WaylandWebStream.Input.LastMove

/-!
# Input — sessions that end, and their successors

What a connection leaves in the seat when it is gone, and what it can
still do to the one after it. A teardown cancels every touch, and nothing
else: keys and buttons stay as the last press or release of each left
them. And the cancel, like anything an old connection still sends, goes
into the channel the newer one is already using, where it ends the newer
one's contacts too.
-/

namespace WaylandWebStream

namespace Input

open Latest

variable {d : Dimensions} {s s' : State} {a : Action} {id : Int32}

/-! ## Presses and releases among the messages dispatched -/

/-- Every key pressed is released later, by a code of the same keycode. -/
def KeysReleased (log : List Entry) : Prop :=
  ∀ before e after code keycode, log = before ++ e :: after →
    e.message = .key (.down code) → evdevKeycode code = some keycode →
    ∃ f ∈ after, ∃ code', f.message = .key (.up code') ∧ evdevKeycode code' = some keycode

/-- Every known button pressed is released later. -/
def ButtonsReleased (log : List Entry) : Prop :=
  ∀ before e after p code, log = before ++ e :: after →
    e.message = .pointer (.down p) → linuxButtonCode p.button = some code →
    ∃ f ∈ after, ∃ p', f.message = .pointer (.up p') ∧ linuxButtonCode p'.button = some code

theorem add_eight_injective : Function.Injective fun n : UInt32 => n + 8 :=
  fun _ _ h => by simpa using h

/-- A message presses a key exactly when it is the down of a code it has. -/
theorem keyEdge_eq_press_iff {m : InputMessage} {k : UInt32} :
    m.keyEdge = some (.press k) ↔
      ∃ code keycode, m = .key (.down code) ∧ evdevKeycode code = some keycode ∧
        k = keycode + 8 := by
  constructor
  · intro h
    cases m with
    | key event =>
      cases event with
      | down code =>
        obtain ⟨keycode, hcode, heq⟩ := Option.map_eq_some_iff.1 h
        exact ⟨code, keycode, rfl, hcode, (Edge.press.inj heq).symm⟩
      | up code =>
        obtain ⟨keycode, -, heq⟩ := Option.map_eq_some_iff.1 h
        cases heq
    | _ => cases h
  · rintro ⟨code, keycode, rfl, hcode, rfl⟩
    simp [InputMessage.keyEdge, hcode]

/-- A message lets go of a key exactly when it is the up of a code it has. -/
theorem keyEdge_letsGo_iff {m : InputMessage} {keycode : UInt32} :
    (∃ e, m.keyEdge = some e ∧ e.LetsGo (keycode + 8)) ↔
      ∃ code, m = .key (.up code) ∧ evdevKeycode code = some keycode := by
  constructor
  · rintro ⟨e, he, hgo⟩
    cases m with
    | key event =>
      cases event with
      | down code =>
        obtain ⟨k, -, rfl⟩ := Option.map_eq_some_iff.1 he
        rcases hgo with hgo | hgo <;> cases hgo
      | up code =>
        obtain ⟨k, hcode, rfl⟩ := Option.map_eq_some_iff.1 he
        rcases hgo with hgo | hgo
        · exact ⟨code, rfl, by rw [hcode, add_eight_injective (Edge.release.inj hgo)]⟩
        · cases hgo
    | _ => cases he
  · rintro ⟨code, rfl, hcode⟩
    exact ⟨.release (keycode + 8), by simp [InputMessage.keyEdge, hcode], .inl rfl⟩

theorem buttonEdge_eq_press_iff {m : InputMessage} {code : UInt32} :
    m.buttonEdge = some (.press code) ↔
      ∃ p, m = .pointer (.down p) ∧ linuxButtonCode p.button = some code := by
  constructor
  · intro h
    cases m with
    | pointer event =>
      cases event with
      | down p =>
        obtain ⟨c, hcode, heq⟩ := Option.map_eq_some_iff.1 h
        exact ⟨p, rfl, by rw [hcode, Edge.press.inj heq]⟩
      | up p =>
        obtain ⟨c, -, heq⟩ := Option.map_eq_some_iff.1 h
        cases heq
      | _ => cases h
    | _ => cases h
  · rintro ⟨p, rfl, hcode⟩
    simp [InputMessage.buttonEdge, hcode]

theorem buttonEdge_letsGo_iff {m : InputMessage} {code : UInt32} :
    (∃ e, m.buttonEdge = some e ∧ e.LetsGo code) ↔
      ∃ p, m = .pointer (.up p) ∧ linuxButtonCode p.button = some code := by
  constructor
  · rintro ⟨e, he, hgo⟩
    cases m with
    | pointer event =>
      cases event with
      | down p =>
        obtain ⟨c, -, rfl⟩ := Option.map_eq_some_iff.1 he
        rcases hgo with hgo | hgo <;> cases hgo
      | up p =>
        obtain ⟨c, hcode, rfl⟩ := Option.map_eq_some_iff.1 he
        rcases hgo with hgo | hgo
        · exact ⟨p, rfl, by rw [hcode, Edge.release.inj hgo]⟩
        · cases hgo
      | _ => cases he
    | _ => cases he
  · rintro ⟨p, rfl, hcode⟩
    exact ⟨.release code, by simp [InputMessage.buttonEdge, hcode], .inl rfl⟩

/-- A message that was dropped presses nothing and releases nothing. -/
theorem Accounted.accepted_of_edge (h : Accounted d s) {f : InputMessage → Option (Edge UInt32)}
    (hf : ∀ m : InputMessage, m.isMove → f m = none) :
    (s.log.filter Entry.accepted).filterMap (fun e => f e.message) =
      s.log.filterMap fun e => f e.message := by
  rw [List.filterMap_filter]
  refine List.filterMap_congr fun e he => ?_
  cases haccepted : e.accepted with
  | true => rfl
  | false => exact (hf _ (h.dropped_move e he haccepted)).symm

theorem keyEdge_of_isMove (m : InputMessage) (h : m.isMove) : m.keyEdge = none := by
  cases m with
  | key event => cases h
  | _ => rfl

theorem buttonEdge_of_isMove (m : InputMessage) (h : m.isMove) : m.buttonEdge = none := by
  cases m with
  | pointer event => cases event <;> first | rfl | cases h
  | _ => rfl

theorem InputMessage.keyEdge_of_device {m : InputMessage} (h : m.device ≠ .key) :
    m.keyEdge = none := by
  cases m <;> first | rfl | exact absurd rfl h

theorem InputMessage.buttonEdge_of_device {m : InputMessage} (h : m.device ≠ .pointer) :
    m.buttonEdge = none := by
  cases m <;> first | rfl | exact absurd rfl h

theorem InputMessage.touchEvent_of_device {m : InputMessage} (h : m.device ≠ .touch) :
    m.touchEvent = none := by
  cases m <;> first | rfl | exact absurd rfl h

/-- **No key is held** once drained exactly when every press was followed
by a release. -/
theorem Accounted.keys_eq_empty_iff (h : Accounted d s) (hdrained : s.Drained) :
    s.seat.keys = ∅ ↔ KeysReleased s.log := by
  rw [h.keys, h.filterMap_injected hdrained .key fun _ => InputMessage.keyEdge_of_device,
    h.accepted_of_edge keyEdge_of_isMove, Edge.held_filterMap_eq_empty_iff]
  constructor
  · intro hall before e after code keycode hsplit hmessage hcode
    obtain ⟨f, hf, hgo⟩ := hall (keycode + 8) before e after hsplit
      (keyEdge_eq_press_iff.2 ⟨code, keycode, hmessage, hcode, rfl⟩)
    exact ⟨f, hf, keyEdge_letsGo_iff.1 hgo⟩
  · intro hall k before e after hsplit hpress
    obtain ⟨code, keycode, hmessage, hcode, rfl⟩ := keyEdge_eq_press_iff.1 hpress
    obtain ⟨f, hf, hup⟩ := hall before e after code keycode hsplit hmessage hcode
    exact ⟨f, hf, keyEdge_letsGo_iff.2 hup⟩

/-- The same of the buttons. -/
theorem Accounted.buttons_eq_empty_iff (h : Accounted d s) (hdrained : s.Drained) :
    s.seat.buttons = ∅ ↔ ButtonsReleased s.log := by
  rw [h.buttons, h.filterMap_injected hdrained .pointer fun _ => InputMessage.buttonEdge_of_device,
    h.accepted_of_edge buttonEdge_of_isMove, Edge.held_filterMap_eq_empty_iff]
  constructor
  · intro hall before e after p code hsplit hmessage hcode
    obtain ⟨f, hf, hgo⟩ := hall code before e after hsplit
      (buttonEdge_eq_press_iff.2 ⟨p, hmessage, hcode⟩)
    exact ⟨f, hf, buttonEdge_letsGo_iff.1 hgo⟩
  · intro hall code before e after hsplit hpress
    obtain ⟨p, hmessage, hcode⟩ := buttonEdge_eq_press_iff.1 hpress
    obtain ⟨f, hf, hup⟩ := hall before e after p code hsplit hmessage hcode
    exact ⟨f, hf, buttonEdge_letsGo_iff.2 hup⟩

/-! ## The teardown's cancel -/

/-- The touch event of a message of one connection. -/
def Entry.touchOf (i : ℕ) (e : Entry) : Option TouchEvent :=
  if e.conn = i then e.message.touchEvent else none

/-- **A connection that is over has cancelled its touches**: the last
touch event of a connection out of its loop is a cancel. -/
structure Tidy (s : State) : Prop where
  absent : ∀ i, s.generation < i → s.phase i = .absent
  cancelled : ∀ i, s.phase i ≠ .serving → s.phase i ≠ .closing →
    ∀ event, latest (Entry.touchOf i) s.log = some event → ∃ touches, event = .touchcancel touches

/-- A connection in another phase, that has no touch event to cancel. -/
theorem Tidy.setPhase (h : Tidy s) {i : ℕ} {p : Phase} (hi : s.phase i ≠ .absent)
    (hp : p ≠ .serving → p ≠ .closing → s.phase i ≠ .serving ∧ s.phase i ≠ .closing) :
    Tidy (s.setPhase i p) := by
  refine ⟨fun j hj => ?_, fun j hserving hclosing event hlatest => ?_⟩
  · have hne : j ≠ i := by
      rintro rfl
      exact hi (h.absent j hj)
    exact (Function.update_of_ne hne _ _).trans (h.absent j hj)
  · by_cases hj : j = i
    · subst hj
      simp only [State.setPhase, Function.update_self] at hserving hclosing
      obtain ⟨hs, hc⟩ := hp hserving hclosing
      exact h.cancelled j hs hc event hlatest
    · simp only [State.setPhase, Function.update_of_ne hj] at hserving hclosing
      exact h.cancelled j hserving hclosing event hlatest

/-- A message dispatched by a connection still in its loop. -/
theorem Tidy.dispatched (h : Tidy s) {e : Entry} (hserving : s.phase e.conn = .serving)
    {t : State} (hgeneration : t.generation = s.generation) (hphase : t.phase = s.phase)
    (hlog : t.log = s.log ++ [e]) : Tidy t := by
  refine ⟨fun j hj => ?_, fun j hs hc event hlatest => ?_⟩
  · rw [hphase]
    exact h.absent j (hgeneration ▸ hj)
  · rw [hphase] at hs hc
    have hne : ¬ e.conn = j := by
      rintro rfl
      exact hs hserving
    rw [hlog, latest_concat, Entry.touchOf, if_neg hne, Option.none_or] at hlatest
    exact h.cancelled j hs hc event hlatest

theorem Tidy.step (h : Tidy s) (hstep : s.step a = some s') : Tidy s' := by
  cases trans_of_step hstep with
  | connect =>
    refine ⟨fun j hj => ?_, fun j hs hc event hlatest => ?_⟩
    · have hlt : s.generation + 1 < j := hj
      have hne : j ≠ s.generation + 1 := by omega
      exact (Function.update_of_ne hne _ _).trans (h.absent j (by omega))
    · by_cases hj : j = s.generation + 1
      · -- a number given out for the first time has no touch event in the log
        have habsent := h.absent j (by omega)
        exact h.cancelled j (by rw [habsent]; exact nofun) (by rw [habsent]; exact nofun) event
          hlatest
      · simp only [State.setPhase, Function.update_of_ne hj] at hs hc
        exact h.cancelled j hs hc event hlatest
  | serve hphase => exact h.setPhase (by rw [hphase]; exact nofun) fun hne _ => absurd rfl hne
  | refuse hphase =>
    exact h.setPhase (by rw [hphase]; exact nofun) fun _ _ => by rw [hphase]; exact ⟨nofun, nofun⟩
  | @queued i message hphase _ =>
    exact Tidy.dispatched (e := s.entry i message true) h hphase rfl rfl rfl
  | @dropped i message hphase _ _ =>
    exact Tidy.dispatched (e := s.entry i message false) h hphase rfl rfl rfl
  | leave hphase => exact h.setPhase (by rw [hphase]; exact nofun) fun _ hne => absurd rfl hne
  | @teardown i hphase _ =>
    refine ⟨fun j hj => ?_, fun j hs hc event hlatest => ?_⟩
    · have hne : j ≠ i := by
        rintro rfl
        have habsent := h.absent j hj
        rw [hphase] at habsent
        cases habsent
      exact (Function.update_of_ne hne _ _).trans (h.absent j hj)
    · have hlog : latest (Entry.touchOf j)
          (s.log ++ [s.entry i (.touch (.touchcancel [])) true]) = some event := hlatest
      rw [latest_concat] at hlog
      by_cases hj : i = j
      · subst hj
        -- the connection's own cancel is now the last of its events
        have hcancel : Entry.touchOf i (s.entry i (.touch (.touchcancel [])) true) =
            some (.touchcancel []) := if_pos rfl
        rw [hcancel] at hlog
        exact ⟨[], (Option.some.inj hlog).symm⟩
      · have hother : Entry.touchOf j (s.entry i (.touch (.touchcancel [])) true) = none :=
          if_neg hj
        have hne : j ≠ i := fun heq => hj heq.symm
        simp only [State.setPhase, Function.update_of_ne hne] at hs hc
        rw [hother, Option.none_or] at hlog
        exact h.cancelled j hs hc event hlog
  | beginPass _ => exact ⟨h.absent, h.cancelled⟩
  | take _ _ => exact ⟨h.absent, h.cancelled⟩
  | @advance device _ _ => cases device <;> exact ⟨h.absent, h.cancelled⟩

theorem tidy (h : (machine d).Reachable s) : Tidy s := by
  refine Machine.Reachable.invariant ?_ (fun s a s' hstep hs => Tidy.step hs hstep) h
  rintro s rfl
  exact ⟨fun _ _ => rfl, fun _ _ _ _ hlatest => by cases hlatest⟩

/-- With every connection over, the last touch event of all is a cancel. -/
theorem Tidy.last_touch (h : Tidy s) (hdeserted : s.Deserted) {event : TouchEvent}
    (hlatest : latest (·.message.touchEvent) s.log = some event) :
    ∃ touches, event = .touchcancel touches := by
  rcases last_report (fun e : Entry => e.message.touchEvent) s.log with hnone | hlast
  · rw [latest_eq_none hnone] at hlatest
    cases hlatest
  · obtain ⟨before, e, after, ev, hlog, he, hafter⟩ := hlast
    have hsplit := @latest_split _ _ (fun e : Entry => e.message.touchEvent) before after _ _ he hafter
    rw [hlog, hsplit] at hlatest
    obtain rfl := Option.some.inj hlatest
    -- the last of all is in particular the last of its sender
    have hown : latest (Entry.touchOf e.conn) s.log = some ev := by
      rw [hlog]
      refine latest_split (by rw [Entry.touchOf, if_pos rfl, he]) fun x hx => ?_
      rw [Entry.touchOf, hafter x hx, ite_self]
    have hphase : s.phase e.conn ≠ .serving ∧ s.phase e.conn ≠ .closing := by
      rcases hdeserted e.conn with hp | hp <;> rw [hp] <;> exact ⟨nofun, nofun⟩
    exact h.cancelled e.conn hphase.1 hphase.2 ev hown

/-- **No contact is left.** -/
theorem touches_eq_none (h : (machine d).Reachable s) (hdeserted : s.Deserted)
    (hdrained : s.Drained) (slot : UInt32) : s.seat.touches slot = none := by
  have haccount := accounted h
  have hslot : slot = slot.toInt32.toUInt32 := (UInt32.toUInt32_toInt32 slot).symm
  rw [hslot, haccount.touches, haccount.filterMap_injected hdrained .touch fun _ =>
    InputMessage.touchEvent_of_device]
  -- The last touch event was a cancel, so it was taken and is the last the handler saw.
  have hsettled : latest (·.message.touchEvent) (s.log.filter Entry.accepted) =
      latest (·.message.touchEvent) s.log := by
    refine (latest_eq_iff_settled fun _ _ h => h).2 fun before e after event hlog he hafter => ?_
    have hlatest : latest (·.message.touchEvent) s.log = some event := by
      rw [hlog]
      exact @latest_split _ _ (fun e : Entry => e.message.touchEvent) _ _ _ _ he hafter
    obtain ⟨touches, rfl⟩ := (tidy h).last_touch hdeserted hlatest
    have hmessage : e.message = .touch (.touchcancel touches) := by
      cases hm : e.message with
      | touch event => rw [hm] at he; rw [Option.some.inj he]
      | _ => rw [hm] at he; cases he
    refine .inl ⟨?_, by rw [he]; rfl⟩
    cases haccepted : e.accepted with
    | true => rfl
    | false =>
      have hmove := haccount.dropped_move e (by rw [hlog]; simp) haccepted
      rw [hmessage] at hmove
      cases hmove
  rcases List.eq_nil_or_concat' ((s.log.filter Entry.accepted).filterMap (·.message.touchEvent))
    with hnil | ⟨events, event, hconcat⟩
  · rw [hnil]
    rfl
  · have hlast : latest (·.message.touchEvent) (s.log.filter Entry.accepted) = some event := by
      rw [latest, hconcat, List.getLast?_concat]
    rw [hsettled] at hlast
    obtain ⟨touches, rfl⟩ := (tidy h).last_touch hdeserted hlast
    rw [hconcat]
    have hat : ((TouchHandler.new d).run (events ++ [.touchcancel touches])).1.at?
        slot.toInt32 = none := by
      rw [TouchHandler.run_at, List.foldl_concat]
      rfl
    exact hat

/-- **When nothing stays pressed.** In every run, once every connection
has ended and the channels are drained, the seat holds no key, no button
and no contact exactly when every key and every known button pressed was
also released, in messages the server got. -/
theorem nothing_held_iff (h : (machine d).Reachable s) (hdeserted : s.Deserted)
    (hdrained : s.Drained) :
    (s.seat.keys = ∅ ∧ s.seat.buttons = ∅ ∧ ∀ slot, s.seat.touches slot = none) ↔
      KeysReleased s.log ∧ ButtonsReleased s.log := by
  have haccount := accounted h
  rw [haccount.keys_eq_empty_iff hdrained, haccount.buttons_eq_empty_iff hdrained]
  exact and_congr_right fun _ => and_iff_left (touches_eq_none h hdeserted hdrained)

/-- A key goes down and the connection is lost; its teardown's cancel and
the key are drained. -/
def lostWhilePressed : List Action :=
  [.connect, .serve 1, .receive 1 (.key (.down "ControlLeft")), .leave 1, .teardown 1,
    .beginPass, .take, .advance, .advance, .take, .advance]

/-- **The key stays down.** -/
theorem key_stays_held :
    ∃ s, (machine ⟨1920, 1080⟩).Reachable s ∧ s.Deserted ∧ s.Drained ∧ s.seat.keys = {37} := by
  have hrun : ∃ s, (machine ⟨1920, 1080⟩).exec (initial ⟨1920, 1080⟩) lostWhilePressed = some s ∧
      s.phase = Function.update (Function.update (Function.update (Function.update
        (fun _ => .absent) 1 .greeting) 1 .serving) 1 .closing) 1 .gone ∧
      s.Drained ∧ s.seat.keys = {37} := by
    refine ⟨_, rfl, rfl, fun device => ?_, by decide +kernel⟩
    cases device <;> rfl
  obtain ⟨s, hexec, hphase, hdrained, hkeys⟩ := hrun
  refine ⟨s, Machine.reach_of_exec _ (Machine.Reachable.start rfl) hexec, fun i => ?_, hdrained,
    hkeys⟩
  rw [hphase]
  by_cases hi : i = 1
  · exact .inr (by simp [hi])
  · exact .inl (by simp [hi])

/-- A key goes down and up before the connection is lost. -/
theorem nothing_held_after_release :
    ∃ s, (machine ⟨1920, 1080⟩).Reachable s ∧ s.log.length = 3 ∧ KeysReleased s.log := by
  have hrun : ∃ s, (machine ⟨1920, 1080⟩).exec (initial ⟨1920, 1080⟩)
      [.connect, .serve 1, .receive 1 (.key (.down "KeyA")), .receive 1 (.key (.up "KeyA")),
        .leave 1, .teardown 1, .beginPass, .take, .advance, .advance, .take, .take,
        .advance] = some s ∧
      s.phase = Function.update (Function.update (Function.update (Function.update
        (fun _ => .absent) 1 .greeting) 1 .serving) 1 .closing) 1 .gone ∧
      s.Drained ∧ s.log.length = 3 ∧ s.seat.keys = ∅ ∧ s.seat.buttons = ∅ ∧
      ∀ slot, s.seat.touches slot = none := by
    refine ⟨_, rfl, rfl, fun device => ?_, rfl, by decide +kernel, rfl, fun _ => rfl⟩
    cases device <;> rfl
  obtain ⟨s, hexec, hphase, hdrained, hlength, hheld⟩ := hrun
  have hreach := Machine.reach_of_exec _ (Machine.Reachable.start rfl) hexec
  have hdeserted : s.Deserted := by
    intro i
    rw [hphase]
    by_cases hi : i = 1
    · exact .inr (by simp [hi])
    · exact .inl (by simp [hi])
  exact ⟨s, hreach, hlength, ((nothing_held_iff hreach hdeserted hdrained).1 hheld).1⟩

/-! ## One session's contacts and another's events -/

/-- The event starts the contact. -/
def TouchEvent.Starts (id : Int32) (e : TouchEvent) : Prop :=
  ∃ touches, e = .touchstart touches ∧ ∃ t ∈ touches, t.identifier = id

/-- The event ends the contact: an end that lists it, or any cancel. -/
def TouchEvent.Ends (id : Int32) (e : TouchEvent) : Prop :=
  (∃ touches, e = .touchend touches ∧ ∃ t ∈ touches, t.identifier = id) ∨
    ∃ touches, e = .touchcancel touches

/-- A touch event and the generation of the connection it came from. -/
abbrev Sent := ℕ × TouchEvent

/-- The contact is down in the handler after these events. -/
def Down (d : Dimensions) (sent : List Sent) (id : Int32) : Prop :=
  (((TouchHandler.new d).run (sent.map Prod.snd)).1.at? id).isSome

/-- The contact is down, and the connection started it: it sent a start
of it, since which the contact has been down. -/
def StartedBy (d : Dimensions) (sent : List Sent) (i : ℕ) (id : Int32) : Prop :=
  ∃ before touches after, sent = before ++ (i, .touchstart touches) :: after ∧
    (∃ t ∈ touches, t.identifier = id) ∧
    ∀ l, l <+: after → Down d (before ++ (i, .touchstart touches) :: l) id

/-- **No contact a connection started is ended by an older one.** -/
def Undisturbed (d : Dimensions) (sent : List Sent) : Prop :=
  ∀ before j e after, sent = before ++ (j, e) :: after →
    ∀ i id, StartedBy d before i id → ¬ Down d (before ++ [(j, e)]) id → i ≤ j

/-- Between a connection's start of a contact and an older one's event
that would end it, something else ends it. -/
def EndedFirst (sent : List Sent) : Prop :=
  ∀ before i touches between j e after id,
    sent = before ++ (i, .touchstart touches) :: (between ++ (j, e) :: after) →
    (∃ t ∈ touches, t.identifier = id) → e.Ends id → j < i →
    ∃ x ∈ between, TouchEvent.Ends id x.2

variable {sent sent' : List Sent} {i j : ℕ} {e : TouchEvent} {touches : List TouchPoint}

theorem puts_isSome {t : TouchPoint} : (t.puts d id).isSome ↔ t.identifier = id := by
  unfold TouchPoint.puts
  split_ifs with h <;> simp [h]

/-- A list says where a contact is exactly when it lists it. -/
theorem latest_puts_isSome :
    (latest (TouchPoint.puts d id) touches).isSome ↔ ∃ t ∈ touches, t.identifier = id := by
  induction touches with
  | nil => simp
  | cons t touches ih =>
    rw [latest_cons, Option.isSome_or, Bool.or_eq_true, ih, puts_isSome]
    simp only [List.mem_cons, exists_eq_or_imp]
    exact or_comm

/-- **What an event makes of a contact**: down if it is started, or was
down and is not ended. -/
theorem contact_isSome {p : Option Position} :
    (e.contact d id p).isSome ↔ e.Starts id ∨ p.isSome ∧ ¬ e.Ends id := by
  cases e with
  | touchstart touches =>
    simp only [TouchEvent.contact, Option.isSome_or, Bool.or_eq_true, latest_puts_isSome]
    simp [TouchEvent.Starts, TouchEvent.Ends]
  | touchmove touches =>
    simp only [TouchEvent.contact]
    cases p <;> simp [TouchEvent.Starts, TouchEvent.Ends]
  | touchend touches =>
    simp only [TouchEvent.contact]
    by_cases hlist : (latest (TouchPoint.puts d id) touches).isSome
    · rw [if_pos hlist]
      have hmem := latest_puts_isSome.1 hlist
      simp [TouchEvent.Starts, TouchEvent.Ends, hmem]
    · rw [if_neg hlist]
      have hmem : ∀ t ∈ touches, ¬ t.identifier = id :=
        fun t ht hid => hlist (latest_puts_isSome.2 ⟨t, ht, hid⟩)
      simpa [TouchEvent.Starts, TouchEvent.Ends] using fun _ => hmem
  | touchcancel touches => simp [TouchEvent.contact, TouchEvent.Starts, TouchEvent.Ends]

theorem down_concat : Down d (sent ++ [(j, e)]) id ↔
    e.Starts id ∨ Down d sent id ∧ ¬ e.Ends id := by
  unfold Down
  rw [List.map_append, TouchHandler.run_at, List.map_singleton, List.foldl_concat,
    TouchHandler.run_at]
  exact contact_isSome

/-- What ends a contact does not start it. -/
theorem not_starts_of_ends (h : e.Ends id) : ¬ e.Starts id := by
  rintro ⟨touches, rfl, -⟩
  rcases h with ⟨_, h, -⟩ | ⟨_, h⟩ <;> cases h

/-- A contact started stays down as long as nothing ends it. -/
theorem down_throughout_iff {before after : List Sent}
    (hlist : ∃ t ∈ touches, t.identifier = id) :
    (∀ l, l <+: after → Down d (before ++ (i, .touchstart touches) :: l) id) ↔
      ∀ x ∈ after, ¬ TouchEvent.Ends id x.2 := by
  induction after using List.reverseRecOn with
  | nil =>
    refine ⟨fun _ _ hx => absurd hx List.not_mem_nil, fun _ l hl => ?_⟩
    rw [List.prefix_nil.1 hl]
    exact down_concat.2 (.inl ⟨touches, rfl, hlist⟩)
  | append_singleton after x ih =>
    obtain ⟨j, e⟩ := x
    constructor
    · intro h y hy
      have hprev := ih.1 fun l hl => h l (hl.trans (List.prefix_append _ _))
      rcases List.mem_append.1 hy with hy | hy
      · exact hprev y hy
      · rw [List.mem_singleton.1 hy]
        intro hends
        have hdown := h (after ++ [(j, e)]) List.prefix_rfl
        -- the last event would have to start the contact to leave it down
        rw [← List.cons_append, ← List.append_assoc, down_concat] at hdown
        rcases hdown with hstarts | ⟨-, hno⟩
        · exact not_starts_of_ends hends hstarts
        · exact hno hends
    · intro h l hl
      have hprev := ih.2 fun y hy => h y (List.mem_append_left _ hy)
      rcases List.prefix_concat_iff.1 hl with rfl | hl
      · rw [← List.cons_append, ← List.append_assoc, down_concat]
        exact .inr ⟨hprev after List.prefix_rfl, h (j, e) (by simp)⟩
      · exact hprev l hl

/-- **When an older connection ends nothing of a newer one's**, in terms
of the events alone. -/
theorem undisturbed_iff : Undisturbed d sent ↔ EndedFirst sent := by
  constructor
  · rintro h before i touches between j e after id rfl hlist hends hlt
    -- suppose nothing in between ended the contact: then it is the newer one's when it is ended
    by_contra hno
    have hstarted : StartedBy d (before ++ (i, .touchstart touches) :: between) i id :=
      ⟨before, touches, between, rfl, hlist, (down_throughout_iff hlist).2 fun x hx hx' =>
        hno ⟨x, hx, hx'⟩⟩
    have hup : ¬ Down d ((before ++ (i, .touchstart touches) :: between) ++ [(j, e)]) id := by
      rw [down_concat]
      rintro (hstarts | ⟨-, hno'⟩)
      · exact not_starts_of_ends hends hstarts
      · exact hno' hends
    have hle := h _ j e after (by simp) i id hstarted hup
    omega
  · rintro h before j e after rfl i id ⟨first, touches, between, rfl, hlist, hdown⟩ hup
    have hquiet := (down_throughout_iff hlist).1 hdown
    by_contra hlt
    -- what leaves the contact up ended it, and ended it first, the contact having been down
    have hends : e.Ends id := by
      by_contra hno
      exact hup (down_concat.2 (.inr ⟨hdown between List.prefix_rfl, hno⟩))
    obtain ⟨x, hx, hxe⟩ := h first i touches between j e after id (by simp) hlist hends
      (not_le.1 hlt)
    exact hquiet x hx hxe

theorem EndedFirst.of_append (h : EndedFirst (sent ++ sent')) : EndedFirst sent := by
  rintro before i touches between j e after id rfl hlist hends hlt
  exact h before i touches between j e (after ++ sent') id (by simp) hlist hends hlt

/-- The touch events of entries, and who sent them. -/
def touchSent (entries : List Entry) : List Sent :=
  entries.filterMap fun e => e.message.touchEvent.map fun event => (e.conn, event)

/-- What was injected of the touch channel is a prefix of what it took. -/
theorem Accounted.touchSent_eq (h : Accounted d s) :
    touchSent (s.log.filter Entry.accepted) =
      touchSent s.injected ++ touchSent (s.channel .touch) := by
  have honly : ∀ l : List Entry, touchSent (l.filter (Entry.goesTo .touch)) = touchSent l :=
    filterMap_filter_goesTo fun e he => by rw [InputMessage.touchEvent_of_device he]; rfl
  rw [← honly, filter_goesTo_accepted, h.channel_eq, touchSent, List.filterMap_append]
  exact congrArg (· ++ _) (honly s.injected)

/-- **When a superseded connection cannot disturb its successor.** In
every run: the contacts down in the seat are those the injected events
leave down; none of them that a connection started is ended by an older
connection, as long as in the order in which the events entered the touch
channel no cancel and no end naming the contact, of an older connection,
comes between a start and the first event that ends the contact; and once
the channels are drained, exactly then. -/
theorem undisturbed_run_iff (h : (machine d).Reachable s) :
    (∀ id, (s.seat.touches (Int32.toUInt32 id)).isSome ↔ Down d (touchSent s.injected) id) ∧
    (EndedFirst (touchSent (s.log.filter Entry.accepted)) →
      Undisturbed d (touchSent s.injected)) ∧
    (s.Drained → (Undisturbed d (touchSent s.injected) ↔
      EndedFirst (touchSent (s.log.filter Entry.accepted)))) := by
  have haccount := accounted h
  refine ⟨fun id => ?_, fun hfirst => ?_, fun hdrained => ?_⟩
  · rw [haccount.touches]
    have hevents : (touchSent s.injected).map Prod.snd =
        s.injected.filterMap (·.message.touchEvent) := by
      rw [touchSent, List.map_filterMap]
      refine List.filterMap_congr fun e _ => ?_
      cases e.message.touchEvent <;> rfl
    rw [Down, hevents]
    rfl
  · rw [haccount.touchSent_eq] at hfirst
    exact undisturbed_iff.2 hfirst.of_append
  · rw [undisturbed_iff, haccount.touchSent_eq, hdrained .touch]
    exact iff_of_eq (congrArg EndedFirst (List.append_nil _).symm)

/-- A newer connection's finger is down when the older one's teardown
reaches the channel. -/
def lateTeardown : List Action :=
  [.connect, .serve 1, .connect, .serve 2, .leave 1,
    .receive 2 (.touch (.touchstart [⟨7, 0.5, 0.5, 0.5⟩])), .teardown 1, .beginPass, .take, .take,
    .advance, .advance, .advance]

/-- **The older connection ends it.** -/
theorem teardown_ends_newer_contact :
    ∃ s, (machine ⟨1920, 1080⟩).Reachable s ∧ s.Drained ∧
      s.seat.touches 7 = none ∧
      touchSent s.injected =
        [(2, .touchstart [⟨7, 0.5, 0.5, 0.5⟩]), (1, .touchcancel [])] ∧
      ¬ Undisturbed ⟨1920, 1080⟩ (touchSent s.injected) := by
  have hrun : ∃ s, (machine ⟨1920, 1080⟩).exec (initial ⟨1920, 1080⟩) lateTeardown = some s ∧
      s.Drained ∧ s.seat.touches 7 = none ∧ touchSent s.injected =
        [(2, .touchstart [⟨7, 0.5, 0.5, 0.5⟩]), (1, .touchcancel [])] := by
    refine ⟨_, rfl, fun device => ?_, rfl, rfl⟩
    cases device <;> rfl
  obtain ⟨s, hexec, hdrained, hup, hsent⟩ := hrun
  refine ⟨s, Machine.reach_of_exec _ (Machine.Reachable.start rfl) hexec, hdrained, hup, hsent, ?_⟩
  rw [hsent, undisturbed_iff]
  intro h
  obtain ⟨x, hx, -⟩ := h [] 2 [⟨7, 0.5, 0.5, 0.5⟩] [] 1 (.touchcancel []) [] 7 rfl
    ⟨_, List.mem_singleton_self _, rfl⟩ (.inr ⟨[], rfl⟩) (by decide)
  exact absurd hx List.not_mem_nil

/-- The older connection's teardown is in the channel first. -/
theorem undisturbed_run_early_teardown :
    ∃ s, (machine ⟨1920, 1080⟩).Reachable s ∧
      touchSent s.injected =
        [(1, .touchcancel []), (2, .touchstart [⟨7, 0.5, 0.5, 0.5⟩])] ∧
      Undisturbed ⟨1920, 1080⟩ (touchSent s.injected) := by
  have hrun : ∃ s, (machine ⟨1920, 1080⟩).exec (initial ⟨1920, 1080⟩)
      [.connect, .serve 1, .connect, .serve 2, .leave 1, .teardown 1,
        .receive 2 (.touch (.touchstart [⟨7, 0.5, 0.5, 0.5⟩])), .beginPass, .take, .take] = some s ∧
      touchSent s.injected =
        [(1, .touchcancel []), (2, .touchstart [⟨7, 0.5, 0.5, 0.5⟩])] ∧
      touchSent (s.log.filter Entry.accepted) =
        [(1, .touchcancel []), (2, .touchstart [⟨7, 0.5, 0.5, 0.5⟩])] := ⟨_, rfl, rfl, rfl⟩
  obtain ⟨s, hexec, hsent, hlog⟩ := hrun
  have hreach := Machine.reach_of_exec _ (Machine.Reachable.start rfl) hexec
  refine ⟨s, hreach, hsent, (undisturbed_run_iff hreach).2.1 ?_⟩
  rw [hlog]
  -- The start is the last event, so nothing comes after it.
  intro before i touches between j e after id hsplit _ _ _
  have hlength := congrArg List.length hsplit
  simp only [List.length_cons, List.length_nil, List.length_append] at hlength
  cases before with
  | nil =>
    rw [List.nil_append, List.cons.injEq, Prod.mk.injEq] at hsplit
    cases hsplit.1.2
  | cons x before => simp only [List.length_cons] at hlength; omega

end Input

end WaylandWebStream
