import WaylandWebStream.Input.Injection

/-!
# Input — the last position

A move that finds its channel full is dropped, on the ground that the
next one supersedes it; what is dropped is the newest. So once everything
is drained the pointer and each contact still down are where the last
message said exactly when that message was taken by its channel, or said
nothing new. A pointer cancel, too, says where the pointer is and moves
nothing.
-/

namespace WaylandWebStream

namespace Input

open Latest

/-! ## Who says what -/

/-- The contacts an event lists. -/
def TouchEvent.touches : TouchEvent → List TouchPoint
  | touchstart touches | touchmove touches | touchend touches | touchcancel touches => touches

/-- Where one entry of a list puts the contact. -/
def TouchPoint.puts (d : Dimensions) (id : Int32) (t : TouchPoint) : Option Position :=
  if t.identifier = id then some (d.toCompositorCoords t.x t.y) else none

/-- Where a message says the contact is. -/
def InputMessage.contactMention (d : Dimensions) (id : Int32) : InputMessage → Option Position
  | .touch event => latest (TouchPoint.puts d id) event.touches
  | _ => none

/-- Where a message says the pointer is. -/
def InputMessage.pointerMention (d : Dimensions) : InputMessage → Option Position
  | .pointer (.down p) | .pointer (.move p) | .pointer (.up p) | .pointer (.cancel p) =>
    some (d.toCompositorCoords p.x p.y)
  | .pointer (.wheel x y _ _) => some (d.toCompositorCoords x y)
  | _ => none

variable {d : Dimensions} {id : Int32} {th : TouchHandler} {t : TouchPoint}
variable {touches : List TouchPoint} {event : TouchEvent} {events : List TouchEvent}

/-- What moves the pointer says where it is. -/
theorem pointerMention_of_move {m : InputMessage} {q : Position} (h : m.pointerMove d = some q) :
    m.pointerMention d = some q := by
  cases m with
  | pointer event =>
    cases event with
    | cancel p => cases h
    | _ => exact h
  | _ => cases h

/-! ## One contact -/

/-- What an event makes of a contact: its position, while it is down. -/
def TouchEvent.contact (d : Dimensions) (id : Int32) (p : Option Position) :
    TouchEvent → Option Position
  | touchstart touches => (latest (TouchPoint.puts d id) touches).or p
  | touchmove touches => p.bind fun q => (latest (TouchPoint.puts d id) touches).or (some q)
  | touchend touches => if (latest (TouchPoint.puts d id) touches).isSome then none else p
  | touchcancel _ => none

namespace TouchHandler

/-- Where the handler has the contact. -/
def at? (th : TouchHandler) (id : Int32) : Option Position :=
  (th.activeTouches id).map (·.location)

theorem startPoint_at :
    (th.startPoint t).1.at? id = (t.puts th.dimensions id).or (th.at? id) := by
  unfold at? startPoint TouchPoint.puts
  by_cases hid : t.identifier = id
  · subst hid
    simp [location]
  · have hne : id ≠ t.identifier := fun h => hid h.symm
    simp [hid, hne]

theorem movePoint_at : (th.movePoint t).1.at? id =
    (th.at? id).bind fun q => (t.puts th.dimensions id).or (some q) := by
  unfold at? movePoint TouchPoint.puts
  cases hactive : th.activeTouches t.identifier with
  | none =>
    by_cases hid : t.identifier = id
    · subst hid
      simp [hactive]
    · cases th.activeTouches id <;> simp [hid]
  | some st =>
    by_cases hid : t.identifier = id
    · subst hid
      simp [hactive, location]
    · have hne : id ≠ t.identifier := fun h => hid h.symm
      cases hother : th.activeTouches id <;> simp [hid, hne, hother]

theorem endPoint_at : (th.endPoint t).1.at? id =
    if (t.puts th.dimensions id).isSome then none else th.at? id := by
  unfold at? endPoint TouchPoint.puts
  cases hactive : th.activeTouches t.identifier with
  | none =>
    by_cases hid : t.identifier = id
    · subst hid
      simp [hactive]
    · simp [hid]
  | some st =>
    by_cases hid : t.identifier = id
    · subst hid
      simp
    · have hne : id ≠ t.identifier := fun h => hid h.symm
      simp [hid, hne]

theorem startPoint_dimensions : (th.startPoint t).1.dimensions = th.dimensions := rfl

theorem movePoint_dimensions : (th.movePoint t).1.dimensions = th.dimensions := by
  unfold movePoint
  split <;> rfl

theorem endPoint_dimensions : (th.endPoint t).1.dimensions = th.dimensions := by
  unfold endPoint
  split <;> rfl

theorem forTouches_cons {point : TouchHandler → TouchPoint → TouchHandler × List SeatCall} :
    (forTouches point th (t :: touches)).1 = (forTouches point (point th t).1 touches).1 := rfl

theorem forTouches_dimensions {point : TouchHandler → TouchPoint → TouchHandler × List SeatCall}
    (hpoint : ∀ th t, (point th t).1.dimensions = th.dimensions) :
    (forTouches point th touches).1.dimensions = th.dimensions := by
  induction touches generalizing th with
  | nil => rfl
  | cons t touches ih => rw [forTouches_cons, ih, hpoint]

theorem forTouches_start_at : (forTouches startPoint th touches).1.at? id =
    (latest (TouchPoint.puts th.dimensions id) touches).or (th.at? id) := by
  induction touches generalizing th with
  | nil => rfl
  | cons t touches ih =>
    rw [forTouches_cons, ih, startPoint_dimensions, startPoint_at, latest_cons, Option.or_assoc]

theorem forTouches_move_at : (forTouches movePoint th touches).1.at? id =
    (th.at? id).bind fun q => (latest (TouchPoint.puts th.dimensions id) touches).or (some q) := by
  induction touches generalizing th with
  | nil => cases hp : th.at? id <;> simp [forTouches, hp]
  | cons t touches ih =>
    rw [forTouches_cons, ih, movePoint_dimensions, movePoint_at, latest_cons]
    cases th.at? id with
    | none => rfl
    | some q =>
      simp only [Option.bind_some, Option.or_assoc]
      cases t.puts th.dimensions id <;> simp

theorem forTouches_end_at : (forTouches endPoint th touches).1.at? id =
    if (latest (TouchPoint.puts th.dimensions id) touches).isSome then none else th.at? id := by
  induction touches generalizing th with
  | nil => rfl
  | cons t touches ih =>
    rw [forTouches_cons, ih, endPoint_dimensions, endPoint_at, latest_cons]
    cases latest (TouchPoint.puts th.dimensions id) touches <;>
      cases t.puts th.dimensions id <;> rfl

theorem handleEvent_dimensions : (th.handleEvent event).1.dimensions = th.dimensions := by
  cases event with
  | touchstart touches => exact forTouches_dimensions fun _ _ => startPoint_dimensions
  | touchmove touches => exact forTouches_dimensions fun _ _ => movePoint_dimensions
  | touchend touches => exact forTouches_dimensions fun _ _ => endPoint_dimensions
  | touchcancel touches => rfl

/-- **An event, for one contact.** -/
theorem handleEvent_at :
    (th.handleEvent event).1.at? id = event.contact th.dimensions id (th.at? id) := by
  cases event with
  | touchstart touches => exact forTouches_start_at
  | touchmove touches => exact forTouches_move_at
  | touchend touches => exact forTouches_end_at
  | touchcancel touches => rfl

/-- A run of events, for one contact. -/
theorem run_at : (th.run events).1.at? id =
    events.foldl (fun p event => event.contact th.dimensions id p) (th.at? id) := by
  induction events generalizing th with
  | nil => rfl
  | cons event events ih =>
    have hfirst : (th.run (event :: events)).1 = ((th.handleEvent event).1.run events).1 := rfl
    rw [hfirst, ih, handleEvent_dimensions, handleEvent_at]
    rfl

end TouchHandler

/-- **A contact that is down is where the last event to list it put it.** -/
theorem latest_of_contact {p : Position}
    (h : events.foldl (fun q event => event.contact d id q) none = some p) :
    latest (fun event => latest (TouchPoint.puts d id) event.touches) events = some p := by
  induction events using List.reverseRecOn generalizing p with
  | nil => cases h
  | append_singleton events event ih =>
    rw [List.foldl_concat] at h
    rw [latest_concat]
    cases event with
    | touchstart touches =>
      simp only [TouchEvent.contact, TouchEvent.touches] at h ⊢
      cases hlist : latest (TouchPoint.puts d id) touches with
      | some q =>
        rw [hlist] at h
        exact h
      | none =>
        rw [hlist, Option.none_or] at h
        exact ih h
    | touchmove touches =>
      simp only [TouchEvent.contact, TouchEvent.touches] at h ⊢
      -- a move moves only a contact that is down, so the induction has its position before
      obtain ⟨q, hq, h⟩ := Option.bind_eq_some_iff.1 h
      cases hlist : latest (TouchPoint.puts d id) touches with
      | some r =>
        rw [hlist] at h
        exact h
      | none =>
        rw [hlist, Option.none_or] at h
        rw [← h]
        exact ih hq
    | touchend touches =>
      simp only [TouchEvent.contact, TouchEvent.touches] at h ⊢
      -- an end that lists the contact would have taken it up
      split_ifs at h with hlist
      rw [Option.not_isSome_iff_eq_none.1 hlist]
      exact ih h
    | touchcancel touches => cases h

/-! ## In a run -/

variable {s : State}

theorem contactMention_of_device {m : InputMessage} (h : m.device ≠ .touch) :
    m.contactMention d id = none := by
  cases m <;> first | rfl | exact absurd rfl h

theorem pointerMove_of_device {m : InputMessage} (h : m.device ≠ .pointer) :
    m.pointerMove d = none := by
  cases m <;> first | rfl | exact absurd rfl h

/-- What is said of a contact by the messages taken, in the order they
were taken or in the order they were dispatched. -/
theorem Accounted.latest_contact (h : Accounted d s) (hdrained : s.Drained) (id : Int32) :
    latest (·.message.contactMention d id) s.injected =
      latest (·.message.contactMention d id) (s.log.filter Entry.accepted) :=
  congrArg List.getLast? (h.filterMap_injected hdrained .touch fun _ => contactMention_of_device)

/-- The same of the pointer. -/
theorem Accounted.latest_pointer (h : Accounted d s) (hdrained : s.Drained) :
    latest (·.message.pointerMove d) s.injected =
      latest (·.message.pointerMove d) (s.log.filter Entry.accepted) :=
  congrArg List.getLast? (h.filterMap_injected hdrained .pointer fun _ => pointerMove_of_device)

/-- A contact that is down is where the last message injected that lists
it put it. -/
theorem Accounted.touch_latest (h : Accounted d s) {p : Position}
    (hdown : s.seat.touches id.toUInt32 = some p) :
    latest (·.message.contactMention d id) s.injected = some p := by
  rw [h.touches id] at hdown
  have hrun : ((TouchHandler.new d).run (s.injected.filterMap (·.message.touchEvent))).1.at? id =
      some p := hdown
  rw [TouchHandler.run_at] at hrun
  have hlatest := latest_of_contact hrun
  rw [latest, List.filterMap_filterMap] at hlatest
  rw [latest, ← hlatest]
  refine congrArg List.getLast? (List.filterMap_congr fun e _ => ?_)
  cases e.message <;> rfl

/-- **The last message says where the pointer is**: the last message to
mention it was taken and moves it, or the one that last did so says the
same. -/
def PointerSettled (d : Dimensions) (log : List Entry) : Prop :=
  Settled Entry.accepted (·.message.pointerMention d) (·.message.pointerMove d) log

/-- The same of a contact. -/
def ContactSettled (d : Dimensions) (id : Int32) (log : List Entry) : Prop :=
  Settled Entry.accepted (·.message.contactMention d id) (·.message.contactMention d id) log

/-- **When the last move wins.** In every run, once all channels are
drained: the pointer and every contact still down are where the last
message that mentions them says, exactly when that message was taken by
its channel and moves what it mentions, or the message that last did so
says the same. -/
theorem last_move_wins_iff (h : (machine d).Reachable s) (hdrained : s.Drained) :
    (s.seat.pointer = latest (·.message.pointerMention d) s.log ∧
      ∀ id p, s.seat.touches (Int32.toUInt32 id) = some p →
        latest (·.message.contactMention d id) s.log = some p) ↔
      PointerSettled d s.log ∧
        ∀ id, (s.seat.touches (Int32.toUInt32 id)).isSome → ContactSettled d id s.log := by
  have haccount := accounted h
  have hpointer : s.seat.pointer = latest (·.message.pointerMention d) s.log ↔
      PointerSettled d s.log := by
    rw [haccount.pointer, haccount.latest_pointer hdrained]
    exact latest_eq_iff_settled fun _ _ => pointerMention_of_move
  have hcontact : ∀ id p, s.seat.touches (Int32.toUInt32 id) = some p →
      (latest (·.message.contactMention d id) s.log = some p ↔ ContactSettled d id s.log) := by
    intro id p hdown
    have hlast := haccount.touch_latest hdown
    rw [haccount.latest_contact hdrained id] at hlast
    have hsettled : latest (·.message.contactMention d id) (s.log.filter Entry.accepted) =
        latest (·.message.contactMention d id) s.log ↔ ContactSettled d id s.log :=
      latest_eq_iff_settled fun _ _ h => h
    rw [← hsettled, hlast, eq_comm]
  rw [hpointer]
  refine and_congr_right fun _ => ⟨fun hall id hdown => ?_, fun hall id p hdown => ?_⟩
  · obtain ⟨p, hp⟩ := Option.isSome_iff_exists.1 hdown
    exact (hcontact id p hp).1 (hall id p hp)
  · exact (hcontact id p hdown).2 (hall id (by rw [hdown]; rfl))

/-- A pointer move to the given coordinates. -/
def moveTo (x y : Float) : InputMessage := .pointer (.move ⟨x, y, 0, "mouse", 0⟩)

/-- As many moves to the middle as the channel holds, a last one to a
quarter of the output, and a pass that drains them. -/
def flood : List Action :=
  [.connect, .serve 1] ++ List.replicate 64 (.receive 1 (moveTo 0.5 0.5)) ++
    [.receive 1 (moveTo 0.25 0.25), .beginPass, .advance] ++ List.replicate 64 .take ++
    [.advance, .advance]

/-- **The newest position is the one that is lost.** -/
theorem last_move_dropped :
    ∃ s, (machine ⟨1920, 1080⟩).Reachable s ∧ s.Drained ∧ s.seat.pointer = some ⟨960, 540⟩ ∧
      latest (·.message.pointerMention ⟨1920, 1080⟩) s.log = some ⟨480, 270⟩ := by
  have hrun : ((machine ⟨1920, 1080⟩).exec (initial ⟨1920, 1080⟩) flood).map (fun s =>
      (s.seat.pointer, latest (·.message.pointerMention ⟨1920, 1080⟩) s.log,
        s.channel .touch, s.channel .pointer, s.channel .key)) =
      some (some ⟨960, 540⟩, some ⟨480, 270⟩, [], [], []) := by
    decide +kernel
  obtain ⟨s, hexec, hs⟩ := Option.map_eq_some_iff.1 hrun
  simp only [Prod.mk.injEq] at hs
  obtain ⟨hpointer, hlatest, htouch, hmouse, hkey⟩ := hs
  refine ⟨s, Machine.reach_of_exec _ (Machine.Reachable.start rfl) hexec, fun device => ?_,
    hpointer, hlatest⟩
  cases device with
  | touch => exact htouch
  | pointer => exact hmouse
  | key => exact hkey

/-- One move, taken and drained: the pointer is where it says. -/
theorem last_move_wins_single :
    ∃ s, (machine ⟨1920, 1080⟩).Reachable s ∧ PointerSettled ⟨1920, 1080⟩ s.log ∧
      s.seat.pointer = some ⟨960, 540⟩ := by
  have hrun : ∃ s, (machine ⟨1920, 1080⟩).exec (initial ⟨1920, 1080⟩)
      [.connect, .serve 1, .receive 1 (moveTo 0.5 0.5), .beginPass, .advance, .take, .advance,
        .advance] = some s ∧ s.Drained ∧ s.seat.pointer = some ⟨960, 540⟩ ∧
      s.seat.pointer = latest (·.message.pointerMention ⟨1920, 1080⟩) s.log ∧
      ∀ slot, s.seat.touches slot = none := by
    refine ⟨_, rfl, fun device => ?_, by decide +kernel, by decide +kernel, fun _ => rfl⟩
    cases device <;> rfl
  obtain ⟨s, hexec, hdrained, hat, hpointer, htouches⟩ := hrun
  have hreach := Machine.reach_of_exec _ (Machine.Reachable.start rfl) hexec
  refine ⟨s, hreach, ((last_move_wins_iff hreach hdrained).1 ⟨hpointer, fun id p hp => ?_⟩).1, hat⟩
  rw [htouches] at hp
  cases hp

end Input

end WaylandWebStream
