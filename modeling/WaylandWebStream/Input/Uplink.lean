import WaylandWebStream.Input.Drain
import WaylandWebStream.Input.Sessions

/-!
# Input — a page and its connection

Something on a page sends input messages, over a connection that lasts,
to the server's handler, and the render loop takes them from there. What
it is that sends is a parameter. Of a device whose messages are never
dropped the loop then takes what was sent, in order and each once, however
handler and loop take their turns and whatever else is sent in between.
-/

namespace WaylandWebStream

namespace Uplink

open Input (InputMessage Device Dimensions Entry)

/-- What an event makes of the page, and the messages it sends. -/
abbrev Sender (π η : Type*) := π → η → π × List InputMessage

/-- What happens to one of the page's devices, among what is sent of others. -/
inductive Among (device : Device) (η : Type*)
  | own (e : η)
  | other (message : InputMessage) (hother : message.device ≠ device)

/-- One device's sender, among others. -/
def Sender.among {π η : Type*} (sender : Sender π η) (device : Device) :
    Sender π (Among device η) := fun page e =>
  match e with
  | .own e => sender page e
  | .other message _ => (page, [message])

/-- The page, its connection and the server. What the page has sent is kept;
no step reads it. -/
structure State (π : Type*) where
  page : π
  wire : List InputMessage
  server : Input.State
  sent : List InputMessage

inductive Action (η : Type*)
  /-- Something happens to the page. -/
  | page (e : η)
  /-- The server's handler receives and dispatches a message. -/
  | receive
  /-- A step of the server's loop. -/
  | serve (a : Input.Action)

section Model

variable {π η : Type*}

/-- One step of the page or of the server. -/
def State.step (s : State π) (sender : Sender π η) (conn : ℕ) : Action η → Option (State π)
  | .page e => some { s with
      page := (sender s.page e).1
      wire := s.wire ++ (sender s.page e).2
      sent := s.sent ++ (sender s.page e).2 }
  | .receive =>
    match s.wire with
    | [] => none
    | message :: wire =>
      (s.server.step (.receive conn message)).map fun server => { s with wire, server }
  | .serve a => if a.isLoop then (s.server.step a).map fun server => { s with server } else none

/-- **A page and its connection**, from a moment when the server serves it and
what came before is processed. -/
def machine (d : Dimensions) (conn : ℕ) (before : List Entry) (start : π → Input.State → Prop)
    (sender : Sender π η) : Machine (State π) (Action η) where
  init s := (Input.machine d).Reachable s.server ∧ s.server.Drained ∧
    s.server.phase conn = .serving ∧ s.server.log = before ∧ start s.page s.server ∧
    s.wire = [] ∧ s.sent = []
  step s a := s.step sender conn a

/-- What happens to the page meets a condition. -/
def Meets (ok : π → η → Prop) (s : State π) : Action η → Prop
  | .page e => ok s.page e
  | .receive | .serve _ => True

instance (ok : π → η → Prop) [∀ page e, Decidable (ok page e)] (s : State π) :
    ∀ a, Decidable (Meets ok s a)
  | .page e => inferInstanceAs (Decidable (ok s.page e))
  | .receive | .serve _ => .isTrue trivial

/-- **Settled**: every message is processed. -/
structure State.Settled (s : State π) : Prop where
  wire : s.wire = []
  drained : s.server.Drained

end Model

variable {π η : Type*} {d : Dimensions} {conn : ℕ} {before : List Entry}
  {start : π → Input.State → Prop} {sender : Sender π η} {s s' : State π}

/-! ## What the server has received -/

/-- **What is kept**: the connection's messages are on record behind what was
there before, and those that are not are on their way. -/
structure Kept (d : Dimensions) (conn : ℕ) (before : List Entry) (s : State π) : Prop where
  reachable : (Input.machine d).Reachable s.server
  serving : s.server.phase conn = .serving
  log : ∃ since, s.server.log = before ++ since ∧ (∀ e ∈ since, e.conn = conn) ∧
    since.map (·.message) ++ s.wire = s.sent

/-- A message received is on record. -/
theorem receive_spec {server server' : Input.State} {message : InputMessage}
    (hstep : server.step (.receive conn message) = some server') :
    (∃ e, server'.log = server.log ++ [e] ∧ e.conn = conn ∧ e.message = message) ∧
      server'.phase = server.phase := by
  cases Input.trans_of_step hstep with
  | queued _ _ => exact ⟨⟨_, rfl, rfl, rfl⟩, rfl⟩
  | dropped _ _ _ => exact ⟨⟨_, rfl, rfl, rfl⟩, rfl⟩

theorem Kept.step {a : Action η} (h : Kept d conn before s)
    (hstep : s.step sender conn a = some s') : Kept d conn before s' := by
  obtain ⟨since, hlog, hconn, hsent⟩ := h.log
  cases a with
  | page e =>
    cases hstep
    refine ⟨h.reachable, h.serving, since, hlog, hconn, ?_⟩
    rw [← List.append_assoc, hsent]
  | receive =>
    simp only [State.step] at hstep
    split at hstep
    · cases hstep
    · rename_i message wire hwire
      obtain ⟨server, hserver, rfl⟩ := Option.map_eq_some_iff.1 hstep
      obtain ⟨⟨e, hlog', he, hmessage⟩, hphase⟩ := receive_spec hserver
      refine ⟨h.reachable.next (a := .receive conn message) hserver,
        (congrFun hphase conn).trans h.serving, since ++ [e], ?_, ?_, ?_⟩
      · rw [hlog', hlog, List.append_assoc]
      · intro e' he'
        rcases List.mem_append.1 he' with he' | he'
        · exact hconn e' he'
        · rw [List.mem_singleton.1 he', he]
      · rw [← hsent, hwire, List.map_append, List.append_assoc, List.map_singleton, hmessage]
        rfl
  | serve b =>
    obtain ⟨hloop, hstep⟩ := Option.ite_none_right_eq_some.1 hstep
    obtain ⟨server, hserver, rfl⟩ := Option.map_eq_some_iff.1 hstep
    have hloops : Input.Loops s.server server := ⟨b, hloop, hserver⟩
    exact ⟨h.reachable.next (a := b) hserver, (congrFun hloops.phase conn).trans h.serving,
      since, hloops.log.trans hlog, hconn, hsent⟩

theorem kept_of_reachable (h : (machine d conn before start sender).Reachable s) :
    Kept d conn before s := by
  refine h.invariant (fun s hinit => ?_) fun _ _ _ hstep hs => hs.step hstep
  obtain ⟨hreach, -, hserving, hlog, -, hwire, hsent⟩ := hinit
  refine ⟨hreach, hserving, [], ?_, fun e he => absurd he List.not_mem_nil, ?_⟩
  · rw [hlog, List.append_nil]
  · rw [hwire, hsent]
    rfl

/-- A run started somewhere. -/
theorem exists_start (h : (machine d conn before start sender).Reachable s) :
    ∃ page server, (Input.machine d).Reachable server ∧ server.Drained ∧ server.log = before ∧
      start page server := by
  induction h with
  | start hinit =>
    obtain ⟨hreach, hdrained, -, hlog, hstart, -⟩ := hinit
    exact ⟨_, _, hreach, hdrained, hlog, hstart⟩
  | next _ _ _ ih => exact ih

/-! ## What the loop takes -/

/-- What a function says of the connection's messages. -/
def ofConn {α : Type*} (conn : ℕ) (f : InputMessage → Option α) (e : Entry) : Option α :=
  if e.conn = conn then f e.message else none

/-- **The loop takes what was sent**, of a device, on a connection that is new
at the start: each message once and in the order of the page, moves apart. -/
theorem injected_eq_sent {α : Type*} {f : InputMessage → Option α} (device : Device)
    (hdevice : ∀ m : InputMessage, m.device ≠ device → f m = none)
    (hmove : ∀ m : InputMessage, m.isMove → f m = none)
    (hnew : ∀ page server, start page server → ∀ e ∈ server.log, e.conn ≠ conn)
    (h : (machine d conn before start sender).Reachable s) (hsettled : s.Settled) :
    s.server.injected.filterMap (ofConn conn f) = s.sent.filterMap f := by
  have hkept := kept_of_reachable h
  have haccount := Input.accounted hkept.reachable
  obtain ⟨since, hlog, hconn, hsent⟩ := hkept.log
  have hother : ∀ e : Entry, e.message.device ≠ device → ofConn conn f e = none := by
    intro e he
    unfold ofConn
    split
    · exact hdevice _ he
    · rfl
  -- what was dropped were moves, of which nothing is said
  have haccepted : (s.server.log.filter Entry.accepted).filterMap (ofConn conn f) =
      s.server.log.filterMap (ofConn conn f) := by
    rw [List.filterMap_filter]
    refine List.filterMap_congr fun e he => ?_
    cases haccepted : e.accepted with
    | true => rfl
    | false =>
      have hnone : ofConn conn f e = none := by
        unfold ofConn
        split
        · exact hmove _ (haccount.dropped_move e he haccepted)
        · rfl
      rw [hnone]
      rfl
  have hbefore : before.filterMap (ofConn conn f) = [] := by
    obtain ⟨page, server, -, -, rfl, hstart⟩ := exists_start h
    exact List.filterMap_eq_nil_iff.2 fun e he => if_neg (hnew page server hstart e he)
  have hsince : since.filterMap (ofConn conn f) = (since.map (·.message)).filterMap f := by
    rw [List.filterMap_map]
    exact List.filterMap_congr fun e he => if_pos (hconn e he)
  rw [hsettled.wire, List.append_nil] at hsent
  rw [haccount.filterMap_injected hsettled.drained device hother, haccepted, hlog,
    List.filterMap_append, hbefore, hsince, hsent, List.nil_append]

/-- The keys held once all is drained, by what was received. -/
theorem keys_of_drained {server : Input.State} (h : (Input.machine d).Reachable server)
    (hdrained : server.Drained) :
    server.seat.keys = Edge.held (server.log.filterMap fun e => e.message.keyEdge) := by
  have haccount := Input.accounted h
  rw [haccount.keys, haccount.filterMap_injected hdrained .key
    fun _ => InputMessage.keyEdge_of_device, haccount.accepted_of_edge Input.keyEdge_of_isMove]

/-- **The keys the seat holds** are those the messages leave held, if none was
held before. -/
theorem seat_keys (hnone : ∀ page server, start page server → server.seat.keys = ∅)
    (h : (machine d conn before start sender).Reachable s) (hsettled : s.Settled) :
    s.server.seat.keys = Edge.held (s.sent.filterMap (·.keyEdge)) := by
  have hbefore : Edge.held (before.filterMap fun e => e.message.keyEdge) = ∅ := by
    obtain ⟨page, server, hreach, hdrained, rfl, hstart⟩ := exists_start h
    rw [← keys_of_drained hreach hdrained]
    exact hnone page server hstart
  have hkept := kept_of_reachable h
  obtain ⟨since, hlog, -, hsent⟩ := hkept.log
  rw [hsettled.wire, List.append_nil] at hsent
  rw [keys_of_drained hkept.reachable hsettled.drained, hlog, List.filterMap_append, Edge.held,
    List.foldl_append, ← Edge.held, hbefore, ← hsent, List.filterMap_map]
  rfl

/-! ## The page -/

/-- Any run asks nothing of the page. -/
theorem reach_meets (h : (machine d conn before start sender).Reachable s) :
    (machine d conn before start sender).Reach (Meets fun _ _ => True) s :=
  h.mono fun _ a _ => by cases a <;> trivial

/-- **The page's rule**: what holds of the page and what it has sent at the
start, and is kept by all that may happen to it, holds. -/
theorem page_invariant {ok : π → η → Prop} {P : π → List InputMessage → Prop}
    (hstart : ∀ page server, start page server → P page [])
    (hpage : ∀ page sent e, ok page e → P page sent →
      P (sender page e).1 (sent ++ (sender page e).2))
    (h : (machine d conn before start sender).Reach (Meets ok) s) : P s.page s.sent := by
  refine h.invariant (P := fun s => P s.page s.sent) (fun s hinit => ?_)
    fun s a s' hok hstep hs => ?_
  · obtain ⟨-, -, -, -, hfirst, -, hsent⟩ := hinit
    show P s.page s.sent
    rw [hsent]
    exact hstart _ _ hfirst
  · cases a with
    | page e =>
      cases hstep
      exact hpage _ _ e hok hs
    | receive =>
      change s.step sender conn .receive = some s' at hstep
      simp only [State.step] at hstep
      split at hstep
      · cases hstep
      · obtain ⟨server, -, rfl⟩ := Option.map_eq_some_iff.1 hstep
        exact hs
    | serve b =>
      obtain ⟨-, hstep⟩ := Option.ite_none_right_eq_some.1 hstep
      obtain ⟨server, -, rfl⟩ := Option.map_eq_some_iff.1 hstep
      exact hs

end Uplink

end WaylandWebStream
