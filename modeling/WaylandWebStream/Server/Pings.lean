import WaylandWebStream.Lib.Broadcast
import WaylandWebStream.Lib.Fifo
import WaylandWebStream.Lib.Machine
import Mathlib.Logic.Function.Basic

/-!
# Pings — whose round trip an echo measures

The pings of all connections go into one queue. The forwarding task takes
the newest of them for the next packet, and the packet goes to every
connection there is. Each ping is echoed once, and nothing says to whom: a
ping comes back to its own connection, and to no other, only if there is no
other when its packet is sent (`echoes_own`).
-/

namespace WaylandWebStream

namespace Echo

/-- How many pings wait at most. -/
def pingCapacity : ℕ := 8

/-- How many packets the broadcast keeps: three are asked for, and the channel
rounds up to a power of two. What is proved holds of any number. -/
def videoCapacity : ℕ := 4

variable (ι τ : Type*)

/-- **A ping**: its timestamp, and whose it is: the `n`-th of its connection. -/
structure Ping where
  clientTs : τ
  owner : ι
  n : ℕ

variable {ι τ}

/-- An encoded packet, as far as it concerns pings. -/
abbrev Packet (ι τ : Type*) := Option (Ping ι τ)

/-- The handler of a connection. -/
inductive Handler
  | fresh
  /-- In its loop, its receiver past so many packets. -/
  | serving (videoRx : ℕ)
  | ended
deriving DecidableEq

/-- **A connection**: its handler, what is on its socket either way, and
what its client has sent and received. -/
structure Conn (ι τ : Type*) where
  handler : Handler
  toServer : List (Ping ι τ)
  toClient : List (Packet ι τ)
  /-- The timestamps the client has sent. -/
  pinged : List τ
  /-- The echoes it has received. -/
  echoes : List (Ping ι τ)

structure State (ι τ : Type*) where
  conn : ι → Conn ι τ
  pendingPing : List (Ping ι τ)
  /-- The packet the forwarding task has in hand, stamped. -/
  packet : Option (Packet ι τ)
  videoTx : Broadcast (Packet ι τ)

inductive Action (ι τ : Type*)
  /-- The handler of a new connection subscribes, and enters its loop. -/
  | subscribe (i : ι)
  /-- The handler ends: replaced, closed or failed. -/
  | close (i : ι)
  /-- The client sends a ping. -/
  | ping (i : ι) (clientTs : τ)
  /-- The handler takes a ping off its socket. -/
  | dispatch (i : ι)
  /-- The forwarding task has a packet, and drains the queue for it. -/
  | stamp
  /-- And broadcasts it. -/
  | send
  /-- The handler takes the next packet, or finds that it lags. -/
  | recv (i : ι)
  /-- A frame arrives at the client. -/
  | deliver (i : ι)

namespace State

variable [DecidableEq ι] (s : State ι τ)

/-- Replaces one connection. -/
def setConn (i : ι) (c : Conn ι τ) : State ι τ := { s with conn := Function.update s.conn i c }

/-- `try_send`: a ping is queued, if there is room. -/
def trySendPing (p : Ping ι τ) : State ι τ :=
  if s.pendingPing.length < pingCapacity then { s with pendingPing := s.pendingPing ++ [p] } else s

def step : Action ι τ → Option (State ι τ)
  | .subscribe i =>
    if (s.conn i).handler = .fresh then
      some (s.setConn i { s.conn i with handler := .serving s.videoTx.subscribe })
    else none
  | .close i => some (s.setConn i { s.conn i with handler := .ended })
  | .ping i clientTs =>
    some (s.setConn i { s.conn i with
      pinged := (s.conn i).pinged ++ [clientTs]
      toServer := (s.conn i).toServer ++ [⟨clientTs, i, (s.conn i).pinged.length⟩] })
  | .dispatch i =>
    match (s.conn i).handler, (s.conn i).toServer with
    | .serving _, p :: rest => some ((s.setConn i { s.conn i with toServer := rest }).trySendPing p)
    | _, _ => none
  | .stamp =>
    if s.packet.isNone then
      some { s with packet := some s.pendingPing.getLast?, pendingPing := [] }
    else none
  | .send =>
    match s.packet with
    | none => none
    | some packet => some { s with packet := none, videoTx := s.videoTx.send packet }
  | .recv i =>
    match (s.conn i).handler with
    | .fresh | .ended => none
    | .serving next =>
      match s.videoTx.recv next with
      | .pending => none
      | .lagged next => some (s.setConn i { s.conn i with handler := .serving next })
      | .value packet =>
        some (s.setConn i { s.conn i with
          handler := .serving (next + 1), toClient := (s.conn i).toClient ++ [packet] })
  | .deliver i =>
    match (s.conn i).toClient with
    | [] => none
    | packet :: rest =>
      some (s.setConn i { s.conn i with
        toClient := rest, echoes := (s.conn i).echoes ++ packet.toList })

end State

/-- Nobody has connected yet. -/
def initial (capacity : ℕ) : State ι τ where
  conn _ := ⟨.fresh, [], [], [], []⟩
  pendingPing := []
  packet := none
  videoTx := .channel capacity

/-- **Pings and packets as a machine**, over any connections, for a capacity
of the broadcast. -/
def machine (capacity : ℕ) (ι τ : Type*) [DecidableEq ι] : Machine (State ι τ) (Action ι τ) where
  init s := s = initial capacity
  step := State.step

/-- **The condition on a step**: a packet stamped with a ping is broadcast
while no connection but the ping's has a receiver. -/
def Alone (s : State ι τ) : Action ι τ → Prop
  | .send => ∀ p, s.packet = some (some p) →
    ∀ i next, (s.conn i).handler = .serving next → i = p.owner
  | .subscribe _ | .close _ | .ping _ _ | .dispatch _ | .stamp | .recv _ | .deliver _ => True

/-- **What is promised of a client's echoes**: they are timestamps of pings
of its own, a different ping for each, in the order it sent them. -/
def OwnEchoes (c : Conn ι τ) : Prop := (c.echoes.map Ping.clientTs).Sublist c.pinged

/-! ## Where a ping is -/

/-- The pings some packets are stamped with. -/
abbrev stamps (packets : List (Packet ι τ)) : List (Ping ι τ) := packets.filterMap id

section

variable [DecidableEq ι] (s : State ι τ)

/-- The pings broadcast, in hand, and queued. -/
def State.shared : List (Ping ι τ) :=
  stamps s.videoTx.sent ++ s.packet.join.toList ++ s.pendingPing

/-- The pings of a connection on their way, the first ones furthest. -/
def State.line (j : ι) : List (Ping ι τ) :=
  s.shared.filter (fun p => p.owner = j) ++ (s.conn j).toServer

/-- The pings on their way are numbered in order. -/
structure Numbered : Prop where
  increasing : ∀ j, (s.line j).Pairwise fun p q => p.n < q.n
  owner : ∀ j, ∀ p ∈ (s.conn j).toServer, p.owner = j
  pinged : ∀ j, ∀ p ∈ s.line j, (s.conn j).pinged[p.n]? = some p.clientTs

/-- The packets a handler has passed. -/
def Handler.passed (packets : List (Packet ι τ)) : Handler → List (Packet ι τ)
  | .fresh => []
  | .serving videoRx => packets.take videoRx
  | .ended => packets

/-- The echoes a client has, and will have of what is on its socket. -/
def Conn.heard (c : Conn ι τ) : List (Ping ι τ) := c.echoes ++ stamps c.toClient

/-- What a client hears was broadcast, and passed by its handler. -/
structure Heard : Prop where
  heard : ∀ i, ((s.conn i).heard).Sublist (stamps ((s.conn i).handler.passed s.videoTx.sent))
  passed : ∀ i next, (s.conn i).handler = .serving next → next ≤ s.videoTx.sent.length

end

variable {s s' : State ι τ} {i j : ι} {a : Action ι τ} {c : Conn ι τ} {p : Ping ι τ} {ts : τ}
variable {capacity : ℕ}

/-- Queueing a ping, or not, if the queue is full. -/
theorem shared_trySendPing : (s.trySendPing p).shared = s.shared ++ [p] ∨
    (s.trySendPing p).shared = s.shared := by
  unfold State.trySendPing
  split
  · left
    simp [State.shared]
  · exact .inr rfl

@[simp] theorem conn_trySendPing : (s.trySendPing p).conn = s.conn := by
  unfold State.trySendPing
  split <;> rfl

@[simp] theorem videoTx_trySendPing : (s.trySendPing p).videoTx = s.videoTx := by
  unfold State.trySendPing
  split <;> rfl

theorem mem_stamps {packets : List (Packet ι τ)} : p ∈ stamps packets ↔ some p ∈ packets := by
  simp [stamps]

/-- Passing more keeps what was heard. -/
theorem passed_mono {packets : List (Packet ι τ)} {n m : ℕ} (hnm : n ≤ m) :
    (stamps ((Handler.serving n).passed packets)).Sublist
      (stamps ((Handler.serving m).passed packets)) :=
  (List.take_sublist_take_left hnm).filterMap _

theorem passed_sublist (handler : Handler) (packets : List (Packet ι τ)) :
    (stamps (handler.passed packets)).Sublist (stamps packets) := by
  cases handler with
  | fresh => exact List.nil_sublist _
  | serving n => exact (List.take_sublist _ _).filterMap _
  | ended => exact List.Sublist.refl _

/-- A client's echoes are among the pings on their way, in order. -/
theorem Heard.echoes_sublist (h : Heard s) (i : ι) : ((s.conn i).echoes).Sublist s.shared := by
  have hsent := (h.heard i).trans (passed_sublist _ s.videoTx.sent)
  have hshared : (stamps s.videoTx.sent).Sublist s.shared := by
    rw [State.shared, List.append_assoc]
    exact List.sublist_append_left _ _
  exact ((List.sublist_append_left _ _).trans hsent).trans hshared

variable [DecidableEq ι]

@[simp] theorem conn_setConn : (s.setConn i c).conn j = if j = i then c else s.conn j :=
  Function.update_apply ..

/-! ## The transitions -/

/-- **The transitions**, by what they do to a connection and the broadcast. -/
inductive Trans (s : State ι τ) : Action ι τ → State ι τ → Prop
  | subscribe {i : ι} (hfresh : (s.conn i).handler = .fresh) :
      Trans s (.subscribe i) (s.setConn i { s.conn i with
        handler := .serving s.videoTx.subscribe })
  | close {i : ι} : Trans s (.close i) (s.setConn i { s.conn i with handler := .ended })
  | ping {i : ι} {ts : τ} : Trans s (.ping i ts) (s.setConn i { s.conn i with
      pinged := (s.conn i).pinged ++ [ts]
      toServer := (s.conn i).toServer ++ [⟨ts, i, (s.conn i).pinged.length⟩] })
  | dispatch {i : ι} {p : Ping ι τ} {rest : List (Ping ι τ)}
      (hserver : (s.conn i).toServer = p :: rest) :
      Trans s (.dispatch i) ((s.setConn i { s.conn i with toServer := rest }).trySendPing p)
  | stamp (hpacket : s.packet = none) :
      Trans s .stamp { s with packet := some s.pendingPing.getLast?, pendingPing := [] }
  | send {packet : Packet ι τ} (hpacket : s.packet = some packet) :
      Trans s .send { s with packet := none, videoTx := s.videoTx.send packet }
  | lagged {i : ι} {next next' : ℕ} (hserving : (s.conn i).handler = .serving next)
      (hrecv : s.videoTx.recv next = .lagged next') :
      Trans s (.recv i) (s.setConn i { s.conn i with handler := .serving next' })
  | received {i : ι} {next : ℕ} {packet : Packet ι τ}
      (hserving : (s.conn i).handler = .serving next)
      (hrecv : s.videoTx.recv next = .value packet) :
      Trans s (.recv i) (s.setConn i { s.conn i with
        handler := .serving (next + 1), toClient := (s.conn i).toClient ++ [packet] })
  | deliver {i : ι} {packet : Packet ι τ} {rest : List (Packet ι τ)}
      (hclient : (s.conn i).toClient = packet :: rest) :
      Trans s (.deliver i) (s.setConn i { s.conn i with
        toClient := rest, echoes := (s.conn i).echoes ++ packet.toList })

/-- Every step is one of the transitions. -/
theorem trans_of_step (h : s.step a = some s') : Trans s a s' := by
  cases a with
  | subscribe i =>
    simp only [State.step] at h
    split_ifs at h with hfresh
    obtain rfl := Option.some.inj h
    exact .subscribe hfresh
  | close i => obtain rfl := Option.some.inj h; exact .close
  | ping i ts => obtain rfl := Option.some.inj h; exact .ping
  | dispatch i =>
    simp only [State.step] at h
    split at h
    · rename_i hserver
      obtain rfl := Option.some.inj h
      exact .dispatch hserver
    · cases h
  | stamp =>
    simp only [State.step] at h
    split_ifs at h with hpacket
    obtain rfl := Option.some.inj h
    exact .stamp (Option.isNone_iff_eq_none.1 hpacket)
  | send =>
    simp only [State.step] at h
    split at h
    · cases h
    · rename_i packet hpacket
      obtain rfl := Option.some.inj h
      exact .send hpacket
  | recv i =>
    simp only [State.step] at h
    split at h
    · cases h
    · cases h
    · rename_i next hserving
      split at h
      · cases h
      · rename_i hrecv
        obtain rfl := Option.some.inj h
        exact .lagged hserving hrecv
      · rename_i hrecv
        obtain rfl := Option.some.inj h
        exact .received hserving hrecv
  | deliver i =>
    simp only [State.step] at h
    split at h
    · cases h
    · rename_i packet rest hclient
      obtain rfl := Option.some.inj h
      exact .deliver hclient

/-! ## Pings in line -/

theorem line_congr (hshared : s'.shared = s.shared)
    (hconn : ∀ j, (s'.conn j).toServer = (s.conn j).toServer) : s'.line j = s.line j := by
  rw [State.line, State.line, hshared, hconn]

/-- Where pings are lost, the rest keeps its order. -/
theorem Numbered.sublist (h : Numbered s) (hline : ∀ j, (s'.line j).Sublist (s.line j))
    (hserver : ∀ j, ((s'.conn j).toServer).Sublist (s.conn j).toServer)
    (hpinged : ∀ j, (s'.conn j).pinged = (s.conn j).pinged) : Numbered s' where
  increasing j := (h.increasing j).sublist (hline j)
  owner j p hp := h.owner j p ((hserver j).subset hp)
  pinged j p hp := by
    rw [hpinged]
    exact h.pinged j p ((hline j).subset hp)

theorem Numbered.congr (h : Numbered s) (hshared : s'.shared = s.shared)
    (hconn : ∀ j, (s'.conn j).toServer = (s.conn j).toServer)
    (hpinged : ∀ j, (s'.conn j).pinged = (s.conn j).pinged) : Numbered s' :=
  h.sublist (fun _ => (line_congr hshared hconn) ▸ List.Sublist.refl _)
    (fun j => (hconn j) ▸ List.Sublist.refl _) hpinged

/-- What else happens on a connection leaves the lines. -/
theorem Numbered.setConn (h : Numbered s) (hserver : c.toServer = (s.conn i).toServer)
    (hpinged : c.pinged = (s.conn i).pinged) : Numbered (s.setConn i c) := by
  refine h.congr rfl (fun j => ?_) fun j => ?_
  all_goals
    rw [conn_setConn]
    split
    · rename_i hj
      rw [hj]
      assumption
    · rfl

/-- A new ping goes to the end of its line. -/
theorem Numbered.ping (h : Numbered s) : Numbered (s.setConn i { s.conn i with
    pinged := (s.conn i).pinged ++ [ts]
    toServer := (s.conn i).toServer ++ [⟨ts, i, (s.conn i).pinged.length⟩] }) := by
  have hline : ∀ j, (s.setConn i { s.conn i with
      pinged := (s.conn i).pinged ++ [ts]
      toServer := (s.conn i).toServer ++ [⟨ts, i, (s.conn i).pinged.length⟩] }).line j =
        if j = i then s.line i ++ [⟨ts, i, (s.conn i).pinged.length⟩] else s.line j := by
    intro j
    unfold State.line
    rw [conn_setConn]
    split
    · rename_i hj
      rw [hj, List.append_assoc]
      rfl
    · rfl
  -- the pings on their way are among those sent, and this one comes after them
  have hlt : ∀ p ∈ s.line i, p.n < (s.conn i).pinged.length := fun p hp =>
    (List.getElem?_eq_some_iff.1 (h.pinged i p hp)).1
  refine ⟨fun j => ?_, fun j p hp => ?_, fun j p hp => ?_⟩
  · rw [hline]
    split
    · refine List.pairwise_append.2 ⟨h.increasing i, List.pairwise_singleton _ _, ?_⟩
      intro p hp q hq
      rw [List.mem_singleton.1 hq]
      exact hlt p hp
    · exact h.increasing j
  · rw [conn_setConn] at hp
    split at hp
    · rename_i hj
      rcases List.mem_append.1 hp with hp | hp
      · rw [hj]
        exact h.owner i p hp
      · rw [List.mem_singleton.1 hp, hj]
    · exact h.owner j p hp
  · rw [hline] at hp
    rw [conn_setConn]
    split at hp
    · rename_i hj
      rw [if_pos hj]
      rcases List.mem_append.1 hp with hp | hp
      · rw [List.getElem?_append_left (hlt p hp)]
        exact h.pinged i p hp
      · rw [List.mem_singleton.1 hp]
        exact List.getElem?_concat_length ..
    · rename_i hj
      rw [if_neg hj]
      exact h.pinged j p hp

/-- The first ping of a socket joins the queue: it keeps its place in line. -/
theorem Numbered.dispatch {rest : List (Ping ι τ)} (h : Numbered s)
    (hserver : (s.conn i).toServer = p :: rest) :
    Numbered ((s.setConn i { s.conn i with toServer := rest }).trySendPing p) := by
  have howner : p.owner = i := h.owner i p (by rw [hserver]; exact List.mem_cons_self)
  refine h.sublist (fun j => ?_) (fun j => ?_) fun j => ?_
  · have hshared :=
      shared_trySendPing (s := s.setConn i { s.conn i with toServer := rest }) (p := p)
    unfold State.line
    rw [conn_trySendPing, conn_setConn]
    split
    · rename_i hj
      rw [hj, hserver]
      rcases hshared with hshared | hshared
      · rw [hshared, List.filter_append, List.append_assoc, List.filter_singleton, howner]
        simp only [decide_true, cond_true, List.singleton_append]
        exact List.Sublist.refl _
      · rw [hshared]
        exact (List.Sublist.refl _).append (List.sublist_cons_self _ _)
    · rename_i hj
      rcases hshared with hshared | hshared
      · rw [hshared, List.filter_append, List.filter_singleton, howner,
          decide_eq_false (Ne.symm hj), cond_false, List.append_nil]
        exact List.Sublist.refl _
      · rw [hshared]
        exact List.Sublist.refl _
  · rw [conn_trySendPing, conn_setConn]
    split
    · rename_i hj
      rw [hj, hserver]
      exact List.sublist_cons_self _ _
    · exact List.Sublist.refl _
  · rw [conn_trySendPing, conn_setConn]
    split
    · rename_i hj
      rw [hj]
    · rfl

/-- The newest of the queue, if any, is one of it. -/
theorem getLast?_sublist {α : Type*} (l : List α) : (l.getLast?.toList).Sublist l := by
  rcases List.eq_nil_or_concat l with rfl | ⟨l, a, rfl⟩
  · exact List.nil_sublist _
  · rw [List.concat_eq_append, List.getLast?_concat]
    exact List.sublist_append_right _ _

/-- Stamping takes the newest of the queue, and drops the others. -/
theorem Numbered.stamp (h : Numbered s) (hpacket : s.packet = none) :
    Numbered { s with packet := some s.pendingPing.getLast?, pendingPing := [] } := by
  have hsub : (stamps s.videoTx.sent ++ (s.pendingPing.getLast?).toList ++ []).Sublist
      s.shared := by
    rw [State.shared, hpacket, List.append_nil]
    simp only [Option.join_none, Option.toList_none, List.append_nil]
    exact (List.Sublist.refl _).append (getLast?_sublist _)
  exact h.sublist (fun j => (hsub.filter _).append (List.Sublist.refl _))
    (fun _ => List.Sublist.refl _) fun _ => rfl

/-- **Steps keep the numbers in order**: pings move up the line, and some
are dropped. -/
theorem Numbered.step (h : Numbered s) (hstep : s.step a = some s') : Numbered s' := by
  cases trans_of_step hstep with
  | subscribe => exact h.setConn rfl rfl
  | close => exact h.setConn rfl rfl
  | ping => exact h.ping
  | dispatch hserver => exact h.dispatch hserver
  | stamp hpacket => exact h.stamp hpacket
  | @send packet hpacket =>
    refine h.congr ?_ (fun _ => rfl) fun _ => rfl
    unfold State.shared
    rw [hpacket]
    cases packet with
    | none => simp [stamps, Broadcast.send]
    | some p => simp [stamps, Broadcast.send]
  | lagged => exact h.setConn rfl rfl
  | received => exact h.setConn rfl rfl
  | deliver => exact h.setConn rfl rfl

/-! ## What a client hears -/

/-- What a client hears is about its own pings, and so is what its handler
has yet to pass. -/
structure Own (s : State ι τ) : Prop where
  heard : ∀ i, ∀ p ∈ (s.conn i).heard, p.owner = i
  unread : ∀ i next, (s.conn i).handler = .serving next →
    ∀ p, some p ∈ s.videoTx.unread next → p.owner = i

/-- What happens on one connection, the broadcast left as it is. -/
theorem Heard.setConn (h : Heard s)
    (hheard : c.heard.Sublist (stamps (c.handler.passed s.videoTx.sent)))
    (hpassed : ∀ next, c.handler = .serving next → next ≤ s.videoTx.sent.length) :
    Heard (s.setConn i c) := by
  refine ⟨fun j => ?_, fun j => ?_⟩
  · rw [conn_setConn]
    split
    · exact hheard
    · exact h.heard j
  · rw [conn_setConn]
    split
    · exact hpassed
    · exact h.passed j

omit [DecidableEq ι] in
/-- What the queue takes, no client hears. -/
theorem Heard.trySendPing (h : Heard s) (p : Ping ι τ) : Heard (s.trySendPing p) := by
  refine ⟨fun j => ?_, fun j => ?_⟩
  · rw [conn_trySendPing, videoTx_trySendPing]
    exact h.heard j
  · rw [conn_trySendPing, videoTx_trySendPing]
    exact h.passed j

omit [DecidableEq ι] in
/-- A packet broadcast is past what any handler has passed. -/
theorem Heard.send (h : Heard s) (packet : Packet ι τ) :
    Heard { s with packet := none, videoTx := s.videoTx.send packet } := by
  refine ⟨fun j => (h.heard j).trans ?_, fun j next hj => ?_⟩
  · refine List.Sublist.filterMap _ ?_
    simp only [Broadcast.send]
    cases (s.conn j).handler with
    | fresh => exact List.nil_sublist _
    | serving n =>
      simp only [Handler.passed]
      rw [List.take_append]
      exact List.sublist_append_left _ _
    | ended => exact List.sublist_append_left _ _
  · rw [Broadcast.length_sent_send]
    exact Nat.le_succ_of_le (h.passed j next hj)

/-- A packet received is the next one the handler passes. -/
theorem Heard.received {next : ℕ} {packet : Packet ι τ} (h : Heard s)
    (hserving : (s.conn i).handler = .serving next)
    (hrecv : s.videoTx.recv next = .value packet) :
    Heard (s.setConn i { s.conn i with
      handler := .serving (next + 1), toClient := (s.conn i).toClient ++ [packet] }) := by
  have hheard := h.heard i
  rw [hserving] at hheard
  obtain ⟨hget, -⟩ := Broadcast.recv_value hrecv
  obtain ⟨hlt, -⟩ := List.getElem?_eq_some_iff.1 hget
  refine h.setConn ?_ fun n hn => ?_
  · have htake : s.videoTx.sent.take (next + 1) = s.videoTx.sent.take next ++ [packet] := by
      rw [List.take_add_one, hget]
      rfl
    simp only [Conn.heard, Handler.passed, htake, stamps, List.filterMap_append,
      ← List.append_assoc]
    exact hheard.append (List.Sublist.refl _)
  · obtain rfl := Handler.serving.inj hn
    exact hlt

omit [DecidableEq ι] in
/-- A packet delivered was heard already, on the socket. -/
theorem heard_deliver {c : Conn ι τ} {packet : Packet ι τ} {rest : List (Packet ι τ)}
    (hclient : c.toClient = packet :: rest) :
    ({ c with toClient := rest, echoes := c.echoes ++ packet.toList } : Conn ι τ).heard =
      c.heard := by
  rw [Conn.heard, Conn.heard, hclient]
  cases packet with
  | none => simp [stamps]
  | some p => simp [stamps]

/-- **Clients hear what was broadcast, once**, in every run. -/
theorem Heard.step (h : Heard s) (hstep : s.step a = some s') : Heard s' := by
  cases trans_of_step hstep with
  | @subscribe i hfresh =>
    refine h.setConn ?_ fun next hnext => ?_
    · have hnil := h.heard i
      rw [hfresh] at hnil
      exact hnil.trans (List.nil_sublist _)
    · obtain rfl := Handler.serving.inj hnext
      exact Nat.le_refl _
  | @close i => exact h.setConn ((h.heard i).trans (passed_sublist _ _)) fun _ hn => (by cases hn)
  | @ping i => exact h.setConn (h.heard i) (h.passed i)
  | @dispatch i p rest =>
    have hset : Heard (s.setConn i { s.conn i with toServer := rest }) :=
      h.setConn (h.heard i) (h.passed i)
    exact hset.trySendPing p
  | stamp => exact ⟨h.heard, h.passed⟩
  | @send packet => exact h.send packet
  | @lagged i next next' hserving hrecv =>
    have hheard := h.heard i
    rw [hserving] at hheard
    obtain ⟨hlt, hle⟩ := Broadcast.recv_lagged hrecv
    refine h.setConn (hheard.trans (passed_mono (Nat.le_of_lt hlt))) fun n hn => ?_
    obtain rfl := Handler.serving.inj hn
    exact hle
  | received hserving hrecv => exact h.received hserving hrecv
  | @deliver i _ _ hclient =>
    refine h.setConn ?_ (h.passed i)
    rw [heard_deliver hclient]
    exact h.heard i

theorem Own.setConn (h : Own s) (hheard : ∀ p ∈ c.heard, p.owner = i)
    (hunread : ∀ next, c.handler = .serving next →
      ∀ p, some p ∈ s.videoTx.unread next → p.owner = i) : Own (s.setConn i c) := by
  refine ⟨fun j => ?_, fun j => ?_⟩
  all_goals
    rw [conn_setConn]
    split
    · rename_i hj
      rw [hj]
      assumption
  · exact h.heard j
  · exact h.unread j

omit [DecidableEq ι] in
theorem Own.trySendPing (h : Own s) (p : Ping ι τ) : Own (s.trySendPing p) := by
  refine ⟨fun j => ?_, fun j => ?_⟩
  · rw [conn_trySendPing]
    exact h.heard j
  · rw [conn_trySendPing, videoTx_trySendPing]
    exact h.unread j

/-- A packet received was unread, so a ping it echoes is the client's own. -/
theorem Own.received {next : ℕ} {packet : Packet ι τ} (h : Own s)
    (hserving : (s.conn i).handler = .serving next)
    (hrecv : s.videoTx.recv next = .value packet) :
    Own (s.setConn i { s.conn i with
      handler := .serving (next + 1), toClient := (s.conn i).toClient ++ [packet] }) := by
  have hunread := h.unread i next hserving
  rw [(Broadcast.recv_value hrecv).2] at hunread
  refine h.setConn (fun p hp => ?_) fun n hn p hp => ?_
  · simp only [Conn.heard, stamps, List.filterMap_append, List.mem_append] at hp
    rcases hp with hp | hp | hp
    · exact h.heard i p (List.mem_append_left _ hp)
    · exact h.heard i p (List.mem_append_right _ hp)
    · rw [← stamps, mem_stamps, List.mem_singleton] at hp
      exact hunread p (hp ▸ List.mem_cons_self)
  · obtain rfl := Handler.serving.inj hn
    exact hunread p (List.mem_cons_of_mem _ hp)

/-- **Where packets are sent to their own connection alone**, clients hear
of their own pings alone. -/
theorem Own.step (h : Own s) (hheard : Heard s) (halone : Alone s a)
    (hstep : s.step a = some s') : Own s' := by
  cases trans_of_step hstep with
  | @subscribe i =>
    refine h.setConn (h.heard i) fun next hnext p hp => ?_
    obtain rfl := Handler.serving.inj hnext
    rw [Broadcast.unread_subscribe] at hp
    cases hp
  | @close i => exact h.setConn (h.heard i) fun _ hn => (by cases hn)
  | @ping i => exact h.setConn (h.heard i) (h.unread i)
  | @dispatch i p rest =>
    have hset : Own (s.setConn i { s.conn i with toServer := rest }) :=
      h.setConn (h.heard i) (h.unread i)
    exact hset.trySendPing p
  | stamp => exact ⟨h.heard, h.unread⟩
  | @send packet hpacket =>
    refine ⟨h.heard, fun j next hj p hp => ?_⟩
    rw [Broadcast.unread_send (hheard.passed j next hj), List.mem_append,
      List.mem_singleton] at hp
    rcases hp with hp | rfl
    · exact h.unread j next hj p hp
    · exact (halone p hpacket j next hj).symm
  | @lagged i next next' hserving hrecv =>
    refine h.setConn (h.heard i) fun n hn p hp => h.unread i next hserving p ?_
    obtain rfl := Handler.serving.inj hn
    have hle := Nat.le_of_lt (Broadcast.recv_lagged hrecv).1
    exact (List.drop_sublist_drop_left _ hle).subset hp
  | received hserving hrecv => exact h.received hserving hrecv
  | @deliver i _ _ hclient =>
    refine h.setConn ?_ (h.unread i)
    rw [heard_deliver hclient]
    exact h.heard i

/-! ## Runs -/

theorem numbered_of_reachable (h : (machine capacity ι τ).Reachable s) : Numbered s := by
  refine h.invariant (fun s hs => ?_) fun s a s' hstep hnumbered => hnumbered.step hstep
  obtain rfl := hs
  exact ⟨fun _ => List.Pairwise.nil, fun _ _ hp => (by cases hp), fun _ _ hp => (by cases hp)⟩

theorem heard_of_reachable (h : (machine capacity ι τ).Reachable s) : Heard s := by
  refine h.invariant (fun s hs => ?_) fun s a s' hstep hheard => hheard.step hstep
  obtain rfl := hs
  exact ⟨fun _ => List.Sublist.refl _, fun _ _ hserving => (by cases hserving)⟩

theorem own_of_reach (h : (machine capacity ι τ).Reach Alone s) : Own s := by
  refine h.invariant_of (fun s hs => heard_of_reachable hs.reachable) (fun s hs => ?_)
    fun s a s' hheard _ halone hstep hown => hown.step hheard halone hstep
  obtain rfl := hs
  exact ⟨fun _ _ hp => (by cases hp), fun _ _ hserving => (by cases hserving)⟩

/-- **A ping is echoed to a client at most once.** -/
theorem nodup_echoes (hnumbered : Numbered s) (hheard : Heard s) (i : ι) :
    (s.conn i).echoes.Nodup := by
  have hshared : ∀ l : List (Ping ι τ),
      (∀ j, (l.filter fun p => p.owner = j).Pairwise fun p q => p.n < q.n) → l.Nodup := by
    intro l
    induction l with
    | nil => exact fun _ => List.nodup_nil
    | cons p l ih =>
      intro hinc
      -- a ping met twice would be before itself in its owner's line
      refine List.nodup_cons.2 ⟨fun hmem => ?_, ih fun j => (hinc j).sublist
        ((List.sublist_cons_self _ _).filter _)⟩
      have hp := hinc p.owner
      rw [List.filter_cons_of_pos (by simp), List.pairwise_cons] at hp
      exact Nat.lt_irrefl _ (hp.1 p (List.mem_filter.2 ⟨hmem, by simp⟩))
  exact (hshared s.shared fun j => (hnumbered.increasing j).sublist
    (List.sublist_append_left _ _)).sublist (hheard.echoes_sublist i)

theorem ownEchoes (hnumbered : Numbered s) (hheard : Heard s) (hown : Own s) (i : ι) :
    OwnEchoes (s.conn i) := by
  have hall : (s.conn i).echoes.filter (fun p => p.owner = i) = (s.conn i).echoes :=
    List.filter_eq_self.2 fun p hp =>
      decide_eq_true (hown.heard i p (List.mem_append_left _ hp))
  have hline : ((s.conn i).echoes).Sublist (s.line i) := by
    rw [← hall]
    exact ((hheard.echoes_sublist i).filter _).trans (List.sublist_append_left _ _)
  exact Fifo.sublist_of_numbered Ping.n ((hnumbered.increasing i).sublist hline)
    fun p hp => hnumbered.pinged i p (hline.subset hp)

/-- **A client's echoes are of its own pings** in every run that broadcasts
stamped packets to the pinging connection alone, and a different ping for
each. In every run, a ping is echoed to a client at most once. -/
theorem echoes_own (h : (machine capacity ι τ).Reach Alone s) :
    (∀ i, OwnEchoes (s.conn i)) ∧
      ∀ t, (machine capacity ι τ).Reachable t → ∀ i, (t.conn i).echoes.Nodup :=
  ⟨ownEchoes (numbered_of_reachable h.reachable) (heard_of_reachable h.reachable) (own_of_reach h),
    fun _ ht => nodup_echoes (numbered_of_reachable ht) (heard_of_reachable ht)⟩

/-- One connection, and its ping there and back. -/
theorem echoes_own_one : ∃ s, (machine videoCapacity ℕ ℕ).exec (initial videoCapacity)
      [.subscribe 0, .ping 0 7, .dispatch 0, .stamp, .send, .recv 0, .deliver 0] = some s ∧
    ((s.conn 0).echoes.map Ping.clientTs) = [7] ∧
    (∀ i, OwnEchoes (s.conn i)) ∧
      ∀ t, (machine videoCapacity ℕ ℕ).Reachable t → ∀ i, (t.conn i).echoes.Nodup := by
  have hone : ∀ s : State ℕ ℕ, (∀ i, (s.conn (i + 1)).handler = .fresh) →
      (∀ p, s.packet = some (some p) → p.owner = 0) → Alone s .send := by
    intro s hfresh hzero p hp i next hi
    rw [hzero p hp]
    cases i with
    | zero => rfl
    | succ i =>
      rw [hfresh i] at hi
      cases hi
  have hrun : (machine videoCapacity ℕ ℕ).Run Alone (initial videoCapacity)
      [.subscribe 0, .ping 0 7, .dispatch 0, .stamp, .send, .recv 0, .deliver 0] _ :=
    ⟨trivial, _, rfl, trivial, _, rfl, trivial, _, rfl, trivial, _, rfl,
      hone _ (fun _ => rfl) (fun p hp => (by cases hp; rfl)), _, rfl, trivial, _, rfl, trivial,
      _, rfl, rfl⟩
  exact ⟨_, rfl, rfl, echoes_own (Machine.Reach.run _ (.start rfl) hrun)⟩

/-- **A ping comes back to another client**: it is still queued when its
connection ends, and goes out with the first packet for the next. -/
theorem not_ownEchoes :
    ¬ ∀ s, (machine videoCapacity ℕ ℕ).Reachable s → ∀ i, OwnEchoes (s.conn i) := by
  intro hall
  have hrun : (machine videoCapacity ℕ ℕ).exec (initial videoCapacity)
      [.subscribe 0, .ping 0 7, .dispatch 0, .close 0, .subscribe 1, .stamp, .send, .recv 1,
        .deliver 1] = some _ := rfl
  have hown := hall _ ((machine videoCapacity ℕ ℕ).reach_of_exec _ (.start rfl) hrun) 1
  revert hown
  unfold OwnEchoes
  decide

end Echo

end WaylandWebStream
