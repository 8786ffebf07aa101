import WaylandWebStream.Lib.Fifo
import WaylandWebStream.Lib.Latest
import WaylandWebStream.Clipboard.Bridge

/-!
# Clipboard — who owns the selection

One flag of the bridge stands for a race: its own request may be on the
way while an older source's `cancelled` and the selection of another
client are still to be read. `Owned` is what holds of the flag, the
nest's selection and the two queues whatever the interleaving; the three
guarantees of the protocol are read off it. A source's number tells its
place in line: requests, selections and cancellations come in its order.
-/

namespace WaylandWebStream

namespace Clipboard

open Wire (ClipboardData maxClipboardBytes)
open Latest Fifo

variable {w w' : World} {a : Action} {e : Event} {events : List Event} {off : Offer}
variable {sel : Option Offer} {n : Nest} {k : ℕ} {s : ClipState}

/-! ## What the nest announces -/

/-- The selection an event announces. -/
def Event.announced : Event → Option (Option Offer)
  | .selection sel => some sel
  | _ => none

/-- The bridge's source an event announces as the selection. -/
def Event.owner : Event → Option ℕ
  | .selection (some off) => off.origin.source?
  | _ => none

theorem announced_eq_some : e.announced = some sel ↔ e = .selection sel := by
  cases e <;> simp [Event.announced]

theorem latest_announcement (sel : Option Offer) :
    latest Event.announced (announcement sel) = some sel := by
  cases sel with
  | none => rfl
  | some off => exact latest_concat

theorem selection_mem_announcement : .selection sel ∈ announcement sel := by
  cases sel <;> simp [announcement]

theorem cancelled_notMem_announcement : Event.cancelled k ∉ announcement sel := by
  cases sel <;> simp [announcement]

theorem cancelled_mem_cancels : Event.cancelled k ∈ n.cancels ↔ n.owner = some k := by
  simp [Nest.cancels]

/-- The announcement of someone else's selection names no source. -/
theorem owner_of_mem_announcement (hsel : (sel.bind fun off => off.origin.source?) = none)
    (he : e ∈ announcement sel) : e.owner = none := by
  cases sel with
  | none =>
    obtain rfl := List.mem_singleton.1 he
    rfl
  | some off =>
    simp only [announcement, List.cons_append, List.mem_cons, List.mem_append, List.mem_map,
      List.not_mem_nil, or_false] at he
    obtain rfl | ⟨mime, -, rfl⟩ | rfl := he
    · rfl
    · rfl
    · exact hsel

theorem owner_of_mem_cancels (he : e ∈ n.cancels) : e.owner = none := by
  obtain ⟨k, -, rfl⟩ := List.mem_map.1 he
  rfl

/-- Behind the cancellation the nest sends, its announcement is queued. -/
theorem behind_cancels {P : List Event → Prop} (hP : P (announcement sel)) :
    Behind (.cancelled k) P (n.cancels ++ announcement sel) := by
  have hann : Behind (.cancelled k) P (announcement sel) :=
    .of_notMem cancelled_notMem_announcement
  rw [Nest.cancels]
  cases n.owner with
  | none => exact hann
  | some j => exact .cons (fun _ => hP) hann

@[simp] theorem owner_select (origin : Option Origin) :
    (w.select origin).nest.owner = origin.bind Origin.source? := by
  cases origin <;> rfl

/-! ## What an event does to the flag -/

/-- **A read changes the last value and the watch channel**, nothing
else. -/
theorem readOffer_eq (s : ClipState) (off : Offer) (delivered : Option Bytes) :
    ∃ lastValue fromRemote,
      readOffer s off delivered = { s with lastValue := lastValue, fromRemote := fromRemote } := by
  unfold readOffer
  cases chooseReadMime ((s.offerMimes off.id).getD []) with
  | none => exact ⟨_, _, rfl⟩
  | some choice =>
    cases delivered with
    | none => exact ⟨_, _, rfl⟩
    | some content =>
      dsimp only
      split_ifs <;> exact ⟨_, _, rfl⟩

/-- A selection dispatched changes no more than that, and the types
collected of its offer. -/
theorem onSelection_eq (s : ClipState) (sel : Option Offer) (delivered : Option Bytes) :
    ∃ offerMimes lastValue fromRemote, (onSelection s sel delivered).1 =
      { s with offerMimes := offerMimes, lastValue := lastValue, fromRemote := fromRemote } := by
  cases sel with
  | none => exact ⟨_, _, _, rfl⟩
  | some off =>
    obtain ⟨lastValue, fromRemote, hread⟩ := readOffer_eq s off delivered
    rw [onSelection]
    split_ifs
    · exact ⟨_, _, _, rfl⟩
    · rw [hread]
      exact ⟨_, _, _, rfl⟩

/-- What is read does not depend on what the read delivers. -/
theorem handle_reading (delivered : Option Bytes) (e : Event) :
    (handle w.bridge delivered e).2 = w.reading e := by
  cases e with
  | selection sel =>
    cases sel with
    | none => rfl
    | some off =>
      simp only [World.reading, handle, onSelection]
      split_ifs <;> rfl
  | _ => rfl

/-- A selection is read unless the bridge owns it. -/
theorem reading_selection (w : World) (off : Offer) :
    w.reading (.selection (some off)) = if w.bridge.owning then none else some off := by
  simp only [World.reading, handle, onSelection]
  split_ifs <;> rfl

@[simp] theorem handle_created (s : ClipState) (delivered : Option Bytes) (e : Event) :
    (handle s delivered e).1.created = s.created := by
  cases e with
  | selection sel =>
    obtain ⟨_, _, _, hsel⟩ := onSelection_eq s sel delivered
    rw [handle, hsel]
  | cancelled k =>
    simp only [handle, onSourceCancelled]
    split_ifs <;> rfl
  | _ => rfl

/-- **Only the current source's cancellation gives the ownership up.** -/
theorem handle_ownership (delivered : Option Bytes)
    (hcurrent : ∀ k, e = .cancelled k → s.source ≠ some k) :
    (handle s delivered e).1.source = s.source ∧ (handle s delivered e).1.owning = s.owning := by
  cases e with
  | selection sel =>
    obtain ⟨_, _, _, hsel⟩ := onSelection_eq s sel delivered
    rw [handle, hsel]
    exact ⟨rfl, rfl⟩
  | cancelled k =>
    rw [handle, onSourceCancelled, if_neg (hcurrent k rfl)]
    exact ⟨rfl, rfl⟩
  | _ => exact ⟨rfl, rfl⟩

/-! ## The invariant -/

/-- **What holds between the flag, the nest and the two queues.** -/
structure Owned (w : World) : Prop where
  /-- The source is the latest one while the flag is set. -/
  source_eq : w.bridge.source = if w.bridge.owning then some w.bridge.created else none
  /-- Requests are in the order of their sources, none later than the latest. -/
  request_le : ∀ r ∈ w.requests, r.source ≤ w.bridge.created
  requests_lt : w.requests.Pairwise fun r r' => r.source < r'.source
  /-- A source that is the selection, or was, comes before those requested. -/
  owner_le : ∀ k, w.nest.owner = some k → k ≤ w.bridge.created
  owner_lt : ∀ k, w.nest.owner = some k → ∀ r ∈ w.requests, k < r.source
  cancelled_le : ∀ k, .cancelled k ∈ w.events → k ≤ w.bridge.created
  cancelled_lt_request : ∀ k, .cancelled k ∈ w.events → ∀ r ∈ w.requests, k < r.source
  cancelled_lt_owner : ∀ k, .cancelled k ∈ w.events → ∀ j, w.nest.owner = some j → k < j
  /-- With the flag set the latest source is requested, selected or cancelled. -/
  owning_where : w.bridge.owning = true → (∃ r ∈ w.requests, r.source = w.bridge.created) ∨
    w.nest.owner = some w.bridge.created ∨ .cancelled w.bridge.created ∈ w.events
  /-- With the flag down nothing of the bridge's is under way or selected. -/
  disowned : w.bridge.owning = false → w.requests = [] ∧ w.nest.owner = none ∧
    ∀ e ∈ w.events, e.owner = none
  /-- The latest source's cancellation is the last to hear of any source. -/
  behind_current : Behind (.cancelled w.bridge.created)
    (fun rest => ∀ e ∈ rest, e.owner = none) w.events
  /-- Behind every cancellation a selection is announced. -/
  behind_cancelled : ∀ k, Behind (.cancelled k) (fun rest => ∃ e ∈ rest, e.announced ≠ none)
    w.events
  /-- The last selection announced is the nest's. -/
  announced : latest Event.announced w.events = none ∨
    latest Event.announced w.events = some w.nest.selection
  /-- A client's selection whose announcement was dispatched was read last,
  or is about to be replaced. -/
  read_last : latest Event.announced w.events = none → ∀ off, w.nest.selection = some off →
    off.origin.source? = none → w.reads.getLast? = some off ∨ w.requests ≠ []
  /-- The offers read were clients'. -/
  reads_foreign : ∀ off ∈ w.reads, off.origin.source? = none

namespace Owned

theorem empty : Owned {} where
  source_eq := rfl
  request_le := nofun
  requests_lt := .nil
  owner_le := nofun
  owner_lt := nofun
  cancelled_le := nofun
  cancelled_lt_request := nofun
  cancelled_lt_owner := nofun
  owning_where := nofun
  disowned := fun _ => ⟨rfl, rfl, nofun⟩
  behind_current := .of_notMem (by simp)
  behind_cancelled := fun _ => .of_notMem (by simp)
  announced := .inl rfl
  read_last := nofun
  reads_foreign := nofun

/-- Once the latest source is cancelled no request is left and no source
of the bridge is the selection. -/
theorem after_cancelled (h : Owned w) (hc : .cancelled w.bridge.created ∈ w.events) :
    w.requests = [] ∧ w.nest.owner = none := by
  constructor
  · refine List.eq_nil_iff_forall_not_mem.2 fun r hr => ?_
    have hlt := h.cancelled_lt_request _ hc r hr
    have hle := h.request_le r hr
    omega
  · cases hk : w.nest.owner with
    | none => rfl
    | some k =>
      have hlt := h.cancelled_lt_owner _ hc k hk
      have hle := h.owner_le k hk
      omega

/-- **A change of the selection.** The nest selects what `origin` is
behind, the requests of `rs` still waiting: a client's copy or nothing,
or the bridge's next source. -/
theorem select (h : Owned w) {rs : List Request} (hrs : rs.Sublist w.requests)
    {origin : Option Origin}
    (hnext : ∀ k, origin.bind Origin.source? = some k → w.bridge.owning = true ∧
      k ≤ w.bridge.created ∧ (∀ r ∈ rs, k < r.source) ∧
      (∀ j, w.nest.owner = some j → j < k) ∧ ∀ j, .cancelled j ∈ w.events → j < k)
    (hwhere : (∃ r ∈ w.requests, r.source = w.bridge.created) →
      (∃ r ∈ rs, r.source = w.bridge.created) ∨
        origin.bind Origin.source? = some w.bridge.created) :
    Owned (({ w with requests := rs }).select origin) := by
  have hmem : ∀ k, Event.cancelled k ∈ (({ w with requests := rs }).select origin).events →
      .cancelled k ∈ w.events ∨ w.nest.owner = some k := by
    intro k hk
    simp only [World.select, List.mem_append] at hk
    rcases hk with hk | hk | hk
    · exact .inl hk
    · exact .inr (cancelled_mem_cancels.1 hk)
    · exact (cancelled_notMem_announcement hk).elim
  have hlatest : latest Event.announced (({ w with requests := rs }).select origin).events =
      some (w.nest.offer origin) := by
    simp only [World.select]
    rw [latest_append, latest_append, latest_announcement]
    rfl
  -- a source that is cancelled, or about to be, is never the one selected next
  have hforeign : .cancelled w.bridge.created ∈ w.events ∨ w.nest.owner = some w.bridge.created →
      origin.bind Origin.source? = none := by
    intro hc
    cases hk : origin.bind Origin.source? with
    | none => rfl
    | some k =>
      obtain ⟨-, hle, -, howner, hcancelled⟩ := hnext k hk
      rcases hc with hc | hc
      · exact absurd (hcancelled _ hc) (by omega)
      · exact absurd (howner _ hc) (by omega)
  have hoffer : (w.nest.offer origin).bind (fun off => off.origin.source?) =
      origin.bind Origin.source? := by
    cases origin <;> rfl
  refine
    { source_eq := h.source_eq
      request_le := fun r hr => h.request_le r (hrs.subset hr)
      requests_lt := h.requests_lt.sublist hrs
      owner_le := fun k hk => (hnext k (by rwa [owner_select] at hk)).2.1
      owner_lt := fun k hk => (hnext k (by rwa [owner_select] at hk)).2.2.1
      cancelled_le := fun k hk => (hmem k hk).elim (h.cancelled_le k) (h.owner_le k)
      cancelled_lt_request := fun k hk r hr => (hmem k hk).elim
        (fun hk => h.cancelled_lt_request k hk r (hrs.subset hr))
        (fun hk => h.owner_lt k hk r (hrs.subset hr))
      cancelled_lt_owner := fun k hk j hj => ?_
      owning_where := fun howning => ?_
      disowned := fun howning => ?_
      behind_current := ?_
      behind_cancelled := fun k => ?_
      announced := .inr hlatest
      read_last := fun hnone => by rw [hlatest] at hnone; cases hnone
      reads_foreign := h.reads_foreign }
  · obtain ⟨-, -, -, howner, hcancelled⟩ := hnext j (by rwa [owner_select] at hj)
    exact (hmem k hk).elim (hcancelled k) (howner k)
  · rw [owner_select]
    simp only [World.select, List.mem_append]
    rcases h.owning_where howning with hr | howner | hc
    · exact (hwhere hr).imp_right .inl
    · exact .inr (.inr (.inr (.inl (cancelled_mem_cancels.2 howner))))
    · exact .inr (.inr (.inl hc))
  · have howning : w.bridge.owning = false := howning
    obtain ⟨hreq, howner, hevents⟩ := h.disowned howning
    have hnone : origin.bind Origin.source? = none := by
      cases hk : origin.bind Origin.source? with
      | none => rfl
      | some k => exact absurd (hnext k hk).1 (by simp [howning])
    refine ⟨List.sublist_nil.1 (hreq ▸ hrs), by rw [owner_select, hnone], fun e he => ?_⟩
    simp only [World.select, List.mem_append] at he
    rcases he with he | he | he
    · exact hevents e he
    · exact owner_of_mem_cancels he
    · exact owner_of_mem_announcement (hoffer.trans hnone) he
  · -- behind a cancellation of the latest source only a client's selection is announced
    by_cases hc : .cancelled w.bridge.created ∈ w.events ∨ w.nest.owner = some w.bridge.created
    · have hann : ∀ e ∈ announcement (w.nest.offer origin), e.owner = none :=
        fun e he => owner_of_mem_announcement (hoffer.trans (hforeign hc)) he
      refine h.behind_current.append (behind_cancels hann) fun rest hrest e he => ?_
      rcases List.mem_append.1 he with he | he
      · exact hrest e he
      · exact (List.mem_append.1 he).elim owner_of_mem_cancels (hann e)
    · refine .of_notMem fun hk => hc (hmem _ hk)
  · have hann : ∃ e ∈ announcement (w.nest.offer origin), e.announced ≠ none :=
      ⟨_, selection_mem_announcement, by simp [Event.announced]⟩
    refine (h.behind_cancelled k).append (behind_cancels hann) fun rest _ => ?_
    exact hann.imp fun e he => ⟨List.mem_append_right _ (List.mem_append_right _ he.1), he.2⟩

/-- A payload the bridge serves: the new source is the latest, and its
request the last. -/
theorem payload (h : Owned w) (data : ClipboardData) : Owned (w.payload data) := by
  unfold World.payload setSelection
  split_ifs
  · simpa using h
  · simpa using h
  -- the number is new, so no event is about it yet
  have hfresh : .cancelled (w.bridge.created + 1) ∉ w.events := by
    intro hc
    have hle := h.cancelled_le _ hc
    omega
  refine
    { source_eq := rfl
      request_le := fun r hr => ?_
      requests_lt := ?_
      owner_le := fun k hk => (h.owner_le k hk).trans (Nat.le_succ _)
      owner_lt := fun k hk r hr => ?_
      cancelled_le := fun k hk => (h.cancelled_le k hk).trans (Nat.le_succ _)
      cancelled_lt_request := fun k hk r hr => ?_
      cancelled_lt_owner := h.cancelled_lt_owner
      owning_where := fun _ => .inl ⟨_, List.mem_append_right _ List.mem_cons_self, rfl⟩
      disowned := nofun
      behind_current := .of_notMem hfresh
      behind_cancelled := h.behind_cancelled
      announced := h.announced
      read_last := fun _ _ _ _ => .inr (by simp)
      reads_foreign := h.reads_foreign }
  · rcases List.mem_append.1 hr with hr | hr
    · exact (h.request_le r hr).trans (Nat.le_succ _)
    · obtain rfl := List.mem_singleton.1 hr
      exact le_rfl
  · refine List.pairwise_append.2 ⟨h.requests_lt, List.pairwise_singleton _ _, ?_⟩
    intro r hr r' hr'
    obtain rfl := List.mem_singleton.1 hr'
    exact Nat.lt_succ_of_le (h.request_le r hr)
  · rcases List.mem_append.1 hr with hr | hr
    · exact h.owner_lt k hk r hr
    · obtain rfl := List.mem_singleton.1 hr
      exact Nat.lt_succ_of_le (h.owner_le k hk)
  · rcases List.mem_append.1 hr with hr | hr
    · exact h.cancelled_lt_request k hk r hr
    · obtain rfl := List.mem_singleton.1 hr
      exact Nat.lt_succ_of_le (h.cancelled_le k hk)

/-- What a dispatch reads is the selection of a client, and the nest's if
it is the last one announced. -/
theorem reading (h : Owned w) (he : w.events = e :: events) (hoff : w.reading e = some off) :
    off.origin.source? = none ∧ w.bridge.owning = false ∧ e = .selection (some off) := by
  cases e with
  | selection sel =>
    cases sel with
    | none => cases hoff
    | some o =>
      rw [reading_selection] at hoff
      split_ifs at hoff with howning
      obtain rfl := Option.some.inj hoff
      have howning : w.bridge.owning = false := by simpa using howning
      have hnone := (h.disowned howning).2.2 _ (he ▸ List.mem_cons_self)
      exact ⟨hnone, howning, rfl⟩
  | _ => cases hoff

/-- **When no announcement is left behind the event dispatched**, a
client's selection was announced before it, or is read by it, or the
bridge's next request is under way. -/
theorem last_dispatched (h : Owned w) (he : w.events = e :: events)
    (hnone : latest Event.announced events = none) (hoff : w.nest.selection = some off)
    (hforeign : off.origin.source? = none) :
    (latest Event.announced w.events = none ∧ w.reading e = none) ∨
      w.reading e = some off ∨ w.requests ≠ [] := by
  have hlatest : latest Event.announced w.events = e.announced := by
    rw [he, latest_cons, hnone, Option.none_or]
  cases hann : e.announced with
  | none =>
    refine .inl ⟨hlatest.trans hann, ?_⟩
    cases hr : w.reading e with
    | none => rfl
    | some o => rw [(h.reading he hr).2.2] at hann; cases hann
  | some sel =>
    -- the announcement of the nest's selection itself is dispatched
    obtain rfl := announced_eq_some.1 hann
    have hsel : sel = some off := by
      have := h.announced
      rw [hlatest, hann, hoff] at this
      simpa using this
    subst hsel
    refine .inr ?_
    cases hown : w.bridge.owning with
    | false => exact .inl (by simp [reading_selection, hown])
    | true =>
      refine .inr ?_
      rcases h.owning_where hown with ⟨r, hr, -⟩ | howner | hc
      · exact List.ne_nil_of_mem hr
      · simp [Nest.owner, hoff, hforeign] at howner
      · -- behind the cancellation another announcement would be queued
        have hc : .cancelled w.bridge.created ∈ events := by simpa [he] using hc
        obtain ⟨before, rest, hsplit⟩ := List.append_of_mem hc
        have hbehind := h.behind_cancelled w.bridge.created
        rw [he] at hbehind
        obtain ⟨x, hx, hxann⟩ := hbehind.tail rest (hsplit ▸ List.suffix_append _ _)
        refine absurd (latest_eq_none_iff.1 hnone x ?_) hxann
        exact hsplit ▸ List.mem_append_right _ (List.mem_cons_of_mem _ hx)

/-- An event dispatched that leaves the flag as it is. -/
theorem dispatch_keeps (h : Owned w) (he : w.events = e :: events) (delivered : Option Bytes)
    (hcurrent : ∀ k, e = .cancelled k → w.bridge.source ≠ some k) :
    Owned (w.dispatch delivered e events) := by
  obtain ⟨hsource, howning⟩ := handle_ownership delivered hcurrent
  have hsub : ∀ x ∈ events, x ∈ w.events := fun x hx => by
    rw [he]
    exact List.mem_cons_of_mem _ hx
  refine
    { source_eq := ?_
      request_le := fun r hr => ?_
      requests_lt := h.requests_lt
      owner_le := fun k hk => ?_
      owner_lt := h.owner_lt
      cancelled_le := fun k hk => ?_
      cancelled_lt_request := fun k hk => h.cancelled_lt_request k (hsub _ hk)
      cancelled_lt_owner := fun k hk => h.cancelled_lt_owner k (hsub _ hk)
      owning_where := fun hown => ?_
      disowned := fun hown => ?_
      behind_current := ?_
      behind_cancelled := fun k => ?_
      announced := ?_
      read_last := fun hnone off hoff hforeign => ?_
      reads_foreign := fun off hoff => ?_ }
  · simpa [World.dispatch, hsource, howning] using h.source_eq
  · simpa [World.dispatch] using h.request_le r hr
  · simpa [World.dispatch] using h.owner_le k hk
  · simpa [World.dispatch] using h.cancelled_le k (hsub _ hk)
  · -- where the latest source is: still requested, the selection, or with its cancellation queued
    simp only [World.dispatch, howning, handle_created] at hown ⊢
    rcases h.owning_where hown with hr | howner | hc
    · exact .inl hr
    · exact .inr (.inl howner)
    · rw [he] at hc
      rcases List.mem_cons.1 hc with hc | hc
      · -- the flag is set, so the source cancelled would be the current one
        have := hcurrent _ hc.symm
        simp [h.source_eq, hown] at this
      · exact .inr (.inr hc)
  · simp only [World.dispatch, howning] at hown
    obtain ⟨hreq, howner, hevents⟩ := h.disowned hown
    exact ⟨hreq, howner, fun x hx => hevents x (hsub x hx)⟩
  · have := h.behind_current
    rw [he] at this
    simpa [World.dispatch] using this.tail
  · have := h.behind_cancelled k
    rw [he] at this
    exact this.tail
  · have := h.announced
    rw [he, latest_cons] at this
    simp only [World.dispatch]
    cases hl : latest Event.announced events with
    | none => exact .inl rfl
    | some sel => simpa [hl] using this
  · -- the last announcement dispatched is of the current selection: it was read, or skipped as ours
    simp only [World.dispatch] at hnone hoff ⊢
    rcases h.last_dispatched he hnone hoff hforeign with ⟨hlatest, hreading⟩ | hreading | hreq
    · rw [handle_reading, hreading]
      simpa using h.read_last hlatest off hoff hforeign
    · exact .inl (by simp [handle_reading, hreading])
    · exact .inr hreq
  · rcases List.mem_append.1 hoff with hoff | hoff
    · exact h.reads_foreign off hoff
    · rw [handle_reading] at hoff
      exact (h.reading he (Option.mem_toList.1 hoff)).1

/-- The current source's cancellation dispatched: nothing of the bridge's
is left anywhere. -/
theorem dispatch_current (h : Owned w) (he : w.events = .cancelled k :: events)
    (delivered : Option Bytes) (hk : w.bridge.source = some k) :
    Owned (w.dispatch delivered (.cancelled k) events) := by
  have hown : w.bridge.owning = true ∧ k = w.bridge.created := by
    have hsource := h.source_eq
    rw [hk] at hsource
    split_ifs at hsource with hown
    exact ⟨hown, by simpa using hsource⟩
  obtain ⟨hown, rfl⟩ := hown
  -- no request is left, so from here on the nest is the clients'
  have hsub : ∀ x ∈ events, x ∈ w.events := fun x hx => he ▸ List.mem_cons_of_mem _ hx
  obtain ⟨hreq, howner⟩ := h.after_cancelled (he ▸ List.mem_cons_self)
  have hbehind := h.behind_current
  rw [he] at hbehind
  have hlatest : latest Event.announced w.events = latest Event.announced events := by
    rw [he, latest_cons]
    exact Option.or_none
  have hbridge : (handle w.bridge delivered (.cancelled w.bridge.created)).1 =
      { w.bridge with source := none, owning := false } := by
    simp [handle, onSourceCancelled, hk]
  have hreads : (w.dispatch delivered (.cancelled w.bridge.created) events).reads = w.reads :=
    List.append_nil _
  refine
    { source_eq := ?_
      request_le := fun r hr => by simpa [World.dispatch] using h.request_le r hr
      requests_lt := h.requests_lt
      owner_le := fun k hk => by simpa [World.dispatch] using h.owner_le k hk
      owner_lt := h.owner_lt
      cancelled_le := fun k hk => by simpa [World.dispatch] using h.cancelled_le k (hsub _ hk)
      cancelled_lt_request := fun k hk => h.cancelled_lt_request k (hsub _ hk)
      cancelled_lt_owner := fun k hk => h.cancelled_lt_owner k (hsub _ hk)
      owning_where := fun howning => ?_
      disowned := fun _ => ⟨hreq, howner, hbehind.head⟩
      behind_current := by simpa [World.dispatch] using hbehind.tail
      behind_cancelled := fun k => ?_
      announced := hlatest ▸ h.announced
      read_last := fun hnone off hoff hforeign => ?_
      reads_foreign := by rw [hreads]; exact h.reads_foreign }
  · simp [World.dispatch, hbridge]
  · simp [World.dispatch, hbridge] at howning
  · have := h.behind_cancelled k
    rw [he] at this
    exact this.tail
  · rw [hreads]
    exact h.read_last (hlatest.trans hnone) off hoff hforeign

/-- A request for the bytes of a source is no part of the ownership. -/
theorem paste (h : Owned w) (k : ℕ) : Owned { w with events := w.events ++ [.send k] } := by
  -- a `send` announces nothing and cancels nothing, so the queue says what it said
  have hlatest : latest Event.announced (w.events ++ [.send k]) =
      latest Event.announced w.events := by
    rw [latest_concat]
    rfl
  have hmem : ∀ j, Event.cancelled j ∈ w.events ++ [.send k] → .cancelled j ∈ w.events := by simp
  have hsend : ∀ j (P : List Event → Prop), Behind (.cancelled j) P [.send k] :=
    fun j P => .of_notMem (by simp)
  refine
    { source_eq := h.source_eq
      request_le := h.request_le
      requests_lt := h.requests_lt
      owner_le := h.owner_le
      owner_lt := h.owner_lt
      cancelled_le := fun j hj => h.cancelled_le j (hmem j hj)
      cancelled_lt_request := fun j hj => h.cancelled_lt_request j (hmem j hj)
      cancelled_lt_owner := fun j hj => h.cancelled_lt_owner j (hmem j hj)
      owning_where := fun howning => ?_
      disowned := fun howning => ?_
      behind_current := h.behind_current.append (hsend _ _) fun rest hrest e he => ?_
      behind_cancelled := fun j => (h.behind_cancelled j).append (hsend _ _) fun rest hrest => ?_
      announced := hlatest ▸ h.announced
      read_last := fun hnone => h.read_last (hlatest ▸ hnone)
      reads_foreign := h.reads_foreign }
  · exact (h.owning_where howning).imp_right (Or.imp_right fun hc => List.mem_append_left _ hc)
  · obtain ⟨hreq, howner, hevents⟩ := h.disowned howning
    refine ⟨hreq, howner, fun e he => ?_⟩
    rcases List.mem_append.1 he with he | he
    · exact hevents e he
    · obtain rfl := List.mem_singleton.1 he
      rfl
  · rcases List.mem_append.1 he with he | he
    · exact hrest e he
    · obtain rfl := List.mem_singleton.1 he
      rfl
  · exact hrest.imp fun e he => ⟨List.mem_append_left _ he.1, he.2⟩

/-- **Every step keeps the invariant.** -/
theorem step (h : Owned w) (hstep : w.step a = some w') : Owned w' := by
  cases a with
  | payload data =>
    obtain rfl := Option.some.inj hstep
    exact h.payload data
  | dispatch delivered =>
    simp only [World.step] at hstep
    split at hstep
    · cases hstep
    · rename_i e events he
      obtain rfl := Option.some.inj hstep
      -- only the cancellation of the current source touches the flag
      by_cases hcurrent : ∃ k, e = .cancelled k ∧ w.bridge.source = some k
      · obtain ⟨k, rfl, hk⟩ := hcurrent
        exact h.dispatch_current he delivered hk
      · exact h.dispatch_keeps he delivered fun k hk hsource => hcurrent ⟨k, hk, hsource⟩
  | process =>
    simp only [World.step] at hstep
    split at hstep
    · cases hstep
    · rename_i r requests hr
      obtain rfl := Option.some.inj hstep
      have hmem : r ∈ w.requests := hr ▸ List.mem_cons_self
      have hlt := h.requests_lt
      rw [hr, List.pairwise_cons] at hlt
      -- requests are taken in the order of their sources, so this one is before all that are left
      refine h.select (hr ▸ List.sublist_cons_self _ _) (fun k hk => ?_) fun ⟨r', hr', heq⟩ => ?_
      · obtain rfl := Option.some.inj hk
        refine ⟨?_, h.request_le r hmem, hlt.1, fun j hj => h.owner_lt j hj r hmem,
          fun j hj => h.cancelled_lt_request j hj r hmem⟩
        by_contra hown
        exact List.ne_nil_of_mem hmem (h.disowned (by simpa using hown)).1
      · rw [hr] at hr'
        rcases List.mem_cons.1 hr' with rfl | hr'
        · exact .inr (congrArg some heq)
        · exact .inl ⟨r', hr', heq⟩
  | copy c =>
    obtain rfl := Option.some.inj hstep
    exact h.select (List.Sublist.refl _) (fun k hk => by cases hk) .inl
  | clear =>
    obtain rfl := Option.some.inj hstep
    exact h.select (List.Sublist.refl _) (fun k hk => by cases hk) .inl
  | paste =>
    obtain ⟨k, -, rfl⟩ := Option.map_eq_some_iff.1 hstep
    exact h.paste k

end Owned

theorem World.reachable_step (h : World.machine.Reachable w) (hstep : w.step a = some w') :
    World.machine.Reachable w' :=
  h.next (show World.machine.step w a = some w' from hstep)

/-- **The invariant of the ownership.** -/
theorem owned_of_reachable (h : World.machine.Reachable w) : Owned w := by
  refine h.invariant ?_ fun w a w' hstep hw => hw.step hstep
  rintro w ⟨first, rfl⟩
  exact Owned.empty.select (List.Sublist.refl _) (fun k hk => by cases first <;> cases hk) .inl

/-! ## The protocol -/

/-- **The ownership protocol**, over every run. No offer of the bridge's
own is ever read; when nothing is under way the flag tells whether the
latest source is the nest's selection; and a client's selection that
stands then is the one read last. -/
theorem ownership_protocol (h : World.machine.Reachable w) :
    (∀ off ∈ w.reads, ∃ c, off.origin = .foreign c) ∧
    (w.Quiescent → (w.bridge.owning = true ↔ w.nest.owner = some w.bridge.created)) ∧
    (w.Quiescent → w.bridge.owning = false →
      ∀ off, w.nest.selection = some off → w.reads.getLast? = some off) := by
  have hw := owned_of_reachable h
  refine ⟨fun off hoff => ?_, fun ⟨hreq, hev⟩ => ⟨fun hown => ?_, fun howner => ?_⟩,
    fun ⟨hreq, hev⟩ hown off hoff => ?_⟩
  · have hforeign := hw.reads_foreign off hoff
    cases horigin : off.origin with
    | own k mimes => rw [horigin] at hforeign; cases hforeign
    | foreign c => exact ⟨c, rfl⟩
  · rcases hw.owning_where hown with ⟨r, hr, -⟩ | howner | hc
    · rw [hreq] at hr; cases hr
    · exact howner
    · rw [hev] at hc; cases hc
  · by_contra hown
    rw [(hw.disowned (by simpa using hown)).2.1] at howner
    cases howner
  · have hforeign : off.origin.source? = none := by
      have howner := (hw.disowned hown).2.1
      rwa [Nest.owner, hoff] at howner
    have hnone : latest Event.announced w.events = none := by rw [hev]; rfl
    exact (hw.read_last hnone off hoff hforeign).resolve_right (absurd hreq)

/-- A payload crosses a client's copy: the request is under way when the
copy is made and announced, and another copy takes the selection back. -/
def crossing : List Action :=
  [.copy ⟨0, [("text/plain", [104])]⟩, .dispatch none, .payload (.text "a"), .dispatch none,
    .dispatch none, .dispatch (some [104]), .process, .copy ⟨1, [("text/plain", [105])]⟩,
    .dispatch none, .dispatch none, .dispatch none, .dispatch none, .dispatch none, .dispatch none,
    .dispatch none, .dispatch none, .dispatch none, .dispatch none, .dispatch (some [105])]

theorem crossing_isSome : (World.machine.exec (World.start none) crossing).isSome = true := by
  decide +kernel

theorem ownership_protocol_crossing : ∃ w, World.machine.Reachable w ∧ w.Quiescent ∧
    w.bridge.created = 1 ∧ (∀ off ∈ w.reads, ∃ c, off.origin = .foreign c) ∧
    (w.bridge.owning = true ↔ w.nest.owner = some w.bridge.created) ∧
    ∃ off, w.nest.selection = some off ∧ w.reads.getLast? = some off := by
  have hw : World.machine.Reachable (Option.get _ crossing_isSome) :=
    Machine.reach_of_exec crossing (.start ⟨none, rfl⟩) (Option.some_get crossing_isSome).symm
  obtain ⟨hreads, howning, hlast⟩ := ownership_protocol hw
  have hq : (Option.get _ crossing_isSome).Quiescent := by decide +kernel
  obtain ⟨off, hoff⟩ : ∃ off, (Option.get _ crossing_isSome).nest.selection = some off :=
    Option.isSome_iff_exists.1 (by decide +kernel)
  exact ⟨_, hw, hq, by decide +kernel, hreads, howning hq, off, hoff,
    hlast hq (by decide +kernel) off hoff⟩

end Clipboard

end WaylandWebStream
