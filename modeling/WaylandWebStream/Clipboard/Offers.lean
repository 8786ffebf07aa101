import Mathlib.Data.Set.Card
import WaylandWebStream.Clipboard.Contents

/-!
# Offer objects — what the bridge keeps and what it gives back

The nest announces every selection, the regular and the primary one, with
an offer object of its own. The bridge collects the types of each offer
and gives the object back when the `selection` it belongs to arrives.
`primary_selection` it ignores, and the offer that came with it. So a
regular selection leaves nothing behind and a primary one leaves an entry
and an object for good.
-/

namespace WaylandWebStream

namespace Clipboard

/-- The events of a device that announces primary selections too. -/
inductive DeviceEvent
  | clipboard (e : Event)
  | primarySelection (offer : Option Offer)
  deriving DecidableEq

/-- One event dispatched; `primary_selection` falls under `_ => {}`. -/
def handleDevice (s : ClipState) (delivered : Option Bytes) : DeviceEvent → ClipState
  | .clipboard e => (handle s delivered e).1
  | .primarySelection _ => s

/-- What an event does to the offer objects: `data_offer` creates one,
`on_selection` destroys it. -/
def liveOffers (live : List ℕ) : DeviceEvent → List ℕ
  | .clipboard (.dataOffer off) => live ++ [off.id]
  | .clipboard (.selection (some off)) => live.erase off.id
  | _ => live

/-- The events that announce a primary selection. -/
def primaryAnnouncement : Option Offer → List DeviceEvent
  | none => [.primarySelection none]
  | some off =>
    .clipboard (.dataOffer off) :: off.origin.mimes.map (fun m => .clipboard (.offerMime off m)) ++
      [.primarySelection (some off)]

/-- The bridge, its offer objects, and the events under way to it. -/
structure OfferWorld where
  bridge : ClipState := {}
  /-- The offer objects not destroyed, by their ids. -/
  live : List ℕ := []
  events : List DeviceEvent := []
  /-- How many offers the nest created, the next one's id. -/
  offers : ℕ := 0
  /-- How many primary selections that offer something were dispatched. -/
  primaries : ℕ := 0

/-- What can happen next. -/
inductive OfferAction
  /-- The nest's selection changes, to something or to nothing. -/
  | select (origin : Option Origin)
  /-- The nest's primary selection changes. -/
  | selectPrimary (origin : Option Origin)
  /-- A source of the bridge is asked for its bytes. -/
  | send (source : ℕ)
  /-- A source of the bridge is replaced. -/
  | cancel (source : ℕ)
  /-- The device's payload arrives on the bridge's channel. -/
  | payload (data : Wire.ClipboardData)
  /-- The bridge dispatches the next event. -/
  | dispatch (delivered : Option Bytes)

namespace OfferWorld

/-- The offer something new is announced with. -/
def offer (w : OfferWorld) (origin : Option Origin) : Option Offer :=
  origin.map fun origin => ⟨w.offers, origin⟩

/-- Events queued, the offers counted. -/
def announce (w : OfferWorld) (events : List DeviceEvent) : OfferWorld :=
  { w with events := w.events ++ events, offers := w.offers + 1 }

/-- The bridge dispatches `e`, the head of `e :: events`. -/
def dispatch (w : OfferWorld) (delivered : Option Bytes) (e : DeviceEvent)
    (events : List DeviceEvent) : OfferWorld where
  bridge := handleDevice w.bridge delivered e
  live := liveOffers w.live e
  events := events
  offers := w.offers
  primaries := match e with
    | .primarySelection (some _) => w.primaries + 1
    | _ => w.primaries

/-- One step. -/
def step (w : OfferWorld) : OfferAction → Option OfferWorld
  | .select origin => some (w.announce ((announcement (w.offer origin)).map .clipboard))
  | .selectPrimary origin => some (w.announce (primaryAnnouncement (w.offer origin)))
  | .send k => some (w.announce [.clipboard (.send k)])
  | .cancel k => some (w.announce [.clipboard (.cancelled k)])
  | .payload data => some { w with bridge := (setSelection w.bridge data).1 }
  | .dispatch delivered =>
    match w.events with
    | [] => none
    | e :: events => some (w.dispatch delivered e events)

/-- **The bridge and the offers it is sent.** -/
def machine : Machine OfferWorld OfferAction where
  init w := w = {}
  step := step

/-- No primary selection that offers something is announced. -/
def RegularOnly (_ : OfferWorld) : OfferAction → Prop
  | .selectPrimary (some _) => False
  | _ => True

end OfferWorld

/-- The entries of `offer_mimes`. -/
def ClipState.entries (s : ClipState) : Set ℕ := {id | (s.offerMimes id).isSome}

/-! ## Announcements arrive whole -/

/-- An event that is about no offer. -/
def DeviceEvent.Bare : DeviceEvent → Prop
  | .clipboard (.selection none) | .clipboard (.send _) | .clipboard (.cancelled _)
  | .primarySelection none => True
  | _ => False

/-- **What is queued while `opened` is being announced**: the rest of its
announcement, then whole ones. -/
inductive Whole : Option Offer → List DeviceEvent → Prop
  | nil : Whole none []
  /-- An announcement begins. -/
  | dataOffer {off : Offer} {es : List DeviceEvent} :
      Whole (some off) es → Whole none (.clipboard (.dataOffer off) :: es)
  /-- It goes on with a type. -/
  | offerMime {off : Offer} {mime : String} {es : List DeviceEvent} :
      Whole (some off) es → Whole (some off) (.clipboard (.offerMime off mime) :: es)
  /-- It ends, for the regular selection. -/
  | selection {off : Offer} {es : List DeviceEvent} :
      Whole none es → Whole (some off) (.clipboard (.selection (some off)) :: es)
  /-- It ends, for the primary one. -/
  | primarySelection {off : Offer} {es : List DeviceEvent} :
      Whole none es → Whole (some off) (.primarySelection (some off) :: es)
  /-- Between two of them, something else. -/
  | bare {e : DeviceEvent} {es : List DeviceEvent} : e.Bare → Whole none es → Whole none (e :: es)

variable {opened : Option Offer} {es es' : List DeviceEvent} {off : Offer} {w w' : OfferWorld}
  {leaked : List ℕ}

theorem Whole.append (h : Whole opened es) (h' : Whole none es') : Whole opened (es ++ es') := by
  induction h with
  | nil => exact h'
  | dataOffer _ ih => exact .dataOffer ih
  | offerMime _ ih => exact .offerMime ih
  | selection _ ih => exact .selection ih
  | primarySelection _ ih => exact .primarySelection ih
  | bare he _ ih => exact .bare he ih

/-- The types, and what ends the announcement. -/
theorem Whole.offerMimes (mimes : List String) (h : Whole (some off) es) :
    Whole (some off) (mimes.map (fun m => .clipboard (.offerMime off m)) ++ es) := by
  induction mimes with
  | nil => exact h
  | cons m mimes ih => exact .offerMime ih

theorem whole_announcement (sel : Option Offer) :
    Whole none ((announcement sel).map .clipboard) := by
  cases sel with
  | none => exact .bare trivial .nil
  | some off =>
    have hlast : Whole (some off) [.clipboard (.selection (some off))] := .selection .nil
    have hmimes := Whole.offerMimes off.origin.mimes hlast
    simpa [announcement, Function.comp_def] using Whole.dataOffer hmimes

theorem whole_primaryAnnouncement (sel : Option Offer) : Whole none (primaryAnnouncement sel) := by
  cases sel with
  | none => exact .bare trivial .nil
  | some off => exact .dataOffer (.offerMimes _ (.primarySelection .nil))

/-! ## The offers that are announced -/

/-- The id of the offer object an event creates. -/
def DeviceEvent.newId : DeviceEvent → Option ℕ
  | .clipboard (.dataOffer off) => some off.id
  | _ => none

/-- The ids of the offer objects still to be created. -/
def newIds (es : List DeviceEvent) : List ℕ := es.filterMap DeviceEvent.newId

theorem newIds_append : newIds (es ++ es') = newIds es ++ newIds es' := List.filterMap_append

theorem newIds_offerMimes (off : Offer) (mimes : List String) :
    newIds (mimes.map fun m => .clipboard (.offerMime off m)) = [] := by
  induction mimes with
  | nil => rfl
  | cons m mimes ih => exact ih

theorem newIds_announcement (sel : Option Offer) :
    newIds ((announcement sel).map .clipboard) = (sel.map Offer.id).toList := by
  cases sel with
  | none => rfl
  | some off =>
    have hmimes := newIds_offerMimes off off.origin.mimes
    have heq : (announcement (some off)).map DeviceEvent.clipboard =
        .clipboard (.dataOffer off) ::
          (off.origin.mimes.map (fun m => .clipboard (.offerMime off m)) ++
            [.clipboard (.selection (some off))]) := by
      simp [announcement, Function.comp_def]
    rw [heq]
    show off.id :: newIds (_ ++ _) = _
    rw [newIds_append, hmimes]
    rfl

theorem newIds_primaryAnnouncement (sel : Option Offer) :
    newIds (primaryAnnouncement sel) = (sel.map Offer.id).toList := by
  cases sel with
  | none => rfl
  | some off =>
    show off.id :: newIds (_ ++ _) = _
    rw [newIds_append, newIds_offerMimes]
    rfl

/-! ## The books -/

/-- **What the bridge keeps**: the offer being announced, and `leaked`,
the primary selections' offers. -/
structure Bookkept (w : OfferWorld) (opened : Option Offer) (leaked : List ℕ) : Prop where
  whole : Whole opened w.events
  live : w.live = leaked ++ (opened.map Offer.id).toList
  leaks : leaked.length = w.primaries
  entries : ∀ id, (w.bridge.offerMimes id).isSome ↔ id ∈ w.live
  nodup : (w.live ++ newIds w.events).Nodup
  below : ∀ id ∈ w.live ++ newIds w.events, id < w.offers

namespace Bookkept

/-- Announcing queues a new offer at most. -/
theorem announce (h : Bookkept w opened leaked) (hes : Whole none es)
    (hids : newIds es = [] ∨ newIds es = [w.offers]) :
    Bookkept (w.announce es) opened leaked where
  whole := h.whole.append hes
  live := h.live
  leaks := h.leaks
  entries := h.entries
  nodup := by
    show (w.live ++ newIds (w.events ++ es)).Nodup
    rw [newIds_append, ← List.append_assoc]
    rcases hids with hids | hids
    · rw [hids, List.append_nil]
      exact h.nodup
    · rw [hids]
      refine List.nodup_append.2 ⟨h.nodup, List.nodup_singleton _, fun id hid id' hid' heq => ?_⟩
      rw [List.mem_singleton.1 hid'] at heq
      exact absurd (h.below id hid) (by omega)
  below := by
    show ∀ id ∈ w.live ++ newIds (w.events ++ es), id < w.offers + 1
    rw [newIds_append, ← List.append_assoc]
    intro id hid
    rcases List.mem_append.1 hid with hid | hid
    · exact Nat.lt_succ_of_lt (h.below id hid)
    · rcases hids with hids | hids
      · rw [hids] at hid
        exact absurd hid List.not_mem_nil
      · rw [hids, List.mem_singleton] at hid
        omega

/-- What a new selection queues. -/
theorem newIds_offer (sel : Option Origin) :
    ((w.offer sel).map Offer.id).toList = [] ∨ ((w.offer sel).map Offer.id).toList = [w.offers] := by
  cases sel with
  | none => exact .inl rfl
  | some origin => exact .inr rfl

/-- What an event about no offer leaves as it is. -/
theorem bare_leaves {e : DeviceEvent} (hbare : e.Bare) (w : OfferWorld) (delivered : Option Bytes)
    (es : List DeviceEvent) :
    newIds (e :: es) = newIds es ∧ liveOffers w.live e = w.live ∧
      (handleDevice w.bridge delivered e).offerMimes = w.bridge.offerMimes ∧
      (w.dispatch delivered e es).primaries = w.primaries := by
  match e, hbare with
  | .clipboard (.selection none), _ => exact ⟨rfl, rfl, rfl, rfl⟩
  | .clipboard (.send _), _ => exact ⟨rfl, rfl, rfl, rfl⟩
  | .clipboard (.cancelled k), _ =>
    exact ⟨rfl, rfl, handle_offerMimes w.bridge delivered (.cancelled k), rfl⟩
  | .primarySelection none, _ => exact ⟨rfl, rfl, rfl, rfl⟩

/-- An event about no offer changes nothing. -/
theorem dispatch_bare {e : DeviceEvent} (h : Bookkept w none leaked) (he : w.events = e :: es)
    (hes : Whole none es) (hbare : e.Bare) (delivered : Option Bytes) :
    Bookkept (w.dispatch delivered e es) none leaked := by
  obtain ⟨hids, hlive, hmimes, hprimaries⟩ := bare_leaves hbare w delivered es
  rw [← he] at hids
  refine ⟨hes, hlive.trans h.live, h.leaks.trans hprimaries.symm, fun id => ?_, ?_, ?_⟩
  · show ((handleDevice w.bridge delivered e).offerMimes id).isSome ↔ id ∈ liveOffers w.live e
    rw [hmimes, hlive]
    exact h.entries id
  · show (liveOffers w.live e ++ newIds es).Nodup
    rw [hlive, ← hids]
    exact h.nodup
  · show ∀ id ∈ liveOffers w.live e ++ newIds es, id < w.offers
    rw [hlive, ← hids]
    exact h.below

/-- `data_offer` opens an entry and creates the object. -/
theorem dispatch_dataOffer (h : Bookkept w none leaked)
    (he : w.events = .clipboard (.dataOffer off) :: es) (hes : Whole (some off) es)
    (delivered : Option Bytes) :
    Bookkept (w.dispatch delivered (.clipboard (.dataOffer off)) es) (some off) leaked := by
  have hids : w.live ++ newIds w.events = (w.live ++ [off.id]) ++ newIds es := by
    rw [he, List.append_assoc]
    rfl
  have hnodup := h.nodup
  have hbelow := h.below
  rw [hids] at hnodup hbelow
  refine ⟨hes, ?_, h.leaks, fun id => ?_, hnodup, hbelow⟩
  · show w.live ++ [off.id] = leaked ++ [off.id]
    rw [h.live]
    simp
  · show ((collect w.bridge.offerMimes (.dataOffer off) id)).isSome ↔ id ∈ w.live ++ [off.id]
    rw [List.mem_append, List.mem_singleton, collect]
    by_cases hid : id = off.id
    · subst hid
      simp
    · rw [Function.update_of_ne hid]
      simp only [hid, or_false]
      exact h.entries id

/-- `offer` adds a type to the entry that is open. -/
theorem dispatch_offerMime {mime : String} (h : Bookkept w (some off) leaked)
    (he : w.events = .clipboard (.offerMime off mime) :: es) (hes : Whole (some off) es)
    (delivered : Option Bytes) :
    Bookkept (w.dispatch delivered (.clipboard (.offerMime off mime)) es) (some off) leaked := by
  have hids : newIds w.events = newIds es := by
    rw [he]
    rfl
  have hnodup := h.nodup
  have hbelow := h.below
  rw [hids] at hnodup hbelow
  have hopen : off.id ∈ w.live := by
    rw [h.live]
    exact List.mem_append_right _ (List.mem_singleton_self _)
  refine ⟨hes, h.live, h.leaks, fun id => ?_, hnodup, hbelow⟩
  show ((collect w.bridge.offerMimes (.offerMime off mime) id)).isSome ↔ id ∈ w.live
  rw [collect]
  by_cases hid : id = off.id
  · subst hid
    simp [hopen]
  · rw [Function.update_of_ne hid]
    exact h.entries id

/-- `selection` closes the entry and destroys the object. -/
theorem dispatch_selection (h : Bookkept w (some off) leaked)
    (he : w.events = .clipboard (.selection (some off)) :: es) (hes : Whole none es)
    (delivered : Option Bytes) :
    Bookkept (w.dispatch delivered (.clipboard (.selection (some off))) es) none leaked := by
  have hids : newIds w.events = newIds es := by
    rw [he]
    rfl
  have hnodup := h.nodup
  have hbelow := h.below
  rw [hids] at hnodup hbelow
  have hlive : w.live = leaked ++ [off.id] := h.live
  have hnew : off.id ∉ leaked := by
    have hlast := (List.nodup_append.1 hnodup).1
    rw [hlive] at hlast
    exact fun hmem => (List.nodup_append.1 hlast).2.2 _ hmem _ (List.mem_singleton_self _) rfl
  -- no offer left behind has the id, so the one destroyed is the one announced
  have herase : w.live.erase off.id = leaked := by
    rw [hlive, List.erase_append_right _ hnew]
    simp
  have hsub : (leaked ++ newIds es).Sublist (w.live ++ newIds es) := by
    rw [hlive]
    exact (List.sublist_append_left _ _).append_right _
  refine ⟨hes, ?_, h.leaks, fun id => ?_, ?_, ?_⟩
  · show w.live.erase off.id = leaked ++ []
    rw [herase, List.append_nil]
  · show ((handle w.bridge delivered (.selection (some off))).1.offerMimes id).isSome ↔
      id ∈ w.live.erase off.id
    rw [handle_offerMimes, herase, collect]
    by_cases hid : id = off.id
    · subst hid
      simp [hnew]
    · rw [Function.update_of_ne hid, h.entries id, hlive]
      simp [hid]
  · show (w.live.erase off.id ++ newIds es).Nodup
    rw [herase]
    exact hnodup.sublist hsub
  · show ∀ id ∈ w.live.erase off.id ++ newIds es, id < w.offers
    rw [herase]
    exact fun id hid => hbelow id (hsub.subset hid)

/-- `primary_selection` leaves both behind. -/
theorem dispatch_primarySelection (h : Bookkept w (some off) leaked)
    (he : w.events = .primarySelection (some off) :: es) (hes : Whole none es)
    (delivered : Option Bytes) :
    Bookkept (w.dispatch delivered (.primarySelection (some off)) es) none
      (leaked ++ [off.id]) := by
  have hids : newIds w.events = newIds es := by
    rw [he]
    rfl
  have hnodup := h.nodup
  have hbelow := h.below
  rw [hids] at hnodup hbelow
  refine ⟨hes, ?_, ?_, h.entries, hnodup, hbelow⟩
  · show w.live = (leaked ++ [off.id]) ++ []
    rw [List.append_nil]
    exact h.live
  · show (leaked ++ [off.id]).length = w.primaries + 1
    rw [List.length_append, h.leaks]
    rfl

/-- **Every event keeps the books.** -/
theorem dispatch {e : DeviceEvent} (h : Bookkept w opened leaked) (he : w.events = e :: es)
    (delivered : Option Bytes) :
    ∃ opened' leaked', Bookkept (w.dispatch delivered e es) opened' leaked' := by
  have hwhole := h.whole
  rw [he] at hwhole
  cases hwhole with
  | dataOffer hes => exact ⟨_, _, h.dispatch_dataOffer he hes delivered⟩
  | offerMime hes => exact ⟨_, _, h.dispatch_offerMime he hes delivered⟩
  | selection hes => exact ⟨_, _, h.dispatch_selection he hes delivered⟩
  | primarySelection hes => exact ⟨_, _, h.dispatch_primarySelection he hes delivered⟩
  | bare hbare hes => exact ⟨_, _, h.dispatch_bare he hes hbare delivered⟩

/-- Every step does. -/
theorem step {a : OfferAction} (h : Bookkept w opened leaked) (hstep : w.step a = some w') :
    ∃ opened' leaked', Bookkept w' opened' leaked' := by
  cases a with
  | select sel =>
    cases hstep
    refine ⟨_, _, h.announce (whole_announcement _) ?_⟩
    rw [newIds_announcement]
    exact newIds_offer sel
  | selectPrimary sel =>
    cases hstep
    refine ⟨_, _, h.announce (whole_primaryAnnouncement _) ?_⟩
    rw [newIds_primaryAnnouncement]
    exact newIds_offer sel
  | send k =>
    cases hstep
    exact ⟨_, _, h.announce (.bare trivial .nil) (.inl rfl)⟩
  | cancel k =>
    cases hstep
    exact ⟨_, _, h.announce (.bare trivial .nil) (.inl rfl)⟩
  | payload data =>
    cases hstep
    refine ⟨_, _, h.whole, h.live, h.leaks, fun id => ?_, h.nodup, h.below⟩
    show (((setSelection w.bridge data).1).offerMimes id).isSome ↔ id ∈ w.live
    rw [setSelection]
    split_ifs <;> exact h.entries id
  | dispatch delivered =>
    rw [OfferWorld.step] at hstep
    cases he : w.events with
    | nil =>
      rw [he] at hstep
      cases hstep
    | cons e es =>
      rw [he] at hstep
      cases hstep
      exact h.dispatch he delivered

end Bookkept

/-- The books are kept in every reachable state. -/
theorem bookkept_of_reachable (h : OfferWorld.machine.Reachable w) :
    ∃ opened leaked, Bookkept w opened leaked :=
  h.invariant (P := fun w => ∃ opened leaked, Bookkept w opened leaked)
    (fun w hw => ⟨none, [], by
      rw [hw]
      exact ⟨.nil, rfl, rfl, by simp, List.nodup_nil, fun _ hid => absurd hid List.not_mem_nil⟩⟩)
    fun _ _ _ hstep ⟨_, _, hs⟩ => hs.step hstep

/-- **As many entries as live offers**: one for every primary selection
dispatched, and one more while a selection is being announced. -/
theorem entries_eq (h : OfferWorld.machine.Reachable w) :
    w.bridge.entries.ncard = w.live.length ∧
      (w.live.length = w.primaries ∨ w.live.length = w.primaries + 1) := by
  obtain ⟨opened, leaked, hbooks⟩ := bookkept_of_reachable h
  constructor
  · have hset : w.bridge.entries = ↑w.live.toFinset := by
      ext id
      rw [List.coe_toFinset]
      exact hbooks.entries id
    rw [hset, Set.ncard_coe_finset,
      List.toFinset_card_of_nodup (List.nodup_append.1 hbooks.nodup).1]
  · rw [hbooks.live, List.length_append, hbooks.leaks]
    cases opened with
    | none => exact .inl rfl
    | some off => exact .inr rfl

/-! ## Without primary selections -/

/-- No primary selection that offers something has come or is to come. -/
structure Regular (w : OfferWorld) : Prop where
  primaries : w.primaries = 0
  queued : ∀ off, .primarySelection (some off) ∉ w.events

theorem Regular.announce (h : Regular w) (hes : ∀ off, .primarySelection (some off) ∉ es) :
    Regular (w.announce es) := by
  refine ⟨h.primaries, fun off hmem => ?_⟩
  rcases List.mem_append.1 hmem with hmem | hmem
  · exact h.queued off hmem
  · exact hes off hmem

theorem Regular.step {a : OfferAction} (h : Regular w) (ha : w.RegularOnly a)
    (hstep : w.step a = some w') : Regular w' := by
  cases a with
  | select sel =>
    cases hstep
    refine h.announce fun off hmem => ?_
    obtain ⟨e, -, heq⟩ := List.mem_map.1 hmem
    cases heq
  | selectPrimary sel =>
    cases sel with
    | none =>
      cases hstep
      exact h.announce fun off hmem => by cases List.mem_singleton.1 hmem
    | some origin => exact ha.elim
  | send k =>
    cases hstep
    exact h.announce fun off hmem => by cases List.mem_singleton.1 hmem
  | cancel k =>
    cases hstep
    exact h.announce fun off hmem => by cases List.mem_singleton.1 hmem
  | payload data =>
    cases hstep
    exact ⟨h.primaries, h.queued⟩
  | dispatch delivered =>
    rw [OfferWorld.step] at hstep
    cases he : w.events with
    | nil =>
      rw [he] at hstep
      cases hstep
    | cons e es =>
      rw [he] at hstep
      cases hstep
      have hqueued := h.queued
      rw [he] at hqueued
      refine ⟨?_, fun off hmem => hqueued off (List.mem_cons_of_mem _ hmem)⟩
      -- a primary selection that offers something is never announced
      match e with
      | .primarySelection (some off) => exact absurd List.mem_cons_self (hqueued off)
      | .primarySelection none => exact h.primaries
      | .clipboard _ => exact h.primaries

/-- **Offer bookkeeping is bounded** in every run in which no primary
selection that offers something is announced: one entry, and one offer
object, at most. -/
theorem entries_le_one (h : OfferWorld.machine.Reach OfferWorld.RegularOnly w) :
    w.bridge.entries.ncard ≤ 1 ∧ w.live.length ≤ 1 := by
  have hregular : Regular w :=
    h.invariant (fun w hw => by rw [hw]; exact ⟨rfl, fun _ => List.not_mem_nil⟩)
      fun _ _ _ ha hstep hs => hs.step ha hstep
  obtain ⟨hcard, hlength⟩ := entries_eq h.reachable
  have hzero := hregular.primaries
  omega

/-- An offer under way to the bridge is the one entry. -/
theorem entries_le_one_announced : ∃ w, OfferWorld.machine.exec {}
    [.select (some (.foreign ⟨0, [("text/plain", [104, 105])]⟩)), .dispatch none] = some w ∧
      w.live = [0] ∧ w.bridge.entries.ncard ≤ 1 ∧ w.live.length ≤ 1 :=
  ⟨_, rfl, rfl, entries_le_one (.next (.next (.start rfl)
    (a := .select (some (.foreign ⟨0, [("text/plain", [104, 105])]⟩))) trivial rfl)
      (a := .dispatch none) trivial rfl)⟩

/-! ## With them -/

/-- A primary selection announced and dispatched. -/
def primaryRound (w : OfferWorld) : OfferWorld :=
  ((w.announce (primaryAnnouncement (w.offer (some (.foreign ⟨0, []⟩))))).dispatch none
    (.clipboard (.dataOffer ⟨w.offers, .foreign ⟨0, []⟩⟩))
      [.primarySelection (some ⟨w.offers, .foreign ⟨0, []⟩⟩)]).dispatch none
        (.primarySelection (some ⟨w.offers, .foreign ⟨0, []⟩⟩)) []

/-- It is a run from any state with nothing queued, and leaks one offer. -/
theorem primaryRound_reachable (h : OfferWorld.machine.Reachable w) (hempty : w.events = []) :
    OfferWorld.machine.Reachable (primaryRound w) ∧ (primaryRound w).events = [] ∧
      (primaryRound w).primaries = w.primaries + 1 := by
  refine ⟨?_, rfl, rfl⟩
  have hselect := h.next (a := .selectPrimary (some (.foreign ⟨0, []⟩))) rfl
  have hqueue : (w.announce (primaryAnnouncement (w.offer (some (.foreign ⟨0, []⟩))))).events =
      [.clipboard (.dataOffer ⟨w.offers, .foreign ⟨0, []⟩⟩),
        .primarySelection (some ⟨w.offers, .foreign ⟨0, []⟩⟩)] := by
    show w.events ++ _ = _
    rw [hempty]
    rfl
  have hoffer : OfferWorld.machine.Reachable
      ((w.announce (primaryAnnouncement (w.offer (some (.foreign ⟨0, []⟩))))).dispatch none
        (.clipboard (.dataOffer ⟨w.offers, .foreign ⟨0, []⟩⟩))
          [.primarySelection (some ⟨w.offers, .foreign ⟨0, []⟩⟩)]) :=
    hselect.next (a := .dispatch none)
      (by rw [show OfferWorld.machine.step = OfferWorld.step from rfl, OfferWorld.step, hqueue])
  exact hoffer.next (a := .dispatch none) rfl

/-- **Nothing bounds the entries** of all runs. -/
theorem entries_unbounded : ¬ ∃ bound, ∀ w, OfferWorld.machine.Reachable w →
    w.bridge.entries.ncard ≤ bound ∧ w.live.length ≤ bound := by
  rintro ⟨bound, hbound⟩
  have hrounds : ∀ n, ∃ w, OfferWorld.machine.Reachable w ∧ w.events = [] ∧ w.primaries = n := by
    intro n
    induction n with
    | zero => exact ⟨{}, .start rfl, rfl, rfl⟩
    | succ n ih =>
      obtain ⟨w, hw, hempty, hn⟩ := ih
      obtain ⟨hw', hempty', hn'⟩ := primaryRound_reachable hw hempty
      exact ⟨_, hw', hempty', by rw [hn', hn]⟩
  obtain ⟨w, hw, -, hn⟩ := hrounds (bound + 1)
  have hlive := (hbound w hw).2
  have hcount := (entries_eq hw).2
  omega

end Clipboard

end WaylandWebStream
