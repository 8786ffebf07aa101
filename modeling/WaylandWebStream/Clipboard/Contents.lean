import WaylandWebStream.Clipboard.Ownership

/-!
# Clipboard — what the nest's clipboard contains

The flag says whose the selection is; this is about the bytes. The MIME
types collected of an offer are all of its own by the time its selection
is dispatched, so a read asks for the type the copy would be read under;
and once nothing is under way a client of the nest that pastes gets the
bytes the bridge last saw, whoever is behind the selection.
-/

namespace WaylandWebStream

namespace Clipboard

open Wire (ClipboardData maxClipboardBytes)
open Latest

variable {w w' : World} {a : Action} {e : Event} {events : List Event} {off : Offer}
variable {sel : Option Offer} {n : Nest} {k : ℕ} {s : ClipState} {c : Copy} {delivered : Option Bytes}

/-! ## Copies and what they are read as -/

/-- The type a copy is read under, and whether it is an image's. -/
def Copy.choice (c : Copy) : Option (String × Bool) := chooseReadMime (c.formats.map Prod.fst)

/-- The bytes a read of the copy delivers. -/
def Copy.content (c : Copy) : Option Bytes := c.choice.bind fun m => c.formats.lookup m.1

/-- The payload a copy is pushed as. -/
def Copy.value (c : Copy) : Option ClipboardData :=
  c.choice.bind fun m => (c.formats.lookup m.1).map (dataOf m.1 m.2)

/-- What a client of the nest gets when it pastes. -/
def World.clipboard (w : World) : Option Bytes :=
  w.nest.selection.bind fun off =>
    match off.origin with
    | .own _ _ => some (onSourceSend w.bridge)
    | .foreign c => c.content

/-! ## Collecting the MIME types -/

/-- What an event does to the types collected. -/
def collect (types : ℕ → Option (List String)) : Event → ℕ → Option (List String)
  | .dataOffer off => Function.update types off.id (some [])
  | .offerMime off mime =>
    Function.update types off.id (some ((types off.id).getD [] ++ [mime]))
  | .selection (some off) => Function.update types off.id none
  | _ => types

theorem handle_offerMimes (s : ClipState) (delivered : Option Bytes) (e : Event) :
    (handle s delivered e).1.offerMimes = collect s.offerMimes e := by
  cases e with
  | selection sel =>
    cases sel with
    | none => rfl
    | some off =>
      obtain ⟨_, _, hread⟩ := readOffer_eq s off delivered
      simp only [handle, onSelection, collect]
      split_ifs
      · rfl
      · rw [hread]
  | cancelled k =>
    simp only [handle, onSourceCancelled]
    split_ifs <;> rfl
  | _ => rfl

/-- The types are announced one after the other. -/
theorem collect_offerMimes (off : Offer) (mimes : List String) :
    ∀ (types : ℕ → Option (List String)) (got : List String), types off.id = some got →
      (mimes.map (Event.offerMime off)).foldl collect types off.id = some (got ++ mimes) := by
  induction mimes with
  | nil =>
    intro types got hgot
    simpa using hgot
  | cons mime mimes ih =>
    intro types got hgot
    rw [List.map_cons, List.foldl_cons, ih _ (got ++ [mime]) (by simp [collect, hgot]),
      List.append_assoc]
    rfl

/-- **By the time a selection is dispatched its types are collected.** -/
def Collected (w : World) : Prop :=
  ∀ before off after, w.events = before ++ .selection (some off) :: after →
    before.foldl collect w.bridge.offerMimes off.id = some off.origin.mimes

namespace Collected

/-- Events that announce nothing do not matter. -/
theorem append_of_not_announced (h : Collected w) {l : List Event}
    (hl : ∀ e ∈ l, ∀ off, e ≠ .selection (some off)) :
    Collected { w with events := w.events ++ l } := by
  -- events are appended at the far end, so the list is taken apart from there
  induction l using List.reverseRecOn with
  | nil => simpa using h
  | append_singleton l x ih =>
    intro before off after heq
    rw [← List.append_assoc] at heq
    rcases concat_eq_append_cons.1 heq with ⟨-, -, rfl⟩ | ⟨after', -, heq⟩
    · exact (hl _ (by simp) off rfl).elim
    · exact ih (fun e he => hl e (List.mem_append_left _ he)) before off after' heq

/-- A change of the selection announces the types of the new one. -/
theorem select (h : Collected w) (origin : Option Origin) : Collected (w.select origin) := by
  have hcancels : ∀ e ∈ w.nest.cancels, ∀ off, e ≠ .selection (some off) := by
    rintro e he off rfl
    obtain ⟨k, -, hk⟩ := List.mem_map.1 he
    cases hk
  simp only [World.select]
  cases hsel : w.nest.offer origin with
  | none =>
    refine h.append_of_not_announced fun e he off => ?_
    rcases List.mem_append.1 he with he | he
    · exact hcancels e he off
    · obtain rfl := List.mem_singleton.1 he
      simp
  | some off' =>
    have hpre := h.append_of_not_announced
      (l := w.nest.cancels ++ .dataOffer off' :: off'.origin.mimes.map (.offerMime off')) (by
        simp only [List.mem_append, List.mem_cons, List.mem_map]
        rintro e (he | rfl | ⟨mime, -, rfl⟩) off
        · exact hcancels e he off
        · simp
        · simp)
    intro before off after heq
    simp only [announcement, ← List.append_assoc] at heq
    rcases concat_eq_append_cons.1 heq with ⟨-, rfl, hoff⟩ | ⟨after', -, heq⟩
    · -- the selection is announced right behind its own types
      obtain rfl : off' = off := by simpa using hoff
      rw [List.foldl_append, List.foldl_cons,
        collect_offerMimes off' _ _ [] (by simp [collect])]
      rfl
    · exact hpre before off after' (by simpa using heq)

/-- **Every step keeps the types collected.** -/
theorem step (h : Collected w) (hstep : w.step a = some w') : Collected w' := by
  cases a with
  | payload data =>
    obtain rfl := Option.some.inj hstep
    -- `set_selection` leaves the types collected alone
    have hmimes : (setSelection w.bridge data).1.offerMimes = w.bridge.offerMimes := by
      unfold setSelection
      split_ifs <;> rfl
    intro before off after heq
    simp only [World.payload, hmimes]
    exact h before off after heq
  | dispatch delivered =>
    simp only [World.step] at hstep
    split at hstep
    · cases hstep
    · rename_i e events he
      obtain rfl := Option.some.inj hstep
      intro before off after heq
      simp only [World.dispatch, handle_offerMimes] at heq ⊢
      exact h (e :: before) off after (by rw [he, heq]; rfl)
  | process =>
    simp only [World.step] at hstep
    split at hstep
    · cases hstep
    · rename_i r requests hr
      obtain rfl := Option.some.inj hstep
      exact select (w := { w with requests := requests }) h _
  | copy c =>
    obtain rfl := Option.some.inj hstep
    exact h.select _
  | clear =>
    obtain rfl := Option.some.inj hstep
    exact h.select _
  | paste =>
    obtain ⟨k, -, rfl⟩ := Option.map_eq_some_iff.1 hstep
    exact h.append_of_not_announced (by simp)

end Collected

theorem collected_of_reachable (h : World.machine.Reachable w) : Collected w := by
  refine h.invariant ?_ fun w a w' hstep hw => hw.step hstep
  rintro w ⟨first, rfl⟩
  exact Collected.select (w := {}) (fun before off after heq => by simp at heq) _

/-! ## What a dispatch does to the values -/

@[simp] theorem handle_serveBytes (s : ClipState) (delivered : Option Bytes) (e : Event) :
    (handle s delivered e).1.serveBytes = s.serveBytes := by
  cases e with
  | selection sel =>
    obtain ⟨_, _, _, hsel⟩ := onSelection_eq s sel delivered
    rw [handle, hsel]
  | cancelled k =>
    simp only [handle, onSourceCancelled]
    split_ifs <;> rfl
  | _ => rfl

/-- No event makes the bridge an owner. -/
theorem owning_of_handle (h : (handle s delivered e).1.owning = true) : s.owning = true := by
  by_cases hcurrent : ∃ k, e = .cancelled k ∧ s.source = some k
  · obtain ⟨k, rfl, hk⟩ := hcurrent
    simp [handle, onSourceCancelled, hk] at h
  · rwa [(handle_ownership delivered fun k hk hs => hcurrent ⟨k, hk, hs⟩).2] at h

/-- A dispatch that reads nothing leaves the values alone. -/
theorem handle_of_not_reading (delivered : Option Bytes) (h : w.reading e = none) :
    (handle w.bridge delivered e).1.lastValue = w.bridge.lastValue ∧
    (handle w.bridge delivered e).1.fromRemote = w.bridge.fromRemote := by
  cases e with
  | selection sel =>
    cases sel with
    | none => exact ⟨rfl, rfl⟩
    | some off =>
      have hown : w.bridge.owning = true := by
        simpa [reading_selection] using h
      simp [handle, onSelection, hown]
  | cancelled k =>
    simp only [handle, onSourceCancelled]
    split_ifs <;> exact ⟨rfl, rfl⟩
  | _ => exact ⟨rfl, rfl⟩

/-- The read of an offer delivers what its copy contains, and no more
than is bridged. -/
def World.Delivers (w : World) (delivered : Option Bytes) (e : Event) : Prop :=
  ∀ off c, w.reading e = some off → off.origin = .foreign c →
    ∃ content, delivered = some content ∧ c.content = some content ∧
      content.length ≤ maxClipboardBytes

/-- **A dispatch that reads a copy**: its bytes become the last value
seen, and its payload is pushed if they are new. -/
theorem handle_of_reading (hw : World.machine.Reachable w) (he : w.events = e :: events)
    (hoff : w.reading e = some off) (horigin : off.origin = .foreign c)
    (hdel : w.Delivers delivered e) :
    ∃ content value, c.content = some content ∧ c.value = some value ∧
      (handle w.bridge delivered e).1.lastValue = some content ∧
      (handle w.bridge delivered e).1.fromRemote =
        if w.bridge.lastValue = some content then w.bridge.fromRemote
        else w.bridge.fromRemote.send value := by
  obtain ⟨-, hown, rfl⟩ := (owned_of_reachable hw).reading he hoff
  obtain ⟨content, rfl, hcontent, hlen⟩ := hdel off c hoff horigin
  obtain ⟨⟨mime, isImage⟩, hchoice, hlookup⟩ := Option.bind_eq_some_iff.1 hcontent
  have htypes : w.bridge.offerMimes off.id = some (c.formats.map Prod.fst) := by
    have := collected_of_reachable hw [] off events he
    rwa [horigin] at this
  have htake : content.take (maxClipboardBytes + 1) = content :=
    List.take_of_length_le (hlen.trans (Nat.le_succ _))
  refine ⟨content, dataOf mime isImage content, hcontent, ?_, ?_⟩
  · simp [Copy.value, hchoice, hlookup]
  · rw [Copy.choice] at hchoice
    simp only [handle, onSelection, hown, readOffer, htypes, Option.getD_some, hchoice, htake,
      if_neg (Nat.not_lt.2 hlen), Bool.false_eq_true, if_false]
    split_ifs with hlast
    · exact ⟨hlast, rfl⟩
    · exact ⟨rfl, rfl⟩

/-! ## The bytes behind the selection -/

/-- **What the nest's clipboard contains**, as the bridge knows it. -/
structure Holds (w : World) : Prop where
  /-- While the flag is set the bridge serves the last value. -/
  serving : w.bridge.owning = true → w.bridge.lastValue = some w.bridge.serveBytes
  /-- A client's selection that was read is the last value. -/
  selected : latest Event.announced w.events = none → ∀ off c, w.nest.selection = some off →
    off.origin = .foreign c → w.bridge.lastValue = c.content ∨ w.requests ≠ []
  /-- While nothing is selected there was nothing to see. -/
  unselected : w.nest.selection = none → (∀ e ∈ w.events, e = .selection none) ∧
    (w.bridge.lastValue = none ∨ w.requests ≠ [])

namespace Holds

theorem start : Holds (World.start none) where
  serving := nofun
  selected := fun _ _ _ hoff => by cases hoff
  unselected := fun _ => ⟨fun _ he => List.mem_singleton.1 he, .inl rfl⟩

theorem select (h : Holds w) (rs : List Request) (origin : Origin) :
    Holds (({ w with requests := rs }).select (some origin)) where
  serving := h.serving
  selected := fun hnone => by
    simp only [World.select] at hnone
    rw [latest_append, latest_append, latest_announcement] at hnone
    cases hnone
  unselected := fun hnone => by cases hnone

theorem payload (h : Holds w) (data : ClipboardData) : Holds (w.payload data) := by
  unfold World.payload setSelection
  split_ifs
  · simpa using h
  · simpa using h
  · exact
      { serving := fun _ => rfl
        selected := fun _ _ _ _ _ => .inr (by simp)
        unselected := fun hnone => ⟨(h.unselected hnone).1, .inr (by simp)⟩ }

/-- **A dispatch keeps the values right**, when a read delivers. -/
theorem dispatch (h : Holds w) (hw : World.machine.Reachable w) (he : w.events = e :: events)
    (hdel : w.Delivers delivered e) : Holds (w.dispatch delivered e events) := by
  have howned := owned_of_reachable hw
  refine ⟨fun hown => ?_, fun hnone off c hoff horigin => ?_, fun hnone => ?_⟩
  · -- an owner reads nothing, so what is served stays the last value
    have hbefore : w.bridge.owning = true := owning_of_handle hown
    have hreading : w.reading e = none := by
      cases hr : w.reading e with
      | none => rfl
      | some off => rw [(howned.reading he hr).2.1] at hbefore; cases hbefore
    simp only [World.dispatch, handle_serveBytes, (handle_of_not_reading delivered hreading).1]
    exact h.serving hbefore
  · simp only [World.dispatch] at hnone hoff ⊢
    have hforeign : off.origin.source? = none := by rw [horigin]; rfl
    rcases howned.last_dispatched he hnone hoff hforeign with ⟨hlatest, hreading⟩ | hreading | hreq
    · rw [(handle_of_not_reading delivered hreading).1]
      exact h.selected hlatest off c hoff horigin
    · obtain ⟨content, value, hcontent, -, hlast, -⟩ :=
        handle_of_reading hw he hreading horigin hdel
      exact .inl (hlast.trans hcontent.symm)
    · exact .inr hreq
  · obtain ⟨hevents, hlast⟩ := h.unselected hnone
    have hreading : w.reading e = none := by
      rw [hevents e (he ▸ List.mem_cons_self)]
      rfl
    simp only [World.dispatch, (handle_of_not_reading delivered hreading).1]
    exact ⟨fun x hx => hevents x (he ▸ List.mem_cons_of_mem _ hx), hlast⟩

theorem paste (h : Holds w) (hstep : w.step .paste = some w') : Holds w' := by
  obtain ⟨k, hk, rfl⟩ := Option.map_eq_some_iff.1 hstep
  refine ⟨h.serving, fun hnone => ?_, fun hnone => ?_⟩
  · rw [latest_concat] at hnone
    exact h.selected hnone
  · simp only at hnone
    simp [Nest.owner, hnone] at hk

/-- **With nothing under way a paste in the nest gets the last value.** -/
theorem clipboard_eq (h : Holds w) (hw : World.machine.Reachable w) (hq : w.Quiescent) :
    w.clipboard = w.bridge.lastValue := by
  obtain ⟨hreq, hev⟩ := hq
  have howned := owned_of_reachable hw
  rw [World.clipboard]
  cases hsel : w.nest.selection with
  | none => exact ((h.unselected hsel).2.resolve_right (absurd hreq)).symm
  | some off =>
    cases horigin : off.origin with
    | own k mimes =>
      have howner : w.nest.owner = some k := by simp [Nest.owner, hsel, horigin, Origin.source?]
      have hown : w.bridge.owning = true := by
        by_contra hown
        rw [(howned.disowned (by simpa using hown)).2.1] at howner
        cases howner
      simp [horigin, onSourceSend, h.serving hown]
    | foreign c =>
      have hnone : latest Event.announced w.events = none := by rw [hev]; rfl
      have hlast := (h.selected hnone off c hsel horigin).resolve_right (absurd hreq)
      simp [horigin, hlast]

end Holds

end Clipboard

end WaylandWebStream
