import WaylandWebStream.Keyboard.Model
import WaylandWebStream.Lib.Held

/-!
# Passthrough — when no key is left down at the far end

A physical key whose press is not a plain character's goes through by its
code. Its release is judged anew, by the modifiers and the character it has
then, and losing the focus releases nothing. So a run leaves no key down at
the far end that is not down here exactly when every release of a key
passed through is passed through as well, and the focus is lost with no
such key down (`balanced_iff`). With Ctrl let go before C, after a copy, the
C stays down.
-/

namespace WaylandWebStream

namespace SoftKeyboard

open Input (KeyboardEvent)

/-- What a message does to the keys held at the far end. -/
def edgeOf : KeyboardEvent → Edge String
  | .down code => .press code
  | .up code => .release code

/-- What messages leave held, of what is held before them. -/
def heldAfter (held : Finset String) (keys : List KeyboardEvent) : Finset String :=
  (keys.map edgeOf).foldl Edge.apply held

/-- The keys the far end holds. -/
def State.remote (s : State) : Finset String := heldAfter ∅ s.sent

/-- **Balance**: each keydown that was sent has its keyup after it, unless
the key is physically down and the field still has the focus. -/
def Balanced (s : State) : Prop :=
  ∀ before code after, s.sent = before ++ .down code :: after →
    .up code ∈ after ∨ code ∈ s.physical ∧ s.focused = true

/-- The handlers pass the event through. -/
def Passes (e : DomKeyEvent) : Prop := ¬ (handledByBeforeInput e ∨ e.code = "")

instance : DecidablePred Passes := fun _ => inferInstanceAs (Decidable (¬ _))

/-- Nothing passed through is left down: its release goes through when it
comes, and the focus is not lost before. -/
def PassOk (s : State) : Action → Prop
  | .keyUp e => s.focused = true → e.code ∈ s.remote → Passes e
  | .blur => s.remote = ∅
  | _ => True

instance {s : State} {a : Action} : Decidable (PassOk s a) :=
  match a with
  | .keyUp e => inferInstanceAs (Decidable (_ → _ → Passes e))
  | .blur => inferInstanceAs (Decidable (s.remote = ∅))
  | .edit _ | .beforeInput _ | .input | .compositionStart | .compositionEnd | .focus
  | .keyDown _ => .isTrue trivial

variable {s s' : State} {a : Action} {held : Finset String} {keys keys' : List KeyboardEvent}
  {code : String}

/-! ## What is held -/

theorem edgeOf_eq_press {key : KeyboardEvent} : edgeOf key = .press code ↔ key = .down code := by
  cases key <;> simp [edgeOf]

theorem letsGo_edgeOf {key : KeyboardEvent} : (edgeOf key).LetsGo code ↔ key = .up code := by
  cases key <;> simp [edgeOf, Edge.LetsGo]

theorem heldAfter_append :
    heldAfter held (keys ++ keys') = heldAfter (heldAfter held keys) keys' := by
  rw [heldAfter, List.map_append, List.foldl_append]
  rfl

theorem mem_remote : code ∈ s.remote ↔
    ∃ before after, s.sent = before ++ .down code :: after ∧ .up code ∉ after := by
  change code ∈ Edge.held (s.sent.map edgeOf) ↔ _
  rw [Edge.mem_held]
  constructor
  · rintro ⟨before, after, hsplit, hafter⟩
    obtain ⟨before', rest, hsent, -, hrest⟩ := List.map_eq_append_iff.1 hsplit
    obtain ⟨key, after', rfl, hkey, rfl⟩ := List.map_eq_cons_iff.1 hrest
    rw [edgeOf_eq_press.1 hkey] at hsent
    refine ⟨before', after', hsent, fun hmem => ?_⟩
    exact hafter _ (List.mem_map_of_mem hmem) (letsGo_edgeOf.2 rfl)
  · rintro ⟨before, after, hsent, hafter⟩
    refine ⟨before.map edgeOf, after.map edgeOf, by rw [hsent, List.map_append]; rfl, ?_⟩
    intro e he hgo
    obtain ⟨key, hkey, rfl⟩ := List.mem_map.1 he
    rw [letsGo_edgeOf.1 hgo] at hkey
    exact hafter hkey

/-- **Balance by what is held**: only keys that are down in a field in focus. -/
theorem balanced_iff_remote :
    Balanced s ↔ ∀ code ∈ s.remote, code ∈ s.physical ∧ s.focused = true := by
  constructor
  · intro h code hmem
    obtain ⟨before, after, hsent, hafter⟩ := mem_remote.1 hmem
    exact (h before code after hsent).resolve_left hafter
  · intro h before code after hsent
    by_cases hafter : .up code ∈ after
    · exact .inl hafter
    · exact .inr (h code (mem_remote.2 ⟨before, after, hsent, hafter⟩))

/-! ## Taps -/

/-- Messages that leave nothing held that was not before. -/
def Taps (keys : List KeyboardEvent) : Prop := ∀ held, heldAfter held keys ⊆ held

theorem taps_nil : Taps [] := fun _ => Finset.Subset.refl _

theorem Taps.append (h : Taps keys) (h' : Taps keys') : Taps (keys ++ keys') := by
  intro held
  rw [heldAfter_append]
  exact (h' _).trans (h held)

theorem Taps.flatten {taps : List (List KeyboardEvent)} (h : ∀ keys ∈ taps, Taps keys) :
    Taps taps.flatten := by
  induction taps with
  | nil => exact taps_nil
  | cons keys taps ih =>
    rw [List.flatten_cons]
    exact (h keys List.mem_cons_self).append (ih fun k hk => h k (List.mem_cons_of_mem _ hk))

/-- A key around taps is a tap. -/
theorem Taps.wrap (h : Taps keys) (code : String) : Taps (.down code :: keys ++ [.up code]) := by
  intro held other hmem
  have hstart : heldAfter held (.down code :: keys) = heldAfter (insert code held) keys := rfl
  rw [heldAfter_append, hstart] at hmem
  obtain ⟨hne, hmem⟩ := Finset.mem_erase.1 hmem
  exact (Finset.mem_insert.1 (h _ hmem)).resolve_left hne

theorem taps_sendKey (code : String) : Taps (sendKey code) := taps_nil.wrap code

theorem taps_sendChar (stroke : KeyStroke) : Taps (sendChar stroke) := by
  obtain ⟨code, shift⟩ := stroke
  cases shift with
  | false => exact taps_nil.wrap code
  | true => exact (taps_nil.wrap code).wrap "ShiftLeft"

theorem taps_diff (prev cur : Text) : Taps (diff prev cur) := by
  refine Taps.append (.flatten fun keys hkeys => ?_) (.flatten fun keys hkeys => ?_)
  · rw [List.eq_of_mem_replicate hkeys]
    exact taps_sendKey _
  · obtain ⟨ch, -, rfl⟩ := List.mem_map.1 hkeys
    split
    · exact taps_sendChar _
    · exact taps_nil

/-! ## Steps -/

/-- Only taps are sent, and keys and focus are as they were. -/
def State.Quiet (s s' : State) : Prop :=
  (∃ keys, Taps keys ∧ s'.sent = s.sent ++ keys) ∧ s'.physical = s.physical ∧
    s'.focused = s.focused

theorem State.Quiet.of_sent (hsent : s'.sent = s.sent) (hphysical : s'.physical = s.physical)
    (hfocused : s'.focused = s.focused) : s.Quiet s' :=
  ⟨⟨[], taps_nil, by rw [hsent, List.append_nil]⟩, hphysical, hfocused⟩

theorem State.quiet_send (h : Taps keys) : s.Quiet (s.send keys) := ⟨⟨keys, h, rfl⟩, rfl, rfl⟩

theorem State.quiet_flush : s.Quiet s.flush := by
  unfold State.flush
  dsimp only
  split <;> exact ⟨⟨_, taps_diff _ _, rfl⟩, rfl, rfl⟩

theorem State.quiet_onBeforeInput (inputType : InputType) : s.Quiet (s.onBeforeInput inputType) := by
  unfold State.onBeforeInput
  split
  · exact quiet_send (taps_sendKey _)
  · exact quiet_send (taps_sendKey _)
  · split
    · exact quiet_send (taps_sendKey _)
    · exact .of_sent rfl rfl rfl
  · split
    · exact quiet_send (taps_sendKey _)
    · exact .of_sent rfl rfl rfl
  · exact .of_sent rfl rfl rfl

theorem State.quiet_onInput : s.Quiet s.onInput := by
  unfold State.onInput
  split
  · exact .of_sent rfl rfl rfl
  · exact quiet_flush

theorem State.quiet_onCompositionEnd : s.Quiet s.onCompositionEnd :=
  quiet_flush (s := { s with composing := false })

/-- Nothing is held that was not. -/
theorem State.Quiet.remote (h : s.Quiet s') : s'.remote ⊆ s.remote := by
  obtain ⟨⟨keys, htaps, hsent⟩, -⟩ := h
  rw [State.remote, hsent, heldAfter_append]
  exact htaps _

theorem State.Quiet.balanced (h : s.Quiet s') (hs : Balanced s) : Balanced s' := by
  rw [balanced_iff_remote] at hs ⊢
  intro code hmem
  rw [h.2.1, h.2.2]
  exact hs code (h.remote hmem)

theorem remote_send (s : State) (key : KeyboardEvent) :
    (s.send [key]).remote = Edge.apply s.remote (edgeOf key) := heldAfter_append

/-- A key that goes down is down, whether it is passed through or not. -/
theorem balanced_keyDown (e : DomKeyEvent) (hs : Balanced s) : Balanced (s.act (.keyDown e)) := by
  have hdown : Balanced { s with physical := insert e.code s.physical } := by
    rw [balanced_iff_remote] at hs ⊢
    intro code hmem
    exact ⟨Finset.mem_insert_of_mem (hs code hmem).1, (hs code hmem).2⟩
  simp only [State.act]
  split
  · rename_i hfocused
    unfold State.onKeyDown
    split
    · exact hdown
    · rw [balanced_iff_remote, remote_send]
      intro code hmem
      rcases Finset.mem_insert.1 hmem with rfl | hmem
      · exact ⟨Finset.mem_insert_self _ _, hfocused⟩
      · exact balanced_iff_remote.1 hdown code hmem
  · exact hdown

/-- A key that goes up stays down at the far end exactly when it is held
there and the field, in focus, does not pass it through. -/
theorem balanced_keyUp (e : DomKeyEvent) (hs : Balanced s) :
    Balanced (s.act (.keyUp e)) ↔ PassOk s (.keyUp e) := by
  rw [balanced_iff_remote] at hs ⊢
  simp only [State.act, PassOk]
  split
  · rename_i hfocused
    unfold State.onKeyUp
    split
    · -- the release is kept back: the key is up here, so it must not be held there
      rename_i hnot
      constructor
      · intro h _ hmem
        exact absurd (h e.code hmem).1 (Finset.notMem_erase _ _)
      · intro h code hmem
        have hne : code ≠ e.code := by
          rintro rfl
          exact h hfocused hmem hnot
        exact ⟨Finset.mem_erase.2 ⟨hne, (hs code hmem).1⟩, hfocused⟩
    · rename_i hpasses
      refine iff_of_true (fun code hmem => ?_) fun _ _ => hpasses
      rw [remote_send] at hmem
      obtain ⟨hne, hmem⟩ := Finset.mem_erase.1 hmem
      exact ⟨Finset.mem_erase.2 ⟨hne, (hs code hmem).1⟩, hfocused⟩
  · -- out of focus nothing is held there
    rename_i hfocused
    refine iff_of_true (fun code hmem => ?_) fun hf => absurd hf hfocused
    exact absurd (hs code hmem).2 hfocused

/-- The focus lost, nothing may be held. -/
theorem balanced_blur : Balanced (s.act .blur) ↔ PassOk s .blur := by
  rw [balanced_iff_remote, PassOk, Finset.eq_empty_iff_forall_notMem]
  constructor
  · intro h code hmem
    exact Bool.false_ne_true (h code hmem).2
  · intro h code hmem
    exact absurd hmem (h code)

/-- **One step** keeps the balance exactly when what it releases is released
at the far end. -/
theorem balanced_act (hs : Balanced s) : Balanced (s.act a) ↔ PassOk s a := by
  cases a with
  | keyDown e => exact iff_of_true (balanced_keyDown e hs) trivial
  | keyUp e => exact balanced_keyUp e hs
  | blur => exact balanced_blur
  | focus =>
    refine iff_of_true (balanced_iff_remote.2 fun code hmem => ?_) trivial
    exact ⟨(balanced_iff_remote.1 hs code hmem).1, rfl⟩
  | edit value => exact iff_of_true (State.Quiet.of_sent rfl rfl rfl |>.balanced hs) trivial
  | beforeInput inputType =>
    exact iff_of_true ((State.quiet_onBeforeInput inputType).balanced hs) trivial
  | input => exact iff_of_true (State.quiet_onInput.balanced hs) trivial
  | compositionStart => exact iff_of_true (State.Quiet.of_sent rfl rfl rfl |>.balanced hs) trivial
  | compositionEnd => exact iff_of_true (State.quiet_onCompositionEnd.balanced hs) trivial

/-! ## Runs -/

theorem balanced_of_init (h : machine.init s) : Balanced s := by
  intro before code after hsent
  rw [h.2.2.2.2.1] at hsent
  simp at hsent

/-- **A run is balanced throughout exactly when** every key it passes through
is passed through again when it goes up, and none is down at the far end
when the focus is lost. -/
theorem balanced_iff {acts : List Action} (hinit : machine.init s)
    (hexec : machine.exec s acts = some s') :
    machine.Throughout Balanced s acts ↔ machine.Run PassOk s acts s' := by
  refine machine.throughout_iff_run (Q := fun _ => True) (fun _ _ _ _ _ _ _ => trivial)
    (fun s a s' _ hs hstep => ?_) trivial (balanced_of_init hinit) hexec
  obtain rfl := Option.some.inj hstep
  exact balanced_act hs

/-- The events of Ctrl and C, with Ctrl down or not. -/
def ctrl (down : Bool) : DomKeyEvent :=
  ⟨Control.codeUnits "Control", "ControlLeft", down, false, false⟩

def keyC (ctrlDown : Bool) : DomKeyEvent := ⟨Control.codeUnits "c", "KeyC", ctrlDown, false, false⟩

/-- A copy, with C let go first. -/
def copying : List Action :=
  [.focus, .keyDown (ctrl true), .keyDown (keyC true), .keyUp (keyC true), .keyUp (ctrl false),
    .blur]

theorem balanced_iff_copying : machine.Throughout Balanced .fresh copying := by
  have hexec : machine.exec .fresh copying = some _ := rfl
  refine (balanced_iff init_fresh hexec).2 ?_
  exact ⟨trivial, _, rfl, trivial, _, rfl, trivial, _, rfl, (by decide +kernel), _, rfl,
    (by decide +kernel), _, rfl, (by decide +kernel), _, rfl, rfl⟩

/-- **Not every run is balanced**: a copy, with Ctrl let go first, leaves the
C down. -/
theorem not_balanced : ¬ ∀ s, machine.Reachable s → Balanced s := by
  intro h
  have hreach := machine.reach_of_exec
    [.focus, .keyDown (ctrl true), .keyDown (keyC true), .keyUp (ctrl false), .keyUp (keyC false)]
    (.start init_fresh) rfl
  have hup := h _ hreach [.down "ControlLeft"] "KeyC" [.up "ControlLeft"] rfl
  exact absurd hup (by decide +kernel)

end SoftKeyboard

end WaylandWebStream
