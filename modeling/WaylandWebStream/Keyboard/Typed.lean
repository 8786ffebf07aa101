import WaylandWebStream.Input.Keyboard
import WaylandWebStream.Keyboard.Mirror
import WaylandWebStream.Keyboard.Passthrough

/-!
# Typed — from the hidden field to what an application reads

What is written on the soft keyboard is a text: the field's part of it is
replaced by what the field shows now, Enter ends the line, and a delete in
an empty field takes the last character. The keys that say so go over the
connection, through the key channel and to the seat, where an application
on the US layout reads them again, by their keycodes. It reads what was
written, as long as no key is passed through and what the field loses had
keys (`reads_written`).
-/

namespace WaylandWebStream

namespace SoftKeyboard

open Input (KeyboardEvent InputMessage Dimensions Entry evdevKeycode evdevKeycodes)
open Uplink (Among)

/-! ## The application -/

/-- The code of a key, by its XKB keycode. -/
def codeOf (keycode : UInt32) : Option String :=
  (evdevKeycodes.find? fun entry => entry.2 + 8 = keycode).map Prod.fst

/-- What a key of the seat does to the text. -/
def Cursor.key (c : Cursor) : Edge UInt32 → Cursor
  | .press keycode => (codeOf keycode).elim c fun code => c.press (.down code)
  | .release keycode => (codeOf keycode).elim c fun code => c.press (.up code)
  | .clear => c

def Cursor.read (c : Cursor) (edges : List (Edge UInt32)) : Cursor := edges.foldl key c

/-- **A keycode stands for its code.** -/
theorem codeOf_evdevKeycode {code : String} {keycode : UInt32}
    (h : evdevKeycode code = some keycode) : codeOf (keycode + 8) = some code := by
  have htable : ∀ entry ∈ evdevKeycodes, codeOf (entry.2 + 8) = some entry.1 := by
    decide +kernel
  exact htable _ (WebKeyboard.mem_of_evdevKeycode h)

/-- A key without a keycode means nothing. -/
theorem press_of_evdevKeycode {c : Cursor} {code : String} (h : evdevKeycode code = none) :
    c.press (.down code) = c ∧ c.press (.up code) = c := by
  have hmeans : ∀ code ∈ ["ShiftLeft", "Backspace", "Enter"], (evdevKeycode code).isSome := by
    decide +kernel
  have hne : ∀ code' ∈ ["ShiftLeft", "Backspace", "Enter"], code ≠ code' := by
    rintro code' hmem rfl
    exact absurd (hmeans code hmem) (by rw [h]; exact Bool.false_ne_true)
  have hchar : charOf ⟨code, c.shift⟩ = none := by
    rw [charOf, Option.map_eq_none_iff, List.find?_eq_none]
    rintro entry hentry heq
    have hkey := usCharToKey_evdev entry hentry
    rw [of_decide_eq_true heq, h] at hkey
    exact Bool.false_ne_true hkey
  have hshift : code ≠ "ShiftLeft" := hne _ (by simp)
  have hback : code ≠ "Backspace" := hne _ (by simp)
  have henter : code ≠ "Enter" := hne _ (by simp)
  exact ⟨by simp [Cursor.press, hshift, hback, henter, hchar], by simp [Cursor.press, hshift]⟩

/-- **An application reads what is sent**, key by key. -/
theorem read_keys (keys : List KeyboardEvent) (c : Cursor) :
    c.read ((keys.map InputMessage.key).filterMap (·.keyEdge)) = c.replay keys := by
  induction keys generalizing c with
  | nil => rfl
  | cons e keys ih =>
    have hone : ∀ edges, c.read ((InputMessage.keyEdge (.key e)).toList ++ edges) =
        (c.press e).read edges := by
      intro edges
      cases e with
      | down code =>
        cases hcode : evdevKeycode code with
        | none => simp [InputMessage.keyEdge, hcode, (press_of_evdevKeycode hcode).1]
        | some keycode =>
          simp [InputMessage.keyEdge, hcode, Cursor.read, Cursor.key, codeOf_evdevKeycode hcode]
      | up code =>
        cases hcode : evdevKeycode code with
        | none => simp [InputMessage.keyEdge, hcode, (press_of_evdevKeycode hcode).2]
        | some keycode =>
          simp [InputMessage.keyEdge, hcode, Cursor.read, Cursor.key, codeOf_evdevKeycode hcode]
    have hsplit : ((e :: keys).map InputMessage.key).filterMap (·.keyEdge) =
        (InputMessage.keyEdge (.key e)).toList ++
          (keys.map InputMessage.key).filterMap (·.keyEdge) := by
      rw [List.map_cons, List.filterMap_cons]
      cases InputMessage.keyEdge (.key e) <;> rfl
    rw [hsplit, hone, ih]
    rfl

/-! ## What is written -/

/-- The field's part of a text is replaced by what the field shows now. -/
def rewrite (text prev value : Text) : Text :=
  text.take (text.length - (typeable prev).length) ++ typeable value

/-- The text after something happens to the field, of what was written before. -/
def written (s : State) (text : Text) : Action → Text
  | .input => if s.composing then text else rewrite text s.prev s.value
  | .compositionEnd => rewrite text s.prev s.value
  | .beforeInput .insertLineBreak | .beforeInput .insertParagraph => text ++ [unit '\n']
  | .beforeInput .deleteContentBackward =>
    if s.composing = false ∧ s.prev.length = 0 then text.dropLast else text
  | _ => text

/-- No key is passed through. -/
def Plain (s : State) : Action → Prop
  | .keyDown e | .keyUp e => s.focused = true → ¬ Passes e
  | _ => True

instance (s : State) : DecidablePred (Plain s)
  | .keyDown e | .keyUp e => inferInstanceAs (Decidable (_ → ¬ Passes e))
  | .edit _ | .beforeInput _ | .input | .compositionStart | .compositionEnd | .focus | .blur =>
    .isTrue trivial

/-- The field can be followed: nothing is passed through, and what a
reconciliation removes had keys. -/
def Tame (s : State) (a : Action) : Prop := MirrorOk s a ∧ Plain s a

instance (s : State) : DecidablePred (Tame s) := fun _ => inferInstanceAs (Decidable (_ ∧ _))

/-- **Where the text stands**: the field's part of it is its end. -/
def EndsWith (text prev : Text) : Prop := ∃ earlier, text = earlier ++ typeable prev

variable {s : State} {text prev value : Text} {a : Action}

theorem rewrite_append (earlier prev value : Text) :
    rewrite (earlier ++ typeable prev) prev value = earlier ++ typeable value := by
  rw [rewrite, List.length_append, Nat.add_sub_cancel, List.take_left]

/-- The field's part only gets shorter when the field does, from the front. -/
theorem EndsWith.drop (h : EndsWith text value) (n : ℕ) : EndsWith text (value.drop n) := by
  obtain ⟨earlier, rfl⟩ := h
  refine ⟨earlier ++ typeable (value.take n), ?_⟩
  rw [List.append_assoc, ← typeable_append, List.take_append_drop]

theorem EndsWith.nil (text : Text) : EndsWith text [] := ⟨text, (List.append_nil text).symm⟩

/-- What a step sends, and what it leaves of the text. -/
def Follows (s s' : State) (text text' : Text) : Prop :=
  ∃ keys, s'.sent = s.sent ++ keys ∧ Cursor.replay ⟨text, false⟩ keys = ⟨text', false⟩ ∧
    EndsWith text' s'.prev

/-- A step that sends nothing. -/
theorem Follows.quiet {s' : State} (hsent : s'.sent = s.sent) (h : EndsWith text s'.prev) :
    Follows s s' text text :=
  ⟨[], by rw [hsent, List.append_nil], rfl, h⟩

/-- **A reconciliation rewrites the field's part**, and its trim says nothing. -/
theorem follows_flush (h : EndsWith text s.prev) (hremovable : Removable s.prev s.value) :
    Follows s s.flush text (rewrite text s.prev s.value) := by
  obtain ⟨earlier, rfl⟩ := h
  have hmirrors := Flush.mirrors_iff.2 hremovable earlier
  have hends : EndsWith (earlier ++ typeable s.value) s.value := ⟨earlier, rfl⟩
  rw [rewrite_append]
  unfold State.flush
  dsimp only
  split
  · exact ⟨_, rfl, hmirrors, hends.drop _⟩
  · exact ⟨_, rfl, hmirrors, hends⟩

theorem follows_onBeforeInput (h : EndsWith text s.prev) (inputType : InputType) :
    Follows s (s.onBeforeInput inputType) text (written s text (.beforeInput inputType)) := by
  have henter : Cursor.replay ⟨text, false⟩ (sendKey "Enter") = ⟨text ++ [unit '\n'], false⟩ := by
    simp [Cursor.replay, sendKey, Cursor.press]
  cases inputType with
  | insertLineBreak => exact ⟨_, rfl, henter, .nil _⟩
  | insertParagraph => exact ⟨_, rfl, henter, .nil _⟩
  | deleteContentBackward =>
    simp only [State.onBeforeInput, written]
    split
    · rename_i hempty
      refine ⟨_, rfl, by simp [Cursor.replay, sendKey, Cursor.press], ?_⟩
      have hprev : s.prev = [] := List.length_eq_zero_iff.1 hempty.2
      change EndsWith _ s.prev
      rw [hprev]
      exact .nil _
    · exact .quiet rfl h
  | deleteContentForward =>
    -- there is nothing behind the cursor
    have hchar : charOf ⟨"Delete", false⟩ = none := by decide +kernel
    simp only [State.onBeforeInput, written]
    split
    · exact ⟨_, rfl, by simp [Cursor.replay, sendKey, Cursor.press, hchar], h⟩
    · exact .quiet rfl h
  | other => exact .quiet rfl h

/-- **One step follows the text.** -/
theorem follows_act (h : EndsWith text s.prev) (htame : Tame s a) :
    Follows s (s.act a) text (written s text a) := by
  obtain ⟨hok, hplain⟩ := htame
  cases a with
  | edit value => exact .quiet rfl h
  | beforeInput inputType => exact follows_onBeforeInput h inputType
  | input =>
    simp only [State.act, State.onInput, written]
    split
    · exact .quiet rfl h
    · rename_i hcomposing
      exact follows_flush h (hok (Bool.eq_false_iff.2 hcomposing))
  | compositionStart => exact .quiet rfl h
  | compositionEnd => exact follows_flush (s := { s with composing := false }) h hok
  | focus => exact .quiet rfl (.nil _)
  | blur => exact .quiet rfl (.nil _)
  | keyDown e =>
    simp only [State.act, written]
    split
    · rename_i hfocused
      have hkept : State.onKeyDown { s with physical := insert e.code s.physical } e =
          { s with physical := insert e.code s.physical } := if_pos (not_not.1 (hplain hfocused))
      rw [hkept]
      exact .quiet rfl h
    · exact .quiet rfl h
  | keyUp e =>
    simp only [State.act, written]
    split
    · rename_i hfocused
      have hkept : State.onKeyUp { s with physical := s.physical.erase e.code } e =
          { s with physical := s.physical.erase e.code } := if_pos (not_not.1 (hplain hfocused))
      rw [hkept]
      exact .quiet rfl h
    · exact .quiet rfl h

/-! ## Over the connection -/

/-- The field, and the text written with it. No handler reads the text. -/
structure Page where
  field : State
  text : Text

/-- The field's handlers. -/
def sender : Uplink.Sender Page Action := fun page a =>
  (⟨page.field.act a, written page.field page.text a⟩,
    ((page.field.act a).sent.drop page.field.sent.length).map .key)

/-- **A page with a soft keyboard and its new connection.** In front of the
cursor there is a text to begin with. -/
def typing (d : Dimensions) (conn : ℕ) (before : List Entry) (start : Text) :
    Machine (Uplink.State Page) (Uplink.Action (Among .key Action)) :=
  Uplink.machine d conn before
    (fun page server => machine.init page.field ∧ page.text = start ∧
      ∀ e ∈ server.log, e.conn ≠ conn) (sender.among .key)

/-- The field can be followed throughout. -/
def Followed : Page → Among .key Action → Prop
  | page, .own a => Tame page.field a
  | _, .other _ _ => True

instance (page : Page) : DecidablePred (Followed page)
  | .own a => inferInstanceAs (Decidable (Tame page.field a))
  | .other _ _ => .isTrue trivial

/-- **What is kept of the page**: an application reads the text, and its end
is the field's. -/
structure Reads (start : Text) (page : Page) (sent : List InputMessage) : Prop where
  read : Cursor.read ⟨start, false⟩ (sent.filterMap (·.keyEdge)) = ⟨page.text, false⟩
  ends : EndsWith page.text page.field.prev

section Runs

variable {d : Dimensions} {conn : ℕ} {before : List Entry} {start : Text} {page : Page}
  {sent : List InputMessage} {s : Uplink.State Page}

theorem read_append (c : Cursor) (edges edges' : List (Edge UInt32)) :
    c.read (edges ++ edges') = (c.read edges).read edges' := List.foldl_append ..

theorem Reads.sends (h : Reads start page sent) (e : Among .key Action)
    (hfollowed : Followed page e) :
    Reads start (sender.among .key page e).1 (sent ++ (sender.among .key page e).2) := by
  cases e with
  | own a =>
    obtain ⟨keys, hsent, hreplay, hends⟩ := follows_act h.ends hfollowed
    have hkeys : (page.field.act a).sent.drop page.field.sent.length = keys := by
      rw [hsent, List.drop_left]
    refine ⟨?_, hends⟩
    simp only [Uplink.Sender.among, sender, hkeys]
    rw [List.filterMap_append, read_append, h.read, read_keys, hreplay]
  | other message hother =>
    refine ⟨?_, h.ends⟩
    simp only [Uplink.Sender.among]
    rw [List.filterMap_append, read_append, h.read, List.filterMap_cons,
      InputMessage.keyEdge_of_device hother]
    rfl

theorem reads_of_reach (h : (typing d conn before start).Reach (Uplink.Meets Followed) s) :
    Reads start s.page s.sent := by
  refine Uplink.page_invariant (fun page server hstart => ?_)
    (fun page sent e hfollowed hs => hs.sends e hfollowed) h
  obtain ⟨⟨-, hprev, -⟩, rfl, -⟩ := hstart
  refine ⟨rfl, ?_⟩
  rw [hprev]
  exact .nil _

/-- **An application reads what was written.** Whatever is typed, corrected,
composed and deleted in the field, however often it is trimmed, cleared and
focused again, and whatever else the page sends in between: once the
messages are processed, the keys the seat was given of this connection turn
the text there was into the text written, with no Shift left held. -/
theorem reads_written (h : (typing d conn before start).Reach (Uplink.Meets Followed) s)
    (hsettled : s.Settled) :
    Cursor.read ⟨start, false⟩ (s.server.injected.filterMap (Uplink.ofConn conn (·.keyEdge))) =
      ⟨s.page.text, false⟩ := by
  rw [Uplink.injected_eq_sent .key (fun _ => InputMessage.keyEdge_of_device)
    Input.keyEdge_of_isMove (fun page server hstart => hstart.2.2) h.reachable hsettled]
  exact (reads_of_reach h).read

/-- A field on a page just connected, the first. -/
def someTyping : Uplink.State Page where
  page := ⟨.fresh, []⟩
  wire := []
  server := WebKeyboard.someState.server
  sent := []

/-- The word is typed and rewritten, the line ended, and all of it processed. -/
def correcting : List (Uplink.Action (Among .key Action)) :=
  (rewriting ++ [Action.beforeInput .insertParagraph]).map (fun a => .page (.own a)) ++
    List.replicate 18 .receive ++ [.serve .beginPass, .serve .advance, .serve .advance] ++
    List.replicate 18 (.serve .take) ++ [.serve .advance]

theorem reads_written_correcting : ∃ s : Uplink.State Page,
    Cursor.read ⟨[], false⟩ (s.server.injected.filterMap (Uplink.ofConn 1 (·.keyEdge))) =
      ⟨"the \n".toList.map unit, false⟩ := by
  have hserver : (Input.machine ⟨1280, 720⟩).exec (Input.initial ⟨1280, 720⟩)
      [.connect, .serve 1] = some WebKeyboard.someState.server := rfl
  have hreach := Machine.reach_of_exec _ (.start rfl) hserver
  have hstart : (typing ⟨1280, 720⟩ 1 [] []).init someTyping :=
    ⟨hreach, fun device => rfl, rfl, rfl,
      ⟨init_fresh, rfl, fun e he => absurd he List.not_mem_nil⟩, rfl, rfl⟩
  have hrun : (((typing ⟨1280, 720⟩ 1 [] []).guarded (Uplink.Meets Followed)).exec someTyping
      correcting).any (fun s => s.wire.isEmpty && (s.server.channel .touch).isEmpty &&
        (s.server.channel .pointer).isEmpty && (s.server.channel .key).isEmpty &&
        s.page.text == "the \n".toList.map unit) = true := by decide +kernel
  simp only [Option.any_eq_true, Bool.and_eq_true, List.isEmpty_iff, beq_iff_eq] at hrun
  obtain ⟨s, hexec, ⟨⟨⟨hwire, htouch⟩, hpointer⟩, hkey⟩, htext⟩ := hrun
  have hsettled : s.Settled := ⟨hwire, fun device => by cases device <;> assumption⟩
  refine ⟨s, ?_⟩
  rw [← htext]
  exact reads_written (Machine.Reach.exec_guarded _ (.start hstart) hexec) hsettled

end Runs

end SoftKeyboard

end WaylandWebStream
