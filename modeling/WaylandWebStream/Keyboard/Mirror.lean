import WaylandWebStream.Keyboard.Model

/-!
# Mirroring — when the keys of a difference turn one text into the other

The far end is a text cursor: a key of the US layout types its character, a
Backspace takes the last one. What it shows of the field are the characters
that have a key. A reconciliation deletes one character for each code unit
of the removed tail, with a key or without, so that it mirrors the field
exactly when the whole removed tail had keys (`Flush.mirrors_iff`), and a
run mirrors exactly when every reconciliation does (`mirrored_iff`). An
accented letter typed and deleted again takes an earlier character with it.
-/

namespace WaylandWebStream

namespace SoftKeyboard

open Input (KeyboardEvent)

/-! ## A text cursor -/

/-- The far end: the text before the cursor, and whether Shift is held. -/
@[ext] structure Cursor where
  text : Text
  shift : Bool

/-- What a key types. -/
def charOf (stroke : KeyStroke) : Option UInt16 :=
  (usCharToKey.find? fun entry => entry.2 = stroke).map Prod.fst

/-- What an event of a key does to the text. -/
def Cursor.press (c : Cursor) : KeyboardEvent → Cursor
  | .down code =>
    if code = "ShiftLeft" then { c with shift := true }
    else if code = "Backspace" then { c with text := c.text.dropLast }
    else if code = "Enter" then { c with text := c.text ++ [unit '\n'] }
    else match charOf ⟨code, c.shift⟩ with
      | some u => { c with text := c.text ++ [u] }
      | none => c
  | .up code => if code = "ShiftLeft" then { c with shift := false } else c

def Cursor.replay (c : Cursor) (keys : List KeyboardEvent) : Cursor := keys.foldl press c

/-- The characters that have a key. -/
def typeable (text : Text) : Text := text.filter fun u => (keyOf [u]).isSome

/-- **A reconciliation mirrors the field**: wherever the cursor stands after
the typeable characters of the old value, its keys leave those of the new
one in their place, and no Shift held. -/
def Flush.Mirrors (f : Flush) : Prop :=
  ∀ base, Cursor.replay ⟨base ++ typeable f.prev, false⟩ f.keys =
    ⟨base ++ typeable f.cur, false⟩

variable {c : Cursor} {keys keys' : List KeyboardEvent} {text prev cur : Text} {u : UInt16}
  {stroke : KeyStroke}

@[simp] theorem replay_nil : c.replay [] = c := rfl

@[simp] theorem replay_append :
    c.replay (keys ++ keys') = (c.replay keys).replay keys' := List.foldl_append ..

@[simp] theorem typeable_append {more : Text} :
    typeable (text ++ more) = typeable text ++ typeable more := List.filter_append ..

/-! ## Typing -/

/-- The keys of the table are in ASCII, type what they stand for, and are
none of the keys with a meaning of their own. -/
theorem usCharToKey_sound : ∀ entry ∈ usCharToKey, entry.1 < 128 ∧
    charOf entry.2 = some entry.1 ∧ entry.2.code ∉ ["ShiftLeft", "Backspace", "Enter"] := by
  decide +kernel

/-- And the server has a keycode for each. -/
theorem usCharToKey_evdev : ∀ entry ∈ usCharToKey, (Input.evdevKeycode entry.2.code).isSome := by
  decide +kernel

theorem mem_of_keyOf (h : keyOf [u] = some stroke) : (u, stroke) ∈ usCharToKey := by
  obtain ⟨before, after, hsplit, -⟩ := List.lookup_eq_some_iff.1 h
  rw [hsplit]
  exact List.mem_append_right _ List.mem_cons_self

/-- A surrogate has no key. -/
theorem keyOf_of_le (h : 0xD800 ≤ u) : keyOf [u] = none := by
  rcases hkey : keyOf [u] with _ | stroke
  · rfl
  · have hlt : u < 128 := (usCharToKey_sound _ (mem_of_keyOf hkey)).1
    have hle : (0xD800 : UInt16).toNat ≤ u.toNat := UInt16.le_iff_toNat_le.1 h
    have hlt' : u.toNat < (128 : UInt16).toNat := UInt16.lt_iff_toNat_lt.1 hlt
    simp at hle hlt'
    omega

/-- The keys of one code unit. -/
def keysOf (u : UInt16) : List KeyboardEvent :=
  match keyOf [u] with
  | some stroke => sendChar stroke
  | none => []

/-- **Typing goes by code units after all**: the pairs that are one character
have no key, and neither have their halves. -/
theorem typeText_eq (text : Text) : typeText text = text.flatMap keysOf := by
  unfold typeText
  induction text using codePoints.induct with
  | case1 => rfl
  | case2 u => rfl
  | case3 u v rest hpair ih =>
    have hu : keysOf u = [] := by rw [keysOf, keyOf_of_le hpair.1]
    have hv : keysOf v = [] := by
      have hle : (0xD800 : UInt16) ≤ v := UInt16.le_trans (by decide) hpair.2.2.1
      rw [keysOf, keyOf_of_le hle]
    rw [codePoints, if_pos hpair, List.flatMap_cons, ih, List.flatMap_cons, List.flatMap_cons,
      hu, hv]
    rfl
  | case4 u v rest hpair ih =>
    rw [codePoints, if_neg hpair, List.flatMap_cons, ih, List.flatMap_cons (x := u)]
    rfl

/-- A tap of a character's key types the character. -/
theorem replay_sendChar (h : keyOf [u] = some stroke) :
    Cursor.replay ⟨text, false⟩ (sendChar stroke) = ⟨text ++ [u], false⟩ := by
  obtain ⟨-, hchar, hcode⟩ := usCharToKey_sound _ (mem_of_keyOf h)
  simp only [List.mem_cons, List.not_mem_nil, or_false, not_or] at hcode
  obtain ⟨hshift, hback, henter⟩ := hcode
  obtain ⟨code, shift⟩ := stroke
  dsimp only at hchar hshift hback henter
  rcases shift with _ | _ <;>
    simp [sendChar, Cursor.replay, Cursor.press, hchar, hshift, hback, henter]

/-- **Typing appends what is typeable.** -/
theorem replay_typeText (added text : Text) :
    Cursor.replay ⟨text, false⟩ (typeText added) = ⟨text ++ typeable added, false⟩ := by
  rw [typeText_eq]
  induction added generalizing text with
  | nil => simp [typeable]
  | cons u added ih =>
    rw [List.flatMap_cons, replay_append, keysOf]
    rcases hkey : keyOf [u] with _ | stroke
    · have hnot : typeable (u :: added) = typeable added := by
        simp [typeable, hkey]
      rw [hnot]
      exact ih text
    · have hcons : typeable (u :: added) = u :: typeable added := by
        simp [typeable, hkey]
      dsimp only
      rw [replay_sendChar hkey, ih, hcons, List.append_assoc, List.singleton_append]

/-! ## Deleting -/

/-- Each Backspace takes the last character. -/
theorem replay_backspaces (n : ℕ) (text : Text) :
    Cursor.replay ⟨text, false⟩ (List.replicate n (sendKey "Backspace")).flatten =
      ⟨text.take (text.length - n), false⟩ := by
  induction n generalizing text with
  | zero => simp
  | succ n ih =>
    have htap : Cursor.replay ⟨text, false⟩ (sendKey "Backspace") = ⟨text.dropLast, false⟩ := by
      simp [Cursor.replay, sendKey, Cursor.press]
    rw [List.replicate_succ, List.flatten_cons, replay_append, htap, ih, List.dropLast_eq_take,
      List.take_take, List.length_take]
    congr 2
    omega

/-- **Rubbing out**: taking `n` items off the end of a text and appending
others replaces its tail, whatever stands before, exactly when the tail has
`n` items. -/
theorem rubOut_iff {α : Type*} [Nonempty α] (kept added : List α) {removed : List α} {n : ℕ} :
    (∀ base : List α, (base ++ (kept ++ removed)).take ((base ++ (kept ++ removed)).length - n) ++
      added = base ++ (kept ++ added)) ↔ removed.length = n := by
  constructor
  · intro h
    -- with `n` items before it, neither too much nor too little can be taken
    have hbase := congrArg List.length (h (List.replicate n (Classical.arbitrary α)))
    simp only [List.length_append, List.length_take, List.length_replicate] at hbase
    omega
  · intro hlen base
    have htake : (base ++ (kept ++ removed)).length - n = (base ++ kept).length := by
      simp only [List.length_append]
      omega
    rw [htake, ← List.append_assoc, List.take_left, List.append_assoc]

/-! ## One reconciliation -/

theorem take_common (prev cur : Text) : prev.take (common prev cur) = cur.take (common prev cur) := by
  fun_induction common prev cur with
  | case1 u prev cur ih => rw [List.take_succ_cons, List.take_succ_cons, ih]
  | case2 => rfl
  | case3 => rfl

/-- What a reconciliation removes. -/
def removed (prev cur : Text) : Text := prev.drop (common prev cur)

/-- What is removed all had keys. -/
def Removable (prev cur : Text) : Prop := ∀ u ∈ removed prev cur, (keyOf [u]).isSome

instance : Decidable (Removable prev cur) := List.decidableBAll _ _

/-- **One reconciliation mirrors the field exactly when all it removes had
keys**: it deletes by code units, of which only those were ever typed. -/
theorem Flush.mirrors_iff :
    (Flush.mk prev cur (diff prev cur)).Mirrors ↔ Removable prev cur := by
  set n := common prev cur with hn
  have hprev : typeable prev = typeable (prev.take n) ++ typeable (removed prev cur) := by
    rw [← typeable_append, removed, List.take_append_drop]
  have hcur : typeable cur = typeable (prev.take n) ++ typeable (cur.drop n) := by
    rw [hn, take_common, ← typeable_append, List.take_append_drop]
  have hlen : prev.length - n = (removed prev cur).length := by
    rw [removed, List.length_drop]
  -- as many Backspaces as code units are removed, then what is new and typeable
  have hreplay : ∀ text, Cursor.replay ⟨text, false⟩ (diff prev cur) =
      ⟨text.take (text.length - (removed prev cur).length) ++ typeable (cur.drop n), false⟩ := by
    intro text
    rw [diff, replay_append, ← hn, hlen, replay_backspaces, replay_typeText]
  have hcount : (typeable (removed prev cur)).length = (removed prev cur).length ↔
      Removable prev cur := List.length_filter_eq_length_iff
  rw [← hcount, ← rubOut_iff (typeable (prev.take n)) (typeable (cur.drop n))]
  unfold Flush.Mirrors
  dsimp only
  simp only [hreplay, hprev, hcur, Cursor.mk.injEq, and_true]

/-- The rewrite of a mistyped word, "teh", as the field's comment has it. -/
example : diff [0x74, 0x65, 0x68] [0x74, 0x68, 0x65] =
    sendKey "Backspace" ++ sendKey "Backspace" ++ sendKey "KeyH" ++ sendKey "KeyE" := by
  decide +kernel

/-! ## Runs -/

/-- Every reconciliation so far mirrored the field. -/
def Mirrored (s : State) : Prop := ∀ f ∈ s.flushes, f.Mirrors

/-- Where the field is reconciled, all that is removed had keys. -/
def MirrorOk (s : State) : Action → Prop
  | .input => s.composing = false → Removable s.prev s.value
  | .compositionEnd => Removable s.prev s.value
  | _ => True

variable {s s' : State} {a : Action}

instance : Decidable (MirrorOk s a) :=
  match a with
  | .input => inferInstanceAs (Decidable (_ → _))
  | .compositionEnd => inferInstanceAs (Decidable (Removable _ _))
  | .edit _ | .beforeInput _ | .compositionStart | .focus | .blur | .keyDown _ | .keyUp _ =>
    .isTrue trivial

theorem flush_flushes (s : State) :
    s.flush.flushes = s.flushes ++ [⟨s.prev, s.value, diff s.prev s.value⟩] := by
  unfold State.flush
  dsimp only
  split <;> rfl

theorem mirrored_flush : Mirrored s.flush ↔ Removable s.prev s.value ∧ Mirrored s := by
  unfold Mirrored
  rw [flush_flushes, List.forall_mem_append, List.forall_mem_singleton, Flush.mirrors_iff, and_comm]

/-- Nothing else reconciles. -/
theorem flushes_act (hinput : a ≠ .input) (hend : a ≠ .compositionEnd) :
    (s.act a).flushes = s.flushes := by
  cases a with
  | input => exact absurd rfl hinput
  | compositionEnd => exact absurd rfl hend
  | beforeInput inputType =>
    cases inputType <;> simp only [State.act, State.onBeforeInput] <;> (try split) <;> rfl
  | keyDown e =>
    simp only [State.act, State.onKeyDown]
    split <;> (try split) <;> rfl
  | keyUp e =>
    simp only [State.act, State.onKeyUp]
    split <;> (try split) <;> rfl
  | edit | compositionStart | focus | blur => rfl

/-- **One step** reconciles at most once, with what the field shows then. -/
theorem mirrored_act : Mirrored (s.act a) ↔ MirrorOk s a ∧ Mirrored s := by
  by_cases hinput : a = .input
  · subst hinput
    change Mirrored s.onInput ↔ (s.composing = false → _) ∧ _
    unfold State.onInput
    rcases hcomposing : s.composing with _ | _
    · rw [if_neg (by simp), mirrored_flush]
      exact and_congr_left' (by simp)
    · rw [if_pos rfl]
      simp
  by_cases hend : a = .compositionEnd
  · subst hend
    exact mirrored_flush (s := { s with composing := false })
  have hok : MirrorOk s a := by
    cases a with
    | input => exact absurd rfl hinput
    | compositionEnd => exact absurd rfl hend
    | _ => trivial
  unfold Mirrored
  rw [flushes_act hinput hend]
  exact ⟨fun h => ⟨hok, h⟩, And.right⟩

/-- **A run mirrors the field exactly when** whatever a reconciliation of it
removes had keys. -/
theorem mirrored_iff {acts : List Action} (hinit : machine.init s)
    (hexec : machine.exec s acts = some s') : Mirrored s' ↔ machine.Run MirrorOk s acts s' := by
  have hstart : Mirrored s := by
    intro f hf
    rw [hinit.2.2.2.2.2] at hf
    exact absurd hf List.not_mem_nil
  rw [machine.iff_run (Q := fun _ => True) (P := Mirrored) (fun _ _ _ _ _ => trivial)
    (fun s a s' _ hstep => ?_) trivial hexec]
  · exact and_iff_right hstart
  · obtain rfl := Option.some.inj hstep
    exact mirrored_act

/-- The word typed, and rewritten with an emoji after it in a composition. -/
def rewriting : List Action :=
  [.focus, .edit [0x74, 0x65, 0x68], .input, .compositionStart,
    .edit [0x74, 0x68, 0x65, 0x20, 0xD83D, 0xDE00], .input, .compositionEnd]

theorem mirrored_iff_rewriting : ∃ s, machine.exec .fresh rewriting = some s ∧ Mirrored s := by
  have hexec : machine.exec .fresh rewriting = some _ := rfl
  refine ⟨_, hexec, (mirrored_iff init_fresh hexec).2 ?_⟩
  exact ⟨trivial, _, rfl, trivial, _, rfl, (by decide +kernel), _, rfl, trivial, _, rfl, trivial,
    _, rfl, (by decide +kernel), _, rfl, (by decide +kernel), _, rfl, rfl⟩

/-- **Not every run mirrors**: an accented letter is typed, for which no key
is sent, and deleted, for which a Backspace is. -/
theorem not_mirrored : ¬ ∀ s, machine.Reachable s → Mirrored s := by
  intro h
  have hreach := machine.reach_of_exec [.focus, .edit [0xE9], .input, .edit [], .input]
    (.start init_fresh) rfl
  have hmirrors := h _ hreach ⟨[0xE9], [], sendKey "Backspace"⟩ (by decide +kernel) [97]
  exact absurd (congrArg Cursor.text hmirrors) (by decide +kernel)

end SoftKeyboard

end WaylandWebStream
