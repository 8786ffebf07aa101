import WaylandWebStream.Control.Page
import WaylandWebStream.Input.Model
import WaylandWebStream.Lib.Machine

/-!
# The soft keyboard — the field, its handlers and the keys they send

`softKeyboard.ts` listens to a hidden text field. What the field shows is
mirrored as a difference (`flush`): a Backspace for every code unit of the
old value that is gone, a key tap for every character of the new one that
has a key on the US layout. Enter, and deletes in an empty field, are sent
from `beforeinput`; other physical keys are passed through by their code.
Text is UTF-16, as scripts have it.
-/

namespace WaylandWebStream

namespace SoftKeyboard

open Input (KeyboardEvent)

/-- A string of a script, by its code units. -/
abbrev Text := List UInt16

/-! ## US-layout character → physical key -/

/-- `KeyStroke`. -/
structure KeyStroke where
  /-- The code of the physical key. -/
  code : String
  /-- The US layout needs Shift held for the character. -/
  shift : Bool
  deriving DecidableEq

/-- The code unit of an ASCII character. -/
def unit (c : Char) : UInt16 := UInt16.ofNat c.toNat

/-- The two characters of a key, without and with Shift. -/
def bothOf (plain shifted : UInt16) (code : String) : List (UInt16 × KeyStroke) :=
  [(plain, ⟨code, false⟩), (shifted, ⟨code, true⟩)]

/-- Lowercase unshifted, uppercase shifted. -/
def letters : List (UInt16 × KeyStroke) :=
  (List.range 26).flatMap fun i =>
    bothOf (UInt16.ofNat (97 + i)) (UInt16.ofNat (65 + i))
      ("Key" ++ String.singleton (Char.ofNat (65 + i)))

def digitRow : List (Char × Char × String) :=
  [('1', '!', "Digit1"), ('2', '@', "Digit2"), ('3', '#', "Digit3"), ('4', '$', "Digit4"),
    ('5', '%', "Digit5"), ('6', '^', "Digit6"), ('7', '&', "Digit7"), ('8', '*', "Digit8"),
    ('9', '(', "Digit9"), ('0', ')', "Digit0")]

def punct : List (Char × Char × String) :=
  [(Char.ofNat 96, '~', "Backquote"), ('-', '_', "Minus"), ('=', '+', "Equal"),
    ('[', '{', "BracketLeft"), (']', '}', "BracketRight"), ('\\', '|', "Backslash"),
    (';', ':', "Semicolon"), ('\'', '"', "Quote"), (',', '<', "Comma"), ('.', '>', "Period"),
    ('/', '?', "Slash")]

/-- `US_CHAR_TO_KEY`. -/
def usCharToKey : List (UInt16 × KeyStroke) :=
  letters ++ (digitRow ++ punct).flatMap (fun (plain, shifted, code) =>
    bothOf (unit plain) (unit shifted) code) ++
  [(unit ' ', ⟨"Space", false⟩), (unit '\t', ⟨"Tab", false⟩)]

/-- A character of several code units has no key. -/
def keyOf : Text → Option KeyStroke
  | [u] => usCharToKey.lookup u
  | _ => none

/-! ## Translation -/

/-- Shift is pressed and released around the key. -/
def sendChar (stroke : KeyStroke) : List KeyboardEvent :=
  (if stroke.shift then [.down "ShiftLeft"] else []) ++ [.down stroke.code, .up stroke.code] ++
    (if stroke.shift then [.up "ShiftLeft"] else [])

/-- A bare key tap. -/
def sendKey (code : String) : List KeyboardEvent := [.down code, .up code]

/-- The characters of a string, as `for … of` has them: a high surrogate and
the low one after it are one character. -/
def codePoints : Text → List Text
  | [] => []
  | [u] => [[u]]
  | u :: v :: rest =>
    if 0xD800 ≤ u ∧ u < 0xDC00 ∧ 0xDC00 ≤ v ∧ v < 0xE000 then [u, v] :: codePoints rest
    else [u] :: codePoints (v :: rest)

/-- Characters that have no key are dropped. -/
def typeText (text : Text) : List KeyboardEvent :=
  (codePoints text).flatMap fun ch =>
    match keyOf ch with
    | some stroke => sendChar stroke
    | none => []

/-! ## The field -/

/-- `BUFFER_TRIM_AT`. -/
def bufferTrimAt : ℕ := 64

/-- `BUFFER_KEEP`. -/
def bufferKeep : ℕ := 16

/-- The code units two strings begin with alike. -/
def common : Text → Text → ℕ
  | u :: prev, v :: cur => if u = v then common prev cur + 1 else 0
  | _, _ => 0

/-- The keys of one reconciliation: Backspaces for the removed tail, key taps
for the added one. -/
def diff (prev cur : Text) : List KeyboardEvent :=
  (List.replicate (prev.length - common prev cur) (sendKey "Backspace")).flatten ++
    typeText (cur.drop (common prev cur))

/-- One reconciliation, for the record. -/
structure Flush where
  prev : Text
  cur : Text
  keys : List KeyboardEvent
  deriving DecidableEq

/-- `inputType`, as far as it is looked at. -/
inductive InputType
  | insertLineBreak
  | insertParagraph
  | deleteContentBackward
  | deleteContentForward
  | other
  deriving DecidableEq

/-- A `KeyboardEvent` of the browser. -/
structure DomKeyEvent where
  key : Text
  code : String
  ctrlKey : Bool
  metaKey : Bool
  altKey : Bool

/-- `BEFOREINPUT_KEYS`. -/
def beforeInputKeys : List Text := ["Enter", "Backspace", "Delete"].map Control.codeUnits

/-- A plain printable character, or Enter, Backspace or Delete; never a
modified combination. -/
def handledByBeforeInput (e : DomKeyEvent) : Bool :=
  if e.ctrlKey || e.metaKey || e.altKey then false
  else if e.key.length = 1 then true
  else decide (e.key ∈ beforeInputKeys)

/-- The field, the keyboard it is typed on, and what has been sent. -/
structure State where
  /-- What the field shows. -/
  value : Text
  /-- The value last reconciled against. -/
  prev : Text
  composing : Bool
  /-- The field has the focus. -/
  focused : Bool
  /-- The keys that are physically down. -/
  physical : Finset String
  sent : List KeyboardEvent
  flushes : List Flush

namespace State

variable (s : State)

def send (keys : List KeyboardEvent) : State := { s with sent := s.sent ++ keys }

/-- Reconciles the field with `prev`, and trims a long buffer to its end. -/
def flush : State :=
  let keys := diff s.prev s.value
  let s' := { s.send keys with
    prev := s.value, flushes := s.flushes ++ [⟨s.prev, s.value, keys⟩] }
  if bufferTrimAt < s.value.length then
    let keep := s.value.drop (s.value.length - bufferKeep)
    { s' with value := keep, prev := keep }
  else s'

def reset : State := { s with value := [], prev := [] }

/-- `onBeforeInput`. A delete in a field that holds text shrinks it, and the
difference sends its Backspace. -/
def onBeforeInput : InputType → State
  | .insertLineBreak | .insertParagraph => (s.send (sendKey "Enter")).reset
  | .deleteContentBackward =>
    if s.composing = false ∧ s.prev.length = 0 then s.send (sendKey "Backspace") else s
  | .deleteContentForward =>
    if s.composing = false ∧ s.prev.length = 0 then s.send (sendKey "Delete") else s
  | .other => s

/-- What a composition shows before it ends is not reconciled. -/
def onInput : State := if s.composing then s else s.flush

def onCompositionStart : State := { s with composing := true }

def onCompositionEnd : State := { s with composing := false }.flush

def onKeyDown (e : DomKeyEvent) : State :=
  if handledByBeforeInput e ∨ e.code = "" then s else s.send [.down e.code]

def onKeyUp (e : DomKeyEvent) : State :=
  if handledByBeforeInput e ∨ e.code = "" then s else s.send [.up e.code]

end State

/-! ## The machine -/

/-- What happens to the field and the keyboard. -/
inductive Action
  /-- The field shows another text, by whatever edit. -/
  | edit (value : Text)
  | beforeInput (inputType : InputType)
  | input
  | compositionStart
  | compositionEnd
  | focus
  | blur
  /-- A key goes down, or repeats; a field in focus hears of it. -/
  | keyDown (e : DomKeyEvent)
  | keyUp (e : DomKeyEvent)

/-- What happens, and the handler it runs. -/
def State.act (s : State) : Action → State
  | .edit value => { s with value }
  | .beforeInput inputType => s.onBeforeInput inputType
  | .input => s.onInput
  | .compositionStart => s.onCompositionStart
  | .compositionEnd => s.onCompositionEnd
  | .focus => { s with focused := true }.reset
  | .blur => { s with focused := false }.reset
  | .keyDown e =>
    let s' := { s with physical := insert e.code s.physical }
    if s.focused then s'.onKeyDown e else s'
  | .keyUp e =>
    let s' := { s with physical := s.physical.erase e.code }
    if s.focused then s'.onKeyUp e else s'

/-- An attached field, empty and without the focus. -/
def machine : Machine State Action where
  init s := s.value = [] ∧ s.prev = [] ∧ s.composing = false ∧ s.focused = false ∧
    s.sent = [] ∧ s.flushes = []
  step s a := some (s.act a)

/-- A field just attached, with no key down. -/
def State.fresh : State := ⟨[], [], false, false, ∅, [], []⟩

theorem init_fresh : machine.init .fresh := ⟨rfl, rfl, rfl, rfl, rfl, rfl⟩

end SoftKeyboard

end WaylandWebStream
