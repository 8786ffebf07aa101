import WaylandWebStream.Wire.Model

/-!
# Clipboard — the page's side

`ClipboardBridge` in the browser, between the device's clipboard and the
connection. It keeps one key, of the last payload that passed it in
either direction; a remote payload it could not write waits for a
gesture. What a method leaves to the browser (a write, a read) or to the
connection (a message) is returned with the state.
-/

namespace WaylandWebStream

namespace Clipboard

open Wire (ClipboardData)

/-! ## Keys -/

/-- The key of a payload: texts by the text, images by their type, their
size and a hash. -/
inductive Key
  | text (text : String)
  | image (mime : String) (length : ℕ) (hash : UInt32)
  deriving DecidableEq

/-- FNV-1a, in 32 bits. -/
def fnv1a (bytes : Bytes) : UInt32 :=
  bytes.foldl (fun h b => (h ^^^ b.toUInt32) * 0x01000193) 0x811c9dc5

def textKey (text : String) : Key := .text text

def imageKey (mime : String) (bytes : Bytes) : Key := .image mime bytes.length (fnv1a bytes)

/-- The key of a payload of either kind. -/
def keyOf : ClipboardData → Key
  | .text text => textKey text
  | .image mime bytes => imageKey mime bytes

/-! ## The bridge of the page -/

structure ClipboardBridge where
  enabled : Bool := true
  /-- Key of the last payload seen in either direction. -/
  lastKey : Option Key := none
  /-- A remote payload that could not be written yet. -/
  pendingWrite : Option ClipboardData := none
  /-- Whether the next touch reads the device's clipboard. -/
  armed : Bool := true
  deriving DecidableEq

namespace ClipboardBridge

variable (b : ClipboardBridge)

/-- A remote payload: unless it is the last one seen it is to be written. -/
def onRemote (p : ClipboardData) : ClipboardBridge × Option ClipboardData :=
  if b.enabled = false ∨ b.lastKey = some (keyOf p) then (b, none)
  else ({ b with lastKey := some (keyOf p) }, some p)

def onRemoteClipboard (text : String) : ClipboardBridge × Option ClipboardData :=
  b.onRemote (.text text)

def onRemoteImage (mime : String) (bytes : Bytes) : ClipboardBridge × Option ClipboardData :=
  b.onRemote (.image mime bytes)

/-- The handler of a clipboard message of either kind. -/
def onPayload : ClipboardData → ClipboardBridge × Option ClipboardData
  | .text text => b.onRemoteClipboard text
  | .image mime bytes => b.onRemoteImage mime bytes

/-- The end of `writeDevice`: a write that failed is deferred. -/
def wrote (p : ClipboardData) (ok : Bool) : ClipboardBridge :=
  { b with pendingWrite := if ok then none else some p }

/-- A deferred write is tried again. -/
def flush : ClipboardBridge × Option ClipboardData :=
  ({ b with pendingWrite := none }, b.pendingWrite)

/-- `onUserGesture`, up to its first `await`: whether the device's
clipboard is read before the flush, as it is on a touch, once armed. -/
def onUserGesture (fromTouch : Bool) : ClipboardBridge × Bool :=
  if fromTouch && b.armed then ({ b with armed := false }, true) else (b, false)

/-- `maybeProactiveRead`, when the tab gains the focus: it reads only
where the permission is there. -/
def onFocus (granted : Bool) : ClipboardBridge × Bool :=
  ({ b with armed := true }, b.enabled && granted)

def forwardText (text : String) : ClipboardBridge × Option ClipboardData :=
  if text ≠ "" ∧ b.lastKey ≠ some (textKey text) then
    ({ b with lastKey := some (textKey text) }, some (.text text))
  else (b, none)

def forwardImage (mime : String) (bytes : Bytes) : ClipboardBridge × Option ClipboardData :=
  if b.lastKey ≠ some (imageKey mime bytes) then
    ({ b with lastKey := some (imageKey mime bytes) }, some (.image mime bytes))
  else (b, none)

/-- What a read takes off the clipboard: a text, or an image that is a
PNG. -/
def forward : ClipboardData → ClipboardBridge × Option ClipboardData
  | .text text => b.forwardText text
  | .image mime bytes => if mime = "image/png" then b.forwardImage mime bytes else (b, none)

end ClipboardBridge

/-- The payloads a read forwards, when they are new. -/
def Taken : ClipboardData → Prop
  | .text text => text ≠ ""
  | .image mime _ => mime = "image/png"

instance : DecidablePred Taken
  | .text text => inferInstanceAs (Decidable (text ≠ ""))
  | .image mime _ => inferInstanceAs (Decidable (mime = "image/png"))

variable {b : ClipboardBridge} {p q : ClipboardData}

@[simp] theorem onPayload_eq (b : ClipboardBridge) (p : ClipboardData) :
    b.onPayload p = b.onRemote p := by
  cases p <;> rfl

/-- **What is forwarded**: a payload a read takes, with another key than
the last one seen. -/
theorem forward_eq (b : ClipboardBridge) (p : ClipboardData) :
    b.forward p = if Taken p ∧ b.lastKey ≠ some (keyOf p) then
      ({ b with lastKey := some (keyOf p) }, some p) else (b, none) := by
  cases p with
  | text text =>
    by_cases h : Taken (.text text) ∧ b.lastKey ≠ some (keyOf (.text text))
    · rw [if_pos h]
      exact if_pos h
    · rw [if_neg h]
      exact if_neg h
  | image mime bytes =>
    simp only [ClipboardBridge.forward, ClipboardBridge.forwardImage, Taken, keyOf]
    by_cases hmime : mime = "image/png" <;> simp [hmime]

end Clipboard

end WaylandWebStream
