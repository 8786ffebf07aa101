import WaylandWebStream.Wire.Messages

/-!
# The page — what control messages leave in it

Each control message sets a part of the page: the bitrate shown, the
codec of the stream, the cursor, the tab's title and icon, and whether to
take the pointer lock. Nothing but a message sets them, so they outlive
the connection. `Page.Shows` says that a part shows a value of the watch
channel behind it, but for the icon, which has no channel of its own.
-/

namespace WaylandWebStream

namespace Control

open Wire

/-- The watch channels of a connection. -/
inductive Channel
  | bitrate
  | codec
  | cursor
  | appMeta
  | clipboard
  | pointerLock
  deriving DecidableEq

/-- What a channel carries. -/
abbrev Channel.Value : Channel → Type
  | bitrate => UInt64
  | codec => String
  | cursor => CursorUpdate
  | appMeta => AppMeta
  | clipboard => ClipboardData
  | pointerLock => Bool

/-! ## The page -/

/-- A string in UTF-16, as scripts have it. -/
def codeUnits (s : String) : List UInt16 :=
  s.toList.flatMap fun c =>
    if c.val < 0x10000 then [c.val.toUInt16]
    else [(0xD800 + (c.val - 0x10000) / 0x400).toUInt16,
      (0xDC00 + (c.val - 0x10000) % 0x400).toUInt16]

/-- `DEFAULT_TITLE`. -/
def defaultTitle : String := "WaylandWebStream"

/-- The picture of the cursor overlay, with its hotspot. -/
structure CursorOverlay where
  width : UInt32
  height : UInt32
  hotX : Int32
  hotY : Int32
  rgba : String
  deriving DecidableEq

/-- The page, as far as control messages set it. -/
structure Page where
  bitrateBps : ℕ
  codec : String
  canvasCursor : String
  cursorOverlay : Option CursorOverlay
  cursorSurfaceActive : Bool
  documentTitle : List UInt16
  appFavicon : Option Favicon
  pointerLockWanted : Bool

/-- The title `applyTitle` gives the document. -/
def tabTitle (title appId : String) : List UInt16 :=
  let name := if title ≠ "" then title else if appId ≠ "" then appId else defaultTitle
  let label := (codeUnits name).take 200
  if label = codeUnits defaultTitle then label
  else label ++ codeUnits " — " ++ codeUnits defaultTitle

namespace Page

variable (p : Page)

def applyTitle (title appId : String) : Page := { p with documentTitle := tabTitle title appId }

/-- No favicon restores the default. -/
def applyFavicon (favicon : Option Favicon) : Page := { p with appFavicon := favicon }

def applyCursor : CursorUpdate → Page
  | .surface width height hotspotX hotspotY rgba => { p with
      canvasCursor := "none"
      cursorOverlay := some ⟨width, height, hotspotX, hotspotY, rgba⟩
      cursorSurfaceActive := true }
  | .named name => { p with cursorSurfaceActive := false, canvasCursor := name }
  | .hidden | .default => { p with cursorSurfaceActive := false, canvasCursor := "none" }

def setCodec (codec : String) : Page := if p.codec = codec then p else { p with codec }

/-- `onControlPayload`. -/
def onControlPayload : ServerMessage → Page
  | .bitrate bps => { p with bitrateBps := Web.jsNumber bps.toNat }
  | .codec codec => p.setCodec codec
  | .cursor cursor => p.applyCursor cursor
  | .clipboard _ => p
  | .title title appId => p.applyTitle title appId
  | .favicon favicon => p.applyFavicon favicon
  | .pointerLock locked => { p with pointerLockWanted := locked }

/-- Any message of the connection. -/
def onMessage : Emission → Page
  | .control msg => p.onControlPayload msg
  | .video _ | .audio _ | .clipboardImage _ _ => p

/-- All the messages under way. -/
def onMessages (msgs : List Emission) : Page := msgs.foldl onMessage p

/-- **The page shows a channel's value.** A number is shown as a script
has it, and a title as the tab's. -/
def Shows : (ch : Channel) → ch.Value → Prop
  | .bitrate, bps => p.bitrateBps = Web.jsNumber bps.toNat
  | .codec, codec => p.codec = codec
  | .cursor, .surface width height hotspotX hotspotY rgba => p.canvasCursor = "none" ∧
      p.cursorSurfaceActive = true ∧
      p.cursorOverlay = some ⟨width, height, hotspotX, hotspotY, rgba⟩
  | .cursor, .named name => p.canvasCursor = name ∧ p.cursorSurfaceActive = false
  | .cursor, .hidden | .cursor, .default =>
      p.canvasCursor = "none" ∧ p.cursorSurfaceActive = false
  | .appMeta, appMeta => p.documentTitle = tabTitle appMeta.title appMeta.appId
  | .clipboard, _ => True
  | .pointerLock, locked => p.pointerLockWanted = locked

end Page

/-! ## What a message touches -/

/-- The channel a message is about. -/
def about : Emission → Option Channel
  | .control (.bitrate _) => some .bitrate
  | .control (.codec _) => some .codec
  | .control (.cursor _) => some .cursor
  | .control (.clipboard _) | .clipboardImage _ _ => some .clipboard
  | .control (.title _ _) | .control (.favicon _) => some .appMeta
  | .control (.pointerLock _) => some .pointerLock
  | .video _ | .audio _ => none

namespace Page

variable {p : Page} {ch : Channel} {m : Emission} {msgs rest : List Emission}

@[simp] theorem onMessages_nil : p.onMessages [] = p := rfl

@[simp] theorem onMessages_cons : p.onMessages (m :: msgs) = (p.onMessage m).onMessages msgs := rfl

theorem onMessages_append : p.onMessages (msgs ++ rest) = (p.onMessages msgs).onMessages rest :=
  List.foldl_append

@[simp] theorem setCodec_codec (codec : String) : (p.setCodec codec).codec = codec := by
  unfold setCodec
  split
  · assumption
  · rfl

/-- The codec is all `setCodec` sets. -/
theorem setCodec_eq (codec : String) : p.setCodec codec = { p with codec } := by
  unfold setCodec
  split
  · rename_i h
    rw [← h]
  · rfl

/-- A message about one channel leaves what the page shows of the others. -/
theorem shows_onMessage (v : ch.Value) (h : about m ≠ some ch) :
    (p.onMessage m).Shows ch v ↔ p.Shows ch v := by
  cases m with
  | video packet => rfl
  | audio packet => rfl
  | clipboardImage mime bytes => rfl
  | control msg =>
    cases msg with
    | clipboard text => rfl
    | cursor cursor =>
      cases ch with
      | cursor => exact absurd rfl h
      | _ => cases cursor <;> rfl
    | codec codec =>
      rw [onMessage, onControlPayload, setCodec_eq]
      cases ch with
      | codec => exact absurd rfl h
      | cursor => cases v <;> rfl
      | _ => rfl
    | bitrate bps =>
      cases ch with
      | bitrate => exact absurd rfl h
      | cursor => cases v <;> rfl
      | _ => rfl
    | title title appId | favicon favicon =>
      cases ch with
      | appMeta => exact absurd rfl h
      | cursor => cases v <;> rfl
      | _ => rfl
    | pointerLock locked =>
      cases ch with
      | pointerLock => exact absurd rfl h
      | cursor => cases v <;> rfl
      | _ => rfl

/-- And so do any number of them. -/
theorem shows_onMessages (v : ch.Value) (h : ∀ m ∈ msgs, about m ≠ some ch) :
    (p.onMessages msgs).Shows ch v ↔ p.Shows ch v := by
  induction msgs generalizing p with
  | nil => rfl
  | cons m msgs ih =>
    rw [onMessages_cons, ih fun m' hm' => h m' (List.mem_cons_of_mem _ hm')]
    exact shows_onMessage v (h m List.mem_cons_self)

/-- **A channel's value is shown once its message is there.** -/
theorem shows_bitrate (bps : UInt64) :
    (p.onMessage (.control (.bitrate bps))).Shows .bitrate bps := rfl

theorem shows_codec (codec : String) :
    (p.onMessage (.control (.codec codec))).Shows .codec codec := setCodec_codec codec

theorem shows_cursor (cursor : CursorUpdate) :
    (p.onMessage (.control (.cursor cursor))).Shows .cursor cursor := by
  cases cursor with
  | default => exact ⟨rfl, rfl⟩
  | hidden => exact ⟨rfl, rfl⟩
  | named name => exact ⟨rfl, rfl⟩
  | surface width height hotspotX hotspotY rgba => exact ⟨rfl, rfl, rfl⟩

/-- A message that is none about a favicon leaves the icon. -/
theorem appFavicon_onMessage (h : ∀ favicon, m ≠ .control (.favicon favicon)) :
    (p.onMessage m).appFavicon = p.appFavicon := by
  cases m with
  | control msg =>
    cases msg with
    | favicon favicon => exact absurd rfl (h favicon)
    | cursor cursor => cases cursor <;> rfl
    | codec codec => rw [onMessage, onControlPayload, setCodec_eq]
    | _ => rfl
  | _ => rfl

theorem appFavicon_onMessages (h : ∀ m ∈ msgs, ∀ favicon, m ≠ .control (.favicon favicon)) :
    (p.onMessages msgs).appFavicon = p.appFavicon := by
  induction msgs generalizing p with
  | nil => rfl
  | cons m msgs ih =>
    rw [onMessages_cons, ih fun m' hm' => h m' (List.mem_cons_of_mem _ hm')]
    exact appFavicon_onMessage (h m List.mem_cons_self)

/-- A page that wants no lock goes on so, until it is told to. -/
theorem unwanted_onMessage (hp : p.pointerLockWanted = false)
    (h : m ≠ .control (.pointerLock true)) : (p.onMessage m).pointerLockWanted = false := by
  cases m with
  | control msg =>
    cases msg with
    | pointerLock locked =>
      cases locked with
      | false => rfl
      | true => exact absurd rfl h
    | cursor cursor => cases cursor <;> exact hp
    | codec codec =>
      rw [onMessage, onControlPayload, setCodec_eq]
      exact hp
    | _ => exact hp
  | _ => exact hp

theorem unwanted_onMessages (hp : p.pointerLockWanted = false)
    (h : ∀ m ∈ msgs, m ≠ .control (.pointerLock true)) :
    (p.onMessages msgs).pointerLockWanted = false := by
  induction msgs generalizing p with
  | nil => exact hp
  | cons m msgs ih =>
    exact ih (unwanted_onMessage hp (h m List.mem_cons_self))
      fun m' hm' => h m' (List.mem_cons_of_mem _ hm')

end Page

end Control

end WaylandWebStream
