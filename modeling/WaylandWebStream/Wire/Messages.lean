import WaylandWebStream.Lib.Json
import WaylandWebStream.Wire.Model

/-!
# Control messages — the server's, and the native client's copy

The server's `ServerMessage` and what its handler sends of it, from the
burst a new connection gets to the loop after it; then the native
client's own copy of the type, its `recv`, and its main loop. Both types
go through JSON by derived code, translated here; the text in between is
a `Json.TextLayer`.
-/

namespace WaylandWebStream

namespace Wire

open Json (Value)

/-! ## The server -/

/-- Cursor state pushed from the compositor. -/
inductive CursorUpdate
  | default
  | hidden
  | named (name : String)
  | surface (width height : UInt32) (hotspotX hotspotY : Int32) (rgba : String)
  deriving DecidableEq

/-- A favicon as base64 RGBA. -/
structure Favicon where
  width : UInt32
  height : UInt32
  rgba : String
  deriving DecidableEq

/-- The topmost window's title, app id and favicon. -/
structure AppMeta where
  title : String
  appId : String
  favicon : Option Favicon
  deriving DecidableEq

/-- Messages the server pushes to the client. -/
inductive ServerMessage
  | bitrate (bps : UInt64)
  | codec (codec : String)
  | cursor (cursor : CursorUpdate)
  | clipboard (text : String)
  | title (title appId : String)
  | favicon (favicon : Option Favicon)
  | pointerLock (locked : Bool)
  deriving DecidableEq

/-- An unsigned field. -/
def natValue (n : ℕ) (h : n < 2 ^ 64) : Value := .int n (by omega)

def u32Value (n : UInt32) : Value :=
  natValue n.toNat (Nat.lt_trans n.toNat_lt (by decide))

def i32Value (n : Int32) : Value :=
  .int n.toInt ⟨Int.le_trans (by decide) n.le_toInt, Int.lt_trans n.toInt_lt (by decide)⟩

/-- The derived serializer: the tag `kind` first, then the fields. -/
def CursorUpdate.toJson : CursorUpdate → Value
  | .default => .obj [("kind", .str "default")]
  | .hidden => .obj [("kind", .str "hidden")]
  | .named name => .obj [("kind", .str "named"), ("name", .str name)]
  | .surface width height hotspotX hotspotY rgba =>
    .obj [("kind", .str "surface"), ("width", u32Value width), ("height", u32Value height),
      ("hotspot_x", i32Value hotspotX), ("hotspot_y", i32Value hotspotY), ("rgba", .str rgba)]

def Favicon.toJson (f : Favicon) : Value :=
  .obj [("width", u32Value f.width), ("height", u32Value f.height), ("rgba", .str f.rgba)]

/-- The derived serializer: the tag `type` first, then the fields. -/
def ServerMessage.toJson : ServerMessage → Value
  | .bitrate bps => .obj [("type", .str "bitrate"), ("bps", natValue bps.toNat bps.toNat_lt)]
  | .codec s => .obj [("type", .str "codec"), ("codec", .str s)]
  | .cursor c => .obj [("type", .str "cursor"), ("cursor", c.toJson)]
  | .clipboard text => .obj [("type", .str "clipboard"), ("text", .str text)]
  | .title s appId => .obj [("type", .str "title"), ("title", .str s), ("app_id", .str appId)]
  | .favicon f =>
    .obj [("type", .str "favicon"), ("favicon", (f.map Favicon.toJson).getD .null)]
  | .pointerLock locked => .obj [("type", .str "pointer_lock"), ("locked", .bool locked)]

/-- What the server sends on `/client`, before it is bytes. -/
inductive Emission
  | video (packet : EncodedPacket)
  | audio (packet : AudioPacket)
  | control (msg : ServerMessage)
  | clipboardImage (mime : String) (bytes : Bytes)

def encodeUnifiedControl (json : Json.TextLayer) (msg : ServerMessage) : Bytes :=
  encodeMsg msgControl 0 (json.toVec msg.toJson)

/-- The one binary message an emission is sent as. -/
def Emission.bytes (json : Json.TextLayer) : Emission → Bytes
  | .video packet => encodeUnifiedVideoFrame packet
  | .audio packet => encodeUnifiedAudioFrame packet
  | .control msg => encodeUnifiedControl json msg
  | .clipboardImage mime bytes =>
    encodeMsg msgClipboardImage 0 (encodeClipboardImagePayload mime bytes)

/-- `send_clipboard`: empty text is the "nothing copied yet" sentinel. -/
def sendClipboard : ClipboardData → List Emission
  | .text text => if text = "" then [] else [.control (.clipboard text)]
  | .image mime bytes => [.clipboardImage mime bytes]

/-- The watch channels' values when a client connects. -/
structure Current where
  bitrate : UInt64
  codec : String
  cursor : CursorUpdate
  appMeta : AppMeta
  clipboard : ClipboardData
  pointerLock : Bool

/-- What a new connection is sent up front. -/
def connectBurst (now : Current) : List Emission :=
  [.control (.bitrate now.bitrate), .control (.codec now.codec), .control (.cursor now.cursor),
    .control (.title now.appMeta.title now.appMeta.appId)] ++
  (if now.appMeta.favicon.isSome then [.control (.favicon now.appMeta.favicon)] else []) ++
  sendClipboard now.clipboard ++
  (if now.pointerLock then [.control (.pointerLock now.pointerLock)] else [])

/-- The arms of the handler's `select!` that may send. -/
inductive HandlerEvent
  | video (packet : EncodedPacket)
  | audio (packet : AudioPacket)
  | bitrateChanged (bps : UInt64)
  | codecChanged (codec : String)
  | cursorChanged (cursor : CursorUpdate)
  | appMetaChanged (appMeta : AppMeta)
  | pointerLockChanged (locked : Bool)
  | clipboardChanged (data : ClipboardData)
  /-- A lagged receiver, a client's message, another client's takeover. -/
  | other

/-- What one turn of the loop sends, and `last_app_meta` after it. -/
def handlerTurn (lastAppMeta : AppMeta) : HandlerEvent → List Emission × AppMeta
  | .video packet => ([.video packet], lastAppMeta)
  | .audio packet => ([.audio packet], lastAppMeta)
  | .bitrateChanged bps => ([.control (.bitrate bps)], lastAppMeta)
  | .codecChanged codec => ([.control (.codec codec)], lastAppMeta)
  | .cursorChanged cursor => ([.control (.cursor cursor)], lastAppMeta)
  | .appMetaChanged appMeta =>
    ((if appMeta.title ≠ lastAppMeta.title ∨ appMeta.appId ≠ lastAppMeta.appId then
        [.control (.title appMeta.title appMeta.appId)] else []) ++
      (if appMeta.favicon ≠ lastAppMeta.favicon then
        [.control (.favicon appMeta.favicon)] else []), appMeta)
  | .pointerLockChanged locked => ([.control (.pointerLock locked)], lastAppMeta)
  | .clipboardChanged data => (sendClipboard data, lastAppMeta)
  | .other => ([], lastAppMeta)

def handlerLoop (lastAppMeta : AppMeta) : List HandlerEvent → List Emission
  | [] => []
  | e :: events => (handlerTurn lastAppMeta e).1 ++ handlerLoop (handlerTurn lastAppMeta e).2 events

/-- **Everything one connection is sent**, in order. -/
def handlerRun (now : Current) (events : List HandlerEvent) : List Emission :=
  connectBurst now ++ handlerLoop now.appMeta events

/-! ## The native client -/

namespace Native

/-- The native client's copy of `CursorUpdate`. -/
inductive CursorUpdate
  | default
  | hidden
  | named (name : String)
  | surface (width height : UInt32) (hotspotX hotspotY : Int32) (rgba : String)
  deriving DecidableEq

/-- The native client's copy of `ServerMessage`. -/
inductive ServerMessage
  | bitrate (bps : UInt64)
  | codec (codec : String)
  | cursor (cursor : CursorUpdate)
  deriving DecidableEq

def strField (fields : List (String × Value)) (name : String) : Option String :=
  match Json.field? fields name with
  | some (.str s) => some s
  | _ => none

/-- A number field in the bounds of its type. -/
def intField (fields : List (String × Value)) (name : String) (lo hi : ℤ) : Option ℤ :=
  match Json.field? fields name with
  | some (.num n) => if lo ≤ n.val ∧ n.val < hi then some n.val else none
  | _ => none

def u32Field (fields : List (String × Value)) (name : String) : Option UInt32 :=
  (intField fields name 0 (2 ^ 32)).map fun n => UInt32.ofNat n.toNat

def i32Field (fields : List (String × Value)) (name : String) : Option Int32 :=
  (intField fields name (-2 ^ 31) (2 ^ 31)).map Int32.ofInt

/-- The derived deserializer: by the tag, other fields ignored. -/
def CursorUpdate.fromJson? : Value → Option CursorUpdate
  | .obj fields => do
    let kind ← strField fields "kind"
    if kind = "default" then
      return .default
    else if kind = "hidden" then
      return .hidden
    else if kind = "named" then
      return .named (← strField fields "name")
    else if kind = "surface" then
      return .surface (← u32Field fields "width") (← u32Field fields "height")
        (← i32Field fields "hotspot_x") (← i32Field fields "hotspot_y")
        (← strField fields "rgba")
    else
      none
  | _ => none

def ServerMessage.fromJson? : Value → Option ServerMessage
  | .obj fields => do
    let type ← strField fields "type"
    if type = "bitrate" then
      return .bitrate (UInt64.ofNat (← intField fields "bps" 0 (2 ^ 64)).toNat)
    else if type = "codec" then
      return .codec (← strField fields "codec")
    else if type = "cursor" then
      return .cursor (← CursorUpdate.fromJson? (← Json.field? fields "cursor"))
    else
      none
  | _ => none

/-- Why `serde_json` refuses a payload: it is no JSON, or not the type's. -/
inductive JsonError
  | invalidJson
  | data
  deriving DecidableEq

/-- `serde_json::from_slice::<ServerMessage>`. -/
def fromSlice (json : Json.TextLayer) (payload : Bytes) : Except JsonError ServerMessage :=
  match json.fromSlice payload with
  | none => .error .invalidJson
  | some v =>
    match ServerMessage.fromJson? v with
    | none => .error .data
    | some msg => .ok msg

/-- What the WebSocket yields. -/
inductive WsItem
  | binary (data : Bytes)
  /-- Text, ping or pong. -/
  | noise
  | close
  /-- The stream failed. -/
  | err
  /-- The stream is over. -/
  | eof

/-- Why the main loop ended. -/
inductive Exit
  /-- The server closed the connection, or the stream is over. -/
  | closed
  | transport
  /-- A message was refused. -/
  | refused (e : FrameError JsonError)
  | panicked

/-- One turn of `recv`: `none` where it goes round for another item. -/
def recvItem (json : Json.TextLayer) : WsItem → Option (Except Exit (Frame ServerMessage))
  | .err => some (.error .transport)
  | .eof => some (.error .closed)
  | .close => some (.error .closed)
  | .noise => none
  | .binary data =>
    match parseFrame (fromSlice json) data with
    | none => some (.error .panicked)
    | some (.error e) => some (.error (.refused e))
    | some (.ok frame) => some (.ok frame)

/-- The `recv` arm of the main loop over what the socket yields: any
error ends the loop, a frame is handled and the loop goes on. `none`
where it is still waiting. -/
def mainLoop (json : Json.TextLayer) : List WsItem → Option Exit
  | [] => none
  | item :: items =>
    match recvItem json item with
    | some (.error reason) => some reason
    | _ => mainLoop json items

/-- The WebSocket library's limit on one frame. -/
def maxFrameSize : ℕ := 16 * 1024 * 1024

/-- What the socket yields for a message: past the limit, a failure. -/
def deliver (data : Bytes) : WsItem := if data.length ≤ maxFrameSize then .binary data else .err

end Native

end Wire

end WaylandWebStream
