import WaylandWebStream.Lib.Bytes
import WaylandWebStream.Lib.Utf8

/-!
# The binary wire format — its three implementations

The `/client` WebSocket carries framed messages: an 8-byte header (type,
flags, two reserved bytes, the payload's length little-endian) and the
payload, whose own fields are big-endian but for the clipboard's nested
length. The server, the web client and the native client each have their
own code for it, translated here one after the other.

On the Rust side a range outside its slice is a panic: `Checked` is a
computation that may end so, `none` when it does. On the web side it is
an exception like the ones the parsers throw themselves.
-/

namespace WaylandWebStream

namespace Wire

/-! ## Constants, shared by hand -/

def msgVideoFrame : UInt8 := 0x01
def msgAudioFrame : UInt8 := 0x02
def msgControl : UInt8 := 0x03
def msgClipboardImage : UInt8 := 0x04
def msgClientMsg : UInt8 := 0x10
def msgClientClipboardImage : UInt8 := 0x11

def flagKeyframe : UInt8 := 0b0000_0001
def flagHasPing : UInt8 := 0b0000_0010

def headerLen : ℕ := 8

/-- `clipboard::MAX_CLIPBOARD_BYTES`. -/
def maxClipboardBytes : ℕ := 8 * 1024 * 1024

/-- `audio::OPUS_MAX_PACKET`, the buffer an Opus packet is encoded into. -/
def opusMaxPacket : ℕ := 4096

/-! ## Values on the wire -/

/-- An `f64`, as its bits. -/
structure F64 where
  bits : UInt64
  deriving DecidableEq

namespace F64

def zero : F64 := ⟨0⟩

def toBeBytes (x : F64) : Bytes := Bytes.be 8 x.bits.toNat

def fromBeBytes (bs : Bytes) : F64 := ⟨UInt64.ofNat (Bytes.beNat bs)⟩

/-- All-ones exponent and a mantissa that is not zero. -/
def isNaN (x : F64) : Bool :=
  x.bits.toNat / 2 ^ 52 % 2 ^ 11 = 2 ^ 11 - 1 ∧ x.bits.toNat % 2 ^ 52 ≠ 0

end F64

/-- What the encoder hands to `/client` of a packet. -/
structure EncodedPacket where
  data : Bytes
  isKeyframe : Bool
  frameId : UInt32
  captureToEncodeMs : F64
  pingEchoClientTs : Option F64
  /-- The data is copied out of an `AVPacket`, whose size is a C `int`. -/
  size_lt : data.length < 2 ^ 31

/-- One encoded 20 ms audio frame. -/
structure AudioPacket where
  data : Bytes
  ptsUs : UInt64
  /-- The data is cut from a buffer of `OPUS_MAX_PACKET` bytes. -/
  size_le : data.length ≤ opusMaxPacket

/-- A clipboard payload flowing through the bridge in either direction. -/
inductive ClipboardData
  | text (text : String)
  | image (mime : String) (bytes : Bytes)
  deriving DecidableEq

/-! ## The server -/

/-- A Rust computation, `none` where it panics on a range out of bounds. -/
abbrev Checked (α : Type) := Option α

/-- The slice `data[a..b]`. -/
def index (data : Bytes) (a b : ℕ) : Checked Bytes := data.range a b

def encodeMsg (msgType flags : UInt8) (payload : Bytes) : Bytes :=
  [msgType, flags, 0, 0] ++ Bytes.le 4 payload.length ++ payload

def decodeHeader (h : Bytes) : Checked (UInt8 × UInt8 × ℕ) := do
  return (← h[0]?, ← h[1]?, Bytes.leNat (← index h 4 8))

/-- `mime_len as u16` keeps the low 16 bits. -/
def encodeClipboardImagePayload (mime : String) (image : Bytes) : Bytes :=
  Bytes.le 2 (Utf8.encode mime).length ++ Utf8.encode mime ++ image

/-- `None` is the inner one: truncated, or a mime that is not UTF-8. -/
def parseClipboardImagePayload (payload : Bytes) : Checked (Option (String × Bytes)) := do
  if payload.length < 2 then
    return none
  let mimeLen := Bytes.leNat (← index payload 0 2)
  let rest ← index payload 2 payload.length
  if rest.length < mimeLen then
    return none
  let mimeBytes ← index rest 0 mimeLen
  let image ← index rest mimeLen rest.length
  return (Utf8.decode? mimeBytes).map fun mime => (mime, image)

def encodeUnifiedVideoFrame (packet : EncodedPacket) : Bytes :=
  let flags := (if packet.isKeyframe then flagKeyframe else 0) |||
    (if packet.pingEchoClientTs.isSome then flagHasPing else 0)
  let payloadLen := 20 + packet.data.length
  let pingVal := packet.pingEchoClientTs.getD F64.zero
  [msgVideoFrame, flags, 0, 0] ++ Bytes.le 4 payloadLen ++ Bytes.be 4 packet.frameId.toNat ++
    pingVal.toBeBytes ++ packet.captureToEncodeMs.toBeBytes ++ packet.data

def encodeUnifiedAudioFrame (packet : AudioPacket) : Bytes :=
  let payloadLen := 8 + packet.data.length
  [msgAudioFrame, 0, 0, 0] ++ Bytes.le 4 payloadLen ++ Bytes.be 8 packet.ptsUs.toNat ++ packet.data

/-- The first range is `data.get(..)?`, which is no panic. -/
def parseClientClipboardImage (data : Bytes) : Checked (Option ClipboardData) := do
  match data.range 0 headerLen with
  | none => return none
  | some header =>
    let (msgType, _flags, payloadLen) ← decodeHeader header
    if msgType ≠ msgClientClipboardImage then
      return none
    match data.range headerLen (headerLen + payloadLen) with
    | none => return none
    | some payload =>
      if payload.length > maxClipboardBytes then
        return none
      let parsed ← parseClipboardImagePayload payload
      return parsed.map fun (mime, bytes) => .image mime bytes

/-- `usize` is 64 bits wide. -/
def checkedAdd (a b : ℕ) : Option ℕ := if a + b < 2 ^ 64 then some (a + b) else none

/-- `parse_client_message`, over the JSON parser that `fromSlice` is; a
malformed frame is `none`, the `Err(())` of the source. -/
def parseClientMessage {M : Type} (fromSlice : Bytes → Option M) (data : Bytes) :
    Checked (Option M) := do
  if data.length < headerLen then
    return none
  let header ← index data 0 headerLen
  let (msgType, _flags, payloadLen) ← decodeHeader header
  if msgType ≠ msgClientMsg then
    return none
  match checkedAdd headerLen payloadLen with
  | none => return none
  | some endPos =>
    if data.length < endPos then
      return none
    return fromSlice (← index data headerLen endPos)

/-! ## The native client -/

namespace Native

/-- One decoded message from the server, `M` its control messages. -/
inductive Frame (M : Type)
  | videoFrame (isKeyframe : Bool) (frameId : UInt32) (pingEcho captureToEncodeMs : F64)
      (data : Bytes)
  | audioFrame (ptsUs : UInt64) (data : Bytes)
  | control (msg : M)
  deriving DecidableEq

/-- Why a frame was not parsed, `ε` the JSON parser's errors. -/
inductive FrameError (ε : Type)
  | closed
  | badHeader (reason : String)
  | unknownType (msgType : UInt8)
  | json (e : ε)
  deriving DecidableEq

variable {M ε : Type}

/-- `parse_frame`, over the JSON parser that `fromSlice` is. -/
def parseFrame (fromSlice : Bytes → Except ε M) (data : Bytes) :
    Checked (Except (FrameError ε) (Frame M)) := do
  if data.length < headerLen then
    return .error (.badHeader ("frame too short: " ++ toString data.length ++ " bytes"))
  let header ← index data 0 headerLen
  let (msgType, flags, payloadLen) ← decodeHeader header
  match checkedAdd headerLen payloadLen with
  | none => return .error (.badHeader "payload_len overflow")
  | some endPos =>
    if data.length < endPos then
      return .error (.badHeader ("payload truncated: header says " ++ toString payloadLen ++
        " bytes, frame has " ++ toString (data.length - headerLen)))
    let payload ← index data headerLen endPos
    if msgType = msgVideoFrame then
      if payload.length < 20 then
        return .error (.badHeader ("video payload too short: " ++ toString payload.length ++
          " bytes (need >= 20)"))
      let frameId := UInt32.ofNat (Bytes.beNat (← index payload 0 4))
      let pingBytes ← index payload 4 12
      let pingEcho := if flags &&& flagHasPing ≠ 0 then F64.fromBeBytes pingBytes else F64.zero
      let captureToEncodeMs := F64.fromBeBytes (← index payload 12 20)
      let h264 ← index payload 20 payload.length
      return .ok (.videoFrame (flags &&& flagKeyframe ≠ 0) frameId pingEcho captureToEncodeMs h264)
    else if msgType = msgAudioFrame then
      if payload.length < 8 then
        return .error (.badHeader ("audio payload too short: " ++ toString payload.length ++
          " bytes (need >= 8)"))
      let ptsUs := UInt64.ofNat (Bytes.beNat (← index payload 0 8))
      let opus ← index payload 8 payload.length
      return .ok (.audioFrame ptsUs opus)
    else if msgType = msgControl then
      match fromSlice payload with
      | .ok msg => return .ok (.control msg)
      | .error e => return .error (.json e)
    else
      return .error (.unknownType msgType)

end Native

/-! ## The web client -/

namespace Web

/-- What a parser throws: its own message, or a view's range error. -/
inductive JsError
  | error (message : String)
  | rangeError
  deriving DecidableEq

/-- A `DataView` or `Uint8Array` over part of an `ArrayBuffer`. -/
structure View where
  buf : Bytes
  byteOffset : ℕ
  byteLength : ℕ
  /-- There is no view past the end of its buffer. -/
  inside : byteOffset + byteLength ≤ buf.length

namespace View

/-- The constructor throws where the view would not be inside. -/
def new (buf : Bytes) (byteOffset byteLength : ℕ) : Except JsError View :=
  if h : byteOffset + byteLength ≤ buf.length then .ok ⟨buf, byteOffset, byteLength, h⟩
  else .error .rangeError

/-- What the view shows. -/
def bytes (v : View) : Bytes := (v.buf.drop v.byteOffset).take v.byteLength

/-- `n` bytes at offset `i` of the view; a getter past its end throws. -/
def get (v : View) (i n : ℕ) : Except JsError Bytes :=
  if i + n ≤ v.byteLength then .ok ((v.bytes.drop i).take n) else .error .rangeError

def getUint8 (v : View) (i : ℕ) : Except JsError ℕ := (v.get i 1).map Bytes.leNat

def getUint16LE (v : View) (i : ℕ) : Except JsError ℕ := (v.get i 2).map Bytes.leNat

def getUint32LE (v : View) (i : ℕ) : Except JsError ℕ := (v.get i 4).map Bytes.leNat

def getUint32BE (v : View) (i : ℕ) : Except JsError ℕ := (v.get i 4).map Bytes.beNat

end View

/-- JavaScript has one NaN: reading any of them is that one. -/
def jsFloat (x : F64) : F64 := if x.isNaN then ⟨0x7FF8000000000000⟩ else x

def View.getFloat64BE (v : View) (i : ℕ) : Except JsError F64 :=
  (v.get i 8).map fun bs => jsFloat (F64.fromBeBytes bs)

/-- The double nearest a natural number below `2 ^ 1024`, ties to even:
53 bits are kept. -/
def jsNumber (n : ℕ) : ℕ :=
  if n < 2 ^ 53 then n
  else
    let ulp := 2 ^ (n.log2 - 52)
    let down := n / ulp
    let tie := 2 * (n % ulp)
    (if ulp < tie ∨ tie = ulp ∧ down % 2 = 1 then down + 1 else down) * ulp

/-- `new TextDecoder().decode`: malformed pieces are replaced and a
leading byte-order mark is dropped. -/
def textDecode (bs : Bytes) : String :=
  match (Utf8.decodeLossy bs).toList with
  | [] => ""
  | c :: cs => String.ofList (if c = Char.ofNat 0xFEFF then cs else c :: cs)

structure UnifiedHeader where
  msgType : ℕ
  flags : ℕ
  payloadLen : ℕ

def parseUnifiedHeader (buf : Bytes) : Except JsError UnifiedHeader := do
  if buf.length < headerLen then
    throw (.error ("unified frame too short: " ++ toString buf.length ++ " bytes (need >= " ++
      toString headerLen ++ ")"))
  let view ← View.new buf 0 buf.length
  return { msgType := ← view.getUint8 0, flags := ← view.getUint8 1,
           payloadLen := ← view.getUint32LE 4 }

def encodeUnifiedFrame (msgType flags : UInt8) (payload : Bytes) : Bytes :=
  [msgType, flags] ++ Bytes.le 2 0 ++ Bytes.le 4 payload.length ++ payload

def encodeClipboardImageMessage (mime : String) (bytes : Bytes) : Bytes :=
  let mimeBytes := Utf8.encode mime
  encodeUnifiedFrame msgClientClipboardImage 0 (Bytes.le 2 mimeBytes.length ++ mimeBytes ++ bytes)

structure ClipboardImage where
  mime : String
  bytes : View

def parseClipboardImage (payload : Bytes) : Except JsError ClipboardImage := do
  if payload.length < 2 then
    throw (.error "clipboard image payload too short")
  let view ← View.new payload 0 payload.length
  let mimeLen ← view.getUint16LE 0
  if payload.length < 2 + mimeLen then
    throw (.error "clipboard image mime truncated")
  let mime := textDecode (← View.new payload 2 mimeLen).bytes
  let bytes ← View.new payload (2 + mimeLen) (payload.length - (2 + mimeLen))
  return { mime, bytes }

structure VideoFramePayload where
  isKeyframe : Bool
  pingEchoClientTs : Option F64
  /-- A view over the received buffer. -/
  data : View

def parseVideoFramePayload (buf : Bytes) (flags byteOffset byteLength : ℕ) :
    Except JsError VideoFramePayload := do
  if byteLength < 20 then
    throw (.error ("MSG_VIDEO_FRAME payload too short: " ++ toString byteLength ++ " (need >= 20)"))
  let view ← View.new buf byteOffset byteLength
  let isKeyframe : Bool := flags &&& flagKeyframe.toNat ≠ 0
  let hasPing : Bool := flags &&& flagHasPing.toNat ≠ 0
  let pingRaw ← view.getFloat64BE 4
  return { isKeyframe, pingEchoClientTs := if hasPing then some pingRaw else none,
           data := ← View.new buf (byteOffset + 20) (byteLength - 20) }

structure AudioFramePayload where
  ptsUs : ℕ
  data : View

/-- Both operations on the halves round to a double. -/
def parseAudioFramePayload (buf : Bytes) (byteOffset byteLength : ℕ) :
    Except JsError AudioFramePayload := do
  if byteLength < 8 then
    throw (.error ("MSG_AUDIO_FRAME payload too short: " ++ toString byteLength ++ " (need >= 8)"))
  let view ← View.new buf byteOffset byteLength
  let high ← view.getUint32BE 0
  let low ← view.getUint32BE 4
  return { ptsUs := jsNumber (jsNumber (high * 2 ^ 32) + low),
           data := ← View.new buf (byteOffset + 8) (byteLength - 8) }

/-- The callbacks a page has installed on its connection. -/
structure Callbacks where
  onVideoFrame : Bool
  onAudioFrame : Bool
  onClipboardImage : Bool

/-- What a received frame is handed on as. -/
inductive Event
  | video (f : VideoFramePayload)
  | audio (f : AudioFramePayload)
  | clipboardImage (c : ClipboardImage)
  /-- The text `onControlPayload` gives to `JSON.parse`. -/
  | control (json : String)

/-- `onUnifiedFrame`: what a frame is handed on as, `none` where it is
ignored. Whatever is thrown is caught, logged, and the frame dropped. -/
def onUnifiedFrame (cb : Callbacks) (buf : Bytes) : Except JsError (Option Event) := do
  let header ← parseUnifiedHeader buf
  let totalLen := 8 + header.payloadLen
  if totalLen > buf.length then
    throw (.error ("Truncated unified frame: header claims " ++ toString header.payloadLen ++
      " payload bytes, have " ++ toString (buf.length - 8)))
  if header.msgType = msgVideoFrame.toNat then
    if !cb.onVideoFrame then return none
    return some (.video (← parseVideoFramePayload buf header.flags 8 header.payloadLen))
  else if header.msgType = msgAudioFrame.toNat then
    if !cb.onAudioFrame then return none
    return some (.audio (← parseAudioFramePayload buf 8 header.payloadLen))
  else if header.msgType = msgControl.toNat then
    return some (.control (textDecode (← View.new buf 8 header.payloadLen).bytes))
  else if header.msgType = msgClipboardImage.toNat then
    if !cb.onClipboardImage then return none
    return some (.clipboardImage (← parseClipboardImage ((buf.take totalLen).drop 8)))
  else
    return none

end Web

end Wire

end WaylandWebStream
