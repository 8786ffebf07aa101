import WaylandWebStream.Wire.Model

/-!
# The wire round trip

What each of the three parsers makes of any byte string, and from it
what it makes of what the other side encoded. The parsers share one
notion of a frame that is all there (`Complete`): on such a frame every
range they take is inside it, on any other they report an error of their
own, and only the type's fixed sub-header decides beyond that (`Carries`).
-/

namespace WaylandWebStream

namespace Wire

/-! ## A frame that is all there -/

def typeByte (data : Bytes) : UInt8 := data.headD 0

def flagsByte (data : Bytes) : UInt8 := data.tail.headD 0

/-- The payload's length as the header declares it. -/
def declaredLen (data : Bytes) : ℕ := Bytes.leNat ((data.drop 4).take 4)

/-- The bytes the header declares as the payload. -/
def payload (data : Bytes) : Bytes := (data.drop headerLen).take (declaredLen data)

/-- The header and the payload it declares are there. -/
structure Complete (data : Bytes) : Prop where
  header : headerLen ≤ data.length
  payload : headerLen + declaredLen data ≤ data.length

/-- **A frame of type `t`, all there**, with the sub-header its type asks
of the payload. -/
structure Carries (data : Bytes) (t : UInt8) (subHeader : Bytes → Prop) : Prop where
  complete : Complete data
  type : typeByte data = t
  subHeader : subHeader (payload data)

/-- Frame id, ping echo and capture-to-encode time. -/
def VideoSubHeader (p : Bytes) : Prop := 20 ≤ p.length

/-- The presentation timestamp. -/
def AudioSubHeader (p : Bytes) : Prop := 8 ≤ p.length

/-- The bytes of a clipboard payload's mime. -/
def mimeBytes (p : Bytes) : Bytes := (p.drop 2).take (Bytes.leNat (p.take 2))

/-- The mime's length, and the mime. -/
def ImageSubHeader (p : Bytes) : Prop := 2 + Bytes.leNat (p.take 2) ≤ p.length

instance (p : Bytes) : Decidable (ImageSubHeader p) := inferInstanceAs (Decidable (_ ≤ _))

variable {data : Bytes}

theorem declaredLen_lt (data : Bytes) : declaredLen data < 2 ^ 32 := by
  have hle : ((data.drop 4).take 4).length ≤ 4 := List.length_take_le _ _
  exact Nat.lt_of_lt_of_le (Bytes.leNat_lt _) (Nat.pow_le_pow_right (by omega) hle)

theorem length_payload (h : Complete data) : (payload data).length = declaredLen data := by
  have hpayload := h.payload
  simp only [payload, List.length_take, List.length_drop]
  omega

/-! ### What an encoder writes is all there -/

section Encode

variable {t f : UInt8} {p : Bytes}

@[simp] theorem typeByte_encodeMsg : typeByte (encodeMsg t f p) = t := rfl

@[simp] theorem flagsByte_encodeMsg : flagsByte (encodeMsg t f p) = f := rfl

theorem declaredLen_encodeMsg (hp : p.length < 2 ^ 32) :
    declaredLen (encodeMsg t f p) = p.length := by
  have htake : ((encodeMsg t f p).drop 4).take 4 = Bytes.le 4 p.length :=
    List.take_left' (Bytes.length_le 4 p.length)
  rw [declaredLen, htake, Bytes.leNat_le_of_lt hp]

/-- **The payload written is the payload read**, where its length fits
the header's field. -/
theorem payload_encodeMsg (hp : p.length < 2 ^ 32) : payload (encodeMsg t f p) = p := by
  have hdrop : (encodeMsg t f p).drop headerLen = p :=
    List.drop_left' (by simp [headerLen])
  rw [payload, hdrop, declaredLen_encodeMsg hp, List.take_length]

theorem complete_encodeMsg (hp : p.length < 2 ^ 32) : Complete (encodeMsg t f p) := by
  have hlen : (encodeMsg t f p).length = headerLen + p.length := by
    simp [encodeMsg, headerLen]
    omega
  exact ⟨by omega, by rw [declaredLen_encodeMsg hp]; omega⟩

/-- **Both sides frame alike**, as the web client's comment asks. -/
theorem encodeUnifiedFrame_eq (t f : UInt8) (p : Bytes) :
    Web.encodeUnifiedFrame t f p = encodeMsg t f p := rfl

end Encode

/-- The flags of a video frame. -/
def videoFlags (packet : EncodedPacket) : UInt8 :=
  (if packet.isKeyframe then flagKeyframe else 0) |||
    (if packet.pingEchoClientTs.isSome then flagHasPing else 0)

/-- The payload of a video frame. -/
def videoPayload (packet : EncodedPacket) : Bytes :=
  Bytes.be 4 packet.frameId.toNat ++ (packet.pingEchoClientTs.getD F64.zero).toBeBytes ++
    packet.captureToEncodeMs.toBeBytes ++ packet.data

@[simp] theorem length_toBeBytes (x : F64) : x.toBeBytes.length = 8 := Bytes.length_be 8 _

@[simp] theorem fromBeBytes_toBeBytes (x : F64) : F64.fromBeBytes x.toBeBytes = x := by
  have hx : x.bits.toNat < 256 ^ 8 := x.bits.toNat_lt
  simp [F64.fromBeBytes, F64.toBeBytes, Bytes.beNat_be_of_lt hx]

theorem length_videoPayload (packet : EncodedPacket) :
    (videoPayload packet).length = 20 + packet.data.length := by
  simp [videoPayload]
  omega

theorem take_videoPayload (packet : EncodedPacket) :
    (videoPayload packet).take 4 = Bytes.be 4 packet.frameId.toNat := by
  simp [videoPayload]

theorem ping_videoPayload (packet : EncodedPacket) :
    ((videoPayload packet).take 12).drop 4 =
      (packet.pingEchoClientTs.getD F64.zero).toBeBytes := by
  simp [videoPayload, List.take_append]

theorem capture_videoPayload (packet : EncodedPacket) :
    ((videoPayload packet).take 20).drop 12 = packet.captureToEncodeMs.toBeBytes := by
  simp [videoPayload, List.take_append, List.drop_append]

theorem drop_videoPayload (packet : EncodedPacket) :
    (videoPayload packet).drop 20 = packet.data :=
  List.drop_left' (by simp)

/-- A packet's payload fits the header's length field. -/
theorem videoPayload_fits (packet : EncodedPacket) : (videoPayload packet).length < 2 ^ 32 := by
  have hsize := packet.size_lt
  rw [length_videoPayload]
  omega

/-- The payload of an audio frame. -/
def audioPayload (packet : AudioPacket) : Bytes := Bytes.be 8 packet.ptsUs.toNat ++ packet.data

theorem length_audioPayload (packet : AudioPacket) :
    (audioPayload packet).length = 8 + packet.data.length := by
  simp [audioPayload]

theorem take_audioPayload (packet : AudioPacket) :
    (audioPayload packet).take 8 = Bytes.be 8 packet.ptsUs.toNat :=
  List.take_left' (Bytes.length_be 8 _)

theorem drop_audioPayload (packet : AudioPacket) : (audioPayload packet).drop 8 = packet.data :=
  List.drop_left' (Bytes.length_be 8 _)

theorem audioPayload_fits (packet : AudioPacket) : (audioPayload packet).length < 2 ^ 32 := by
  have hsize : packet.data.length ≤ 4096 := packet.size_le
  rw [length_audioPayload]
  omega

/-- The video encoder's own framing is the shared one. -/
theorem encodeUnifiedVideoFrame_eq (packet : EncodedPacket) :
    encodeUnifiedVideoFrame packet =
      encodeMsg msgVideoFrame (videoFlags packet) (videoPayload packet) := by
  rw [encodeMsg, length_videoPayload]
  simp [encodeUnifiedVideoFrame, videoFlags, videoPayload]

theorem encodeUnifiedAudioFrame_eq (packet : AudioPacket) :
    encodeUnifiedAudioFrame packet =
      encodeMsg msgAudioFrame 0 (audioPayload packet) := by
  rw [encodeMsg, length_audioPayload]
  simp [encodeUnifiedAudioFrame, audioPayload]

theorem keyframe_videoFlags (packet : EncodedPacket) :
    videoFlags packet &&& flagKeyframe ≠ 0 ↔ packet.isKeyframe := by
  unfold videoFlags
  cases packet.isKeyframe <;> cases packet.pingEchoClientTs.isSome <;> decide

theorem hasPing_videoFlags (packet : EncodedPacket) :
    videoFlags packet &&& flagHasPing ≠ 0 ↔ packet.pingEchoClientTs.isSome := by
  unfold videoFlags
  cases packet.isKeyframe <;> cases packet.pingEchoClientTs.isSome <;> decide

/-! ### The header, as each side reads it -/

theorem index_eq {a b : ℕ} (hab : a ≤ b) (hb : b ≤ data.length) :
    index data a b = some ((data.take b).drop a) := by
  simp [index, Bytes.range, hab, hb]

theorem decodeHeader_take (h : headerLen ≤ data.length) :
    decodeHeader (data.take headerLen) =
      some (typeByte data, flagsByte data, declaredLen data) := by
  match data, h with
  | t :: f :: r :: s :: a :: b :: c :: d :: body, _ =>
    simp [decodeHeader, headerLen, index, Bytes.range, typeByte, flagsByte, declaredLen]

theorem index_header (h : headerLen ≤ data.length) :
    index data 0 headerLen = some (data.take headerLen) := by
  rw [index_eq (Nat.zero_le _) h, List.drop_zero]

theorem index_payload (h : Complete data) :
    index data headerLen (headerLen + declaredLen data) = some (payload data) := by
  rw [index_eq (Nat.le_add_right _ _) h.payload, payload, List.take_drop, Nat.add_comm]

/-- `usize` holds every end a header can declare. -/
theorem checkedAdd_declaredLen (data : Bytes) :
    checkedAdd headerLen (declaredLen data) = some (headerLen + declaredLen data) := by
  have hlt := declaredLen_lt data
  rw [checkedAdd, if_pos]
  simp only [headerLen]
  omega

/-! ## The native client -/

namespace Native

variable {M ε : Type} (fromSlice : Bytes → Except ε M)

/-- A frame that is not all there is reported as such. -/
theorem parseFrame_incomplete (h : ¬ Complete data) :
    ∃ reason, parseFrame fromSlice data = some (.error (.badHeader reason)) := by
  unfold parseFrame
  by_cases hlen : data.length < headerLen
  · exact ⟨_, if_pos hlen⟩
  · have hheader : headerLen ≤ data.length := Nat.not_lt.1 hlen
    have hend : data.length < headerLen + declaredLen data := by
      by_contra hend
      exact h ⟨hheader, Nat.not_lt.1 hend⟩
    simp only [hlen, if_false, index_header hheader, decodeHeader_take hheader,
      checkedAdd_declaredLen, hend, if_true, Option.bind_eq_bind, Option.bind_some]
    exact ⟨_, rfl⟩

/-- What a complete frame is parsed as, by its type and flags: no range
is left to check. -/
def readPayload (t f : UInt8) (p : Bytes) : Except (FrameError ε) (Frame M) :=
  if t = msgVideoFrame then
    if p.length < 20 then
      .error (.badHeader ("video payload too short: " ++ toString p.length ++
        " bytes (need >= 20)"))
    else
      .ok (.videoFrame (f &&& flagKeyframe ≠ 0) (UInt32.ofNat (Bytes.beNat (p.take 4)))
        (if f &&& flagHasPing ≠ 0 then F64.fromBeBytes ((p.take 12).drop 4) else F64.zero)
        (F64.fromBeBytes ((p.take 20).drop 12)) (p.drop 20))
  else if t = msgAudioFrame then
    if p.length < 8 then
      .error (.badHeader ("audio payload too short: " ++ toString p.length ++
        " bytes (need >= 8)"))
    else
      .ok (.audioFrame (UInt64.ofNat (Bytes.beNat (p.take 8))) (p.drop 8))
  else if t = msgControl then
    match fromSlice p with
    | .ok msg => .ok (.control msg)
    | .error e => .error (.json e)
  else
    .error (.unknownType t)

/-- **A complete frame is read without a panic.** -/
theorem parseFrame_complete (h : Complete data) : parseFrame fromSlice data =
    some (readPayload fromSlice (typeByte data) (flagsByte data) (payload data)) := by
  have hlen : ¬ data.length < headerLen := Nat.not_lt.2 h.header
  have hend : ¬ data.length < headerLen + declaredLen data := Nat.not_lt.2 h.payload
  unfold parseFrame readPayload
  simp only [hlen, if_false, index_header h.header, decodeHeader_take h.header,
    checkedAdd_declaredLen, hend, index_payload h, Option.bind_eq_bind, Option.bind_some]
  generalize payload data = p
  split
  · by_cases hp : p.length < 20
    · rw [if_pos hp, if_pos hp]
      rfl
    · rw [if_neg hp, if_neg hp, index_eq (Nat.zero_le 4) (by omega),
        index_eq (by omega) (by omega), index_eq (by omega) (by omega),
        index_eq (by omega) (Nat.le_refl _), List.take_length]
      rfl
  split
  · by_cases hp : p.length < 8
    · rw [if_pos hp, if_pos hp]
      rfl
    · rw [if_neg hp, if_neg hp, index_eq (Nat.zero_le 8) (by omega),
        index_eq (by omega) (Nat.le_refl _), List.take_length]
      rfl
  split
  · cases fromSlice p <;> rfl
  · rfl

/-- **No byte string makes the parser panic.** -/
theorem parseFrame_isSome (data : Bytes) : (parseFrame fromSlice data).isSome := by
  by_cases h : Complete data
  · rw [parseFrame_complete fromSlice h]
    rfl
  · obtain ⟨reason, hreason⟩ := parseFrame_incomplete fromSlice h
    rw [hreason]
    rfl

variable {fromSlice}

/-- What is accepted is complete, and accepted for its payload. -/
theorem complete_of_parseFrame {r : Frame M} (h : parseFrame fromSlice data = some (.ok r)) :
    Complete data ∧ readPayload fromSlice (typeByte data) (flagsByte data) (payload data) = .ok r := by
  by_cases hc : Complete data
  · rw [parseFrame_complete fromSlice hc, Option.some.injEq] at h
    exact ⟨hc, h⟩
  · obtain ⟨reason, hreason⟩ := parseFrame_incomplete fromSlice hc
    rw [hreason] at h
    cases h

theorem type_of_readPayload {t f : UInt8} {p : Bytes} {r : Frame M}
    (h : readPayload fromSlice t f p = .ok r) :
    match r with
    | .videoFrame .. => t = msgVideoFrame ∧ 20 ≤ p.length
    | .audioFrame .. => t = msgAudioFrame ∧ 8 ≤ p.length
    | .control msg => t = msgControl ∧ fromSlice p = .ok msg := by
  unfold readPayload at h
  by_cases hv : t = msgVideoFrame
  · rw [if_pos hv] at h
    by_cases hp : p.length < 20
    · rw [if_pos hp] at h
      cases h
    · rw [if_neg hp] at h
      cases h
      exact ⟨hv, Nat.not_lt.1 hp⟩
  rw [if_neg hv] at h
  by_cases ha : t = msgAudioFrame
  · rw [if_pos ha] at h
    by_cases hp : p.length < 8
    · rw [if_pos hp] at h
      cases h
    · rw [if_neg hp] at h
      cases h
      exact ⟨ha, Nat.not_lt.1 hp⟩
  rw [if_neg ha] at h
  by_cases hc : t = msgControl
  · rw [if_pos hc] at h
    cases hm : fromSlice p with
    | ok msg =>
      rw [hm] at h
      cases h
      exact ⟨hc, rfl⟩
    | error e =>
      rw [hm] at h
      cases h
  · rw [if_neg hc] at h
    cases h

/-- A video frame is accepted exactly when it is all there. -/
theorem accepts_video : (∃ k id ping cap h264,
    parseFrame fromSlice data = some (.ok (.videoFrame k id ping cap h264))) ↔
      Carries data msgVideoFrame VideoSubHeader := by
  constructor
  · rintro ⟨k, id, ping, cap, h264, h⟩
    obtain ⟨hc, hr⟩ := complete_of_parseFrame h
    obtain ⟨ht, hp⟩ := type_of_readPayload hr
    exact ⟨hc, ht, hp⟩
  · rintro ⟨hc, ht, hp⟩
    have hp' : ¬ (payload data).length < 20 := Nat.not_lt.2 hp
    rw [parseFrame_complete fromSlice hc, readPayload, if_pos ht, if_neg hp']
    exact ⟨_, _, _, _, _, rfl⟩

/-- So is an audio frame. -/
theorem accepts_audio : (∃ pts opus,
    parseFrame fromSlice data = some (.ok (.audioFrame pts opus))) ↔
      Carries data msgAudioFrame AudioSubHeader := by
  constructor
  · rintro ⟨pts, opus, h⟩
    obtain ⟨hc, hr⟩ := complete_of_parseFrame h
    obtain ⟨ht, hp⟩ := type_of_readPayload hr
    exact ⟨hc, ht, hp⟩
  · rintro ⟨hc, ht, hp⟩
    have hp' : ¬ (payload data).length < 8 := Nat.not_lt.2 hp
    have hv : typeByte data ≠ msgVideoFrame := by rw [ht]; decide
    rw [parseFrame_complete fromSlice hc, readPayload, if_neg hv, if_pos ht, if_neg hp']
    exact ⟨_, _, rfl⟩

variable (fromSlice)

/-- **A video packet survives**, its frame id and times included. -/
theorem parseFrame_video (packet : EncodedPacket) :
    parseFrame fromSlice (encodeUnifiedVideoFrame packet) =
      some (.ok (.videoFrame packet.isKeyframe packet.frameId
        (packet.pingEchoClientTs.getD F64.zero) packet.captureToEncodeMs packet.data)) := by
  have hid : packet.frameId.toNat < 256 ^ 4 := packet.frameId.toNat_lt
  have hshort : ¬ (videoPayload packet).length < 20 := by
    rw [length_videoPayload]
    omega
  rw [encodeUnifiedVideoFrame_eq,
    parseFrame_complete fromSlice (complete_encodeMsg (videoPayload_fits packet)),
    typeByte_encodeMsg, flagsByte_encodeMsg, payload_encodeMsg (videoPayload_fits packet),
    readPayload, if_pos rfl, if_neg hshort, take_videoPayload, ping_videoPayload,
    capture_videoPayload, drop_videoPayload, Bytes.beNat_be_of_lt hid, fromBeBytes_toBeBytes,
    fromBeBytes_toBeBytes, UInt32.ofNat_toNat]
  simp only [keyframe_videoFlags, hasPing_videoFlags, Bool.decide_eq_true]
  cases packet.pingEchoClientTs <;> rfl

/-- **An audio packet survives**, at every timestamp. -/
theorem parseFrame_audio (packet : AudioPacket) :
    parseFrame fromSlice (encodeUnifiedAudioFrame packet) =
      some (.ok (.audioFrame packet.ptsUs packet.data)) := by
  have hpts : packet.ptsUs.toNat < 256 ^ 8 := packet.ptsUs.toNat_lt
  have hshort : ¬ (audioPayload packet).length < 8 := by
    rw [length_audioPayload]
    omega
  rw [encodeUnifiedAudioFrame_eq,
    parseFrame_complete fromSlice (complete_encodeMsg (audioPayload_fits packet)),
    typeByte_encodeMsg, flagsByte_encodeMsg, payload_encodeMsg (audioPayload_fits packet),
    readPayload, if_neg (by decide), if_pos rfl, if_neg hshort, take_audioPayload,
    drop_audioPayload, Bytes.beNat_be_of_lt hpts, UInt64.ofNat_toNat]

end Native

/-! ## The server -/

/-- A clipboard payload is parsed without a panic: `None` unless its mime
is all there and is UTF-8. -/
theorem parseClipboardImagePayload_eq (p : Bytes) : parseClipboardImagePayload p =
    some (if 2 + Bytes.leNat (p.take 2) ≤ p.length then
      (Utf8.decode? (mimeBytes p)).map fun mime => (mime, p.drop (2 + Bytes.leNat (p.take 2)))
    else none) := by
  unfold parseClipboardImagePayload
  by_cases hlen : p.length < 2
  · rw [if_pos hlen, if_neg (by omega)]
    rfl
  · have hlo : index p 0 2 = some (p.take 2) := by
      rw [index_eq (Nat.zero_le _) (Nat.not_lt.1 hlen), List.drop_zero]
    have hrest : index p 2 p.length = some (p.drop 2) := by
      rw [index_eq (Nat.not_lt.1 hlen) (Nat.le_refl _), List.take_length]
    simp only [hlen, if_false, hlo, hrest, Option.bind_eq_bind, Option.bind_some]
    by_cases hmime : (p.drop 2).length < Bytes.leNat (p.take 2)
    · have hmime' : ¬ 2 + Bytes.leNat (p.take 2) ≤ p.length := by
        rw [List.length_drop] at hmime
        omega
      rw [if_pos hmime, if_neg hmime']
      rfl
    · have hmime' : 2 + Bytes.leNat (p.take 2) ≤ p.length := by
        rw [List.length_drop] at hmime
        omega
      rw [if_neg hmime, if_pos hmime', index_eq (Nat.zero_le _) (Nat.not_lt.1 hmime),
        index_eq (Nat.not_lt.1 hmime) (Nat.le_refl _), List.take_length, List.drop_drop,
        List.drop_zero]
      rfl

/-- What a client's frame is parsed as when it is complete. -/
theorem parseClientClipboardImage_complete (h : Complete data)
    (ht : typeByte data = msgClientClipboardImage) : parseClientClipboardImage data =
    some (if (payload data).length ≤ maxClipboardBytes ∧ ImageSubHeader (payload data) then
      (Utf8.decode? (mimeBytes (payload data))).map fun mime =>
        .image mime ((payload data).drop (2 + Bytes.leNat ((payload data).take 2)))
    else none) := by
  have hheader : data.range 0 headerLen = some (data.take headerLen) := index_header h.header
  have hpayload : data.range headerLen (headerLen + declaredLen data) = some (payload data) :=
    index_payload h
  unfold parseClientClipboardImage ImageSubHeader
  simp only [hheader, decodeHeader_take h.header, ht, ne_eq, not_true_eq_false, if_false, hpayload,
    Option.bind_eq_bind, Option.bind_some, parseClipboardImagePayload_eq]
  by_cases hsize : (payload data).length > maxClipboardBytes
  · rw [if_pos hsize, if_neg (by omega)]
    rfl
  · rw [if_neg hsize]
    by_cases hmime : 2 + Bytes.leNat ((payload data).take 2) ≤ (payload data).length
    · rw [if_pos hmime, if_pos ⟨Nat.not_lt.1 hsize, hmime⟩]
      cases Utf8.decode? (mimeBytes (payload data)) <;> rfl
    · rw [if_neg hmime, if_neg fun hand => hmime hand.2]
      rfl

/-- What is not complete, or of another type, is no clipboard image. -/
theorem parseClientClipboardImage_other
    (h : ¬ (Complete data ∧ typeByte data = msgClientClipboardImage)) :
    parseClientClipboardImage data = some none := by
  unfold parseClientClipboardImage
  by_cases hlen : headerLen ≤ data.length
  · have hheader : data.range 0 headerLen = some (data.take headerLen) := index_header hlen
    simp only [hheader, decodeHeader_take hlen, Option.bind_eq_bind, Option.bind_some]
    by_cases ht : typeByte data = msgClientClipboardImage
    · have hend : data.range headerLen (headerLen + declaredLen data) = none := by
        rw [Bytes.range, if_neg]
        exact fun hin => h ⟨⟨hlen, hin.2⟩, ht⟩
      simp only [ht, ne_eq, not_true_eq_false, if_false, hend]
      rfl
    · rw [if_pos ht]
      rfl
  · have hheader : data.range 0 headerLen = none := by
      rw [Bytes.range, if_neg fun hin => hlen hin.2]
    rw [hheader]
    rfl

theorem parseClientClipboardImage_isSome (data : Bytes) :
    (parseClientClipboardImage data).isSome := by
  by_cases h : Complete data ∧ typeByte data = msgClientClipboardImage
  · rw [parseClientClipboardImage_complete h.1 h.2]
    rfl
  · rw [parseClientClipboardImage_other h]
    rfl

/-- **A clipboard image is accepted** exactly when it is all there, is
not over the limit, and its mime is UTF-8. -/
theorem accepts_client_image : (∃ c, parseClientClipboardImage data = some (some c)) ↔
    Carries data msgClientClipboardImage ImageSubHeader ∧
      (payload data).length ≤ maxClipboardBytes ∧
      ∃ mime, mimeBytes (payload data) = Utf8.encode mime := by
  constructor
  · rintro ⟨c, h⟩
    by_cases hc : Complete data ∧ typeByte data = msgClientClipboardImage
    · rw [parseClientClipboardImage_complete hc.1 hc.2, Option.some.injEq] at h
      by_cases hp : (payload data).length ≤ maxClipboardBytes ∧ ImageSubHeader (payload data)
      · rw [if_pos hp, Option.map_eq_some_iff] at h
        obtain ⟨mime, hmime, -⟩ := h
        exact ⟨⟨hc.1, hc.2, hp.2⟩, hp.1, mime, Utf8.decode?_eq_some.1 hmime⟩
      · rw [if_neg hp] at h
        cases h
    · rw [parseClientClipboardImage_other hc] at h
      cases h
  · rintro ⟨⟨hc, ht, hp⟩, hsize, mime, hmime⟩
    rw [parseClientClipboardImage_complete hc ht, if_pos ⟨hsize, hp⟩, hmime, Utf8.decode?_encode]
    exact ⟨_, rfl⟩

/-- **A client message never makes its parser panic**, whatever the JSON
parser makes of its payload. -/
theorem parseClientMessage_isSome {M : Type} (fromSlice : Bytes → Option M) (data : Bytes) :
    (parseClientMessage fromSlice data).isSome := by
  unfold parseClientMessage
  by_cases hlen : data.length < headerLen
  · rw [if_pos hlen]
    rfl
  have hheader : headerLen ≤ data.length := Nat.not_lt.1 hlen
  simp only [hlen, if_false, index_header hheader, decodeHeader_take hheader,
    checkedAdd_declaredLen, Option.bind_eq_bind, Option.bind_some]
  split
  · rfl
  by_cases hend : data.length < headerLen + declaredLen data
  · rw [if_pos hend]
    rfl
  · rw [if_neg hend, index_payload (Complete.mk hheader (Nat.not_lt.1 hend))]
    rfl

section Image

variable {mime : String} {bytes : Bytes}

/-- The three parts of a clipboard payload, read back. -/
theorem mimeLen_imagePayload (hmime : (Utf8.encode mime).length < 2 ^ 16) :
    Bytes.leNat ((encodeClipboardImagePayload mime bytes).take 2) = (Utf8.encode mime).length := by
  have htake : (encodeClipboardImagePayload mime bytes).take 2 =
      Bytes.le 2 (Utf8.encode mime).length := by
    rw [encodeClipboardImagePayload, List.append_assoc, List.take_left' (Bytes.length_le 2 _)]
  rw [htake, Bytes.leNat_le_of_lt hmime]

theorem mimeBytes_imagePayload (hmime : (Utf8.encode mime).length < 2 ^ 16) :
    mimeBytes (encodeClipboardImagePayload mime bytes) = Utf8.encode mime := by
  rw [mimeBytes, mimeLen_imagePayload hmime, encodeClipboardImagePayload, List.append_assoc,
    List.drop_left' (Bytes.length_le 2 _), List.take_left' rfl]

theorem drop_imagePayload : (encodeClipboardImagePayload mime bytes).drop
    (2 + (Utf8.encode mime).length) = bytes :=
  List.drop_left' (by simp)

theorem length_imagePayload : (encodeClipboardImagePayload mime bytes).length =
    2 + (Utf8.encode mime).length + bytes.length := by
  rw [encodeClipboardImagePayload, List.length_append, List.length_append, Bytes.length_le]

/-- **A clipboard image survives from the web client to the server.** -/
theorem parseClientClipboardImage_encode (hmime : (Utf8.encode mime).length < 2 ^ 16)
    (hsize : 2 + (Utf8.encode mime).length + bytes.length ≤ maxClipboardBytes) :
    parseClientClipboardImage (Web.encodeClipboardImageMessage mime bytes) =
      some (some (.image mime bytes)) := by
  have hmsg : Web.encodeClipboardImageMessage mime bytes =
      encodeMsg msgClientClipboardImage 0 (encodeClipboardImagePayload mime bytes) := rfl
  have hfits : (encodeClipboardImagePayload mime bytes).length < 2 ^ 32 := by
    rw [length_imagePayload]
    exact Nat.lt_of_le_of_lt hsize (by decide)
  have hsub : ImageSubHeader (encodeClipboardImagePayload mime bytes) := by
    rw [ImageSubHeader, mimeLen_imagePayload hmime, length_imagePayload]
    omega
  rw [hmsg, parseClientClipboardImage_complete (complete_encodeMsg hfits) typeByte_encodeMsg,
    payload_encodeMsg hfits, if_pos ⟨by rw [length_imagePayload]; exact hsize, hsub⟩,
    mimeBytes_imagePayload hmime, mimeLen_imagePayload hmime, drop_imagePayload,
    Utf8.decode?_encode]
  rfl

end Image

/-! ## The web client -/

namespace Web

variable {buf : Bytes} {cb : Callbacks}

/-! ### Views -/

theorem View.new_eq {o n : ℕ} (h : o + n ≤ buf.length) : View.new buf o n = .ok ⟨buf, o, n, h⟩ :=
  dif_pos h

theorem View.get_eq {v : View} {i n : ℕ} (h : i + n ≤ v.byteLength) :
    v.get i n = .ok ((v.bytes.drop i).take n) := if_pos h

theorem payload_le (h : Complete buf) : 8 + declaredLen buf ≤ buf.length := h.payload

theorem rest_le {k : ℕ} (h : Complete buf) (hk : k ≤ declaredLen buf) :
    8 + k + (declaredLen buf - k) ≤ buf.length := by
  have hle := payload_le h
  omega

/-- The view the client takes of a complete frame's payload shows it. -/
theorem bytes_payload (h : Complete buf) :
    (View.mk buf 8 (declaredLen buf) (payload_le h)).bytes = payload buf := rfl

/-- A view `k` bytes into the payload shows the rest of it. -/
theorem bytes_rest {k : ℕ} (hin : 8 + k + (declaredLen buf - k) ≤ buf.length) :
    (View.mk buf (8 + k) (declaredLen buf - k) hin).bytes = (payload buf).drop k := by
  rw [View.bytes, payload, List.drop_take, List.drop_drop]
  rfl

/-! ### The parsers on any frame -/

theorem parseUnifiedHeader_eq (h : headerLen ≤ buf.length) : parseUnifiedHeader buf =
    .ok ⟨(typeByte buf).toNat, (flagsByte buf).toNat, declaredLen buf⟩ := by
  match buf, h with
  | t :: f :: r :: s :: a :: b :: c :: d :: body, _ =>
    simp [parseUnifiedHeader, headerLen, View.new, View.getUint8, View.getUint32LE, View.get,
      View.bytes, typeByte, flagsByte, declaredLen, Bytes.leNat, Except.map, bind, Except.bind, pure,
      Except.pure]

/-- **A frame that is not all there is reported as such**, by no view's
range error. -/
theorem onUnifiedFrame_incomplete (cb : Callbacks) (h : ¬ Complete buf) :
    ∃ message, onUnifiedFrame cb buf = .error (.error message) := by
  unfold onUnifiedFrame
  by_cases hlen : headerLen ≤ buf.length
  · have hend : 8 + declaredLen buf > buf.length := by
      by_contra hend
      exact h ⟨hlen, Nat.not_lt.1 hend⟩
    simp only [parseUnifiedHeader_eq hlen, bind, Except.bind, hend, if_true]
    exact ⟨_, rfl⟩
  · unfold parseUnifiedHeader
    rw [if_pos (Nat.not_le.1 hlen)]
    exact ⟨_, rfl⟩

theorem parseVideoFramePayload_eq (f : ℕ) (h : Complete buf) (hp : 20 ≤ declaredLen buf) :
    parseVideoFramePayload buf f 8 (declaredLen buf) = .ok
      { isKeyframe := f &&& flagKeyframe.toNat ≠ 0
        pingEchoClientTs := if f &&& flagHasPing.toNat ≠ 0 then
          some (jsFloat (F64.fromBeBytes (((payload buf).drop 4).take 8))) else none
        data := ⟨buf, 8 + 20, declaredLen buf - 20, rest_le h hp⟩ } := by
  have hping : (View.mk buf 8 (declaredLen buf) (payload_le h)).getFloat64BE 4 =
      .ok (jsFloat (F64.fromBeBytes (((payload buf).drop 4).take 8))) := by
    rw [View.getFloat64BE, View.get_eq (show 4 + 8 ≤ declaredLen buf by omega), bytes_payload h]
    rfl
  unfold parseVideoFramePayload
  simp only [Nat.not_lt.2 hp, if_false, View.new_eq (payload_le h), View.new_eq (rest_le h hp), hping,
    bind, Except.bind, pure, Except.pure, decide_eq_true_eq]

theorem parseAudioFramePayload_eq (h : Complete buf) (hp : 8 ≤ declaredLen buf) :
    parseAudioFramePayload buf 8 (declaredLen buf) = .ok
      { ptsUs := jsNumber (jsNumber (Bytes.beNat ((payload buf).take 4) * 2 ^ 32) +
          Bytes.beNat (((payload buf).drop 4).take 4))
        data := ⟨buf, 8 + 8, declaredLen buf - 8, rest_le h hp⟩ } := by
  have hhigh : (View.mk buf 8 (declaredLen buf) (payload_le h)).getUint32BE 0 =
      .ok (Bytes.beNat ((payload buf).take 4)) := by
    rw [View.getUint32BE, View.get_eq (show 0 + 4 ≤ declaredLen buf by omega), bytes_payload h]
    rfl
  have hlow : (View.mk buf 8 (declaredLen buf) (payload_le h)).getUint32BE 4 =
      .ok (Bytes.beNat (((payload buf).drop 4).take 4)) := by
    rw [View.getUint32BE, View.get_eq (show 4 + 4 ≤ declaredLen buf by omega), bytes_payload h]
    rfl
  unfold parseAudioFramePayload
  simp only [Nat.not_lt.2 hp, if_false, View.new_eq (payload_le h), View.new_eq (rest_le h hp),
    hhigh, hlow, bind, Except.bind, pure, Except.pure]

theorem parseClipboardImage_eq {p : Bytes} (hp : ImageSubHeader p) : ∃ c,
    parseClipboardImage p = .ok c ∧ c.mime = textDecode (mimeBytes p) ∧
      c.bytes.bytes = p.drop (2 + Bytes.leNat (p.take 2)) := by
  unfold ImageSubHeader at hp
  have hlen : ¬ p.length < 2 := by omega
  have hmimeLen : (View.mk p 0 p.length (by omega)).getUint16LE 0 =
      .ok (Bytes.leNat (p.take 2)) := by
    rw [View.getUint16LE, View.get_eq (show 0 + 2 ≤ p.length by omega)]
    simp [View.bytes, Except.map]
  unfold parseClipboardImage
  simp only [hlen, if_false, View.new_eq (show 0 + p.length ≤ p.length by omega), hmimeLen,
    Nat.not_lt.2 hp, View.new_eq hp, View.new_eq (show 2 + Bytes.leNat (p.take 2) +
      (p.length - (2 + Bytes.leNat (p.take 2))) ≤ p.length by omega), bind, Except.bind, pure,
    Except.pure]
  refine ⟨_, rfl, rfl, ?_⟩
  rw [View.bytes, List.take_of_length_le]
  rw [List.length_drop]

variable (buf) in
/-- The parsers report a payload that is too short in their own words. -/
theorem parseVideoFramePayload_short (f o : ℕ) {n : ℕ} (hn : n < 20) :
    ∃ message, parseVideoFramePayload buf f o n = .error (.error message) := by
  unfold parseVideoFramePayload
  rw [if_pos hn]
  exact ⟨_, rfl⟩

variable (buf) in
theorem parseAudioFramePayload_short (o : ℕ) {n : ℕ} (hn : n < 8) :
    ∃ message, parseAudioFramePayload buf o n = .error (.error message) := by
  unfold parseAudioFramePayload
  rw [if_pos hn]
  exact ⟨_, rfl⟩

theorem parseClipboardImage_short {p : Bytes} (hp : ¬ ImageSubHeader p) :
    ∃ message, parseClipboardImage p = .error (.error message) := by
  unfold ImageSubHeader at hp
  unfold parseClipboardImage
  by_cases hlen : p.length < 2
  · rw [if_pos hlen]
    exact ⟨_, rfl⟩
  · have hmimeLen : (View.mk p 0 p.length (by omega)).getUint16LE 0 =
        .ok (Bytes.leNat (p.take 2)) := by
      rw [View.getUint16LE, View.get_eq (show 0 + 2 ≤ p.length by omega)]
      simp [View.bytes, Except.map]
    simp only [hlen, if_false, View.new_eq (show 0 + p.length ≤ p.length by omega), hmimeLen,
      Nat.not_le.1 hp, if_true, bind, Except.bind]
    exact ⟨_, rfl⟩

/-- **What a complete frame is handed on as**, by its type. -/
theorem onUnifiedFrame_complete (cb : Callbacks) (h : Complete buf) : onUnifiedFrame cb buf =
    if typeByte buf = msgVideoFrame then
      if cb.onVideoFrame then (parseVideoFramePayload buf (flagsByte buf).toNat 8
        (declaredLen buf)).map fun f => some (.video f) else .ok none
    else if typeByte buf = msgAudioFrame then
      if cb.onAudioFrame then (parseAudioFramePayload buf 8 (declaredLen buf)).map fun f =>
        some (.audio f) else .ok none
    else if typeByte buf = msgControl then .ok (some (.control (textDecode (payload buf))))
    else if typeByte buf = msgClipboardImage then
      if cb.onClipboardImage then (parseClipboardImage (payload buf)).map fun c =>
        some (.clipboardImage c) else .ok none
    else .ok none := by
  have hend : ¬ 8 + declaredLen buf > buf.length := Nat.not_lt.2 (payload_le h)
  have hslice : (buf.take (8 + declaredLen buf)).drop 8 = payload buf := by
    rw [payload, List.take_drop, headerLen, Nat.add_comm]
  unfold onUnifiedFrame
  simp only [parseUnifiedHeader_eq h.header, hend, if_false, UInt8.toNat_inj, hslice,
    View.new_eq (payload_le h), bytes_payload h, bind, Except.bind, pure, Except.pure]
  split
  · cases cb.onVideoFrame
    · rfl
    · cases parseVideoFramePayload buf (flagsByte buf).toNat 8 (declaredLen buf) <;> rfl
  split
  · cases cb.onAudioFrame
    · rfl
    · cases parseAudioFramePayload buf 8 (declaredLen buf) <;> rfl
  split
  · rfl
  split
  · cases cb.onClipboardImage
    · rfl
    · cases parseClipboardImage (payload buf) <;> rfl
  · rfl

/-- What an event says of the frame it came from. -/
theorem type_of_onUnifiedFrame {e : Event} (h : Complete buf)
    (he : onUnifiedFrame cb buf = .ok (some e)) :
    match e with
    | .video f => cb.onVideoFrame ∧ typeByte buf = msgVideoFrame ∧
        parseVideoFramePayload buf (flagsByte buf).toNat 8 (declaredLen buf) = .ok f
    | .audio f => cb.onAudioFrame ∧ typeByte buf = msgAudioFrame ∧
        parseAudioFramePayload buf 8 (declaredLen buf) = .ok f
    | .clipboardImage c => cb.onClipboardImage ∧ typeByte buf = msgClipboardImage ∧
        parseClipboardImage (payload buf) = .ok c
    | .control _ => typeByte buf = msgControl := by
  rw [onUnifiedFrame_complete cb h] at he
  split at he
  · rename_i ht
    split at he
    · rename_i hcb
      cases hf : parseVideoFramePayload buf (flagsByte buf).toNat 8 (declaredLen buf) with
      | error err => rw [hf] at he; cases he
      | ok f => rw [hf] at he; cases he; exact ⟨hcb, ht, rfl⟩
    · cases he
  split at he
  · rename_i ht
    split at he
    · rename_i hcb
      cases hf : parseAudioFramePayload buf 8 (declaredLen buf) with
      | error err => rw [hf] at he; cases he
      | ok f => rw [hf] at he; cases he; exact ⟨hcb, ht, rfl⟩
    · cases he
  split at he
  · rename_i ht
    cases he
    exact ht
  split at he
  · rename_i ht
    split at he
    · rename_i hcb
      cases hc : parseClipboardImage (payload buf) with
      | error err => rw [hc] at he; cases he
      | ok c => rw [hc] at he; cases he; exact ⟨hcb, ht, rfl⟩
    · cases he
  · cases he

/-- What is handed on is complete. -/
theorem complete_of_onUnifiedFrame {e : Option Event} (he : onUnifiedFrame cb buf = .ok e) :
    Complete buf := by
  by_contra h
  obtain ⟨message, hm⟩ := onUnifiedFrame_incomplete cb h
  rw [hm] at he
  cases he

/-- **No byte string makes a view reach past its end.** -/
theorem onUnifiedFrame_ne_rangeError (cb : Callbacks) (buf : Bytes) :
    onUnifiedFrame cb buf ≠ .error .rangeError := by
  by_cases h : Complete buf
  · rw [onUnifiedFrame_complete cb h]
    -- each parser asks for its header's length before it makes a view of it
    have hvideo : (parseVideoFramePayload buf (flagsByte buf).toNat 8 (declaredLen buf)) ≠
        .error .rangeError := by
      by_cases hp : 20 ≤ declaredLen buf
      · rw [parseVideoFramePayload_eq _ h hp]
        nofun
      · obtain ⟨message, hm⟩ := parseVideoFramePayload_short buf
          (flagsByte buf).toNat 8 (Nat.not_le.1 hp)
        rw [hm]
        nofun
    have haudio : (parseAudioFramePayload buf 8 (declaredLen buf)) ≠ .error .rangeError := by
      by_cases hp : 8 ≤ declaredLen buf
      · rw [parseAudioFramePayload_eq h hp]
        nofun
      · obtain ⟨message, hm⟩ := parseAudioFramePayload_short buf 8
          (Nat.not_le.1 hp)
        rw [hm]
        nofun
    have himage : (parseClipboardImage (payload buf)) ≠ .error .rangeError := by
      by_cases hp : ImageSubHeader (payload buf)
      · obtain ⟨c, hc, -⟩ := parseClipboardImage_eq hp
        rw [hc]
        nofun
      · obtain ⟨message, hm⟩ := parseClipboardImage_short hp
        rw [hm]
        nofun
    have hmap : ∀ {α : Type} {r : Except JsError α} {g : α → Option Event},
        r ≠ .error .rangeError → r.map g ≠ .error .rangeError := by
      intro α r g hr
      cases r with
      | ok a => nofun
      | error err => exact fun heq => hr (by cases heq; rfl)
    split
    · split
      · exact hmap hvideo
      · nofun
    split
    · split
      · exact hmap haudio
      · nofun
    split
    · nofun
    split
    · split
      · exact hmap himage
      · nofun
    · nofun
  · obtain ⟨message, hm⟩ := onUnifiedFrame_incomplete cb h
    rw [hm]
    nofun

/-- A video frame is handed on exactly when it is all there, and shows
what follows its sub-header. -/
theorem accepts_video : (∃ f, onUnifiedFrame cb buf = .ok (some (.video f))) ↔
    cb.onVideoFrame ∧ Carries buf msgVideoFrame VideoSubHeader := by
  constructor
  · rintro ⟨f, hf⟩
    have h := complete_of_onUnifiedFrame hf
    obtain ⟨hcb, ht, hparse⟩ := type_of_onUnifiedFrame h hf
    refine ⟨hcb, h, ht, ?_⟩
    by_contra hp
    rw [VideoSubHeader, length_payload h] at hp
    obtain ⟨message, hm⟩ := parseVideoFramePayload_short buf
      (flagsByte buf).toNat 8 (Nat.not_le.1 hp)
    rw [hm] at hparse
    cases hparse
  · rintro ⟨hcb, h, ht, hp⟩
    rw [VideoSubHeader, length_payload h] at hp
    rw [onUnifiedFrame_complete cb h, if_pos ht, if_pos hcb, parseVideoFramePayload_eq _ h hp]
    exact ⟨_, rfl⟩

theorem accepts_audio : (∃ f, onUnifiedFrame cb buf = .ok (some (.audio f))) ↔
    cb.onAudioFrame ∧ Carries buf msgAudioFrame AudioSubHeader := by
  constructor
  · rintro ⟨f, hf⟩
    have h := complete_of_onUnifiedFrame hf
    obtain ⟨hcb, ht, hparse⟩ := type_of_onUnifiedFrame h hf
    refine ⟨hcb, h, ht, ?_⟩
    by_contra hp
    rw [AudioSubHeader, length_payload h] at hp
    obtain ⟨message, hm⟩ := parseAudioFramePayload_short buf 8 (Nat.not_le.1 hp)
    rw [hm] at hparse
    cases hparse
  · rintro ⟨hcb, h, ht, hp⟩
    rw [AudioSubHeader, length_payload h] at hp
    have hv : typeByte buf ≠ msgVideoFrame := by rw [ht]; decide
    rw [onUnifiedFrame_complete cb h, if_neg hv, if_pos ht, if_pos hcb,
      parseAudioFramePayload_eq h hp]
    exact ⟨_, rfl⟩

theorem accepts_image : (∃ c, onUnifiedFrame cb buf = .ok (some (.clipboardImage c))) ↔
    cb.onClipboardImage ∧ Carries buf msgClipboardImage ImageSubHeader := by
  constructor
  · rintro ⟨c, hc⟩
    have h := complete_of_onUnifiedFrame hc
    obtain ⟨hcb, ht, hparse⟩ := type_of_onUnifiedFrame h hc
    refine ⟨hcb, h, ht, ?_⟩
    by_contra hp
    obtain ⟨message, hm⟩ := parseClipboardImage_short hp
    rw [hm] at hparse
    cases hparse
  · rintro ⟨hcb, h, ht, hp⟩
    obtain ⟨c, hc, -⟩ := parseClipboardImage_eq hp
    rw [onUnifiedFrame_complete cb h, ht, if_neg (by decide), if_neg (by decide),
      if_neg (by decide), if_pos rfl, if_pos hcb, hc]
    exact ⟨_, rfl⟩

/-! ### What the server encodes -/

/-- The flags as numbers mask like the flags as bytes. -/
theorem toNat_and_ne_zero (x y : UInt8) : x.toNat &&& y.toNat ≠ 0 ↔ x &&& y ≠ 0 := by
  rw [← UInt8.toNat_and, ne_eq, ne_eq, ← UInt8.toNat_inj]
  rfl

theorem jsNumber_of_lt {n : ℕ} (h : n < 2 ^ 53) : jsNumber n = n := if_pos h

theorem textDecode_encode {s : String} (h : s.toList.head? ≠ some (Char.ofNat 0xFEFF)) :
    textDecode (Utf8.encode s) = s := by
  unfold textDecode
  rw [Utf8.decodeLossy_encode]
  cases hs : s.toList with
  | nil => exact (String.toList_inj.1 (by rw [hs]; rfl)).symm
  | cons c cs =>
    have hc : c ≠ Char.ofNat 0xFEFF := by
      rintro rfl
      exact h (by rw [hs]; rfl)
    show String.ofList (if c = Char.ofNat 0xFEFF then cs else c :: cs) = s
    rw [if_neg hc, ← hs, String.ofList_toList]

/-- **A video packet survives.** The ping echo is there exactly when the
packet had one. -/
theorem onUnifiedFrame_video (packet : EncodedPacket) (hcb : cb.onVideoFrame) :
    ∃ f, onUnifiedFrame cb (encodeUnifiedVideoFrame packet) = .ok (some (.video f)) ∧
      f.isKeyframe = packet.isKeyframe ∧
      f.pingEchoClientTs = packet.pingEchoClientTs.map jsFloat ∧ f.data.bytes = packet.data := by
  have hfits := videoPayload_fits packet
  have h : Complete (encodeMsg msgVideoFrame (videoFlags packet) (videoPayload packet)) :=
    complete_encodeMsg hfits
  have hp : 20 ≤ declaredLen (encodeMsg msgVideoFrame (videoFlags packet) (videoPayload packet)) := by
    rw [declaredLen_encodeMsg hfits, length_videoPayload]
    omega
  have hping : ((videoPayload packet).drop 4).take 8 =
      (packet.pingEchoClientTs.getD F64.zero).toBeBytes := by
    rw [← ping_videoPayload packet, List.drop_take]
  rw [encodeUnifiedVideoFrame_eq, onUnifiedFrame_complete cb h, typeByte_encodeMsg, if_pos rfl,
    if_pos hcb, parseVideoFramePayload_eq _ h hp, flagsByte_encodeMsg]
  refine ⟨_, rfl, ?_, ?_, ?_⟩
  · simp only [toNat_and_ne_zero, keyframe_videoFlags, Bool.decide_eq_true]
  · rw [payload_encodeMsg hfits, hping, fromBeBytes_toBeBytes]
    simp only [toNat_and_ne_zero, hasPing_videoFlags]
    cases packet.pingEchoClientTs <;> rfl
  · rw [bytes_rest, payload_encodeMsg hfits, drop_videoPayload]

/-- **An audio packet survives**, its timestamp as far as a double counts
every integer. -/
theorem onUnifiedFrame_audio (packet : AudioPacket) (hcb : cb.onAudioFrame)
    (hpts : packet.ptsUs.toNat < 2 ^ 53) :
    ∃ f, onUnifiedFrame cb (encodeUnifiedAudioFrame packet) = .ok (some (.audio f)) ∧
      f.ptsUs = packet.ptsUs.toNat ∧ f.data.bytes = packet.data := by
  have hfits := audioPayload_fits packet
  have h : Complete (encodeMsg msgAudioFrame 0 (audioPayload packet)) := complete_encodeMsg hfits
  have hp : 8 ≤ declaredLen (encodeMsg msgAudioFrame 0 (audioPayload packet)) := by
    rw [declaredLen_encodeMsg hfits, length_audioPayload]
    omega
  have hhalves : Bytes.beNat ((audioPayload packet).take 4) * 2 ^ 32 +
      Bytes.beNat (((audioPayload packet).drop 4).take 4) = packet.ptsUs.toNat := by
    have happend := Bytes.beNat_append ((audioPayload packet).take 4)
      (((audioPayload packet).drop 4).take 4)
    have hlow : (((audioPayload packet).drop 4).take 4).length = 4 := by
      rw [List.length_take, List.length_drop, length_audioPayload]
      omega
    rw [← List.take_add, take_audioPayload, Bytes.beNat_be_of_lt packet.ptsUs.toNat_lt, hlow]
      at happend
    exact happend.symm
  rw [encodeUnifiedAudioFrame_eq, onUnifiedFrame_complete cb h, typeByte_encodeMsg,
    if_neg (by decide), if_pos rfl, if_pos hcb, parseAudioFramePayload_eq h hp,
    payload_encodeMsg hfits]
  refine ⟨_, rfl, ?_, ?_⟩
  · -- neither the shifted half nor the sum is rounded
    have hhigh : Bytes.beNat ((audioPayload packet).take 4) * 2 ^ 32 < 2 ^ 53 := by omega
    dsimp only
    rw [jsNumber_of_lt hhigh, hhalves, jsNumber_of_lt hpts]
  · rw [bytes_rest, payload_encodeMsg hfits, drop_audioPayload]

/-- **A clipboard image survives from the server to the web client**, but
for a mime that starts with a byte-order mark. -/
theorem onUnifiedFrame_image {mime : String} {bytes : Bytes} (hcb : cb.onClipboardImage)
    (hmime : (Utf8.encode mime).length < 2 ^ 16) (hbom : mime.toList.head? ≠ some (Char.ofNat 0xFEFF))
    (hbytes : bytes.length ≤ maxClipboardBytes) :
    ∃ c, onUnifiedFrame cb (encodeMsg msgClipboardImage 0
        (encodeClipboardImagePayload mime bytes)) = .ok (some (.clipboardImage c)) ∧
      c.mime = mime ∧ c.bytes.bytes = bytes := by
  have hfits : (encodeClipboardImagePayload mime bytes).length < 2 ^ 32 := by
    rw [length_imagePayload]
    simp only [maxClipboardBytes] at hbytes
    omega
  have hsub : ImageSubHeader (encodeClipboardImagePayload mime bytes) := by
    rw [ImageSubHeader, mimeLen_imagePayload hmime, length_imagePayload]
    omega
  obtain ⟨c, hc, hcmime, hcbytes⟩ := parseClipboardImage_eq hsub
  rw [mimeBytes_imagePayload hmime, textDecode_encode hbom] at hcmime
  rw [mimeLen_imagePayload hmime, drop_imagePayload] at hcbytes
  rw [onUnifiedFrame_complete cb (complete_encodeMsg hfits), typeByte_encodeMsg,
    if_neg (by decide), if_neg (by decide), if_neg (by decide), if_pos rfl, if_pos hcb,
    payload_encodeMsg hfits, hc]
  exact ⟨c, rfl, hcmime, hcbytes⟩

end Web

/-! ## The law -/

/-- **What the three implementations owe each other**, whatever the JSON
parsers are: `fromSlice` the native client's for a control message,
`fromSliceClient` the server's for a client's. -/
structure WireLaw {M ε N : Type} (fromSlice : Bytes → Except ε M)
    (fromSliceClient : Bytes → Option N) : Prop where
  /-- Server to web, video. -/
  video_web : ∀ (cb : Web.Callbacks) (packet : EncodedPacket), cb.onVideoFrame →
    ∃ f, Web.onUnifiedFrame cb (encodeUnifiedVideoFrame packet) = .ok (some (.video f)) ∧
      f.isKeyframe = packet.isKeyframe ∧
      f.pingEchoClientTs = packet.pingEchoClientTs.map Web.jsFloat ∧ f.data.bytes = packet.data
  /-- Server to web, audio. -/
  audio_web : ∀ (cb : Web.Callbacks) (packet : AudioPacket), cb.onAudioFrame →
    packet.ptsUs.toNat < 2 ^ 53 →
    ∃ f, Web.onUnifiedFrame cb (encodeUnifiedAudioFrame packet) = .ok (some (.audio f)) ∧
      f.ptsUs = packet.ptsUs.toNat ∧ f.data.bytes = packet.data
  /-- Server to native, video. -/
  video_native : ∀ packet : EncodedPacket,
    Native.parseFrame fromSlice (encodeUnifiedVideoFrame packet) =
      some (.ok (.videoFrame packet.isKeyframe packet.frameId
        (packet.pingEchoClientTs.getD F64.zero) packet.captureToEncodeMs packet.data))
  /-- Server to native, audio. -/
  audio_native : ∀ packet : AudioPacket,
    Native.parseFrame fromSlice (encodeUnifiedAudioFrame packet) =
      some (.ok (.audioFrame packet.ptsUs packet.data))
  /-- Web to server, clipboard images. -/
  image_server : ∀ (mime : String) (bytes : Bytes), (Utf8.encode mime).length < 65536 →
    2 + (Utf8.encode mime).length + bytes.length ≤ maxClipboardBytes →
    parseClientClipboardImage (Web.encodeClipboardImageMessage mime bytes) =
      some (some (.image mime bytes))
  /-- Server to web, clipboard images. -/
  image_web : ∀ (cb : Web.Callbacks) (mime : String) (bytes : Bytes), cb.onClipboardImage →
    (Utf8.encode mime).length < 65536 → mime.toList.head? ≠ some (Char.ofNat 0xFEFF) →
    bytes.length ≤ maxClipboardBytes →
    ∃ c, Web.onUnifiedFrame cb (encodeMsg msgClipboardImage 0
        (encodeClipboardImagePayload mime bytes)) = .ok (some (.clipboardImage c)) ∧
      c.mime = mime ∧ c.bytes.bytes = bytes
  /-- No Rust parser panics on any byte string. -/
  inside_rust : ∀ data : Bytes, (Native.parseFrame fromSlice data).isSome ∧
    (parseClientClipboardImage data).isSome ∧ (parseClientMessage fromSliceClient data).isSome
  /-- No web parser is stopped by a view's range error. -/
  inside_web : ∀ (cb : Web.Callbacks) (buf : Bytes), Web.onUnifiedFrame cb buf ≠ .error .rangeError
  /-- Who accepts what: the frame is all there, sub-header included. -/
  accepts_video : ∀ (cb : Web.Callbacks) (data : Bytes),
    ((∃ f, Web.onUnifiedFrame cb data = .ok (some (.video f))) ↔
      cb.onVideoFrame ∧ Carries data msgVideoFrame VideoSubHeader) ∧
    ((∃ k id ping cap h264,
      Native.parseFrame fromSlice data = some (.ok (.videoFrame k id ping cap h264))) ↔
      Carries data msgVideoFrame VideoSubHeader)
  accepts_audio : ∀ (cb : Web.Callbacks) (data : Bytes),
    ((∃ f, Web.onUnifiedFrame cb data = .ok (some (.audio f))) ↔
      cb.onAudioFrame ∧ Carries data msgAudioFrame AudioSubHeader) ∧
    ((∃ pts opus, Native.parseFrame fromSlice data = some (.ok (.audioFrame pts opus))) ↔
      Carries data msgAudioFrame AudioSubHeader)
  /-- The server also asks for a UTF-8 mime and a payload in bounds. -/
  accepts_image : ∀ (cb : Web.Callbacks) (data : Bytes),
    ((∃ c, Web.onUnifiedFrame cb data = .ok (some (.clipboardImage c))) ↔
      cb.onClipboardImage ∧ Carries data msgClipboardImage ImageSubHeader) ∧
    ((∃ c, parseClientClipboardImage data = some (some c)) ↔
      Carries data msgClientClipboardImage ImageSubHeader ∧
        (payload data).length ≤ maxClipboardBytes ∧
        ∃ mime, mimeBytes (payload data) = Utf8.encode mime)

/-- **The binary wire law holds.** -/
theorem wire_law {M ε N : Type} (fromSlice : Bytes → Except ε M)
    (fromSliceClient : Bytes → Option N) : WireLaw fromSlice fromSliceClient where
  video_web _ packet hcb := Web.onUnifiedFrame_video packet hcb
  audio_web _ packet hcb hpts := Web.onUnifiedFrame_audio packet hcb hpts
  video_native := Native.parseFrame_video fromSlice
  audio_native := Native.parseFrame_audio fromSlice
  image_server _ _ hmime hsize := parseClientClipboardImage_encode hmime hsize
  image_web _ _ _ hcb hmime hbom hbytes := Web.onUnifiedFrame_image hcb hmime hbom hbytes
  inside_rust data := ⟨Native.parseFrame_isSome fromSlice data,
    parseClientClipboardImage_isSome data, parseClientMessage_isSome fromSliceClient data⟩
  inside_web := Web.onUnifiedFrame_ne_rangeError
  accepts_video _ _ := ⟨Web.accepts_video, Native.accepts_video⟩
  accepts_audio _ _ := ⟨Web.accepts_audio, Native.accepts_audio⟩
  accepts_image _ _ := ⟨Web.accepts_image, accepts_client_image⟩

/-- A keyframe without a ping echo, through the web client. -/
theorem wire_law_keyframe : ∃ f, Web.onUnifiedFrame ⟨true, true, true⟩
      (encodeUnifiedVideoFrame ⟨[0, 0, 0, 1, 0x65], true, 7, F64.zero, none, by decide⟩) =
        .ok (some (.video f)) ∧
      f.isKeyframe = true ∧ f.pingEchoClientTs = none ∧ f.data.bytes = [0, 0, 0, 1, 0x65] :=
  (wire_law (fun _ => Except.error (ε := Unit) (α := Unit) ()) fun _ => (none : Option Unit)).video_web
    ⟨true, true, true⟩ ⟨[0, 0, 0, 1, 0x65], true, 7, F64.zero, none, by decide⟩ rfl

end Wire

end WaylandWebStream
