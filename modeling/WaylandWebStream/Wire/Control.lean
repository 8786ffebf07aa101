import WaylandWebStream.Wire.Messages
import WaylandWebStream.Wire.RoundTrip

/-!
# The native client against the server's messages

The native client's copy of `ServerMessage` knows three of the server's
seven messages, and a message it refuses ends its main loop. Here is
exactly what it accepts of what a handler can send, and how far into a
connection it gets: the fourth message of every connection is one it
refuses.
-/

namespace WaylandWebStream

namespace Wire

/-! ## What the native copy understands -/

/-- The server messages the native client's copy of the type has. -/
def ServerMessage.Copied : ServerMessage → Prop
  | .bitrate _ | .codec _ | .cursor _ => True
  | .clipboard _ | .title _ _ | .favicon _ | .pointerLock _ => False

/-- The emissions the native client accepts. -/
def Emission.Understood : Emission → Prop
  | .video _ | .audio _ => True
  | .control msg => msg.Copied
  | .clipboardImage _ _ => False

/-- The server's value, in the copy's type. -/
def CursorUpdate.copy : CursorUpdate → Native.CursorUpdate
  | .default => .default
  | .hidden => .hidden
  | .named name => .named name
  | .surface width height hotspotX hotspotY rgba => .surface width height hotspotX hotspotY rgba

theorem CursorUpdate.depth_toJson (c : CursorUpdate) : c.toJson.depth ≤ 1 := by
  cases c <;> simp [toJson, Json.Value.depth, Json.Value.depthFields, u32Value, i32Value, natValue,
    Json.Value.int]

/-- A message nests at most two objects. -/
theorem ServerMessage.depth_toJson (m : ServerMessage) : m.toJson.depth < 128 := by
  cases m with
  | cursor c =>
    have hc := c.depth_toJson
    simp only [toJson, Json.Value.depth, Json.Value.depthFields]
    omega
  | favicon f =>
    cases f <;> simp [toJson, Favicon.toJson, Json.Value.depth, Json.Value.depthFields, u32Value,
      natValue, Json.Value.int]
  | _ => simp [toJson, Json.Value.depth, Json.Value.depthFields, natValue, Json.Value.int]

namespace Native

open Json (Value)

theorem intField_of {fields : List (String × Value)} {name : String} {n lo hi : ℤ}
    {h : -2 ^ 63 ≤ n ∧ n < 2 ^ 64} (hf : Json.field? fields name = some (.int n h))
    (hlo : lo ≤ n) (hhi : n < hi) : intField fields name lo hi = some n := by
  unfold intField
  rw [hf]
  exact if_pos ⟨hlo, hhi⟩

theorem u32Field_of {fields : List (String × Value)} {name : String} {n : UInt32}
    (hf : Json.field? fields name = some (u32Value n)) : u32Field fields name = some n := by
  have hn : n.toNat < 2 ^ 32 := n.toNat_lt
  rw [u32Field, intField_of hf (by omega) (by omega)]
  simp

theorem i32Field_of {fields : List (String × Value)} {name : String} {n : Int32}
    (hf : Json.field? fields name = some (i32Value n)) : i32Field fields name = some n := by
  rw [i32Field, intField_of hf n.le_toInt n.toInt_lt]
  simp

/-- **The copies of `CursorUpdate` agree**: what one side writes the
other reads. -/
theorem fromJson_cursor (c : Wire.CursorUpdate) : CursorUpdate.fromJson? c.toJson = some c.copy := by
  cases c with
  | default => rfl
  | hidden => rfl
  | named name => rfl
  | surface width height hotspotX hotspotY rgba =>
    have hread : ∀ fields, Json.field? fields "kind" = some (.str "surface") →
        Json.field? fields "width" = some (u32Value width) →
        Json.field? fields "height" = some (u32Value height) →
        Json.field? fields "hotspot_x" = some (i32Value hotspotX) →
        Json.field? fields "hotspot_y" = some (i32Value hotspotY) →
        Json.field? fields "rgba" = some (.str rgba) →
        CursorUpdate.fromJson? (.obj fields) =
          some (.surface width height hotspotX hotspotY rgba) := by
      intro fields hkind hwidth hheight hx hy hrgba
      simp [CursorUpdate.fromJson?, strField, hkind, hrgba, u32Field_of hwidth, u32Field_of hheight,
        i32Field_of hx, i32Field_of hy]
    exact hread _ rfl rfl rfl rfl rfl rfl

/-- The three messages both sides have are read. -/
theorem fromJson_copied {m : Wire.ServerMessage} (h : m.Copied) :
    ∃ n, ServerMessage.fromJson? m.toJson = some n := by
  cases m with
  | bitrate bps =>
    have hread : ∀ fields, Json.field? fields "type" = some (.str "bitrate") →
        Json.field? fields "bps" = some (natValue bps.toNat bps.toNat_lt) →
        ServerMessage.fromJson? (.obj fields) = some (.bitrate bps) := by
      intro fields htype hbps
      have hlt : bps.toNat < 2 ^ 64 := bps.toNat_lt
      have hint : intField fields "bps" 0 (2 ^ 64) = some (bps.toNat : ℤ) :=
        intField_of hbps (by omega) (by omega)
      have htag : strField fields "type" = some "bitrate" := by rw [strField, htype]
      simp only [ServerMessage.fromJson?, htag, hint, if_true, Option.bind_eq_bind,
        Option.bind_some, Int.toNat_natCast, UInt64.ofNat_toNat]
      rfl
    exact ⟨_, hread _ rfl rfl⟩
  | codec s => exact ⟨.codec s, rfl⟩
  | cursor c =>
    have hread : ∀ fields, Json.field? fields "type" = some (.str "cursor") →
        Json.field? fields "cursor" = some c.toJson →
        ServerMessage.fromJson? (.obj fields) = some (.cursor c.copy) := by
      intro fields htype hcursor
      simp [ServerMessage.fromJson?, strField, htype, hcursor, fromJson_cursor]
    exact ⟨_, hread _ rfl rfl⟩
  | clipboard text => exact absurd h id
  | title s appId => exact absurd h id
  | favicon f => exact absurd h id
  | pointerLock locked => exact absurd h id

/-- A tag the copy does not have is refused, whatever the fields. -/
theorem fromJson_not_copied {m : Wire.ServerMessage} (h : ¬ m.Copied) :
    ServerMessage.fromJson? m.toJson = none := by
  cases m with
  | bitrate bps => exact absurd trivial h
  | codec s => exact absurd trivial h
  | cursor c => exact absurd trivial h
  | clipboard text => rfl
  | title s appId => rfl
  | favicon f => rfl
  | pointerLock locked => rfl

/-! ## What is accepted -/

variable (json : Json.TextLayer)

/-- `parse_frame` accepts the emission. -/
def Accepts (e : Emission) : Prop :=
  ∃ frame, parseFrame (fromSlice json) (e.bytes json) = some (.ok frame)

theorem fromSlice_toVec (m : Wire.ServerMessage) : fromSlice json (json.toVec m.toJson) =
    match ServerMessage.fromJson? m.toJson with
    | none => .error .data
    | some n => .ok n := by
  cases hm : ServerMessage.fromJson? m.toJson with
  | none => simp only [fromSlice, json.fromSlice_toVec _ m.depth_toJson, hm]
  | some n => simp only [fromSlice, json.fromSlice_toVec _ m.depth_toJson, hm]

/-- A control message whose text fits the header's length field is read
for its text. -/
theorem parseFrame_control (m : Wire.ServerMessage)
    (hfits : (json.toVec m.toJson).length < 2 ^ 32) :
    parseFrame (fromSlice json) (encodeUnifiedControl json m) =
      some (match ServerMessage.fromJson? m.toJson with
        | none => .error (.json .data)
        | some n => .ok (.control n)) := by
  rw [encodeUnifiedControl, parseFrame_complete _ (complete_encodeMsg hfits), typeByte_encodeMsg,
    payload_encodeMsg hfits, readPayload, if_neg (by decide), if_neg (by decide), if_pos rfl,
    fromSlice_toVec]
  cases ServerMessage.fromJson? m.toJson <;> rfl

theorem parseFrame_clipboardImage (mime : String) (bytes : Bytes)
    (hfits : (encodeClipboardImagePayload mime bytes).length < 2 ^ 32) :
    parseFrame (fromSlice json) (encodeMsg msgClipboardImage 0
      (encodeClipboardImagePayload mime bytes)) = some (.error (.unknownType msgClipboardImage)) := by
  rw [parseFrame_complete _ (complete_encodeMsg hfits), typeByte_encodeMsg, readPayload,
    if_neg (by decide), if_neg (by decide), if_neg (by decide)]

/-- What is delivered fits the header's length field. -/
theorem payload_fits {t f : UInt8} {p : Bytes} (h : (encodeMsg t f p).length ≤ maxFrameSize) :
    p.length < 2 ^ 32 := by
  simp only [encodeMsg, List.length_append, maxFrameSize] at h
  omega

variable {json}

/-- **What the client makes of a delivered emission**: a frame if it
understands it, else an error of its own. -/
theorem parseFrame_emission {e : Emission} (hsize : (e.bytes json).length ≤ maxFrameSize) :
    (e.Understood → Accepts json e) ∧
    (¬ e.Understood → ∃ err, parseFrame (fromSlice json) (e.bytes json) = some (.error err)) := by
  cases e with
  | video packet =>
    exact ⟨fun _ => ⟨_, parseFrame_video _ packet⟩, fun h => absurd trivial h⟩
  | audio packet =>
    exact ⟨fun _ => ⟨_, parseFrame_audio _ packet⟩, fun h => absurd trivial h⟩
  | control m =>
    have hparse := parseFrame_control json m (payload_fits hsize)
    refine ⟨fun h => ?_, fun h => ?_⟩
    · obtain ⟨n, hn⟩ := fromJson_copied h
      rw [hn] at hparse
      exact ⟨_, hparse⟩
    · rw [fromJson_not_copied h] at hparse
      exact ⟨_, hparse⟩
  | clipboardImage mime bytes =>
    exact ⟨fun h => h.elim,
      fun _ => ⟨_, parseFrame_clipboardImage json mime bytes (payload_fits hsize)⟩⟩

theorem accepts_iff {e : Emission} (hsize : (e.bytes json).length ≤ maxFrameSize) :
    Accepts json e ↔ e.Understood := by
  refine ⟨fun ⟨frame, hframe⟩ => ?_, (parseFrame_emission hsize).1⟩
  by_contra h
  obtain ⟨err, herr⟩ := (parseFrame_emission hsize).2 h
  rw [herr] at hframe
  cases hframe

/-! ## How the main loop ends -/

/-- The loop ended over a message: it was refused, or its parser panicked. -/
def EndedByMessage : Option Exit → Prop
  | some (.refused _) => True
  | some .panicked => True
  | _ => False

/-- The messages that reach the client: those before the first the
WebSocket library itself fails on. -/
def delivered (json : Json.TextLayer) (sent : List Emission) : List Emission :=
  sent.takeWhile fun e => (e.bytes json).length ≤ maxFrameSize

/-- What the socket yields after the messages: no more of them. -/
def NoMessages (rest : List WsItem) : Prop := ∀ data, WsItem.binary data ∉ rest

theorem mainLoop_noMessages {rest : List WsItem} (h : NoMessages rest) :
    ¬ EndedByMessage (mainLoop json rest) := by
  induction rest with
  | nil => exact id
  | cons item rest ih =>
    have hrest := ih fun data hdata => h data (List.mem_cons_of_mem _ hdata)
    cases item with
    | binary data => exact absurd List.mem_cons_self (h data)
    | noise => exact hrest
    | close => exact id
    | err => exact id
    | eof => exact id

/-- **The main loop survives exactly what it understands.** -/
theorem mainLoop_iff (sent : List Emission) {rest : List WsItem} (hrest : NoMessages rest) :
    ¬ EndedByMessage (mainLoop json ((sent.map fun e => deliver (e.bytes json)) ++ rest)) ↔
      ∀ e ∈ delivered json sent, e.Understood := by
  induction sent with
  | nil => simpa [delivered] using mainLoop_noMessages hrest
  | cons e sent ih =>
    by_cases hsize : (e.bytes json).length ≤ maxFrameSize
    · have hdelivered : delivered json (e :: sent) = e :: delivered json sent := by
        simp [delivered, hsize]
      rw [hdelivered, List.forall_mem_cons, ← ih]
      have hdeliver : deliver (e.bytes json) = .binary (e.bytes json) := if_pos hsize
      simp only [List.map_cons, List.cons_append, hdeliver, mainLoop, recvItem]
      by_cases hu : e.Understood
      · obtain ⟨frame, hframe⟩ := (parseFrame_emission hsize).1 hu
        rw [hframe]
        simp [hu]
      · obtain ⟨err, herr⟩ := (parseFrame_emission hsize).2 hu
        rw [herr]
        simp [hu, EndedByMessage]
    · have hdelivered : delivered json (e :: sent) = [] := by
        simp [delivered, hsize]
      have hdeliver : deliver (e.bytes json) = .err := if_neg hsize
      simp [hdelivered, hdeliver, mainLoop, recvItem, EndedByMessage]

/-! ## A connection's run -/

/-- Every run starts with the same four messages, and the fourth is a title. -/
theorem handlerRun_eq (now : Current) (events : List HandlerEvent) : ∃ later,
    handlerRun now events = .control (.bitrate now.bitrate) :: .control (.codec now.codec) ::
      .control (.cursor now.cursor) ::
      .control (.title now.appMeta.title now.appMeta.appId) :: later :=
  ⟨_, rfl⟩

/-- **A run is understood exactly as far as its third message.** -/
theorem understood_run_iff (now : Current) (events : List HandlerEvent) (n : ℕ) :
    (∀ e ∈ delivered json ((handlerRun now events).take n), e.Understood) ↔
      (delivered json ((handlerRun now events).take n)).length < 4 := by
  obtain ⟨later, hrun⟩ := handlerRun_eq now events
  have hprefix : delivered json ((handlerRun now events).take n) <+: handlerRun now events :=
    (List.takeWhile_prefix _).trans (List.take_prefix _ _)
  rw [hrun] at hprefix ⊢
  generalize delivered json _ = got at hprefix ⊢
  obtain ⟨missed, hgot⟩ := hprefix
  match got, hgot with
  | [], _ => simp
  | [a], hgot =>
    cases hgot
    simp [Emission.Understood, ServerMessage.Copied]
  | [a, b], hgot =>
    cases hgot
    simp [Emission.Understood, ServerMessage.Copied]
  | [a, b, c], hgot =>
    cases hgot
    simp [Emission.Understood, ServerMessage.Copied]
  | a :: b :: c :: d :: got, hgot =>
    -- whatever comes after it, the title is among them
    cases hgot
    simp [Emission.Understood, ServerMessage.Copied]

/-- **What the native client accepts**, of one message and of a run. A
delivered message is accepted exactly if it is video, audio, or one of
the three control messages the copy has; the main loop outlives a run
exactly if every message delivered is such a one; and of what a handler
sends, that is so exactly while fewer than four messages are delivered. -/
theorem accepts_exactly (json : Json.TextLayer) :
    (∀ e : Emission, (e.bytes json).length ≤ maxFrameSize →
      (Accepts json e ↔ e.Understood)) ∧
    (∀ (sent : List Emission) (rest : List WsItem), NoMessages rest →
      (¬ EndedByMessage (mainLoop json ((sent.map fun e => deliver (e.bytes json)) ++ rest)) ↔
        ∀ e ∈ delivered json sent, e.Understood)) ∧
    (∀ (now : Current) (events : List HandlerEvent) (n : ℕ) (rest : List WsItem),
      NoMessages rest →
      (¬ EndedByMessage (mainLoop json
          ((((handlerRun now events).take n).map fun e => deliver (e.bytes json)) ++ rest)) ↔
        (delivered json ((handlerRun now events).take n)).length < 4)) :=
  ⟨fun _ hsize => accepts_iff hsize, fun sent _ hrest => mainLoop_iff sent hrest,
    fun now events n _ hrest => (mainLoop_iff _ hrest).trans (understood_run_iff now events n)⟩

/-- A bitrate message, in compact text: accepted, as it is understood. -/
theorem accepts_exactly_bitrate : (((Emission.control (.bitrate 8000)).bytes
      Json.compact).length ≤ maxFrameSize) ∧
    (Accepts Json.compact (.control (.bitrate 8000)) ↔
      (Emission.control (.bitrate 8000)).Understood) := by
  have hsize : ((Emission.control (.bitrate 8000)).bytes Json.compact).length ≤ maxFrameSize := by
    simp only [Emission.bytes, encodeUnifiedControl, encodeMsg, List.length_append,
      Json.length_compact]
    decide
  exact ⟨hsize, (accepts_exactly Json.compact).1 _ hsize⟩

/-- **The title every connection is sent ends the native client.** Even
the empty one, in compact text. -/
theorem title_refused :
    ¬ Accepts Json.compact (.control (.title "" "")) ∧
    EndedByMessage (mainLoop Json.compact
      [deliver ((Emission.control (.title "" "")).bytes Json.compact)]) := by
  have hsize : ((Emission.control (.title "" "")).bytes Json.compact).length ≤ maxFrameSize := by
    simp only [Emission.bytes, encodeUnifiedControl, encodeMsg, List.length_append,
      Json.length_compact]
    decide
  have hnot : ¬ (Emission.control (.title "" "")).Understood := id
  refine ⟨fun h => hnot ((accepts_iff hsize).1 h), ?_⟩
  by_contra h
  have hall := (mainLoop_iff [Emission.control (.title "" "")]
    (show NoMessages [] from fun _ hmem => by cases hmem)).1 h
  refine hnot (hall _ ?_)
  simp [delivered, hsize]

end Native

end Wire

end WaylandWebStream
