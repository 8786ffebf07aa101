import Mathlib.Data.List.Chain

/-!
# The browser's video stream

What the page does with the frames it is handed: which it feeds to its
`VideoDecoder`, which it drops, and when it asks the server for a
keyframe. Of a frame it reads whether it is a keyframe and nothing else,
so frames are of any type here. The decoder is the browser's: how long
its queue is and whether a `decode` throws are arguments.
-/

namespace WaylandWebStream

namespace Client

/-- `MAX_DECODE_QUEUE`. -/
def maxDecodeQueue : ℕ := 2

/-- What is fed to a decoder. The clock that stamps chunks is the number
of frames received before. -/
structure EncodedVideoChunk (φ : Type*) where
  timestamp : ℕ
  payload : φ

/-- A decoder: its configuration, and what was fed to it since. -/
structure VideoDecoder (φ : Type*) where
  config : String
  decoded : List (EncodedVideoChunk φ)

/-- **A `VideoStream`.** `received` is every frame it was handed while it
had a decoder. A decoder that reports an error is replaced before
anything else runs, so the one in use is never closed. -/
structure VideoStream (φ : Type*) where
  decoder : Option (VideoDecoder φ)
  codecConfig : String
  keyframeSeen : Bool
  keyframeRequestPending : Bool
  received : List φ

namespace VideoStream

variable {φ : Type*} (isKeyframe : φ → Bool) (s : VideoStream φ)

/-- A decoder configured and nothing fed to it. -/
def setupDecoder : VideoStream φ := { s with decoder := some ⟨s.codecConfig, []⟩ }

def start : VideoStream φ :=
  { s.setupDecoder with keyframeSeen := false, keyframeRequestPending := false }

def close : VideoStream φ := { s with decoder := none }

/-- `requestKeyframe`, and whether it sends `request_keyframe`. -/
def requestKeyframe : VideoStream φ × Bool :=
  if s.keyframeRequestPending then (s, false)
  else ({ s with keyframeRequestPending := true }, true)

def recoverDecoder : VideoStream φ × Bool :=
  requestKeyframe { s.setupDecoder with keyframeSeen := false }

def setCodec (codec : String) : VideoStream φ × Bool :=
  if s.codecConfig = codec then (s, false)
  else
    requestKeyframe { s with
      codecConfig := codec
      decoder := s.decoder.map fun _ => ⟨codec, []⟩
      keyframeSeen := false }

/-- The end of `handleVideoFrame`: the frame goes to the decoder, which may throw. -/
def decode (decoder : VideoDecoder φ) (timestamp : ℕ) (payload : φ) (decodes : Bool) :
    VideoStream φ × Bool :=
  let s := if isKeyframe payload then
    { s with keyframeSeen := true, keyframeRequestPending := false } else s
  if decodes then
    let decoded := decoder.decoded ++ [⟨timestamp, payload⟩]
    ({ s with decoder := some { decoder with decoded } }, false)
  else s.recoverDecoder

/-- `handleVideoFrame`. A backlogged decoder drops a delta, and is flushed
for a keyframe. -/
def handleVideoFrame (payload : φ) (decodeQueueSize : ℕ) (decodes : Bool) : VideoStream φ × Bool :=
  match s.decoder with
  | none => (s, false)
  | some decoder =>
    let timestamp := s.received.length
    let s := { s with received := s.received ++ [payload] }
    let backlogged := decide (maxDecodeQueue < decodeQueueSize)
    if backlogged && !isKeyframe payload then requestKeyframe { s with keyframeSeen := false }
    else
      let decoder := if backlogged then ⟨s.codecConfig, []⟩ else decoder
      if !isKeyframe payload && !s.keyframeSeen then ({ s with decoder := some decoder }, false)
      else s.decode isKeyframe decoder timestamp payload decodes

/-- A stream before its start, with the startup configuration. -/
def new (codecConfig : String) : VideoStream φ where
  decoder := none
  codecConfig
  keyframeSeen := false
  keyframeRequestPending := false
  received := []

/-! ## Requests

A request that is outstanding is not sent again, and while one is
outstanding no keyframe has been seen. -/

variable {s} {r : VideoStream φ × Bool}

/-- What an operation does about requests: it sends one only where it
leaves one outstanding, and leaves one outstanding only if it sent one or
one was. -/
structure Requests (s : VideoStream φ) (r : VideoStream φ × Bool) : Prop where
  sent : r.2 = true → r.1.keyframeRequestPending = true
  outstanding : r.1.keyframeRequestPending = true → r.2 = true ∨ s.keyframeRequestPending = true
  unseen : (s.keyframeRequestPending = true → s.keyframeSeen = false) →
    r.1.keyframeRequestPending = true → r.1.keyframeSeen = false

theorem requestKeyframe_eq (s : VideoStream φ) : s.requestKeyframe =
    ({ s with keyframeRequestPending := true }, !s.keyframeRequestPending) := by
  obtain ⟨decoder, codecConfig, keyframeSeen, keyframeRequestPending, received⟩ := s
  cases keyframeRequestPending <;> rfl

/-- Whatever asks for a keyframe has stopped to trust what it has. -/
theorem requests_requestKeyframe {t : VideoStream φ} (hseen : t.keyframeSeen = false)
    (hpending : t.keyframeRequestPending = s.keyframeRequestPending) :
    Requests s t.requestKeyframe := by
  rw [requestKeyframe_eq]
  refine ⟨fun _ => rfl, fun _ => ?_, fun _ _ => hseen⟩
  rw [hpending]
  cases s.keyframeRequestPending
  · exact Or.inl rfl
  · exact Or.inr rfl

theorem requests_recoverDecoder (s : VideoStream φ) : Requests s s.recoverDecoder :=
  requests_requestKeyframe rfl rfl

theorem requests_setCodec (s : VideoStream φ) (codec : String) : Requests s (s.setCodec codec) := by
  unfold setCodec
  split
  · exact ⟨nofun, Or.inr, fun h => h⟩
  · exact requests_requestKeyframe rfl rfl

variable {isKeyframe}

theorem requests_decode {t : VideoStream φ} (hseen : t.keyframeSeen = s.keyframeSeen)
    (hpending : t.keyframeRequestPending = s.keyframeRequestPending) (decoder : VideoDecoder φ)
    (timestamp : ℕ) (payload : φ) (decodes : Bool) :
    Requests s (t.decode isKeyframe decoder timestamp payload decodes) := by
  unfold decode
  cases decodes with
  | true =>
    by_cases hkey : isKeyframe payload = true
    · simp only [hkey, if_true]
      exact ⟨nofun, nofun, nofun⟩
    · simp only [hkey, if_true]
      exact ⟨nofun, fun h => Or.inr (hpending ▸ h), fun h hp => hseen.trans (h (hpending ▸ hp))⟩
  | false =>
    -- The decode threw: a new decoder, and a new request where none is outstanding.
    by_cases hkey : isKeyframe payload = true
    · simp only [hkey, if_true, recoverDecoder, requestKeyframe_eq]
      exact ⟨fun _ => rfl, fun _ => Or.inl rfl, fun _ _ => rfl⟩
    · simp only [hkey]
      exact requests_requestKeyframe rfl hpending

theorem requests_handleVideoFrame (s : VideoStream φ) (payload : φ) (decodeQueueSize : ℕ)
    (decodes : Bool) : Requests s (s.handleVideoFrame isKeyframe payload decodeQueueSize decodes) := by
  unfold handleVideoFrame
  split
  · exact ⟨nofun, Or.inr, fun h => h⟩
  dsimp only
  split
  · exact requests_requestKeyframe rfl rfl
  split
  · exact ⟨nofun, Or.inr, fun h => h⟩
  · refine requests_decode ?_ ?_ _ _ _ _
    · rfl
    · rfl

/-- **A keyframe answers the request**: after one nothing is outstanding
but a request sent because of it. -/
theorem answered_by_keyframe {payload : φ} (hd : s.decoder ≠ none)
    (hkey : isKeyframe payload = true) (decodeQueueSize : ℕ) (decodes : Bool) :
    let r := s.handleVideoFrame isKeyframe payload decodeQueueSize decodes
    r.1.keyframeRequestPending = true → r.2 = true := by
  obtain ⟨decoder, hd⟩ := Option.ne_none_iff_exists'.1 hd
  cases decodes <;>
    simp [handleVideoFrame, hd, hkey, decode, recoverDecoder, setupDecoder, requestKeyframe_eq]

/-! ## The decoder in use -/

@[simp] theorem requestKeyframe_decoder (s : VideoStream φ) :
    s.requestKeyframe.1.decoder = s.decoder := by
  rw [requestKeyframe_eq]

@[simp] theorem requestKeyframe_received (s : VideoStream φ) :
    s.requestKeyframe.1.received = s.received := by
  rw [requestKeyframe_eq]

@[simp] theorem requestKeyframe_keyframeSeen (s : VideoStream φ) :
    s.requestKeyframe.1.keyframeSeen = s.keyframeSeen := by
  rw [requestKeyframe_eq]

@[simp] theorem recoverDecoder_received (s : VideoStream φ) :
    s.recoverDecoder.1.received = s.received := by
  rw [recoverDecoder, requestKeyframe_received]
  rfl

@[simp] theorem setCodec_received (s : VideoStream φ) (codec : String) :
    (s.setCodec codec).1.received = s.received := by
  unfold setCodec
  split
  · rfl
  · rw [requestKeyframe_received]

@[simp] theorem decode_received (s : VideoStream φ) (decoder : VideoDecoder φ) (timestamp : ℕ)
    (payload : φ) (decodes : Bool) :
    (s.decode isKeyframe decoder timestamp payload decodes).1.received = s.received := by
  have hflags : (if isKeyframe payload then
      { s with keyframeSeen := true, keyframeRequestPending := false } else s).received =
      s.received := by
    split <;> rfl
  cases decodes with
  | true => exact hflags
  | false => exact (recoverDecoder_received _).trans hflags

/-- A frame handed to a stream with a decoder is received. -/
theorem handleVideoFrame_received (hd : s.decoder ≠ none) (payload : φ) (decodeQueueSize : ℕ)
    (decodes : Bool) :
    (s.handleVideoFrame isKeyframe payload decodeQueueSize decodes).1.received =
      s.received ++ [payload] := by
  unfold handleVideoFrame
  split
  · rename_i hnone
    exact absurd hnone hd
  dsimp only
  split
  · rw [requestKeyframe_received]
  split
  · rfl
  · rw [decode_received]

theorem recoverDecoder_decoder (s : VideoStream φ) : s.recoverDecoder.1.decoder ≠ none := by
  rw [recoverDecoder, requestKeyframe_decoder]
  exact Option.some_ne_none _

/-- A stream keeps its decoder, or another one in its place. -/
theorem handleVideoFrame_decoder (hd : s.decoder ≠ none) (payload : φ) (decodeQueueSize : ℕ)
    (decodes : Bool) :
    (s.handleVideoFrame isKeyframe payload decodeQueueSize decodes).1.decoder ≠ none := by
  unfold handleVideoFrame
  split
  · exact hd
  dsimp only
  split
  · rw [requestKeyframe_decoder]
    exact hd
  split
  · exact Option.some_ne_none _
  unfold decode
  dsimp only
  split
  · exact Option.some_ne_none _
  · exact recoverDecoder_decoder _

theorem setCodec_decoder (hd : s.decoder ≠ none) (codec : String) :
    (s.setCodec codec).1.decoder ≠ none := by
  obtain ⟨decoder, hd⟩ := Option.ne_none_iff_exists'.1 hd
  unfold setCodec
  split
  · rw [hd]
    exact Option.some_ne_none _
  · rw [requestKeyframe_decoder, hd]
    exact Option.some_ne_none _

end VideoStream

/-! ## What is fed

What a decoder was fed since its configuration starts with a keyframe,
and a delta in it was received right after the frame before it. -/

variable {φ : Type*} {isKeyframe : φ → Bool}

/-- **The chain of what a decoder was fed**, of the frames received. -/
structure VideoDecoder.Linked (isKeyframe : φ → Bool) (received : List φ) (d : VideoDecoder φ) :
    Prop where
  received : ∀ c ∈ d.decoded, received[c.timestamp]? = some c.payload
  first : ∀ c ∈ d.decoded.head?, isKeyframe c.payload = true
  follows : d.decoded.IsChain fun p c => isKeyframe c.payload = false → c.timestamp = p.timestamp + 1

namespace VideoDecoder

variable {received : List φ} {d : VideoDecoder φ}

/-- A decoder nothing was fed to. -/
theorem linked_nil (config : String) : Linked isKeyframe received ⟨config, []⟩ :=
  ⟨nofun, nofun, .nil⟩

/-- What is received later leaves the chain alone. -/
theorem Linked.receive (h : Linked isKeyframe received d) (payload : φ) :
    Linked isKeyframe (received ++ [payload]) d := by
  refine ⟨fun c hc => ?_, h.first, h.follows⟩
  have hold := h.received c hc
  obtain ⟨hlt, -⟩ := List.getElem?_eq_some_iff.1 hold
  rw [List.getElem?_append_left hlt, hold]

/-- **A link.** The frame received last extends the chain if it is a
keyframe, or if the one before it was fed last. -/
theorem Linked.feed (h : Linked isKeyframe received d) {payload : φ}
    (hfeed : isKeyframe payload = true ∨
      ∃ c ∈ d.decoded.getLast?, c.timestamp + 1 = received.length) :
    Linked isKeyframe (received ++ [payload])
      { d with decoded := d.decoded ++ [⟨received.length, payload⟩] } := by
  refine ⟨fun c hc => ?_, fun c hc => ?_, ?_⟩
  · rcases List.mem_append.1 hc with hc | hc
    · exact (h.receive payload).received c hc
    · obtain rfl := List.mem_singleton.1 hc
      exact List.getElem?_concat_length
  · rcases hdec : d.decoded with _ | ⟨c₀, rest⟩
    · -- The first chunk: there is no chunk before it, so it is a keyframe.
      simp only [hdec, List.nil_append, List.head?_cons, Option.mem_some_iff] at hc
      obtain rfl := hc
      refine hfeed.resolve_right ?_
      rw [hdec]
      rintro ⟨_, hnone, -⟩
      cases hnone
    · refine h.first c ?_
      simp only [hdec] at hc ⊢
      exact hc
  · refine h.follows.append (.singleton _) fun p hp c hc hdelta => ?_
    cases hc
    obtain ⟨c, hc, hlast⟩ := hfeed.resolve_left (by rw [hdelta]; exact nofun)
    rw [Option.mem_unique hp hc]
    exact hlast.symm

end VideoDecoder

namespace VideoStream

variable {s : VideoStream φ}

/-- **The chain of what a stream feeds**, and its last link: while a
keyframe is seen, the frame received last was fed last. -/
structure Linked (isKeyframe : φ → Bool) (s : VideoStream φ) : Prop where
  decoder : ∀ d ∈ s.decoder, d.Linked isKeyframe s.received
  last : s.keyframeSeen = true → ∀ d ∈ s.decoder, ∃ c ∈ d.decoded.getLast?,
    c.timestamp + 1 = s.received.length

theorem linked_requestKeyframe {t : VideoStream φ} (hseen : t.keyframeSeen = false)
    (h : ∀ d ∈ t.decoder, d.Linked isKeyframe t.received) :
    Linked isKeyframe t.requestKeyframe.1 := by
  rw [requestKeyframe_eq]
  refine ⟨h, fun hs => ?_⟩
  rw [show t.keyframeSeen = true from hs] at hseen
  cases hseen

theorem linked_recoverDecoder (s : VideoStream φ) : Linked isKeyframe s.recoverDecoder.1 := by
  refine linked_requestKeyframe rfl fun d hd => ?_
  cases hd
  exact VideoDecoder.linked_nil _

theorem linked_setCodec (h : Linked isKeyframe s) (codec : String) :
    Linked isKeyframe (s.setCodec codec).1 := by
  unfold setCodec
  split
  · exact h
  · refine linked_requestKeyframe rfl fun d hd => ?_
    obtain ⟨_, -, rfl⟩ := Option.map_eq_some_iff.1 hd
    exact VideoDecoder.linked_nil _

theorem linked_decode {d : VideoDecoder φ} {t : VideoStream φ} {received : List φ} {payload : φ}
    (h : d.Linked isKeyframe received) (hreceived : t.received = received ++ [payload])
    (hfeed : isKeyframe payload = true ∨
      ∃ c ∈ d.decoded.getLast?, c.timestamp + 1 = received.length) (decodes : Bool) :
    Linked isKeyframe (t.decode isKeyframe d received.length payload decodes).1 := by
  have hflags : (if isKeyframe payload then
      { t with keyframeSeen := true, keyframeRequestPending := false } else t).received =
      received ++ [payload] := by
    split <;> exact hreceived
  unfold decode
  dsimp only
  split
  · refine ⟨fun d' hd => ?_, fun _ d' hd => ?_⟩
    · obtain rfl := Option.some.inj hd
      rw [hflags]
      exact h.feed hfeed
    · obtain rfl := Option.some.inj hd
      rw [hflags]
      exact ⟨_, List.getLast?_concat, by rw [List.length_append, List.length_singleton]⟩
  · exact linked_recoverDecoder _

/-- **Whatever arrives, the chain holds.** -/
theorem linked_handleVideoFrame (h : Linked isKeyframe s) (payload : φ) (decodeQueueSize : ℕ)
    (decodes : Bool) :
    Linked isKeyframe (s.handleVideoFrame isKeyframe payload decodeQueueSize decodes).1 := by
  unfold handleVideoFrame
  split
  · exact h
  rename_i d hd
  dsimp only
  split
  · -- A delta dropped breaks the chain, and nothing is seen until the next keyframe.
    exact linked_requestKeyframe rfl fun d' hd' => (h.decoder d' hd').receive payload
  rename_i hkeep
  have hd' : VideoDecoder.Linked isKeyframe s.received
      (if decide (maxDecodeQueue < decodeQueueSize) then ⟨s.codecConfig, []⟩ else d) := by
    split
    · exact VideoDecoder.linked_nil _
    · exact h.decoder d hd
  split
  · rename_i hgate
    simp only [Bool.and_eq_true, Bool.not_eq_true'] at hgate
    refine ⟨fun d' hmem => ?_, fun hs => ?_⟩
    · obtain rfl := Option.some.inj hmem
      exact hd'.receive payload
    · rw [show s.keyframeSeen = true from hs] at hgate
      exact absurd hgate.2 (by decide)
  · rename_i hgate
    refine linked_decode hd' rfl ?_ decodes
    by_cases hkey : isKeyframe payload = true
    · exact Or.inl hkey
    · -- A delta let through: no backlog, so the decoder is the old one.
      rw [Bool.not_eq_true] at hkey
      simp only [hkey, Bool.not_false, Bool.and_true, Bool.true_and, Bool.not_eq_true',
        decide_eq_true_eq, Bool.not_eq_false] at hkeep hgate
      rw [if_neg (by simpa using hkeep)]
      exact Or.inr (h.last hgate d hd)

end VideoStream

end Client

end WaylandWebStream
