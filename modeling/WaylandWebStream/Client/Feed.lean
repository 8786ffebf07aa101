import WaylandWebStream.Client.Stream
import WaylandWebStream.Lib.Machine

/-!
# Feeding the decoders — every call on every instance

A stream goes through many `VideoDecoder`s: a start makes one, and so
does every decoder error and every `decode` that throws; a codec change
and a backlog flush the one in use. Here every call made on an instance
is recorded, in order, with the place of each frame among all frames
received. What is fed is a frame after the one before it, or a keyframe.
-/

namespace WaylandWebStream

namespace Client

/-- A call on a `VideoDecoder`. A frame fed has its place among the
frames the stream was handed. -/
inductive DecoderCall (φ : Type*)
  | configure (codec : String)
  | reset
  | decode (index : ℕ) (payload : φ)
  | close

/-- A stream, the frames it was handed, and the calls on its decoders. -/
structure Feed (φ : Type*) where
  stream : VideoStream φ
  arrived : List φ
  /-- The calls on the instances replaced so far. -/
  past : List (List (DecoderCall φ))
  /-- The calls on the latest instance. -/
  current : List (DecoderCall φ)

/-- What happens to a stream. -/
inductive FeedAction (φ : Type*)
  | start
  | close
  | setCodec (codec : String)
  /-- A frame, the decoder's queue when it arrives, and whether its
  `decode` returns. -/
  | frame (payload : φ) (decodeQueueSize : ℕ) (decodes : Bool)
  /-- The error callback of a decoder, of whichever instance. -/
  | error

namespace Feed

variable {φ : Type*} (isKeyframe : φ → Bool) (f : Feed φ)

/-- Calls on the instance in use. -/
def call (calls : List (DecoderCall φ)) : Feed φ := { f with current := f.current ++ calls }

/-- `setupDecoder`: a new instance, configured. -/
def setupDecoder : Feed φ :=
  { f with past := f.past ++ [f.current], current := [.configure f.stream.codecConfig] }

def start : Feed φ := { f.setupDecoder with stream := f.stream.start }

def close : Feed φ :=
  { (if f.stream.decoder.isSome then f.call [.close] else f) with stream := f.stream.close }

def recoverDecoder : Feed φ := { f.setupDecoder with stream := f.stream.recoverDecoder.1 }

def setCodec (codec : String) : Feed φ :=
  if f.stream.codecConfig = codec then f
  else
    { (if f.stream.decoder.isSome then f.call [.reset, .configure codec] else f) with
      stream := (f.stream.setCodec codec).1 }

/-- The calls that `handleVideoFrame` makes. -/
def feed (payload : φ) (decodeQueueSize : ℕ) (decodes : Bool) : Feed φ :=
  if f.stream.decoder.isNone then f
  else
    let backlogged := decide (maxDecodeQueue < decodeQueueSize)
    if backlogged && !isKeyframe payload then f
    else
      let g := if backlogged then f.call [.reset, .configure f.stream.codecConfig] else f
      if !isKeyframe payload && !f.stream.keyframeSeen then g
      else
        let g := g.call [.decode f.arrived.length payload]
        if decodes then g else g.setupDecoder

def handleVideoFrame (payload : φ) (decodeQueueSize : ℕ) (decodes : Bool) : Feed φ :=
  { f.feed isKeyframe payload decodeQueueSize decodes with
    stream := (f.stream.handleVideoFrame isKeyframe payload decodeQueueSize decodes).1
    arrived := f.arrived ++ [payload] }

/-- One step. -/
def step : FeedAction φ → Feed φ
  | .start => f.start
  | .close => f.close
  | .setCodec codec => f.setCodec codec
  | .frame payload decodeQueueSize decodes =>
    f.handleVideoFrame isKeyframe payload decodeQueueSize decodes
  | .error => f.recoverDecoder

/-- **A stream from its construction on.** -/
def machine : Machine (Feed φ) (FeedAction φ) where
  init f := ∃ codecConfig, f = ⟨VideoStream.new codecConfig, [], [], []⟩
  step f a := some (f.step isKeyframe a)

/-- The calls on each instance. -/
def instances : List (List (DecoderCall φ)) := f.past ++ [f.current]

end Feed

namespace DecoderCall

variable {φ : Type*}

/-- The call configures or resets the decoder. -/
def Restarts : DecoderCall φ → Prop
  | configure _ | reset => True
  | decode _ _ | close => False

/-- The call feeds a frame. -/
def Feeds : DecoderCall φ → Prop
  | decode _ _ => True
  | configure _ | reset | close => False

end DecoderCall

/-- **The discipline of feeding** an instance: the frames fed are frames
received; a delta is fed right after the frame received right before it;
and what is first fed after a configure or a reset is a keyframe. -/
structure Disciplined {φ : Type*} (isKeyframe : φ → Bool) (arrived : List φ)
    (calls : List (DecoderCall φ)) : Prop where
  received : ∀ index payload, .decode index payload ∈ calls → arrived[index]? = some payload
  follows : ∀ before index payload after, calls = before ++ .decode index payload :: after →
    isKeyframe payload = false →
      ∃ earlier index' payload', before = earlier ++ [.decode index' payload'] ∧
        index = index' + 1
  first : ∀ before restart between index payload after,
    calls = before ++ restart :: (between ++ .decode index payload :: after) → restart.Restarts →
      (∀ c ∈ between, ¬ c.Feeds) → isKeyframe payload = true

/-! ## Calls one by one -/

section Calls

variable {φ : Type*} {isKeyframe : φ → Bool} {arrived : List φ} {calls : List (DecoderCall φ)}
  {c : DecoderCall φ} {payload : φ}

/-- A call that may come after `prev`, if a call was made before. -/
def MayFollow (isKeyframe : φ → Bool) (prev : Option (DecoderCall φ)) : DecoderCall φ → Prop
  | .decode index payload => isKeyframe payload = true ∨
      ∃ index' payload', prev = some (.decode index' payload') ∧ index = index' + 1
  | _ => True

/-- **Every call may come after the one before it**, and every frame fed
was received. -/
inductive Chained (isKeyframe : φ → Bool) (arrived : List φ) : List (DecoderCall φ) → Prop
  | nil : Chained isKeyframe arrived []
  /-- One more call at the end. -/
  | concat {calls : List (DecoderCall φ)} {c : DecoderCall φ} :
      Chained isKeyframe arrived calls → MayFollow isKeyframe calls.getLast? c →
      (∀ index payload, c = .decode index payload → arrived[index]? = some payload) →
      Chained isKeyframe arrived (calls ++ [c])

/-- A call that feeds nothing. -/
theorem Chained.other (h : Chained isKeyframe arrived calls) (hc : ¬ c.Feeds) :
    Chained isKeyframe arrived (calls ++ [c]) := by
  refine .concat h ?_ fun index payload heq => absurd (by rw [heq]; trivial) hc
  cases c with
  | decode index payload => exact absurd trivial hc
  | configure codec => trivial
  | reset => trivial
  | close => trivial

/-- What arrives later leaves the calls alone. -/
theorem Chained.receive (h : Chained isKeyframe arrived calls) (payload : φ) :
    Chained isKeyframe (arrived ++ [payload]) calls := by
  induction h with
  | nil => exact .nil
  | concat _ hfollow hreceived ih =>
    refine .concat ih hfollow fun index p heq => ?_
    have hold := hreceived index p heq
    obtain ⟨hlt, -⟩ := List.getElem?_eq_some_iff.1 hold
    rw [List.getElem?_append_left hlt, hold]

/-- Every call in the chain was one that might follow. -/
theorem Chained.split (h : Chained isKeyframe arrived calls) {before after : List (DecoderCall φ)}
    (heq : calls = before ++ c :: after) : MayFollow isKeyframe before.getLast? c := by
  induction h generalizing after with
  | nil => exact absurd heq (by simp)
  | @concat calls c' _ hfollow _ ih =>
    rcases concat_eq_append_cons.1 heq with ⟨-, rfl, rfl⟩ | ⟨init, -, hinit⟩
    · exact hfollow
    · exact ih hinit

/-- **A chain is disciplined.** -/
theorem Chained.disciplined (h : Chained isKeyframe arrived calls) :
    Disciplined isKeyframe arrived calls := by
  have hfollows : ∀ before index payload after,
      calls = before ++ .decode index payload :: after → isKeyframe payload = false →
        ∃ earlier index' payload', before = earlier ++ [.decode index' payload'] ∧
          index = index' + 1 := by
    intro before index payload after heq hdelta
    rcases h.split heq with hkey | ⟨index', payload', hlast, hindex⟩
    · rw [hdelta] at hkey
      cases hkey
    · obtain ⟨earlier, rfl⟩ := List.getLast?_eq_some_iff.1 hlast
      exact ⟨earlier, index', payload', rfl, hindex⟩
  refine ⟨fun index payload hmem => ?_, hfollows, ?_⟩
  · clear hfollows
    induction h with
    | nil => exact absurd hmem List.not_mem_nil
    | concat _ _ hreceived ih =>
      rcases List.mem_append.1 hmem with hmem | hmem
      · exact ih hmem
      · exact hreceived index payload (List.mem_singleton.1 hmem).symm
  · intro before restart between index payload after heq hrestart hbetween
    by_contra hdelta
    rw [Bool.not_eq_true] at hdelta
    obtain ⟨earlier, index', payload', hsplit, -⟩ :=
      hfollows (before ++ restart :: between) index payload after (by rw [heq]; simp) hdelta
    -- the call right before the delta feeds a frame, so it is neither the restart nor between
    rcases List.eq_nil_or_concat between with rfl | ⟨between, last, rfl⟩
    · have hlast := (List.append_inj' hsplit rfl).2
      cases hlast
      exact hrestart
    · have hsplit' : (before ++ restart :: between) ++ [last] =
          earlier ++ [.decode index' payload'] := by
        rw [← hsplit]
        simp
      have hlast := (List.append_inj' hsplit' rfl).2
      cases hlast
      exact hbetween (.decode index' payload') (by simp) trivial

end Calls

/-! ## The stream and the calls it makes -/

section Streams

variable {φ : Type*} {isKeyframe : φ → Bool} {f : Feed φ} {a : FeedAction φ}

/-- What one more call makes of what an instance was fed since it was
last configured or reset. -/
def fedBy (fed : List φ) : DecoderCall φ → List φ
  | .configure _ | .reset => []
  | .decode _ payload => fed ++ [payload]
  | .close => fed

/-- What an instance was fed since then. -/
def fedSince (calls : List (DecoderCall φ)) : List φ := calls.foldl fedBy []

theorem fedSince_concat (calls : List (DecoderCall φ)) (c : DecoderCall φ) :
    fedSince (calls ++ [c]) = fedBy (fedSince calls) c := by
  rw [fedSince, List.foldl_append]
  rfl

/-- **What the calls are, run long**: chained on every instance; the ones
on the instance in use are those its decoder shows; and while a keyframe
is seen, the last of them fed the frame received last. -/
structure Fed (isKeyframe : φ → Bool) (f : Feed φ) : Prop where
  past : ∀ calls ∈ f.past, Chained isKeyframe f.arrived calls
  current : Chained isKeyframe f.arrived f.current
  decoded : ∀ d ∈ f.stream.decoder, d.decoded.map (·.payload) = fedSince f.current
  seen : f.stream.keyframeSeen = true → ∀ d ∈ f.stream.decoder, ∃ index payload,
    f.current.getLast? = some (.decode index payload) ∧ index + 1 = f.arrived.length

namespace Fed

/-- A new instance, and nothing seen. -/
theorem fresh {g : Feed φ} (hpast : ∀ calls ∈ g.past, Chained isKeyframe g.arrived calls)
    (hcurrent : Chained isKeyframe g.arrived g.current) {s : VideoStream φ}
    (hdecoder : ∀ d ∈ s.decoder, d.decoded = []) (hseen : s.keyframeSeen = false) :
    Fed isKeyframe { g.setupDecoder with stream := s } where
  past calls hcalls := by
    rcases List.mem_append.1 hcalls with hcalls | hcalls
    · exact hpast calls hcalls
    · rw [List.mem_singleton.1 hcalls]
      exact hcurrent
  current := Chained.other .nil id
  decoded d hd := by
    rw [hdecoder d hd]
    rfl
  seen hs := absurd hs (by rw [hseen]; exact Bool.false_ne_true)

/-- Reset and configured, the instance shows nothing. -/
theorem restarted (hcurrent : Chained isKeyframe f.arrived f.current) (codec : String) :
    Chained isKeyframe f.arrived (f.current ++ [.reset, .configure codec]) ∧
      fedSince (f.current ++ [.reset, .configure codec]) = [] := by
  have hreset : Chained isKeyframe f.arrived (f.current ++ [.reset]) := hcurrent.other id
  have hlist : f.current ++ [DecoderCall.reset, .configure codec] =
      (f.current ++ [.reset]) ++ [.configure codec] := by simp
  rw [hlist]
  exact ⟨hreset.other id, fedSince_concat _ _⟩

/-- **A frame is fed**, and the decoder replaced where that throws. -/
theorem decode {g : Feed φ} {d : VideoDecoder φ} {payload : φ}
    (hpast : ∀ calls ∈ g.past, Chained isKeyframe g.arrived calls)
    (hcurrent : Chained isKeyframe g.arrived g.current)
    (hdecoded : d.decoded.map (·.payload) = fedSince g.current)
    (hfollow : MayFollow isKeyframe g.current.getLast? (.decode g.arrived.length payload))
    (s : VideoStream φ) (timestamp : ℕ) (decodes : Bool) :
    Fed isKeyframe
      { (if decodes then g.call [.decode g.arrived.length payload]
          else (g.call [.decode g.arrived.length payload]).setupDecoder) with
        stream := (s.decode isKeyframe d timestamp payload decodes).1
        arrived := g.arrived ++ [payload] } := by
  have hfed : Chained isKeyframe (g.arrived ++ [payload])
      (g.current ++ [.decode g.arrived.length payload]) := by
    refine .concat (hcurrent.receive payload) hfollow fun index p heq => ?_
    cases heq
    exact List.getElem?_concat_length
  have hpast' : ∀ calls ∈ g.past, Chained isKeyframe (g.arrived ++ [payload]) calls :=
    fun calls hcalls => (hpast calls hcalls).receive payload
  -- a decoder that throws is replaced, and the calls start over after a recovery
  cases decodes with
  | true =>
    refine ⟨hpast', hfed, fun d' hd' => ?_, fun _ d' _ => ?_⟩
    · obtain rfl := Option.some.inj hd'
      show (d.decoded ++ [(⟨timestamp, payload⟩ : EncodedVideoChunk φ)]).map (·.payload) =
        fedSince (g.current ++ [.decode g.arrived.length payload])
      rw [List.map_append, hdecoded, fedSince_concat]
      rfl
    · refine ⟨g.arrived.length, payload, List.getLast?_concat, ?_⟩
      show _ = (g.arrived ++ [payload]).length
      rw [List.length_append, List.length_singleton]
  | false =>
    refine fresh (g := { g.call [.decode g.arrived.length payload] with
      arrived := g.arrived ++ [payload] }) hpast' hfed (fun d' hd' => ?_) ?_
    · have hd := hd'
      simp only [VideoStream.decode, Bool.false_eq_true, if_false, VideoStream.recoverDecoder,
        VideoStream.requestKeyframe_decoder] at hd
      obtain rfl := Option.some.inj hd
      rfl
    · simp only [VideoStream.decode, Bool.false_eq_true, if_false, VideoStream.recoverDecoder,
        VideoStream.requestKeyframe_keyframeSeen]

/-- A frame that is not fed: nothing is called, and nothing more seen. -/
theorem dropped (h : Fed isKeyframe f) (payload : φ) {s : VideoStream φ}
    (hdecoder : ∀ d ∈ s.decoder, d ∈ f.stream.decoder)
    (hseen : s.decoder = none ∨ s.keyframeSeen = false) :
    Fed isKeyframe { f with stream := s, arrived := f.arrived ++ [payload] } where
  past calls hcalls := (h.past calls hcalls).receive payload
  current := h.current.receive payload
  decoded d hd := h.decoded d (hdecoder d hd)
  seen hs d hd := by
    rcases hseen with hnone | hfalse
    · have hd' : s.decoder = some d := hd
      rw [hnone] at hd'
      cases hd'
    · have hs' : s.keyframeSeen = true := hs
      rw [hfalse] at hs'
      cases hs'

/-- **Whatever a frame does, the calls stay chained.** -/
theorem handleVideoFrame (h : Fed isKeyframe f) (payload : φ) (decodeQueueSize : ℕ)
    (decodes : Bool) :
    Fed isKeyframe (f.handleVideoFrame isKeyframe payload decodeQueueSize decodes) := by
  unfold Feed.handleVideoFrame Feed.feed VideoStream.handleVideoFrame
  cases hd : f.stream.decoder with
  | none =>
    simp only [Option.isNone_none, if_true]
    exact h.dropped payload (fun d hd' => hd') (.inl hd)
  | some d =>
    simp only [Option.isNone_some, Bool.false_eq_true, if_false]
    by_cases hback : maxDecodeQueue < decodeQueueSize
    · by_cases hkey : isKeyframe payload = true
      · -- a keyframe flushes the backlog and starts over
        simp only [hback, hkey, decide_true, Bool.not_true, Bool.and_false, Bool.false_and,
          Bool.false_eq_true, if_false, if_true]
        obtain ⟨hrestarted, hnothing⟩ := restarted h.current f.stream.codecConfig
        exact decode (g := f.call [.reset, .configure f.stream.codecConfig])
          (d := ⟨f.stream.codecConfig, []⟩) h.past hrestarted hnothing.symm (.inl hkey) _ _ decodes
      · -- a delta is dropped, and nothing is seen until the next keyframe
        rw [Bool.not_eq_true] at hkey
        simp only [hback, hkey, decide_true, Bool.not_false, Bool.and_true, if_true]
        refine h.dropped payload (fun d' hd' => ?_) (.inr ?_)
        · rw [VideoStream.requestKeyframe_decoder] at hd'
          rw [hd]
          exact hd'
        · rw [VideoStream.requestKeyframe_keyframeSeen]
    · simp only [hback, decide_false, Bool.false_and, Bool.false_eq_true, if_false]
      by_cases hgate : (!isKeyframe payload && !f.stream.keyframeSeen) = true
      · simp only [hgate, if_true]
        have hseen : f.stream.keyframeSeen = false := by
          rw [Bool.and_eq_true, Bool.not_eq_true', Bool.not_eq_true'] at hgate
          exact hgate.2
        exact h.dropped payload (fun d' hd' => by rw [hd]; exact hd') (.inr hseen)
      · simp only [hgate]
        refine decode (g := f) h.past h.current (h.decoded d hd) ?_ _ _ decodes
        by_cases hkey : isKeyframe payload = true
        · exact .inl hkey
        · -- a delta let through: the frame before it was fed last
          have hseen : f.stream.keyframeSeen = true := by
            simpa [hkey] using hgate
          obtain ⟨index, p, hlast, hindex⟩ := h.seen hseen d hd
          exact .inr ⟨index, p, hlast, hindex.symm⟩

theorem setCodec (h : Fed isKeyframe f) (codec : String) : Fed isKeyframe (f.setCodec codec) := by
  unfold Feed.setCodec VideoStream.setCodec
  split
  · exact h
  · obtain ⟨hrestarted, hnothing⟩ := restarted h.current codec
    cases hd : f.stream.decoder with
    | none =>
      refine ⟨h.past, h.current, fun d hd' => ?_, fun _ d hd' => ?_⟩
      all_goals
        simp only [VideoStream.requestKeyframe_decoder, Option.map_none] at hd'
        cases hd'
    | some d =>
      refine ⟨h.past, hrestarted, fun d' hd' => ?_, fun hs => ?_⟩
      · simp only [VideoStream.requestKeyframe_decoder, Option.map_some] at hd'
        obtain rfl := Option.some.inj hd'
        exact hnothing.symm
      · simp only [VideoStream.requestKeyframe_keyframeSeen, Bool.false_eq_true] at hs

theorem close (h : Fed isKeyframe f) : Fed isKeyframe f.close := by
  unfold Feed.close
  have hcurrent : Chained isKeyframe f.arrived
      (if f.stream.decoder.isSome then f.call [.close] else f).current := by
    split
    · exact h.current.other id
    · exact h.current
  have hframe : (if f.stream.decoder.isSome then f.call [.close] else f).past = f.past ∧
      (if f.stream.decoder.isSome then f.call [.close] else f).arrived = f.arrived := by
    split <;> exact ⟨rfl, rfl⟩
  refine ⟨fun calls hcalls => ?_, ?_, fun d hd => (by cases hd), fun _ d hd => (by cases hd)⟩
  · rw [hframe.1] at hcalls
    rw [hframe.2]
    exact h.past calls hcalls
  · rw [hframe.2]
    exact hcurrent

/-- **Every step keeps the calls chained.** -/
theorem step (h : Fed isKeyframe f) (a : FeedAction φ) : Fed isKeyframe (f.step isKeyframe a) := by
  cases a with
  | start =>
    refine fresh h.past h.current (fun d hd => ?_) rfl
    obtain rfl := Option.some.inj hd
    rfl
  | close => exact h.close
  | setCodec codec => exact h.setCodec codec
  | frame payload decodeQueueSize decodes => exact h.handleVideoFrame payload decodeQueueSize decodes
  | error =>
    refine fresh h.past h.current (fun d hd => ?_) ?_
    · simp only [VideoStream.recoverDecoder, VideoStream.requestKeyframe_decoder] at hd
      obtain rfl := Option.some.inj hd
      rfl
    · simp only [VideoStream.recoverDecoder, VideoStream.requestKeyframe_keyframeSeen]

end Fed

theorem fed_of_reachable (h : (Feed.machine isKeyframe).Reachable f) : Fed isKeyframe f := by
  refine h.invariant ?_ fun f a f' hstep hf => ?_
  · rintro f ⟨codecConfig, rfl⟩
    exact ⟨fun calls hcalls => absurd hcalls List.not_mem_nil, .nil, fun d hd => (by cases hd),
      fun _ d hd => (by cases hd)⟩
  · obtain rfl := Option.some.inj hstep
    exact hf.step a

/-- **Decoders are fed with discipline.** Whatever a stream is handed and
whatever its decoders do: what any instance was fed is a keyframe first,
after each configure and each reset, and then frame after frame as they
were received, each right after the one before it. -/
theorem decoders_disciplined (h : (Feed.machine isKeyframe).Reachable f)
    {calls : List (DecoderCall φ)} (hcalls : calls ∈ f.instances) :
    Disciplined isKeyframe f.arrived calls := by
  have hfed := fed_of_reachable h
  rcases List.mem_append.1 hcalls with hcalls | hcalls
  · exact (hfed.past calls hcalls).disciplined
  · rw [List.mem_singleton.1 hcalls]
    exact hfed.current.disciplined

end Streams

/-- A keyframe and a delta, a delta dropped for backlog and the next one
for want of a keyframe, a keyframe that flushes, and a decoder error. -/
def dropsAndErrors : List (FeedAction Bool) :=
  [.start, .frame true 0 true, .frame false 1 true, .frame false 3 true, .frame false 0 true,
    .frame true 3 true, .frame false 0 true, .error, .frame false 0 true, .frame true 0 true]

/-- The calls it comes to: none before the start, then on two instances. -/
theorem decoders_disciplined_errors : ∃ f : Feed Bool,
    (Feed.machine id).exec ⟨VideoStream.new "avc1", [], [], []⟩ dropsAndErrors = some f ∧
      f.instances = [[], [.configure "avc1", .decode 0 true, .decode 1 false, .reset,
        .configure "avc1", .decode 4 true, .decode 5 false],
        [.configure "avc1", .decode 7 true]] ∧
      Disciplined id f.arrived f.current :=
  ⟨_, rfl, rfl, decoders_disciplined (Machine.reach_of_exec dropsAndErrors (.start ⟨"avc1", rfl⟩) rfl)
    (List.mem_append_right _ (List.mem_singleton_self _))⟩

end Client

end WaylandWebStream
