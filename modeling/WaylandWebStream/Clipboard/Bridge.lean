import Mathlib.Logic.Function.Basic
import WaylandWebStream.Lib.Machine
import WaylandWebStream.Lib.Watch
import WaylandWebStream.Lib.Utf8
import WaylandWebStream.Wire.Model

/-!
# Clipboard — the bridge and the nested compositor

The bridge is a data-control client of the nest: it takes the nest's
selection with a source of its own when the device sends a payload, and
reads the selection of others off the offers the nest announces. Between
the two run a FIFO of the bridge's requests and one of the nest's events.

The nest changes its selection when it gets to a request of the bridge
or when one of its own clients copies. For each change it first cancels
the source the bridge had as the selection, if it had one, and then
announces the new selection: the offer, its MIME types, `selection`.
-/

namespace WaylandWebStream

namespace Clipboard

open Wire (ClipboardData maxClipboardBytes)

/-! ## MIME types -/

def textMimes : List String :=
  ["text/plain;charset=utf-8", "text/plain", "UTF8_STRING", "STRING", "TEXT"]

def imageMimes : List String := ["image/png"]

/-- `str::starts_with`. -/
def startsWith (pre x : String) : Bool := pre.toList.isPrefixOf x.toList

/-- `choose_read_mime`: an image before text, the preferred types first;
with it, whether the type is an image's. -/
def chooseReadMime (mimes : List String) : Option (String × Bool) :=
  match imageMimes.find? (mimes.contains ·) with
  | some m => some (m, true)
  | none =>
    match mimes.find? (startsWith "image/") with
    | some m => some (m, true)
    | none =>
      match textMimes.find? (mimes.contains ·) with
      | some m => some (m, false)
      | none =>
        match mimes.find? (startsWith "text/") with
        | some m => some (m, false)
        | none => none

/-- The bytes of a payload, all the bridge compares payloads by. -/
def bytesOf : ClipboardData → Bytes
  | .text text => Utf8.encode text
  | .image _ bytes => bytes

/-- The MIME types a payload is offered under. -/
def mimesOf : ClipboardData → List String
  | .text _ => textMimes
  | .image mime _ => [mime]

/-- The payload a buffer read under a MIME type is pushed as. -/
def dataOf (mime : String) (isImage : Bool) (buf : Bytes) : ClipboardData :=
  if isImage then .image mime buf else .text (Utf8.decodeLossy buf)

/-! ## Offers, requests and events -/

/-- **What a client of the nest copied**: the formats it offers the copy
in. The stamp tells copies apart; nothing reads it. -/
structure Copy where
  stamp : ℕ
  formats : List (String × Bytes)
  deriving DecidableEq

/-- Who is behind a selection: a source of the bridge, by its number and
the MIME types it offers, or a client of the nest. -/
inductive Origin
  | own (source : ℕ) (mimes : List String)
  | foreign (copy : Copy)
  deriving DecidableEq

/-- The bridge's source behind a selection, if it is one. -/
def Origin.source? : Origin → Option ℕ
  | .own source _ => some source
  | .foreign _ => none

def Origin.mimes : Origin → List String
  | .own _ mimes => mimes
  | .foreign copy => copy.formats.map Prod.fst

/-- **An offer object.** The bridge knows it by its id; the nest knows
whose selection it stands for. -/
structure Offer where
  id : ℕ
  origin : Origin
  deriving DecidableEq

/-- `create_data_source`, its `offer`s and `set_selection`, one request. -/
structure Request where
  source : ℕ
  mimes : List String
  deriving DecidableEq

/-- The events of the data-control device, its offers and its sources. -/
inductive Event
  | dataOffer (offer : Offer)
  | offerMime (offer : Offer) (mime : String)
  | selection (offer : Option Offer)
  /-- A client of the nest wants the bytes of a source of the bridge. -/
  | send (source : ℕ)
  | cancelled (source : ℕ)
  deriving DecidableEq

/-! ## The bridge -/

/-- The bridge thread's state. -/
structure ClipState where
  /-- MIME types collected per data offer, keyed by the offer's id. -/
  offerMimes : ℕ → Option (List String) := fun _ => none
  /-- How many sources were created, the latest one's number. -/
  created : ℕ := 0
  /-- The source we currently own the selection with. -/
  source : Option ℕ := none
  /-- Bytes that source serves on `send`, and the types it advertises. -/
  serveBytes : Bytes := []
  serveMimes : List String := []
  /-- Set while we own the selection. -/
  owning : Bool := false
  /-- Last payload bytes seen in either direction. -/
  lastValue : Option Bytes := none
  fromRemote : Watch ClipboardData := Watch.channel (.text "")

/-- **`set_selection`**: take ownership of the nest's selection with a
new source that serves `data`; the request is what goes to the nest. -/
def setSelection (s : ClipState) (data : ClipboardData) : ClipState × Option Request :=
  if (bytesOf data).length > maxClipboardBytes then
    (s, none)
  else if s.lastValue = some (bytesOf data) then
    (s, none)
  else
    ({ s with
        created := s.created + 1, serveBytes := bytesOf data, serveMimes := mimesOf data,
        source := some (s.created + 1), owning := true, lastValue := some (bytesOf data) },
      some ⟨s.created + 1, mimesOf data⟩)

/-- **`read_offer`.** `delivered` is what comes out of the pipe for the
MIME type asked for, `none` where the pipe, the flush or the read fails. -/
def readOffer (s : ClipState) (off : Offer) (delivered : Option Bytes) : ClipState :=
  match chooseReadMime ((s.offerMimes off.id).getD []) with
  | none => s
  | some (mime, isImage) =>
    match delivered with
    | none => s
    | some content =>
      let buf := content.take (maxClipboardBytes + 1)
      if buf.length > maxClipboardBytes then
        s
      else if s.lastValue = some buf then
        s
      else
        { s with
          lastValue := some buf
          fromRemote := s.fromRemote.send (dataOf mime isImage buf) }

def onDataOffer (s : ClipState) (off : Offer) : ClipState :=
  { s with offerMimes := Function.update s.offerMimes off.id (some []) }

def onOfferMime (s : ClipState) (off : Offer) (mime : String) : ClipState :=
  { s with
    offerMimes := Function.update s.offerMimes off.id
      (some ((s.offerMimes off.id).getD [] ++ [mime])) }

/-- `on_selection`: the selection is read unless the bridge owns it. With
the state goes the offer `read_offer` was called on, if it was. -/
def onSelection (s : ClipState) (offer : Option Offer) (delivered : Option Bytes) :
    ClipState × Option Offer :=
  match offer with
  | none => (s, none)
  | some off =>
    let destroyed (s : ClipState) : ClipState :=
      { s with offerMimes := Function.update s.offerMimes off.id none }
    if s.owning then (destroyed s, none) else (destroyed (readOffer s off delivered), some off)

/-- `on_source_cancelled`: only the current source's end is the end of
the ownership. -/
def onSourceCancelled (s : ClipState) (src : ℕ) : ClipState :=
  if s.source = some src then { s with source := none, owning := false } else s

/-- `on_source_send`: whatever source is asked, the bytes are the latest. -/
def onSourceSend (s : ClipState) : Bytes := s.serveBytes

/-- One event dispatched, and the offer read for it. -/
def handle (s : ClipState) (delivered : Option Bytes) : Event → ClipState × Option Offer
  | .dataOffer offer => (onDataOffer s offer, none)
  | .offerMime offer mime => (onOfferMime s offer mime, none)
  | .selection offer => onSelection s offer delivered
  | .send _ => (s, none)
  | .cancelled source => (onSourceCancelled s source, none)

/-! ## The nest -/

/-- The nest's selection, and how often it was changed, which numbers
the offers. -/
structure Nest where
  selection : Option Offer := none
  changes : ℕ := 0

/-- The bridge's source that is the nest's selection, if one is. -/
def Nest.owner (n : Nest) : Option ℕ := n.selection.bind fun off => off.origin.source?

/-- What the source hears that is about to be replaced. -/
def Nest.cancels (n : Nest) : List Event := n.owner.toList.map .cancelled

/-- The events that announce a selection. -/
def announcement : Option Offer → List Event
  | none => [.selection none]
  | some off => .dataOffer off :: off.origin.mimes.map (.offerMime off) ++ [.selection (some off)]

/-- The offer a selection of the nest is announced with. -/
def Nest.offer (n : Nest) (origin : Option Origin) : Option Offer :=
  origin.map fun origin => ⟨n.changes, origin⟩

/-! ## Bridge and nest together -/

/-- The bridge, the nest, and what is under way between them. -/
structure World where
  bridge : ClipState := {}
  nest : Nest := {}
  requests : List Request := []
  events : List Event := []
  /-- The offers `read_offer` was called on, in order. -/
  reads : List Offer := []

/-- What can happen next. -/
inductive Action
  /-- The device's payload arrives on the bridge's channel. -/
  | payload (data : ClipboardData)
  /-- The bridge dispatches the next event. -/
  | dispatch (delivered : Option Bytes)
  /-- The nest gets to the next request. -/
  | process
  /-- A client of the nest copies. -/
  | copy (copy : Copy)
  /-- The nest's selection is cleared. -/
  | clear
  /-- A client of the nest pastes what the bridge's source offers. -/
  | paste
  deriving DecidableEq

namespace World

/-- **The nest's selection changes**, to what `origin` is behind or to
nothing: the replaced source hears of it first, then the device. -/
def select (w : World) (origin : Option Origin) : World :=
  { w with
    nest := ⟨w.nest.offer origin, w.nest.changes + 1⟩
    events := w.events ++ (w.nest.cancels ++ announcement (w.nest.offer origin)) }

/-- Whether dispatching the event calls `read_offer`, and on what; what the
read delivers has no part in it (`handle_reading`). -/
def reading (w : World) (e : Event) : Option Offer := (handle w.bridge none e).2

/-- The bridge serves a payload of the device. -/
def payload (w : World) (data : ClipboardData) : World :=
  { w with
    bridge := (setSelection w.bridge data).1
    requests := w.requests ++ (setSelection w.bridge data).2.toList }

/-- The bridge dispatches `e`, the head of `e :: events`. -/
def dispatch (w : World) (delivered : Option Bytes) (e : Event) (events : List Event) : World :=
  { w with
    bridge := (handle w.bridge delivered e).1
    events := events
    reads := w.reads ++ (handle w.bridge delivered e).2.toList }

/-- One step. -/
def step (w : World) : Action → Option World
  | .payload data => some (w.payload data)
  | .dispatch delivered =>
    match w.events with
    | [] => none
    | e :: events => some (w.dispatch delivered e events)
  | .process =>
    match w.requests with
    | [] => none
    | r :: requests => some (({ w with requests := requests }).select (some (.own r.source r.mimes)))
  | .copy c => some (w.select (some (.foreign c)))
  | .clear => some (w.select none)
  | .paste => w.nest.owner.map fun k => { w with events := w.events ++ [.send k] }

/-- The bridge binds its device: the nest announces the selection it has,
a client's or none. -/
def start (first : Option Copy) : World := ({} : World).select (first.map .foreign)

/-- **The bridge and the nest.** -/
def machine : Machine World Action where
  init w := ∃ first, w = start first
  step := step

/-- Nothing is under way between the two. -/
def Quiescent (w : World) : Prop := w.requests = [] ∧ w.events = []

instance (w : World) : Decidable w.Quiescent := inferInstanceAs (Decidable (_ ∧ _))

end World

end Clipboard

end WaylandWebStream
