import WaylandWebStream.Lib.Machine
import WaylandWebStream.Lib.Amortized
import WaylandWebStream.Lib.Reactor
import WaylandWebStream.Lib.Logged
import WaylandWebStream.Lib.Watch
import WaylandWebStream.Lib.Broadcast
import WaylandWebStream.Lib.Bytes
import WaylandWebStream.Lib.Base64
import WaylandWebStream.Lib.Utf8
import WaylandWebStream.Lib.Json
import WaylandWebStream.Lib.Overwrite
import WaylandWebStream.Lib.Held
import WaylandWebStream.Lib.Latest
import WaylandWebStream.Lib.Fifo
import WaylandWebStream.Lib.Cadence
import WaylandWebStream.Lib.RoundRobin
import WaylandWebStream.Lib.Panics
import WaylandWebStream.Lib.Largest
import WaylandWebStream.Lib.Rounding
import WaylandWebStream.Lib.Binary64
import WaylandWebStream.Lib.Casts
import WaylandWebStream.Lib.Sums
import WaylandWebStream.Lib.Strided
import WaylandWebStream.Lib.Blocks
import WaylandWebStream.Lib.Backlog
import WaylandWebStream.Wire.Model
import WaylandWebStream.Wire.RoundTrip
import WaylandWebStream.Wire.Messages
import WaylandWebStream.Wire.Control
import WaylandWebStream.Server.Takeover
import WaylandWebStream.Control.Page
import WaylandWebStream.Control.State
import WaylandWebStream.Control.Follows
import WaylandWebStream.Control.Convergence
import WaylandWebStream.Compositor.Paint
import WaylandWebStream.Compositor.Repaint
import WaylandWebStream.Compositor.Damage
import WaylandWebStream.Compositor.Commit
import WaylandWebStream.Compositor.Readers
import WaylandWebStream.Compositor.Favicon
import WaylandWebStream.Compositor.AppMeta
import WaylandWebStream.Compositor.Cursor
import WaylandWebStream.Control.Settling
import WaylandWebStream.Control.Mirrored
import WaylandWebStream.Encoder.Convert
import WaylandWebStream.Encoder.X264
import WaylandWebStream.Encoder.Submits
import WaylandWebStream.Encoder.Vaapi
import WaylandWebStream.Pipeline.Model
import WaylandWebStream.Pipeline.Steps
import WaylandWebStream.Pipeline.Sizes
import WaylandWebStream.Pipeline.Conversion
import WaylandWebStream.Pipeline.Content
import WaylandWebStream.Pipeline.Keyframe
import WaylandWebStream.Pipeline.Settling
import WaylandWebStream.Pipeline.Buffers
import WaylandWebStream.Pipeline.Dmabufs
import WaylandWebStream.Pipeline.Pacing
import WaylandWebStream.Client.Stream
import WaylandWebStream.Client.Feed
import WaylandWebStream.Client.Model
import WaylandWebStream.Client.Steps
import WaylandWebStream.Client.Resync
import WaylandWebStream.Client.Chain
import WaylandWebStream.Bitrate.Algorithm
import WaylandWebStream.Bitrate.Decisions
import WaylandWebStream.Bitrate.Controller
import WaylandWebStream.Bitrate.Options
import WaylandWebStream.Bitrate.InForce
import WaylandWebStream.Bitrate.Reports
import WaylandWebStream.Compositor.OutputSize
import WaylandWebStream.Compositor.Toplevels
import WaylandWebStream.Input.Model
import WaylandWebStream.Input.TouchStream
import WaylandWebStream.Keyboard.Mirror
import WaylandWebStream.Keyboard.Passthrough
import WaylandWebStream.Client.Renderer
import WaylandWebStream.Client.Pipelines
import WaylandWebStream.Client.Relocation
import WaylandWebStream.Client.Delivery
import WaylandWebStream.Client.Resizing
import WaylandWebStream.Input.Buttons
import WaylandWebStream.Input.Channels
import WaylandWebStream.Input.Order
import WaylandWebStream.Input.Injection
import WaylandWebStream.Input.LastMove
import WaylandWebStream.Input.Sessions
import WaylandWebStream.Input.Edges
import WaylandWebStream.Input.Drain
import WaylandWebStream.Input.Uplink
import WaylandWebStream.Input.Keyboard
import WaylandWebStream.Keyboard.Typed
import WaylandWebStream.Clipboard.Bridge
import WaylandWebStream.Clipboard.Ownership
import WaylandWebStream.Clipboard.Contents
import WaylandWebStream.Clipboard.Offers
import WaylandWebStream.Clipboard.Serving
import WaylandWebStream.Clipboard.Page
import WaylandWebStream.Clipboard.Sync
import WaylandWebStream.Clipboard.Line
import WaylandWebStream.Clipboard.Convergence
import WaylandWebStream.Native.Blit
import WaylandWebStream.Native.Renderer
import WaylandWebStream.Native.Slots
import WaylandWebStream.Native.Shown
import WaylandWebStream.Native.Window
import WaylandWebStream.Native.Picture
import WaylandWebStream.Native.Decoder
import WaylandWebStream.Native.Playback
import WaylandWebStream.Native.Forwarding
import WaylandWebStream.Native.Held
import WaylandWebStream.Audio.Capture
import WaylandWebStream.Audio.Playback
import WaylandWebStream.Session.Manager
import WaylandWebStream.Session.Lifecycle
import WaylandWebStream.Server.Pings
import WaylandWebStream.Server.Parties
import WaylandWebStream.Server.Shutdown
