import Dorsche.Lib.Blocks
import Dorsche.Lib.Bytes
import Dorsche.Lib.Delay
import Dorsche.Lib.Ensure
import Dorsche.Lib.Exchange
import Dorsche.Lib.Futures
import Dorsche.Lib.Handles
import Dorsche.Lib.Holdings
import Dorsche.Lib.Interleave
import Dorsche.Lib.Monitor
import Dorsche.Lib.Pairs
import Dorsche.Lib.Process
import Dorsche.Lib.Runs
import Dorsche.Lib.Shuffle
import Dorsche.Lib.Trace
import Dorsche.Lib.Window
import Dorsche.Wireless.Types
import Dorsche.Wireless.Broadcast
import Dorsche.Wireless.Provider
import Dorsche.Wireless.Grants
import Dorsche.Wireless.DataPlane.Layout
import Dorsche.Wireless.DataPlane.Sizing
import Dorsche.Wireless.DataPlane.Ownership
import Dorsche.Wireless.DataPlane.Endpoint
import Dorsche.Wireless.DataPlane.Invariant
import Dorsche.Wireless.DataPlane.Contracts
import Dorsche.Wireless.DataPlane.Producer
import Dorsche.Wireless.DataPlane.Consumer
import Dorsche.Wireless.DataPlane.Delivery
import Dorsche.Wireless.DataPlane.Backpressure
import Dorsche.Wireless.DataPlane.Publication
import Dorsche.Wireless.DataPlane.SlotBounds
import Dorsche.Wireless.DataPlane.Peer
import Dorsche.Wireless.DataPlane.Wakeup
import Dorsche.Wireless.PipeWire
import Dorsche.Wireless.PipeWire.Balance
import Dorsche.Wireless.PipeWire.Source
import Dorsche.Wireless.PipeWire.Stall
import Dorsche.Wireless.Floss.Control
import Dorsche.Wireless.Floss.Parts
import Dorsche.Wireless.Floss.Stop
import Dorsche.Wireless.Floss.Waiting
import Dorsche.Wireless.Floss.Rollback
import Dorsche.Wireless.Negotiation
import Dorsche.Wireless.Session.Actor
import Dorsche.Wireless.Session.Clients
import Dorsche.Wireless.Session.Requests
import Dorsche.Wireless.Session.Closing
import Dorsche.Wireless.Session.Deaf
import Dorsche.Wireless.Session.Positions
import Dorsche.Topshim.Capture
import Dorsche.Topshim.Ownership
import Dorsche.Topshim.Actors
import Dorsche.Topshim.Shutdown
import Dorsche.Topshim.Ending
import Dorsche.Topshim.Sink
import Dorsche.Topshim.Voice
import Dorsche.Topshim.Flow
import Dorsche.Kernel.Btusb
import Dorsche.Kernel.AltSetting
import Dorsche.Kernel.UserspaceSco
import Dorsche.Kernel.ScoHandlers
import Dorsche.Floss.HfpHal
import Dorsche.Floss.ScoReports
import Dorsche.Bin.PeerPump
import Dorsche.Bin.Tools
import Dorsche.Bin.DorschePipewire.Playback
import Dorsche.Bin.DorschePipewire.Recording
import Dorsche.Bin.Exits
import Dorsche.Bin.Stopping
import Dorsche.Bin.FlossAudioSmoke.Main
import Dorsche.Bin.FlossAudioSmoke.Protocol
import Dorsche.Bin.FlossHfpSmoke.Pcm
import Dorsche.Bin.FlossHfpSmoke.Loopback
import Dorsche.Bin.FlossHfpSmoke.Sender
import Dorsche.Bin.FlossHfpSmoke.Main
import Dorsche.Bin.FlossHfpSmoke.Cleanup
import Dorsche.Bin.FlossHfpSmoke.Duplex
import Dorsche.Bin.FlossLeAudioSmoke.Samples
import Dorsche.Bin.FlossLeAudioSmoke.Capture
