import ReactorRuntime.Protocol.MessageGateway
import ReactorRuntime.TransitionSystem.Basic

/-!
# The opening of a wire

`WebRTCPeer` of `transport/webrtc/peer.py` as far as its wire goes: the peer connection and the two
data channels, which become ready on threads of their own, the frames that arrive before all three
are, and the loss of the wire, which is reported on the event loop.

A method that takes `_ready_lock` does what it does under the lock in one step; the check of the
stop event that a sink makes before it is a step of its own, and so is each part of `_report_loss`
and of `_on_data_channel`.  The engine calls the sink of one channel for one frame at a time.

`scheduled` is everything handed to the event loop, in order, of which the loop has run the first
`ran`.  Left out: what the callbacks do, the times, the decoding of a text frame, and a loop that
is closed.
-/

namespace ReactorRuntime.WebRtc

open ReactorRuntime.Protocol (Channel Payload ProtocolVersion)

/-- The bytes that `lstrip` takes off. -/
def isSpaceByte (b : UInt8) : Bool := b = 32 ∨ (9 ≤ b ∧ b ≤ 13)

/-- `sniff`: text, and bytes that open a JSON document, are of the legacy version. -/
def sniff : Payload → ProtocolVersion
  | .text _ => .v0
  | .bytes b =>
    match b.dropWhile isSpaceByte with
    | 123 :: _ | 91 :: _ => .v0
    | _ => .v1

structure InboundFrame where
  payload : Payload
  version : ProtocolVersion
  channel : Channel

def maxEarlyFrames : ℕ := 64

/-- A call on the event loop. -/
inductive Scheduled where
  | connected
  | message (frame : InboundFrame)
  | ping
  | reportLoss
  | disconnect

/-- How far `_report_loss` is: what it does next. -/
inductive Loss where
  | idle
  | stopping
  | clearing
  | releasing
  | firing
  deriving DecidableEq

structure Wire where
  /-- The stop event. -/
  stopped : Bool := false
  peerConnected : Bool := false
  dataOpen : Bool := false
  controlOpen : Bool := false
  connected : Bool := false
  earlyFrames : List InboundFrame := []
  protocolVersion : ProtocolVersion
  protocolSniffed : Bool := false
  scheduled : List Scheduled := []
  ran : ℕ := 0
  loss : Loss := .idle
  /-- The frame that a sink has in hand, past its check of the stop event. -/
  inSink : Channel → Option Payload := fun _ => none
  /-- What `_on_data_channel` read of a channel's state and has not recorded yet. -/
  reading : Channel → Option Bool := fun _ => none
  /-- History: whether the engine's last word of the peer is that it is connected. -/
  peerUp : Bool := false
  /-- History: whether a terminal state of the peer has arrived. -/
  terminal : Bool := false
  /-- History: the engine's last word of a channel. -/
  up : Channel → Bool := fun _ => false
  /-- History: whether a transition has arrived since `_on_data_channel` read the state. -/
  stale : Channel → Bool := fun _ => false
  /-- History: whether a state was recorded that was stale. -/
  overtaken : Bool := false
  /-- History: the frames of each channel. -/
  arrived : Channel → List Payload := fun _ => []
  /-- History: the frames that took the lock before the wire was open. -/
  before : List InboundFrame := []
  /-- History: those that took it while the wire was open. -/
  after : List InboundFrame := []
  /-- History: those that took it once the wire was lost. -/
  missed : List InboundFrame := []
  /-- History: those whose sink found the peer stopped. -/
  refused : Channel → List Payload := fun _ => []

namespace Wire

variable (s : Wire)

def fire (call : Scheduled) : Wire := { s with scheduled := s.scheduled ++ [call] }

def deliver (frame : InboundFrame) : Wire := (s.fire (.message frame)).fire .ping

def isOpen : Channel → Bool
  | .control => s.controlOpen
  | .data => s.dataOpen

def fireConnectedIfReady : Wire :=
  if s.stopped || s.connected then s
  else if s.peerConnected && s.dataOpen && s.controlOpen then
    s.earlyFrames.foldl deliver ({ s with connected := true, earlyFrames := [] }.fire .connected)
  else s

/-- `_on_connection_state_change`, of a peer that is connected. -/
def peerConnects : Wire :=
  { s with peerConnected := true, peerUp := true }.fireConnectedIfReady

/-- `_on_connection_state_change`, of a terminal state. -/
def peerEnds : Wire :=
  { s with peerUp := false, terminal := true }.fire .reportLoss

def setChannelOpen (channel : Channel) (isOpen : Bool) : Wire :=
  match channel with
  | .control => { s with controlOpen := isOpen }.fireConnectedIfReady
  | .data => { s with dataOpen := isOpen }.fireConnectedIfReady

def transition (channel : Channel) (isOpen : Bool) : Wire :=
  { s with
    up := Function.update s.up channel isOpen
    stale := Function.update s.stale channel true }.setChannelOpen channel isOpen

/-- `_on_data_channel`, which registers the sinks of a channel and reads its state. -/
def adopt (channel : Channel) (isOpen : Bool) : Wire :=
  { s with
    reading := Function.update s.reading channel (some isOpen)
    stale := Function.update s.stale channel false }

/-- The last line of `_on_data_channel`. -/
def record (channel : Channel) (isOpen : Bool) : Wire :=
  { s with
    reading := Function.update s.reading channel none
    up := if s.stale channel then s.up else Function.update s.up channel isOpen
    overtaken := s.overtaken || s.stale channel }.setChannelOpen channel isOpen

/-- A message sink, up to the lock. -/
def frame (channel : Channel) (payload : Payload) : Wire :=
  if s.stopped then { s with
    arrived := Function.update s.arrived channel (s.arrived channel ++ [payload])
    refused := Function.update s.refused channel (s.refused channel ++ [payload]) }
  else { s with
    arrived := Function.update s.arrived channel (s.arrived channel ++ [payload])
    inSink := Function.update s.inSink channel (some payload)
    protocolVersion := if s.protocolSniffed then s.protocolVersion else sniff payload
    protocolSniffed := true }

def hold (frame : InboundFrame) : Wire :=
  if maxEarlyFrames ≤ s.earlyFrames.length then s
  else { s with earlyFrames := s.earlyFrames ++ [frame] }

def opened : Bool := s.scheduled.any fun call => call matches .connected

/-- A message sink, under the lock. -/
def sink (channel : Channel) (payload : Payload) : Wire :=
  let frame : InboundFrame := ⟨payload, s.protocolVersion, channel⟩
  let s := { s with inSink := Function.update s.inSink channel none }
  if s.connected then { s with after := s.after ++ [frame] }.deliver frame
  else if s.opened then { s with missed := s.missed ++ [frame] }.hold frame
  else { s with before := s.before ++ [frame] }.hold frame

def runNext (call : Scheduled) : Wire :=
  match call with
  | .reportLoss =>
    { s with ran := s.ran + 1, loss := if s.stopped then .idle else .stopping }
  | _ => { s with ran := s.ran + 1 }

/-- The next part of `_report_loss`. -/
def lossStep : Option Wire :=
  match s.loss with
  | .idle => none
  | .stopping => some { s with stopped := true, loss := .clearing }
  | .clearing => some { s with
      connected := false
      peerConnected := false
      dataOpen := false
      controlOpen := false
      loss := .releasing }
  | .releasing => some { s with earlyFrames := [], loss := .firing }
  | .firing => some ({ s with loss := .idle }.fire .disconnect)

end Wire

/-! ### Runs -/

/-- What happens next to a wire. -/
inductive Wire.Label where
  | peerConnects
  | peerEnds
  | transition (channel : Channel) (isOpen : Bool)
  | adopt (channel : Channel) (isOpen : Bool)
  | record (channel : Channel)
  | frame (channel : Channel) (payload : Payload)
  | sink (channel : Channel)
  | runNext
  | lossStep
  /-- `_teardown` sets the stop event. -/
  | stop
  /-- `_teardown` lets go of the wire. -/
  | release

def Wire.next (s : Wire) : Wire.Label → Option Wire
  | .peerConnects => some s.peerConnects
  | .peerEnds => some s.peerEnds
  | .transition channel isOpen => some (s.transition channel isOpen)
  | .adopt channel isOpen =>
    if (s.reading channel).isSome then none else some (s.adopt channel isOpen)
  | .record channel => (s.reading channel).map (s.record channel)
  | .frame channel payload =>
    if (s.inSink channel).isSome then none else some (s.frame channel payload)
  | .sink channel => (s.inSink channel).map (s.sink channel)
  | .runNext => if s.loss = .idle then s.scheduled[s.ran]?.map s.runNext else none
  | .lossStep => s.lossStep
  | .stop => some { s with stopped := true }
  | .release => if s.stopped then some { s with earlyFrames := [] } else none

def wire (version : ProtocolVersion) : TransitionSystem Wire Wire.Label where
  init := { protocolVersion := version }
  step := Wire.next

end ReactorRuntime.WebRtc
