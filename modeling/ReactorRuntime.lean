import ReactorRuntime.Runtime.Equiv.Recording
import ReactorRuntime.StepResults.Equiv.Store
import ReactorRuntime.SharedMemory.Equiv.Link
import ReactorRuntime.ModelServer.Equiv.ResetPending
import ReactorRuntime.ModelServer.Equiv.Answers
import ReactorRuntime.ModelServer.Equiv.Results
import ReactorRuntime.ModelServer.Equiv.Generations
import ReactorRuntime.ModelServer.Equiv.BatchRuns
import ReactorRuntime.WebRtc.Equiv.Reported
import ReactorRuntime.WebRtc.Equiv.Slots
import ReactorRuntime.WebRtc.Equiv.TrickleIce
import ReactorRuntime.Runtime.Equiv.Subscriptions
import ReactorRuntime.WebRtc.Equiv.Admission
import ReactorRuntime.WebRtc.Equiv.Deduplicate
import ReactorRuntime.WebRtc.Equiv.Sniff
import ReactorRuntime.WebRtc.Equiv.Pauses
import ReactorRuntime.WebRtc.Equiv.MediaPacing
import ReactorRuntime.WebRtc.Equiv.OutboundAudio
import ReactorRuntime.Interface.Equiv.Schema
import ReactorRuntime.Interface.Equiv.Coercion
import ReactorRuntime.LiveKit.Equiv.Participant
import ReactorRuntime.LiveKit.Equiv.RoomInputs
import ReactorRuntime.LiveKit.Equiv.RoomMedia
import ReactorRuntime.LiveKit.Equiv.Router
import ReactorRuntime.Distributed.Equiv.Lockstep
import ReactorRuntime.Interface.Equiv.Dispatcher
import ReactorRuntime.Interface.Equiv.InputBuffer
import ReactorRuntime.Interface.Equiv.ModelLoop
import ReactorRuntime.Interface.Equiv.Pipeline
import ReactorRuntime.Interface.Equiv.TrackReads
import ReactorRuntime.Protocol.Equiv.MessageGateway
import ReactorRuntime.Protocol.Equiv.V0
import ReactorRuntime.Runtime.Equiv.Claims
import ReactorRuntime.Runtime.Equiv.FanOut
import ReactorRuntime.Runtime.Equiv.Life
import ReactorRuntime.Runtime.Equiv.Service
import ReactorRuntime.Runtime.Equiv.Outgoing
import ReactorRuntime.Runtime.Equiv.UploadVerdicts
import ReactorRuntime.Recording.Equiv.AudioGrid
import ReactorRuntime.Recording.Equiv.Resampling
import ReactorRuntime.Core.Equiv.MediaBundle
import ReactorRuntime.ModelServer.Equiv.Failures
import ReactorRuntime.SharedMemory.Equiv.Packing
import ReactorRuntime.Transport.Equiv.StepDecoding
import ReactorRuntime.Runtime.Equiv.UploadStore
import ReactorRuntime.Runtime.Equiv.StepInputs
import ReactorRuntime.Interface.Equiv.Messages
import ReactorRuntime.Interface.Equiv.AppContract
import ReactorRuntime.ModelServer.Equiv.ClientRuns
