import ReactorRuntime.Lists.Dict
import ReactorRuntime.Transport.StepFrames

/-!
# Decoding the streams of a step request

`TrackDecoder.decode` and the decoding phase of `decode_step_frames`: the streams that were checked
are grouped by track, each group is decoded on its track's decoder, and what came of them is looked
up stream by stream.  An operation is `none` where it raises a `KeyError`.

A decoder is flushed before a stream, so that what comes out of its codec is a function of the
packets.  The groups run at once, and touch nothing but their own decoders, so that their order does
not matter.

Left out: a decoder that cannot be opened, and a picture that cannot be converted.
-/

namespace ReactorRuntime.Transport

open ReactorRuntime.Lists ReactorRuntime.Protocol

/-- `av.CodecContext.decode`, of packets that are numbered by their `pts` and then of the end of the
stream: the pictures that come out, each with its `pts` if it has one, or an `av.FFmpegError`. -/
abbrev Codec := TrackDecoder → List (List UInt8) → Except String (List (Option ℕ × VideoFrame))

def TrackDecoder.decode (codec : Codec) (decoder : TrackDecoder) (packets : List (List UInt8)) :
    Decoded :=
  (codec decoder packets).map fun pictures =>
    Dict.ofPairs (pictures.filterMap fun picture => picture.1.map fun pts => (pts, picture.2))

def decodeStream (codec : Codec) (decoders : Decoders) (stream : Stream) : Option (ℕ × Decoded) :=
  (decoders.lookup stream.entry.track).map fun decoder =>
    (stream.index, decoder.decode codec (stream.frames.map fun f => f.1.data))

def byTrack (streams : List Stream) : List (String × List Stream) :=
  streams.foldl (fun groups stream => Dict.set groups stream.entry.track
    ((groups.lookup stream.entry.track).getD [] ++ [stream])) []

/-- What the streams come to, by the number of the entry. -/
def decodeGroups (codec : Codec) (decoders : Decoders) (groups : List (String × List Stream)) :
    Option (List (ℕ × Decoded)) :=
  (groups.mapM fun group : String × List Stream =>
    group.2.mapM (decodeStream codec decoders)).map fun results => Dict.ofPairs results.flatten

/-- The pictures of the streams, in order, up to the first that is refused, and then the refusal of
the entry that was not checked. -/
def collect (decoded : List (ℕ × Decoded)) (refusal : Option StepFrameRefusal) :
    List Stream → Pictures → Option (Except StepFrameRefusal Pictures)
  | [], pictures => some (refusal.elim (.ok pictures) .error)
  | stream :: streams, pictures => do
    let result ← decoded.lookup stream.index
    match ← picturesOf stream result with
    | .error r => some (.error r)
    | .ok found => collect decoded refusal streams (pictures ++ found)

def decodeStep (codec : Codec) (videoInputs : List String) (step : RequestStep)
    (decoders : Decoders) : Option (Decoders × Except StepFrameRefusal Pictures) := do
  let checked := checkEntries videoInputs step.mediaInput.zipIdx
  let opened := checked.1.foldl openDecoder decoders
  let decoded ← decodeGroups codec opened (byTrack checked.1)
  let outcome ← collect decoded checked.2 checked.1 []
  some (opened, outcome)

end ReactorRuntime.Transport
