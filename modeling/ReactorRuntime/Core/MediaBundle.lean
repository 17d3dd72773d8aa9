import ReactorRuntime.Lists.Dict

/-!
# Bundles of media, and their split into frames

`MediaBundle` and `split_batch` of `core/values.py`.  The types `P`, `S` and `M` are those of a
picture, of a sample and of a metadata value: a payload is taken as its entries along the one axis
that a split divides.  All that is raised is a `ValueError`.

Left out: what else a track is described by.
-/

namespace ReactorRuntime.Core

open ReactorRuntime.Lists

inductive TrackKind where
  | video
  | audio
  deriving DecidableEq

variable {P S M : Type*}

/-- A payload array, by its dimensions. -/
inductive Payload (P S : Type*) where
  /-- A picture of a video track. -/
  | picture (p : P)
  /-- Several pictures, along a first axis. -/
  | batch (ps : List P)
  /-- Samples of an audio track, along the only axis. -/
  | flat (samples : List S)
  /-- Samples along the second axis. -/
  | mono (samples : List S)
  deriving DecidableEq

def Payload.kind : Payload P S → TrackKind
  | .picture _ | .batch _ => .video
  | .flat _ | .mono _ => .audio

inductive Metadata (M : Type*) where
  | none
  | one (m : M)
  | each (ms : List M)
  deriving DecidableEq

structure TrackData (P S M : Type*) where
  name : String
  data : Payload P S
  metadata : Metadata M := .none
  deriving DecidableEq

structure MediaBundle (P S M : Type*) where
  tracks : List (String × TrackData P S M)
  nodup : (tracks.map Prod.fst).Nodup
  deriving DecidableEq

/-- Why a bundle cannot be split. -/
inductive SplitError where
  /-- "batched video tracks disagree on frame count: {counts}". -/
  | frameCounts (counts : List ℕ)
  /-- "Track '{name}' carries {entries} metadata entries for {frames} frames". -/
  | metadataEntries (name : String) (entries frames : ℕ)
  /-- "Video track '{name}' has batch size {size}, expected {expected} (from '{first}')". -/
  | batchSize (name : String) (size expected : ℕ) (first : String)
  /-- "number sections must be larger than 0.", from `np.array_split`. -/
  | noSections
  deriving DecidableEq

/-! ### One track -/

namespace TrackData

variable (t : TrackData P S M)

def batchSize : Option (String × ℕ) :=
  match t.data with
  | .batch ps => some (t.name, ps.length)
  | _ => none

/-- Whether the track is of sound. -/
def isAudio : Bool := decide (t.data.kind = .audio)

def frameMetadata (index : ℕ) : Metadata M :=
  match t.metadata with
  | .each ms => (ms[index]?).elim .none .one
  | metadata => metadata

/-- The check of a metadata list. -/
def metadataError (nFrames : ℕ) : Option SplitError :=
  match t.metadata with
  | .each ms => if ms.length = nFrames then none else some (.metadataEntries t.name ms.length nFrames)
  | _ => none

def squeeze : TrackData P S M :=
  { t with
    data := match t.data with
      | .batch (p :: _) => .picture p
      | data => data
    metadata := t.frameMetadata 0 }

end TrackData

/-- Where the piece `index` of `np.array_split` begins, of `length` entries in `n` sections. -/
def divPoint (length n index : ℕ) : ℕ := index * (length / n) + min index (length % n)

def arraySplit (n : ℕ) (l : List S) : List (List S) :=
  (List.range n).map fun i =>
    (l.drop (divPoint l.length n i)).take
      (divPoint l.length n (i + 1) - divPoint l.length n i)

def Payload.split (nFrames : ℕ) : Payload P S → List (Payload P S)
  | .picture p => List.replicate nFrames (.picture p)
  | .batch ps => ps.map .picture
  | .flat samples | .mono samples => (arraySplit nFrames samples).map .mono

/-! ### Bundles -/

namespace MediaBundle

variable (bundle : MediaBundle P S M)

def ofPairs (pairs : List (String × TrackData P S M)) : MediaBundle P S M :=
  ⟨Dict.ofPairs pairs, Dict.nodup_ofPairs pairs⟩

def getTracks : List (TrackData P S M) := bundle.tracks.map Prod.snd

def getTrack (name : String) : Option (TrackData P S M) := bundle.tracks.lookup name

def getTracksByKind (kind : TrackKind) : List (TrackData P S M) :=
  bundle.getTracks.filter fun t => t.data.kind = kind

/-- The batched video tracks, by name, with their sizes. -/
def batched : List (String × ℕ) := bundle.getTracks.filterMap TrackData.batchSize

def frameCount : Except SplitError ℕ :=
  match (bundle.batched.map Prod.snd).dedup with
  | [] => .ok 1
  | [n] => .ok n
  | counts => .error (.frameCounts (counts.mergeSort fun a b => decide (a ≤ b)))

def splits (kind : TrackKind) (nFrames : ℕ) : List (String × List (Payload P S)) :=
  Dict.ofPairs ((bundle.getTracksByKind kind).map fun t => (t.name, t.data.split nFrames))

def frame (nFrames index : ℕ) : MediaBundle P S M :=
  let byName := Dict.ofPairs (bundle.getTracks.map fun t => (t.name, t))
  ofPairs ((bundle.splits .video nFrames ++ bundle.splits .audio nFrames).filterMap fun split =>
    (byName.lookup split.1).bind fun source => (split.2[index]?).map fun data =>
      (split.1, { name := source.name, data, metadata := source.frameMetadata index }))

def splitBatch : Except SplitError (List (MediaBundle P S M)) :=
  match bundle.batched with
  | [] => .ok [bundle]
  | (first, nFrames) :: rest =>
    match bundle.getTracks.findSome? fun t => t.metadataError nFrames with
    | some e => .error e
    | none =>
      if nFrames = 1 then
        .ok [⟨bundle.tracks.map fun entry => (entry.1, entry.2.squeeze), by
          rw [List.map_map]
          exact bundle.nodup⟩]
      else
        match ((first, nFrames) :: rest).find? fun track => track.2 ≠ nFrames with
        | some (name, size) => .error (.batchSize name size nFrames first)
        | none =>
          if nFrames = 0 ∧ bundle.getTracksByKind .audio ≠ [] then .error .noSections
          else .ok ((List.range nFrames).map (bundle.frame nFrames))

end MediaBundle

end ReactorRuntime.Core
