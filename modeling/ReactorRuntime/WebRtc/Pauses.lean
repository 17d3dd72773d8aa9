import Mathlib.Data.Finset.Basic
import ReactorRuntime.TransitionSystem.Basic
import ReactorRuntime.WebRtc.Sdp

/-!
# The pauses of the outbound tracks

`pause_track` and `resume_track` of `transport/webrtc/peer.py`, which change a set of names and mark
it changed from any thread, and the task on the event loop that applies the set: each pass rewrites
the descriptions of the negotiation and hands them to the engine.

What is done under `_pauses_lock` is one step.  A pass reads the set in a step of its own, and each
of the three calls of the engine is one that succeeds, or raises and leaves the engine's
descriptions as they were.  Left out: a peer that is stopped, the transceivers that the second call
restates, and the cancellation of the task.
-/

namespace ReactorRuntime.WebRtc

/-- A track of the client's track map, by the m-section that carries it. -/
structure MappedTrack where
  mid : String
  name : String
  /-- Whether the model sends on the track. -/
  out : Bool

/-- What negotiation settled on: the track map, the offer and the answer. -/
structure Negotiated where
  tracks : List MappedTrack
  offer : Sdp
  answer : Sdp
  /-- The track map is keyed by mid. -/
  nodup_mids : (tracks.map MappedTrack.mid).Nodup
  offer_oneMid : offer.OneMid
  answer_oneMid : answer.OneMid
  /-- The session that a joining client reads describes every outbound track as sending. -/
  offer_sends : ∀ track ∈ tracks, track.out = true → offer.directionOf track.mid ≠ some .inactive
  answer_sends : ∀ track ∈ tracks, track.out = true →
    answer.directionOf track.mid ≠ some .inactive

/-- A description with every outbound section rewritten, those of the tracks in `paused` inactive
and the others `active`. -/
def Sdp.restate (tracks : List MappedTrack) (paused : Finset String) (active : Direction)
    (sdp : Sdp) : Sdp :=
  tracks.foldl (fun sdp track =>
    if track.out then
      sdp.setMediaDirection track.mid (if track.name ∈ paused then .inactive else active)
    else sdp) sdp

structure Pass where
  /-- The pause set, as the pass read it. -/
  read : Finset String
  /-- The names of it that the track map has. -/
  paused : Finset String
  offer : Sdp
  answer : Sdp

inductive Applier where
  /-- It looks whether there is something new. -/
  | checking
  | reading
  | settingRemote (pass : Pass)
  | restating (pass : Pass)
  | settingLocal (pass : Pass)

/-- A pass that has ended, with what the engine then held. -/
structure Passed where
  read : Finset String
  /-- Whether the engine raised in it. -/
  raised : Bool
  offer : Sdp
  answer : Sdp

structure TrackPauses where
  pausedTracks : Finset String := ∅
  /-- `_pauses_changed`. -/
  changed : Bool := false
  /-- `_pauses_applier_running`. -/
  running : Bool := false
  /-- The pause set that was last applied, with the negotiation to begin with. -/
  applied : Finset String := ∅
  renegotiations : ℕ := 0
  /-- The calls that have changed the set and not marked it yet. -/
  marking : ℕ := 0
  /-- The calls that are about to start the applier. -/
  spawning : ℕ := 0
  tasks : List Applier := []
  /-- The remote description that the engine holds. -/
  remote : Sdp
  /-- The local one. -/
  local_ : Sdp
  /-- History: whether the set was changed since a pass last read it. -/
  requested : Bool := false
  /-- History: the remote description was applied by a pass that did not apply the local one. -/
  half : Bool := false
  /-- History: the offers handed to the engine. -/
  offers : List Sdp := []
  /-- History: the answers handed to the engine. -/
  answers : List Sdp := []
  passes : List Passed := []

namespace TrackPauses

variable (negotiated : Negotiated) (s : TrackPauses)

/-- `pause_track`, up to `_schedule_direction`. -/
def pause (name : String) : TrackPauses :=
  { s with
    pausedTracks := insert name s.pausedTracks
    marking := s.marking + 1
    requested := true }

/-- `resume_track`, up to `_schedule_direction`. -/
def resume (name : String) : TrackPauses :=
  { s with
    pausedTracks := s.pausedTracks.erase name
    marking := s.marking + 1
    requested := true }

/-- `_schedule_direction`, under the lock. -/
def mark : TrackPauses :=
  if s.running then { s with changed := true, marking := s.marking - 1 }
  else { s with
    changed := true
    running := true
    marking := s.marking - 1
    spawning := s.spawning + 1 }

/-- The end of `_schedule_direction`, which starts the applier. -/
def spawn : TrackPauses :=
  { s with spawning := s.spawning - 1, tasks := s.tasks ++ [.checking] }

def outNames : Finset String := (negotiated.tracks.map MappedTrack.name).toFinset

/-- The pass that sets the directions of `paused`. -/
def pass (read paused : Finset String) (renegotiations : ℕ) : Pass where
  read := read
  paused := paused
  offer := (negotiated.offer.bumpSessionVersion renegotiations).restate negotiated.tracks paused
    .recvonly
  answer := (negotiated.answer.bumpSessionVersion renegotiations).restate negotiated.tracks paused
    .sendonly

def endPass (i : ℕ) (read : Finset String) (raised : Bool) : TrackPauses :=
  { s with
    tasks := s.tasks.set i .checking
    passes := s.passes ++ [⟨read, raised, s.remote, s.local_⟩] }

/-- The next step of the applier that is the `i`-th: `_apply_changed_pauses` and `_apply_pauses`. -/
def work (i : ℕ) (raises : Bool) : Applier → TrackPauses
  | .checking =>
    if s.changed then { s with changed := false, tasks := s.tasks.set i .reading }
    else { s with running := false, tasks := s.tasks.eraseIdx i }
  | .reading =>
    let paused := s.pausedTracks ∩ outNames negotiated
    let s := { s with requested := false }
    if paused = s.applied then s.endPass i s.pausedTracks false
    else { s with
      renegotiations := s.renegotiations + 1
      tasks := s.tasks.set i
        (.settingRemote (pass negotiated s.pausedTracks paused (s.renegotiations + 1))) }
  | .settingRemote pass =>
    let s := { s with offers := s.offers ++ [pass.offer] }
    if raises then s.endPass i pass.read true
    else { s with remote := pass.offer, half := true, tasks := s.tasks.set i (.restating pass) }
  | .restating pass =>
    if raises then s.endPass i pass.read true
    else { s with tasks := s.tasks.set i (.settingLocal pass) }
  | .settingLocal pass =>
    let s := { s with answers := s.answers ++ [pass.answer] }
    if raises then s.endPass i pass.read true
    else { s with local_ := pass.answer, applied := pass.paused, half := false }.endPass i
      pass.read false

end TrackPauses

/-! ### Runs -/

/-- What happens next to the pauses of a peer. -/
inductive TrackPauses.Label where
  | pause (name : String)
  | resume (name : String)
  | mark
  | spawn
  /-- The `i`-th applier goes on; `raises` says what a call of the engine does. -/
  | work (i : ℕ) (raises : Bool)

def TrackPauses.next (negotiated : Negotiated) (s : TrackPauses) :
    TrackPauses.Label → Option TrackPauses
  | .pause name => some (s.pause name)
  | .resume name => some (s.resume name)
  | .mark => if s.marking = 0 then none else some s.mark
  | .spawn => if s.spawning = 0 then none else some s.spawn
  | .work i raises => s.tasks[i]?.map (s.work negotiated i raises)

def trackPauses (negotiated : Negotiated) : TransitionSystem TrackPauses TrackPauses.Label where
  init := { remote := negotiated.offer, local_ := negotiated.answer }
  step := TrackPauses.next negotiated

/-- A pass that finds the set that was last applied finds the engine with both its descriptions. -/
def TrackPauses.whole (negotiated : Negotiated) (s : TrackPauses) : TrackPauses.Label → Bool
  | .work i _ =>
    match s.tasks[i]? with
    | some .reading => decide (s.pausedTracks ∩ outNames negotiated = s.applied → s.half = false)
    | _ => true
  | _ => true

end ReactorRuntime.WebRtc
