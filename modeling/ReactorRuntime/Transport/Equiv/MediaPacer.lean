import ReactorRuntime.Transport.MediaPacer
import Mathlib.Data.List.Basic
import Mathlib.Order.Basic

/-!
# What a connection still holds for its wire

A connection is fresh when all that it can still hand to its wire was emitted after the last flush
that has reached the place where it is held.  What the connection's threads do keeps it so
(`MediaConnection.Fresh.act`), and so does a flush, in the room as long as the pacing thread has
nothing in hand (`MediaConnection.Fresh.flushPacer`).  What the wire is handed was then emitted
after the wire's last flush, in the room as long as no callback that clears the sound waits
(`MediaConnection.Fresh.handed`).
-/

namespace ReactorRuntime.Transport

def MediaBundle.Since (n : ℕ) (b : MediaBundle) : Prop := ∀ f ∈ b.frame, n ≤ f.chunk.born

/-! ### The pacer of a WebRTC connection -/

/-- What the pacer can still dispatch was emitted after its last flush. -/
structure MediaPacer.Fresh (p : MediaPacer) : Prop where
  queue : ∀ f ∈ p.queue, p.cut ≤ f.chunk.born
  lastFrame : ∀ f ∈ p.lastFrame, p.cut ≤ f.chunk.born

namespace MediaPacer

variable {p : MediaPacer}

@[simp] theorem cut_emitOneTick : p.emitOneTick.2.cut = p.cut := by
  unfold emitOneTick
  split
  · rfl
  · split_ifs <;> rfl

@[simp] theorem epoch_emitOneTick : p.emitOneTick.2.epoch = p.epoch := by
  unfold emitOneTick
  split
  · rfl
  · split_ifs <;> rfl

theorem Fresh.emitOneTick (h : p.Fresh) :
    p.emitOneTick.2.Fresh ∧ ∀ bundle ∈ p.emitOneTick.1, bundle.Since p.cut := by
  unfold MediaPacer.emitOneTick
  split
  · rename_i f queue hqueue
    have hf : p.cut ≤ f.chunk.born := h.queue f (hqueue ▸ List.mem_cons_self)
    refine ⟨⟨fun g hg => h.queue g (hqueue ▸ List.mem_cons_of_mem _ hg), ?_⟩, ?_⟩
    · rintro g ⟨⟩
      exact hf
    · rintro bundle ⟨⟩ g ⟨⟩
      exact hf
  · split_ifs
    · refine ⟨⟨h.queue, h.lastFrame⟩, ?_⟩
      rintro bundle ⟨⟩ g hg
      cases hg
    · refine ⟨h, ?_⟩
      intro bundle hbundle
      obtain ⟨f, hf, hbundle⟩ := Option.bind_eq_some_iff.mp hbundle
      split_ifs at hbundle
      cases hbundle
      rintro g ⟨⟩
      exact h.lastFrame f hf

theorem fresh_flush {hold : Bool} {generation : ℕ} : (p.flush hold generation).Fresh where
  queue _ h := absurd h List.not_mem_nil
  lastFrame := by rintro f ⟨⟩

theorem Fresh.join (h : p.Fresh) : p.join.Fresh where
  queue _ h := absurd h List.not_mem_nil
  lastFrame := by rintro f ⟨⟩

end MediaPacer

/-! ### The peer -/

/-- What was queued since the last flush of the peer was emitted after it. -/
structure PeerMedia.Stamped (p : PeerMedia) (entry : MediaBundle × ℕ) : Prop where
  le : entry.2 ≤ p.flushes
  since : entry.2 = p.flushes → entry.1.Since p.cut

/-- What the peer can still hand to the wire was emitted after its last flush. -/
structure PeerMedia.Fresh (p : PeerMedia) : Prop where
  frameQueue : ∀ entry ∈ p.frameQueue, p.Stamped entry
  pushing : ∀ entry ∈ p.pushing, p.Stamped entry
  audioBufs : ∀ f ∈ p.audioBufs, p.cut ≤ f.chunk.born

namespace PeerMedia

variable {p p' : PeerMedia}

/-- The peer holds nothing. -/
def idle (p : PeerMedia) : Bool :=
  p.frameQueue.isEmpty && p.pushing.isNone && p.audioBufs.isEmpty

theorem idle_iff : p.idle = true ↔ p.frameQueue = [] ∧ p.pushing = none ∧ p.audioBufs = [] := by
  simp [idle, and_assoc]

@[simp] theorem cut_sendMedia {bundle : MediaBundle} : (p.sendMedia bundle).cut = p.cut := by
  unfold sendMedia
  split_ifs <;> rfl

namespace Fresh

theorem sendMedia (h : p.Fresh) {bundle : MediaBundle} (hbundle : bundle.Since p.cut) :
    (p.sendMedia bundle).Fresh := by
  unfold PeerMedia.sendMedia
  split_ifs
  · exact h
  refine ⟨?_, fun entry hentry => ⟨(h.pushing entry hentry).le, (h.pushing entry hentry).since⟩,
    h.audioBufs⟩
  intro entry hentry
  rcases List.mem_append.mp hentry with hentry | hentry
  · exact ⟨(h.frameQueue entry hentry).le, (h.frameQueue entry hentry).since⟩
  · obtain rfl := List.mem_singleton.mp hentry
    exact ⟨Nat.le_refl _, fun _ => hbundle⟩

/-- A flush of the peer counts on, so that what is being pushed is found to be stale. -/
theorem flushMedia (h : p.Fresh) {generation : ℕ} : (p.flushMedia generation).Fresh where
  frameQueue _ h := absurd h List.not_mem_nil
  pushing entry hentry := by
    have hle : entry.2 ≤ p.flushes := (h.pushing entry hentry).le
    refine ⟨Nat.le_succ_of_le hle, fun heq => ?_⟩
    exact absurd (heq ▸ hle) (Nat.not_succ_le_self _)
  audioBufs _ h := absurd h List.not_mem_nil

theorem drain (h : p.Fresh) (hdrain : p.drain = some p') : p'.Fresh ∧ p'.cut = p.cut := by
  unfold PeerMedia.drain at hdrain
  split at hdrain
  · rename_i bundle flushes frameQueue _ _ hqueue
    cases hdrain
    have hall : ∀ entry ∈ (bundle, flushes) :: frameQueue, p.Stamped entry :=
      fun entry hentry => h.frameQueue entry (hqueue ▸ hentry)
    refine ⟨⟨?_, ?_, h.audioBufs⟩, rfl⟩
    · intro entry hentry
      have hstamped := hall entry (List.mem_cons_of_mem _ hentry)
      exact ⟨hstamped.le, hstamped.since⟩
    · intro entry hentry
      have hstamped := hall _ List.mem_cons_self
      dsimp only at hentry
      split_ifs at hentry
      · cases hentry
        exact ⟨hstamped.le, hstamped.since⟩
      · cases hentry
  · cases hdrain

theorem pushVideo (h : p.Fresh) {frame : Option MediaFrame}
    (hpush : p.pushVideo = some (frame, p')) :
    p'.Fresh ∧ p'.cut = p.cut ∧ ∀ f ∈ frame, p.cut ≤ f.chunk.born := by
  unfold PeerMedia.pushVideo at hpush
  split at hpush
  · rename_i bundle flushes hpushing
    have hstamped := h.pushing _ hpushing
    have hqueue : ∀ {q : PeerMedia}, q.flushes = p.flushes → q.cut = p.cut →
        q.frameQueue = p.frameQueue → ∀ entry ∈ q.frameQueue, q.Stamped entry := by
      intro q hflushes hcut hqueue entry hentry
      rw [hqueue] at hentry
      exact ⟨hflushes ▸ (h.frameQueue entry hentry).le,
        hflushes ▸ hcut ▸ (h.frameQueue entry hentry).since⟩
    split_ifs at hpush with hvideo hflushes
    · obtain ⟨rfl, rfl⟩ := Prod.mk.inj (Option.some.inj hpush)
      refine ⟨⟨hqueue rfl rfl rfl, ?_, h.audioBufs⟩, rfl, hstamped.since hflushes⟩
      rintro entry ⟨⟩
      exact ⟨hstamped.le, hstamped.since⟩
    · obtain ⟨rfl, rfl⟩ := Prod.mk.inj (Option.some.inj hpush)
      refine ⟨⟨hqueue rfl rfl rfl, ?_, h.audioBufs⟩, rfl, ?_⟩
      · rintro entry ⟨⟩
      · rintro f ⟨⟩
  · cases hpush

theorem enqueueAudio (h : p.Fresh) {trimmed : ℕ} (henqueue : p.enqueueAudio trimmed = some p') :
    p'.Fresh ∧ p'.cut = p.cut := by
  unfold PeerMedia.enqueueAudio at henqueue
  split at henqueue
  · rename_i bundle flushes hpushing
    have hstamped := h.pushing _ hpushing
    by_cases haudio : bundle.audio = true
    swap
    · rw [if_neg haudio] at henqueue
      cases henqueue
    rw [if_pos haudio] at henqueue
    cases henqueue
    refine ⟨⟨?_, ?_, ?_⟩, rfl⟩
    · intro entry hentry
      exact ⟨(h.frameQueue entry hentry).le, (h.frameQueue entry hentry).since⟩
    · rintro entry ⟨⟩
      exact ⟨hstamped.le, hstamped.since⟩
    · intro f hf
      dsimp only at hf
      split_ifs at hf with hlands
      · rcases List.mem_append.mp (List.mem_of_mem_drop hf) with hf | hf
        · exact h.audioBufs f hf
        · exact hstamped.since hlands.1 f (Option.mem_toList.mp hf)
      · exact h.audioBufs f hf
  · cases henqueue

theorem pushed (h : p.Fresh) (hpushed : p.pushed = some p') : p'.Fresh ∧ p'.cut = p.cut := by
  unfold PeerMedia.pushed at hpushed
  split at hpushed
  · split_ifs at hpushed
    cases hpushed
    refine ⟨⟨?_, ?_, h.audioBufs⟩, rfl⟩
    · intro entry hentry
      exact ⟨(h.frameQueue entry hentry).le, (h.frameQueue entry hentry).since⟩
    · rintro entry ⟨⟩
  · cases hpushed

theorem pushAudioFrame (h : p.Fresh) {last : Bool} {f : MediaFrame}
    (hpush : p.pushAudioFrame last = some (f, p')) :
    p'.Fresh ∧ p'.cut = p.cut ∧ p.cut ≤ f.chunk.born := by
  unfold PeerMedia.pushAudioFrame at hpush
  split at hpush
  · rename_i g audioBufs _ hbufs
    obtain ⟨rfl, rfl⟩ := Prod.mk.inj (Option.some.inj hpush)
    have hg : p.cut ≤ g.chunk.born := h.audioBufs g (hbufs ▸ List.mem_cons_self)
    split_ifs
    · refine ⟨⟨?_, ?_, fun f hf => h.audioBufs f (hbufs ▸ List.mem_cons_of_mem _ hf)⟩, rfl, hg⟩
      · intro entry hentry
        exact ⟨(h.frameQueue entry hentry).le, (h.frameQueue entry hentry).since⟩
      · intro entry hentry
        exact ⟨(h.pushing entry hentry).le, (h.pushing entry hentry).since⟩
    · exact ⟨h, rfl, hg⟩
  · cases hpush

theorem close (h : p.Fresh) : p.close.Fresh where
  frameQueue _ h := absurd h List.not_mem_nil
  pushing entry hentry := ⟨(h.pushing entry hentry).le, (h.pushing entry hentry).since⟩
  audioBufs _ h := absurd h List.not_mem_nil

end Fresh

end PeerMedia

/-! ### The room -/

/-- What the room's pacer can still dispatch was emitted after its last flush. -/
structure RoomPacer.Fresh (p : RoomPacer) : Prop where
  queue : ∀ f ∈ p.queue, p.cut ≤ f.chunk.born
  inHand : ∀ bundle ∈ p.inHand, bundle.Since p.cut

namespace RoomPacer

variable {p : RoomPacer}

theorem take_fields : p.take.cut = p.cut ∧ p.take.epoch = p.epoch := by
  unfold take
  split
  · exact ⟨rfl, rfl⟩
  · split_ifs <;> exact ⟨rfl, rfl⟩

theorem Fresh.take (h : p.Fresh) : p.take.Fresh := by
  unfold RoomPacer.take
  split
  · rename_i f queue hqueue
    refine ⟨fun g hg => h.queue g (hqueue ▸ List.mem_cons_of_mem _ hg), ?_⟩
    rintro bundle ⟨⟩ g ⟨⟩
    exact h.queue f (hqueue ▸ List.mem_cons_self)
  · split_ifs
    · refine ⟨h.queue, ?_⟩
      rintro bundle ⟨⟩ g ⟨⟩
    · refine ⟨h.queue, ?_⟩
      rintro bundle ⟨⟩
    · exact h

end RoomPacer

/-- What will wait for the pump once the callbacks are made, if none is dropped. -/
def settled (pending : List MediaFrame) : List (Option MediaFrame) → List MediaFrame
  | [] => pending
  | some f :: calls => settled (pending ++ [f]) calls
  | none :: calls => settled [] calls

section Settled

variable {pending pending' : List MediaFrame} {calls : List (Option MediaFrame)} {f : MediaFrame}

theorem settled_append (rest : List (Option MediaFrame)) :
    settled pending (calls ++ rest) = settled (settled pending calls) rest := by
  induction calls generalizing pending with
  | nil => rfl
  | cons c calls ih =>
    cases c with
    | none => exact ih
    | some g => exact ih

theorem settled_map_some (frames : List MediaFrame) :
    settled pending (frames.map some) = pending ++ frames := by
  induction frames generalizing pending with
  | nil => exact (List.append_nil _).symm
  | cons g frames ih =>
    rw [List.map_cons, settled, ih, List.append_assoc]
    rfl

theorem settled_mono (h : ∀ g ∈ pending', g ∈ pending) :
    ∀ g ∈ settled pending' calls, g ∈ settled pending calls := by
  induction calls generalizing pending pending' with
  | nil => exact h
  | cons c calls ih =>
    cases c with
    | none => exact ih fun _ hg => hg
    | some g =>
      refine ih fun k hk => ?_
      rcases List.mem_append.mp hk with hk | hk
      · exact List.mem_append_left _ (h k hk)
      · exact List.mem_append_right _ hk

/-- Where no callback clears, all that waits is still there once they are made. -/
theorem mem_settled (hcalls : none ∉ calls) (hf : f ∈ pending) : f ∈ settled pending calls := by
  induction calls generalizing pending with
  | nil => exact hf
  | cons c calls ih =>
    cases c with
    | none => exact absurd List.mem_cons_self hcalls
    | some g =>
      exact ih (fun h => hcalls (List.mem_cons_of_mem _ h)) (List.mem_append_left _ hf)

end Settled

/-- What will be left of the sound was emitted after the last flush. -/
def RoomAudio.Fresh (a : RoomAudio) : Prop :=
  ∀ f ∈ settled a.pending a.calls, a.cut ≤ f.chunk.born

namespace RoomAudio

variable {a a' : RoomAudio}

/-- Whether a callback that clears the sound waits for the event loop. -/
def clearing (a : RoomAudio) : Bool := decide (none ∈ a.calls)

theorem Fresh.call (h : a.Fresh) (hcall : a.call = some a') : a'.Fresh ∧ a'.cut = a.cut := by
  unfold RoomAudio.call at hcall
  split at hcall
  · rename_i c calls hcalls
    cases hcall
    refine ⟨?_, rfl⟩
    intro f hf
    refine h f ?_
    rw [hcalls]
    cases c with
    | none => exact hf
    | some g =>
      refine settled_mono (fun k hk => ?_) f hf
      split_ifs at hk
      · exact List.mem_of_mem_tail hk
      · exact hk
  · cases hcall

theorem Fresh.pump (h : a.Fresh) {f : MediaFrame} (hpump : a.pump = some (f, a')) :
    a'.Fresh ∧ a'.cut = a.cut ∧ (a.clearing = false → a.cut ≤ f.chunk.born) := by
  unfold RoomAudio.pump at hpump
  split at hpump
  · rename_i g pending _ hpending
    obtain ⟨rfl, rfl⟩ := Prod.mk.inj (Option.some.inj hpump)
    refine ⟨fun k hk => h k ?_, rfl, fun hclearing => h g ?_⟩
    · rw [hpending]
      exact settled_mono (fun _ hk => List.mem_cons_of_mem _ hk) k hk
    · rw [hpending]
      exact mem_settled (of_decide_eq_false hclearing) List.mem_cons_self
  · cases hpump

theorem Fresh.close (h : a.Fresh) : a.close.Fresh := by
  intro f hf
  exact h f (settled_mono (fun _ hk => absurd hk List.not_mem_nil) f hf)

end RoomAudio

/-! ### Connections -/

namespace MediaConnection

variable {c c' : MediaConnection} {locked : Bool} {action : MediaAction}
  {out : Option MediaFrame}

/-- The last flush that has reached the wire. -/
def wireCut : MediaConnection → ℕ
  | .data => 0
  | .webrtc _ peer => peer.cut
  | .room _ audio => audio.cut

/-- All that the connection can still hand to its wire was emitted after the last flush that has
reached the place where it is held. -/
def Fresh : MediaConnection → Prop
  | .data => True
  | .webrtc pacer peer => pacer.Fresh ∧ peer.Fresh ∧ peer.cut ≤ pacer.cut
  | .room pacer audio => pacer.Fresh ∧ audio.Fresh ∧ audio.cut ≤ pacer.cut

structure Same (c c' : MediaConnection) : Prop where
  carriesMedia : c'.carriesMedia = c.carriesMedia
  epoch : c'.pacerQueue.epoch = c.pacerQueue.epoch
  cut : c'.pacerQueue.cut = c.pacerQueue.cut
  wireCut : c'.wireCut = c.wireCut

/-- Whether the connection can hand its wire nothing any more. -/
def spent : MediaConnection → Bool
  | .data => true
  | .webrtc pacer peer => pacer.closed && pacer.joined && peer.idle
  | .room pacer audio => pacer.closed && pacer.joined && pacer.inHand.isNone &&
      audio.pending.isEmpty && audio.calls.all Option.isNone

/-- Whether the pacing thread of a room has a frame in hand. -/
def dispatching : MediaConnection → Bool
  | .room pacer _ => pacer.inHand.isSome
  | _ => false

/-- Whether a callback that clears the sound of a room waits for the event loop. -/
def clearing : MediaConnection → Bool
  | .room _ audio => audio.clearing
  | _ => false

/-- What the pacing thread dispatches was emitted after the last flush of the pacer, and so after
that of the peer. -/
theorem Fresh.tick {pacer : MediaPacer} {peer : PeerMedia}
    (h : (webrtc pacer peer).Fresh) :
    (webrtc pacer.emitOneTick.2 (pacer.emitOneTick.1.elim peer peer.sendMedia)).Fresh ∧
      (pacer.emitOneTick.1.elim peer peer.sendMedia).cut = peer.cut := by
  obtain ⟨hpacer, hpeer, hcut⟩ := h
  obtain ⟨htick, hbundle⟩ := hpacer.emitOneTick
  cases hdispatched : pacer.emitOneTick.1 with
  | none => exact ⟨⟨htick, hpeer, by rwa [MediaPacer.cut_emitOneTick]⟩, rfl⟩
  | some bundle =>
    have hsince : bundle.Since peer.cut := fun f hf =>
      Nat.le_trans hcut (hbundle bundle hdispatched f hf)
    refine ⟨⟨htick, hpeer.sendMedia hsince, ?_⟩, PeerMedia.cut_sendMedia⟩
    rw [MediaPacer.cut_emitOneTick]
    exact PeerMedia.cut_sendMedia.trans_le hcut

theorem Fresh.dispatch {pacer : RoomPacer} {audio : RoomAudio} {bundle : MediaBundle}
    (h : (room pacer audio).Fresh) (hhand : pacer.inHand = some bundle) :
    (room { pacer with inHand := none } { audio with calls :=
      audio.calls ++ if bundle.audio then bundle.frame.toList.map some else [] }).Fresh := by
  obtain ⟨hpacer, haudio, hcut⟩ := h
  refine ⟨⟨hpacer.queue, ?_⟩, ?_, hcut⟩
  · rintro b ⟨⟩
  intro f hf
  dsimp only at hf
  split_ifs at hf
  · rw [settled_append, settled_map_some] at hf
    rcases List.mem_append.mp hf with hf | hf
    · exact haudio f hf
    · exact Nat.le_trans hcut (hpacer.inHand bundle hhand f (Option.mem_toList.mp hf))
  · rw [List.append_nil] at hf
    exact haudio f hf

theorem act_epoch (hact : c.act locked action = some (out, c')) :
    c'.carriesMedia = c.carriesMedia ∧ c'.pacerQueue.epoch = c.pacerQueue.epoch := by
  cases c with
  | data => cases hact
  | webrtc pacer peer =>
    cases action with
    | setDepth depth =>
      obtain ⟨-, rfl⟩ := Prod.mk.inj (Option.some.inj hact)
      refine ⟨rfl, ?_⟩
      simp only [pacerQueue, PacerQueue.setDepth]
      split_ifs <;> rfl
    | tick =>
      simp only [MediaConnection.act] at hact
      split_ifs at hact
      obtain ⟨-, rfl⟩ := Prod.mk.inj (Option.some.inj hact)
      exact ⟨rfl, MediaPacer.epoch_emitOneTick⟩
    | join =>
      simp only [MediaConnection.act] at hact
      split_ifs at hact
      obtain ⟨-, rfl⟩ := Prod.mk.inj (Option.some.inj hact)
      exact ⟨rfl, rfl⟩
    | stop =>
      obtain ⟨-, rfl⟩ := Prod.mk.inj (Option.some.inj hact)
      exact ⟨rfl, rfl⟩
    | close =>
      obtain ⟨-, rfl⟩ := Prod.mk.inj (Option.some.inj hact)
      exact ⟨rfl, rfl⟩
    | dispatch => cases hact
    | call => cases hact
    | _ =>
      obtain ⟨peer', -, heq⟩ := Option.map_eq_some_iff.mp hact
      obtain ⟨-, rfl⟩ := Prod.mk.inj heq
      exact ⟨rfl, rfl⟩
  | room pacer audio =>
    cases action with
    | setDepth depth =>
      obtain ⟨-, rfl⟩ := Prod.mk.inj (Option.some.inj hact)
      refine ⟨rfl, ?_⟩
      simp only [pacerQueue, PacerQueue.setDepth]
      split_ifs <;> rfl
    | tick =>
      simp only [MediaConnection.act] at hact
      split_ifs at hact
      obtain ⟨-, rfl⟩ := Prod.mk.inj (Option.some.inj hact)
      exact ⟨rfl, RoomPacer.take_fields.2⟩
    | join =>
      simp only [MediaConnection.act] at hact
      split_ifs at hact
      obtain ⟨-, rfl⟩ := Prod.mk.inj (Option.some.inj hact)
      exact ⟨rfl, rfl⟩
    | stop =>
      obtain ⟨-, rfl⟩ := Prod.mk.inj (Option.some.inj hact)
      exact ⟨rfl, rfl⟩
    | close =>
      obtain ⟨-, rfl⟩ := Prod.mk.inj (Option.some.inj hact)
      exact ⟨rfl, rfl⟩
    | drain => cases hact
    | pushVideo => cases hact
    | enqueueAudio trimmed => cases hact
    | pushed => cases hact
    | _ =>
      obtain ⟨audio', -, heq⟩ := Option.map_eq_some_iff.mp hact
      obtain ⟨-, rfl⟩ := Prod.mk.inj heq
      exact ⟨rfl, rfl⟩

/-- The connection's own threads keep it fresh, and make no flush. -/
theorem Fresh.act (h : c.Fresh) (hact : c.act locked action = some (out, c')) :
    c'.Fresh ∧ c.Same c' := by
  cases c with
  | data => cases hact
  | webrtc pacer peer =>
    obtain ⟨hpacer, hpeer, hcut⟩ := h
    -- The peer makes a step of its own, with the pacer as it is.
    have hwire : ∀ peer' : PeerMedia, peer'.Fresh → peer'.cut = peer.cut →
        (webrtc pacer peer').Fresh ∧ (webrtc pacer peer).Same (webrtc pacer peer') := by
      intro peer' hfresh hsame
      exact ⟨⟨hpacer, hfresh, hsame.trans_le hcut⟩, rfl, rfl, rfl, hsame⟩
    cases action with
    | setDepth depth =>
      obtain ⟨-, rfl⟩ := Prod.mk.inj (Option.some.inj hact)
      unfold PacerQueue.setDepth
      split_ifs
      · exact ⟨⟨hpacer, hpeer, hcut⟩, rfl, rfl, rfl, rfl⟩
      · exact ⟨⟨⟨hpacer.queue, hpacer.lastFrame⟩, hpeer, hcut⟩, rfl, rfl, rfl, rfl⟩
    | tick =>
      simp only [MediaConnection.act] at hact
      split_ifs at hact
      obtain ⟨-, rfl⟩ := Prod.mk.inj (Option.some.inj hact)
      obtain ⟨hfresh, hsame⟩ := Fresh.tick ⟨hpacer, hpeer, hcut⟩
      exact ⟨hfresh, rfl, MediaPacer.epoch_emitOneTick, MediaPacer.cut_emitOneTick, hsame⟩
    | drain =>
      obtain ⟨peer', hdrain, heq⟩ := Option.map_eq_some_iff.mp hact
      obtain ⟨-, rfl⟩ := Prod.mk.inj heq
      obtain ⟨hfresh, hsame⟩ := hpeer.drain hdrain
      exact hwire peer' hfresh hsame
    | pushVideo =>
      obtain ⟨⟨frame, peer'⟩, hpush, heq⟩ := Option.map_eq_some_iff.mp hact
      obtain ⟨-, rfl⟩ := Prod.mk.inj heq
      obtain ⟨hfresh, hsame, -⟩ := hpeer.pushVideo hpush
      exact hwire peer' hfresh hsame
    | enqueueAudio trimmed =>
      obtain ⟨peer', henqueue, heq⟩ := Option.map_eq_some_iff.mp hact
      obtain ⟨-, rfl⟩ := Prod.mk.inj heq
      obtain ⟨hfresh, hsame⟩ := hpeer.enqueueAudio henqueue
      exact hwire peer' hfresh hsame
    | pushed =>
      obtain ⟨peer', hpushed, heq⟩ := Option.map_eq_some_iff.mp hact
      obtain ⟨-, rfl⟩ := Prod.mk.inj heq
      obtain ⟨hfresh, hsame⟩ := hpeer.pushed hpushed
      exact hwire peer' hfresh hsame
    | pushAudioFrame last =>
      obtain ⟨⟨frame, peer'⟩, hpush, heq⟩ := Option.map_eq_some_iff.mp hact
      obtain ⟨-, rfl⟩ := Prod.mk.inj heq
      obtain ⟨hfresh, hsame, -⟩ := hpeer.pushAudioFrame hpush
      exact hwire peer' hfresh hsame
    | stop =>
      obtain ⟨-, rfl⟩ := Prod.mk.inj (Option.some.inj hact)
      exact ⟨⟨⟨hpacer.queue, hpacer.lastFrame⟩, hpeer, hcut⟩, rfl, rfl, rfl, rfl⟩
    | join =>
      simp only [MediaConnection.act] at hact
      split_ifs at hact
      obtain ⟨-, rfl⟩ := Prod.mk.inj (Option.some.inj hact)
      exact ⟨⟨hpacer.join, hpeer, hcut⟩, rfl, rfl, rfl, rfl⟩
    | close =>
      obtain ⟨-, rfl⟩ := Prod.mk.inj (Option.some.inj hact)
      exact hwire _ hpeer.close rfl
    | dispatch => cases hact
    | call => cases hact
  | room pacer audio =>
    obtain ⟨hpacer, haudio, hcut⟩ := h
    cases action with
    | setDepth depth =>
      obtain ⟨-, rfl⟩ := Prod.mk.inj (Option.some.inj hact)
      unfold PacerQueue.setDepth
      split_ifs
      · exact ⟨⟨hpacer, haudio, hcut⟩, rfl, rfl, rfl, rfl⟩
      · exact ⟨⟨⟨hpacer.queue, hpacer.inHand⟩, haudio, hcut⟩, rfl, rfl, rfl, rfl⟩
    | tick =>
      simp only [MediaConnection.act] at hact
      split_ifs at hact
      obtain ⟨-, rfl⟩ := Prod.mk.inj (Option.some.inj hact)
      obtain ⟨htake, hepoch⟩ := RoomPacer.take_fields (p := pacer)
      exact ⟨⟨hpacer.take, haudio, hcut.trans_eq htake.symm⟩, rfl, hepoch, htake, rfl⟩
    | dispatch =>
      obtain ⟨bundle, hhand, heq⟩ := Option.map_eq_some_iff.mp hact
      obtain ⟨-, rfl⟩ := Prod.mk.inj heq
      exact ⟨Fresh.dispatch ⟨hpacer, haudio, hcut⟩ hhand, rfl, rfl, rfl, rfl⟩
    | call =>
      obtain ⟨audio', hcall, heq⟩ := Option.map_eq_some_iff.mp hact
      obtain ⟨-, rfl⟩ := Prod.mk.inj heq
      obtain ⟨hfresh, hsame⟩ := haudio.call hcall
      exact ⟨⟨hpacer, hfresh, hsame.trans_le hcut⟩, rfl, rfl, rfl, hsame⟩
    | pushAudioFrame last =>
      obtain ⟨⟨frame, audio'⟩, hpump, heq⟩ := Option.map_eq_some_iff.mp hact
      obtain ⟨-, rfl⟩ := Prod.mk.inj heq
      obtain ⟨hfresh, hsame, -⟩ := haudio.pump hpump
      exact ⟨⟨hpacer, hfresh, hsame.trans_le hcut⟩, rfl, rfl, rfl, hsame⟩
    | stop =>
      obtain ⟨-, rfl⟩ := Prod.mk.inj (Option.some.inj hact)
      exact ⟨⟨⟨hpacer.queue, hpacer.inHand⟩, haudio, hcut⟩, rfl, rfl, rfl, rfl⟩
    | join =>
      simp only [MediaConnection.act] at hact
      split_ifs at hact
      obtain ⟨-, rfl⟩ := Prod.mk.inj (Option.some.inj hact)
      refine ⟨⟨⟨?_, hpacer.inHand⟩, haudio, hcut⟩, rfl, rfl, rfl, rfl⟩
      exact fun f hf => absurd hf List.not_mem_nil
    | close =>
      obtain ⟨-, rfl⟩ := Prod.mk.inj (Option.some.inj hact)
      exact ⟨⟨hpacer, haudio.close, hcut⟩, rfl, rfl, rfl, rfl⟩
    | drain => cases hact
    | pushVideo => cases hact
    | enqueueAudio trimmed => cases hact
    | pushed => cases hact

theorem Fresh.handed (h : c.Fresh) (hact : c.act locked action = some (out, c'))
    (hclearing : (∃ last, action = .pushAudioFrame last) → c.clearing = false) :
    ∀ f ∈ out, c.wireCut ≤ f.chunk.born := by
  intro f hf
  obtain rfl : out = some f := hf
  cases c with
  | data => cases hact
  | webrtc pacer peer =>
    obtain ⟨-, hpeer, -⟩ := h
    cases action with
    | pushVideo =>
      obtain ⟨⟨frame, peer'⟩, hpush, heq⟩ := Option.map_eq_some_iff.mp hact
      obtain ⟨hframe, -⟩ := Prod.mk.inj heq
      exact (hpeer.pushVideo hpush).2.2 f hframe
    | pushAudioFrame last =>
      obtain ⟨⟨frame, peer'⟩, hpush, heq⟩ := Option.map_eq_some_iff.mp hact
      obtain ⟨hframe, -⟩ := Prod.mk.inj heq
      cases hframe
      exact (hpeer.pushAudioFrame hpush).2.2
    | _ => simp [MediaConnection.act] at hact
  | room pacer audio =>
    obtain ⟨hpacer, haudio, hcut⟩ := h
    cases action with
    | dispatch =>
      obtain ⟨bundle, hhand, heq⟩ := Option.map_eq_some_iff.mp hact
      obtain ⟨hframe, -⟩ := Prod.mk.inj heq
      split_ifs at hframe
      exact Nat.le_trans hcut (hpacer.inHand bundle hhand f hframe)
    | pushAudioFrame last =>
      obtain ⟨⟨frame, audio'⟩, hpump, heq⟩ := Option.map_eq_some_iff.mp hact
      obtain ⟨hframe, -⟩ := Prod.mk.inj heq
      cases hframe
      exact (haudio.pump hpump).2.2 (hclearing ⟨last, rfl⟩)
    | _ => simp [MediaConnection.act] at hact

/-! ### A flush, and a chunk -/

@[simp] theorem carriesMedia_setQueue {q : PacerQueue} :
    (c.setQueue q).carriesMedia = c.carriesMedia := by cases c <;> rfl

@[simp] theorem wireCut_setQueue {q : PacerQueue} : (c.setQueue q).wireCut = c.wireCut := by
  cases c <;> rfl

@[simp] theorem carriesMedia_flushPacer {hold : Bool} {n : ℕ} :
    (c.flushPacer hold n).carriesMedia = c.carriesMedia := by cases c <;> rfl

@[simp] theorem wireCut_flushPacer {hold : Bool} {n : ℕ} :
    (c.flushPacer hold n).wireCut = c.wireCut := by cases c <;> rfl

@[simp] theorem carriesMedia_flushWire {n : ℕ} :
    (c.flushWire n).carriesMedia = c.carriesMedia := by cases c <;> rfl

@[simp] theorem pacerQueue_flushWire {n : ℕ} : (c.flushWire n).pacerQueue = c.pacerQueue := by
  cases c <;> rfl

theorem pacerQueue_setQueue {q : PacerQueue} (hc : c.carriesMedia = true) :
    (c.setQueue q).pacerQueue = q := by
  cases c with
  | data => cases hc
  | webrtc pacer peer => rfl
  | room pacer audio => rfl

theorem pacerQueue_flushPacer {hold : Bool} {n : ℕ} (hc : c.carriesMedia = true) :
    (c.flushPacer hold n).pacerQueue = c.pacerQueue.flush n := by
  cases c with
  | data => cases hc
  | webrtc pacer peer => rfl
  | room pacer audio => rfl

theorem cut_flushPacer_le {hold : Bool} {n : ℕ} : (c.flushPacer hold n).pacerQueue.cut ≤ n := by
  cases c with
  | data => exact Nat.zero_le _
  | webrtc pacer peer => exact Nat.le_refl _
  | room pacer audio => exact Nat.le_refl _

theorem wireCut_flushWire {n : ℕ} (hc : c.carriesMedia = true) : (c.flushWire n).wireCut = n := by
  cases c with
  | data => cases hc
  | webrtc pacer peer => rfl
  | room pacer audio => rfl

theorem Fresh.wireCut_le (h : c.Fresh) : c.wireCut ≤ c.pacerQueue.cut := by
  cases c with
  | data => exact Nat.le_refl _
  | webrtc pacer peer => exact h.2.2
  | room pacer audio => exact h.2.2

theorem Fresh.put (h : c.Fresh) {epoch : ℕ} {f : MediaFrame} {q : PacerQueue}
    (hput : c.pacerQueue.put epoch f = .queued q) (hf : c.pacerQueue.cut ≤ f.chunk.born) :
    (c.setQueue q).Fresh ∧ q.cut = c.pacerQueue.cut ∧ q.epoch = c.pacerQueue.epoch ∧
      c.pacerQueue.epoch = epoch ∧ c.pacerQueue.closed = false := by
  unfold PacerQueue.put at hput
  split_ifs at hput with hover
  obtain ⟨hclosed, hepoch⟩ := not_or.mp hover
  obtain rfl := Put.queued.inj hput
  refine ⟨?_, rfl, rfl, not_not.mp hepoch, by simpa using hclosed⟩
  have hqueue : ∀ g ∈ c.pacerQueue.queue ++ [f], (∀ g ∈ c.pacerQueue.queue,
      c.pacerQueue.cut ≤ g.chunk.born) → c.pacerQueue.cut ≤ g.chunk.born := by
    intro g hg hall
    rcases List.mem_append.mp hg with hg | hg
    · exact hall g hg
    · obtain rfl := List.mem_singleton.mp hg
      exact hf
  cases c with
  | data => trivial
  | webrtc pacer peer =>
    obtain ⟨hpacer, hpeer, hcut⟩ := h
    exact ⟨⟨fun g hg => hqueue g hg hpacer.queue, hpacer.lastFrame⟩, hpeer, hcut⟩
  | room pacer audio =>
    obtain ⟨hpacer, haudio, hcut⟩ := h
    exact ⟨⟨fun g hg => hqueue g hg hpacer.queue, hpacer.inHand⟩, haudio, hcut⟩

/-- The flush of the pacer keeps a connection fresh unless the thread of a room's pacer has a frame
in hand, which the flush does not see. -/
theorem Fresh.flushPacer (h : c.Fresh) {hold : Bool} {n : ℕ} (hn : c.pacerQueue.cut ≤ n)
    (hhand : c.dispatching = false) : (c.flushPacer hold n).Fresh := by
  cases c with
  | data => trivial
  | webrtc pacer peer =>
    obtain ⟨-, hpeer, hcut⟩ := h
    exact ⟨MediaPacer.fresh_flush, hpeer, Nat.le_trans hcut hn⟩
  | room pacer audio =>
    obtain ⟨-, haudio, hcut⟩ := h
    refine ⟨⟨fun f hf => absurd hf List.not_mem_nil, ?_⟩, haudio, Nat.le_trans hcut hn⟩
    intro bundle hbundle
    have hsome : pacer.inHand.isSome = true := Option.isSome_of_mem hbundle
    exact absurd (hsome.symm.trans hhand) Bool.noConfusion

theorem Fresh.flushWire (h : c.Fresh) {n : ℕ}
    (hn : c.carriesMedia = true → n ≤ c.pacerQueue.cut) : (c.flushWire n).Fresh := by
  cases c with
  | data => trivial
  | webrtc pacer peer =>
    obtain ⟨hpacer, hpeer, -⟩ := h
    exact ⟨hpacer, hpeer.flushMedia, hn rfl⟩
  | room pacer audio =>
    obtain ⟨hpacer, -, -⟩ := h
    refine ⟨hpacer, ?_, hn rfl⟩
    intro f hf
    dsimp only at hf
    rw [settled_append] at hf
    exact absurd hf List.not_mem_nil

theorem fresh_webrtc {n depth : ℕ} : (webrtc { depth, cut := n } { cut := n }).Fresh := by
  refine ⟨⟨?_, ?_⟩, ⟨?_, ?_, ?_⟩, Nat.le_refl _⟩
  all_goals rintro x ⟨⟩

theorem fresh_room {n depth : ℕ} : (room { depth, cut := n } { cut := n }).Fresh := by
  refine ⟨⟨?_, ?_⟩, ?_, Nat.le_refl _⟩
  all_goals rintro x ⟨⟩

/-! ### A connection that is over -/

theorem spent_webrtc {pacer : MediaPacer} {peer : PeerMedia} :
    (webrtc pacer peer).spent = true ↔
      pacer.closed = true ∧ pacer.joined = true ∧ peer.idle = true := by
  simp [spent, and_assoc]

theorem spent_room {pacer : RoomPacer} {audio : RoomAudio} :
    (room pacer audio).spent = true ↔ pacer.closed = true ∧ pacer.joined = true ∧
      pacer.inHand = none ∧ audio.pending = [] ∧ ∀ c ∈ audio.calls, c = none := by
  simp [spent, and_assoc]

/-- A connection that is over stays so, and hands its wire nothing. -/
theorem spent_act (h : c.spent = true) (hact : c.act locked action = some (out, c')) :
    c'.spent = true ∧ out = none := by
  cases c with
  | data => cases hact
  | webrtc pacer peer =>
    obtain ⟨hclosed, hjoined, hidle⟩ := spent_webrtc.mp h
    obtain ⟨hqueue, hpushing, hbufs⟩ := PeerMedia.idle_iff.mp hidle
    cases action with
    | setDepth depth =>
      obtain ⟨rfl, rfl⟩ := Prod.mk.inj (Option.some.inj hact)
      refine ⟨spent_webrtc.mpr ⟨?_, ?_, hidle⟩, rfl⟩
      · unfold PacerQueue.setDepth
        split_ifs <;> exact hclosed
      · unfold PacerQueue.setDepth
        split_ifs <;> exact hjoined
    | stop =>
      obtain ⟨rfl, rfl⟩ := Prod.mk.inj (Option.some.inj hact)
      exact ⟨spent_webrtc.mpr ⟨rfl, hjoined, hidle⟩, rfl⟩
    | join =>
      simp only [MediaConnection.act, hclosed, if_true] at hact
      obtain ⟨rfl, rfl⟩ := Prod.mk.inj (Option.some.inj hact)
      exact ⟨spent_webrtc.mpr ⟨hclosed, rfl, hidle⟩, rfl⟩
    | close =>
      obtain ⟨rfl, rfl⟩ := Prod.mk.inj (Option.some.inj hact)
      exact ⟨spent_webrtc.mpr ⟨hclosed, hjoined, PeerMedia.idle_iff.mpr ⟨rfl, hpushing, rfl⟩⟩, rfl⟩
    | _ => simp [MediaConnection.act, PeerMedia.drain, PeerMedia.pushVideo, PeerMedia.enqueueAudio,
        PeerMedia.pushed, PeerMedia.pushAudioFrame, hjoined, hqueue, hpushing, hbufs] at hact
  | room pacer audio =>
    obtain ⟨hclosed, hjoined, hhand, hpending, hcalls⟩ := spent_room.mp h
    cases action with
    | setDepth depth =>
      obtain ⟨rfl, rfl⟩ := Prod.mk.inj (Option.some.inj hact)
      refine ⟨spent_room.mpr ⟨?_, ?_, hhand, hpending, hcalls⟩, rfl⟩
      · unfold PacerQueue.setDepth
        split_ifs <;> exact hclosed
      · unfold PacerQueue.setDepth
        split_ifs <;> exact hjoined
    | stop =>
      obtain ⟨rfl, rfl⟩ := Prod.mk.inj (Option.some.inj hact)
      exact ⟨spent_room.mpr ⟨rfl, hjoined, hhand, hpending, hcalls⟩, rfl⟩
    | join =>
      simp only [MediaConnection.act, hclosed, hhand, and_self, if_true] at hact
      obtain ⟨rfl, rfl⟩ := Prod.mk.inj (Option.some.inj hact)
      exact ⟨spent_room.mpr ⟨hclosed, rfl, hhand, hpending, hcalls⟩, rfl⟩
    | close =>
      obtain ⟨rfl, rfl⟩ := Prod.mk.inj (Option.some.inj hact)
      exact ⟨spent_room.mpr ⟨hclosed, hjoined, hhand, rfl, hcalls⟩, rfl⟩
    | call =>
      obtain ⟨audio', hcall, heq⟩ := Option.map_eq_some_iff.mp hact
      obtain ⟨rfl, rfl⟩ := Prod.mk.inj heq
      unfold RoomAudio.call at hcall
      split at hcall
      · rename_i call calls hsplit
        cases hcall
        rw [hsplit] at hcalls
        obtain rfl := hcalls call List.mem_cons_self
        exact ⟨spent_room.mpr ⟨hclosed, hjoined, hhand, rfl,
          fun c hc => hcalls c (List.mem_cons_of_mem _ hc)⟩, rfl⟩
      · cases hcall
    | _ => simp [MediaConnection.act, RoomAudio.pump, hjoined, hhand, hpending] at hact

theorem spent_of_data (h : ¬c.carriesMedia = true) : c.spent = true := by
  cases c with
  | data => rfl
  | webrtc pacer peer => exact absurd rfl h
  | room pacer audio => exact absurd rfl h

theorem spent_flushPacer {hold : Bool} {n : ℕ} (h : c.spent = true) :
    (c.flushPacer hold n).spent = true := by
  cases c with
  | data => rfl
  | webrtc pacer peer => exact h
  | room pacer audio => exact h

theorem spent_flushWire {n : ℕ} (h : c.spent = true) : (c.flushWire n).spent = true := by
  cases c with
  | data => rfl
  | webrtc pacer peer =>
    obtain ⟨hclosed, hjoined, hidle⟩ := spent_webrtc.mp h
    obtain ⟨-, hpushing, -⟩ := PeerMedia.idle_iff.mp hidle
    exact spent_webrtc.mpr ⟨hclosed, hjoined, PeerMedia.idle_iff.mpr ⟨rfl, hpushing, rfl⟩⟩
  | room pacer audio =>
    obtain ⟨hclosed, hjoined, hhand, hpending, hcalls⟩ := spent_room.mp h
    refine spent_room.mpr ⟨hclosed, hjoined, hhand, hpending, ?_⟩
    intro call hcall
    rcases List.mem_append.mp hcall with hcall | hcall
    · exact hcalls call hcall
    · exact List.mem_singleton.mp hcall

/-- A pacer that was stopped takes nothing, so that a connection that is over is not put to. -/
theorem closed_of_spent (h : c.spent = true) (hc : c.carriesMedia = true) :
    c.pacerQueue.closed = true := by
  cases c with
  | data => cases hc
  | webrtc pacer peer => exact (spent_webrtc.mp h).1
  | room pacer audio => exact (spent_room.mp h).1

end MediaConnection

end ReactorRuntime.Transport
