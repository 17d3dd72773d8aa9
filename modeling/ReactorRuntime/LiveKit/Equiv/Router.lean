import ReactorRuntime.LiveKit.Router
import ReactorRuntime.LiveKit.Equiv.Room
import ReactorRuntime.Lists.Table
import ReactorRuntime.Runtime.Equiv.Epochs

/-!
# The session of a room connection

At most one room connection is joining or open (`Single`): under the lock a request makes one only
once the last is neither.

A room connection registers in the session by which its request was let in (`Stamped`), in a run
where no session ends while a request waits (`sameSession`) and each room connection opens with the
stamp of its own offer (`ownStamp`): the check of a request comes before the lock and before
`retire`, and its stamp after them.
-/

namespace ReactorRuntime.LiveKit

open ReactorRuntime.Runtime (ConnId Connection Runner OfferEpochs)
open ReactorRuntime.Lists

/-! ### A room connection is over once -/

namespace RoomSession

variable {s s' : RoomSession} {l : Label}

theorem active_finish (s : RoomSession) (reason : CloseReason) (finisher : Finisher) :
    (s.finish reason finisher).active = false := by
  rcases s.cases_active with hactive | hjoining | hopened
  · rw [finish_of_not_active hactive]
    exact hactive
  · rw [finish_joining hjoining]
    rfl
  · rw [finish_opened hopened]
    rfl

/-- A room connection that is neither joining nor open stays so. -/
theorem active_of_next (hnext : s.next l = some s') (hactive : s'.active = true) :
    s.active = true := by
  have hfinish : ∀ {t : RoomSession} {reason finisher}, (t.finish reason finisher).active = true →
      s.active = true := by
    intro t reason finisher h
    rw [active_finish] at h
    cases h
  cases step_of_next hnext with
  | joinWakes accepted present =>
    unfold RoomSession.joinWakes at hactive
    split_ifs at hactive with hdone hstate hattempt
    · unfold abandon at hactive
      dsimp only at hactive
      split_ifs at hactive
      · cases hactive
      · exact hactive
    · exact hactive
    · cases hactive
    · simp only [ne_eq, Decidable.not_not] at hstate
      simp [active, hstate]
  | leave => exact hfinish hactive
  | retire => exact hfinish hactive
  | lossHandled => exact hfinish hactive
  | closeBegins =>
    unfold beginClose at hactive
    split_ifs at hactive <;> exact hactive
  | closeStopped =>
    unfold RoomSession.closeStopped at hactive
    dsimp only at hactive
    split_ifs at hactive
    · exact hfinish hactive
    · exact hactive
  | participantsClosed => exact hfinish hactive
  | participantJoined identity accepted =>
    obtain ⟨participants, made, opened, heq⟩ := s.addParticipant_eq identity accepted
    rw [heq] at hactive
    exact hactive
  | participantLeft identity =>
    obtain ⟨participants, ended, heq⟩ := s.removeParticipant_eq identity
    rw [heq] at hactive
    exact hactive
  | _ => exact hactive

end RoomSession

namespace Router

variable {recording : Bool} {s s' : Router} {i : ℕ}

/-! ### One room connection at a time -/

/-- Only the room connection that the router holds may be joining or open. -/
structure Single (s : Router) : Prop where
  fresh : ∀ i, s.made ≤ i → s.rooms i = {}
  room_lt : ∀ i ∈ s.room, i < s.made
  single : ∀ i < s.made, (s.rooms i).active = true → s.room = some i
  retiring : ∀ r ∈ s.retiring, s.room = some r.previous ∧ (s.rooms r.previous).active = false

namespace Single

theorem openRoom (h : s.Single) (hover : ∀ i ∈ s.room, (s.rooms i).active = false)
    (hretiring : s.retiring = none) (session : Option ℕ) (epoch : ℕ) (id : Option ConnId) :
    (s.openRoom session epoch id).Single := by
  cases id with
  | none => exact h
  | some id =>
    refine ⟨fun i hi => h.fresh i (Nat.le_of_succ_le hi), ?_, fun i hi hactive => ?_, ?_⟩
    · rintro i hi
      cases hi
      exact Nat.lt_succ_self _
    · rcases Nat.lt_succ_iff_lt_or_eq.mp hi with hi | rfl
      · have hinactive := hover i (h.single i hi hactive)
        rw [show (s.rooms i).active = true from hactive] at hinactive
        cases hinactive
      · rfl
    · intro r hr
      have hr : r ∈ s.retiring := hr
      rw [hretiring] at hr
      cases hr

theorem update (h : s.Single) (hi : i < s.made) {room : RoomSession}
    (hroom : room.active = true → (s.rooms i).active = true) :
    Single { s with rooms := Function.update s.rooms i room } := by
  have hactive : ∀ j, (Function.update s.rooms i room j).active = true →
      (s.rooms j).active = true := by
    intro j hj
    by_cases hji : j = i
    · rw [hji, Function.update_self] at hj
      rw [hji]
      exact hroom hj
    · rwa [Function.update_of_ne hji] at hj
  refine ⟨fun j hj => ?_, h.room_lt, fun j hj hon => h.single j hj (hactive j hon), fun r hr => ?_⟩
  · have hj : s.made ≤ j := hj
    show Function.update s.rooms i room j = {}
    rw [Function.update_of_ne (by omega)]
    exact h.fresh j hj
  · obtain ⟨heq, hover⟩ := h.retiring r hr
    refine ⟨heq, ?_⟩
    by_contra hon
    rw [hactive _ (by simpa using hon)] at hover
    cases hover

theorem serve (h : s.Single) (hretiring : s.retiring = none) (session : Option ℕ)
    (id : Option ConnId) : (s.serve session id).Single := by
  unfold Router.serve
  dsimp only
  split
  next hroom => exact h.openRoom (by simp [hroom]) hretiring _ _ _
  next previous hroom =>
    have hlt : previous < s.made := h.room_lt previous hroom
    have hretire : (s.retire previous).Single := by
      refine h.update hlt fun hon => ?_
      rw [RoomSession.active_finish] at hon
      cases hon
    have hover : ((s.retire previous).rooms previous).active = false := by
      show (Function.update s.rooms previous _ previous).active = false
      rw [Function.update_self, RoomSession.active_finish]
    split_ifs with hepoch hactive
    · exact h
    · refine h.openRoom (fun i hi => ?_) hretiring _ _ _
      obtain rfl := Option.some.inj (hroom.symm.trans hi)
      simp only [Bool.or_eq_true, not_or, Bool.not_eq_true] at hactive
      exact hactive.1
    · split
      · refine ⟨hretire.fresh, hretire.room_lt, hretire.single, fun r hr => ?_⟩
        cases hr
        exact ⟨hroom, hover⟩
      · refine hretire.openRoom (fun i hi => ?_) hretiring _ _ _
        obtain rfl := Option.some.inj (hroom.symm.trans hi)
        exact hover
      all_goals
        rename_i hstate
        refine h.openRoom (fun i hi => ?_) hretiring _ _ _
        obtain rfl := Option.some.inj (hroom.symm.trans hi)
        simp [RoomSession.active, hstate]

/-- What happens to the runner is nothing to the room connections. -/
theorem of_eq (h : s.Single) (hrooms : s'.rooms = s.rooms) (hmade : s'.made = s.made)
    (hroom : s'.room = s.room) (hretiring : s'.retiring = s.retiring ∨ s'.retiring = none) :
    s'.Single := by
  refine ⟨?_, ?_, ?_, fun r hr => ?_⟩
  · rw [hrooms, hmade]
    exact h.fresh
  · rw [hroom, hmade]
    exact h.room_lt
  · rw [hrooms, hmade, hroom]
    exact h.single
  · rw [hrooms, hroom]
    rcases hretiring with heq | hnone
    · exact h.retiring r (heq ▸ hr)
    · rw [hnone] at hr
      cases hr

theorem next {l : Label} (h : s.Single) (hnext : Router.next recording s l = some s') :
    s'.Single := by
  cases l with
  | runner l =>
    obtain ⟨runner, -, rfl⟩ := Option.map_eq_some_iff.mp hnext
    exact h.of_eq rfl rfl rfl (.inl rfl)
  | room i l =>
    have hupdate : i < s.made → ∀ {room}, (s.rooms i).next l = some room →
        Single { s with rooms := Function.update s.rooms i room } :=
      fun hi _ hroom => h.update hi (RoomSession.active_of_next hroom)
    cases l with
    | joinWakes accepted present =>
      simp only [Router.next] at hnext
      split_ifs at hnext with hi hopens
      · obtain ⟨room, hroom, rfl⟩ := Option.map_eq_some_iff.mp hnext
        exact (hupdate hi.1 hroom).of_eq rfl rfl rfl (.inl rfl)
      · obtain ⟨room, hroom, rfl⟩ := Option.map_eq_some_iff.mp hnext
        exact hupdate hi.1 hroom
    | _ =>
      simp only [Router.next] at hnext
      split_ifs at hnext with hi
      obtain ⟨room, hroom, rfl⟩ := Option.map_eq_some_iff.mp hnext
      exact hupdate hi hroom
  | request id =>
    simp only [Router.next] at hnext
    split_ifs at hnext with hrunning hfree
    · cases hnext
      exact h.serve hfree.1 _ _
    · cases hnext
      exact h.of_eq rfl rfl rfl (.inl rfl)
  | acquire id =>
    simp only [Router.next] at hnext
    split at hnext
    next session waiting hwaiting hretiring =>
      cases hnext
      exact serve (s := { s with waiting }) (h.of_eq rfl rfl rfl (.inl rfl)) hretiring _ _
    · cases hnext
  | retired id =>
    simp only [Router.next] at hnext
    split at hnext
    next r hretiring =>
      split_ifs at hnext
      cases hnext
      have hfree : Single { s with retiring := none } := h.of_eq rfl rfl rfl (.inr rfl)
      refine openRoom (s := { s with retiring := none }) hfree ?_ rfl _ _ _
      intro i hi
      obtain ⟨hroom, hover⟩ := h.retiring r hretiring
      obtain rfl := Option.some.inj (hroom.symm.trans hi)
      exact hover
    · cases hnext

end Single

/-! ### The session of a request -/

/-- Whether a request opens its room connection once it has the lock. -/
def opensAtOnce (s : Router) : Bool :=
  match s.room with
  | none => true
  | some previous =>
    if s.roomEpoch = s.runner.offerEpochs.current then
      !(s.rooms previous).active && (s.rooms previous).settled
    else (s.rooms previous).state ≠ .opened

/-- A room connection is made in the session by which its request was let in. -/
def sameSession (s : Router) : Label → Bool
  | .acquire (some _) =>
    s.opensAtOnce = false || s.waiting.head?.all (· = some s.runner.offerEpochs.current)
  | .retired (some _) => s.retiring.all fun r => r.session = some s.runner.offerEpochs.current
  | _ => true

def ownStamp (s : Router) : Label → Bool
  | .room i (.joinWakes _ _) => !s.opens i || s.stampedFor.lookup (s.ids i) = some (some i)
  | _ => true

/-- Every room connection registered in the session by which its request was let in. -/
def JoinedOwn (s : Router) : Prop :=
  ∀ i session, (i, session) ∈ s.joined → session ≠ none ∧ s.requestedIn i = session

structure Stamped (s : Router) : Prop where
  created : s.runner.machine.state = .created → ∀ id i, s.stampedFor.lookup id ≠ some (some i)
  letIn : s.runner.machine.state = .created → s.waiting = [] ∧ s.retiring = none
  stamped_lt : ∀ id i, s.stampedFor.lookup id = some (some i) → i < s.made
  stamped : ∀ id i, s.stampedFor.lookup id = some (some i) →
    ∃ session, s.runner.offerEpochs.stamps.lookup id = some session ∧
      s.requestedIn i = some session
  joined_lt : ∀ i session, (i, session) ∈ s.joined → i < s.made
  joined : s.JoinedOwn

namespace Stamped

theorem openRoom (h : s.Stamped) (hcreated : s.runner.machine.state ≠ .created)
    {session : Option ℕ} {epoch : ℕ} {id : Option ConnId}
    (hsame : id.isSome = true → session = some s.runner.offerEpochs.current) :
    (s.openRoom session epoch id).Stamped := by
  cases id with
  | none => exact h
  | some id =>
    have hlookup : ∀ {id' i}, (s.stampedFor.insert id (some s.made)).lookup id' = some (some i) →
        (id' = id ∧ i = s.made) ∨ (id' ≠ id ∧ s.stampedFor.lookup id' = some (some i)) := by
      intro id' i hlookup
      rw [lookup_insert_if] at hlookup
      split_ifs at hlookup with hid
      · exact .inl ⟨hid, (Option.some.inj (Option.some.inj hlookup)).symm⟩
      · exact .inr ⟨hid, hlookup⟩
    refine ⟨fun hstate => absurd hstate hcreated, fun hstate => absurd hstate hcreated,
      fun id' i hi => ?_, fun id' i hi => ?_, fun i session hi => ?_, fun i live hi => ?_⟩
    · rcases hlookup hi with ⟨-, rfl⟩ | ⟨-, hi⟩
      · exact Nat.lt_succ_self _
      · exact Nat.lt_succ_of_lt (h.stamped_lt id' i hi)
    · rcases hlookup hi with ⟨rfl, rfl⟩ | ⟨hid, hi⟩
      · refine ⟨s.runner.offerEpochs.current, AList.lookup_insert _, ?_⟩
        exact (Function.update_self ..).trans (hsame rfl)
      · obtain ⟨session', hsession, hrequested⟩ := h.stamped id' i hi
        refine ⟨session', ?_, ?_⟩
        · rw [← hsession]
          exact AList.lookup_insert_ne hid
        · exact (Function.update_of_ne (h.stamped_lt id' i hi).ne ..).trans hrequested
    · exact Nat.lt_succ_of_lt (h.joined_lt i session hi)
    · obtain ⟨hlive, hrequested⟩ := h.joined i live hi
      exact ⟨hlive, (Function.update_of_ne (h.joined_lt i live hi).ne ..).trans hrequested⟩

/-- What happens to the room connections is nothing to the stamps. -/
theorem rooms (h : s.Stamped) (rooms : ℕ → RoomSession) : Stamped { s with rooms } :=
  ⟨h.created, h.letIn, h.stamped_lt, h.stamped, h.joined_lt, h.joined⟩

theorem serve (h : s.Stamped) (hcreated : s.runner.machine.state ≠ .created)
    {session : Option ℕ} {id : Option ConnId} (hsame : s.opensAtOnce = true → id.isSome = true →
      session = some s.runner.offerEpochs.current) :
    (s.serve session id).Stamped := by
  unfold Router.serve
  unfold opensAtOnce at hsame
  dsimp only
  split
  next hroom => exact h.openRoom hcreated (hsame (by simp [hroom]))
  next previous hroom =>
    simp only [hroom] at hsame
    split_ifs with hepoch hactive
    · exact h
    · rw [if_pos hepoch] at hsame
      refine h.openRoom hcreated (hsame ?_)
      simpa using hactive
    · rw [if_neg hepoch] at hsame
      split
      · exact ⟨h.created, fun hstate => absurd hstate hcreated, h.stamped_lt, h.stamped,
          h.joined_lt, h.joined⟩
      · next hstate =>
        refine openRoom (s := s.retire previous) (h.rooms _) hcreated (hsame ?_)
        simp [hstate]
      all_goals
        next hstate =>
        refine h.openRoom hcreated (hsame ?_)
        simp [hstate]

theorem run {runner : Runner} (h : s.Stamped)
    (hstamps : runner.offerEpochs.stamps = s.runner.offerEpochs.stamps)
    (hcreated : runner.machine.state = .created → s.runner.machine.state = .created) :
    Stamped { s with runner } where
  created hstate := h.created (hcreated hstate)
  letIn hstate := h.letIn (hcreated hstate)
  stamped_lt := h.stamped_lt
  stamped id i hi := by
    dsimp only
    rw [hstamps]
    exact h.stamped id i hi
  joined_lt := h.joined_lt
  joined := h.joined

/-- A stamp is made or taken by another transport. -/
theorem runStamp (h : s.Stamped) (runner : Runner) (id : ConnId)
    (hstamps : ∀ id', id' ≠ id →
      runner.offerEpochs.stamps.lookup id' = s.runner.offerEpochs.stamps.lookup id')
    (hcreated : runner.machine.state = .created → s.runner.machine.state = .created) :
    Stamped { s with runner, stampedFor := s.stampedFor.insert id none } := by
  have hlookup : ∀ {id' i}, (s.stampedFor.insert id none).lookup id' = some (some i) →
      id' ≠ id ∧ s.stampedFor.lookup id' = some (some i) := by
    intro id' i hlookup
    rw [lookup_insert_if] at hlookup
    split_ifs at hlookup with hid
    · cases hlookup
    · exact ⟨hid, hlookup⟩
  refine ⟨fun hstate id' i hi => ?_, fun hstate => h.letIn (hcreated hstate), fun id' i hi => ?_,
    fun id' i hi => ?_, h.joined_lt, h.joined⟩
  · exact h.created (hcreated hstate) id' i (hlookup hi).2
  · exact h.stamped_lt id' i (hlookup hi).2
  · obtain ⟨hid, hi⟩ := hlookup hi
    dsimp only
    rw [hstamps id' hid]
    exact h.stamped id' i hi

/-- A room connection that opens with the stamp of its own offer registers in the session of its
request, or is refused. -/
theorem connect (h : s.Stamped) (room : RoomSession)
    (hown : s.stampedFor.lookup (s.ids i) = some (some i)) :
    (s.connect recording i room).Stamped := by
  have hframed := Runner.framed_connectionOpened recording s.runner (s.connection i)
  obtain ⟨session, hsession, hrequested⟩ := h.stamped _ i hown
  have hcreated : s.runner.machine.state ≠ .created := fun hstate => h.created hstate _ i hown
  have hstamp : (s.connect recording i room).runner.offerEpochs =
      s.runner.offerEpochs.consume (s.ids i) := hframed.offerEpochs
  have hbase := (h.rooms (Function.update s.rooms i room)).runStamp
    (s.runner.connectionOpened recording (s.connection i)) (s.ids i) (fun id' hid => by
      rw [hframed.offerEpochs]
      exact AList.lookup_erase_ne hid) hframed.created
  have hjoined : ∀ {j live}, (j, live) ∈ (s.connect recording i room).joined →
      (j, live) ∈ s.joined ∨ s.refuses i = false ∧ j = i ∧ live = s.liveSession := by
    intro j live hj
    dsimp only [Router.connect] at hj
    split_ifs at hj with hrefuses
    · exact .inl hj
    · rcases List.mem_append.mp hj with hj | hj
      · exact .inl hj
      · obtain ⟨rfl, rfl⟩ := Prod.mk.inj (List.mem_singleton.mp hj)
        exact .inr ⟨by simpa using hrefuses, rfl, rfl⟩
  refine ⟨hbase.created, hbase.letIn, hbase.stamped_lt, hbase.stamped, fun j live hj => ?_,
    fun j live hj => ?_⟩
  · rcases hjoined hj with hj | ⟨-, rfl, -⟩
    · exact h.joined_lt j live hj
    · exact h.stamped_lt _ j hown
  · rcases hjoined hj with hj | ⟨hrefuses, rfl, rfl⟩
    · exact h.joined j live hj
    · rw [refuses, Bool.or_eq_false_iff] at hrefuses
      have hlive : s.liveSession = some s.runner.offerEpochs.current :=
        if_pos (Runtime.isRunning_of_not_stale hrefuses.1 hcreated)
      have hcurrent : session = s.runner.offerEpochs.current := by
        simpa [OfferEpochs.stale, hsession] using hrefuses.2
      refine ⟨by simp [hlive], ?_⟩
      rw [hlive, ← hcurrent]
      exact hrequested

theorem next {l : Label} (h : s.Stamped) (hsame : s.sameSession l) (hown : s.ownStamp l)
    (hnext : Router.next recording s l = some s') : s'.Stamped := by
  cases l with
  | runner l =>
    obtain ⟨runner, hrunner, rfl⟩ := Option.map_eq_some_iff.mp hnext
    cases hstamp : stampOf l with
    | none =>
      rcases Runner.framed_next hrunner (by rintro connId rfl; cases hstamp)
        (by rintro conn rfl; cases hstamp) with hframed | hframed
      · exact h.run (by rw [hframed.offerEpochs]) hframed.created
      · exact h.run (by rw [hframed.offerEpochs]; rfl) hframed.created
    | some id =>
      cases l with
      | offerAdmitted id' =>
        cases hstamp
        simp only [Runtime.next] at hrunner
        split_ifs at hrunner
        cases hrunner
        exact h.runStamp _ id (fun id' hid => AList.lookup_insert_ne hid) (fun h => h)
      | connectionOpened conn =>
        cases hstamp
        simp only [Runtime.next] at hrunner
        split_ifs at hrunner
        cases hrunner
        have hframed := Runner.framed_connectionOpened recording
          { s.runner with offers := s.runner.offers.erase conn.id } conn
        refine h.runStamp _ conn.id (fun id' hid => ?_) hframed.created
        rw [hframed.offerEpochs]
        exact AList.lookup_erase_ne hid
      | _ => cases hstamp
  | room i l =>
    cases l with
    | joinWakes accepted present =>
      simp only [Router.next] at hnext
      split_ifs at hnext with hi hopens
      · obtain ⟨room, hroom, rfl⟩ := Option.map_eq_some_iff.mp hnext
        refine h.connect room ?_
        simpa [ownStamp, hopens] using hown
      · obtain ⟨room, hroom, rfl⟩ := Option.map_eq_some_iff.mp hnext
        exact h.rooms _
    | _ =>
      simp only [Router.next] at hnext
      split_ifs at hnext with hi
      obtain ⟨room, hroom, rfl⟩ := Option.map_eq_some_iff.mp hnext
      exact h.rooms _
  | request id =>
    simp only [Router.next] at hnext
    split_ifs at hnext with hrunning hfree
    · cases hnext
      refine h.serve ?_ fun _ _ => if_pos hrunning
      intro hstate
      rw [hstate] at hrunning
      cases hrunning
    · cases hnext
      refine ⟨h.created, fun hstate => ?_, h.stamped_lt, h.stamped, h.joined_lt, h.joined⟩
      have hstate : s.runner.machine.state = .created := hstate
      rw [hstate] at hrunning
      cases hrunning
  | acquire id =>
    simp only [Router.next] at hnext
    split at hnext
    next session waiting hwaiting hretiring =>
      cases hnext
      have hcreated : s.runner.machine.state ≠ .created := by
        intro hstate
        rw [(h.letIn hstate).1] at hwaiting
        cases hwaiting
      refine serve (s := { s with waiting }) ?_ hcreated fun hopens hid => ?_
      · exact ⟨h.created, fun hstate => absurd hstate hcreated, h.stamped_lt, h.stamped,
          h.joined_lt, h.joined⟩
      · obtain ⟨id, rfl⟩ := Option.isSome_iff_exists.mp hid
        have hopens : s.opensAtOnce = true := hopens
        simpa [sameSession, hopens, hwaiting] using hsame
    · cases hnext
  | retired id =>
    simp only [Router.next] at hnext
    split at hnext
    next r hretiring =>
      split_ifs at hnext
      cases hnext
      have hcreated : s.runner.machine.state ≠ .created := by
        intro hstate
        rw [(h.letIn hstate).2] at hretiring
        cases hretiring
      refine openRoom (s := { s with retiring := none }) ?_ hcreated fun hid => ?_
      · exact ⟨h.created, fun hstate => absurd hstate hcreated, h.stamped_lt, h.stamped,
          h.joined_lt, h.joined⟩
      · obtain ⟨id, rfl⟩ := Option.isSome_iff_exists.mp hid
        simpa [sameSession, hretiring] using hsame
    · cases hnext

end Stamped

/-- **The session of a room connection.**  No two room connections are joining or open at once; and
in a run where no session ends while a request waits, and each room connection opens with the stamp
of its own offer, every one registers in the session by which its request was let in. -/
theorem room_own (recording : Bool) (ls : List Label) (hrun : (router recording).run ls = some s) :
    (∀ i < s.made, ∀ j < s.made, (s.rooms i).active = true → (s.rooms j).active = true → i = j) ∧
    ((router recording).AllSteps (fun s l => s.sameSession l ∧ s.ownStamp l) ls → s.JoinedOwn) := by
  have hsingle : (router recording).IsInvariant Single := by
    refine ⟨⟨fun _ _ => rfl, nofun, fun i hi => absurd hi (Nat.not_lt_zero i), nofun⟩, ?_⟩
    exact fun _ _ _ h hnext => h.next hnext
  refine ⟨fun i hi j hj hactive hactive' => ?_, fun hall => ?_⟩
  · have h := hsingle.of_run hrun
    exact Option.some.inj ((h.single i hi hactive).symm.trans (h.single j hj hactive'))
  · refine (hall.invariant (I := Stamped) ?_ ?_ hrun).joined
    · exact ⟨fun _ _ _ => nofun, fun _ => ⟨rfl, rfl⟩, fun _ _ => nofun, fun _ _ => nofun,
        fun _ _ => nofun, fun _ _ => nofun⟩
    · rintro s l s' h ⟨hsame, hown⟩ hnext
      exact h.next hsame hown hnext

def roomRun : List Label :=
  [.runner (.initialized true), .runner (.startSession {} { uuid := "a" }), .request (some 5000),
   .room 0 .joinBegins, .room 0 .attemptBegins, .room 0 .connects, .room 0 (.attemptEnds true)]

theorem isSome_roomRun :
    ((router false).run (roomRun ++ [.room 0 (.joinWakes true [])])).isSome := rfl

theorem room_own_first : (((router false).run (roomRun ++ [.room 0 (.joinWakes true [])])).get
    isSome_roomRun).JoinedOwn :=
  (room_own false _ (Option.some_get isSome_roomRun).symm).2 (by decide +kernel)

def endSession : List Label :=
  [.runner (.stopSession .stopped ""), .runner (.teardown 0), .runner (.teardown 0)]

/-- A room joins too late for its session; the request of the next session waits for the room to be
left, and that session ends meanwhile. -/
def lateRun : List Label :=
  roomRun ++ endSession ++
    [.runner (.startSession {} { uuid := "b" }), .room 0 (.joinWakes false []),
     .request (some 5001), .room 0 .finishStopped] ++ endSession ++
    [.runner (.startSession {} { uuid := "c" }), .room 0 .finishLeft, .retired (some 5001),
     .room 1 .joinBegins, .room 1 .attemptBegins, .room 1 .connects, .room 1 (.attemptEnds true),
     .room 1 (.joinWakes true [])]

theorem isSome_lateRun : ((router false).run lateRun).isSome := rfl

theorem not_room_own :
    (router false).run lateRun = some (((router false).run lateRun).get isSome_lateRun) ∧
      ¬(((router false).run lateRun).get isSome_lateRun).JoinedOwn := by
  refine ⟨(Option.some_get isSome_lateRun).symm, fun hjoined => ?_⟩
  have hown := hjoined 1 (some 3) (by decide +kernel)
  exact absurd hown.2 (by decide +kernel)

end Router

end ReactorRuntime.LiveKit
