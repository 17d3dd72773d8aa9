import ReactorRuntime.LiveKit.Room
import Mathlib.Data.List.Nodup

/-!
# The life of a room connection

`Step` says what each step needs and does.  Every step keeps

* `OneLeave`: the leaves started and the tasks that have still to start one are one in all;
* `AttemptFirst`: none of these but the join is there before the attempt has settled;
* `Closing`: what the session's `close()` of the connection is for.

`Noticed`, `Tracked` and `Accounted` are kept by the steps that meet `opensConnected`,
`finishesAtOnce` and `reportsOnce`, and `room_life` puts all of these together.
-/

namespace ReactorRuntime.LiveKit

/-! ### What will leave the room -/

def JoinTask.duty : JoinTask → ℕ
  | .created | .waiting => 1
  | .leaving _ | .done => 0

def AbandonTask.duty : AbandonTask → ℕ
  | .attached | .created => 1
  | .none | .leaving | .done => 0

/-- The `_finish` that comes to an open room connection. -/
def RoomState.duty : RoomState → ℕ
  | .opened => 1
  | .joining | .failed | .closed => 0

/-- A `_finish` that waits for the media to stop. -/
def FinishStage.duty : FinishStage → ℕ
  | .stopping => 1
  | .leaving => 0

namespace RoomSession

variable {s s' : RoomSession} {l : Label}

@[simp] theorem duty_join_created : JoinTask.created.duty = 1 := rfl
@[simp] theorem duty_join_waiting : JoinTask.waiting.duty = 1 := rfl
@[simp] theorem duty_join_leaving (failed : Bool) : (JoinTask.leaving failed).duty = 0 := rfl
@[simp] theorem duty_join_done : JoinTask.done.duty = 0 := rfl
@[simp] theorem duty_abandoned_none : AbandonTask.none.duty = 0 := rfl
@[simp] theorem duty_abandoned_attached : AbandonTask.attached.duty = 1 := rfl
@[simp] theorem duty_abandoned_created : AbandonTask.created.duty = 1 := rfl
@[simp] theorem duty_abandoned_leaving : AbandonTask.leaving.duty = 0 := rfl
@[simp] theorem duty_abandoned_done : AbandonTask.done.duty = 0 := rfl
@[simp] theorem duty_joining : RoomState.joining.duty = 0 := rfl
@[simp] theorem duty_opened : RoomState.opened.duty = 1 := rfl
@[simp] theorem duty_failed : RoomState.failed.duty = 0 := rfl
@[simp] theorem duty_closed : RoomState.closed.duty = 0 := rfl
@[simp] theorem duty_stopping : FinishStage.stopping.duty = 1 := rfl
@[simp] theorem duty_leaving : FinishStage.leaving.duty = 0 := rfl

/-! ### Participants change nothing else -/

theorem addParticipant_eq (s : RoomSession) (identity : String) (accepted : Option Bool) :
    ∃ participants made opened,
      s.addParticipant identity accepted = { s with participants, made, opened } := by
  unfold addParticipant
  split_ifs
  · exact ⟨_, _, _, rfl⟩
  · rcases accepted with - | - | - <;> exact ⟨_, _, _, rfl⟩

theorem foldl_addParticipant_eq (s : RoomSession) (present : List (String × Option Bool)) :
    ∃ participants made opened, present.foldl (fun s p => s.addParticipant p.1 p.2) s =
      { s with participants, made, opened } := by
  induction present generalizing s with
  | nil => exact ⟨_, _, _, rfl⟩
  | cons p present ih =>
    obtain ⟨participants, made, opened, hadd⟩ := s.addParticipant_eq p.1 p.2
    rw [List.foldl_cons, hadd]
    exact ih _

theorem openRoom_eq (s : RoomSession) (accepted : Bool) (present : List (String × Option Bool)) :
    ∃ participants made opened closing registered, s.openRoom accepted present =
      { s with
        state := .opened
        connection := true
        join := .done
        participants, made, opened, closing, registered } := by
  unfold openRoom
  dsimp only
  split_ifs
  · obtain ⟨participants, made, opened, hpresent⟩ := foldl_addParticipant_eq
      { s with
        state := .opened
        connection := true
        join := .done
        registered := true
        opened := s.opened ++ [.room] } present
    exact ⟨_, _, _, _, _, hpresent⟩
  · exact ⟨_, _, _, _, _, rfl⟩

theorem removeParticipant_eq (s : RoomSession) (identity : String) :
    ∃ participants ended, s.removeParticipant identity = { s with participants, ended } := by
  unfold removeParticipant
  split <;> exact ⟨_, _, rfl⟩

/-! ### Finishing -/

theorem finish_of_not_active (h : s.active = false) (reason : CloseReason) (finisher : Finisher) :
    s.finish reason finisher = s := by
  rw [finish, h]
  rfl

theorem finish_joining (h : s.state = .joining) (reason : CloseReason) (finisher : Finisher) :
    s.finish reason finisher = { s with
      state := .closed
      reason := some reason
      registered := false
      participants := []
      ended := s.ended ++ s.participants.map fun p => .participant p.2 } := by
  simp [finish, active, h]

/-- Whether a `_finish` waits for the media to stop. -/
def stops (s : RoomSession) : Bool := s.connection && !s.connectionClosed

theorem finish_opened (h : s.state = .opened) (reason : CloseReason) (finisher : Finisher) :
    s.finish reason finisher = { s with
      state := .closed
      reason := some reason
      registered := false
      participants := []
      ended := s.ended ++ (s.participants.map fun p => .participant p.2) ++
        if s.connection then [Conn.room] else []
      connection := false
      connectionClosed := s.connectionClosed || s.connection
      finishing := some (finisher, if s.stops then .stopping else .leaving)
      leaves := if s.stops then s.leaves else s.leaves ++ [false] } := by
  obtain ⟨⟩ := s
  rename_i connection connectionClosed _ _ _ _ _ _ _ _ _ _ _ _
  cases connection <;> cases connectionClosed <;> simp_all [finish, active, startLeave, stops]

theorem cases_active (s : RoomSession) :
    s.active = false ∨ s.state = .joining ∨ s.state = .opened := by
  unfold active
  cases s.state <;> simp

/-! ### What a step does -/

inductive Step (s : RoomSession) : Label → RoomSession → Prop
  | joinBegins (hjoin : s.join = .created) : Step s .joinBegins { s with join := .waiting }
  | attemptBegins (hattempt : s.attempt = .created) :
    Step s .attemptBegins { s with attempt := .connecting }
  | connects (hattempt : s.attempt = .connecting) :
    Step s .connects { s with attempt := .publishing }
  | attemptEnds (succeeded : Bool) (hattempt : s.attemptDone = false) :
    Step s (.attemptEnds succeeded)
      { s with attempt := if succeeded then .succeeded else .failed }
  | joinWakes (accepted : Bool) (present : List (String × Option Bool))
    (hjoin : s.join = .waiting) :
    Step s (.joinWakes accepted present) (s.joinWakes accepted present)
  | joinLeft (failed : Bool) (hjoin : s.join = .leaving failed) : Step s .joinLeft
      { s with
        join := .done
        failures := if failed then s.failures ++ [.joinRefused] else s.failures }
  | abandonedSettled (habandoned : s.abandoned = .attached) (hdone : s.attemptDone) :
    Step s .abandonedSettled { s with abandoned := .created }
  | abandonedLeaves (habandoned : s.abandoned = .created) :
    Step s .abandonedLeaves { s.startLeave with abandoned := .leaving }
  | abandonedLeft (habandoned : s.abandoned = .leaving) :
    Step s .abandonedLeft { s with abandoned := .done, leavePending := false }
  | leave : Step s .leave (s.finish .left .caller)
  | retire : Step s .retire (s.finish .sessionEnded .caller)
  | lost (hlost : s.lost = false) : Step s .lost
      { s with lost := true, lossTasks := s.lossTasks + if s.state = .opened then 1 else 0 }
  | lossHandled (htasks : 0 < s.lossTasks) :
    Step s .lossHandled ({ s with lossTasks := s.lossTasks - 1 }.finish .roomLost .loss)
  | finishStopped (finisher : Finisher) (hfinishing : s.finishing = some (finisher, .stopping)) :
    Step s .finishStopped (s.finishStopped finisher)
  | finishLeft (finisher : Finisher) (hfinishing : s.finishing = some (finisher, .leaving)) :
    Step s .finishLeft { s with finishing := none }
  | sessionCloses (hheld : Conn.room ∈ s.held) (htorn : s.tornDown = false) :
    Step s .sessionCloses s.tearDown
  | closeBegins (hclosing : s.closing = some .scheduled) : Step s .closeBegins s.beginClose
  | closeStopped (hclosing : s.closing = some .stopping) : Step s .closeStopped s.closeStopped
  | participantsClosed (hclosing : s.closing = some .participants) :
    Step s .participantsClosed ({ s with closing := none }.finish .sessionEnded .session)
  | participantJoined (identity : String) (accepted : Option Bool)
    (haccepted : s.tornDown → accepted ≠ some true) :
    Step s (.participantJoined identity accepted) (s.addParticipant identity accepted)
  | participantLeft (identity : String) :
    Step s (.participantLeft identity) (s.removeParticipant identity)
  | leaveEnds (i : ℕ) (hleave : s.leaves[i]? = some false) :
    Step s (.leaveEnds i) { s with leaves := s.leaves.set i true }

theorem step_of_next (h : s.next l = some s') : s.Step l s' := by
  have ite_some : ∀ {p : Prop} [Decidable p] {t : RoomSession},
      (if p then some t else none) = some s' → p ∧ t = s' := by
    intro p _ t h
    split_ifs at h with hp
    exact ⟨hp, Option.some.inj h⟩
  cases l with
  | joinBegins =>
    obtain ⟨hjoin, rfl⟩ := ite_some h
    exact .joinBegins hjoin
  | attemptBegins =>
    obtain ⟨⟨-, hattempt⟩, rfl⟩ := ite_some h
    exact .attemptBegins hattempt
  | connects =>
    obtain ⟨hattempt, rfl⟩ := ite_some h
    exact .connects hattempt
  | attemptEnds succeeded =>
    cases succeeded with
    | true =>
      obtain ⟨hattempt, rfl⟩ := ite_some h
      exact .attemptEnds true (by simp [attemptDone, hattempt])
    | false =>
      obtain ⟨hattempt | hattempt, rfl⟩ := ite_some h
      · exact .attemptEnds false (by simp [attemptDone, hattempt])
      · exact .attemptEnds false (by simp [attemptDone, hattempt])
  | joinWakes accepted present =>
    obtain ⟨hjoin, rfl⟩ := ite_some h
    exact .joinWakes accepted present hjoin
  | joinLeft =>
    cases hjoin : s.join with
    | leaving failed =>
      simp only [next, hjoin, Option.some.injEq] at h
      rw [← h]
      exact .joinLeft failed hjoin
    | _ => simp [next, hjoin] at h
  | abandonedSettled =>
    obtain ⟨⟨habandoned, hdone⟩, rfl⟩ := ite_some h
    exact .abandonedSettled habandoned hdone
  | abandonedLeaves =>
    obtain ⟨habandoned, rfl⟩ := ite_some h
    exact .abandonedLeaves habandoned
  | abandonedLeft =>
    obtain ⟨habandoned, rfl⟩ := ite_some h
    exact .abandonedLeft habandoned
  | leave =>
    cases h
    exact .leave
  | retire =>
    cases h
    exact .retire
  | lost =>
    simp only [next] at h
    split_ifs at h with hlost hopened
    · cases h
      have hstep := Step.lost (s := s) (by simpa using fun h => hlost (.inl h))
      rw [if_pos hopened] at hstep
      exact hstep
    · cases h
      have hstep := Step.lost (s := s) (by simpa using fun h => hlost (.inl h))
      rw [if_neg hopened] at hstep
      exact hstep
  | lossHandled =>
    simp only [next] at h
    split_ifs at h with htasks
    cases h
    exact .lossHandled (Nat.pos_of_ne_zero htasks)
  | finishStopped =>
    simp only [next] at h
    split at h
    · rename_i finisher hfinishing
      cases h
      exact .finishStopped finisher hfinishing
    · cases h
  | finishLeft =>
    simp only [next] at h
    split at h
    · rename_i finisher hfinishing
      cases h
      exact .finishLeft finisher hfinishing
    · cases h
  | sessionCloses =>
    obtain ⟨⟨hheld, htorn⟩, rfl⟩ := ite_some h
    exact .sessionCloses hheld htorn
  | closeBegins =>
    obtain ⟨hclosing, rfl⟩ := ite_some h
    exact .closeBegins hclosing
  | closeStopped =>
    obtain ⟨hclosing, rfl⟩ := ite_some h
    exact .closeStopped hclosing
  | participantsClosed =>
    obtain ⟨hclosing, rfl⟩ := ite_some h
    exact .participantsClosed hclosing
  | participantJoined identity accepted =>
    simp only [next] at h
    split_ifs at h with haccepted
    cases h
    exact .participantJoined identity accepted fun htorn heq => haccepted ⟨htorn, heq⟩
  | participantLeft identity =>
    cases h
    exact .participantLeft identity
  | leaveEnds i =>
    obtain ⟨hleave, rfl⟩ := ite_some h
    exact .leaveEnds i hleave

/-! ### The room is left once -/

/-- How often the room will be left. -/
def duties (s : RoomSession) : ℕ :=
  s.join.duty + s.abandoned.duty + s.state.duty + s.finishing.elim 0 fun f => f.2.duty

/-- Each room is left once, by now or later. -/
def OneLeave (s : RoomSession) : Prop := s.leaves.length + s.duties = 1

theorem OneLeave.finish (h : s.OneLeave) (reason : CloseReason) (finisher : Finisher) :
    (s.finish reason finisher).OneLeave := by
  rcases s.cases_active with hactive | hjoining | hopened
  · rw [finish_of_not_active hactive]
    exact h
  · rw [finish_joining hjoining]
    simpa [OneLeave, duties, hjoining] using h
  · rw [finish_opened hopened]
    simp only [OneLeave, duties, hopened, duty_opened] at h
    cases s.stops <;> simp [OneLeave, duties] <;> omega

theorem OneLeave.joinWakes (h : s.OneLeave) (hjoin : s.join = .waiting) (accepted : Bool)
    (present : List (String × Option Bool)) : (s.joinWakes accepted present).OneLeave := by
  simp only [OneLeave, duties, hjoin, duty_join_waiting] at h
  unfold RoomSession.joinWakes
  split_ifs with hdone hstate hattempt
  · unfold abandon
    dsimp only
    split_ifs with hjoining
    · simp [OneLeave, duties, RoomSession.fail]
      omega
    · simp [OneLeave, duties]
      omega
  · simp [OneLeave, duties, startLeave]
    omega
  · simp [OneLeave, duties, startLeave, RoomSession.fail]
    omega
  · obtain ⟨participants, made, opened, closing, registered, hopen⟩ :=
      s.openRoom_eq accepted present
    rw [hopen]
    simp [OneLeave, duties]
    omega

theorem OneLeave.step (h : s.OneLeave) (hstep : s.Step l s') : s'.OneLeave := by
  cases hstep with
  | joinBegins hjoin => simpa [OneLeave, duties, hjoin] using h
  | joinWakes accepted present hjoin => exact h.joinWakes hjoin accepted present
  | joinLeft failed hjoin => simpa [OneLeave, duties, hjoin] using h
  | abandonedSettled habandoned => simpa [OneLeave, duties, habandoned] using h
  | abandonedLeaves habandoned =>
    simp only [OneLeave, duties, habandoned, duty_abandoned_created] at h
    simp [OneLeave, duties, startLeave]
    omega
  | abandonedLeft habandoned => simpa [OneLeave, duties, habandoned] using h
  | leave => exact h.finish .left .caller
  | retire => exact h.finish .sessionEnded .caller
  | lossHandled => exact OneLeave.finish (s := { s with lossTasks := s.lossTasks - 1 }) h _ _
  | finishStopped finisher hfinishing =>
    simp only [OneLeave, duties, hfinishing, Option.elim_some, duty_stopping] at h
    simp [OneLeave, duties, RoomSession.finishStopped, startLeave]
    omega
  | finishLeft finisher hfinishing => simpa [OneLeave, duties, hfinishing] using h
  | closeBegins =>
    unfold beginClose
    split_ifs <;> exact h
  | closeStopped =>
    unfold RoomSession.closeStopped
    dsimp only
    split_ifs
    · exact OneLeave.finish
        (s := { s with closing := none, connection := false, participants := [] }) h _ _
    · exact h
  | participantsClosed => exact OneLeave.finish (s := { s with closing := none }) h _ _
  | participantJoined identity accepted =>
    obtain ⟨participants, made, opened, heq⟩ := s.addParticipant_eq identity accepted
    rw [heq]
    exact h
  | participantLeft identity =>
    obtain ⟨participants, ended, heq⟩ := s.removeParticipant_eq identity
    rw [heq]
    exact h
  | leaveEnds i => simpa [OneLeave, duties] using h
  | _ => exact h

/-! ### The attempt settles first -/

/-- Until the attempt has settled, nothing leaves the room, and nothing but the join can. -/
def AttemptFirst (s : RoomSession) : Prop :=
  s.attemptDone = false → s.leaves = [] ∧ s.abandoned ≠ .created ∧ s.state ≠ .opened ∧
    ∀ finisher, s.finishing ≠ some (finisher, .stopping)

theorem AttemptFirst.finish (h : s.AttemptFirst) (reason : CloseReason) (finisher : Finisher) :
    (s.finish reason finisher).AttemptFirst := by
  rcases s.cases_active with hactive | hjoining | hopened
  · rw [finish_of_not_active hactive]
    exact h
  · rw [finish_joining hjoining]
    intro hdone
    obtain ⟨hleaves, habandoned, -, hfinishing⟩ := h hdone
    exact ⟨hleaves, habandoned, nofun, hfinishing⟩
  · rw [finish_opened hopened]
    intro hdone
    exact absurd hopened (h hdone).2.2.1

theorem AttemptFirst.of_attemptDone (h : s.attemptDone = true) : s.AttemptFirst := by
  intro hdone
  rw [h] at hdone
  cases hdone

theorem AttemptFirst.joinWakes (h : s.AttemptFirst) (accepted : Bool)
    (present : List (String × Option Bool)) : (s.joinWakes accepted present).AttemptFirst := by
  unfold RoomSession.joinWakes
  split_ifs with hdone hstate hattempt
  · intro hdone'
    unfold abandon
    obtain ⟨hleaves, -, hopened, hfinishing⟩ := h (by simpa using hdone)
    dsimp only
    split_ifs
    · exact ⟨hleaves, nofun, nofun, hfinishing⟩
    · exact ⟨hleaves, nofun, hopened, hfinishing⟩
  all_goals
    refine .of_attemptDone ?_
    rw [Bool.not_eq_true, Bool.not_eq_false'] at hdone
  · exact hdone
  · exact hdone
  · obtain ⟨participants, made, opened, closing, registered, hopen⟩ :=
      s.openRoom_eq accepted present
    rw [hopen]
    exact hdone

theorem AttemptFirst.step (h : s.AttemptFirst) (hstep : s.Step l s') : s'.AttemptFirst := by
  cases hstep with
  | attemptBegins hattempt => exact fun _ => h (by simp [attemptDone, hattempt])
  | connects hattempt => exact fun _ => h (by simp [attemptDone, hattempt])
  | attemptEnds succeeded hattempt => exact .of_attemptDone (by cases succeeded <;> rfl)
  | joinWakes accepted present => exact h.joinWakes accepted present
  | abandonedSettled _ hdone => exact .of_attemptDone hdone
  | abandonedLeaves habandoned =>
    intro hdone
    exact absurd habandoned (h hdone).2.1
  | abandonedLeft =>
    intro hdone
    obtain ⟨hleaves, -, hopened, hfinishing⟩ := h hdone
    exact ⟨hleaves, nofun, hopened, hfinishing⟩
  | leave => exact h.finish .left .caller
  | retire => exact h.finish .sessionEnded .caller
  | lossHandled => exact AttemptFirst.finish (s := { s with lossTasks := s.lossTasks - 1 }) h _ _
  | finishStopped finisher hfinishing =>
    intro hdone
    exact absurd hfinishing ((h hdone).2.2.2 finisher)
  | finishLeft =>
    intro hdone
    obtain ⟨hleaves, habandoned, hopened, -⟩ := h hdone
    exact ⟨hleaves, habandoned, hopened, nofun⟩
  | closeBegins =>
    unfold beginClose
    split_ifs <;> exact h
  | closeStopped =>
    unfold RoomSession.closeStopped
    dsimp only
    split_ifs
    · exact AttemptFirst.finish
        (s := { s with closing := none, connection := false, participants := [] }) h _ _
    · exact h
  | participantsClosed => exact AttemptFirst.finish (s := { s with closing := none }) h _ _
  | participantJoined identity accepted =>
    obtain ⟨participants, made, opened, heq⟩ := s.addParticipant_eq identity accepted
    rw [heq]
    exact h
  | participantLeft identity =>
    obtain ⟨participants, ended, heq⟩ := s.removeParticipant_eq identity
    rw [heq]
    exact h
  | leaveEnds i hleave =>
    intro hdone
    rw [(h hdone).1] at hleave
    cases hleave
  | _ => exact h

/-! ### Losses -/

def opensConnected (s : RoomSession) : Label → Bool
  | .joinWakes _ _ => !(s.state = .joining && s.attempt = .succeeded && s.lost)
  | _ => true

/-- The loss of the room of an open room connection is being handled. -/
def Noticed (s : RoomSession) : Prop := s.lost → s.state = .opened → 0 < s.lossTasks

theorem state_finish (s : RoomSession) (reason : CloseReason) (finisher : Finisher) :
    (s.finish reason finisher).state ≠ .opened := by
  rcases s.cases_active with hactive | hjoining | hopened
  · rw [finish_of_not_active hactive]
    rintro hopened
    simp [active, hopened] at hactive
  · rw [finish_joining hjoining]
    nofun
  · rw [finish_opened hopened]
    nofun

theorem state_joinWakes {accepted : Bool} {present : List (String × Option Bool)}
    (hopened : s.state ≠ .opened) (h : (s.joinWakes accepted present).state = .opened) :
    s.state = .joining ∧ s.attempt = .succeeded := by
  unfold RoomSession.joinWakes at h
  split_ifs at h with hdone hstate hattempt
  · unfold abandon at h
    dsimp only at h
    split_ifs at h
    · cases h
    · exact absurd h hopened
  · exact absurd h hopened
  · cases h
  · refine ⟨by simpa using hstate, ?_⟩
    simpa [attemptDone, hattempt] using hdone

theorem lost_joinWakes (s : RoomSession) (accepted : Bool)
    (present : List (String × Option Bool)) : (s.joinWakes accepted present).lost = s.lost := by
  unfold RoomSession.joinWakes abandon
  dsimp only
  split_ifs
  · rfl
  · rfl
  · rfl
  · rfl
  · obtain ⟨participants, made, opened, closing, registered, hopen⟩ :=
      s.openRoom_eq accepted present
    rw [hopen]

theorem Noticed.step (h : s.Noticed) (hopens : s.opensConnected l) (hone : s.OneLeave)
    (hstep : s.Step l s') : s'.Noticed := by
  cases hstep with
  | joinWakes accepted present hjoin =>
    intro hlost hopened
    have hbefore : s.state ≠ .opened := by
      rintro hopened
      simp [OneLeave, duties, hjoin, hopened] at hone
      omega
    obtain ⟨hstate, hattempt⟩ := state_joinWakes hbefore hopened
    rw [lost_joinWakes] at hlost
    simp [opensConnected, hstate, hattempt, hlost] at hopens
  | leave => exact fun _ hopened => absurd hopened (state_finish _ _ _)
  | retire => exact fun _ hopened => absurd hopened (state_finish _ _ _)
  | lost =>
    intro _ hopened
    show 0 < s.lossTasks + if s.state = .opened then 1 else 0
    rw [if_pos hopened]
    exact Nat.succ_pos _
  | lossHandled => exact fun _ hopened => absurd hopened (state_finish _ _ _)
  | closeBegins =>
    unfold beginClose
    split_ifs <;> exact h
  | closeStopped =>
    unfold RoomSession.closeStopped
    dsimp only
    split_ifs
    · exact fun _ hopened => absurd hopened (state_finish _ _ _)
    · exact h
  | participantsClosed => exact fun _ hopened => absurd hopened (state_finish _ _ _)
  | participantJoined identity accepted =>
    obtain ⟨participants, made, opened, heq⟩ := s.addParticipant_eq identity accepted
    rw [heq]
    exact h
  | participantLeft identity =>
    obtain ⟨participants, ended, heq⟩ := s.removeParticipant_eq identity
    rw [heq]
    exact h
  | _ => exact h

/-! ### The session's side -/

structure Closing (s : RoomSession) : Prop where
  joining : s.state = .joining → s.closing = none ∧ s.opened = [] ∧ s.connectionClosed = false ∧
    s.registered = false ∧ s.tornDown = false
  held : Conn.room ∈ s.opened → s.tornDown = false → s.closing = none
  opened : s.state = .opened → s.closing ≠ none ∨ (Conn.room ∈ s.opened ∧ s.tornDown = false)
  closed : s.state = .opened → s.connectionClosed = true →
    s.closing = some .stopping ∨ s.closing = some .participants
  participants : s.closing = some .participants → s.connection = false

theorem subset_foldl_addParticipant (s : RoomSession) (present : List (String × Option Bool)) :
    s.opened ⊆ (present.foldl (fun s p => s.addParticipant p.1 p.2) s).opened := by
  induction present generalizing s with
  | nil => exact List.Subset.refl _
  | cons p present ih =>
    refine List.Subset.trans ?_ (ih _)
    show s.opened ⊆ (s.addParticipant p.1 p.2).opened
    unfold addParticipant
    split_ifs
    · exact List.Subset.refl _
    · rcases p.2 with - | - | -
      · exact List.Subset.refl _
      · exact List.Subset.refl _
      · exact List.subset_append_left _ _

namespace Closing

theorem finish (h : s.Closing) (reason : CloseReason) (finisher : Finisher) :
    (s.finish reason finisher).Closing := by
  rcases s.cases_active with hactive | hjoining | hopened
  · rw [finish_of_not_active hactive]
    exact h
  · rw [finish_joining hjoining]
    exact ⟨nofun, h.held, nofun, nofun, h.participants⟩
  · rw [finish_opened hopened]
    exact ⟨nofun, h.held, nofun, nofun, fun _ => rfl⟩

theorem openRoom (h : s.Closing) (hjoining : s.state = .joining) (accepted : Bool)
    (present : List (String × Option Bool)) : (s.openRoom accepted present).Closing := by
  obtain ⟨hclosing, hnone, hclosed, hregistered, htorn⟩ := h.joining hjoining
  unfold RoomSession.openRoom
  dsimp only
  split_ifs
  · have hsubset := subset_foldl_addParticipant
      { s with
        state := .opened
        connection := true
        join := .done
        registered := true
        opened := s.opened ++ [.room] } present
    obtain ⟨participants, made, opened, hpresent⟩ := foldl_addParticipant_eq
      { s with
        state := .opened
        connection := true
        join := .done
        registered := true
        opened := s.opened ++ [.room] } present
    rw [hpresent] at hsubset ⊢
    have hroom : Conn.room ∈ opened := hsubset (List.mem_append_right _ List.mem_cons_self)
    refine ⟨nofun, fun _ _ => hclosing, fun _ => .inr ⟨hroom, htorn⟩, fun _ h => ?_, fun h => ?_⟩
    · rw [hclosed] at h
      cases h
    · rw [hclosing] at h
      cases h
  · refine ⟨nofun, fun hroom => ?_, fun _ => .inl nofun, fun _ h => ?_, nofun⟩
    · rw [hnone] at hroom
      cases hroom
    · rw [hclosed] at h
      cases h

theorem joinWakes (h : s.Closing) (accepted : Bool) (present : List (String × Option Bool)) :
    (s.joinWakes accepted present).Closing := by
  unfold RoomSession.joinWakes
  split_ifs with hdone hstate hattempt
  · unfold abandon
    dsimp only
    split_ifs
    · exact ⟨nofun, h.held, nofun, nofun, h.participants⟩
    · exact ⟨h.joining, h.held, h.opened, h.closed, h.participants⟩
  · exact ⟨h.joining, h.held, h.opened, h.closed, h.participants⟩
  · exact ⟨nofun, h.held, nofun, nofun, h.participants⟩
  · exact h.openRoom (by simpa using hstate) accepted present

theorem beginClose (h : s.Closing) (hclosing : s.closing = some .scheduled) :
    s.beginClose.Closing := by
  have hheld : Conn.room ∈ s.opened → s.tornDown ≠ false := by
    intro hroom htorn
    rw [h.held hroom htorn] at hclosing
    cases hclosing
  have hjoining : s.state ≠ .joining := by
    intro hjoining
    rw [(h.joining hjoining).1] at hclosing
    cases hclosing
  unfold RoomSession.beginClose
  split_ifs with hclosed
  · have hopened : s.state ≠ .opened := by
      intro hopened
      rcases h.closed hopened hclosed with h | h <;> rw [h] at hclosing <;> cases hclosing
    exact ⟨fun h => absurd h hjoining, fun _ _ => rfl, fun h => absurd h hopened,
      fun h => absurd h hopened, nofun⟩
  · exact ⟨fun h => absurd h hjoining, fun hroom htorn => absurd htorn (hheld hroom),
      fun _ => .inl nofun, fun _ _ => .inl rfl, nofun⟩

theorem finishSession (hclosing : s.closing = none) (hjoining : s.state ≠ .joining)
    (reason : CloseReason) (finisher : Finisher) : (s.finish reason finisher).Closing := by
  have hnone : s.closing = some .participants → False := by
    rw [hclosing]
    nofun
  rcases s.cases_active with hactive | hjoining' | hopened
  · have hopened : s.state ≠ .opened := by
      intro hopened
      simp [active, hopened] at hactive
    rw [finish_of_not_active hactive]
    exact ⟨fun h => absurd h hjoining, fun _ _ => hclosing, fun h => absurd h hopened,
      fun h => absurd h hopened, fun h => (hnone h).elim⟩
  · exact absurd hjoining' hjoining
  · rw [finish_opened hopened]
    exact ⟨nofun, fun _ _ => hclosing, nofun, nofun, fun _ => rfl⟩

theorem not_joining (h : s.Closing) {stage : CloseStage} (hclosing : s.closing = some stage) :
    s.state ≠ .joining := by
  intro hjoining
  rw [(h.joining hjoining).1] at hclosing
  cases hclosing

theorem not_held (h : s.Closing) {stage : CloseStage} (hclosing : s.closing = some stage)
    (hroom : Conn.room ∈ s.opened) : s.tornDown ≠ false := by
  intro htorn
  rw [h.held hroom htorn] at hclosing
  cases hclosing

theorem closeStopped (h : s.Closing) (hclosing : s.closing = some .stopping) :
    s.closeStopped.Closing := by
  have hjoining := h.not_joining hclosing
  unfold RoomSession.closeStopped
  dsimp only
  split_ifs
  · refine finishSession ?_ ?_ _ _
    · rfl
    · exact hjoining
  · exact ⟨fun h => absurd h hjoining, fun hroom htorn => absurd htorn (h.not_held hclosing hroom),
      fun _ => .inl nofun, fun _ _ => .inr rfl, fun _ => rfl⟩

theorem tearDown (h : s.Closing) (hheld : Conn.room ∈ s.held) (htorn : s.tornDown = false) :
    s.tearDown.Closing := by
  have hroom : Conn.room ∈ s.opened := (List.mem_filter.mp hheld).1
  have hclosing : s.closing = none := h.held hroom htorn
  refine ⟨fun hjoining => ?_, nofun, fun _ => .inl nofun, fun hopened hclosed => ?_, nofun⟩
  · rw [(h.joining hjoining).2.1] at hroom
    cases hroom
  · rcases h.closed hopened hclosed with h | h <;> rw [hclosing] at h <;> cases h

theorem addParticipant (h : s.Closing) (identity : String) (accepted : Option Bool) :
    (s.addParticipant identity accepted).Closing := by
  have hmem : ∀ n, Conn.room ∈ s.opened ++ [.participant n] ↔ Conn.room ∈ s.opened := by
    intro n
    simp
  unfold RoomSession.addParticipant
  split_ifs with hskip
  · exact h
  · rcases accepted with - | - | -
    · exact h
    · exact ⟨h.joining, h.held, h.opened, h.closed, h.participants⟩
    · refine ⟨fun hjoining => ?_, fun hroom => h.held ((hmem _).mp hroom), fun hopened => ?_,
        h.closed, h.participants⟩
      · obtain ⟨-, -, -, hregistered, -⟩ := h.joining hjoining
        simp [hregistered] at hskip
      · exact (h.opened hopened).imp_right fun h => ⟨(hmem _).mpr h.1, h.2⟩

theorem step (h : s.Closing) (hstep : s.Step l s') : s'.Closing := by
  cases hstep with
  | joinWakes accepted present => exact h.joinWakes accepted present
  | leave => exact h.finish _ _
  | retire => exact h.finish _ _
  | lossHandled =>
    refine finish ?_ _ _
    exact ⟨h.joining, h.held, h.opened, h.closed, h.participants⟩
  | finishStopped => exact ⟨h.joining, h.held, h.opened, h.closed, fun _ => rfl⟩
  | sessionCloses hheld htorn => exact h.tearDown hheld htorn
  | closeBegins hclosing => exact h.beginClose hclosing
  | closeStopped hclosing => exact h.closeStopped hclosing
  | participantsClosed hclosing =>
    refine finishSession ?_ ?_ _ _
    · rfl
    · exact h.not_joining hclosing
  | participantJoined identity accepted => exact h.addParticipant identity accepted
  | participantLeft identity =>
    obtain ⟨participants, ended, heq⟩ := s.removeParticipant_eq identity
    rw [heq]
    exact ⟨h.joining, h.held, h.opened, h.closed, h.participants⟩
  | _ => exact ⟨h.joining, h.held, h.opened, h.closed, h.participants⟩

end Closing

/-! ### Settled room connections -/

/-- No caller closes a connection that has its media still to stop. -/
def finishesAtOnce (s : RoomSession) : Label → Bool
  | .leave | .retire => !(s.state = .opened && s.stops)
  | _ => true

/-- What `settled` takes into account of a leave that has not started. -/
structure Tracked (s : RoomSession) : Prop where
  pending : s.abandoned ≠ .none → s.abandoned ≠ .done → s.leavePending = true
  finishing : ∀ finisher, s.finishing = some (finisher, .stopping) → finisher = .loss

namespace Tracked

theorem finish (h : s.Tracked) (reason : CloseReason) (finisher : Finisher)
    (hfinisher : s.state = .opened → s.stops = true → finisher = .loss) :
    (s.finish reason finisher).Tracked := by
  rcases s.cases_active with hactive | hjoining | hopened
  · rw [finish_of_not_active hactive]
    exact h
  · rw [finish_joining hjoining]
    exact ⟨h.pending, h.finishing⟩
  · rw [finish_opened hopened]
    refine ⟨h.pending, fun finisher' hfinishing => ?_⟩
    dsimp only at hfinishing
    split_ifs at hfinishing with hstops
    · cases hfinishing
      exact hfinisher hopened hstops
    · cases hfinishing

theorem step (h : s.Tracked) (hclosing : s.Closing) (hfinishes : s.finishesAtOnce l)
    (hstep : s.Step l s') : s'.Tracked := by
  cases hstep with
  | joinWakes accepted present =>
    unfold RoomSession.joinWakes
    split_ifs
    · unfold abandon
      dsimp only
      split_ifs
      · exact ⟨fun _ _ => rfl, h.finishing⟩
      · exact ⟨fun _ _ => rfl, h.finishing⟩
    · exact ⟨h.pending, h.finishing⟩
    · exact ⟨h.pending, h.finishing⟩
    · obtain ⟨participants, made, opened, closing, registered, hopen⟩ :=
        s.openRoom_eq accepted present
      rw [hopen]
      exact ⟨h.pending, h.finishing⟩
  | abandonedSettled habandoned =>
    exact ⟨fun _ _ => h.pending (by simp [habandoned]) (by simp [habandoned]), h.finishing⟩
  | abandonedLeaves habandoned =>
    exact ⟨fun _ _ => h.pending (by simp [habandoned]) (by simp [habandoned]), h.finishing⟩
  | abandonedLeft => exact ⟨fun _ h => absurd rfl h, h.finishing⟩
  | leave =>
    refine h.finish _ _ fun hopened hstops => ?_
    simp [finishesAtOnce, hopened, hstops] at hfinishes
  | retire =>
    refine h.finish _ _ fun hopened hstops => ?_
    simp [finishesAtOnce, hopened, hstops] at hfinishes
  | lossHandled =>
    refine finish ?_ _ _ fun _ _ => rfl
    exact ⟨h.pending, h.finishing⟩
  | finishStopped => exact ⟨h.pending, nofun⟩
  | finishLeft => exact ⟨h.pending, nofun⟩
  | closeBegins =>
    unfold beginClose
    split_ifs <;> exact ⟨h.pending, h.finishing⟩
  | closeStopped =>
    unfold RoomSession.closeStopped
    dsimp only
    split_ifs
    · refine finish ?_ _ _ fun _ => nofun
      exact ⟨h.pending, h.finishing⟩
    · exact ⟨h.pending, h.finishing⟩
  | participantsClosed hparticipants =>
    refine finish ?_ _ _ fun _ hstops => ?_
    · exact ⟨h.pending, h.finishing⟩
    · simp [stops, hclosing.participants hparticipants] at hstops
  | participantJoined identity accepted =>
    obtain ⟨participants, made, opened, heq⟩ := s.addParticipant_eq identity accepted
    rw [heq]
    exact ⟨h.pending, h.finishing⟩
  | participantLeft identity =>
    obtain ⟨participants, ended, heq⟩ := s.removeParticipant_eq identity
    rw [heq]
    exact ⟨h.pending, h.finishing⟩
  | _ => exact ⟨h.pending, h.finishing⟩

theorem leaves_of_settled (h : s.Tracked) (hone : s.OneLeave) (hsettled : s.settled = true) :
    s.leaves = [true] := by
  simp only [settled, closingDone, Bool.and_eq_true, Bool.not_eq_true', decide_eq_true_eq]
    at hsettled
  obtain ⟨⟨⟨hactive, hpending⟩, hjoin⟩, ⟨⟨-, -⟩, hloss⟩, hall⟩ := hsettled
  have habandoned : s.abandoned.duty = 0 := by
    have hover := h.pending
    rw [hpending] at hover
    cases habandoned : s.abandoned <;> simp [habandoned] at hover ⊢
  have hstate : s.state.duty = 0 := by
    cases hstate : s.state <;> simp [active, hstate] at hactive ⊢
  have hfinishing : (s.finishing.elim 0 fun f => f.2.duty) = 0 := by
    rcases hfinishing : s.finishing with - | ⟨finisher, - | -⟩
    · rfl
    · simp [hfinishing, h.finishing finisher hfinishing] at hloss
    · rfl
  have hlength : s.leaves.length = 1 := by
    simpa [OneLeave, duties, hjoin, habandoned, hstate, hfinishing] using hone
  obtain ⟨done, hleaves⟩ := List.length_eq_one_iff.mp hlength
  rw [hleaves] at hall ⊢
  simpa using hall

end Tracked

/-! ### Every connection ends once -/

def reportsOnce (s : RoomSession) : Label → Bool
  | .leave | .retire | .lossHandled =>
    !(s.tornDown && s.state = .opened && (s.connection || !s.participants.isEmpty))
  | .participantLeft identity => !(s.tornDown && s.participants.any fun p => p.1 = identity)
  | _ => true

structure Unopened (s : RoomSession) : Prop where
  opened : s.opened = []
  tornDown : s.tornDown = false
  registered : s.registered = false
  joining : s.state = .joining → s.participants = [] ∧ s.ended = []

/-- The session has the room connection, and the participants that are clients. -/
structure Live (s : RoomSession) : Prop where
  state : s.state = .opened
  tornDown : s.tornDown = false
  connection : s.connection = true
  room : Conn.room ∈ s.opened ∧ Conn.room ∉ s.ended
  nodup : s.ended.Nodup
  once : s.opened.Nodup
  identities : (s.participants.map Prod.fst).Nodup
  distinct : (s.participants.map Prod.snd).Nodup
  clients : ∀ n, n ∈ s.participants.map Prod.snd ↔
    Conn.participant n ∈ s.opened ∧ Conn.participant n ∉ s.ended
  made : ∀ n, Conn.participant n ∈ s.opened ∨ Conn.participant n ∈ s.ended → n < s.made

/-- The session has none of the connections any more, and the room's ended last. -/
structure Over (s : RoomSession) : Prop where
  state : s.state = .closed ∧ s.participants = [] ∧ s.registered = false ∨
    s.state = .opened ∧ s.tornDown = true
  nodup : s.ended.Nodup
  last : ∃ before, s.ended = before ++ [Conn.room]
  all : ∀ c ∈ s.opened, c ∈ s.ended
  closing : s.closing = some .participants → s.participants = []

/-- Every connection that opened is held or has ended. -/
def Accounted (s : RoomSession) : Prop := s.Unopened ∨ s.Live ∨ s.Over

theorem Live.addParticipant (h : s.Live) (identity : String) (accepted : Option Bool) :
    (s.addParticipant identity accepted).Live := by
  have hfresh : ∀ n, Conn.participant n ∈ s.opened ∨ Conn.participant n ∈ s.ended → n ≠ s.made :=
    fun n hn => Nat.ne_of_lt (h.made n hn)
  unfold RoomSession.addParticipant
  split_ifs with hskip
  · exact h
  · rcases accepted with - | - | -
    · exact h
    · exact ⟨h.state, h.tornDown, h.connection, h.room, h.nodup, h.once, h.identities,
        h.distinct, h.clients, fun n hn => Nat.lt_succ_of_lt (h.made n hn)⟩
    · refine ⟨h.state, h.tornDown, h.connection, ⟨List.mem_append_left _ h.room.1, h.room.2⟩,
        h.nodup, ?_, ?_, ?_, fun n => ?_, fun n hn => ?_⟩
      · rw [List.nodup_append]
        refine ⟨h.once, List.nodup_singleton _, fun c hc d hd heq => ?_⟩
        rw [heq, List.mem_singleton.mp hd] at hc
        exact hfresh s.made (.inl hc) rfl
      · rw [List.map_append, List.nodup_append]
        refine ⟨h.identities, List.nodup_singleton _, fun i hi j hj heq => hskip ?_⟩
        obtain ⟨p, hp, rfl⟩ := List.mem_map.mp hi
        rw [List.map_singleton, List.mem_singleton] at hj
        rw [Bool.or_eq_true, List.any_eq_true]
        exact .inr ⟨p, hp, decide_eq_true (heq.trans hj)⟩
      · rw [List.map_append, List.nodup_append]
        refine ⟨h.distinct, List.nodup_singleton _, fun n hn m hm heq => ?_⟩
        rw [List.map_singleton, List.mem_singleton] at hm
        exact hfresh n (.inl ((h.clients n).mp hn).1) (heq.trans hm)
      · rw [List.map_append, List.mem_append, h.clients]
        have hnew : Conn.participant s.made ∉ s.ended := fun hn => hfresh _ (.inr hn) rfl
        constructor
        · rintro (⟨hopened, hended⟩ | hn)
          · exact ⟨List.mem_append_left _ hopened, hended⟩
          · rw [List.map_singleton, List.mem_singleton] at hn
            rw [hn]
            exact ⟨List.mem_append_right _ (List.mem_singleton_self _), hnew⟩
        · rintro ⟨hopened, hended⟩
          rcases List.mem_append.mp hopened with hopened | hn
          · exact .inl ⟨hopened, hended⟩
          · cases List.mem_singleton.mp hn
            exact .inr (List.mem_singleton_self _)
      · show n < s.made + 1
        rcases hn with hopened | hended
        · rcases List.mem_append.mp hopened with hopened | hn
          · exact Nat.lt_succ_of_lt (h.made n (.inl hopened))
          · cases List.mem_singleton.mp hn
            exact Nat.lt_succ_self _
        · exact Nat.lt_succ_of_lt (h.made n (.inr hended))

theorem Live.foldl_addParticipant (h : s.Live) (present : List (String × Option Bool)) :
    (present.foldl (fun s p => s.addParticipant p.1 p.2) s).Live := by
  induction present generalizing s with
  | nil => exact h
  | cons p present ih => exact ih (h.addParticipant p.1 p.2)

theorem Live.nodup_finish (h : s.Live) :
    (s.ended ++ s.participants.map fun p => Conn.participant p.2).Nodup := by
  have hmap : (s.participants.map fun p => Conn.participant p.2) =
      (s.participants.map Prod.snd).map Conn.participant := by
    rw [List.map_map]
    rfl
  rw [hmap, List.nodup_append]
  refine ⟨h.nodup, h.distinct.map fun a b hab => Conn.participant.inj hab, fun c hc d hd => ?_⟩
  rintro rfl
  obtain ⟨n, hn, rfl⟩ := List.mem_map.mp hd
  exact ((h.clients n).mp hn).2 hc

theorem Live.finish (h : s.Live) (reason : CloseReason) (finisher : Finisher) :
    (s.finish reason finisher).Over := by
  have hroom : Conn.room ∉ s.ended ++ s.participants.map fun p => Conn.participant p.2 := by
    rw [List.mem_append, not_or]
    exact ⟨h.room.2, by simp⟩
  rw [finish_opened h.state, h.connection, if_pos rfl]
  refine ⟨.inl ⟨rfl, rfl, rfl⟩, ?_, ⟨_, rfl⟩, fun c hc => ?_, fun _ => rfl⟩
  · refine List.nodup_append.mpr ⟨h.nodup_finish, List.nodup_singleton _, fun c hc d hd heq => ?_⟩
    rw [heq, List.mem_singleton.mp hd] at hc
    exact hroom hc
  · cases c with
    | room => exact List.mem_append_right _ (List.mem_singleton_self _)
    | participant n =>
      refine List.mem_append_left _ (List.mem_append.mpr ?_)
      by_cases hended : Conn.participant n ∈ s.ended
      · exact .inl hended
      · obtain ⟨p, hp, heq⟩ := List.mem_map.mp ((h.clients n).mpr ⟨hc, hended⟩)
        exact .inr (List.mem_map.mpr ⟨p, hp, by rw [heq]⟩)

theorem Live.tearDown (h : s.Live) : s.tearDown.Over := by
  have hheld : ∀ c ∈ s.held, c ∉ s.ended := fun c hc => by simpa using (List.mem_filter.mp hc).2
  have hnodup : (s.ended ++ s.held.filter (· ≠ Conn.room)).Nodup := by
    rw [List.nodup_append]
    refine ⟨h.nodup, (h.once.filter _).filter _, fun c hc d hd heq => ?_⟩
    rw [heq] at hc
    exact hheld d (List.mem_filter.mp hd).1 hc
  have hroom : Conn.room ∉ s.ended ++ s.held.filter (· ≠ Conn.room) := by
    rw [List.mem_append, not_or]
    exact ⟨h.room.2, by simp⟩
  refine ⟨.inr ⟨h.state, rfl⟩, ?_, ⟨s.ended ++ s.held.filter (· ≠ Conn.room), ?_⟩, fun c hc => ?_,
    nofun⟩
  · show (s.ended ++ (s.held.filter (· ≠ Conn.room) ++ [Conn.room])).Nodup
    rw [← List.append_assoc]
    refine List.nodup_append.mpr ⟨hnodup, List.nodup_singleton _, fun c hc d hd heq => ?_⟩
    rw [heq, List.mem_singleton.mp hd] at hc
    exact hroom hc
  · exact (List.append_assoc _ _ _).symm
  · show c ∈ s.ended ++ (s.held.filter (· ≠ Conn.room) ++ [Conn.room])
    by_cases hended : c ∈ s.ended
    · exact List.mem_append_left _ hended
    · refine List.mem_append_right _ ?_
      cases c with
      | room => exact List.mem_append_right _ (List.mem_singleton_self _)
      | participant n =>
        refine List.mem_append_left _ (List.mem_filter.mpr ⟨List.mem_filter.mpr ⟨hc, ?_⟩, ?_⟩)
        · simpa using hended
        · simp

/-- A participant that leaves is reported, and the room connection stays. -/
theorem Live.removeParticipant (h : s.Live) (identity : String) :
    (s.removeParticipant identity).Live := by
  unfold RoomSession.removeParticipant
  split
  · exact h
  · rename_i p hfind
    have hp : p ∈ s.participants := List.mem_of_find?_eq_some hfind
    have hidentity : p.1 = identity := by simpa using List.find?_some hfind
    obtain ⟨hopened, hended⟩ := (h.clients p.2).mp (List.mem_map_of_mem hp)
    have hsublist := List.filter_sublist (p := fun q => q.1 ≠ identity) (l := s.participants)
    refine ⟨h.state, h.tornDown, h.connection, ⟨h.room.1, ?_⟩, ?_, h.once,
      h.identities.sublist (hsublist.map _), h.distinct.sublist (hsublist.map _), fun n => ?_,
      fun n hn => ?_⟩
    · rw [List.mem_append, not_or]
      exact ⟨h.room.2, by simp⟩
    · refine List.nodup_append.mpr ⟨h.nodup, List.nodup_singleton _, fun c hc d hd heq => ?_⟩
      rw [heq, List.mem_singleton.mp hd] at hc
      exact hended hc
    · have hinj := List.inj_on_of_nodup_map h.distinct
      have hinj' := List.inj_on_of_nodup_map h.identities
      rw [List.mem_append, not_or, ← and_assoc, ← h.clients, List.mem_singleton, List.mem_map,
        List.mem_map]
      constructor
      · rintro ⟨q, hq, rfl⟩
        obtain ⟨hq, hne⟩ := List.mem_filter.mp hq
        refine ⟨⟨q, hq, rfl⟩, fun heq => ?_⟩
        rw [hinj hq hp (Conn.participant.inj heq)] at hne
        simp [hidentity] at hne
      · rintro ⟨⟨q, hq, rfl⟩, hne⟩
        refine ⟨q, List.mem_filter.mpr ⟨hq, decide_eq_true fun heq => hne ?_⟩, rfl⟩
        rw [hinj' hq hp (heq.trans hidentity.symm)]
    · rcases hn with hn | hn
      · exact h.made n (.inl hn)
      rcases List.mem_append.mp hn with hn | hn
      · exact h.made n (.inr hn)
      · cases List.mem_singleton.mp hn
        exact h.made p.2 (.inl hopened)

theorem Over.finish (h : s.Over)
    (hquiet : s.state = .opened → s.connection = false ∧ s.participants = [])
    (reason : CloseReason) (finisher : Finisher) : (s.finish reason finisher).Over := by
  rcases s.cases_active with hactive | hjoining | hopened
  · rw [finish_of_not_active hactive]
    exact h
  · rcases h.state with h | h <;> rw [hjoining] at h <;> cases h.1
  · obtain ⟨hconnection, hparticipants⟩ := hquiet hopened
    rw [finish_opened hopened, hconnection, hparticipants, List.map_nil, List.append_nil]
    exact ⟨.inl ⟨rfl, rfl, rfl⟩, by simpa using h.nodup, by simpa using h.last,
      by simpa using h.all, fun _ => rfl⟩

namespace Accounted

theorem finish (h : s.Accounted) (hquiet : s.state = .opened → s.tornDown = true →
      s.connection = false ∧ s.participants = []) (reason : CloseReason) (finisher : Finisher) :
    (s.finish reason finisher).Accounted := by
  rcases h with h | h | h
  · left
    rcases s.cases_active with hactive | hjoining | hstate
    · rw [finish_of_not_active hactive]
      exact h
    · rw [finish_joining hjoining]
      exact ⟨h.opened, h.tornDown, rfl, nofun⟩
    · rw [finish_opened hstate]
      exact ⟨h.opened, h.tornDown, rfl, nofun⟩
  · exact .inr (.inr (h.finish reason finisher))
  · refine .inr (.inr (h.finish (fun hopened => hquiet hopened ?_) reason finisher))
    rcases h.state with h | h
    · rw [hopened] at h
      cases h.1
    · exact h.2

/-- A step that leaves the session's side alone. -/
theorem of_eq (h : s.Accounted) (hstate : s'.state = s.state) (hopened : s'.opened = s.opened)
    (hended : s'.ended = s.ended) (htorn : s'.tornDown = s.tornDown)
    (hregistered : s'.registered = s.registered) (hparticipants : s'.participants = s.participants)
    (hmade : s'.made = s.made) (hclosing : s'.closing = some .participants →
      s.closing = some .participants) (hconnection : s.state = .opened → s.tornDown = false →
      s'.connection = s.connection) : s'.Accounted := by
  rcases h with h | h | h
  · refine .inl ⟨?_, ?_, ?_, ?_⟩
    · rw [hopened]
      exact h.opened
    · rw [htorn]
      exact h.tornDown
    · rw [hregistered]
      exact h.registered
    · rw [hstate, hparticipants, hended]
      exact h.joining
  · refine .inr (.inl ⟨?_, ?_, ?_, ?_, ?_, ?_, ?_, ?_, ?_, ?_⟩)
    all_goals
      simp only [hstate, htorn, hopened, hended, hparticipants, hmade,
        hconnection h.state h.tornDown]
    exacts [h.state, h.tornDown, h.connection, h.room, h.nodup, h.once, h.identities, h.distinct,
      h.clients, h.made]
  · refine .inr (.inr ⟨?_, ?_, ?_, ?_, ?_⟩)
    all_goals simp only [hstate, htorn, hopened, hended, hregistered, hparticipants]
    exacts [h.state, h.nodup, h.last, h.all,
      fun hparticipants => h.closing (hclosing hparticipants)]

theorem unopened (h : s.Accounted) (hjoining : s.state = .joining) : s.Unopened := by
  rcases h with h | h | h
  · exact h
  · have hstate := h.state
    rw [hjoining] at hstate
    cases hstate
  · rcases h.state with h | h <;> rw [hjoining] at h <;> cases h.1

theorem joinWakes (h : s.Accounted) (accepted : Bool) (present : List (String × Option Bool)) :
    (s.joinWakes accepted present).Accounted := by
  unfold RoomSession.joinWakes
  split_ifs with hdone hstate hattempt
  · unfold abandon
    dsimp only
    split_ifs with hjoining
    · have hunopened := h.unopened hjoining
      exact .inl ⟨hunopened.opened, hunopened.tornDown, hunopened.registered, nofun⟩
    · exact h.of_eq rfl rfl rfl rfl rfl rfl rfl id fun _ _ => rfl
  · exact h.of_eq rfl rfl rfl rfl rfl rfl rfl id fun _ _ => rfl
  · have hunopened := h.unopened (by simpa using hstate)
    exact .inl ⟨hunopened.opened, hunopened.tornDown, hunopened.registered, nofun⟩
  · have hjoining : s.state = .joining := by simpa using hstate
    have hunopened := h.unopened hjoining
    obtain ⟨hparticipants, hended⟩ := hunopened.joining hjoining
    unfold openRoom
    dsimp only
    split_ifs
    · refine .inr (.inl (Live.foldl_addParticipant ?_ present))
      rw [hunopened.opened, List.nil_append]
      exact ⟨rfl, hunopened.tornDown, rfl, ⟨List.mem_singleton_self _, by simp [hended]⟩,
        by simp [hended], List.nodup_singleton _, by simp [hparticipants], by simp [hparticipants],
        by simp [hparticipants], by simp [hended]⟩
    · exact .inl ⟨hunopened.opened, hunopened.tornDown, hunopened.registered, nofun⟩

theorem addParticipant (h : s.Accounted) (identity : String) (accepted : Option Bool)
    (haccepted : s.tornDown = true → accepted ≠ some true) :
    (s.addParticipant identity accepted).Accounted := by
  rcases h with h | h | h
  · have hself : s.addParticipant identity accepted = s := by
      simp [RoomSession.addParticipant, h.registered]
    rw [hself]
    exact .inl h
  · exact .inr (.inl (h.addParticipant identity accepted))
  · unfold RoomSession.addParticipant
    split_ifs with hskip
    · exact .inr (.inr h)
    · have htorn : s.tornDown = true := by
        rcases h.state with h | h
        · simp [h.2.2] at hskip
        · exact h.2
      rcases accepted with - | - | -
      · exact .inr (.inr h)
      · exact .inr (.inr ⟨h.state, h.nodup, h.last, h.all, h.closing⟩)
      · exact absurd rfl (haccepted htorn)

theorem removeParticipant (h : s.Accounted) (identity : String)
    (hreports : s.tornDown = true → ∀ p ∈ s.participants, p.1 ≠ identity) :
    (s.removeParticipant identity).Accounted := by
  rcases h with h | h | h
  · obtain ⟨participants, ended, heq⟩ := s.removeParticipant_eq identity
    by_cases hjoining : s.state = .joining
    · have hself : s.removeParticipant identity = s := by
        simp [RoomSession.removeParticipant, (h.joining hjoining).1]
      rw [hself]
      exact .inl h
    · rw [heq]
      exact .inl ⟨h.opened, h.tornDown, h.registered, fun h => absurd h hjoining⟩
  · exact .inr (.inl (h.removeParticipant identity))
  · have hnone : s.participants.find? (fun p => p.1 = identity) = none := by
      rw [List.find?_eq_none]
      intro p hp
      rcases h.state with h | h
      · rw [h.2.1] at hp
        cases hp
      · simpa using hreports h.2 p hp
    have hself : s.removeParticipant identity = s := by
      simp [RoomSession.removeParticipant, hnone]
    rw [hself]
    exact .inr (.inr h)

theorem closeStopped (h : s.Accounted) (hclosing : s.Closing)
    (hstopping : s.closing = some .stopping) : s.closeStopped.Accounted := by
  have hlive : ¬s.Live := by
    intro hlive
    exact hclosing.not_held hstopping hlive.room.1 hlive.tornDown
  have hcleared : ∀ closing, RoomSession.Accounted
      { s with closing, connection := false, participants := [] } := by
    intro closing
    rcases h with h | h | h
    · exact .inl ⟨h.opened, h.tornDown, h.registered, fun hjoining => ⟨rfl, (h.joining hjoining).2⟩⟩
    · exact absurd h hlive
    · exact .inr (.inr ⟨h.state.imp_left fun h => ⟨h.1, rfl, h.2.2⟩, h.nodup, h.last, h.all,
        fun _ => rfl⟩)
  unfold RoomSession.closeStopped
  dsimp only
  split_ifs
  · exact (hcleared none).finish (fun _ _ => ⟨rfl, rfl⟩) _ _
  · exact hcleared _

theorem step (h : s.Accounted) (hone : s.OneLeave) (hclosing : s.Closing)
    (hreports : s.reportsOnce l) (hstep : s.Step l s') : s'.Accounted := by
  cases hstep with
  | joinWakes accepted present => exact h.joinWakes accepted present
  | leave =>
    refine h.finish (fun hopened htorn => ?_) _ _
    simpa [reportsOnce, hopened, htorn] using hreports
  | retire =>
    refine h.finish (fun hopened htorn => ?_) _ _
    simpa [reportsOnce, hopened, htorn] using hreports
  | lossHandled =>
    refine finish ?_ (fun hopened htorn => ?_) _ _
    · exact h.of_eq rfl rfl rfl rfl rfl rfl rfl id fun _ _ => rfl
    · have hopened' : s.state = .opened := hopened
      have htorn' : s.tornDown = true := htorn
      simpa [reportsOnce, hopened', htorn'] using hreports
  | finishStopped finisher hfinishing =>
    refine h.of_eq rfl rfl rfl rfl rfl rfl rfl id fun hopened _ => ?_
    -- an open room connection has no `_finish` yet, or the room would be left twice
    simp [OneLeave, duties, hopened, hfinishing] at hone
    omega
  | sessionCloses hheld =>
    obtain ⟨hroom, hended⟩ := List.mem_filter.mp hheld
    rcases h with h | h | h
    · rw [h.opened] at hroom
      cases hroom
    · exact .inr (.inr h.tearDown)
    · simp [h.all _ hroom] at hended
  | closeBegins =>
    unfold beginClose
    split_ifs <;> exact h.of_eq rfl rfl rfl rfl rfl rfl rfl nofun fun _ _ => rfl
  | closeStopped hstopping => exact h.closeStopped hclosing hstopping
  | participantsClosed hparticipants =>
    have hlive : ¬s.Live := by
      intro hlive
      exact hclosing.not_held hparticipants hlive.room.1 hlive.tornDown
    refine finish (s := { s with closing := none }) ?_
      (fun _ htorn => ⟨hclosing.participants hparticipants, ?_⟩) _ _
    · exact h.of_eq rfl rfl rfl rfl rfl rfl rfl nofun fun _ _ => rfl
    · rcases h with h | h | h
      · have hnot := h.tornDown
        rw [show s.tornDown = true from htorn] at hnot
        cases hnot
      · exact absurd h hlive
      · exact h.closing hparticipants
  | participantJoined identity accepted haccepted =>
    exact h.addParticipant identity accepted haccepted
  | participantLeft identity =>
    refine h.removeParticipant identity fun htorn p hp => ?_
    simp only [reportsOnce, htorn, Bool.true_and, Bool.not_eq_true', List.any_eq_false] at hreports
    simpa using hreports p hp
  | _ => exact h.of_eq rfl rfl rfl rfl rfl rfl rfl id fun _ _ => rfl

end Accounted

/-! ### A room connection's life -/

/-- Whether the tasks of the room connection, and what the session does with it, have run. -/
def Quiet (s : RoomSession) : Prop :=
  s.join = .done ∧ s.attemptDone = true ∧ (s.abandoned = .none ∨ s.abandoned = .done) ∧
    s.finishing = none ∧ s.closing = none ∧ s.lossTasks = 0 ∧ ∀ ended ∈ s.leaves, ended = true

instance : Decidable s.Quiet :=
  inferInstanceAs (Decidable (s.join = .done ∧ s.attemptDone = true ∧
    (s.abandoned = .none ∨ s.abandoned = .done) ∧ s.finishing = none ∧ s.closing = none ∧
    s.lossTasks = 0 ∧ ∀ ended ∈ s.leaves, ended = true))

/-- The room is left once, after the attempt has settled, and no later than everything has run,
unless the session still has the room connection. -/
def LeftOnce (s : RoomSession) : Prop :=
  s.leaves.length ≤ 1 ∧ (s.leaves ≠ [] → s.attemptDone = true) ∧
    (s.Quiet → s.leaves.length = 1 ∨
      (s.state = .opened ∧ Conn.room ∈ s.opened ∧ s.tornDown = false))

/-- Every connection that opened ends once, the participants not after the room, and no later than
everything has run. -/
def EndedOnce (s : RoomSession) : Prop :=
  (∀ c ∈ s.opened, s.ended.count c ≤ 1) ∧
    (∀ before after, s.ended = before ++ Conn.room :: after →
      ∀ c ∈ s.opened, c ≠ Conn.room → c ∈ before) ∧
    (s.Quiet → s.state ≠ .opened → ∀ c ∈ s.opened, c ∈ s.ended)

/-- What holds of every room connection. -/
structure Sound (s : RoomSession) : Prop where
  one : s.OneLeave
  attempt : s.AttemptFirst
  closing : s.Closing

theorem isInvariant_sound : roomSession.IsInvariant Sound where
  init := by
    refine ⟨rfl, fun _ => ⟨rfl, nofun, nofun, nofun⟩, fun _ => ⟨rfl, rfl, rfl, rfl, rfl⟩, ?_, ?_,
      ?_, ?_⟩
    all_goals nofun
  step s l s' h hnext := by
    have hstep := step_of_next hnext
    exact ⟨h.one.step hstep, h.attempt.step hstep, h.closing.step hstep⟩

theorem Sound.leftOnce (h : s.Sound) : s.LeftOnce := by
  have hone := h.one
  unfold OneLeave at hone
  refine ⟨by omega, fun hleaves => ?_, fun hquiet => ?_⟩
  · by_contra hdone
    exact hleaves (h.attempt (by simpa using hdone)).1
  · obtain ⟨hjoin, -, habandoned, hfinishing, hclosing, -⟩ := hquiet
    have hduty : s.abandoned.duty = 0 := by
      rcases habandoned with h | h <;> rw [h] <;> rfl
    simp only [duties, hjoin, duty_join_done, hduty, hfinishing, Option.elim_none] at hone
    by_cases hopened : s.state = .opened
    · exact .inr ⟨hopened, (h.closing.opened hopened).resolve_left (not_not.mpr hclosing)⟩
    · left
      have hstate : s.state.duty = 0 := by
        cases hstate : s.state with
        | opened => exact absurd hstate hopened
        | _ => rfl
      omega

theorem Accounted.endedOnce (h : s.Accounted) : s.EndedOnce := by
  rcases h with h | h | h
  · unfold EndedOnce
    rw [h.opened]
    exact ⟨nofun, fun _ _ _ => nofun, fun _ _ => nofun⟩
  · refine ⟨fun c _ => List.nodup_iff_count_le_one.mp h.nodup c, fun before after heq => ?_,
      fun _ hopened => absurd h.state hopened⟩
    have hroom := h.room.2
    rw [heq] at hroom
    exact absurd (List.mem_append_right _ List.mem_cons_self) hroom
  · obtain ⟨before', hlast⟩ := h.last
    have hnodup := h.nodup
    refine ⟨fun c _ => List.nodup_iff_count_le_one.mp h.nodup c,
      fun before after heq c hc hne => ?_, fun _ _ => h.all⟩
    -- the room ended once, so it is the last in either reading
    have hafter : after = [] := by
      rcases List.eq_nil_or_concat after with hnil | ⟨between, d, rfl⟩
      · exact hnil
      rw [heq, List.concat_eq_append, ← List.cons_append, ← List.append_assoc] at hlast hnodup
      obtain ⟨-, hd⟩ := List.append_inj' hlast rfl
      cases hd
      exact absurd (List.mem_append_right _ List.mem_cons_self)
        (List.disjoint_of_nodup_append hnodup · (List.mem_singleton_self _))
    have hmem := h.all c hc
    rw [heq, hafter] at hmem
    rcases List.mem_append.mp hmem with hmem | hmem
    · exact hmem
    · exact absurd (List.mem_singleton.mp hmem) hne

/-- **The life of a room connection.**  In every run the room is left once, after the attempt has
settled.  Every connection ends once, in a run that reports none of those that the session closed
itself; a loss ends the room connection, in a run where no join succeeds in a room that is lost; and
a settled room connection has left its room, in a run where no caller closes a connection that has
its media still to stop. -/
theorem room_life (ls : List Label) (hrun : roomSession.run ls = some s) :
    s.LeftOnce ∧
    (roomSession.AllSteps (fun s l => s.reportsOnce l) ls → s.EndedOnce) ∧
    (roomSession.AllSteps (fun s l => s.opensConnected l) ls → s.Quiet → s.lost = true →
      s.state ≠ .opened) ∧
    (roomSession.AllSteps (fun s l => s.finishesAtOnce l) ls → s.settled = true →
      s.attemptDone = true ∧ s.leaves = [true]) := by
  have hsound : s.Sound := isInvariant_sound.of_run hrun
  refine ⟨hsound.leftOnce, fun hall => ?_, fun hall hquiet hlost hopened => ?_,
    fun hall hsettled => ?_⟩
  · have hboth : s.Sound ∧ s.Accounted := by
      refine hall.invariant (I := fun s => s.Sound ∧ s.Accounted) ?_ ?_ hrun
      · exact ⟨isInvariant_sound.init, .inl ⟨rfl, rfl, rfl, fun _ => ⟨rfl, rfl⟩⟩⟩
      · rintro s l s' ⟨hsound, h⟩ hreports hnext
        exact ⟨isInvariant_sound.step s l s' hsound hnext,
          h.step hsound.one hsound.closing hreports (step_of_next hnext)⟩
    exact hboth.2.endedOnce
  · have hboth : s.Sound ∧ s.Noticed := by
      refine hall.invariant (I := fun s => s.Sound ∧ s.Noticed) ?_ ?_ hrun
      · exact ⟨isInvariant_sound.init, nofun⟩
      · rintro s l s' ⟨hsound, h⟩ hopens hnext
        exact ⟨isInvariant_sound.step s l s' hsound hnext,
          h.step hopens hsound.one (step_of_next hnext)⟩
    have htasks := hboth.2 hlost hopened
    obtain ⟨-, -, -, -, -, hnone, -⟩ := hquiet
    omega
  · have hboth : s.Sound ∧ s.Tracked := by
      refine hall.invariant (I := fun s => s.Sound ∧ s.Tracked) ?_ ?_ hrun
      · exact ⟨isInvariant_sound.init, nofun, nofun⟩
      · rintro s l s' ⟨hsound, h⟩ hfinishes hnext
        exact ⟨isInvariant_sound.step s l s' hsound hnext,
          h.step hsound.closing hfinishes (step_of_next hnext)⟩
    have hleaves := hboth.2.leaves_of_settled hsound.one hsettled
    refine ⟨hsound.leftOnce.2.1 ?_, hleaves⟩
    rw [hleaves]
    nofun

/-- A room that is lost in the turn between its attempt succeeding and the join going on. -/
theorem lost_room_stays_open : ∃ s, roomSession.run [.joinBegins, .attemptBegins, .connects,
    .attemptEnds true, .lost, .joinWakes true []] = some s ∧
      s.Quiet ∧ s.lost = true ∧ s.state = .opened :=
  ⟨_, rfl, ⟨rfl, rfl, .inl rfl, rfl, rfl, rfl, nofun⟩, rfl, rfl⟩

/-- A room with a participant that is lost, and what follows. -/
def lostRun : List Label := [.joinBegins, .attemptBegins, .connects, .attemptEnds true,
  .joinWakes true [("ann", some true)], .lost, .lossHandled, .finishStopped, .leaveEnds 0,
  .finishLeft]

theorem isSome_lostRun : (roomSession.run lostRun).isSome := rfl

theorem room_life_lost : ((roomSession.run lostRun).get isSome_lostRun).LeftOnce ∧
    ((roomSession.run lostRun).get isSome_lostRun).EndedOnce ∧
    ((roomSession.run lostRun).get isSome_lostRun).state ≠ .opened ∧
    ((roomSession.run lostRun).get isSome_lostRun).leaves = [true] := by
  obtain ⟨hleft, hended, hnoticed, hsettled⟩ :=
    room_life lostRun (Option.some_get isSome_lostRun).symm
  refine ⟨hleft, hended (by decide +kernel), hnoticed (by decide +kernel) (by decide +kernel)
    (by decide +kernel), (hsettled (by decide +kernel) (by decide +kernel)).2⟩

end RoomSession

end ReactorRuntime.LiveKit
