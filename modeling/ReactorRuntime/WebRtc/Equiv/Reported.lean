import ReactorRuntime.WebRtc.Equiv.Tables

/-!
# Who is connected, as the acceptor and its sink see it

The sink holds a connection open from when it is reported opened until it is reported closed or its
owner closes it.  `reported`: in a run in which no negotiation begins for an id whose connection the
sink still holds open, and no close takes a newer connection out of the table, whenever nothing is
being negotiated or closed the sink holds exactly the live ids, and each has a connection.

A negotiation that begins for an id the sink holds closes that connection and reports nothing; if
the offer then fails, or its wire is not up yet, the sink holds a connection that is gone
(`not_reported`).
-/

namespace ReactorRuntime.WebRtc

open ReactorRuntime.Runtime (ConnId)
open ReactorRuntime.Lists

variable {a a' : Acceptor} {config : WebRtcConfig} {id : ConnId} {g p : Offer}

/-- Whether a connection is being closed. -/
def Peer.isClosing (peer : Peer) : Bool :=
  match peer.phase with
  | .closing _ => true
  | _ => false

namespace Acceptor

def Quiet (a : Acceptor) : Prop :=
  a.negotiating.keys = [] ∧ ∀ p < a.offers, (a.peers p).any Peer.isClosing = false

instance : Decidable a.Quiet := instDecidableAnd

/-- The ids the sink holds open are the live ones, and each has a connection. -/
def Agrees (a : Acceptor) : Prop :=
  ∀ id, (id ∈ a.sink.keys ↔ id ∈ a.live) ∧ (id ∈ a.live → id ∈ a.conns.keys)

/-- A negotiation begins for an id whose connection the sink does not hold open. -/
def SupersedesUnheld (a : Acceptor) : Label → Prop
  | .negotiate g => ∀ t ∈ a.tasks g, a.sink.lookup t.id = none
  | _ => True

instance (l : Label) : Decidable (a.SupersedesUnheld l) :=
  match l with
  | .negotiate g => inferInstanceAs (Decidable (∀ t ∈ a.tasks g, a.sink.lookup t.id = none))
  | .startOffer _ _ | .takeAnswer _ | .addIce _ | .created _ | .replayed _ | .raised _
  | .connected _ | .lost _ | .close _ | .closeEnded _ | .deadlinePassed _ => instDecidableTrue

/-- The sink holds exactly the registered connections whose wires are up. -/
def Mirrors (a : Acceptor) : Prop :=
  ∀ id p, a.sink.lookup id = some p ↔
    a.conns.lookup id = some p ∧ a.peers p = some ⟨id, .connected⟩

namespace Mirrors

theorem of_eq (hM : a.Mirrors) (hsink : a'.sink = a.sink) (hconns : a'.conns = a.conns)
    (hpeers : ∀ p id, a'.peers p = some ⟨id, .connected⟩ ↔ a.peers p = some ⟨id, .connected⟩) :
    a'.Mirrors := by
  intro id p
  rw [hsink, hconns, hpeers]
  exact hM id p

theorem acceptOffer {portRange : Option (ℕ × ℕ)} (hM : a.Mirrors) :
    (a.acceptOffer config id portRange).Mirrors := by
  refine hM.of_eq ?_ ?_ ?_ <;>
    simp only [Acceptor.acceptOffer, armDeadline_eq, await, claimPinnedPort, cancelAnyDeadline,
      cancelNegotiation]
  intro p id
  simp (disch := simp) only [abort_negotiation_iff, abort_deadline_iff]

theorem negotiate (hM : a.Mirrors) (hI : Tables a)
    (hsink : a.sink.lookup id = none) : (a.negotiate g id).Mirrors := by
  cases hp : a.conns.lookup id with
  | none =>
    rw [Acceptor.negotiate, hp]
    exact hM.of_eq rfl rfl fun p id => Iff.rfl
  | some previous =>
    obtain ⟨phase, hprev⟩ := hI.registered id previous hp
    -- what the sink does not hold has no wire up
    have hphase : phase ≠ .connected := by
      rintro rfl
      simp [(hM id previous).mpr ⟨hp, hprev⟩] at hsink
    by_cases halive : a.alive previous
    · rw [negotiate_of_alive hp halive]
      intro id' p
      simp only [await, setPhase, hprev, Option.map_some, Function.update_apply, lookup_erase_if]
      have := hM id' p
      grind
    · rw [negotiate_of_not_alive hp halive]
      intro id' p
      simp only [await, lookup_erase_if]
      have := hM id' p
      grind

theorem replay (hM : a.Mirrors) (cs : List Candidate) : (a.replay g id cs).Mirrors := by
  cases cs <;> exact hM.of_eq rfl rfl fun p id => Iff.rfl

theorem create (hM : a.Mirrors) (hI : Tables a) (htask : a.tasks g = some ⟨id, .creating⟩) :
    (a.create g id).Mirrors := by
  have hnone := hI.unbuilt g id _ htask (by simp)
  have habsent := hI.absent g id _ htask (by simp) (by simp)
  rw [create_eq]
  refine replay ?_ _
  intro id' p
  simp only [register, await, Function.update_apply, lookup_insert_if]
  have := hM id' p
  grind

theorem fail {phase : Negotiation} (hM : a.Mirrors) (hI : Tables a)
    (htask : a.tasks g = some ⟨id, phase⟩) : (a.fail g id).Mirrors := by
  rw [hI.fail_eq htask]
  exact hM.of_eq rfl rfl fun p id => Iff.rfl

theorem opened (hM : a.Mirrors) (hI : Tables a) (hpeer : a.peers p = some ⟨id, .halfOpen⟩) :
    ((a.setPhase p .connected).opened id p).Mirrors := by
  have hconns := hI.halfOpen p id hpeer
  rw [hI.opened_eq hpeer]
  intro id' q
  simp only [Function.update_apply, lookup_insert_if]
  have := hM id' q
  grind

theorem forget {phase : PeerPhase} (hM : a.Mirrors) (hI : Tables a)
    (hpeer : a.peers p = some ⟨id, phase⟩) (hphase : phase ≠ .connected)
    (hspares : ∀ q, a.conns.lookup id = some q → q = p) :
    ((a.setPhase p .gone).forget id p).Mirrors := by
  rw [Acceptor.forget, hI.clear_gone hpeer]
  intro id' q
  simp only [Function.update_apply, lookup_erase_if]
  have := hM id' q
  grind

theorem closed {phase : PeerPhase} (hM : a.Mirrors) (hI : Tables a)
    (hpeer : a.peers p = some ⟨id, phase⟩) (hphase : phase = .halfOpen ∨ phase = .connected) :
    ((a.setPhase p .gone).closed id p).Mirrors := by
  have hconns := hI.conns_of_alive hpeer hphase
  rw [closed_eq, Acceptor.forget, hI.clear_gone hpeer]
  intro id' q
  have hq := hM id' q
  by_cases hlive : id ∈ (a.setPhase p .gone).live
  · simp only [if_pos hlive, Function.update_apply, lookup_erase_if]
    rw [setPhase] at *
    grind
  · simp only [if_neg hlive, Function.update_apply, lookup_erase_if]
    -- a connection that was not live had no wire up
    have hhalf : phase = .halfOpen := by
      refine hphase.resolve_right ?_
      rintro rfl
      exact hlive ((hI.live id).mpr ⟨p, hconns, .inl hpeer⟩)
    rw [setPhase] at *
    grind

theorem close {peer : Peer} (hM : a.Mirrors) (hI : Tables a) (hpeer : a.peers p = some peer) :
    (commandedClose a p peer).Mirrors := by
  obtain ⟨id, phase⟩ := peer
  intro id' q
  have := hM id' q
  by_cases hphase : phase = .connected
  · subst hphase
    have hconns := hI.connected p id hpeer
    simp only [commandedClose, if_true, setPhase, hpeer, Option.map_some, Function.update_apply,
      lookup_eraseValue_if]
    grind
  · simp only [commandedClose, if_neg hphase, lookup_eraseValue_if]
    have := hI.registered id' q
    grind

theorem endClose {closer : Closer} (hM : a.Mirrors) (hI : Tables a)
    (hpeer : a.peers p = some ⟨id, .closing closer⟩)
    (hspares : ∀ q, a.conns.lookup id = some q → q = p) : (a.endClose p id closer).Mirrors := by
  have hforget := hM.forget hI hpeer (by simp) hspares
  cases closer <;> exact hforget.of_eq rfl rfl fun p id => Iff.rfl

theorem enforceDeadline (hM : a.Mirrors) (hI : Tables a) : (a.enforceDeadline id g).Mirrors := by
  have hcancel : ({ a with timers := Function.update a.timers g none }.cancelNegotiation
      id).Mirrors := by
    refine hM.of_eq rfl rfl fun p id => ?_
    simp (disch := simp) only [cancelNegotiation, abort_negotiation_iff]
  unfold Acceptor.enforceDeadline
  dsimp only
  split_ifs with hguard
  · exact hM.of_eq rfl rfl fun p id => Iff.rfl
  · cases hconns : a.conns.lookup id with
    | none =>
      simp only [reap, cancelNegotiation, hconns]
      exact hcancel.of_eq rfl rfl fun p id => Iff.rfl
    | some conn =>
      -- the connection that holds the slot is not live, so its wire is not up
      have hconn : a.peers conn ≠ some ⟨id, .connected⟩ := fun h =>
        hguard (.inr ((hI.live id).mpr ⟨conn, hconns, .inl h⟩))
      simp only [reap, cancelNegotiation, hconns] at hcancel ⊢
      split_ifs
      · intro id' q
        have hq := hM id' q
        obtain ⟨phase, hphase⟩ := hI.registered id conn hconns
        rcases eq_or_ne q conn with rfl | hne
        · have hsink : a.sink.lookup id' ≠ some q := by
            intro h
            obtain ⟨-, h⟩ := hq.mp h
            obtain rfl : id' = id := by
              rw [hphase] at h
              exact (Peer.mk.inj (Option.some.inj h)).1.symm
            exact hconn h
          simp [setPhase, hsink, hphase]
        · simp only [setPhase, Function.update_of_ne hne]
          rw [hq]
          simp (disch := simp) only [abort_negotiation_iff]
      · exact hcancel.of_eq rfl rfl fun p id => Iff.rfl

/-- Every step that supersedes no connection the sink holds. -/
theorem next {l : Label} (hM : a.Mirrors) (hI : Tables a) (hspares : a.SparesNewer l)
    (hsupersedes : a.SupersedesUnheld l) (h : WebRtc.next config a l = some a') : a'.Mirrors := by
  cases l with
  | startOffer id portRange =>
    obtain ⟨-, rfl⟩ | ⟨-, rfl⟩ := startOffer_cases h
    · exact hM
    · exact hM.acceptOffer
  | takeAnswer id =>
    cases h
    exact hM.of_eq rfl rfl fun p id => Iff.rfl
  | addIce id =>
    cases h
    obtain ⟨pendingIce, added, handed, overflow, h⟩ := a.frame_addIce id
    rw [h]
    exact hM.of_eq rfl rfl fun p id => Iff.rfl
  | negotiate g =>
    obtain ⟨id, htask, rfl⟩ := negotiate_eq_some h
    exact hM.negotiate hI (hsupersedes _ htask)
  | created g =>
    obtain ⟨id, htask, rfl⟩ := created_eq_some h
    exact hM.create hI htask
  | replayed g =>
    obtain ⟨id, rest, htask, rfl⟩ := replayed_eq_some h
    exact hM.replay rest
  | raised g =>
    obtain ⟨id, phase, htask, -, rfl⟩ := raised_eq_some h
    exact hM.fail hI htask
  | connected p =>
    obtain ⟨id, hpeer, rfl⟩ := connected_eq_some h
    exact hM.opened hI hpeer
  | lost p =>
    obtain ⟨id, phase, hpeer, hphase, rfl⟩ := lost_eq_some h
    exact hM.closed hI hpeer hphase
  | close p =>
    obtain ⟨peer, hpeer, -, rfl⟩ := close_eq_some h
    exact hM.close hI hpeer
  | closeEnded p =>
    obtain ⟨id, closer, hpeer, rfl⟩ := closeEnded_eq_some h
    exact hM.endClose hI hpeer fun q hq => hspares _ hpeer q hq
  | deadlinePassed g =>
    obtain ⟨id, htimer, -, rfl⟩ := deadlinePassed_eq_some h
    exact hM.enforceDeadline hI

end Mirrors

/-! ### What the sink was told -/

/-- What the sink holds is what is live, once nothing is in flight. -/
theorem Mirrors.agrees (hM : a.Mirrors) (hI : Tables a) (hquiet : a.Quiet) : a.Agrees := by
  intro id
  have hlive : id ∈ a.live ↔ ∃ p, a.sink.lookup id = some p := by
    rw [hI.live id]
    constructor
    · rintro ⟨p, hconns, hp | hp⟩
      · exact ⟨p, (hM id p).mpr ⟨hconns, hp⟩⟩
      · have hclosing := hquiet.2 p (hI.peer_lt p _ hp)
        rw [hp] at hclosing
        cases hclosing
    · rintro ⟨p, hsink⟩
      obtain ⟨hconns, hp⟩ := (hM id p).mp hsink
      exact ⟨p, hconns, .inl hp⟩
  refine ⟨by rw [mem_keys_iff, hlive], fun h => ?_⟩
  obtain ⟨p, hconns, -⟩ := (hI.live id).mp h
  exact mem_keys_iff.mpr ⟨p, hconns⟩

end Acceptor

/-- A step that supersedes no connection the sink holds, and takes no newer connection away. -/
def Unheld (a : Acceptor) (l : Label) : Prop := a.SparesNewer l ∧ a.SupersedesUnheld l

instance (a : Acceptor) (l : Label) : Decidable (Unheld a l) := instDecidableAnd

/-- **Agreement**: with nothing in flight, the sink holds open exactly the connections that are
live. -/
theorem reported (config : WebRtcConfig) {ls : List Label} {a : Acceptor}
    (hall : (acceptor config).AllSteps Unheld ls) (hrun : (acceptor config).run ls = some a)
    (hquiet : a.Quiet) : a.Agrees := by
  have hI : Tables a ∧ a.Mirrors := by
    refine TransitionSystem.AllSteps.invariant (I := fun a => Tables a ∧ a.Mirrors)
      ⟨Tables.init, ?_⟩ ?_ hall hrun
    · intro id p
      simp [acceptor]
    · rintro a l a' ⟨hI, hM⟩ ⟨hspares, hsupersedes⟩ h
      exact ⟨hI.next hspares h, hM.next hI hspares hsupersedes h⟩
  exact hI.2.agrees hI.1 hquiet

theorem reported_firstOffer :
    (((acceptor twoSlots).run firstOffer).get (by decide)).Agrees :=
  reported twoSlots (by decide +kernel) (Option.some_get (by decide)).symm (by decide +kernel)

/-- The reconnect of a live client that fails: the sink is left with a connection that is gone. -/
def failedReconnect : List Label :=
  firstOffer ++ [.startOffer 1 none, .negotiate 1, .closeEnded 0, .raised 1]

theorem not_reported : ¬ ∀ config ls a,
    (acceptor config).run ls = some a → a.Quiet → a.Agrees := by
  intro h
  have hagrees := h twoSlots failedReconnect _ (Option.some_get (by decide)).symm
    (by decide +kernel) 1
  exact absurd (hagrees.1.mp (by decide +kernel)) (by decide +kernel)

end ReactorRuntime.WebRtc
