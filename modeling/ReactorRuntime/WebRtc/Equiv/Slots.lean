import ReactorRuntime.WebRtc.Equiv.Tables

/-!
# Slots

With a ceiling and a deadline, every slot of the acceptor is held by an id that is live, whose
current offer has an armed deadline, or whose connection is being closed (`slots`), in a run in
which

* no offer fails between the registration of its connection and its wire coming up, nor before it
  with early candidates still buffered;
* no connection is lost, and no close of it ends, while its own candidates are still replayed;
* no close takes a newer connection out of the table.

An offer whose replay raises leaves a connection that nothing watches (`not_slots`).
-/

namespace ReactorRuntime.WebRtc

open ReactorRuntime.Runtime (ConnId)
open ReactorRuntime.Lists

variable {a a' : Acceptor} {config : WebRtcConfig} {id : ConnId} {g p : Offer}

namespace Acceptor

/-- The deadline of an offer is armed and has not run out, and the offer is the id's current one. -/
def Armed (a : Acceptor) (id : ConnId) (g : Offer) : Prop :=
  a.deadlines.lookup id = some g ∧ a.offeredAt.lookup id = some g ∧ a.timers g = some id

/-- What the steps that meet `KeepsWatch` keep: who has a deadline, and which generation each entry
of the tables is of. -/
structure Watched (a : Acceptor) : Prop where
  negotiated : ∀ g id phase, a.tasks g = some ⟨id, phase⟩ → (∀ rest, phase ≠ .replaying rest) →
    a.Armed id g
  replaying : ∀ g id rest, a.tasks g = some ⟨id, .replaying rest⟩ →
    a.conns.lookup id = some g ∧ (a.Armed id g ∨ id ∈ a.live)
  /-- A wire that is not up is watched, unless a newer offer is negotiated. -/
  halfOpen : ∀ p id, a.peers p = some ⟨id, .halfOpen⟩ →
    (∀ g, a.negotiating.lookup id = some g → g = p) → a.Armed id p
  /-- What is still registered where a close was cut short is superseded. -/
  gone : ∀ p id, a.conns.lookup id = some p → a.peers p = some ⟨id, .gone⟩ →
    a.negotiating.lookup id ≠ none ∧ a.negotiating.lookup id ≠ some p
  timed : ∀ g id, a.timers g = some id → a.offeredAt.lookup id = some g
  offered : ∀ id g, a.offeredAt.lookup id = some g → a.IsCurrent id g
  pinned : ∀ id g port, a.pinnedPorts.lookup id = some (g, port) → a.IsCurrent id g
  answered : ∀ id g, a.answers.lookup id = some g →
    a.conns.lookup id = some g ∧ a.negotiating.lookup id = none
  ports : ∀ id id' g g' port, a.pinnedPorts.lookup id = some (g, port) →
    a.pinnedPorts.lookup id' = some (g', port) → id = id'

/-- A step that leaves no slot unwatched: an offer fails before its connection is registered and
with no candidate buffered, or once its wire is up; a connection ends once its own replay has. -/
def KeepsWatch (a : Acceptor) : Label → Prop
  | .raised g => ∀ t ∈ a.tasks g,
    if a.isReplaying g then t.id ∈ a.live else a.pendingIce.lookup t.id = none
  | .lost p => a.tasks p = none
  | .closeEnded p => a.tasks p = none
  | _ => True

instance (l : Label) : Decidable (a.KeepsWatch l) :=
  match l with
  | .raised g =>
    inferInstanceAs (Decidable (∀ t ∈ a.tasks g,
      if a.isReplaying g then t.id ∈ a.live else a.pendingIce.lookup t.id = none))
  | .lost p => inferInstanceAs (Decidable (a.tasks p = none))
  | .closeEnded p => inferInstanceAs (Decidable (a.tasks p = none))
  | .startOffer _ _ | .takeAnswer _ | .addIce _ | .negotiate _ | .created _ | .replayed _
  | .connected _ | .close _ | .deadlinePassed _ => instDecidableTrue

end Acceptor

namespace Tables

theorem current_unique (hI : Tables a) {id' : ConnId} (h : a.IsCurrent id g)
    (h' : a.IsCurrent id' g) : id = id' := by
  rcases h with ⟨hneg, -⟩ | ⟨-, hconns⟩ <;> rcases h' with ⟨hneg', -⟩ | ⟨-, hconns'⟩
  · obtain ⟨phase, htask⟩ := hI.negotiated id g hneg
    obtain ⟨phase', htask'⟩ := hI.negotiated id' g hneg'
    rw [htask] at htask'
    exact (Task.mk.inj (Option.some.inj htask')).1
  · obtain ⟨phase, hpeer⟩ := hI.registered id' g hconns'
    exact hI.id_eq hneg hpeer
  · obtain ⟨phase, hpeer⟩ := hI.registered id g hconns
    exact (hI.id_eq hneg' hpeer).symm
  · obtain ⟨phase, hpeer⟩ := hI.registered id g hconns
    obtain ⟨phase', hpeer'⟩ := hI.registered id' g hconns'
    rw [hpeer] at hpeer'
    exact (Peer.mk.inj (Option.some.inj hpeer')).1

end Tables

theorem Acceptor.unpinned_of_guard {portRange : Option (ℕ × ℕ)}
    (h : a.guardPinnedPort id portRange = none) : ∀ id' g port, pinnedPort portRange = some port →
      a.pinnedPorts.lookup id' = some (g, port) → id' = id := by
  intro id' g port hport hpinned
  rw [guardPinnedPort, hport, Option.map_eq_none_iff, List.find?_eq_none] at h
  by_contra hne
  have hmem : (⟨id', (g, port)⟩ : Sigma fun _ : ConnId => Offer × ℕ) ∈ a.pinnedPorts.entries :=
    AList.mem_lookup_iff.mp hpinned
  exact h _ hmem (by simp [hne])

namespace Acceptor.Watched

theorem of_eq (hW : a.Watched) (hconns : a'.conns = a.conns) (hlive : a'.live = a.live)
    (hnegotiating : a'.negotiating = a.negotiating) (hanswers : a'.answers = a.answers)
    (hoffered : a'.offeredAt = a.offeredAt) (hdeadlines : a'.deadlines = a.deadlines)
    (hports : a'.pinnedPorts = a.pinnedPorts) (htasks : a'.tasks = a.tasks)
    (htimers : a'.timers = a.timers) (hpeers : a'.peers = a.peers) : a'.Watched := by
  constructor <;>
    simp only [Armed, IsCurrent, hconns, hlive, hnegotiating, hanswers, hoffered, hdeadlines,
      hports, htasks, htimers, hpeers]
  exacts [hW.negotiated, hW.replaying, hW.halfOpen, hW.gone, hW.timed, hW.offered, hW.pinned,
    hW.answered, hW.ports]

theorem takeAnswer (hW : a.Watched) : (a.takeAnswer id).Watched := by
  refine { hW with answered := ?_ }
  simp only [Acceptor.takeAnswer, lookup_erase_if]
  grind [hW.answered]

theorem negotiate (hW : a.Watched) (hI : Tables a) (h : a.tasks g = some ⟨id, .queued⟩) :
    (a.negotiate g id).Watched := by
  have hneg := hI.task g id _ h
  have harmed := hW.negotiated g id _ h (by simp)
  cases hp : a.conns.lookup id with
  | none =>
    rw [Acceptor.negotiate, hp]
    refine { hW with
      negotiated := ?_, replaying := ?_, offered := ?_, pinned := ?_ } <;>
      simp only [await, Function.update_apply, Armed, IsCurrent]
    · have := hW.negotiated
      grind [Armed]
    · have := hW.replaying
      grind [Armed]
    · have := hW.offered
      grind [IsCurrent]
    · have := hW.pinned
      grind [IsCurrent]
  | some previous =>
    obtain ⟨phase, hprev⟩ := hI.registered id previous hp
    by_cases halive : a.alive previous
    · rw [negotiate_of_alive hp halive]
      refine { hW with
        negotiated := ?_, replaying := ?_, halfOpen := ?_, gone := ?_, offered := ?_, pinned := ?_,
        answered := ?_ } <;>
        simp only [await, setPhase, hprev, Option.map_some, Function.update_apply, lookup_erase_if,
          Armed, IsCurrent, Finset.mem_erase]
      · have := hW.negotiated
        grind [Armed]
      · have := hW.replaying
        grind [Armed, hI.task]
      · have := hW.halfOpen
        grind [Armed]
      · grind [hW.gone]
      · have := hW.offered
        grind [IsCurrent]
      · have := hW.pinned
        grind [IsCurrent]
      · have := hW.answered
        grind
    · rw [negotiate_of_not_alive hp halive]
      refine { hW with
        negotiated := ?_, replaying := ?_, gone := ?_, offered := ?_, pinned := ?_,
        answered := ?_ } <;>
        simp only [await, Function.update_apply, lookup_erase_if, Armed, IsCurrent,
          Finset.mem_erase]
      · have := hW.negotiated
        grind [Armed]
      · have := hW.replaying
        grind [Armed, hI.task]
      · grind [hW.gone]
      · have := hW.offered
        grind [IsCurrent]
      · have := hW.pinned
        grind [IsCurrent]
      · have := hW.answered
        grind

theorem replay {rest : List Candidate} (hW : a.Watched) (hI : Tables a)
    (h : a.tasks g = some ⟨id, .replaying rest⟩) (cs : List Candidate) :
    (a.replay g id cs).Watched := by
  have hneg := hI.task g id _ h
  have hrep := hW.replaying g id _ h
  cases cs with
  | nil =>
    refine { hW with
      negotiated := ?_, replaying := ?_, halfOpen := ?_, gone := ?_, offered := ?_, pinned := ?_,
      answered := ?_ } <;>
      simp only [Acceptor.replay, endTask, Function.update_apply, lookup_eraseValue_if,
        lookup_insert_if, Armed, IsCurrent]
    · have := hW.negotiated
      grind [Armed]
    · have := hW.replaying
      grind [Armed]
    · have := hW.halfOpen
      have := hI.halfOpen
      have := hI.live
      grind [Armed]
    · grind [hW.gone]
    · have := hW.offered
      grind [IsCurrent]
    · have := hW.pinned
      grind [IsCurrent]
    · have := hW.answered
      grind
  | cons c cs =>
    refine { hW with
      negotiated := ?_, replaying := ?_, offered := ?_, pinned := ?_ } <;>
      simp only [Acceptor.replay, await, Function.update_apply, Armed, IsCurrent]
    · have := hW.negotiated
      grind [Armed]
    · have := hW.replaying
      grind [Armed]
    · have := hW.offered
      grind [IsCurrent]
    · have := hW.pinned
      grind [IsCurrent]

theorem create (hW : a.Watched) (hI : Tables a) (h : a.tasks g = some ⟨id, .creating⟩) :
    (a.create g id).Watched := by
  have hneg := hI.task g id _ h
  have hnone := hI.unbuilt g id _ h (by simp)
  have habsent := hI.absent g id _ h (by simp) (by simp)
  have harmed := hW.negotiated g id _ h (by simp)
  rw [create_eq]
  have hreg : (a.register g id).Watched := by
    refine { hW with
      negotiated := ?_, replaying := ?_, halfOpen := ?_, gone := ?_, offered := ?_, pinned := ?_,
      answered := ?_ } <;>
      simp only [register, await, Function.update_apply, lookup_insert_if, Armed, IsCurrent]
    · have := hW.negotiated
      grind [Armed]
    · have := hW.replaying
      have := hI.task
      grind [Armed]
    · have := hW.halfOpen
      grind [Armed]
    · grind [hW.gone]
    · have := hW.offered
      grind [IsCurrent]
    · have := hW.pinned
      grind [IsCurrent]
    · have := hW.answered
      grind
  exact hreg.replay (hI.register h) tasks_register _

theorem fail (hW : a.Watched) (hI : Tables a) {phase : Negotiation}
    (h : a.tasks g = some ⟨id, phase⟩) (hphase : phase = .creating ∨ id ∈ a.live) :
    (a.fail g id).Watched := by
  have hneg := hI.task g id _ h
  have hconns : a.conns.lookup id = none ∨ id ∈ a.live :=
    hphase.imp_left fun hp => hI.absent g id _ h (by simp [hp]) (by simp [hp])
  have hid : ∀ id' phase, a.peers g = some ⟨id', phase⟩ → id = id' := fun id' phase hp =>
    hI.id_eq hneg hp
  rw [hI.fail_eq h]
  refine { hW with
    negotiated := ?_, replaying := ?_, halfOpen := ?_, gone := ?_, timed := ?_, offered := ?_,
    pinned := ?_, answered := ?_, ports := ?_ } <;>
    simp only [Function.update_apply, lookup_eraseValue_if, apply_ite (AList.lookup _),
      lookup_erase_if, Armed, IsCurrent]
  · have := hW.negotiated
    have := hI.task
    grind [Armed]
  · have := hW.replaying
    have := hI.task
    grind [Armed]
  · have := hW.halfOpen
    have := hI.halfOpen
    have := hI.live
    grind [Armed]
  · have := hW.gone
    have := hI.live
    grind
  · have := hW.timed
    have := hI.timer
    grind
  · have := hW.offered
    grind [IsCurrent]
  · have := hW.pinned
    grind [IsCurrent]
  · have := hW.answered
    grind
  · have := hW.ports
    grind

theorem opened (hW : a.Watched) (hI : Tables a) (h : a.peers p = some ⟨id, .halfOpen⟩) :
    ((a.setPhase p .connected).opened id p).Watched := by
  have hconns := hI.halfOpen p id h
  rw [hI.opened_eq h]
  refine { hW with
    negotiated := ?_, replaying := ?_, halfOpen := ?_, gone := ?_, timed := ?_, offered := ?_ } <;>
    simp only [Function.update_apply, lookup_eraseValue_if, Armed, IsCurrent, Finset.mem_insert]
  · have := hW.negotiated
    have := hI.unbuilt
    grind [Armed]
  · have := hW.replaying
    have := hI.registered
    grind [Armed]
  · have := hW.halfOpen
    have := hI.halfOpen
    grind [Armed]
  · have := hW.gone
    grind
  · have := hW.timed
    have := hI.timer
    grind
  · have := hW.offered
    grind [IsCurrent]

theorem forget {phase : PeerPhase} (hW : a.Watched) (hI : Tables a)
    (h : a.peers p = some ⟨id, phase⟩) (htask : a.tasks p = none)
    (hspares : ∀ q, a.conns.lookup id = some q → q = p) :
    ((a.setPhase p .gone).forget id p).Watched := by
  have hcurrent : ∀ g, a.IsCurrent id g → g ≠ p → a.negotiating.lookup id = some g := by
    rintro g (⟨hneg, -⟩ | ⟨-, hconns⟩) hne
    · exact hneg
    · exact absurd (hspares g hconns) hne
  rw [Acceptor.forget, hI.clear_gone h]
  refine { hW with
    negotiated := ?_, replaying := ?_, halfOpen := ?_, gone := ?_, timed := ?_, offered := ?_,
    pinned := ?_, answered := ?_, ports := ?_ } <;>
    simp only [Function.update_apply, lookup_eraseValue_if, apply_ite (AList.lookup _),
      lookup_erase_if, Armed, IsCurrent, Finset.mem_erase]
  · have := hW.negotiated
    grind [Armed]
  · have := hW.replaying
    grind [Armed]
  · have := hW.halfOpen
    have := hI.halfOpen
    grind [Armed]
  · have := hW.gone
    grind
  · have := hW.timed
    have := hI.timer
    grind
  · have := hW.offered
    grind [IsCurrent]
  · have := hW.pinned
    grind [IsCurrent]
  · have := hW.answered
    grind
  · have := hW.ports
    grind

theorem closed {phase : PeerPhase} (hW : a.Watched) (hI : Tables a)
    (h : a.peers p = some ⟨id, phase⟩) (hphase : phase = .halfOpen ∨ phase = .connected)
    (htask : a.tasks p = none) : ((a.setPhase p .gone).closed id p).Watched := by
  have hconns := hI.conns_of_alive h hphase
  have hforget := hW.forget hI h htask fun q hq => by
    rw [hconns] at hq
    exact (Option.some.inj hq).symm
  rw [closed_eq]
  exact hforget.of_eq rfl rfl rfl rfl rfl rfl rfl rfl rfl rfl

theorem close {peer : Peer} (hW : a.Watched) (h : a.peers p = some peer) :
    (commandedClose a p peer).Watched := by
  obtain ⟨id, phase⟩ := peer
  by_cases hphase : phase = .connected
  · subst hphase
    simp only [commandedClose, if_true, setPhase, h, Option.map_some]
    refine { hW with halfOpen := ?_, gone := ?_ } <;> simp only [Function.update_apply]
    · have := hW.halfOpen
      grind [Armed]
    · have := hW.gone
      grind
  · simp only [commandedClose, if_neg hphase]
    exact hW.of_eq rfl rfl rfl rfl rfl rfl rfl rfl rfl rfl

theorem endClose {closer : Closer} (hW : a.Watched) (hI : Tables a)
    (h : a.peers p = some ⟨id, .closing closer⟩) (htask : a.tasks p = none)
    (hspares : ∀ q, a.conns.lookup id = some q → q = p) : (a.endClose p id closer).Watched := by
  have hforget := hW.forget hI h htask hspares
  cases closer with
  | owner => exact hforget
  | deadline g =>
    obtain ⟨rfl, -⟩ := hI.reaping p id g h
    have hnone : ((a.setPhase g .gone).forget id g).deadlines.lookup id ≠ some g := by
      rw [Acceptor.forget, hI.clear_gone h, lookup_eraseValue_if]
      split_ifs with hd
      · simp
      · exact fun he => hd ⟨rfl, he⟩
    rw [Acceptor.endClose, endDeadline, eraseValue, if_neg hnone]
    exact hforget
  | negotiation g =>
    have htask := hI.replacing p id g h
    have hneg := hI.task g id _ htask
    have harmed := hforget.negotiated g id (.closing p)
    have hI' := hI.clear_gone h
    rw [Acceptor.endClose]
    rw [Acceptor.forget, hI'] at hforget harmed ⊢
    refine { hforget with
      negotiated := ?_, replaying := ?_, offered := ?_, pinned := ?_ } <;>
      simp only [await, Function.update_apply, Armed, IsCurrent] 
    · have := hforget.negotiated
      grind [Armed]
    · have := hforget.replaying
      grind [Armed]
    · have := hforget.offered
      grind [IsCurrent]
    · have := hforget.pinned
      grind [IsCurrent]

/-- What a deadline finds registered, where the id is not live, is its own connection, whose wire
never came up. -/
theorem halfOpen_of_timer (hW : a.Watched) (hI : Tables a) (h : a.timers g = some id)
    (hqueued : a.tasks g ≠ some ⟨id, .queued⟩) (hlive : id ∉ a.live)
    (hconns : a.conns.lookup id = some p) : p = g ∧ a.peers p = some ⟨id, .halfOpen⟩ := by
  obtain rfl := hI.eq_of_deadline (hI.timer g id h) hconns hqueued
  obtain ⟨phase, hpeer⟩ := hI.registered id p hconns
  refine ⟨rfl, ?_⟩
  cases phase with
  | halfOpen => exact hpeer
  | connected => exact absurd ((hI.live id).mpr ⟨p, hconns, .inl hpeer⟩) hlive
  | gone =>
    obtain ⟨hnone, hne⟩ := hW.gone p id hconns hpeer
    rcases hW.offered id p (hW.timed p id h) with ⟨hneg, -⟩ | ⟨hneg, -⟩
    · exact absurd hneg hne
    · exact absurd hneg hnone
  | closing closer =>
    cases closer with
    | owner => exact absurd ((hI.live id).mpr ⟨p, hconns, .inr hpeer⟩) hlive
    | deadline g =>
      obtain ⟨rfl, -, -, -, hnone⟩ := hI.reaping p id g hpeer
      rw [h] at hnone
      cases hnone
    | negotiation g =>
      have habsent := hI.absent g id _ (hI.replacing p id g hpeer) (by simp) (by simp)
      rw [hconns] at habsent
      cases habsent

/-- A deadline that passes finds the offer current: it clears what the offer left, or closes the
connection whose wire never came up. -/
theorem enforceDeadline (hW : a.Watched) (hI : Tables a) (h : a.timers g = some id)
    (hqueued : a.tasks g ≠ some ⟨id, .queued⟩) : (a.enforceDeadline id g).Watched := by
  have hdeadline := hI.timer g id h
  have hoffered := hW.timed g id h
  have hcurrent := hW.offered id g hoffered
  unfold Acceptor.enforceDeadline
  dsimp only
  split_ifs with hguard
  · have hlive : id ∈ a.live := hguard.resolve_left (by simp [hoffered])
    obtain ⟨p, hconns, hp⟩ := (hI.live id).mp hlive
    refine { hW with
      negotiated := ?_, replaying := ?_, halfOpen := ?_, timed := ?_ } <;>
      simp only [endDeadline, Function.update_apply, lookup_eraseValue_if, Armed]
    · have := hW.negotiated
      have := hI.absent
      have := hI.task
      grind [Armed, IsCurrent]
    · have := hW.replaying
      grind [Armed]
    · have := hW.halfOpen
      have := hI.halfOpen
      grind [Armed]
    · grind [hW.timed]
  · push Not at hguard
    cases hconns : a.conns.lookup id with
    | none =>
      have hneg : a.negotiating.lookup id = some g := by
        rcases hcurrent with ⟨hneg, -⟩ | ⟨-, hc⟩
        · exact hneg
        · simp [hconns] at hc
      simp only [reap, cancelNegotiation, hconns]
      refine { hW with
        negotiated := ?_, replaying := ?_, halfOpen := ?_, gone := ?_, timed := ?_, offered := ?_,
        pinned := ?_, answered := ?_, ports := ?_ } <;>
        simp only [dropOffer, releasePinnedPort, endDeadline, Function.update_apply,
          lookup_eraseValue_if, apply_ite (AList.lookup _), lookup_erase_if, Armed, IsCurrent, hneg]
      · have := hW.negotiated
        grind [Armed]
      · have := hW.replaying
        grind [Armed]
      · have := hW.halfOpen
        have := hI.halfOpen
        simp (disch := simp) only [← hneg, abort_negotiation_iff]
        grind [Armed]
      · have := hW.gone
        have := hI.replacing
        have := hI.absent
        simp only [← hneg, abort_negotiation_eq_some]
        grind
      · grind [hW.timed]
      · have := hW.offered
        grind [IsCurrent]
      · have := hW.pinned
        grind [IsCurrent]
      · have := hW.answered
        grind
      · have := hW.ports
        grind
    | some conn =>
      obtain ⟨rfl, hpeer⟩ := hW.halfOpen_of_timer hI h hqueued hguard.2 hconns
      have hpeer' : (a.peers conn).map (Peer.abort ((a.negotiating.lookup id).map .negotiation)) =
          some ⟨id, .halfOpen⟩ := by
        rw [abort_negotiation_iff (by simp) (by simp)]
        exact hpeer
      simp only [reap, cancelNegotiation, hconns, alive, hpeer', Option.any_some, Peer.alive,
        if_true, setPhase, Option.map_some]
      refine { hW with
        negotiated := ?_, replaying := ?_, halfOpen := ?_, gone := ?_, timed := ?_, offered := ?_,
        pinned := ?_, answered := ?_ } <;>
        simp only [Function.update_apply, lookup_erase_if, Armed, IsCurrent]
      · have := hW.negotiated
        have := hI.absent
        have := hI.task
        grind [Armed, IsCurrent]
      · have := hW.replaying
        have := hI.task
        grind [Armed]
      · intro q id' hq hnewer
        have hne : q ≠ conn := by
          rintro rfl
          simp at hq
        rw [if_neg hne, abort_negotiation_iff (by simp) (by simp)] at hq
        have := hW.halfOpen q id' hq
        have := hI.halfOpen q id' hq
        grind [Armed]
      · intro q id' hq hgone
        have hne : q ≠ conn := by
          rintro rfl
          simp at hgone
        rw [if_neg hne, abort_negotiation_eq_some] at hgone
        have := hW.gone q id' hq
        have := hI.replacing
        have := hI.absent
        grind
      · grind [hW.timed]
      · have := hW.offered
        grind [IsCurrent]
      · have := hW.pinned
        grind [IsCurrent]
      · have := hW.answered
        grind

theorem acceptOffer (hW : a.Watched) (hI : Tables a) {portRange : Option (ℕ × ℕ)}
    (hT : 0 < config.negotiationTimeout) (hport : a.guardPinnedPort id portRange = none) :
    (a.acceptOffer config id portRange).Watched := by
  have hunpinned := unpinned_of_guard hport
  have hunique : ∀ id' g, a.deadlines.lookup id = some g → a.deadlines.lookup id' = some g →
      id' = id := fun id' g h h' => hI.current_unique (hI.deadline id' g h') (hI.deadline id g h)
  have htask : ∀ id phase, a.tasks a.offers ≠ some ⟨id, phase⟩ := fun id phase h =>
    absurd (hI.task_lt _ _ h) (lt_irrefl _)
  have hpeer : ∀ id phase, a.peers a.offers ≠ some ⟨id, phase⟩ := fun id phase h =>
    absurd (hI.peer_lt _ _ h) (lt_irrefl _)
  have htimer : ∀ id, a.timers a.offers ≠ some id := fun id h =>
    absurd (hI.timer_lt _ _ h) (lt_irrefl _)
  simp only [Acceptor.acceptOffer, armDeadline_eq, if_neg (not_le.mpr hT), await, claimPinnedPort,
    cancelAnyDeadline, cancelNegotiation]
  refine { hW with
    negotiated := ?_, replaying := ?_, halfOpen := ?_, gone := ?_, timed := ?_, offered := ?_,
    pinned := ?_, answered := ?_, ports := ?_ } <;>
    simp only [Function.update_apply, lookup_insert_if, lookup_erase_if, Armed, IsCurrent]
  · have := hW.negotiated
    have := hI.task
    grind [Armed]
  · have := hW.replaying
    have := hI.task
    grind [Armed]
  · simp (disch := simp) only [abort_negotiation_iff, abort_deadline_iff]
    have := hW.halfOpen
    grind [Armed]
  · intro q id' hq hgone
    rcases eq_or_ne id' id with rfl | hid
    · rw [if_pos rfl]
      refine ⟨by simp, ?_⟩
      intro hq'
      obtain ⟨phase, hphase⟩ := hI.registered id' q hq
      exact hpeer id' phase (Option.some.inj hq' ▸ hphase)
    · rw [if_neg hid, if_neg hid]
      simp only [abort_deadline_eq_some, abort_negotiation_eq_some] at hgone
      have := hW.gone q id' hq
      have := hI.reaping
      have := hI.replacing
      have := hI.absent
      grind
  · have := hW.timed
    have := hI.timer
    grind
  · have := hW.offered
    grind [IsCurrent]
  · cases hrange : pinnedPort portRange with
    | none =>
      simp only [lookup_erase_if]
      have := hW.pinned
      grind [IsCurrent]
    | some port =>
      simp only [lookup_insert_if]
      have := hW.pinned
      grind [IsCurrent]
  · have := hW.answered
    grind
  · cases hrange : pinnedPort portRange with
    | none =>
      simp only [lookup_erase_if]
      have := hW.ports
      grind
    | some port =>
      have hunpinned' := fun id' g => hunpinned id' g port hrange
      simp only [lookup_insert_if]
      have := hW.ports
      grind

theorem addIce (hW : a.Watched) : (a.addIce id).Watched := by
  obtain ⟨pendingIce, added, handed, overflow, h⟩ := a.frame_addIce id
  rw [h]
  exact hW.of_eq rfl rfl rfl rfl rfl rfl rfl rfl rfl rfl

/-- Every step that leaves no slot unwatched. -/
theorem next {l : Label} (hW : a.Watched) (hI : Tables a) (hT : 0 < config.negotiationTimeout)
    (hspares : a.SparesNewer l) (hkeeps : a.KeepsWatch l)
    (h : WebRtc.next config a l = some a') : a'.Watched := by
  cases l with
  | startOffer id portRange =>
    obtain ⟨-, rfl⟩ | ⟨⟨-, hport⟩, rfl⟩ := startOffer_cases h
    · exact hW
    · exact hW.acceptOffer hI hT hport
  | takeAnswer id =>
    cases h
    exact hW.takeAnswer
  | addIce id =>
    cases h
    exact hW.addIce
  | negotiate g =>
    obtain ⟨id, htask, rfl⟩ := negotiate_eq_some h
    exact hW.negotiate hI htask
  | created g =>
    obtain ⟨id, htask, rfl⟩ := created_eq_some h
    exact hW.create hI htask
  | replayed g =>
    obtain ⟨id, rest, htask, rfl⟩ := replayed_eq_some h
    exact hW.replay hI htask rest
  | raised g =>
    obtain ⟨id, phase, htask, hphase, rfl⟩ := raised_eq_some h
    refine hW.fail hI htask (hphase.imp_right ?_)
    rintro ⟨rest, rfl⟩
    have hlive := hkeeps _ htask
    rwa [if_pos (isReplaying_of_task htask)] at hlive
  | connected p =>
    obtain ⟨id, hpeer, rfl⟩ := connected_eq_some h
    exact hW.opened hI hpeer
  | lost p =>
    obtain ⟨id, phase, hpeer, hphase, rfl⟩ := lost_eq_some h
    exact hW.closed hI hpeer hphase hkeeps
  | close p =>
    obtain ⟨peer, hpeer, -, rfl⟩ := close_eq_some h
    exact hW.close hpeer
  | closeEnded p =>
    obtain ⟨id, closer, hpeer, rfl⟩ := closeEnded_eq_some h
    exact hW.endClose hI hpeer hkeeps fun q hq => hspares _ hpeer q hq
  | deadlinePassed g =>
    obtain ⟨id, htimer, hqueued, rfl⟩ := deadlinePassed_eq_some h
    exact hW.enforceDeadline hI htimer fun htask => hqueued (by rw [htask]; rfl)

end Acceptor.Watched

/-! ### The ceiling -/

namespace Acceptor

theorem mem_known : id ∈ a.known ↔
    (∃ p, a.conns.lookup id = some p) ∨ ∃ g, a.negotiating.lookup id = some g := by
  rw [known, Finset.mem_union, List.mem_toFinset, List.mem_toFinset, mem_keys_iff, mem_keys_iff]

theorem known_mono (hconns : ∀ id p, a'.conns.lookup id = some p → a.conns.lookup id = some p)
    (hneg : ∀ id g, a'.negotiating.lookup id = some g → a.negotiating.lookup id = some g) :
    a'.known ⊆ a.known := by
  intro id hid
  rw [mem_known] at hid ⊢
  rcases hid with ⟨p, hp⟩ | ⟨g, hg⟩
  · exact .inl ⟨p, hconns id p hp⟩
  · exact .inr ⟨g, hneg id g hg⟩

theorem known_forget {phase : PeerPhase} (hI : Tables a) (h : a.peers p = some ⟨id, phase⟩) :
    ((a.setPhase p .gone).forget id p).known ⊆ a.known := by
  rw [forget, hI.clear_gone h]
  exact known_mono (fun id' q hq => of_lookup_erase hq) fun id' g hg => hg

theorem known_replay (cs : List Candidate) : (a.replay g id cs).known ⊆ a.known := by
  cases cs with
  | nil => exact known_mono (fun id' q hq => hq) fun id' g' hg => of_lookup_eraseValue hg
  | cons c cs => exact subset_rfl

theorem known_negotiate : (a.negotiate g id).known ⊆ a.known := by
  unfold negotiate
  split
  · exact subset_rfl
  · dsimp only
    split_ifs
    · exact known_mono (fun id' q hq => of_lookup_erase hq) fun id' g hg => hg
    · exact known_mono (fun id' q hq => of_lookup_erase hq) fun id' g hg => hg

theorem known_create (hI : Tables a) (h : a.tasks g = some ⟨id, .creating⟩) :
    (a.create g id).known ⊆ a.known := by
  rw [create_eq]
  refine (known_replay _).trans fun id' hid => ?_
  rw [mem_known] at hid ⊢
  rcases hid with ⟨p, hp⟩ | ⟨g', hg⟩
  · simp only [register, await, lookup_insert_if] at hp
    -- the id was being negotiated
    split_ifs at hp with hid
    · exact .inr ⟨g, hid ▸ hI.task g id _ h⟩
    · exact .inl ⟨p, hp⟩
  · exact .inr ⟨g', hg⟩

theorem known_enforceDeadline : (a.enforceDeadline id g).known ⊆ a.known := by
  unfold enforceDeadline
  dsimp only
  split_ifs
  · exact subset_rfl
  · unfold reap
    split
    · split_ifs
      · exact known_mono (fun id' q hq => hq) fun id' g hg => of_lookup_erase hg
      · exact known_mono (fun id' q hq => hq) fun id' g hg => of_lookup_erase hg
    · exact known_mono (fun id' q hq => hq) fun id' g hg => of_lookup_erase hg

theorem known_acceptOffer {portRange : Option (ℕ × ℕ)} :
    (a.acceptOffer config id portRange).known ⊆ insert id a.known := by
  intro id' hid
  rw [acceptOffer, armDeadline_eq, mem_known] at hid
  rw [Finset.mem_insert, mem_known]
  rcases hid with ⟨p, hp⟩ | ⟨g, hg⟩
  · exact .inr (.inl ⟨p, hp⟩)
  · simp only [await, claimPinnedPort, cancelAnyDeadline, cancelNegotiation, lookup_insert_if,
      lookup_erase_if] at hg
    by_cases hid : id' = id
    · exact .inl hid
    · rw [if_neg hid, if_neg hid] at hg
      exact .inr (.inr ⟨g, hg⟩)

/-- An id that is held or negotiated was so before, unless it was just offered. -/
theorem known_next {l : Label} (hI : Tables a) (h : WebRtc.next config a l = some a') :
    a'.known ⊆ a.known ∨
      ∃ id, a.guardCapacity config id = none ∧ a'.known ⊆ insert id a.known := by
  cases l with
  | startOffer id portRange =>
    obtain ⟨-, rfl⟩ | ⟨⟨hcap, -⟩, rfl⟩ := startOffer_cases h
    · exact .inl subset_rfl
    · exact .inr ⟨id, hcap, known_acceptOffer⟩
  | takeAnswer id =>
    cases h
    exact .inl subset_rfl
  | addIce id =>
    cases h
    obtain ⟨pendingIce, added, handed, overflow, h⟩ := a.frame_addIce id
    rw [h]
    exact .inl subset_rfl
  | negotiate g =>
    obtain ⟨id, htask, rfl⟩ := negotiate_eq_some h
    exact .inl known_negotiate
  | created g =>
    obtain ⟨id, htask, rfl⟩ := created_eq_some h
    exact .inl (known_create hI htask)
  | replayed g =>
    obtain ⟨id, rest, htask, rfl⟩ := replayed_eq_some h
    exact .inl (known_replay rest)
  | raised g =>
    obtain ⟨id, phase, htask, -, rfl⟩ := raised_eq_some h
    rw [hI.fail_eq htask]
    exact .inl (known_mono (fun id' q hq => hq) fun id' g' hg => of_lookup_eraseValue hg)
  | connected p =>
    obtain ⟨id, hpeer, rfl⟩ := connected_eq_some h
    rw [hI.opened_eq hpeer]
    exact .inl subset_rfl
  | lost p =>
    obtain ⟨id, phase, hpeer, -, rfl⟩ := lost_eq_some h
    rw [closed_eq]
    exact .inl (known_forget hI hpeer)
  | close p =>
    obtain ⟨peer, hpeer, -, rfl⟩ := close_eq_some h
    unfold commandedClose
    dsimp only
    split_ifs <;> exact .inl subset_rfl
  | closeEnded p =>
    obtain ⟨id, closer, hpeer, rfl⟩ := closeEnded_eq_some h
    cases closer <;> exact .inl (known_forget hI hpeer)
  | deadlinePassed g =>
    obtain ⟨id, -, -, rfl⟩ := deadlinePassed_eq_some h
    exact .inl known_enforceDeadline

theorem card_known_next {l : Label} (hI : Tables a) (hM : 0 < config.maxConnections)
    (hcard : (a.known.card : ℤ) ≤ config.maxConnections)
    (h : WebRtc.next config a l = some a') : (a'.known.card : ℤ) ≤ config.maxConnections := by
  rcases known_next hI h with hsub | ⟨id, hcap, hsub⟩
  · have := Finset.card_le_card hsub
    omega
  · have hle := Finset.card_le_card hsub
    unfold guardCapacity at hcap
    rw [if_neg (not_le.mpr hM)] at hcap
    split_ifs at hcap with hfull
    by_cases hid : id ∈ a.known
    · rw [Finset.insert_eq_of_mem hid] at hle
      omega
    · have hroom : ¬ (a.known.card : ℤ) ≥ config.maxConnections := fun h => hfull ⟨hid, h⟩
      rw [Finset.card_insert_of_notMem hid] at hle
      omega

/-! ### What a teardown leaves -/

structure NoEntry (a : Acceptor) (id : ConnId) : Prop where
  conns : a.conns.lookup id = none
  live : id ∉ a.live
  pendingIce : a.pendingIce.lookup id = none
  negotiating : a.negotiating.lookup id = none
  answers : a.answers.lookup id = none
  offeredAt : a.offeredAt.lookup id = none
  deadlines : a.deadlines.lookup id = none
  pinnedPorts : a.pinnedPorts.lookup id = none

structure KeepsEntries (a a' : Acceptor) (g : Offer) : Prop where
  deadlines : ∀ id, a.deadlines.lookup id = some g → a'.deadlines.lookup id = some g
  offeredAt : ∀ id, a.offeredAt.lookup id = some g → a'.offeredAt.lookup id = some g
  pinnedPorts : ∀ id port, a.pinnedPorts.lookup id = some (g, port) →
    a'.pinnedPorts.lookup id = some (g, port)

end Acceptor

/-- The generation a step tears down: its connection is lost or closed, or its negotiation fails, or
its deadline passes. -/
def Label.tornDown : Label → Option Offer
  | .raised g => some g
  | .lost p => some p
  | .closeEnded p => some p
  | .deadlinePassed g => some g
  | _ => none

def Label.tornDownId (a : Acceptor) : Label → Option ConnId
  | .raised g => (a.tasks g).map Task.id
  | .lost p => (a.peers p).map Peer.id
  | .closeEnded p => (a.peers p).map Peer.id
  | .deadlinePassed g => a.timers g
  | _ => none

namespace Acceptor

theorem known_of_isCurrent (h : a.IsCurrent id g) : id ∈ a.known := by
  rw [mem_known]
  rcases h with ⟨hneg, -⟩ | ⟨-, hconns⟩
  · exact .inr ⟨g, hneg⟩
  · exact .inl ⟨g, hconns⟩

/-- An id that is neither held nor negotiated has at most early candidates. -/
theorem Watched.noEntry (hW : a.Watched) (hI : Tables a) (hid : id ∉ a.known)
    (hpending : a.pendingIce.lookup id = none) : a.NoEntry id := by
  have hnone : ∀ {t : AList fun _ : ConnId => Offer},
      (∀ g, t.lookup id = some g → id ∈ a.known) → t.lookup id = none := fun {t} h =>
    Option.eq_none_iff_forall_ne_some.mpr fun g hg => hid (h g hg)
  have hconns : a.conns.lookup id = none := hnone fun g hg => mem_known.mpr (.inl ⟨g, hg⟩)
  refine ⟨hconns, ?_, hpending, ?_, ?_, ?_, ?_, ?_⟩
  · intro hlive
    obtain ⟨p, hp, -⟩ := (hI.live id).mp hlive
    rw [hconns] at hp
    cases hp
  · exact hnone fun g hg => mem_known.mpr (.inr ⟨g, hg⟩)
  · exact hnone fun g hg => mem_known.mpr (.inl ⟨g, (hW.answered id g hg).1⟩)
  · exact hnone fun g hg => known_of_isCurrent (hW.offered id g hg)
  · exact hnone fun g hg => known_of_isCurrent (hI.deadline id g hg)
  · refine Option.eq_none_iff_forall_ne_some.mpr ?_
    rintro ⟨g, port⟩ hg
    exact hid (known_of_isCurrent (hW.pinned id g port hg))

theorem keepsEntries_forget {phase : PeerPhase} (hI : Tables a)
    (h : a.peers p = some ⟨id, phase⟩) (hne : g ≠ p) :
    a.KeepsEntries ((a.setPhase p .gone).forget id p) g := by
  rw [forget, hI.clear_gone h]
  constructor <;>
    simp only [apply_ite (AList.lookup _), lookup_eraseValue_if, lookup_erase_if] <;> grind

theorem keepsEntries_enforceDeadline {p : Offer} (hne : g ≠ p) :
    a.KeepsEntries (a.enforceDeadline id p) g := by
  unfold enforceDeadline
  dsimp only
  split_ifs
  · constructor <;> simp only [endDeadline, lookup_eraseValue_if] <;> grind
  · unfold reap
    split
    · split_ifs
      · exact ⟨fun id h => h, fun id h => h, fun id port h => h⟩
      · constructor <;> simp only [endDeadline, cancelNegotiation, lookup_eraseValue_if] <;> grind
    · constructor <;>
        simp only [endDeadline, releasePinnedPort, dropOffer, cancelNegotiation,
          apply_ite (AList.lookup _), lookup_eraseValue_if, lookup_erase_if] <;> grind

/-- A teardown takes no entry of another generation away. -/
theorem keepsEntries_next {l : Label} (hI : Tables a) (h : WebRtc.next config a l = some a')
    (hl : l.tornDown = some p) (hne : g ≠ p) : a.KeepsEntries a' g := by
  cases l with
  | raised q =>
    cases hl
    obtain ⟨id, phase, htask, -, rfl⟩ := raised_eq_some h
    rw [hI.fail_eq htask]
    constructor <;>
      simp only [apply_ite (AList.lookup _), lookup_eraseValue_if, lookup_erase_if] <;> grind
  | lost q =>
    cases hl
    obtain ⟨id, phase, hpeer, -, rfl⟩ := lost_eq_some h
    rw [closed_eq]
    have hforget := keepsEntries_forget hI hpeer hne
    exact ⟨hforget.deadlines, hforget.offeredAt, hforget.pinnedPorts⟩
  | closeEnded q =>
    cases hl
    obtain ⟨id, closer, hpeer, rfl⟩ := closeEnded_eq_some h
    have hforget := keepsEntries_forget hI hpeer hne
    cases closer with
    | owner => exact hforget
    | negotiation g' => exact ⟨hforget.deadlines, hforget.offeredAt, hforget.pinnedPorts⟩
    | deadline g' =>
      obtain ⟨rfl, -⟩ := hI.reaping _ id g' hpeer
      refine ⟨fun id' h' => ?_, hforget.offeredAt, hforget.pinnedPorts⟩
      rw [endClose, endDeadline, lookup_eraseValue_if, hforget.deadlines id' h', if_neg]
      rintro ⟨rfl, hd⟩
      rw [hforget.deadlines id' h'] at hd
      exact hne (Option.some.inj hd)
  | deadlinePassed q =>
    cases hl
    obtain ⟨id, -, -, rfl⟩ := deadlinePassed_eq_some h
    exact keepsEntries_enforceDeadline hne
  | startOffer id portRange => cases hl
  | takeAnswer id => cases hl
  | addIce id => cases hl
  | negotiate q => cases hl
  | created q => cases hl
  | replayed q => cases hl
  | connected q => cases hl
  | close q => cases hl

/-- A teardown leaves no early candidate of an id that is neither held nor negotiated any more. -/
theorem Watched.pendingIce_next {l : Label} (hW : a.Watched) (hI : Tables a)
    (hkeeps : a.KeepsWatch l) (h : WebRtc.next config a l = some a')
    (hl : l.tornDownId a = some id) (hid : id ∉ a'.known) : a'.pendingIce.lookup id = none := by
  cases l with
  | raised g =>
    obtain ⟨id', phase, htask, hphase, rfl⟩ := raised_eq_some h
    obtain rfl : id' = id := by
      rw [Label.tornDownId, htask] at hl
      exact Option.some.inj hl
    have hk := hkeeps _ htask
    rw [hI.fail_eq htask] at hid ⊢
    rcases hphase with rfl | ⟨rest, rfl⟩
    · rwa [if_neg (by simp [isReplaying, htask])] at hk
    · -- the connection of a replay is registered, so its id is held still
      have hheld : id' ∈ a.conns.keys := mem_keys_iff.mpr ⟨g, (hW.replaying g _ rest htask).1⟩
      exact absurd (Finset.mem_union_left _ (List.mem_toFinset.mpr hheld)) hid
  | lost p =>
    obtain ⟨id', phase, hpeer, -, rfl⟩ := lost_eq_some h
    obtain rfl : id' = id := by
      rw [Label.tornDownId, hpeer] at hl
      exact Option.some.inj hl
    rw [closed_eq, Acceptor.forget, hI.clear_gone hpeer]
    exact AList.lookup_erase id' a.pendingIce
  | closeEnded p =>
    obtain ⟨id', closer, hpeer, rfl⟩ := closeEnded_eq_some h
    obtain rfl : id' = id := by
      rw [Label.tornDownId, hpeer] at hl
      exact Option.some.inj hl
    have hnone : ((a.setPhase p .gone).forget id' p).pendingIce.lookup id' = none := by
      rw [Acceptor.forget, hI.clear_gone hpeer]
      exact AList.lookup_erase id' a.pendingIce
    cases closer <;> exact hnone
  | deadlinePassed g =>
    obtain ⟨id', htimer, -, rfl⟩ := deadlinePassed_eq_some h
    obtain rfl : id' = id := by
      rw [Label.tornDownId, htimer] at hl
      exact Option.some.inj hl
    have hknown := known_of_isCurrent (hW.offered id' g (hW.timed g id' htimer))
    unfold Acceptor.enforceDeadline at hid ⊢
    dsimp only at hid ⊢
    split_ifs at hid ⊢
    · exact absurd hknown hid
    · cases hconns : a.conns.lookup id' with
      | none =>
        simp only [reap, cancelNegotiation, hconns]
        exact AList.lookup_erase id' a.pendingIce
      | some conn =>
        refine absurd (mem_known.mpr (.inl ⟨conn, ?_⟩)) hid
        simp only [reap, cancelNegotiation, hconns]
        split_ifs <;> exact hconns
  | startOffer id portRange => cases hl
  | takeAnswer id => cases hl
  | addIce id => cases hl
  | negotiate q => cases hl
  | created q => cases hl
  | replayed q => cases hl
  | connected q => cases hl
  | close q => cases hl

end Acceptor

/-! ### Runs -/

/-- A step that leaves no slot unwatched and takes no newer connection away. -/
def Watching (a : Acceptor) (l : Label) : Prop := a.SparesNewer l ∧ a.KeepsWatch l

instance (a : Acceptor) (l : Label) : Decidable (Watching a l) := instDecidableAnd

structure Acceptor.Slots (a : Acceptor) (config : WebRtcConfig) : Prop where
  capacity : (a.known.card : ℤ) ≤ config.maxConnections
  /-- An id that is held or negotiated is live, has a deadline to come, or is being closed. -/
  watched : ∀ id ∈ a.known, id ∈ a.live ∨ (∃ g, a.Armed id g) ∨
    ∃ p closer, a.conns.lookup id = some p ∧ a.peers p = some ⟨id, .closing closer⟩
  ports : ∀ id id' g g' port, a.pinnedPorts.lookup id = some (g, port) →
    a.pinnedPorts.lookup id' = some (g', port) → id = id'

/-- What is torn down takes no entry of a newer generation away, and leaves none behind once it
was the last of its id. -/
structure TearsDownCleanly (a : Acceptor) (l : Label) (a' : Acceptor) : Prop where
  newer : ∀ p g, l.tornDown = some p → p < g → a.KeepsEntries a' g
  last : ∀ id, l.tornDownId a = some id → id ∉ a'.known → a'.NoEntry id

theorem Acceptor.Watched.watched (hW : a.Watched) (hI : Tables a) (hid : id ∈ a.known) :
    id ∈ a.live ∨ (∃ g, a.Armed id g) ∨
      ∃ p closer, a.conns.lookup id = some p ∧ a.peers p = some ⟨id, .closing closer⟩ := by
  cases hneg : a.negotiating.lookup id with
  | some g =>
    obtain ⟨phase, htask⟩ := hI.negotiated id g hneg
    cases phase with
    | replaying rest =>
      rcases (hW.replaying g id rest htask).2 with harmed | hlive
      · exact .inr (.inl ⟨g, harmed⟩)
      · exact .inl hlive
    | queued => exact .inr (.inl ⟨g, hW.negotiated g id _ htask (by simp)⟩)
    | closing p => exact .inr (.inl ⟨g, hW.negotiated g id _ htask (by simp)⟩)
    | creating => exact .inr (.inl ⟨g, hW.negotiated g id _ htask (by simp)⟩)
  | none =>
    rcases Acceptor.mem_known.mp hid with ⟨p, hconns⟩ | ⟨g, hg⟩
    · obtain ⟨phase, hpeer⟩ := hI.registered id p hconns
      cases phase with
      | halfOpen => exact .inr (.inl ⟨p, hW.halfOpen p id hpeer (by simp [hneg])⟩)
      | connected => exact .inl ((hI.live id).mpr ⟨p, hconns, .inl hpeer⟩)
      | gone => exact absurd hneg (hW.gone p id hconns hpeer).1
      | closing closer => exact .inr (.inr ⟨p, closer, hconns, hpeer⟩)
    · rw [hneg] at hg
      cases hg

/-- **Slots**: with a ceiling and a deadline, every id that holds a slot is live, guarded by its
current offer's deadline, or being closed, and teardowns clear what is theirs. -/
theorem slots (config : WebRtcConfig) (hM : 0 < config.maxConnections)
    (hT : 0 < config.negotiationTimeout) {ls : List Label} {a : Acceptor}
    (hall : (acceptor config).AllSteps Watching ls) (hrun : (acceptor config).run ls = some a) :
    a.Slots config ∧ ∀ l a', Watching a l → (acceptor config).step a l = some a' →
      TearsDownCleanly a l a' := by
  obtain ⟨hI, hW, hcard⟩ : Tables a ∧ a.Watched ∧ (a.known.card : ℤ) ≤ config.maxConnections := by
    refine TransitionSystem.AllSteps.invariant
      (I := fun a => Tables a ∧ a.Watched ∧ (a.known.card : ℤ) ≤ config.maxConnections)
      ⟨Tables.init, ?_, ?_⟩ ?_ hall hrun
    · constructor <;> simp [acceptor]
    · simpa [acceptor, Acceptor.known] using hM.le
    · rintro a l a' ⟨hI, hW, hcard⟩ ⟨hspares, hkeeps⟩ h
      exact ⟨hI.next hspares h, hW.next hI hT hspares hkeeps h,
        Acceptor.card_known_next hI hM hcard h⟩
  refine ⟨⟨hcard, fun id hid => hW.watched hI hid, hW.ports⟩, ?_⟩
  rintro l a' ⟨hspares, hkeeps⟩ h
  have hI' := hI.next hspares h
  have hW' := hW.next hI hT hspares hkeeps h
  refine ⟨fun p g hl hlt => Acceptor.keepsEntries_next hI h hl hlt.ne', fun id hl hid => ?_⟩
  exact hW'.noEntry hI' hid (hW.pendingIce_next hI hkeeps h hl hid)

theorem slots_firstOffer :
    (((acceptor twoSlots).run firstOffer).get (by decide)).Slots twoSlots :=
  (slots twoSlots (by decide) (by decide) (by decide +kernel) (Option.some_get (by decide)).symm).1

/-- An offer whose early candidate the peer refuses: its connection stays, and nothing watches it. -/
def refusedCandidate : List Label :=
  [.addIce 1, .startOffer 1 none, .negotiate 0, .created 0, .raised 0]

theorem not_slots : ¬ ∀ config ls a, 0 < config.maxConnections → 0 < config.negotiationTimeout →
    (acceptor config).run ls = some a → a.Slots config := by
  intro h
  have hslots := h twoSlots refusedCandidate _ (by decide) (by decide)
    (Option.some_get (by decide)).symm
  rcases hslots.watched 1 (by decide +kernel) with hlive | ⟨g, hdeadline, -⟩ | ⟨p, closer, hp, hpeer⟩
  · exact absurd hlive (by decide +kernel)
  · exact absurd (mem_keys_iff.mpr ⟨g, hdeadline⟩) (by decide +kernel)
  · obtain rfl : 0 = p := Option.some.inj hp
    have hhalf : (((acceptor twoSlots).run refusedCandidate).get (by decide)).peers 0 =
      some ⟨1, .halfOpen⟩ := by decide +kernel
    rw [hhalf] at hpeer
    cases hpeer

end ReactorRuntime.WebRtc
