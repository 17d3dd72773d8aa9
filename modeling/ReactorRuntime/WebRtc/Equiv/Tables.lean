import ReactorRuntime.WebRtc.Acceptor

/-!
# The acceptor's tables, its tasks and its connections

`Tables` ties the tables to the tasks and connections whose generations they name: a task is the one
that negotiates its id, a connection that is alive is the one registered under its id, and an id is
live exactly while its registered connection has opened and its close, if any, has not ended.

`Tables.next` keeps it over every step whose close, if it ends one, does not take a newer connection
out of the table (`Acceptor.SparesNewer`).
-/

namespace ReactorRuntime.WebRtc

open ReactorRuntime.Runtime (ConnId)
open ReactorRuntime.Lists

/-! ### Aborted closes -/

section Abort

variable {cancelled : Option Closer} {o : Option Peer} {id : ConnId} {phase : PeerPhase}

theorem abort_eq_some : o.map (Peer.abort cancelled) = some ⟨id, phase⟩ ↔
    o = some ⟨id, phase⟩ ∧ cancelled.map PeerPhase.closing ≠ some phase ∨
      phase = .gone ∧ ∃ closer, cancelled = some closer ∧ o = some ⟨id, .closing closer⟩ := by
  cases o with
  | none => simp
  | some peer =>
    obtain ⟨id', phase'⟩ := peer
    rw [Option.map_some, Peer.abort]
    split_ifs with h
    · obtain ⟨closer, hcloser, rfl⟩ := Option.map_eq_some_iff.mp h
      simp only [Option.some.injEq, Peer.mk.injEq]
      grind
    · simp only [Option.some.injEq, Peer.mk.injEq]
      grind

theorem abort_negotiation_eq_some {inFlight : Option Offer} :
    o.map (Peer.abort (inFlight.map .negotiation)) = some ⟨id, phase⟩ ↔
      o = some ⟨id, phase⟩ ∧ (∀ g, phase = .closing (.negotiation g) → inFlight ≠ some g) ∨
        phase = .gone ∧ ∃ g, inFlight = some g ∧ o = some ⟨id, .closing (.negotiation g)⟩ := by
  rw [abort_eq_some]
  cases inFlight with
  | none => simp
  | some g =>
    simp only [Option.map_some, ne_eq, Option.some.injEq]
    grind

theorem abort_deadline_eq_some {armed : Option Offer} :
    o.map (Peer.abort (armed.map .deadline)) = some ⟨id, phase⟩ ↔
      o = some ⟨id, phase⟩ ∧ (∀ g, phase = .closing (.deadline g) → armed ≠ some g) ∨
        phase = .gone ∧ ∃ g, armed = some g ∧ o = some ⟨id, .closing (.deadline g)⟩ := by
  rw [abort_eq_some]
  cases armed with
  | none => simp
  | some g =>
    simp only [Option.map_some, ne_eq, Option.some.injEq]
    grind

theorem abort_negotiation_iff {inFlight : Option Offer} (hgone : phase ≠ .gone)
    (h : ∀ g, phase ≠ .closing (.negotiation g)) :
    o.map (Peer.abort (inFlight.map .negotiation)) = some ⟨id, phase⟩ ↔ o = some ⟨id, phase⟩ := by
  rw [abort_negotiation_eq_some]
  simp [hgone, h]

theorem abort_deadline_iff {armed : Option Offer} (hgone : phase ≠ .gone)
    (h : ∀ g, phase ≠ .closing (.deadline g)) :
    o.map (Peer.abort (armed.map .deadline)) = some ⟨id, phase⟩ ↔ o = some ⟨id, phase⟩ := by
  rw [abort_deadline_eq_some]
  simp [hgone, h]

theorem abort_eq_none : o.map (Peer.abort cancelled) = none ↔ o = none := Option.map_eq_none_iff

/-- A close that no connection waits for is aborted nowhere. -/
theorem abort_eq (cancelled : Option Closer) {peers : Offer → Option Peer}
    (h : ∀ closer p id, cancelled = some closer → peers p ≠ some ⟨id, .closing closer⟩) :
    (fun p => (peers p).map (Peer.abort cancelled)) = peers := by
  funext p
  cases hp : peers p with
  | none => rfl
  | some peer =>
    obtain ⟨id, phase⟩ := peer
    rw [Option.map_some, Peer.abort, if_neg]
    intro hc
    obtain ⟨closer, hcloser, rfl⟩ := Option.map_eq_some_iff.mp hc
    exact h closer p id hcloser hp

theorem exists_abort (h : ∃ phase, o = some ⟨id, phase⟩) :
    ∃ phase, o.map (Peer.abort cancelled) = some ⟨id, phase⟩ := by
  obtain ⟨phase, rfl⟩ := h
  rw [Option.map_some, Peer.abort]
  split_ifs
  · exact ⟨.gone, rfl⟩
  · exact ⟨phase, rfl⟩

end Abort

namespace Acceptor

variable {a : Acceptor} {config : WebRtcConfig} {id : ConnId} {g : Offer}

/-! ### The operations, field by field -/

theorem cancelDeadline_eq : a.cancelDeadline id g = { a with
    deadlines := eraseValue a.deadlines id g
    timers := fun g' => if a.deadlines.lookup id = some g ∧ g' = g then none else a.timers g'
    peers := fun p => (a.peers p).map
      (Peer.abort (if a.deadlines.lookup id = some g then some (.deadline g) else none)) } := by
  unfold cancelDeadline cancelAnyDeadline eraseValue
  split_ifs with h
  · simp only [h, Option.map_some, Option.some.injEq, true_and, eq_comm]
  · have hpeers := abort_eq none (show ∀ closer p id, none = some closer →
      a.peers p ≠ some ⟨id, .closing closer⟩ by simp)
    simp only [h, false_and, if_false, hpeers]

theorem armDeadline_eq : a.armDeadline config id g = { a with
    deadlines := if config.negotiationTimeout ≤ 0 then a.deadlines else a.deadlines.insert id g
    timers := if config.negotiationTimeout ≤ 0 then a.timers
      else Function.update a.timers g (some id) } := by
  unfold armDeadline
  split_ifs <;> rfl

theorem isReplaying_of_task {rest : List Candidate} (h : a.tasks g = some ⟨id, .replaying rest⟩) :
    a.isReplaying g = true := by
  rw [isReplaying, h]

theorem frame_bufferEarlyIce (a : Acceptor) (id : ConnId) (c : Candidate) :
    ∃ pendingIce overflow, a.bufferEarlyIce id c = { a with pendingIce, overflow } := by
  have hevict : ∃ pendingIce overflow, a.evictOldest = { a with pendingIce, overflow } := by
    unfold evictOldest
    split_ifs
    · cases a.pendingIce.entries.getLast? with
      | none => exact ⟨_, _, rfl⟩
      | some oldest => exact ⟨_, _, rfl⟩
    · exact ⟨_, _, rfl⟩
  obtain ⟨pendingIce, overflow, hevict⟩ := hevict
  unfold bufferEarlyIce
  cases a.pendingIce.lookup id with
  | none =>
    simp only [hevict]
    exact ⟨_, _, rfl⟩
  | some pending =>
    dsimp only
    split_ifs <;> exact ⟨_, _, rfl⟩

/-- A candidate touches the buffer, or is handed over. -/
theorem frame_addIce (a : Acceptor) (id : ConnId) : ∃ pendingIce added handed overflow,
    a.addIce id = { a with pendingIce, added, handed, overflow } := by
  unfold addIce
  cases hconns : a.conns.lookup id with
  | some p =>
    simp only [hconns]
    exact ⟨_, _, _, _, rfl⟩
  | none =>
    simp only [hconns]
    obtain ⟨pendingIce, overflow, h⟩ := frame_bufferEarlyIce
      { a with added := a.added ++ [(⟨id, a.currentOffer id⟩ : Added)] } id a.added.length
    exact ⟨pendingIce, _, _, overflow, h⟩

def register (a : Acceptor) (g : Offer) (id : ConnId) : Acceptor :=
  { a with
    peers := Function.update a.peers g (some { id, phase := .halfOpen })
    conns := a.conns.insert id g
    pendingIce := a.pendingIce.erase id }.await g id (.replaying [])

theorem tasks_register : (a.register g id).tasks g = some ⟨id, .replaying []⟩ := by
  simp [register, await]

theorem replay_await (phase : Negotiation) (cs : List Candidate) :
    (a.await g id phase).replay g id cs = a.replay g id cs := by
  cases cs with
  | nil => simp only [replay, await, endTask, Function.update_idem]
  | cons c cs => simp only [replay, await, Function.update_idem]

/-- What follows the peer factory is a replay, of a connection that is registered. -/
theorem create_eq :
    a.create g id = (a.register g id).replay g id ((a.pendingIce.lookup id).getD []) := by
  rw [register, replay_await]
  rfl

theorem live_clear (a : Acceptor) (id : ConnId) (g : Offer) : (a.clear id g).live = a.live := by
  simp only [clear, cancelDeadline_eq, releasePinnedPort, dropOffer]

theorem sink_clear (a : Acceptor) (id : ConnId) (g : Offer) : (a.clear id g).sink = a.sink := by
  simp only [clear, cancelDeadline_eq, releasePinnedPort, dropOffer]

/-- A lost connection is forgotten, and reported if it was live. -/
theorem closed_eq : a.closed id g = { a.forget id g with
    sink := if id ∈ a.live then a.sink.erase id else a.sink } := by
  unfold closed forget
  simp only [live_clear, sink_clear]
  split_ifs with h
  · rfl
  · rw [Finset.erase_eq_of_notMem h, ← live_clear a id g,
      ← sink_clear a id g]

theorem negotiate_of_alive {previous : Offer} (h : a.conns.lookup id = some previous)
    (halive : a.alive previous = true) : a.negotiate g id =
      ({ a with conns := a.conns.erase id, live := a.live.erase id }.setPhase previous
        (.closing (.negotiation g))).await g id (.closing previous) := by
  unfold negotiate
  rw [h]
  exact if_pos halive

theorem negotiate_of_not_alive {previous : Offer} (h : a.conns.lookup id = some previous)
    (halive : ¬ a.alive previous = true) : a.negotiate g id =
      { a with conns := a.conns.erase id, live := a.live.erase id }.await g id .creating := by
  unfold negotiate
  rw [h]
  exact if_neg halive

end Acceptor

/-! ### What a step is -/

section Steps

variable {a a' : Acceptor} {config : WebRtcConfig} {id : ConnId} {g p : Offer}

attribute [local simp] next

theorem startOffer_cases {portRange : Option (ℕ × ℕ)}
    (h : next config a (.startOffer id portRange) = some a') :
    (a.guardCapacity config id ≠ none ∨ a.guardPinnedPort id portRange ≠ none) ∧ a' = a ∨
      (a.guardCapacity config id = none ∧ a.guardPinnedPort id portRange = none) ∧
        a' = a.acceptOffer config id portRange := by
  unfold next Acceptor.startOffer at h
  cases hcap : a.guardCapacity config id <;> cases hport : a.guardPinnedPort id portRange <;>
    simp_all

theorem negotiate_eq_some (h : next config a (.negotiate g) = some a') :
    ∃ id, a.tasks g = some ⟨id, .queued⟩ ∧ a.negotiate g id = a' := by
  simp only [next] at h
  split at h
  · exact ⟨_, ‹_›, Option.some.inj h⟩
  · cases h

theorem created_eq_some (h : next config a (.created g) = some a') :
    ∃ id, a.tasks g = some ⟨id, .creating⟩ ∧ a.create g id = a' := by
  simp only [next] at h
  split at h
  · exact ⟨_, ‹_›, Option.some.inj h⟩
  · cases h

theorem replayed_eq_some (h : next config a (.replayed g) = some a') :
    ∃ id rest, a.tasks g = some ⟨id, .replaying rest⟩ ∧ a.replay g id rest = a' := by
  simp only [next] at h
  split at h
  · exact ⟨_, _, ‹_›, Option.some.inj h⟩
  · cases h

theorem raised_eq_some (h : next config a (.raised g) = some a') :
    ∃ id phase, a.tasks g = some ⟨id, phase⟩ ∧
      (phase = .creating ∨ ∃ rest, phase = .replaying rest) ∧ a.fail g id = a' := by
  simp only [next] at h
  split at h
  · exact ⟨_, _, ‹_›, .inl rfl, Option.some.inj h⟩
  · exact ⟨_, _, ‹_›, .inr ⟨_, rfl⟩, Option.some.inj h⟩
  · cases h

theorem connected_eq_some (h : next config a (.connected p) = some a') :
    ∃ id, a.peers p = some ⟨id, .halfOpen⟩ ∧ (a.setPhase p .connected).opened id p = a' := by
  simp only [next] at h
  split at h
  · exact ⟨_, ‹_›, Option.some.inj h⟩
  · cases h

theorem lost_eq_some (h : next config a (.lost p) = some a') :
    ∃ id phase, a.peers p = some ⟨id, phase⟩ ∧ (phase = .halfOpen ∨ phase = .connected) ∧
      (a.setPhase p .gone).closed id p = a' := by
  simp only [next] at h
  split at h
  · exact ⟨_, _, ‹_›, .inl rfl, Option.some.inj h⟩
  · exact ⟨_, _, ‹_›, .inr rfl, Option.some.inj h⟩
  · cases h

theorem close_eq_some (h : next config a (.close p) = some a') :
    ∃ peer, a.peers p = some peer ∧ (peer.phase = .connected ∨ a.sink.lookup peer.id = some p) ∧
      commandedClose a p peer = a' := by
  simp only [next] at h
  split at h
  · split_ifs at h with hknown
    exact ⟨_, ‹_›, hknown, Option.some.inj h⟩
  · cases h

theorem closeEnded_eq_some (h : next config a (.closeEnded p) = some a') :
    ∃ id closer, a.peers p = some ⟨id, .closing closer⟩ ∧ a.endClose p id closer = a' := by
  simp only [next] at h
  split at h
  · exact ⟨_, _, ‹_›, Option.some.inj h⟩
  · cases h

theorem deadlinePassed_eq_some (h : next config a (.deadlinePassed g) = some a') :
    ∃ id, a.timers g = some id ∧ (a.tasks g).map Task.phase ≠ some .queued ∧
      a.enforceDeadline id g = a' := by
  simp only [next] at h
  split at h
  · cases h
  · split_ifs at h with hqueued
    exact ⟨_, ‹_›, hqueued, Option.some.inj h⟩

end Steps

/-! ### The invariant -/

/-- A close that ends leaves no newer connection registered under its id, which it would take out
of the table. -/
def Acceptor.SparesNewer (a : Acceptor) : Label → Prop
  | .closeEnded p => ∀ peer ∈ a.peers p, ∀ q ∈ a.conns.lookup peer.id, q = p
  | _ => True

instance (a : Acceptor) (l : Label) : Decidable (a.SparesNewer l) :=
  match l with
  | .closeEnded p =>
    inferInstanceAs (Decidable (∀ peer ∈ a.peers p, ∀ q ∈ a.conns.lookup peer.id, q = p))
  | .startOffer _ _ | .takeAnswer _ | .addIce _ | .negotiate _ | .created _ | .replayed _
  | .raised _ | .connected _ | .lost _ | .close _ | .deadlinePassed _ => instDecidableTrue

/-- The offer `g` is the one `id` waits for: it is being negotiated, and its connection, if it is
built, is held; or it was negotiated and its connection is held. -/
def Acceptor.IsCurrent (a : Acceptor) (id : ConnId) (g : Offer) : Prop :=
  a.negotiating.lookup id = some g ∧
      (∀ rest, a.tasks g = some ⟨id, .replaying rest⟩ → a.conns.lookup id = some g) ∨
    a.negotiating.lookup id = none ∧ a.conns.lookup id = some g

structure Tables (a : Acceptor) : Prop where
  task_lt : ∀ g t, a.tasks g = some t → g < a.offers
  peer_lt : ∀ p peer, a.peers p = some peer → p < a.offers
  timer_lt : ∀ g id, a.timers g = some id → g < a.offers
  /-- A task negotiates its id. -/
  task : ∀ g id phase, a.tasks g = some ⟨id, phase⟩ → a.negotiating.lookup id = some g
  negotiated : ∀ id g, a.negotiating.lookup id = some g → ∃ phase, a.tasks g = some ⟨id, phase⟩
  registered : ∀ id p, a.conns.lookup id = some p → ∃ phase, a.peers p = some ⟨id, phase⟩
  /-- A connection is built between the peer factory and the replay. -/
  unbuilt : ∀ g id phase, a.tasks g = some ⟨id, phase⟩ → (∀ rest, phase ≠ .replaying rest) →
    a.peers g = none
  built : ∀ g id rest, a.tasks g = some ⟨id, .replaying rest⟩ → ∃ phase, a.peers g = some ⟨id, phase⟩
  /-- Nothing is registered while the superseded connection is closed and the new one is built. -/
  absent : ∀ g id phase, a.tasks g = some ⟨id, phase⟩ → phase ≠ .queued →
    (∀ rest, phase ≠ .replaying rest) → a.conns.lookup id = none
  superseded : ∀ g id p, a.tasks g = some ⟨id, .closing p⟩ →
    a.peers p = some ⟨id, .closing (.negotiation g)⟩
  replacing : ∀ p id g, a.peers p = some ⟨id, .closing (.negotiation g)⟩ →
    a.tasks g = some ⟨id, .closing p⟩
  timer : ∀ g id, a.timers g = some id → a.deadlines.lookup id = some g
  deadline : ∀ id g, a.deadlines.lookup id = some g → a.IsCurrent id g
  /-- A deadline closes its own connection. -/
  reaping : ∀ p id g, a.peers p = some ⟨id, .closing (.deadline g)⟩ → g = p ∧
    a.conns.lookup id = some p ∧ a.negotiating.lookup id = none ∧
      a.deadlines.lookup id = some p ∧ a.timers p = none
  halfOpen : ∀ p id, a.peers p = some ⟨id, .halfOpen⟩ → a.conns.lookup id = some p
  connected : ∀ p id, a.peers p = some ⟨id, .connected⟩ → a.conns.lookup id = some p
  live : ∀ id, id ∈ a.live ↔ ∃ p, a.conns.lookup id = some p ∧
    (a.peers p = some ⟨id, .connected⟩ ∨ a.peers p = some ⟨id, .closing .owner⟩)

namespace Tables

variable {a a' : Acceptor} {config : WebRtcConfig}

theorem init : Tables {} := by
  constructor <;> simp

theorem of_eq (hI : Tables a) (hconns : a'.conns = a.conns) (hlive : a'.live = a.live)
    (hnegotiating : a'.negotiating = a.negotiating) (hdeadlines : a'.deadlines = a.deadlines)
    (hoffers : a'.offers = a.offers) (htasks : a'.tasks = a.tasks) (htimers : a'.timers = a.timers)
    (hpeers : a'.peers = a.peers) : Tables a' := by
  constructor <;>
    simp only [Acceptor.IsCurrent, hconns, hlive, hnegotiating, hdeadlines, hoffers, htasks,
      htimers, hpeers]
  exacts [hI.task_lt, hI.peer_lt, hI.timer_lt, hI.task, hI.negotiated, hI.registered, hI.unbuilt,
    hI.built, hI.absent, hI.superseded, hI.replacing, hI.timer, hI.deadline, hI.reaping,
    hI.halfOpen, hI.connected, hI.live]

theorem id_eq (hI : Tables a) {g : Offer} {id id' : ConnId} {phase : PeerPhase}
    (hneg : a.negotiating.lookup id = some g) (hpeer : a.peers g = some ⟨id', phase⟩) :
    id = id' := by
  obtain ⟨phase', htask⟩ := hI.negotiated id g hneg
  cases phase' with
  | replaying rest =>
    obtain ⟨phase'', hbuilt⟩ := hI.built g id rest htask
    rw [hpeer] at hbuilt
    exact (Peer.mk.inj (Option.some.inj hbuilt)).1.symm
  | queued => simp [hI.unbuilt g id _ htask (by simp)] at hpeer
  | closing p => simp [hI.unbuilt g id _ htask (by simp)] at hpeer
  | creating => simp [hI.unbuilt g id _ htask (by simp)] at hpeer

theorem not_reaping_of_task (hI : Tables a) {g : Offer} {id : ConnId} {phase : Negotiation}
    (h : a.tasks g = some ⟨id, phase⟩) (p : Offer) (id' : ConnId) :
    a.peers p ≠ some ⟨id', .closing (.deadline g)⟩ := by
  intro hp
  obtain ⟨rfl, -, hnone, -, -⟩ := hI.reaping p id' g hp
  cases phase with
  | replaying rest =>
    obtain ⟨phase, hg⟩ := hI.built g id rest h
    have hid : id' = id := by
      rw [hp] at hg
      exact (Peer.mk.inj (Option.some.inj hg)).1
    rw [hid, hI.task g id _ h] at hnone
    cases hnone
  | queued => simp [hI.unbuilt g id _ h (by simp)] at hp
  | closing q => simp [hI.unbuilt g id _ h (by simp)] at hp
  | creating => simp [hI.unbuilt g id _ h (by simp)] at hp

theorem peers_cancelDeadline (a : Acceptor) {g : Offer} (id : ConnId) {peers : Offer → Option Peer}
    (h : ∀ p id, peers p ≠ some ⟨id, .closing (.deadline g)⟩) :
    (fun p => (peers p).map
      (Peer.abort (if a.deadlines.lookup id = some g then some (.deadline g) else none))) =
      peers := by
  refine abort_eq _ fun closer p id hc => ?_
  split_ifs at hc
  · cases hc
    exact h p id

theorem not_reaping_update (hI : Tables a) {p : Offer} (id : ConnId) {phase : PeerPhase}
    (hphase : phase ≠ .closing (.deadline p)) (q : Offer) (id' : ConnId) :
    Function.update a.peers p (some ⟨id, phase⟩) q ≠ some ⟨id', .closing (.deadline p)⟩ := by
  intro hq
  rcases eq_or_ne q p with rfl | hne
  · rw [Function.update_self] at hq
    exact hphase (Peer.mk.inj (Option.some.inj hq)).2
  · rw [Function.update_of_ne hne] at hq
    exact hne (hI.reaping q id' p hq).1.symm

/-! ### Negotiations -/

theorem negotiate {g : Offer} {id : ConnId} (hI : Tables a) (h : a.tasks g = some ⟨id, .queued⟩) :
    Tables (a.negotiate g id) := by
  have hneg := hI.task g id _ h
  have hlt := hI.task_lt g _ h
  cases hp : a.conns.lookup id with
  | none =>
    rw [Acceptor.negotiate, hp]
    refine { hI with
      task_lt := ?_, task := ?_, negotiated := ?_, unbuilt := ?_, built := ?_, absent := ?_,
      superseded := ?_, replacing := ?_, deadline := ?_ } <;>
      simp only [Acceptor.await, Function.update_apply, Acceptor.IsCurrent]
    · have := hI.task_lt
      grind
    · grind [hI.task]
    · grind [hI.negotiated]
    · grind [hI.unbuilt]
    · grind [hI.built]
    · grind [hI.absent]
    · grind [hI.superseded]
    · grind [hI.replacing]
    · have := hI.deadline
      grind [Acceptor.IsCurrent]
  | some previous =>
    obtain ⟨phase, hprev⟩ := hI.registered id previous hp
    by_cases halive : a.alive previous
    · rw [Acceptor.negotiate_of_alive hp halive]
      have hphase : phase = .halfOpen ∨ phase = .connected := by
        rw [Acceptor.alive, hprev] at halive
        grind [Peer.alive]
      refine { hI with
        task_lt := ?_, peer_lt := ?_, task := ?_, negotiated := ?_, registered := ?_,
        unbuilt := ?_, built := ?_, absent := ?_, superseded := ?_, replacing := ?_,
        deadline := ?_, reaping := ?_, halfOpen := ?_, connected := ?_, live := ?_ } <;>
        simp only [Acceptor.await, Acceptor.setPhase, hprev, Option.map_some,
          Function.update_apply, lookup_erase_if, Acceptor.IsCurrent, Finset.mem_erase]
      · have := hI.task_lt
        grind
      · have := hI.peer_lt
        grind
      · grind [hI.task]
      · grind [hI.negotiated]
      · grind [hI.registered]
      · grind [hI.unbuilt]
      · grind [hI.built]
      · grind [hI.absent]
      · grind [hI.superseded]
      · grind [hI.replacing, hI.unbuilt]
      · have := hI.deadline
        grind [Acceptor.IsCurrent]
      · grind [hI.reaping]
      · grind [hI.halfOpen]
      · grind [hI.connected]
      · grind [hI.live, hI.registered]
    · rw [Acceptor.negotiate_of_not_alive hp halive]
      have hphase : phase ≠ .halfOpen ∧ phase ≠ .connected := by
        rw [Acceptor.alive, hprev] at halive
        grind [Peer.alive]
      refine { hI with
        task_lt := ?_, task := ?_, negotiated := ?_, registered := ?_, unbuilt := ?_, built := ?_,
        absent := ?_, superseded := ?_, replacing := ?_, deadline := ?_, reaping := ?_,
        halfOpen := ?_, connected := ?_, live := ?_ } <;>
        simp only [Acceptor.await, Function.update_apply, lookup_erase_if, Acceptor.IsCurrent,
          Finset.mem_erase]
      · have := hI.task_lt
        grind
      · grind [hI.task]
      · grind [hI.negotiated]
      · grind [hI.registered]
      · grind [hI.unbuilt]
      · grind [hI.built]
      · grind [hI.absent]
      · grind [hI.superseded]
      · grind [hI.replacing, hI.unbuilt]
      · have := hI.deadline
        grind [Acceptor.IsCurrent]
      · grind [hI.reaping]
      · grind [hI.halfOpen]
      · grind [hI.connected]
      · grind [hI.live, hI.registered]

theorem replay {g : Offer} {id : ConnId} {rest : List Candidate} (hI : Tables a)
    (h : a.tasks g = some ⟨id, .replaying rest⟩) (cs : List Candidate) :
    Tables (a.replay g id cs) := by
  have hneg := hI.task g id _ h
  have hlt := hI.task_lt g _ h
  cases cs with
  | nil =>
    refine { hI with
      task_lt := ?_, task := ?_, negotiated := ?_, unbuilt := ?_, built := ?_, absent := ?_,
      superseded := ?_, replacing := ?_, deadline := ?_, reaping := ?_ } <;>
      simp only [Acceptor.replay, Acceptor.endTask, Function.update_apply, lookup_eraseValue_if,
        Acceptor.IsCurrent]
    · have := hI.task_lt
      grind
    · grind [hI.task]
    · grind [hI.negotiated, hI.task]
    · grind [hI.unbuilt]
    · grind [hI.built]
    · grind [hI.absent]
    · grind [hI.superseded]
    · grind [hI.replacing]
    · have := hI.deadline
      grind [Acceptor.IsCurrent]
    · grind [hI.reaping]
  | cons c cs =>
    refine { hI with
      task_lt := ?_, task := ?_, negotiated := ?_, unbuilt := ?_, built := ?_, absent := ?_,
      superseded := ?_, replacing := ?_, deadline := ?_ } <;>
      simp only [Acceptor.replay, Acceptor.await, Function.update_apply, Acceptor.IsCurrent]
    · have := hI.task_lt
      grind
    · grind [hI.task]
    · grind [hI.negotiated]
    · grind [hI.unbuilt]
    · grind [hI.built]
    · grind [hI.absent]
    · grind [hI.superseded]
    · grind [hI.replacing]
    · have := hI.deadline
      grind [Acceptor.IsCurrent]

/-- The connection that the peer factory returned is registered. -/
theorem register {g : Offer} {id : ConnId} (hI : Tables a)
    (h : a.tasks g = some ⟨id, .creating⟩) : Tables (a.register g id) := by
  have hneg := hI.task g id _ h
  have hlt := hI.task_lt g _ h
  have hnone := hI.unbuilt g id _ h (by simp)
  have habsent := hI.absent g id _ h (by simp) (by simp)
  refine { hI with
    task_lt := ?_, peer_lt := ?_, task := ?_, negotiated := ?_, registered := ?_,
    unbuilt := ?_, built := ?_, absent := ?_, superseded := ?_, replacing := ?_,
    deadline := ?_, reaping := ?_, halfOpen := ?_, connected := ?_, live := ?_ } <;>
    simp only [Acceptor.register, Acceptor.await, Function.update_apply, lookup_insert_if,
      Acceptor.IsCurrent]
  · have := hI.task_lt
    grind
  · have := hI.peer_lt
    grind
  · grind [hI.task]
  · grind [hI.negotiated]
  · intro id' p hp
    rcases eq_or_ne id' id with rfl | hid
    · rw [if_pos rfl] at hp
      exact ⟨.halfOpen, by rw [if_pos (Option.some.inj hp).symm]⟩
    · rw [if_neg hid] at hp
      grind [hI.registered]
  · grind [hI.unbuilt]
  · intro g' id' rest h'
    rcases eq_or_ne g' g with rfl | hg
    · rw [if_pos rfl] at h' ⊢
      obtain ⟨rfl, -⟩ := Task.mk.inj (Option.some.inj h')
      exact ⟨.halfOpen, rfl⟩
    · rw [if_neg hg] at h' ⊢
      exact hI.built g' id' rest h'
  · intro g' id' phase h' hqueued hreplaying
    rcases eq_or_ne g' g with rfl | hg
    · rw [if_pos rfl] at h'
      obtain ⟨-, rfl⟩ := Task.mk.inj (Option.some.inj h')
      exact absurd rfl (hreplaying [])
    · rw [if_neg hg] at h'
      have hid : id' ≠ id := by
        rintro rfl
        rw [hI.task g' id' _ h'] at hneg
        exact hg (Option.some.inj hneg)
      rw [if_neg hid]
      exact hI.absent g' id' phase h' hqueued hreplaying
  · grind [hI.superseded]
  · grind [hI.replacing]
  · have := hI.deadline
    grind [Acceptor.IsCurrent]
  · grind [hI.reaping]
  · grind [hI.halfOpen]
  · grind [hI.connected]
  · grind [hI.live]

theorem create {g : Offer} {id : ConnId} (hI : Tables a) (h : a.tasks g = some ⟨id, .creating⟩) :
    Tables (a.create g id) := by
  rw [Acceptor.create_eq]
  exact (hI.register h).replay Acceptor.tasks_register _

/-- What is left where a negotiation raises: its deadline closes nothing. -/
theorem fail_eq {g : Offer} {id : ConnId} {phase : Negotiation} (hI : Tables a)
    (h : a.tasks g = some ⟨id, phase⟩) : a.fail g id = { a with
      offeredAt := eraseValue a.offeredAt id g
      deadlines := eraseValue a.deadlines id g
      timers := fun g' => if a.deadlines.lookup id = some g ∧ g' = g then none else a.timers g'
      pinnedPorts := if (a.pinnedPorts.lookup id).map Prod.fst = some g then a.pinnedPorts.erase id
        else a.pinnedPorts
      tasks := Function.update a.tasks g none
      negotiating := eraseValue a.negotiating id g } := by
  have hpeers := peers_cancelDeadline { a with
    offeredAt := eraseValue a.offeredAt id g } id (hI.not_reaping_of_task h)
  simp only [Acceptor.fail, Acceptor.cancelDeadline_eq, Acceptor.releasePinnedPort,
    Acceptor.dropOffer, Acceptor.endTask, hpeers]

theorem fail {g : Offer} {id : ConnId} {phase : Negotiation} (hI : Tables a)
    (h : a.tasks g = some ⟨id, phase⟩) (hphase : ∀ p, phase ≠ .closing p) :
    Tables (a.fail g id) := by
  have hneg := hI.task g id _ h
  rw [hI.fail_eq h]
  refine { hI with
    task_lt := ?_, timer_lt := ?_, task := ?_, negotiated := ?_, unbuilt := ?_, built := ?_,
    absent := ?_, superseded := ?_, replacing := ?_, timer := ?_, deadline := ?_,
    reaping := ?_ } <;>
    simp only [Function.update_apply, lookup_eraseValue_if, Acceptor.IsCurrent]
  · have := hI.task_lt
    grind
  · have := hI.timer_lt
    grind
  · grind [hI.task]
  · grind [hI.negotiated, hI.task]
  · grind [hI.unbuilt]
  · grind [hI.built]
  · grind [hI.absent]
  · grind [hI.superseded]
  · grind [hI.replacing]
  · grind [hI.timer]
  · have := hI.deadline
    grind [Acceptor.IsCurrent]
  · grind [hI.reaping]

/-! ### Connections -/

/-- What is left where a wire connects: its deadline, if it is armed still, is cancelled. -/
theorem opened_eq {p : Offer} {id : ConnId} (hI : Tables a)
    (h : a.peers p = some ⟨id, .halfOpen⟩) : (a.setPhase p .connected).opened id p = { a with
      live := insert id a.live
      offeredAt := eraseValue a.offeredAt id p
      deadlines := eraseValue a.deadlines id p
      timers := fun g => if a.deadlines.lookup id = some p ∧ g = p then none else a.timers g
      peers := Function.update a.peers p (some ⟨id, .connected⟩)
      sink := a.sink.insert id p } := by
  have hpeers := peers_cancelDeadline a id
    (hI.not_reaping_update id (show PeerPhase.connected ≠ .closing (.deadline p) by simp))
  simp only [Acceptor.opened, Acceptor.cancelDeadline_eq, Acceptor.dropOffer, Acceptor.setPhase, h,
    Option.map_some, hpeers]

theorem opened {p : Offer} {id : ConnId} (hI : Tables a) (h : a.peers p = some ⟨id, .halfOpen⟩) :
    Tables ((a.setPhase p .connected).opened id p) := by
  have hconns := hI.halfOpen p id h
  rw [hI.opened_eq h]
  refine { hI with
    peer_lt := ?_, timer_lt := ?_, registered := ?_, unbuilt := ?_, built := ?_,
    superseded := ?_, replacing := ?_, timer := ?_, deadline := ?_, reaping := ?_, halfOpen := ?_,
    connected := ?_, live := ?_ } <;>
    simp only [Function.update_apply, lookup_eraseValue_if, Acceptor.IsCurrent, Finset.mem_insert]
  · have := hI.peer_lt
    grind
  · have := hI.timer_lt
    grind
  · grind [hI.registered]
  · grind [hI.unbuilt]
  · grind [hI.built]
  · grind [hI.superseded]
  · grind [hI.replacing]
  · grind [hI.timer]
  · have := hI.deadline
    grind [Acceptor.IsCurrent]
  · grind [hI.reaping]
  · grind [hI.halfOpen]
  · grind [hI.connected]
  · grind [hI.live]

/-- What is left where a connection that is gone is cleared away: its own deadline closes nothing
more. -/
theorem clear_gone {p : Offer} {id : ConnId} {phase : PeerPhase} (hI : Tables a)
    (h : a.peers p = some ⟨id, phase⟩) : (a.setPhase p .gone).clear id p = { a with
      conns := a.conns.erase id
      pendingIce := a.pendingIce.erase id
      answers := a.answers.erase id
      offeredAt := eraseValue a.offeredAt id p
      deadlines := eraseValue a.deadlines id p
      timers := fun g => if a.deadlines.lookup id = some p ∧ g = p then none else a.timers g
      pinnedPorts := if (a.pinnedPorts.lookup id).map Prod.fst = some p then a.pinnedPorts.erase id
        else a.pinnedPorts
      peers := Function.update a.peers p (some ⟨id, .gone⟩) } := by
  have hpeers := peers_cancelDeadline a id
    (hI.not_reaping_update id (show PeerPhase.gone ≠ .closing (.deadline p) by simp))
  simp only [Acceptor.clear, Acceptor.cancelDeadline_eq, Acceptor.releasePinnedPort,
    Acceptor.dropOffer, Acceptor.setPhase, h, Option.map_some, hpeers]

theorem forget {p : Offer} {id : ConnId} {phase : PeerPhase} (hI : Tables a)
    (h : a.peers p = some ⟨id, phase⟩) (hphase : ∀ g, phase ≠ .closing (.negotiation g))
    (hspares : ∀ q, a.conns.lookup id = some q → q = p) :
    Tables ((a.setPhase p .gone).forget id p) := by
  rw [Acceptor.forget, hI.clear_gone h]
  refine { hI with
    peer_lt := ?_, timer_lt := ?_, registered := ?_, unbuilt := ?_, built := ?_, absent := ?_,
    superseded := ?_, replacing := ?_, timer := ?_, deadline := ?_, reaping := ?_, halfOpen := ?_,
    connected := ?_, live := ?_ } <;>
    simp only [Function.update_apply, lookup_eraseValue_if, lookup_erase_if, Acceptor.IsCurrent,
      Finset.mem_erase]
  · have := hI.peer_lt
    grind
  · have := hI.timer_lt
    grind
  · grind [hI.registered]
  · grind [hI.unbuilt]
  · grind [hI.built]
  · grind [hI.absent]
  · grind [hI.superseded]
  · grind [hI.replacing]
  · grind [hI.timer]
  · have := hI.deadline
    grind [Acceptor.IsCurrent]
  · grind [hI.reaping]
  · grind [hI.halfOpen]
  · grind [hI.connected]
  · grind [hI.live, hI.registered]

theorem conns_of_alive {p : Offer} {id : ConnId} {phase : PeerPhase} (hI : Tables a)
    (h : a.peers p = some ⟨id, phase⟩) (hphase : phase = .halfOpen ∨ phase = .connected) :
    a.conns.lookup id = some p := by
  rcases hphase with rfl | rfl
  · exact hI.halfOpen p id h
  · exact hI.connected p id h

theorem closed {p : Offer} {id : ConnId} {phase : PeerPhase} (hI : Tables a)
    (h : a.peers p = some ⟨id, phase⟩) (hphase : phase = .halfOpen ∨ phase = .connected) :
    Tables ((a.setPhase p .gone).closed id p) := by
  have hconns := hI.conns_of_alive h hphase
  have hforget := hI.forget h (by rcases hphase with rfl | rfl <;> simp) fun q hq => by
    rw [hconns] at hq
    exact (Option.some.inj hq).symm
  rw [Acceptor.closed_eq]
  exact hforget.of_eq rfl rfl rfl rfl rfl rfl rfl rfl

theorem close {p : Offer} {peer : Peer} (hI : Tables a) (h : a.peers p = some peer) :
    Tables (commandedClose a p peer) := by
  obtain ⟨id, phase⟩ := peer
  by_cases hphase : phase = .connected
  · subst hphase
    have hconns := hI.connected p id h
    simp only [commandedClose, if_true, Acceptor.setPhase, h, Option.map_some]
    refine { hI with
      peer_lt := ?_, registered := ?_, unbuilt := ?_, built := ?_, superseded := ?_,
      replacing := ?_, reaping := ?_, halfOpen := ?_, connected := ?_, live := ?_ } <;>
      simp only [Function.update_apply]
    · have := hI.peer_lt
      grind
    · grind [hI.registered]
    · grind [hI.unbuilt]
    · grind [hI.built]
    · grind [hI.superseded]
    · grind [hI.replacing]
    · grind [hI.reaping]
    · grind [hI.halfOpen]
    · grind [hI.connected]
    · grind [hI.live]
  · simp only [commandedClose, if_neg hphase]
    exact hI.of_eq rfl rfl rfl rfl rfl rfl rfl rfl

theorem endClose {p : Offer} {id : ConnId} {closer : Closer} (hI : Tables a)
    (h : a.peers p = some ⟨id, .closing closer⟩)
    (hspares : ∀ q, a.conns.lookup id = some q → q = p) : Tables (a.endClose p id closer) := by
  cases closer with
  | owner => exact hI.forget h (by simp) hspares
  | deadline g =>
    obtain ⟨rfl, -⟩ := hI.reaping p id g h
    have hforget := hI.forget h (by simp) hspares
    have hnone : ((a.setPhase g .gone).forget id g).deadlines.lookup id ≠ some g := by
      rw [Acceptor.forget, hI.clear_gone h, lookup_eraseValue_if]
      split_ifs with hd
      · simp
      · exact fun he => hd ⟨rfl, he⟩
    rw [Acceptor.endClose, Acceptor.endDeadline, eraseValue, if_neg hnone]
    exact hforget
  | negotiation g =>
    have htask := hI.replacing p id g h
    have habsent := hI.absent g id _ htask (by simp) (by simp)
    have hneg := hI.task g id _ htask
    -- the negotiation goes on once the connection it superseded is gone
    have hgone : Tables ((a.setPhase p .gone).await g id .creating) := by
      simp only [Acceptor.setPhase, Acceptor.await, h, Option.map_some]
      refine { hI with
        task_lt := ?_, peer_lt := ?_, task := ?_, negotiated := ?_, registered := ?_,
        unbuilt := ?_, built := ?_, absent := ?_, superseded := ?_, replacing := ?_,
        deadline := ?_, reaping := ?_, halfOpen := ?_, connected := ?_, live := ?_ } <;>
        simp only [Function.update_apply, Acceptor.IsCurrent]
      · have := hI.task_lt
        grind
      · have := hI.peer_lt
        grind
      · grind [hI.task]
      · grind [hI.negotiated]
      · grind [hI.registered]
      · grind [hI.unbuilt]
      · grind [hI.built]
      · grind [hI.absent]
      · grind [hI.superseded]
      · grind [hI.replacing]
      · have := hI.deadline
        grind [Acceptor.IsCurrent]
      · grind [hI.reaping]
      · grind [hI.halfOpen]
      · grind [hI.connected]
      · grind [hI.live]
    have hpeer : ((a.setPhase p .gone).await g id .creating).peers p = some ⟨id, .gone⟩ := by
      simp [Acceptor.setPhase, Acceptor.await, h]
    have hforget := hgone.forget hpeer (by simp) fun q hq => by
      simp [Acceptor.setPhase, Acceptor.await, habsent] at hq
    rw [Acceptor.forget, hgone.clear_gone hpeer] at hforget
    rw [Acceptor.endClose, Acceptor.forget, hI.clear_gone h]
    refine hforget.of_eq rfl rfl rfl rfl rfl rfl rfl ?_
    simp [Acceptor.setPhase, Acceptor.await, h]

/-! ### Deadlines -/

theorem wake {g : Offer} {id : ConnId} (hI : Tables a) (h : a.timers g = some id) :
    Tables { a with timers := Function.update a.timers g none } := by
  refine { hI with timer_lt := ?_, timer := ?_, reaping := ?_ } <;>
    simp only [Function.update_apply]
  · have := hI.timer_lt
    grind
  · grind [hI.timer]
  · grind [hI.reaping]

theorem endDeadline {g : Offer} (hI : Tables a) (id : ConnId) (h : a.timers g = none)
    (hreaping : ∀ p id', a.peers p ≠ some ⟨id', .closing (.deadline g)⟩) :
    Tables (a.endDeadline id g) := by
  refine { hI with timer := ?_, deadline := ?_, reaping := ?_ } <;>
    simp only [Acceptor.endDeadline, lookup_eraseValue_if, Acceptor.IsCurrent]
  · grind [hI.timer]
  · have := hI.deadline
    grind [Acceptor.IsCurrent]
  · have := hI.reaping
    grind

theorem cancelNegotiation (hI : Tables a) (id : ConnId)
    (h : ∀ g, a.deadlines.lookup id = some g → a.conns.lookup id = some g) :
    Tables (a.cancelNegotiation id) := by
  refine { hI with
    task_lt := ?_, peer_lt := ?_, task := ?_, negotiated := ?_, registered := ?_, unbuilt := ?_,
    built := ?_, absent := ?_, superseded := ?_, replacing := ?_, deadline := ?_, reaping := ?_,
    halfOpen := ?_, connected := ?_, live := ?_ } <;>
    simp only [Acceptor.cancelNegotiation, lookup_erase_if, Acceptor.IsCurrent]
  · have := hI.task_lt
    grind
  · intro p peer hp
    obtain ⟨peer', hp', -⟩ := Option.map_eq_some_iff.mp hp
    exact hI.peer_lt p _ hp'
  · grind [hI.task]
  · grind [hI.negotiated]
  · exact fun id' p hp => exists_abort (hI.registered id' p hp)
  · simp only [abort_eq_none]
    grind [hI.unbuilt]
  · intro g' id' rest h'
    split_ifs at h'
    exact exists_abort (hI.built g' id' rest h')
  · grind [hI.absent]
  · simp only [abort_negotiation_eq_some]
    grind [hI.superseded, hI.task]
  · simp only [abort_negotiation_eq_some]
    grind [hI.replacing]
  · have := hI.deadline
    grind [Acceptor.IsCurrent]
  · simp only [abort_negotiation_eq_some]
    have := hI.reaping
    grind
  · simp (disch := simp) only [abort_negotiation_iff]
    grind [hI.halfOpen]
  · simp (disch := simp) only [abort_negotiation_iff]
    grind [hI.connected]
  · simp (disch := simp) only [abort_negotiation_iff]
    exact hI.live

/-- What a deadline does to a connection that never came up, once the offer is no longer being
negotiated. -/
theorem reap {g : Offer} {id : ConnId} (hI : Tables a) (htimer : a.timers g = none)
    (hneg : a.negotiating.lookup id = none) (hdeadline : a.deadlines.lookup id = some g)
    (hlive : id ∉ a.live) (hnot : ∀ p id', a.peers p ≠ some ⟨id', .closing (.deadline g)⟩) :
    Tables (a.reap id g) := by
  have hend := hI.endDeadline id htimer hnot
  obtain hconns : a.conns.lookup id = some g := by
    rcases hI.deadline id g hdeadline with ⟨hg, -⟩ | ⟨-, hg⟩
    · rw [hneg] at hg
      cases hg
    · exact hg
  obtain ⟨phase, hpeer⟩ := hI.registered id g hconns
  simp only [Acceptor.reap, hconns]
  by_cases halive : a.alive g
  · rw [if_pos halive]
    simp only [Acceptor.setPhase, hpeer, Option.map_some]
    refine { hI with
      peer_lt := ?_, registered := ?_, unbuilt := ?_, built := ?_, superseded := ?_,
      replacing := ?_, reaping := ?_, halfOpen := ?_, connected := ?_, live := ?_ } <;>
      simp only [Function.update_apply]
    · have := hI.peer_lt
      grind
    · grind [hI.registered]
    · grind [hI.unbuilt]
    · grind [hI.built]
    · have hphase : phase = .halfOpen ∨ phase = .connected := by
        rw [Acceptor.alive, hpeer] at halive
        grind [Peer.alive]
      grind [hI.superseded]
    · grind [hI.replacing]
    · have := hI.reaping
      grind
    · grind [hI.halfOpen]
    · grind [hI.connected]
    · grind [hI.live]
  · rw [if_neg halive]
    exact hend

theorem reap_of_absent {g : Offer} {id : ConnId} (hend : Tables (a.endDeadline id g))
    (hconns : a.conns.lookup id = none) : Tables (a.reap id g) := by
  unfold Acceptor.reap
  rw [hconns]
  exact hend.of_eq rfl rfl rfl rfl rfl rfl rfl rfl

theorem eq_of_deadline {g conn : Offer} {id : ConnId} (hI : Tables a)
    (hdeadline : a.deadlines.lookup id = some g) (hconns : a.conns.lookup id = some conn)
    (hqueued : a.tasks g ≠ some ⟨id, .queued⟩) : conn = g := by
  rcases hI.deadline id g hdeadline with ⟨hneg, hreplaying⟩ | ⟨-, hg⟩
  · obtain ⟨phase, htask⟩ := hI.negotiated id g hneg
    cases phase with
    | queued => exact absurd htask hqueued
    | closing p => simp [hI.absent g id _ htask] at hconns
    | creating => simp [hI.absent g id _ htask] at hconns
    | replaying rest =>
      rw [hreplaying rest htask] at hconns
      exact (Option.some.inj hconns).symm
  · rw [hconns] at hg
    exact Option.some.inj hg

/-- A deadline that passes gives its slot up, or closes the connection that holds it. -/
theorem enforceDeadline {g : Offer} {id : ConnId} (hI : Tables a) (h : a.timers g = some id)
    (hqueued : a.tasks g ≠ some ⟨id, .queued⟩) : Tables (a.enforceDeadline id g) := by
  have hwake := hI.wake h
  have hdeadline := hI.timer g id h
  have hnot : ∀ p id', a.peers p ≠ some ⟨id', .closing (.deadline g)⟩ := by
    intro p id' hp
    obtain ⟨rfl, -, -, -, hnone⟩ := hI.reaping p id' g hp
    rw [h] at hnone
    cases hnone
  have hend := hwake.endDeadline id (by simp) hnot
  unfold Acceptor.enforceDeadline
  by_cases hguard : a.offeredAt.lookup id ≠ some g ∨ id ∈ a.live
  · simp only [if_pos hguard]
    exact hend
  · simp only [if_neg hguard]
    cases hconns : a.conns.lookup id with
    | none =>
      have hcancel := hend.cancelNegotiation id fun g' hg' => by
        rw [Acceptor.endDeadline, lookup_eraseValue_if] at hg'
        simp [hdeadline] at hg'
      exact reap_of_absent hcancel hconns
    | some conn =>
      obtain rfl := hI.eq_of_deadline hdeadline hconns hqueued
      have hcancel := hwake.cancelNegotiation id fun g' hg' => by
        simp only [hdeadline] at hg'
        rw [← hg', hconns]
      refine hcancel.reap (by simp [Acceptor.cancelNegotiation])
        (AList.lookup_erase id a.negotiating) hdeadline (fun hl => hguard (.inr hl)) ?_
      intro p id' hp
      rcases abort_eq_some.mp hp with ⟨hp, -⟩ | ⟨hgone, -⟩
      · exact hnot p id' hp
      · cases hgone

/-! ### Offers and candidates -/

theorem armDeadline {g : Offer} {id : ConnId} (hI : Tables a) (hg : g < a.offers)
    (htask : a.tasks g = some ⟨id, .queued⟩) (hdeadline : a.deadlines.lookup id = none) :
    Tables (a.armDeadline config id g) := by
  have hneg := hI.task g id _ htask
  have hpeer := hI.unbuilt g id _ htask (by simp)
  unfold Acceptor.armDeadline
  split_ifs
  · exact hI
  · refine { hI with
      timer_lt := ?_, timer := ?_, deadline := ?_, reaping := ?_ } <;>
      simp only [Function.update_apply, lookup_insert_if, Acceptor.IsCurrent]
    · have := hI.timer_lt
      grind
    · grind [hI.timer]
    · have := hI.deadline
      grind [Acceptor.IsCurrent]
    · have := hI.reaping
      grind

theorem acceptOffer {id : ConnId} {portRange : Option (ℕ × ℕ)} (hI : Tables a) :
    Tables (a.acceptOffer config id portRange) := by
  have htask : a.tasks a.offers = none := by
    cases h : a.tasks a.offers with
    | none => rfl
    | some t => exact absurd (hI.task_lt _ _ h) (lt_irrefl _)
  have hpeer : a.peers a.offers = none := by
    cases h : a.peers a.offers with
    | none => rfl
    | some peer => exact absurd (hI.peer_lt _ _ h) (lt_irrefl _)
  have htimer : a.timers a.offers = none := by
    cases h : a.timers a.offers with
    | none => rfl
    | some id' => exact absurd (hI.timer_lt _ _ h) (lt_irrefl _)
  refine armDeadline ?_ (Nat.lt_succ_self _) (by simp [Acceptor.await])
    (AList.lookup_erase id a.deadlines)
  refine { hI with
    task_lt := ?_, peer_lt := ?_, timer_lt := ?_, task := ?_, negotiated := ?_, registered := ?_,
    unbuilt := ?_, built := ?_, absent := ?_, superseded := ?_, replacing := ?_, timer := ?_,
    deadline := ?_, reaping := ?_, halfOpen := ?_, connected := ?_, live := ?_ } <;>
    simp only [Acceptor.await, Acceptor.claimPinnedPort, Acceptor.cancelAnyDeadline,
      Acceptor.cancelNegotiation, Function.update_apply, lookup_insert_if, lookup_erase_if,
      Acceptor.IsCurrent]
  · have := hI.task_lt
    grind
  · intro p peer hp
    obtain ⟨peer', hp', -⟩ := Option.map_eq_some_iff.mp hp
    obtain ⟨peer'', hp'', -⟩ := Option.map_eq_some_iff.mp hp'
    exact (hI.peer_lt p _ hp'').trans (Nat.lt_succ_self _)
  · have := hI.timer_lt
    grind
  · grind [hI.task]
  · intro id' g hg
    rcases eq_or_ne id' id with rfl | hid
    · rw [if_pos rfl] at hg
      exact ⟨.queued, by rw [if_pos (Option.some.inj hg).symm]⟩
    · rw [if_neg hid, if_neg hid] at hg
      obtain ⟨phase, hphase⟩ := hI.negotiated id' g hg
      have hid' : a.negotiating.lookup id ≠ some g := by
        intro hg'
        obtain ⟨phase', hphase'⟩ := hI.negotiated id g hg'
        rw [hphase] at hphase'
        exact hid (Task.mk.inj (Option.some.inj hphase')).1
      have hne : g ≠ a.offers := by
        rintro rfl
        rw [htask] at hphase
        cases hphase
      exact ⟨phase, by rw [if_neg hne, if_neg hid', hphase]⟩
  · exact fun id' p hp => exists_abort (exists_abort (hI.registered id' p hp))
  · simp only [abort_eq_none]
    grind [hI.unbuilt]
  · intro g' id' rest h'
    refine exists_abort (exists_abort (hI.built g' id' rest ?_))
    grind
  · grind [hI.absent]
  · simp only [abort_negotiation_eq_some, abort_deadline_eq_some]
    grind [hI.superseded, hI.task]
  · simp only [abort_negotiation_eq_some, abort_deadline_eq_some]
    grind [hI.replacing]
  · grind [hI.timer]
  · have := hI.deadline
    grind [Acceptor.IsCurrent]
  · simp only [abort_negotiation_eq_some, abort_deadline_eq_some]
    have := hI.reaping
    grind
  · simp (disch := simp) only [abort_negotiation_iff, abort_deadline_iff]
    grind [hI.halfOpen]
  · simp (disch := simp) only [abort_negotiation_iff, abort_deadline_iff]
    grind [hI.connected]
  · simp (disch := simp) only [abort_negotiation_iff, abort_deadline_iff]
    exact hI.live

theorem addIce {id : ConnId} (hI : Tables a) : Tables (a.addIce id) := by
  obtain ⟨pendingIce, added, handed, overflow, h⟩ := a.frame_addIce id
  rw [h]
  exact hI.of_eq rfl rfl rfl rfl rfl rfl rfl rfl

/-- Every step whose close leaves no newer connection registered. -/
theorem next {l : Label} (hI : Tables a) (hspares : a.SparesNewer l)
    (h : WebRtc.next config a l = some a') : Tables a' := by
  cases l with
  | startOffer id portRange =>
    obtain ⟨-, rfl⟩ | ⟨-, rfl⟩ := startOffer_cases h
    · exact hI
    · exact hI.acceptOffer
  | takeAnswer id =>
    cases h
    exact hI.of_eq rfl rfl rfl rfl rfl rfl rfl rfl
  | addIce id =>
    cases h
    exact hI.addIce
  | negotiate g =>
    obtain ⟨id, htask, rfl⟩ := negotiate_eq_some h
    exact hI.negotiate htask
  | created g =>
    obtain ⟨id, htask, rfl⟩ := created_eq_some h
    exact hI.create htask
  | replayed g =>
    obtain ⟨id, rest, htask, rfl⟩ := replayed_eq_some h
    exact hI.replay htask rest
  | raised g =>
    obtain ⟨id, phase, htask, hphase, rfl⟩ := raised_eq_some h
    refine hI.fail htask ?_
    rintro p rfl
    simp at hphase
  | connected p =>
    obtain ⟨id, hpeer, rfl⟩ := connected_eq_some h
    exact hI.opened hpeer
  | lost p =>
    obtain ⟨id, phase, hpeer, hphase, rfl⟩ := lost_eq_some h
    exact hI.closed hpeer hphase
  | close p =>
    obtain ⟨peer, hpeer, -, rfl⟩ := close_eq_some h
    exact hI.close hpeer
  | closeEnded p =>
    obtain ⟨id, closer, hpeer, rfl⟩ := closeEnded_eq_some h
    exact hI.endClose hpeer fun q hq => hspares _ hpeer q hq
  | deadlinePassed g =>
    obtain ⟨id, htimer, hqueued, rfl⟩ := deadlinePassed_eq_some h
    exact hI.enforceDeadline htimer fun htask => hqueued (by rw [htask]; rfl)

end Tables

end ReactorRuntime.WebRtc
