import ReactorRuntime.WebRtc.Equiv.Tables

/-!
# What an offer is built into

Whatever the closes take out of the tables, an offer is built into one connection only
(`Building.next`), and a wire that connected is never half open again (`Later.next`).
-/

namespace ReactorRuntime.WebRtc

open ReactorRuntime.Runtime (ConnId)
open ReactorRuntime.Lists

namespace Acceptor

variable {a a' a'' : Acceptor} {config : WebRtcConfig} {id : ConnId} {g p : Offer}

/-! ### Connections that only fade -/

/-- The negotiations go on as before, and no connection is built or set aside for a new one. -/
structure Fades (a a' : Acceptor) : Prop where
  offers : a'.offers = a.offers
  tasks : a'.tasks = a.tasks
  none : ∀ p, a'.peers p = none ↔ a.peers p = none
  superseded : ∀ p id g, a'.peers p = some ⟨id, .closing (.negotiation g)⟩ →
    a.peers p = some ⟨id, .closing (.negotiation g)⟩

namespace Fades

theorem trans (h : Fades a a') (h' : Fades a' a'') : Fades a a'' where
  offers := h'.offers.trans h.offers
  tasks := h'.tasks.trans h.tasks
  none p := (h'.none p).trans (h.none p)
  superseded p id g hp := h.superseded p id g (h'.superseded p id g hp)

theorem of_eq (hoffers : a'.offers = a.offers) (htasks : a'.tasks = a.tasks)
    (hpeers : a'.peers = a.peers) : Fades a a' := by
  constructor <;> simp only [hoffers, htasks, hpeers]
  · exact fun _ => trivial
  · exact fun _ _ _ h => h

theorem setPhase {phase : PeerPhase} (hphase : ∀ g, phase ≠ .closing (.negotiation g)) :
    Fades a (a.setPhase p phase) := by
  constructor <;> simp only [Acceptor.setPhase, Function.update_apply]
  · intro q
    split_ifs with hq
    · rw [hq, Option.map_eq_none_iff]
    · rfl
  · intro q id g hq
    split_ifs at hq
    · obtain ⟨peer, -, hpeer⟩ := Option.map_eq_some_iff.mp hq
      exact absurd (Peer.mk.inj hpeer).2 (hphase g)
    · exact hq

theorem cancelAnyDeadline (a : Acceptor) (id : ConnId) : Fades a (a.cancelAnyDeadline id) := by
  constructor <;> dsimp only [Acceptor.cancelAnyDeadline]
  · exact fun p => abort_eq_none
  · intro p id' g' hp
    rcases abort_eq_some.mp hp with ⟨hp, -⟩ | ⟨hgone, -⟩
    · exact hp
    · cases hgone

theorem cancelDeadline (a : Acceptor) (id : ConnId) (g : Offer) :
    Fades a (a.cancelDeadline id g) := by
  unfold Acceptor.cancelDeadline
  split_ifs
  · exact cancelAnyDeadline a id
  · exact of_eq rfl rfl rfl

theorem clear (a : Acceptor) (id : ConnId) (g : Offer) : Fades a (a.clear id g) :=
  (cancelDeadline a id g).trans (of_eq rfl rfl rfl)

theorem forget (a : Acceptor) (id : ConnId) (g : Offer) : Fades a (a.forget id g) :=
  (clear a id g).trans (of_eq rfl rfl rfl)

theorem closed : Fades a (a.closed id g) := by
  rw [closed_eq]
  exact (forget a id g).trans (of_eq rfl rfl rfl)

theorem opened : Fades a (a.opened id g) := (cancelDeadline a id g).trans (of_eq rfl rfl rfl)

theorem commandedClose {peer : Peer} : Fades a (commandedClose a p peer) := by
  unfold WebRtc.commandedClose
  have hsink : Fades a { a with sink := eraseValue a.sink peer.id p } := of_eq rfl rfl rfl
  split_ifs
  · exact hsink.trans (setPhase (by simp))
  · exact hsink

theorem reap : Fades a (a.reap id g) := by
  unfold Acceptor.reap
  cases a.conns.lookup id with
  | none => exact of_eq rfl rfl rfl
  | some conn =>
    dsimp only
    split_ifs
    · exact setPhase (by simp)
    · exact of_eq rfl rfl rfl

end Fades

/-! ### What is built -/

structure Building (a : Acceptor) : Prop where
  task_lt : ∀ g t, a.tasks g = some t → g < a.offers
  peer_lt : ∀ p peer, a.peers p = some peer → p < a.offers
  unbuilt : ∀ g id phase, a.tasks g = some ⟨id, phase⟩ → (∀ rest, phase ≠ .replaying rest) →
    a.peers g = none
  replacing : ∀ p id g, a.peers p = some ⟨id, .closing (.negotiation g)⟩ →
    ∃ id', a.tasks g = some ⟨id', .closing p⟩

namespace Building

theorem init : Building {} := by
  constructor <;> simp

theorem fades (hB : a.Building) (h : Fades a a') : a'.Building := by
  constructor <;> simp only [h.tasks, h.offers]
  · exact hB.task_lt
  · intro p peer hp
    cases hp' : a.peers p with
    | none =>
      rw [(h.none p).mpr hp'] at hp
      cases hp
    | some peer' => exact hB.peer_lt p _ hp'
  · exact fun g id phase htask hphase => (h.none g).mpr (hB.unbuilt g id phase htask hphase)
  · exact fun p id g hp => hB.replacing p id g (h.superseded p id g hp)

theorem await {phase : Negotiation} (hB : a.Building) (hlt : g < a.offers)
    (hnone : (∀ rest, phase ≠ .replaying rest) → a.peers g = none)
    (hclosing : ∀ p id, a.peers p ≠ some ⟨id, .closing (.negotiation g)⟩) :
    (a.await g id phase).Building := by
  refine { hB with task_lt := ?_, unbuilt := ?_, replacing := ?_ } <;>
    simp only [Acceptor.await, Function.update_apply]
  · have := hB.task_lt
    grind
  · grind [hB.unbuilt]
  · grind [hB.replacing]

theorem not_superseded {phase : Negotiation} (hB : a.Building) (h : a.tasks g = some ⟨id, phase⟩)
    (hphase : ∀ p, phase ≠ .closing p) (p : Offer) (id' : ConnId) :
    a.peers p ≠ some ⟨id', .closing (.negotiation g)⟩ := by
  intro hp
  obtain ⟨id'', htask⟩ := hB.replacing p id' g hp
  rw [h] at htask
  exact hphase p (Task.mk.inj (Option.some.inj htask)).2

theorem endTask {phase : Negotiation} (hB : a.Building) (h : a.tasks g = some ⟨id, phase⟩)
    (hphase : ∀ p, phase ≠ .closing p) : (a.endTask g id).Building := by
  have hclosing := hB.not_superseded h hphase
  refine { hB with task_lt := ?_, unbuilt := ?_, replacing := ?_ } <;>
    simp only [Acceptor.endTask, Function.update_apply]
  · have := hB.task_lt
    grind
  · grind [hB.unbuilt]
  · grind [hB.replacing]

theorem negotiate (hB : a.Building) (h : a.tasks g = some ⟨id, .queued⟩) :
    (a.negotiate g id).Building := by
  have hlt := hB.task_lt g _ h
  have hnone := hB.unbuilt g id _ h (by simp)
  have hclosing := hB.not_superseded h (by simp)
  unfold Acceptor.negotiate
  cases hp : a.conns.lookup id with
  | none => exact hB.await hlt (fun _ => hnone) hclosing
  | some previous =>
    have hleave : Acceptor.Building { a with
        conns := a.conns.erase id, live := a.live.erase id } := hB.fades (.of_eq rfl rfl rfl)
    dsimp only
    split_ifs with halive
    · have hpeer : ∃ id' phase, a.peers previous = some ⟨id', phase⟩ := by
        obtain ⟨peer, hpeer, -⟩ := (Option.any_eq_true ..).mp halive
        exact ⟨peer.id, peer.phase, hpeer⟩
      obtain ⟨id', phase, hpeer⟩ := hpeer
      simp only [Acceptor.setPhase, hpeer, Option.map_some]
      refine { hB with
        task_lt := ?_, peer_lt := ?_, unbuilt := ?_, replacing := ?_ } <;>
        simp only [Acceptor.await, Function.update_apply]
      · have := hB.task_lt
        grind
      · have := hB.peer_lt
        grind
      · grind [hB.unbuilt]
      · intro q id'' g' hq
        by_cases hprevious : q = previous
        · rw [if_pos hprevious] at hq
          obtain ⟨-, hphase⟩ := Peer.mk.inj (Option.some.inj hq)
          obtain rfl := Closer.negotiation.inj (PeerPhase.closing.inj hphase)
          exact ⟨id, by rw [if_pos rfl, hprevious]⟩
        · rw [if_neg hprevious] at hq
          obtain ⟨id₀, htask⟩ := hB.replacing q id'' g' hq
          refine ⟨id₀, ?_⟩
          rw [if_neg, htask]
          rintro rfl
          exact hclosing q id'' hq
    · exact hleave.await hlt (fun _ => hnone) hclosing

theorem replay {rest : List Candidate} (hB : a.Building) (h : a.tasks g = some ⟨id, .replaying rest⟩)
    (cs : List Candidate) : (a.replay g id cs).Building := by
  cases cs with
  | nil => exact (hB.endTask h (by simp)).fades (.of_eq rfl rfl rfl)
  | cons c cs =>
    refine (hB.fades ?_).await (hB.task_lt g _ h) (fun hrest => absurd rfl (hrest cs))
      (hB.not_superseded h (by simp))
    exact .of_eq rfl rfl rfl

theorem register (hB : a.Building) (h : a.tasks g = some ⟨id, .creating⟩) :
    (a.register g id).Building := by
  have hlt := hB.task_lt g _ h
  have hclosing := hB.not_superseded h (by simp)
  refine { hB with task_lt := ?_, peer_lt := ?_, unbuilt := ?_, replacing := ?_ } <;>
    simp only [Acceptor.register, Acceptor.await, Function.update_apply]
  · have := hB.task_lt
    grind
  · have := hB.peer_lt
    grind
  · grind [hB.unbuilt]
  · grind [hB.replacing]

theorem create (hB : a.Building) (h : a.tasks g = some ⟨id, .creating⟩) :
    (a.create g id).Building := by
  rw [create_eq]
  exact (hB.register h).replay tasks_register _

theorem fail {phase : Negotiation} (hB : a.Building) (h : a.tasks g = some ⟨id, phase⟩)
    (hphase : phase = .creating ∨ ∃ rest, phase = .replaying rest) : (a.fail g id).Building := by
  have hdrop : Fades a (a.dropOffer id g) := .of_eq rfl rfl rfl
  have hrelease (b : Acceptor) : Fades b (b.releasePinnedPort id g) := .of_eq rfl rfl rfl
  have hfades := (hdrop.trans (.cancelDeadline _ id g)).trans (hrelease _)
  have htask := h
  rw [← hfades.tasks] at htask
  refine (hB.fades hfades).endTask htask ?_
  · rintro p rfl
    simp at hphase

theorem endClose {closer : Closer} (hB : a.Building) (h : a.peers p = some ⟨id, .closing closer⟩) :
    (a.endClose p id closer).Building := by
  have hphase : Fades a (a.setPhase p .gone) := .setPhase (by simp)
  have hforget : Fades (a.setPhase p .gone) ((a.setPhase p .gone).forget id p) := .forget _ _ _
  have hgone := hB.fades (hphase.trans hforget)
  cases closer with
  | owner => exact hgone
  | deadline g => exact hgone.fades (.of_eq rfl rfl rfl)
  | negotiation g =>
    obtain ⟨id', htask⟩ := hB.replacing p id g h
    have htask' : ((a.setPhase p .gone).forget id p).tasks g = some ⟨id', .closing p⟩ := by
      rw [hforget.tasks, hphase.tasks, htask]
    refine hgone.await (hgone.task_lt g _ htask') (fun _ => hgone.unbuilt g id' _ htask' (by simp))
      fun q id'' hq => ?_
    -- the negotiation closed one connection, and that is gone
    obtain ⟨_, hq'⟩ := hgone.replacing q id'' g hq
    rw [htask'] at hq'
    obtain rfl := Negotiation.closing.inj (Task.mk.inj (Option.some.inj hq')).2
    have hq := hforget.superseded p id'' g hq
    simp [Acceptor.setPhase, h] at hq

theorem cancelNegotiation (hB : a.Building) (id : ConnId) : (a.cancelNegotiation id).Building := by
  constructor <;> simp only [Acceptor.cancelNegotiation]
  · have := hB.task_lt
    grind
  · intro p peer hp
    obtain ⟨peer', hp', -⟩ := Option.map_eq_some_iff.mp hp
    exact hB.peer_lt p _ hp'
  · simp only [abort_eq_none]
    grind [hB.unbuilt]
  · simp only [abort_negotiation_eq_some]
    grind [hB.replacing]

theorem acceptOffer {portRange : Option (ℕ × ℕ)} (hB : a.Building) :
    (a.acceptOffer config id portRange).Building := by
  have hcancel := (hB.cancelNegotiation id).fades (Fades.cancelAnyDeadline _ id)
  generalize hb : (a.cancelNegotiation id).cancelAnyDeadline id = b at hcancel
  have hoffers : b.offers = a.offers := by rw [← hb]; rfl
  have hmore : Acceptor.Building { b with offers := b.offers + 1 } :=
    { hcancel with
      task_lt := fun g t h => (hcancel.task_lt g t h).trans (Nat.lt_succ_self _)
      peer_lt := fun p peer h => (hcancel.peer_lt p peer h).trans (Nat.lt_succ_self _) }
  have hnone : b.peers b.offers = none := by
    cases h : b.peers b.offers with
    | none => rfl
    | some peer => exact absurd (hcancel.peer_lt _ _ h) (lt_irrefl _)
  have hnew : Acceptor.Building ({ b with offers := b.offers + 1 }.await b.offers id .queued) := by
    refine hmore.await (Nat.lt_succ_self _) (fun _ => hnone) fun p id' hp => ?_
    obtain ⟨_, htask⟩ := hcancel.replacing p id' _ hp
    exact absurd (hcancel.task_lt _ _ htask) (lt_irrefl _)
  refine hnew.fades ?_
  unfold Acceptor.acceptOffer
  rw [armDeadline_eq, ← hb]
  exact .of_eq rfl rfl rfl

theorem enforceDeadline (hB : a.Building) : (a.enforceDeadline id g).Building := by
  have hwake : Fades a { a with timers := Function.update a.timers g none } := .of_eq rfl rfl rfl
  unfold Acceptor.enforceDeadline
  dsimp only
  split_ifs
  · exact (hB.fades hwake).fades (.of_eq rfl rfl rfl)
  · exact ((hB.fades hwake).cancelNegotiation id).fades .reap

theorem next {l : Label} (hB : a.Building) (h : WebRtc.next config a l = some a') :
    a'.Building := by
  cases l with
  | startOffer id portRange =>
    obtain ⟨-, rfl⟩ | ⟨-, rfl⟩ := startOffer_cases h
    · exact hB
    · exact hB.acceptOffer
  | takeAnswer id =>
    cases h
    exact hB.fades (.of_eq rfl rfl rfl)
  | addIce id =>
    cases h
    obtain ⟨_, _, _, _, hframe⟩ := frame_addIce a id
    rw [hframe]
    exact hB.fades (.of_eq rfl rfl rfl)
  | negotiate g =>
    obtain ⟨id, htask, rfl⟩ := negotiate_eq_some h
    exact hB.negotiate htask
  | created g =>
    obtain ⟨id, htask, rfl⟩ := created_eq_some h
    exact hB.create htask
  | replayed g =>
    obtain ⟨id, rest, htask, rfl⟩ := replayed_eq_some h
    exact hB.replay htask rest
  | raised g =>
    obtain ⟨id, phase, htask, hphase, rfl⟩ := raised_eq_some h
    exact hB.fail htask hphase
  | connected p =>
    obtain ⟨id, hpeer, rfl⟩ := connected_eq_some h
    exact hB.fades ((Fades.setPhase (by simp)).trans .opened)
  | lost p =>
    obtain ⟨id, phase, hpeer, hphase, rfl⟩ := lost_eq_some h
    exact hB.fades ((Fades.setPhase (by simp)).trans .closed)
  | close p =>
    obtain ⟨peer, hpeer, -, rfl⟩ := close_eq_some h
    exact hB.fades .commandedClose
  | closeEnded p =>
    obtain ⟨id, closer, hpeer, rfl⟩ := closeEnded_eq_some h
    exact hB.endClose hpeer
  | deadlinePassed g =>
    obtain ⟨id, htimer, -, rfl⟩ := deadlinePassed_eq_some h
    exact hB.enforceDeadline

end Building

/-! ### Wires that have not connected -/

/-- The wire of an offer has not connected. -/
def Unopened (a : Acceptor) (p : Offer) : Prop :=
  ∀ peer, a.peers p = some peer → peer.phase = .halfOpen

/-- No offer and no wire is taken back. -/
structure Later (a a' : Acceptor) : Prop where
  offers : a.offers ≤ a'.offers
  unopened : ∀ p, a'.Unopened p → a.Unopened p

namespace Later

theorem trans (h : Later a a') (h' : Later a' a'') : Later a a'' :=
  ⟨h.offers.trans h'.offers, fun p hp => h.unopened p (h'.unopened p hp)⟩

theorem of_eq (hoffers : a.offers ≤ a'.offers) (hpeers : a'.peers = a.peers) : Later a a' := by
  refine ⟨hoffers, fun p hp => ?_⟩
  rwa [Unopened, hpeers] at hp

theorem setPhase {phase : PeerPhase} (hphase : phase ≠ .halfOpen) :
    Later a (a.setPhase p phase) := by
  refine ⟨le_rfl, fun q hq peer hpeer => ?_⟩
  by_cases hqp : q = p
  · subst hqp
    exact absurd (hq { peer with phase } (by simp [Acceptor.setPhase, hpeer])) hphase
  · exact hq peer (by simpa [Acceptor.setPhase, hqp] using hpeer)

theorem abort {cancelled : Option Closer} (hoffers : a.offers ≤ a'.offers)
    (hpeers : a'.peers = fun p => (a.peers p).map (Peer.abort cancelled)) : Later a a' := by
  refine ⟨hoffers, fun p hp peer hpeer => ?_⟩
  have hphase := hp (peer.abort cancelled) (by simp [hpeers, hpeer])
  unfold Peer.abort at hphase
  split_ifs at hphase
  exact hphase

theorem cancelDeadline (a : Acceptor) (id : ConnId) (g : Offer) :
    Later a (a.cancelDeadline id g) := by
  rw [cancelDeadline_eq]
  exact abort le_rfl rfl

theorem forget (a : Acceptor) (id : ConnId) (g : Offer) : Later a (a.forget id g) :=
  (cancelDeadline a id g).trans (of_eq le_rfl rfl)

theorem closed : Later a (a.closed id g) := by
  rw [closed_eq]
  exact (forget a id g).trans (of_eq le_rfl rfl)

theorem opened : Later a (a.opened id g) := (cancelDeadline a id g).trans (of_eq le_rfl rfl)

theorem replay (cs : List Candidate) : Later a (a.replay g id cs) := by
  cases cs <;> exact of_eq le_rfl rfl

theorem negotiate : Later a (a.negotiate g id) := by
  unfold Acceptor.negotiate
  cases a.conns.lookup id with
  | none => exact of_eq le_rfl rfl
  | some previous =>
    have hleave : Later a { a with conns := a.conns.erase id, live := a.live.erase id } := of_eq le_rfl rfl
    dsimp only
    split_ifs
    · exact (hleave.trans (setPhase (by simp))).trans (of_eq le_rfl rfl)
    · exact of_eq le_rfl rfl

theorem create (hnone : a.peers g = none) : Later a (a.create g id) := by
  have hregister : Later a (a.register g id) := by
    refine ⟨le_rfl, fun p hp peer hpeer => ?_⟩
    have hne : p ≠ g := by
      rintro rfl
      rw [hnone] at hpeer
      cases hpeer
    exact hp peer (by simp [register, Acceptor.await, hne, hpeer])
  rw [create_eq]
  exact hregister.trans (replay _)

theorem fail : Later a (a.fail g id) := by
  have hdrop : Later a (a.dropOffer id g) := of_eq le_rfl rfl
  exact (hdrop.trans (cancelDeadline _ id g)).trans (of_eq le_rfl rfl)

theorem endClose {closer : Closer} : Later a (a.endClose p id closer) := by
  have hforget : Later a ((a.setPhase p .gone).forget id p) :=
    (setPhase (by simp)).trans (forget _ id p)
  cases closer with
  | owner => exact hforget
  | deadline g => exact hforget.trans (of_eq le_rfl rfl)
  | negotiation g => exact hforget.trans (of_eq le_rfl rfl)

theorem commandedClose {peer : Peer} : Later a (commandedClose a p peer) := by
  have hsink : Later a { a with sink := eraseValue a.sink peer.id p } := of_eq le_rfl rfl
  unfold WebRtc.commandedClose
  split_ifs
  · exact hsink.trans (setPhase (by simp))
  · exact hsink

theorem cancelNegotiation (a : Acceptor) (id : ConnId) : Later a (a.cancelNegotiation id) :=
  abort le_rfl rfl

theorem cancelAnyDeadline (a : Acceptor) (id : ConnId) : Later a (a.cancelAnyDeadline id) :=
  abort le_rfl rfl

theorem acceptOffer {portRange : Option (ℕ × ℕ)} : Later a (a.acceptOffer config id portRange) := by
  have hcancel := (cancelNegotiation a id).trans (cancelAnyDeadline _ id)
  unfold Acceptor.acceptOffer
  rw [armDeadline_eq]
  exact hcancel.trans (of_eq (Nat.le_succ _) rfl)

theorem reap : Later a (a.reap id g) := by
  unfold Acceptor.reap
  split
  · split_ifs
    · exact setPhase (by simp)
    · exact of_eq le_rfl rfl
  · exact of_eq le_rfl rfl

theorem enforceDeadline : Later a (a.enforceDeadline id g) := by
  have hwake : Later a { a with timers := Function.update a.timers g none } := of_eq le_rfl rfl
  unfold Acceptor.enforceDeadline
  dsimp only
  split_ifs
  · exact hwake.trans (of_eq le_rfl rfl)
  · exact (hwake.trans (cancelNegotiation _ id)).trans reap

theorem next {l : Label} (hB : a.Building) (h : WebRtc.next config a l = some a') : Later a a' := by
  cases l with
  | startOffer id portRange =>
    obtain ⟨-, rfl⟩ | ⟨-, rfl⟩ := startOffer_cases h
    · exact of_eq le_rfl rfl
    · exact acceptOffer
  | takeAnswer id =>
    cases h
    exact of_eq le_rfl rfl
  | addIce id =>
    cases h
    obtain ⟨_, _, _, _, hframe⟩ := frame_addIce a id
    rw [hframe]
    exact of_eq le_rfl rfl
  | negotiate g =>
    obtain ⟨id, htask, rfl⟩ := negotiate_eq_some h
    exact negotiate
  | created g =>
    obtain ⟨id, htask, rfl⟩ := created_eq_some h
    exact create (hB.unbuilt g id _ htask (by simp))
  | replayed g =>
    obtain ⟨id, rest, htask, rfl⟩ := replayed_eq_some h
    exact replay rest
  | raised g =>
    obtain ⟨id, phase, htask, hphase, rfl⟩ := raised_eq_some h
    exact fail
  | connected p =>
    obtain ⟨id, hpeer, rfl⟩ := connected_eq_some h
    exact (setPhase (by simp)).trans opened
  | lost p =>
    obtain ⟨id, phase, hpeer, hphase, rfl⟩ := lost_eq_some h
    exact (setPhase (by simp)).trans closed
  | close p =>
    obtain ⟨peer, hpeer, -, rfl⟩ := close_eq_some h
    exact commandedClose
  | closeEnded p =>
    obtain ⟨id, closer, hpeer, rfl⟩ := closeEnded_eq_some h
    exact endClose
  | deadlinePassed g =>
    obtain ⟨id, htimer, -, rfl⟩ := deadlinePassed_eq_some h
    exact enforceDeadline

end Later

end Acceptor

end ReactorRuntime.WebRtc
