import ReactorRuntime.WebRtc.Admission
import ReactorRuntime.WebRtc.Equiv.Building
import ReactorRuntime.Runtime.Equiv.Epochs

/-!
# The sessions that wires join

A wire registers in the session that its own offer was admitted in (`joined_own`), in a run in which
no wire connects once a newer offer of its id was stamped: the stamp is kept by id and is taken by
whichever wire of the id connects first.
-/

namespace ReactorRuntime.WebRtc

open ReactorRuntime.Runtime (ConnId Runner OfferEpochs)
open ReactorRuntime.Lists

namespace Router

variable {recording : Bool} {config : WebRtcConfig} {s s' : Router} {id : ConnId} {p : Offer}

theorem startOffer_eq_ok {a a' : Acceptor} {portRange : Option (ℕ × ℕ)}
    (h : a.startOffer config id portRange = .ok a') : a.acceptOffer config id portRange = a' := by
  unfold Acceptor.startOffer at h
  split at h
  · cases h
  · cases h
  · exact Except.ok.inj h

theorem offers_acceptOffer {a : Acceptor} {portRange : Option (ℕ × ℕ)} :
    (a.acceptOffer config id portRange).offers = a.offers + 1 := by
  unfold Acceptor.acceptOffer
  rw [Acceptor.armDeadline_eq]
  rfl

/-- A wire connects only while its offer is the last one that was stamped on its id. -/
def OwnStamp (s : Router) : Router.Label → Prop
  | .connected p => ∀ peer ∈ s.acceptor.peers p, s.stampedFor.lookup peer.id = some (some p)
  | _ => True

instance (l : Router.Label) : Decidable (s.OwnStamp l) := by
  unfold OwnStamp
  cases l <;> infer_instance

/-- Every wire registered in the session that its offer was admitted in. -/
def JoinedOwn (s : Router) : Prop :=
  ∀ p session, (p, session) ∈ s.joined → session ≠ none ∧ s.admittedIn p = session

/-- What the stamps say while their wires have not connected. -/
structure Stamped (s : Router) : Prop where
  building : s.acceptor.Building
  created : s.runner.machine.state = .created → s.stampedFor = ∅
  stamped_lt : ∀ id p, s.stampedFor.lookup id = some (some p) → p < s.acceptor.offers
  stamped : ∀ id p, s.stampedFor.lookup id = some (some p) → s.acceptor.Unopened p →
    ∃ session, s.runner.offerEpochs.stamps.lookup id = some session ∧ s.admittedIn p = some session
  joined_lt : ∀ p session, (p, session) ∈ s.joined → p < s.acceptor.offers
  joined : s.JoinedOwn

namespace Stamped

theorem init : Stamped {} where
  building := .init
  created _ := rfl
  stamped_lt id p h := by simp at h
  stamped id p h := by simp at h
  joined_lt p session h := by simp at h
  joined p session h := by simp at h

theorem accept {acceptor : Acceptor} (hS : s.Stamped) (hbuilding : acceptor.Building)
    (hlater : Acceptor.Later s.acceptor acceptor) : Router.Stamped { s with acceptor } where
  building := hbuilding
  created := hS.created
  stamped_lt id p h := (hS.stamped_lt id p h).trans_le hlater.offers
  stamped id p h hp := hS.stamped id p h (hlater.unopened p hp)
  joined_lt p session h := (hS.joined_lt p session h).trans_le hlater.offers
  joined := hS.joined

theorem run {runner : Runner} (hS : s.Stamped)
    (hstamps : runner.offerEpochs.stamps = s.runner.offerEpochs.stamps)
    (hcreated : runner.machine.state = .created → s.runner.machine.state = .created) :
    Router.Stamped { s with runner } where
  building := hS.building
  created h := hS.created (hcreated h)
  stamped_lt := hS.stamped_lt
  stamped id p h hp := by
    dsimp only
    rw [hstamps]
    exact hS.stamped id p h hp
  joined_lt := hS.joined_lt
  joined := hS.joined

theorem refuse (hS : s.Stamped) (hrunning : s.runner.machine.state.isRunning = true) :
    Router.Stamped { s.offerAdmitted id with stampedFor := s.stampedFor.insert id none } where
  building := hS.building
  created h := by
    rw [show s.runner.machine.state = .created from h] at hrunning
    cases hrunning
  stamped_lt id' p h := by
    rw [lookup_insert_if] at h
    split_ifs at h
    · cases h
    · exact hS.stamped_lt id' p h
  stamped id' p h hp := by
    rw [lookup_insert_if] at h
    split_ifs at h with hid
    · cases h
    · obtain ⟨session, hsession, hadmitted⟩ := hS.stamped id' p h hp
      exact ⟨session, by rw [← hsession]; exact AList.lookup_insert_ne hid, hadmitted⟩
  joined_lt := hS.joined_lt
  joined := hS.joined

theorem admitOffer {acceptor : Acceptor} (hS : s.Stamped)
    (hrunning : s.runner.machine.state.isRunning = true) (hbuilding : acceptor.Building)
    (hlater : Acceptor.Later s.acceptor acceptor) (hnew : s.acceptor.offers < acceptor.offers) :
    Router.Stamped { s.offerAdmitted id with
      acceptor
      admittedIn := Function.update s.admittedIn s.acceptor.offers (s.offerAdmitted id).liveSession
      stampedFor := s.stampedFor.insert id (some s.acceptor.offers) } where
  building := hbuilding
  created h := by
    rw [show s.runner.machine.state = .created from h] at hrunning
    cases hrunning
  stamped_lt id' p h := by
    rw [lookup_insert_if] at h
    split_ifs at h
    · rw [← Option.some.inj (Option.some.inj h)]
      exact hnew
    · exact (hS.stamped_lt id' p h).trans_le hlater.offers
  stamped id' p h hp := by
    rw [lookup_insert_if] at h
    split_ifs at h with hid
    · obtain rfl := Option.some.inj (Option.some.inj h)
      refine ⟨s.runner.offerEpochs.current, ?_, ?_⟩
      · rw [hid]
        exact AList.lookup_insert _
      · exact (Function.update_self ..).trans (if_pos hrunning)
    · obtain ⟨session, hsession, hadmitted⟩ := hS.stamped id' p h (hlater.unopened p hp)
      refine ⟨session, ?_, ?_⟩
      · rw [← hsession]
        exact AList.lookup_insert_ne hid
      · exact (Function.update_of_ne (hS.stamped_lt id' p h).ne ..).trans hadmitted
  joined_lt p session h := (hS.joined_lt p session h).trans hnew
  joined p session h := by
    obtain ⟨hsession, hadmitted⟩ := hS.joined p session h
    exact ⟨hsession, (Function.update_of_ne (hS.joined_lt p session h).ne ..).trans hadmitted⟩

/-- A wire that connects with the stamp of its own offer registers in the session of that offer, or
is refused. -/
theorem connect {acceptor : Acceptor} (hS : s.Stamped) (hbuilding : acceptor.Building)
    (hlater : Acceptor.Later s.acceptor acceptor) (hpeer : s.acceptor.peers p = some ⟨id, .halfOpen⟩)
    (hopened : ¬ acceptor.Unopened p) (hown : s.stampedFor.lookup id = some (some p)) :
    (s.connect recording p id acceptor).Stamped := by
  have hframed := Runner.framed_connectionOpened recording s.runner { id, wire := p }
  have hunopened : s.acceptor.Unopened p := by
    intro peer h
    rw [hpeer] at h
    rw [← Option.some.inj h]
  obtain ⟨session, hsession, hadmitted⟩ := hS.stamped id p hown hunopened
  have hcreated : s.runner.machine.state ≠ .created := by
    intro h
    rw [hS.created h] at hown
    cases hown
  have hjoined : ∀ {q live}, (q, live) ∈ (s.connect recording p id acceptor).joined →
      (q, live) ∈ s.joined ∨ s.refuses id = false ∧ q = p ∧ live = s.liveSession := by
    intro q live h
    dsimp only [Router.connect] at h
    split_ifs at h with hrefuses
    · exact .inl h
    · rcases List.mem_append.mp h with h | h
      · exact .inl h
      · obtain ⟨rfl, rfl⟩ := Prod.mk.inj (List.mem_singleton.mp h)
        exact .inr ⟨by simpa using hrefuses, rfl, rfl⟩
  refine { building := hbuilding, created := ?_, stamped_lt := ?_, stamped := ?_, joined_lt := ?_,
           joined := ?_ }
  · exact fun h => absurd (hframed.created h) hcreated
  · exact fun id' q h => (hS.stamped_lt id' q h).trans_le hlater.offers
  · intro id' q h hq
    have hne : q ≠ p := by
      rintro rfl
      exact hopened hq
    have hid : id' ≠ id := by
      rintro rfl
      have h : s.stampedFor.lookup id' = some (some q) := h
      rw [hown] at h
      exact hne (Option.some.inj (Option.some.inj h)).symm
    obtain ⟨session', hsession', hadmitted'⟩ := hS.stamped id' q h (hlater.unopened q hq)
    refine ⟨session', ?_, hadmitted'⟩
    show (s.runner.connectionOpened recording _).offerEpochs.stamps.lookup id' = _
    rw [hframed.offerEpochs, ← hsession']
    exact AList.lookup_erase_ne hid
  · intro q live h
    rcases hjoined h with h | ⟨-, rfl, -⟩
    · exact (hS.joined_lt q live h).trans_le hlater.offers
    · exact (hS.stamped_lt id q hown).trans_le hlater.offers
  · intro q live h
    rcases hjoined h with h | ⟨hrefuses, rfl, rfl⟩
    · exact hS.joined q live h
    · rw [refuses, Bool.or_eq_false_iff] at hrefuses
      have hlive : s.liveSession = some s.runner.offerEpochs.current :=
        if_pos (Runtime.isRunning_of_not_stale hrefuses.1 hcreated)
      have hcurrent : session = s.runner.offerEpochs.current := by
        simpa [OfferEpochs.stale, hsession] using hrefuses.2
      refine ⟨by simp [hlive], ?_⟩
      rw [hlive, ← hcurrent]
      exact hadmitted

/-- A wire that connects is one whose stamp is taken, and one that is not half open any more. -/
theorem next {l : Router.Label} (hS : s.Stamped) (hown : s.OwnStamp l)
    (h : Router.next recording config s l = some s') : s'.Stamped := by
  cases l with
  | runner l =>
    simp only [Router.next] at h
    split_ifs at h with hwire
    obtain ⟨runner, hrunner, rfl⟩ := Option.map_eq_some_iff.mp h
    rcases Runner.framed_next hrunner (by rintro connId rfl; simp [isWire] at hwire)
      (by rintro conn rfl; simp [isWire] at hwire) with hframed | hframed
    · exact hS.run (by rw [hframed.offerEpochs]) hframed.created
    · exact hS.run (by rw [hframed.offerEpochs]; rfl) hframed.created
  | acceptor l =>
    simp only [Router.next] at h
    split_ifs at h
    obtain ⟨acceptor, hacceptor, rfl⟩ := Option.map_eq_some_iff.mp h
    exact hS.accept (hS.building.next hacceptor) (Acceptor.Later.next hS.building hacceptor)
  | offer id portRange =>
    simp only [Router.next] at h
    split_ifs at h with hrunning
    cases h
    unfold Router.offer
    dsimp only
    split
    · exact hS.refuse hrunning
    next acceptor hoffer =>
      obtain rfl := startOffer_eq_ok hoffer
      exact hS.admitOffer hrunning hS.building.acceptOffer .acceptOffer
        (by rw [offers_acceptOffer]; exact Nat.lt_succ_self _)
  | connected p =>
    simp only [Router.next] at h
    split at h
    next id phase hpeer =>
      obtain ⟨acceptor, hacceptor, rfl⟩ := Option.map_eq_some_iff.mp h
      have hlater := Acceptor.Later.next hS.building hacceptor
      have hbuilding := hS.building.next hacceptor
      obtain ⟨id', hhalfOpen, rfl⟩ := connected_eq_some hacceptor
      obtain ⟨rfl, rfl⟩ := Peer.mk.inj (Option.some.inj (hpeer.symm.trans hhalfOpen))
      refine hS.connect hbuilding hlater hpeer (fun hunopened => ?_) (hown _ hpeer)
      have hphase := Acceptor.Later.opened.unopened p hunopened ⟨id, .connected⟩
        (by simp [Acceptor.setPhase, hpeer])
      cases hphase
    · cases h
  | lost p =>
    simp only [Router.next] at h
    split at h
    next id phase hpeer =>
      obtain ⟨acceptor, hacceptor, rfl⟩ := Option.map_eq_some_iff.mp h
      have haccept := hS.accept (hS.building.next hacceptor)
        (Acceptor.Later.next hS.building hacceptor)
      have hdrop : Runner.Framed s.runner (s.runner.drop recording id) := Runner.framed_drop s.runner id
      unfold Router.lose
      split_ifs
      · exact haccept.run (by rw [hdrop.offerEpochs]) hdrop.created
      · exact haccept
    · cases h

end Stamped

end Router

/-! ### The sessions joined -/

/-- **Admission**: a wire registers in the session in which its own offer was admitted. -/
theorem joined_own (recording : Bool) (config : WebRtcConfig) {ls : List Router.Label} {s : Router}
    (hall : (router recording config).AllSteps Router.OwnStamp ls)
    (hrun : (router recording config).run ls = some s) : s.JoinedOwn :=
  (TransitionSystem.AllSteps.invariant (I := Router.Stamped) .init
    (fun _ _ _ hS hown h => hS.next hown h) hall hrun).joined

def firstSession : List Router.Label :=
  [.runner (.initialized true), .runner (.startSession {} { uuid := "a" }), .offer 1 none,
   .acceptor (.negotiate 0), .acceptor (.created 0)]

theorem joined_own_first :
    (((router false twoSlots).run (firstSession ++ [.connected 0])).get
      (by decide +kernel)).JoinedOwn :=
  joined_own false twoSlots (by decide +kernel) (Option.some_get (by decide +kernel)).symm

/-- A session ends with a wire half open, and the client offers again on its id in the next one. -/
def lateWire : List Router.Label :=
  firstSession ++
    [.runner (.stopSession .stopped ""), .runner (.teardown 0), .runner (.teardown 0),
     .runner (.startSession {} { uuid := "b" }), .offer 1 none, .connected 0]

theorem not_joined_own : ¬ ∀ recording config ls s,
    (router recording config).run ls = some s → s.JoinedOwn := by
  intro h
  have hjoined := h false twoSlots lateWire _ (Option.some_get (by decide +kernel)).symm 0 (some 2)
    (by decide +kernel)
  exact absurd hjoined.2 (by decide +kernel)

end ReactorRuntime.WebRtc
