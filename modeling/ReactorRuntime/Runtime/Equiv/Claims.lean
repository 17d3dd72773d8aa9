import ReactorRuntime.Runtime.Claims
import ReactorRuntime.Runtime.Equiv.Dispatch
import ReactorRuntime.Lists.Table

/-!
# The claims on connection ids: who holds an id, and what a late failure changes

What the calls of the transports granted, and what they released since the claims were last cleared,
is what the table of claims says (`Agrees`).  So an id has one holder, a minted id has none, and a
release takes no other transport's claim.

The report of a failure looks at the holder of the id and at the id's stamp, and at no connection:
it is without effect on the journal and on the live session's stamps unless the holder is its
transport and the stamp is not of an earlier session (`Mistaken`).
-/

namespace ReactorRuntime.Runtime

open Lists

/-! ### The table -/

namespace Claims

variable {c : Claims} {id : ConnId} {transport : String}

theorem newConnId_eq_some {draws : List ConnId} {c' : Claims}
    (h : c.newConnId transport draws = some (id, c')) :
    c.claimHolder id = none ∧ id ∉ RESERVED_IDS ∧
      c' = { holders := c.holders.insert id transport } := by
  obtain ⟨id', hfind, hpair⟩ := Option.map_eq_some_iff.mp h
  obtain ⟨rfl, rfl⟩ := Prod.mk.inj hpair
  have hfree := List.find?_some hfind
  rw [decide_eq_true_iff] at hfree
  exact ⟨AList.lookup_eq_none.mpr hfree.1, hfree.2, rfl⟩

theorem claimConnId_eq_some {new : Bool} {c' : Claims}
    (h : c.claimConnId id transport = some (new, c')) : id ∉ RESERVED_IDS ∧
      ((c.claimHolder id = none ∧ c' = { holders := c.holders.insert id transport }) ∨
        (c.claimHolder id = some transport ∧ c' = c)) := by
  unfold claimConnId at h
  by_cases hreserved : id ∈ RESERVED_IDS
  · rw [if_pos hreserved] at h
    cases h
  refine ⟨hreserved, ?_⟩
  rw [if_neg hreserved] at h
  cases hholder : c.holders.lookup id with
  | none =>
    rw [hholder] at h
    obtain ⟨-, rfl⟩ := Prod.mk.inj (Option.some.inj h)
    exact Or.inl ⟨hholder, rfl⟩
  | some holder =>
    rw [hholder] at h
    dsimp only at h
    by_cases hother : holder ≠ transport
    · rw [if_pos hother] at h
      cases h
    · rw [if_neg hother] at h
      obtain rfl := not_not.mp hother
      obtain ⟨-, rfl⟩ := Prod.mk.inj (Option.some.inj h)
      exact Or.inr ⟨hholder, rfl⟩

theorem claimHolder_insert (c : Claims) (id id' : ConnId) (transport : String) :
    Claims.claimHolder { holders := c.holders.insert id transport } id' =
      if id' = id then some transport else c.claimHolder id' :=
  lookup_insert_if

theorem claimHolder_releaseConnId (hreserved : ∀ id ∈ RESERVED_IDS, c.claimHolder id = none)
    (id id' : ConnId) : (c.releaseConnId id transport).claimHolder id' =
      if id' = id ∧ c.claimHolder id = some transport then none else c.claimHolder id' := by
  unfold releaseConnId
  by_cases hheld : c.claimHolder id = some transport
  · have hfree : id ∉ RESERVED_IDS := by
      intro hmem
      rw [hreserved id hmem] at hheld
      cases hheld
    rw [if_pos ⟨hfree, hheld⟩]
    simp only [hheld, and_true]
    exact lookup_erase_if
  · rw [if_neg fun h => hheld h.2, if_neg fun h => hheld h.2]

end Claims

/-! ### The claims of a run -/

namespace Control

variable {recording : Bool} {c c' : Control}

/-- The table of claims says what was granted and not released, and the reserved ids are free. -/
structure Agrees (c : Control) : Prop where
  granted : ∀ id transport, (id, transport) ∈ c.granted ↔ c.claims.claimHolder id = some transport
  reserved : ∀ id ∈ RESERVED_IDS, c.claims.claimHolder id = none

theorem Agrees.of_eq (h : Agrees c) (hclaims : c'.claims = c.claims)
    (hgranted : c'.granted = c.granted) : Agrees c' := by
  constructor
  · rw [hclaims, hgranted]
    exact h.granted
  · rw [hclaims]
    exact h.reserved

theorem Agrees.clear (hclaims : c.claims = {}) (hgranted : c.granted = ∅) : Agrees c := by
  constructor
  · intro id transport
    rw [hclaims, hgranted]
    exact iff_of_false (Finset.notMem_empty _) (by rintro ⟨⟩)
  · intro id _
    rw [hclaims]
    rfl

theorem Agrees.grant (h : Agrees c) {id : ConnId} {transport : String} (hid : id ∉ RESERVED_IDS)
    (hfree : c.claims.claimHolder id = none) :
    Agrees (c.grant { holders := c.claims.holders.insert id transport } id transport) where
  granted id' transport' := by
    show (id', transport') ∈ insert (id, transport) c.granted ↔ _ = _
    rw [Finset.mem_insert, Prod.mk.injEq, h.granted]
    refine Iff.trans ?_ (Eq.congr_left (c.claims.claimHolder_insert id id' transport)).symm
    split_ifs with hsame
    · subst hsame
      simp [hfree, eq_comm]
    · simp [hsame]
  reserved id' hmem := by
    have hne : id' ≠ id := by
      rintro rfl
      exact hid hmem
    have hinsert := c.claims.claimHolder_insert id id' transport
    rw [if_neg hne, h.reserved id' hmem] at hinsert
    exact hinsert

theorem Agrees.regrant (h : Agrees c) {id : ConnId} {transport : String}
    (hheld : c.claims.claimHolder id = some transport) : Agrees (c.grant c.claims id transport) :=
  h.of_eq rfl (Finset.insert_eq_of_mem ((h.granted id transport).mpr hheld))

theorem Agrees.release (h : Agrees c) (id : ConnId) (transport : String) : Agrees { c with
    claims := c.claims.releaseConnId id transport
    granted := c.granted.erase (id, transport) } := by
  have hholder (id' : ConnId) : (c.claims.releaseConnId id transport).claimHolder id' =
      if id' = id ∧ c.claims.claimHolder id = some transport then none
      else c.claims.claimHolder id' :=
    Claims.claimHolder_releaseConnId h.reserved id id'
  constructor
  · intro id' transport'
    show (id', transport') ∈ c.granted.erase (id, transport) ↔ _ = _
    rw [Finset.mem_erase, h.granted]
    refine Iff.trans ?_ (Eq.congr_left (hholder id')).symm
    split_ifs with hsame
    · obtain ⟨rfl, hheld⟩ := hsame
      -- the one pair that is erased is the one the table had
      rw [hheld]
      simp [eq_comm]
    · refine and_iff_right_of_imp fun hheld heq => hsame ?_
      obtain ⟨rfl, rfl⟩ := Prod.mk.inj heq
      exact ⟨rfl, hheld⟩
  · intro id' hmem
    rw [hholder id', h.reserved id' hmem, ite_self]

theorem claims_connectionFailed (c : Control) (id : ConnId) (transport : String) :
    (c.connectionFailed recording id transport).claims = c.claims ∧
      (c.connectionFailed recording id transport).granted = c.granted := by
  unfold connectionFailed
  dsimp only
  split_ifs <;> exact ⟨rfl, rfl⟩

theorem Agrees.step (h : Agrees c) {call : Call} (hstep : next recording c call = some c') :
    Agrees c' := by
  cases call with
  | runner label =>
    simp only [next] at hstep
    by_cases htransport : ofTransport label = true
    · rw [if_pos htransport] at hstep
      cases hstep
    rw [if_neg htransport] at hstep
    obtain ⟨runner, -, rfl⟩ := Option.map_eq_some_iff.mp hstep
    split_ifs
    · exact Agrees.clear rfl rfl
    · exact h.of_eq rfl rfl
  | newConnId transport draws =>
    simp only [next] at hstep
    split_ifs at hstep
    cases hmint : c.claims.newConnId transport draws with
    | none =>
      rw [hmint] at hstep
      cases hstep
      exact h
    | some minted =>
      obtain ⟨id, claims⟩ := minted
      rw [hmint] at hstep
      cases hstep
      obtain ⟨hfree, hid, rfl⟩ := Claims.newConnId_eq_some hmint
      exact h.grant hid hfree
  | claimConnId id transport =>
    simp only [next] at hstep
    cases hclaim : c.claims.claimConnId id transport with
    | none =>
      rw [hclaim] at hstep
      cases hstep
      exact h
    | some granted =>
      obtain ⟨new, claims⟩ := granted
      rw [hclaim] at hstep
      cases hstep
      rcases Claims.claimConnId_eq_some hclaim with ⟨hid, ⟨hfree, rfl⟩ | ⟨hheld, rfl⟩⟩
      · exact h.grant hid hfree
      · exact h.regrant hheld
  | releaseConnId id transport =>
    cases hstep
    exact h.release id transport
  | offerAdmitted id transport =>
    cases hstep
    exact h.of_eq rfl rfl
  | connectionOpened conn =>
    cases hstep
    exact h.of_eq rfl rfl
  | connectionFailed place =>
    simp only [next] at hstep
    cases hplace : c.admitted[place]? with
    | none =>
      rw [hplace] at hstep
      cases hstep
    | some a =>
      rw [hplace] at hstep
      cases hstep
      obtain ⟨hclaims, hgranted⟩ := c.claims_connectionFailed a.id a.transport
      exact h.of_eq hclaims hgranted

theorem isInvariant_agrees : (control recording).IsInvariant Agrees where
  init := Agrees.clear rfl rfl
  step _ _ _ h hstep := h.step hstep

/-! ### What a failure changes -/

/-- The failure of a connection passes for one of the live session: the live session has claimed its
id for its transport, and no stamp of an earlier session is left on the id. -/
def Mistaken (c : Control) (a : Admission) : Prop :=
  c.claims.claimHolder a.id = some a.transport ∧ c.runner.offerEpochs.stale a.id = false

/-- The stamps of the offers that the live session admitted are on their ids. -/
def KeepsStamps (c c' : Control) : Prop :=
  ∀ id, c.runner.offerEpochs.stamps.lookup id = some c.runner.offerEpochs.current →
    c'.runner.offerEpochs.stamps.lookup id = some c.runner.offerEpochs.current

theorem keepsStamps_consume {c' : Control} {id : ConnId}
    (hstale : c.runner.offerEpochs.stale id = true)
    (hepochs : c'.runner.offerEpochs = c.runner.offerEpochs.consume id) : KeepsStamps c c' := by
  intro id' hlive
  have hne : id' ≠ id := by
    rintro rfl
    unfold OfferEpochs.stale at hstale
    rw [hlive] at hstale
    simp at hstale
  rw [hepochs]
  unfold OfferEpochs.consume
  rw [lookup_erase_if, if_neg hne]
  exact hlive

theorem connectionFailed_of_not_mistaken {a : Admission} (h : ¬ Mistaken c a) :
    (c.connectionFailed recording a.id a.transport).runner.events = c.runner.events ∧
      KeepsStamps c (c.connectionFailed recording a.id a.transport) := by
  unfold connectionFailed
  by_cases hholder : c.claims.claimHolder a.id ≠ some a.transport
  · rw [if_pos hholder]
    exact ⟨rfl, fun id hlive => hlive⟩
  rw [if_neg hholder]
  have hstale : c.runner.offerEpochs.stale a.id = true := by
    cases hs : c.runner.offerEpochs.stale a.id with
    | true => rfl
    | false => exact (h ⟨not_not.mp hholder, hs⟩).elim
  dsimp only
  rw [if_pos (Or.inr hstale)]
  exact ⟨rfl, keepsStamps_consume hstale rfl⟩

/-- No failure is journalled while no session runs. -/
theorem events_connectionFailed_of_stale (hstale : c.runner.machine.state.isStale = true)
    (id : ConnId) (transport : String) :
    (c.connectionFailed recording id transport).runner.events = c.runner.events := by
  unfold connectionFailed
  dsimp only
  rw [if_pos (Or.inl hstale)]
  split_ifs <;> rfl

/-! ### The ids of one session -/

/-- In every order of calls, the transports that were granted an id since the claims were cleared,
and did not release it, are the ones the table names, one for an id; an id is minted that none of
them has; a release leaves what was granted to others.  A failure leaves the claims as they are; it
is not journalled and takes no stamp of the live session, unless that session has claimed the id for
the transport and the id has no stamp of an earlier session. -/
theorem claims_held {ls : List Call} (hrun : (control recording).run ls = some c) :
    (∀ id transport, (id, transport) ∈ c.granted ↔ c.claims.claimHolder id = some transport) ∧
    (∀ transport draws id claims, c.claims.newConnId transport draws = some (id, claims) →
      ∀ holder, (id, holder) ∉ c.granted) ∧
    (∀ id transport c', next recording c (.releaseConnId id transport) = some c' →
      ∀ id' holder, (id', holder) ≠ (id, transport) → c.claims.claimHolder id' = some holder →
        c'.claims.claimHolder id' = some holder) ∧
    ∀ place a c', c.admitted[place]? = some a →
      next recording c (.connectionFailed place) = some c' →
        c'.claims = c.claims ∧
        (¬ Mistaken c a → c'.runner.events = c.runner.events ∧ KeepsStamps c c') ∧
        (c.runner.machine.state.isStale = true → c'.runner.events = c.runner.events) := by
  have hagrees : Agrees c := isInvariant_agrees.of_run hrun
  refine ⟨hagrees.granted, ?_, ?_, ?_⟩
  · intro transport draws id claims hmint holder hgranted
    obtain ⟨hfree, -⟩ := Claims.newConnId_eq_some hmint
    rw [(hagrees.granted id holder).mp hgranted] at hfree
    cases hfree
  · intro id transport c' hstep id' holder hne hheld
    have hreleased : Agrees c' := hagrees.step hstep
    cases hstep
    refine (hreleased.granted id' holder).mp ?_
    exact Finset.mem_erase.mpr ⟨hne, (hagrees.granted id' holder).mpr hheld⟩
  · intro place a c' hplace hstep
    simp only [next, hplace] at hstep
    cases hstep
    exact ⟨(c.claims_connectionFailed a.id a.transport).1, connectionFailed_of_not_mistaken,
      fun hstale => events_connectionFailed_of_stale hstale _ _⟩

def session (id : ConnId) : List Call :=
  [.runner (.startSession {} { uuid := "" }), .claimConnId id "livekit",
    .offerAdmitted id "livekit"]

def ended : List Call :=
  [.runner (.stopSession .stopped ""), .runner (.teardown 0), .runner (.teardown 0)]

/-- An id is claimed, another is minted, and the connection of the first one fails. -/
def failedRun : List Call :=
  .runner (.initialized true) :: session 1002 ++
    [.newConnId "webrtc" (List.replicate MAX_MINT_ATTEMPTS 5000), .connectionFailed 0]

theorem isSome_failedRun : ((control true).run failedRun).isSome := rfl

theorem claims_held_failedRun :
    (1002, "livekit") ∈ (((control true).run failedRun).get isSome_failedRun).granted ∧
      (((control true).run failedRun).get isSome_failedRun).claims.claimHolder 1002 =
        some "livekit" := by
  have hholder := (claims_held (Option.some_get isSome_failedRun).symm).1 1002 "livekit"
  have hgranted :
      (1002, "livekit") ∈ (((control true).run failedRun).get isSome_failedRun).granted := by
    decide +kernel
  exact ⟨hgranted, hholder.mp hgranted⟩

/-- The connection that claimed an id of the runtime's range is refused. -/
def refusedRun : List Call :=
  .runner (.initialized true) :: session 5000 ++ [.releaseConnId 5000 "livekit"]

/-- The next session claims the id again, and admits it, before the join of the session before has
failed. -/
def reclaimedRun : List Call :=
  .runner (.initialized true) :: session 1002 ++ ended ++ session 1002

/-- A refused connection's id is minted in the same session; and the late failure of a connection
admitted in an earlier session is journalled, and takes the stamp of the live session's offer. -/
theorem not_claims_held :
    (∃ c minted, (control true).run refusedRun = some c ∧
      c.claims.newConnId "webrtc" (List.replicate MAX_MINT_ATTEMPTS 5000) = some minted ∧
      minted.1 ∈ c.claimed) ∧
    ∃ c c', (control true).run reclaimedRun = some c ∧
      next true c (.connectionFailed 0) = some c' ∧
      (c.admitted[0]?).any (fun a => a.epoch < c.runner.offerEpochs.current) = true ∧
      c'.runner.events.seq = c.runner.events.seq + 1 ∧
      c.runner.offerEpochs.stamps.lookup 1002 = some c.runner.offerEpochs.current ∧
      c'.runner.offerEpochs.stamps.lookup 1002 = none := by
  constructor
  · have hany : (((control true).run refusedRun).any fun c =>
        (c.claims.newConnId "webrtc" (List.replicate MAX_MINT_ATTEMPTS 5000)).any fun minted =>
          minted.1 ∈ c.claimed) = true := by
      decide +kernel
    obtain ⟨c, hc, hminted⟩ := (Option.any_eq_true _ _).mp hany
    obtain ⟨minted, hmint, hclaimed⟩ := (Option.any_eq_true _ _).mp hminted
    exact ⟨c, minted, hc, hmint, of_decide_eq_true hclaimed⟩
  · have hany : (((control true).run reclaimedRun).any fun c =>
        (next true c (.connectionFailed 0)).any fun c' =>
          (c.admitted[0]?).any (fun a => a.epoch < c.runner.offerEpochs.current) ∧
            c'.runner.events.seq = c.runner.events.seq + 1 ∧
            c.runner.offerEpochs.stamps.lookup 1002 = some c.runner.offerEpochs.current ∧
            c'.runner.offerEpochs.stamps.lookup 1002 = none) = true := by
      decide +kernel
    obtain ⟨c, hc, hnext⟩ := (Option.any_eq_true _ _).mp hany
    obtain ⟨c', hc', hlate⟩ := (Option.any_eq_true _ _).mp hnext
    exact ⟨c, c', hc, hc', of_decide_eq_true hlate⟩

end Control

end ReactorRuntime.Runtime
