import ReactorRuntime.WebRtc.Equiv.Tables

/-!
# Trickle ICE

A candidate that is added under the current offer of its id is handed over once, to the connection
the offer produces (`ice_handed`), in a run in which

* no candidate arrives between a newer offer and the moment its negotiation takes the superseded
  connection out of the table: it would go to that connection;
* no close of a superseded connection ends with candidates of the newer offer buffered: it would
  discard them;
* no replay raises with candidates left.

Left out of the statement are the candidates the bounds of the buffer drop (`overflow`) and those of
an offer given up while its candidates are replayed (`abandoned`).
-/

namespace ReactorRuntime.WebRtc

open ReactorRuntime.Runtime (ConnId)
open ReactorRuntime.Lists

variable {a a' : Acceptor} {config : WebRtcConfig} {id : ConnId} {g p : Offer} {c : Candidate}

def Waits (pendingIce : AList fun _ : ConnId => List Candidate) (id : ConnId) (c : Candidate) :
    Prop :=
  ∃ cs, pendingIce.lookup id = some cs ∧ c ∈ cs

def AddedFor (added : List Added) (c : Candidate) (id : ConnId) : Prop :=
  ∃ offer, added[c]? = some ⟨id, offer⟩

def AddedUnder (added : List Added) (c : Candidate) (id : ConnId) (g : Offer) : Prop :=
  added[c]? = some ⟨id, some g⟩

instance {added : List Added} : Decidable (AddedUnder added c id g) := by
  unfold AddedUnder
  infer_instance

theorem lt_of_addedFor {added : List Added} (h : AddedFor added c id) : c < added.length := by
  obtain ⟨offer, hoffer⟩ := h
  exact (List.getElem?_eq_some_iff.mp hoffer).1

theorem addedFor_unique {added : List Added} {id' : ConnId} (h : AddedFor added c id)
    (h' : AddedFor added c id') : id = id' := by
  obtain ⟨offer, h⟩ := h
  obtain ⟨offer', h'⟩ := h'
  rw [h] at h'
  exact (Added.mk.inj (Option.some.inj h')).1

theorem addedUnder_append {added : List Added} {id' : ConnId} {current : Option Offer} :
    AddedUnder (added ++ [⟨id', current⟩]) c id g ↔
      AddedUnder added c id g ∨ c = added.length ∧ id = id' ∧ current = some g := by
  unfold AddedUnder
  rcases Nat.lt_trichotomy c added.length with hc | rfl | hc
  · rw [List.getElem?_append_left hc]
    simp [hc.ne]
  · simp [eq_comm]
  · rw [List.getElem?_eq_none (by simp; omega), List.getElem?_eq_none (by omega)]
    simp [hc.ne']

theorem AddedFor.append {added : List Added} (h : AddedFor added c id) (x : Added) :
    AddedFor (added ++ [x]) c id := by
  obtain ⟨offer, hoffer⟩ := h
  exact ⟨offer, by rw [List.getElem?_append_left (lt_of_addedFor ⟨offer, hoffer⟩), hoffer]⟩

theorem waits_erase {pendingIce : AList fun _ : ConnId => List Candidate} {id' : ConnId} :
    Waits (pendingIce.erase id) id' c ↔ id' ≠ id ∧ Waits pendingIce id' c := by
  unfold Waits
  rw [lookup_erase_if]
  grind

theorem mem_pending {pendingIce : AList fun _ : ConnId => List Candidate} :
    c ∈ (pendingIce.lookup id).getD [] ↔ Waits pendingIce id c := by
  unfold Waits
  cases pendingIce.lookup id <;> simp

theorem nodup_handed {handed : List (Candidate × Offer)} (h : (handed.map Prod.fst).Nodup)
    (hnew : ∀ q, (c, q) ∉ handed) : ((handed ++ [(c, p)]).map Prod.fst).Nodup := by
  rw [List.map_append, List.nodup_append]
  refine ⟨h, by simp, ?_⟩
  rintro c' hc' d hd rfl
  obtain ⟨⟨c'', q⟩, hq, rfl⟩ := List.mem_map.mp hc'
  obtain rfl : c'' = c := by simpa using hd
  exact hnew q hq

theorem AddedUnder.addedFor {added : List Added} (h : AddedUnder added c id g) :
    AddedFor added c id := ⟨some g, h⟩

namespace Acceptor

/-- A step that leaves every candidate to the connection of its own offer. -/
def KeepsIce (a : Acceptor) : Label → Prop
  | .addIce id => ∀ g ∈ a.negotiating.lookup id, ∀ q ∈ a.conns.lookup id, q = g
  | .raised g => ∀ t ∈ a.tasks g, t.phase = .creating ∨ t.phase = .replaying []
  | .closeEnded p => ∀ peer ∈ a.peers p, a.negotiating.lookup peer.id ≠ none →
    a.pendingIce.lookup peer.id = none
  | _ => True

instance (l : Label) : Decidable (a.KeepsIce l) :=
  match l with
  | .addIce id =>
    inferInstanceAs (Decidable (∀ g ∈ a.negotiating.lookup id, ∀ q ∈ a.conns.lookup id, q = g))
  | .raised g =>
    inferInstanceAs (Decidable (∀ t ∈ a.tasks g, t.phase = .creating ∨ t.phase = .replaying []))
  | .closeEnded p =>
    inferInstanceAs (Decidable (∀ peer ∈ a.peers p, a.negotiating.lookup peer.id ≠ none →
      a.pendingIce.lookup peer.id = none))
  | .startOffer _ _ | .takeAnswer _ | .negotiate _ | .created _ | .replayed _ | .connected _
  | .lost _ | .close _ | .deadlinePassed _ => instDecidableTrue

/-- Where the candidates are. -/
structure Ice (a : Acceptor) : Prop where
  record_lt : ∀ c id g, AddedUnder a.added c id g → g < a.offers
  record_id : ∀ c id g id' phase, AddedUnder a.added c id g →
    a.tasks g = some ⟨id', phase⟩ → id' = id
  handed_lt : ∀ c q, (c, q) ∈ a.handed → c < a.added.length
  once : (a.handed.map Prod.fst).Nodup
  queue : ∀ id cs, a.pendingIce.lookup id = some cs → cs.Nodup
  waits_for : ∀ id c, Waits a.pendingIce id c → AddedFor a.added c id
  waits_new : ∀ id c q, Waits a.pendingIce id c → (c, q) ∉ a.handed
  /-- The offer that a candidate which waits was added under has no connection. -/
  waits_unbuilt : ∀ id c g, Waits a.pendingIce id c → AddedUnder a.added c id g → a.peers g = none
  rest_nodup : ∀ g id cs, a.tasks g = some ⟨id, .replaying cs⟩ → cs.Nodup
  rest_for : ∀ g id cs, a.tasks g = some ⟨id, .replaying cs⟩ → ∀ c ∈ cs, AddedFor a.added c id
  rest_new : ∀ g id cs, a.tasks g = some ⟨id, .replaying cs⟩ → ∀ c ∈ cs, ∀ q, (c, q) ∉ a.handed
  rest_left : ∀ g id cs, a.tasks g = some ⟨id, .replaying cs⟩ → ∀ c ∈ cs,
    ¬ Waits a.pendingIce id c
  rest_own : ∀ g id cs, a.tasks g = some ⟨id, .replaying cs⟩ → ∀ c ∈ cs, ∀ g',
    AddedUnder a.added c id g' → a.peers g' ≠ none → g' = g
  held : ∀ id p, a.conns.lookup id = some p → a.pendingIce.lookup id = none
  replayed : ∀ g id cs, a.tasks g = some ⟨id, .replaying cs⟩ →
    a.conns.lookup id = some g ∨ a.peers g = some ⟨id, .gone⟩
  /-- The candidates of an offer that has no connection yet wait. -/
  buffered : ∀ c id g phase, AddedUnder a.added c id g → c ∉ a.overflow →
    a.tasks g = some ⟨id, phase⟩ → (∀ cs, phase ≠ .replaying cs) → Waits a.pendingIce id c
  /-- The candidates of an offer that has a connection go to that connection only. -/
  taken : ∀ c id g q, AddedUnder a.added c id g → c ∉ a.overflow → a.peers g ≠ none →
    (c, q) ∈ a.handed → q = g
  produced : ∀ c id g, AddedUnder a.added c id g → c ∉ a.overflow → a.peers g ≠ none →
    g ∉ a.abandoned → (c, g) ∈ a.handed ∨ ∃ cs, a.tasks g = some ⟨id, .replaying cs⟩ ∧ c ∈ cs

end Acceptor

namespace Acceptor.Ice

theorem init : Acceptor.Ice {} := by
  constructor <;> simp [AddedUnder, Waits]

theorem of_eq (hC : a.Ice) (hpending : a'.pendingIce = a.pendingIce)
    (hadded : a'.added = a.added) (hhanded : a'.handed = a.handed)
    (hoverflow : a'.overflow = a.overflow) (habandoned : a'.abandoned = a.abandoned)
    (hoffers : a'.offers = a.offers) (hconns : a'.conns = a.conns) (htasks : a'.tasks = a.tasks)
    (hnone : ∀ g, a'.peers g = none ↔ a.peers g = none)
    (hgone : ∀ g id, a.peers g = some ⟨id, .gone⟩ → a'.peers g = some ⟨id, .gone⟩) : a'.Ice := by
  constructor <;>
    simp only [hpending, hadded, hhanded, hoverflow, habandoned, hoffers, hconns, htasks,
      hnone, ne_eq]
  exacts [hC.record_lt, hC.record_id, hC.handed_lt, hC.once, hC.queue, hC.waits_for, hC.waits_new,
    hC.waits_unbuilt, hC.rest_nodup, hC.rest_for, hC.rest_new, hC.rest_left, hC.rest_own, hC.held,
    fun g id cs h => (hC.replayed g id cs h).imp_right (hgone g id), hC.buffered, hC.taken,
    hC.produced]

theorem nodup_pending (hC : a.Ice) (id : ConnId) : ((a.pendingIce.lookup id).getD []).Nodup := by
  cases hcs : a.pendingIce.lookup id with
  | none => exact List.nodup_nil
  | some cs => exact hC.queue id cs hcs

theorem await {phase phase' : Negotiation} (hC : a.Ice) (h : a.tasks g = some ⟨id, phase⟩)
    (hphase : ∀ cs, phase ≠ .replaying cs) (hphase' : ∀ cs, phase' ≠ .replaying cs) :
    (a.await g id phase').Ice := by
  refine { hC with
    record_id := ?_, rest_nodup := ?_, rest_for := ?_, rest_new := ?_, rest_left := ?_,
    rest_own := ?_, replayed := ?_, buffered := ?_, produced := ?_ } <;>
    simp only [Acceptor.await, Function.update_apply]
  · grind [hC.record_id]
  · grind [hC.rest_nodup]
  · grind [hC.rest_for]
  · grind [hC.rest_new]
  · grind [hC.rest_left]
  · grind [hC.rest_own]
  · grind [hC.replayed]
  · grind [hC.buffered]
  · have := hC.produced
    grind

/-- The superseded connection leaves the table. -/
theorem unregister (hC : a.Ice) (live : Finset ConnId)
    (h : ∀ g cs, a.tasks g ≠ some ⟨id, .replaying cs⟩) :
    { a with conns := a.conns.erase id, live }.Ice := by
  refine { hC with held := ?_, replayed := ?_ } <;> simp only [lookup_erase_if]
  · grind [hC.held]
  · grind [hC.replayed]

/-- A connection that is there enters another phase. -/
theorem setPhase {phase : PeerPhase} (hC : a.Ice) (hpeer : ∃ phase, a.peers p = some ⟨id, phase⟩)
    (h : a.peers p ≠ some ⟨id, .gone⟩) : (a.setPhase p phase).Ice := by
  obtain ⟨phase₀, hpeer⟩ := hpeer
  refine hC.of_eq rfl rfl rfl rfl rfl rfl rfl rfl (fun g => ?_) (fun g id' hgone => ?_) <;>
    simp only [Acceptor.setPhase, Function.update_apply, hpeer, Option.map_some]
  · grind
  · grind

theorem negotiate (hC : a.Ice) (hI : Tables a) (h : a.tasks g = some ⟨id, .queued⟩) :
    (a.negotiate g id).Ice := by
  have hneg := hI.task g id _ h
  cases hp : a.conns.lookup id with
  | none =>
    rw [Acceptor.negotiate, hp]
    exact hC.await h (by simp) (by simp)
  | some previous =>
    obtain ⟨phase, hprev⟩ := hI.registered id previous hp
    have hleave := hC.unregister (a.live.erase id) fun g' cs htask => by
      have hg := hI.task g' id _ htask
      rw [hneg] at hg
      rw [← Option.some.inj hg, h] at htask
      cases htask
    by_cases halive : a.alive previous
    · rw [Acceptor.negotiate_of_alive hp halive]
      refine (hleave.setPhase ⟨phase, hprev⟩ ?_).await h (by simp) (by simp)
      rintro hgone
      rw [Acceptor.alive, hgone] at halive
      cases halive
    · rw [Acceptor.negotiate_of_not_alive hp halive]
      exact hleave.await h (by simp) (by simp)

theorem replay {cs : List Candidate} (hC : a.Ice)
    (htask : ∀ g id phase, a.tasks g = some ⟨id, phase⟩ → a.negotiating.lookup id = some g)
    (h : a.tasks g = some ⟨id, .replaying cs⟩) : (a.replay g id cs).Ice := by
  cases cs with
  | nil =>
    refine { hC with
      record_id := ?_, rest_nodup := ?_, rest_for := ?_, rest_new := ?_, rest_left := ?_,
      rest_own := ?_, replayed := ?_, buffered := ?_, produced := ?_ } <;>
      simp only [Acceptor.replay, endTask, Function.update_apply]
    · grind [hC.record_id]
    · grind [hC.rest_nodup]
    · grind [hC.rest_for]
    · grind [hC.rest_new]
    · grind [hC.rest_left]
    · grind [hC.rest_own]
    · grind [hC.replayed]
    · grind [hC.buffered]
    · have := hC.produced
      grind
  | cons c cs =>
    have hc := List.mem_cons_self (a := c) (l := cs)
    have hfor := hC.rest_for g id _ h c hc
    have hnew := hC.rest_new g id _ h c hc
    have hown := hC.rest_own g id _ h c hc
    have hneg := htask g id _ h
    -- the candidate is neither left in this replay nor waited for by another one
    have hleft : ∀ g' id' cs', a.tasks g' = some ⟨id', .replaying cs'⟩ → g' ≠ g → c ∉ cs' := by
      intro g' id' cs' h' hg hc'
      obtain rfl := addedFor_unique (hC.rest_for g' id' cs' h' c hc') hfor
      rw [htask g' id' _ h'] at hneg
      exact hg (Option.some.inj hneg)
    refine { hC with
      record_id := ?_, handed_lt := ?_, once := ?_, waits_new := ?_, rest_nodup := ?_,
      rest_for := ?_, rest_new := ?_, rest_left := ?_, rest_own := ?_, replayed := ?_,
      buffered := ?_, taken := ?_, produced := ?_ } <;>
      simp only [Acceptor.replay, Acceptor.await, Function.update_apply]
    · grind [hC.record_id]
    · have hlt := lt_of_addedFor hfor
      have := hC.handed_lt
      grind
    · exact nodup_handed hC.once hnew
    · intro id' c' q hwaits hq
      rcases List.mem_append.mp hq with hq | hq
      · exact hC.waits_new id' c' q hwaits hq
      · obtain ⟨rfl, -⟩ := Prod.mk.inj (List.mem_singleton.mp hq)
        obtain rfl := addedFor_unique (hC.waits_for id' c' hwaits) hfor
        exact hC.rest_left g id' _ h c' hc hwaits
    · have := hC.rest_nodup
      grind
    · grind [hC.rest_for]
    · intro g' id' cs' h' c' hc' q hq
      rcases List.mem_append.mp hq with hq | hq
      · have := hC.rest_new
        grind
      · have := hC.rest_nodup g id _ h
        grind
    · grind [hC.rest_left]
    · grind [hC.rest_own]
    · grind [hC.replayed]
    · grind [hC.buffered]
    · intro c' id' g' q hunder hover hbuilt hq
      rcases List.mem_append.mp hq with hq | hq
      · exact hC.taken c' id' g' q hunder hover hbuilt hq
      · obtain ⟨rfl, rfl⟩ := Prod.mk.inj (List.mem_singleton.mp hq)
        obtain rfl := addedFor_unique hunder.addedFor hfor
        exact (hown g' hunder hbuilt).symm
    · have := hC.produced
      grind

/-- The connection that the peer factory returned takes over what waits on its id. -/
theorem register (hC : a.Ice) (hI : Tables a) (h : a.tasks g = some ⟨id, .creating⟩) :
    ((a.register g id).await g id (.replaying ((a.pendingIce.lookup id).getD []))).Ice := by
  have hneg := hI.task g id _ h
  have hnone := hI.unbuilt g id _ h (by simp)
  have hother : ∀ g' id' phase, a.tasks g' = some ⟨id', phase⟩ → g' ≠ g → id' ≠ id := by
    rintro g' id' phase h' hg rfl
    have hneg' := hI.task g' id' _ h'
    rw [hneg] at hneg'
    exact hg (Option.some.inj hneg').symm
  have hnodup := hC.nodup_pending id
  -- the candidates of the offer all wait, and so were handed to nobody
  have hbuffered : ∀ c id', AddedUnder a.added c id' g → c ∉ a.overflow →
      id' = id ∧ Waits a.pendingIce id c := by
    intro c id' hunder hover
    obtain rfl := hC.record_id c id' g id _ hunder h
    exact ⟨rfl, hC.buffered c id g _ hunder hover h (by simp)⟩
  refine { hC with
    record_id := ?_, queue := ?_, waits_for := ?_, waits_new := ?_, waits_unbuilt := ?_,
    rest_nodup := ?_, rest_for := ?_, rest_new := ?_, rest_left := ?_, rest_own := ?_, held := ?_,
    replayed := ?_, buffered := ?_, taken := ?_, produced := ?_ } <;>
    simp only [Acceptor.register, Acceptor.await, Function.update_apply, lookup_insert_if, waits_erase]
  · grind [hC.record_id]
  · grind [hC.queue, lookup_erase_if]
  · grind [hC.waits_for]
  · grind [hC.waits_new]
  · grind [hC.waits_unbuilt, hC.record_id]
  · grind [hC.rest_nodup]
  · grind [hC.rest_for, hC.waits_for, mem_pending]
  · grind [hC.rest_new, hC.waits_new, mem_pending]
  · grind [hC.rest_left]
  · intro g' id' cs h' c hc g'' hunder hbuilt
    by_cases hg : g' = g
    · rw [if_pos hg] at h'
      obtain ⟨rfl, hcs⟩ := Task.mk.inj (Option.some.inj h')
      obtain rfl := Negotiation.replaying.inj hcs
      by_contra hne
      rw [if_neg (by rwa [← hg])] at hbuilt
      exact hbuilt (hC.waits_unbuilt id c g'' (mem_pending.mp hc) hunder)
    · rw [if_neg hg, if_neg hg] at h'
      have hg'' : g'' ≠ g := by
        rintro rfl
        exact hother g' id' _ h' hg (hC.record_id c id' g'' id _ hunder h).symm
      rw [if_neg hg''] at hbuilt
      exact hC.rest_own g' id' cs h' c hc g'' hunder hbuilt
  · grind [hC.held, lookup_erase_if]
  · grind [hC.replayed]
  · grind [hC.buffered]
  · intro c id' g' q hunder hover hbuilt hq
    by_cases hg : g' = g
    · obtain rfl := hg
      obtain ⟨rfl, hwaits⟩ := hbuffered c id' hunder hover
      exact absurd hq (hC.waits_new id' c q hwaits)
    · rw [if_neg hg] at hbuilt
      exact hC.taken c id' g' q hunder hover hbuilt hq
  · intro c id' g' hunder hover hbuilt habandoned
    by_cases hg : g' = g
    · obtain rfl := hg
      obtain ⟨rfl, hwaits⟩ := hbuffered c id' hunder hover
      exact .inr ⟨_, if_pos rfl, mem_pending.mpr hwaits⟩
    · rw [if_neg hg] at hbuilt
      simp only [if_neg hg]
      exact hC.produced c id' g' hunder hover hbuilt habandoned

theorem create (hC : a.Ice) (hI : Tables a) (h : a.tasks g = some ⟨id, .creating⟩) :
    (a.create g id).Ice := by
  rw [create_eq, ← replay_await (.replaying ((a.pendingIce.lookup id).getD []))]
  have hregister := hI.register h
  refine (hC.register hI h).replay (fun g' id' phase h' => ?_) (by simp [Acceptor.await])
  simp only [Acceptor.await, Function.update_apply] at h'
  split_ifs at h' with hg
  · obtain ⟨rfl, -⟩ := Task.mk.inj (Option.some.inj h')
    obtain rfl := hg
    exact hI.task g' id _ h
  · exact hregister.task g' id' phase h'

/-- A negotiation raises with nothing left to replay. -/
theorem fail {phase : Negotiation} (hC : a.Ice) (hI : Tables a) (h : a.tasks g = some ⟨id, phase⟩)
    (hphase : phase = .creating ∨ phase = .replaying []) : (a.fail g id).Ice := by
  rw [hI.fail_eq h]
  refine { hC with
    record_id := ?_, rest_nodup := ?_, rest_for := ?_, rest_new := ?_, rest_left := ?_,
    rest_own := ?_, replayed := ?_, buffered := ?_, produced := ?_ } <;>
    simp only [Function.update_apply]
  · grind [hC.record_id]
  · grind [hC.rest_nodup]
  · grind [hC.rest_for]
  · grind [hC.rest_new]
  · grind [hC.rest_left]
  · grind [hC.rest_own]
  · grind [hC.replayed]
  · grind [hC.buffered]
  · have := hC.produced
    grind

/-- A negotiation is cancelled; a replay that it cuts short is abandoned. -/
theorem cancelNegotiation (hC : a.Ice) (id : ConnId) : (a.cancelNegotiation id).Ice := by
  refine { hC with
    record_id := ?_, waits_unbuilt := ?_, rest_nodup := ?_, rest_for := ?_, rest_new := ?_,
    rest_left := ?_, rest_own := ?_, replayed := ?_, buffered := ?_, taken := ?_,
    produced := ?_ } <;>
    simp only [Acceptor.cancelNegotiation, abort_eq_none, ne_eq]
  · grind [hC.record_id]
  · grind [hC.waits_unbuilt]
  · grind [hC.rest_nodup]
  · grind [hC.rest_for]
  · grind [hC.rest_new]
  · grind [hC.rest_left]
  · grind [hC.rest_own]
  · simp only [abort_negotiation_eq_some]
    grind [hC.replayed]
  · grind [hC.buffered]
  · exact hC.taken
  · intro c id' g hunder hover hbuilt habandoned
    rw [List.mem_append, not_or] at habandoned
    refine (hC.produced c id' g hunder hover hbuilt habandoned.1).imp_right ?_
    rintro ⟨cs, htask, hc⟩
    refine ⟨cs, ?_, hc⟩
    rw [if_neg, htask]
    intro hinFlight
    refine habandoned.2 ?_
    simp [hinFlight, isReplaying, htask]

/-- A connection is forgotten with no candidates of a newer offer buffered. -/
theorem forget {phase : PeerPhase} (hC : a.Ice) (hI : Tables a) (h : a.peers p = some ⟨id, phase⟩)
    (hspares : ∀ q, a.conns.lookup id = some q → q = p)
    (hpending : a.negotiating.lookup id ≠ none → a.pendingIce.lookup id = none) :
    ((a.setPhase p .gone).forget id p).Ice := by
  rw [Acceptor.forget, hI.clear_gone h]
  refine { hC with
    queue := ?_, waits_for := ?_, waits_new := ?_, waits_unbuilt := ?_, rest_left := ?_,
    rest_own := ?_, held := ?_, replayed := ?_, buffered := ?_, taken := ?_, produced := ?_ } <;>
    simp only [Function.update_apply, lookup_erase_if, waits_erase]
  · grind [hC.queue]
  · grind [hC.waits_for]
  · grind [hC.waits_new]
  · grind [hC.waits_unbuilt]
  · grind [hC.rest_left]
  · grind [hC.rest_own]
  · grind [hC.held]
  · grind [hC.replayed]
  · intro c id' g phase hunder hover htask hphase
    have hwaits := hC.buffered c id' g phase hunder hover htask hphase
    refine ⟨?_, hwaits⟩
    rintro rfl
    obtain ⟨cs, hcs, -⟩ := hwaits
    rw [hpending (by simp [hI.task g id' _ htask])] at hcs
    cases hcs
  · grind [hC.taken]
  · have := hC.produced
    grind

theorem closed {phase : PeerPhase} (hC : a.Ice) (hI : Tables a) (h : a.peers p = some ⟨id, phase⟩)
    (hphase : phase = .halfOpen ∨ phase = .connected) : ((a.setPhase p .gone).closed id p).Ice := by
  have hconns := hI.conns_of_alive h hphase
  rw [closed_eq]
  refine (hC.forget hI h (fun q hq => ?_) fun _ => hC.held id p hconns).of_eq
    rfl rfl rfl rfl rfl rfl rfl rfl (fun _ => Iff.rfl) (fun _ _ hgone => hgone)
  rw [hconns] at hq
  exact (Option.some.inj hq).symm

theorem opened (hC : a.Ice) (hI : Tables a) (h : a.peers p = some ⟨id, .halfOpen⟩) :
    ((a.setPhase p .connected).opened id p).Ice := by
  rw [hI.opened_eq h]
  refine hC.of_eq rfl rfl rfl rfl rfl rfl rfl rfl (fun g => ?_) (fun g id' hgone => ?_) <;>
    simp only [Function.update_apply] <;> grind

theorem close {peer : Peer} (hC : a.Ice) (h : a.peers p = some peer) :
    (commandedClose a p peer).Ice := by
  obtain ⟨id, phase⟩ := peer
  have hsink : Acceptor.Ice { a with sink := eraseValue a.sink id p } :=
    hC.of_eq rfl rfl rfl rfl rfl rfl rfl rfl (fun _ => Iff.rfl) (fun _ _ hgone => hgone)
  unfold commandedClose
  split_ifs with hphase
  · refine hsink.setPhase ⟨phase, h⟩ ?_
    dsimp only at hphase
    simp [h, hphase]
  · exact hsink

theorem endDeadline (hC : a.Ice) : (a.endDeadline id g).Ice :=
  hC.of_eq rfl rfl rfl rfl rfl rfl rfl rfl (fun _ => Iff.rfl) (fun _ _ hgone => hgone)

theorem endClose {closer : Closer} (hC : a.Ice) (hI : Tables a)
    (h : a.peers p = some ⟨id, .closing closer⟩) (hspares : ∀ q, a.conns.lookup id = some q → q = p)
    (hpending : a.negotiating.lookup id ≠ none → a.pendingIce.lookup id = none) :
    (a.endClose p id closer).Ice := by
  have hforget := hC.forget hI h hspares hpending
  cases closer with
  | owner => exact hforget
  | deadline g => exact hforget.endDeadline
  | negotiation g =>
    have htask : ((a.setPhase p .gone).forget id p).tasks g = some ⟨id, .closing p⟩ := by
      rw [Acceptor.forget, hI.clear_gone h]
      exact hI.replacing p id g h
    exact hforget.await htask (by simp) (by simp)

/-- What an offer left behind where it has no connection is cleared. -/
theorem discard (hC : a.Ice) (h : ∀ g phase, a.tasks g ≠ some ⟨id, phase⟩) :
    Acceptor.Ice { a with pendingIce := a.pendingIce.erase id } := by
  refine { hC with
    queue := ?_, waits_for := ?_, waits_new := ?_, waits_unbuilt := ?_, rest_left := ?_,
    held := ?_, buffered := ?_ } <;>
    simp only [lookup_erase_if, waits_erase]
  · grind [hC.queue]
  · grind [hC.waits_for]
  · grind [hC.waits_new]
  · grind [hC.waits_unbuilt]
  · grind [hC.rest_left]
  · grind [hC.held]
  · intro c id' g phase hunder hover htask hphase
    refine ⟨?_, hC.buffered c id' g phase hunder hover htask hphase⟩
    rintro rfl
    exact h g phase htask

theorem reap (hC : a.Ice) (h : ∀ g phase, a.tasks g ≠ some ⟨id, phase⟩)
    (hregistered : ∀ p, a.conns.lookup id = some p → ∃ phase, a.peers p = some ⟨id, phase⟩) :
    (a.reap id g).Ice := by
  unfold Acceptor.reap
  cases hconns : a.conns.lookup id with
  | none =>
    exact (hC.discard h).of_eq rfl rfl rfl rfl rfl rfl rfl rfl (fun _ => Iff.rfl)
      (fun _ _ hgone => hgone)
  | some conn =>
    dsimp only
    split_ifs with halive
    · refine hC.setPhase (hregistered conn hconns) ?_
      rintro hgone
      rw [Acceptor.alive, hgone] at halive
      cases halive
    · exact hC.endDeadline

theorem enforceDeadline (hC : a.Ice) (hI : Tables a) : (a.enforceDeadline id g).Ice := by
  have hwake : Acceptor.Ice { a with timers := Function.update a.timers g none } :=
    hC.of_eq rfl rfl rfl rfl rfl rfl rfl rfl (fun _ => Iff.rfl) (fun _ _ hgone => hgone)
  unfold Acceptor.enforceDeadline
  dsimp only
  split_ifs with hguard
  · exact hwake.endDeadline
  · refine (hwake.cancelNegotiation id).reap ?_ ?_
    · intro g' phase htask
      simp only [Acceptor.cancelNegotiation] at htask
      split_ifs at htask with hneg
      exact hneg (hI.task g' id phase htask)
    · intro p hp
      exact exists_abort (hI.registered id p hp)

/-! ### Offers -/

theorem cancelAnyDeadline (hC : a.Ice) (id : ConnId) : (a.cancelAnyDeadline id).Ice := by
  refine hC.of_eq rfl rfl rfl rfl rfl rfl rfl rfl (fun g => abort_eq_none) (fun g id' hgone => ?_)
  exact abort_deadline_eq_some.mpr (.inl ⟨hgone, by simp⟩)

theorem offer (hC : a.Ice) (id : ConnId) (hlt : ∀ g t, a.tasks g = some t → g < a.offers) :
    Acceptor.Ice ({ a with offers := a.offers + 1 }.await a.offers id .queued) := by
  have hnew : ∀ c id', ¬ AddedUnder a.added c id' a.offers := fun c id' h =>
    absurd (hC.record_lt c id' _ h) (lt_irrefl _)
  have htask : a.tasks a.offers = none := by
    cases h : a.tasks a.offers with
    | none => rfl
    | some t => exact absurd (hlt _ t h) (lt_irrefl _)
  refine { hC with
    record_lt := ?_, record_id := ?_, rest_nodup := ?_, rest_for := ?_, rest_new := ?_,
    rest_left := ?_, rest_own := ?_, replayed := ?_, buffered := ?_, produced := ?_ } <;>
    simp only [Acceptor.await, Function.update_apply]
  · exact fun c id' g h => (hC.record_lt c id' g h).trans (Nat.lt_succ_self _)
  · grind [hC.record_id]
  · grind [hC.rest_nodup]
  · grind [hC.rest_for]
  · grind [hC.rest_new]
  · grind [hC.rest_left]
  · grind [hC.rest_own]
  · grind [hC.replayed]
  · grind [hC.buffered]
  · have := hC.produced
    grind

theorem acceptOffer {portRange : Option (ℕ × ℕ)} (hC : a.Ice) (hI : Tables a) :
    (a.acceptOffer config id portRange).Ice := by
  have hcancel := (hC.cancelNegotiation id).cancelAnyDeadline id
  have hoffer := hcancel.offer id fun g t htask => by
    simp only [Acceptor.cancelAnyDeadline, Acceptor.cancelNegotiation] at htask
    split_ifs at htask
    exact hI.task_lt g t htask
  unfold Acceptor.acceptOffer
  rw [armDeadline_eq]
  exact hoffer.of_eq rfl rfl rfl rfl rfl rfl rfl rfl (fun _ => Iff.rfl) (fun _ _ hgone => hgone)

end Acceptor.Ice

/-! ### Candidates -/

namespace Acceptor

theorem evictOldest_cases (a : Acceptor) : a.evictOldest = a ∨
    ∃ id cs, a.pendingIce.lookup id = some cs ∧ a.evictOldest = { a with
      pendingIce := a.pendingIce.erase id
      overflow := a.overflow ++ cs } := by
  unfold evictOldest
  split_ifs
  · cases holdest : a.pendingIce.entries.getLast? with
    | none => exact .inl rfl
    | some oldest =>
      refine .inr ⟨oldest.1, oldest.2, ?_, rfl⟩
      exact AList.mem_lookup_iff.mpr (List.mem_of_getLast? holdest)
  · exact .inl rfl

/-- What becomes of the buffer where a candidate for `id` is early: it waits last, or a bound drops
it; and what waited before still waits, or a bound drops that. -/
structure Buffers (a : Acceptor) (id : ConnId) (c : Candidate) (a' : Acceptor) : Prop where
  overflow : ∀ c', c' ∈ a.overflow → c' ∈ a'.overflow
  kept : ∀ id' c', Waits a.pendingIce id' c' → Waits a'.pendingIce id' c' ∨ c' ∈ a'.overflow
  added : Waits a'.pendingIce id c ∨ c ∈ a'.overflow
  lookup : ∀ id' cs, a'.pendingIce.lookup id' = some cs → a.pendingIce.lookup id' = some cs ∨
    id' = id ∧ cs = (a.pendingIce.lookup id).getD [] ++ [c]

theorem buffers_insert (a : Acceptor) (id : ConnId) (c : Candidate) (h : a.pendingIce.lookup id = none) :
    a.Buffers id c { a with pendingIce := a.pendingIce.insert id [c] } := by
  constructor <;> simp only [Waits, lookup_insert_if]
  · exact fun _ hc' => hc'
  · rintro id' c' ⟨cs, hcs, hc'⟩
    refine .inl ⟨cs, ?_, hc'⟩
    rw [if_neg, hcs]
    rintro rfl
    rw [h] at hcs
    cases hcs
  · exact .inl ⟨[c], by simp, by simp⟩
  · rw [h]
    intro id' cs hcs
    split_ifs at hcs with hid
    · exact .inr ⟨hid, (Option.some.inj hcs).symm⟩
    · exact .inl hcs

theorem bufferEarlyIce_buffers (a : Acceptor) (id : ConnId) (c : Candidate) :
    a.Buffers id c (a.bufferEarlyIce id c) := by
  unfold bufferEarlyIce
  cases hpending : a.pendingIce.lookup id with
  | none =>
    dsimp only
    obtain hevict | ⟨oldest, dropped, hdropped, hevict⟩ := a.evictOldest_cases
    · rw [hevict]
      exact buffers_insert a id c hpending
    · have hinsert := buffers_insert a.evictOldest id c <| by
        rw [hevict, lookup_erase_if, hpending, ite_self]
      rw [hevict] at hinsert ⊢
      refine ⟨fun c' hc' => hinsert.overflow c' (by simp [hc']), fun id' c' hwaits => ?_,
        hinsert.added, fun id' cs hcs => ?_⟩
      · rcases eq_or_ne id' oldest with rfl | hid
        · obtain ⟨cs, hcs, hc'⟩ := hwaits
          rw [hdropped] at hcs
          cases hcs
          exact .inr (by simp [hc'])
        · exact hinsert.kept id' c' (waits_erase.mpr ⟨hid, hwaits⟩)
      · rcases hinsert.lookup id' cs hcs with hcs | ⟨rfl, hcs⟩
        · exact .inl (of_lookup_erase hcs)
        · exact .inr ⟨rfl, by simpa [lookup_erase_if, hpending] using hcs⟩
  | some pending =>
    dsimp only
    split_ifs
    · exact ⟨fun c' hc' => by simp [hc'], fun id' c' hwaits => .inl hwaits, .inr (by simp),
        fun id' cs hcs => .inl hcs⟩
    · constructor <;> simp only [Waits, lookup_replace_if (mem_of_lookup hpending)]
      · exact fun _ hc' => hc'
      · rintro id' c' ⟨cs, hcs, hc'⟩
        rcases eq_or_ne id' id with rfl | hid
        · rw [hpending] at hcs
          cases hcs
          exact .inl ⟨pending ++ [c], by simp, by simp [hc']⟩
        · exact .inl ⟨cs, by rw [if_neg hid, hcs], hc'⟩
      · exact .inl ⟨pending ++ [c], by simp, by simp⟩
      · intro id' cs hcs
        split_ifs at hcs with hid
        · exact .inr ⟨hid, by simp [hpending, Option.some.inj hcs]⟩
        · exact .inl hcs

theorem Buffers.waits {a' : Acceptor} {id' : ConnId} {c' : Candidate} (h : a.Buffers id c a')
    (hwaits : Waits a'.pendingIce id' c') : Waits a.pendingIce id' c' ∨ id' = id ∧ c' = c := by
  obtain ⟨cs, hcs, hc'⟩ := hwaits
  rcases h.lookup id' cs hcs with hcs | ⟨rfl, rfl⟩
  · exact .inl ⟨cs, hcs, hc'⟩
  · rcases List.mem_append.mp hc' with hc' | hc'
    · exact .inl (mem_pending.mp hc')
    · exact .inr ⟨rfl, List.mem_singleton.mp hc'⟩

/-! ### The offer that a candidate is added under -/

theorem currentOffer_eq_some : a.currentOffer id = some g ↔
    a.negotiating.lookup id = some g ∧ (a.peers g).map Peer.phase ≠ some .gone ∨
      a.negotiating.lookup id = none ∧ a.conns.lookup id = some g := by
  unfold currentOffer
  cases a.negotiating.lookup id with
  | none => simp
  | some g' =>
    dsimp only
    split_ifs with hgone
    · simp only [false_iff]
      rintro (⟨hg, hne⟩ | ⟨hg, -⟩)
      · cases hg
        exact hne hgone
      · cases hg
    · grind

namespace Ice

theorem ne_of_waits (hC : a.Ice) (h : Waits a.pendingIce id c) : c ≠ a.added.length :=
  (lt_of_addedFor (hC.waits_for id c h)).ne

theorem ne_of_rest {cs : List Candidate} (hC : a.Ice) (h : a.tasks g = some ⟨id, .replaying cs⟩)
    (hc : c ∈ cs) : c ≠ a.added.length :=
  (lt_of_addedFor (hC.rest_for g id cs h c hc)).ne

theorem of_current (hI : Tables a) (h : a.currentOffer id = some g) :
    g < a.offers ∧ ∀ id' phase, a.tasks g = some ⟨id', phase⟩ → id' = id := by
  rcases currentOffer_eq_some.mp h with ⟨hneg, -⟩ | ⟨-, hconns⟩
  · obtain ⟨phase, htask⟩ := hI.negotiated id g hneg
    refine ⟨hI.task_lt g _ htask, fun id' phase' h' => ?_⟩
    rw [htask] at h'
    exact (Task.mk.inj (Option.some.inj h')).1.symm
  · obtain ⟨phase, hpeer⟩ := hI.registered id g hconns
    exact ⟨hI.peer_lt g _ hpeer, fun id' phase' h' => hI.id_eq (hI.task g id' phase' h') hpeer⟩

theorem unbuilt_of_current (hC : a.Ice) (hI : Tables a) (hconns : a.conns.lookup id = none)
    (h : a.currentOffer id = some g) : a.peers g = none := by
  rcases currentOffer_eq_some.mp h with ⟨hneg, hgone⟩ | ⟨-, hg⟩
  · obtain ⟨phase, htask⟩ := hI.negotiated id g hneg
    cases phase with
    | replaying rest =>
      rcases hC.replayed g id rest htask with hg | hg
      · rw [hconns] at hg
        cases hg
      · simp [hg] at hgone
    | queued => exact hI.unbuilt g id _ htask (by simp)
    | closing p => exact hI.unbuilt g id _ htask (by simp)
    | creating => exact hI.unbuilt g id _ htask (by simp)
  · rw [hconns] at hg
    cases hg

theorem eq_of_current (hconns : a.conns.lookup id = some p) (h : a.currentOffer id = some g)
    (hkeeps : ∀ g ∈ a.negotiating.lookup id, ∀ q ∈ a.conns.lookup id, q = g) : p = g := by
  rcases currentOffer_eq_some.mp h with ⟨hneg, -⟩ | ⟨-, hg⟩
  · exact hkeeps g hneg p hconns
  · rw [hconns] at hg
    exact Option.some.inj hg

theorem hand (hC : a.Ice) (hI : Tables a) (hconns : a.conns.lookup id = some p)
    (hkeeps : ∀ g ∈ a.negotiating.lookup id, ∀ q ∈ a.conns.lookup id, q = g) :
    Acceptor.Ice { a with
      added := a.added ++ [⟨id, a.currentOffer id⟩]
      handed := a.handed ++ [(a.added.length, p)] } := by
  have hnew : ∀ q, (a.added.length, q) ∉ a.handed := fun q hq =>
    absurd (hC.handed_lt _ q hq) (lt_irrefl _)
  obtain ⟨phase, hpeer⟩ := hI.registered id p hconns
  refine { hC with
    record_lt := ?_, record_id := ?_, handed_lt := ?_, once := ?_, waits_for := ?_, waits_new := ?_,
    waits_unbuilt := ?_, rest_for := ?_, rest_new := ?_, rest_own := ?_, buffered := ?_,
    taken := ?_, produced := ?_ } <;>
    simp only [addedUnder_append, List.mem_append, List.mem_singleton, Prod.mk.injEq]
  · rintro c' id' g (hunder | ⟨rfl, rfl, hcurrent⟩)
    · exact hC.record_lt c' id' g hunder
    · exact (of_current hI hcurrent).1
  · rintro c' id' g id'' phase' (hunder | ⟨rfl, rfl, hcurrent⟩) htask
    · exact hC.record_id c' id' g id'' phase' hunder htask
    · exact (of_current hI hcurrent).2 id'' phase' htask
  · have := hC.handed_lt
    grind
  · exact nodup_handed hC.once hnew
  · exact fun id' c' hwaits => (hC.waits_for id' c' hwaits).append _
  · grind [hC.waits_new, hC.ne_of_waits]
  · grind [hC.waits_unbuilt, hC.ne_of_waits]
  · exact fun g id' cs h c' hc => (hC.rest_for g id' cs h c' hc).append _
  · grind [hC.rest_new, hC.ne_of_rest]
  · grind [hC.rest_own, hC.ne_of_rest]
  · rintro c' id' g phase' (hunder | ⟨rfl, rfl, hcurrent⟩) hover htask hphase
    · exact hC.buffered c' id' g phase' hunder hover htask hphase
    · obtain rfl := eq_of_current hconns hcurrent hkeeps
      rw [hI.unbuilt p id' phase' htask hphase] at hpeer
      cases hpeer
  · rintro c' id' g q (hunder | ⟨hlast, rfl, hcurrent⟩) hover hbuilt (hq | ⟨hlast', rfl⟩)
    · exact hC.taken c' id' g q hunder hover hbuilt hq
    · exact absurd hlast' (lt_of_addedFor hunder.addedFor).ne
    · exact absurd hq (hlast ▸ hnew q)
    · exact eq_of_current hconns hcurrent hkeeps
  · rintro c' id' g (hunder | ⟨rfl, rfl, hcurrent⟩) hover hbuilt habandoned
    · exact (hC.produced c' id' g hunder hover hbuilt habandoned).imp_left .inl
    · exact .inl (.inr ⟨rfl, (eq_of_current hconns hcurrent hkeeps).symm⟩)

/-- A candidate is early. -/
theorem buffer (hC : a.Ice) (hI : Tables a) (hconns : a.conns.lookup id = none)
    (h : Buffers { a with added := a.added ++ [⟨id, a.currentOffer id⟩] } id a.added.length a')
    (heq : a' = { a with
      added := a.added ++ [⟨id, a.currentOffer id⟩]
      pendingIce := a'.pendingIce
      overflow := a'.overflow }) : a'.Ice := by
  have hover : ∀ {c'}, c' ∉ a'.overflow → c' ∉ a.overflow := fun hc' hc => hc' (h.overflow _ hc)
  have hwaits : ∀ {id' c'}, Waits a'.pendingIce id' c' →
      Waits a.pendingIce id' c' ∨ id' = id ∧ c' = a.added.length := h.waits
  rw [heq]
  refine { hC with
    record_lt := ?_, record_id := ?_, handed_lt := ?_, queue := ?_, waits_for := ?_,
    waits_new := ?_, waits_unbuilt := ?_, rest_for := ?_, rest_left := ?_, rest_own := ?_,
    held := ?_, buffered := ?_, taken := ?_, produced := ?_ } <;>
    simp only [addedUnder_append]
  · rintro c' id' g (hunder | ⟨rfl, rfl, hcurrent⟩)
    · exact hC.record_lt c' id' g hunder
    · exact (of_current hI hcurrent).1
  · rintro c' id' g id'' phase' (hunder | ⟨rfl, rfl, hcurrent⟩) htask
    · exact hC.record_id c' id' g id'' phase' hunder htask
    · exact (of_current hI hcurrent).2 id'' phase' htask
  · have := hC.handed_lt
    grind
  · intro id' cs hcs
    rcases h.lookup id' cs hcs with hcs | ⟨rfl, rfl⟩
    · exact hC.queue id' cs hcs
    · refine List.nodup_append.mpr ⟨hC.nodup_pending _, List.nodup_singleton _, ?_⟩
      rintro c' hc' c'' hc'' rfl
      exact hC.ne_of_waits (mem_pending.mp hc') (List.mem_singleton.mp hc'')
  · intro id' c' hc'
    rcases hwaits hc' with hc' | ⟨rfl, rfl⟩
    · exact (hC.waits_for id' c' hc').append _
    · exact ⟨a.currentOffer id', by simp⟩
  · intro id' c' q hc' hq
    rcases hwaits hc' with hc' | ⟨rfl, rfl⟩
    · exact hC.waits_new id' c' q hc' hq
    · exact absurd (hC.handed_lt _ q hq) (lt_irrefl _)
  · rintro id' c' g hc' (hunder | ⟨rfl, rfl, hcurrent⟩)
    · rcases hwaits hc' with hc' | ⟨rfl, rfl⟩
      · exact hC.waits_unbuilt id' c' g hc' hunder
      · exact absurd (lt_of_addedFor hunder.addedFor) (lt_irrefl _)
    · exact hC.unbuilt_of_current hI hconns hcurrent
  · exact fun g id' cs htask c' hc => (hC.rest_for g id' cs htask c' hc).append _
  · intro g id' cs htask c' hc hc'
    rcases hwaits hc' with hc' | ⟨-, hlast⟩
    · exact hC.rest_left g id' cs htask c' hc hc'
    · exact hC.ne_of_rest htask hc hlast
  · grind [hC.rest_own, hC.ne_of_rest]
  · intro id' p hp
    cases hcs : a'.pendingIce.lookup id' with
    | none => rfl
    | some cs =>
      rcases h.lookup id' cs hcs with hcs | ⟨rfl, -⟩
      · rw [hC.held id' p hp] at hcs
        cases hcs
      · rw [hconns] at hp
        cases hp
  · rintro c' id' g phase' (hunder | ⟨rfl, rfl, hcurrent⟩) hc' htask hphase
    · exact (h.kept id' c' (hC.buffered c' id' g phase' hunder (hover hc') htask hphase)).resolve_right
        hc'
    · exact h.added.resolve_right hc'
  · rintro c' id' g q (hunder | ⟨rfl, rfl, hcurrent⟩) hc' hbuilt hq
    · exact hC.taken c' id' g q hunder (hover hc') hbuilt hq
    · exact absurd (hC.handed_lt _ q hq) (lt_irrefl _)
  · rintro c' id' g (hunder | ⟨rfl, rfl, hcurrent⟩) hc' hbuilt habandoned
    · exact hC.produced c' id' g hunder (hover hc') hbuilt habandoned
    · exact absurd (hC.unbuilt_of_current hI hconns hcurrent) hbuilt

theorem addIce (hC : a.Ice) (hI : Tables a)
    (hkeeps : ∀ g ∈ a.negotiating.lookup id, ∀ q ∈ a.conns.lookup id, q = g) :
    (a.addIce id).Ice := by
  unfold Acceptor.addIce
  cases hconns : a.conns.lookup id with
  | some p =>
    simp only [hconns]
    exact hC.hand hI hconns hkeeps
  | none =>
    simp only [hconns]
    refine hC.buffer hI hconns (bufferEarlyIce_buffers _ id a.added.length) ?_
    obtain ⟨pendingIce, overflow, h⟩ := frame_bufferEarlyIce
      { a with added := a.added ++ [(⟨id, a.currentOffer id⟩ : Added)] } id a.added.length
    rw [h]

/-- Every step that leaves the candidates to the connection of their own offer. -/
theorem next {l : Label} (hC : a.Ice) (hI : Tables a) (hspares : a.SparesNewer l)
    (hkeeps : a.KeepsIce l) (h : WebRtc.next config a l = some a') : a'.Ice := by
  cases l with
  | startOffer id portRange =>
    obtain ⟨-, rfl⟩ | ⟨-, rfl⟩ := startOffer_cases h
    · exact hC
    · exact hC.acceptOffer hI
  | takeAnswer id =>
    cases h
    exact hC.of_eq rfl rfl rfl rfl rfl rfl rfl rfl (fun _ => Iff.rfl) (fun _ _ hgone => hgone)
  | addIce id =>
    cases h
    exact hC.addIce hI hkeeps
  | negotiate g =>
    obtain ⟨id, htask, rfl⟩ := negotiate_eq_some h
    exact hC.negotiate hI htask
  | created g =>
    obtain ⟨id, htask, rfl⟩ := created_eq_some h
    exact hC.create hI htask
  | replayed g =>
    obtain ⟨id, rest, htask, rfl⟩ := replayed_eq_some h
    exact hC.replay hI.task htask
  | raised g =>
    obtain ⟨id, phase, htask, -, rfl⟩ := raised_eq_some h
    exact hC.fail hI htask (hkeeps _ htask)
  | connected p =>
    obtain ⟨id, hpeer, rfl⟩ := connected_eq_some h
    exact hC.opened hI hpeer
  | lost p =>
    obtain ⟨id, phase, hpeer, hphase, rfl⟩ := lost_eq_some h
    exact hC.closed hI hpeer hphase
  | close p =>
    obtain ⟨peer, hpeer, -, rfl⟩ := close_eq_some h
    exact hC.close hpeer
  | closeEnded p =>
    obtain ⟨id, closer, hpeer, rfl⟩ := closeEnded_eq_some h
    exact hC.endClose hI hpeer (fun q hq => hspares _ hpeer q hq) fun hneg => hkeeps _ hpeer hneg
  | deadlinePassed g =>
    obtain ⟨id, htimer, -, rfl⟩ := deadlinePassed_eq_some h
    exact hC.enforceDeadline hI

end Ice

end Acceptor

/-! ### Who was handed a candidate -/

theorem filter_handed {handed : List (Candidate × Offer)} (h : (handed.map Prod.fst).Nodup)
    (hmem : (c, p) ∈ handed) : handed.filter (fun e => e.1 = c) = [(c, p)] := by
  induction handed with
  | nil => simp at hmem
  | cons e handed ih =>
    obtain ⟨hnew, hnodup⟩ := List.nodup_cons.mp h
    rcases List.mem_cons.mp hmem with rfl | hmem
    · rw [List.filter_cons_of_pos (by simp), List.filter_eq_nil_iff.mpr]
      intro e he hc
      exact hnew (List.mem_map.mpr ⟨e, he, of_decide_eq_true hc⟩)
    · rw [List.filter_cons_of_neg, ih hnodup hmem]
      intro hc
      rw [of_decide_eq_true hc] at hnew
      exact hnew (List.mem_map.mpr ⟨_, hmem, rfl⟩)

/-- A step that leaves every candidate to the connection of its own offer, and takes no newer
connection away. -/
def Lossless (a : Acceptor) (l : Label) : Prop := a.SparesNewer l ∧ a.KeepsIce l

instance (a : Acceptor) (l : Label) : Decidable (Lossless a l) := instDecidableAnd

/-- **Trickle ICE**: a candidate added under an offer is handed over once, to the connection that
the offer produced. -/
theorem ice_handed (config : WebRtcConfig) {ls : List Label} {a : Acceptor}
    (hall : (acceptor config).AllSteps Lossless ls) (hrun : (acceptor config).run ls = some a)
    (c : Candidate) (id : ConnId) (g : Offer) (hunder : AddedUnder a.added c id g)
    (hover : c ∉ a.overflow) (hbuilt : a.peers g ≠ none) (habandoned : g ∉ a.abandoned)
    (hreplaying : a.isReplaying g = false) :
    a.handed.filter (fun e => e.1 = c) = [(c, g)] := by
  have hI : Tables a ∧ a.Ice := by
    refine TransitionSystem.AllSteps.invariant (I := fun a => Tables a ∧ a.Ice)
      ⟨Tables.init, Acceptor.Ice.init⟩ ?_ hall hrun
    rintro a l a' ⟨hI, hC⟩ ⟨hspares, hkeeps⟩ h
    exact ⟨hI.next hspares h, hC.next hI hspares hkeeps h⟩
  refine filter_handed hI.2.once ?_
  rcases hI.2.produced c id g hunder hover hbuilt habandoned with hhanded | ⟨cs, htask, -⟩
  · exact hhanded
  · rw [Acceptor.isReplaying_of_task htask] at hreplaying
    cases hreplaying

/-- A client that trickles one candidate while its offer is negotiated. -/
def trickle : List Label :=
  [.startOffer 1 none, .addIce 1, .negotiate 0, .created 0, .replayed 0, .connected 0]

theorem ice_handed_trickle :
    (((acceptor twoSlots).run trickle).get (by decide +kernel)).handed.filter (fun e => e.1 = 0) =
      [(0, 0)] :=
  ice_handed twoSlots (by decide +kernel) (Option.some_get (by decide +kernel)).symm 0 1 0
    (by decide +kernel) (by decide +kernel) (by decide +kernel) (by decide +kernel)
    (by decide +kernel)

/-- A reconnect whose candidate arrives while the superseded connection is closed: the close
discards it. -/
def discardedCandidate : List Label :=
  firstOffer ++ [.startOffer 1 none, .negotiate 1, .addIce 1, .closeEnded 0, .created 1]

theorem not_ice_handed : ¬ ∀ config ls a, (acceptor config).run ls = some a →
    ∀ c id g, AddedUnder a.added c id g → c ∉ a.overflow → a.peers g ≠ none → g ∉ a.abandoned →
      a.isReplaying g = false → a.handed.filter (fun e => e.1 = c) = [(c, g)] := by
  intro h
  have hhanded := h twoSlots discardedCandidate _ (Option.some_get (by decide +kernel)).symm
    0 1 1 (by decide +kernel) (by decide +kernel) (by decide +kernel) (by decide +kernel)
    (by decide +kernel)
  exact absurd hhanded (by decide +kernel)

end ReactorRuntime.WebRtc
