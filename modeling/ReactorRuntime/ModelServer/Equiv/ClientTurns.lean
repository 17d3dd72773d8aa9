import ReactorRuntime.ModelServer.Equiv.Client

/-!
# The turns of the client's calls

A step or a reset has its turn from where it takes `_call_lock` to where it releases it.  Who has the
turn is the only one at work on the reset flag, the generation and the request ids, and what
holds of these depends on how far its call is (`Holds`).  Between two turns the generation is that
of the last reset that returned, and the reset flag is down only if the last reset that took its
turn returned (`Turn`).
-/

namespace ReactorRuntime.ModelServer.Client

open Lists

variable {Payload Output : Type} {config : Config} {s s' : State Payload Output} {i : ℕ}
  {c c' : Call Payload Output}

/-! ### The holder of the call lock -/

/-- Whether a call holds `_call_lock`. -/
def Call.inside (c : Call Payload Output) : Bool :=
  c.request.isExchange && match c.progress with
    | .begun => false
    | .locking => false
    | .closing => false
    | .ended _ => false
    | _ => true

/-- Whether a call has its request id, and not its result yet. -/
def Call.exchanging (c : Call Payload Output) : Bool :=
  match c.progress with
  | .entering _ => true
  | .sending _ => true
  | .losing _ _ => true
  | .checking _ => true
  | .waiting => true
  | .cleaning _ => true
  | .concluding _ => true
  | _ => false

def Completed (s : State Payload Output) : Prop :=
  ∃ reset generation, s.attempts.getLast? = some reset ∧ (reset, generation) ∈ s.returned

def lastGeneration (config : Config) (s : State Payload Output) : ℕ :=
  (s.returned.getLast?.map Prod.snd).getD config.generation

def Result.generation? : Result Output → Option ℕ
  | .ok (.generation generation) => some generation
  | _ => none

theorem eq_of_generation? {result : Result Output} {generation : ℕ}
    (h : result.generation? = some generation) : result = .ok (.generation generation) := by
  unfold Result.generation? at h
  split at h
  · rw [Option.some.inj h]
  · cases h

structure Holds (s : State Payload Output) (i : ℕ) (c : Call Payload Output) : Prop where
  attempt : c.request.isReset = true → s.attempts.getLast? = some i
  opening : c.progress = .opening → c.request.isReset = false → s.resetRequired = false →
    Completed s
  required : c.request.isReset = true → c.exchanging = true → s.resetRequired = true
  completed : c.request.isReset = false → c.exchanging = true → Completed s
  returning : ∀ result generation, c.progress = .leaving result →
    result.generation? = some generation → c.request.isReset = true ∧ s.generation = generation
  raising : ∀ result, c.progress = .leaving result → result.generation? = none →
    c.request.isReset = true → s.resetRequired = true ∨ s.ended ≠ none

/-- The fields that only the holder of the lock writes. -/
def State.turn (s : State Payload Output) : Bool × ℕ × ℕ × Option ℕ × List ℕ × List (ℕ × ℕ) :=
  (s.resetRequired, s.ids, s.generation, s.callLock, s.attempts, s.returned)

structure Ids (s : State Payload Output) : Prop where
  below : ∀ (i : ℕ) (c : Call Payload Output) (requestId : ℕ), s.calls[i]? = some c →
    c.requestId = some requestId → requestId < s.ids
  own : ∀ (i j : ℕ) (c d : Call Payload Output) (requestId : ℕ), s.calls[i]? = some c →
    s.calls[j]? = some d → c.requestId = some requestId → d.requestId = some requestId → i = j

/-- Who has the lock, and what the fields that it guards say. -/
structure Turn (config : Config) (s : State Payload Output) : Prop where
  ids : Ids s
  held : ∀ i, s.callLock = some i → i < s.calls.length
  lock : ∀ i c, s.calls[i]? = some c → (c.inside = true ↔ s.callLock = some i)
  holds : ∀ i c, s.callLock = some i → s.calls[i]? = some c → Holds s i c
  ready : s.ended = none → s.resetRequired = false →
    (∀ i c, s.callLock = some i → s.calls[i]? = some c → c.request.isReset = false) → Completed s
  generation : (∀ i c result, s.callLock = some i → s.calls[i]? = some c →
    c.progress = .leaving result → result.generation? = none) →
    s.generation = lastGeneration config s

/-- A step of a call that leaves the fields of its turn as they are, and does not end its turn. -/
structure Quiet (s s' : State Payload Output) (c c' : Call Payload Output) : Prop where
  turn : s'.turn = s.turn
  ended : s.ended ≠ none → s'.ended ≠ none
  request : (c'.request, c'.requestId) = (c.request, c.requestId)
  inside : c'.inside = c.inside
  stays : ∀ result, c.progress ≠ .leaving result
  opening : c'.progress ≠ .opening
  exchanging : c.inside = true → c'.exchanging = true → c.exchanging = true
  raising : ∀ result, c'.progress = .leaving result → result.generation? = none ∧
    (c.request.isReset = true → c.exchanging = true ∨ s'.ended ≠ none)

theorem Completed.of_turn (h : Completed s) (hturn : s'.turn = s.turn) : Completed s' := by
  simp only [State.turn, Prod.mk.injEq] at hturn
  obtain ⟨-, -, -, -, hattempts, hreturned⟩ := hturn
  unfold Completed
  rw [hattempts, hreturned]
  exact h

section Turn

theorem Holds.quiet (h : Holds s i c) (hinside : c.inside = true) (hquiet : Quiet s s' c c') :
    Holds s' i c' := by
  have hturn := hquiet.turn
  simp only [State.turn, Prod.mk.injEq] at hturn
  obtain ⟨hrequired, -, -, -, hattempts, -⟩ := hturn
  have hrequest : c'.request = c.request := (Prod.mk.inj hquiet.request).1
  constructor
  · intro hreset
    rw [hattempts]
    exact h.attempt (hrequest ▸ hreset)
  · intro hopening
    exact absurd hopening hquiet.opening
  · intro hreset hexchanging
    rw [hrequired]
    exact h.required (hrequest ▸ hreset) (hquiet.exchanging hinside hexchanging)
  · intro hreset hexchanging
    have hexchanging := hquiet.exchanging hinside hexchanging
    exact (h.completed (hrequest ▸ hreset) hexchanging).of_turn hquiet.turn
  · intro result generation hleaving hresult
    rw [(hquiet.raising result hleaving).1] at hresult
    cases hresult
  · intro result hleaving _ hreset
    have hreset : c.request.isReset = true := hrequest ▸ hreset
    refine ((hquiet.raising result hleaving).2 hreset).imp_left fun hexchanging => ?_
    rw [hrequired]
    exact h.required hreset hexchanging

theorem Holds.of_turn (h : Holds s i c) (hturn : s'.turn = s.turn)
    (hended : s.ended ≠ none → s'.ended ≠ none) : Holds s' i c := by
  have hfields := hturn
  simp only [State.turn, Prod.mk.injEq] at hfields
  obtain ⟨hrequired, -, hgeneration, -, hattempts, -⟩ := hfields
  constructor
  · rw [hattempts]
    exact h.attempt
  · rw [hrequired]
    exact fun hopening hreset hready => (h.opening hopening hreset hready).of_turn hturn
  · rw [hrequired]
    exact h.required
  · exact fun hreset hexchanging => (h.completed hreset hexchanging).of_turn hturn
  · rw [hgeneration]
    exact h.returning
  · rw [hrequired]
    exact fun result hleaving hresult hreset =>
      (h.raising result hleaving hresult hreset).imp_right hended

theorem Ids.set (h : Ids s) (hc : s.calls[i]? = some c) (hcalls : s'.calls = s.calls.set i c')
    (hids : c'.requestId = c.requestId ∧ s'.ids = s.ids ∨
      c'.requestId = some s.ids ∧ s'.ids = s.ids + 1) : Ids s' := by
  have hle : s.ids ≤ s'.ids := by
    rcases hids with ⟨-, hids⟩ | ⟨-, hids⟩
    · exact Nat.le_of_eq hids.symm
    · rw [hids]
      exact Nat.le_succ _
  -- A call has an id that it had before, or it is the one that takes the next id.
  have hold (j : ℕ) (d : Call Payload Output) (requestId : ℕ) (hd : s'.calls[j]? = some d)
      (hid : d.requestId = some requestId) :
      (∃ d, s.calls[j]? = some d ∧ d.requestId = some requestId) ∨
        j = i ∧ requestId = s.ids ∧ s'.ids = s.ids + 1 := by
    rw [hcalls, List.getElem?_set] at hd
    split_ifs at hd with hij
    · obtain rfl := hij
      cases hd
      rcases hids with ⟨hsame, -⟩ | ⟨hnew, hids⟩
      · exact .inl ⟨c, hc, hsame ▸ hid⟩
      · exact .inr ⟨rfl, Option.some.inj (hid.symm.trans hnew), hids⟩
    · exact .inl ⟨d, hd, hid⟩
  constructor
  · intro j d requestId hd hid
    rcases hold j d requestId hd hid with ⟨d, hd, hid⟩ | ⟨-, rfl, hids⟩
    · exact Nat.lt_of_lt_of_le (h.below j d requestId hd hid) hle
    · rw [hids]
      exact Nat.lt_succ_self _
  · intro j k d e requestId hd he hdid heid
    rcases hold j d requestId hd hdid with ⟨d, hd, hdid⟩ | ⟨rfl, hnew, -⟩
    · rcases hold k e requestId he heid with ⟨e, he, heid⟩ | ⟨rfl, hnew, -⟩
      · exact h.own j k d e requestId hd he hdid heid
      · exact absurd (h.below j d requestId hd hdid) (hnew ▸ Nat.lt_irrefl _)
    · rcases hold k e requestId he heid with ⟨e, he, heid⟩ | ⟨rfl, -, -⟩
      · exact absurd (h.below k e requestId he heid) (hnew ▸ Nat.lt_irrefl _)
      · rfl

theorem Turn.quiet (h : Turn config s) (hc : s.calls[i]? = some c) (hquiet : Quiet s s' c c') :
    Turn config { s' with calls := s.calls.set i c' } := by
  have hturn := hquiet.turn
  simp only [State.turn, Prod.mk.injEq] at hturn
  obtain ⟨hrequired, hids, hgeneration, hlock, hattempts, hreturned⟩ := hturn
  obtain ⟨hrequest, hrequestId⟩ := Prod.mk.inj hquiet.request
  have hlt := (List.getElem?_eq_some_iff.mp hc).1
  have hget (j : ℕ) (d : Call Payload Output) (hd : (s.calls.set i c')[j]? = some d) :
      (j = i ∧ d = c') ∨ (j ≠ i ∧ s.calls[j]? = some d) := by
    rw [List.getElem?_set] at hd
    split_ifs at hd with heq
    · exact .inl ⟨heq.symm, (Option.some.inj hd).symm⟩
    · exact .inr ⟨fun hji => heq hji.symm, hd⟩
  constructor
  · exact h.ids.set hc rfl (.inl ⟨hrequestId, hids⟩)
  · intro j hj
    exact Nat.lt_of_lt_of_eq (h.held j (hlock ▸ hj)) List.length_set.symm
  · intro j d hd
    change _ ↔ s'.callLock = some j
    rw [hlock]
    rcases hget j d hd with ⟨rfl, rfl⟩ | ⟨-, hd⟩
    · rw [hquiet.inside]
      exact h.lock j c hc
    · exact h.lock j d hd
  · intro j d hj hd
    change s'.callLock = some j at hj
    rw [hlock] at hj
    have hturn : State.turn { s' with calls := s.calls.set i c' } = s.turn := hquiet.turn
    rcases hget j d hd with ⟨rfl, rfl⟩ | ⟨-, hd⟩
    · have hinside := (h.lock j c hc).mpr hj
      exact ((h.holds j c hj hc).quiet hinside hquiet).of_turn rfl id
    · exact (h.holds j d hj hd).of_turn hturn hquiet.ended
  · intro hended hready hholder
    change s'.resetRequired = false at hready
    rw [hrequired] at hready
    suffices hold : Completed s from hold.of_turn hquiet.turn
    refine (h.ready ?_ hready fun j d hj hd => ?_)
    · by_contra hnot
      exact hquiet.ended hnot hended
    · by_cases hji : j = i
      · subst hji
        obtain rfl := Option.some.inj (hc.symm.trans hd)
        rw [← hrequest]
        refine hholder j c' (hlock ▸ hj) ?_
        exact List.getElem?_set_self hlt
      · refine hholder j d (hlock ▸ hj) ?_
        exact (List.getElem?_set_ne fun hij => hji hij.symm).trans hd
  · intro hholder
    unfold lastGeneration
    change s'.generation = (s'.returned.getLast?.map Prod.snd).getD config.generation
    rw [hgeneration, hreturned]
    refine h.generation fun j d result hj hd hleaving => ?_
    by_cases hji : j = i
    · subst hji
      obtain rfl := Option.some.inj (hc.symm.trans hd)
      exact absurd hleaving (hquiet.stays result)
    · refine hholder j d result (hlock ▸ hj) ?_ hleaving
      exact (List.getElem?_set_ne fun hij => hji hij.symm).trans hd

theorem Turn.act (h : Turn config s) (hc : s.calls[i]? = some c)
    (hcalls : s'.calls = s.calls.set i c')
    (hids : c'.requestId = c.requestId ∧ s'.ids = s.ids ∨
      c'.requestId = some s.ids ∧ s'.ids = s.ids + 1)
    (hheld : s.callLock = none ∨ s.callLock = some i)
    (hlock : c'.inside = true ∧ s'.callLock = some i ∨ c'.inside = false ∧ s'.callLock = none)
    (holds : s'.callLock = some i → Holds s' i c')
    (ready : s'.ended = none → s'.resetRequired = false →
      (s'.callLock = some i → c'.request.isReset = false) → Completed s')
    (generation : (∀ result, s'.callLock = some i → c'.progress = .leaving result →
      result.generation? = none) → s'.generation = lastGeneration config s') : Turn config s' := by
  have hlt := (List.getElem?_eq_some_iff.mp hc).1
  have hself : s'.calls[i]? = some c' := by rw [hcalls, List.getElem?_set_self hlt]
  have hholder (j : ℕ) (hj : s'.callLock = some j) : j = i := by
    rcases hlock with ⟨-, hlock⟩ | ⟨-, hlock⟩
    · exact (Option.some.inj (hlock.symm.trans hj)).symm
    · cases hlock.symm.trans hj
  constructor
  · exact h.ids.set hc hcalls hids
  · intro j hj
    rw [hholder j hj, hcalls, List.length_set]
    exact hlt
  · intro j d hd
    by_cases hji : j = i
    · subst hji
      obtain rfl := Option.some.inj (hself.symm.trans hd)
      rcases hlock with ⟨hinside, hlock⟩ | ⟨hinside, hlock⟩
      · exact iff_of_true hinside hlock
      · rw [hinside, hlock]
        exact iff_of_false Bool.false_ne_true (Option.some_ne_none j).symm
    · rw [hcalls, List.getElem?_set_ne fun hij => hji hij.symm] at hd
      refine iff_of_false (fun hinside => ?_) fun hj => hji (hholder j hj)
      have hj := (h.lock j d hd).mp hinside
      rcases hheld with hheld | hheld
      · cases hheld.symm.trans hj
      · exact hji (Option.some.inj (hj.symm.trans hheld))
  · intro j d hj hd
    obtain rfl := hholder j hj
    obtain rfl := Option.some.inj (hself.symm.trans hd)
    exact holds hj
  · exact fun hended hready hother => ready hended hready fun hi => hother i c' hi hself
  · exact fun hother => generation fun result hi hleaving => hother i c' result hi hself hleaving

theorem Turn.locking (h : Turn config s) (hc : s.calls[i]? = some c)
    (hprogress : c.progress = .locking) (hexchange : c.request.isExchange = true)
    (hadvance : advance config s i c = some (s', c')) :
    Turn config { s' with calls := s.calls.set i c' } := by
  obtain ⟨request, progress, wait, requestId, deadline⟩ := c
  obtain rfl : progress = .locking := hprogress
  simp only [advance] at hadvance
  split_ifs at hadvance with hfree
  cases hadvance
  have hnobody (j : ℕ) (d : Call Payload Output) (hj : s.callLock = some j) : False := by
    cases hfree.symm.trans hj
  refine h.act hc rfl (.inl ⟨rfl, rfl⟩) (.inl hfree) (.inl ⟨?_, rfl⟩)
    (fun _ => ⟨fun hreset => ?_, ?_, ?_, ?_, ?_, ?_⟩)
    (fun hended hready hstep => ?_) fun _ => h.generation fun j d _ hj _ _ => (hnobody j d hj).elim
  · exact (Bool.and_eq_true _ _).mpr ⟨hexchange, rfl⟩
  · cases request with
    | reset _ _ => exact List.getLast?_concat
    | step _ _ => cases hreset
    | signal _ => cases hreset
    | close => cases hreset
  · intro hopening
    cases hopening
  · intro _ hexchanging
    cases hexchanging
  · intro _ hexchanging
    cases hexchanging
  · intro _ _ hleaving
    cases hleaving
  · intro _ hleaving
    cases hleaving
  · have hcompleted : Completed s := h.ready hended hready fun j d hj _ => (hnobody j d hj).elim
    have hreset : request.isReset = false := hstep rfl
    cases request with
    | reset _ _ => cases hreset
    | step _ _ => exact hcompleted
    | signal _ => exact hcompleted
    | close => exact hcompleted

theorem Turn.usable (h : Turn config s) (hc : s.calls[i]? = some c)
    (hprogress : c.progress = .usable) (hexchange : c.request.isExchange = true)
    (hended : s.ended = none) :
    Turn config { s with calls := s.calls.set i { c with progress := .opening } } := by
  have hinside : c.inside = true := by
    unfold Call.inside
    rw [hexchange, hprogress]
    rfl
  have hlock := (h.lock i c hc).mp hinside
  have hholds := h.holds i c hlock hc
  have hsame (j : ℕ) (d : Call Payload Output) (hj : s.callLock = some j)
      (hd : s.calls[j]? = some d) : d = c := by
    obtain rfl := Option.some.inj (hj.symm.trans hlock)
    exact Option.some.inj (hd.symm.trans hc)
  have hready (hreset : c.request.isReset = false) (hrequired : s.resetRequired = false) :
      Completed s :=
    h.ready hended hrequired fun j d hj hd => hsame j d hj hd ▸ hreset
  refine h.act hc rfl (.inl ⟨rfl, rfl⟩) (.inr hlock) (.inl ⟨?_, hlock⟩)
    (fun _ => ⟨hholds.attempt, fun _ => hready, ?_, ?_, ?_, ?_⟩)
    (fun _ hrequired hreset => hready (hreset hlock) hrequired) fun _ => h.generation ?_
  · exact (Bool.and_eq_true _ _).mpr ⟨hexchange, rfl⟩
  · intro _ hexchanging
    cases hexchanging
  · intro _ hexchanging
    cases hexchanging
  · intro _ _ hleaving
    cases hleaving
  · intro _ hleaving
    cases hleaving
  · intro j d result hj hd hleaving
    rw [hsame j d hj hd, hprogress] at hleaving
    cases hleaving

theorem Turn.lock_of_progress (h : Turn config s) (hc : s.calls[i]? = some c)
    (hinside : c.inside = true) : s.callLock = some i ∧ Holds s i c :=
  ⟨(h.lock i c hc).mp hinside, h.holds i c ((h.lock i c hc).mp hinside) hc⟩

theorem Turn.entering (h : Turn config s) (hc : s.calls[i]? = some c)
    (hprogress : c.progress = .opening) (hexchange : c.request.isExchange = true)
    (hready : c.request.isReset = false → s.resetRequired = false)
    (message : ToModelServer Payload) :
    Turn config
      { s with
        resetRequired := s.resetRequired || c.request.isReset
        ids := s.ids + 1
        calls := s.calls.set i
          { c with requestId := some s.ids, progress := .entering message } } := by
  have hinside : c.inside = true := by
    unfold Call.inside
    rw [hexchange, hprogress]
    rfl
  obtain ⟨hlock, hholds⟩ := h.lock_of_progress hc hinside
  refine h.act hc rfl (.inr ⟨rfl, rfl⟩) (.inr hlock) (.inl ⟨?_, hlock⟩)
    (fun _ => ⟨hholds.attempt, ?_, fun hreset _ => ?_, fun hreset _ => ?_, ?_, ?_⟩)
    (fun _ hrequired hreset => ?_) fun _ => h.generation fun j d result hj hd hleaving => ?_
  · exact (Bool.and_eq_true _ _).mpr ⟨hexchange, rfl⟩
  · intro hopening
    cases hopening
  · exact (Bool.or_eq_true _ _).mpr (.inr hreset)
  · exact hholds.opening hprogress hreset (hready hreset)
  · intro _ _ hleaving
    cases hleaving
  · intro _ hleaving
    cases hleaving
  · have hstep := hreset hlock
    exact hholds.opening hprogress hstep (hready hstep)
  · obtain rfl := Option.some.inj (hj.symm.trans hlock)
    obtain rfl := Option.some.inj (hd.symm.trans hc)
    rw [hprogress] at hleaving
    cases hleaving

theorem Turn.concluding (h : Turn config s) (hc : s.calls[i]? = some c)
    {answer : Option (ToSession Output)} (hprogress : c.progress = .concluding answer)
    (hexchange : c.request.isExchange = true) (hreset : c.request.isReset = true) (generation : ℕ) :
    Turn config
      { s with
        generation
        resetRequired := false
        calls := s.calls.set i
          { c with progress := .leaving (.ok (.generation generation)) } } := by
  have hinside : c.inside = true := by
    unfold Call.inside
    rw [hexchange, hprogress]
    rfl
  obtain ⟨hlock, hholds⟩ := h.lock_of_progress hc hinside
  refine h.act hc rfl (.inl ⟨rfl, rfl⟩) (.inr hlock) (.inl ⟨?_, hlock⟩)
    (fun _ => ⟨hholds.attempt, ?_, ?_, ?_, fun result g hleaving hresult => ⟨hreset, ?_⟩, ?_⟩)
    (fun _ _ hstep => ?_) fun hnone => ?_
  · exact (Bool.and_eq_true _ _).mpr ⟨hexchange, rfl⟩
  · intro hopening
    cases hopening
  · intro _ hexchanging
    cases hexchanging
  · intro _ hexchanging
    cases hexchanging
  · cases hleaving
    exact Option.some.inj hresult
  · intro result hleaving hresult
    cases hleaving
    cases hresult
  · cases hreset.symm.trans (hstep hlock)
  · cases hnone _ hlock rfl

theorem Turn.leaving (h : Turn config s) (hc : s.calls[i]? = some c) {result : Result Output}
    (hprogress : c.progress = .leaving result) (hexchange : c.request.isExchange = true)
    (hadvance : advance config s i c = some (s', c')) :
    Turn config { s' with calls := s.calls.set i c' } := by
  have hinside : c.inside = true := by
    unfold Call.inside
    rw [hexchange, hprogress]
    rfl
  obtain ⟨hlock, hholds⟩ := h.lock_of_progress hc hinside
  have hsame (j : ℕ) (d : Call Payload Output) (hj : s.callLock = some j)
      (hd : s.calls[j]? = some d) : d = c := by
    obtain rfl := Option.some.inj (hj.symm.trans hlock)
    exact Option.some.inj (hd.symm.trans hc)
  obtain ⟨request, progress, wait, requestId, deadline⟩ := c
  obtain rfl : progress = .leaving result := hprogress
  cases hadvance
  refine h.act hc rfl (.inl ⟨rfl, rfl⟩) (.inr hlock) (.inr ⟨Bool.and_false _, rfl⟩)
    (fun hi => by cases hi) ?_ ?_
  · intro hended hrequired _
    cases hgeneration : result.generation? with
    | none =>
      -- No reset got here with the flag down, so the turn was that of a step.
      have hstep : request.isReset = false := by
        by_contra hreset
        rcases hholds.raising result rfl hgeneration (by simpa using hreset) with hflag | hover
        · cases hrequired.symm.trans hflag
        · exact hover hended
      have hcompleted : Completed s := h.ready hended hrequired fun j d hj hd =>
        hsame j d hj hd ▸ hstep
      obtain ⟨reset, generation, hlast, hmem⟩ := hcompleted
      refine ⟨reset, generation, hlast, ?_⟩
      rcases result with exc | output | generation | _
      · exact hmem
      · exact hmem
      · cases hgeneration
      · exact hmem
    | some generation =>
      obtain ⟨hreset, -⟩ := hholds.returning result generation rfl hgeneration
      refine ⟨i, generation, hholds.attempt hreset, ?_⟩
      rcases result with exc | output | g | _
      · cases hgeneration
      · cases hgeneration
      · obtain rfl : g = generation := Option.some.inj hgeneration
        exact List.mem_append_right _ (List.mem_singleton_self _)
      · cases hgeneration
  · intro _
    have hlast (hnone : result.generation? = none) : s.generation = lastGeneration config s := by
      refine h.generation fun j d result' hj hd hleaving => ?_
      cases hsame j d hj hd
      cases hleaving
      exact hnone
    rcases result with exc | output | generation | _
    · exact hlast rfl
    · exact hlast rfl
    · refine (hholds.returning _ generation rfl rfl).2.trans ?_
      unfold lastGeneration
      rw [List.getLast?_concat]
      rfl
    · exact hlast rfl

theorem quiet_raise {exc : Exc} (hinside : c.inside = c.request.isExchange)
    (hstays : ∀ result, c.progress ≠ .leaving result)
    (hreset : c.request.isReset = true → s.ended ≠ none) : Quiet s s c (c.raise exc) := by
  unfold Call.raise
  split_ifs with hexchange
  · refine ⟨rfl, id, rfl, ?_, hstays, nofun, nofun, fun result hleaving => ?_⟩
    · rw [hinside]
      exact Bool.and_true _
    · cases hleaving
      exact ⟨rfl, fun hr => .inr (hreset hr)⟩
  · refine ⟨rfl, id, rfl, ?_, hstays, nofun, nofun, nofun⟩
    rw [hinside, Bool.eq_false_iff.mpr hexchange]
    exact Bool.and_false _

theorem quiet_afterSend {message : ToModelServer Payload} (h : Sends s c message)
    (hinside : c.inside = c.request.isExchange) (hstays : ∀ result, c.progress ≠ .leaving result)
    (hexchanging : c.exchanging = true) (clock : Time) :
    Quiet s s c (c.afterSend clock message) := by
  cases message with
  | step _ =>
    exact ⟨rfl, id, rfl, hinside ▸ Bool.and_true _, hstays, nofun, fun _ _ => hexchanging, nofun⟩
  | reset _ _ =>
    exact ⟨rfl, id, rfl, hinside ▸ Bool.and_true _, hstays, nofun, fun _ _ => hexchanging, nofun⟩
  | cancel _ =>
    refine ⟨rfl, id, rfl, hinside ▸ Bool.and_true _, hstays, nofun, fun _ _ => hexchanging, ?_⟩
    intro result hleaving
    cases hleaving
    exact ⟨rfl, fun _ => .inl hexchanging⟩
  | signal _ =>
    refine ⟨rfl, id, rfl, ?_, hstays, nofun, fun _ _ => hexchanging, nofun⟩
    rw [hinside, show c.request.isExchange = false from h]
    exact Bool.and_false _

theorem quiet_afterRaise {message : ToModelServer Payload} {exc : Exc} (h : Sends s c message)
    (hinside : c.inside = c.request.isExchange) (hstays : ∀ result, c.progress ≠ .leaving result)
    (hexchanging : c.exchanging = true) : Quiet s s c (c.afterRaise exc message) := by
  cases message with
  | step _ =>
    exact ⟨rfl, id, rfl, hinside ▸ Bool.and_true _, hstays, nofun, fun _ _ => hexchanging, nofun⟩
  | reset _ _ =>
    exact ⟨rfl, id, rfl, hinside ▸ Bool.and_true _, hstays, nofun, fun _ _ => hexchanging, nofun⟩
  | cancel _ =>
    have hleaves (result : Result Output) (hresult : result.generation? = none) :
        Quiet s s c { c with progress := .leaving result } := by
      refine ⟨rfl, id, rfl, hinside ▸ Bool.and_true _, hstays, nofun, fun _ _ => hexchanging, ?_⟩
      intro result' hleaving
      cases hleaving
      exact ⟨hresult, fun _ => .inl hexchanging⟩
    cases exc <;> exact hleaves _ rfl
  | signal _ =>
    refine ⟨rfl, id, rfl, ?_, hstays, nofun, fun _ _ => hexchanging, nofun⟩
    rw [hinside, show c.request.isExchange = false from h]
    exact Bool.and_false _

theorem lose_turn (s : State Payload Output) (stage : Losing) : (lose s stage).1.turn = s.turn := by
  obtain ⟨state, ended, losses, told, hlose⟩ := lose_fst s stage
  rw [hlose]
  rfl

/-- A result that does not move the generation on leaves the fields of the turn as they are. -/
theorem conclude_cases (request : Request Payload) (answer : ToSession Output) :
    (conclude request answer).generation? = none ∨
      request.isReset = true ∧ ∃ generation,
        conclude request answer = .ok (.generation generation) := by
  cases request with
  | step _ _ => cases answer <;> exact .inl rfl
  | reset _ _ =>
    cases answer with
    | resetDone _ generation => exact .inr ⟨rfl, generation, rfl⟩
    | welcome _ _ _ => exact .inl rfl
    | refused _ => exact .inl rfl
    | result _ _ => exact .inl rfl
    | failed _ _ => exact .inl rfl
  | signal _ => cases answer <;> exact .inl rfl
  | close => cases answer <;> exact .inl rfl

theorem Turn.advance (h : Turn config s) (hc : s.calls[i]? = some c) (hfits : Fits s i c)
    (hadvance : advance config s i c = some (s', c')) :
    Turn config { s' with calls := s.calls.set i c' } := by
  have hended := (advance_moves hadvance).link.ended_ne
  obtain ⟨request, progress, wait, requestId, deadline⟩ := c
  cases progress with
  | begun =>
    refine h.quiet hc ?_
    cases request with
    | step _ timeout =>
      simp only [Client.advance] at hadvance
      split at hadvance <;> cases hadvance <;>
        exact ⟨rfl, id, rfl, rfl, nofun, nofun, nofun, nofun⟩
    | reset _ timeout =>
      simp only [Client.advance] at hadvance
      split at hadvance <;> cases hadvance <;>
        exact ⟨rfl, id, rfl, rfl, nofun, nofun, nofun, nofun⟩
    | signal _ =>
      cases hadvance
      exact ⟨rfl, id, rfl, rfl, nofun, nofun, nofun, nofun⟩
    | close =>
      simp only [Client.advance] at hadvance
      split_ifs at hadvance <;> cases hadvance <;>
        exact ⟨rfl, hended, rfl, rfl, nofun, nofun, nofun, nofun⟩
  | locking => exact h.locking hc rfl hfits hadvance
  | usable =>
    simp only [Client.advance] at hadvance
    split at hadvance <;> rename_i hsome
    · refine h.quiet hc ?_
      cases hadvance
      refine quiet_raise (Bool.and_true _) (fun _ => nofun) fun _ => ?_
      rw [hsome]
      exact Option.some_ne_none _
    · cases request with
      | step _ _ => cases hadvance; exact h.usable hc rfl rfl hsome
      | reset _ _ => cases hadvance; exact h.usable hc rfl rfl hsome
      | signal _ =>
        refine h.quiet hc ?_
        cases hadvance
        exact ⟨rfl, id, rfl, rfl, nofun, nofun, nofun, nofun⟩
      | close => exact absurd rfl hfits
  | opening =>
    cases request with
    | step request _ =>
      simp only [Client.advance] at hadvance
      split_ifs at hadvance with hrequired
      · refine h.quiet hc ?_
        cases hadvance
        exact quiet_raise rfl (fun _ => nofun) nofun
      · cases hadvance
        have hready : s.resetRequired = false := Bool.eq_false_iff.mpr hrequired
        have henter := h.entering hc rfl rfl (fun _ => hready) (.step ⟨s.ids, wait, request⟩)
        have hflag : (s.resetRequired || false) = s.resetRequired := Bool.or_false _
        exact hflag ▸ henter
    | reset sessionId _ =>
      cases hadvance
      have henter := h.entering hc rfl rfl nofun (.reset s.ids sessionId)
      have hflag : (s.resetRequired || true) = true := Bool.or_true _
      exact hflag ▸ henter
    | signal _ => cases hadvance
    | close => cases hadvance
  | entering message =>
    refine h.quiet hc ?_
    cases hadvance
    exact ⟨rfl, id, rfl, rfl, nofun, nofun, fun _ _ => rfl, nofun⟩
  | sending message => cases hadvance
  | losing message stage =>
    refine h.quiet hc ?_
    have hturn := lose_turn s stage
    simp only [Client.advance] at hadvance
    split at hadvance <;> rename_i heq <;> rw [heq] at hturn <;> cases hadvance <;>
      exact ⟨hturn, hended, rfl, rfl, nofun, nofun, fun _ _ => rfl, nofun⟩
  | checking message =>
    refine h.quiet hc ?_
    simp only [Client.advance] at hadvance
    split at hadvance <;> cases hadvance
    · exact quiet_afterRaise hfits (Bool.and_true _) (fun _ => nofun) rfl
    · exact quiet_afterSend hfits (Bool.and_true _) (fun _ => nofun) rfl _
  | waiting =>
    refine h.quiet hc ?_
    simp only [Client.advance] at hadvance
    split at hadvance
    · cases hadvance
      exact ⟨rfl, id, rfl, rfl, nofun, nofun, fun _ _ => rfl, nofun⟩
    · split at hadvance
      · cases hadvance
        exact ⟨rfl, id, rfl, rfl, nofun, nofun, fun _ _ => rfl, nofun⟩
      · split_ifs at hadvance <;> cases hadvance <;>
          exact ⟨rfl, id, rfl, rfl, nofun, nofun, fun _ _ => rfl, nofun⟩
  | cleaning outcome =>
    refine h.quiet hc ?_
    cases hadvance
    rcases outcome with exc | answer
    · refine ⟨rfl, id, rfl, rfl, nofun, nofun, fun _ _ => rfl, fun result hleaving => ?_⟩
      cases hleaving
      exact ⟨rfl, fun _ => .inl rfl⟩
    · exact ⟨rfl, id, rfl, rfl, nofun, nofun, fun _ _ => rfl, nofun⟩
  | concluding answer =>
    cases answer with
    | none =>
      refine h.quiet hc ?_
      simp only [Client.advance] at hadvance
      split at hadvance <;> cases hadvance
      · exact ⟨rfl, id, rfl, rfl, nofun, nofun, fun _ _ => rfl, nofun⟩
      · refine ⟨rfl, id, rfl, rfl, nofun, nofun, fun _ _ => rfl, fun result hleaving => ?_⟩
        cases hleaving
        exact ⟨rfl, fun _ => .inl rfl⟩
    | some answer =>
      simp only [Client.advance, Option.some.injEq, Prod.mk.injEq] at hadvance
      obtain ⟨rfl, rfl⟩ := hadvance
      rcases conclude_cases request answer with hnone | ⟨hreset, generation, hresult⟩
      · refine h.quiet hc
          ⟨?_, ?_, rfl, rfl, nofun, nofun, fun _ _ => rfl, fun result hleaving => ?_⟩
        · split <;> rename_i heq
          · rw [heq] at hnone
            cases hnone
          · rfl
        · split <;> exact id
        · cases hleaving
          exact ⟨hnone, fun _ => .inl rfl⟩
      · rw [hresult]
        exact h.concluding hc rfl hfits.1 hreset generation
  | leaving result => exact h.leaving hc rfl hfits.1 hadvance
  | closing =>
    refine h.quiet hc ?_
    cases hadvance
    exact ⟨rfl, id, rfl, rfl, nofun, nofun, nofun, nofun⟩
  | ended result => cases hadvance

theorem Turn.same (h : Turn config s) (hturn : s'.turn = s.turn) (hcalls : s'.calls = s.calls)
    (hended : s.ended ≠ none → s'.ended ≠ none) : Turn config s' := by
  have hfields := hturn
  simp only [State.turn, Prod.mk.injEq] at hfields
  obtain ⟨hrequired, hids, hgeneration, hlock, hattempts, hreturned⟩ := hfields
  constructor
  · constructor
    · rw [hcalls, hids]
      exact h.ids.below
    · rw [hcalls]
      exact h.ids.own
  · rw [hcalls, hlock]
    exact h.held
  · rw [hcalls, hlock]
    exact h.lock
  · rw [hcalls, hlock]
    exact fun i c hi hc => (h.holds i c hi hc).of_turn hturn hended
  · rw [hcalls, hlock, hrequired]
    intro hnone hready hholder
    refine (h.ready ?_ hready hholder).of_turn hturn
    by_contra hnot
    exact hended hnot hnone
  · unfold lastGeneration
    rw [hcalls, hlock, hgeneration, hreturned]
    exact h.generation

theorem Turn.call (h : Turn config s) (request : Request Payload) :
    Turn config { s with calls := s.calls ++ [Call.mk request .begun none none none] } := by
  have hget (j : ℕ) (d : Call Payload Output)
      (hd : (s.calls ++ [Call.mk request .begun none none none])[j]? = some d) :
      s.calls[j]? = some d ∨ j = s.calls.length ∧ d = .mk request .begun none none none := by
    rw [List.getElem?_append] at hd
    split_ifs at hd with hlt
    · exact .inl hd
    · obtain ⟨hle, hone⟩ := List.getElem?_eq_some_iff.mp hd
      rw [List.length_singleton] at hle
      refine .inr ⟨by omega, ?_⟩
      exact List.mem_singleton.mp (List.mem_of_getElem? hd)
  have hholder (j : ℕ) (d : Call Payload Output) (hj : s.callLock = some j)
      (hd : (s.calls ++ [Call.mk request .begun none none none])[j]? = some d) :
      s.calls[j]? = some d := by
    rcases hget j d hd with hd | ⟨hlen, -⟩
    · exact hd
    · exact absurd (h.held j hj) (hlen ▸ Nat.lt_irrefl _)
  have hold (j : ℕ) (d : Call Payload Output) (hd : s.calls[j]? = some d) :
      (s.calls ++ [Call.mk request .begun none none none])[j]? = some d :=
    (List.getElem?_append_left (List.getElem?_eq_some_iff.mp hd).1).trans hd
  constructor
  · constructor
    · intro j d requestId hd hid
      rcases hget j d hd with hd | ⟨-, rfl⟩
      · exact h.ids.below j d requestId hd hid
      · cases hid
    · intro j k d e requestId hd he hdid heid
      rcases hget j d hd with hd | ⟨-, rfl⟩
      · rcases hget k e he with he | ⟨-, rfl⟩
        · exact h.ids.own j k d e requestId hd he hdid heid
        · cases heid
      · cases hdid
  · intro j hj
    have hlt := h.held j hj
    change j < (s.calls ++ _).length
    rw [List.length_append]
    omega
  · intro j d hd
    rcases hget j d hd with hd | ⟨rfl, rfl⟩
    · exact h.lock j d hd
    · refine iff_of_false (fun hinside => ?_) fun hj => Nat.lt_irrefl _ (h.held _ hj)
      exact Bool.false_ne_true ((Bool.and_false _).symm.trans hinside)
  · exact fun j d hj hd => (h.holds j d hj (hholder j d hj hd)).of_turn rfl id
  · exact fun hended hready hother => h.ready hended hready fun j d hj hd =>
      hother j d hj (hold j d hd)
  · exact fun hother => h.generation fun j d result hj hd => hother j d result hj (hold j d hd)

end Turn

end ReactorRuntime.ModelServer.Client
