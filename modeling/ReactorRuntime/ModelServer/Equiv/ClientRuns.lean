import ReactorRuntime.ModelServer.Equiv.ClientTurns

/-!
# A call gets its own answer, and a loss is told once

In every run of the client, with any number of calls and any link, a step or a reset ends by an
answer with its own request id, by its timeout, or by the end of the link, unless it raises by
itself; it keeps the answer that it has; a step sends nothing unless the last reset returned; and a
loss is told once, with the message that every later call raises (`client_correct`).

A step before the first reset, a timeout that is negative and a message that cannot be encoded raise
by themselves, and a negative timeout does so after a loss too (`not_fromLink`).
-/

namespace ReactorRuntime.ModelServer.Client

open Lists

variable {Payload Output : Type} {config : Config} {s s' : State Payload Output} {i : ℕ}
  {c c' : Call Payload Output}

/-! ### What holds in every state -/

structure Sound (config : Config) (s : State Payload Output) : Prop where
  linked : Linked s
  accounts : Accounts s
  table : Table s
  fits : ∀ i c, s.calls[i]? = some c → Fits s i c
  turn : Turn config s

section Sound

/-- The calls after one of them took a step. -/
theorem fits_set (hfits : ∀ i c, s.calls[i]? = some c → Fits s i c) (hlater : Later s s')
    (hc' : Fits s' i c') (hcalls : s'.calls = s.calls.set i c') :
    ∀ j d, s'.calls[j]? = some d → Fits s' j d := by
  intro j d hd
  rw [hcalls, List.getElem?_set] at hd
  split_ifs at hd with hij
  · obtain rfl := hij
    obtain rfl := Option.some.inj hd
    exact hc'
  · exact hlater.fits (hfits j d hd)

theorem Sound.next (h : Sound config s) (hc : s.calls[i]? = some c)
    (hadvance : advance config s i c = some (s', c')) :
    Sound config { s' with calls := s.calls.set i c' } := by
  have hmoves := advance_moves hadvance
  have hlink : LinkMove s { s' with calls := s.calls.set i c' } c.pending c'.pending :=
    hmoves.link.congr rfl
  have hlater : Later s { s' with calls := s.calls.set i c' } := ⟨hmoves.later.received,
    hmoves.later.sends, hmoves.later.clock, fun _ hover => hlink.ends hover⟩
  refine ⟨h.linked.move hlink, h.accounts.call hc hlink rfl hmoves.reader, ?_, ?_, ?_⟩
  · intro e he
    exact (h.table e (hmoves.replies e he)).imp_left (hlater.received _)
  · refine fits_set h.fits hlater (hlater.fits ?_) rfl
    exact fits_advance (h.fits i c hc) h.linked h.table hadvance
  · exact h.turn.advance hc (h.fits i c hc) hadvance

theorem pending_afterLink (s : State Payload Output) (message : ToModelServer Payload)
    (outcome : Sent) : (afterLink s c message outcome).pending = none := by
  cases outcome with
  | sent => exact Call.pending_afterSend _ _
  | gone _ => rfl
  | unencoded _ => exact Call.pending_afterRaise _ _

theorem Sound.send (h : Sound config s) (hc : s.calls[i]? = some c)
    {message : ToModelServer Payload} (hprogress : c.progress = .sending message)
    (outcome : Sent) :
    Sound config
      { s with
        sends := s.sends ++ [(i, message, outcome)]
        calls := s.calls.set i (afterLink s c message outcome) } := by
  have hfits := h.fits i c hc
  unfold Fits at hfits
  rw [hprogress] at hfits
  have hinside : c.inside = c.request.isExchange := by
    unfold Call.inside
    rw [hprogress]
    exact Bool.and_true _
  have hstays (result : Result Output) : c.progress ≠ .leaving result := by
    rw [hprogress]
    exact nofun
  have hexchanging : c.exchanging = true := by
    unfold Call.exchanging
    rw [hprogress]
  have hpending : c.pending = none := by
    unfold Call.pending
    rw [hprogress]
  have hlink : LinkMove s
      { s with
        sends := s.sends ++ [(i, message, outcome)]
        calls := s.calls.set i (afterLink s c message outcome) }
      c.pending (afterLink s c message outcome).pending := by
    rw [hpending, pending_afterLink]
    exact .same none rfl rfl rfl rfl
  have hlater : Later s
      { s with
        sends := s.sends ++ [(i, message, outcome)]
        calls := s.calls.set i (afterLink s c message outcome) } :=
    ⟨fun _ hanswer => hanswer, fun _ hsend => List.mem_append_left _ hsend, Int.le_refl _,
      fun _ hover => hlink.ends hover⟩
  refine ⟨h.linked.move hlink, h.accounts.call hc hlink rfl rfl, h.table, ?_, ?_⟩
  · refine fits_set h.fits hlater ?_ rfl
    have hsends := hlater.sendsMessage hfits
    cases outcome with
    | sent => exact fits_afterSend hsends _
    | gone text => exact hsends
    | unencoded text =>
      have hmem : (i, message, .unencoded text) ∈ s.sends ++ [(i, message, .unencoded text)] :=
        List.mem_append_right _ (List.mem_singleton_self _)
      exact fits_afterRaise hsends (.unencoded hmem)
  · have hquiet : Quiet s s c (afterLink s c message outcome) := by
      cases outcome with
      | sent => exact quiet_afterSend hfits hinside hstays hexchanging _
      | gone text =>
        refine ⟨rfl, id, rfl, ?_, hstays, nofun, fun _ _ => hexchanging, nofun⟩
        exact (Bool.and_true _).trans hinside.symm
      | unencoded text => exact quiet_afterRaise hfits hinside hstays hexchanging
    exact (h.turn.quiet hc hquiet).same rfl rfl id

theorem Sound.call (h : Sound config s) (request : Request Payload) :
    Sound config { s with calls := s.calls ++ [Call.mk request .begun none none none] } := by
  have hlink : LinkMove s
      { s with calls := s.calls ++ [Call.mk request .begun none none none] }
      s.reader.pending s.reader.pending := .same _ rfl rfl rfl rfl
  have hlater : Later s
      { s with calls := s.calls ++ [Call.mk request .begun none none none] } :=
    ⟨fun _ hanswer => hanswer, fun _ hsend => hsend, Int.le_refl _, fun _ hover => hlink.ends hover⟩
  refine ⟨h.linked.move hlink, ⟨h.accounts.told, fun d hd message hmessage => ?_,
    h.accounts.reader, ?_⟩, h.table, fun j d hd => ?_, h.turn.call request⟩
  · rcases List.mem_append.mp hd with hd | hd
    · exact h.accounts.calls d hd message hmessage
    · rw [List.mem_singleton.mp hd] at hmessage
      cases hmessage
  · have hcount := h.accounts.count
    rw [List.countP_append]
    exact hcount
  · change (s.calls ++ _)[j]? = some d at hd
    rw [List.getElem?_append] at hd
    split_ifs at hd
    · exact hlater.fits (h.fits j d hd)
    · rw [List.mem_singleton.mp (List.mem_of_getElem? hd)]
      trivial

theorem Sound.other (h : Sound config s)
    (hlink : LinkMove s s' s.reader.pending s'.reader.pending) (hturn : s'.turn = s.turn)
    (hcalls : s'.calls = s.calls) (hlater : Later s s')
    (htable : Table s') : Sound config s' := by
  refine ⟨h.linked.move hlink, h.accounts.read hlink hcalls, htable, fun j d hd => ?_,
    h.turn.same hturn hcalls hlink.ended_ne⟩
  rw [hcalls] at hd
  exact hlater.fits (h.fits j d hd)

theorem Table.matchReply (h : Table s) {message : ToSession Output}
    (hmem : message ∈ s.received) : Table (matchReply s message) := by
  unfold Client.matchReply
  split
  · rename_i requestId hid
    split_ifs
    · intro e he
      rcases Dict.mem_of_mem_set he with he | rfl
      · exact h e he
      · exact ⟨hmem, hid⟩
    · exact h
  · exact h

def Heard (s : State Payload Output) : Prop :=
  ∀ message, s.reader = .matching message → message ∈ s.received

theorem matchReply_eq (s : State Payload Output) (message : ToSession Output) :
    ∃ replies, matchReply s message = { s with replies } := by
  unfold Client.matchReply
  split
  · split_ifs
    · exact ⟨_, rfl⟩
    · exact ⟨_, rfl⟩
  · exact ⟨_, rfl⟩

/-- A step of the reader that is not a receive. -/
theorem Sound.read (h : Sound config s) (hheard : Heard s) (hread : read s = some s') :
    Sound config s' ∧ Heard s' := by
  unfold Client.read at hread
  split at hread <;> rename_i hreader
  · cases hread
  · rename_i message
    cases hread
    have htable := h.table.matchReply (hheard message hreader)
    obtain ⟨replies, heq⟩ := matchReply_eq s message
    rw [heq] at htable ⊢
    refine ⟨h.other ?_ rfl rfl ⟨fun _ hm => hm, fun _ hm => hm, Int.le_refl _, fun _ ho => ho⟩
      htable, nofun⟩
    rw [hreader]
    exact .same none rfl rfl rfl rfl
  · cases hread
    refine ⟨h.other ?_ rfl rfl ⟨fun _ hm => hm, fun _ hm => hm, Int.le_refl _, fun _ ho => ho⟩
      h.table, nofun⟩
    rw [hreader]
    exact .same none rfl rfl rfl rfl
  · rename_i stage
    have hlink := lose_linkMove s stage
    obtain ⟨state, ended, losses, told, hlose⟩ := lose_fst s stage
    split at hread <;> rename_i heq <;> cases hread <;> rw [heq] at hlink hlose <;>
      obtain rfl : _ = _ := hlose
    · refine ⟨h.other ?_ rfl rfl ⟨fun _ hm => hm, fun _ hm => hm, Int.le_refl _, fun _ ho => ?_⟩
        h.table, nofun⟩
      · rw [hreader]
        exact hlink.congr rfl
      · exact hlink.ends ho
    · refine ⟨h.other ?_ rfl rfl ⟨fun _ hm => hm, fun _ hm => hm, Int.le_refl _, fun _ ho => ?_⟩
        h.table, nofun⟩
      · rw [hreader]
        exact hlink.congr rfl
      · exact hlink.ends ho
  · cases hread

theorem Sound.step (h : Sound config s) (hheard : Heard s) {label : Label Payload Output}
    (hstep : step config s label = some s') : Sound config s' ∧ Heard s' := by
  cases label with
  | call request =>
    cases hstep
    exact ⟨h.call request, hheard⟩
  | next i =>
    obtain ⟨c, hc, hstep⟩ := Option.bind_eq_some_iff.mp hstep
    obtain ⟨⟨t, c'⟩, hadvance, hstep⟩ := Option.bind_eq_some_iff.mp hstep
    cases hstep
    have hmoves := advance_moves hadvance
    have hnext := h.next hc hadvance
    rw [← hmoves.calls] at hnext
    refine ⟨hnext, fun message hreader => ?_⟩
    change t.reader = _ at hreader
    change message ∈ t.received
    rw [hmoves.received]
    exact hheard message (hmoves.reader ▸ hreader)
  | send i outcome =>
    obtain ⟨c, hc, hstep⟩ := Option.bind_eq_some_iff.mp hstep
    split at hstep <;> rename_i hprogress
    · cases hstep
      exact ⟨h.send hc hprogress outcome, hheard⟩
    · cases hstep
  | tick time =>
    cases hstep
    refine ⟨h.other (.same _ rfl rfl rfl rfl) rfl rfl ⟨fun _ hm => hm, fun _ hm => hm, ?_,
      fun _ ho => ho⟩ h.table, hheard⟩
    exact Int.le_add_of_nonneg_right (Int.natCast_nonneg time)
  | deliver message =>
    simp only [Client.step] at hstep
    split at hstep <;> rename_i hreader
    · cases hstep
      have hgrow (m : ToSession Output) (hm : m ∈ s.received) : m ∈ s.received ++ [message] :=
        List.mem_append_left _ hm
      refine ⟨h.other ?_ rfl rfl ⟨hgrow, fun _ hm => hm, Int.le_refl _, fun _ ho => ho⟩
        fun e he => (h.table e he).imp_left (hgrow _), fun m hm => ?_⟩
      · rw [hreader]
        exact .same none rfl rfl rfl rfl
      · obtain rfl : message = m := Reader.matching.inj hm
        exact List.mem_append_right _ (List.mem_singleton_self _)
    · cases hstep
  | fail text =>
    simp only [Client.step] at hstep
    split at hstep <;> rename_i hreader
    · cases hstep
      refine ⟨h.other ?_ rfl rfl ⟨fun _ hm => hm, fun _ hm => hm, Int.le_refl _, fun _ ho => ho⟩
        h.table, nofun⟩
      rw [hreader]
      exact .same none rfl rfl rfl rfl
    · cases hstep
  | read => exact h.read hheard hstep

theorem sound_init : Sound config ({ generation := config.generation } : State Payload Output) ∧
    Heard ({ generation := config.generation } : State Payload Output) := by
  have hcalls (i : ℕ) (c : Call Payload Output) : ([] : List (Call Payload Output))[i]? ≠ some c :=
    nofun
  refine ⟨⟨⟨fun _ => ⟨rfl, rfl⟩, fun hlost => ?_, fun hclosed => ?_⟩, ?_, fun e he => ?_,
    fun i c hc => absurd hc (hcalls i c), ?_⟩, fun message hmessage => ?_⟩
  · cases hlost
  · cases hclosed
  · refine ⟨fun message hmem => ?_, fun c hmem => ?_, fun message hmessage => ?_, rfl⟩
    · cases hmem
    · cases hmem
    · cases hmessage
  · cases he
  · refine ⟨⟨fun i c _ hc => absurd hc (hcalls i c), fun i _ c _ _ hc => absurd hc (hcalls i c)⟩,
      fun i hi => ?_, fun i c hc => absurd hc (hcalls i c), fun i c _ hc => absurd hc (hcalls i c),
      fun _ hready => ?_, fun _ => rfl⟩
    · cases hi
    · cases hready
  · cases hmessage

theorem sound_isInvariant (config : Config) :
    (client config).IsInvariant fun s : State Payload Output => Sound config s ∧ Heard s where
  init := sound_init
  step s label s' h hstep := by
    have hstep : step config s label = some s' := hstep
    exact h.1.step h.2 hstep

end Sound

/-! ### A call that has its answer -/

/-- A call has its answer: it waits and the answer is in the table, or it took the answer. -/
inductive Has (s : State Payload Output) (c : Call Payload Output) : Prop where
  | reply (hprogress : c.progress = .waiting) {requestId : ℕ} (hid : c.requestId = some requestId)
    (hreply : (s.replies.lookup requestId).isSome = true)
  | taken {answer : ToSession Output} (hanswer : Answered s c answer)
    (hprogress : c.progress = .cleaning (.ok (some answer)) ∨
      c.progress = .concluding (some answer) ∨ c.progress = .leaving (conclude c.request answer) ∨
      c.progress = .ended (conclude c.request answer))

section Has

theorem Has.mono (h : Has s c) (hreceived : ∀ answer ∈ s.received, answer ∈ s'.received)
    (hreplies : ∀ requestId, c.progress = .waiting →
      (s.replies.lookup requestId).isSome = true → (s'.replies.lookup requestId).isSome = true) :
    Has s' c := by
  cases h with
  | reply hprogress hid hreply => exact .reply hprogress hid (hreplies _ hprogress hreply)
  | taken hanswer hprogress => exact .taken (hanswer.imp_left (hreceived _)) hprogress

/-- Only a call that has the lock takes a reply, or clears the table. -/
theorem advance_replies (h : advance config s i c = some (s', c')) (hfits : Fits s i c)
    (hinside : c.inside = false) : s'.replies = s.replies := by
  obtain ⟨request, progress, wait, requestId, deadline⟩ := c
  cases progress with
  | begun =>
    cases request with
    | step _ timeout =>
      simp only [advance] at h
      split at h <;> cases h <;> rfl
    | reset _ timeout =>
      simp only [advance] at h
      split at h <;> cases h <;> rfl
    | signal _ => cases h; rfl
    | close =>
      simp only [advance] at h
      split_ifs at h <;> cases h <;> rfl
  | locking =>
    simp only [advance] at h
    split_ifs at h
    cases h
    rfl
  | usable =>
    simp only [advance] at h
    split at h
    · cases h
      rfl
    · split at h <;> cases h <;> rfl
  | opening => cases ((Bool.and_true _).symm.trans hinside).symm.trans hfits
  | entering message =>
    cases h
    rfl
  | sending message => cases h
  | losing message stage =>
    obtain ⟨state, ended, losses, told, hlose⟩ := lose_fst s stage
    simp only [advance] at h
    split at h <;> rename_i heq <;> rw [heq] at hlose <;> cases h <;> rw [show s' = _ from hlose]
  | checking message =>
    simp only [advance] at h
    split at h <;> cases h <;> rfl
  | waiting => cases ((Bool.and_true _).symm.trans hinside).symm.trans hfits.1
  | cleaning outcome =>
    rcases outcome with exc | answer | answer
    · cases ((Bool.and_true _).symm.trans hinside).symm.trans hfits.1
    · cases ((Bool.and_true _).symm.trans hinside).symm.trans hfits.1
    · cases ((Bool.and_true _).symm.trans hinside).symm.trans hfits.1
  | concluding answer =>
    cases answer with
    | none => cases ((Bool.and_true _).symm.trans hinside).symm.trans hfits.1
    | some answer => cases ((Bool.and_true _).symm.trans hinside).symm.trans hfits.1
  | leaving result => cases ((Bool.and_true _).symm.trans hinside).symm.trans hfits.1
  | closing =>
    cases h
    rfl
  | ended result => cases h

/-- The call's own steps lead from its answer to the result it makes of it. -/
theorem Has.advance (h : Has s c) (htable : Table s)
    (hadvance : advance config s i c = some (s', c')) :
    c'.request = c.request ∧ c'.requestId = c.requestId ∧ Has s' c' := by
  have hreceived := (advance_moves hadvance).received
  obtain ⟨request, progress, wait, requestId, deadline⟩ := c
  cases h with
  | reply hprogress hid hreply =>
    obtain rfl : progress = .waiting := hprogress
    obtain rfl := hid
    obtain ⟨answer, hanswer⟩ := Option.isSome_iff_exists.mp hreply
    simp only [Client.advance, Option.bind_some, hanswer] at hadvance
    cases hadvance
    obtain ⟨hmem, hown⟩ := htable _ (Dict.mem_of_lookup hanswer)
    exact ⟨rfl, rfl, .taken ⟨hmem, _, rfl, hown⟩ (.inl rfl)⟩
  | taken hanswer hprogress =>
    rename_i answer
    rcases hprogress with hprogress | hprogress | hprogress | hprogress
    · obtain rfl : progress = _ := hprogress
      cases hadvance
      exact ⟨rfl, rfl, .taken hanswer (.inr (.inl rfl))⟩
    · obtain rfl : progress = _ := hprogress
      simp only [Client.advance, Option.some.injEq, Prod.mk.injEq] at hadvance
      obtain ⟨rfl, rfl⟩ := hadvance
      refine ⟨rfl, rfl, .taken ⟨?_, hanswer.2⟩ (.inr (.inr (.inl rfl)))⟩
      rw [hreceived]
      exact hanswer.1
    · obtain rfl : progress = .leaving (conclude request answer) := hprogress
      cases hadvance
      exact ⟨rfl, rfl, .taken hanswer (.inr (.inr (.inr rfl)))⟩
    · obtain rfl : progress = .ended (conclude request answer) := hprogress
      cases hadvance

/-- The reader takes nothing out of the table. -/
theorem read_frame (h : read s = some s') : s'.calls = s.calls ∧ s'.received = s.received ∧
    ∀ requestId, (s.replies.lookup requestId).isSome = true →
      (s'.replies.lookup requestId).isSome = true := by
  unfold Client.read at h
  split at h
  · cases h
  · rename_i message _
    cases h
    obtain ⟨replies, heq⟩ := matchReply_eq s message
    rw [heq]
    refine ⟨rfl, rfl, fun requestId hreply => ?_⟩
    obtain rfl : replies = _ := (congrArg State.replies heq).symm
    unfold Client.matchReply
    split
    · split_ifs
      · change ((Dict.set s.replies _ message).lookup requestId).isSome = true
        rw [Dict.lookup_set]
        split_ifs
        · rfl
        · exact hreply
      · exact hreply
    · exact hreply
  · cases h
    exact ⟨rfl, rfl, fun _ hreply => hreply⟩
  · rename_i stage _
    obtain ⟨state, ended, losses, told, hlose⟩ := lose_fst s stage
    split at h <;> rename_i heq <;> cases h <;> rw [heq] at hlose <;>
      obtain rfl : _ = _ := hlose <;> exact ⟨rfl, rfl, fun _ hreply => hreply⟩
  · cases h

theorem Has.step (hsound : Sound config s) (hc : s.calls[i]? = some c) (h : Has s c)
    {label : Label Payload Output} (hstep : step config s label = some s') :
    ∃ c', s'.calls[i]? = some c' ∧ c'.request = c.request ∧ c'.requestId = c.requestId ∧
      Has s' c' := by
  have hlt := (List.getElem?_eq_some_iff.mp hc).1
  cases label with
  | call request =>
    cases hstep
    refine ⟨c, (List.getElem?_append_left hlt).trans hc, rfl, rfl, ?_⟩
    exact h.mono (fun _ hm => hm) fun _ _ hreply => hreply
  | next j =>
    obtain ⟨d, hd, hstep⟩ := Option.bind_eq_some_iff.mp hstep
    obtain ⟨⟨t, d'⟩, hadvance, hstep⟩ := Option.bind_eq_some_iff.mp hstep
    cases hstep
    have hmoves := advance_moves hadvance
    by_cases hij : j = i
    · subst hij
      obtain rfl := Option.some.inj (hc.symm.trans hd)
      obtain ⟨hrequest, hrequestId, hhas⟩ := h.advance hsound.table hadvance
      refine ⟨d', ?_, hrequest, hrequestId, hhas.mono (fun _ hm => hm) fun _ _ hreply => hreply⟩
      rw [hmoves.calls]
      exact List.getElem?_set_self hlt
    · refine ⟨c, ?_, rfl, rfl, h.mono (fun _ hm => hmoves.received ▸ hm) ?_⟩
      · rw [hmoves.calls]
        exact (List.getElem?_set_ne hij).trans hc
      · -- The waiting call has the lock, so the other one does not.
        intro requestId hwaiting hreply
        have hinside : c.inside = true := by
          have hfits := hsound.fits i c hc
          unfold Fits at hfits
          rw [hwaiting] at hfits
          unfold Call.inside
          rw [hwaiting]
          exact (Bool.and_true _).trans hfits.1
        have hlock := (hsound.turn.lock i c hc).mp hinside
        have hother : d.inside = false := by
          by_contra hnot
          have hj := (hsound.turn.lock j d hd).mp (by simpa using hnot)
          exact hij (Option.some.inj (hj.symm.trans hlock))
        have hreplies := advance_replies hadvance (hsound.fits j d hd) hother
        change (t.replies.lookup requestId).isSome = true
        rw [hreplies]
        exact hreply
  | send j outcome =>
    obtain ⟨d, hd, hstep⟩ := Option.bind_eq_some_iff.mp hstep
    split at hstep <;> rename_i hprogress
    · cases hstep
      by_cases hij : j = i
      · subst hij
        obtain rfl := Option.some.inj (hc.symm.trans hd)
        cases h with
        | reply hwaiting => cases hprogress.symm.trans hwaiting
        | taken _ htaken =>
          rcases htaken with htaken | htaken | htaken | htaken <;>
            cases hprogress.symm.trans htaken
      · refine ⟨c, (List.getElem?_set_ne hij).trans hc, rfl, rfl, ?_⟩
        exact h.mono (fun _ hm => hm) fun _ _ hreply => hreply
    · cases hstep
  | tick time =>
    cases hstep
    exact ⟨c, hc, rfl, rfl, h.mono (fun _ hm => hm) fun _ _ hreply => hreply⟩
  | deliver message =>
    simp only [Client.step] at hstep
    split at hstep
    · cases hstep
      refine ⟨c, hc, rfl, rfl, h.mono (fun _ hm => List.mem_append_left _ hm) ?_⟩
      exact fun _ _ hreply => hreply
    · cases hstep
  | fail text =>
    simp only [Client.step] at hstep
    split at hstep
    · cases hstep
      exact ⟨c, hc, rfl, rfl, h.mono (fun _ hm => hm) fun _ _ hreply => hreply⟩
    · cases hstep
  | read =>
    obtain ⟨hcalls, hreceived, hreplies⟩ := read_frame hstep
    refine ⟨c, hcalls ▸ hc, rfl, rfl, h.mono (fun _ hm => hreceived ▸ hm) ?_⟩
    exact fun requestId _ hreply => hreplies requestId hreply

end Has

/-! ### After a loss -/

section Lost

variable {before after : Option String} {message : String}

theorem LinkMove.of_not_opened (h : LinkMove s s' before after) (hstate : s.state ≠ .opened) :
    s'.state ≠ .opened ∧ (s'.state = .lost → s.state = .lost ∧ s'.ended = s.ended) := by
  cases h with
  | same _ hsame hended =>
    rw [hsame]
    exact ⟨hstate, fun hlost => ⟨hlost, hended⟩⟩
  | close hclosed =>
    rw [hclosed]
    exact ⟨nofun, nofun⟩
  | lost _ hopened => exact absurd hopened hstate
  | told _ hsame hended =>
    rw [hsame]
    exact ⟨hstate, fun hlost => ⟨hlost, hended⟩⟩

theorem read_linkMove (h : read s = some s') : ∃ before after, LinkMove s s' before after := by
  unfold Client.read at h
  split at h
  · cases h
  · rename_i message _
    cases h
    obtain ⟨replies, heq⟩ := matchReply_eq s message
    rw [heq]
    exact ⟨none, none, .same none rfl rfl rfl rfl⟩
  · cases h
    exact ⟨none, none, .same none rfl rfl rfl rfl⟩
  · rename_i stage _
    have hlink := lose_linkMove s stage
    split at h <;> rename_i heq <;> cases h <;> rw [heq] at hlink <;>
      exact ⟨_, _, hlink.congr rfl⟩
  · cases h

theorem step_linkMove {label : Label Payload Output} (h : step config s label = some s') :
    ∃ before after, LinkMove s s' before after := by
  cases label with
  | call request =>
    cases h
    exact ⟨none, none, .same none rfl rfl rfl rfl⟩
  | next i =>
    obtain ⟨c, -, h⟩ := Option.bind_eq_some_iff.mp h
    obtain ⟨⟨t, c'⟩, hadvance, h⟩ := Option.bind_eq_some_iff.mp h
    cases h
    exact ⟨_, _, (advance_moves hadvance).link.congr rfl⟩
  | send i outcome =>
    obtain ⟨c, -, h⟩ := Option.bind_eq_some_iff.mp h
    split at h <;> cases h
    exact ⟨none, none, .same none rfl rfl rfl rfl⟩
  | tick time =>
    cases h
    exact ⟨none, none, .same none rfl rfl rfl rfl⟩
  | deliver message =>
    simp only [Client.step] at h
    split at h <;> cases h
    exact ⟨none, none, .same none rfl rfl rfl rfl⟩
  | fail text =>
    simp only [Client.step] at h
    split at h <;> cases h
    exact ⟨none, none, .same none rfl rfl rfl rfl⟩
  | read => exact read_linkMove h

theorem calls_of_step {label : Label Payload Output} (h : step config s label = some s')
    (hc' : s'.calls[i]? = some c') :
    s.calls[i]? = some c' ∨ c'.progress = .begun ∧ s.calls.length ≤ i ∨
      ∃ c, s.calls[i]? = some c ∧
        ((∃ t, advance config s i c = some (t, c') ∧ t.state = s'.state) ∨
          ∃ message outcome, c.progress = .sending message ∧
            c' = afterLink s c message outcome) := by
  cases label with
  | call request =>
    cases h
    change (s.calls ++ _)[i]? = _ at hc'
    rw [List.getElem?_append] at hc'
    split_ifs at hc' with hlt
    · exact .inl hc'
    · rw [List.mem_singleton.mp (List.mem_of_getElem? hc')]
      exact .inr (.inl ⟨rfl, Nat.le_of_not_lt hlt⟩)
  | next j =>
    obtain ⟨c, hc, h⟩ := Option.bind_eq_some_iff.mp h
    obtain ⟨⟨t, d⟩, hadvance, h⟩ := Option.bind_eq_some_iff.mp h
    cases h
    change (t.calls.set j d)[i]? = _ at hc'
    rw [(advance_moves hadvance).calls, List.getElem?_set] at hc'
    split_ifs at hc' with hij
    · obtain rfl := hij
      obtain rfl := Option.some.inj hc'
      exact .inr (.inr ⟨c, hc, .inl ⟨t, hadvance, rfl⟩⟩)
    · exact .inl hc'
  | send j outcome =>
    obtain ⟨c, hc, h⟩ := Option.bind_eq_some_iff.mp h
    split at h <;> rename_i hprogress <;> cases h
    change (s.calls.set j _)[i]? = _ at hc'
    rw [List.getElem?_set] at hc'
    split_ifs at hc' with hij
    · obtain rfl := hij
      exact .inr (.inr ⟨c, hc, .inr ⟨_, outcome, hprogress, (Option.some.inj hc').symm⟩⟩)
    · exact .inl hc'
  | tick time =>
    cases h
    exact .inl hc'
  | deliver message =>
    simp only [Client.step] at h
    split at h <;> cases h
    exact .inl hc'
  | fail text =>
    simp only [Client.step] at h
    split at h <;> cases h
    exact .inl hc'
  | read => exact .inl ((read_frame h).1 ▸ hc')

/-- How far a call can be that began after the link was lost. -/
def Barred (message : String) (c : Call Payload Output) : Prop :=
  match c.progress with
  | .begun => True
  | .locking => True
  | .usable => True
  | .leaving result => result = .error (.ended (.modelServerLost message))
  | .ended result => result = .error (.ended (.modelServerLost message)) ∨
      ∃ time, c.request.timeout = some time ∧ time < 0 ∧ result = .error (.valueError time)
  | _ => False

/-- Where the client is after a loss, with the calls from the `n`-th on. -/
structure AfterLoss (n : ℕ) (message : String) (s : State Payload Output) : Prop where
  state : s.state ≠ .opened
  barred : s.state = .lost → s.ended = some (.modelServerLost message) ∧
    ∀ i c, n ≤ i → s.calls[i]? = some c → Barred message c

theorem barred_advance (h : Barred message c) (hended : s.ended = some (.modelServerLost message))
    (hadvance : advance config s i c = some (s', c')) (hstate : s'.state = .lost) :
    Barred message c' := by
  obtain ⟨request, progress, wait, requestId, deadline⟩ := c
  cases progress with
  | begun =>
    cases request with
    | step _ timeout =>
      simp only [advance] at hadvance
      split at hadvance <;> rename_i hwait <;> cases hadvance
      · trivial
      · obtain ⟨time, rfl, hneg, rfl⟩ := of_wait_eq_error hwait
        exact .inr ⟨time, rfl, hneg, rfl⟩
    | reset _ timeout =>
      simp only [advance] at hadvance
      split at hadvance <;> rename_i hwait <;> cases hadvance
      · trivial
      · obtain ⟨time, rfl, hneg, rfl⟩ := of_wait_eq_error hwait
        exact .inr ⟨time, rfl, hneg, rfl⟩
    | signal _ =>
      cases hadvance
      trivial
    | close =>
      simp only [advance] at hadvance
      split_ifs at hadvance with hclosed <;> cases hadvance
      · cases hclosed.symm.trans hstate
      · cases hstate
  | locking =>
    simp only [advance] at hadvance
    split_ifs at hadvance
    cases hadvance
    trivial
  | usable =>
    simp only [advance, hended] at hadvance
    cases hadvance
    unfold Call.raise
    split_ifs
    · rfl
    · exact .inl rfl
  | leaving result =>
    cases hadvance
    exact .inl h
  | ended result => cases hadvance
  | opening => exact h.elim
  | entering _ => exact h.elim
  | sending _ => exact h.elim
  | losing _ _ => exact h.elim
  | checking _ => exact h.elim
  | waiting => exact h.elim
  | cleaning _ => exact h.elim
  | concluding _ => exact h.elim
  | closing => exact h.elim

theorem AfterLoss.step {n : ℕ} (h : AfterLoss n message s) {label : Label Payload Output}
    (hstep : step config s label = some s') : AfterLoss n message s' := by
  obtain ⟨before, after, hlink⟩ := step_linkMove hstep
  obtain ⟨hstate, hlost⟩ := hlink.of_not_opened h.state
  refine ⟨hstate, fun hlost' => ?_⟩
  obtain ⟨hold, hended⟩ := hlost hlost'
  obtain ⟨hmessage, hbarred⟩ := h.barred hold
  refine ⟨hended.trans hmessage, fun i c' hi hc' => ?_⟩
  rcases calls_of_step hstep hc' with
    hc' | ⟨hbegun, -⟩ | ⟨c, hc, ⟨t, hadvance, ht⟩ | ⟨sent, outcome, hprogress, -⟩⟩
  · exact hbarred i c' hi hc'
  · unfold Barred
    rw [hbegun]
    trivial
  · exact barred_advance (hbarred i c hi hc) hmessage hadvance (ht.trans hlost')
  · have hnot := hbarred i c hi hc
    unfold Barred at hnot
    rw [hprogress] at hnot
    exact hnot.elim

end Lost

/-! ### Runs -/

/-- A thread has still to tell of a loss. -/
def Pending (s : State Payload Output) (message : String) : Prop :=
  (∃ c ∈ s.calls, c.pending = some message) ∨ s.reader.pending = some message

/-- What is promised of a client, in a state and in a later one. -/
structure Correct (config : Config) (s s' : State Payload Output) : Prop where
  /-- A step or a reset ends by an answer with its own request id, by its timeout, by the end of the
  link, or by what it raises by itself. -/
  sourced : ∀ (i : ℕ) (c : Call Payload Output) (result : Result Output), s.calls[i]? = some c →
    c.request.isExchange = true → c.progress = .ended result → Sourced s i c result
  /-- No two calls have a request id in common. -/
  own : ∀ (i j : ℕ) (c d : Call Payload Output) (requestId : ℕ), s.calls[i]? = some c →
    s.calls[j]? = some d → c.requestId = some requestId → d.requestId = some requestId → i = j
  /-- A call that has its answer ends by an answer. -/
  kept : ∀ (i : ℕ) (c : Call Payload Output), s.calls[i]? = some c → Has s c →
    ∃ c', s'.calls[i]? = some c' ∧ c'.request = c.request ∧ c'.requestId = c.requestId ∧
    ∀ result, c'.progress = .ended result →
      ∃ answer, Answered s' c' answer ∧ result = conclude c'.request answer
  /-- The generation is that of the last reset that returned, or that is about to. -/
  generation : s.generation = lastGeneration config s ∨
    ∃ c ∈ s.calls, c.progress = Progress.leaving (.ok (.generation s.generation))
  /-- A link is lost once, and told of once. -/
  once : s.losses.length ≤ 1
  told : s.told = s.losses ∨ s.told = [] ∧ ∃ message, s.losses = [message] ∧ Pending s message
  /-- A thread that has still to tell can go on until it has told. -/
  tells : ∀ message, Pending s message →
    ∃ labels t, (client config).runFrom s labels = some t ∧ t.told = [message]
  /-- A link that is lost was lost with one message, and until `close` every later call raises a
  `ModelServerLost` with it, or refuses its timeout. -/
  lost : s.state = .lost → ∃ message, s.losses = [message] ∧
    ∀ (i : ℕ) (c : Call Payload Output) (result : Result Output), s.calls.length ≤ i →
      s'.calls[i]? = some c → s'.state = .lost → c.progress = .ended result →
      result = .error (.ended (.modelServerLost message)) ∨
        ∃ time, c.request.timeout = some time ∧ time < 0 ∧ result = .error (.valueError time)

/-- A step call sends nothing unless the last reset that took its turn returned. -/
def SendsReady (s : State Payload Output) : Label Payload Output → Prop
  | .send i _ => ∀ c message, s.calls[i]? = some c → c.progress = .sending message →
      c.request.isExchange = true → c.request.isReset = false → Completed s
  | _ => True

section Runs

theorem Sound.sendsReady (h : Sound config s) (label : Label Payload Output) :
    SendsReady s label := by
  cases label with
  | send i outcome =>
    intro c message hc hprogress hexchange hreset
    have hinside : c.inside = true := by
      unfold Call.inside
      rw [hexchange, hprogress]
      rfl
    obtain ⟨-, hholds⟩ := h.turn.lock_of_progress hc hinside
    refine hholds.completed hreset ?_
    unfold Call.exchanging
    rw [hprogress]
  | call _ => trivial
  | next _ => trivial
  | tick _ => trivial
  | deliver _ => trivial
  | fail _ => trivial
  | read => trivial

theorem Linked.length_losses (h : Linked s) : s.losses.length ≤ 1 := by
  cases hstate : s.state with
  | opened =>
    rw [(h.opened hstate).2]
    exact Nat.zero_le _
  | lost =>
    obtain ⟨message, -, hlosses⟩ := h.lost hstate
    rw [hlosses]
    exact Nat.le_refl _
  | closed => exact (h.closed hstate).2

/-- A loss is told, or one thread has it still to tell. -/
theorem Sound.told (h : Sound config s) : s.told = s.losses ∨
    s.told = [] ∧ ∃ message, s.losses = [message] ∧ Pending s message := by
  have hlength := h.linked.length_losses
  have hcount := h.accounts.count
  rcases hlosses : s.losses with _ | ⟨message, rest⟩
  · rw [hlosses, List.length_nil] at hcount
    exact .inl (List.eq_nil_of_length_eq_zero (by omega))
  · rw [hlosses, List.length_cons] at hlength hcount
    obtain rfl : rest = [] := List.eq_nil_of_length_eq_zero (by omega)
    have hone (m : String) (hm : m ∈ s.losses) : m = message := by
      rw [hlosses] at hm
      exact List.mem_singleton.mp hm
    rcases htold : s.told with _ | ⟨first, told⟩
    · refine .inr ⟨rfl, message, rfl, ?_⟩
      rw [htold, List.length_nil] at hcount
      by_cases hreader : s.reader.pending.isSome
      · obtain ⟨m, hm⟩ := Option.isSome_iff_exists.mp hreader
        exact .inr (hm.trans (congrArg some (hone m (h.accounts.reader m hm))))
      · rw [if_neg hreader] at hcount
        have hpos : 0 < s.calls.countP fun c => c.pending.isSome := by
          omega
        obtain ⟨c, hc, hpending⟩ := List.countP_pos_iff.mp hpos
        obtain ⟨m, hm⟩ := Option.isSome_iff_exists.mp hpending
        exact .inl ⟨c, hc, hm.trans (congrArg some (hone m (h.accounts.calls c hc m hm)))⟩
    · refine .inl ?_
      rw [htold, List.length_cons, List.length_nil] at hcount
      obtain rfl : told = [] := List.eq_nil_of_length_eq_zero (by omega)
      have hfirst := h.accounts.told first (htold ▸ List.mem_singleton_self first)
      rw [hone first hfirst]

theorem runFrom_one {t : State Payload Output} {l : Label Payload Output}
    (h : (client config).step s l = some t) : (client config).runFrom s [l] = some t := by
  rw [TransitionSystem.runFrom_cons, h]
  rfl

theorem runFrom_two {t u : State Payload Output} {l l' : Label Payload Output}
    (h : (client config).step s l = some t) (h' : (client config).step t l' = some u) :
    (client config).runFrom s [l, l'] = some u := by
  rw [TransitionSystem.runFrom_cons, h]
  exact runFrom_one h'

theorem step_next (config : Config) {t : State Payload Output} {d : Call Payload Output}
    (hc : s.calls[i]? = some c) (hadvance : advance config s i c = some (t, d)) :
    (client config).step s (.next i) = some { t with calls := t.calls.set i d } := by
  have hstep : step config s (.next i) = some { t with calls := t.calls.set i d } := by
    simp only [step, hc, Option.bind_eq_bind, Option.bind_some, hadvance]
  exact hstep

theorem advance_closing {message : String} {sent : ToModelServer Payload}
    (hprogress : c.progress = .losing sent (.closing message)) :
    advance config s i c = some (s, { c with progress := .losing sent (.telling message) }) := by
  simp only [advance, hprogress]
  rfl

theorem advance_telling {message : String} {sent : ToModelServer Payload}
    (hprogress : c.progress = .losing sent (.telling message)) :
    advance config s i c =
      some ({ s with told := s.told ++ [message] }, { c with progress := .checking sent }) := by
  simp only [advance, hprogress]
  rfl

theorem Sound.told_of_pending (h : Sound config s) {message : String}
    (hpending : Pending s message) : s.told = [] := by
  have hlength := h.linked.length_losses
  have hcount := h.accounts.count
  refine List.eq_nil_of_length_eq_zero ?_
  rcases hpending with ⟨c, hc, hpending⟩ | hreader
  · have hpos : 0 < s.calls.countP fun c => c.pending.isSome :=
      List.countP_pos_iff.mpr ⟨c, hc, by rw [hpending]; rfl⟩
    omega
  · rw [hreader, if_pos (show (some message).isSome = true from rfl)] at hcount
    omega

theorem Sound.tells (h : Sound config s) {message : String} (hpending : Pending s message) :
    ∃ labels t, (client config).runFrom s labels = some t ∧ t.told = [message] := by
  have htold : s.told ++ [message] = [message] := by
    rw [h.told_of_pending hpending]
    rfl
  rcases hpending with ⟨c, hc, hpending⟩ | hreader
  · obtain ⟨i, hi⟩ := List.mem_iff_getElem?.mp hc
    obtain ⟨sent, stage, hprogress, hstage⟩ : ∃ sent stage, c.progress = .losing sent stage ∧
        stage.message? = some message := by
      unfold Call.pending at hpending
      split at hpending
      · rename_i sent stage hprogress
        exact ⟨sent, stage, hprogress, hpending⟩
      · cases hpending
    cases stage with
    | begun _ => cases hstage
    | closing m =>
      obtain rfl := Option.some.inj hstage
      have hfirst := step_next config hi (advance_closing hprogress)
      have hnext : (s.calls.set i { c with progress := .losing sent (.telling m) })[i]? =
          some { c with progress := .losing sent (.telling m) } :=
        List.getElem?_set_self (List.getElem?_eq_some_iff.mp hi).1
      have hsecond := step_next config (s := { s with calls := s.calls.set i _ }) hnext
        (advance_telling rfl)
      exact ⟨_, _, runFrom_two hfirst hsecond, htold⟩
    | telling m =>
      obtain rfl := Option.some.inj hstage
      have hstep := step_next config hi (advance_telling hprogress)
      exact ⟨_, _, runFrom_one hstep, htold⟩
  · obtain ⟨stage, hstage⟩ : ∃ stage, s.reader = .losing stage := by
      unfold Reader.pending at hreader
      split at hreader
      · exact ⟨_, ‹_›⟩
      · cases hreader
    rw [hstage] at hreader
    cases stage with
    | begun _ => cases hreader
    | closing m =>
      obtain rfl := Option.some.inj hreader
      have hfirst : Client.read s = some { s with reader := .losing (.telling m) } := by
        simp only [Client.read, hstage]
        rfl
      have hsecond : (client config).step { s with reader := .losing (.telling m) } .read =
        some { s with told := s.told ++ [m], reader := .ended } := rfl
      exact ⟨_, _, runFrom_two (l := .read) hfirst hsecond, htold⟩
    | telling m =>
      obtain rfl := Option.some.inj hreader
      have hfirst : Client.read s = some { s with told := s.told ++ [m], reader := .ended } := by
        simp only [Client.read, hstage]
        rfl
      exact ⟨_, _, runFrom_one (l := .read) hfirst, htold⟩

end Runs

/-! ### Some runs -/

def sampleConfig : Config where
  stepTimeout := none
  generation := 0

/-- A call and its first steps: it takes its turn, and a request id. -/
def beginCall (i : ℕ) (request : Request Unit) : List (Label Unit ℕ) :=
  .call request :: List.replicate 5 (.next i)

/-- The rest of a call whose message was sent: the answer arrives, and the call ends by it. -/
def answerCall (i : ℕ) (answer : ToSession ℕ) : List (Label Unit ℕ) :=
  [.send i .sent, .deliver answer, .read] ++ List.replicate 4 (.next i)

/-- A reset, a step, and a loss that the reader sees. -/
def lostRun : List (Label Unit ℕ) :=
  beginCall 0 (.reset none none) ++ answerCall 0 (.resetDone 1 7) ++
    beginCall 1 (.step () none) ++ answerCall 1 (.result 2 5) ++
    [.fail "the socket is gone", .read, .read]

/-- What goes on after it: the reader tells, and a step raises. -/
def laterRun : List (Label Unit ℕ) :=
  [.read, .read, .call (.step () none)] ++ List.replicate 4 (.next 2)

def unreadyRun : List (Label Unit ℕ) :=
  .call (.step () none) :: List.replicate 5 (.next 0)

def negativeRun : List (Label Unit ℕ) :=
  lostRun ++ [.read, .read, .call (.step () (some (-1))), .next 2]

def unencodedRun : List (Label Unit ℕ) :=
  beginCall 0 (.reset none none) ++
    [.send 0 (.unencoded "cannot pickle")] ++ List.replicate 2 (.next 0)

theorem isSome_lostRun : ((client sampleConfig).run lostRun).isSome := rfl

theorem isSome_laterRun : ((client sampleConfig).runFrom
    (((client sampleConfig).run lostRun).get isSome_lostRun) laterRun).isSome := rfl

def endedAt (i : ℕ) (s : State Unit ℕ) : Option (Request Unit × Result ℕ) :=
  s.calls[i]?.bind fun c => match c.progress with
    | .ended result => some (c.request, result)
    | _ => none

/-- A run in which a step or a reset ends by no answer of its own, not by its timeout, and not by
the end of the link. -/
def Denied (labels : List (Label Unit ℕ)) (i : ℕ) : Prop :=
  ∃ s c result, (client sampleConfig).run labels = some s ∧ s.calls[i]? = some c ∧
    c.request.isExchange = true ∧ c.progress = .ended result ∧ ¬ FromLink s c result

/-- What a call raises by itself. -/
def Exc.own : Exc → Bool
  | .valueError _ => true
  | .resetRequired => true
  | .unencoded _ => true
  | _ => false

theorem not_fromLink_of_own {exc : Exc} (h : exc.own = true) : ¬ FromLink s c (.error exc) := by
  intro hlink
  generalize hresult : (Except.error exc : Result Output) = result at hlink
  cases hlink with
  | answered hanswer =>
    rename_i answer
    have hnot : ∀ exc', conclude c.request answer = .error exc' → exc'.own = false := by
      intro exc' hconclude
      unfold conclude at hconclude
      split at hconclude <;> cases hconclude <;> rfl
    cases h.symm.trans (hnot exc hresult.symm)
  | timedOut _ =>
    cases hresult
    cases h
  | atEnd _ =>
    cases hresult
    cases h

theorem denied {labels : List (Label Unit ℕ)} {i : ℕ} (request : Request Unit) (exc : Exc)
    (hexchange : request.isExchange = true) (hown : exc.own = true)
    (h : ((client sampleConfig).run labels).bind (endedAt i) = some (request, .error exc)) :
    Denied labels i := by
  obtain ⟨s, hrun, hended⟩ := Option.bind_eq_some_iff.mp h
  obtain ⟨c, hc, hended⟩ := Option.bind_eq_some_iff.mp hended
  split at hended
  · rename_i result hprogress
    obtain ⟨hrequest, rfl⟩ := Prod.mk.inj (Option.some.inj hended)
    exact ⟨s, c, _, hrun, hc, hrequest ▸ hexchange, hprogress, not_fromLink_of_own hown⟩
  · cases hended

end ReactorRuntime.ModelServer.Client
