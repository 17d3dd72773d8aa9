import ReactorRuntime.Distributed.Equiv.Runner
import Mathlib.Data.List.Infix

/-!
# How the calls end

A call that is decided ends as its answers say (`expected`), the answers being what arrived of what
the workers raised: an exception that `pickle` does not rebuild as it was arrives as another one, of
another class even.  The errors of `load` are raised only once all ranks have reported.
-/

namespace ReactorRuntime.Distributed

variable {α β : Type} {n : ℕ} {formsGroup : Bool}

/-! ### What the answers say -/

def raisedError : Except Exn β → Option Exn
  | .ok _ => none
  | .error e => some e

def carriedReply : Except Exn β → Except Exn β
  | .ok y => .ok y
  | .error e => .error e.carried

/-- How a call ends by the replies of the ranks: with the result of rank 0, with its exception if
every rank raised one of the same class, or with the ranks at odds. -/
def expected (call : Call α) (replies : List (Except Exn β)) : Outcome β :=
  match replies.filterMap raisedError with
  | [] =>
    match call, replies.head? with
    | .generate _, some (.ok y) => .returned (some y)
    | _, _ => .returned none
  | e :: others =>
    if (e :: others).length = replies.length ∧ ∀ e' ∈ others, e'.cls = e.cls then .raised e
    else .desync

/-- Whether the exceptions that every rank raised arrive with classes that agree as theirs do, and,
where these agree, that of rank 0 as it is. -/
def carriesRaised (replies : List (Except Exn β)) : Bool :=
  match replies.filterMap raisedError with
  | [] => true
  | e :: others =>
    (e :: others).length ≠ replies.length ||
      ((others.all fun e' => e'.carried.cls = e.carried.cls) =
        (others.all fun e' => e'.cls = e.cls)) &&
      (!(others.all fun e' => e'.cls = e.cls) || e.carried = e)

theorem filterMap_carried (replies : List (Except Exn β)) :
    (replies.map carriedReply).filterMap raisedError =
      (replies.filterMap raisedError).map Exn.carried := by
  induction replies with
  | nil => rfl
  | cons reply replies ih =>
    cases reply with
    | ok y => exact ih
    | error e =>
      show e.carried :: _ = e.carried :: _
      exact congrArg _ ih

theorem expected_carried {call : Call α} {replies : List (Except Exn β)}
    (h : carriesRaised replies = true) :
    expected call (replies.map carriedReply) = expected call replies := by
  unfold expected
  unfold carriesRaised at h
  rw [filterMap_carried, List.length_map]
  cases hraised : replies.filterMap raisedError with
  | nil =>
    have hhead : (replies.map carriedReply).head? = replies.head? := by
      cases replies with
      | nil => rfl
      | cons reply replies =>
        cases reply with
        | ok y => rfl
        | error e => cases hraised
    simp only [List.map_nil, hhead]
  | cons e others =>
    simp only [hraised] at h
    simp only [List.map_cons, List.length_cons, List.length_map]
    by_cases hall : others.length + 1 = replies.length
    · simp only [hall, true_and]
      have hlength : (e :: others).length = replies.length := hall
      simp only [hlength, ne_eq, not_true_eq_false, decide_false, Bool.false_or, Bool.and_eq_true,
        decide_eq_true_eq, Bool.or_eq_true, Bool.not_eq_true'] at h
      obtain ⟨hsame, hfirst⟩ := h
      have hiff : (∀ e' ∈ others.map Exn.carried, e'.cls = e.carried.cls) ↔
          ∀ e' ∈ others, e'.cls = e.cls := by
        have := congrArg (· = true) hsame
        simpa using this
      by_cases hcls : ∀ e' ∈ others, e'.cls = e.cls
      · rw [if_pos (hiff.mpr hcls), if_pos hcls]
        rcases hfirst with hfirst | hfirst
        · have hcls' : (others.all fun e' => e'.cls = e.cls) = true := by simpa using hcls
          rw [hcls'] at hfirst
          cases hfirst
        · rw [hfirst]
      · rw [if_neg (mt hiff.mp hcls), if_neg hcls]
    · simp only [hall, false_and, if_false]

namespace DistributedRunner

variable {s s' : DistributedRunner α β}

def key (m : Message) : ℕ := m.rank.getD 0

theorem sorted_answers {messages : List Message} {report : ℕ → Message}
    (hperm : (messages.filterMap Message.rank).Perm (List.range n))
    (hreport : ∀ m ∈ messages, ∃ r < n, m.rank = some r ∧ m = report r) :
    messages.insertionSort (fun a b => key a ≤ key b) = (List.range n).map report := by
  have hkeys : messages.filterMap Message.rank = messages.map key := by
    clear hperm
    induction messages with
    | nil => rfl
    | cons m messages ih =>
      obtain ⟨r, -, hr, -⟩ := hreport m List.mem_cons_self
      rw [List.filterMap_cons_some hr, List.map_cons, key, hr,
        ih fun x hx => hreport x (List.mem_cons_of_mem _ hx)]
      rfl
  have hsorted : (messages.insertionSort fun a b => key a ≤ key b).map key = List.range n := by
    rw [List.map_insertionSort _ (· ≤ ·) key messages fun _ _ _ _ => Iff.rfl, ← hkeys]
    refine List.Perm.eq_of_sortedLE List.sortedLE_insertionSort ?_
      ((List.perm_insertionSort _ _).trans hperm)
    exact (List.sortedLT_range n).sortedLE
  have hself : ∀ m ∈ messages.insertionSort (fun a b => key a ≤ key b), m = report (key m) := by
    intro m hm
    obtain ⟨r, -, hrank, heq⟩ := hreport m ((List.mem_insertionSort _).mp hm)
    rw [key, hrank]
    exact heq
  rw [← hsorted, List.map_map]
  exact (List.map_id' _).symm.trans (List.map_congr_left hself)

theorem error_answer (r : ℕ) (call : Call α) (reply : Except Exn β) :
    (answer r call reply).error = raisedError (carriedReply reply) := by
  cases reply <;> rfl

theorem decide_answers {messages : List Message} {call : Call α} {reply : ℕ → Except Exn β}
    {result : Option β} (hperm : (messages.filterMap Message.rank).Perm (List.range n))
    (hreport : ∀ m ∈ messages, ∃ r < n, m.rank = some r ∧ m = answer r call (reply r))
    (hresult : ∀ x y, call = .generate x → reply 0 = .ok y → result = some y) :
    decide result messages = expected call (((List.range n).map reply).map carriedReply) := by
  have hsorted := sorted_answers hperm hreport
  have hfailed : ((List.range n).map fun r => answer r call (reply r)).filterMap Message.error =
      (((List.range n).map reply).map carriedReply).filterMap raisedError := by
    rw [List.filterMap_map, List.map_map, List.filterMap_map]
    exact List.filterMap_congr fun r _ => error_answer r call (reply r)
  unfold decide expected
  unfold key at hsorted
  simp only [hsorted, hfailed, List.length_map]
  cases herrors : (((List.range n).map reply).map carriedReply).filterMap raisedError with
  | cons e others => rfl
  | nil =>
    cases n with
    | zero =>
      show Outcome.returned none = _
      cases call <;> rfl
    | succ n =>
      simp only [List.range_succ_eq_map, List.map_cons, List.head?_cons]
      rw [List.range_succ_eq_map, List.map_cons, List.map_cons] at herrors
      cases hreply : reply 0 with
      | error e =>
        rw [hreply] at herrors
        cases herrors
      | ok y =>
        cases call with
        | generate x =>
          show Outcome.returned result = .returned (some y)
          rw [hresult x y rfl hreply]
        | reset => rfl

/-! ### The outcomes of the calls -/

open Rank (Moves)

def InCall (s : DistributedRunner α β) : Prop := ∃ ms, s.stage = .calling ms

theorem giveUp_eq (hcollecting : s.collecting = true) (outbox messages : List Message)
    (outcome : Outcome β) :
    ¬s.InCall ∧ ({ s with outbox }.giveUp n messages outcome) =
        ({ s with outbox } : DistributedRunner α β).endStart outcome ∨
      s.InCall ∧ ({ s with outbox }.giveUp n messages outcome) =
        ({ s with outbox } : DistributedRunner α β).endCall n messages outcome := by
  rcases collecting_iff.mp hcollecting with ⟨ms, hstage⟩ | ⟨ms, hstage⟩ | ⟨ms, hstage⟩
  · refine .inl ⟨fun ⟨ms', hms⟩ => ?_, ?_⟩
    · rw [hstage] at hms
      cases hms
    · rw [giveUp]
      simp only [hstage]
  · refine .inl ⟨fun ⟨ms', hms⟩ => ?_, ?_⟩
    · rw [hstage] at hms
      cases hms
    · rw [giveUp]
      simp only [hstage]
  · refine .inr ⟨⟨ms, hstage⟩, ?_⟩
    rw [giveUp]
    simp only [hstage]

/-- How the calls are counted: the last one may be under way, and a call that leaves the group
unhealthy is the last. -/
structure Counted (s : DistributedRunner α β) : Prop where
  calling : s.InCall → s.calls.length = s.ended.length + 1
  waiting : ¬s.InCall → s.calls.length = s.ended.length
  starting : ¬s.InCall → s.stage ≠ .idle → s.startOutcome = none
  busy : s.InCall → s.healthy = true
  healthy : s.healthy = true → ∀ e ∈ s.ended, e.outcome.keeps = true
  unhealthy : s.healthy = false → (∃ e ∈ s.ended, e.outcome.keeps = false) ∨
    ∃ outcome, s.startOutcome = some outcome ∧ ∀ y, outcome ≠ .returned y
  last : ∀ i e, s.ended[i]? = some e → e.outcome.keeps = false → s.calls.length = i + 1
  returned : s.healthy = true → ∀ outcome, s.startOutcome = some outcome →
    ∃ y, outcome = .returned y

namespace Counted

theorem init : Counted ({} : DistributedRunner α β) :=
  ⟨nofun, fun _ => rfl, fun _ _ => rfl, nofun, fun _ _ h => absurd h List.not_mem_nil, nofun,
    fun _ _ => nofun, fun _ => nofun⟩

theorem of_eq (h : s.Counted) (hcalls : s'.calls = s.calls) (hended : s'.ended = s.ended)
    (hhealthy : s'.healthy = s.healthy) (hstart : s'.startOutcome = s.startOutcome)
    (hcalling : s'.InCall ↔ s.InCall) (hidle : s.stage = .idle → s'.stage = .idle) :
    s'.Counted := by
  refine ⟨fun hin => ?_, fun hin => ?_, fun hin hnot => ?_, fun hin => ?_, ?_, ?_, ?_, ?_⟩
  · rw [hcalls, hended]
    exact h.calling (hcalling.mp hin)
  · rw [hcalls, hended]
    exact h.waiting (mt hcalling.mpr hin)
  · rw [hstart]
    exact h.starting (mt hcalling.mpr hin) (mt hidle hnot)
  · rw [hhealthy]
    exact h.busy (hcalling.mp hin)
  · rw [hended, hhealthy]
    exact h.healthy
  · rw [hended, hhealthy, hstart]
    exact h.unhealthy
  · rw [hcalls, hended]
    exact h.last
  · rw [hhealthy, hstart]
    exact h.returned

theorem endStart (h : s.Counted) {outbox : List Message} (hnot : ¬s.InCall)
    (hidle : s.stage ≠ .idle) (outcome : Outcome β) :
    ({ s with outbox }.endStart outcome).Counted := by
  have hlength := h.waiting hnot
  have hnone := h.starting hnot hidle
  cases outcome with
  | returned y =>
    refine ⟨nofun, fun _ => hlength, fun _ hne => absurd rfl hne, nofun, h.healthy,
      fun hunhealthy => ?_, h.last, ?_⟩
    swap
    · rintro - _ ⟨⟩
      exact ⟨y, rfl⟩
    rcases h.unhealthy hunhealthy with hend | ⟨outcome, houtcome, -⟩
    · exact .inl hend
    · rw [hnone] at houtcome
      cases houtcome
  | _ =>
    exact ⟨nofun, fun _ => hlength, fun _ hne => absurd rfl hne, nofun, nofun,
      fun _ => .inr ⟨_, rfl, nofun⟩, h.last, nofun⟩

theorem endCall (h : s.Counted) {outbox messages : List Message} (hin : s.InCall)
    (outcome : Outcome β) : ({ s with outbox }.endCall n messages outcome).Counted := by
  have hlength := h.calling hin
  have hready := h.busy hin
  have hkeeps := h.healthy hready
  have hended : ({ s with outbox }.endCall n messages outcome).ended =
      s.ended ++ [{
        outcome, silent := ({ s with outbox } : DistributedRunner α β).silent n messages }] := rfl
  have hhealthy : ({ s with outbox }.endCall n messages outcome).healthy = outcome.keeps := by
    show (s.healthy && outcome.keeps) = outcome.keeps
    rw [hready, Bool.true_and]
  refine ⟨nofun, fun _ => ?_, fun _ hne => absurd rfl hne, nofun, fun hok e he => ?_,
    fun hunhealthy => .inl ?_, fun i e hi hfails => ?_, fun _ => h.returned hready⟩
  · rw [hended, List.length_append]
    exact hlength
  · rw [hended] at he
    rcases List.mem_append.mp he with he | he
    · exact hkeeps e he
    · rw [List.mem_singleton.mp he, ← hhealthy]
      exact hok
  · rw [hended]
    refine ⟨_, List.mem_append_right _ (List.mem_singleton.mpr rfl), ?_⟩
    rw [← hhealthy]
    exact hunhealthy
  · rw [hended] at hi
    rcases lt_or_ge i s.ended.length with hlt | hge
    · rw [List.getElem?_append_left hlt] at hi
      rw [hkeeps e (List.mem_of_getElem? hi)] at hfails
      cases hfails
    · rw [List.getElem?_append_right hge] at hi
      have hi' : i - s.ended.length = 0 := by
        by_contra hne
        rw [List.getElem?_eq_none (by simp; omega)] at hi
        cases hi
      show s.calls.length = i + 1
      omega

theorem giveUp (h : s.Counted) (hcollecting : s.collecting = true) (outbox : List Message)
    {messages : List Message} (outcome : Outcome β) :
    ({ s with outbox }.giveUp n messages outcome).Counted := by
  rcases giveUp_eq (n := n) hcollecting outbox messages outcome with ⟨hnot, heq⟩ | ⟨hin, heq⟩
  · rw [heq]
    refine h.endStart hnot (fun hidle => ?_) outcome
    rw [collecting, hidle] at hcollecting
    cases hcollecting
  · rw [heq]
    exact h.endCall hin outcome

theorem next {l : Label α β} (h : s.Counted) (hnext : s.next n formsGroup l = some s') :
    s'.Counted := by
  have hstep := step_of_next hnext
  cases hstep with
  | start hfresh hopen =>
    refine h.of_eq rfl rfl rfl rfl ⟨?_, ?_⟩ fun hidle => ?_
    · rintro ⟨ms, hms⟩
      cases formsGroup <;> cases hms
    · rintro ⟨ms, hms⟩
      rw [hfresh] at hms
      cases hms
    · rw [hfresh] at hidle
      cases hidle
  | @call call hready =>
    have hidle : s.stage = .idle ∧ s.healthy = true := by
      unfold isReady at hready
      split at hready
      · next hidle =>
        simp only [Bool.and_eq_true] at hready
        exact ⟨hidle, hready.2⟩
      · cases hready
    have hnot : ¬s.InCall := by
      rintro ⟨ms, hms⟩
      rw [hidle.1] at hms
      cases hms
    have hlength := h.waiting hnot
    have hkeeps := h.healthy hidle.2
    have hcalls : (s.broadcast call).calls.length = s.ended.length + 1 := by
      show (s.calls ++ [call]).length = s.ended.length + 1
      rw [List.length_append, hlength]
      rfl
    refine ⟨fun _ => hcalls, fun hin => absurd ⟨[], rfl⟩ hin, fun hin => absurd ⟨[], rfl⟩ hin,
      fun _ => hidle.2, h.healthy, fun hunhealthy => ?_, fun i e hi hfails => ?_, h.returned⟩
    · have hunhealthy : s.healthy = false := hunhealthy
      rw [hidle.2] at hunhealthy
      cases hunhealthy
    · rw [hkeeps e (List.mem_of_getElem? hi)] at hfails
      cases hfails
  | shutdown hidle =>
    have hsame : s.shutdown.calls = s.calls ∧ s.shutdown.ended = s.ended ∧
        s.shutdown.healthy = s.healthy ∧ s.shutdown.startOutcome = s.startOutcome ∧
        s.shutdown.stage = s.stage := by
      unfold DistributedRunner.shutdown
      dsimp only
      split_ifs <;> exact ⟨rfl, rfl, rfl, rfl, rfl⟩
    obtain ⟨hcalls, hended, hhealthy, hstart, hstage⟩ := hsame
    refine h.of_eq hcalls hended hhealthy hstart ?_ fun hidle => ?_
    · rw [InCall, InCall, hstage]
    · rw [hstage]
      exact hidle
  | rests => exact h
  | settles hl hcollecting hinflight hsettles =>
    have hidle : s.stage ≠ .idle := by
      intro hidle
      rw [collecting, hidle] at hcollecting
      cases hcollecting
    cases hsettles with
    | waits =>
      refine h.of_eq rfl rfl rfl rfl ⟨?_, ?_⟩
        fun hidle' => absurd hidle' hidle
      · rintro ⟨ms, hms⟩
        rcases collecting_iff.mp hcollecting with ⟨ms', hstage⟩ | ⟨ms', hstage⟩ | ⟨ms', hstage⟩
        · rw [hstage] at hms
          cases hms
        · rw [hstage] at hms
          cases hms
        · exact ⟨ms', hstage⟩
      · rintro ⟨ms, hms⟩
        exact ⟨_, by rw [hms]; rfl⟩
    | joins hstage hnone hport =>
      refine h.of_eq rfl rfl rfl rfl ⟨?_, ?_⟩
        fun hidle' => absurd hidle' hidle
      · rintro ⟨ms, ⟨⟩⟩
      · rintro ⟨ms, hms⟩
        rw [hstage] at hms
        cases hms
    | @started outcome hends =>
      refine h.endStart ?_ hidle outcome
      rintro ⟨ms, hms⟩
      rw [hms] at hends
      cases hends
    | decided hstage hn => exact h.endCall ⟨_, hstage⟩ _
  | @crashes messages outbox r hcollecting hinflight hr hdead hnone =>
    exact h.giveUp hcollecting _ _
  | @givesUp l outcome hl hcollecting =>
    exact h.giveUp hcollecting s.outbox _
  | @moves r l t hr halive hmove =>
    have hsame : s'.calls = s.calls ∧ s'.ended = s.ended ∧ s'.healthy = s.healthy ∧
        s'.startOutcome = s.startOutcome ∧ s'.stage = s.stage := by
      cases hmove <;> exact ⟨rfl, rfl, rfl, rfl, rfl⟩
    obtain ⟨hcalls, hended, hhealthy, hstart, hstage⟩ := hsame
    refine h.of_eq hcalls hended hhealthy hstart ?_ fun hidle => ?_
    · rw [InCall, InCall, hstage]
    · rw [hstage]
      exact hidle
  | flushes hr halive hsending => exact h.of_eq rfl rfl rfl rfl Iff.rfl id

end Counted

/-! ### What the ranks leave behind -/

def SameHistory (R R' : Rank α β) : Prop := R'.served = R.served ∧ R'.replies = R.replies

theorem sameHistory_put (p : ℕ → Bool) (request : Request) (r : ℕ) :
    SameHistory (s.ranks r) ((s.put p request).ranks r) := by
  obtain ⟨inbox, heq⟩ := Reported.put_ranks (s := s) p request r
  rw [heq]
  exact ⟨rfl, rfl⟩

theorem Step.kept {l : Label α β} (h : Step n formsGroup s l s') :
    (∃ r l', r < n ∧ RankMove s r l' s') ∨
      (∀ r, SameHistory (s.ranks r) (s'.ranks r)) ∧ s'.result = s.result := by
  have hgaveUp : ∀ outbox messages outcome,
      ({ s with outbox }.giveUp n messages outcome).ranks = s.ranks ∧
        ({ s with outbox }.giveUp n messages outcome).result = s.result := by
    intro outbox messages outcome
    obtain ⟨healthy, shutdownDone, heq⟩ :=
      Reported.endStart_eq (s := { s with outbox }) outcome
    unfold DistributedRunner.giveUp
    split
    · rw [heq]
      exact ⟨rfl, rfl⟩
    · rw [heq]
      exact ⟨rfl, rfl⟩
    · exact ⟨rfl, rfl⟩
    · exact ⟨rfl, rfl⟩
    · exact ⟨rfl, rfl⟩
  cases h with
  | start hfresh hopen => exact .inr ⟨fun _ => ⟨rfl, rfl⟩, rfl⟩
  | @call call hready =>
    exact .inr ⟨fun r => sameHistory_put (s := s) (fun _ => true) call.request r, rfl⟩
  | shutdown hidle =>
    refine .inr ?_
    unfold DistributedRunner.shutdown
    dsimp only
    split_ifs
    · exact ⟨fun r => sameHistory_put (s := s) (fun _ => true) .shutdown r, rfl⟩
    · exact ⟨fun _ => ⟨rfl, rfl⟩, rfl⟩
  | rests => exact .inr ⟨fun _ => ⟨rfl, rfl⟩, rfl⟩
  | @settles l messages outbox t hl hcollecting hinflight hsettles =>
    refine .inr ?_
    cases hsettles with
    | waits => exact ⟨fun _ => ⟨rfl, rfl⟩, rfl⟩
    | joins hstage hnone hport =>
      exact ⟨fun r => sameHistory_put (s := { s with outbox }) (fun r => 0 < r) .join r, rfl⟩
    | @started outcome hends =>
      obtain ⟨healthy, shutdownDone, heq⟩ :=
      Reported.endStart_eq (s := { s with outbox }) outcome
      rw [heq]
      exact ⟨fun _ => ⟨rfl, rfl⟩, rfl⟩
    | decided hstage hn => exact ⟨fun _ => ⟨rfl, rfl⟩, rfl⟩
  | @crashes messages outbox r hcollecting hinflight hr hdead hnone =>
    obtain ⟨hranks, hresult⟩ := hgaveUp outbox messages (.crashed r)
    exact .inr ⟨fun r => by rw [hranks]; exact ⟨rfl, rfl⟩, hresult⟩
  | @givesUp l outcome hl hcollecting =>
    obtain ⟨hranks, hresult⟩ := hgaveUp s.outbox s.collected outcome
    exact .inr ⟨fun r => by
      show SameHistory _ (({ s with outbox := s.outbox }.giveUp n s.collected outcome).ranks r)
      rw [hranks]
      exact ⟨rfl, rfl⟩, hresult⟩
  | @moves r l t hr halive hmove => exact .inl ⟨r, l, hr, hmove⟩
  | @flushes r m sending hr halive hsending =>
    refine .inr ⟨fun r' => ?_, rfl⟩
    show SameHistory _ (Function.update s.ranks r { s.ranks r with sending } r')
    by_cases hr' : r' = r
    · subst hr'
      rw [Function.update_self]
      exact ⟨rfl, rfl⟩
    · rw [Function.update_of_ne hr']
      exact ⟨rfl, rfl⟩

/-- The block of the result holds what rank 0 returned for the last call that it answered. -/
def Written (s : DistributedRunner α β) : Prop :=
  ∀ x y, (s.ranks 0).served[(s.ranks 0).replies.length - 1]? = some (.generate x) →
    (s.ranks 0).replies.getLast? = some (.ok y) → s.result = some y

theorem Written.next {l : Label α β} (h : s.Written) (hreported : s.Reported n)
    (hnext : s.next n formsGroup l = some s') : s'.Written := by
  have hsame : SameHistory (s.ranks 0) (s'.ranks 0) → s'.result = s.result → s'.Written := by
    intro hhistory hresult x y
    rw [hhistory.1, hhistory.2, hresult]
    exact h x y
  rcases (step_of_next hnext).kept with ⟨r, l', hr, hmove⟩ | ⟨hhistory, hresult⟩
  swap
  · exact hsame (hhistory 0) hresult
  by_cases hr0 : r = 0
  swap
  · have hother : ∀ R : Rank α β, Function.update s.ranks r R 0 = s.ranks 0 := fun R =>
      Function.update_of_ne (Ne.symm hr0) _ _
    cases hmove with
    | @replies call reply hstage =>
      refine hsame ?_ ?_
      · show SameHistory _ (Function.update s.ranks r _ 0)
        rw [hother]
        exact ⟨rfl, rfl⟩
      · show written r s.result call reply = s.result
        unfold written
        split
        · exact if_neg hr0
        · rfl
    | _ =>
      refine hsame ?_ rfl
      show SameHistory _ (Function.update s.ranks r _ 0)
      rw [hother]
      exact ⟨rfl, rfl⟩
  subst hr0
  have hserves := hreported.serves 0 hr
  -- a call that rank 0 gets is not the one that it answered last
  have hgets : ∀ (R : Rank α β) (call : Call α), (s.ranks 0).isRunning = false →
      R.served = (s.ranks 0).served ++ [call] → R.replies = (s.ranks 0).replies →
      (s.setRank 0 R).Written := by
    intro R call hrunning hserved hreplies x y
    simp only [setRank, Function.update_self, hserved, hreplies]
    rcases hserves.getElem?_served hrunning call with heq | hnil
    · rw [heq]
      exact h x y
    · rw [hnil]
      rintro _ ⟨⟩
  cases hmove with
  | resets hstage hinbox => exact hgets _ .reset (by rw [Rank.isRunning, hstage]) rfl rfl
  | @reads x hstage hinput => exact hgets _ (.generate x) (by rw [Rank.isRunning, hstage]) rfl rfl
  | @replies call reply hstage =>
    intro x y
    show (Function.update s.ranks 0 _ 0).served[_]? = _ → _ → written 0 s.result call reply = _
    obtain ⟨-, -, hcall⟩ := hserves.of_running hstage
    simp only [setRank, Function.update_self, List.length_append, List.length_singleton,
      Nat.add_sub_cancel, List.getLast?_concat, hcall, Option.some.injEq]
    rintro rfl rfl
    rfl
  | _ =>
    refine hsame ?_ rfl
    show SameHistory _ (Function.update s.ranks 0 _ 0)
    rw [Function.update_self]
    exact ⟨rfl, rfl⟩

/-! ### What an outcome says -/

/-- What ended the call `i`: the time or an interrupt, a rank that had died and not answered, or the
replies of all ranks to it, as `f` takes them. -/
inductive Follows (f : Except Exn β → Except Exn β) (n : ℕ) (s : DistributedRunner α β) (i : ℕ)
    (e : Ended β) : Prop
  | gaveUp (h : e.outcome = .timedOut ∨ e.outcome = .interrupted)
  | crashed {r : ℕ} (hr : r ∈ e.silent) (h : e.outcome = .crashed r)
  | decided {call : Call α} {reply : ℕ → Except Exn β} (hsilent : e.silent = [])
      (hcall : s.calls[i]? = some call)
      (hreply : ∀ r < n, (s.ranks r).served[i]? = some call ∧
        (s.ranks r).replies[i]? = some (reply r))
      (h : e.outcome = expected call (((List.range n).map reply).map f))

structure Grows (s s' : DistributedRunner α β) : Prop where
  calls : s.calls <+: s'.calls
  served : ∀ r, (s.ranks r).served <+: (s'.ranks r).served
  replies : ∀ r, (s.ranks r).replies <+: (s'.ranks r).replies

theorem getElem?_mono {γ : Type} {l l' : List γ} {i : ℕ} {x : γ} (h : l <+: l')
    (hx : l[i]? = some x) : l'[i]? = some x := by
  obtain ⟨t, rfl⟩ := h
  have hlt := (List.getElem?_eq_some_iff.mp hx).1
  rw [List.getElem?_append_left hlt]
  exact hx

theorem Follows.mono {f : Except Exn β → Except Exn β} {i : ℕ} {e : Ended β}
    (h : s.Follows f n i e) (hgrows : s.Grows s') : s'.Follows f n i e := by
  cases h with
  | gaveUp h => exact .gaveUp h
  | crashed hr h => exact .crashed hr h
  | decided hsilent hcall hreply h =>
    refine .decided hsilent (getElem?_mono hgrows.calls hcall) (fun r hr => ?_) h
    obtain ⟨hserved, hreplied⟩ := hreply r hr
    exact ⟨getElem?_mono (hgrows.served r) hserved,
      getElem?_mono (hgrows.replies r) hreplied⟩

theorem RankMove.grows {r : ℕ} {l : RankLabel β} (h : RankMove s r l s') : s.Grows s' := by
  have hranks : ∀ R : Rank α β, s'.ranks = Function.update s.ranks r R → s'.calls = s.calls →
      (s.ranks r).served <+: R.served → (s.ranks r).replies <+: R.replies → s.Grows s' := by
    intro R heq hcalls hserved hreplies
    refine ⟨hcalls ▸ List.prefix_rfl, fun r' => ?_, fun r' => ?_⟩
    · rw [heq]
      rcases eq_or_ne r' r with rfl | hne
      · rw [Function.update_self]
        exact hserved
      · rw [Function.update_of_ne hne]
    · rw [heq]
      rcases eq_or_ne r' r with rfl | hne
      · rw [Function.update_self]
        exact hreplies
      · rw [Function.update_of_ne hne]
  cases h with
  | resets hstage hinbox =>
    exact hranks _ rfl rfl (List.prefix_append _ _) List.prefix_rfl
  | reads hstage hinput =>
    exact hranks _ rfl rfl (List.prefix_append _ _) List.prefix_rfl
  | replies hstage => exact hranks _ rfl rfl List.prefix_rfl (List.prefix_append _ _)
  | _ => exact hranks _ rfl rfl List.prefix_rfl List.prefix_rfl

/-- A step adds to the calls and to what the ranks served, and it ends at most one call. -/
inductive Progress (n : ℕ) (s : DistributedRunner α β) (l : Label α β) :
    DistributedRunner α β → Prop
  | same {t : DistributedRunner α β} (hgrows : s.Grows t) (h : t.ended = s.ended) :
      Progress n s l t
  | decided {messages outbox : List Message} (hin : s.InCall)
      (hinflight : messages ++ outbox = s.inflight) (hn : n ≤ messages.length) :
      Progress n s l ({ s with outbox }.endCall n messages (decide s.result messages))
  | crashed {messages outbox : List Message} {r : ℕ} (hin : s.InCall)
      (hinflight : messages ++ outbox = s.inflight) (hr : r < n)
      (hdead : (s.ranks r).alive = false) (hnone : ∀ m ∈ messages ++ outbox, m.rank ≠ some r) :
      Progress n s l ({ s with outbox }.endCall n messages (.crashed r))
  | gaveUp {outcome : Outcome β} (hin : s.InCall)
      (hl : l = .deadline ∧ outcome = .timedOut ∨ l = .interrupt ∧ outcome = .interrupted) :
      Progress n s l (s.endCall n s.collected outcome)

theorem grows_of_sameHistory (hcalls : s.calls <+: s'.calls)
    (h : ∀ r, SameHistory (s.ranks r) (s'.ranks r)) : s.Grows s' :=
  ⟨hcalls, fun r => (h r).1 ▸ List.prefix_rfl, fun r => (h r).2 ▸ List.prefix_rfl⟩

theorem progress {l : Label α β} (hnext : s.next n formsGroup l = some s') :
    Progress n s l s' := by
  have hstep := step_of_next hnext
  have hkept := hstep.kept
  have hsame : s.calls <+: s'.calls → s'.ended = s.ended → Progress n s l s' := by
    intro hcalls hended
    refine .same ?_ hended
    rcases hkept with ⟨r, l', -, hmove⟩ | ⟨hhistory, -⟩
    · exact hmove.grows
    · exact grows_of_sameHistory hcalls hhistory
  cases hstep with
  | start hfresh hopen => exact hsame List.prefix_rfl rfl
  | call hready => exact hsame (List.prefix_append _ _) rfl
  | shutdown hidle =>
    have hfields : s.shutdown.calls = s.calls ∧ s.shutdown.ended = s.ended := by
      unfold DistributedRunner.shutdown
      dsimp only
      split_ifs <;> exact ⟨rfl, rfl⟩
    exact hsame (hfields.1 ▸ List.prefix_rfl) hfields.2
  | rests => exact hsame List.prefix_rfl rfl
  | @settles l messages outbox t hl hcollecting hinflight hsettles =>
    cases hsettles with
    | waits => exact hsame List.prefix_rfl rfl
    | joins hstage hnone hport => exact hsame List.prefix_rfl rfl
    | @started outcome hends =>
      obtain ⟨healthy, shutdownDone, heq⟩ := Reported.endStart_eq (s := { s with outbox }) outcome
      rw [heq] at hsame ⊢
      exact hsame List.prefix_rfl rfl
    | decided hstage hn => exact .decided ⟨_, hstage⟩ hinflight hn
  | @crashes messages outbox r hcollecting hinflight hr hdead hnone =>
    rcases giveUp_eq (n := n) hcollecting outbox messages (.crashed r) with ⟨hnot, heq⟩ | ⟨hin, heq⟩
    · obtain ⟨healthy, shutdownDone, heq'⟩ :=
        Reported.endStart_eq (s := { s with outbox }) (.crashed r)
      rw [heq, heq'] at hsame ⊢
      exact hsame List.prefix_rfl rfl
    · rw [heq]
      exact .crashed hin hinflight hr hdead hnone
  | @givesUp l outcome hl hcollecting =>
    rcases giveUp_eq (n := n) hcollecting s.outbox s.collected outcome with
      ⟨hnot, heq⟩ | ⟨hin, heq⟩
    · obtain ⟨healthy, shutdownDone, heq'⟩ := Reported.endStart_eq (s := s) outcome
      have heq : s.giveUp n s.collected outcome = s.endStart outcome := heq
      rw [heq, heq'] at hsame ⊢
      exact hsame List.prefix_rfl rfl
    · have heq : s.giveUp n s.collected outcome = s.endCall n s.collected outcome := heq
      rw [heq]
      exact .gaveUp hin hl
  | @moves r l t hr halive hmove =>
    have hfields : s'.calls = s.calls ∧ s'.ended = s.ended := by
      cases hmove <;> exact ⟨rfl, rfl⟩
    exact hsame (hfields.1 ▸ List.prefix_rfl) hfields.2
  | flushes hr halive hsending => exact hsame List.prefix_rfl rfl

/-- What is known of each call that ended is still known after a step, and of the call that the step
ends it is to be shown. -/
theorem ended_of_progress {l : Label α β} {P : DistributedRunner α β → ℕ → Ended β → Prop}
    (hprogress : Progress n s l s') (hmono : s.Grows s' → ∀ i e, P s i e → P s' i e)
    (h : ∀ i e, s.ended[i]? = some e → P s i e)
    (hlast : s.Grows s' → ∀ e, s'.ended = s.ended ++ [e] → P s' s.ended.length e) :
    ∀ i e, s'.ended[i]? = some e → P s' i e := by
  have happend : s.Grows s' → (∃ e, s'.ended = s.ended ++ [e]) →
      ∀ i e, s'.ended[i]? = some e → P s' i e := by
    rintro hgrows ⟨e, hended⟩ i e' he'
    rw [hended] at he'
    rcases lt_trichotomy i s.ended.length with hlt | rfl | hgt
    · rw [List.getElem?_append_left hlt] at he'
      exact hmono hgrows i e' (h i e' he')
    · rw [List.getElem?_concat_length] at he'
      cases he'
      exact hlast hgrows e hended
    · rw [List.getElem?_eq_none (by simp; omega)] at he'
      cases he'
  cases hprogress with
  | same hgrows hended =>
    intro i e he
    rw [hended] at he
    exact hmono hgrows i e (h i e he)
  | decided hin hinflight hn =>
    exact happend ⟨List.prefix_rfl, fun _ => List.prefix_rfl, fun _ => List.prefix_rfl⟩ ⟨_, rfl⟩
  | crashed hin hinflight hr hdead hnone =>
    exact happend ⟨List.prefix_rfl, fun _ => List.prefix_rfl, fun _ => List.prefix_rfl⟩ ⟨_, rfl⟩
  | gaveUp hin hl =>
    exact happend ⟨List.prefix_rfl, fun _ => List.prefix_rfl, fun _ => List.prefix_rfl⟩ ⟨_, rfl⟩

theorem replied (h : s.Reported n) {r : ℕ} (hr : r < n)
    (hreports : (s.ranks r).reports = s.calls.length + 1) {i : ℕ}
    (hi : s.calls.length = i + 1) : ∃ call reply, s.calls[i]? = some call ∧
      (s.ranks r).served[i]? = some call ∧ (s.ranks r).replies[i]? = some reply ∧
      (s.ranks r).replies.length = i + 1 ∧ (s.ranks r).lastReport r = answer r call reply := by
  have hserves := h.serves r hr
  obtain ⟨hserved, -⟩ := Reported.served_of_reports hserves hreports
  have hcounted := hserves.counted
  rw [hserved] at hcounted
  have hstarted : (s.ranks r).hasStarted.toNat ≤ 1 := Bool.toNat_le _
  have hlength : (s.ranks r).replies.length = i + 1 := by
    rw [Rank.reports] at hreports
    omega
  have hlt : i < s.calls.length := by omega
  have hlt' : i < (s.ranks r).replies.length := by omega
  have hcall : s.calls[i]? = some s.calls[i] := List.getElem?_eq_getElem hlt
  have hreply : (s.ranks r).replies[i]? = some (s.ranks r).replies[i] :=
    List.getElem?_eq_getElem hlt'
  refine ⟨_, _, hcall, by rw [hserved]; exact hcall, hreply, hlength, ?_⟩
  refine Rank.lastReport_of_getLast ?_ ?_
  · rw [List.getLast?_eq_getElem?, ← hreply]
    congr 1
    omega
  · rw [hserved, hlength]
    exact hcall

theorem follows_decided (hn0 : 0 < n) {f : Except Exn β → Except Exn β}
    (hf : ∀ (call : Call α) (reply : ℕ → Except Exn β),
      (∀ r < n, (s.ranks r).replies[s.ended.length]? = some (reply r)) →
      expected call (((List.range n).map reply).map carriedReply) =
        expected call (((List.range n).map reply).map f))
    (hreported : s.Reported n) (hwritten : s.Written) (hcounted : s.Counted) (hin : s.InCall)
    {messages outbox : List Message} (hinflight : messages ++ outbox = s.inflight)
    (hn : n ≤ messages.length) :
    Follows f n s s.ended.length
      { outcome := decide s.result messages
        silent := ({ s with outbox } : DistributedRunner α β).silent n messages } := by
  have hi := hcounted.calling hin
  have hports : s.allowedPorts = some 0 := by
    obtain ⟨ms, hms⟩ := hin
    rw [allowedPorts, hms]
  obtain ⟨-, hperm, hreports, hquiet⟩ := hreported.complete hinflight hports hn
  obtain ⟨call, -, hcall, -⟩ := replied hreported hn0 (hquiet 0 hn0).2 hi
  -- each rank replied to that one call
  have hreplied : ∀ r, ∃ reply, r < n → (s.ranks r).served[s.ended.length]? = some call ∧
      (s.ranks r).replies[s.ended.length]? = some reply ∧
      (s.ranks r).replies.length = s.ended.length + 1 ∧
      (s.ranks r).lastReport r = answer r call reply := by
    intro r
    by_cases hr : r < n
    · obtain ⟨call', reply, hcall', hserved, hreply, hlength, hlast⟩ :=
        replied hreported hr (hquiet r hr).2 hi
      obtain rfl : call = call' := Option.some.inj (hcall.symm.trans hcall')
      exact ⟨reply, fun _ => ⟨hserved, hreply, hlength, hlast⟩⟩
    · exact ⟨.error { cls := runtimeError }, fun hr' => absurd hr' hr⟩
  choose reply hreply using hreplied
  refine .decided ?_ hcall (fun r hr => ⟨(hreply r hr).1, (hreply r hr).2.1⟩) ?_
  · -- no rank is silent, all of them have answered
    refine List.filter_eq_nil_iff.mpr fun r hr hsilent => ?_
    obtain ⟨m, hm, hrank⟩ := List.mem_filterMap.mp (hperm.mem_iff.mpr hr)
    simp only [Bool.and_eq_true, List.all_eq_true, decide_eq_true_eq] at hsilent
    exact hsilent.2 m (List.mem_append_left _ hm) hrank
  · show decide s.result messages = _
    rw [← hf call reply fun r hr => (hreply r hr).2.1]
    refine decide_answers hperm (fun m hm => ?_) fun x y hx hy => ?_
    · obtain ⟨r, hr, hrank, heq⟩ := hreports m hm
      exact ⟨r, hr, hrank, by rw [heq, (hreply r hr).2.2.2]⟩
    · obtain ⟨hserved, hreply0, hlength, -⟩ := hreply 0 hn0
      refine hwritten x y ?_ ?_
      · rw [hlength, Nat.add_sub_cancel, hserved, hx]
      · rw [List.getLast?_eq_getElem?, hlength, Nat.add_sub_cancel, hreply0, hy]

theorem follows_next (hn0 : 0 < n) {f : Except Exn β → Except Exn β} {l : Label α β}
    (hf : ∀ (call : Call α) (reply : ℕ → Except Exn β),
      (∀ r < n, (s.ranks r).replies[s.ended.length]? = some (reply r)) →
      expected call (((List.range n).map reply).map carriedReply) =
        expected call (((List.range n).map reply).map f))
    (hreported : s.Reported n) (hwritten : s.Written) (hcounted : s.Counted)
    (h : ∀ i e, s.ended[i]? = some e → s.Follows f n i e)
    (hnext : s.next n formsGroup l = some s') :
    ∀ i e, s'.ended[i]? = some e → s'.Follows f n i e := by
  have hprogress := progress hnext
  refine ended_of_progress (P := fun s i e => s.Follows f n i e) hprogress
    (fun hgrows _ _ hfollows => hfollows.mono hgrows) h fun hgrows e hended => ?_
  have hlast : ∀ e', s'.ended = s.ended ++ [e'] → e = e' := fun e' he' =>
    List.cons_eq_cons.mp (List.append_cancel_left (hended.symm.trans he')) |>.1
  cases hprogress with
  | same _ hsame =>
    have hlength := congrArg List.length (hsame.symm.trans hended)
    simp at hlength
  | decided hin hinflight hn =>
    rw [hlast _ rfl]
    exact (follows_decided hn0 hf hreported hwritten hcounted hin hinflight hn).mono hgrows
  | @crashed messages outbox r hin hinflight hr hdead hnone =>
    rw [hlast _ rfl]
    refine .crashed (List.mem_filter.mpr ⟨List.mem_range.mpr hr, ?_⟩) rfl
    show (!(s.ranks r).alive && (messages ++ outbox).all fun m => m.rank ≠ some r) = true
    rw [hdead, Bool.not_false, Bool.true_and, List.all_eq_true]
    exact fun m hm => decide_eq_true (hnone m hm)
  | gaveUp hin hl =>
    rw [hlast _ rfl]
    rcases hl with ⟨-, rfl⟩ | ⟨-, rfl⟩
    · exact .gaveUp (.inl rfl)
    · exact .gaveUp (.inr rfl)

/-! ### Under which conditions -/

/-- The replies of the ranks to the call that is under way, or would be next. -/
def replies (n : ℕ) (s : DistributedRunner α β) : List (Except Exn β) :=
  (List.range n).filterMap fun r => (s.ranks r).replies[s.ended.length]?

/-- Not all ranks have replied, or what they raised arrives as it is. -/
def carries (n : ℕ) (s : DistributedRunner α β) : Bool :=
  (s.replies n).length < n || carriesRaised (s.replies n)

theorem expected_of_carries (h : s.carries n = true) (call : Call α) {reply : ℕ → Except Exn β}
    (hreply : ∀ r < n, (s.ranks r).replies[s.ended.length]? = some (reply r)) :
    expected call (((List.range n).map reply).map carriedReply) =
      expected call (((List.range n).map reply).map id) := by
  have hreplies : s.replies n = (List.range n).map reply := by
    rw [← List.filterMap_eq_map]
    exact List.filterMap_congr fun r hr => hreply r (List.mem_range.mp hr)
  unfold carries at h
  rw [hreplies, List.length_map, List.length_range] at h
  simp only [lt_irrefl, decide_false, Bool.false_or] at h
  rw [List.map_id]
  exact expected_carried h

/-- The runner gives a call up although a rank died and did not answer. -/
def abandons (n : ℕ) (s : DistributedRunner α β) (l : Label α β) : Bool :=
  match l, s.stage with
  | .deadline, .calling _ => !(s.silent n s.collected).isEmpty
  | .interrupt, .calling _ => !(s.silent n s.collected).isEmpty
  | _, _ => false

/-- A rank that had died and not answered makes a crash. -/
def Crashes (e : Ended β) : Prop := e.silent ≠ [] → ∃ r ∈ e.silent, e.outcome = .crashed r

theorem decide_keeps_or (result : Option β) (answers : List Message) :
    (decide result answers).keeps = true ∨ decide result answers = .desync := by
  unfold decide
  dsimp only
  split
  · split <;> exact .inl rfl
  · split_ifs
    · exact .inl rfl
    · exact .inr rfl

theorem crashes_last {l : Label α β} {e : Ended β} (hl : s.abandons n l = false)
    (hprogress : Progress n s l s') (hended : s'.ended = s.ended ++ [e])
    (hfollows : s'.Follows carriedReply n s.ended.length e) : Crashes e := by
  have hends : ∀ e', s'.ended = s.ended ++ [e'] → e = e' := fun e' he' =>
    List.cons_eq_cons.mp (List.append_cancel_left (hended.symm.trans he')) |>.1
  cases hfollows with
  | crashed hr houtcome => exact fun _ => ⟨_, hr, houtcome⟩
  | decided hsilent _ _ _ => exact fun hne => absurd hsilent hne
  | gaveUp houtcome =>
    -- only the time or an interrupt ends a call so, and then no dead rank was silent
    have hfails : e.outcome.keeps = false ∧ e.outcome ≠ .desync := by
      rcases houtcome with h | h <;> rw [h] <;> exact ⟨rfl, nofun⟩
    intro hne
    cases hprogress with
    | same _ hsame =>
      have hlength := congrArg List.length (hsame.symm.trans hended)
      simp at hlength
    | @decided messages outbox hin hinflight hn =>
      rw [hends _ rfl] at hfails
      rcases decide_keeps_or s.result messages with hkeeps | hdesync
      · rw [hkeeps] at hfails
        cases hfails.1
      · exact absurd hdesync hfails.2
    | crashed hin hinflight hr hdead hnone =>
      rw [hends _ rfl] at houtcome
      rcases houtcome with houtcome | houtcome <;> cases houtcome
    | gaveUp hin hl' =>
      obtain ⟨ms, hms⟩ := hin
      have hsilent : (!(s.silent n s.collected).isEmpty) = false := by
        rcases hl' with ⟨rfl, -⟩ | ⟨rfl, -⟩
        · simpa only [abandons, hms] using hl
        · simpa only [abandons, hms] using hl
      rw [hends _ rfl] at hne
      have hsilent : (s.silent n s.collected).isEmpty = true := by simpa using hsilent
      exact absurd (List.isEmpty_iff.mp hsilent) hne

theorem crashes_next {l : Label α β} (hl : s.abandons n l = false)
    (hfollows : ∀ i e, s'.ended[i]? = some e → s'.Follows carriedReply n i e)
    (h : ∀ e ∈ s.ended, Crashes e) (hnext : s.next n formsGroup l = some s') :
    ∀ e ∈ s'.ended, Crashes e := by
  intro e he
  obtain ⟨i, hi⟩ := List.mem_iff_getElem?.mp he
  refine ended_of_progress (P := fun _ _ e => Crashes e) (progress hnext) (fun _ _ _ h => h)
    (fun i e hi => h e (List.mem_of_getElem? hi)) (fun _ e hended => ?_) i e hi
  refine crashes_last hl (progress hnext) hended (hfollows _ e ?_)
  rw [hended]
  exact List.getElem?_concat_length

/-! ### The start -/

/-- While the start goes on, the errors that arrived are those of `load`. -/
def Reports (s : DistributedRunner α β) : Prop :=
  s.startOutcome = none → s.inflight.filterMap Message.error = s.loadErrors.map Exn.carried

/-- What a rank has put before its first call. -/
theorem sending_of_start (h : s.Reported n) (hstart : s.startOutcome = none) {r : ℕ} (hr : r < n)
    {m : Message} (hm : m ∈ (s.ranks r).sending) : m = .rendezvous ∨
      (∃ e, (s.ranks r).stage = .failed e ∧ m = .answer r false (some e.carried)) ∨
      (∀ e, (s.ranks r).stage ≠ .failed e) ∧ m = .loaded r := by
  have hserves := h.serves r hr
  have hcalls := h.calls hstart
  have hserved := hserves.length_served
  have hcounted := hserves.counted
  rw [hcalls, List.length_nil] at hserved
  have hreplies : (s.ranks r).replies = [] := List.length_eq_zero_iff.mp (by omega)
  rcases hserves.sending m hm with rfl | ⟨rfl, -⟩
  · exact .inl rfl
  · rw [Rank.lastReport_of_nil hreplies]
    unfold Rank.startReport
    split
    · next e he => exact .inr (.inl ⟨e, he, rfl⟩)
    · next hnot => exact .inr (.inr ⟨hnot, rfl⟩)

theorem arrived_of_start (h : s.Reported n) (hstart : s.startOutcome = none) {m : Message}
    (hm : m ∈ s.inflight) : m = .rendezvous ∨ ∃ r < n, (s.ranks r).hasStarted = true ∧
      ((∃ e, (s.ranks r).stage = .failed e ∧ m = .answer r false (some e.carried)) ∨
        (∀ e, (s.ranks r).stage ≠ .failed e) ∧ m = .loaded r) := by
  rcases h.arrived m hm with rfl | ⟨r, hr, rfl, hreports, -⟩
  · exact .inl rfl
  refine .inr ⟨r, hr, ?_⟩
  have hserves := h.serves r hr
  have hserved := hserves.length_served
  have hcounted := hserves.counted
  rw [h.calls hstart, List.length_nil] at hserved hreports
  have hreplies : (s.ranks r).replies = [] := List.length_eq_zero_iff.mp (by omega)
  rw [Rank.reports, hreplies] at hreports
  refine ⟨Bool.toNat_eq_one.mp hreports, ?_⟩
  rw [Rank.lastReport_of_nil hreplies]
  unfold Rank.startReport
  split
  · next e he => exact .inl ⟨e, he, rfl⟩
  · next hnot => exact .inr ⟨hnot, rfl⟩

theorem startOutcome_giveUp (hcollecting : s.collecting = true)
    (hstarted : ∀ ms, s.stage = .calling ms → s.startOutcome ≠ none)
    (outbox : List Message) {messages : List Message} {outcome : Outcome β} :
    ({ s with outbox }.giveUp n messages outcome).startOutcome ≠ none := by
  rcases giveUp_eq (n := n) hcollecting outbox messages outcome with ⟨-, heq⟩ | ⟨⟨ms, hms⟩, heq⟩
  · obtain ⟨healthy, shutdownDone, heq'⟩ := Reported.endStart_eq (s := { s with outbox }) outcome
    rw [heq, heq']
    exact nofun
  · rw [heq]
    exact hstarted ms hms

theorem inflight_waits (hcollecting : s.collecting = true) {messages outbox : List Message}
    (hinflight : messages ++ outbox = s.inflight) :
    ({ s with outbox, stage := collectingMessages messages s.stage } :
      DistributedRunner α β).inflight = s.inflight := by
  have hcollected : ({ s with outbox, stage := collectingMessages messages s.stage } :
      DistributedRunner α β).collected = messages := by
    rcases collecting_iff.mp hcollecting with ⟨ms, hstage⟩ | ⟨ms, hstage⟩ | ⟨ms, hstage⟩ <;>
      rw [hstage] <;> rfl
  rw [inflight, hcollected]
  exact hinflight

theorem Reports.next {l : Label α β} (h : s.Reports) (hreported : s.Reported n)
    (hnext : s.next n formsGroup l = some s') : s'.Reports := by
  have hstep := step_of_next hnext
  cases hstep with
  | start hfresh hopen =>
    intro hstart
    have hinflight : (s.start formsGroup).inflight = s.inflight := by
      rw [inflight, inflight, collected, collected, hfresh]
      cases formsGroup <;> rfl
    rw [hinflight]
    exact h hstart
  | call hready =>
    intro hstart
    have hstart : s.startOutcome = none := hstart
    unfold isReady at hready
    split at hready
    · rw [hstart] at hready
      cases hready
    · cases hready
  | shutdown hidle =>
    have hfields : s.shutdown.startOutcome = s.startOutcome ∧ s.shutdown.inflight = s.inflight ∧
        s.shutdown.loadErrors = s.loadErrors := by
      unfold DistributedRunner.shutdown
      dsimp only
      split_ifs <;> exact ⟨rfl, rfl, rfl⟩
    obtain ⟨hstart, hinflight, herrors⟩ := hfields
    rw [Reports, hstart, hinflight, herrors]
    exact h
  | rests => exact h
  | @settles l messages outbox t hl hcollecting hinflight hsettles =>
    cases hsettles with
    | waits =>
      rw [Reports, inflight_waits hcollecting hinflight]
      exact h
    | joins hstage hnone hport =>
      intro hstart
      have herrors := h hstart
      have hnil : messages.filterMap Message.error = [] :=
        List.filterMap_eq_nil_iff.mpr (List.findSome?_eq_none_iff.mp hnone)
      rw [← hinflight, List.filterMap_append, hnil, List.nil_append] at herrors
      exact herrors
    | @started outcome hends =>
      intro hstart
      obtain ⟨healthy, shutdownDone, heq⟩ := Reported.endStart_eq (s := { s with outbox }) outcome
      rw [heq] at hstart
      cases hstart
    | decided hstage hn => exact fun hstart => absurd hstart (hreported.started _ hstage)
  | crashes hcollecting hinflight hr hdead hnone =>
    exact fun hstart => absurd hstart (startOutcome_giveUp hcollecting hreported.started _)
  | givesUp hl hcollecting =>
    exact fun hstart =>
      absurd hstart (startOutcome_giveUp hcollecting hreported.started s.outbox)
  | moves hr halive hmove =>
    have hfields : s'.startOutcome = s.startOutcome ∧ s'.inflight = s.inflight ∧
        s'.loadErrors = s.loadErrors := by
      cases hmove <;> exact ⟨rfl, rfl, rfl⟩
    obtain ⟨hstart, hinflight, herrors⟩ := hfields
    rw [Reports, hstart, hinflight, herrors]
    exact h
  | @flushes r m sending hr halive hsending =>
    intro hstart
    have hstart : s.startOutcome = none := hstart
    have hm : m ∈ (s.ranks r).sending := by rw [hsending]; exact List.mem_cons_self
    show (s.collected ++ (s.outbox ++ [m])).filterMap Message.error = _
    rw [← List.append_assoc, List.filterMap_append]
    have herrors := h hstart
    rw [inflight] at herrors
    rw [herrors]
    show _ = (s.loadErrorsWith r m).map Exn.carried
    unfold loadErrorsWith
    rw [hstart]
    rcases sending_of_start hreported hstart hr hm with rfl | ⟨e, hstage, rfl⟩ | ⟨hstage, rfl⟩
    · show s.loadErrors.map Exn.carried ++ [] = _
      rw [List.append_nil]
      split
      · next herror => cases herror
      · rfl
    · rw [hstage]
      show s.loadErrors.map Exn.carried ++ [e.carried] = (s.loadErrors ++ [e]).map Exn.carried
      rw [List.map_append]
      rfl
    · show s.loadErrors.map Exn.carried ++ [] = _
      rw [List.append_nil]
      split
      · next he _ _ => exact absurd he (hstage _)
      · rfl

def ofLeader (m : Message) : Bool := m = .rendezvous || m.rank = some 0

def led (s : DistributedRunner α β) : List Message :=
  (s.outbox ++ (s.ranks 0).sending).filter ofLeader

theorem led_setRank (R : Rank α β) :
    (s.setRank 0 R).led = (s.outbox ++ R.sending).filter ofLeader := by
  show (s.outbox ++ (Function.update s.ranks 0 R 0).sending).filter ofLeader = _
  rw [Function.update_self]

/-- While the runner waits for the port, rank 0 puts it before it reports, and the other ranks have
not received it. -/
structure Joining (s : DistributedRunner α β) : Prop where
  fresh : s.stage = .fresh → s.shutdownDone = true ∨ ∀ r, (s.ranks r).inbox = []
  collected : ∀ ms, s.stage = .rendezvous ms → ms = []
  inbox : ∀ ms, s.stage = .rendezvous ms → ∀ r, (s.ranks r).inbox = []
  others : ∀ ms, s.stage = .rendezvous ms → ∀ r, r ≠ 0 →
    (s.ranks r).stage = .forming ∨ ∃ e, (s.ranks r).stage = .failed e
  head : ∀ ms, s.stage = .rendezvous ms → s.led.head? ≠ some (.loaded 0)
  port : ∀ ms, s.stage = .rendezvous ms → (s.ranks 0).stage = .loading →
    (s.ranks 0).alive = true → s.led ≠ []

namespace Joining

theorem init : Joining ({} : DistributedRunner α β) :=
  ⟨fun _ => .inr fun _ => rfl, nofun, nofun, nofun, nofun, nofun⟩

/-- Once the port was taken there is nothing to show. -/
theorem of_past (hfresh : s.stage ≠ .fresh) (h : ∀ ms, s.stage ≠ .rendezvous ms) : s.Joining :=
  ⟨fun hstage => absurd hstage hfresh, fun ms hms => absurd hms (h ms),
    fun ms hms => absurd hms (h ms), fun ms hms => absurd hms (h ms),
    fun ms hms => absurd hms (h ms), fun ms hms => absurd hms (h ms)⟩

theorem led_concat (h : s.led.head? ≠ some (.loaded 0)) {m : Message}
    (hm : m = .loaded 0 → s.led ≠ []) {R : Rank α β}
    (hsending : R.sending = (s.ranks 0).sending ++ [m]) :
    (s.setRank 0 R).led.head? ≠ some (.loaded 0) := by
  have hled : (s.setRank 0 R).led = s.led ++ [m].filter ofLeader := by
    rw [led_setRank, led, hsending, ← List.append_assoc, List.filter_append]
  rw [hled]
  cases hnil : s.led with
  | cons x xs =>
    rw [hnil] at h
    exact h
  | nil =>
    rw [List.nil_append]
    intro hhead
    have hmem := List.mem_of_head? hhead
    obtain ⟨heq, -⟩ := List.mem_filter.mp hmem
    exact hm (List.mem_singleton.mp heq).symm hnil

theorem moves (h : s.Joining) {r : ℕ} {l : RankLabel β} (halive : (s.ranks r).alive = true)
    (hmove : RankMove s r l s') (hborn : s.stage ≠ .fresh) : s'.Joining := by
  have hstage : s'.stage = s.stage := by cases hmove <;> rfl
  have houtbox : s'.outbox = s.outbox := by cases hmove <;> rfl
  by_cases hport : ∀ ms, s.stage ≠ .rendezvous ms
  · exact of_past (hstage ▸ hborn) fun ms => hstage ▸ hport ms
  obtain ⟨ms, hms⟩ : ∃ ms, s.stage = .rendezvous ms := by
    by_contra hnot
    exact hport fun ms hms => hnot ⟨ms, hms⟩
  have hempty := h.inbox ms hms
  have hno : ∀ {request inbox}, (s.ranks r).inbox = request :: inbox → False := by
    intro request inbox heq
    rw [hempty r] at heq
    cases heq
  -- the rank goes on to `R`
  have hranks : ∀ R : Rank α β, s'.ranks = Function.update s.ranks r R →
      R.inbox = [] → (r ≠ 0 → R.stage = .forming ∨ ∃ e, R.stage = .failed e) →
      (r = 0 → (s.setRank 0 R).led.head? ≠ some (.loaded 0) ∧
        (R.stage = .loading → R.alive = true → (s.setRank 0 R).led ≠ [])) → s'.Joining := by
    intro R heq hinbox hothers hleader
    have hled0 : r ≠ 0 → s'.led = s.led := by
      intro hr
      unfold led
      rw [houtbox, heq, Function.update_of_ne (Ne.symm hr)]
    have hled1 : r = 0 → s'.led = (s.setRank 0 R).led := by
      rintro rfl
      unfold led
      rw [houtbox, heq]
      rfl
    refine ⟨fun hfresh => absurd (hstage ▸ hfresh) hborn, fun ms' hms' => ?_, fun ms' hms' r' => ?_,
      fun ms' hms' r' hr' => ?_, fun ms' hms' => ?_, fun ms' hms' hloading halive' => ?_⟩
    · exact h.collected ms' (hstage ▸ hms')
    · rw [heq]
      rcases eq_or_ne r' r with rfl | hne
      · rw [Function.update_self]
        exact hinbox
      · rw [Function.update_of_ne hne]
        exact hempty r'
    · rw [heq]
      rcases eq_or_ne r' r with rfl | hne
      · rw [Function.update_self]
        exact hothers hr'
      · rw [Function.update_of_ne hne]
        exact h.others ms hms r' hr'
    · rcases eq_or_ne r 0 with hr | hr
      · rw [hled1 hr]
        exact (hleader hr).1
      · rw [hled0 hr]
        exact h.head ms hms
    · rcases eq_or_ne r 0 with hr | hr
      · subst hr
        rw [hled1 rfl]
        rw [heq, Function.update_self] at hloading halive'
        exact (hleader rfl).2 hloading halive'
      · rw [hled0 hr]
        rw [heq, Function.update_of_ne (Ne.symm hr)] at hloading halive'
        exact h.port ms hms hloading halive'
  have hother : ∀ {P : Prop}, (∀ e, (s.ranks r).stage ≠ .failed e) →
      (s.ranks r).stage ≠ .forming → r ≠ 0 → P := by
    intro P hfailed hforming hr
    rcases h.others ms hms r hr with hstage' | ⟨e, hstage'⟩
    · exact absurd hstage' hforming
    · exact absurd hstage' (hfailed e)
  cases hmove with
  | rendezvous hforming hr =>
    subst hr
    refine hranks _ rfl (hempty 0) (fun hr => absurd rfl hr) fun _ => ⟨?_, fun _ _ => ?_⟩
    · exact led_concat (m := .rendezvous) (h.head ms hms) nofun rfl
    · rw [led_setRank]
      refine List.ne_nil_of_mem (a := .rendezvous) ?_
      simp [ofLeader]
  | joins hforming hinbox hr => exact (hno hinbox).elim
  | @fails e hstarted =>
    refine hranks _ rfl (hempty r) (fun _ => .inr ⟨e, rfl⟩) fun hr => ?_
    subst hr
    exact ⟨led_concat (m := .answer 0 false (some e.carried)) (h.head ms hms) nofun rfl, nofun⟩
  | loads hloading =>
    refine hranks _ rfl (hempty r) (hother (by simp [hloading]) (by simp [hloading])) fun hr => ?_
    subst hr
    exact ⟨led_concat (h.head ms hms) (fun _ => h.port ms hms hloading halive) rfl, nofun⟩
  | takes hready hinbox => exact (hno hinbox).elim
  | resets hready hinbox => exact (hno hinbox).elim
  | leaves hready hinbox => exact (hno hinbox).elim
  | ignores hready hinbox => exact (hno hinbox).elim
  | reads htook hinput =>
    refine hranks _ rfl (hempty r) (hother (by simp [htook]) (by simp [htook])) fun hr => ?_
    subst hr
    refine ⟨?_, nofun⟩
    rw [led_setRank]
    exact h.head ms hms
  | @replies call reply hrunning =>
    refine hranks _ rfl (hempty r) (hother (by simp [hrunning]) (by simp [hrunning])) fun hr => ?_
    subst hr
    refine ⟨led_concat (h.head ms hms) (fun hm => ?_) rfl, nofun⟩
    cases reply <;> cases hm
  | dies =>
    refine hranks _ rfl (hempty r) (h.others ms hms r) fun hr => ?_
    subst hr
    refine ⟨fun hhead => h.head ms hms ?_, nofun⟩
    rw [led_setRank, List.append_nil] at hhead
    rw [led, List.filter_append, List.head?_append, hhead]
    rfl

theorem flushes (h : s.Joining) (hreported : s.Reported n) {r : ℕ} (hr : r < n) {m : Message}
    {sending : List Message} (hsending : (s.ranks r).sending = m :: sending)
    (hborn : s.stage ≠ .fresh) (loadErrors : List Exn) :
    ({ s.setRank r { s.ranks r with sending } with
      outbox := s.outbox ++ [m], loadErrors } : DistributedRunner α β).Joining := by
  have hranks : ∀ r', ∃ sending', (Function.update s.ranks r { s.ranks r with sending } r') =
      { s.ranks r' with sending := sending' } := by
    intro r'
    rcases eq_or_ne r' r with rfl | hne
    · rw [Function.update_self]
      exact ⟨_, rfl⟩
    · rw [Function.update_of_ne hne]
      exact ⟨_, rfl⟩
  have hled : ({ s.setRank r { s.ranks r with sending } with
      outbox := s.outbox ++ [m], loadErrors } : DistributedRunner α β).led = s.led := by
    show (s.outbox ++ [m] ++
      (Function.update s.ranks r { s.ranks r with sending } 0).sending).filter ofLeader = _
    rcases eq_or_ne r 0 with rfl | hr0
    · rw [Function.update_self, led, hsending, List.append_assoc]
      rfl
    · -- another rank puts its own report, and no port
      have hm : m ∈ (s.ranks r).sending := by rw [hsending]; exact List.mem_cons_self
      have hnot : ofLeader m = false := by
        rcases (hreported.serves r hr).sending m hm with rfl | ⟨rfl, -⟩
        · exact absurd hm (hreported.others r hr0)
        · have hne := Rank.lastReport_ne_rendezvous r (s.ranks r)
          simp [ofLeader, hne, hr0]
      rw [Function.update_of_ne (Ne.symm hr0), led, List.filter_append, List.filter_append,
        List.filter_cons_of_neg (by simp [hnot]), List.filter_nil, List.append_nil,
        List.filter_append]
  refine ⟨fun hfresh => absurd hfresh hborn, h.collected, fun ms hms r' => ?_,
    fun ms hms r' hr' => ?_, fun ms hms => ?_, fun ms hms hloading halive => ?_⟩
  · obtain ⟨sending', heq⟩ := hranks r'
    show (Function.update s.ranks r _ r').inbox = []
    rw [heq]
    exact h.inbox ms hms r'
  · obtain ⟨sending', heq⟩ := hranks r'
    show (Function.update s.ranks r _ r').stage = _ ∨
      ∃ e, (Function.update s.ranks r _ r').stage = _
    rw [heq]
    exact h.others ms hms r' hr'
  · rw [hled]
    exact h.head ms hms
  · obtain ⟨sending', heq⟩ := hranks 0
    rw [hled]
    refine h.port ms hms ?_ ?_
    · rw [show ({ s.setRank r { s.ranks r with sending } with
        outbox := s.outbox ++ [m], loadErrors } : DistributedRunner α β).ranks 0 = _ from heq]
        at hloading
      exact hloading
    · rw [show ({ s.setRank r { s.ranks r with sending } with
        outbox := s.outbox ++ [m], loadErrors } : DistributedRunner α β).ranks 0 = _ from heq]
        at halive
      exact halive

theorem endStart (outbox : List Message) (outcome : Outcome β) :
    ({ s with outbox }.endStart outcome).Joining := by
  obtain ⟨healthy, shutdownDone, heq⟩ := Reported.endStart_eq (s := { s with outbox }) outcome
  rw [heq]
  exact of_past nofun nofun

theorem giveUp (hcollecting : s.collecting = true) (outbox : List Message)
    {messages : List Message} (outcome : Outcome β) :
    ({ s with outbox }.giveUp n messages outcome).Joining := by
  rcases giveUp_eq (n := n) hcollecting outbox messages outcome with ⟨-, heq⟩ | ⟨-, heq⟩
  · rw [heq]
    exact endStart outbox outcome
  · rw [heq]
    exact of_past nofun nofun

theorem next {l : Label α β} (h : s.Joining) (hreported : s.Reported n) (hunborn : Unborn s)
    (hnext : s.next n formsGroup l = some s') : s'.Joining := by
  have hborn : ∀ {r}, (s.ranks r).alive = true → s.stage ≠ .fresh := by
    intro r halive hfresh
    rw [hunborn hfresh r] at halive
    cases halive
  have hstep := step_of_next hnext
  cases hstep with
  | start hfresh hopen =>
    cases formsGroup with
    | false => exact of_past (by rintro ⟨⟩) (by rintro _ ⟨⟩)
    | true =>
      obtain ⟨houtbox, -, hranks⟩ := hreported.fresh hfresh
      have hinbox := (h.fresh hfresh).resolve_left (by rw [hopen]; decide)
      have hled : (s.start true).led = [] := by
        show (s.outbox ++ (s.ranks 0).sending).filter ofLeader = []
        rw [houtbox, (hranks 0).2]
        rfl
      refine ⟨by rintro ⟨⟩, ?_, fun _ _ => hinbox, fun _ _ _ _ => .inl rfl, fun _ _ => ?_,
        fun _ _ hloading => ?_⟩
      · rintro ms ⟨⟩
        rfl
      · rw [hled]
        rintro ⟨⟩
      · cases hloading
  | call hready => exact of_past (by rintro ⟨⟩) (by rintro _ ⟨⟩)
  | shutdown hidle =>
    have hfields : s.shutdown.stage = s.stage ∧ s.shutdown.shutdownDone = true := by
      unfold DistributedRunner.shutdown
      dsimp only
      split_ifs <;> exact ⟨rfl, rfl⟩
    obtain ⟨hstage, hdone⟩ := hfields
    have hport : ∀ ms, s.shutdown.stage ≠ .rendezvous ms := by
      intro ms hms
      rw [hstage] at hms
      rw [collecting, hms] at hidle
      cases hidle
    exact ⟨fun _ => .inl hdone, fun ms hms => absurd hms (hport ms),
      fun ms hms => absurd hms (hport ms), fun ms hms => absurd hms (hport ms),
      fun ms hms => absurd hms (hport ms), fun ms hms => absurd hms (hport ms)⟩
  | rests => exact h
  | @settles l messages outbox t hl hcollecting hinflight hsettles =>
    cases hsettles with
    | waits hempty =>
      rcases collecting_iff.mp hcollecting with ⟨ms, hstage⟩ | ⟨ms, hstage⟩ | ⟨ms, hstage⟩
      · -- nothing was taken
        have hnil := hempty ms hstage
        have hms := h.collected ms hstage
        subst hnil
        rw [inflight, DistributedRunner.collected, hstage, List.nil_append] at hinflight
        have hinflight : outbox = ms ++ s.outbox := hinflight
        rw [hms, List.nil_append] at hinflight
        subst hinflight
        refine ⟨fun hfresh => ?_, fun ms' hms' => ?_, fun _ _ => h.inbox ms hstage,
          fun _ _ => h.others ms hstage, fun _ _ => h.head ms hstage, fun _ _ => h.port ms hstage⟩
        · rw [hstage] at hfresh
          cases hfresh
        · rw [hstage] at hms'
          cases hms'
          rfl
      · rw [hstage]
        exact of_past (by rintro ⟨⟩) (by rintro _ ⟨⟩)
      · rw [hstage]
        exact of_past (by rintro ⟨⟩) (by rintro _ ⟨⟩)
    | joins hstage hnone hport => exact of_past (by rintro ⟨⟩) (by rintro _ ⟨⟩)
    | started hends => exact endStart outbox _
    | decided hstage hn => exact of_past (by rintro ⟨⟩) (by rintro _ ⟨⟩)
  | crashes hcollecting hinflight hr hdead hnone => exact giveUp hcollecting _ _
  | givesUp hl hcollecting => exact giveUp hcollecting s.outbox _
  | moves hr halive hmove => exact h.moves halive hmove (hborn halive)
  | flushes hr halive hsending => exact h.flushes hreported hr hsending (hborn halive) _

end Joining

/-- How a start ends that collected a report of each rank. -/
theorem startVerdict_eq {messages : List Message}
    (h : ∀ m ∈ messages, (∃ r, m = .loaded r) ∨ ∃ r e, m = .answer r false (some e)) :
    messages.filterMap Message.error = [] ∨ ∃ e ∈ messages.filterMap Message.error,
      (startVerdict messages : Outcome β) = .raised e := by
  induction messages with
  | nil => exact .inl rfl
  | cons m messages ih =>
    rcases h m List.mem_cons_self with ⟨r, rfl⟩ | ⟨r, e, rfl⟩
    · exact ih fun x hx => h x (List.mem_cons_of_mem _ hx)
    · exact .inr ⟨e, List.mem_cons_self, rfl⟩

/-- The runner gives a start up although an error of `load` had arrived. -/
def givesStartUp (n : ℕ) (s : DistributedRunner α β) (l : Label α β) : Bool :=
  match s.stage, l with
  | .rendezvous _, .deadline | .rendezvous _, .interrupt | .starting _, .deadline
  | .starting _, .interrupt => !s.loadErrors.isEmpty
  | .rendezvous _, .poll | .starting _, .poll =>
    !s.loadErrors.isEmpty && !(s.silent n s.collected).isEmpty
  | _, _ => false

/-- An exception before `Loaded` does not arrive as it is. -/
def rewritesLoad : Label α β → Bool
  | .rank _ (.fails e) => e.carried ≠ e
  | _ => false

/-- The exceptions before `Loaded` arrive as they are. -/
def LoadsCarried (s : DistributedRunner α β) : Prop :=
  (∀ r e, (s.ranks r).stage = .failed e → e.carried = e) ∧ ∀ e ∈ s.loadErrors, e.carried = e

def Raised (s : DistributedRunner α β) : Prop :=
  ∀ outcome, s.startOutcome = some outcome → s.loadErrors ≠ [] →
    ∃ e ∈ s.loadErrors, outcome = .raised e

theorem LoadsCarried.init : LoadsCarried ({} : DistributedRunner α β) := by
  refine ⟨fun r e h => ?_, fun _ h => absurd h List.not_mem_nil⟩
  cases h

theorem Raised.init : Raised ({} : DistributedRunner α β) := by
  intro outcome h
  cases h

theorem LoadsCarried.next {l : Label α β} (h : s.LoadsCarried) (hl : rewritesLoad l = false)
    (hnext : s.next n formsGroup l = some s') : s'.LoadsCarried := by
  have hstep := step_of_next hnext
  have hsame : (∀ r e, (s'.ranks r).stage = .failed e → (s.ranks r).stage = .failed e) →
      s'.loadErrors = s.loadErrors → s'.LoadsCarried := by
    intro hstage herrors
    exact ⟨fun r e he => h.1 r e (hstage r e he), herrors ▸ h.2⟩
  have hput : ∀ (t : DistributedRunner α β) (p : ℕ → Bool) (request : Request) (r : ℕ) (e : Exn),
      ((t.put p request).ranks r).stage = .failed e → (t.ranks r).stage = .failed e := by
    intro t p request r e he
    obtain ⟨inbox, heq⟩ := Reported.put_ranks (s := t) p request r
    rw [heq] at he
    exact he
  have hgaveUp : ∀ outbox messages outcome,
      ({ s with outbox }.giveUp n messages outcome).ranks = s.ranks ∧
        ({ s with outbox }.giveUp n messages outcome).loadErrors = s.loadErrors := by
    intro outbox messages outcome
    obtain ⟨healthy, shutdownDone, heq⟩ := Reported.endStart_eq (s := { s with outbox }) outcome
    unfold giveUp
    split
    · rw [heq]
      exact ⟨rfl, rfl⟩
    · rw [heq]
      exact ⟨rfl, rfl⟩
    · exact ⟨rfl, rfl⟩
    · exact ⟨rfl, rfl⟩
    · exact ⟨rfl, rfl⟩
  cases hstep with
  | start hfresh hopen =>
    refine hsame (fun r e he => ?_) rfl
    cases formsGroup <;> cases he
  | @call call hready =>
    exact hsame (fun r e he => hput s (fun _ => true) call.request r e he) rfl
  | shutdown hidle =>
    unfold DistributedRunner.shutdown at hsame ⊢
    dsimp only at hsame ⊢
    split_ifs at hsame ⊢
    · exact hsame (fun r e he => hput s _ _ r e he) rfl
    · exact hsame (fun _ _ he => he) rfl
  | rests => exact h
  | @settles l messages outbox t hl' hcollecting hinflight hsettles =>
    cases hsettles with
    | waits => exact hsame (fun _ _ he => he) rfl
    | joins hstage hnone hport =>
      exact hsame (fun r e he => hput { s with outbox } (fun r => 0 < r) .join r e he) rfl
    | @started outcome hends =>
      obtain ⟨healthy, shutdownDone, heq⟩ := Reported.endStart_eq (s := { s with outbox }) outcome
      rw [heq] at hsame ⊢
      exact hsame (fun _ _ he => he) rfl
    | decided hstage hn => exact hsame (fun _ _ he => he) rfl
  | @crashes messages outbox r hcollecting hinflight hr hdead hnone =>
    obtain ⟨hranks, herrors⟩ := hgaveUp outbox messages (.crashed r)
    exact hsame (fun r e he => by rw [hranks] at he; exact he) herrors
  | @givesUp l outcome hl' hcollecting =>
    obtain ⟨hranks, herrors⟩ := hgaveUp s.outbox s.collected outcome
    have hranks : (s.giveUp n s.collected outcome).ranks = s.ranks := hranks
    exact hsame (fun r e he => by rw [hranks] at he; exact he) herrors
  | @moves r l t hr halive hmove =>
    have hranks : ∀ R : Rank α β, s'.ranks = Function.update s.ranks r R →
        s'.loadErrors = s.loadErrors → (∀ e, R.stage = .failed e →
          (s.ranks r).stage = .failed e ∨ e.carried = e) → s'.LoadsCarried := by
      intro R hranks herrors hstage
      refine ⟨fun r' e he => ?_, herrors ▸ h.2⟩
      rw [hranks] at he
      rcases eq_or_ne r' r with rfl | hne
      · rw [Function.update_self] at he
        rcases hstage e he with hfailed | hcarried
        · exact h.1 _ e hfailed
        · exact hcarried
      · rw [Function.update_of_ne hne] at he
        exact h.1 r' e he
    cases hmove with
    | fails hstarted =>
      refine hranks _ rfl rfl fun e he => ?_
      cases he
      exact .inr (by simpa [rewritesLoad] using hl)
    | ignores hready hinbox => exact hranks _ rfl rfl fun e he => .inl he
    | dies => exact hranks _ rfl rfl fun e he => .inl he
    | _ => exact hranks _ rfl rfl nofun
  | @flushes r m sending hr halive hsending =>
    refine ⟨fun r' e he => ?_, fun e he => ?_⟩
    · have he : (Function.update s.ranks r { s.ranks r with sending } r').stage = .failed e := he
      rcases eq_or_ne r' r with rfl | hne
      · rw [Function.update_self] at he
        exact h.1 _ e he
      · rw [Function.update_of_ne hne] at he
        exact h.1 r' e he
    · have he : e ∈ s.loadErrorsWith r m := he
      unfold loadErrorsWith at he
      split at he
      · next hfailed _ _ =>
        rcases List.mem_append.mp he with he | he
        · exact h.2 e he
        · rw [List.mem_singleton.mp he]
          exact h.1 r _ hfailed
      · exact h.2 e he

theorem not_unexpected (h : s.Joining) (hreported : s.Reported n)
    {ms messages outbox : List Message}
    (hstage : s.stage = .rendezvous ms) (hstart : s.startOutcome = none)
    (hinflight : messages ++ outbox = s.inflight)
    (hnone : messages.findSome? Message.error = none) (hne : messages ≠ []) :
    .rendezvous ∈ messages := by
  by_contra hport
  obtain ⟨m, rest, rfl⟩ := List.exists_cons_of_ne_nil hne
  have hm : m ∈ s.inflight := by
    rw [← hinflight]
    exact List.mem_append_left _ List.mem_cons_self
  have hms := h.collected ms hstage
  have hofLeader : m = .loaded 0 := by
    rcases arrived_of_start hreported hstart hm with rfl | ⟨r, hr, hstarted, hreport⟩
    · exact absurd List.mem_cons_self hport
    rcases hreport with ⟨e, -, rfl⟩ | ⟨hnot, rfl⟩
    · have hfound := List.findSome?_eq_none_iff.mp hnone _ List.mem_cons_self
      cases hfound
    by_cases hr0 : r = 0
    · rw [hr0]
    rcases h.others ms hstage r hr0 with hforming | ⟨e, hfailed⟩
    · rw [Rank.hasStarted, hforming] at hstarted
      cases hstarted
    · exact absurd hfailed (hnot e)
  refine h.head ms hstage ?_
  have houtbox : s.outbox = m :: (rest ++ outbox) := by
    rw [inflight, collected, hstage] at hinflight
    have hinflight : m :: rest ++ outbox = ms ++ s.outbox := hinflight
    rw [hms, List.nil_append] at hinflight
    exact hinflight.symm
  rw [led, houtbox, hofLeader]
  rfl

theorem Raised.next {l : Label α β} (h : s.Raised) (hl : s.givesStartUp n l = false)
    (hcarried : s.LoadsCarried) (hreports : s.Reports) (hreported : s.Reported n)
    (hjoining : s.Joining) (hcounted : s.Counted) (hnext : s.next n formsGroup l = some s') :
    s'.Raised := by
  have hstep := step_of_next hnext
  -- an error that arrived is one of `load`
  have herror : s.startOutcome = none → ∀ m ∈ s.inflight, ∀ e, m.error = some e →
      e ∈ s.loadErrors := by
    intro hstart m hm e he
    have hmem : e ∈ s.inflight.filterMap Message.error := List.mem_filterMap.mpr ⟨m, hm, he⟩
    rw [hreports hstart] at hmem
    obtain ⟨e', he', rfl⟩ := List.mem_map.mp hmem
    rw [hcarried.2 e' he']
    exact he'
  have hsame : s'.startOutcome = s.startOutcome → s'.loadErrors = s.loadErrors → s'.Raised := by
    intro hstart herrors
    rw [Raised, hstart, herrors]
    exact h
  have hgaveUp : ∀ outbox messages outcome, s.collecting = true → (¬s.InCall → s.loadErrors = []) →
      ({ s with outbox }.giveUp n messages outcome).Raised := by
    intro outbox messages outcome hcollecting hnil
    rcases giveUp_eq (n := n) hcollecting outbox messages outcome with ⟨hnot, heq⟩ | ⟨hin, heq⟩
    · obtain ⟨healthy, shutdownDone, heq'⟩ :=
        Reported.endStart_eq (s := { s with outbox }) outcome
      rw [heq, heq']
      exact fun _ _ hne => absurd (hnil hnot) hne
    · rw [heq]
      exact h
  cases hstep with
  | start hfresh hopen => exact hsame rfl rfl
  | call hready => exact hsame rfl rfl
  | shutdown hidle =>
    have hfields : s.shutdown.startOutcome = s.startOutcome ∧
        s.shutdown.loadErrors = s.loadErrors := by
      unfold DistributedRunner.shutdown
      dsimp only
      split_ifs <;> exact ⟨rfl, rfl⟩
    exact hsame hfields.1 hfields.2
  | rests => exact h
  | @settles l messages outbox t hl' hcollecting hinflight hsettles =>
    cases hsettles with
    | waits => exact hsame rfl rfl
    | joins hstage hnone hport => exact hsame rfl rfl
    | @started outcome hends =>
      have hstart : s.startOutcome = none := by
        refine hcounted.starting ?_ ?_
        · rintro ⟨ms, hms⟩
          rw [hms] at hends
          cases hends
        · intro hidle
          rw [hidle] at hends
          cases hends
      have hmem : ∀ m ∈ messages, m ∈ s.inflight := fun m hm =>
        hinflight ▸ List.mem_append_left _ hm
      have hraised : s.loadErrors ≠ [] → ∃ e ∈ s.loadErrors, outcome = .raised e := by
        intro hne
        rcases collecting_iff.mp hcollecting with ⟨ms, hstage⟩ | ⟨ms, hstage⟩ | ⟨ms, hstage⟩
        · rw [hstage] at hends
          cases hends with
          | refused hfound =>
            obtain ⟨m, hm, he⟩ := List.exists_of_findSome?_eq_some hfound
            exact ⟨_, herror hstart m (hmem m hm) _ he, rfl⟩
          | unexpected hnone hnil hport =>
            have hjoins :=
              not_unexpected hjoining hreported hstage hstart hinflight hnone hnil
            exact absurd hjoins hport
        · rw [hstage] at hends
          cases hends with
          | complete hn =>
            obtain ⟨hnil, -, hall, -⟩ := hreported.complete hinflight
              (by rw [allowedPorts, hstage]) hn
            have hstarts : ∀ m ∈ messages,
                (∃ r, m = .loaded r) ∨ ∃ r e, m = .answer r false (some e) := by
              intro m hm
              rcases arrived_of_start hreported hstart (hmem m hm) with rfl | ⟨r, -, -, hreport⟩
              · obtain ⟨r, -, hrank, -⟩ := hall _ hm
                cases hrank
              rcases hreport with ⟨e, -, rfl⟩ | ⟨-, rfl⟩
              · exact .inr ⟨r, _, rfl⟩
              · exact .inl ⟨r, rfl⟩
            rw [hnil, List.append_nil] at hinflight
            rcases startVerdict_eq (β := β) hstarts with hnone | ⟨e, he, heq⟩
            · rw [hinflight, hreports hstart] at hnone
              exact absurd (List.map_eq_nil_iff.mp hnone) hne
            · obtain ⟨m, hm, he⟩ := List.mem_filterMap.mp he
              exact ⟨e, herror hstart m (hmem m hm) e he, heq⟩
        · rw [hstage] at hends
          cases hends
      obtain ⟨healthy, shutdownDone, heq⟩ := Reported.endStart_eq (s := { s with outbox }) outcome
      rw [heq]
      rintro _ ⟨⟩ hne
      exact hraised hne
    | decided hstage hn => exact hsame rfl rfl
  | @crashes messages outbox r hcollecting hinflight hr hdead hnone =>
    refine hgaveUp outbox messages _ hcollecting fun hnot => ?_
    have hsilent : (s.silent n s.collected).isEmpty = false := by
      have hmem : r ∈ s.silent n s.collected := by
        refine List.mem_filter.mpr ⟨List.mem_range.mpr hr, ?_⟩
        rw [hdead, Bool.not_false, Bool.true_and, List.all_eq_true]
        intro m hm
        exact decide_eq_true (hnone m (hinflight ▸ hm))
      rw [List.isEmpty_eq_false_iff]
      exact List.ne_nil_of_mem hmem
    rcases collecting_iff.mp hcollecting with ⟨ms, hstage⟩ | ⟨ms, hstage⟩ | ⟨ms, hstage⟩
    · simpa [givesStartUp, hstage, hsilent] using hl
    · simpa [givesStartUp, hstage, hsilent] using hl
    · exact absurd ⟨ms, hstage⟩ hnot
  | @givesUp l outcome hl' hcollecting =>
    refine hgaveUp s.outbox s.collected outcome hcollecting fun hnot => ?_
    rcases collecting_iff.mp hcollecting with ⟨ms, hstage⟩ | ⟨ms, hstage⟩ | ⟨ms, hstage⟩
    · rcases hl' with ⟨rfl, -⟩ | ⟨rfl, -⟩ <;> simpa [givesStartUp, hstage] using hl
    · rcases hl' with ⟨rfl, -⟩ | ⟨rfl, -⟩ <;> simpa [givesStartUp, hstage] using hl
    · exact absurd ⟨ms, hstage⟩ hnot
  | moves hr halive hmove =>
    have hfields : s'.startOutcome = s.startOutcome ∧ s'.loadErrors = s.loadErrors := by
      cases hmove <;> exact ⟨rfl, rfl⟩
    exact hsame hfields.1 hfields.2
  | @flushes r m sending hr halive hsending =>
    intro outcome houtcome
    have hstart : s.startOutcome = some outcome := houtcome
    have herrors : s.loadErrorsWith r m = s.loadErrors := by
      unfold loadErrorsWith
      split
      · next hnone _ =>
        rw [hnone] at hstart
        cases hstart
      · rfl
    show s.loadErrorsWith r m ≠ [] → ∃ e ∈ s.loadErrorsWith r m, outcome = .raised e
    rw [herrors]
    exact h outcome hstart

/-! ### Every run -/

theorem expected_returned {x : α} {replies : List (Except Exn β)} {o : Option β}
    (hne : replies ≠ []) (h : expected (.generate x) replies = .returned o) :
    ∃ y, o = some y ∧ replies.head? = some (.ok y) := by
  obtain ⟨reply, rest, rfl⟩ := List.exists_cons_of_ne_nil hne
  unfold expected at h
  cases reply with
  | ok y =>
    refine ⟨y, ?_, rfl⟩
    split at h
    · exact (Outcome.returned.inj h).symm
    · split_ifs at h
  | error e =>
    split at h
    · next hnil => cases hnil
    · split_ifs at h

theorem returned_of_follows (hn : 0 < n) {i : ℕ} {e : Ended β} {x : α} {o : Option β}
    (h : s.Follows carriedReply n i e) (hcall : s.calls[i]? = some (.generate x))
    (he : e.outcome = .returned o) : ∃ y, o = some y ∧
      (s.ranks 0).served[i]? = some (.generate x) ∧ (s.ranks 0).replies[i]? = some (.ok y) := by
  cases h with
  | gaveUp h =>
    rw [he] at h
    rcases h with h | h <;> cases h
  | crashed hr h =>
    rw [he] at h
    cases h
  | @decided call reply hsilent hcall' hreply h =>
    obtain rfl : call = .generate x := Option.some.inj (hcall'.symm.trans hcall)
    obtain ⟨k, rfl⟩ := Nat.exists_eq_succ_of_ne_zero hn.ne'
    rw [he, List.range_succ_eq_map] at h
    obtain ⟨y, rfl, hhead⟩ := expected_returned (by simp) h.symm
    have hok : reply 0 = .ok y := by
      have hcarried : carriedReply (reply 0) = .ok y := by simpa using hhead
      cases hreply0 : reply 0 with
      | ok y' =>
        rw [hreply0] at hcarried
        exact hcarried
      | error e =>
        rw [hreply0] at hcarried
        cases hcarried
    obtain ⟨hserved, hreplied⟩ := hreply 0 hn
    exact ⟨y, rfl, hserved, by rw [hreplied, hok]⟩

/-- What holds of the runner and its ranks in every run. -/
structure Sound (n : ℕ) (s : DistributedRunner α β) : Prop where
  reported : s.Reported n
  unborn : Unborn s
  counted : s.Counted
  written : s.Written
  follows : ∀ i e, s.ended[i]? = some e → s.Follows carriedReply n i e

/-- No call has ended before the first step. -/
theorem ended_init (i : ℕ) (e : Ended β) : ([] : List (Ended β))[i]? ≠ some e := by
  rw [List.getElem?_nil]
  exact nofun

theorem Sound.init : Sound n ({} : DistributedRunner α β) :=
  ⟨Reported.init, fun _ _ => rfl, Counted.init, nofun, fun i e h => absurd h (ended_init i e)⟩

theorem Sound.next (hn : 0 < n) {l : Label α β} (h : s.Sound n)
    (hnext : s.next n formsGroup l = some s') : s'.Sound n :=
  ⟨h.reported.next h.unborn hnext, h.unborn.next hnext, h.counted.next hnext,
    h.written.next h.reported hnext,
    follows_next hn (fun _ _ _ => rfl) h.reported h.written h.counted h.follows hnext⟩

/-- Two ranks form a group, generate, and raise the same on a reset. -/
def twoCalls : List (Label ℕ ℕ) :=
  [.start, .rank 0 .rendezvous, .rank 0 .flushes, .receive, .rank 1 .joins, .rank 1 .loads,
   .rank 0 .loads, .rank 1 .flushes, .rank 0 .flushes, .receive, .receive,
   .call (.generate 4), .rank 1 .receives, .rank 0 .receives, .rank 0 .reads, .rank 1 .reads,
   .rank 1 (.replies (.ok 7)), .rank 0 (.replies (.ok 8)), .rank 1 .flushes, .rank 0 .flushes,
   .receive, .receive,
   .call .reset, .rank 0 .receives, .rank 1 .receives,
   .rank 0 (.replies (.error { cls := 1 })), .rank 1 (.replies (.error { cls := 1 })),
   .rank 0 .flushes, .rank 1 .flushes, .receive, .poll, .receive]

theorem isSome_twoCalls : ((distributedRunner ℕ ℕ 2 true).run twoCalls).isSome := rfl

/-- Both ranks raise exceptions of their own that do not pickle. -/
def unpicklableRun : List (Label ℕ ℕ) :=
  [.start, .rank 0 .loads, .rank 1 .loads, .rank 0 .flushes, .rank 1 .flushes, .receive, .receive,
   .call .reset, .rank 0 .receives, .rank 1 .receives,
   .rank 0 (.replies (.error { cls := 1, pickling := .fails })),
   .rank 1 (.replies (.error { cls := 2, pickling := .fails })),
   .rank 0 .flushes, .rank 1 .flushes, .receive, .receive]

theorem isSome_unpicklableRun :
    ((distributedRunner ℕ ℕ 2 false).run unpicklableRun).isSome := rfl

/-- The `load` of rank 1 raises while rank 0 hangs. -/
def hungStart : List (Label ℕ ℕ) :=
  [.start, .rank 1 (.fails { cls := 1 }), .rank 1 .flushes, .receive, .deadline]

theorem isSome_hungStart : ((distributedRunner ℕ ℕ 2 false).run hungStart).isSome := rfl

end DistributedRunner

end ReactorRuntime.Distributed
