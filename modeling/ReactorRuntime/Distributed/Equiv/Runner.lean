import ReactorRuntime.Distributed.Runner

/-!
# Lockstep

Every rank puts one report for the start and one for each call (`lastReport`), and the runner
broadcasts a call only when it has taken the reports of all ranks on the one before (`Reported`,
`Quiet`).  So the messages of a call that is decided are the reports of all ranks on that call.
-/

namespace ReactorRuntime.Distributed

variable {α β : Type} {n : ℕ} {formsGroup : Bool}

namespace Rank

/-! ### The reports of a rank -/

def hasStarted (R : Rank α β) : Bool :=
  match R.stage with
  | .forming | .loading => false
  | .failed _ | .ready | .took | .running _ | .exited => true

def reports (R : Rank α β) : ℕ := R.hasStarted.toNat + R.replies.length

def startReport (r : ℕ) (R : Rank α β) : Message :=
  match R.stage with
  | .failed e => .answer r false (some e.carried)
  | _ => .loaded r

def lastReport (r : ℕ) (R : Rank α β) : Message :=
  match R.replies.getLast?, R.served[R.replies.length - 1]? with
  | some reply, some call => DistributedRunner.answer r call reply
  | _, _ => R.startReport r

def requests (R : Rank α β) : List Request :=
  (match R.stage with
    | .took => [.generate]
    | _ => []) ++ R.inbox.filter fun request => request = .generate || request = .reset

/-- Whether the worker of a rank is at a call. -/
def isRunning (R : Rank α β) : Bool :=
  match R.stage with
  | .running _ => true
  | _ => false

@[simp] theorem rank_answer (r : ℕ) (call : Call α) (reply : Except Exn β) :
    (DistributedRunner.answer r call reply).rank = some r := by
  cases reply <;> rfl

@[simp] theorem rank_lastReport (r : ℕ) (R : Rank α β) : (R.lastReport r).rank = some r := by
  unfold lastReport
  split
  · exact rank_answer r _ _
  · unfold startReport
    split <;> rfl

theorem lastReport_ne_rendezvous (r : ℕ) (R : Rank α β) : R.lastReport r ≠ .rendezvous := by
  intro h
  have hrank := rank_lastReport r R
  rw [h] at hrank
  cases hrank

/-- What holds of a rank: it serves the calls in order and one at a time, and the report that it has
put and not flushed is the one on the last call. -/
structure Serves (r : ℕ) (calls : List (Call α)) (R : Rank α β) : Prop where
  pending : ∃ pending, calls = R.served ++ pending ∧ pending.map Call.request = R.requests ∧
    pending.length ≤ 1
  counted : R.served.length = R.replies.length + R.isRunning.toNat
  running : ∀ call, R.stage = .running call → R.served.getLast? = some call
  early : (∀ e, R.stage = .failed e → R.served = []) ∧ (R.hasStarted = false → R.served = [])
  behind : calls.length ≤ R.reports
  sending : ∀ m ∈ R.sending,
    m = .rendezvous ∨ m = R.lastReport r ∧ R.reports = calls.length + 1
  once : (R.sending.filterMap Message.rank).length ≤ 1

theorem Serves.no_report {r : ℕ} {calls : List (Call α)} {R : Rank α β} (h : R.Serves r calls)
    (hreports : R.reports ≠ calls.length + 1) : R.sending.filterMap Message.rank = [] := by
  rw [List.filterMap_eq_nil_iff]
  intro m hm
  rcases h.sending m hm with rfl | ⟨-, heq⟩
  · rfl
  · exact absurd heq hreports

/-- How many ports a rank still has to put or to flush. -/
def ports (R : Rank α β) : ℕ :=
  R.sending.count .rendezvous + match R.stage with
    | .forming => 1
    | _ => 0

structure Moves (r : ℕ) (calls : List (Call α)) (R R' : Rank α β) : Prop where
  serves : R'.Serves r calls
  replies : R.replies <+: R'.replies
  reported : R.reports = calls.length + 1 →
    R'.reports = calls.length + 1 ∧ R'.lastReport r = R.lastReport r ∧
      R'.sending.Sublist R.sending
  failed : ∀ e, R.stage = .failed e → R'.stage = .failed e
  ports : r = 0 → R'.ports ≤ R.ports
  rendezvous : r ≠ 0 → .rendezvous ∈ R'.sending → .rendezvous ∈ R.sending

section Moves

variable {r : ℕ} {calls : List (Call α)} {R R' : Rank α β}

theorem Serves.of_eq (h : R.Serves r calls) (hserved : R'.served = R.served)
    (hreplies : R'.replies = R.replies) (hrequests : R'.requests = R.requests)
    (hrunning : ∀ call, R'.stage = .running call → R.stage = .running call)
    (hisRunning : R'.isRunning = R.isRunning)
    (hfailed : ∀ e, R'.stage = .failed e → R.stage = .failed e)
    (hstarted : R'.hasStarted = R.hasStarted) (hlast : R'.lastReport r = R.lastReport r)
    (hsending : ∀ m ∈ R'.sending, m = .rendezvous ∨ m ∈ R.sending)
    (honce : (R'.sending.filterMap Message.rank).length ≤ 1) : R'.Serves r calls := by
  have hreports : R'.reports = R.reports := by rw [reports, reports, hstarted, hreplies]
  refine ⟨?_, ?_, ?_, ⟨?_, ?_⟩, ?_, ?_, honce⟩
  · rw [hserved, hrequests]
    exact h.pending
  · rw [hserved, hreplies, hisRunning]
    exact h.counted
  · intro call hcall
    rw [hserved]
    exact h.running call (hrunning call hcall)
  · intro e he
    rw [hserved]
    exact h.early.1 e (hfailed e he)
  · rw [hserved, hstarted]
    exact h.early.2
  · rw [hreports]
    exact h.behind
  · intro m hm
    rw [hlast, hreports]
    rcases hsending m hm with rfl | hm
    · exact .inl rfl
    · exact h.sending m hm

theorem Serves.length_served (h : R.Serves r calls) : R.served.length ≤ calls.length := by
  obtain ⟨pending, hcalls, -, -⟩ := h.pending
  rw [hcalls, List.length_append]
  omega

theorem Serves.of_not_started (h : R.Serves r calls) (hstarted : R.hasStarted = false) :
    calls = [] ∧ R.served = [] ∧ R.replies = [] ∧ R.reports = 0 := by
  have hserved := h.early.2 hstarted
  have hcounted := h.counted
  rw [hserved, List.length_nil] at hcounted
  have hreplies : R.replies = [] := List.length_eq_zero_iff.mp (by omega)
  have hreports : R.reports = 0 := by rw [reports, hstarted, hreplies]; rfl
  have hbehind := h.behind
  rw [hreports] at hbehind
  exact ⟨List.length_eq_zero_iff.mp (by omega), hserved, hreplies, hreports⟩

theorem Serves.of_running (h : R.Serves r calls) {call : Call α}
    (hstage : R.stage = .running call) :
    R.served.length = calls.length ∧ R.reports = calls.length ∧
      R.served[R.replies.length]? = some call := by
  have hcounted := h.counted
  have hrunning : R.isRunning = true := by rw [isRunning, hstage]
  have hstarted : R.hasStarted = true := by rw [hasStarted, hstage]
  rw [hrunning, Bool.toNat_true] at hcounted
  have hbehind := h.behind
  rw [reports, hstarted, Bool.toNat_true] at hbehind ⊢
  have hle := h.length_served
  refine ⟨by omega, by omega, ?_⟩
  have hlast := h.running call hstage
  rw [List.getLast?_eq_getElem?, hcounted] at hlast
  exact hlast

/-- The report of a rank that answered no call yet. -/
theorem lastReport_of_nil (h : R.replies = []) : R.lastReport r = R.startReport r := by
  unfold lastReport
  rw [h]
  rfl

theorem lastReport_of_getLast {call : Call α} {reply : Except Exn β}
    (hreply : R.replies.getLast? = some reply)
    (hcall : R.served[R.replies.length - 1]? = some call) :
    R.lastReport r = DistributedRunner.answer r call reply := by
  unfold lastReport
  rw [hreply, hcall]

theorem Serves.first (h : R.Serves r calls) (hstarted : R.hasStarted = false) (stage : RankStage α)
    (hstage : ∀ call, stage ≠ .running call) (hnot : stage ≠ .took)
    (hstarts : ({ R with stage } : Rank α β).hasStarted = true) {m : Message}
    (hm : m = ({ R with stage } : Rank α β).lastReport r) :
    ({ R with stage, sending := R.sending ++ [m] } : Rank α β).Serves r calls := by
  obtain ⟨hcalls, hserved, hreplies, hreports⟩ := h.of_not_started hstarted
  have hmessages := h.no_report (by rw [hreports]; omega)
  have hafter : ({ R with stage, sending := R.sending ++ [m] } : Rank α β).reports = 1 := by
    show ({ R with stage } : Rank α β).hasStarted.toNat + R.replies.length = 1
    rw [hstarts, hreplies]
    rfl
  have hrunning : ({ R with stage } : Rank α β).isRunning = false := by
    unfold isRunning
    split
    · next call hcall => exact absurd hcall (hstage call)
    · rfl
  refine ⟨⟨[], ?_, ?_, by simp⟩, ?_, ?_, ⟨fun _ _ => hserved, fun _ => hserved⟩, ?_, ?_, ?_⟩
  · rw [hcalls, hserved]
    rfl
  · obtain ⟨pending, hpending, hrequests, -⟩ := h.pending
    rw [hcalls, hserved, List.nil_append] at hpending
    rw [← hpending] at hrequests
    have hrest : R.inbox.filter (fun q => q = .generate || q = .reset) = [] :=
      (List.append_eq_nil_iff.mp hrequests.symm).2
    show [] = (match stage with | .took => [Request.generate] | _ => []) ++ _
    rw [hrest]
    cases stage <;> simp_all
  · rw [hserved, hreplies]
    show 0 = 0 + ({ R with stage } : Rank α β).isRunning.toNat
    rw [hrunning]
    rfl
  · exact fun call hcall => absurd hcall (hstage call)
  · rw [hafter, hcalls]
    exact Nat.zero_le 1
  · intro x hx
    rcases List.mem_append.mp hx with hx | hx
    · rcases h.sending x hx with rfl | ⟨-, heq⟩
      · exact .inl rfl
      · rw [hreports] at heq
        exact absurd heq (by omega)
    · rw [List.mem_singleton.mp hx, hafter, hcalls]
      exact .inr ⟨hm, rfl⟩
  · rw [List.filterMap_append, hmessages, hm]
    simp

theorem Serves.serve (h : R.Serves r calls) {call : Call α} {inbox : List Request}
    (hrequests : R.requests = call.request :: inbox.filter fun q => q = .generate || q = .reset)
    (hcall : ∀ x y, call = .generate x → calls.getLast? = some (.generate y) → x = y)
    (hstarted : R.hasStarted = true) (hrunning : R.isRunning = false) :
    ({ R with stage := .running call, inbox, served := R.served ++ [call] } :
      Rank α β).Serves r calls := by
  obtain ⟨pending, hcalls, hpending, hlength⟩ := h.pending
  have hcounted := h.counted
  rw [hrunning, Bool.toNat_false, Nat.add_zero] at hcounted
  -- one call is pending, and it is the last one
  obtain ⟨c, rfl⟩ : ∃ c, pending = [c] := by
    rw [hrequests] at hpending
    cases pending with
    | nil => cases hpending
    | cons c rest =>
      cases rest with
      | nil => exact ⟨c, rfl⟩
      | cons c' rest => simp at hlength
  rw [hrequests] at hpending
  obtain ⟨hrequest, hrest⟩ := List.cons_eq_cons.mp hpending
  have hlast : calls.getLast? = some c := by rw [hcalls]; simp
  have hc : c = call := by
    cases call with
    | reset =>
      cases c with
      | reset => rfl
      | generate x => cases hrequest
    | generate x =>
      cases c with
      | reset => cases hrequest
      | generate y => rw [hcall x y rfl hlast]
  subst hc
  have hreports : ({ R with stage := .running c, inbox, served := R.served ++ [c] } :
      Rank α β).reports = R.reports := by
    rw [reports, reports, hstarted]
    rfl
  have hreplies : R.reports = calls.length := by
    rw [reports, hstarted, Bool.toNat_true, hcalls, List.length_append, List.length_singleton]
    omega
  refine ⟨⟨[], by rw [hcalls, List.append_nil], ?_, by simp⟩, ?_, ?_, ⟨nofun, nofun⟩, ?_, ?_,
    h.once⟩
  · show [] = [] ++ inbox.filter _
    rw [← hrest]
    rfl
  · show (R.served ++ [c]).length = R.replies.length + 1
    rw [List.length_append, hcounted]
    rfl
  · rintro call ⟨⟩
    exact List.getLast?_concat
  · rw [hreports]
    exact h.behind
  · intro m hm
    rcases h.sending m hm with rfl | ⟨-, heq⟩
    · exact .inl rfl
    · rw [hreplies] at heq
      exact absurd heq (by omega)

/-- The worker of a rank returns or raises. -/
theorem Serves.reply (h : R.Serves r calls) {call : Call α} (hstage : R.stage = .running call)
    (reply : Except Exn β) :
    ({ R with
      stage := .ready
      sending := R.sending ++ [DistributedRunner.answer r call reply]
      replies := R.replies ++ [reply] } : Rank α β).Serves r calls := by
  obtain ⟨hlength, hreports, hcall⟩ := h.of_running hstage
  have hcounted := h.counted
  have hrunning : R.isRunning = true := by rw [isRunning, hstage]
  rw [hrunning, Bool.toNat_true] at hcounted
  have hmessages := h.no_report (by rw [hreports]; omega)
  obtain ⟨pending, hcalls, hpending, hone⟩ := h.pending
  have hafter : ({ R with
      stage := .ready
      sending := R.sending ++ [DistributedRunner.answer r call reply]
      replies := R.replies ++ [reply] } : Rank α β).reports = calls.length + 1 := by
    show 1 + (R.replies ++ [reply]).length = calls.length + 1
    rw [List.length_append, List.length_singleton]
    omega
  refine ⟨⟨pending, hcalls, ?_, hone⟩, ?_, nofun, ⟨nofun, nofun⟩, ?_, ?_, ?_⟩
  · rw [hpending, requests, hstage]
    rfl
  · show R.served.length = (R.replies ++ [reply]).length + 0
    rw [List.length_append, hcounted]
    rfl
  · rw [hafter]
    omega
  · intro m hm
    rcases List.mem_append.mp hm with hm | hm
    · rcases h.sending m hm with rfl | ⟨-, heq⟩
      · exact .inl rfl
      · rw [hreports] at heq
        exact absurd heq (by omega)
    · rw [List.mem_singleton.mp hm]
      refine .inr ⟨(lastReport_of_getLast (List.getLast?_concat) ?_).symm, hafter⟩
      show R.served[(R.replies ++ [reply]).length - 1]? = some call
      rw [List.length_append, List.length_singleton, Nat.add_sub_cancel]
      exact hcall
  · rw [List.filterMap_append, hmessages]
    simp

theorem lastReport_congr (r : ℕ) (R R' : Rank α β) (hreplies : R'.replies = R.replies)
    (hserved : R'.served[R.replies.length - 1]? = R.served[R.replies.length - 1]?)
    (hfailed : ∀ e, R'.stage = .failed e ↔ R.stage = .failed e) :
    R'.lastReport r = R.lastReport r := by
  have hstage : R'.startReport r = R.startReport r := by
    unfold startReport
    split
    · next e he => rw [(hfailed e).mp he]
    · next hnot =>
      split
      · next e he => exact absurd ((hfailed e).mpr he) (hnot e)
      · rfl
  unfold lastReport
  rw [hreplies, hserved, hstage]

theorem Serves.getElem?_served (h : R.Serves r calls) (hrunning : R.isRunning = false)
    (call : Call α) :
    (R.served ++ [call])[R.replies.length - 1]? = R.served[R.replies.length - 1]? ∨
      R.replies = [] := by
  have hcounted := h.counted
  rw [hrunning, Bool.toNat_false, Nat.add_zero] at hcounted
  cases hreplies : R.replies with
  | nil => exact .inr rfl
  | cons reply replies =>
    refine .inl (List.getElem?_append_left ?_)
    rw [hcounted, hreplies, List.length_cons]
    omega

theorem Serves.lastReport_serve (h : R.Serves r calls) (hrunning : R.isRunning = false)
    (hfailed : ∀ e, R.stage ≠ .failed e) (call : Call α) (inbox : List Request) :
    ({ R with stage := .running call, inbox, served := R.served ++ [call] } :
      Rank α β).lastReport r = R.lastReport r := by
  rcases h.getElem?_served hrunning call with hserved | hreplies
  · exact lastReport_congr _ _ _ rfl hserved fun e => ⟨nofun, fun he => absurd he (hfailed e)⟩
  · rw [lastReport_of_nil hreplies, lastReport_of_nil (by exact hreplies)]
    unfold startReport
    split
    · next e he => cases he
    · rfl

end Moves

end Rank

namespace DistributedRunner

variable {s s' : DistributedRunner α β}

open Rank (Serves)

/-! ### What a rank does -/

/-- A step of the rank `r` that flushes nothing: the rank goes on, and rank 0 may write a result. -/
inductive RankMove (s : DistributedRunner α β) (r : ℕ) : RankLabel β → DistributedRunner α β → Prop
  | rendezvous (hstage : (s.ranks r).stage = .forming) (hr : r = 0) :
      RankMove s r .rendezvous (s.setRank r { s.ranks r with
        stage := .loading, sending := (s.ranks r).sending ++ [.rendezvous] })
  | joins {inbox : List Request} (hstage : (s.ranks r).stage = .forming)
      (hinbox : (s.ranks r).inbox = .join :: inbox) (hr : r ≠ 0) :
      RankMove s r .joins (s.setRank r { s.ranks r with stage := .loading, inbox })
  | fails {e : Exn} (hstage : (s.ranks r).hasStarted = false) :
      RankMove s r (.fails e) (s.setRank r { s.ranks r with
        stage := .failed e
        sending := (s.ranks r).sending ++ [.answer r false (some e.carried)] })
  | loads (hstage : (s.ranks r).stage = .loading) :
      RankMove s r .loads (s.setRank r { s.ranks r with
        stage := .ready, sending := (s.ranks r).sending ++ [.loaded r] })
  | takes {inbox : List Request} (hstage : (s.ranks r).stage = .ready)
      (hinbox : (s.ranks r).inbox = .generate :: inbox) :
      RankMove s r .receives (s.setRank r { s.ranks r with stage := .took, inbox })
  | resets {inbox : List Request} (hstage : (s.ranks r).stage = .ready)
      (hinbox : (s.ranks r).inbox = .reset :: inbox) :
      RankMove s r .receives (s.setRank r { s.ranks r with
        stage := .running .reset, inbox, served := (s.ranks r).served ++ [.reset] })
  | leaves {inbox : List Request} (hstage : (s.ranks r).stage = .ready)
      (hinbox : (s.ranks r).inbox = .shutdown :: inbox) :
      RankMove s r .receives (s.setRank r { s.ranks r with stage := .exited, inbox })
  | ignores {inbox : List Request} (hstage : (s.ranks r).stage = .ready)
      (hinbox : (s.ranks r).inbox = .join :: inbox) :
      RankMove s r .receives (s.setRank r { s.ranks r with inbox })
  | reads {x : α} (hstage : (s.ranks r).stage = .took) (hinput : s.input = some x) :
      RankMove s r .reads (s.setRank r { s.ranks r with
        stage := .running (.generate x), served := (s.ranks r).served ++ [.generate x] })
  | replies {call : Call α} {reply : Except Exn β} (hstage : (s.ranks r).stage = .running call) :
      RankMove s r (.replies reply) { s.setRank r { s.ranks r with
          stage := .ready
          sending := (s.ranks r).sending ++ [answer r call reply]
          replies := (s.ranks r).replies ++ [reply] } with
        result := written r s.result call reply }
  | dies : RankMove s r .dies (s.setRank r { s.ranks r with alive := false, sending := [] })

theorem rankMove_of_rankNext {r : ℕ} {l : RankLabel β} (hflush : l ≠ .flushes)
    (h : s.rankNext r l = some s') : RankMove s r l s' := by
  cases l with
  | rendezvous =>
    simp only [rankNext] at h
    split at h
    · next hstage =>
      split_ifs at h with hr
      cases h
      exact .rendezvous hstage hr
    · cases h
  | joins =>
    simp only [rankNext] at h
    split at h
    · next inbox hstage hinbox =>
      split_ifs at h with hr
      cases h
      exact .joins hstage hinbox hr
    · cases h
  | fails e =>
    simp only [rankNext] at h
    split at h
    · next hstage =>
      cases h
      exact .fails (by rw [Rank.hasStarted, hstage])
    · next hstage =>
      cases h
      exact .fails (by rw [Rank.hasStarted, hstage])
    · cases h
  | loads =>
    simp only [rankNext] at h
    split at h
    · next hstage =>
      cases h
      exact .loads hstage
    · cases h
  | receives =>
    simp only [rankNext] at h
    split at h
    · next inbox hstage hinbox =>
      cases h
      exact .takes hstage hinbox
    · next inbox hstage hinbox =>
      cases h
      exact .resets hstage hinbox
    · next inbox hstage hinbox =>
      cases h
      exact .leaves hstage hinbox
    · next inbox hstage hinbox =>
      cases h
      exact .ignores hstage hinbox
    · cases h
  | reads =>
    simp only [rankNext] at h
    split at h
    · next x hstage hinput =>
      cases h
      exact .reads hstage hinput
    · cases h
  | replies reply =>
    simp only [rankNext] at h
    split at h
    · next call hstage =>
      cases h
      exact .replies hstage
    · cases h
  | flushes => exact absurd rfl hflush
  | dies =>
    cases h
    exact .dies

open Rank (Moves lastReport_congr)

theorem RankMove.moves {r : ℕ} {l : RankLabel β} (h : RankMove s r l s')
    (hserves : (s.ranks r).Serves r s.calls)
    (hinput : ∀ x, s.calls.getLast? = some (.generate x) → s.input = some x) :
    ∃ R result, s' = { s.setRank r R with result } ∧ Moves r s.calls (s.ranks r) R := by
  have hnever : (s.ranks r).hasStarted = false → (s.ranks r).reports ≠ s.calls.length + 1 := by
    intro hstarted heq
    rw [(hserves.of_not_started hstarted).2.2.2] at heq
    exact absurd heq (by omega)
  cases h with
  | rendezvous hstage hr =>
    refine ⟨_, _, rfl, hserves.of_eq rfl rfl ?_ nofun ?_ nofun ?_ ?_ ?_ ?_, List.prefix_rfl, ?_, ?_,
      ?_, fun hne => absurd hr hne⟩
    · simp [Rank.requests, hstage]
    · simp [Rank.isRunning, hstage]
    · simp [Rank.hasStarted, hstage]
    · exact lastReport_congr _ _ _ rfl rfl fun e => by simp [hstage]
    · intro m hm
      rcases List.mem_append.mp hm with hm | hm
      · exact .inr hm
      · exact .inl (List.mem_singleton.mp hm)
    · have hport : [Message.rendezvous].filterMap Message.rank = [] := rfl
      rw [List.filterMap_append, hport, List.append_nil]
      exact hserves.once
    · exact fun heq => absurd heq (hnever (by rw [Rank.hasStarted, hstage]))
    · exact fun e he => absurd (hstage.symm.trans he) nofun
    · intro _
      simp [Rank.ports, hstage]
  | joins hstage hinbox hr =>
    refine ⟨_, _, rfl, hserves.of_eq rfl rfl ?_ nofun ?_ nofun ?_ ?_ (fun m hm => .inr hm)
      hserves.once, List.prefix_rfl, ?_, ?_, fun h => absurd h hr, fun _ hm => hm⟩
    · simp [Rank.requests, hstage, hinbox]
    · simp [Rank.isRunning, hstage]
    · simp [Rank.hasStarted, hstage]
    · exact lastReport_congr _ _ _ rfl rfl fun e => by simp [hstage]
    · exact fun heq => absurd heq (hnever (by rw [Rank.hasStarted, hstage]))
    · exact fun e he => absurd (hstage.symm.trans he) nofun
  | @fails e hstage =>
    have hreplies := (hserves.of_not_started hstage).2.2.1
    refine ⟨_, _, rfl, hserves.first hstage (.failed e) nofun nofun rfl ?_,
      List.prefix_rfl, fun heq => absurd heq (hnever hstage), ?_, ?_, ?_⟩
    · rw [Rank.lastReport_of_nil (by exact hreplies)]
      rfl
    · intro e' he'
      rw [Rank.hasStarted, he'] at hstage
      cases hstage
    · intro _
      simp [Rank.ports]
    · intro _ hm
      simpa using hm
  | loads hstage =>
    have hstarted : (s.ranks r).hasStarted = false := by rw [Rank.hasStarted, hstage]
    have hreplies := (hserves.of_not_started hstarted).2.2.1
    refine ⟨_, _, rfl, hserves.first hstarted .ready nofun nofun rfl ?_,
      List.prefix_rfl, fun heq => absurd heq (hnever hstarted), ?_, ?_, ?_⟩
    · rw [Rank.lastReport_of_nil (by exact hreplies)]
      rfl
    · exact fun e he => absurd (hstage.symm.trans he) nofun
    · intro _
      simp [Rank.ports]
    · intro _ hm
      simpa using hm
  | @takes inbox hstage hinbox =>
    have hlast := lastReport_congr r (s.ranks r)
      { s.ranks r with stage := .took, inbox } rfl rfl fun e => by simp [hstage]
    refine ⟨_, _, rfl, hserves.of_eq rfl rfl ?_ nofun ?_ nofun ?_ hlast (fun m hm => .inr hm)
      hserves.once, List.prefix_rfl, fun heq => ⟨?_, hlast, List.Sublist.refl _⟩, ?_, ?_,
      fun _ hm => hm⟩
    · simp [Rank.requests, hstage, hinbox]
    · simp [Rank.isRunning, hstage]
    · simp [Rank.hasStarted, hstage]
    · rw [← heq]
      simp [Rank.reports, Rank.hasStarted, hstage]
    · exact fun e he => absurd (hstage.symm.trans he) nofun
    · intro _
      simp [Rank.ports, hstage]
  | @resets inbox hstage hinbox =>
    have hrunning : (s.ranks r).isRunning = false := by rw [Rank.isRunning, hstage]
    have hstarted : (s.ranks r).hasStarted = true := by rw [Rank.hasStarted, hstage]
    have hlast := hserves.lastReport_serve hrunning (by simp [hstage]) .reset inbox
    refine ⟨_, _, rfl, hserves.serve ?_ nofun hstarted hrunning, List.prefix_rfl,
      fun heq => ⟨?_, hlast, List.Sublist.refl _⟩, ?_, ?_, fun _ hm => hm⟩
    · simp [Rank.requests, hstage, hinbox, Call.request]
    · rw [← heq]
      simp [Rank.reports, Rank.hasStarted, hstage]
    · exact fun e he => absurd (hstage.symm.trans he) nofun
    · intro _
      simp [Rank.ports, hstage]
  | @leaves inbox hstage hinbox =>
    have hlast := lastReport_congr r (s.ranks r)
      { s.ranks r with stage := .exited, inbox } rfl rfl fun e => by simp [hstage]
    refine ⟨_, _, rfl, hserves.of_eq rfl rfl ?_ nofun ?_ nofun ?_ hlast (fun m hm => .inr hm)
      hserves.once, List.prefix_rfl, fun heq => ⟨?_, hlast, List.Sublist.refl _⟩, ?_, ?_,
      fun _ hm => hm⟩
    · simp [Rank.requests, hstage, hinbox]
    · simp [Rank.isRunning, hstage]
    · simp [Rank.hasStarted, hstage]
    · rw [← heq]
      simp [Rank.reports, Rank.hasStarted, hstage]
    · exact fun e he => absurd (hstage.symm.trans he) nofun
    · intro _
      simp [Rank.ports, hstage]
  | @ignores inbox hstage hinbox =>
    have hlast := lastReport_congr r (s.ranks r)
      { s.ranks r with inbox } rfl rfl fun e => Iff.rfl
    refine ⟨_, _, rfl, hserves.of_eq rfl rfl ?_ (fun _ h => h) rfl (fun _ h => h) rfl hlast
      (fun m hm => .inr hm) hserves.once, List.prefix_rfl,
      fun heq => ⟨heq, hlast, List.Sublist.refl _⟩, fun _ he => he, fun _ => Nat.le_refl _,
      fun _ hm => hm⟩
    simp [Rank.requests, hinbox]
  | @reads x hstage hin =>
    have hrunning : (s.ranks r).isRunning = false := by rw [Rank.isRunning, hstage]
    have hstarted : (s.ranks r).hasStarted = true := by rw [Rank.hasStarted, hstage]
    have hlast := hserves.lastReport_serve hrunning (by simp [hstage]) (.generate x)
      (s.ranks r).inbox
    refine ⟨_, _, rfl, hserves.serve ?_ ?_ hstarted hrunning, List.prefix_rfl,
      fun heq => ⟨?_, hlast, List.Sublist.refl _⟩, ?_, ?_, fun _ hm => hm⟩
    · simp [Rank.requests, hstage, Call.request]
    · -- what is read is the input of the last call
      rintro _ y ⟨⟩ hy
      exact Option.some.inj (hin.symm.trans (hinput y hy))
    · rw [← heq]
      simp [Rank.reports, Rank.hasStarted, hstage]
    · exact fun e he => absurd (hstage.symm.trans he) nofun
    · intro _
      simp [Rank.ports, hstage]
  | @replies call reply hstage =>
    refine ⟨_, _, rfl, hserves.reply hstage reply, List.prefix_append _ _, fun heq => ?_, ?_, ?_,
      ?_⟩
    · rw [(hserves.of_running hstage).2.1] at heq
      exact absurd heq (by omega)
    · exact fun e he => absurd (hstage.symm.trans he) nofun
    · intro _
      cases reply <;> simp [Rank.ports, answer]
    · intro _ hm
      cases reply <;> simpa [answer] using hm
  | dies =>
    have hlast := lastReport_congr r (s.ranks r)
      { s.ranks r with alive := false, sending := [] } rfl rfl fun e => Iff.rfl
    refine ⟨_, _, rfl, hserves.of_eq rfl rfl rfl (fun _ h => h) rfl (fun _ h => h) rfl hlast
      (fun m hm => absurd hm List.not_mem_nil) (by simp), List.prefix_rfl,
      fun heq => ⟨heq, hlast, List.nil_sublist _⟩, fun _ he => he, fun _ => ?_,
      fun _ hm => absurd hm List.not_mem_nil⟩
    simp [Rank.ports]

/-! ### What the runner does -/

/-- The messages that arrived and on which nothing was decided. -/
def inflight (s : DistributedRunner α β) : List Message := s.collected ++ s.outbox

/-- A loop of `_collect` with other messages. -/
def collectingMessages (messages : List Message) : RunnerStage → RunnerStage
  | .rendezvous _ => .rendezvous messages
  | .starting _ => .starting messages
  | .calling _ => .calling messages
  | .fresh => .fresh
  | .idle => .idle

inductive StartEnds (n : ℕ) (messages : List Message) : RunnerStage → Outcome β → Prop
  | refused {ms : List Message} {e : Exn} (h : messages.findSome? Message.error = some e) :
      StartEnds n messages (.rendezvous ms) (.raised e)
  | unexpected {ms : List Message} (h : messages.findSome? Message.error = none)
      (hne : messages ≠ []) (hport : .rendezvous ∉ messages) :
      StartEnds n messages (.rendezvous ms) .unexpected
  | complete {ms : List Message} (h : n ≤ messages.length) :
      StartEnds n messages (.starting ms) (startVerdict messages)

/-- What the loop of `_collect` makes of its messages, `outbox` being what is left on the queue. -/
inductive Settles (n : ℕ) (s : DistributedRunner α β) (messages outbox : List Message) :
    DistributedRunner α β → Prop
  | waits (h : ∀ ms, s.stage = .rendezvous ms → messages = []) : Settles n s messages outbox
      { s with outbox, stage := collectingMessages messages s.stage }
  | joins {ms : List Message} (hstage : s.stage = .rendezvous ms)
      (hnone : messages.findSome? Message.error = none) (hport : .rendezvous ∈ messages) :
      Settles n s messages outbox
        { { s with outbox }.put (fun r => 0 < r) .join with stage := .starting [] }
  | started {outcome : Outcome β} (h : StartEnds n messages s.stage outcome) :
      Settles n s messages outbox ({ s with outbox }.endStart outcome)
  | decided {ms : List Message} (hstage : s.stage = .calling ms) (h : n ≤ messages.length) :
      Settles n s messages outbox
        ({ s with outbox }.endCall n messages (decide s.result messages))

theorem collecting_iff : s.collecting = true ↔ (∃ ms, s.stage = .rendezvous ms) ∨
    (∃ ms, s.stage = .starting ms) ∨ ∃ ms, s.stage = .calling ms := by
  unfold collecting
  cases s.stage <;> simp

theorem settle_of_rendezvous {ms : List Message} (h : s.stage = .rendezvous ms)
    (messages : List Message) : s.settle n messages =
      if messages.isEmpty then s
      else
        match messages.findSome? Message.error with
        | some e => s.endStart (.raised e)
        | none =>
          if Message.rendezvous ∈ messages then
            { s.put (fun r => 0 < r) .join with stage := .starting [] }
          else s.endStart .unexpected := by
  rw [settle, h] <;> rfl

theorem settle_of_starting {ms : List Message} (h : s.stage = .starting ms)
    (messages : List Message) : s.settle n messages =
      if messages.length < n then { s with stage := .starting messages }
      else s.endStart (startVerdict messages) := by
  rw [settle, h]

theorem settle_of_calling {ms : List Message} (h : s.stage = .calling ms)
    (messages : List Message) : s.settle n messages =
      if messages.length < n then { s with stage := .calling messages }
      else s.endCall n messages (decide s.result messages) := by
  rw [settle, h]

theorem settles (hcollecting : s.collecting = true) (messages outbox : List Message)
    (hempty : messages = [] → s.collected = []) :
    Settles n s messages outbox ({ s with outbox }.settle n messages) := by
  have hwaits : ∀ stage, stage = collectingMessages messages s.stage →
      (∀ ms, s.stage = .rendezvous ms → messages = []) →
      Settles n s messages outbox { s with outbox, stage } := by
    rintro _ rfl h
    exact .waits h
  rcases collecting_iff.mp hcollecting with ⟨ms, hstage⟩ | ⟨ms, hstage⟩ | ⟨ms, hstage⟩
  · rw [settle_of_rendezvous (s := { s with outbox }) hstage]
    by_cases hnil : messages.isEmpty = true
    · rw [if_pos hnil]
      refine hwaits s.stage ?_ fun _ _ => List.isEmpty_iff.mp hnil
      have hms := hempty (List.isEmpty_iff.mp hnil)
      rw [collected, hstage] at hms
      have hms : ms = [] := hms
      rw [hstage, hms, List.isEmpty_iff.mp hnil]
      rfl
    · rw [if_neg hnil]
      split
      · next e he =>
        refine .started ?_
        rw [hstage]
        exact .refused he
      · next hnone =>
        by_cases hport : Message.rendezvous ∈ messages
        · rw [if_pos hport]
          exact .joins hstage hnone hport
        · rw [if_neg hport]
          refine .started ?_
          rw [hstage]
          refine .unexpected hnone (fun hnil' => ?_) hport
          exact hnil (List.isEmpty_iff.mpr hnil')
  · rw [settle_of_starting (s := { s with outbox }) hstage]
    split_ifs with hlt
    · refine hwaits _ (by rw [hstage]; rfl) fun ms hms => ?_
      rw [hstage] at hms
      cases hms
    · refine .started ?_
      rw [hstage]
      exact .complete (Nat.le_of_not_lt hlt)
  · rw [settle_of_calling (s := { s with outbox }) hstage]
    split_ifs with hlt
    · refine hwaits _ (by rw [hstage]; rfl) fun ms hms => ?_
      rw [hstage] at hms
      cases hms
    · exact .decided hstage (Nat.le_of_not_lt hlt)

inductive Step (n : ℕ) (formsGroup : Bool) (s : DistributedRunner α β) :
    Label α β → DistributedRunner α β → Prop
  | start (hfresh : s.stage = .fresh) (hopen : s.shutdownDone = false) :
      Step n formsGroup s .start (s.start formsGroup)
  | call {call : Call α} (hready : s.isReady = true) :
      Step n formsGroup s (.call call) (s.broadcast call)
  | shutdown (hidle : s.collecting = false) : Step n formsGroup s .shutdown s.shutdown
  | rests : Step n formsGroup s .poll s
  | settles {l : Label α β} {messages outbox : List Message} {t : DistributedRunner α β}
      (hl : l = .receive ∨ l = .poll) (hcollecting : s.collecting = true)
      (hinflight : messages ++ outbox = s.inflight) (h : Settles n s messages outbox t) :
      Step n formsGroup s l t
  | crashes {messages outbox : List Message} {r : ℕ} (hcollecting : s.collecting = true)
      (hinflight : messages ++ outbox = s.inflight) (hr : r < n)
      (hdead : (s.ranks r).alive = false)
      (hnone : ∀ m ∈ messages ++ outbox, m.rank ≠ some r) :
      Step n formsGroup s .poll ({ s with outbox }.giveUp n messages (.crashed r))
  | givesUp {l : Label α β} {outcome : Outcome β}
      (hl : l = .deadline ∧ outcome = .timedOut ∨ l = .interrupt ∧ outcome = .interrupted)
      (hcollecting : s.collecting = true) :
      Step n formsGroup s l (s.giveUp n s.collected outcome)
  | moves {r : ℕ} {l : RankLabel β} {t : DistributedRunner α β} (hr : r < n)
      (halive : (s.ranks r).alive = true) (h : RankMove s r l t) :
      Step n formsGroup s (.rank r l) t
  | flushes {r : ℕ} {m : Message} {sending : List Message} (hr : r < n)
      (halive : (s.ranks r).alive = true) (hsending : (s.ranks r).sending = m :: sending) :
      Step n formsGroup s (.rank r .flushes)
        { s.setRank r { s.ranks r with sending } with
          outbox := s.outbox ++ [m]
          loadErrors := s.loadErrorsWith r m }

theorem step_of_next {l : Label α β} (h : s.next n formsGroup l = some s') :
    Step n formsGroup s l s' := by
  cases l with
  | start =>
    simp only [next] at h
    split at h
    · next hfresh =>
      split_ifs at h with hopen
      cases h
      exact .start hfresh (Bool.not_eq_true _ ▸ hopen)
    · cases h
  | call call =>
    simp only [next] at h
    split_ifs at h with hready
    cases h
    exact .call hready
  | shutdown =>
    simp only [next] at h
    split_ifs at h with hnot
    cases h
    simp only [Bool.or_eq_true, not_or, Bool.not_eq_true] at hnot
    exact .shutdown hnot.1
  | receive =>
    simp only [next] at h
    split_ifs at h with hcollecting
    split at h
    · next m outbox houtbox =>
      cases h
      refine .settles (.inl rfl) hcollecting ?_ (DistributedRunner.settles hcollecting _ outbox ?_)
      · rw [inflight, houtbox, List.append_assoc]
        rfl
      · exact fun hnil => absurd hnil (by simp)
    · cases h
  | poll =>
    simp only [next] at h
    split_ifs at h with hcollecting
    cases h
    unfold checkAlive
    dsimp only
    split_ifs with hdead
    · exact .rests
    · cases hfound : ((List.range n).filter fun r => !(s.ranks r).alive).find? fun r =>
          (s.collected ++ s.outbox).all fun m => m.rank ≠ some r with
      | some r =>
        obtain ⟨hr, hdead⟩ := List.mem_filter.mp (List.mem_of_find?_eq_some hfound)
        have hnone := List.find?_some hfound
        refine .crashes hcollecting (by rw [List.append_nil]; rfl) (List.mem_range.mp hr)
          (by simpa using hdead) ?_
        rw [List.append_nil]
        exact fun m hm => by simpa using List.all_eq_true.mp hnone m hm
      | none =>
        refine .settles (.inr rfl) hcollecting (by rw [List.append_nil]; rfl)
          (DistributedRunner.settles hcollecting _ [] ?_)
        exact fun hnil => (List.append_eq_nil_iff.mp hnil).1
  | deadline =>
    simp only [next] at h
    split_ifs at h with hcollecting
    cases h
    exact .givesUp (.inl ⟨rfl, rfl⟩) hcollecting
  | interrupt =>
    simp only [next] at h
    split_ifs at h with hcollecting
    cases h
    exact .givesUp (.inr ⟨rfl, rfl⟩) hcollecting
  | rank r l =>
    simp only [next] at h
    split_ifs at h with hrank
    cases l with
    | flushes =>
      simp only [rankNext] at h
      split at h
      · next m sending hsending =>
        cases h
        exact .flushes hrank.1 hrank.2 hsending
      · cases h
    | _ => exact .moves hrank.1 hrank.2 (rankMove_of_rankNext nofun h)

/-! ### The reports on a call -/

def Arrived (n : ℕ) (s : DistributedRunner α β) (m : Message) : Prop :=
  m = .rendezvous ∨ ∃ r < n, m = (s.ranks r).lastReport r ∧
    (s.ranks r).reports = s.calls.length + 1 ∧
    (s.ranks r).sending.filterMap Message.rank = []

/-- How many ports rank 0 may still have to report, or to be read. -/
def allowedPorts (s : DistributedRunner α β) : Option ℕ :=
  match s.stage with
  | .fresh | .rendezvous _ => some 1
  | .starting _ | .calling _ => some 0
  | .idle => if s.isReady then some 0 else none

/-- All ranks have reported on the last call, and nothing is under way. -/
def Quiet (n : ℕ) (s : DistributedRunner α β) : Prop :=
  s.outbox = [] ∧ ∀ r < n, (s.ranks r).sending = [] ∧ (s.ranks r).reports = s.calls.length + 1

/-- Every rank serves the calls, the messages that arrived are reports on the last one, of different
ranks; and when the runner takes a call, all ranks have reported on the one before. -/
structure Reported (n : ℕ) (s : DistributedRunner α β) : Prop where
  serves : ∀ r < n, (s.ranks r).Serves r s.calls
  input : ∀ x, s.calls.getLast? = some (.generate x) → s.input = some x
  arrived : ∀ m ∈ s.inflight, s.Arrived n m
  nodup : (s.inflight.filterMap Message.rank).Nodup
  ports : ∀ k, s.allowedPorts = some k →
    (s.ranks 0).ports + s.inflight.count .rendezvous ≤ k
  others : ∀ r, r ≠ 0 → .rendezvous ∉ (s.ranks r).sending
  quiet : s.isReady = true → s.Quiet n
  fresh : s.stage = .fresh → s.outbox = [] ∧ s.startOutcome = none ∧
    ∀ r, (s.ranks r).stage = .forming ∧ (s.ranks r).sending = []
  calls : s.startOutcome = none → s.calls = []
  started : ∀ ms, s.stage = .calling ms → s.startOutcome ≠ none

theorem perm_of_reports {messages : List Message}
    (hnodup : (messages.filterMap Message.rank).Nodup)
    (hrank : ∀ m ∈ messages, ∃ r < n, m.rank = some r) (hn : n ≤ messages.length) :
    (messages.filterMap Message.rank).Perm (List.range n) := by
  have hlength : (messages.filterMap Message.rank).length = messages.length := by
    clear hnodup hn
    induction messages with
    | nil => rfl
    | cons m messages ih =>
      obtain ⟨r, -, hr⟩ := hrank m List.mem_cons_self
      rw [List.filterMap_cons_some hr, List.length_cons, List.length_cons,
        ih fun x hx => hrank x (List.mem_cons_of_mem _ hx)]
  have hsubset : messages.filterMap Message.rank ⊆ List.range n := by
    intro r hr
    obtain ⟨m, hm, hrank'⟩ := List.mem_filterMap.mp hr
    obtain ⟨r', hr', heq⟩ := hrank m hm
    rw [hrank'] at heq
    rw [List.mem_range, Option.some.inj heq]
    exact hr'
  refine (List.subperm_of_subset hnodup hsubset).perm_of_length_le ?_
  rw [List.length_range, hlength]
  exact hn

/-- No process runs before the start. -/
def Unborn (s : DistributedRunner α β) : Prop :=
  s.stage = .fresh → ∀ r, (s.ranks r).alive = false

theorem Unborn.next {l : Label α β} (h : Unborn s) (hnext : s.next n formsGroup l = some s') :
    Unborn s' := by
  intro hfresh
  have hstep := step_of_next hnext
  cases hstep with
  | start _ _ => cases formsGroup <;> cases hfresh
  | call hready => cases hfresh
  | shutdown hidle =>
    have hsame : s.shutdown.stage = s.stage := by
      unfold DistributedRunner.shutdown
      dsimp only
      split_ifs <;> rfl
    have halive : ∀ r, (s.shutdown.ranks r).alive = (s.ranks r).alive := by
      intro r
      unfold DistributedRunner.shutdown put
      dsimp only
      split_ifs <;> rfl
    intro r
    rw [halive]
    exact h (hsame ▸ hfresh) r
  | rests => exact h hfresh
  | settles hl hcollecting hinflight hsettles =>
    cases hsettles with
    | waits =>
      rcases collecting_iff.mp hcollecting with ⟨ms, hstage⟩ | ⟨ms, hstage⟩ | ⟨ms, hstage⟩ <;>
        rw [hstage] at hfresh <;> cases hfresh
    | joins hstage hnone hport => cases hfresh
    | @started outcome hends => cases outcome <;> cases hfresh
    | decided hstage hn => cases hfresh
  | @crashes messages outbox r hcollecting hinflight hr hdead hnone =>
    rcases collecting_iff.mp hcollecting with ⟨ms, hstage⟩ | ⟨ms, hstage⟩ | ⟨ms, hstage⟩ <;>
      simp [giveUp, endStart, endCall, hstage] at hfresh
  | @givesUp l outcome hl hcollecting =>
    rcases collecting_iff.mp hcollecting with ⟨ms, hstage⟩ | ⟨ms, hstage⟩ | ⟨ms, hstage⟩ <;>
      cases outcome <;> simp [giveUp, endStart, endCall, hstage] at hfresh
  | @moves r l t hr halive hmove =>
    have hstage : s'.stage = s.stage := by cases hmove <;> rfl
    rw [h (hstage ▸ hfresh) r] at halive
    cases halive
  | @flushes r m sending hr halive hsending =>
    rw [h hfresh r] at halive
    cases halive

namespace Reported

theorem rank_of_arrived {m : Message} (h : s.Arrived n m) (hport : m ≠ .rendezvous) :
    ∃ r < n, m.rank = some r ∧ m = (s.ranks r).lastReport r ∧
      (s.ranks r).reports = s.calls.length + 1 ∧
      (s.ranks r).sending.filterMap Message.rank = [] := by
  rcases h with rfl | ⟨r, hr, rfl, hreports, hsending⟩
  · exact absurd rfl hport
  · exact ⟨r, hr, Rank.rank_lastReport r _, rfl, hreports, hsending⟩

theorem complete (h : s.Reported n) {messages outbox : List Message}
    (hinflight : messages ++ outbox = s.inflight) (hports : s.allowedPorts = some 0)
    (hn : n ≤ messages.length) :
    outbox = [] ∧ (messages.filterMap Message.rank).Perm (List.range n) ∧
      (∀ m ∈ messages, ∃ r < n, m.rank = some r ∧ m = (s.ranks r).lastReport r) ∧
      ∀ r < n, (s.ranks r).sending = [] ∧ (s.ranks r).reports = s.calls.length + 1 := by
  have hzero := Nat.le_zero.mp (h.ports 0 hports)
  have hport : ∀ m ∈ messages ++ outbox, m ≠ .rendezvous := by
    rintro m hm rfl
    rw [hinflight] at hm
    have hpos := List.count_pos_iff.mpr hm
    omega
  have harrived : ∀ m ∈ messages ++ outbox, ∃ r < n, m.rank = some r ∧
      m = (s.ranks r).lastReport r ∧ (s.ranks r).reports = s.calls.length + 1 ∧
      (s.ranks r).sending.filterMap Message.rank = [] := fun m hm =>
    rank_of_arrived (h.arrived m (hinflight ▸ hm)) (hport m hm)
  have hnodup := h.nodup
  rw [← hinflight, List.filterMap_append, List.nodup_append] at hnodup
  have hperm := perm_of_reports hnodup.1
    (fun m hm => (harrived m (List.mem_append_left _ hm)).imp fun r hr => ⟨hr.1, hr.2.1⟩) hn
  have hmem : ∀ r < n, ∃ m ∈ messages, m.rank = some r := fun r hr =>
    List.mem_filterMap.mp (hperm.mem_iff.mpr (List.mem_range.mpr hr))
  refine ⟨?_, hperm, fun m hm => ?_, fun r hr => ?_⟩
  · -- a message that is left would be a second report of its rank
    refine List.eq_nil_iff_forall_not_mem.mpr fun m hm => ?_
    obtain ⟨r, hr, hrank, -⟩ := harrived m (List.mem_append_right _ hm)
    have hr' := hperm.mem_iff.mpr (List.mem_range.mpr hr)
    exact hnodup.2.2 r hr' r (List.mem_filterMap.mpr ⟨m, hm, hrank⟩) rfl
  · obtain ⟨r, hr, hrank, heq, -⟩ := harrived m (List.mem_append_left _ hm)
    exact ⟨r, hr, hrank, heq⟩
  · obtain ⟨m, hm, hrank⟩ := hmem r hr
    obtain ⟨r', -, hrank', -, hreports, hsending⟩ := harrived m (List.mem_append_left _ hm)
    obtain rfl : r = r' := Option.some.inj (hrank.symm.trans hrank')
    refine ⟨List.eq_nil_iff_forall_not_mem.mpr fun x hx => ?_, hreports⟩
    rcases (h.serves r hr).sending x hx with rfl | ⟨rfl, -⟩
    · -- rank 0 has no port left to send, and no other rank sends one
      by_cases hr0 : r = 0
      · subst hr0
        have hpos := List.count_pos_iff.mpr hx
        rw [Rank.ports] at hzero
        omega
      · exact h.others r hr0 hx
    · have hsome : r ∈ (s.ranks r).sending.filterMap Message.rank :=
        List.mem_filterMap.mpr ⟨_, hx, Rank.rank_lastReport r _⟩
      rw [hsending] at hsome
      exact absurd hsome List.not_mem_nil

theorem init : Reported n ({} : DistributedRunner α β) := by
  refine ⟨fun r _ => ⟨⟨[], rfl, rfl, by simp⟩, rfl, nofun, ⟨nofun, fun _ => rfl⟩, Nat.zero_le _,
      fun _ h => absurd h List.not_mem_nil, by simp⟩, nofun, fun _ h => absurd h List.not_mem_nil,
    List.nodup_nil, ?_, fun _ _ h => absurd h List.not_mem_nil, nofun, fun _ => ⟨rfl, rfl, ?_⟩,
    fun _ => rfl, nofun⟩
  · rintro k ⟨⟩
    exact Nat.le_refl _
  · exact fun _ => ⟨rfl, rfl⟩

theorem ended (h : s.Reported n) (hranks : s'.ranks = s.ranks) (hcalls : s'.calls = s.calls)
    (hinput : s'.input = s.input) (hstage : s'.stage = .idle)
    (hsub : s'.outbox.Sublist s.inflight) (hstarted : s'.startOutcome ≠ none)
    (hquiet : s'.isReady = true → s'.Quiet n ∧
      (s'.ranks 0).ports + s'.outbox.count .rendezvous = 0) : s'.Reported n := by
  have hcollected : s'.collected = [] := by rw [collected, hstage]
  have hinflight : s'.inflight = s'.outbox := by rw [inflight, hcollected, List.nil_append]
  refine ⟨?_, ?_, ?_, ?_, ?_, ?_, fun hready => (hquiet hready).1, ?_,
    fun hnone => absurd hnone hstarted, fun _ _ => hstarted⟩
  · rw [hranks, hcalls]
    exact h.serves
  · rw [hcalls, hinput]
    exact h.input
  · intro m hm
    rw [Arrived, hranks, hcalls]
    rw [hinflight] at hm
    exact h.arrived m (hsub.subset hm)
  · rw [hinflight]
    exact h.nodup.sublist (hsub.filterMap _)
  · intro k hk
    rw [allowedPorts, hstage] at hk
    dsimp only at hk
    split_ifs at hk with hready
    cases hk
    rw [hinflight, (hquiet hready).2]
  · rw [hranks]
    exact h.others
  · intro hfresh
    rw [hstage] at hfresh
    cases hfresh

theorem start (h : s.Reported n) (hfresh : s.stage = .fresh) :
    (s.start formsGroup).Reported n := by
  obtain ⟨houtbox, hnone, hranks⟩ := h.fresh hfresh
  have hcollected : (s.start formsGroup).collected = [] := by
    cases formsGroup <;> rfl
  have hinflight : (s.start formsGroup).inflight = [] := by
    rw [inflight, hcollected]
    exact houtbox
  refine ⟨fun r hr => ?_, h.input, ?_, ?_, ?_, h.others, ?_, ?_, h.calls, ?_⟩
  · obtain ⟨hstage, hsending⟩ := hranks r
    refine (h.serves r hr).of_eq rfl rfl ?_ ?_ ?_ ?_ ?_ ?_ (fun m hm => .inr hm)
      (h.serves r hr).once
    · cases formsGroup <;> simp [start, Rank.requests, hstage]
    · cases formsGroup <;> exact fun call => nofun
    · cases formsGroup <;> simp [start, Rank.isRunning, hstage]
    · cases formsGroup <;> exact fun e => nofun
    · cases formsGroup <;> simp [start, Rank.hasStarted, hstage]
    · refine lastReport_congr _ _ _ rfl rfl fun e => ?_
      cases formsGroup <;> simp [start, hstage]
  · rw [hinflight]
    exact fun _ hm => absurd hm List.not_mem_nil
  · rw [hinflight]
    exact List.nodup_nil
  · intro k hk
    rw [hinflight]
    cases formsGroup with
    | true =>
      cases hk
      simp [start, Rank.ports, (hranks 0).2]
    | false =>
      cases hk
      simp [start, Rank.ports, (hranks 0).2]
  · intro hready
    cases formsGroup <;> cases hready
  · intro hstage
    cases formsGroup <;> cases hstage
  · intro ms hstage
    cases formsGroup <;> cases hstage

theorem serves_put {r : ℕ} {calls : List (Call α)} {p : ℕ → Bool} {request : Request}
    (hrequest : (request = .generate || request = .reset) = false)
    (h : (s.ranks r).Serves r calls) : ((s.put p request).ranks r).Serves r calls := by
  unfold put
  dsimp only
  split_ifs with hp
  · refine h.of_eq rfl rfl ?_ (fun _ h => h) rfl (fun _ h => h) rfl
      (lastReport_congr _ _ _ rfl rfl fun _ => Iff.rfl) (fun m hm => .inr hm) h.once
    unfold Rank.requests
    rw [List.filter_append, List.filter_cons_of_neg (by simpa using hrequest), List.filter_nil,
      List.append_nil]
  · exact h

theorem put_ranks (p : ℕ → Bool) (request : Request) (r : ℕ) :
    ∃ inbox, (s.put p request).ranks r = { s.ranks r with inbox } := by
  unfold put
  dsimp only
  split_ifs
  · exact ⟨_, rfl⟩
  · exact ⟨_, rfl⟩

theorem arrived_put {p : ℕ → Bool} {request : Request} {m : Message} (h : s.Arrived n m) :
    (s.put p request).Arrived n m := by
  rcases h with rfl | ⟨r, hr, rfl, hreports, hsending⟩
  · exact .inl rfl
  · obtain ⟨inbox, heq⟩ := put_ranks (s := s) p request r
    refine .inr ⟨r, hr, ?_, ?_, ?_⟩
    · rw [heq]
      rfl
    · rw [heq]
      exact hreports
    · rw [heq]
      exact hsending

theorem ports_put (p : ℕ → Bool) (request : Request) :
    ((s.put p request).ranks 0).ports = (s.ranks 0).ports := by
  obtain ⟨inbox, heq⟩ := put_ranks (s := s) p request 0
  rw [heq]
  rfl

theorem sending_put (p : ℕ → Bool) (request : Request) (r : ℕ) :
    ((s.put p request).ranks r).sending = (s.ranks r).sending := by
  obtain ⟨inbox, heq⟩ := put_ranks (s := s) p request r
  rw [heq]

theorem served_of_reports {r : ℕ} {calls : List (Call α)} {R : Rank α β} (h : R.Serves r calls)
    (hreports : R.reports = calls.length + 1) : R.served = calls ∧ R.requests = [] := by
  obtain ⟨pending, hcalls, hpending, -⟩ := h.pending
  have hcounted := h.counted
  have hle := h.length_served
  have hstarted : R.hasStarted.toNat ≤ 1 := Bool.toNat_le _
  rw [Rank.reports] at hreports
  have hlength : R.served.length = calls.length := by omega
  have hnil : pending = [] := by
    rw [hcalls, List.length_append] at hlength
    exact List.length_eq_zero_iff.mp (by omega)
  rw [hnil] at hcalls hpending
  exact ⟨by rw [hcalls, List.append_nil], hpending.symm⟩

theorem broadcast (h : s.Reported n) (hready : s.isReady = true) (call : Call α) :
    (s.broadcast call).Reported n := by
  obtain ⟨houtbox, hquiet⟩ := h.quiet hready
  have hidle : s.stage = .idle ∧ s.startOutcome ≠ none := by
    unfold isReady at hready
    split at hready
    · next hidle =>
      refine ⟨hidle, fun hnone => ?_⟩
      rw [hnone] at hready
      cases hready
    · cases hready
  have hinflight : (s.broadcast call).inflight = [] := houtbox
  have hports := h.ports 0 (by rw [allowedPorts, hidle.1]; exact if_pos hready)
  have hput : ∀ r, (s.broadcast call).ranks r =
      { s.ranks r with inbox := (s.ranks r).inbox ++ [call.request] } := fun r => rfl
  refine ⟨fun r hr => ?_, ?_, ?_, ?_, ?_, h.others, nofun, nofun,
    fun hnone => absurd hnone hidle.2, fun _ _ => hidle.2⟩
  · obtain ⟨hsending, hreports⟩ := hquiet r hr
    have hserves := h.serves r hr
    obtain ⟨hserved, hrequests⟩ := served_of_reports hserves hreports
    have hcalls : (s.broadcast call).calls = s.calls ++ [call] := rfl
    rw [hput, hcalls]
    refine ⟨⟨[call], by rw [← hserved], ?_, by simp⟩, hserves.counted, hserves.running,
      hserves.early, ?_, ?_, hserves.once⟩
    · have hboth : (fun q : Request => q = .generate || q = .reset) call.request = true := by
        cases call <;> rfl
      have hfilter : [call.request].filter (fun q : Request => q = .generate || q = .reset) =
          [call.request] := by
        cases call <;> rfl
      show [call.request] = _
      unfold Rank.requests at hrequests ⊢
      rw [List.filter_append, ← List.append_assoc, hrequests, hfilter]
      rfl
    · show (s.calls ++ [call]).length ≤ (s.ranks r).reports
      rw [List.length_append, hreports]
      rfl
    · show ∀ m ∈ (s.ranks r).sending, _
      rw [hsending]
      exact fun _ hm => absurd hm List.not_mem_nil
  · intro x hx
    have hlast : (s.calls ++ [call]).getLast? = some (.generate x) := hx
    rw [List.getLast?_concat] at hlast
    cases hlast
    rfl
  · rw [hinflight]
    exact fun _ hm => absurd hm List.not_mem_nil
  · rw [hinflight]
    exact List.nodup_nil
  · rintro k ⟨⟩
    rw [hinflight]
    have hzero : (s.ranks 0).ports = 0 := by omega
    exact Nat.le_of_eq hzero

theorem shutdown (h : s.Reported n) (hidle : s.collecting = false) :
    s.shutdown.Reported n := by
  have hput : (s.put (fun _ => true) .shutdown).Reported n := by
    have hranks := sending_put (s := s) (fun _ => true) .shutdown
    refine ⟨fun r hr => serves_put rfl (h.serves r hr), h.input,
      fun m hm => arrived_put (h.arrived m hm), h.nodup, fun k hk => ?_, fun r hr => ?_,
      fun hready => ?_, fun hfresh => ?_, h.calls, h.started⟩
    · rw [ports_put]
      exact h.ports k hk
    · rw [hranks]
      exact h.others r hr
    · obtain ⟨houtbox, hquiet⟩ := h.quiet hready
      refine ⟨houtbox, fun r hr => ?_⟩
      obtain ⟨inbox, heq⟩ := put_ranks (s := s) (fun _ => true) .shutdown r
      rw [heq]
      exact hquiet r hr
    · obtain ⟨houtbox, hnone, hfresh⟩ := h.fresh hfresh
      refine ⟨houtbox, hnone, fun r => ?_⟩
      obtain ⟨inbox, heq⟩ := put_ranks (s := s) (fun _ => true) .shutdown r
      rw [heq]
      exact hfresh r
  have hdone : ∀ {t : DistributedRunner α β}, t.Reported n → t.collecting = false →
      ({ t with shutdownDone := true } : DistributedRunner α β).Reported n := by
    intro t ht hcollecting
    have hready : ({ t with shutdownDone := true } : DistributedRunner α β).isReady = false := by
      unfold isReady
      split <;> simp
    refine ⟨ht.serves, ht.input, ht.arrived, ht.nodup, fun k hk => ?_, ht.others,
      fun h => absurd (h.symm.trans hready) nofun, ht.fresh, ht.calls, ht.started⟩
    have hstage : t.stage = .fresh ∨ t.stage = .idle := by
      unfold collecting at hcollecting
      split at hcollecting
      · cases hcollecting
      · cases hcollecting
      · cases hcollecting
      · next hfresh => exact .inl hfresh
      · next hidle => exact .inr hidle
    rw [allowedPorts, hready] at hk
    rcases hstage with hstage | hstage
    · refine ht.ports k ?_
      rw [allowedPorts, hstage]
      simpa only [hstage] using hk
    · simp only [hstage] at hk
      cases hk
  unfold DistributedRunner.shutdown
  dsimp only
  split_ifs
  · exact hdone hput hidle
  · exact hdone h hidle

theorem isReady_endStart {outcome : Outcome β} (h : (s.endStart outcome).isReady = true) :
    ∃ y, outcome = .returned y := by
  cases outcome with
  | returned y => exact ⟨y, rfl⟩
  | _ => cases h

theorem isReady_endCall {messages : List Message} {outcome : Outcome β}
    (h : (s.endCall n messages outcome).isReady = true) : outcome.keeps = true := by
  have h : (s.startOutcome.isSome && !s.shutdownDone && (s.healthy && outcome.keeps)) = true := h
  simp only [Bool.and_eq_true] at h
  exact h.2.2

theorem endStart_eq (outcome : Outcome β) : ∃ healthy shutdownDone,
    s.endStart outcome = { s with
      stage := .idle, healthy, shutdownDone, startOutcome := some outcome } := by
  cases outcome <;> exact ⟨_, _, rfl⟩

theorem endStart (h : s.Reported n) {outbox : List Message} (hsub : outbox.Sublist s.inflight)
    {outcome : Outcome β} (hfails : outcome.keeps = false) :
    ({ s with outbox }.endStart outcome).Reported n := by
  obtain ⟨healthy, shutdownDone, heq⟩ := endStart_eq (s := { s with outbox }) outcome
  have hready : ({ s with outbox }.endStart outcome).isReady = true → False := by
    intro hready
    obtain ⟨y, rfl⟩ := isReady_endStart hready
    cases hfails
  refine h.ended ?_ ?_ ?_ ?_ ?_ ?_ fun hready' => (hready hready').elim
  · rw [heq]
  · rw [heq]
  · rw [heq]
  · rw [heq]
  · rw [heq]
    exact hsub
  · rw [heq]
    exact nofun

theorem endCall (h : s.Reported n) (hstarted : s.startOutcome ≠ none) {outbox : List Message}
    (hsub : outbox.Sublist s.inflight) {messages : List Message} {outcome : Outcome β}
    (hfails : outcome.keeps = false) :
    ({ s with outbox }.endCall n messages outcome).Reported n := by
  refine h.ended rfl rfl rfl rfl hsub hstarted fun hready => ?_
  rw [isReady_endCall hready] at hfails
  cases hfails

theorem giveUp (h : s.Reported n) (hcollecting : s.collecting = true) (outbox : List Message)
    (hsub : outbox.Sublist s.inflight) {messages : List Message} {outcome : Outcome β}
    (hfails : outcome.keeps = false) :
    ({ s with outbox }.giveUp n messages outcome).Reported n := by
  rcases collecting_iff.mp hcollecting with ⟨ms, hstage⟩ | ⟨ms, hstage⟩ | ⟨ms, hstage⟩
  · have heq : ({ s with outbox } : DistributedRunner α β).giveUp n messages outcome =
        ({ s with outbox } : DistributedRunner α β).endStart outcome := by
      unfold DistributedRunner.giveUp
      rw [hstage]
    rw [heq]
    exact h.endStart hsub hfails
  · have heq : ({ s with outbox } : DistributedRunner α β).giveUp n messages outcome =
        ({ s with outbox } : DistributedRunner α β).endStart outcome := by
      unfold DistributedRunner.giveUp
      rw [hstage]
    rw [heq]
    exact h.endStart hsub hfails
  · have heq : ({ s with outbox } : DistributedRunner α β).giveUp n messages outcome =
        ({ s with outbox } : DistributedRunner α β).endCall n messages outcome := by
      unfold DistributedRunner.giveUp
      rw [hstage]
    rw [heq]
    exact h.endCall (h.started ms hstage) hsub hfails

theorem isReady_eq_false (hcollecting : s.collecting = true) : s.isReady = false := by
  unfold isReady
  split
  · next hidle =>
    rw [collecting, hidle] at hcollecting
    cases hcollecting
  · rfl

theorem complete_ended (h : s.Reported n) {messages outbox : List Message}
    (hinflight : messages ++ outbox = s.inflight) (hports : s.allowedPorts = some 0)
    (hn : n ≤ messages.length) (hranks : s'.ranks = s.ranks) (hcalls : s'.calls = s.calls)
    (hinput : s'.input = s.input) (hstage : s'.stage = .idle) (houtbox : s'.outbox = outbox)
    (hstarted : s'.startOutcome ≠ none) : s'.Reported n := by
  obtain ⟨hnil, -, -, hquiet⟩ := h.complete hinflight hports hn
  have hzero := h.ports 0 hports
  refine h.ended hranks hcalls hinput hstage ?_ hstarted fun _ => ⟨⟨?_, ?_⟩, ?_⟩
  · rw [houtbox, ← hinflight]
    exact List.sublist_append_right _ _
  · rw [houtbox, hnil]
  · rw [hranks, hcalls]
    exact hquiet
  · rw [hranks, houtbox, hnil]
    simp only [List.count_nil]
    omega

theorem settles (h : s.Reported n) (hcollecting : s.collecting = true)
    {messages outbox : List Message} (hinflight : messages ++ outbox = s.inflight)
    (hsettles : Settles n s messages outbox s') : s'.Reported n := by
  have hsub : outbox.Sublist s.inflight := hinflight ▸ List.sublist_append_right _ _
  cases hsettles with
  | waits =>
    have hcollected : ({ s with outbox, stage := collectingMessages messages s.stage } :
        DistributedRunner α β).collected = messages := by
      rcases collecting_iff.mp hcollecting with ⟨ms, hstage⟩ | ⟨ms, hstage⟩ | ⟨ms, hstage⟩ <;>
        rw [hstage] <;> rfl
    have hsame : ({ s with outbox, stage := collectingMessages messages s.stage } :
        DistributedRunner α β).inflight = s.inflight := by
      rw [inflight, hcollected]
      exact hinflight
    have hstill : ({ s with outbox, stage := collectingMessages messages s.stage } :
        DistributedRunner α β).collecting = true := by
      rcases collecting_iff.mp hcollecting with ⟨ms, hstage⟩ | ⟨ms, hstage⟩ | ⟨ms, hstage⟩ <;>
        rw [hstage] <;> rfl
    refine ⟨h.serves, h.input, ?_, ?_, fun k hk => ?_, h.others, fun hready => ?_, fun hfresh => ?_,
      h.calls, fun ms hms => ?_⟩
    · rw [hsame]
      exact h.arrived
    · rw [hsame]
      exact h.nodup
    · rw [hsame]
      refine h.ports k ?_
      rcases collecting_iff.mp hcollecting with ⟨ms, hstage⟩ | ⟨ms, hstage⟩ | ⟨ms, hstage⟩ <;>
        rw [allowedPorts, hstage] <;> rw [hstage] at hk <;> exact hk
    · rw [isReady_eq_false hstill] at hready
      cases hready
    · rw [collecting, hfresh] at hstill
      cases hstill
    · rcases collecting_iff.mp hcollecting with ⟨ms', hstage⟩ | ⟨ms', hstage⟩ | ⟨ms', hstage⟩
      · rw [hstage] at hms
        cases hms
      · rw [hstage] at hms
        cases hms
      · exact h.started ms' hstage
  | @joins ms hstage hnone hport =>
    have houtbox : ({ { s with outbox }.put (fun r => 0 < r) .join with stage := .starting [] } :
        DistributedRunner α β).inflight = outbox := rfl
    have hserves : ∀ r < n,
        (({ s with outbox }.put (fun r => 0 < r) .join).ranks r).Serves r s.calls :=
      fun r hr => serves_put rfl (h.serves r hr)
    refine ⟨hserves, h.input, fun m hm => ?_, ?_, fun k hk => ?_, fun r hr => ?_, nofun, nofun,
      h.calls, nofun⟩
    · rw [houtbox] at hm
      have harrived := h.arrived m (hsub.subset hm)
      exact arrived_put (s := { s with outbox }) harrived
    · rw [houtbox]
      exact h.nodup.sublist (hsub.filterMap _)
    · -- the port was taken, and there is no second one
      cases hk
      rw [houtbox]
      have hone := h.ports 1 (by rw [allowedPorts, hstage])
      rw [← hinflight, List.count_append] at hone
      have hpos := List.count_pos_iff.mpr hport
      have hports := ports_put (s := { s with outbox }) (fun r => 0 < r) .join
      show (({ s with outbox }.put (fun r => 0 < r) .join).ranks 0).ports + _ ≤ 0
      rw [hports]
      show (s.ranks 0).ports + _ ≤ 0
      omega
    · have hsending := sending_put (s := { s with outbox }) (fun r => 0 < r) .join r
      show .rendezvous ∉ (({ s with outbox }.put (fun r => 0 < r) .join).ranks r).sending
      rw [hsending]
      exact h.others r hr
  | @started outcome hends =>
    rcases collecting_iff.mp hcollecting with ⟨ms, hstage⟩ | ⟨ms, hstage⟩ | ⟨ms, hstage⟩
    · rw [hstage] at hends
      have hready : ∀ y, outcome ≠ .returned y := by
        cases hends <;> nofun
      obtain ⟨healthy, shutdownDone, heq⟩ := endStart_eq (s := { s with outbox }) outcome
      refine h.ended ?_ ?_ ?_ ?_ ?_ ?_ fun hready' => ?_
      · rw [heq]
      · rw [heq]
      · rw [heq]
      · rw [heq]
      · rw [heq]
        exact hsub
      · rw [heq]
        exact nofun
      · obtain ⟨y, hy⟩ := isReady_endStart hready'
        exact absurd hy (hready y)
    · rw [hstage] at hends
      cases hends with
      | complete hn =>
        obtain ⟨healthy, shutdownDone, heq⟩ :=
          endStart_eq (s := { s with outbox }) (startVerdict messages)
        refine h.complete_ended hinflight (by rw [allowedPorts, hstage]) hn ?_ ?_ ?_ ?_ ?_ ?_
        · rw [heq]
        · rw [heq]
        · rw [heq]
        · rw [heq]
        · rw [heq]
        · rw [heq]
          exact nofun
    · rw [hstage] at hends
      cases hends
  | @decided ms hstage hn =>
    exact h.complete_ended hinflight (by rw [allowedPorts, hstage]) hn rfl rfl rfl rfl rfl
      (h.started ms hstage)

theorem moves (h : s.Reported n) {r : ℕ} (hr : r < n) {R : Rank α β} {result : Option β}
    (hmoves : Moves r s.calls (s.ranks r) R)
    (hfresh : s.stage ≠ .fresh) :
    ({ s.setRank r R with result } : DistributedRunner α β).Reported n := by
  have hsame : ({ s.setRank r R with result } : DistributedRunner α β).ranks r = R := by
    simp [setRank]
  have hother : ∀ r', r' ≠ r →
      ({ s.setRank r R with result } : DistributedRunner α β).ranks r' = s.ranks r' := by
    intro r' hne
    simp [setRank, hne]
  refine ⟨fun r' hr' => ?_, h.input, fun m hm => ?_, h.nodup, fun k hk => ?_, fun r' hr' => ?_,
    fun hready => ?_, fun hfresh' => absurd hfresh' hfresh, h.calls, h.started⟩
  · by_cases hne : r' = r
    · subst hne
      rw [hsame]
      exact hmoves.serves
    · rw [hother r' hne]
      exact h.serves r' hr'
  · rcases h.arrived m hm with rfl | ⟨r', hr', rfl, hreports, hsending⟩
    · exact .inl rfl
    · refine .inr ⟨r', hr', ?_⟩
      by_cases hne : r' = r
      · subst hne
        obtain ⟨hreports', hlast, hsub⟩ := hmoves.reported hreports
        rw [hsame, hlast]
        refine ⟨rfl, hreports', List.sublist_nil.mp ?_⟩
        rw [← hsending]
        exact hsub.filterMap _
      · rw [hother r' hne]
        exact ⟨rfl, hreports, hsending⟩
  · have hports := h.ports k hk
    by_cases hne : 0 = r
    · subst hne
      rw [hsame]
      exact Nat.le_trans (Nat.add_le_add_right (hmoves.ports rfl) _) hports
    · rw [hother 0 hne]
      exact hports
  · by_cases hne : r' = r
    · subst hne
      rw [hsame]
      exact fun hm => h.others r' hr' (hmoves.rendezvous hr' hm)
    · rw [hother r' hne]
      exact h.others r' hr'
  · obtain ⟨houtbox, hquiet⟩ := h.quiet hready
    refine ⟨houtbox, fun r' hr' => ?_⟩
    by_cases hne : r' = r
    · subst hne
      rw [hsame]
      obtain ⟨hsending, hreports⟩ := hquiet r' hr'
      obtain ⟨hreports', -, hsub⟩ := hmoves.reported hreports
      rw [hsending] at hsub
      exact ⟨List.sublist_nil.mp hsub, hreports'⟩
    · rw [hother r' hne]
      exact hquiet r' hr'

/-- A report reaches the queue. -/
theorem flushes (h : s.Reported n) {r : ℕ} (hr : r < n) {m : Message} {sending : List Message}
    (hsending : (s.ranks r).sending = m :: sending) (hfresh : s.stage ≠ .fresh)
    (loadErrors : List Exn) :
    ({ s.setRank r { s.ranks r with sending } with
      outbox := s.outbox ++ [m], loadErrors } : DistributedRunner α β).Reported n := by
  have hsame : (s.setRank r { s.ranks r with sending }).ranks r =
      { s.ranks r with sending } := by
    simp [setRank]
  have hother : ∀ r', r' ≠ r → (s.setRank r { s.ranks r with sending }).ranks r' = s.ranks r' := by
    intro r' hne
    simp [setRank, hne]
  have hserves := h.serves r hr
  have hm : m ∈ (s.ranks r).sending := by rw [hsending]; exact List.mem_cons_self
  have honce := hserves.once
  have hinflight : ({ s.setRank r { s.ranks r with sending } with
      outbox := s.outbox ++ [m], loadErrors } : DistributedRunner α β).inflight =
        s.inflight ++ [m] :=
    (List.append_assoc _ _ _).symm
  have hlast : ({ s.ranks r with sending } : Rank α β).lastReport r =
      (s.ranks r).lastReport r := rfl
  refine ⟨fun r' hr' => ?_, h.input, fun x hx => ?_, ?_, fun k hk => ?_, fun r' hr' => ?_,
    fun hready => ?_, fun hfresh' => absurd hfresh' hfresh, h.calls, h.started⟩
  · show ((s.setRank r { s.ranks r with sending }).ranks r').Serves r' s.calls
    by_cases hne : r' = r
    · subst hne
      rw [hsame]
      refine hserves.of_eq rfl rfl rfl (fun _ h => h) rfl (fun _ h => h) rfl hlast
        (fun x hx => .inr ?_) (Nat.le_trans (List.Sublist.length_le ?_) honce)
      · rw [hsending]
        exact List.mem_cons_of_mem _ hx
      · rw [hsending]
        exact (List.sublist_cons_self m sending).filterMap _
    · rw [hother r' hne]
      exact h.serves r' hr'
  · rw [hinflight] at hx
    rcases List.mem_append.mp hx with hx | hx
    · rcases h.arrived x hx with rfl | ⟨r', hr', rfl, hreports, hnone⟩
      · exact .inl rfl
      · refine .inr ⟨r', hr', ?_⟩
        show _ = ((s.setRank r { s.ranks r with sending }).ranks r').lastReport r' ∧
          ((s.setRank r { s.ranks r with sending }).ranks r').reports = _ ∧
          ((s.setRank r { s.ranks r with sending }).ranks r').sending.filterMap Message.rank = []
        by_cases hne : r' = r
        · subst hne
          rw [hsame]
          refine ⟨rfl, hreports, ?_⟩
          rw [hsending] at hnone
          exact List.sublist_nil.mp (hnone ▸ (List.sublist_cons_self m sending).filterMap _)
        · rw [hother r' hne]
          exact ⟨rfl, hreports, hnone⟩
    · rw [List.mem_singleton.mp hx]
      rcases hserves.sending m hm with rfl | ⟨rfl, hreports⟩
      · exact .inl rfl
      · refine .inr ⟨r, hr, ?_⟩
        show _ = ((s.setRank r { s.ranks r with sending }).ranks r).lastReport r ∧
          ((s.setRank r { s.ranks r with sending }).ranks r).reports = _ ∧
          ((s.setRank r { s.ranks r with sending }).ranks r).sending.filterMap Message.rank = []
        rw [hsame]
        refine ⟨rfl, hreports, ?_⟩
        -- it was the only report that was put
        rw [hsending, List.filterMap_cons_some (Rank.rank_lastReport r _), List.length_cons]
          at honce
        have hnil : sending.filterMap Message.rank = [] :=
          List.length_eq_zero_iff.mp (by omega)
        exact hnil
  · rw [hinflight, List.filterMap_append]
    rcases hserves.sending m hm with rfl | ⟨rfl, -⟩
    · have hport : [Message.rendezvous].filterMap Message.rank = [] := rfl
      rw [hport, List.append_nil]
      exact h.nodup
    · have hone : [(s.ranks r).lastReport r].filterMap Message.rank = [r] := by simp
      rw [hone, List.nodup_append]
      refine ⟨h.nodup, List.nodup_singleton r, fun r' hr' r'' hr'' => ?_⟩
      rw [List.mem_singleton.mp hr'']
      rintro rfl
      obtain ⟨x, hx, hrank⟩ := List.mem_filterMap.mp hr'
      rcases h.arrived x hx with rfl | ⟨r'', -, rfl, -, hnone⟩
      · cases hrank
      · rw [Rank.rank_lastReport, Option.some.injEq] at hrank
        subst hrank
        have hin := List.mem_filterMap.mpr ⟨_, hm, Rank.rank_lastReport r'' _⟩
        rw [hnone] at hin
        exact absurd hin List.not_mem_nil
  · have hports := h.ports k hk
    rw [hinflight, List.count_append]
    show ((s.setRank r { s.ranks r with sending }).ranks 0).ports + _ ≤ k
    by_cases hne : 0 = r
    · subst hne
      rw [hsame]
      have hcount : (s.ranks 0).ports = ({ s.ranks 0 with sending } : Rank α β).ports +
          [m].count .rendezvous := by
        unfold Rank.ports
        rw [hsending, List.count_cons, List.count_singleton]
        dsimp only
        omega
      omega
    · rw [hother 0 hne]
      have hnot : [m].count .rendezvous = 0 := by
        refine List.count_eq_zero.mpr fun hmem => h.others r (Ne.symm hne) ?_
        rw [List.mem_singleton.mp hmem]
        exact hm
      omega
  · show .rendezvous ∉ ((s.setRank r { s.ranks r with sending }).ranks r').sending
    by_cases hne : r' = r
    · subst hne
      rw [hsame]
      intro hmem
      refine h.others r' hr' ?_
      rw [hsending]
      exact List.mem_cons_of_mem _ hmem
    · rw [hother r' hne]
      exact h.others r' hr'
  · obtain ⟨-, hquiet⟩ := h.quiet hready
    rw [(hquiet r hr).1] at hm
    exact absurd hm List.not_mem_nil

theorem next (h : s.Reported n) (hunborn : Unborn s) {l : Label α β}
    (hnext : s.next n formsGroup l = some s') : s'.Reported n := by
  have hborn : ∀ {r}, (s.ranks r).alive = true → s.stage ≠ .fresh := by
    intro r halive hfresh
    rw [hunborn hfresh r] at halive
    cases halive
  have hstep := step_of_next hnext
  cases hstep with
  | start hfresh hopen => exact h.start hfresh
  | call hready => exact h.broadcast hready _
  | shutdown hidle => exact h.shutdown hidle
  | rests => exact h
  | settles hl hcollecting hinflight hsettles => exact h.settles hcollecting hinflight hsettles
  | crashes hcollecting hinflight hr hdead hnone =>
    exact h.giveUp hcollecting _ (hinflight ▸ List.sublist_append_right _ _) rfl
  | givesUp hl hcollecting =>
    refine h.giveUp hcollecting s.outbox (List.sublist_append_right _ _) ?_
    rcases hl with ⟨-, rfl⟩ | ⟨-, rfl⟩ <;> rfl
  | moves hr halive hmove =>
    obtain ⟨R, result, rfl, hmoves⟩ := hmove.moves (h.serves _ hr) h.input
    exact h.moves hr hmoves (hborn halive)
  | flushes hr halive hsending => exact h.flushes hr hsending (hborn halive) _

end Reported

end DistributedRunner

end ReactorRuntime.Distributed
