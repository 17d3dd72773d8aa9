import ReactorRuntime.Runtime.FanOut
import ReactorRuntime.Transport.Equiv.MediaPacer
import Mathlib.Data.List.Count
import Mathlib.Data.Nat.Basic

/-!
# What a flush cuts

A flush reaches every connection that is registered as its walk begins, and what a connection holds
after that was put by a worker that looked at the generation since.  That is so as long as the four
looks that are apart stay together (`prompt`): a worker reads the generation before the next flush
begins, and the epoch of a pacer before a flush reaches it; a connection that is not registered any
more has nothing left to hand to its wire; and a room's frame in hand, and the sound that waits to
be cleared, stay where they are (`flush_cuts`).  Each of them can come apart (`not_flush_cuts`).
-/

namespace ReactorRuntime.Transport

namespace MediaConnection

variable {c c' : MediaConnection}

/-- What a step leaves of the flushes that have reached a connection. -/
structure Follows (c c' : MediaConnection) : Prop where
  carriesMedia : c'.carriesMedia = c.carriesMedia
  epoch : c.pacerQueue.epoch ≤ c'.pacerQueue.epoch
  cut : c.pacerQueue.cut ≤ c'.pacerQueue.cut
  same : c'.pacerQueue.epoch = c.pacerQueue.epoch → c'.pacerQueue.cut = c.pacerQueue.cut
  wireCut : c.wireCut ≤ c'.wireCut
  spent : c.spent = true → c'.spent = true

theorem Same.follows (h : c.Same c') (hover : c.spent = true → c'.spent = true) : c.Follows c' where
  carriesMedia := h.carriesMedia
  epoch := h.epoch.ge
  cut := h.cut.ge
  same _ := h.cut
  wireCut := h.wireCut.ge
  spent := hover

theorem follows_flushPacer {hold : Bool} {n : ℕ} (hn : c.pacerQueue.cut ≤ n) :
    c.Follows (c.flushPacer hold n) := by
  refine ⟨carriesMedia_flushPacer, ?_, ?_, ?_, wireCut_flushPacer.ge, spent_flushPacer⟩
  all_goals
    by_cases hc : c.carriesMedia = true
    · rw [pacerQueue_flushPacer hc]
      simp [PacerQueue.flush, hn]
    · obtain rfl : c = .data := by
        cases c with
        | data => rfl
        | _ => exact absurd rfl hc
      simp [flushPacer]

theorem follows_flushWire {n : ℕ} (hn : c.wireCut ≤ n) : c.Follows (c.flushWire n) := by
  refine ⟨carriesMedia_flushWire, ?_, ?_, fun _ => ?_, ?_, spent_flushWire⟩
  · rw [pacerQueue_flushWire]
  · rw [pacerQueue_flushWire]
  · rw [pacerQueue_flushWire]
  · by_cases hc : c.carriesMedia = true
    · rwa [wireCut_flushWire hc]
    · cases c with
      | data => exact Nat.le_refl _
      | _ => exact absurd rfl hc

end MediaConnection

end ReactorRuntime.Transport

namespace ReactorRuntime.Runtime

open ReactorRuntime.Transport

namespace FanOut

variable {s s' : FanOut} {e : ℕ} {emit : Emit}

/-! ### Looks that stay together -/

/-- No flush comes between two looks of a worker. -/
def promptWork (s : FanOut) (emit : Emit) : Bool :=
  match emit.stage with
  | .begun => decide (s.generation = emit.chunk.born)
  | .offering _ conn epoch _ => decide ((s.conns conn).pacerQueue.epoch = epoch)
  | _ => true

/-- No flush comes between two looks of a worker, and a flush leaves nothing where it does not
look. -/
def prompt (s : FanOut) : Label → Bool
  | .work e => (s.emits e).all s.promptWork
  | .flushes =>
    match s.flushing with
    | some (.begun _) => (List.range s.opened).all fun conn =>
        decide (conn ∈ s.registered) || (s.conns conn).spent
    | some (.walking _ (conn :: _)) => !(s.conns conn).dispatching
    | _ => true
  | .act conn (.pushAudioFrame _) => !(s.conns conn).clearing
  | _ => true

def Reached (s : FanOut) (n conn : ℕ) : Prop :=
  n ≤ (s.conns conn).wireCut ∨ (s.conns conn).spent = true

/-- The epoch of a pacer was read after the last flush before `born`, unless the pacer was flushed
since. -/
structure Timely (s : FanOut) (born conn epoch : ℕ) : Prop where
  opened : conn < s.opened
  carriesMedia : (s.conns conn).carriesMedia = true
  le : epoch ≤ (s.conns conn).pacerQueue.epoch
  cut : (s.conns conn).pacerQueue.epoch = epoch → (s.conns conn).pacerQueue.cut ≤ born

def EmitStage.Timely (s : FanOut) (born : ℕ) : EmitStage → Prop
  | .read generation => generation = born
  | .fanning generation rest => generation = born ∧ ∀ conn ∈ rest, conn < s.opened
  | .offering generation conn epoch rest | .putting generation conn epoch _ rest =>
    (generation = born ∧ ∀ conn ∈ rest, conn < s.opened) ∧ s.Timely born conn epoch
  | _ => True

/-- A flush has reached every connection but those to come. -/
def FlushStage.Walks (s : FanOut) : FlushStage → Prop
  | .begun _ => True
  | .walking _ rest =>
    (∀ conn ∈ rest, conn < s.opened) ∧ ∀ conn, conn ∈ rest ∨ s.Reached s.generation conn
  | .cutting _ conn rest => (∀ c ∈ conn :: rest, c < s.opened) ∧
    ((s.conns conn).carriesMedia = true → s.generation ≤ (s.conns conn).pacerQueue.cut) ∧
      ∀ c, c ∈ conn :: rest ∨ s.Reached s.generation c

/-- What the connections hold was emitted after the last flush that has reached them. -/
structure Cuts (s : FanOut) : Prop where
  registered : ∀ conn ∈ s.registered, conn < s.opened
  unopened : ∀ conn, s.opened ≤ conn → (s.conns conn).spent = true
  fresh : ∀ conn, (s.conns conn).Fresh
  cut : ∀ conn, (s.conns conn).pacerQueue.cut ≤ s.generation
  emits : ∀ e emit, s.emits e = some emit → EmitStage.Timely s emit.chunk.born emit.stage
  flushing : ∀ stage, s.flushing = some stage → FlushStage.Walks s stage
  returned : ∀ conn, s.Reached s.returned conn
  le : s.returned ≤ s.generation
  handed : ∀ h ∈ s.handed, h.returned ≤ h.frame.chunk.born

/-! ### What a step leaves in place -/

section Stays

variable {t : FanOut}

theorem Reached.of_eq {n conn : ℕ} (h : s.Reached n conn) (hconns : t.conns conn = s.conns conn) :
    t.Reached n conn := by
  unfold Reached
  rw [hconns]
  exact h

theorem Timely.of_eq {born conn epoch : ℕ} (h : s.Timely born conn epoch)
    (hconns : t.conns conn = s.conns conn) (hopened : s.opened ≤ t.opened) :
    t.Timely born conn epoch where
  opened := h.opened.trans_le hopened
  carriesMedia := hconns ▸ h.carriesMedia
  le := hconns ▸ h.le
  cut := hconns ▸ h.cut

/-- A worker is as far as before when no connection that it may look at has changed. -/
theorem EmitStage.Timely.of_eq {born : ℕ} {stage : EmitStage} (h : EmitStage.Timely s born stage)
    (hconns : ∀ conn < s.opened, t.conns conn = s.conns conn) (hopened : s.opened ≤ t.opened) :
    EmitStage.Timely t born stage := by
  cases stage with
  | fanning generation rest => exact ⟨h.1, fun conn hconn => (h.2 conn hconn).trans_le hopened⟩
  | offering generation conn epoch rest =>
    exact ⟨⟨h.1.1, fun conn hconn => (h.1.2 conn hconn).trans_le hopened⟩,
      h.2.of_eq (hconns conn h.2.opened) hopened⟩
  | putting generation conn epoch index rest =>
    exact ⟨⟨h.1.1, fun conn hconn => (h.1.2 conn hconn).trans_le hopened⟩,
      h.2.of_eq (hconns conn h.2.opened) hopened⟩
  | _ => exact h

theorem FlushStage.Walks.of_eq {stage : FlushStage} (h : FlushStage.Walks s stage)
    (hconns : t.conns = s.conns) (hopened : t.opened = s.opened)
    (hgeneration : t.generation = s.generation) : FlushStage.Walks t stage := by
  unfold FlushStage.Walks Reached at h ⊢
  rw [hconns, hopened, hgeneration]
  exact h

end Stays

/-! ### One step -/

namespace Cuts

theorem init : Cuts ({} : FanOut) where
  registered _ h := absurd h List.not_mem_nil
  unopened _ _ := rfl
  fresh _ := trivial
  cut _ := Nat.le_refl _
  emits := by rintro e emit ⟨⟩
  flushing := by rintro stage ⟨⟩
  returned _ := .inr rfl
  le := Nat.le_refl _
  handed _ h := absurd h List.not_mem_nil

/-- A step that changes one connection, which no flush left behind. -/
theorem setConn (h : s.Cuts) {conn : ℕ} {c : MediaConnection} (hfresh : c.Fresh)
    (hcut : c.pacerQueue.cut ≤ s.generation) (hfollows : (s.conns conn).Follows c) :
    (s.setConn conn c).Cuts := by
  have hself : (s.setConn conn c).conns conn = c := Function.update_self ..
  have hne : ∀ {k}, k ≠ conn → (s.setConn conn c).conns k = s.conns k :=
    fun hk => Function.update_of_ne hk ..
  have hreached : ∀ {n k}, s.Reached n k → (s.setConn conn c).Reached n k := by
    intro n k hk
    by_cases heq : k = conn
    · subst heq
      rcases hk with hk | hk
      · exact .inl (hself.symm ▸ hk.trans hfollows.wireCut)
      · exact .inr (hself.symm ▸ hfollows.spent hk)
    · exact hk.of_eq (hne heq)
  have htimely : ∀ {born k epoch}, s.Timely born k epoch →
      (s.setConn conn c).Timely born k epoch := by
    intro born k epoch hk
    by_cases heq : k = conn
    · subst heq
      refine ⟨hk.opened, ?_, ?_, ?_⟩
      · rw [hself, hfollows.carriesMedia]
        exact hk.carriesMedia
      · rw [hself]
        exact hk.le.trans hfollows.epoch
      · rw [hself]
        intro hepoch
        -- The epoch only grows, so one that is still that of the worker has not moved.
        have hold : (s.conns k).pacerQueue.epoch = epoch :=
          le_antisymm (hepoch ▸ hfollows.epoch) hk.le
        rw [hfollows.same (hepoch.trans hold.symm)]
        exact hk.cut hold
    · exact hk.of_eq (hne heq) (Nat.le_refl _)
  refine ⟨h.registered, ?_, ?_, ?_, ?_, ?_, fun k => hreached (h.returned k), h.le, h.handed⟩
  · intro k hk
    by_cases heq : k = conn
    · subst heq
      rw [hself]
      exact hfollows.spent (h.unopened k hk)
    · rw [hne heq]
      exact h.unopened k hk
  · intro k
    by_cases heq : k = conn
    · subst heq
      rwa [hself]
    · rw [hne heq]
      exact h.fresh k
  · intro k
    by_cases heq : k = conn
    · subst heq
      rwa [hself]
    · rw [hne heq]
      exact h.cut k
  · intro e emit hemit
    have hstage := h.emits e emit hemit
    revert hstage
    cases emit.stage with
    | offering generation k epoch rest => exact fun hstage => ⟨hstage.1, htimely hstage.2⟩
    | putting generation k epoch index rest => exact fun hstage => ⟨hstage.1, htimely hstage.2⟩
    | _ => exact id
  · intro stage hstage
    have hwalks := h.flushing stage hstage
    cases stage with
    | begun hold => trivial
    | walking hold rest => exact ⟨hwalks.1, fun k => (hwalks.2 k).imp_right hreached⟩
    | cutting hold k rest =>
      refine ⟨hwalks.1, ?_, fun k => (hwalks.2.2 k).imp_right hreached⟩
      by_cases heq : k = conn
      · subst heq
        rw [hself, hfollows.carriesMedia]
        exact fun hc => (hwalks.2.1 hc).trans hfollows.cut
      · rw [hne heq]
        exact hwalks.2.1

theorem setEmit (h : s.Cuts) {emit : Emit}
    (hstage : EmitStage.Timely s emit.chunk.born emit.stage) : (s.setEmit e emit).Cuts where
  registered := h.registered
  unopened := h.unopened
  fresh := h.fresh
  cut := h.cut
  emits e' emit' hemit := by
    have htimely : EmitStage.Timely s emit'.chunk.born emit'.stage := by
      by_cases heq : e' = e
      · subst heq
        have hself : (s.setEmit e' emit).emits e' = some emit := Function.update_self ..
        obtain rfl : emit = emit' := Option.some.inj (hself.symm.trans hemit)
        exact hstage
      · exact h.emits e' emit' ((Function.update_of_ne heq ..).symm.trans hemit)
    exact htimely.of_eq (fun _ _ => rfl) (Nat.le_refl _)
  flushing stage hstage := (h.flushing stage hstage).of_eq rfl rfl rfl
  returned := h.returned
  le := h.le
  handed := h.handed

/-- The registry loses connections, or a flush begins and ends, with all else in place. -/
theorem of_eq {t : FanOut} (h : s.Cuts) (hconns : t.conns = s.conns) (hopened : t.opened = s.opened)
    (hemits : t.emits = s.emits) (hhanded : t.handed = s.handed)
    (hgeneration : s.generation ≤ t.generation)
    (hregistered : ∀ conn ∈ t.registered, conn ∈ s.registered)
    (hflushing : ∀ stage, t.flushing = some stage → FlushStage.Walks t stage)
    (hreturned : ∀ conn, t.Reached t.returned conn) (hle : t.returned ≤ t.generation) : t.Cuts where
  registered conn hconn := hopened ▸ h.registered conn (hregistered conn hconn)
  unopened conn hconn := hconns ▸ h.unopened conn (hopened ▸ hconn)
  fresh := hconns ▸ h.fresh
  cut conn := hconns ▸ (h.cut conn).trans hgeneration
  emits e emit hemit := (h.emits e emit (hemits ▸ hemit)).of_eq
    (fun conn _ => congrFun hconns conn) hopened.ge
  flushing := hflushing
  returned := hreturned
  le := hle
  handed := hhanded ▸ h.handed

theorem registered_register {id : String} {kind : Kind} {conn : ℕ}
    (hconn : conn ∈ (s.register id kind).registered) : conn ∈ s.registered ∨ conn = s.opened := by
  obtain ⟨entry, hentry, rfl⟩ := List.mem_map.mp hconn
  simp only [register] at hentry
  split_ifs at hentry
  · obtain ⟨entry', hentry', rfl⟩ := List.mem_map.mp hentry
    split_ifs
    · exact .inr rfl
    · exact .inl (List.mem_map_of_mem hentry')
  · rcases List.mem_append.mp hentry with hentry | hentry
    · exact .inl (List.mem_map_of_mem hentry)
    · exact .inr (congrArg Prod.snd (List.mem_singleton.mp hentry))

/-- A new connection holds nothing, and no worker has it. -/
theorem register (h : s.Cuts) {id : String} {kind : Kind} : (s.register id kind).Cuts := by
  have hself : (s.register id kind).conns s.opened = kind.connection s.generation :=
    Function.update_self ..
  have hne : ∀ {k}, k ≠ s.opened → (s.register id kind).conns k = s.conns k :=
    fun hk => Function.update_of_ne hk ..
  have hnew : (kind.connection s.generation).Fresh ∧
      (kind.connection s.generation).pacerQueue.cut ≤ s.generation ∧
      ∀ n ≤ s.generation, (s.register id kind).Reached n s.opened := by
    unfold Reached
    rw [hself]
    cases kind with
    | data => exact ⟨trivial, Nat.zero_le _, fun n _ => .inr rfl⟩
    | webrtc depth => exact ⟨MediaConnection.fresh_webrtc, Nat.le_refl _, fun n hn => .inl hn⟩
    | room depth => exact ⟨MediaConnection.fresh_room, Nat.le_refl _, fun n hn => .inl hn⟩
  obtain ⟨hfresh, hcut, hreached⟩ := hnew
  have hreached : ∀ {n k}, n ≤ s.generation → (s.Reached n k ∨ k = s.opened) →
      (s.register id kind).Reached n k := by
    intro n k hn hk
    by_cases heq : k = s.opened
    · subst heq
      exact hreached n hn
    · exact (hk.resolve_right heq).of_eq (hne heq)
  refine ⟨?_, ?_, ?_, ?_, ?_, ?_, fun k => hreached h.le (.inl (h.returned k)), h.le, h.handed⟩
  · intro conn hconn
    rcases registered_register hconn with hconn | rfl
    · exact (h.registered conn hconn).trans (Nat.lt_succ_self _)
    · exact Nat.lt_succ_self _
  · intro k hk
    have hlt : s.opened < k := hk
    rw [hne hlt.ne']
    exact h.unopened k hlt.le
  · intro k
    by_cases heq : k = s.opened
    · subst heq
      rwa [hself]
    · rw [hne heq]
      exact h.fresh k
  · intro k
    by_cases heq : k = s.opened
    · subst heq
      rwa [hself]
    · rw [hne heq]
      exact h.cut k
  · intro e emit hemit
    exact (h.emits e emit hemit).of_eq (fun conn hlt => hne hlt.ne) (Nat.le_succ _)
  · intro stage hstage
    have hwalks := h.flushing stage hstage
    cases stage with
    | begun hold => trivial
    | walking hold rest =>
      refine ⟨fun k hk => (hwalks.1 k hk).trans (Nat.lt_succ_self _), fun k => ?_⟩
      exact (hwalks.2 k).imp_right fun hk => hreached (Nat.le_refl _) (.inl hk)
    | cutting hold conn rest =>
      refine ⟨fun k hk => (hwalks.1 k hk).trans (Nat.lt_succ_self _), ?_, fun k => ?_⟩
      · rw [hne (hwalks.1 conn List.mem_cons_self).ne]
        exact hwalks.2.1
      · exact (hwalks.2.2 k).imp_right fun hk => hreached (Nat.le_refl _) (.inl hk)

theorem putNext (h : s.Cuts) {generation conn epoch index : ℕ} {rest : List ℕ}
    (hrest : generation = emit.chunk.born ∧ ∀ conn ∈ rest, conn < s.opened)
    (htimely : s.Timely emit.chunk.born conn epoch)
    (hput : s.putNext e emit generation conn epoch index rest = some s') : s'.Cuts := by
  unfold FanOut.putNext at hput
  dsimp only at hput
  split at hput
  · split at hput
    · rename_i q hq
      cases hput
      -- The put was not refused, so the epoch is the worker's, and the flushes before its emit are
      -- all that the pacer has seen.
      have hepoch : (s.conns conn).pacerQueue.epoch = epoch := by
        unfold PacerQueue.put at hq
        split_ifs at hq with hover
        exact not_not.mp (not_or.mp hover).2
      obtain ⟨hfresh, hcut, hsame, -, hclosed⟩ :=
        (h.fresh conn).put hq (htimely.cut hepoch)
      have hqueue : ((s.conns conn).setQueue q).pacerQueue = q :=
        MediaConnection.pacerQueue_setQueue htimely.carriesMedia
      have hset : (s.setConn conn ((s.conns conn).setQueue q)).Cuts := by
        refine h.setConn hfresh ?_ ⟨MediaConnection.carriesMedia_setQueue, ?_, ?_, fun _ => ?_,
          MediaConnection.wireCut_setQueue.ge, fun hover => ?_⟩
        · rw [hqueue, hcut]
          exact h.cut conn
        · rw [hqueue, hsame]
        · rw [hqueue, hcut]
        · rw [hqueue, hcut]
        · have := MediaConnection.closed_of_spent hover htimely.carriesMedia
          exact absurd (this.symm.trans hclosed) Bool.noConfusion
      refine hset.setEmit ⟨hrest, htimely.opened, ?_, ?_, ?_⟩
      all_goals
        have hconn : (s.setConn conn ((s.conns conn).setQueue q)).conns conn =
            (s.conns conn).setQueue q := Function.update_self ..
        rw [hconn]
      · rw [MediaConnection.carriesMedia_setQueue]
        exact htimely.carriesMedia
      · rw [hqueue, hsame]
        exact htimely.le
      · rw [hqueue, hsame, hcut]
        exact htimely.cut
    · cases hput
    · cases hput
      exact h.setEmit hrest
    · cases hput
      exact h.setEmit hrest
  · cases hput
    exact h.setEmit hrest

/-- A worker keeps the cuts while no flush comes between two of its looks. -/
theorem work (h : s.Cuts) (hemit : s.emits e = some emit) (hprompt : s.promptWork emit = true)
    (hwork : s.work e emit = some s') : s'.Cuts := by
  have hstage := h.emits e emit hemit
  unfold FanOut.work at hwork
  unfold promptWork at hprompt
  split at hwork
  · rename_i heq
    cases hwork
    rw [heq] at hprompt
    have hread : s.generation = emit.chunk.born := of_decide_eq_true hprompt
    exact h.setEmit hread
  · rename_i generation heq
    cases hwork
    rw [heq] at hstage
    exact h.setEmit ⟨hstage, h.registered⟩
  · rename_i generation conn rest heq
    rw [heq] at hstage
    obtain ⟨hborn, hrest⟩ := hstage
    have hrest' : ∀ k ∈ rest, k < s.opened := fun k hk => hrest k (List.mem_cons_of_mem _ hk)
    split_ifs at hwork with hgeneration hc
    · cases hwork
      exact h.setEmit trivial
    · cases hwork
      refine h.setEmit ⟨⟨hborn, hrest'⟩, hrest conn List.mem_cons_self, hc, Nat.le_refl _, ?_⟩
      -- No flush has begun since the emit did, so none has reached the pacer.
      intro _
      rw [← hborn, ← not_not.mp hgeneration]
      exact h.cut conn
    · cases hwork
      exact h.setEmit ⟨hborn, hrest'⟩
  · cases hwork
    exact h.setEmit trivial
  · rename_i generation conn epoch rest heq
    cases hwork
    rw [heq] at hstage hprompt
    obtain ⟨hrest, htimely⟩ := hstage
    refine h.setEmit ⟨hrest, htimely.opened, htimely.carriesMedia, Nat.le_refl _, fun _ => ?_⟩
    exact htimely.cut (of_decide_eq_true hprompt)
  · rename_i generation conn epoch index rest heq
    rw [heq] at hstage
    exact h.putNext hstage.1 hstage.2 hwork
  · cases hwork
    have hset : (s.setEmit e { emit with stage := .done }).Cuts := h.setEmit trivial
    exact ⟨hset.registered, hset.unopened, hset.fresh, hset.cut, fun e emit hemit =>
      (hset.emits e emit hemit).of_eq (fun _ _ => rfl) (Nat.le_refl _),
      fun stage hstage => (hset.flushing stage hstage).of_eq rfl rfl rfl, hset.returned, hset.le,
      hset.handed⟩
  · cases hwork

/-- A flush reaches one connection after the other, and returns once it has reached all. -/
theorem flushNext (h : s.Cuts) (hprompt : s.prompt .flushes = true)
    (hflush : s.flushNext = some s') : s'.Cuts := by
  unfold FanOut.flushNext at hflush
  unfold prompt at hprompt
  split at hflush
  · rename_i hold heq
    cases hflush
    rw [heq] at hprompt
    refine h.of_eq rfl rfl rfl rfl (Nat.le_refl _) (fun _ => id) ?_ h.returned h.le
    rintro stage ⟨⟩
    refine ⟨h.registered, fun conn => ?_⟩
    by_cases hconn : conn < s.opened
    · -- One that is not registered any more has nothing left.
      have hall := List.all_eq_true.mp hprompt conn (List.mem_range.mpr hconn)
      rcases Bool.or_eq_true_iff.mp hall with hmem | hover
      · exact .inl (of_decide_eq_true hmem)
      · exact .inr (.inr hover)
    · exact .inr (.inr (h.unopened conn (not_lt.mp hconn)))
  · rename_i hold conn rest heq
    cases hflush
    rw [heq] at hprompt
    have hdispatching : (s.conns conn).dispatching = false := by simpa using hprompt
    have hwalks := h.flushing _ heq
    have hfresh : ((s.conns conn).flushPacer hold s.generation).Fresh :=
      (h.fresh conn).flushPacer (h.cut conn) hdispatching
    have hset := h.setConn hfresh MediaConnection.cut_flushPacer_le
      (MediaConnection.follows_flushPacer (h.cut conn))
    have hwalking := hset.flushing _ heq
    refine hset.of_eq rfl rfl rfl rfl (Nat.le_refl _) (fun _ => id) ?_ hset.returned hset.le
    rintro stage ⟨⟩
    refine ⟨hwalks.1, fun hc => ?_, hwalking.2⟩
    have hself : (s.setConn conn ((s.conns conn).flushPacer hold s.generation)).conns conn =
        (s.conns conn).flushPacer hold s.generation := Function.update_self ..
    dsimp only at hc ⊢
    rw [hself] at hc ⊢
    rw [MediaConnection.carriesMedia_flushPacer] at hc
    rw [MediaConnection.pacerQueue_flushPacer hc]
    exact Nat.le_refl _
  · rename_i hold heq
    cases hflush
    obtain ⟨-, hreached⟩ := h.flushing _ heq
    refine h.of_eq rfl rfl rfl rfl (Nat.le_refl _) (fun _ => id) ?_ (fun conn => ?_) (Nat.le_refl _)
    · rintro stage ⟨⟩
    · exact (hreached conn).resolve_left List.not_mem_nil
  · rename_i hold conn rest heq
    cases hflush
    obtain ⟨hopened, hcut, hreached⟩ := h.flushing _ heq
    have hle : (s.conns conn).wireCut ≤ s.generation := (h.fresh conn).wireCut_le.trans (h.cut conn)
    have hset := h.setConn ((h.fresh conn).flushWire hcut)
      ((congrArg PacerQueue.cut MediaConnection.pacerQueue_flushWire).trans_le (h.cut conn))
      (MediaConnection.follows_flushWire hle)
    have hwalking := (hset.flushing _ heq).2.2
    refine hset.of_eq rfl rfl rfl rfl (Nat.le_refl _) (fun _ => id) ?_ hset.returned hset.le
    rintro stage ⟨⟩
    refine ⟨fun k hk => hopened k (List.mem_cons_of_mem _ hk), fun k => ?_⟩
    rcases hwalking k with hk | hk
    · rcases List.mem_cons.mp hk with rfl | hk
      · refine .inr ?_
        have hself : (s.setConn k ((s.conns k).flushWire s.generation)).conns k =
            (s.conns k).flushWire s.generation := Function.update_self ..
        unfold Reached
        dsimp only
        rw [hself]
        by_cases hc : (s.conns k).carriesMedia = true
        · exact .inl (MediaConnection.wireCut_flushWire hc).ge
        · exact .inr (MediaConnection.spent_flushWire (MediaConnection.spent_of_data hc))
      · exact .inl hk
    · exact .inr hk
  · cases hflush

/-- The threads of a connection hand its wire what was emitted after the last flush that has
returned. -/
theorem act (h : s.Cuts) {conn : ℕ} {action : MediaAction}
    (hprompt : s.prompt (.act conn action) = true) (hact : s.act conn action = some s') :
    s'.Cuts := by
  obtain ⟨⟨out, c⟩, hacts, rfl⟩ := Option.map_eq_some_iff.mp hact
  obtain ⟨hfresh, hsame⟩ := (h.fresh conn).act hacts
  have hover : (s.conns conn).spent = true → c.spent = true := fun hover =>
    (MediaConnection.spent_act hover hacts).1
  have hset := h.setConn hfresh (hsame.cut.trans_le (h.cut conn)) (hsame.follows hover)
  refine ⟨hset.registered, hset.unopened, hset.fresh, hset.cut, fun e emit hemit =>
    (hset.emits e emit hemit).of_eq (fun _ _ => rfl) (Nat.le_refl _), fun stage hstage =>
    (hset.flushing stage hstage).of_eq rfl rfl rfl, hset.returned, hset.le, ?_⟩
  intro handed hhanded
  rcases List.mem_append.mp hhanded with hhanded | hhanded
  · exact h.handed handed hhanded
  obtain ⟨frame, hframe, rfl⟩ := List.mem_map.mp hhanded
  have hout : frame ∈ out := Option.mem_toList.mp hframe
  rcases h.returned conn with hreached | hreached
  · refine hreached.trans ((h.fresh conn).handed hacts ?_ frame hout)
    rintro ⟨last, rfl⟩
    simpa [prompt] using hprompt
  · obtain rfl := (MediaConnection.spent_act hreached hacts).2
    cases hout

/-- Every step keeps the cuts while the looks stay together. -/
theorem next (h : s.Cuts) {l : Label} (hprompt : s.prompt l = true) (hnext : s.next l = some s') :
    s'.Cuts := by
  cases l with
  | register id kind =>
    cases hnext
    exact h.register
  | drop id =>
    cases hnext
    refine h.of_eq rfl rfl rfl rfl (Nat.le_refl _) (fun conn hconn => ?_) (fun stage hstage =>
      (h.flushing stage hstage).of_eq rfl rfl rfl) h.returned h.le
    obtain ⟨entry, hentry, rfl⟩ := List.mem_map.mp hconn
    exact List.mem_map_of_mem (List.mem_of_mem_filter hentry)
  | closeAll =>
    cases hnext
    exact h.of_eq rfl rfl rfl rfl (Nat.le_refl _) (fun _ hconn => absurd hconn List.not_mem_nil)
      (fun stage hstage => (h.flushing stage hstage).of_eq rfl rfl rfl) h.returned h.le
  | emit nFrames wait video audio metadata =>
    simp only [FanOut.next] at hnext
    split_ifs at hnext
    cases hnext
    have hbegun : EmitStage.Timely s s.generation .begun := trivial
    have hset : (s.setEmit s.emitted { chunk :=
      { emit := s.emitted, born := s.generation, nFrames, wait, video, audio, metadata } }).Cuts :=
      h.setEmit hbegun
    exact ⟨hset.registered, hset.unopened, hset.fresh, hset.cut, fun e emit hemit =>
      (hset.emits e emit hemit).of_eq (fun _ _ => rfl) (Nat.le_refl _), fun stage hstage =>
      (hset.flushing stage hstage).of_eq rfl rfl rfl, hset.returned, hset.le, hset.handed⟩
  | work e =>
    obtain ⟨emit, hemit, hwork⟩ := Option.bind_eq_some_iff.mp hnext
    refine h.work hemit ?_ hwork
    simpa [prompt, hemit] using hprompt
  | flush hold =>
    simp only [FanOut.next] at hnext
    split_ifs at hnext
    cases hnext
    refine h.of_eq rfl rfl rfl rfl (Nat.le_succ _) (fun _ => id) ?_ h.returned
      (h.le.trans (Nat.le_succ _))
    rintro stage ⟨⟩
    trivial
  | flushes => exact h.flushNext hprompt hnext
  | act conn action => exact h.act hprompt hnext

end Cuts

/-! ### Whom a chunk is offered to -/

def EmitStage.toCome : EmitStage → List ℕ
  | .fanning _ rest => rest
  | .offering _ conn _ rest => conn :: rest
  | .putting _ _ _ _ rest => rest
  | _ => []

def EmitStage.Current (s : FanOut) : EmitStage → Prop
  | .read generation | .fanning generation _ | .offering generation _ _ _ =>
    generation = s.generation
  | .putting generation conn epoch _ _ => generation = s.generation ∧ conn < s.opened ∧
      (s.conns conn).pacerQueue.epoch = epoch
  | _ => True

/-- An emit that no flush has come after goes to every connection that the fan-out began with. -/
structure Whole (s : FanOut) (emit : Emit) : Prop where
  abandoned : emit.abandoned = false
  current : EmitStage.Current s emit.stage
  offered : ∀ conn ∈ emit.snapshot, (s.conns conn).carriesMedia = true →
    conn ∈ emit.offered ∨ conn ∈ EmitStage.toCome emit.stage

structure Sound (s : FanOut) (e : ℕ) (emit : Emit) : Prop where
  emitted : e < s.emitted
  snapshot : ∀ conn ∈ emit.snapshot, conn < s.opened
  toCome : ∀ conn ∈ EmitStage.toCome emit.stage, conn < s.opened
  born : emit.chunk.born ≤ s.generation
  flushing : s.flushing.isSome = true → emit.chunk.born < s.generation
  whole : emit.chunk.born = s.generation → s.Whole emit

structure Fans (s : FanOut) : Prop where
  registered : ∀ conn ∈ s.registered, conn < s.opened
  emits : ∀ e emit, s.emits e = some emit → s.Sound e emit
  recorded : ∀ e, s.recorded.count e = if (s.emits e).any (·.stage = .done) then 1 else 0

theorem Whole.of_eq {t : FanOut} (h : s.Whole emit) (hsnapshot : ∀ conn ∈ emit.snapshot,
      conn < s.opened) (hopened : s.opened ≤ t.opened) (hgeneration : t.generation = s.generation)
    (hconns : ∀ conn < s.opened, (t.conns conn).carriesMedia = (s.conns conn).carriesMedia ∧
      (t.conns conn).pacerQueue.epoch = (s.conns conn).pacerQueue.epoch) : t.Whole emit where
  abandoned := h.abandoned
  current := by
    have hcurrent := h.current
    revert hcurrent
    cases emit.stage with
    | putting generation conn epoch index rest =>
      rintro ⟨hread, hconn, hepoch⟩
      exact ⟨hread.trans hgeneration.symm, hconn.trans_le hopened,
        (hconns conn hconn).2.trans hepoch⟩
    | begun => exact id
    | recording => exact id
    | done => exact id
    | _ => exact fun hread => hread.trans hgeneration.symm
  offered conn hconn hc := h.offered conn hconn ((hconns conn (hsnapshot conn hconn)).1 ▸ hc)

/-- A step that no emit is part of: a flush may begin, or go on. -/
theorem Sound.of_eq {t : FanOut} (h : s.Sound e emit) (hemitted : t.emitted = s.emitted)
    (hopened : s.opened ≤ t.opened) (hgeneration : s.generation ≤ t.generation)
    (hflushing : t.flushing.isSome = true → s.flushing.isSome = true ∨ s.generation < t.generation)
    (hconns : s.flushing.isSome = true ∨ ∀ conn < s.opened,
      (t.conns conn).carriesMedia = (s.conns conn).carriesMedia ∧
        (t.conns conn).pacerQueue.epoch = (s.conns conn).pacerQueue.epoch) : t.Sound e emit where
  emitted := hemitted ▸ h.emitted
  snapshot conn hconn := (h.snapshot conn hconn).trans_le hopened
  toCome conn hconn := (h.toCome conn hconn).trans_le hopened
  born := h.born.trans hgeneration
  flushing hsome := by
    rcases hflushing hsome with hs | hlt
    · exact (h.flushing hs).trans_le hgeneration
    · exact h.born.trans_lt hlt
  whole heq := by
    have hsame : s.generation = t.generation := le_antisymm hgeneration (heq ▸ h.born)
    rcases hconns with hs | hconns
    · exact absurd (h.flushing hs) (by omega)
    · exact (h.whole (heq.trans hsame.symm)).of_eq h.snapshot hopened hsame.symm hconns

namespace Fans

theorem init : Fans ({} : FanOut) where
  registered _ h := absurd h List.not_mem_nil
  emits := by rintro e emit ⟨⟩
  recorded _ := rfl

theorem of_eq {t : FanOut} (h : s.Fans) (hemits : t.emits = s.emits)
    (hemitted : t.emitted = s.emitted) (hrecorded : t.recorded = s.recorded)
    (hregistered : ∀ conn ∈ t.registered, conn < t.opened) (hopened : s.opened ≤ t.opened)
    (hgeneration : s.generation ≤ t.generation)
    (hflushing : t.flushing.isSome = true → s.flushing.isSome = true ∨ s.generation < t.generation)
    (hconns : s.flushing.isSome = true ∨ ∀ conn < s.opened,
      (t.conns conn).carriesMedia = (s.conns conn).carriesMedia ∧
        (t.conns conn).pacerQueue.epoch = (s.conns conn).pacerQueue.epoch) : t.Fans where
  registered := hregistered
  emits e emit hemit :=
    (h.emits e emit (hemits ▸ hemit)).of_eq hemitted hopened hgeneration hflushing hconns
  recorded e := by
    rw [hrecorded, hemits]
    exact h.recorded e

/-- A worker goes on, and is not through yet. -/
theorem setEmit (h : s.Fans) {emit' : Emit} (hemit : s.emits e = some emit)
    (hdone : emit.stage ≠ .done) (hdone' : emit'.stage ≠ .done)
    (hsound : s.Sound e emit') : (s.setEmit e emit').Fans where
  registered := h.registered
  emits k emit'' hk := by
    have hsame : s.Sound k emit'' := by
      by_cases heq : k = e
      · subst heq
        have hself : (s.setEmit k emit').emits k = some emit' := Function.update_self ..
        obtain rfl : emit' = emit'' := Option.some.inj (hself.symm.trans hk)
        exact hsound
      · exact h.emits k emit'' ((Function.update_of_ne heq ..).symm.trans hk)
    exact hsame.of_eq rfl (Nat.le_refl _) (Nat.le_refl _) .inl (.inr fun _ _ => ⟨rfl, rfl⟩)
  recorded k := by
    refine (h.recorded k).trans ?_
    by_cases heq : k = e
    · subst heq
      have hself : (s.setEmit k emit').emits k = some emit' := Function.update_self ..
      rw [hself, hemit]
      simp [hdone, hdone']
    · have hne : (s.setEmit e emit').emits k = s.emits k := Function.update_of_ne heq ..
      rw [hne]

theorem setConn (h : s.Fans) {conn : ℕ} {c : MediaConnection}
    (hc : c.carriesMedia = (s.conns conn).carriesMedia ∧
      c.pacerQueue.epoch = (s.conns conn).pacerQueue.epoch) : (s.setConn conn c).Fans := by
  refine h.of_eq rfl rfl rfl h.registered (Nat.le_refl _) (Nat.le_refl _) .inl (.inr ?_)
  intro k _
  by_cases heq : k = conn
  · subst heq
    have hself : (s.setConn k c).conns k = c := Function.update_self ..
    rw [hself]
    exact hc
  · have hne : (s.setConn conn c).conns k = s.conns k := Function.update_of_ne heq ..
    rw [hne]
    exact ⟨rfl, rfl⟩

theorem putNext (h : s.Fans) (hemit : s.emits e = some emit) {generation conn epoch index : ℕ}
    {rest : List ℕ} (hstage : emit.stage = .putting generation conn epoch index rest)
    (hput : s.putNext e emit generation conn epoch index rest = some s') : s'.Fans := by
  have hsound := h.emits e emit hemit
  have hdone : emit.stage ≠ .done := by
    rw [hstage]
    rintro ⟨⟩
  -- What the worker has read, while no flush has begun since its emit did.
  have hcurrent : emit.chunk.born = s.generation → generation = s.generation ∧
      conn < s.opened ∧ (s.conns conn).pacerQueue.epoch = epoch := by
    intro hborn
    have hread := (hsound.whole hborn).current
    rwa [hstage] at hread
  have hover : ∀ abandoned, (emit.chunk.born = s.generation → abandoned = false) →
      s.Sound e { emit with stage := .fanning generation rest, abandoned } := by
    intro abandoned habandoned
    refine ⟨hsound.emitted, hsound.snapshot, ?_, hsound.born, hsound.flushing, fun hborn => ?_⟩
    · have htoCome := hsound.toCome
      rwa [hstage] at htoCome
    · refine ⟨habandoned hborn, (hcurrent hborn).1, ?_⟩
      have hoffered := (hsound.whole hborn).offered
      rwa [hstage] at hoffered
  unfold FanOut.putNext at hput
  dsimp only at hput
  split at hput
  · split at hput
    · rename_i q hq
      cases hput
      have hq' : q.epoch = (s.conns conn).pacerQueue.epoch := by
        unfold PacerQueue.put at hq
        split_ifs at hq
        obtain rfl := Put.queued.inj hq
        rfl
      have hset : ((s.conns conn).setQueue q).carriesMedia = (s.conns conn).carriesMedia ∧
          ((s.conns conn).setQueue q).pacerQueue.epoch = (s.conns conn).pacerQueue.epoch := by
        refine ⟨MediaConnection.carriesMedia_setQueue, ?_⟩
        by_cases hc : (s.conns conn).carriesMedia = true
        · rwa [MediaConnection.pacerQueue_setQueue hc]
        · cases hconn : s.conns conn with
          | data => rfl
          | _ => exact absurd (by rw [hconn]; rfl) hc
      have hfans := h.setConn hset
      have hsound' := hfans.emits e emit hemit
      have hemit' : (s.setConn conn ((s.conns conn).setQueue q)).emits e = some emit := hemit
      refine hfans.setEmit hemit' hdone (by rintro ⟨⟩) ⟨hsound'.emitted,
        hsound'.snapshot, ?_, hsound'.born, hsound'.flushing, fun hborn => ?_⟩
      · have htoCome := hsound'.toCome
        rwa [hstage] at htoCome
      · have hwhole := hsound'.whole hborn
        refine ⟨hwhole.abandoned, ?_, ?_⟩
        · have hcurrent := hwhole.current
          rwa [hstage] at hcurrent
        · have hoffered := hwhole.offered
          rwa [hstage] at hoffered
    · cases hput
    · cases hput
      exact h.setEmit hemit hdone (by rintro ⟨⟩)
        (hover _ fun hborn => (hsound.whole hborn).abandoned)
    · cases hput
      refine h.setEmit hemit hdone (by rintro ⟨⟩) (hover _ fun hborn => ?_)
      rw [(hsound.whole hborn).abandoned, (hcurrent hborn).2.2]
      simp
  · cases hput
    exact h.setEmit hemit hdone (by rintro ⟨⟩) (hover _ fun hborn => (hsound.whole hborn).abandoned)

/-- A worker goes on with the connections it has begun with, unless a flush has begun since its
emit did. -/
theorem work (h : s.Fans) (hemit : s.emits e = some emit) (hwork : s.work e emit = some s') :
    s'.Fans := by
  have hsound := h.emits e emit hemit
  unfold FanOut.work at hwork
  split at hwork
  · rename_i hstage
    cases hwork
    refine h.setEmit hemit (by simp [hstage]) (by rintro ⟨⟩) ⟨hsound.emitted, hsound.snapshot,
      fun _ hconn => absurd hconn List.not_mem_nil, hsound.born, hsound.flushing, fun hborn => ?_⟩
    have hwhole := hsound.whole hborn
    have hoffered := hwhole.offered
    rw [hstage] at hoffered
    exact ⟨hwhole.abandoned, rfl, hoffered⟩
  · rename_i generation hstage
    cases hwork
    refine h.setEmit hemit (by simp [hstage]) (by rintro ⟨⟩) ⟨hsound.emitted, h.registered,
      h.registered, hsound.born, hsound.flushing, fun hborn => ?_⟩
    have hwhole := hsound.whole hborn
    have hcurrent := hwhole.current
    rw [hstage] at hcurrent
    exact ⟨hwhole.abandoned, hcurrent, fun conn hconn _ => .inr hconn⟩
  · rename_i generation conn rest hstage
    have htoCome := hsound.toCome
    rw [hstage] at htoCome
    have hrest : ∀ k ∈ rest, k < s.opened := fun k hk => htoCome k (List.mem_cons_of_mem _ hk)
    have hcurrent : emit.chunk.born = s.generation → generation = s.generation := by
      intro hborn
      have hread := (hsound.whole hborn).current
      rwa [hstage] at hread
    split_ifs at hwork with hgeneration hc
    · cases hwork
      refine h.setEmit hemit (by simp [hstage]) (by rintro ⟨⟩) ⟨hsound.emitted, hsound.snapshot,
        fun _ hconn => absurd hconn List.not_mem_nil, hsound.born, hsound.flushing, fun hborn => ?_⟩
      exact absurd (hcurrent hborn).symm hgeneration
    · cases hwork
      refine h.setEmit hemit (by simp [hstage]) (by rintro ⟨⟩) ⟨hsound.emitted, hsound.snapshot,
        htoCome, hsound.born, hsound.flushing, fun hborn => ?_⟩
      have hwhole := hsound.whole hborn
      have hoffered := hwhole.offered
      rw [hstage] at hoffered
      exact ⟨hwhole.abandoned, hcurrent hborn, hoffered⟩
    · cases hwork
      refine h.setEmit hemit (by simp [hstage]) (by rintro ⟨⟩) ⟨hsound.emitted, hsound.snapshot,
        hrest, hsound.born, hsound.flushing, fun hborn => ?_⟩
      have hwhole := hsound.whole hborn
      have hoffered := hwhole.offered
      rw [hstage] at hoffered
      refine ⟨hwhole.abandoned, hcurrent hborn, fun k hk hcarries => ?_⟩
      rcases hoffered k hk hcarries with hk | hk
      · exact .inl hk
      · rcases List.mem_cons.mp hk with rfl | hk
        · exact absurd hcarries hc
        · exact .inr hk
  · rename_i generation hstage
    cases hwork
    refine h.setEmit hemit (by simp [hstage]) (by rintro ⟨⟩) ⟨hsound.emitted, hsound.snapshot,
      fun _ hconn => absurd hconn List.not_mem_nil, hsound.born, hsound.flushing, fun hborn => ?_⟩
    have hwhole := hsound.whole hborn
    have hoffered := hwhole.offered
    rw [hstage] at hoffered
    exact ⟨hwhole.abandoned, trivial, hoffered⟩
  · rename_i generation conn epoch rest hstage
    cases hwork
    have htoCome := hsound.toCome
    rw [hstage] at htoCome
    refine h.setEmit hemit (by simp [hstage]) (by rintro ⟨⟩) ⟨hsound.emitted, hsound.snapshot,
      fun k hk => htoCome k (List.mem_cons_of_mem _ hk), hsound.born, hsound.flushing,
      fun hborn => ?_⟩
    have hwhole := hsound.whole hborn
    have hcurrent := hwhole.current
    have hoffered := hwhole.offered
    rw [hstage] at hcurrent hoffered
    refine ⟨hwhole.abandoned, ⟨hcurrent, htoCome conn List.mem_cons_self, rfl⟩,
      fun k hk hcarries => ?_⟩
    rcases hoffered k hk hcarries with hk | hk
    · exact .inl (List.mem_append_left _ hk)
    · rcases List.mem_cons.mp hk with rfl | hk
      · exact .inl (List.mem_append_right _ List.mem_cons_self)
      · exact .inr hk
  · rename_i generation conn epoch index rest hstage
    exact h.putNext hemit hstage hwork
  · rename_i hstage
    cases hwork
    refine ⟨h.registered, fun k emit' hk => ?_, fun k => ?_⟩
    · by_cases heq : k = e
      · subst heq
        have hself : (s.setEmit k { emit with stage := .done }).emits k =
            some { emit with stage := .done } := Function.update_self ..
        obtain rfl := Option.some.inj (hself.symm.trans hk)
        refine ⟨hsound.emitted, hsound.snapshot, fun _ hconn => absurd hconn List.not_mem_nil,
          hsound.born, hsound.flushing, fun hborn => ?_⟩
        have hwhole := hsound.whole hborn
        have hoffered := hwhole.offered
        rw [hstage] at hoffered
        exact ⟨hwhole.abandoned, trivial, hoffered⟩
      · have hold := h.emits k emit' ((Function.update_of_ne heq ..).symm.trans hk)
        exact hold.of_eq rfl (Nat.le_refl _) (Nat.le_refl _) .inl (.inr fun _ _ => ⟨rfl, rfl⟩)
    · by_cases heq : k = e
      · subst heq
        have hself : (s.setEmit k { emit with stage := .done }).emits k =
            some { emit with stage := .done } := Function.update_self ..
        have hnone : s.recorded.count k = 0 := by
          rw [h.recorded k, hemit]
          simp [hstage]
        dsimp only
        rw [hself, List.count_append, hnone]
        simp
      · have hne : (s.setEmit e { emit with stage := .done }).emits k = s.emits k :=
          Function.update_of_ne heq ..
        dsimp only
        rw [hne, List.count_append, h.recorded k, List.count_singleton]
        simp [Ne.symm heq]
  · cases hwork

/-- What any step leaves of the emits. -/
theorem next (h : s.Fans) {l : Label} (hnext : s.next l = some s') : s'.Fans := by
  cases l with
  | register id kind =>
    cases hnext
    have hopened : s.opened ≤ (s.register id kind).opened := Nat.le_succ _
    refine h.of_eq rfl rfl rfl (fun conn hconn => ?_) hopened (Nat.le_refl _) .inl
      (.inr fun conn hconn => ?_)
    · rcases Cuts.registered_register hconn with hconn | rfl
      · exact (h.registered conn hconn).trans (Nat.lt_succ_self _)
      · exact Nat.lt_succ_self _
    · have hne : (s.register id kind).conns conn = s.conns conn :=
        Function.update_of_ne hconn.ne ..
      rw [hne]
      exact ⟨rfl, rfl⟩
  | drop id =>
    cases hnext
    refine h.of_eq rfl rfl rfl (fun conn hconn => ?_) (Nat.le_refl _) (Nat.le_refl _) .inl
      (.inr fun _ _ => ⟨rfl, rfl⟩)
    obtain ⟨entry, hentry, rfl⟩ := List.mem_map.mp hconn
    exact h.registered _ (List.mem_map_of_mem (List.mem_of_mem_filter hentry))
  | closeAll =>
    cases hnext
    exact h.of_eq rfl rfl rfl (fun _ hconn => absurd hconn List.not_mem_nil) (Nat.le_refl _)
      (Nat.le_refl _) .inl (.inr fun _ _ => ⟨rfl, rfl⟩)
  | emit nFrames wait video audio metadata =>
    simp only [FanOut.next] at hnext
    split_ifs at hnext with hflushing
    cases hnext
    refine ⟨h.registered, fun k emit hk => ?_, fun k => ?_⟩
    · by_cases heq : k = s.emitted
      · subst heq
        have hself := (Function.update_self ..).symm.trans hk
        cases hself
        exact ⟨Nat.lt_succ_self _, fun _ hconn => absurd hconn List.not_mem_nil,
          fun _ hconn => absurd hconn List.not_mem_nil, Nat.le_refl _,
          fun hsome => absurd hsome hflushing,
          fun _ => ⟨rfl, trivial, fun _ hconn => absurd hconn List.not_mem_nil⟩⟩
      · have hold := h.emits k emit ((Function.update_of_ne heq ..).symm.trans hk)
        exact ⟨hold.emitted.trans (Nat.lt_succ_self _), hold.snapshot, hold.toCome, hold.born,
          hold.flushing, fun hborn => (hold.whole hborn).of_eq hold.snapshot (Nat.le_refl _) rfl
            fun _ _ => ⟨rfl, rfl⟩⟩
    · by_cases heq : k = s.emitted
      · subst heq
        have hnone : s.emits s.emitted = none := by
          cases hemit : s.emits s.emitted with
          | none => rfl
          | some emit => exact absurd (h.emits _ emit hemit).emitted (lt_irrefl _)
        have hrecorded := h.recorded s.emitted
        rw [hnone] at hrecorded
        simpa [FanOut.setEmit] using hrecorded
      · simpa [FanOut.setEmit, Function.update_of_ne heq] using h.recorded k
  | work e =>
    obtain ⟨emit, hemit, hwork⟩ := Option.bind_eq_some_iff.mp hnext
    exact h.work hemit hwork
  | flush hold =>
    simp only [FanOut.next] at hnext
    split_ifs at hnext
    cases hnext
    exact h.of_eq rfl rfl rfl h.registered (Nat.le_refl _) (Nat.le_succ _)
      (fun _ => .inr (Nat.lt_succ_self _)) (.inr fun _ _ => ⟨rfl, rfl⟩)
  | flushes =>
    have hflush : s.flushNext = some s' := hnext
    unfold FanOut.flushNext at hflush
    split at hflush
    case h_5 => cases hflush
    all_goals
      rename_i heq
      cases hflush
      have hsome : s.flushing.isSome = true := by rw [heq]; rfl
      exact h.of_eq rfl rfl rfl h.registered (Nat.le_refl _) (Nat.le_refl _) (fun _ => .inl hsome)
        (.inl hsome)
  | act conn action =>
    obtain ⟨⟨out, c⟩, hacts, rfl⟩ := Option.map_eq_some_iff.mp hnext
    exact (h.setConn (MediaConnection.act_epoch hacts)).of_eq rfl rfl rfl h.registered
      (Nat.le_refl _) (Nat.le_refl _) .inl (.inr fun _ _ => ⟨rfl, rfl⟩)

end Fans

/-! ### Runs -/

theorem work_isSome_or_waits (emit : Emit) (hdone : emit.stage ≠ .done) :
    (s.work e emit).isSome = true ∨ ∃ generation conn epoch index rest,
      emit.stage = .putting generation conn epoch index rest ∧
        (s.conns conn).pacerQueue.put epoch (emit.frame index) = .waits := by
  unfold work
  split
  · exact .inl rfl
  · exact .inl rfl
  · split_ifs <;> exact .inl rfl
  · exact .inl rfl
  · exact .inl rfl
  · rename_i generation conn epoch index rest hstage
    unfold putNext
    dsimp only
    split
    · split
      · exact .inl rfl
      · rename_i hwaits
        exact .inr ⟨generation, conn, epoch, index, rest, hstage, hwaits⟩
      · exact .inl rfl
      · exact .inl rfl
    · exact .inl rfl
  · exact .inl rfl
  · rename_i hstage
    exact absurd hstage hdone

/-- A model's flush cuts every connection, as long as the looks that are apart stay together.  At
any time a chunk whose emit began after the last flush goes to every connection that its fan-out
began with and whose wire carries media, and the recorder is handed each emitted chunk once, when
its worker, which goes on but for a wait for room in a pacer, is through with the connections. -/
theorem flush_cuts {ls : List Label} {s : FanOut} (hrun : fanOut.run ls = some s) :
    (fanOut.AllSteps (fun s l => s.prompt l) ls →
      ∀ h ∈ s.handed, h.returned ≤ h.frame.chunk.born) ∧
    ∀ e emit, s.emits e = some emit →
      (emit.chunk.born = s.generation → emit.abandoned = false ∧
        ((emit.stage = .recording ∨ emit.stage = .done) → ∀ conn ∈ emit.snapshot,
          (s.conns conn).carriesMedia = true → conn ∈ emit.offered)) ∧
      s.recorded.count e = (if emit.stage = .done then 1 else 0) ∧
      (emit.stage ≠ .done → (s.next (.work e)).isSome = true ∨
        ∃ generation conn epoch index rest, emit.stage = .putting generation conn epoch index rest ∧
          (s.conns conn).pacerQueue.put epoch (emit.frame index) = .waits) := by
  constructor
  · intro hprompt
    have hcuts : s.Cuts := hprompt.invariant (I := Cuts) Cuts.init
      (fun s l s' hs hl hnext => hs.next hl hnext) hrun
    exact hcuts.handed
  · intro e emit hemit
    have hfans : s.Fans := TransitionSystem.IsInvariant.of_run (I := Fans)
      ⟨Fans.init, fun s l s' hs hnext => hs.next hnext⟩ hrun
    refine ⟨fun hborn => ?_, ?_, fun hdone => ?_⟩
    · have hwhole := (hfans.emits e emit hemit).whole hborn
      refine ⟨hwhole.abandoned, fun hstage conn hconn hcarries => ?_⟩
      refine (hwhole.offered conn hconn hcarries).resolve_right ?_
      rcases hstage with hstage | hstage
      · rw [hstage]
        exact List.not_mem_nil
      · rw [hstage]
        exact List.not_mem_nil
    · rw [hfans.recorded e, hemit]
      simp
    · have hwork : s.next (.work e) = s.work e emit := by simp [FanOut.next, hemit]
      rw [hwork]
      exact work_isSome_or_waits emit hdone

/-- The steps of a worker that puts a chunk of one frame to one connection. -/
def fanOutRun (e : ℕ) : List Label := List.replicate 8 (.work e)

/-- A chunk plays out, the model flushes, and the chunk of the next emit plays out. -/
def promptRun : List Label :=
  [.register "a" (.webrtc 10), .emit 1 false true true false] ++ fanOutRun 0 ++
    [.act 0 .tick, .act 0 .drain, .act 0 .pushVideo, .flush false, .flushes, .flushes, .flushes,
      .flushes, .emit 1 false true false false] ++ fanOutRun 1 ++
    [.act 0 (.enqueueAudio 0), .act 0 .pushed, .act 0 .tick, .act 0 .drain, .act 0 .pushVideo]

theorem isSome_promptRun : (fanOut.run promptRun).isSome := rfl

theorem flush_cuts_promptRun :
    ((fanOut.run promptRun).get isSome_promptRun).handed.length = 2 ∧
      ∀ h ∈ ((fanOut.run promptRun).get isSome_promptRun).handed,
        h.returned ≤ h.frame.chunk.born := by
  have hprompt := (flush_cuts (Option.some_get isSome_promptRun).symm).1
  exact ⟨by decide +kernel, hprompt (by decide +kernel)⟩

/-- The worker of an emit starts once the flush after it has returned. -/
def lateRun : List Label :=
  [.register "a" (.webrtc 10), .emit 1 false true true false, .flush false, .flushes, .flushes,
    .flushes, .flushes] ++ fanOutRun 0 ++ [.act 0 .tick, .act 0 .drain, .act 0 .pushVideo]

/-- The flush comes between a worker's look at the generation and its look at the epoch. -/
def betweenRun : List Label :=
  [.register "a" (.webrtc 10), .emit 1 false true true false, .work 0, .work 0, .work 0,
    .flush false, .flushes, .flushes, .flushes, .flushes, .work 0, .work 0, .work 0, .work 0,
    .act 0 .tick, .act 0 .drain, .act 0 .pushVideo]

/-- The flush of a room's pacer comes between the two parts of a tick. -/
def inHandRun : List Label :=
  [.register "a" (.room 10), .emit 1 false true true false] ++ fanOutRun 0 ++ [.act 0 .tick,
    .flush false, .flushes, .flushes, .flushes, .flushes, .act 0 .dispatch]

/-- The room takes sound that the event loop is still to clear. -/
def soundRun : List Label :=
  [.register "a" (.room 10), .emit 1 false true true false] ++ fanOutRun 0 ++ [.act 0 .tick,
    .act 0 .dispatch, .act 0 .call, .flush false, .flushes, .flushes, .flushes, .flushes,
    .act 0 (.pushAudioFrame true)]

/-- A connection that was taken off the registry plays on until it is stopped. -/
def closingRun : List Label :=
  [.register "a" (.webrtc 10), .emit 1 false true true false] ++ fanOutRun 0 ++ [.closeAll,
    .flush false, .flushes, .flushes, .act 0 .tick, .act 0 .drain, .act 0 .pushVideo]

/-- In the run a flush has returned, and a wire is handed a frame of a chunk that was emitted
before it. -/
def PlaysLate (ls : List Label) : Prop :=
  ∃ s, fanOut.run ls = some s ∧ ∃ h ∈ s.handed, ¬h.returned ≤ h.frame.chunk.born

theorem playsLate_of_mem {ls : List Label}
    (hls : ls ∈ [lateRun, betweenRun, inHandRun, soundRun, closingRun]) : PlaysLate ls := by
  have hany : ((fanOut.run ls).any fun s =>
      s.handed.any fun h => !decide (h.returned ≤ h.frame.chunk.born)) = true := by
    revert ls
    decide +kernel
  obtain ⟨s, hs, hhanded⟩ := (Option.any_eq_true _ _).mp hany
  obtain ⟨h, hmem, hlate⟩ := List.any_eq_true.mp hhanded
  exact ⟨s, hs, h, hmem, by simpa using hlate⟩

theorem not_flush_cuts : PlaysLate lateRun ∧ PlaysLate betweenRun ∧ PlaysLate inHandRun ∧
    PlaysLate soundRun ∧ PlaysLate closingRun := by
  refine ⟨?_, ?_, ?_, ?_, ?_⟩
  all_goals
    apply playsLate_of_mem
    simp

end FanOut

end ReactorRuntime.Runtime
