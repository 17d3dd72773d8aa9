import ReactorRuntime.ModelServer.Equiv.Stopping

/-!
# The model sees its sessions bracketed

For each slot, the calls of `session_opened()` and `session_closed()` are `Bracketed`, and the
generation that is open in the model is `openGeneration`: the one of the connection that holds the
slot, but for the frames in which the thread that calls into the model is between the call and the
registry.

* `Bracketed.bracketing`: what `Bracketed` means for the list of calls.
* `sessions_bracketed`: it holds of the calls of every run, and once `stop` has returned no session
  is left open in the model.
-/

namespace ReactorRuntime.ModelServer

variable {Payload Output : Type*}

/-! ### What bracketing means -/

/-- The generation `session_opened()` was called for, whether it raised or not. -/
def HookCall.tried? : HookCall → Option ℕ
  | opened _ generation => some generation
  | refused _ generation => some generation
  | closed _ _ => none

/-- What the model may rely on about the calls for one slot. -/
structure Bracketing (slot : ℕ) (log : List HookCall) : Prop where
  /-- Each call of `session_opened()` is for a higher generation than the ones before. -/
  increasing : (log.filterMap HookCall.tried?).Pairwise (· < ·)
  /-- The next call after a `session_opened()` that returned closes that generation. -/
  closedNext : ∀ before generation after, log = before ++ .opened slot generation :: after →
    after = [] ∨ ∃ rest, after = .closed slot generation :: rest
  /-- A generation is closed at most once, and only after its `session_opened()` returned. -/
  closedOnce : ∀ generation, log.count (.closed slot generation) ≤
    log.count (.opened slot generation)
  openedOnce : ∀ generation, log.count (.opened slot generation) ≤ 1
  /-- A generation the model refused is never closed. -/
  refused : ∀ generation, .refused slot generation ∈ log → .closed slot generation ∉ log

namespace Bracketed

variable {slot : ℕ} {log : List HookCall} {last : ℕ} {openGeneration : Option ℕ}

theorem tried_le (h : Bracketed slot log last openGeneration) :
    ∀ generation ∈ log.filterMap HookCall.tried?, generation ≤ last := by
  induction h with
  | nil => simp
  | opened before grows ih =>
    simp only [List.filterMap_append, List.mem_append]
    rintro g (hg | hg)
    · exact (ih g hg).trans grows.le
    · simp_all [HookCall.tried?]
  | refused before grows ih =>
    simp only [List.filterMap_append, List.mem_append]
    rintro g (hg | hg)
    · exact (ih g hg).trans grows.le
    · simp_all [HookCall.tried?]
  | closed before ih => simpa [HookCall.tried?] using ih

theorem increasing (h : Bracketed slot log last openGeneration) :
    (log.filterMap HookCall.tried?).Pairwise (· < ·) := by
  induction h with
  | nil => simp
  | opened before grows ih =>
    rw [List.filterMap_append, List.pairwise_append]
    refine ⟨ih, by simp [HookCall.tried?], fun g hg g' hg' => ?_⟩
    obtain rfl := List.mem_singleton.mp hg'
    exact (before.tried_le g hg).trans_lt grows
  | refused before grows ih =>
    rw [List.filterMap_append, List.pairwise_append]
    refine ⟨ih, by simp [HookCall.tried?], fun g hg g' hg' => ?_⟩
    obtain rfl := List.mem_singleton.mp hg'
    exact (before.tried_le g hg).trans_lt grows
  | closed before ih => simpa [HookCall.tried?, List.filterMap_cons] using ih

theorem count_opened (h : Bracketed slot log last openGeneration) (generation : ℕ) :
    log.count (.opened slot generation) =
      log.count (.closed slot generation) + if openGeneration = some generation then 1 else 0 := by
  induction h with
  | nil => simp
  | opened before grows ih =>
    simp only [List.count_append, List.count_singleton, ih]
    simp
  | refused before grows ih => simpa [List.count_append, List.count_singleton] using ih
  | closed before ih =>
    simp only [List.count_append, List.count_singleton, ih]
    simp

theorem count_tried (h : Bracketed slot log last openGeneration) (generation : ℕ) :
    (log.filterMap HookCall.tried?).count generation =
      log.count (.opened slot generation) + log.count (.refused slot generation) := by
  induction h with
  | nil => simp
  | opened before grows ih =>
    simp [List.filterMap_append, List.count_append, List.count_singleton, HookCall.tried?, ih]
    omega
  | refused before grows ih =>
    simp [List.filterMap_append, List.count_append, List.count_singleton, HookCall.tried?, ih]
    omega
  | closed before ih =>
    simp [List.filterMap_append, List.count_append, HookCall.tried?, List.filterMap_cons, ih]

theorem open_of_concat {generation : ℕ}
    (h : Bracketed slot (log ++ [.opened slot generation]) last openGeneration) :
    openGeneration = some generation := by
  generalize hl : log ++ [HookCall.opened slot generation] = l at h
  cases h with
  | nil => simp at hl
  | opened before grows =>
    obtain ⟨-, hg⟩ := List.append_inj' hl rfl
    simp_all
  | refused before grows => simpa using (List.append_inj' hl rfl).2
  | closed before => simpa using (List.append_inj' hl rfl).2

theorem closedNext (h : Bracketed slot log last openGeneration) :
    ∀ before generation after, log = before ++ .opened slot generation :: after →
      after = [] ∨ ∃ rest, after = .closed slot generation :: rest := by
  -- what was called last is called after the open, unless it is the open itself
  have step {log : List HookCall} {last : ℕ} {openGeneration : Option ℕ} {call : HookCall}
      (h : Bracketed slot log last openGeneration)
      (hcall : ∀ generation, openGeneration = some generation → call = .closed slot generation)
      (ih : ∀ before generation after, log = before ++ .opened slot generation :: after →
        after = [] ∨ ∃ rest, after = .closed slot generation :: rest) (before : List HookCall)
      (generation : ℕ) (after : List HookCall)
      (hlog : log ++ [call] = before ++ .opened slot generation :: after) :
      after = [] ∨ ∃ rest, after = .closed slot generation :: rest := by
    obtain rfl | ⟨rest, call', rfl⟩ := after.eq_nil_or_concat'
    · exact .inl rfl
    · right
      rw [← List.cons_append, ← List.append_assoc] at hlog
      obtain ⟨hbefore, hcall'⟩ := List.append_inj' hlog rfl
      obtain rfl := List.singleton_inj.mp hcall'
      obtain rfl | ⟨rest, rfl⟩ := ih before generation rest hbefore
      · subst hbefore
        exact ⟨[], by rw [hcall generation h.open_of_concat, List.nil_append]⟩
      · exact ⟨rest ++ [call], rfl⟩
  induction h with
  | nil => simp
  | opened before grows ih => exact step before (by simp) ih
  | refused before grows ih => exact step before (by simp) ih
  | closed before ih => exact step before (by simp) ih

theorem bracketing (h : Bracketed slot log last openGeneration) : Bracketing slot log := by
  have once (generation : ℕ) : (log.filterMap HookCall.tried?).count generation ≤ 1 :=
    List.nodup_iff_count_le_one.mp (h.increasing.imp fun hlt => hlt.ne) generation
  refine ⟨h.increasing, h.closedNext, fun generation => ?_, fun generation => ?_,
    fun generation hrefused hclosed => ?_⟩
  · rw [h.count_opened generation]
    exact Nat.le_add_right _ _
  · have := h.count_tried generation
    have := once generation
    omega
  · have := h.count_tried generation
    have := once generation
    have := h.count_opened generation
    have := List.count_pos_iff.mpr hrefused
    have := List.count_pos_iff.mpr hclosed
    omega

end Bracketed

/-! ### The generation that is open in the model -/

/-- The connection in its slot whose session the model has closed already. -/
def Frame.lost : Frame Payload Output → Option ℕ
  | .forget c false _ => some c
  | .resetHook event | .resetReject event _ | .resetForget event => some event.connection
  | _ => none

/-- The connection in no slot whose session the model still has. -/
def Frame.kept : Frame Payload Output → Option ℕ
  | .closeHook c _ | .openClose c => some c
  | _ => none

/-- The connection whose session the model is asked to open. -/
def Frame.tries : Frame Payload Output → Option ℕ
  | .openHook c => some c
  | .resetHook event => some event.connection
  | _ => none

namespace Sessions

def holder (t : Sessions) (frame : Frame Payload Output) (slot : ℕ) : Option ℕ :=
  match frame.kept with
  | some c => if t.slot c = some slot then some c else t.bySlot slot
  | none => if t.bySlot slot = frame.lost then none else t.bySlot slot

def openGeneration (t : Sessions) (frame : Frame Payload Output) (slot : ℕ) : Option ℕ :=
  (t.holder frame slot).map t.generation

def callsOf (t : Sessions) (slot : ℕ) : List HookCall := t.calls.filter fun call => call.slot = slot

/-- The calls for every slot are bracketed, and the generation that is open is the one the frame
says. -/
def Logged (t : Sessions) (frame : Frame Payload Output) : Prop :=
  ∀ slot, ∃ last, Bracketed slot (t.callsOf slot) last (t.openGeneration frame slot) ∧
    last ≤ t.generations slot ∧ ∀ c ∈ frame.tries, t.slot c = some slot →
      last < t.generation c ∧ t.generation c ≤ t.generations slot

theorem Logged.of_holder {t t' : Sessions} {frame frame' : Frame Payload Output}
    (h : t.Logged frame) (hcalls : t'.calls = t.calls) (hgenerations : t'.generations = t.generations)
    (hopen : ∀ slot, t'.openGeneration frame' slot = t.openGeneration frame slot)
    (htries : frame'.tries = none) : t'.Logged frame' := by
  intro slot
  obtain ⟨last, hlog, hlast, -⟩ := h slot
  refine ⟨last, ?_, hgenerations ▸ hlast, by simp [htries]⟩
  rwa [callsOf, hcalls, hopen]

theorem Logged.call {t t' : Sessions} {frame frame' : Frame Payload Output} (h : t.Logged frame)
    {hookCall : HookCall} (slot : ℕ) (hcalls : t'.calls = t.calls ++ [hookCall])
    (hcall : hookCall.slot = slot)
    (hother : ∀ slot' ≠ slot, t'.openGeneration frame' slot' = t.openGeneration frame slot' ∧
      t'.generations slot' = t.generations slot' ∧ ∀ c ∈ frame'.tries, t'.slot c ≠ some slot')
    (hslot : ∀ last, Bracketed slot (t.callsOf slot) last (t.openGeneration frame slot) →
      last ≤ t.generations slot →
      (∀ c ∈ frame.tries, t.slot c = some slot →
        last < t.generation c ∧ t.generation c ≤ t.generations slot) →
      ∃ last' openGeneration', t'.openGeneration frame' slot = openGeneration' ∧
        Bracketed slot (t.callsOf slot ++ [hookCall]) last' openGeneration' ∧
        last' ≤ t'.generations slot ∧ ∀ c ∈ frame'.tries, t'.slot c = some slot →
          last' < t'.generation c ∧ t'.generation c ≤ t'.generations slot) :
    t'.Logged frame' := by
  intro slot'
  by_cases hs : slot' = slot
  · subst hs
    obtain ⟨last, hlog, hlast, htries⟩ := h slot'
    obtain ⟨last', _, rfl, hlog', hrest⟩ := hslot last hlog hlast htries
    refine ⟨last', ?_, hrest⟩
    simpa [callsOf, hcalls, List.filter_append, hcall] using hlog'
  · obtain ⟨last, hlog, hlast, -⟩ := h slot'
    obtain ⟨hopen, hgenerations, htries⟩ := hother slot' hs
    refine ⟨last, ?_, hgenerations ▸ hlast, fun c hc hcs => absurd hcs (htries c hc)⟩
    simpa [callsOf, hcalls, hopen, List.filter_append, hcall, Ne.symm hs] using hlog

/-! ### The steps -/

theorem Registry.slotted_of_frame {t : Sessions} {frame : Frame Payload Output}
    (h : t.Registry frame) {c : ℕ} (hc : frame.kept = some c ∨ frame.tries = some c) :
    ∃ slot, t.slot c = some slot := by
  have hready := h.ready
  cases frame with
  | closeHook d next =>
    obtain rfl : d = c := by simpa [Frame.kept, Frame.tries] using hc
    exact hready.2.1.imp fun _ => And.left
  | openClose d =>
    obtain rfl : d = c := by simpa [Frame.kept, Frame.tries] using hc
    exact hready.2.imp fun _ => And.left
  | openHook d =>
    obtain rfl : d = c := by simpa [Frame.kept, Frame.tries] using hc
    exact hready.2.imp fun _ => And.left
  | resetHook event =>
    obtain rfl : event.connection = c := by simpa [Frame.kept, Frame.tries] using hc
    exact h.slotted _ (.inr (h.opened _ hready))
  | _ => simp [Frame.kept, Frame.tries] at hc

/-- The steps of the other threads keep the calls bracketed. -/
theorem Logged.heard {t t' : Sessions} {frame : Frame Payload Output} (h : t.Logged frame)
    (hr : t.Registry frame) (hh : Heard t t') : t'.Logged frame := by
  -- only a hello changes a slot, and it is not one of a connection the frame is about
  have hello {c slot : ℕ} (greets : t.reader c = .hello) (state : ℕ → ConnectionState)
      (reader : ℕ → Reader) :
      { t with state, reader, slot := Function.update t.slot c (some slot) }.Logged frame := by
    have hne {d : ℕ} (hd : frame.kept = some d ∨ frame.tries = some d) : d ≠ c := by
      rintro rfl
      obtain ⟨s, hs⟩ := hr.slotted_of_frame hd
      rw [hr.unslotted d (.inr greets)] at hs
      cases hs
    intro s
    obtain ⟨last, hlog, hlast, htries⟩ := h s
    refine ⟨last, ?_, hlast, fun d hd hds => htries d hd ?_⟩
    · have hholder : { t with state, reader, slot := Function.update t.slot c (some slot) }.holder
          frame s = t.holder frame s := by
        unfold holder
        split
        · next d hd => simp only [Function.update_of_ne (hne (.inl hd))]
        · rfl
      rw [openGeneration, hholder]
      exact hlog
    · simpa only [Function.update_of_ne (hne (.inr hd))] using hds
  cases hh with
  | same => exact h
  | accept => exact h
  | turnAway => exact h
  | refuse c greets => exact h
  | greet c slot greets => exact hello greets _ _
  | enter c slot greets connecting => exact hello greets _ _
  | hangUp c started => exact h
  | stopping server stops => exact h

theorem openGeneration_of_none {t : Sessions} {frame : Frame Payload Output}
    (hkept : frame.kept = none) (hlost : frame.lost = none) (slot : ℕ) :
    t.openGeneration frame slot = (t.bySlot slot).map t.generation := by
  rw [openGeneration, holder, hkept, hlost]
  dsimp only
  split_ifs with h
  · rw [h]
  · rfl

theorem openGeneration_of_lost {t : Sessions} {frame : Frame Payload Output} {c : ℕ}
    (hkept : frame.kept = none) (hlost : frame.lost = some c) (slot : ℕ) :
    t.openGeneration frame slot =
      if t.bySlot slot = some c then none else (t.bySlot slot).map t.generation := by
  rw [openGeneration, holder, hkept, hlost]
  dsimp only
  split_ifs <;> rfl

theorem openGeneration_of_kept {t : Sessions} {frame : Frame Payload Output} {c : ℕ}
    (hkept : frame.kept = some c) (slot : ℕ) :
    t.openGeneration frame slot =
      if t.slot c = some slot then some (t.generation c) else (t.bySlot slot).map t.generation := by
  rw [openGeneration, holder, hkept]
  dsimp only
  split_ifs <;> rfl

theorem map_generation_update {t : Sessions} {c slot : ℕ} (hc : t.bySlot slot ≠ some c)
    (generation : ℕ) : (t.bySlot slot).map (Function.update t.generation c generation) =
      (t.bySlot slot).map t.generation := by
  cases h : t.bySlot slot with
  | none => rfl
  | some d =>
    have hdc : d ≠ c := fun hdc => hc (by rw [h, hdc])
    simp [hdc]

theorem Logged.start {t t' : Sessions} {job : Job Output} {frame : Frame Payload Output}
    (h : t.Logged (.idle : Frame Payload Output)) (hstart : Start t job t' frame) :
    t'.Logged frame := by
  cases hstart <;> exact h.of_holder rfl rfl (fun _ => rfl) rfl

/-- A step of a frame keeps the calls bracketed. -/
theorem Logged.advance {t t' : Sessions} {frame frame' : Frame Payload Output}
    (h : t.Logged frame) (hr : t.Registry frame) (hadvance : Advance t frame t' frame') :
    t'.Logged frame' := by
  have after (next : Option ℕ) : (Frame.after next : Frame Payload Output).kept = none ∧
      (Frame.after next : Frame Payload Output).lost = none ∧
      (Frame.after next : Frame Payload Output).tries = none := by
    cases next <;> exact ⟨rfl, rfl, rfl⟩
  have notHeld {c slot : ℕ} (hc : c ∉ t.connections) : t.bySlot slot ≠ some c := fun hs =>
    hc ((hr.bySlot slot c).mp hs).1
  have opening {c : ℕ} (hframe : frame.forgets = none) (hc : t.state c = .opening) :
      c ∉ t.connections := by
    rw [hr.mem_connections hframe, hc]
    simp
  have holds {c : ℕ} (hframe : frame.forgets = none) (hc : t.state c = .opened) :
      t.slot c = some (t.slotOf c) ∧ t.bySlot (t.slotOf c) = some c := by
    have hmem := (hr.mem_connections hframe).mpr hc
    obtain ⟨slot, hcs⟩ := hr.slotted c (.inr hmem)
    obtain rfl : t.slotOf c = slot := by rw [slotOf, hcs, Option.getD_some]
    exact ⟨hcs, (hr.bySlot _ c).mpr ⟨hmem, hcs⟩⟩
  cases hadvance with
  | answer c message => exact h.of_holder rfl rfl (fun _ => rfl) rfl
  | leave c next => exact h.of_holder rfl rfl (fun _ => rfl) rfl
  | left c next left =>
    refine h.of_holder rfl rfl (fun slot => ?_) (after next).2.2
    rw [openGeneration_of_none (after next).1 (after next).2.1, openGeneration_of_none rfl rfl]
  | leaveMove c next =>
    refine h.of_holder rfl rfl (fun slot => ?_) rfl
    have hbefore : t.openGeneration (.leaveMove c next : Frame Payload Output) slot = _ :=
      openGeneration_of_none rfl rfl slot
    rw [hbefore]
    by_cases hopen : t.state c = .opened
    · rw [openGeneration_of_none rfl (by simp [Frame.lost, hopen])]
      rfl
    · have hc : c ∉ t.connections := fun hc => hopen ((hr.mem_connections rfl).mp hc)
      rw [openGeneration_of_lost rfl (show _ = some c by simp [Frame.lost, hopen])]
      exact if_neg (notHeld hc)
  | forgetOpen c next =>
    obtain ⟨-, hmem, -⟩ := hr.ready
    refine h.of_holder rfl rfl (fun slot => ?_) rfl
    have hbefore : t.openGeneration (.forget c true next : Frame Payload Output) slot = _ :=
      openGeneration_of_none rfl rfl slot
    rw [hbefore, openGeneration_of_kept rfl]
    change (if t.slot c = some slot then some (t.generation c) else
      (if t.slot c = some slot ∧ t.bySlot slot = some c then none else t.bySlot slot).map
        t.generation) = (t.bySlot slot).map t.generation
    split_ifs with hslot hboth
    · rw [(hr.bySlot slot c).mpr ⟨hmem rfl, hslot⟩]
      rfl
    · exact absurd hboth.1 hslot
    · rfl
  | forget c next =>
    refine h.of_holder rfl rfl (fun slot => ?_) (after next).2.2
    rw [openGeneration_of_none (after next).1 (after next).2.1, openGeneration_of_lost rfl rfl]
    change (if t.slot c = some slot ∧ t.bySlot slot = some c then none else t.bySlot slot).map
      t.generation = _
    have hboth : t.slot c = some slot ∧ t.bySlot slot = some c ↔ t.bySlot slot = some c :=
      ⟨And.right, fun hs => ⟨((hr.bySlot slot c).mp hs).2, hs⟩⟩
    simp only [hboth]
    split_ifs <;> rfl
  | closeHook c next =>
    obtain ⟨-, ⟨slot, hcs, hfree⟩, -⟩ := hr.ready
    obtain rfl : t.slotOf c = slot := by rw [slotOf, hcs, Option.getD_some]
    refine h.call (t.slotOf c) rfl rfl (fun slot' hne => ⟨?_, rfl, by simp [(after next).2.2]⟩)
      (fun last hlog hlast _ => ?_)
    · rw [openGeneration_of_none (after next).1 (after next).2.1, openGeneration_of_kept rfl,
        if_neg fun hcs' => hne (Option.some.inj (hcs'.symm.trans hcs))]
      rfl
    · rw [openGeneration_of_kept rfl, if_pos hcs] at hlog
      refine ⟨last, none, ?_, .closed hlog, hlast, by simp [(after next).2.2]⟩
      rw [openGeneration_of_none (after next).1 (after next).2.1]
      exact Option.map_eq_none_iff.mpr hfree
  | openNext c =>
    have hmem : c ∉ t.connections := opening rfl hr.ready.1
    intro slot
    obtain ⟨last, hlog, hlast, -⟩ := h slot
    rw [openGeneration_of_none rfl rfl] at hlog
    refine ⟨last, ?_, ?_, fun d hd hds => ?_⟩
    · rw [openGeneration_of_none rfl rfl]
      change Bracketed slot _ last ((t.bySlot slot).map (Function.update t.generation c _))
      rwa [map_generation_update (notHeld hmem)]
    · change last ≤ Function.update t.generations (t.slotOf c) (t.generations (t.slotOf c) + 1) slot
      rw [Function.update_apply]
      split_ifs with hs
      · subst hs
        omega
      · exact hlast
    · obtain rfl : c = d := Option.some.inj hd
      have hslotOf : t.slotOf c = slot := by
        rw [slotOf, show t.slot c = some slot from hds, Option.getD_some]
      simp only [nextGeneration, hslotOf, Function.update_self]
      omega
  | opened c message serving =>
    obtain ⟨-, slot, hcs, hfree⟩ := hr.ready
    obtain rfl : t.slotOf c = slot := by rw [slotOf, hcs, Option.getD_some]
    refine h.call (t.slotOf c) rfl rfl (fun slot' hne => ⟨?_, rfl, by simp [Frame.tries]⟩)
      (fun last hlog _ htries => ?_)
    · rw [openGeneration_of_none rfl rfl, openGeneration_of_none rfl rfl]
      exact congrArg _ (Function.update_of_ne hne _ _)
    · rw [openGeneration_of_none rfl rfl, hfree, Option.map_none] at hlog
      obtain ⟨hgrows, hbound⟩ := htries c rfl hcs
      refine ⟨t.generation c, some (t.generation c), ?_, .opened hlog hgrows, hbound,
        by simp [Frame.tries]⟩
      rw [openGeneration_of_none rfl rfl]
      exact congrArg (Option.map t.generation)
        (Function.update_self (t.slotOf c) (some c) t.bySlot)
  | openedLate c =>
    obtain ⟨-, slot, hcs, hfree⟩ := hr.ready
    obtain rfl : t.slotOf c = slot := by rw [slotOf, hcs, Option.getD_some]
    refine h.call (t.slotOf c) rfl rfl (fun slot' hne => ⟨?_, rfl, by simp [Frame.tries]⟩)
      (fun last hlog _ htries => ?_)
    · rw [openGeneration_of_kept rfl, openGeneration_of_none rfl rfl]
      exact if_neg fun hcs' => hne (Option.some.inj (hcs'.symm.trans hcs))
    · rw [openGeneration_of_none rfl rfl, hfree, Option.map_none] at hlog
      obtain ⟨hgrows, hbound⟩ := htries c rfl hcs
      refine ⟨t.generation c, some (t.generation c), ?_, .opened hlog hgrows, hbound,
        by simp [Frame.tries]⟩
      rw [openGeneration_of_kept rfl]
      exact if_pos hcs
  | openRaised c exc serving =>
    obtain ⟨-, slot, hcs, hfree⟩ := hr.ready
    obtain rfl : t.slotOf c = slot := by rw [slotOf, hcs, Option.getD_some]
    refine h.call (t.slotOf c) rfl rfl (fun slot' hne => ⟨?_, rfl, by simp [Frame.tries]⟩)
      (fun last hlog _ htries => ?_)
    · rw [openGeneration_of_none rfl rfl, openGeneration_of_none rfl rfl]
      rfl
    · rw [openGeneration_of_none rfl rfl, hfree, Option.map_none] at hlog
      obtain ⟨hgrows, hbound⟩ := htries c rfl hcs
      refine ⟨t.generation c, none, ?_, .refused hlog hgrows, hbound, by simp [Frame.tries]⟩
      rw [openGeneration_of_none rfl rfl]
      exact Option.map_eq_none_iff.mpr hfree
  | openRefused c exc serving => exact h.of_holder rfl rfl (fun _ => rfl) rfl
  | openClose c =>
    obtain ⟨-, slot, hcs, hfree⟩ := hr.ready
    obtain rfl : t.slotOf c = slot := by rw [slotOf, hcs, Option.getD_some]
    refine h.call (t.slotOf c) rfl rfl (fun slot' hne => ⟨?_, rfl, by simp [Frame.tries]⟩)
      (fun last hlog hlast _ => ?_)
    · rw [openGeneration_of_none rfl rfl, openGeneration_of_kept rfl,
        if_neg fun hcs' => hne (Option.some.inj (hcs'.symm.trans hcs))]
      rfl
    · rw [openGeneration_of_kept rfl, if_pos hcs] at hlog
      refine ⟨last, none, ?_, .closed hlog, hlast, by simp [Frame.tries]⟩
      rw [openGeneration_of_none rfl rfl]
      exact Option.map_eq_none_iff.mpr hfree
  | resetDrop event dropped => exact h.of_holder rfl rfl (fun _ => rfl) rfl
  | resetAnswer event requestId dropped => exact h.of_holder rfl rfl (fun _ => rfl) rfl
  | resetClose event =>
    obtain ⟨hcs, hholds⟩ := holds rfl hr.ready
    refine h.call (t.slotOf event.connection) rfl rfl (fun slot' hne => ?_) (fun last hlog hlast _ => ?_)
    · have hother : t.bySlot slot' ≠ some event.connection := fun hs =>
        hne (Option.some.inj (((hr.bySlot slot' _).mp hs).2.symm.trans hcs))
      refine ⟨?_, Function.update_of_ne hne _ _, fun d hd hds => ?_⟩
      · rw [openGeneration_of_lost rfl rfl, openGeneration_of_none rfl rfl]
        exact (if_neg hother).trans (map_generation_update hother _)
      · obtain rfl : event.connection = d := Option.some.inj hd
        exact hne (Option.some.inj (hds.symm.trans hcs))
    · rw [openGeneration_of_none rfl rfl, hholds, Option.map_some] at hlog
      have hgenerations : ((t.sessionClosed event.connection).nextGeneration
          event.connection).generations (t.slotOf event.connection) =
          t.generations (t.slotOf event.connection) + 1 := Function.update_self _ _ _
      refine ⟨last, none, ?_, .closed hlog, ?_, fun d hd hds => ?_⟩
      · rw [openGeneration_of_lost rfl rfl]
        exact if_pos hholds
      · omega
      · obtain rfl : event.connection = d := Option.some.inj hd
        have hgeneration : ((t.sessionClosed event.connection).nextGeneration
            event.connection).generation event.connection =
            t.generations (t.slotOf event.connection) + 1 := Function.update_self _ _ _
        omega
  | resetOpened event message =>
    obtain ⟨hcs, hholds⟩ := holds rfl hr.ready
    refine h.call (t.slotOf event.connection) rfl rfl (fun slot' hne => ⟨?_, rfl, by simp [Frame.tries]⟩)
      (fun last hlog _ htries => ?_)
    · have hother : t.bySlot slot' ≠ some event.connection := fun hs =>
        hne (Option.some.inj (((hr.bySlot slot' _).mp hs).2.symm.trans hcs))
      rw [openGeneration_of_none rfl rfl, openGeneration_of_lost rfl rfl, if_neg hother]
      rfl
    · rw [openGeneration_of_lost rfl rfl, if_pos hholds] at hlog
      obtain ⟨hgrows, hbound⟩ := htries _ rfl hcs
      refine ⟨t.generation event.connection, some (t.generation event.connection), ?_,
        .opened hlog hgrows, hbound, by simp [Frame.tries]⟩
      rw [openGeneration_of_none rfl rfl]
      exact congrArg (Option.map t.generation) hholds
  | resetRaised event exc =>
    obtain ⟨hcs, hholds⟩ := holds rfl hr.ready
    refine h.call (t.slotOf event.connection) rfl rfl (fun slot' hne => ⟨?_, rfl, by simp [Frame.tries]⟩)
      (fun last hlog _ htries => ?_)
    · rw [openGeneration_of_lost rfl rfl, openGeneration_of_lost rfl rfl]
      rfl
    · rw [openGeneration_of_lost rfl rfl, if_pos hholds] at hlog
      obtain ⟨hgrows, hbound⟩ := htries _ rfl hcs
      refine ⟨t.generation event.connection, none, ?_, .refused hlog hgrows, hbound,
        by simp [Frame.tries]⟩
      rw [openGeneration_of_lost rfl rfl]
      exact if_pos hholds
  | resetReject event exc => exact h.of_holder rfl rfl (fun _ => rfl) rfl
  | resetForget event => exact h.of_holder rfl rfl (fun _ => rfl) rfl

end Sessions

/-! ### Every run -/

theorem Moves.logged {cfg : Config} {v v' : View Payload Output} (h : Moves cfg v v')
    (hr : v.core.sessions.Registry v.worker.frame) (hv : v.core.sessions.Logged v.worker.frame) :
    v'.core.sessions.Logged v'.worker.frame := by
  cases h with
  | heard worker window items h => exact hv.heard hr h.sessions
  | start jobs window h => exact hv.start h.sessions
  | advance jobs window h => exact hv.advance hr h.sessions
  | turn core =>
    rw [Core.turn_frame, Core.sessions_turn]
    exact hv
  | finish h => exact hv
  | register hlive hitems => exact hv
  | returned core items stepReturn =>
    rw [Core.sessions_finishBatch]
    exact hv
  | joined core => exact hv
  | leaveAll core => exact hv

theorem View.Reached.logged {cfg : Config} {v : View Payload Output} (h : v.Reached cfg) :
    v.core.sessions.Logged v.worker.frame := by
  refine View.Reached.induction (I := fun v => v.core.sessions.Logged v.worker.frame) ?_ ?_ h
  · exact fun slot => ⟨0, .nil, le_rfl, by simp [Frame.tries]⟩
  · exact fun v v' hv hlogged hmoves => hmoves.logged hv.registry hlogged

theorem openGeneration_eq_none {cfg : Config} {s : Server Payload Output}
    (h : (server cfg).Reachable s) (hstopped : s.core.state = .stopped) (hidle : s.main = .idle)
    (slot : ℕ) : s.core.sessions.openGeneration s.worker.frame slot = none := by
  have hregistry : s.core.sessions.Registry s.worker.frame :=
    View.Reached.registry ⟨s, h, rfl⟩
  have hended : s.step = .ended := by
    refine ((Server.stopping_of_reachable h).settled ?_).1
    simp [Server.Settled, hidle, hstopped]
  have hframe : s.worker.frame = .idle := by
    rw [Server.worker, hidle, hended]
    rfl
  have hfree : s.core.sessions.bySlot slot = none := by
    refine Option.eq_none_iff_forall_ne_some.mpr fun c hc => ?_
    have hmem : c ∈ s.core.connections := ((hregistry.bySlot slot c).mp hc).1
    rw [connections_eq_nil h hstopped hidle] at hmem
    cases hmem
  rw [hframe, Sessions.openGeneration_of_none rfl rfl, hfree, Option.map_none]

/-- A session opens, and `stop` is called and closes it. -/
def stoppedRun : List (Label Unit Unit) :=
  openRun Unit Unit ++ .stop :: .stepThread .returned :: List.replicate 8 (.main .returned)

theorem isSome_stoppedRun : ((server Config.single).run stoppedRun).isSome := by
  decide +kernel

end ReactorRuntime.ModelServer
