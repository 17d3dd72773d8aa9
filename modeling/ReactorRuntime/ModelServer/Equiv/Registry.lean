import ReactorRuntime.ModelServer.Equiv.Sessions

/-!
# The registry of sessions

`Registry` is what holds between the state of a connection, the registry and the slots while the
thread that calls into the model is in a given `Frame`: the registered connections are the open
ones, but for the one that is about to be forgotten, and a slot is that of the one registered
connection that serves it.

* `View.Reached.registry`: it holds in every state a model server reaches.
* `moves_allowed`: so no step of the lifecycle ever raises `ConnectionMoveError`.
-/

namespace ReactorRuntime.ModelServer

variable {Payload Output : Type*}

/-! ### The invariant -/

/-- The connection a frame is about to take out of the registry. -/
def Frame.forgets : Frame Payload Output → Option ℕ
  | .forget c _ _ => some c
  | _ => none

namespace Sessions

def WaitsFor (t : Sessions) (c d : ℕ) : Prop :=
  t.state d = .opening ∧ ∃ slot, t.slot c = some slot ∧ t.slot d = some slot

/-- The connection `d` is opening, and its slot is free. -/
def Opens (t : Sessions) (d : ℕ) : Prop :=
  t.state d = .opening ∧ ∃ slot, t.slot d = some slot ∧ t.bySlot slot = none

/-- What a frame has established about the connection it is about. -/
def Ready (t : Sessions) : Frame Payload Output → Prop
  | .leave c next | .leaveMove c next => ∀ d ∈ next, t.state c = .opened ∧ t.WaitsFor c d
  | .forget c wasOpen next =>
    t.state c = .closing ∧ (wasOpen → c ∈ t.connections) ∧
      ∀ d ∈ next, c ∈ t.connections ∧ t.WaitsFor c d
  | .closeHook c next =>
    t.state c = .closing ∧ (∃ slot, t.slot c = some slot ∧ t.bySlot slot = none) ∧
      ∀ d ∈ next, t.WaitsFor c d
  | .openNext d | .openHook d | .openClose d => t.Opens d
  | .openRefused d _ _ => t.state d = .opening
  | .resetDrop event | .resetAnswers event _ | .resetHook event | .resetReject event _
  | .resetForget event => t.state event.connection = .opened
  | .idle | .answer _ _ => True

/-- The registry, the slots and the states of the connections agree. -/
structure Registry (t : Sessions) (frame : Frame Payload Output) : Prop where
  /-- A number that was not given out has no reader. -/
  fresh : ∀ c, t.numbers ≤ c → t.reader c = .absent
  /-- A connection has its slot from its hello. -/
  unslotted : ∀ c, t.reader c = .absent ∨ t.reader c = .hello → t.slot c = none
  slotted : ∀ c, t.state c = .opening ∨ c ∈ t.connections → ∃ slot, t.slot c = some slot
  opened : ∀ c, t.state c = .opened → c ∈ t.connections
  registered : ∀ c ∈ t.connections, t.state c = .opened ∨
    t.state c = .closing ∧ frame.forgets = some c
  bySlot : ∀ slot c, t.bySlot slot = some c ↔ c ∈ t.connections ∧ t.slot c = some slot
  ready : t.Ready frame

theorem Registry.init : (({} : Core Payload Output).sessions).Registry
    (.idle : Frame Payload Output) where
  fresh _ _ := rfl
  unslotted _ _ := rfl
  slotted c h := by simp [Core.sessions] at h
  opened c h := by simp [Core.sessions] at h
  registered c h := by simp [Core.sessions] at h
  bySlot slot c := by simp [Core.sessions]
  ready := trivial

/-! ### The steps of the other threads -/

theorem Ready.of_le {t t' : Sessions} {frame : Frame Payload Output} (h : t.Ready frame)
    (hstate : ∀ c, t.state c ≠ .connecting → t'.state c = t.state c)
    (hslot : ∀ c slot, t.slot c = some slot → t'.slot c = some slot)
    (hconnections : t'.connections = t.connections) (hbySlot : t'.bySlot = t.bySlot) :
    t'.Ready frame := by
  have state {c : ℕ} {state : ConnectionState} (hc : t.state c = state)
      (hne : state ≠ .connecting) : t'.state c = state := by
    rw [hstate c (hc ▸ hne), hc]
  have waits {c d : ℕ} : t.WaitsFor c d → t'.WaitsFor c d := by
    rintro ⟨hd, slot, hcs, hds⟩
    exact ⟨state hd (by simp), slot, hslot c slot hcs, hslot d slot hds⟩
  have opens {d : ℕ} : t.Opens d → t'.Opens d := by
    rintro ⟨hd, slot, hds, hfree⟩
    exact ⟨state hd (by simp), slot, hslot d slot hds, hbySlot ▸ hfree⟩
  cases frame with
  | leave c next => exact fun d hd => ⟨state (h d hd).1 (by simp), waits (h d hd).2⟩
  | leaveMove c next => exact fun d hd => ⟨state (h d hd).1 (by simp), waits (h d hd).2⟩
  | forget c wasOpen next =>
    refine ⟨state h.1 (by simp), fun hw => hconnections ▸ h.2.1 hw, fun d hd => ?_⟩
    exact ⟨hconnections ▸ (h.2.2 d hd).1, waits (h.2.2 d hd).2⟩
  | closeHook c next =>
    obtain ⟨hc, ⟨slot, hcs, hfree⟩, hnext⟩ := h
    exact ⟨state hc (by simp), ⟨slot, hslot c slot hcs, hbySlot ▸ hfree⟩,
      fun d hd => waits (hnext d hd)⟩
  | openNext d => exact opens h
  | openHook d => exact opens h
  | openClose d => exact opens h
  | openRefused d exc serving => exact state h (by simp)
  | resetDrop event => exact state h (by simp)
  | resetAnswers event dropped => exact state h (by simp)
  | resetHook event => exact state h (by simp)
  | resetReject event exc => exact state h (by simp)
  | resetForget event => exact state h (by simp)
  | idle => trivial
  | answer c message => trivial

theorem Registry.of_reader {t : Sessions} {frame : Frame Payload Output} (h : t.Registry frame)
    (numbers : ℕ) (reader : ℕ → Reader) (fresh : ∀ c, numbers ≤ c → reader c = .absent)
    (unslotted : ∀ c, reader c = .absent ∨ reader c = .hello →
      t.reader c = .absent ∨ t.reader c = .hello) :
    { t with numbers, reader }.Registry frame where
  fresh := fresh
  unslotted c hc := h.unslotted c (unslotted c hc)
  slotted := h.slotted
  opened := h.opened
  registered := h.registered
  bySlot := h.bySlot
  ready := h.ready.of_le (fun _ _ => rfl) (fun _ _ => id) rfl rfl

theorem Registry.of_hello {t : Sessions} {frame : Frame Payload Output} (h : t.Registry frame)
    {c : ℕ} (slot : ℕ) {state : ConnectionState} {reader : Reader} (greets : t.reader c = .hello)
    (hstate : state = t.state c ∨ t.state c = .connecting ∧ state = .opening)
    (hreader : reader ≠ .absent ∧ reader ≠ .hello) :
    { t with
      slot := Function.update t.slot c (some slot)
      state := Function.update t.state c state
      reader := Function.update t.reader c reader }.Registry frame := by
  have hnone : t.slot c = none := h.unslotted c (.inr greets)
  have hmem : c ∉ t.connections := fun hc => by
    obtain ⟨s, hs⟩ := h.slotted c (.inr hc)
    exact Option.some_ne_none s (hs.symm.trans hnone)
  have hslot (d s : ℕ) (hd : t.slot d = some s) :
      Function.update t.slot c (some slot) d = some s := by
    have hdc : d ≠ c := by
      rintro rfl
      exact Option.some_ne_none s (hd.symm.trans hnone)
    rw [Function.update_of_ne hdc, hd]
  have hopened : state ≠ .opened := by
    rintro rfl
    obtain hc | ⟨-, hc⟩ := hstate
    · exact hmem (h.opened c hc.symm)
    · cases hc
  have hready (d : ℕ) (hd : t.state d ≠ .connecting) :
      Function.update t.state c state d = t.state d := by
    rw [Function.update_apply]
    split_ifs with hdc
    · subst hdc
      exact hstate.resolve_right fun hc => hd hc.1
    · rfl
  refine
    { fresh := fun d hd => ?_, unslotted := fun d hd => ?_, slotted := fun d hd => ?_,
      opened := fun d hd => ?_, registered := fun d hd => ?_, bySlot := fun s d => ?_,
      ready := h.ready.of_le hready hslot rfl rfl }
  · have hdc : d ≠ c := by
      rintro rfl
      rw [h.fresh d hd] at greets
      cases greets
    exact (Function.update_of_ne hdc ..).trans (h.fresh d hd)
  · have hdc : d ≠ c := by
      rintro rfl
      simp [hreader] at hd
    simp only [Function.update_of_ne hdc] at hd ⊢
    exact h.unslotted d hd
  · by_cases hdc : d = c
    · exact ⟨slot, by simp [hdc]⟩
    · simp only [Function.update_of_ne hdc] at hd ⊢
      exact h.slotted d hd
  · by_cases hdc : d = c
    · simp only [hdc, Function.update_self] at hd
      exact absurd hd hopened
    · simp only [Function.update_of_ne hdc] at hd
      exact h.opened d hd
  · have hdc : d ≠ c := fun hdc => hmem (hdc ▸ hd)
    simp only [Function.update_of_ne hdc]
    exact h.registered d hd
  · by_cases hdc : d = c
    · subst hdc
      simp [hmem, h.bySlot]
    · simp only [Function.update_of_ne hdc, h.bySlot]

theorem Registry.ne_of_hello {t : Sessions} {frame : Frame Payload Output} (h : t.Registry frame)
    {c d : ℕ} (hc : t.reader c = .hello) (hd : t.state d = .opening ∨ d ∈ t.connections) :
    d ≠ c := by
  rintro rfl
  obtain ⟨slot, hslot⟩ := h.slotted d hd
  rw [h.unslotted d (.inr hc)] at hslot
  cases hslot

/-- The steps of the other threads keep the registry. -/
theorem Registry.heard {t t' : Sessions} {frame : Frame Payload Output} (h : t.Registry frame)
    (hh : Heard t t') : t'.Registry frame := by
  cases hh with
  | same => exact h
  | accept =>
    refine h.of_reader _ _ (fun c hc => ?_) (fun c hc => ?_)
    · rw [Function.update_of_ne (by omega)]
      exact h.fresh c (by omega)
    · by_cases hcn : c = t.numbers
      · exact .inl (h.fresh c hcn.ge)
      · rwa [Function.update_of_ne hcn] at hc
  | turnAway => exact h.of_reader _ _ (fun c hc => h.fresh c (by omega)) fun c hc => hc
  | refuse c greets =>
    refine h.of_reader _ _ (fun d hd => ?_) (fun d hd => ?_)
    · rw [Function.update_of_ne, h.fresh d hd]
      rintro rfl
      rw [h.fresh d hd] at greets
      cases greets
    · by_cases hdc : d = c
      · simp [hdc] at hd
      · rwa [Function.update_of_ne hdc] at hd
  | greet c slot greets =>
    simpa using h.of_hello slot greets (.inl rfl) (show Reader.leaving ≠ .absent ∧ _ by simp)
  | enter c slot greets connecting =>
    exact h.of_hello slot greets (.inr ⟨connecting, rfl⟩) (by simp)
  | stopping server stops =>
    exact ⟨h.fresh, h.unslotted, h.slotted, h.opened, h.registered, h.bySlot,
      h.ready.of_le (fun _ _ => rfl) (fun _ _ => id) rfl rfl⟩
  | hangUp c started =>
    refine h.of_reader _ _ (fun d hd => ?_) (fun d hd => ?_)
    · rw [Function.update_of_ne, h.fresh d hd]
      rintro rfl
      exact started (h.fresh d hd)
    · by_cases hdc : d = c
      · simp [hdc] at hd
      · rwa [Function.update_of_ne hdc] at hd

/-! ### The operations of the lifecycle -/

theorem Registry.reframe {t : Sessions} {frame frame' : Frame Payload Output}
    (h : t.Registry frame) (hframe : frame.forgets = none) (ready : t.Ready frame') :
    t.Registry frame' :=
  { h with
    registered := fun c hc => .inl <| (h.registered c hc).resolve_right fun hf => by
      rw [hframe] at hf
      cases hf.2
    ready := ready }

theorem Registry.mem_connections {t : Sessions} {frame : Frame Payload Output}
    (h : t.Registry frame) (hframe : frame.forgets = none) {c : ℕ} :
    c ∈ t.connections ↔ t.state c = .opened := by
  refine ⟨fun hc => (h.registered c hc).resolve_right fun hf => ?_, h.opened c⟩
  rw [hframe] at hf
  cases hf.2

theorem Registry.of_eq {t : Sessions} {frame : Frame Payload Output} (h : t.Registry frame)
    (generation : ℕ → ℕ) (generations : ℕ → ℕ) (calls : List HookCall) :
    { t with generation, generations, calls }.Registry frame :=
  ⟨h.fresh, h.unslotted, h.slotted, h.opened, h.registered, h.bySlot,
    h.ready.of_le (fun _ _ => rfl) (fun _ _ => id) rfl rfl⟩

theorem Registry.move {t : Sessions} {frame frame' : Frame Payload Output} (h : t.Registry frame)
    {c : ℕ} {state : ConnectionState} (hframe : frame.forgets = none) (hc : c ∉ t.connections)
    (hstate : state = .closing ∨ state = .closed) (ready : (t.move c state).Ready frame') :
    (t.move c state).Registry frame' where
  fresh := h.fresh
  unslotted := h.unslotted
  slotted d hd := by
    refine h.slotted d (hd.imp_left fun hd => ?_)
    by_cases hdc : d = c
    · obtain rfl | rfl := hstate <;> simp [Sessions.move, hdc] at hd
    · simpa [Sessions.move, hdc] using hd
  opened d hd := by
    refine h.opened d ?_
    by_cases hdc : d = c
    · obtain rfl | rfl := hstate <;> simp [Sessions.move, hdc] at hd
    · simpa [Sessions.move, hdc] using hd
  registered d hd := by
    have hdc : d ≠ c := fun hdc => hc (hdc ▸ hd)
    left
    simpa [Sessions.move, hdc] using (h.mem_connections hframe).mp hd
  bySlot := h.bySlot
  ready := ready

/-- A connection is about to be forgotten. -/
theorem Registry.move_closing {t : Sessions} {frame : Frame Payload Output} (h : t.Registry frame)
    {c : ℕ} {wasOpen : Bool} {next : Option ℕ} (hframe : frame.forgets = none)
    (hopen : wasOpen → t.state c = .opened)
    (hnext : ∀ d ∈ next, t.state c = .opened ∧ t.WaitsFor c d) :
    (t.move c .closing).Registry (.forget c wasOpen next : Frame Payload Output) where
  fresh := h.fresh
  unslotted := h.unslotted
  slotted d hd := by
    refine h.slotted d (hd.imp_left fun hd => ?_)
    by_cases hdc : d = c
    · simp [Sessions.move, hdc] at hd
    · simpa [Sessions.move, hdc] using hd
  opened d hd := by
    refine h.opened d ?_
    by_cases hdc : d = c
    · simp [Sessions.move, hdc] at hd
    · simpa [Sessions.move, hdc] using hd
  registered d hd := by
    by_cases hdc : d = c
    · exact .inr ⟨by simp [Sessions.move, hdc], by simp [Frame.forgets, hdc]⟩
    · left
      simpa [Sessions.move, hdc] using (h.mem_connections hframe).mp hd
  bySlot := h.bySlot
  ready := by
    refine ⟨by simp [Sessions.move], fun hw => h.opened c (hopen hw), fun d hd => ?_⟩
    obtain ⟨hc, hd, slot, hcs, hds⟩ := hnext d hd
    have hdc : d ≠ c := by
      rintro rfl
      rw [hc] at hd
      cases hd
    exact ⟨h.opened c hc, by simpa [Sessions.move, hdc] using hd, slot, hcs, hds⟩

theorem forget_bySlot {t : Sessions} {frame : Frame Payload Output} (h : t.Registry frame)
    (c slot d : ℕ) :
    (t.forget c).bySlot slot = some d ↔ t.bySlot slot = some d ∧ d ≠ c := by
  rw [Sessions.forget]
  dsimp only
  split_ifs with hs
  · simp only [false_iff, not_and, not_not]
    exact fun hd => Option.some.inj (hd.symm.trans hs.2)
  · refine ⟨fun hd => ⟨hd, ?_⟩, And.left⟩
    rintro rfl
    exact hs ⟨((h.bySlot slot d).mp hd).2, hd⟩

theorem Registry.forget {t : Sessions} {frame frame' : Frame Payload Output} (h : t.Registry frame)
    {c : ℕ} (hframe : frame.forgets = some c) (hclosing : t.state c = .closing)
    (ready : (t.forget c).Ready frame') :
    (t.forget c).Registry frame' where
  fresh := h.fresh
  unslotted := h.unslotted
  slotted d hd := h.slotted d (hd.imp_right fun hd => (List.mem_filter.mp hd).1)
  opened d hd := by
    refine List.mem_filter.mpr ⟨h.opened d hd, ?_⟩
    simp only [ne_eq, decide_not, Bool.not_eq_true', decide_eq_false_iff_not]
    rintro rfl
    rw [show (t.forget d).state d = t.state d from rfl, hclosing] at hd
    cases hd
  registered d hd := by
    obtain ⟨hmem, hdc⟩ := List.mem_filter.mp hd
    refine .inl ((h.registered d hmem).resolve_right fun hf => ?_)
    rw [hframe] at hf
    simp [Option.some.inj hf.2] at hdc
  bySlot slot d := by
    rw [forget_bySlot h, h.bySlot, Sessions.forget, List.mem_filter]
    simp only [ne_eq, decide_not, Bool.not_eq_eq_eq_not, Bool.not_true, decide_eq_false_iff_not]
    tauto
  ready := ready

theorem forget_free {t : Sessions} {frame : Frame Payload Output} (h : t.Registry frame) {c : ℕ}
    (hc : c ∈ t.connections) : ∃ slot, t.slot c = some slot ∧ (t.forget c).bySlot slot = none := by
  obtain ⟨slot, hslot⟩ := h.slotted c (.inr hc)
  refine ⟨slot, hslot, Option.eq_none_iff_forall_ne_some.mpr fun d hd => ?_⟩
  obtain ⟨hd, hne⟩ := (forget_bySlot h c slot d).mp hd
  rw [(h.bySlot slot c).mpr ⟨hc, hslot⟩] at hd
  exact hne (Option.some.inj hd).symm

/-- A connection whose slot is free enters the registry. -/
theorem Registry.register {t : Sessions} {frame : Frame Payload Output} (h : t.Registry frame)
    {c : ℕ} (hframe : frame.forgets = none) (hopens : t.Opens c) {frame' : Frame Payload Output}
    (ready : ((t.move c .opened).register c).Ready frame') :
    ((t.move c .opened).register c).Registry frame' := by
  obtain ⟨hstate, slot, hslot, hfree⟩ := hopens
  have hmem : c ∉ t.connections := fun hc => by
    rw [(h.mem_connections hframe).mp hc] at hstate
    cases hstate
  have hconnections : ((t.move c .opened).register c).connections = t.connections ++ [c] := by
    simp [Sessions.register, Sessions.move, hmem]
  have hslotOf : (t.move c .opened).slotOf c = slot := by
    simp [slotOf, Sessions.move, hslot]
  refine
    { fresh := h.fresh, unslotted := h.unslotted, slotted := fun d hd => ?_, opened := fun d hd => ?_,
      registered := fun d hd => ?_, bySlot := fun s d => ?_, ready := ready }
  · by_cases hdc : d = c
    · exact ⟨slot, hdc ▸ hslot⟩
    · refine h.slotted d (hd.imp (fun hd => ?_) fun hd => ?_)
      · simpa [Sessions.register, Sessions.move, hdc] using hd
      · rw [hconnections] at hd
        simpa [hdc] using hd
  · rw [hconnections]
    by_cases hdc : d = c
    · simp [hdc]
    · refine List.mem_append_left _ (h.opened d ?_)
      simpa [Sessions.register, Sessions.move, hdc] using hd
  · left
    by_cases hdc : d = c
    · simp [Sessions.register, Sessions.move, hdc]
    · rw [hconnections] at hd
      have : d ∈ t.connections := by simpa [hdc] using hd
      simpa [Sessions.register, Sessions.move, hdc] using (h.mem_connections hframe).mp this
  · rw [hconnections, Sessions.register, hslotOf]
    simp only [Sessions.move, Function.update_apply, List.mem_append, List.mem_singleton]
    by_cases hdc : d = c
    · subst hdc
      rw [hslot]
      split_ifs with hs
      · simp [hs]
      · simp [h.bySlot, hmem, Ne.symm hs]
    · split_ifs with hs
      · subst hs
        simp only [Option.some.injEq, Ne.symm hdc, false_iff, not_and, hdc, or_false]
        intro hd hds
        rw [(h.bySlot s d).mpr ⟨hd, hds⟩] at hfree
        cases hfree
      · simp [h.bySlot, hdc]

end Sessions

/-! ### The steps of the thread that calls into the model -/

namespace Sessions

theorem Registry.start {t t' : Sessions} {job : Job Output} {frame : Frame Payload Output}
    (h : t.Registry (.idle : Frame Payload Output)) (hstart : Start t job t' frame) :
    t'.Registry frame := by
  have leave (c : ℕ) : t.Registry (.leave c none : Frame Payload Output) :=
    h.reframe rfl (by simp [Ready])
  cases hstart with
  | done job => exact h
  | leave c => exact leave c
  | applyLeave c => exact leave c
  | refuseLeave c => exact leave c
  | replace c held opening holds ne =>
    obtain ⟨slot, hslot⟩ := h.slotted c (.inl opening)
    have hslotOf : t.slotOf c = slot := by rw [slotOf, hslot, Option.getD_some]
    rw [hslotOf] at holds
    obtain ⟨hmem, hheld⟩ := (h.bySlot slot held).mp holds
    refine h.reframe rfl fun d hd => ?_
    cases hd
    exact ⟨(h.mem_connections rfl).mp hmem, opening, slot, hheld, hslot⟩
  | enter c opening free =>
    obtain ⟨slot, hslot⟩ := h.slotted c (.inl opening)
    have hslotOf : t.slotOf c = slot := by rw [slotOf, hslot, Option.getD_some]
    rw [hslotOf] at free
    refine h.reframe rfl ⟨opening, slot, hslot, Option.eq_none_iff_forall_ne_some.mpr ?_⟩
    rintro held hheld
    obtain rfl := free held hheld
    have := (h.mem_connections rfl).mp ((h.bySlot slot held).mp hheld).1
    rw [opening] at this
    cases this
  | reset event opened => exact h.reframe rfl opened
  | refuseReset event message => exact h.reframe rfl trivial
  | closeOpening c unopened =>
    refine h.move rfl (fun hc => ?_) (.inl rfl) trivial
    simp [(h.mem_connections rfl).mp hc] at unopened

theorem Registry.advance {t t' : Sessions} {frame frame' : Frame Payload Output}
    (h : t.Registry frame) (hadvance : Advance t frame t' frame') : t'.Registry frame' := by
  have after {t : Sessions} {next : Option ℕ} (hnext : ∀ d ∈ next, t.Opens d) :
      t.Ready (.after next : Frame Payload Output) := by
    cases next with
    | none => trivial
    | some d => exact hnext d rfl
  have notMem {t : Sessions} {frame : Frame Payload Output} {c : ℕ} (ht : t.Registry frame)
      (hframe : frame.forgets = none) {state : ConnectionState} (hstate : t.state c = state)
      (hne : state ≠ .opened) : c ∉ t.connections := by
    rw [ht.mem_connections hframe, hstate]
    exact hne
  cases hadvance with
  | answer c message => exact h.reframe rfl trivial
  | leave c next => exact h.reframe rfl h.ready
  | left c next left =>
    refine h.reframe rfl (after fun d hd => ?_)
    have := (h.ready d hd).1
    simp [this] at left
  | leaveMove c next =>
    exact h.move_closing rfl (fun hopen => of_decide_eq_true hopen) h.ready
  | forgetOpen c next =>
    obtain ⟨hclosing, hopen, hnext⟩ := h.ready
    exact h.forget rfl hclosing ⟨hclosing, forget_free h (hopen rfl), fun d hd => (hnext d hd).2⟩
  | forget c next =>
    obtain ⟨hclosing, -, hnext⟩ := h.ready
    have hforget : (t.forget c).Registry (.idle : Frame Payload Output) :=
      h.forget rfl hclosing trivial
    refine hforget.move rfl (by simp [Sessions.forget]) (.inr rfl) (after fun d hd => ?_)
    obtain ⟨hmem, hd, slot, hcs, hds⟩ := hnext d hd
    have hdc : d ≠ c := by
      rintro rfl
      rw [hclosing] at hd
      cases hd
    obtain ⟨slot', hcs', hfree⟩ := forget_free h hmem
    obtain rfl := Option.some.inj (hcs.symm.trans hcs')
    exact ⟨by simpa [Sessions.move, Sessions.forget, hdc] using hd, slot, hds, hfree⟩
  | closeHook c next =>
    obtain ⟨hclosing, ⟨slot, hcs, hfree⟩, hnext⟩ := h.ready
    have hcalled : (t.sessionClosed c).Registry (.closeHook c next : Frame Payload Output) :=
      h.of_eq _ _ _
    refine hcalled.move rfl (notMem hcalled rfl hclosing (by simp)) (.inr rfl)
      (after fun d hd => ?_)
    obtain ⟨hd, slot', hcs', hds⟩ := hnext d hd
    obtain rfl := Option.some.inj (hcs.symm.trans hcs')
    have hdc : d ≠ c := by
      rintro rfl
      rw [hclosing] at hd
      cases hd
    refine ⟨?_, slot, hds, hfree⟩
    simpa [Sessions.move, Sessions.sessionClosed, Sessions.call, hdc] using hd
  | openNext c =>
    have hready : t.Registry (.openHook c : Frame Payload Output) := h.reframe rfl h.ready
    exact hready.of_eq _ _ _
  | opened c message serving =>
    have hcalled : (t.sessionOpened c .returned).Registry (.openHook c : Frame Payload Output) :=
      h.of_eq _ _ _
    exact hcalled.register rfl h.ready trivial
  | openedLate c =>
    have hready : t.Registry (.openClose c : Frame Payload Output) := h.reframe rfl h.ready
    exact hready.of_eq _ _ _
  | openRaised c exc serving =>
    have hready : t.Registry (.openRefused c exc serving : Frame Payload Output) :=
      h.reframe rfl h.ready.1
    exact hready.of_eq _ _ _
  | openRefused c exc serving =>
    exact h.move rfl (notMem h rfl h.ready (by simp)) (.inl rfl) trivial
  | openClose c =>
    have hcalled : (t.sessionClosed c).Registry (.openClose c : Frame Payload Output) :=
      h.of_eq _ _ _
    exact hcalled.move rfl (notMem hcalled rfl h.ready.1 (by simp)) (.inl rfl) trivial
  | resetDrop event dropped => exact h.reframe rfl h.ready
  | resetAnswer event requestId dropped => exact h.reframe rfl h.ready
  | resetClose event =>
    have hready : t.Registry (.resetHook event : Frame Payload Output) := h.reframe rfl h.ready
    exact hready.of_eq _ _ _
  | resetOpened event message =>
    have hopened : t.state event.connection = .opened := h.ready
    have hsame : (t.sessionOpened event.connection .returned).move event.connection .opened =
        t.sessionOpened event.connection .returned := by
      simp [Sessions.move, Sessions.sessionOpened, Sessions.call, hopened]
    have hready : t.Registry (.answer event.connection message : Frame Payload Output) :=
      h.reframe rfl trivial
    rw [hsame]
    exact hready.of_eq _ _ _
  | resetRaised event exc =>
    have hready : t.Registry (.resetReject event exc : Frame Payload Output) :=
      h.reframe rfl h.ready
    exact hready.of_eq _ _ _
  | resetReject event exc => exact h.reframe rfl h.ready
  | resetForget event => exact h.move_closing rfl (by simp) (by simp)

end Sessions

theorem Core.turn_frame (cfg : Config) (core : Core Payload Output) :
    (core.turn cfg).2.worker.frame = .idle := by
  unfold Core.turn
  split
  · rfl
  · dsimp only
    split_ifs <;> rfl
  · dsimp only
    split_ifs <;> rfl

theorem Moves.registry {cfg : Config} {v v' : View Payload Output} (h : Moves cfg v v')
    (hv : v.core.sessions.Registry v.worker.frame) :
    v'.core.sessions.Registry v'.worker.frame := by
  cases h with
  | heard worker window items h => exact hv.heard h.sessions
  | start jobs window h => exact hv.start h.sessions
  | advance jobs window h => exact hv.advance h.sessions
  | turn core =>
    rw [Core.turn_frame, Core.sessions_turn]
    exact hv
  | finish h => exact hv
  | register hlive hitems => exact hv
  | returned core items stepReturn =>
    rw [Core.sessions_finishBatch]
    exact hv
  | joined core => exact hv
  | leaveAll core => exact hv

/-! ### Every state a model server reaches -/

theorem Sessions.Heard.connections_eq {t t' : Sessions} (h : Heard t t') :
    t'.connections = t.connections := by
  cases h <;> rfl

theorem Server.Sound.next {cfg : Config} {s s' : Server Payload Output}
    {label : Label Payload Output} (hs : s.Sound) (h : s.Steps cfg label s') : s'.Sound := by
  cases h with
  | heard core h same =>
    refine ⟨hs.answering, hs.leaving, fun live batch hstep => ?_⟩
    rw [show core.connections = s.core.connections from h.sessions.connections_eq]
    exact hs.live live batch hstep
  | @stepThread hook core step h =>
    have hne : s.step ≠ .ended := by
      rintro hended
      rw [hended] at h
      cases h
    refine ⟨fun call worker hmain => absurd (hs.answering call worker hmain) hne,
      fun worker hmain => absurd (hs.leaving worker hmain) hne, fun live batch hstep => ?_⟩
    obtain rfl : step = .running live batch := hstep
    cases hs' : s.step with
    | working worker batch' =>
      rw [hs', StepThread.step] at h
      split_ifs at h
      · simp at h
      · obtain ⟨rfl, hlive, rfl⟩ : s.core = core ∧
            batch'.filter (fun r => r.connection ∈ s.core.connections) = live ∧ batch' = batch := by
          simpa using h
        exact hlive.symm
      · simp at h
    | running live' batch' =>
      rw [hs'] at h
      cases live' <;> simp [StepThread.step] at h
    | loop =>
      rw [hs', StepThread.step] at h
      have hturn : (s.core.turn cfg).2 = .running live batch := by rw [Option.some.inj h]
      unfold Core.turn at hturn
      split at hturn
      · cases hturn
      · dsimp only at hturn
        split_ifs at hturn
      · dsimp only at hturn
        split_ifs at hturn
    | stepping items => rw [hs'] at h; cases h
    | ended => exact absurd hs' hne
  | stepReturn stepReturn h =>
    have hne : s.step ≠ .ended := by simp [h]
    exact ⟨fun call worker hmain => absurd (hs.answering call worker hmain) hne,
      fun worker hmain => absurd (hs.leaving worker hmain) hne, by rintro _ _ ⟨⟩⟩
  | call stops stop drain h =>
    unfold Server.call at h
    split at h
    · cases h
      exact ⟨by rintro _ _ ⟨⟩, by rintro _ ⟨⟩, hs.live⟩
    · cases h
  | main h =>
    obtain ⟨core, step, main⟩ := s
    cases main with
    | idle => cases h
    | joining call =>
      cases step with
      | ended =>
        cases h
        exact ⟨fun _ _ _ => rfl, by rintro _ ⟨⟩, by rintro _ _ ⟨⟩⟩
      | _ => cases h
    | answering call worker =>
      obtain rfl : step = .ended := hs.answering _ _ rfl
      simp only [mainThread] at h
      split_ifs at h
      · cases call <;> obtain rfl := Option.some.inj h <;>
          exact ⟨fun _ _ _ => rfl, fun _ _ => rfl, by rintro _ _ ⟨⟩⟩
      · obtain ⟨p, -, rfl⟩ := Option.map_eq_some_iff.mp h
        exact ⟨fun _ _ _ => rfl, fun _ _ => rfl, by rintro _ _ ⟨⟩⟩
    | leaving worker =>
      obtain rfl : step = .ended := hs.leaving _ rfl
      simp only [mainThread] at h
      split_ifs at h
      · cases h
        exact ⟨fun _ _ _ => rfl, fun _ _ => rfl, by rintro _ _ ⟨⟩⟩
      · obtain ⟨p, -, rfl⟩ := Option.map_eq_some_iff.mp h
        exact ⟨fun _ _ _ => rfl, fun _ _ => rfl, by rintro _ _ ⟨⟩⟩

/-- The threads keep apart, and the registry agrees with the connections. -/
structure Server.Regular (s : Server Payload Output) : Prop where
  sound : s.Sound
  registry : s.view.core.sessions.Registry s.view.worker.frame

theorem Server.regular (cfg : Config) :
    (server cfg).IsInvariant (Server.Regular : Server Payload Output → Prop) where
  init := ⟨⟨nofun, nofun, nofun⟩, .init⟩
  step s label s' hs hstep := by
    have hsteps := next_steps hstep
    refine ⟨hs.sound.next hsteps, ?_⟩
    obtain hmoves | hsame := hsteps.moves hs.sound
    · exact hmoves.registry hs.registry
    · rw [hsame]
      exact hs.registry

def View.Reached (cfg : Config) (v : View Payload Output) : Prop :=
  ∃ s, (server cfg).Reachable s ∧ s.view = v

theorem View.Reached.registry {cfg : Config} {v : View Payload Output} (h : v.Reached cfg) :
    v.core.sessions.Registry v.worker.frame := by
  obtain ⟨s, hs, rfl⟩ := h
  exact ((Server.regular cfg).of_reachable hs).registry

theorem View.Reached.induction {cfg : Config} {I : View Payload Output → Prop}
    (init : I { core := {} })
    (moves : ∀ v v', v.Reached cfg → I v → Moves cfg v v' → I v') {v : View Payload Output}
    (h : v.Reached cfg) : I v := by
  obtain ⟨s, hs, rfl⟩ := h
  have hI : (server cfg).IsInvariant fun s => (server cfg).Reachable s ∧ I s.view := by
    refine ⟨⟨TransitionSystem.reachable_init, init⟩, fun s label s' ⟨hs, hIs⟩ hstep => ?_⟩
    refine ⟨hs.step hstep, ?_⟩
    obtain hmoves | hsame :=
      (Server.next_steps hstep).moves ((Server.regular cfg).of_reachable hs).sound
    · exact moves _ _ ⟨s, hs, rfl⟩ hIs hmoves
    · rwa [hsame]
  exact (hI.of_reachable hs).2

theorem Core.isSome_move {core : Core Payload Output} {c : ℕ} {state : ConnectionState}
    (h : state ∈ (core.conns c).state.moves) : (core.move c state).isSome := by
  simp [Core.move, Connection.move, h]

theorem Core.isSome_closed {core : Core Payload Output} {c : ℕ}
    (h : (core.conns c).state = .closing) : (core.closed c).isSome := by
  rw [Core.closed, Option.isSome_map]
  exact Core.isSome_move (by rw [h]; decide)

theorem Core.isSome_closing {core : Core Payload Output} {c : ℕ}
    (h : (core.conns c).state = .connecting ∨ (core.conns c).state = .opening) :
    (core.closing c).isSome := by
  rw [Core.closing, Option.isSome_map]
  exact Core.isSome_move (by obtain h | h := h <;> rw [h] <;> decide)

theorem Core.isSome_start (core : Core Payload Output) (job : Job Output) :
    (core.start job).isSome := by
  cases job with
  | closeOpening c =>
    rw [Core.start, Option.isSome_map, Core.closeOpening]
    split_ifs with hstate
    · exact Core.isSome_closing hstate
    · rfl
  | _ => rfl

theorem Core.isSome_advance (cfg : Config) {core : Core Payload Output} (hook : HookReturn)
    {frame : Frame Payload Output} (h : core.sessions.Registry frame) (hne : frame ≠ .idle) :
    (core.advance cfg hook frame).isSome := by
  cases frame with
  | idle => exact absurd rfl hne
  | leaveMove c next =>
    rw [Core.advance, Core.leaveMove]
    split_ifs with hstate
    · rfl
    · rw [Option.isSome_map]
      refine Core.isSome_move ?_
      cases hc : (core.conns c).state <;> simp [hc, ConnectionState.moves] at hstate ⊢
  | forget c wasOpen next =>
    rw [Core.advance]
    split_ifs
    · rfl
    · rw [Option.isSome_map]
      exact Core.isSome_closed h.ready.1
  | closeHook c next =>
    rw [Core.advance, Option.isSome_map]
    exact Core.isSome_closed h.ready.1
  | openHook c =>
    have hopening : (core.conns c).state = .opening := h.ready.1
    rw [Core.advance]
    cases hook with
    | raised exc => rfl
    | returned =>
      unfold Core.opened
      dsimp only
      split_ifs
      · rw [Option.isSome_map]
        exact Core.isSome_move (by
          rw [show (((core.sessionOpened c .returned).discardOpening c).conns c).state = .opening
            from hopening]
          decide)
      · rfl
  | openRefused c exc serving =>
    have hopening : (core.conns c).state = .opening := h.ready
    rw [Core.advance, Option.isSome_map, Core.openRefused]
    refine Core.isSome_closing (.inr ?_)
    rw [show ((core.offerRefusal c exc serving).conns c).state = (core.conns c).state from
      congrFun (congrArg Sessions.state (core.sessions_offerRefusal c exc serving)) c, hopening]
  | openClose c =>
    rw [Core.advance, Option.isSome_map]
    exact Core.isSome_closing (.inr h.ready.1)
  | resetAnswers event dropped => cases dropped <;> rfl
  | resetHook event =>
    have hopened : (core.conns event.connection).state = .opened := h.ready
    cases hook with
    | raised exc => rfl
    | returned =>
      rw [Core.advance, Core.resetOpened, Option.isSome_map]
      exact Core.isSome_move (by
        rw [show ((core.sessionOpened event.connection .returned).conns event.connection).state =
          .opened from hopened]
        decide)
  | resetForget event =>
    have hopened : (core.conns event.connection).state = .opened := h.ready
    rw [Core.advance, Option.isSome_map]
    exact Core.isSome_move (by rw [hopened]; decide)
  | _ => rfl

/-- A registered connection owns its slot, which names it, and its session is open or is being
closed; and every open session is registered. -/
theorem slots_owned {cfg : Config} {s : Server Payload Output} (h : (server cfg).Reachable s) :
    (∀ c ∈ s.core.connections, ∃ slot, (s.core.conns c).slot = some slot ∧
      s.core.bySlot slot = some c ∧
      (∀ d ∈ s.core.connections, (s.core.conns d).slot = some slot → d = c) ∧
      ((s.core.conns c).state = .opened ∨ (s.core.conns c).state = .closing)) ∧
    ∀ c, (s.core.conns c).state = .opened → c ∈ s.core.connections := by
  have hreg : s.core.sessions.Registry s.worker.frame :=
    ((Server.regular cfg).of_reachable h).registry
  refine ⟨fun c hc => ?_, hreg.opened⟩
  obtain ⟨slot, hslot⟩ := hreg.slotted c (.inr hc)
  have hnames := (hreg.bySlot slot c).mpr ⟨hc, hslot⟩
  refine ⟨slot, hslot, hnames, fun d hd hds => ?_, (hreg.registered c hc).imp id And.left⟩
  have hnamed := (hreg.bySlot slot d).mpr ⟨hd, hds⟩
  exact Option.some.inj (hnamed.symm.trans hnames)

theorem isSome_openRun : ((server Config.single).run (openRun Unit Unit)).isSome := by
  decide +kernel

theorem slots_owned_open :
    ∃ slot, (((server Config.single).run (openRun Unit Unit)).get isSome_openRun).core.bySlot slot =
      some 1 := by
  have h := TransitionSystem.reachable_get (openRun Unit Unit) isSome_openRun
  obtain ⟨slot, -, hnames, -⟩ := (slots_owned h).1 1 (by decide +kernel)
  exact ⟨slot, hnames⟩

/-- No step of the lifecycle raises `ConnectionMoveError`: the thread that calls into the model can
always go on until it is done. -/
theorem moves_allowed {cfg : Config} {s : Server Payload Output} (h : (server cfg).Reachable s)
    (hook : HookReturn) (hwork : ¬ s.worker.done) :
    (s.worker.step cfg s.core hook).isSome := by
  have hreg : s.core.sessions.Registry s.worker.frame :=
    ((Server.regular cfg).of_reachable h).registry
  generalize s.worker = worker at hreg hwork
  unfold Worker.step
  split
  · next hframe hjobs => simp [Worker.done, hframe, hjobs] at hwork
  · rw [Option.isSome_map]
    exact Core.isSome_start _ _
  · next hidle =>
    rw [Option.isSome_map]
    refine Core.isSome_advance cfg hook hreg fun hframe => ?_
    cases hjobs : worker.jobs with
    | nil => simp [Worker.done, hframe, hjobs] at hwork
    | cons job jobs => exact hidle job jobs hframe hjobs

/-- The step thread is about to open a session. -/
def openingRun : List (Label Unit Unit) :=
  [.accept, .hello 1 ⟨0, PROTOCOL⟩, .stepThread .returned]

theorem isSome_openingRun : ((server Config.single).run openingRun).isSome := by decide +kernel

theorem moves_allowed_opening :
    ((((server Config.single).run openingRun).get isSome_openingRun).worker.step Config.single
      (((server Config.single).run openingRun).get isSome_openingRun).core .returned).isSome :=
  moves_allowed (TransitionSystem.reachable_get openingRun isSome_openingRun) .returned
    (by decide +kernel)

end ReactorRuntime.ModelServer
