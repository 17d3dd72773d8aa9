import ReactorRuntime.Transport.StepFrames

/-!
# The order of a connection's messages

What was done with the messages, followed by those that wait, is what arrived (`InOrder`), as long
as no decode raises: a drain that ends by an error leaves what waits behind it in the backlog, where
the next message overtakes it.  Nothing is done with a message once the gate is closed (`Silent`),
as long as none arrives then.

The decoders are for input tracks of the model, each used by a request since its last unpublish
(`UsedSince`).
-/

namespace ReactorRuntime.Transport

open ReactorRuntime.Protocol

variable {parser : WireParser} {videoInputs : List String}

/-! ### The tracks that a request uses -/

theorem track_of_checkEntry {index : ℕ} {entry : TrackFrames} {stream : Stream}
    (h : checkEntry videoInputs index entry = .ok (some stream)) :
    stream.entry.track ∈ videoInputs := by
  unfold checkEntry at h
  dsimp only at h
  split_ifs at h with hempty htrack
  · cases h
  · split at h
    · cases h
    · unfold Except.map at h
      split at h <;> cases h
      exact htrack
  · split at h <;> cases h

theorem track_of_mem_checkEntries {entries : List (TrackFrames × ℕ)} {stream : Stream}
    (h : stream ∈ (checkEntries videoInputs entries).1) : stream.entry.track ∈ videoInputs := by
  induction entries with
  | nil => cases h
  | cons e entries ih =>
    obtain ⟨entry, index⟩ := e
    rw [checkEntries] at h
    split at h
    · cases h
    · exact ih h
    · next found hfound =>
      rcases List.mem_cons.mp h with rfl | h
      · exact track_of_checkEntry hfound
      · exact ih h

theorem mem_openDecoder {decoders : Decoders} {stream : Stream} {track : String}
    (h : track ∈ openDecoder decoders stream) : track ∈ decoders ∨ track = stream.entry.track := by
  unfold openDecoder at h
  split_ifs at h
  · exact .inl h
  · exact ((AList.mem_insert _).mp h).symm

theorem mem_foldl_openDecoder {found : List Stream} {decoders : Decoders} {track : String}
    (h : track ∈ found.foldl openDecoder decoders) :
    track ∈ decoders ∨ ∃ stream ∈ found, track = stream.entry.track := by
  induction found generalizing decoders with
  | nil => exact .inl h
  | cons stream found ih =>
    rcases ih h with h | ⟨other, hother, rfl⟩
    · rcases mem_openDecoder h with h | rfl
      · exact .inl h
      · exact .inr ⟨stream, List.mem_cons_self, rfl⟩
    · exact .inr ⟨other, List.mem_cons_of_mem _ hother, rfl⟩

/-- The decoders after a decode: those before it, and those of the tracks that it uses. -/
theorem mem_of_decodeStepFrames {step : RequestStep} {decoders decoders' : Decoders}
    {decoded : Option (ℕ → Decoded)} {outcome : Except StepFrameRefusal Pictures} {track : String}
    (h : decodeStepFrames videoInputs step decoders decoded = some (decoders', outcome))
    (htrack : track ∈ decoders') :
    track ∈ decoders ∨ ∃ stream ∈ streams videoInputs step, track = stream.entry.track := by
  obtain ⟨decoded, -, h⟩ := Option.bind_eq_some_iff.mp h
  obtain ⟨outcome, -, h⟩ := Option.map_eq_some_iff.mp h
  cases h
  exact mem_foldl_openDecoder htrack

/-! ### What is done with a message -/

theorem unpublishedTrack_of_encodedStep {m : Inbound} {request : String × RequestStep}
    (h : encodedStep parser m = some request) : unpublishedTrack parser m = none := by
  obtain ⟨payload, version, channel⟩ := m
  unfold encodedStep at h
  unfold unpublishedTrack
  cases channel with
  | data => split <;> simp_all
  | control => split at h <;> simp_all

namespace Handed

/-- Whether what was done with a message is what the gate is for: a message without encoded frames
is delivered, one with encoded frames goes up with the pictures that a decode of it gave or is
answered with the refusal. -/
def Fits (parser : WireParser) (videoInputs : List String) : Handed → Prop
  | message m => encodedStep parser m = none
  | decodedStep m pictures => ∃ requestId step decoders decoders' decoded,
      encodedStep parser m = some (requestId, step) ∧
      decodeStepFrames videoInputs step decoders decoded = some (decoders', .ok pictures)
  | refused m requestId refusal => ∃ step decoders decoders' decoded,
      encodedStep parser m = some (requestId, step) ∧
      decodeStepFrames videoInputs step decoders decoded = some (decoders', .error refusal)

def Uses (parser : WireParser) (videoInputs : List String) (track : String) (h : Handed) : Prop :=
  ∃ requestId step, encodedStep parser h.inbound = some (requestId, step) ∧
    ∃ stream ∈ streams videoInputs step, track = stream.entry.track

end Handed

/-- Whether a request used the track, and no later message unpublished it. -/
def UsedSince (parser : WireParser) (videoInputs : List String) (handed : List Handed)
    (track : String) : Prop :=
  ∃ before h after, handed = before ++ h :: after ∧ h.Uses parser videoInputs track ∧
    ∀ x ∈ after, unpublishedTrack parser x.inbound ≠ some track

theorem UsedSince.append {handed : List Handed} {track : String} {x : Handed}
    (h : UsedSince parser videoInputs handed track)
    (hx : unpublishedTrack parser x.inbound ≠ some track) :
    UsedSince parser videoInputs (handed ++ [x]) track := by
  obtain ⟨before, u, after, rfl, huses, hafter⟩ := h
  refine ⟨before, u, after ++ [x], by simp, huses, fun y hy => ?_⟩
  rcases List.mem_append.mp hy with hy | hy
  · exact hafter y hy
  · rw [List.mem_singleton.mp hy]
    exact hx

theorem usedSince_concat {handed : List Handed} {track : String} {x : Handed}
    (hx : x.Uses parser videoInputs track) :
    UsedSince parser videoInputs (handed ++ [x]) track :=
  ⟨handed, x, [], rfl, hx, fun _ h => absurd h List.not_mem_nil⟩

namespace StepFrameGate

variable {s s' : StepFrameGate}

/-! ### What one step does -/

def passed (parser : WireParser) (decoders : Decoders) (m : Inbound) : Decoders :=
  (unpublishedTrack parser m).elim decoders decoders.erase

theorem mem_passed {decoders : Decoders} {m : Inbound} {track : String}
    (h : track ∈ passed parser decoders m) :
    track ∈ decoders ∧ unpublishedTrack parser m ≠ some track := by
  unfold passed at h
  cases hname : unpublishedTrack parser m with
  | none =>
    rw [hname] at h
    exact ⟨h, nofun⟩
  | some name =>
    rw [hname] at h
    obtain ⟨hne, hmem⟩ := AList.mem_erase.mp h
    refine ⟨hmem, ?_⟩
    rintro ⟨⟩
    exact hne rfl

/-- The gate once messages without encoded frames were passed on, in order. -/
def passAll (parser : WireParser) (s : StepFrameGate) (ms : List Inbound) : StepFrameGate :=
  ms.foldl (fun s m => s.pass parser m) s

theorem passAll_eq (ms : List Inbound) : s.passAll parser ms =
    { s with
      decoders := ms.foldl (passed parser) s.decoders
      handed := s.handed ++ ms.map .message } := by
  induction ms generalizing s with
  | nil => simp [passAll]
  | cons m ms ih =>
    have hpass : s.passAll parser (m :: ms) = (s.pass parser m).passAll parser ms := rfl
    rw [hpass, ih]
    simp [pass, passed]

/-- A drain passes on the messages without encoded frames up to its end, or up to the next request
that it has to decode. -/
theorem drain_eq (parser : WireParser) (s : StepFrameGate) (d : ℕ) (backlog : List Inbound) :
    ∃ ms, (∀ m ∈ ms, encodedStep parser m = none) ∧
      (backlog = ms ∧ s.drain parser d backlog =
          { (s.passAll parser ms).move d .done with backlog := [], draining := none } ∨
        ∃ m requestId step rest, backlog = ms ++ m :: rest ∧
          encodedStep parser m = some (requestId, step) ∧
          s.drain parser d backlog =
            { (s.passAll parser ms).move d
                (.decoding m requestId step (s.passAll parser ms).decoders) with
              backlog := rest }) := by
  induction backlog generalizing s with
  | nil => exact ⟨[], fun _ h => absurd h List.not_mem_nil, .inl ⟨rfl, rfl⟩⟩
  | cons m backlog ih =>
    cases hm : encodedStep parser m with
    | none =>
      obtain ⟨ms, hms, h⟩ := ih (s := s.pass parser m)
      have hstep : s.drain parser d (m :: backlog) = (s.pass parser m).drain parser d backlog := by
        rw [drain, hm]
      refine ⟨m :: ms, ?_, ?_⟩
      · intro x hx
        rcases List.mem_cons.mp hx with rfl | hx
        · exact hm
        · exact hms x hx
      · rw [hstep]
        rcases h with ⟨rfl, h⟩ | ⟨x, requestId, step, rest, rfl, hx, h⟩
        · exact .inl ⟨rfl, h⟩
        · exact .inr ⟨x, requestId, step, rest, rfl, hx, h⟩
    | some request =>
      obtain ⟨requestId, step⟩ := request
      refine ⟨[], fun _ h => absurd h List.not_mem_nil, .inr ?_⟩
      refine ⟨m, requestId, step, backlog, rfl, hm, ?_⟩
      rw [drain, hm]
      rfl

def arrive (s : StepFrameGate) (m : Inbound) : StepFrameGate :=
  if s.closedAt.isNone then { s with arrived := s.arrived ++ [m] } else s

theorem arrive_eq (m : Inbound) : ∃ arrived, s.arrive m = { s with arrived } ∧
    (s.closedAt = none → arrived = s.arrived ++ [m]) := by
  unfold arrive
  split_ifs with h
  · exact ⟨_, rfl, fun _ => rfl⟩
  · exact ⟨s.arrived, rfl, fun hnone => absurd (by rw [hnone]; rfl) h⟩

/-- What a drain has done when it is at the head of its loop: nothing, or the decode that it waited
for. -/
inductive Resumes (parser : WireParser) (videoInputs : List String) (s : StepFrameGate) (d : ℕ) :
    Label → StepFrameGate → Prop
  | begins (hstage : (s.drains d).stage = .created) : Resumes parser videoInputs s d (.begins d) s
  | decoded {m : Inbound} {requestId : String} {step : RequestStep} {copy decoders : Decoders}
      {decoded : Option (ℕ → Decoded)} {outcome : Except StepFrameRefusal Pictures}
      (hstage : (s.drains d).stage = .decoding m requestId step copy)
      (hdecoded : decodeStepFrames videoInputs step copy decoded = some (decoders, outcome)) :
      Resumes parser videoInputs s d (.decoded d decoded)
        ({ s with decoders := decoders ∪ s.decoders }.outcome m requestId outcome)

inductive Step (parser : WireParser) (videoInputs : List String) (s : StepFrameGate) :
    Label → StepFrameGate → Prop
  | passes {m : Inbound} (hfree : s.draining = none) (hm : encodedStep parser m = none) :
      Step parser videoInputs s (.submit m) ((s.arrive m).pass parser m)
  | queues {m : Inbound} {d : ℕ} (hdraining : s.draining = some d) :
      Step parser videoInputs s (.submit m) { s.arrive m with backlog := s.backlog ++ [m] }
  | starts {m : Inbound} {request : String × RequestStep} (hfree : s.draining = none)
      (hm : encodedStep parser m = some request) :
      Step parser videoInputs s (.submit m) { (s.arrive m).move s.created .created with
        backlog := s.backlog ++ [m], draining := some s.created, created := s.created + 1 }
  | closes : Step parser videoInputs s .close s.close
  | dropped {d : ℕ} (hcancelled : (s.drains d).cancelled = true)
      (hstage : (s.drains d).stage = .created) :
      Step parser videoInputs s (.begins d) (s.move d .done)
  | stops {d : ℕ} (hcancelled : (s.drains d).cancelled = true) :
      Step parser videoInputs s (.cancelled d) { s.move d .done with draining := none }
  | fails {d : ℕ} {decoded : Option (ℕ → Decoded)} {m : Inbound} {requestId : String}
      {step : RequestStep} {copy : Decoders} (hcancelled : (s.drains d).cancelled = false)
      (hstage : (s.drains d).stage = .decoding m requestId step copy)
      (hdecoded : decodeStepFrames videoInputs step copy decoded = none) :
      Step parser videoInputs s (.decoded d decoded) { s.move d .done with draining := none }
  | goesOn {d : ℕ} {l : Label} {t : StepFrameGate} (hcancelled : (s.drains d).cancelled = false)
      (ht : Resumes parser videoInputs s d l t) :
      Step parser videoInputs s l (t.drain parser d t.backlog)

theorem step_of_next {l : Label} (h : s.next parser videoInputs l = some s') :
    Step parser videoInputs s l s' := by
  cases l with
  | submit m =>
    cases h
    obtain ⟨arrived, harrive, -⟩ := arrive_eq (s := s) m
    have hsubmit : s.submit parser m =
        if (s.arrive m).draining.isNone && (encodedStep parser m).isNone then
          (s.arrive m).pass parser m
        else if (s.arrive m).draining.isNone then
          { ({ s.arrive m with backlog := (s.arrive m).backlog ++ [m] }).move
              (s.arrive m).created .created with
            draining := some (s.arrive m).created, created := (s.arrive m).created + 1 }
        else { s.arrive m with backlog := (s.arrive m).backlog ++ [m] } := rfl
    cases hdraining : s.draining with
    | some d =>
      have heq : s.submit parser m = { s.arrive m with backlog := s.backlog ++ [m] } := by
        rw [hsubmit, harrive]
        simp [hdraining]
      rw [heq]
      exact .queues hdraining
    | none =>
      cases hm : encodedStep parser m with
      | none =>
        have heq : s.submit parser m = (s.arrive m).pass parser m := by
          rw [hsubmit, harrive]
          simp [hdraining, hm]
        rw [heq]
        exact .passes hdraining hm
      | some request =>
        have heq : s.submit parser m = { (s.arrive m).move s.created .created with
            backlog := s.backlog ++ [m]
            draining := some s.created
            created := s.created + 1 } := by
          rw [hsubmit, harrive]
          simp [hdraining, hm, move]
        rw [heq]
        exact .starts hdraining hm
  | close =>
    cases h
    exact .closes
  | begins d =>
    simp only [next] at h
    split at h
    · next hstage =>
      split_ifs at h with hcancelled
      · cases h
        exact .dropped hcancelled hstage
      · cases h
        exact .goesOn (by simpa using hcancelled) (.begins hstage)
    · cases h
  | decoded d decoded =>
    simp only [next] at h
    split at h
    · next m requestId step copy hstage =>
      split_ifs at h with hcancelled
      split at h
      · next hdecoded =>
        cases h
        exact .fails (by simpa using hcancelled) hstage hdecoded
      · next decoders outcome hdecoded =>
        cases h
        have ht : Resumes parser videoInputs s d _ _ := .decoded hstage hdecoded
        cases outcome with
        | error refusal => exact .goesOn (by simpa using hcancelled) ht
        | ok pictures => exact .goesOn (by simpa using hcancelled) ht
    · cases h
  | cancelled d =>
    simp only [next] at h
    split at h
    · split_ifs at h with hcancelled
      cases h
      exact .stops hcancelled
    · cases h

/-! ### The drains -/

def alive : DrainStage → Bool
  | .created | .decoding .. => true
  | .absent | .done => false

/-- The one drain that is to go on is the one that the gate holds, until the gate is closed. -/
structure Held (s : StepFrameGate) : Prop where
  uncancelled : s.closedAt = none → ∀ d, (s.drains d).cancelled = false
  held : s.closedAt = none → ∀ d, alive (s.drains d).stage = true ↔ s.draining = some d

@[simp] theorem move_drains_same (d : ℕ) (stage : DrainStage) :
    (s.move d stage).drains d = { s.drains d with stage } := by
  simp [move]

theorem move_drains_ne {d d' : ℕ} (stage : DrainStage) (h : d' ≠ d) :
    (s.move d stage).drains d' = s.drains d' := by
  simp [move, h]

theorem cancelled_move (d d' : ℕ) (stage : DrainStage) :
    ((s.move d stage).drains d').cancelled = (s.drains d').cancelled := by
  by_cases h : d' = d
  · subst h
    simp
  · rw [move_drains_ne stage h]

/-- What a drain has done when it is at the head of its loop is in the handed messages and in the
decoders. -/
theorem Resumes.eq {d : ℕ} {l : Label} {t : StepFrameGate}
    (h : Resumes parser videoInputs s d l t) :
    ∃ decoders handed, t = { s with decoders, handed } ∧ alive (s.drains d).stage = true := by
  cases h with
  | begins hstage => exact ⟨_, _, rfl, by rw [hstage]; rfl⟩
  | @decoded _ _ _ _ _ _ outcome hstage _ =>
    cases outcome with
    | error refusal => exact ⟨_, _, rfl, by rw [hstage]; rfl⟩
    | ok pictures => exact ⟨_, _, rfl, by rw [hstage]; rfl⟩

/-- A drain that goes on ends, and the gate lets go of it, or it waits for a decode. -/
theorem drain_move (parser : WireParser) (s : StepFrameGate) (d : ℕ) (backlog : List Inbound) :
    ∃ stage decoders handed rest draining,
      s.drain parser d backlog =
        { s.move d stage with decoders, handed, draining, backlog := rest } ∧
      (alive stage = false ∧ draining = none ∧ rest = [] ∨
        alive stage = true ∧ draining = s.draining) := by
  obtain ⟨ms, -, ⟨-, h⟩ | ⟨m, requestId, step, rest, -, -, h⟩⟩ :=
    drain_eq parser s d backlog
  · rw [h, passAll_eq]
    exact ⟨.done, _, _, _, _, rfl, .inl ⟨rfl, rfl, rfl⟩⟩
  · rw [h, passAll_eq]
    exact ⟨.decoding m requestId step _, _, _, _, _, rfl, .inr ⟨rfl, rfl⟩⟩

namespace Held

theorem init : Held ({} : StepFrameGate) :=
  ⟨fun _ _ => rfl, fun _ _ => ⟨nofun, nofun⟩⟩

/-- The gate once a drain moved: the gate holds it on as long as it is to go on. -/
theorem move (h : s.Held) {d : ℕ} (stage : DrainStage) {draining : Option ℕ}
    (hdrains : s'.drains = (s.move d stage).drains) (hdraining : s'.draining = draining)
    (hclosed : s'.closedAt = s.closedAt) (hd : s.closedAt = none → s.draining = some d)
    (hstage : alive stage = false ∧ draining = none ∨
      alive stage = true ∧ draining = s.draining) : s'.Held := by
  refine ⟨fun hopen d' => ?_, fun hopen d' => ?_⟩
  · rw [hdrains, cancelled_move]
    exact h.uncancelled (hclosed ▸ hopen) d'
  · rw [hclosed] at hopen
    rw [hdrains, hdraining]
    have hheld := h.held hopen d'
    rw [hd hopen] at hheld
    by_cases hd' : d' = d
    · subst hd'
      rw [move_drains_same]
      rcases hstage with ⟨hstage, rfl⟩ | ⟨hstage, rfl⟩
      · simp [hstage]
      · simp [hstage, hd hopen]
    · rw [move_drains_ne stage hd', hheld]
      have hne : d ≠ d' := Ne.symm hd'
      rcases hstage with ⟨-, rfl⟩ | ⟨-, rfl⟩
      · simp [hne]
      · simp [hd hopen]

theorem next {l : Label} (h : s.Held) (hnext : s.next parser videoInputs l = some s') :
    s'.Held := by
  have hstep := step_of_next hnext
  cases hstep with
  | @passes m hfree hm =>
    obtain ⟨arrived, harrive, -⟩ := arrive_eq (s := s) m
    rw [harrive]
    exact ⟨h.uncancelled, h.held⟩
  | @queues m d hdraining =>
    obtain ⟨arrived, harrive, -⟩ := arrive_eq (s := s) m
    rw [harrive]
    exact ⟨h.uncancelled, h.held⟩
  | @starts m request hfree hm =>
    obtain ⟨arrived, harrive, -⟩ := arrive_eq (s := s) m
    rw [harrive]
    refine ⟨fun hopen d' => ?_, fun hopen d' => ?_⟩
    · show (({ s with arrived }.move s.created .created).drains d').cancelled = false
      rw [cancelled_move]
      exact h.uncancelled hopen d'
    · show alive (({ s with arrived }.move s.created .created).drains d').stage = true ↔
        some s.created = some d'
      have hheld := h.held hopen d'
      rw [hfree] at hheld
      by_cases hd' : d' = s.created
      · subst hd'
        simp [alive]
      · rw [move_drains_ne _ hd']
        have hne : s.created ≠ d' := Ne.symm hd'
        simpa [hne] using hheld
  | closes =>
    have hclosed : s.close.closedAt ≠ none := by
      unfold close
      cases s.draining <;> cases s.closedAt <;> simp
    exact ⟨fun hopen => absurd hopen hclosed, fun hopen => absurd hopen hclosed⟩
  | @dropped d hcancelled hstage =>
    have hclosed : s.closedAt ≠ none := by
      intro hopen
      rw [h.uncancelled hopen d] at hcancelled
      cases hcancelled
    exact ⟨fun hopen => absurd hopen hclosed, fun hopen => absurd hopen hclosed⟩
  | @stops d hcancelled =>
    have hclosed : s.closedAt ≠ none := by
      intro hopen
      rw [h.uncancelled hopen d] at hcancelled
      cases hcancelled
    exact ⟨fun hopen => absurd hopen hclosed, fun hopen => absurd hopen hclosed⟩
  | @fails d decoded m requestId step copy hcancelled hstage hdecoded =>
    refine h.move (d := d) .done rfl rfl rfl (fun hopen => ?_) (.inl ⟨rfl, rfl⟩)
    exact (h.held hopen d).mp (by rw [hstage]; rfl)
  | @goesOn d l t hcancelled ht =>
    obtain ⟨decoders, handed, rfl, halive⟩ := ht.eq
    obtain ⟨stage, decoders', handed', rest, draining, heq, hstage⟩ :=
      drain_move parser { s with decoders, handed } d s.backlog
    rw [heq]
    refine h.move (d := d) stage rfl rfl rfl
      (fun hopen => (h.held hopen d).mp halive) ?_
    rcases hstage with ⟨hstage, hdraining, -⟩ | hstage
    · exact .inl ⟨hstage, hdraining⟩
    · exact .inr hstage

end Held

/-! ### What the gate keeps and hands on -/

/-- What a drain decodes is a request with an encoded frame; every decoder is for an input track of
the model; and what was done with each message is what the gate is for. -/
structure Sound (parser : WireParser) (videoInputs : List String) (s : StepFrameGate) : Prop where
  decoding : ∀ d m requestId step copy, (s.drains d).stage = .decoding m requestId step copy →
    encodedStep parser m = some (requestId, step) ∧ ∀ track ∈ copy, track ∈ videoInputs
  fits : ∀ h ∈ s.handed, h.Fits parser videoInputs
  inputs : ∀ track ∈ s.decoders, track ∈ videoInputs

namespace Sound

theorem init : Sound parser videoInputs ({} : StepFrameGate) :=
  ⟨fun _ _ _ _ _ => nofun, fun _ h => absurd h List.not_mem_nil,
    fun _ h => absurd h (AList.notMem_empty _)⟩

theorem move (h : s.Sound parser videoInputs) (d : ℕ) (stage : DrainStage)
    (hstage : ∀ m requestId step copy, stage ≠ .decoding m requestId step copy) :
    (s.move d stage).Sound parser videoInputs := by
  refine ⟨fun d' m requestId step copy hd' => ?_, h.fits, h.inputs⟩
  by_cases hd : d' = d
  · subst hd
    rw [move_drains_same] at hd'
    exact absurd hd' (hstage _ _ _ _)
  · rw [move_drains_ne stage hd] at hd'
    exact h.decoding d' m requestId step copy hd'

theorem mem_foldl_passed {ms : List Inbound} {decoders : Decoders} {track : String}
    (h : track ∈ ms.foldl (passed parser) decoders) : track ∈ decoders := by
  induction ms generalizing decoders with
  | nil => exact h
  | cons m ms ih => exact (mem_passed (ih h)).1

theorem passAll (h : s.Sound parser videoInputs) (ms : List Inbound)
    (hms : ∀ m ∈ ms, encodedStep parser m = none) :
    (s.passAll parser ms).Sound parser videoInputs := by
  rw [passAll_eq]
  refine ⟨h.decoding, fun x hx => ?_, fun track htrack => h.inputs track (mem_foldl_passed htrack)⟩
  rcases List.mem_append.mp hx with hx | hx
  · exact h.fits x hx
  · obtain ⟨m, hm, rfl⟩ := List.mem_map.mp hx
    exact hms m hm

theorem drain (h : s.Sound parser videoInputs) (d : ℕ) (backlog : List Inbound) :
    (s.drain parser d backlog).Sound parser videoInputs := by
  obtain ⟨ms, hms, ⟨-, heq⟩ | ⟨m, requestId, step, rest, -, hm, heq⟩⟩ :=
    drain_eq parser s d backlog
  · rw [heq]
    have hmove := (h.passAll ms hms).move d .done (fun _ _ _ _ => nofun)
    exact ⟨hmove.decoding, hmove.fits, hmove.inputs⟩
  · rw [heq]
    have hpassed := h.passAll ms hms
    refine ⟨fun d' m' requestId' step' copy hd' => ?_, hpassed.fits, hpassed.inputs⟩
    by_cases hd : d' = d
    · subst hd
      have hd' : (((s.passAll parser ms).move d' (.decoding m requestId step
        (s.passAll parser ms).decoders)).drains d').stage = _ := hd'
      rw [move_drains_same] at hd'
      cases hd'
      exact ⟨hm, hpassed.inputs⟩
    · have hd' : (((s.passAll parser ms).move d (.decoding m requestId step
        (s.passAll parser ms).decoders)).drains d').stage = _ := hd'
      rw [move_drains_ne _ hd] at hd'
      exact hpassed.decoding d' m' requestId' step' copy hd'

theorem resumes (h : s.Sound parser videoInputs) {d : ℕ} {l : Label} {t : StepFrameGate}
    (ht : Resumes parser videoInputs s d l t) : t.Sound parser videoInputs := by
  cases ht with
  | begins hstage => exact h
  | @decoded m requestId step copy decoders decoded outcome hstage hdecoded =>
    obtain ⟨hm, hcopy⟩ := h.decoding d m requestId step copy hstage
    have hinputs : ∀ track ∈ decoders ∪ s.decoders, track ∈ videoInputs := by
      intro track htrack
      rcases AList.mem_union.mp htrack with htrack | htrack
      · rcases mem_of_decodeStepFrames hdecoded htrack with htrack | ⟨stream, hstream, rfl⟩
        · exact hcopy track htrack
        · exact track_of_mem_checkEntries hstream
      · exact h.inputs track htrack
    cases outcome with
    | error refusal =>
      refine ⟨h.decoding, fun x hx => ?_, hinputs⟩
      rcases List.mem_append.mp hx with hx | hx
      · exact h.fits x hx
      · rw [List.mem_singleton.mp hx]
        exact ⟨step, copy, decoders, decoded, hm, hdecoded⟩
    | ok pictures =>
      refine ⟨h.decoding, fun x hx => ?_, hinputs⟩
      rcases List.mem_append.mp hx with hx | hx
      · exact h.fits x hx
      · rw [List.mem_singleton.mp hx]
        exact ⟨requestId, step, copy, decoders, decoded, hm, hdecoded⟩

theorem arrive (h : s.Sound parser videoInputs) (m : Inbound) :
    (s.arrive m).Sound parser videoInputs := by
  obtain ⟨arrived, harrive, -⟩ := arrive_eq (s := s) m
  rw [harrive]
  exact ⟨h.decoding, h.fits, h.inputs⟩

theorem close (h : s.Sound parser videoInputs) : s.close.Sound parser videoInputs := by
  unfold StepFrameGate.close
  cases s.draining with
  | none => exact ⟨h.decoding, h.fits, fun _ h => absurd h (AList.notMem_empty _)⟩
  | some d =>
    refine ⟨fun d' m requestId step copy hd' => ?_, h.fits,
      fun _ h => absurd h (AList.notMem_empty _)⟩
    refine h.decoding d' m requestId step copy ?_
    by_cases hd : d' = d
    · subst hd
      simpa using hd'
    · simpa [hd] using hd'

theorem next {l : Label} (h : s.Sound parser videoInputs)
    (hnext : s.next parser videoInputs l = some s') : s'.Sound parser videoInputs := by
  have hstep := step_of_next hnext
  cases hstep with
  | @passes m hfree hm =>
    refine (h.arrive m).passAll [m] fun x hx => ?_
    rw [List.mem_singleton.mp hx]
    exact hm
  | @queues m d hdraining =>
    have hmid := h.arrive m
    exact ⟨hmid.decoding, hmid.fits, hmid.inputs⟩
  | @starts m request hfree hm =>
    have hmid := (h.arrive m).move s.created .created (fun _ _ _ _ => nofun)
    exact ⟨hmid.decoding, hmid.fits, hmid.inputs⟩
  | closes => exact h.close
  | dropped hcancelled hstage => exact h.move _ _ (fun _ _ _ _ => nofun)
  | @stops d hcancelled =>
    have hmid := h.move d .done (fun _ _ _ _ => nofun)
    exact ⟨hmid.decoding, hmid.fits, hmid.inputs⟩
  | @fails d decoded m requestId step copy hcancelled hstage hdecoded =>
    have hmid := h.move d .done (fun _ _ _ _ => nofun)
    exact ⟨hmid.decoding, hmid.fits, hmid.inputs⟩
  | @goesOn d l t hcancelled ht => exact (h.resumes ht).drain d t.backlog

end Sound

/-! ### The order of the messages -/

def decodingMessage (s : StepFrameGate) : List Inbound :=
  match s.draining with
  | none => []
  | some d =>
    match (s.drains d).stage with
    | .decoding m _ _ _ => [m]
    | _ => []

def waiting (s : StepFrameGate) : List Inbound := s.decodingMessage ++ s.backlog

/-- Until the gate is closed, what was done with the messages is in the order in which they arrived,
each once, and those that wait follow; and a drain is to go on while a message waits. -/
structure InOrder (s : StepFrameGate) : Prop where
  arrived : s.closedAt = none → s.handed.map Handed.inbound ++ s.waiting = s.arrived
  goesOn : s.closedAt = none → s.waiting ≠ [] →
    ∃ d, s.draining = some d ∧ alive (s.drains d).stage = true ∧ (s.drains d).cancelled = false

def decodeRaises (videoInputs : List String) (s : StepFrameGate) : Label → Bool
  | .decoded d decoded =>
    match (s.drains d).stage with
    | .decoding _ _ step decoders => (decodeStepFrames videoInputs step decoders decoded).isNone
    | _ => false
  | _ => false

structure Ordered (s : StepFrameGate) : Prop where
  arrived : s.closedAt = none → s.handed.map Handed.inbound ++ s.waiting = s.arrived
  backlog : s.closedAt = none → s.draining = none → s.backlog = []

theorem decodingMessage_of_none (h : s.draining = none) : s.decodingMessage = [] := by
  rw [decodingMessage, h]

/-- A drain that goes on loses no message and changes no order. -/
theorem drain_order {d : ℕ} (hdraining : s.draining = some d) :
    (s.drain parser d s.backlog).handed.map Handed.inbound ++ (s.drain parser d s.backlog).waiting =
      s.handed.map Handed.inbound ++ s.backlog := by
  have hinbound : ∀ ms : List Inbound, (ms.map Handed.message).map Handed.inbound = ms := by
    intro ms
    rw [List.map_map]
    exact List.map_id ms
  obtain ⟨ms, -, ⟨hbacklog, heq⟩ | ⟨m, requestId, step, rest, hbacklog, -, heq⟩⟩ :=
    drain_eq parser s d s.backlog
  · rw [heq, passAll_eq]
    simp [waiting, decodingMessage, move, hinbound, hbacklog]
  · rw [heq, passAll_eq, hbacklog]
    simp [waiting, decodingMessage, move, hinbound, hdraining]

namespace Ordered

theorem init : Ordered ({} : StepFrameGate) := ⟨fun _ => rfl, fun _ _ => rfl⟩

theorem of_closed (h : s.closedAt ≠ none) : s.Ordered :=
  ⟨fun hopen => absurd hopen h, fun hopen => absurd hopen h⟩

theorem next {l : Label} (h : s.Ordered) (hheld : s.Held)
    (hdecodes : s.decodeRaises videoInputs l = false)
    (hnext : s.next parser videoInputs l = some s') : s'.Ordered := by
  have hclosed : ∀ {d}, (s.drains d).cancelled = true → s.closedAt ≠ none := by
    intro d hcancelled hopen
    rw [hheld.uncancelled hopen d] at hcancelled
    cases hcancelled
  have hstep := step_of_next hnext
  cases hstep with
  | @passes m hfree hm =>
    obtain ⟨arrived, harrive, harrived⟩ := arrive_eq (s := s) m
    rw [harrive]
    refine ⟨fun hopen => ?_, fun hopen hdraining => h.backlog hopen hdraining⟩
    have hsame := h.arrived hopen
    have hnone : s.waiting = [] := by
      rw [waiting, decodingMessage_of_none hfree, h.backlog hopen hfree]
      rfl
    rw [hnone, List.append_nil] at hsame
    show (s.handed ++ [Handed.message m]).map Handed.inbound ++ s.waiting = arrived
    rw [harrived hopen, hnone, ← hsame]
    simp [Handed.inbound]
  | @queues m d hdraining =>
    obtain ⟨arrived, harrive, harrived⟩ := arrive_eq (s := s) m
    rw [harrive]
    refine ⟨fun hopen => ?_, fun _ hnone => absurd (hdraining.symm.trans hnone) nofun⟩
    show s.handed.map Handed.inbound ++ (s.decodingMessage ++ (s.backlog ++ [m])) = arrived
    have hsame := h.arrived hopen
    rw [harrived hopen, ← hsame, waiting]
    simp
  | @starts m request hfree hm =>
    obtain ⟨arrived, harrive, harrived⟩ := arrive_eq (s := s) m
    rw [harrive]
    refine ⟨fun hopen => ?_, fun _ => nofun⟩
    have hsame := h.arrived hopen
    have hbacklog := h.backlog hopen hfree
    rw [waiting, decodingMessage_of_none hfree, hbacklog] at hsame
    rw [harrived hopen, ← hsame]
    simp [waiting, decodingMessage, StepFrameGate.move, hbacklog]
  | closes =>
    refine of_closed ?_
    unfold close
    cases s.draining <;> cases s.closedAt <;> simp
  | dropped hcancelled hstage => exact of_closed (hclosed hcancelled)
  | stops hcancelled => exact of_closed (hclosed hcancelled)
  | fails hcancelled hstage hdecoded =>
    simp [decodeRaises, hstage, hdecoded] at hdecodes
  | @goesOn d l t hcancelled ht =>
    obtain ⟨decoders, handed, heq, halive⟩ := ht.eq
    have hopen' : (t.drain parser d t.backlog).closedAt = s.closedAt := by
      obtain ⟨stage, decoders', handed', rest, draining, hdrain, -⟩ :=
        drain_move parser t d t.backlog
      rw [hdrain, heq]
      rfl
    refine ⟨fun hopen => ?_, fun hopen hnone => ?_⟩
    · rw [hopen'] at hopen
      have hdraining : s.draining = some d := (hheld.held hopen d).mp halive
      rw [drain_order (by rw [heq]; exact hdraining)]
      have hsame := h.arrived hopen
      have harrived : (t.drain parser d t.backlog).arrived = s.arrived := by
        obtain ⟨stage, decoders', handed', rest, draining, hdrain, -⟩ :=
          drain_move parser t d t.backlog
        rw [hdrain, heq]
        rfl
      rw [harrived, ← hsame]
      cases ht with
      | begins hstage =>
        simp [waiting, decodingMessage, hdraining, hstage]
      | @decoded m requestId step copy decoders decoded outcome hstage hdecoded =>
        cases outcome <;>
          simp [waiting, decodingMessage, hdraining, hstage, outcome, Handed.inbound]
    · obtain ⟨stage, decoders', handed', rest, draining, hdrain, hend⟩ :=
        drain_move parser t d t.backlog
      rw [hopen'] at hopen
      rw [hdrain] at hnone ⊢
      rcases hend with ⟨-, -, hrest⟩ | ⟨-, hdraining⟩
      · exact hrest
      · have hsome : t.draining = some d := by
          rw [heq]
          exact (hheld.held hopen d).mp halive
        have hnone : draining = none := hnone
        rw [hdraining, hsome] at hnone
        cases hnone

end Ordered

/-! ### The close -/

/-- Once the gate is closed, nothing more is done with a message, and no decoder is held. -/
def Silent (s : StepFrameGate) : Prop :=
  ∀ handed, s.closedAt = some handed → s.handed = handed ∧ s.decoders = ∅

def arrivesLate (s : StepFrameGate) : Label → Bool
  | .submit _ => s.closedAt.isSome
  | _ => false

structure Closed (s : StepFrameGate) : Prop where
  silent : s.Silent
  cancelled : s.closedAt ≠ none → ∀ d, alive (s.drains d).stage = true →
    (s.drains d).cancelled = true

namespace Closed

theorem init : Closed ({} : StepFrameGate) := ⟨fun _ => nofun, fun h => absurd rfl h⟩

theorem of_open (h : s.closedAt = none) : s.Closed := by
  refine ⟨fun handed hclosed => ?_, fun hclosed => absurd h hclosed⟩
  rw [h] at hclosed
  cases hclosed

/-- A cancelled drain ends. -/
theorem done (h : s.Closed) {d : ℕ} {draining : Option ℕ} :
    ({ s.move d .done with draining } : StepFrameGate).Closed := by
  refine ⟨h.silent, fun hclosed d' halive => ?_⟩
  have halive : alive ((s.move d .done).drains d').stage = true := halive
  show ((s.move d .done).drains d').cancelled = true
  rw [cancelled_move]
  by_cases hd : d' = d
  · subst hd
    rw [move_drains_same] at halive
    cases halive
  · rw [move_drains_ne _ hd] at halive
    exact h.cancelled hclosed d' halive

theorem close (h : s.Closed) (hheld : s.Held) : s.close.Closed := by
  refine ⟨fun handed hclosed => ?_, fun _ d halive => ?_⟩
  · -- what had been handed on is as it was at the first close
    have hhanded : s.close.handed = s.handed ∧ s.close.decoders = ∅ ∧
        s.close.closedAt = s.closedAt.or (some s.handed) := by
      unfold StepFrameGate.close
      cases s.draining <;> exact ⟨rfl, rfl, rfl⟩
    refine ⟨?_, hhanded.2.1⟩
    rw [hhanded.2.2] at hclosed
    rw [hhanded.1]
    cases hopen : s.closedAt with
    | none =>
      rw [hopen] at hclosed
      exact Option.some.inj hclosed
    | some at' =>
      rw [hopen] at hclosed
      rw [(h.silent at' hopen).1]
      exact Option.some.inj hclosed
  · have hopen := hheld.held
    have hcancelled := h.cancelled
    unfold StepFrameGate.close at halive ⊢
    cases hdraining : s.draining with
    | none =>
      rw [hdraining] at halive hopen
      cases hclosed : s.closedAt with
      | none => exact absurd ((hopen hclosed d).mp halive) nofun
      | some _ => exact hcancelled (by rw [hclosed]; nofun) d halive
    | some e =>
      rw [hdraining] at halive hopen
      by_cases hd : d = e
      · subst hd
        simp
      · have halive : alive (s.drains d).stage = true := by simpa [hd] using halive
        show (Function.update s.drains e _ d).cancelled = true
        rw [Function.update_of_ne hd]
        cases hclosed : s.closedAt with
        | none => exact absurd (Option.some.inj ((hopen hclosed d).mp halive)) (Ne.symm hd)
        | some _ => exact hcancelled (by rw [hclosed]; nofun) d halive

theorem next {l : Label} (h : s.Closed) (hheld : s.Held) (hlate : s.arrivesLate l = false)
    (hnext : s.next parser videoInputs l = some s') : s'.Closed := by
  have hstep := step_of_next hnext
  have hopen : ∀ {m}, s.arrivesLate (.submit m) = false → s.closedAt = none := by
    intro m hlate
    simpa [arrivesLate] using hlate
  cases hstep with
  | @passes m hfree hm =>
    obtain ⟨arrived, harrive, -⟩ := arrive_eq (s := s) m
    rw [harrive]
    exact of_open (hopen hlate)
  | @queues m d hdraining =>
    obtain ⟨arrived, harrive, -⟩ := arrive_eq (s := s) m
    rw [harrive]
    exact of_open (hopen hlate)
  | @starts m request hfree hm =>
    obtain ⟨arrived, harrive, -⟩ := arrive_eq (s := s) m
    rw [harrive]
    exact of_open (hopen hlate)
  | closes => exact h.close hheld
  | @dropped d hcancelled hstage => exact h.done
  | stops hcancelled => exact h.done
  | fails hcancelled hstage hdecoded => exact h.done
  | @goesOn d l t hcancelled ht =>
    obtain ⟨decoders, handed, heq, halive⟩ := ht.eq
    have hnone : s.closedAt = none := by
      by_contra hclosed
      rw [h.cancelled hclosed d halive] at hcancelled
      cases hcancelled
    refine of_open ?_
    obtain ⟨stage, decoders', handed', rest, draining, hdrain, -⟩ :=
      drain_move parser t d t.backlog
    rw [hdrain, heq]
    exact hnone

end Closed

/-! ### The decoders of unpublished tracks -/

/-- Every decoder is for a track that a request used since its last unpublish; and a decode works on
a copy of the decoders as they still are. -/
structure Fresh (parser : WireParser) (videoInputs : List String) (s : StepFrameGate) : Prop where
  used : ∀ track ∈ s.decoders, UsedSince parser videoInputs s.handed track
  copy : s.closedAt = none → ∀ d m requestId step copy,
    (s.drains d).stage = .decoding m requestId step copy → copy = s.decoders

namespace Fresh

theorem init : Fresh parser videoInputs ({} : StepFrameGate) :=
  ⟨fun _ h => absurd h (AList.notMem_empty _), fun _ _ _ _ _ _ => nofun⟩

theorem used_passAll (h : ∀ track ∈ s.decoders, UsedSince parser videoInputs s.handed track)
    (ms : List Inbound) : ∀ track ∈ (s.passAll parser ms).decoders,
      UsedSince parser videoInputs (s.passAll parser ms).handed track := by
  induction ms generalizing s with
  | nil => exact h
  | cons m ms ih =>
    refine ih (s := s.pass parser m) fun track htrack => ?_
    obtain ⟨hmem, hunpublished⟩ := mem_passed htrack
    exact (h track hmem).append hunpublished

/-- A drain that goes on leaves no copy but its own. -/
theorem drain {d : ℕ} (h : ∀ track ∈ s.decoders, UsedSince parser videoInputs s.handed track)
    (halone : s.closedAt = none → ∀ d', alive (s.drains d').stage = true → d' = d) :
    (s.drain parser d s.backlog).Fresh parser videoInputs := by
  have hused := fun ms => used_passAll h ms
  have hother : ∀ stage {d' m requestId step copy}, d' ≠ d → s.closedAt = none →
      ((s.move d stage).drains d').stage = .decoding m requestId step copy → False := by
    intro stage d' m requestId step copy hd hopen hstage
    rw [move_drains_ne _ hd] at hstage
    exact hd (halone hopen d' (by rw [hstage]; rfl))
  obtain ⟨ms, hms, ⟨-, heq⟩ | ⟨m, requestId, step, rest, -, hm, heq⟩⟩ :=
    drain_eq parser s d s.backlog
  · have hused := hused ms
    rw [passAll_eq] at heq hused
    rw [heq]
    refine ⟨hused, fun hopen d' m requestId step copy hd' => ?_⟩
    by_cases hd : d' = d
    · subst hd
      have hd' : ((s.move d' .done).drains d').stage = _ := hd'
      rw [move_drains_same] at hd'
      cases hd'
    · exact (hother .done hd hopen hd').elim
  · have hused := hused ms
    rw [passAll_eq] at heq hused
    rw [heq]
    refine ⟨hused, fun hopen d' m' requestId' step' copy hd' => ?_⟩
    by_cases hd : d' = d
    · subst hd
      have hd' : ((s.move d' (.decoding m requestId step
        (ms.foldl (passed parser) s.decoders))).drains d').stage = _ := hd'
      rw [move_drains_same] at hd'
      cases hd'
      rfl
    · exact (hother (.decoding m requestId step
        (ms.foldl (passed parser) s.decoders)) hd hopen hd').elim

/-- The decoders once the decode that a drain waited for ended. -/
theorem resumes (h : s.Fresh parser videoInputs) (hsound : s.Sound parser videoInputs)
    (hopen : s.closedAt = none) {d : ℕ} {l : Label} {t : StepFrameGate}
    (ht : Resumes parser videoInputs s d l t) :
    ∀ track ∈ t.decoders, UsedSince parser videoInputs t.handed track := by
  cases ht with
  | begins hstage => exact h.used
  | @decoded m requestId step copy decoders decoded outcome hstage hdecoded =>
    obtain ⟨hm, -⟩ := hsound.decoding d m requestId step copy hstage
    have hcopy := h.copy hopen d m requestId step copy hstage
    have hnone := unpublishedTrack_of_encodedStep hm
    -- what is done with the request uses the tracks whose decoders it opened
    have hadded : ∀ x : Handed, x.inbound = m → ∀ track ∈ decoders ∪ s.decoders,
        UsedSince parser videoInputs (s.handed ++ [x]) track := by
      intro x hx track htrack
      have hold : track ∈ s.decoders → UsedSince parser videoInputs (s.handed ++ [x]) track :=
        fun hmem => (h.used track hmem).append (by rw [hx, hnone]; nofun)
      rcases AList.mem_union.mp htrack with htrack | htrack
      · rcases mem_of_decodeStepFrames hdecoded htrack with htrack | hstream
        · exact hold (hcopy ▸ htrack)
        · exact usedSince_concat ⟨requestId, step, by rw [hx, hm], hstream⟩
      · exact hold htrack
    cases outcome with
    | error refusal => exact hadded _ rfl
    | ok pictures => exact hadded _ rfl

theorem next {l : Label} (h : s.Fresh parser videoInputs) (hheld : s.Held)
    (hsound : s.Sound parser videoInputs) (hclosed : s.Closed) (hlate : s.arrivesLate l = false)
    (hnext : s.next parser videoInputs l = some s') : s'.Fresh parser videoInputs := by
  have hstep := step_of_next hnext
  have hdone : ∀ {d draining}, ({ s.move d .done with draining } : StepFrameGate).Fresh
      parser videoInputs := by
    intro d draining
    refine ⟨h.used, fun hopen d' m requestId step copy hd' => ?_⟩
    have hd' : ((s.move d .done).drains d').stage = _ := hd'
    by_cases hd : d' = d
    · subst hd
      rw [move_drains_same] at hd'
      cases hd'
    · rw [move_drains_ne _ hd] at hd'
      exact h.copy hopen d' m requestId step copy hd'
  cases hstep with
  | @passes m hfree hm =>
    obtain ⟨arrived, harrive, -⟩ := arrive_eq (s := s) m
    rw [harrive]
    refine ⟨used_passAll (s := { s with arrived }) h.used [m], ?_⟩
    intro hopen d m' requestId step copy hd
    have halive := (hheld.held hopen d).mp (by rw [show (s.drains d).stage = _ from hd]; rfl)
    rw [hfree] at halive
    cases halive
  | @queues m d hdraining =>
    obtain ⟨arrived, harrive, -⟩ := arrive_eq (s := s) m
    rw [harrive]
    exact ⟨h.used, h.copy⟩
  | @starts m request hfree hm =>
    obtain ⟨arrived, harrive, -⟩ := arrive_eq (s := s) m
    rw [harrive]
    refine ⟨h.used, fun hopen d m' requestId step copy hd => ?_⟩
    have hd : (({ s with arrived }.move s.created .created).drains d).stage = _ := hd
    by_cases hcreated : d = s.created
    · subst hcreated
      rw [move_drains_same] at hd
      cases hd
    · rw [move_drains_ne _ hcreated] at hd
      exact h.copy hopen d m' requestId step copy hd
  | closes =>
    have hempty : s.close.decoders = ∅ ∧ s.close.closedAt ≠ none := by
      unfold close
      cases s.draining <;> cases s.closedAt <;> simp
    refine ⟨fun track htrack => ?_, fun hopen => absurd hopen hempty.2⟩
    rw [hempty.1] at htrack
    exact absurd htrack (AList.notMem_empty _)
  | @dropped d hcancelled hstage => exact hdone
  | stops hcancelled => exact hdone
  | fails hcancelled hstage hdecoded => exact hdone
  | @goesOn d l t hcancelled ht =>
    obtain ⟨decoders, handed, heq, halive⟩ := ht.eq
    have hopen : s.closedAt = none := by
      by_contra hclosed'
      rw [hclosed.cancelled hclosed' d halive] at hcancelled
      cases hcancelled
    refine drain (h.resumes hsound hopen ht) fun _ d' halive' => ?_
    rw [heq] at halive'
    have hd := (hheld.held hopen d).mp halive
    exact Option.some.inj (((hheld.held hopen d').mp halive').symm.trans hd)

end Fresh

/-! ### Every run -/

/-- **A connection's messages keep their order.**  In a run in which no decode raises, what was done
with the messages until the close is what arrived, each once and in order, followed by those that
wait.  In one in which no message arrives after the close, nothing is done with a message and no
decoder is held from the close on, and every decoder is for a track that a request used since its
last unpublish.  In every run, a message is handled as what it is, and the decoders are for input
tracks of the model, at most one for each. -/
theorem messages_gated (parser : WireParser) (videoInputs : List String) (ls : List Label)
    (hrun : (stepFrameGate parser videoInputs).run ls = some s) :
    ((stepFrameGate parser videoInputs).AllSteps
        (fun s l => s.decodeRaises videoInputs l = false) ls → s.InOrder) ∧
    ((stepFrameGate parser videoInputs).AllSteps (fun s l => s.arrivesLate l = false) ls →
      s.Silent ∧ ∀ track ∈ s.decoders.keys, UsedSince parser videoInputs s.handed track) ∧
    (∀ h ∈ s.handed, h.Fits parser videoInputs) ∧
    s.decoders.keys.Nodup ∧ ∀ track ∈ s.decoders.keys, track ∈ videoInputs := by
  have hheld : (stepFrameGate parser videoInputs).IsInvariant Held :=
    ⟨Held.init, fun _ _ _ h hnext => h.next hnext⟩
  have hsound : (stepFrameGate parser videoInputs).IsInvariant (Sound parser videoInputs) :=
    ⟨Sound.init, fun _ _ _ h hnext => h.next hnext⟩
  have hsound' := hsound.of_run hrun
  refine ⟨fun hdecodes => ?_, fun hlate => ?_, hsound'.fits, s.decoders.keys_nodup, hsound'.inputs⟩
  · obtain ⟨hordered, -⟩ := hdecodes.invariant (I := fun s => Ordered s ∧ Held s)
      ⟨Ordered.init, Held.init⟩
      (fun _ _ _ h hl hnext => ⟨h.1.next h.2 hl hnext, h.2.next hnext⟩) hrun
    have hheld' := hheld.of_run hrun
    refine ⟨hordered.arrived, fun hopen hwaiting => ?_⟩
    -- a message waits only while the gate holds a drain, and that drain is to go on
    cases hdraining : s.draining with
    | none =>
      rw [waiting, decodingMessage_of_none hdraining, hordered.backlog hopen hdraining] at hwaiting
      exact absurd rfl hwaiting
    | some d => exact ⟨d, rfl, (hheld'.held hopen d).mpr hdraining, hheld'.uncancelled hopen d⟩
  · obtain ⟨hclosed, hfresh, -⟩ := hlate.invariant
      (I := fun s => Closed s ∧ Fresh parser videoInputs s ∧ Held s ∧ Sound parser videoInputs s)
      ⟨Closed.init, Fresh.init, Held.init, Sound.init⟩
      (fun _ _ _ ⟨hclosed, hfresh, hheld, hsound⟩ hl hnext =>
        ⟨hclosed.next hheld hl hnext, hfresh.next hheld hsound hclosed hl hnext,
          hheld.next hnext, hsound.next hnext⟩) hrun
    exact ⟨hclosed.silent, hfresh.used⟩

/-- A step request whose one frame, of the track `cam`, is a slice of an IDR picture. -/
def stepBytes : List UInt8 :=
  [0x0A, 1, 0x72, 0x5A, 18, 0x1A, 16, 0x0A, 3, 0x63, 0x61, 0x6D, 0x1A, 9, 8, 2, 0x22, 5,
    0, 0, 1, 0x65, 0x88]

def commandBytes : List UInt8 := [0x52, 4, 0x0A, 2, 0x67, 0x6F]

/-- The unpublish of the track `cam`. -/
def unpublishBytes : List UInt8 := [0x92, 1, 5, 0x0A, 3, 0x63, 0x61, 0x6D]

/-- The parser, on these messages. -/
def someParser : WireParser where
  parse channel b :=
    if channel = .data ∧ b = stepBytes then
      some (.data { requestId := "r", payload := some (.requestStep {
        state := [], commands := [], mediaInput := [{
          track := "cam", kind := 0, rate := .zero, frames := [{
            encoding := h264, dtype := "", shape := [], data := [0, 0, 1, 0x65, 0x88]
            metadata := none, captureTimeUs := none }] }] }) })
    else if channel = .data ∧ b = commandBytes then
      some (.data { payload := some (.command { type := "go", data := [], uploads := [] }) })
    else if channel = .control ∧ b = unpublishBytes then
      some (.control { payload := some (.unpublishTrack "cam") })
    else none

/-- A message of each kind arrives while a request decodes, and the gate is closed. -/
def gatedRun : List Label :=
  [.submit ⟨.bytes stepBytes, .v1, .data⟩, .begins 0,
   .submit ⟨.bytes unpublishBytes, .v1, .control⟩, .submit ⟨.bytes commandBytes, .v1, .data⟩,
   .submit ⟨.bytes stepBytes, .v1, .data⟩,
   .decoded 0 (some fun _ => .ok [(0, ⟨2, 2, []⟩)]), .close, .cancelled 0]

theorem isSome_gatedRun : ((stepFrameGate someParser ["cam"]).run gatedRun).isSome := rfl

theorem messages_gated_closed :
    (((stepFrameGate someParser ["cam"]).run gatedRun).get isSome_gatedRun).InOrder ∧
      (((stepFrameGate someParser ["cam"]).run gatedRun).get isSome_gatedRun).Silent := by
  have h := messages_gated someParser ["cam"] gatedRun (Option.some_get isSome_gatedRun).symm
  exact ⟨h.1 (by decide +kernel), (h.2.1 (by decide +kernel)).1⟩

/-- The decode of a request raises while a command waits, and another command overtakes it. -/
def raisedRun : List Label :=
  [.submit ⟨.bytes stepBytes, .v1, .data⟩, .begins 0, .submit ⟨.bytes commandBytes, .v1, .data⟩,
   .decoded 0 none, .submit ⟨.bytes [0x52, 0], .v1, .data⟩]

theorem isSome_raisedRun : ((stepFrameGate someParser ["cam"]).run raisedRun).isSome := rfl

def lateRun : List Label := [.close, .submit ⟨.bytes commandBytes, .v1, .data⟩]

theorem isSome_lateRun : ((stepFrameGate someParser ["cam"]).run lateRun).isSome := rfl

theorem not_messages_gated :
    ¬(((stepFrameGate someParser ["cam"]).run raisedRun).get isSome_raisedRun).InOrder ∧
      ¬(((stepFrameGate someParser ["cam"]).run lateRun).get isSome_lateRun).Silent := by
  refine ⟨fun h => ?_, fun h => ?_⟩
  · have harrived := congrArg List.length (h.arrived (by decide +kernel))
    exact absurd harrived (by decide +kernel)
  · have hsilent := (h [] rfl).1
    exact absurd (congrArg List.length hsilent) (by decide +kernel)

end StepFrameGate

end ReactorRuntime.Transport
