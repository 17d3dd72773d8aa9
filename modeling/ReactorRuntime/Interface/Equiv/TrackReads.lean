import ReactorRuntime.Interface.TrackReads
import Mathlib.Data.List.Basic

/-!
# Closing a track releases its readers

A read that waited when the track was closed ends with `BufferClosed` if it has the lock before the
track is reset, and otherwise finds an open track.  So the readers of every close are released in
exactly those runs in which no reset overtakes one of them (`releases_iff`).
-/

namespace ReactorRuntime.Interface

namespace TrackReads

variable {s s' : TrackReads}

/-- Every read that was parked at a close has ended with `BufferClosed`, or does so once it has the
lock. -/
def Releases (s : TrackReads) : Prop :=
  ∀ i reader, s.readers[i]? = some reader → reader.released = true →
    reader.phase = .ended .closed ∨ reader.phase = .woken ∧ ∀ late,
      ∃ s', s.next (.acquire i late) = some s' ∧
        s'.readers[i]? = some { reader with phase := .ended .closed }

/-- No reset comes while a read that was released has yet to take the lock. -/
def InTime (s : TrackReads) : Label → Prop
  | .reset _ => ∀ reader ∈ s.readers, reader.released = true → reader.phase ≠ .woken
  | _ => True

instance (s : TrackReads) : (l : Label) → Decidable (s.InTime l)
  | .reset _ => inferInstanceAs (Decidable (∀ reader ∈ s.readers, _))
  | .push .. | .tryRead .. | .clear | .close | .start .. | .expire _ | .acquire .. =>
    .isTrue trivial

/-- The track is closed, with too few frames, as long as a released read has yet to see it. -/
def Pending (s : TrackReads) : Prop :=
  ∀ reader ∈ s.readers, reader.released = true →
    reader.phase = .ended .closed ∨
      (reader.phase = .woken ∧ s.buffer.closed = true ∧ s.buffer.buffer.length < reader.n)

theorem acquire_of_woken {i : ℕ} {reader : TrackReader} (hi : s.readers[i]? = some reader)
    (hwoken : reader.phase = .woken) (late : Bool) :
    s.next (.acquire i late) = some (s.acquire i reader late) := by
  rw [next, hi, Option.bind_some, if_pos hwoken]

theorem acquire_readers {i : ℕ} {reader : TrackReader} (hi : s.readers[i]? = some reader)
    (late : Bool) : ∃ phase, (s.acquire i reader late).readers[i]? = some { reader with phase } ∧
      ((s.look reader.n reader.mode).2 = some .closed ↔ phase = .ended .closed) := by
  have hlt : i < s.readers.length := (List.getElem?_eq_some_iff.mp hi).1
  refine ⟨_, List.getElem?_set_self hlt, ?_⟩
  cases hlook : (s.look reader.n reader.mode).2 with
  | none =>
    cases reader.timed && late <;> simp
  | some result => simp

theorem look_eq_closed_iff (n : ℕ) (mode : ReadMode) :
    (s.look n mode).2 = some .closed ↔
      s.buffer.closed = true ∧ s.buffer.buffer.length < n := by
  unfold look
  by_cases hfits : n ≤ s.buffer.buffer.length
  · rw [if_pos hfits]
    simp only [Option.some.injEq, reduceCtorEq, false_iff, not_and]
    omega
  · rw [if_neg hfits]
    cases hclosed : s.buffer.closed with
    | true => simp; omega
    | false => simp

/-- What a released read will see is what it would see now. -/
theorem releases_iff_pending : s.Releases ↔ s.Pending := by
  constructor
  · intro h reader hmem hreleased
    obtain ⟨i, hi⟩ := List.getElem?_of_mem hmem
    rcases h i reader hi hreleased with hended | ⟨hwoken, hacquire⟩
    · exact Or.inl hended
    · obtain ⟨s', hnext, hreader⟩ := hacquire false
      obtain rfl := Option.some.inj ((acquire_of_woken hi hwoken false).symm.trans hnext)
      obtain ⟨phase, hphase, hiff⟩ := acquire_readers hi false
      obtain rfl : phase = .ended .closed :=
        congrArg TrackReader.phase (Option.some.inj (hphase.symm.trans hreader))
      exact Or.inr ⟨hwoken, (look_eq_closed_iff _ _).mp (hiff.mpr rfl)⟩
  · intro h i reader hi hreleased
    rcases h reader (List.mem_of_getElem? hi) hreleased with hended | ⟨hwoken, hclosed, hfew⟩
    · exact Or.inl hended
    · refine Or.inr ⟨hwoken, fun late => ⟨_, acquire_of_woken hi hwoken late, ?_⟩⟩
      obtain ⟨phase, hphase, hiff⟩ := acquire_readers hi late
      obtain rfl := hiff.mp ((look_eq_closed_iff _ _).mpr ⟨hclosed, hfew⟩)
      exact hphase

/-! ### A step keeps what is pending -/

theorem Pending.of_buffer (h : s.Pending) {buffer : InputBuffer}
    (hclosed : buffer.closed = s.buffer.closed)
    (hlength : buffer.buffer.length ≤ s.buffer.buffer.length) :
    Pending { s with buffer } := by
  intro reader hmem hreleased
  rcases h reader hmem hreleased with hended | ⟨hwoken, hc, hfew⟩
  · exact Or.inl hended
  · exact Or.inr ⟨hwoken, hclosed.trans hc, Nat.lt_of_le_of_lt hlength hfew⟩

theorem takeFrames_kept (b : InputBuffer) (n : ℕ) (mode : ReadMode) :
    (b.takeFrames n mode).1.closed = b.closed ∧
      (b.takeFrames n mode).1.buffer.length ≤ b.buffer.length := by
  cases mode with
  | fifo =>
    refine ⟨rfl, ?_⟩
    show (b.buffer.drop n).length ≤ _
    rw [List.length_drop]
    omega
  | latest => exact ⟨rfl, Nat.zero_le _⟩

theorem look_kept (s : TrackReads) (n : ℕ) (mode : ReadMode) :
    (s.look n mode).1.closed = s.buffer.closed ∧
      (s.look n mode).1.buffer.length ≤ s.buffer.buffer.length := by
  unfold look
  by_cases hfits : n ≤ s.buffer.buffer.length
  · rw [if_pos hfits]
    exact takeFrames_kept s.buffer n mode
  · rw [if_neg hfits]
    exact ⟨rfl, Nat.le_refl _⟩

theorem tryRead_kept (b : InputBuffer) (n : ℕ) (mode : ReadMode) :
    (b.tryRead n mode).1.closed = b.closed ∧
      (b.tryRead n mode).1.buffer.length ≤ b.buffer.length := by
  unfold InputBuffer.tryRead
  split_ifs
  · exact ⟨rfl, Nat.le_refl _⟩
  · exact ⟨rfl, Nat.le_refl _⟩
  · exact takeFrames_kept b n mode

theorem wake_of_ended {reader : TrackReader} {result : ReadEnd}
    (h : reader.phase = .ended result) : wake reader = reader := by
  rw [wake, if_neg (by rw [h]; exact ReadPhase.noConfusion)]

theorem wake_of_parked {reader : TrackReader} (h : parked reader = true) :
    (wake reader).phase = .woken := by
  unfold wake
  cases hphase : reader.phase with
  | waiting => rw [if_pos rfl]
  | woken =>
    rw [if_neg ReadPhase.noConfusion]
    exact hphase
  | ended result =>
    rw [parked, hphase] at h
    cases h

theorem released_wake (reader : TrackReader) : (wake reader).released = reader.released := by
  unfold wake
  split_ifs
  · rfl
  · rfl

theorem Pending.push (h : s.Pending) (frame : InputFrame) (source : Option String)
    (session : ℕ) : (s.push frame source session).Pending := by
  unfold TrackReads.push
  cases hclosed : s.buffer.closed with
  | true => exact h
  | false =>
    intro reader hmem hreleased
    obtain ⟨reader', hmem', rfl⟩ := List.mem_map.mp hmem
    rw [released_wake] at hreleased
    -- the track is open, so the read has seen it closed
    rcases h reader' hmem' hreleased with hended | ⟨-, hc, -⟩
    · rw [wake_of_ended hended]
      exact Or.inl hended
    · rw [hclosed] at hc
      cases hc

theorem Pending.close (h : s.Pending) : s.close.Pending := by
  intro reader hmem hreleased
  obtain ⟨reader', hmem', rfl⟩ := List.mem_map.mp hmem
  have hcases : reader'.phase = .ended .closed ∨
      (parked reader' = true ∧ s.buffer.buffer.length < reader'.n) := by
    rcases (Bool.or_eq_true _ _).mp hreleased with hbefore | hnow
    · rcases h reader' hmem' hbefore with hended | ⟨hwoken, -, hfew⟩
      · exact Or.inl hended
      · exact Or.inr ⟨by rw [parked, hwoken], hfew⟩
    · rw [Bool.and_eq_true, decide_eq_true_eq] at hnow
      exact Or.inr hnow
  rcases hcases with hended | ⟨hparked, hfew⟩
  · refine Or.inl ?_
    show (wake reader').phase = _
    rw [wake_of_ended hended, hended]
  · have hn : (wake reader').n = reader'.n := by
      unfold wake
      split_ifs
      · rfl
      · rfl
    refine Or.inr ⟨wake_of_parked hparked, rfl, ?_⟩
    show s.buffer.buffer.length < (wake reader').n
    rwa [hn]

theorem Pending.reset (h : s.Pending) {through : Option ℕ} (htime : s.InTime (.reset through)) :
    Pending { s with buffer := s.buffer.reset through } := by
  intro reader hmem hreleased
  rcases h reader hmem hreleased with hended | ⟨hwoken, -, -⟩
  · exact Or.inl hended
  · exact (htime reader hmem hreleased hwoken).elim

theorem Pending.start (h : s.Pending) (n : ℕ) (mode : ReadMode) (timed : Bool) :
    (s.start n mode timed).Pending := by
  unfold TrackReads.start
  split_ifs with hbound
  · intro reader hmem hreleased
    rcases List.mem_append.mp hmem with hmem | hmem
    · exact h reader hmem hreleased
    · rw [List.mem_singleton.mp hmem] at hreleased
      cases hreleased
  · obtain ⟨hclosed, hlength⟩ := s.look_kept n mode
    intro reader hmem hreleased
    rcases List.mem_append.mp hmem with hmem | hmem
    · exact h.of_buffer hclosed hlength reader hmem hreleased
    · rw [List.mem_singleton.mp hmem] at hreleased
      cases hreleased

theorem Pending.acquire (h : s.Pending) {i : ℕ} {reader : TrackReader}
    (hi : s.readers[i]? = some reader) (hwoken : reader.phase = .woken) (late : Bool) :
    (s.acquire i reader late).Pending := by
  obtain ⟨hclosed, hlength⟩ := s.look_kept reader.n reader.mode
  have hlt : i < s.readers.length := (List.getElem?_eq_some_iff.mp hi).1
  obtain ⟨phase, hphase, hiff⟩ := acquire_readers hi late
  intro reader' hmem hreleased
  rcases List.mem_or_eq_of_mem_set hmem with hmem | heq
  · exact h.of_buffer hclosed hlength reader' hmem hreleased
  · have hset := hphase
    rw [TrackReads.acquire, List.getElem?_set_self hlt] at hset
    obtain rfl : reader' = { reader with phase } := heq.trans (Option.some.inj hset)
    -- it was released, so that the track is closed to it
    rcases h reader (List.mem_of_getElem? hi) hreleased with hended | ⟨-, hc, hfew⟩
    · rw [hwoken] at hended
      cases hended
    · exact Or.inl (hiff.mp ((look_eq_closed_iff _ _).mpr ⟨hc, hfew⟩))

theorem Pending.expire (h : s.Pending) {i : ℕ} {reader : TrackReader}
    (hi : s.readers[i]? = some reader) (hwaiting : reader.phase = .waiting) :
    Pending { s with readers := s.readers.set i { reader with phase := .woken } } := by
  intro reader' hmem hreleased
  rcases List.mem_or_eq_of_mem_set hmem with hmem | rfl
  · exact h reader' hmem hreleased
  · -- a read that waits was not released
    rcases h reader (List.mem_of_getElem? hi) hreleased with hended | ⟨hwoken, -, -⟩
    · rw [hwaiting] at hended
      cases hended
    · rw [hwaiting] at hwoken
      cases hwoken

theorem Pending.next {l : Label} (h : s.Pending) (htime : s.InTime l) (hnext : s.next l = some s') :
    s'.Pending := by
  cases l with
  | push frame source session =>
    cases hnext
    exact h.push frame source session
  | tryRead n mode =>
    cases hnext
    obtain ⟨hclosed, hlength⟩ := tryRead_kept s.buffer n mode
    exact h.of_buffer hclosed hlength
  | clear =>
    cases hnext
    exact h.of_buffer rfl (Nat.zero_le _)
  | close =>
    cases hnext
    exact h.close
  | reset through =>
    cases hnext
    exact h.reset htime
  | start n mode timed =>
    cases hnext
    exact h.start n mode timed
  | expire i =>
    obtain ⟨reader, hi, hreader⟩ := Option.bind_eq_some_iff.mp hnext
    obtain ⟨hguard, heq⟩ := Option.ite_none_right_eq_some.mp hreader
    cases heq
    exact h.expire hi hguard.2
  | acquire i late =>
    obtain ⟨reader, hi, hreader⟩ := Option.bind_eq_some_iff.mp hnext
    obtain ⟨hwoken, heq⟩ := Option.ite_none_right_eq_some.mp hreader
    cases heq
    exact h.acquire hi hwoken late

/-! ### Runs -/

/-- A reset that overtakes a released read leaves it pending no more. -/
theorem inTime_of_pending {through : Option ℕ}
    (h : Pending { s with buffer := s.buffer.reset through }) : s.InTime (.reset through) := by
  intro reader hmem hreleased hwoken
  rcases h reader hmem hreleased with hended | ⟨-, hclosed, -⟩
  · rw [hwoken] at hended
    cases hended
  · cases hclosed

/-- The reads that were parked at a close are released, in every state of a run, exactly if no reset
of the run comes before one of them has the lock. -/
theorem releases_iff {bound : BufferBound} {ls : List Label} {s : TrackReads}
    (hrun : (trackReads bound).run ls = some s) :
    (∀ ls', ls' <+: ls → ∀ s', (trackReads bound).run ls' = some s' → s'.Releases) ↔
      (trackReads bound).AllSteps InTime ls := by
  simp only [releases_iff_pending]
  constructor
  · refine TransitionSystem.run_induction (T := trackReads bound)
      (motive := fun ls _ => (∀ ls', ls' <+: ls → ∀ s', (trackReads bound).run ls' = some s' →
        s'.Pending) → (trackReads bound).AllSteps InTime ls) (fun _ => trivial) ?_ ls s hrun
    intro ls s l s' hs ih hnext hall
    refine TransitionSystem.allStepsFrom_concat.mpr ⟨ih fun ls' hstart => ?_, fun t ht => ?_⟩
    · exact hall ls' (hstart.trans (List.prefix_append ls [l]))
    · obtain rfl := Option.some.inj (hs.symm.trans ht)
      have hpending := hall (ls ++ [l]) (List.prefix_refl _) s'
        (TransitionSystem.run_concat_eq_some.mpr ⟨s, hs, hnext⟩)
      cases l with
      | reset through =>
        cases hnext
        exact inTime_of_pending hpending
      | _ => trivial
  · intro hall ls' hstart s' hrun'
    obtain ⟨rest, rfl⟩ := hstart
    have hall' : (trackReads bound).AllSteps InTime ls' := by
      induction rest using List.reverseRecOn generalizing s with
      | nil => rwa [List.append_nil] at hall
      | append_singleton rest l ih =>
        rw [← List.append_assoc] at hall hrun
        obtain ⟨t, ht, -⟩ := TransitionSystem.run_concat_eq_some.mp hrun
        exact ih ht (TransitionSystem.allStepsFrom_concat.mp hall).1
    exact TransitionSystem.AllSteps.invariant (I := Pending)
      (fun _ hmem => absurd hmem List.not_mem_nil)
      (fun _ _ _ h htime hnext => h.next htime hnext) hall' hrun'

/-- A read waits, the track is closed and re-opened, and the read gets the lock. -/
def overtakenRun : List Label := [.start 1 .fifo false, .close, .reset none, .acquire 0 false]

def releasedRun : List Label := [.start 1 .fifo false, .close, .acquire 0 false, .reset none]

theorem isSome_releasedRun : ((trackReads {}).run releasedRun).isSome := rfl

theorem releases_releasedRun :
    (((trackReads {}).run releasedRun).get isSome_releasedRun).Releases :=
  (releases_iff (Option.some_get isSome_releasedRun).symm).mpr (by decide +kernel) releasedRun
    (List.prefix_refl _) _ (Option.some_get isSome_releasedRun).symm

/-- A read that was parked when the track was closed waits on the track that was re-opened. -/
theorem not_releases :
    ¬ ∀ bound ls s, (trackReads bound).run ls = some s → s.Releases := by
  intro h
  have hwaits : (((trackReads {}).run overtakenRun).any fun s =>
      s.readers[0]?.any fun reader => reader.released && reader.phase == .waiting) = true := by
    decide +kernel
  obtain ⟨s, hs, hreader⟩ := (Option.any_eq_true _ _).mp hwaits
  obtain ⟨reader, hi, hwaiting⟩ := (Option.any_eq_true _ _).mp hreader
  rw [Bool.and_eq_true, beq_iff_eq] at hwaiting
  rcases h {} overtakenRun s hs 0 reader hi hwaiting.1 with hended | ⟨hwoken, -⟩
  · rw [hwaiting.2] at hended
    cases hended
  · rw [hwaiting.2] at hwoken
    cases hwoken

end TrackReads

end ReactorRuntime.Interface
