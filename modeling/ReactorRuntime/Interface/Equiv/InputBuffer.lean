import ReactorRuntime.Interface.BufferRuns
import Mathlib.Data.List.Perm.Basic
import Mathlib.Data.List.Perm.Lattice
import Mathlib.Algebra.Order.Group.Int
import Mathlib.Algebra.Group.Nat.Even

/-!
# A buffer keeps its bound and its frames

`evict_eq` says what the loop of a push takes off: the oldest frames, until what is left is within
the bound or is the newest frame alone.  In every run the buffer is within its bound, its count of
samples is right, and every frame is accounted for (`Keeps`); frames that are known to fit are not
evicted by one another (`suffix_pushAll`).
-/

namespace ReactorRuntime.Interface

namespace InputBuffer

variable {b : InputBuffer}

/-! ### Samples -/

@[simp] theorem samplesOf_nil : samplesOf [] = 0 := rfl

@[simp] theorem samplesOf_cons (entry : BufferEntry) (entries : List BufferEntry) :
    samplesOf (entry :: entries) = entry.frame.sampleCount + samplesOf entries := rfl

@[simp] theorem samplesOf_append (entries entries' : List BufferEntry) :
    samplesOf (entries ++ entries') = samplesOf entries + samplesOf entries' := by
  induction entries with
  | nil => simp
  | cons entry entries ih =>
    rw [List.cons_append, samplesOf_cons, samplesOf_cons, ih]
    omega

theorem sampleCount_nonneg (frame : InputFrame) : 0 ≤ frame.sampleCount :=
  Int.natCast_nonneg _

/-- A part of the frames carries no more samples. -/
theorem samplesOf_le_of_sublist {entries entries' : List BufferEntry}
    (h : entries.Sublist entries') : samplesOf entries ≤ samplesOf entries' := by
  induction h with
  | slnil => exact le_refl _
  | cons entry _ ih =>
    have hentry := sampleCount_nonneg entry.frame
    rw [samplesOf_cons]
    omega
  | cons_cons entry _ ih =>
    rw [samplesOf_cons, samplesOf_cons]
    omega

/-! ### Eviction -/

/-- The loop of a push takes frames off the front, and stops within the bound or at the last. -/
theorem evict_eq (b : InputBuffer) (session : ℕ) (buffer : List BufferEntry) (samples : ℤ)
    (evicted : ℕ) : ∃ gone left, b.evict session buffer samples evicted =
        (left, if b.maxSamples.isSome then samples - samplesOf gone else samples,
          evicted + gone.countP fun entry => decide (entry.session = session)) ∧
      buffer = gone ++ left ∧ (buffer ≠ [] → left ≠ []) ∧
      (left.length ≤ 1 ∨ b.overBound left
        (if b.maxSamples.isSome then samples - samplesOf gone else samples) = false) := by
  fun_induction evict b session buffer samples evicted with
  | case1 gone next rest samples evicted hover ih =>
    obtain ⟨gone', left, heq, hbuffer, hleft, hbound⟩ := ih
    have hsamples : (if b.maxSamples.isSome then b.without samples gone - samplesOf gone'
        else b.without samples gone) =
        if b.maxSamples.isSome then samples - samplesOf (gone :: gone') else samples := by
      unfold without
      split_ifs
      · rw [samplesOf_cons]
        omega
      · rfl
    have hcount : (if gone.session = session then evicted + 1 else evicted) +
        gone'.countP (fun entry => decide (entry.session = session)) =
        evicted + (gone :: gone').countP fun entry => decide (entry.session = session) := by
      by_cases hsession : gone.session = session
      · rw [if_pos hsession, List.countP_cons_of_pos (by simp [hsession])]
        omega
      · rw [if_neg hsession, List.countP_cons_of_neg (by simp [hsession])]
    refine ⟨gone :: gone', left, ?_, ?_, ?_, ?_⟩
    · rw [heq, hsamples, hcount]
    · rw [hbuffer, List.cons_append]
    · intro _
      exact hleft (List.cons_ne_nil _ _)
    · rwa [← hsamples]
  | case2 gone next rest samples evicted hover =>
    refine ⟨[], gone :: next :: rest, by simp, rfl, fun h => h, Or.inr ?_⟩
    simpa using hover
  | case3 buffer samples evicted hne =>
    refine ⟨[], buffer, by simp, rfl, fun h => h, Or.inl ?_⟩
    rcases buffer with _ | ⟨e, _ | ⟨e', rest⟩⟩
    · exact Nat.zero_le 1
    · exact le_refl 1
    · exact (hne e e' rest rfl).elim

theorem overBound_congr {buffer : List BufferEntry} {samples samples' : ℤ}
    (h : b.maxSamples.isSome = true → samples = samples') :
    b.overBound buffer samples = b.overBound buffer samples' := by
  unfold overBound
  cases hmax : b.maxSamples with
  | none => rfl
  | some maxSamples =>
    rw [h (by rw [hmax]; rfl)]

/-- Frames that are within the bound on their own are not reached. -/
theorem suffix_evict (b : InputBuffer) (session : ℕ) {new : List BufferEntry} (hnew : new ≠ [])
    (hfits : b.overBound new (samplesOf new) = false) (old : List BufferEntry) (samples : ℤ)
    (evicted : ℕ) (hsamples : b.maxSamples.isSome = true → samples = samplesOf (old ++ new)) :
    new <:+ (b.evict session (old ++ new) samples evicted).1 := by
  induction old generalizing samples evicted with
  | nil =>
    rcases new with _ | ⟨e, _ | ⟨e', rest⟩⟩
    · exact (hnew rfl).elim
    · exact List.suffix_refl _
    · have hnot : b.overBound (e :: e' :: rest) samples = false := by
        rw [overBound_congr hsamples]
        exact hfits
      rw [List.nil_append, evict, hnot]
      exact List.suffix_refl _
  | cons gone old ih =>
    obtain ⟨next, rest, hrest⟩ :=
      List.exists_cons_of_ne_nil (List.append_ne_nil_of_right_ne_nil old hnew)
    rw [List.cons_append, hrest, evict]
    cases hover : b.overBound (gone :: next :: rest) samples with
    | false =>
      rw [if_neg Bool.false_ne_true, ← hrest]
      exact (List.suffix_append old new).trans (List.suffix_cons gone _)
    | true =>
      rw [if_pos rfl, ← hrest]
      refine ih _ _ fun hsome => ?_
      have hcount := hsamples hsome
      rw [List.cons_append, samplesOf_cons] at hcount
      rw [without, if_pos hsome]
      omega

/-! ### One operation -/

theorem push_eq (hopen : b.closed = false) (frame : InputFrame) (source : Option String)
    (session : ℕ) (hsamples : b.maxSamples.isSome = true → b.samples = samplesOf b.buffer) :
    ∃ gone left, b.buffer ++ [⟨session, frame, source⟩] = gone ++ left ∧
      (b.push frame source session).1.buffer = left ∧
      (b.push frame source session).2 =
        gone.countP (fun entry => decide (entry.session = session)) ∧
      (b.maxSamples.isSome = true → (b.push frame source session).1.samples = samplesOf left) ∧
      left ≠ [] ∧ (left.length ≤ 1 ∨ b.overBound left (samplesOf left) = false) := by
  obtain ⟨gone, left, heq, hbuffer, hleft, hbound⟩ := b.evict_eq session
    (b.buffer ++ [⟨session, frame, source⟩])
    (b.samples + if b.maxSamples.isSome then frame.sampleCount else 0) 0
  have hcount : b.maxSamples.isSome = true →
      (if b.maxSamples.isSome then (b.samples + if b.maxSamples.isSome then frame.sampleCount
        else 0) - samplesOf gone else b.samples + if b.maxSamples.isSome then frame.sampleCount
          else 0) = samplesOf left := by
    intro hsome
    have hall := congrArg samplesOf hbuffer
    rw [samplesOf_append, samplesOf_append, samplesOf_cons, samplesOf_nil] at hall
    rw [if_pos hsome, if_pos hsome, hsamples hsome]
    simp only at hall
    omega
  refine ⟨gone, left, hbuffer, ?_, ?_, ?_, hleft (by simp), ?_⟩
  · rw [push, hopen]
    simp [heq]
  · rw [push, hopen]
    simp [heq]
  · intro hsome
    rw [← hcount hsome, push, hopen]
    simp [heq]
  · rwa [overBound_congr hcount] at hbound

theorem push_closed (hclosed : b.closed = true) (frame : InputFrame) (source : Option String)
    (session : ℕ) : b.push frame source session = (b, 0) := by
  rw [push, if_pos hclosed]

theorem push_bound (b : InputBuffer) (frame : InputFrame) (source : Option String)
    (session : ℕ) : (b.push frame source session).1.toBufferBound = b.toBufferBound ∧
      (b.push frame source session).1.closed = b.closed := by
  by_cases hclosed : b.closed = true
  · rw [push_closed hclosed]
    exact ⟨rfl, rfl⟩
  · rw [push, if_neg hclosed]
    exact ⟨rfl, rfl⟩

/-- How a read ends: with frames that are taken, or with nothing changed. -/
def Looks (b : InputBuffer) (n : ℕ) (mode : ReadMode) (result : InputBuffer × ReadOutcome) : Prop :=
  (n ≤ b.buffer.length ∧ result = ((b.takeFrames n mode).1, .frames (b.takeFrames n mode).2)) ∨
    (result.1 = b ∧ ∀ frames, result.2 ≠ .frames frames)

theorem looks_read (b : InputBuffer) (n : ℕ) (mode : ReadMode) :
    b.Looks n mode (b.read n mode) := by
  unfold read
  split_ifs with hbound hfits hclosed
  · exact Or.inr ⟨rfl, fun _ h => ReadOutcome.noConfusion h⟩
  · exact Or.inl ⟨hfits, rfl⟩
  · exact Or.inr ⟨rfl, fun _ h => ReadOutcome.noConfusion h⟩
  · exact Or.inr ⟨rfl, fun _ h => ReadOutcome.noConfusion h⟩

theorem looks_tryRead (b : InputBuffer) (n : ℕ) (mode : ReadMode) :
    b.Looks n mode (b.tryRead n mode) := by
  unfold tryRead
  split_ifs with hclosed hfew
  · exact Or.inr ⟨rfl, fun _ h => ReadOutcome.noConfusion h⟩
  · exact Or.inr ⟨rfl, fun _ h => ReadOutcome.noConfusion h⟩
  · exact Or.inl ⟨Nat.le_of_not_lt hfew, rfl⟩

/-! ### The bound -/

/-- A buffer is within its bound: it has no more frames, and no more samples unless a single frame
has them. -/
structure Within (b : InputBuffer) : Prop where
  frames : b.buffer.length ≤ max 1 b.frameBound
  samples : ∀ maxSamples, b.maxSamples = some maxSamples → maxSamples < samplesOf b.buffer →
    b.buffer.length = 1

theorem within_of_overBound {left : List BufferEntry}
    (h : left.length ≤ 1 ∨ b.overBound left (samplesOf left) = false) (hleft : left ≠ []) :
    left.length ≤ max 1 b.frameBound ∧ ∀ maxSamples, b.maxSamples = some maxSamples →
      maxSamples < samplesOf left → left.length = 1 := by
  have hpos : 0 < left.length := List.length_pos_of_ne_nil hleft
  rcases h with hone | hnot
  · exact ⟨hone.trans (le_max_left _ _), fun _ _ _ => by omega⟩
  · unfold overBound at hnot
    rw [frameBound]
    cases hmax : b.maxSamples with
    | none =>
      rw [hmax] at hnot
      have hlen := of_decide_eq_false hnot
      refine ⟨?_, fun _ h => by cases h⟩
      simp only [Option.isSome_none, Bool.false_eq_true, if_false]
      omega
    | some maxSamples =>
      rw [hmax, Bool.or_eq_false_iff] at hnot
      have hsamples := of_decide_eq_false hnot.1
      have hlen := of_decide_eq_false hnot.2
      refine ⟨?_, fun m hm hlt => ?_⟩
      · simp only [Option.isSome_some, if_true]
        omega
      · cases hm
        exact (hsamples hlt).elim

theorem Within.of_sublist {b' : InputBuffer} (h : b.Within)
    (hbound : b'.toBufferBound = b.toBufferBound) (hsub : b'.buffer.Sublist b.buffer) :
    b'.Within := by
  have hlen := hsub.length_le
  have hframe : b'.frameBound = b.frameBound := by
    unfold frameBound
    rw [hbound]
  have hmax : b'.maxSamples = b.maxSamples := by rw [hbound]
  refine ⟨?_, fun maxSamples hsome hlt => ?_⟩
  · rw [hframe]
    exact hlen.trans h.frames
  · rw [hmax] at hsome
    have hone := h.samples maxSamples hsome (hlt.trans_le (samplesOf_le_of_sublist hsub))
    have hne : b'.buffer ≠ [] := by
      intro hnil
      rw [hnil, samplesOf_nil] at hlt
      omega
    have hpos := List.length_pos_of_ne_nil hne
    omega

end InputBuffer

namespace BufferRun

open InputBuffer

variable {s s' : BufferRun}

def frames (entries : List BufferEntry) : List InputFrame := entries.map (·.frame)

@[simp] theorem frames_nil : frames [] = [] := rfl

@[simp] theorem frames_append (entries entries' : List BufferEntry) :
    frames (entries ++ entries') = frames entries ++ frames entries' := List.map_append

/-- The bound is kept, the samples are counted, and every frame is accounted for. -/
structure Keeps (s : BufferRun) : Prop where
  counted : s.buffer.maxSamples.isSome = true → s.buffer.samples = samplesOf s.buffer.buffer
  within : s.buffer.Within
  order : (s.returned ++ frames s.buffer.buffer).Sublist (frames s.pushed)
  conserved : (frames s.pushed).Perm
    (s.returned ++ frames (s.buffer.buffer ++ s.evicted ++ s.skipped ++ s.dropped))

theorem Keeps.init (bound : BufferBound) : Keeps { buffer := { bound with } } where
  counted _ := rfl
  within := ⟨Nat.zero_le _, fun maxSamples _ hlt => absurd hlt (by simp)⟩
  order := List.Sublist.refl _
  conserved := List.Perm.refl _

theorem push_open (s : BufferRun) (hopen : s.buffer.closed = false) (frame : InputFrame)
    (source : Option String) (session : ℕ) :
    (s.push frame source session).buffer = (s.buffer.push frame source session).1 ∧
      (s.push frame source session).pushed =
        s.pushed ++ [(⟨session, frame, source⟩ : BufferEntry)] ∧
      (s.push frame source session).evicted =
        s.evicted ++ (s.buffer.buffer ++ [(⟨session, frame, source⟩ : BufferEntry)]).take
          ((s.buffer.buffer ++ [(⟨session, frame, source⟩ : BufferEntry)]).length -
            (s.buffer.push frame source session).1.buffer.length) ∧
      (s.push frame source session).returned = s.returned ∧
      (s.push frame source session).skipped = s.skipped ∧
      (s.push frame source session).dropped = s.dropped := by
  rw [BufferRun.push, if_neg (by rw [hopen]; exact Bool.false_ne_true)]
  exact ⟨rfl, rfl, rfl, rfl, rfl, rfl⟩

theorem push_cases (s : BufferRun) (hopen : s.buffer.closed = false) (frame : InputFrame)
    (source : Option String) (session : ℕ)
    (hcounted : s.buffer.maxSamples.isSome = true →
      s.buffer.samples = samplesOf s.buffer.buffer) :
    ∃ gone, s.buffer.buffer ++ [⟨session, frame, source⟩] =
        gone ++ (s.push frame source session).buffer.buffer ∧
      (s.push frame source session).buffer.buffer.getLast? = some ⟨session, frame, source⟩ ∧
      (s.push frame source session).evicted = s.evicted ++ gone ∧
      (s.buffer.push frame source session).2 =
        gone.countP (fun entry => decide (entry.session = session)) := by
  obtain ⟨gone, left, hsplit, hbuffer, hcount, -, hne, -⟩ :=
    push_eq hopen frame source session hcounted
  obtain ⟨hnext, -, hevicted, -⟩ := s.push_open hopen frame source session
  refine ⟨gone, ?_, ?_, ?_, hcount⟩
  · rw [hnext, hbuffer, hsplit]
  · have hlast := congrArg List.getLast? hsplit
    rw [List.getLast?_concat, List.getLast?_append_of_ne_nil _ hne] at hlast
    rw [hnext, hbuffer, ← hlast]
  · rw [hevicted, hbuffer, hsplit, List.length_append, Nat.add_sub_cancel, List.take_left]

theorem Keeps.push (h : s.Keeps) (frame : InputFrame) (source : Option String) (session : ℕ) :
    (s.push frame source session).Keeps := by
  cases hclosed : s.buffer.closed with
  | true =>
    rw [BufferRun.push, if_pos hclosed]
    exact h
  | false =>
    obtain ⟨gone, hsplit, -, hevicted, -⟩ := s.push_cases hclosed frame source session h.counted
    obtain ⟨-, left, -, hleft, -, hsamples, hne, hbound⟩ :=
      push_eq hclosed frame source session h.counted
    obtain ⟨hsame, -⟩ := s.buffer.push_bound frame source session
    obtain ⟨hbuffer, hpushed, -, hreturned, hskipped, hdropped⟩ :=
      s.push_open hclosed frame source session
    have hmax : (s.buffer.push frame source session).1.maxSamples = s.buffer.maxSamples := by
      rw [hsame]
    have hframe : (s.buffer.push frame source session).1.frameBound = s.buffer.frameBound := by
      unfold frameBound
      rw [hsame]
    have hframes := congrArg frames hsplit
    rw [frames_append, frames_append] at hframes
    obtain ⟨hlength, halone⟩ := within_of_overBound hbound hne
    refine ⟨?_, ⟨?_, ?_⟩, ?_, ?_⟩
    · rw [hbuffer, hleft, hmax]
      exact hsamples
    · rw [hbuffer, hleft, hframe]
      exact hlength
    · rw [hbuffer, hleft, hmax]
      exact halone
    · -- the frames that go stood before those that stay
      rw [hreturned, hpushed, frames_append]
      have hkept : (frames (s.push frame source session).buffer.buffer).Sublist
          (frames s.buffer.buffer ++ frames [⟨session, frame, source⟩]) := by
        rw [hframes]
        exact List.sublist_append_right _ _
      refine (hkept.append_left s.returned).trans ?_
      rw [← List.append_assoc]
      exact h.order.append_right _
    · rw [hreturned, hpushed, hskipped, hdropped, hevicted]
      have hold := List.perm_iff_count.mp h.conserved
      rw [List.perm_iff_count]
      intro a
      have ha := hold a
      have hcount := congrArg (List.count a) hframes
      simp only [frames_append, List.count_append] at ha hcount ⊢
      omega

/-- A read changes nothing, or takes frames. -/
theorem reads_cases (s : BufferRun) {n : ℕ} {mode : ReadMode}
    {result : InputBuffer × ReadOutcome} (hlooks : s.buffer.Looks n mode result) :
    s.reads n mode result = s ∨ s.reads n mode result = { s with
      buffer := (s.buffer.takeFrames n mode).1
      returned := s.returned ++ (s.buffer.takeFrames n mode).2
      skipped := s.skipped ++ s.buffer.older n mode } := by
  rcases hlooks with ⟨-, rfl⟩ | ⟨hsame, hnot⟩
  · exact Or.inr rfl
  · refine Or.inl ?_
    unfold reads
    cases hresult : result.2 with
    | frames frames => exact (hnot frames hresult).elim
    | _ => rw [hsame]

theorem Keeps.reads (h : s.Keeps) {n : ℕ} {mode : ReadMode} {result : InputBuffer × ReadOutcome}
    (hlooks : s.buffer.Looks n mode result) : (s.reads n mode result).Keeps := by
  rcases s.reads_cases hlooks with heq | heq
  · rw [heq]
    exact h
  · rw [heq]
    have hsub : (s.buffer.takeFrames n mode).1.buffer.Sublist s.buffer.buffer := by
      cases mode with
      | fifo => exact List.drop_sublist n _
      | latest => exact List.nil_sublist _
    have hbound : (s.buffer.takeFrames n mode).1.toBufferBound = s.buffer.toBufferBound := by
      cases mode <;> rfl
    have hwithin := h.within.of_sublist hbound hsub
    cases mode with
    | fifo =>
      have hsplit : frames (s.buffer.buffer.take n) ++ frames (s.buffer.buffer.drop n) =
          frames s.buffer.buffer := by rw [← frames_append, List.take_append_drop]
      refine ⟨fun hsome => ?_, hwithin, ?_, ?_⟩
      · have hall := congrArg samplesOf (List.take_append_drop n s.buffer.buffer)
        rw [samplesOf_append] at hall
        have hsamples := h.counted hsome
        have hsamples' : (s.buffer.takeFrames n .fifo).1.samples =
            s.buffer.samples - samplesOf (s.buffer.buffer.take n) := if_pos hsome
        show (s.buffer.takeFrames n .fifo).1.samples = samplesOf (s.buffer.buffer.drop n)
        omega
      · show (s.returned ++ frames (s.buffer.buffer.take n) ++
          frames (s.buffer.buffer.drop n)).Sublist _
        rw [List.append_assoc, hsplit]
        exact h.order
      · have hold := List.perm_iff_count.mp h.conserved
        rw [List.perm_iff_count]
        intro a
        have ha := hold a
        have hcount := congrArg (List.count a) hsplit
        show List.count a (frames s.pushed) = List.count a (s.returned ++
          frames (s.buffer.buffer.take n) ++ frames (s.buffer.buffer.drop n ++ s.evicted ++ (s.skipped ++ []) ++ s.dropped))
        simp only [frames_append, List.count_append, List.append_nil] at ha hcount ⊢
        omega
    | latest =>
      have hsplit : frames (s.buffer.buffer.take (s.buffer.buffer.length - n)) ++
          frames (s.buffer.buffer.drop (s.buffer.buffer.length - n)) =
            frames s.buffer.buffer := by rw [← frames_append, List.take_append_drop]
      refine ⟨fun _ => rfl, hwithin, ?_, ?_⟩
      · show (s.returned ++ frames (s.buffer.buffer.drop (s.buffer.buffer.length - n)) ++
          []).Sublist _
        rw [List.append_nil]
        refine List.Sublist.trans ?_ h.order
        rw [← hsplit]
        exact (List.sublist_append_right _ _).append_left _
      · have hold := List.perm_iff_count.mp h.conserved
        rw [List.perm_iff_count]
        intro a
        have ha := hold a
        have hcount := congrArg (List.count a) hsplit
        show List.count a (frames s.pushed) = List.count a (s.returned ++
          frames (s.buffer.buffer.drop (s.buffer.buffer.length - n)) ++
            frames ([] ++ s.evicted ++ (s.skipped ++
              s.buffer.buffer.take (s.buffer.buffer.length - n)) ++ s.dropped))
        simp only [frames_append, frames_nil, List.count_append, List.count_nil] at ha hcount ⊢
        omega

theorem Keeps.clear (h : s.Keeps) : (s.next .clear).Keeps := by
  refine ⟨fun _ => rfl, h.within.of_sublist rfl (List.nil_sublist _), ?_, ?_⟩
  · exact ((List.nil_sublist _).append_left _).trans h.order
  · have hold := List.perm_iff_count.mp h.conserved
    rw [List.perm_iff_count]
    intro a
    have ha := hold a
    show List.count a (frames s.pushed) = List.count a (s.returned ++
      frames ([] ++ s.evicted ++ s.skipped ++ (s.dropped ++ s.buffer.buffer)))
    simp only [frames_append, frames_nil, List.count_append, List.count_nil] at ha ⊢
    omega

theorem reset_sublist (b : InputBuffer) (through : Option ℕ) :
    (b.reset through).buffer.Sublist b.buffer := by
  cases through with
  | none => exact List.nil_sublist _
  | some session => exact List.filter_sublist

theorem Keeps.reset (h : s.Keeps) (through : Option ℕ) : (s.next (.reset through)).Keeps := by
  have hsub := reset_sublist s.buffer through
  refine ⟨fun _ => rfl, h.within.of_sublist rfl hsub, ?_, ?_⟩
  · exact ((hsub.map _).append_left _).trans h.order
  · have hold := List.perm_iff_count.mp h.conserved
    have hsplit : ((s.buffer.reset through).buffer ++ s.buffer.ended through).Perm
        s.buffer.buffer := by
      cases through with
      | none => exact List.Perm.refl _
      | some session => exact List.filter_append_perm _ _
    rw [List.perm_iff_count]
    intro a
    have ha := hold a
    have hcount := List.perm_iff_count.mp (hsplit.map (·.frame)) a
    show List.count a (frames s.pushed) = List.count a (s.returned ++
      frames ((s.buffer.reset through).buffer ++ s.evicted ++ s.skipped ++
        (s.dropped ++ s.buffer.ended through)))
    simp only [frames, List.map_append, List.count_append] at ha hcount ⊢
    omega

theorem Keeps.next (h : s.Keeps) (op : BufferOp) : (s.next op).Keeps := by
  cases op with
  | push frame source session => exact h.push frame source session
  | read n mode => exact h.reads (s.buffer.looks_read n mode)
  | tryRead n mode => exact h.reads (s.buffer.looks_tryRead n mode)
  | clear => exact h.clear
  | reset through => exact h.reset through
  | close => exact ⟨h.counted, h.within.of_sublist rfl (List.Sublist.refl _), h.order, h.conserved⟩

/-! ### Frames that fit -/

theorem overBound_of_sublist {b : InputBuffer} {new new' : List BufferEntry}
    (hsub : new.Sublist new') (h : b.overBound new' (samplesOf new') = false) :
    b.overBound new (samplesOf new) = false := by
  have hsamples := samplesOf_le_of_sublist hsub
  have hlength := hsub.length_le
  unfold overBound at h ⊢
  cases hmax : b.maxSamples with
  | none =>
    rw [hmax] at h
    have hnot := of_decide_eq_false h
    exact decide_eq_false (by omega)
  | some maxSamples =>
    rw [hmax, Bool.or_eq_false_iff] at h
    have hnot := of_decide_eq_false h.1
    have hnot' := of_decide_eq_false h.2
    rw [Bool.or_eq_false_iff]
    exact ⟨decide_eq_false (by omega), decide_eq_false (by omega)⟩

theorem overBound_of_holds {b : InputBuffer} {new : List BufferEntry} {samples : ℕ}
    (hsamples : samplesOf new = samples) (h : b.holds new.length samples = true) :
    b.overBound new (samplesOf new) = false := by
  unfold holds at h
  unfold overBound
  cases hmax : b.maxSamples with
  | none =>
    rw [hmax] at h
    have hfits := of_decide_eq_true h
    exact decide_eq_false (by omega)
  | some maxSamples =>
    rw [hmax, Bool.and_eq_true] at h
    have hframes := of_decide_eq_true h.1
    have hfits := of_decide_eq_true h.2
    rw [Bool.or_eq_false_iff]
    exact ⟨decide_eq_false (by omega), decide_eq_false (by omega)⟩

def pushAll (b : InputBuffer) (entries : List BufferEntry) : InputBuffer :=
  entries.foldl (fun b entry => (b.push entry.frame entry.source entry.session).1) b

/-- Frames that fit together stay behind those that were there. -/
theorem suffix_pushAll (entries : List BufferEntry) {b : InputBuffer} {new : List BufferEntry}
    (hopen : b.closed = false)
    (hcounted : b.maxSamples.isSome = true → b.samples = samplesOf b.buffer)
    (hnew : new <:+ b.buffer)
    (hfits : b.overBound (new ++ entries) (samplesOf (new ++ entries)) = false) :
    new ++ entries <:+ (pushAll b entries).buffer := by
  induction entries generalizing b new with
  | nil =>
    rw [List.append_nil]
    exact hnew
  | cons entry entries ih =>
    obtain ⟨session, frame, source⟩ := entry
    obtain ⟨hsame, hclosed⟩ := b.push_bound frame source session
    have hmax : (b.push frame source session).1.maxSamples = b.maxSamples := by rw [hsame]
    have hover : ∀ buffer samples, (b.push frame source session).1.overBound buffer samples =
        b.overBound buffer samples := by
      intro buffer samples
      unfold overBound
      rw [hsame]
    obtain ⟨-, left, -, hleft, -, hsamples, -⟩ := push_eq hopen frame source session hcounted
    have hsplit : new ++ (⟨session, frame, source⟩ : BufferEntry) :: entries =
        (new ++ [⟨session, frame, source⟩]) ++ entries := by simp
    have hsuffix : new ++ [⟨session, frame, source⟩] <:+
        (b.push frame source session).1.buffer := by
      obtain ⟨old, hold⟩ := hnew
      have hfirst : b.overBound (new ++ [⟨session, frame, source⟩])
          (samplesOf (new ++ [⟨session, frame, source⟩])) = false := by
        refine overBound_of_sublist ?_ hfits
        rw [hsplit]
        exact List.sublist_append_left _ _
      rw [InputBuffer.push, hopen, ← hold, List.append_assoc]
      refine suffix_evict b session (by simp) hfirst old _ 0 fun hsome => ?_
      rw [hcounted hsome, if_pos hsome, ← hold]
      simp only [samplesOf_append, samplesOf_cons, samplesOf_nil]
      omega
    rw [hsplit] at hfits ⊢
    refine ih (hclosed.trans hopen) (fun hsome => ?_) hsuffix ?_
    · rw [hmax] at hsome
      rw [hleft]
      exact hsamples hsome
    · rw [hover]
      exact hfits

/-! ### Runs -/

theorem Keeps.of_run {bound : BufferBound} {ops : List BufferOp}
    (hrun : (bufferRuns bound).run ops = some s) : s.Keeps := by
  refine TransitionSystem.IsInvariant.of_run (I := Keeps) ⟨Keeps.init bound, ?_⟩ hrun
  intro s op s' h hnext
  cases hnext
  exact h.next op

/-- The way an operation reads. -/
def mode? : BufferOp → Option ReadMode
  | .read _ mode | .tryRead _ mode => some mode
  | _ => none

/-- In every run the samples are counted and the buffer is within its bound, the frames that reads
return are pushed frames in order, and every pushed frame was returned, is still there, or was
evicted, skipped by a read of the newest, or dropped by a clear or a reset.  A read of the oldest
passes over none.  A push keeps its frame and says how many frames of its session made room, and a
reset keeps those of later sessions.  Frames that fit together are not evicted by one another. -/
theorem buffer_keeps {bound : BufferBound} {ops : List BufferOp} {s : BufferRun}
    (hrun : (bufferRuns bound).run ops = some s) :
    (s.buffer.maxSamples.isSome = true → s.buffer.samples = samplesOf s.buffer.buffer) ∧
    s.buffer.Within ∧
    s.returned.Sublist (frames s.pushed) ∧
    (frames s.pushed).Perm
      (s.returned ++ frames (s.buffer.buffer ++ s.evicted ++ s.skipped ++ s.dropped)) ∧
    (∀ op, mode? op = some .fifo →
      (s.next op).returned ++ frames (s.next op).buffer.buffer =
        s.returned ++ frames s.buffer.buffer) ∧
    (∀ frame source session, s.buffer.closed = false →
      ∃ gone, s.buffer.buffer ++ [⟨session, frame, source⟩] =
          gone ++ (s.next (.push frame source session)).buffer.buffer ∧
        (s.next (.push frame source session)).buffer.buffer.getLast? =
          some ⟨session, frame, source⟩ ∧
        (s.next (.push frame source session)).evicted = s.evicted ++ gone ∧
        (s.buffer.push frame source session).2 =
          gone.countP fun entry => decide (entry.session = session)) ∧
    (∀ session, (s.next (.reset (some session))).buffer.buffer =
      s.buffer.buffer.filter fun entry => decide (session < entry.session)) ∧
    ∀ (entries : List BufferEntry) (samples : ℕ), s.buffer.closed = false →
      samplesOf entries = samples → s.buffer.holds entries.length samples = true →
        entries <:+ (pushAll s.buffer entries).buffer := by
  have h := Keeps.of_run hrun
  refine ⟨h.counted, h.within, ?_, h.conserved, fun op hmode => ?_,
    fun frame source session hopen => s.push_cases hopen frame source session h.counted,
    fun session => rfl, fun entries samples hopen hsamples hholds => ?_⟩
  · exact (List.sublist_append_left _ _).trans h.order
  · have hfifo : ∀ n result, s.buffer.Looks n .fifo result →
        (s.reads n .fifo result).returned ++ frames (s.reads n .fifo result).buffer.buffer =
          s.returned ++ frames s.buffer.buffer := by
      intro n result hlooks
      rcases s.reads_cases hlooks with heq | heq
      · rw [heq]
      · rw [heq]
        show s.returned ++ frames (s.buffer.buffer.take n) ++ frames (s.buffer.buffer.drop n) = _
        rw [List.append_assoc, ← frames_append, List.take_append_drop]
    cases op with
    | read n mode =>
      cases hmode
      exact hfifo n _ (s.buffer.looks_read n .fifo)
    | tryRead n mode =>
      cases hmode
      exact hfifo n _ (s.buffer.looks_tryRead n .fifo)
    | _ => cases hmode
  · have hfits := overBound_of_holds hsamples hholds
    exact suffix_pushAll entries hopen h.counted (List.nil_suffix) hfits

/-- Two frames are pushed under a bound of one, and the second is read. -/
def evictingRun : List BufferOp :=
  [.push ⟨[1, 4], []⟩ none 1, .push ⟨[1, 3], []⟩ none 1, .read 1 .fifo]

theorem isSome_evictingRun :
    ((bufferRuns { maxSamples := some 5, maxFrames := 2 }).run evictingRun).isSome := by
  decide +kernel

theorem buffer_keeps_evictingRun :
    (((bufferRuns { maxSamples := some 5, maxFrames := 2 }).run evictingRun).get
      isSome_evictingRun).buffer.Within :=
  (buffer_keeps (Option.some_get isSome_evictingRun).symm).2.1

end BufferRun

end ReactorRuntime.Interface
