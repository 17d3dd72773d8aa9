import ReactorRuntime.Transport.FrameQueue
import Mathlib.Algebra.GroupWithZero.Nat
import Mathlib.Data.List.Nodup

/-!
## The queue of a pacer, over any run

`Move` says what a step of the producer does.  A pacer has these invariants, whatever else it does:

* `Orderly`: the frames that have left the queue and those on it are in the order in which they were
  submitted, and none is there twice.
* `Prefixed`: a call of `submit` puts the first frames of its chunk on the queue and counts the
  rest, unless it gave up.
* `Fitting`: right after a put there are no more frames than there may be, if no smaller depth is
  set while a frame waits whose capacity was read.
* `Since`: the frames on the queue, and those that are put on it next, were submitted after a flush,
  unless it landed between the call of `submit` and its reading of the epoch.
-/

namespace ReactorRuntime.Transport

variable {β : Type}

def PacedFrame.key (f : PacedFrame β) : ℕ × ℕ := (f.chunk, f.index)

namespace FrameQueue

variable {q q' : FrameQueue β} {out : List (PacedFrame β)} {f : PacedFrame β}

/-! ### The steps -/

inductive Move (q : FrameQueue β) : FrameQueue β → Prop where
  | submit (contents : List β) (wait : Bool) (hproducer : q.producer = none) :
    Move q { q with
      producer := some
        { chunk := q.calls, wait, frames := q.framesOf contents, born := q.epoch }
      calls := q.calls + 1
      submitted := q.submitted ++ q.framesOf contents }
  | readEpoch (p : Submission β) (hproducer : q.producer = some p) (hepoch : p.epoch = none) :
    Move q { q with producer := some { p with epoch := some q.epoch } }
  | nextFrame (p : Submission β) (hproducer : q.producer = some p) :
    Move q { q with producer := some { p with capacity := some (max q.depth p.frames.length) } }
  | finish (p : Submission β) (aborted : Bool) (hproducer : q.producer = some p)
    (haborted : aborted → q.closed ∨ (∃ epoch, p.epoch = some epoch ∧ q.epoch ≠ epoch) ∨ p.wait) :
    Move q (q.finish p aborted)
  | enter (p : Submission β) (capacity : ℕ) (f : PacedFrame β) (hproducer : q.producer = some p)
    (hepoch : p.epoch = some q.epoch) (hcapacity : p.capacity = some capacity)
    (hnext : p.frames[p.enqueued]? = some f) (hroom : q.queue.length < capacity) :
    Move q { q with
      queue := q.queue ++ [f]
      producer := some { p with capacity := none, enqueued := p.enqueued + 1 }
      entered := q.entered ++ [f]
      levels := q.levels ++ [(q.queue.length + 1, max q.depth p.frames.length)] }

theorem Move.of_submit {contents : List β} {wait : Bool} (h : q.submit contents wait = some q') :
    Move q q' := by
  unfold FrameQueue.submit at h
  cases hproducer : q.producer with
  | some p => rw [hproducer] at h; cases h
  | none =>
    rw [hproducer] at h
    cases h
    exact .submit contents wait hproducer

theorem Move.of_readEpoch (h : q.readEpoch = some q') : Move q q' := by
  unfold FrameQueue.readEpoch at h
  cases hproducer : q.producer with
  | none => rw [hproducer] at h; cases h
  | some p =>
    cases hepoch : p.epoch with
    | some epoch => simp [hproducer, hepoch] at h
    | none =>
      simp only [hproducer, hepoch] at h
      cases h
      exact .readEpoch p hproducer hepoch

theorem Move.of_nextFrame (h : q.nextFrame = some q') : Move q q' := by
  unfold FrameQueue.nextFrame at h
  cases hproducer : q.producer with
  | none => rw [hproducer] at h; cases h
  | some p =>
    cases hepoch : p.epoch with
    | none => simp [hproducer, hepoch] at h
    | some epoch =>
      cases hcapacity : p.capacity with
      | some capacity => simp [hproducer, hepoch, hcapacity] at h
      | none =>
        simp only [hproducer, hepoch, hcapacity] at h
        split_ifs at h
        · cases h
          rw [← hepoch]
          exact .nextFrame p hproducer
        · cases h
          exact .finish p false hproducer fun haborted => Bool.noConfusion haborted

theorem Move.of_put (h : q.put = some q') : Move q q' := by
  unfold FrameQueue.put at h
  cases hproducer : q.producer with
  | none => rw [hproducer] at h; cases h
  | some p =>
    cases hepoch : p.epoch with
    | none => simp [hproducer, hepoch] at h
    | some epoch =>
      cases hcapacity : p.capacity with
      | none => simp [hproducer, hepoch, hcapacity] at h
      | some capacity =>
        cases hnext : p.frames[p.enqueued]? with
        | none => simp [hproducer, hepoch, hcapacity, hnext] at h
        | some f =>
          simp only [hproducer, hepoch, hcapacity, hnext] at h
          split_ifs at h with hgives hroom hwait
          · cases h
            refine .finish p true hproducer fun _ => ?_
            simp only [Bool.or_eq_true, Bool.and_eq_true, decide_eq_true_eq] at hgives
            obtain (hclosed | hmoved) | hstopped := hgives
            · exact .inl hclosed
            · exact .inr (.inl ⟨epoch, hepoch, hmoved⟩)
            · exact .inr (.inr hstopped.1)
          · cases h
            have hsame : q.epoch = epoch := by
              by_contra hne
              exact hgives (by simp [hne])
            rw [← hepoch]
            exact .enter p capacity f hproducer (hsame ▸ hepoch) hcapacity hnext hroom
          · cases h
            exact .finish p false hproducer fun haborted => Bool.noConfusion haborted

theorem step_cases {l : Label β} (h : q.step l = some q') :
    Move q q' ∨ ∃ depth, l = .setDepth depth ∧ q' = q.setDepth depth := by
  cases l with
  | submit contents wait => exact .inl (.of_submit h)
  | readEpoch => exact .inl (.of_readEpoch h)
  | nextFrame => exact .inl (.of_nextFrame h)
  | put => exact .inl (.of_put h)
  | setDepth depth => exact .inr ⟨depth, rfl, (Option.some.inj h).symm⟩

theorem epoch_step {l : Label β} (h : q.step l = some q') : q'.epoch = q.epoch := by
  obtain hmove | ⟨depth, _, rfl⟩ := step_cases h
  · cases hmove <;> rfl
  · unfold setDepth
    split_ifs <;> rfl

theorem stopped_step {l : Label β} (h : q.step l = some q') : q'.stopped = q.stopped := by
  obtain hmove | ⟨depth, _, rfl⟩ := step_cases h
  · cases hmove <;> rfl
  · unfold setDepth
    split_ifs <;> rfl

/-! ### The order of the frames -/

/-- The frames of the chunk that is being submitted which are not on the queue yet. -/
def rest (q : FrameQueue β) : List (PacedFrame β) :=
  q.producer.elim [] fun p => p.frames.drop p.enqueued

/-- The frames that have left the queue and those that are on it are in order. -/
structure Orderly (q : FrameQueue β) (out : List (PacedFrame β)) : Prop where
  line : ∃ passed, q.submitted = passed ++ q.rest ∧ (out ++ q.queue).Sublist passed
  keys : (q.submitted.map PacedFrame.key).Nodup
  chunk_lt : ∀ f ∈ q.submitted, f.chunk < q.calls

theorem rest_of_some {p : Submission β} (h : q.producer = some p) :
    q.rest = p.frames.drop p.enqueued := by
  rw [rest, h]
  rfl

theorem rest_of_none (h : q.producer = none) : q.rest = [] := by
  rw [rest, h]
  rfl

theorem chunk_of_mem_framesOf {contents : List β} (h : f ∈ q.framesOf contents) :
    f.chunk = q.calls ∧ f.born = q.epoch := by
  obtain ⟨i, hi, rfl⟩ := List.mem_mapIdx.mp h
  exact ⟨rfl, rfl⟩

theorem nodup_framesOf (contents : List β) : ((q.framesOf contents).map PacedFrame.key).Nodup := by
  have hkeys : (q.framesOf contents).map PacedFrame.key =
      (List.range contents.length).map fun i => (q.calls, i) := by
    refine List.ext_getElem (by simp [framesOf]) fun i h h' => ?_
    simp [framesOf, PacedFrame.key]
  rw [hkeys]
  exact List.nodup_range.map fun i j hij => congrArg Prod.snd hij

/-- No step of the producer changes the order. -/
theorem Orderly.move (h : Orderly q out) (hmove : Move q q') : Orderly q' out := by
  obtain ⟨passed, hsubmitted, hline⟩ := h.line
  cases hmove with
  | submit contents wait hproducer =>
    exact
      { line := by
          rw [rest_of_none hproducer, List.append_nil] at hsubmitted
          exact ⟨passed, by rw [hsubmitted]; rfl, hline⟩
        keys := by
          rw [List.map_append, List.nodup_append]
          refine ⟨h.keys, nodup_framesOf contents, ?_⟩
          rintro _ ha _ hb rfl
          obtain ⟨f, hf, hkey⟩ := List.mem_map.mp ha
          obtain ⟨g, hg, rfl⟩ := List.mem_map.mp hb
          have hlt := h.chunk_lt f hf
          have hchunk : f.chunk = g.chunk := congrArg Prod.fst hkey
          rw [hchunk, (chunk_of_mem_framesOf hg).1] at hlt
          exact Nat.lt_irrefl _ hlt
        chunk_lt := by
          intro f hf
          obtain hf | hf := List.mem_append.mp hf
          · exact Nat.lt_succ_of_lt (h.chunk_lt f hf)
          · rw [(chunk_of_mem_framesOf hf).1]
            exact Nat.lt_succ_self _ }
  | readEpoch p hproducer hepoch =>
    rw [rest_of_some hproducer] at hsubmitted
    exact ⟨⟨passed, hsubmitted, hline⟩, h.keys, h.chunk_lt⟩
  | nextFrame p hproducer =>
    rw [rest_of_some hproducer] at hsubmitted
    exact ⟨⟨passed, hsubmitted, hline⟩, h.keys, h.chunk_lt⟩
  | finish p aborted hproducer haborted =>
    refine ⟨⟨q.submitted, (List.append_nil _).symm, ?_⟩, h.keys, h.chunk_lt⟩
    rw [hsubmitted]
    exact hline.trans (List.sublist_append_left _ _)
  | enter p capacity f hproducer hepoch hcapacity hnext hroom =>
    refine ⟨⟨passed ++ [f], ?_, ?_⟩, h.keys, h.chunk_lt⟩
    · obtain ⟨hlt, hf⟩ := List.getElem?_eq_some_iff.mp hnext
      show q.submitted = passed ++ [f] ++ p.frames.drop (p.enqueued + 1)
      rw [hsubmitted, rest_of_some hproducer, List.drop_eq_getElem_cons hlt, hf, List.append_assoc]
      rfl
    · show (out ++ (q.queue ++ [f])).Sublist (passed ++ [f])
      rw [← List.append_assoc]
      exact hline.append (List.Sublist.refl _)

theorem orderly_new {depth : ℕ} : Orderly ({ depth } : FrameQueue β) [] where
  line := ⟨[], rfl, List.Sublist.refl _⟩
  keys := List.nodup_nil
  chunk_lt _ hf := absurd hf List.not_mem_nil

theorem Orderly.step (h : Orderly q out) {l : Label β} (hstep : q.step l = some q') :
    Orderly q' out := by
  obtain hmove | ⟨depth, _, rfl⟩ := step_cases hstep
  · exact h.move hmove
  · unfold setDepth
    split_ifs
    · exact h
    · exact ⟨h.line, h.keys, h.chunk_lt⟩

/-- What is lost on its way does not change the order either. -/
theorem Orderly.mono {out' : List (PacedFrame β)} (h : Orderly q out) (hout : out'.Sublist out) :
    Orderly q out' := by
  obtain ⟨passed, hsubmitted, hline⟩ := h.line
  exact ⟨⟨passed, hsubmitted, (hout.append (List.Sublist.refl _)).trans hline⟩, h.keys, h.chunk_lt⟩

theorem Orderly.of_eq (h : Orderly q out) (hproducer : q'.producer = q.producer)
    (hcalls : q'.calls = q.calls) (hsubmitted : q'.submitted = q.submitted)
    (hqueue : q'.queue.Sublist q.queue) : Orderly q' out := by
  obtain ⟨passed, hline, hsublist⟩ := h.line
  refine ⟨⟨passed, ?_, ((List.Sublist.refl _).append hqueue).trans hsublist⟩, ?_, ?_⟩
  · rw [rest, hproducer, hsubmitted]
    exact hline
  · rw [hsubmitted]
    exact h.keys
  · rw [hsubmitted, hcalls]
    exact h.chunk_lt

theorem Orderly.clear (h : Orderly q out) : Orderly q.clear out :=
  h.of_eq rfl rfl rfl (List.nil_sublist _)

theorem Orderly.flush (h : Orderly q out) : Orderly q.flush out :=
  h.of_eq rfl rfl rfl (List.nil_sublist _)

theorem eq_of_take (htake : q.take = some (f, q')) :
    ∃ queue, q.queue = f :: queue ∧ q' = { q with queue } := by
  unfold FrameQueue.take at htake
  cases hqueue : q.queue with
  | nil => rw [hqueue] at htake; cases htake
  | cons g queue =>
    rw [hqueue] at htake
    obtain ⟨rfl, rfl⟩ := Prod.mk.inj (Option.some.inj htake)
    exact ⟨queue, rfl, rfl⟩

/-- The frame that is taken comes after those that were taken before. -/
theorem Orderly.take (h : Orderly q out) (htake : q.take = some (f, q')) :
    Orderly q' (out ++ [f]) := by
  obtain ⟨queue, hqueue, rfl⟩ := eq_of_take htake
  obtain ⟨passed, hsubmitted, hline⟩ := h.line
  refine ⟨⟨passed, hsubmitted, ?_⟩, h.keys, h.chunk_lt⟩
  rw [hqueue] at hline
  rwa [List.append_assoc]

theorem Orderly.sublist (h : Orderly q out) : out.Sublist q.submitted := by
  obtain ⟨passed, hsubmitted, hline⟩ := h.line
  rw [hsubmitted]
  exact ((List.sublist_append_left _ _).trans hline).trans (List.sublist_append_left _ _)

theorem Orderly.nodup (h : Orderly q out) : (out.map PacedFrame.key).Nodup :=
  h.keys.sublist (h.sublist.map _)

/-! ### What a call of `submit` puts on the queue -/

def ofChunk (chunk : ℕ) (l : List (PacedFrame β)) : List (PacedFrame β) :=
  l.filter fun f => f.chunk = chunk

structure Puts (q : FrameQueue β) (p : Submission β) : Prop where
  chunk_lt : p.chunk < q.calls
  given : ofChunk p.chunk q.submitted = p.frames
  entered : ofChunk p.chunk q.entered = p.frames.take p.enqueued
  enqueued_le : p.enqueued ≤ p.frames.length

/-- Each call that has returned put the first frames of its chunk on the queue; one that gave up was
overtaken by a flush or the stop; and the frames that were dropped are the rest of the others. -/
structure Prefixed (q : FrameQueue β) : Prop where
  entered_lt : ∀ f ∈ q.entered, f.chunk < q.calls
  submitted_lt : ∀ f ∈ q.submitted, f.chunk < q.calls
  producer : ∀ p, q.producer = some p → Puts q p ∧ p.born ≤ q.epoch ∧
    (∀ epoch, p.epoch = some epoch → p.born ≤ epoch ∧ epoch ≤ q.epoch) ∧
    ∀ r ∈ q.returned, r.call.chunk ≠ p.chunk
  returned : ∀ r ∈ q.returned, Puts q r.call
  aborted : ∀ r ∈ q.returned, r.aborted → r.call.wait = false → r.closed ∨ r.call.born < r.epoch
  dropped : q.droppedFrames = (q.returned.map SubmitResult.dropped).sum

theorem ofChunk_eq_nil {chunk : ℕ} {l : List (PacedFrame β)} (h : ∀ f ∈ l, f.chunk ≠ chunk) :
    ofChunk chunk l = [] :=
  List.filter_eq_nil_iff.mpr fun f hf => by simpa using h f hf

theorem Puts.of_eq {p : Submission β} (h : Puts q p) (hcalls : q'.calls = q.calls)
    (hsubmitted : q'.submitted = q.submitted) (hentered : q'.entered = q.entered) : Puts q' p :=
  ⟨hcalls ▸ h.chunk_lt, hsubmitted ▸ h.given, hentered ▸ h.entered, h.enqueued_le⟩

theorem Puts.submit {p : Submission β} {contents : List β} {producer : Option (Submission β)}
    (h : Puts q p) : Puts { q with
      producer
      calls := q.calls + 1
      submitted := q.submitted ++ q.framesOf contents } p where
  chunk_lt := Nat.lt_succ_of_lt h.chunk_lt
  given := by
    have hnil : ofChunk p.chunk (q.framesOf contents) = [] := ofChunk_eq_nil fun f hf => by
      rw [(chunk_of_mem_framesOf hf).1]
      exact (Nat.ne_of_lt h.chunk_lt).symm
    rw [ofChunk, List.filter_append]
    exact (congrArg _ hnil).trans ((List.append_nil _).trans h.given)
  entered := h.entered
  enqueued_le := h.enqueued_le

theorem Puts.enter {p : Submission β} {producer : Option (Submission β)}
    {levels : List (ℕ × ℕ)} (h : Puts q p) (hchunk : f.chunk ≠ p.chunk) : Puts { q with
      queue := q.queue ++ [f]
      producer
      entered := q.entered ++ [f]
      levels } p where
  chunk_lt := h.chunk_lt
  given := h.given
  entered := by
    have hnil : ofChunk p.chunk [f] = [] := ofChunk_eq_nil fun g hg => by
      rwa [List.mem_singleton.mp hg]
    rw [ofChunk, List.filter_append]
    exact (congrArg _ hnil).trans ((List.append_nil _).trans h.entered)
  enqueued_le := h.enqueued_le

theorem Puts.next {p : Submission β} {levels : List (ℕ × ℕ)} (h : Puts q p)
    (hnext : p.frames[p.enqueued]? = some f) : f.chunk = p.chunk ∧ Puts { q with
      queue := q.queue ++ [f]
      producer := some { p with capacity := none, enqueued := p.enqueued + 1 }
      entered := q.entered ++ [f]
      levels } { p with capacity := none, enqueued := p.enqueued + 1 } := by
  obtain ⟨hlt, hf⟩ := List.getElem?_eq_some_iff.mp hnext
  have hmem : f ∈ ofChunk p.chunk q.submitted := by
    rw [h.given]
    exact List.mem_of_getElem? hnext
  have hchunk : f.chunk = p.chunk := by simpa using (List.mem_filter.mp hmem).2
  refine ⟨hchunk, h.chunk_lt, h.given, ?_, hlt⟩
  have hone : ofChunk p.chunk [f] = [f] := by simp [ofChunk, hchunk]
  rw [ofChunk, List.filter_append]
  show ofChunk p.chunk q.entered ++ ofChunk p.chunk [f] = p.frames.take (p.enqueued + 1)
  rw [h.entered, hone, List.take_succ, hnext]
  rfl

theorem Prefixed.move (h : Prefixed q) (hmove : Move q q') : Prefixed q' := by
  cases hmove with
  | submit contents wait hproducer =>
    exact
      { entered_lt := fun f hf => Nat.lt_succ_of_lt (h.entered_lt f hf)
        submitted_lt := by
          intro f hf
          obtain hf | hf := List.mem_append.mp hf
          · exact Nat.lt_succ_of_lt (h.submitted_lt f hf)
          · rw [(chunk_of_mem_framesOf hf).1]
            exact Nat.lt_succ_self _
        producer := by
          intro p hp
          cases hp
          refine ⟨⟨Nat.lt_succ_self _, ?_, ?_, Nat.zero_le _⟩, Nat.le_refl _,
            fun epoch hepoch => absurd hepoch.symm (Option.some_ne_none _), ?_⟩
          · have hold : ofChunk q.calls q.submitted = [] :=
              ofChunk_eq_nil fun f hf => Nat.ne_of_lt (h.submitted_lt f hf)
            have hnew : ofChunk q.calls (q.framesOf contents) = q.framesOf contents :=
              List.filter_eq_self.mpr fun f hf => by simp [(chunk_of_mem_framesOf hf).1]
            show ofChunk q.calls (q.submitted ++ q.framesOf contents) = q.framesOf contents
            rw [ofChunk, List.filter_append]
            show ofChunk q.calls q.submitted ++ ofChunk q.calls (q.framesOf contents) = _
            rw [hold, hnew, List.nil_append]
          · exact ofChunk_eq_nil fun f hf => Nat.ne_of_lt (h.entered_lt f hf)
          · exact fun r hr => Nat.ne_of_lt (h.returned r hr).chunk_lt
        returned := fun r hr => (h.returned r hr).submit
        aborted := h.aborted
        dropped := h.dropped }
  | readEpoch p hproducer hepoch =>
    obtain ⟨hputs, hborn, _, hothers⟩ := h.producer p hproducer
    exact
      { entered_lt := h.entered_lt
        submitted_lt := h.submitted_lt
        producer := by
          intro p' hp'
          cases hp'
          refine ⟨⟨hputs.chunk_lt, hputs.given, hputs.entered, hputs.enqueued_le⟩, hborn, ?_,
            hothers⟩
          intro epoch hread
          cases hread
          exact ⟨hborn, Nat.le_refl _⟩
        returned := fun r hr => (h.returned r hr).of_eq rfl rfl rfl
        aborted := h.aborted
        dropped := h.dropped }
  | nextFrame p hproducer =>
    obtain ⟨hputs, hrest⟩ := h.producer p hproducer
    exact
      { entered_lt := h.entered_lt
        submitted_lt := h.submitted_lt
        producer := by
          intro p' hp'
          cases hp'
          exact ⟨⟨hputs.chunk_lt, hputs.given, hputs.entered, hputs.enqueued_le⟩, hrest⟩
        returned := fun r hr => (h.returned r hr).of_eq rfl rfl rfl
        aborted := h.aborted
        dropped := h.dropped }
  | finish p aborted hproducer haborted =>
    obtain ⟨hputs, hborn, hread, _⟩ := h.producer p hproducer
    exact
      { entered_lt := h.entered_lt
        submitted_lt := h.submitted_lt
        producer := fun p' hp' => absurd hp'.symm (Option.some_ne_none _)
        returned := by
          intro r hr
          obtain hr | hr := List.mem_append.mp hr
          · exact (h.returned r hr).of_eq rfl rfl rfl
          · obtain rfl := List.mem_singleton.mp hr
            exact ⟨hputs.chunk_lt, hputs.given, hputs.entered, hputs.enqueued_le⟩
        aborted := by
          intro r hr hgave hwait
          obtain hr | hr := List.mem_append.mp hr
          · exact h.aborted r hr hgave hwait
          · obtain rfl := List.mem_singleton.mp hr
            obtain hclosed | ⟨epoch, hepoch, hmoved⟩ | hwaits := haborted hgave
            · exact .inl hclosed
            · obtain ⟨hle, hle'⟩ := hread epoch hepoch
              exact .inr (Nat.lt_of_le_of_lt hle (Nat.lt_of_le_of_ne hle' (Ne.symm hmoved)))
            · exact Bool.noConfusion (hwait.symm.trans hwaits)
        dropped := by
          show q.droppedFrames + _ = ((q.returned ++ [_]).map SubmitResult.dropped).sum
          rw [List.map_append, List.sum_append, ← h.dropped]
          rfl }
  | enter p capacity f hproducer hepoch hcapacity hnext hroom =>
    obtain ⟨hputs, hborn, hread, hothers⟩ := h.producer p hproducer
    obtain ⟨hchunk, hputs'⟩ := hputs.next hnext
    exact
      { entered_lt := by
          intro g hg
          obtain hg | hg := List.mem_append.mp hg
          · exact h.entered_lt g hg
          · obtain rfl := List.mem_singleton.mp hg
            exact hchunk ▸ hputs.chunk_lt
        submitted_lt := h.submitted_lt
        producer := by
          intro p' hp'
          cases hp'
          exact ⟨hputs', hborn, hread, hothers⟩
        returned := fun r hr => (h.returned r hr).enter (hchunk ▸ (hothers r hr).symm)
        aborted := h.aborted
        dropped := h.dropped }

theorem Prefixed.of_eq (h : Prefixed q) (hepoch : q.epoch ≤ q'.epoch)
    (hproducer : q'.producer = q.producer) (hcalls : q'.calls = q.calls)
    (hsubmitted : q'.submitted = q.submitted) (hentered : q'.entered = q.entered)
    (hreturned : q'.returned = q.returned) (hdropped : q'.droppedFrames = q.droppedFrames) :
    Prefixed q' where
  entered_lt := by rw [hentered, hcalls]; exact h.entered_lt
  submitted_lt := by rw [hsubmitted, hcalls]; exact h.submitted_lt
  producer := by
    intro p hp
    rw [hproducer] at hp
    obtain ⟨hputs, hborn, hread, hothers⟩ := h.producer p hp
    refine ⟨hputs.of_eq hcalls hsubmitted hentered, Nat.le_trans hborn hepoch, ?_, ?_⟩
    · intro epoch hp
      exact ⟨(hread epoch hp).1, Nat.le_trans (hread epoch hp).2 hepoch⟩
    · rwa [hreturned]
  returned := by
    intro r hr
    rw [hreturned] at hr
    exact (h.returned r hr).of_eq hcalls hsubmitted hentered
  aborted := by rw [hreturned]; exact h.aborted
  dropped := by rw [hdropped, hreturned]; exact h.dropped

theorem prefixed_new {depth : ℕ} : Prefixed ({ depth } : FrameQueue β) where
  entered_lt _ hf := absurd hf List.not_mem_nil
  submitted_lt _ hf := absurd hf List.not_mem_nil
  producer _ hp := absurd hp.symm (Option.some_ne_none _)
  returned _ hr := absurd hr List.not_mem_nil
  aborted _ hr := absurd hr List.not_mem_nil
  dropped := rfl

theorem Prefixed.step (h : Prefixed q) {l : Label β} (hstep : q.step l = some q') :
    Prefixed q' := by
  obtain hmove | ⟨depth, _, rfl⟩ := step_cases hstep
  · exact h.move hmove
  · unfold setDepth
    split_ifs
    · exact h
    · exact h.of_eq (Nat.le_refl _) rfl rfl rfl rfl rfl rfl

theorem Prefixed.take (h : Prefixed q) (htake : q.take = some (f, q')) : Prefixed q' := by
  obtain ⟨queue, _, rfl⟩ := eq_of_take htake
  exact h.of_eq (Nat.le_refl _) rfl rfl rfl rfl rfl rfl

theorem Prefixed.flush (h : Prefixed q) : Prefixed q.flush :=
  h.of_eq (Nat.le_succ _) rfl rfl rfl rfl rfl rfl

theorem Prefixed.clear (h : Prefixed q) : Prefixed q.clear :=
  h.of_eq (Nat.le_refl _) rfl rfl rfl rfl rfl rfl

/-- What becomes of the frames that are submitted: those that leave the queue do so in order and
once, and each call of `submit` that has returned put the first frames of its chunk on the queue.
One that does not wait gave up only as a flush or the stop overtook it, and what the others did not
put is what was counted as dropped. -/
structure Delivered (q : FrameQueue β) (out : List (PacedFrame β)) : Prop where
  ordered : out.Sublist q.submitted
  once : (out.map PacedFrame.key).Nodup
  given : ∀ r ∈ q.returned, ofChunk r.call.chunk q.submitted = r.call.frames
  queued : ∀ r ∈ q.returned, ofChunk r.call.chunk q.entered = r.call.frames.take r.call.enqueued
  aborted : ∀ r ∈ q.returned, r.aborted → r.call.wait = false → r.closed ∨ r.call.born < r.epoch
  dropped : q.droppedFrames = (q.returned.map SubmitResult.dropped).sum

theorem delivered (horderly : Orderly q out) (hprefixed : Prefixed q) : Delivered q out where
  ordered := horderly.sublist
  once := horderly.nodup
  given r hr := (hprefixed.returned r hr).given
  queued r hr := (hprefixed.returned r hr).entered
  aborted := hprefixed.aborted
  dropped := hprefixed.dropped

/-! ### The bound of the queue -/

/-- No smaller depth is set while a frame waits whose capacity was read. -/
def DepthHeld (q : FrameQueue β) : Label β → Prop
  | .setDepth depth => depth ≠ 0 → depth < q.depth → q.producer.all fun p => p.capacity.isNone
  | .submit _ _ | .readEpoch | .nextFrame | .put => True

instance (l : Label β) : Decidable (q.DepthHeld l) :=
  match l with
  | .setDepth depth =>
    inferInstanceAs (Decidable (depth ≠ 0 → depth < q.depth → _ = true))
  | .submit _ _ | .readEpoch | .nextFrame | .put => .isTrue trivial

/-- The capacity that was read is in force, and no put was past it. -/
structure Fitting (q : FrameQueue β) : Prop where
  capacity : ∀ p, q.producer = some p → ∀ capacity, p.capacity = some capacity →
    capacity ≤ max q.depth p.frames.length
  levels : ∀ level ∈ q.levels, level.1 ≤ level.2

theorem fitting_new {depth : ℕ} : Fitting ({ depth } : FrameQueue β) where
  capacity _ hp := absurd hp.symm (Option.some_ne_none _)
  levels _ hlevel := absurd hlevel List.not_mem_nil

theorem Fitting.of_eq (h : Fitting q) (hproducer : q'.producer = q.producer)
    (hdepth : q'.depth = q.depth) (hlevels : q'.levels = q.levels) : Fitting q' where
  capacity p hp := by
    rw [hdepth]
    exact h.capacity p (hproducer ▸ hp)
  levels := hlevels ▸ h.levels

theorem Fitting.step (h : Fitting q) {l : Label β} (hheld : q.DepthHeld l)
    (hstep : q.step l = some q') : Fitting q' := by
  obtain hmove | ⟨depth, rfl, rfl⟩ := step_cases hstep
  · cases hmove with
    | submit contents wait hproducer =>
      refine ⟨fun p hp capacity hread => ?_, h.levels⟩
      cases hp
      cases hread
    | readEpoch p hproducer hepoch =>
      refine ⟨fun p' hp' => ?_, h.levels⟩
      cases hp'
      exact h.capacity p hproducer
    | nextFrame p hproducer =>
      refine ⟨fun p' hp' capacity hread => ?_, h.levels⟩
      cases hp'
      exact Nat.le_of_eq (Option.some.inj hread).symm
    | finish p aborted hproducer haborted =>
      exact ⟨fun p' hp' => absurd hp'.symm (Option.some_ne_none _), h.levels⟩
    | enter p capacity f hproducer hepoch hcapacity hnext hroom =>
      refine ⟨fun p' hp' capacity hread => ?_, fun level hlevel => ?_⟩
      · cases hp'
        cases hread
      · obtain hlevel | hlevel := List.mem_append.mp hlevel
        · exact h.levels level hlevel
        · obtain rfl := List.mem_singleton.mp hlevel
          exact Nat.le_trans hroom (h.capacity p hproducer capacity hcapacity)
  · unfold setDepth
    split_ifs with hzero
    · exact h
    refine ⟨fun p hp capacity hread => ?_, h.levels⟩
    by_cases hlt : depth < q.depth
    · have hnone := hheld hzero hlt
      rw [show q.producer = some p from hp, Option.all_some, hread] at hnone
      cases hnone
    · have hle := h.capacity p hp capacity hread
      show capacity ≤ max depth p.frames.length
      omega

/-! ### What the queue holds after a flush -/

/-- No call of `submit` is still to read the epoch. -/
def EpochRead (q : FrameQueue β) : Prop := q.producer.all fun p => p.epoch.isSome

instance : Decidable q.EpochRead := inferInstanceAs (Decidable (_ = true))

/-- What a call of `submit` may still put on the queue was submitted after a flush. -/
structure PutsSince (q : FrameQueue β) (cut : ℕ) : Prop where
  frames : ∀ p, q.producer = some p → ∀ f ∈ p.frames, f.born = p.born
  born : ∀ p, q.producer = some p → p.epoch = none ∨ p.epoch = some q.epoch → cut ≤ p.born
  read_le : ∀ p, q.producer = some p → ∀ epoch, p.epoch = some epoch → epoch ≤ q.epoch
  cut_le : cut ≤ q.epoch

structure Since (q : FrameQueue β) (cut : ℕ) : Prop where
  queue : ∀ f ∈ q.queue, cut ≤ f.born
  puts : q.PutsSince cut

section Since

variable {cut : ℕ}

theorem putsSince_new {depth : ℕ} : PutsSince ({ depth } : FrameQueue β) 0 where
  frames _ hp := absurd hp.symm (Option.some_ne_none _)
  born _ hp := absurd hp.symm (Option.some_ne_none _)
  read_le _ hp := absurd hp.symm (Option.some_ne_none _)
  cut_le := Nat.le_refl _

theorem since_new {depth : ℕ} : Since ({ depth } : FrameQueue β) 0 :=
  ⟨fun _ hf => absurd hf List.not_mem_nil, putsSince_new⟩

theorem PutsSince.of_eq (h : PutsSince q cut) (hproducer : q'.producer = q.producer)
    (hepoch : q'.epoch = q.epoch) : PutsSince q' cut where
  frames p hp := h.frames p (hproducer ▸ hp)
  born p hp := by
    rw [hepoch]
    exact h.born p (hproducer ▸ hp)
  read_le p hp := by
    rw [hepoch]
    exact h.read_le p (hproducer ▸ hp)
  cut_le := hepoch ▸ h.cut_le

theorem PutsSince.move (h : PutsSince q cut) (hmove : Move q q') : PutsSince q' cut := by
  cases hmove with
  | submit contents wait hproducer =>
    refine ⟨fun p hp => ?_, fun p hp _ => ?_, fun p hp epoch hread => ?_, h.cut_le⟩
    · cases hp
      exact fun f hf => (chunk_of_mem_framesOf hf).2
    · cases hp
      exact h.cut_le
    · cases hp
      cases hread
  | readEpoch p hproducer hepoch =>
    refine ⟨fun p' hp' => ?_, fun p' hp' _ => ?_, fun p' hp' epoch hread => ?_, h.cut_le⟩
    · cases hp'
      exact h.frames p hproducer
    · cases hp'
      exact h.born p hproducer (.inl hepoch)
    · cases hp'
      exact Nat.le_of_eq (Option.some.inj hread).symm
  | nextFrame p hproducer =>
    refine ⟨fun p' hp' => ?_, fun p' hp' => ?_, fun p' hp' => ?_, h.cut_le⟩
    · cases hp'
      exact h.frames p hproducer
    · cases hp'
      exact h.born p hproducer
    · cases hp'
      exact h.read_le p hproducer
  | finish p aborted hproducer haborted =>
    exact ⟨fun p' hp' => absurd hp'.symm (Option.some_ne_none _),
      fun p' hp' => absurd hp'.symm (Option.some_ne_none _),
      fun p' hp' => absurd hp'.symm (Option.some_ne_none _), h.cut_le⟩
  | enter p capacity f hproducer hepoch hcapacity hnext hroom =>
    refine ⟨fun p' hp' => ?_, fun p' hp' => ?_, fun p' hp' => ?_, h.cut_le⟩
    · cases hp'
      exact h.frames p hproducer
    · cases hp'
      exact h.born p hproducer
    · cases hp'
      exact h.read_le p hproducer

theorem PutsSince.step (h : PutsSince q cut) {l : Label β} (hstep : q.step l = some q') :
    PutsSince q' cut := by
  obtain hmove | ⟨depth, _, rfl⟩ := step_cases hstep
  · exact h.move hmove
  · unfold setDepth
    split_ifs
    · exact h
    · exact h.of_eq rfl rfl

theorem Since.step (h : Since q cut) {l : Label β} (hstep : q.step l = some q') :
    Since q' cut := by
  refine ⟨?_, h.puts.step hstep⟩
  obtain hmove | ⟨depth, _, rfl⟩ := step_cases hstep
  · cases hmove with
    | enter p capacity f hproducer hepoch hcapacity hnext hroom =>
      intro g hg
      obtain hg | hg := List.mem_append.mp hg
      · exact h.queue g hg
      · obtain rfl := List.mem_singleton.mp hg
        rw [h.puts.frames p hproducer g (List.mem_of_getElem? hnext)]
        exact h.puts.born p hproducer (.inr hepoch)
    | submit | readEpoch | nextFrame | finish => exact h.queue
  · unfold setDepth
    split_ifs
    · exact h.queue
    · exact h.queue

theorem PutsSince.nextEpoch (h : PutsSince q cut) (hread : q.EpochRead) :
    PutsSince { q with epoch := q.epoch + 1 } (q.epoch + 1) where
  frames := h.frames
  born := by
    intro p hp hnow
    have hp' : q.producer = some p := hp
    obtain hnone | hnow := hnow
    · rw [EpochRead, hp', Option.all_some, hnone] at hread
      cases hread
    · exact absurd (h.read_le p hp' _ hnow) (Nat.not_succ_le_self _)
  read_le p hp epoch hepoch := Nat.le_succ_of_le (h.read_le p hp epoch hepoch)
  cut_le := Nat.le_refl _

theorem PutsSince.epochEnds (h : PutsSince q cut) :
    PutsSince { q with epoch := q.epoch + 1 } cut where
  frames := h.frames
  born := by
    intro p hp hnow
    obtain hnone | hnow := hnow
    · exact h.born p hp (.inl hnone)
    · exact absurd (h.read_le p hp _ hnow) (Nat.not_succ_le_self _)
  read_le p hp epoch hepoch := Nat.le_succ_of_le (h.read_le p hp epoch hepoch)
  cut_le := Nat.le_succ_of_le h.cut_le

theorem Since.flush (h : Since q cut) (hread : q.EpochRead) : Since q.flush (q.epoch + 1) :=
  ⟨fun _ hf => absurd hf List.not_mem_nil, (h.puts.nextEpoch hread).of_eq rfl rfl⟩

theorem Since.clear (h : Since q cut) : Since q.clear cut :=
  ⟨fun _ hf => absurd hf List.not_mem_nil, h.puts.of_eq rfl rfl⟩

theorem Since.take (h : Since q cut) (htake : q.take = some (f, q')) :
    Since q' cut ∧ cut ≤ f.born ∧ q'.epoch = q.epoch := by
  obtain ⟨queue, hqueue, rfl⟩ := eq_of_take htake
  have hborn := h.queue
  rw [hqueue] at hborn
  exact ⟨⟨fun f hf => hborn f (List.mem_cons_of_mem _ hf), h.puts.of_eq rfl rfl⟩,
    hborn f List.mem_cons_self, rfl⟩

end Since

end FrameQueue

end ReactorRuntime.Transport
