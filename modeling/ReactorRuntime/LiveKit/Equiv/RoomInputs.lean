import ReactorRuntime.LiveKit.RoomInputs
import ReactorRuntime.LiveKit.Equiv.StreamFramer

/-!
## The byte streams of a room, over whole runs

* `in_order`: of each stream that was accepted the sink is handed its frames in order, and once it
  has ended one end frame and nothing more; the frames of two streams on one topic do not
  interleave.  The frames join up to the mono mix of the chunks that were read, which are all of
  them where the stream ended by itself.
* `not_in_order`: a stream that is ended from outside loses what waits in its reader.
-/

namespace ReactorRuntime.LiveKit

open ReactorRuntime.Lists

namespace RoomInputs

variable {σ : Type} {setup : InputSetup σ} {s s' : RoomInputs σ} {i j : ℕ} {st st' : InputStream σ}
  {topic : String} {f : SunkFrame} {added : List SunkFrame}

/-- What the sink was handed of a stream. -/
def framesOf (s : RoomInputs σ) (i : ℕ) : List SunkFrame := s.sunk.filter fun f => f.stream = i

def IsOpen (s : RoomInputs σ) (i : ℕ) (st : InputStream σ) : Prop :=
  s.streams.lookup st.info.topic = some i

instance (s : RoomInputs σ) (i : ℕ) (st : InputStream σ) : Decidable (s.IsOpen i st) :=
  inferInstanceAs (Decidable (_ = _))

/-! ### Invariants -/

structure Live (setup : InputSetup σ) (st : InputStream σ) (frames : List (List ℤ)) : Prop where
  framed : Framed setup.resampler st.rate st.streamRate st.channels st.pushed.flatten frames st.framer
  arrived : st.arrived = st.pushed.map .chunk ++ st.unread
  ending : st.ending = none

structure Over (setup : InputSetup σ) (st : InputStream σ) (frames : List (List ℤ)) : Prop where
  joined : Joined setup.resampler st.rate st.streamRate st.channels st.pushed.flatten true
    frames.flatten
  full : ∀ frame ∈ frames.dropLast, frame.length = max 1 (st.rate / 100)
  ne_nil : ∀ frame ∈ frames, frame ≠ []
  readerClosed : st.readerClosed = true
  read : st.pushed.map .chunk <+: st.arrived
  ending : st.ending.isSome
  own : st.ending = some .own → ∃ y, y.isLast ∧ st.arrived = st.pushed.map .chunk ++ [y]

/-- What the sink was handed of a stream. -/
structure Fed (setup : InputSetup σ) (s : RoomInputs σ) (i : ℕ) (st : InputStream σ) : Prop where
  channels : 0 < st.channels
  last : ∀ before y after, st.arrived = before ++ y :: after → y.isLast → after = []
  live : s.IsOpen i st → ∃ frames, s.framesOf i = frames.map (st.frame i) ∧ Live setup st frames
  past : ¬s.IsOpen i st →
    ∃ frames, s.framesOf i = frames.map (st.frame i) ++ [st.endFrame i] ∧ Over setup st frames

structure Feeds (setup : InputSetup σ) (s : RoomInputs σ) : Prop where
  fed : ∀ i st, s.accepted[i]? = some st → Fed setup s i st
  keys : (s.streams.map Prod.fst).Nodup
  known : ∀ topic i, s.streams.lookup topic = some i →
    ∃ st, s.accepted[i]? = some st ∧ st.info.topic = topic
  numbered : ∀ f ∈ s.sunk, ∃ st, s.accepted[f.stream]? = some st ∧ st.info.topic = f.topic
  ordered : s.sunk.Pairwise fun a b => a.topic = b.topic → a.stream ≤ b.stream
  newest : ∀ topic i, s.streams.lookup topic = some i → ∀ f ∈ s.sunk, f.topic = topic → f.stream ≤ i

structure Reads (st : InputStream σ) : Prop where
  readerClosed : st.readerClosed = false
  cancelled : st.cancelled = false
  done : st.done = false

/-- The tasks of the open streams read, up to one stream. -/
def Running (s : RoomInputs σ) (but : Option ℕ) : Prop :=
  ∀ i st, s.accepted[i]? = some st → s.IsOpen i st → some i ≠ but → Reads st

/-! ### Frames that are added -/

theorem framesOf_append (hs : s'.sunk = s.sunk ++ added) (hadded : ∀ f ∈ added, f.stream = i) :
    s'.framesOf i = s.framesOf i ++ added := by
  have hall : added.filter (fun f => f.stream = i) = added :=
    List.filter_eq_self.mpr fun f hf => decide_eq_true (hadded f hf)
  rw [framesOf, hs, List.filter_append, hall]
  rfl

theorem framesOf_append_of_ne (hs : s'.sunk = s.sunk ++ added) (hadded : ∀ f ∈ added, f.stream = i)
    (hj : j ≠ i) : s'.framesOf j = s.framesOf j := by
  have hnone : added.filter (fun f => f.stream = j) = [] := by
    refine List.filter_eq_nil_iff.mpr fun f hf heq => hj ?_
    rw [← hadded f hf, of_decide_eq_true heq]
  rw [framesOf, hs, List.filter_append, hnone, List.append_nil]
  rfl

theorem Feeds.ordered_append (h : Feeds setup s) (hopen : s.streams.lookup topic = some i)
    (hadded : ∀ f ∈ added, f.stream = i ∧ f.topic = topic) :
    (s.sunk ++ added).Pairwise fun a b => a.topic = b.topic → a.stream ≤ b.stream := by
  refine List.pairwise_append.mpr ⟨h.ordered, ?_, ?_⟩
  · refine List.pairwise_of_forall_mem_list fun a ha b hb _ => ?_
    rw [(hadded a ha).1, (hadded b hb).1]
  · intro a ha b hb heq
    rw [(hadded b hb).1]
    exact h.newest topic i hopen a ha (heq.trans (hadded b hb).2)

/-! ### A stream ends -/

theorem update_self (s : RoomInputs σ) (hst : s.accepted[i]? = some st)
    (f : InputStream σ → InputStream σ) : (s.update i f).accepted[i]? = some (f st) := by
  rw [update, List.getElem?_modify_eq, hst]
  rfl

theorem update_of_ne (s : RoomInputs σ) (hj : j ≠ i) (f : InputStream σ → InputStream σ) :
    (s.update i f).accepted[j]? = s.accepted[j]? := by
  rw [update, List.getElem?_modify_ne _ _ hj.symm]

theorem endStream_eq (hst : s.accepted[i]? = some st) (hopen : s.IsOpen i st) (ending : Ending) :
    s.endStream setup ending i =
      { (s.update i fun st' => { st' with
          framer := (st.framer.flush setup.resampler).2, readerClosed := true
          ending := some ending }) with
        streams := s.streams.filter fun entry => entry.1 ≠ st.info.topic
        sunk := s.sunk ++
          ((st.framer.flush setup.resampler).1.map (st.frame i) ++ [st.endFrame i]) } := by
  have hlookup : s.streams.lookup st.info.topic = some i := hopen
  unfold endStream
  simp only [hst]
  rw [if_pos hlookup, List.append_assoc]

theorem lookup_endStream (hst : s.accepted[i]? = some st) (hopen : s.IsOpen i st) (ending : Ending) :
    (s.endStream setup ending i).streams.lookup topic =
      if topic = st.info.topic then none else s.streams.lookup topic := by
  rw [endStream_eq hst hopen]
  exact Dict.lookup_filter_ne

theorem Fed.of_eq (h : Fed setup s i st) (hopen : s'.IsOpen i st ↔ s.IsOpen i st)
    (hframes : s'.framesOf i = s.framesOf i) : Fed setup s' i st where
  channels := h.channels
  last := h.last
  live ho := by
    rw [hframes]
    exact h.live (hopen.mp ho)
  past ho := by
    rw [hframes]
    exact h.past fun ho' => ho (hopen.mpr ho')

theorem mem_endFrames {frames : List (List ℤ)} (hf : f ∈ frames.map (st.frame i) ++ [st.endFrame i]) :
    f.stream = i ∧ f.topic = st.info.topic := by
  rcases List.mem_append.mp hf with hf | hf
  · obtain ⟨_, _, rfl⟩ := List.mem_map.mp hf
    exact ⟨rfl, rfl⟩
  · rw [List.mem_singleton.mp hf]
    exact ⟨rfl, rfl⟩

theorem Live.past {frames : List (List ℤ)} (h : Live setup st frames) {ending : Ending}
    (hown : ending = .own → ∃ y, y.isLast ∧ st.arrived = st.pushed.map .chunk ++ [y]) :
    Over setup { st with
      framer := (st.framer.flush setup.resampler).2, readerClosed := true, ending := some ending }
      (frames ++ (st.framer.flush setup.resampler).1) where
  joined := h.framed.flush.1
  full := h.framed.flush.2.1
  ne_nil := h.framed.flush.2.2
  readerClosed := rfl
  read := ⟨st.unread, h.arrived.symm⟩
  ending := rfl
  own heq := hown (Option.some.inj heq)

theorem Feeds.endStream (h : Feeds setup s) (hst : s.accepted[i]? = some st)
    (hopen : s.IsOpen i st) {ending : Ending}
    (hown : ending = .own → ∃ y, y.isLast ∧ st.arrived = st.pushed.map .chunk ++ [y]) :
    Feeds setup (s.endStream setup ending i) := by
  have hlookup : ∀ topic, (s.endStream setup ending i).streams.lookup topic =
      if topic = st.info.topic then none else s.streams.lookup topic :=
    fun topic => lookup_endStream hst hopen ending
  obtain ⟨frames, hframes, hlive⟩ := (h.fed i st hst).live hopen
  have hadded : ∀ f ∈ (st.framer.flush setup.resampler).1.map (st.frame i) ++ [st.endFrame i],
      f.stream = i ∧ f.topic = st.info.topic := fun f => mem_endFrames
  have hsunk : (s.endStream setup ending i).sunk = s.sunk ++
      ((st.framer.flush setup.resampler).1.map (st.frame i) ++ [st.endFrame i]) := by
    rw [endStream_eq hst hopen]
  have hself : (s.endStream setup ending i).accepted[i]? = some { st with
      framer := (st.framer.flush setup.resampler).2, readerClosed := true
      ending := some ending } := by
    rw [endStream_eq hst hopen]
    exact update_self s hst _
  have hother : ∀ j, j ≠ i → (s.endStream setup ending i).accepted[j]? = s.accepted[j]? := by
    intro j hj
    rw [endStream_eq hst hopen]
    exact update_of_ne s hj _
  refine ⟨fun j stj hj => ?_, ?_, fun topic j hj => ?_, fun f hf => ?_, ?_, fun topic j hj f hf => ?_⟩
  · by_cases hji : j = i
    · subst hji
      obtain rfl := Option.some.inj (hself.symm.trans hj)
      have hclosed : ¬(s.endStream setup ending j).IsOpen j st := by
        intro ho
        have ho' := (hlookup st.info.topic).symm.trans ho
        rw [if_pos rfl] at ho'
        cases ho'
      refine ⟨(h.fed j st hst).channels, (h.fed j st hst).last, fun ho => absurd ho hclosed,
        fun _ => ⟨_, ?_, hlive.past hown⟩⟩
      rw [framesOf_append hsunk fun f hf => (hadded f hf).1, hframes, List.map_append,
        List.append_assoc]
      rfl
    · rw [hother j hji] at hj
      refine (h.fed j stj hj).of_eq ?_ (framesOf_append_of_ne hsunk (fun f hf => (hadded f hf).1) hji)
      unfold IsOpen
      rw [hlookup]
      split_ifs with htopic
      · -- The open stream of the topic is another one.
        have hne : s.streams.lookup stj.info.topic ≠ some j := by
          intro ho
          rw [htopic] at ho
          exact hji (Option.some.inj (ho.symm.trans hopen))
        exact ⟨fun hnone => hnone.elim, fun ho => absurd ho hne⟩
      · exact Iff.rfl
  · rw [endStream_eq hst hopen]
    exact Dict.nodup_filter h.keys _
  · rw [hlookup] at hj
    split_ifs at hj with htopic
    obtain ⟨stj, hstj, htopicj⟩ := h.known topic j hj
    have hji : j ≠ i := by
      rintro rfl
      obtain rfl := Option.some.inj (hst.symm.trans hstj)
      exact htopic htopicj.symm
    exact ⟨stj, (hother j hji).trans hstj, htopicj⟩
  · rw [hsunk] at hf
    rcases List.mem_append.mp hf with hf | hf
    · obtain ⟨stj, hstj, htopicj⟩ := h.numbered f hf
      by_cases hji : f.stream = i
      · rw [hji] at hstj ⊢
        obtain rfl := Option.some.inj (hst.symm.trans hstj)
        exact ⟨_, hself, htopicj⟩
      · exact ⟨stj, (hother _ hji).trans hstj, htopicj⟩
    · rw [(hadded f hf).1]
      exact ⟨_, hself, (hadded f hf).2.symm⟩
  · rw [hsunk]
    exact h.ordered_append hopen hadded
  · rw [hlookup] at hj
    split_ifs at hj with htopic
    rw [hsunk] at hf
    rcases List.mem_append.mp hf with hf | hf
    · exact h.newest topic j hj f hf
    · intro heq
      exact absurd (heq.symm.trans (hadded f hf).2) htopic

theorem Running.endStream (h : s.Running (some i)) (hst : s.accepted[i]? = some st)
    (hopen : s.IsOpen i st) (ending : Ending) : (s.endStream setup ending i).Running none := by
  intro j stj hj ho _
  have ho' : (s.endStream setup ending i).streams.lookup stj.info.topic = some j := ho
  rw [lookup_endStream hst hopen] at ho'
  split_ifs at ho' with htopic
  rw [endStream_eq hst hopen] at hj
  by_cases hji : j = i
  · subst hji
    obtain rfl := Option.some.inj ((update_self s hst _).symm.trans hj)
    exact absurd rfl htopic
  · refine h j stj ((update_of_ne s hji _).symm.trans hj) ho' ?_
    exact fun heq => hji (Option.some.inj heq)

/-! ### The reader and the task of a stream -/

def Same (st st' : InputStream σ) : Prop :=
  ∃ readerClosed cancelled done, st' = { st with readerClosed, cancelled, done } ∧
    (st.readerClosed = true → readerClosed = true)

theorem isOpen_congr (hstreams : s'.streams = s.streams) (hinfo : st'.info = st.info) :
    s'.IsOpen i st' ↔ s.IsOpen i st := by
  unfold IsOpen
  rw [hstreams, hinfo]

theorem Feeds.of_same (h : Feeds setup s) (hstreams : s'.streams = s.streams)
    (hsunk : s'.sunk = s.sunk)
    (hsame : ∀ (i : ℕ) (st' : InputStream σ), s'.accepted[i]? = some st' →
      ∃ st, s.accepted[i]? = some st ∧ Same st st')
    (hsome : ∀ i : ℕ, s.accepted[i]?.isSome → s'.accepted[i]?.isSome) : Feeds setup s' := by
  have hback : ∀ (i : ℕ) (st : InputStream σ), s.accepted[i]? = some st →
      ∃ st', s'.accepted[i]? = some st' ∧ st'.info = st.info := by
    intro i st hst
    obtain ⟨st', hst'⟩ := Option.isSome_iff_exists.mp (hsome i (hst ▸ rfl))
    obtain ⟨st'', hst'', _, _, _, rfl, _⟩ := hsame i st' hst'
    obtain rfl := Option.some.inj (hst''.symm.trans hst)
    exact ⟨_, hst', rfl⟩
  refine ⟨fun i st' hst' => ?_, hstreams ▸ h.keys, fun topic i hi => ?_, fun f hf => ?_,
    hsunk ▸ h.ordered, ?_⟩
  · obtain ⟨st, hst, readerClosed, _, _, rfl, hclosed⟩ := hsame i st' hst'
    have hframes : s'.framesOf i = s.framesOf i := by rw [framesOf, hsunk, framesOf]
    have hfed := h.fed i st hst
    refine ⟨hfed.channels, hfed.last, fun ho => ?_, fun ho => ?_⟩
    · obtain ⟨frames, heq, hlive⟩ := hfed.live ((isOpen_congr hstreams rfl).mp ho)
      exact ⟨frames, hframes.trans heq, hlive.framed, hlive.arrived, hlive.ending⟩
    · obtain ⟨frames, heq, hover⟩ := hfed.past fun ho' => ho ((isOpen_congr hstreams rfl).mpr ho')
      exact ⟨frames, hframes.trans heq, hover.joined, hover.full, hover.ne_nil,
        hclosed hover.readerClosed, hover.read, hover.ending, hover.own⟩
  · rw [hstreams] at hi
    obtain ⟨st, hst, htopic⟩ := h.known topic i hi
    obtain ⟨st', hst', hinfo⟩ := hback i st hst
    exact ⟨st', hst', hinfo.symm ▸ htopic⟩
  · rw [hsunk] at hf
    obtain ⟨st, hst, htopic⟩ := h.numbered f hf
    obtain ⟨st', hst', hinfo⟩ := hback _ st hst
    exact ⟨st', hst', hinfo.symm ▸ htopic⟩
  · rw [hstreams, hsunk]
    exact h.newest

theorem Feeds.update (h : Feeds setup s) {g : InputStream σ → InputStream σ}
    (hg : ∀ st, Same st (g st)) (i : ℕ) : Feeds setup (s.update i g) := by
  refine h.of_same rfl rfl (fun j st' hj => ?_) fun j hj => ?_
  · by_cases hji : j = i
    · subst hji
      rw [RoomInputs.update, List.getElem?_modify_eq] at hj
      obtain ⟨st, hst, rfl⟩ := Option.map_eq_some_iff.mp hj
      exact ⟨st, hst, hg st⟩
    · rw [update_of_ne s hji] at hj
      exact ⟨st', hj, st'.readerClosed, st'.cancelled, st'.done, rfl, id⟩
  · rw [RoomInputs.update, List.getElem?_modify]
    simpa using hj

theorem Feeds.cancel (h : Feeds setup s) (which : InputStream σ → Bool) :
    Feeds setup (s.cancel which) := by
  refine h.of_same rfl rfl (fun j st' hj => ?_) fun j hj => ?_
  · rw [RoomInputs.cancel, List.getElem?_map] at hj
    obtain ⟨st, hst, rfl⟩ := Option.map_eq_some_iff.mp hj
    refine ⟨st, hst, st.readerClosed, (which st && !st.done) || st.cancelled, st.done, ?_, id⟩
    by_cases hwhich : (which st && !st.done) = true
    · rw [if_pos hwhich, hwhich, Bool.true_or]
    · rw [if_neg hwhich, Bool.not_eq_true _ |>.mp hwhich, Bool.false_or]
  · rw [RoomInputs.cancel, List.getElem?_map, Option.isSome_map]
    exact hj

theorem Running.update (h : s.Running none) (i : ℕ) (g : InputStream σ → InputStream σ) :
    (s.update i g).Running (some i) := by
  intro j st hj ho hne
  have hji : j ≠ i := fun heq => hne (heq ▸ rfl)
  rw [update_of_ne s hji] at hj
  exact h j st hj ho (Option.some_ne_none j)

theorem same_finish (st : InputStream σ) : Same st { st with readerClosed := true, done := true } :=
  ⟨true, st.cancelled, true, rfl, fun _ => rfl⟩

/-- The task of a stream is through with its reader. -/
theorem Feeds.finish (h : Feeds setup s) (hrunning : s.Running none)
    (hst : s.accepted[i]? = some st)
    (hown : s.IsOpen i st → ∃ y, y.isLast ∧ st.arrived = st.pushed.map .chunk ++ [y]) :
    Feeds setup (s.finish setup i st.info.topic) ∧
      (s.finish setup i st.info.topic).Running none := by
  have hfeeds := h.update same_finish i
  have hother := hrunning.update i fun st => { st with readerClosed := true, done := true }
  have hself := update_self s hst fun st => { st with readerClosed := true, done := true }
  unfold RoomInputs.finish
  dsimp only
  split_ifs with hopen
  · exact ⟨hfeeds.endStream hself hopen fun _ => hown hopen, hother.endStream hself hopen .own⟩
  · refine ⟨hfeeds, fun j stj hj ho _ => ?_⟩
    by_cases hji : j = i
    · subst hji
      obtain rfl := Option.some.inj (hself.symm.trans hj)
      exact absurd ho hopen
    · exact hother j stj hj ho fun heq => hji (Option.some.inj heq)

theorem Feeds.goes_on (h : Feeds setup s) (hst : s.accepted[i]? = some st) (hopen : s.IsOpen i st)
    (added : List SunkFrame) {g : InputStream σ → InputStream σ} (hinfo : (g st).info = st.info)
    (hadded : ∀ f ∈ added, f.stream = i ∧ f.topic = st.info.topic)
    (hchannels : (g st).channels = st.channels)
    (hlast : ∀ before y after, (g st).arrived = before ++ y :: after → y.isLast → after = [])
    (hlive : ∃ frames, s.framesOf i ++ added = frames.map ((g st).frame i) ∧
      Live setup (g st) frames) :
    Feeds setup { (s.update i g) with sunk := s.sunk ++ added } := by
  have hself : (s.update i g).accepted[i]? = some (g st) := update_self s hst g
  have hother : ∀ j, j ≠ i → (s.update i g).accepted[j]? = s.accepted[j]? :=
    fun j hj => update_of_ne s hj g
  refine ⟨fun j stj hj => ?_, h.keys, fun topic j hj => ?_, fun f hf => ?_,
    h.ordered_append hopen hadded, fun topic j hj f hf => ?_⟩
  · by_cases hji : j = i
    · subst hji
      obtain rfl := Option.some.inj (hself.symm.trans hj)
      refine ⟨hchannels.symm ▸ (h.fed j st hst).channels, hlast, fun _ => ?_, fun ho => ?_⟩
      · obtain ⟨frames, hframes, hlive⟩ := hlive
        exact ⟨frames, (framesOf_append rfl fun f hf => (hadded f hf).1).trans hframes, hlive⟩
      · exact absurd ((isOpen_congr rfl hinfo).mpr hopen) ho
    · have hstj : s.accepted[j]? = some stj := (hother j hji).symm.trans hj
      refine (h.fed j stj hstj).of_eq Iff.rfl ?_
      exact framesOf_append_of_ne rfl (fun f hf => (hadded f hf).1) hji
  · obtain ⟨stj, hstj, htopic⟩ := h.known topic j hj
    by_cases hji : j = i
    · subst hji
      obtain rfl := Option.some.inj (hst.symm.trans hstj)
      exact ⟨g st, hself, hinfo.symm ▸ htopic⟩
    · exact ⟨stj, (hother j hji).trans hstj, htopic⟩
  · have hknown : ∃ st, s.accepted[f.stream]? = some st ∧ st.info.topic = f.topic := by
      rcases List.mem_append.mp hf with hf | hf
      · exact h.numbered f hf
      · rw [(hadded f hf).1, (hadded f hf).2]
        exact ⟨st, hst, rfl⟩
    obtain ⟨stf, hstf, htopic⟩ := hknown
    by_cases hji : f.stream = i
    · rw [hji] at hstf ⊢
      obtain rfl := Option.some.inj (hst.symm.trans hstf)
      exact ⟨g st, hself, hinfo.symm ▸ htopic⟩
    · exact ⟨stf, (hother _ hji).trans hstf, htopic⟩
  · rcases List.mem_append.mp hf with hf | hf
    · exact h.newest topic j hj f hf
    · intro heq
      rw [← heq, (hadded f hf).2] at hj
      have hlookup : s.streams.lookup st.info.topic = some i := hopen
      rw [(hadded f hf).1, Option.some.inj (hlookup.symm.trans hj)]

/-- Nothing comes after what ends a reader. -/
theorem last_concat {arrived : List Yield} (h : arrived.any Yield.isLast = false) (y : Yield) :
    ∀ before y' after, arrived ++ [y] = before ++ y' :: after → y'.isLast → after = [] := by
  intro before y' after heq hlast
  obtain rfl | ⟨after, x, rfl⟩ := List.eq_nil_or_concat after
  · rfl
  · have hinit : arrived ++ [y] = (before ++ y' :: after) ++ [x] := by
      rw [heq, List.concat_eq_append, List.append_assoc]
      rfl
    have hmem : y' ∈ arrived := by
      rw [(List.append_singleton_inj.mp hinit).1]
      exact List.mem_append_right _ List.mem_cons_self
    exact absurd hlast (List.any_eq_false.mp h y' hmem)

/-- The reader of an open stream gets something. -/
theorem Feeds.arrives (h : Feeds setup s) (hst : s.accepted[i]? = some st)
    (hclosed : st.readerClosed = false) (hlast : st.arrived.any Yield.isLast = false) (y : Yield) :
    Feeds setup (s.update i fun st =>
      { st with unread := st.unread ++ [y], arrived := st.arrived ++ [y] }) := by
  have hopen : s.IsOpen i st := by
    by_contra ho
    obtain ⟨_, _, hover⟩ := (h.fed i st hst).past ho
    exact absurd (hclosed.symm.trans hover.readerClosed) Bool.false_ne_true
  obtain ⟨frames, hframes, hlive⟩ := (h.fed i st hst).live hopen
  have hgoes := h.goes_on hst hopen [] (g := fun st =>
    { st with unread := st.unread ++ [y], arrived := st.arrived ++ [y] }) rfl
    (fun f hf => absurd hf List.not_mem_nil) rfl (last_concat hlast y)
    ⟨frames, (List.append_nil _).trans hframes, hlive.framed, ?_, hlive.ending⟩
  · rwa [List.append_nil] at hgoes
  · show st.arrived ++ [y] = st.pushed.map .chunk ++ (st.unread ++ [y])
    rw [hlive.arrived, List.append_assoc]

theorem Feeds.pushes (h : Feeds setup s) (hst : s.accepted[i]? = some st) (hopen : s.IsOpen i st)
    {data : List UInt8} {unread : List Yield} (hunread : st.unread = .chunk data :: unread) :
    Feeds setup { (s.update i fun st' => { st' with
      framer := (st.framer.push setup.resampler data).2, unread
      pushed := st'.pushed ++ [data] }) with
      sunk := s.sunk ++ (st.framer.push setup.resampler data).1.map (st.frame i) } := by
  have hfed := h.fed i st hst
  obtain ⟨frames, hframes, hlive⟩ := hfed.live hopen
  refine h.goes_on hst hopen _ rfl (fun f hf => ?_) rfl hfed.last
    ⟨frames ++ (st.framer.push setup.resampler data).1, ?_, ?_, ?_, hlive.ending⟩
  · obtain ⟨_, _, rfl⟩ := List.mem_map.mp hf
    exact ⟨rfl, rfl⟩
  · rw [hframes, List.map_append]
    rfl
  · rw [List.flatten_append, List.flatten_singleton]
    exact hlive.framed.push hfed.channels data
  · show st.arrived = (st.pushed ++ [data]).map .chunk ++ unread
    rw [hlive.arrived, hunread, List.map_append, List.append_assoc]
    rfl

theorem Feeds.opens (h : Feeds setup s) (hnone : s.streams.lookup st.info.topic = none)
    (hchannels : 0 < st.channels) (hlive : Live setup st []) (harrived : st.arrived = []) :
    Feeds setup (s.openStream st) := by
  have hold : ∀ j stj, s.accepted[j]? = some stj → j < s.accepted.length :=
    fun j stj hj => (List.getElem?_eq_some_iff.mp hj).1
  have hback : ∀ j stj, (s.openStream st).accepted[j]? = some stj →
      j = s.accepted.length ∧ stj = st ∨ s.accepted[j]? = some stj := by
    intro j stj hj
    have hj' : (s.accepted ++ [st])[j]? = some stj := hj
    rcases Nat.lt_or_ge j s.accepted.length with hlt | hle
    · exact .inr ((List.getElem?_append_left hlt).symm.trans hj')
    · rw [List.getElem?_append_right hle] at hj'
      obtain ⟨hlt, rfl⟩ := List.getElem?_eq_some_iff.mp hj'
      refine .inl ⟨?_, List.getElem_singleton _⟩
      rw [List.length_singleton] at hlt
      omega
  have hforth : ∀ j stj, s.accepted[j]? = some stj → (s.openStream st).accepted[j]? = some stj :=
    fun j stj hj => (List.getElem?_append_left (hold j stj hj)).trans hj
  have hlookup : ∀ topic, (s.openStream st).streams.lookup topic =
      if topic = st.info.topic then some s.accepted.length else s.streams.lookup topic :=
    fun topic => Dict.lookup_set
  have hframes : s.framesOf s.accepted.length = [] := by
    refine List.filter_eq_nil_iff.mpr fun f hf heq => ?_
    obtain ⟨stf, hstf, _⟩ := h.numbered f hf
    exact Nat.lt_irrefl _ (of_decide_eq_true heq ▸ hold _ _ hstf)
  refine ⟨fun j stj hj => ?_, Dict.nodup_set h.keys, fun topic j hj => ?_, fun f hf => ?_,
    h.ordered, fun topic j hj f hf => ?_⟩
  · obtain ⟨rfl, rfl⟩ | hj := hback j stj hj
    · refine ⟨hchannels, fun before y after heq => ?_, fun _ => ⟨[], hframes, hlive⟩, fun ho => ?_⟩
      · rw [harrived] at heq
        exact absurd heq.symm (by simp)
      · exact absurd ((hlookup stj.info.topic).trans (if_pos rfl)) ho
    · refine (h.fed j stj hj).of_eq ?_ rfl
      unfold IsOpen
      rw [hlookup]
      split_ifs with htopic
      · rw [htopic, hnone]
        constructor
        · intro heq
          exact absurd (hold j stj hj) (Option.some.inj heq ▸ Nat.lt_irrefl _)
        · exact fun heq => absurd heq.symm (Option.some_ne_none _)
      · exact Iff.rfl
  · rw [hlookup] at hj
    split_ifs at hj with htopic
    · cases hj
      exact ⟨st, List.getElem?_concat_length .., htopic.symm⟩
    · obtain ⟨stj, hstj, htopicj⟩ := h.known topic j hj
      exact ⟨stj, hforth j stj hstj, htopicj⟩
  · obtain ⟨stf, hstf, htopicf⟩ := h.numbered f hf
    exact ⟨stf, hforth _ _ hstf, htopicf⟩
  · rw [hlookup] at hj
    split_ifs at hj with htopic
    · cases hj
      obtain ⟨stf, hstf, _⟩ := h.numbered f hf
      exact fun _ => Nat.le_of_lt (hold _ _ hstf)
    · exact h.newest topic j hj f hf

theorem Running.opens (h : s.Running none) (hknown : ∀ topic i, s.streams.lookup topic = some i →
    i < s.accepted.length) (hnew : Reads st) : (s.openStream st).Running none := by
  intro j stj hj ho _
  have ho' : (s.openStream st).streams.lookup stj.info.topic = some j := ho
  rw [show (s.openStream st).streams = Dict.set s.streams st.info.topic s.accepted.length from rfl,
    Dict.lookup_set] at ho'
  have hj' : (s.accepted ++ [st])[j]? = some stj := hj
  split_ifs at ho' with htopic
  · cases ho'
    rw [List.getElem?_concat_length] at hj'
    exact Option.some.inj hj' ▸ hnew
  · rw [List.getElem?_append_left (hknown _ _ ho')] at hj'
    exact h j stj hj' ho' (Option.some_ne_none j)

/-! ### Steps -/

/-- What holds after every step. -/
structure Inv (setup : InputSetup σ) (s : RoomInputs σ) : Prop where
  feeds : Feeds setup s
  running : s.Running none

theorem Inv.of_eq (h : Inv setup s) (hstreams : s'.streams = s.streams)
    (haccepted : s'.accepted = s.accepted) (hsunk : s'.sunk = s.sunk) : Inv setup s' := by
  have hsame : ∀ (i : ℕ) (st' : InputStream σ), s'.accepted[i]? = some st' →
      ∃ st, s.accepted[i]? = some st ∧ Same st st' := fun i st' hi =>
    ⟨st', haccepted ▸ hi, st'.readerClosed, st'.cancelled, st'.done, rfl, id⟩
  refine ⟨h.feeds.of_same hstreams hsunk hsame fun i hi => haccepted.symm ▸ hi, ?_⟩
  intro i st hi ho hne
  exact h.running i st (haccepted ▸ hi) ((isOpen_congr hstreams rfl).mp ho) hne

theorem Inv.endAll (h : Inv setup s) (ending : Ending) (hending : ending ≠ .own)
    (entries : List (String × ℕ)) (hnodup : (entries.map Prod.fst).Nodup)
    (hentries : ∀ entry ∈ entries, s.streams.lookup entry.1 = some entry.2) :
    Inv setup (entries.foldl (fun s entry => s.endStream setup ending entry.2) s) ∧
      ∀ topic i, (entries.foldl (fun s entry => s.endStream setup ending entry.2) s).streams.lookup
          topic = some i →
        s.streams.lookup topic = some i ∧ topic ∉ entries.map Prod.fst ∧
        (entries.foldl (fun s entry => s.endStream setup ending entry.2) s).accepted[i]? =
          s.accepted[i]? := by
  induction entries generalizing s with
  | nil => exact ⟨h, fun topic i hi => ⟨hi, List.not_mem_nil, rfl⟩⟩
  | cons entry entries ih =>
    obtain ⟨hnotMem, hnodup⟩ := List.nodup_cons.mp hnodup
    have hentry := hentries entry List.mem_cons_self
    obtain ⟨st, hst, htopic⟩ := h.feeds.known _ _ hentry
    have hopen : s.IsOpen entry.2 st := by
      unfold IsOpen
      rw [htopic, hentry]
    have hends : Inv setup (s.endStream setup ending entry.2) :=
      ⟨h.feeds.endStream hst hopen fun heq => absurd heq hending,
        Running.endStream (fun j stj hj ho _ => h.running j stj hj ho (Option.some_ne_none j)) hst
          hopen ending⟩
    have hlookup : ∀ topic, (s.endStream setup ending entry.2).streams.lookup topic =
        if topic = entry.1 then none else s.streams.lookup topic := by
      intro topic
      rw [lookup_endStream hst hopen, htopic]
    obtain ⟨hinv, hleft⟩ := ih hends hnodup fun e he => by
      have hne : e.1 ≠ entry.1 := by
        intro heq
        exact hnotMem (heq ▸ List.mem_map_of_mem he)
      rw [hlookup, if_neg hne]
      exact hentries e (List.mem_cons_of_mem _ he)
    refine ⟨hinv, fun topic i hi => ?_⟩
    obtain ⟨hi', hnot, haccepted⟩ := hleft topic i hi
    rw [hlookup] at hi'
    split_ifs at hi' with hne
    refine ⟨hi', ?_, ?_⟩
    · rw [List.map_cons, List.mem_cons, not_or]
      exact ⟨hne, hnot⟩
    · have hie : i ≠ entry.2 := by
        rintro rfl
        obtain ⟨sti, hsti, htopici⟩ := h.feeds.known _ _ hi'
        obtain rfl := Option.some.inj (hst.symm.trans hsti)
        exact hne (htopici.symm.trans htopic)
      refine haccepted.trans ?_
      rw [endStream_eq hst hopen]
      exact update_of_ne s hie _

theorem of_claim {track : String} {connId : ℕ} {streamed granted : Bool}
    (h : s.claim track connId streamed granted = some s') :
    s'.streams = s.streams ∧ s'.accepted = s.accepted ∧ s'.sunk = s.sunk := by
  unfold RoomInputs.claim at h
  cases hheld : s.held track with
  | none =>
    simp only [hheld] at h
    split_ifs at h
    cases h
    exact ⟨rfl, rfl, rfl⟩
  | some hold =>
    simp only [hheld] at h
    split_ifs at h
    cases h
    exact ⟨rfl, rfl, rfl⟩

theorem Inv.claim (h : Inv setup s) {track : String} {connId : ℕ} {streamed granted : Bool}
    (hclaim : s.claim track connId streamed granted = some s') : Inv setup s' := by
  obtain ⟨hstreams, haccepted, hsunk⟩ := of_claim hclaim
  exact h.of_eq hstreams haccepted hsunk

theorem intAttribute_mem {unicode : Python.Unicode} {attributes : List (String × String)}
    {key : String} {default low high n : ℕ} (hdefault : low ≤ default)
    (h : intAttribute unicode attributes key default low high = some n) : low ≤ n := by
  unfold intAttribute at h
  cases hlookup : attributes.lookup key with
  | none =>
    simp only [hlookup] at h
    exact Option.some.inj h ▸ hdefault
  | some value =>
    simp only [hlookup] at h
    cases hread : Python.readInt unicode value.toList with
    | none => simp [hread] at h
    | some parsed =>
      simp only [hread] at h
      split_ifs at h with hbounds
      cases h
      omega

theorem Inv.supersede (h : Inv setup s) (st : InputStream σ) (hchannels : 0 < st.channels)
    (hlive : Live setup st []) (harrived : st.arrived = []) (hreads : Reads st) :
    Inv setup ((match s.streams.lookup st.info.topic with
      | some previous => s.endStream setup .superseded previous
      | none => s).openStream st) := by
  cases hlookup : s.streams.lookup st.info.topic with
  | none =>
    have hknown : ∀ topic i, s.streams.lookup topic = some i → i < s.accepted.length := by
      intro topic i hi
      obtain ⟨sti, hsti, _⟩ := h.feeds.known topic i hi
      exact (List.getElem?_eq_some_iff.mp hsti).1
    exact ⟨h.feeds.opens hlookup hchannels hlive harrived, h.running.opens hknown hreads⟩
  | some previous =>
    have hends := h.endAll .superseded Ending.noConfusion
      [(st.info.topic, previous)] (List.nodup_singleton _)
      fun entry hentry => by rw [List.mem_singleton.mp hentry, hlookup]
    obtain ⟨hinv, hleft⟩ := hends
    have hnone : (s.endStream setup .superseded previous).streams.lookup st.info.topic = none := by
      rw [Option.eq_none_iff_forall_not_mem]
      intro i hi
      exact (hleft _ i hi).2.1 List.mem_cons_self
    have hknown : ∀ topic i, (s.endStream setup .superseded previous).streams.lookup topic = some i →
        i < (s.endStream setup .superseded previous).accepted.length := by
      intro topic i hi
      obtain ⟨sti, hsti, _⟩ := hinv.feeds.known topic i hi
      exact (List.getElem?_eq_some_iff.mp hsti).1
    exact ⟨hinv.feeds.opens hnone hchannels hlive harrived, hinv.running.opens hknown hreads⟩

theorem Inv.onByteStream (h : Inv setup s) (info : StreamInfo) (sender : String) (connId : ℕ)
    (granted : Bool) : Inv setup (s.onByteStream setup info sender connId granted) := by
  unfold RoomInputs.onByteStream
  cases setup.mapped.lookup info.topic with
  | none => exact h
  | some track =>
    simp only
    cases setup.inputs.lookup track with
    | none => exact h
    | some input =>
      simp only
      split_ifs
      · exact h
      · cases intAttribute setup.unicode info.attributes "sample_rate" input.rate minStreamRate
          maxStreamRate with
        | none => exact h
        | some streamRate =>
          cases hchannels : intAttribute setup.unicode info.attributes "num_channels" 1 1
            maxStreamChannels with
          | none => exact h
          | some channels =>
            simp only
            cases hclaim : s.claim track connId true granted with
            | none => exact h
            | some s' =>
              refine (h.claim hclaim).supersede
                { info, sender, connId, track, rate := input.rate, streamRate, channels
                  framer := StreamFramer.new setup.resampler input.rate streamRate channels }
                ?_ ?_ ?_ ?_
              · exact intAttribute_mem Nat.le.refl hchannels
              · exact ⟨Framed.new _ _ _, rfl, rfl⟩
              · rfl
              · exact ⟨rfl, rfl, rfl⟩

theorem Inv.finish (h : Inv setup s) (hst : s.accepted[i]? = some st)
    (hown : s.IsOpen i st → ∃ y, y.isLast ∧ st.arrived = st.pushed.map .chunk ++ [y]) :
    Inv setup (s.finish setup i st.info.topic) :=
  ⟨(h.feeds.finish h.running hst hown).1, (h.feeds.finish h.running hst hown).2⟩

theorem Inv.own (h : Inv setup s) (hst : s.accepted[i]? = some st) {y : Yield} {unread : List Yield}
    (hunread : st.unread = y :: unread) (hlast : y.isLast) :
    s.IsOpen i st → ∃ y, y.isLast ∧ st.arrived = st.pushed.map .chunk ++ [y] := by
  intro hopen
  have hfed := h.feeds.fed i st hst
  obtain ⟨_, _, hlive⟩ := hfed.live hopen
  have harrived := hlive.arrived
  rw [hunread] at harrived
  obtain rfl := hfed.last _ _ _ harrived hlast
  exact ⟨y, hlast, harrived⟩

theorem Inv.resumes (h : Inv setup s) (hstep : s.resumes setup i = some s') : Inv setup s' := by
  unfold RoomInputs.resumes at hstep
  cases hst : s.accepted[i]? with
  | none => simp [hst] at hstep
  | some st =>
    simp only [hst] at hstep
    by_cases hdone : st.done = true
    · simp [hdone] at hstep
    rw [if_neg hdone] at hstep
    by_cases hcancelled : st.cancelled = true
    · rw [if_pos hcancelled] at hstep
      cases hstep
      refine ⟨h.feeds.update same_finish i, fun j stj hj ho _ => ?_⟩
      by_cases hji : j = i
      · subst hji
        obtain rfl := Option.some.inj ((update_self s hst _).symm.trans hj)
        -- A task that was cancelled is of no open stream.
        have hreads := h.running j st hst ho (Option.some_ne_none j)
        exact absurd (hreads.cancelled.symm.trans hcancelled) Bool.false_ne_true
      · exact h.running j stj ((update_of_ne s hji _).symm.trans hj) ho (Option.some_ne_none j)
    · rw [if_neg hcancelled] at hstep
      cases hunread : st.unread with
      | nil => simp [hunread] at hstep
      | cons y unread =>
        cases y with
        | chunk data =>
          simp only [hunread] at hstep
          split_ifs at hstep with hopen
          · cases hstep
            refine ⟨h.feeds.pushes hst hopen hunread, fun j stj hj ho _ => ?_⟩
            by_cases hji : j = i
            · subst hji
              obtain rfl := Option.some.inj ((update_self s hst _).symm.trans hj)
              have hreads := h.running j st hst hopen (Option.some_ne_none j)
              exact ⟨hreads.readerClosed, hreads.cancelled, hreads.done⟩
            · exact h.running j stj ((update_of_ne s hji _).symm.trans hj) ho (Option.some_ne_none j)
          · cases hstep
            exact h.finish hst fun ho => absurd ho hopen
        | ends =>
          simp only [hunread] at hstep
          cases hstep
          exact h.finish hst (h.own hst hunread rfl)
        | fails =>
          simp only [hunread] at hstep
          cases hstep
          exact h.finish hst (h.own hst hunread rfl)

theorem Inv.readerStops (h : Inv setup s) (hstep : s.readerStops setup i = some s') :
    Inv setup s' := by
  unfold RoomInputs.readerStops at hstep
  cases hst : s.accepted[i]? with
  | none => simp [hst] at hstep
  | some st =>
    simp only [hst] at hstep
    split_ifs at hstep with hstops
    cases hstep
    refine h.finish hst fun ho => ?_
    have hreads := h.running i st hst ho (Option.some_ne_none i)
    simp [hreads.readerClosed] at hstops

theorem Inv.arrives (h : Inv setup s) {y : Yield} (hstep : s.arrives i y = some s') :
    Inv setup s' := by
  unfold RoomInputs.arrives at hstep
  cases hst : s.accepted[i]? with
  | none => simp [hst] at hstep
  | some st =>
    simp only [hst] at hstep
    split_ifs at hstep with hguard
    cases hstep
    rw [Bool.not_eq_true, Bool.or_eq_false_iff] at hguard
    refine ⟨h.feeds.arrives hst hguard.1 hguard.2 y, fun j stj hj ho _ => ?_⟩
    by_cases hji : j = i
    · subst hji
      obtain rfl := Option.some.inj ((update_self s hst _).symm.trans hj)
      have hreads := h.running j st hst ho (Option.some_ne_none j)
      exact ⟨hreads.readerClosed, hreads.cancelled, hreads.done⟩
    · exact h.running j stj ((update_of_ne s hji _).symm.trans hj) ho (Option.some_ne_none j)

theorem Inv.cancel (h : Inv setup s) (which : InputStream σ → Bool)
    (hwhich : ∀ i st, s.accepted[i]? = some st → s.IsOpen i st → which st = false) :
    Inv setup (s.cancel which) := by
  refine ⟨h.feeds.cancel which, fun i st hi ho _ => ?_⟩
  rw [RoomInputs.cancel, List.getElem?_map] at hi
  obtain ⟨st₀, hst, rfl⟩ := Option.map_eq_some_iff.mp hi
  by_cases hcancel : (which st₀ && !st₀.done) = true
  · rw [if_pos hcancel] at ho
    rw [hwhich i st₀ hst ho, Bool.false_and] at hcancel
    cases hcancel
  · rw [if_neg hcancel] at ho ⊢
    exact h.running i st₀ hst ho (Option.some_ne_none i)

theorem Inv.entries (h : Inv setup s) {entry : String × ℕ} (hentry : entry ∈ s.streams) :
    s.streams.lookup entry.1 = some entry.2 :=
  Dict.lookup_of_mem h.feeds.keys hentry

theorem Inv.release (h : Inv setup s) (sender : String) (connId : ℕ) :
    Inv setup (s.release setup sender connId) ∧
      ∀ i st, (s.release setup sender connId).accepted[i]? = some st →
        (s.release setup sender connId).IsOpen i st → st.sender ≠ sender := by
  obtain ⟨hinv, hleft⟩ := h.endAll .senderLeft Ending.noConfusion
    (s.streams.filter (s.ofSender sender)) (Dict.nodup_filter h.feeds.keys _)
    fun entry hentry => h.entries (List.mem_of_mem_filter hentry)
  have hsender : ∀ i st, ((s.streams.filter (s.ofSender sender)).foldl
      (fun s entry => s.endStream setup .senderLeft entry.2) s).accepted[i]? = some st →
      ((s.streams.filter (s.ofSender sender)).foldl
        (fun s entry => s.endStream setup .senderLeft entry.2) s).IsOpen i st →
      st.sender ≠ sender := by
    intro i st hst ho heq
    obtain ⟨hlookup, hnot, haccepted⟩ := hleft _ _ ho
    refine hnot (List.mem_map.mpr ⟨(st.info.topic, i), List.mem_filter.mpr ⟨?_, ?_⟩, rfl⟩)
    · exact Dict.mem_of_lookup hlookup
    · unfold ofSender
      rw [← haccepted, hst]
      exact decide_eq_true heq
  have hcancel := hinv.cancel (fun st => st.sender = sender) fun i st hst ho =>
    decide_eq_false (hsender i st hst ho)
  refine ⟨hcancel.of_eq rfl rfl rfl, fun i st hst ho => ?_⟩
  have hst' := List.getElem?_map.symm.trans hst
  obtain ⟨st₀, hst₀, rfl⟩ := Option.map_eq_some_iff.mp hst'
  split_ifs at ho ⊢ with hcancelled
  · exact hsender i st₀ hst₀ ho
  · exact hsender i st₀ hst₀ ho

theorem Inv.close (h : Inv setup s) :
    Inv setup (s.close setup) ∧ (s.close setup).streams = [] := by
  obtain ⟨hinv, hleft⟩ := h.endAll .roomClosed Ending.noConfusion s.streams h.feeds.keys
    fun entry => h.entries
  have hnone : ∀ entry, entry ∉ (s.streams.foldl
      (fun s entry => s.endStream setup .roomClosed entry.2) s).streams := by
    intro entry hentry
    obtain ⟨hlookup, hnot, _⟩ := hleft _ _ (hinv.entries hentry)
    exact hnot (List.mem_map_of_mem (Dict.mem_of_lookup hlookup))
  have hempty := List.eq_nil_iff_forall_not_mem.mpr hnone
  refine ⟨hinv.cancel _ fun i st _ ho => ?_, hempty⟩
  exact absurd (Dict.mem_of_lookup ho) (hnone _)

theorem Inv.trackGone (h : Inv setup s) (target : String) (connId : ℕ) :
    Inv setup (s.trackGone target connId) := by
  unfold RoomInputs.trackGone
  cases s.held target with
  | none => exact h
  | some hold =>
    simp only
    split_ifs
    · exact h
    · exact h.of_eq rfl rfl rfl

theorem Inv.step (h : Inv setup s) {l : Label} (hstep : s.step setup l = some s') :
    Inv setup s' := by
  cases l with
  | opens info sender connId granted =>
    cases hstep
    exact h.onByteStream info sender connId granted
  | arrives i y => exact h.arrives hstep
  | resumes i => exact h.resumes hstep
  | readerStops i => exact h.readerStops hstep
  | release sender connId =>
    cases hstep
    exact (h.release sender connId).1
  | close =>
    cases hstep
    exact h.close.1
  | trackClaims target connId granted =>
    cases hstep
    cases hclaim : s.claim target connId false granted with
    | none => exact h
    | some s' => exact h.claim hclaim
  | trackGone target connId =>
    cases hstep
    exact h.trackGone target connId

/-! ### Whole runs -/

/-- What the sink is handed of a stream, and what of the stream that is. -/
structure InOrder (setup : InputSetup σ) (s : RoomInputs σ) (i : ℕ) (st : InputStream σ) : Prop where
  goesOn : s.IsOpen i st → ∃ (frames : List (List ℤ)) (left : List ℤ),
    s.framesOf i = frames.map (st.frame i) ∧
    (∀ frame ∈ frames, frame.length = max 1 (st.rate / 100)) ∧
    left.length < max 1 (st.rate / 100) ∧
    Joined setup.resampler st.rate st.streamRate st.channels st.pushed.flatten false
      (frames.flatten ++ left)
  ended : ¬s.IsOpen i st → ∃ frames : List (List ℤ),
    s.framesOf i = frames.map (st.frame i) ++ [st.endFrame i] ∧ (∀ frame ∈ frames, frame ≠ []) ∧
    (∀ frame ∈ frames.dropLast, frame.length = max 1 (st.rate / 100)) ∧
    Joined setup.resampler st.rate st.streamRate st.channels st.pushed.flatten true frames.flatten
  ending : st.ending.isSome ↔ ¬s.IsOpen i st
  through : st.done ∨ st.cancelled → ¬s.IsOpen i st
  read : st.pushed.map .chunk <+: st.arrived
  own : st.ending = some .own → ∃ y, y.isLast ∧ st.arrived = st.pushed.map .chunk ++ [y]

theorem Inv.inOrder (h : Inv setup s) (hst : s.accepted[i]? = some st) : InOrder setup s i st := by
  have hfed := h.feeds.fed i st hst
  by_cases hopen : s.IsOpen i st
  · obtain ⟨frames, hframes, hlive⟩ := hfed.live hopen
    obtain ⟨⟨left, hleft, hjoined⟩, hfull⟩ := hlive.framed.goes_on
    have hreads := h.running i st hst hopen (Option.some_ne_none i)
    refine ⟨fun _ => ⟨frames, left, hframes, hfull, hleft, hjoined⟩, fun ho => absurd hopen ho, ?_,
      fun hthrough => ?_, ⟨st.unread, hlive.arrived.symm⟩, fun hown => ?_⟩
    · rw [hlive.ending]
      exact ⟨fun hsome => Bool.noConfusion hsome, fun ho => absurd hopen ho⟩
    · rw [hreads.done, hreads.cancelled] at hthrough
      rcases hthrough with hthrough | hthrough <;> cases hthrough
    · rw [hlive.ending] at hown
      cases hown
  · obtain ⟨frames, hframes, hover⟩ := hfed.past hopen
    exact ⟨fun ho => absurd ho hopen, fun _ => ⟨frames, hframes, hover.ne_nil, hover.full,
      hover.joined⟩, ⟨fun _ => hopen, fun _ => hover.ending⟩, fun _ => hopen, hover.read, hover.own⟩

theorem isInvariant_inv : (roomInputs setup).IsInvariant (Inv setup) where
  init := by
    refine ⟨⟨fun i st hi => ?_, List.nodup_nil, fun topic i hi => ?_, fun f hf => ?_,
      List.Pairwise.nil, fun topic i hi => ?_⟩, fun i st hi => ?_⟩
    · exact absurd hi (by simp [roomInputs])
    · exact absurd hi.symm (Option.some_ne_none _)
    · exact absurd hf List.not_mem_nil
    · exact absurd hi.symm (Option.some_ne_none _)
    · exact absurd hi (by simp [roomInputs])
  step _ _ _ h hstep := h.step hstep

/-- The sink is handed the frames of each stream in order, and then one end frame; streams on one
topic follow one another; and a sender that leaves, or a room that closes, leaves no stream open. -/
theorem in_order {ls : List Label} (hrun : (roomInputs setup).run ls = some s) :
    (∀ i st, s.accepted[i]? = some st → InOrder setup s i st) ∧
      (s.sunk.Pairwise fun a b => a.topic = b.topic → a.stream ≤ b.stream) ∧
      (∀ f ∈ s.sunk, ∃ st, s.accepted[f.stream]? = some st ∧ st.info.topic = f.topic) ∧
      (∀ sender connId i st, (s.release setup sender connId).accepted[i]? = some st →
        (s.release setup sender connId).IsOpen i st → st.sender ≠ sender) ∧
      (s.close setup).streams = [] := by
  have hinv := isInvariant_inv.of_run hrun
  exact ⟨fun i st hst => hinv.inOrder hst, hinv.feeds.ordered, hinv.feeds.numbered,
    fun sender connId => (hinv.release sender connId).2, hinv.close.2⟩

/-! ### Runs -/

/-- A resampler that gives back what it is given. -/
def copying : Resampler Unit where
  new _ _ := ()
  push _ samples := (samples, ())
  flush _ := ([], ())

/-- A topic feeds a track whose frames have two samples. -/
def voiceSetup : InputSetup Unit where
  unicode := Python.asciiDigits
  resampler := copying
  inputs := [("voice", { kind := .audio, rate := 200 })]
  mediaInputs := [("speech", "voice")]

def speaks (streamId : String) : Label := .opens { streamId, topic := "speech" } "agent" 7 true

/-- A stream brings three samples, cut in the middle of one, and closes; the next is open when its
sender leaves. -/
def spokenRun : List Label :=
  [speaks "a", .arrives 0 (.chunk [1, 0, 2]), .resumes 0, .arrives 0 (.chunk [0, 3, 0]),
    .arrives 0 .ends, .resumes 0, .resumes 0, speaks "b", .arrives 1 (.chunk [4, 0, 5, 0]),
    .resumes 1, .release "agent" 7, .resumes 1]

theorem isSome_spokenRun : ((roomInputs voiceSetup).run spokenRun).isSome := rfl

theorem in_order_spokenRun :
    (∀ i st, (((roomInputs voiceSetup).run spokenRun).get isSome_spokenRun).accepted[i]? = some st →
      InOrder voiceSetup (((roomInputs voiceSetup).run spokenRun).get isSome_spokenRun) i st) ∧
      (((roomInputs voiceSetup).run spokenRun).get isSome_spokenRun).sunk.map
        (fun f => (f.stream, f.data)) =
        [(0, [1, 2]), (0, [3]), (0, []), (1, [4, 5]), (1, [])] :=
  ⟨(in_order (Option.some_get isSome_spokenRun).symm).1, by decide +kernel⟩

/-- A stream is superseded while a chunk waits in its reader. -/
def supersededRun : List Label :=
  [speaks "a", .arrives 0 (.chunk [1, 0, 2, 0]), speaks "b", .resumes 0]

/-- Only the end frame of the first stream reaches the sink, though two samples of it have arrived,
which are a whole frame. -/
theorem not_in_order : ∃ s, (roomInputs voiceSetup).run supersededRun = some s ∧
    s.sunk.map (fun f => (f.stream, f.data)) = [(0, [])] ∧
    s.accepted.map (fun st => (st.arrived, st.streamRate == st.rate, st.ending)) =
      [([.chunk [1, 0, 2, 0]], true, some .superseded), ([], true, none)] := by
  have hany : (((roomInputs voiceSetup).run supersededRun).any fun s =>
      s.sunk.map (fun f => (f.stream, f.data)) = [(0, [])] ∧
      s.accepted.map (fun st => (st.arrived, st.streamRate == st.rate, st.ending)) =
        [([.chunk [1, 0, 2, 0]], true, some .superseded), ([], true, none)]) = true := by
    decide +kernel
  obtain ⟨s, hs, hsunk⟩ := (Option.any_eq_true _ _).mp hany
  exact ⟨s, hs, of_decide_eq_true hsunk⟩

end RoomInputs

end ReactorRuntime.LiveKit
