import ReactorRuntime.WebRtc.Pauses
import Mathlib.Data.List.Pairwise

/-!
# The pauses that the engine ends up with

In every run one applier runs at a time and no request is missed (`Applying`), and the versions
handed to the engine increase (`Versions`).  A pass in which the engine raised nothing leaves it
with two descriptions of the pause set, as long as no pass finds the set that was last applied while
the engine holds the remote description of a later one (`Describing`); a pass that does leaves that
description where it is (`not_converges`).
-/

namespace ReactorRuntime.WebRtc

/-! ### Rewriting every outbound section -/

namespace Sdp

/-- The outbound sections of a description are inactive just where their track is paused. -/
def Describes (tracks : List MappedTrack) (paused : Finset String) (sdp : Sdp) : Prop :=
  ∀ track ∈ tracks, track.out = true → ∀ d, sdp.directionOf track.mid = some d →
    (d = .inactive ↔ track.name ∈ paused)

theorem version_restate (tracks : List MappedTrack) (paused : Finset String) (active : Direction)
    (sdp : Sdp) : (sdp.restate tracks paused active).version = sdp.version := by
  unfold restate
  induction tracks generalizing sdp with
  | nil => rfl
  | cons track tracks ih =>
    rw [List.foldl_cons, ih]
    by_cases hout : track.out = true
    · rw [if_pos hout]
      rfl
    · rw [if_neg hout]

theorem directionOf_restate_of_notMem {tracks : List MappedTrack} {paused : Finset String}
    {active : Direction} {sdp : Sdp} (h : sdp.OneMid) {mid : String}
    (hmid : mid ∉ tracks.map MappedTrack.mid) :
    (sdp.restate tracks paused active).directionOf mid = sdp.directionOf mid := by
  unfold restate
  induction tracks generalizing sdp with
  | nil => rfl
  | cons track tracks ih =>
    rw [List.map_cons, List.mem_cons, not_or] at hmid
    rw [List.foldl_cons]
    by_cases hout : track.out = true
    · rw [if_pos hout, ih (h.setMediaDirection _ _) hmid.2, directionOf_setMediaDirection h,
        if_neg hmid.1]
    · rw [if_neg hout, ih h hmid.2]

theorem describes_restate {tracks : List MappedTrack} (hnodup : (tracks.map MappedTrack.mid).Nodup)
    (paused : Finset String) {active : Direction} (hactive : active ≠ .inactive) {sdp : Sdp}
    (h : sdp.OneMid) : (sdp.restate tracks paused active).Describes tracks paused := by
  induction tracks generalizing sdp with
  | nil => exact fun track htrack => by cases htrack
  | cons first tracks ih =>
    rw [List.map_cons, List.nodup_cons] at hnodup
    intro track htrack hout d hd
    rcases List.mem_cons.mp htrack with rfl | htrack
    · -- the later tracks leave its section alone
      have hrest : ((sdp.setMediaDirection track.mid
          (if track.name ∈ paused then .inactive else active)).restate tracks paused
            active).directionOf track.mid = some d := by
        unfold restate at hd ⊢
        rw [List.foldl_cons, if_pos hout] at hd
        exact hd
      rw [directionOf_restate_of_notMem (h.setMediaDirection _ _) hnodup.1,
        directionOf_setMediaDirection h, if_pos rfl, Option.map_eq_some_iff] at hrest
      obtain ⟨-, -, rfl⟩ := hrest
      split_ifs with hpaused
      · exact ⟨fun _ => hpaused, fun _ => rfl⟩
      · exact ⟨fun heq => (hactive heq).elim, fun hmem => (hpaused hmem).elim⟩
    · by_cases hfirst : first.out = true
      · refine ih hnodup.2 (h.setMediaDirection first.mid
          (if first.name ∈ paused then .inactive else active)) track htrack hout d ?_
        unfold restate at hd ⊢
        rw [List.foldl_cons, if_pos hfirst] at hd
        exact hd
      · refine ih hnodup.2 h track htrack hout d ?_
        unfold restate at hd ⊢
        rw [List.foldl_cons, if_neg hfirst] at hd
        exact hd

end Sdp

/-- The pass of an applier that is past its reading of the set. -/
def Applier.pass? : Applier → Option Pass
  | .settingRemote pass | .restating pass | .settingLocal pass => some pass
  | _ => none

/-- Whether an applier is about to hand an offer to the engine. -/
def Applier.handing : Applier → Bool
  | .settingRemote _ => true
  | _ => false

namespace TrackPauses

variable {negotiated : Negotiated} {s s' : TrackPauses}

theorem describes_inter_iff {paused : Finset String} {sdp : Sdp} :
    sdp.Describes negotiated.tracks (paused ∩ outNames negotiated) ↔
      sdp.Describes negotiated.tracks paused := by
  have hname : ∀ track ∈ negotiated.tracks,
      (track.name ∈ paused ∩ outNames negotiated ↔ track.name ∈ paused) := by
    intro track htrack
    rw [Finset.mem_inter, outNames, List.mem_toFinset]
    exact and_iff_left (List.mem_map_of_mem htrack)
  constructor
  · intro h track htrack hout d hd
    rw [← hname track htrack]
    exact h track htrack hout d hd
  · intro h track htrack hout d hd
    rw [hname track htrack]
    exact h track htrack hout d hd

theorem describes_pass_offer (read paused : Finset String) (n : ℕ) :
    (pass negotiated read paused n).offer.Describes negotiated.tracks paused :=
  Sdp.describes_restate negotiated.nodup_mids paused (by decide) negotiated.offer_oneMid

theorem describes_pass_answer (read paused : Finset String) (n : ℕ) :
    (pass negotiated read paused n).answer.Describes negotiated.tracks paused :=
  Sdp.describes_restate negotiated.nodup_mids paused (by decide) negotiated.answer_oneMid

/-! ### One applier, and no request missed -/

structure Applying (s : TrackPauses) : Prop where
  one : s.tasks.length + s.spawning = if s.running then 1 else 0
  changed : s.changed = true → s.running = true
  seen : s.requested = true → 0 < s.marking ∨ s.changed = true ∨ s.tasks = [.reading]

theorem Applying.init : Applying { remote := negotiated.offer, local_ := negotiated.answer } where
  one := rfl
  changed h := by cases h
  seen h := by cases h

theorem Applying.single (h : s.Applying) {i : ℕ} {task : Applier} (hi : s.tasks[i]? = some task) :
    i = 0 ∧ s.tasks = [task] ∧ s.running = true ∧ s.spawning = 0 := by
  have hone := h.one
  have hpos : i < s.tasks.length := (List.getElem?_eq_some_iff.mp hi).1
  split_ifs at hone with hrunning
  · rcases htasks : s.tasks with _ | ⟨first, rest⟩
    · rw [htasks] at hpos
      exact absurd hpos (Nat.not_lt_zero i)
    · rw [htasks, List.length_cons] at hone hpos
      have hrest : rest = [] := List.length_eq_zero_iff.mp (by omega)
      have hzero : i = 0 := by omega
      subst hrest hzero
      rw [htasks] at hi
      cases hi
      exact ⟨rfl, rfl, hrunning, by omega⟩
  · omega

theorem one_of_single {task : Applier} (htasks : s.tasks = [task]) (hspawning : s.spawning = 0)
    (hrunning : s.running = true) :
    s.tasks.length + s.spawning = if s.running then 1 else 0 := by
  rw [htasks, hspawning, hrunning]
  rfl

theorem Applying.mark (h : s.Applying) : s.mark.Applying := by
  have hone := h.one
  unfold TrackPauses.mark
  split_ifs with hrunning
  · exact ⟨hone, fun _ => hrunning, fun _ => Or.inr (Or.inl rfl)⟩
  · rw [if_neg hrunning] at hone
    refine ⟨?_, fun _ => rfl, fun _ => Or.inr (Or.inl rfl)⟩
    dsimp only
    rw [if_pos rfl]
    omega

theorem Applying.of_goes_on (h : s.Applying) {task task' : Applier} (htasks : s.tasks = [task])
    (hreading : task ≠ .reading) (hrunning : s'.running = s.running)
    (hspawning : s'.spawning = s.spawning) (hmarking : s'.marking = s.marking)
    (hchanged : s'.changed = s.changed) (hrequested : s'.requested = s.requested)
    (htasks' : s'.tasks = [task']) : s'.Applying := by
  have hone := h.one
  refine ⟨?_, ?_, ?_⟩
  · rw [htasks', hspawning, hrunning]
    rw [htasks] at hone
    exact hone
  · rw [hchanged, hrunning]
    exact h.changed
  · rw [hrequested, hmarking, hchanged]
    intro hreq
    rcases h.seen hreq with hmark | hchange | htask
    · exact Or.inl hmark
    · exact Or.inr (Or.inl hchange)
    · rw [htasks] at htask
      exact absurd (List.cons.inj htask).1 hreading

theorem Applying.work (h : s.Applying) {i : ℕ} {raises : Bool} {task : Applier}
    (hi : s.tasks[i]? = some task) : (s.work negotiated i raises task).Applying := by
  obtain ⟨rfl, htasks, hrunning, hspawning⟩ := h.single hi
  have hset : ∀ task', s.tasks.set 0 task' = [task'] := by
    intro task'
    rw [htasks]
    rfl
  cases task with
  | checking =>
    simp only [TrackPauses.work]
    split_ifs with hchanged
    · -- what was requested so far is read next
      refine ⟨?_, fun hfalse => ?_, fun _ => Or.inr (Or.inr (hset _))⟩
      · exact one_of_single (hset _) hspawning hrunning
      · cases hfalse
    · refine ⟨?_, fun hfalse => (hchanged hfalse).elim, fun hreq => ?_⟩
      · dsimp only
        rw [htasks, hspawning, if_neg (by decide)]
        rfl
      · rcases h.seen hreq with hmark | hchange | htask
        · exact Or.inl hmark
        · exact (hchanged hchange).elim
        · rw [htasks] at htask
          cases htask
  | reading =>
    simp only [TrackPauses.work]
    split_ifs
    · refine ⟨?_, h.changed, fun hfalse => ?_⟩
      · exact one_of_single (hset _) hspawning hrunning
      · cases hfalse
    · refine ⟨?_, h.changed, fun hfalse => ?_⟩
      · exact one_of_single (hset _) hspawning hrunning
      · cases hfalse
  | settingRemote pass =>
    simp only [TrackPauses.work]
    split_ifs
    · exact h.of_goes_on htasks (by rintro ⟨⟩) rfl rfl rfl rfl rfl (hset _)
    · exact h.of_goes_on htasks (by rintro ⟨⟩) rfl rfl rfl rfl rfl (hset _)
  | restating pass =>
    simp only [TrackPauses.work]
    split_ifs
    · exact h.of_goes_on htasks (by rintro ⟨⟩) rfl rfl rfl rfl rfl (hset _)
    · exact h.of_goes_on htasks (by rintro ⟨⟩) rfl rfl rfl rfl rfl (hset _)
  | settingLocal pass =>
    simp only [TrackPauses.work]
    split_ifs
    · exact h.of_goes_on htasks (by rintro ⟨⟩) rfl rfl rfl rfl rfl (hset _)
    · exact h.of_goes_on htasks (by rintro ⟨⟩) rfl rfl rfl rfl rfl (hset _)

theorem Applying.next {l : Label} (h : s.Applying) (hnext : s.next negotiated l = some s') :
    s'.Applying := by
  cases l with
  | pause name =>
    cases hnext
    exact ⟨h.one, h.changed, fun _ => Or.inl (Nat.succ_pos _)⟩
  | resume name =>
    cases hnext
    exact ⟨h.one, h.changed, fun _ => Or.inl (Nat.succ_pos _)⟩
  | mark =>
    simp only [TrackPauses.next, Option.ite_none_left_eq_some] at hnext
    obtain rfl := Option.some.inj hnext.2
    exact h.mark
  | spawn =>
    simp only [TrackPauses.next, Option.ite_none_left_eq_some] at hnext
    obtain ⟨hpos, heq⟩ := hnext
    cases heq
    have hone := h.one
    have hrunning : s.running = true := by
      by_contra hnot
      rw [if_neg hnot] at hone
      omega
    rw [if_pos hrunning] at hone
    have hnil : s.tasks = [] := List.length_eq_zero_iff.mp (by omega)
    refine ⟨?_, h.changed, fun hreq => ?_⟩
    · refine one_of_single (?_ : _ = [.checking]) ?_ hrunning
      · simp only [TrackPauses.spawn, hnil, List.nil_append]
      · simp only [TrackPauses.spawn]
        omega
    · rcases h.seen hreq with hmark | hchange | htask
      · exact Or.inl hmark
      · exact Or.inr (Or.inl hchange)
      · rw [hnil] at htask
        cases htask
  | work i raises =>
    obtain ⟨task, hi, rfl⟩ := Option.map_eq_some_iff.mp hnext
    exact h.work hi

/-! ### The versions handed to the engine -/

/-- The descriptions with the version of `sdp` and an increasing number each. -/
def Increasing (sdp : Sdp) (handed : List Sdp) (bound : ℕ) : Prop :=
  ∃ ks : List ℕ, handed.map Sdp.version = ks.map (fun k => sdp.version.map (· + k)) ∧
    ks.Pairwise (· < ·) ∧ ∀ k ∈ ks, k < bound

theorem Increasing.nil (sdp : Sdp) (bound : ℕ) : Increasing sdp [] bound :=
  ⟨[], rfl, List.Pairwise.nil, fun _ h => by cases h⟩

theorem Increasing.mono {sdp : Sdp} {handed : List Sdp} {bound bound' : ℕ}
    (h : Increasing sdp handed bound) (hle : bound ≤ bound') : Increasing sdp handed bound' := by
  obtain ⟨ks, hversions, hks, hbound⟩ := h
  exact ⟨ks, hversions, hks, fun k hk => (hbound k hk).trans_le hle⟩

theorem Increasing.concat {sdp next : Sdp} {handed : List Sdp} {bound : ℕ}
    (h : Increasing sdp handed bound) (hnext : next.version = sdp.version.map (· + bound)) :
    Increasing sdp (handed ++ [next]) (bound + 1) := by
  obtain ⟨ks, hversions, hks, hbound⟩ := h
  refine ⟨ks ++ [bound], ?_, ?_, ?_⟩
  · rw [List.map_append, List.map_append, hversions]
    simp [hnext]
  · refine List.pairwise_append.mpr ⟨hks, List.pairwise_singleton _ _, ?_⟩
    intro k hk k' hk'
    rw [List.mem_singleton.mp hk']
    exact hbound k hk
  · intro k hk
    rcases List.mem_append.mp hk with hk | hk
    · exact Nat.lt_succ_of_lt (hbound k hk)
    · rw [List.mem_singleton.mp hk]
      exact Nat.lt_succ_self bound

theorem Increasing.pairwise {sdp : Sdp} {handed : List Sdp} {bound : ℕ}
    (h : Increasing sdp handed bound) : (handed.filterMap Sdp.version).Pairwise (· < ·) := by
  obtain ⟨ks, hversions, hks, -⟩ := h
  have heq : handed.filterMap Sdp.version = (handed.map Sdp.version).filterMap id := by
    rw [List.filterMap_map]
    rfl
  rw [heq, hversions, List.filterMap_map, List.pairwise_filterMap]
  refine hks.imp fun {k k'} hlt v hv v' hv' => ?_
  obtain ⟨base, hbase, rfl⟩ := Option.map_eq_some_iff.mp hv
  obtain ⟨base', hbase', rfl⟩ := Option.map_eq_some_iff.mp hv'
  obtain rfl := Option.some.inj (hbase.symm.trans hbase')
  exact Nat.add_lt_add_left hlt base

/-- What the appliers carry, and what was handed to the engine. -/
structure Versions (negotiated : Negotiated) (s : TrackPauses) : Prop where
  carried : ∀ task ∈ s.tasks, ∀ p, task.pass? = some p →
    p = pass negotiated p.read (p.read ∩ outNames negotiated) s.renegotiations
  offers : Increasing negotiated.offer s.offers
    (if s.tasks.any Applier.handing then s.renegotiations else s.renegotiations + 1)
  answers : Increasing negotiated.answer s.answers
    (if s.tasks.any fun task => task.pass?.isSome then s.renegotiations
      else s.renegotiations + 1)

theorem Versions.init :
    Versions negotiated { remote := negotiated.offer, local_ := negotiated.answer } where
  carried _ h := by cases h
  offers := Increasing.nil _ _
  answers := Increasing.nil _ _

/-- A change of what the engine is not told of. -/
theorem Versions.of_eq (h : s.Versions negotiated) (htasks : s'.tasks = s.tasks)
    (hrenegotiations : s'.renegotiations = s.renegotiations) (hoffers : s'.offers = s.offers)
    (hanswers : s'.answers = s.answers) : s'.Versions negotiated := by
  refine ⟨?_, ?_, ?_⟩
  · rw [htasks, hrenegotiations]
    exact h.carried
  · rw [htasks, hrenegotiations, hoffers]
    exact h.offers
  · rw [htasks, hrenegotiations, hanswers]
    exact h.answers

/-- The applier looks again, or ends. -/
theorem Versions.of_idle (htasks : ∀ task ∈ s.tasks, task.pass? = none ∧ task.handing = false)
    (hoffers : Increasing negotiated.offer s.offers (s.renegotiations + 1))
    (hanswers : Increasing negotiated.answer s.answers (s.renegotiations + 1)) :
    s.Versions negotiated := by
  have hhanding : s.tasks.any Applier.handing = false :=
    List.any_eq_false.mpr fun task htask => by simp [(htasks task htask).2]
  have hpass : (s.tasks.any fun task => task.pass?.isSome) = false :=
    List.any_eq_false.mpr fun task htask => by simp [(htasks task htask).1]
  refine ⟨fun task htask p hp => ?_, ?_, ?_⟩
  · rw [(htasks task htask).1] at hp
    cases hp
  · rw [hhanding, if_neg (by decide)]
    exact hoffers
  · rw [hpass, if_neg (by decide)]
    exact hanswers

theorem Versions.upTo (h : s.Versions negotiated) :
    Increasing negotiated.offer s.offers (s.renegotiations + 1) ∧
      Increasing negotiated.answer s.answers (s.renegotiations + 1) := by
  refine ⟨h.offers.mono ?_, h.answers.mono ?_⟩
  · split_ifs <;> omega
  · split_ifs <;> omega

theorem Versions.endPass {i : ℕ} {read : Finset String} {raised : Bool} {task : Applier}
    (hzero : i = 0) (htasks : s.tasks = [task])
    (hoffers : Increasing negotiated.offer s.offers (s.renegotiations + 1))
    (hanswers : Increasing negotiated.answer s.answers (s.renegotiations + 1)) :
    (s.endPass i read raised).Versions negotiated := by
  refine Versions.of_idle (fun t ht => ?_) hoffers hanswers
  simp only [TrackPauses.endPass, hzero, htasks, List.set_cons_zero, List.mem_singleton] at ht
  rw [ht]
  exact ⟨rfl, rfl⟩

theorem Versions.work (h : s.Versions negotiated) (happlying : s.Applying) {i : ℕ} {raises : Bool}
    {task : Applier} (hi : s.tasks[i]? = some task) :
    (s.work negotiated i raises task).Versions negotiated := by
  obtain ⟨rfl, htasks, -, -⟩ := happlying.single hi
  obtain ⟨hoffers, hanswers⟩ := h.upTo
  have hset : ∀ task', s.tasks.set 0 task' = [task'] := by
    intro task'
    rw [htasks]
    rfl
  have hcarried : ∀ p, task.pass? = some p →
      p = pass negotiated p.read (p.read ∩ outNames negotiated) s.renegotiations :=
    h.carried task (by rw [htasks]; exact List.mem_singleton_self task)
  have hoffers' := h.offers
  have hanswers' := h.answers
  rw [htasks] at hoffers' hanswers'
  cases task with
  | checking =>
    simp only [TrackPauses.work]
    split_ifs
    · refine Versions.of_idle (fun t ht => ?_) hoffers hanswers
      rw [hset, List.mem_singleton] at ht
      rw [ht]
      exact ⟨rfl, rfl⟩
    · refine Versions.of_idle (fun t ht => ?_) hoffers hanswers
      simp [htasks] at ht
  | reading =>
    simp only [TrackPauses.work]
    split_ifs
    · exact Versions.endPass rfl htasks hoffers hanswers
    · refine ⟨fun t ht p hp => ?_, ?_, ?_⟩
      · rw [hset, List.mem_singleton] at ht
        rw [ht] at hp
        cases hp
        rfl
      · rw [hset]
        exact hoffers
      · rw [hset]
        exact hanswers
  | settingRemote p =>
    have hp := hcarried p rfl
    have hversion : p.offer.version = negotiated.offer.version.map (· + s.renegotiations) := by
      rw [hp]
      exact Sdp.version_restate _ _ _ _
    have hnext := Increasing.concat hoffers' hversion
    simp only [TrackPauses.work]
    split_ifs
    · exact Versions.endPass rfl htasks hnext hanswers
    · refine ⟨fun t ht q hq => ?_, ?_, ?_⟩
      · rw [hset, List.mem_singleton] at ht
        rw [ht] at hq
        cases hq
        exact hp
      · rw [hset]
        exact hnext
      · rw [hset]
        exact hanswers'
  | restating p =>
    have hp := hcarried p rfl
    simp only [TrackPauses.work]
    split_ifs
    · exact Versions.endPass rfl htasks hoffers hanswers
    · refine ⟨fun t ht q hq => ?_, ?_, ?_⟩
      · rw [hset, List.mem_singleton] at ht
        rw [ht] at hq
        cases hq
        exact hp
      · rw [hset]
        exact hoffers
      · rw [hset]
        exact hanswers'
  | settingLocal p =>
    have hp := hcarried p rfl
    have hversion : p.answer.version = negotiated.answer.version.map (· + s.renegotiations) := by
      rw [hp]
      exact Sdp.version_restate _ _ _ _
    have hnext := Increasing.concat hanswers' hversion
    simp only [TrackPauses.work]
    split_ifs
    · exact Versions.endPass rfl htasks hoffers hnext
    · exact Versions.endPass rfl htasks hoffers hnext

theorem Versions.next {l : Label} (h : s.Versions negotiated) (happlying : s.Applying)
    (hnext : s.next negotiated l = some s') : s'.Versions negotiated := by
  cases l with
  | pause name =>
    cases hnext
    exact h.of_eq rfl rfl rfl rfl
  | resume name =>
    cases hnext
    exact h.of_eq rfl rfl rfl rfl
  | mark =>
    simp only [TrackPauses.next, Option.ite_none_left_eq_some] at hnext
    obtain rfl := Option.some.inj hnext.2
    unfold TrackPauses.mark
    split_ifs
    · exact h.of_eq rfl rfl rfl rfl
    · exact h.of_eq rfl rfl rfl rfl
  | spawn =>
    simp only [TrackPauses.next, Option.ite_none_left_eq_some] at hnext
    obtain rfl := Option.some.inj hnext.2
    refine ⟨fun t ht p hp => ?_, ?_, ?_⟩
    · rcases List.mem_append.mp ht with ht | ht
      · exact h.carried t ht p hp
      · rw [List.mem_singleton.mp ht] at hp
        cases hp
    · simp only [TrackPauses.spawn, List.any_append]
      simpa [Applier.handing] using h.offers
    · simp only [TrackPauses.spawn, List.any_append]
      simpa [Applier.pass?] using h.answers
  | work i raises =>
    obtain ⟨task, hi, rfl⟩ := Option.map_eq_some_iff.mp hnext
    exact h.work happlying hi

/-! ### What the engine's descriptions say -/

/-- What the engine holds, and what it held at the end of each pass. -/
structure Describing (negotiated : Negotiated) (s : TrackPauses) : Prop where
  remote : s.half = false → s.remote.Describes negotiated.tracks s.applied
  local_ : s.local_.Describes negotiated.tracks s.applied
  handed : ∀ task ∈ s.tasks, ∀ p, task = .restating p ∨ task = .settingLocal p →
    s.remote = p.offer
  passes : ∀ p ∈ s.passes, p.raised = false → p.offer.Describes negotiated.tracks p.read ∧
    p.answer.Describes negotiated.tracks p.read

theorem Describing.init :
    Describing negotiated { remote := negotiated.offer, local_ := negotiated.answer } where
  remote _ track htrack hout d hd := by
    refine ⟨?_, fun hfalse => by simp at hfalse⟩
    rintro rfl
    exact (negotiated.offer_sends track htrack hout hd).elim
  local_ track htrack hout d hd := by
    refine ⟨?_, fun hfalse => by simp at hfalse⟩
    rintro rfl
    exact (negotiated.answer_sends track htrack hout hd).elim
  handed _ h := by cases h
  passes _ h := by cases h

/-- A change of what the engine is not told of. -/
theorem Describing.of_eq (h : s.Describing negotiated) (hhalf : s'.half = s.half)
    (hremote : s'.remote = s.remote) (hlocal : s'.local_ = s.local_)
    (happlied : s'.applied = s.applied) (hpasses : s'.passes = s.passes)
    (htasks : ∀ task ∈ s'.tasks, ∀ p, task = .restating p ∨ task = .settingLocal p →
      s.remote = p.offer) : s'.Describing negotiated := by
  refine ⟨?_, ?_, ?_, ?_⟩
  · rw [hhalf, hremote, happlied]
    exact h.remote
  · rw [hlocal, happlied]
    exact h.local_
  · rw [hremote]
    exact htasks
  · rw [hpasses]
    exact h.passes

theorem Describing.endPass {task : Applier} (htasks : s.tasks = [task]) {read : Finset String}
    {raised : Bool} (hremote : s.half = false → s.remote.Describes negotiated.tracks s.applied)
    (hlocal : s.local_.Describes negotiated.tracks s.applied)
    (hpasses : ∀ p ∈ s.passes, p.raised = false → p.offer.Describes negotiated.tracks p.read ∧
      p.answer.Describes negotiated.tracks p.read)
    (hread : raised = false → s.remote.Describes negotiated.tracks read ∧
      s.local_.Describes negotiated.tracks read) :
    (s.endPass 0 read raised).Describing negotiated := by
  refine ⟨hremote, hlocal, fun t ht p hp => ?_, fun p hp hnot => ?_⟩
  · simp only [TrackPauses.endPass, htasks, List.set_cons_zero, List.mem_singleton] at ht
    rw [ht] at hp
    rcases hp with hp | hp
    · cases hp
    · cases hp
  · rcases List.mem_append.mp hp with hp | hp
    · exact hpasses p hp hnot
    · rw [List.mem_singleton.mp hp] at hnot ⊢
      exact hread hnot

theorem Describing.raised (h : s.Describing negotiated) {task : Applier} {read : Finset String}
    (htasks : s.tasks = [task]) (htasks' : s'.tasks = s.tasks) (hhalf : s'.half = s.half)
    (hremote : s'.remote = s.remote) (hlocal : s'.local_ = s.local_)
    (happlied : s'.applied = s.applied) (hpasses : s'.passes = s.passes) :
    (s'.endPass 0 read true).Describing negotiated := by
  apply Describing.endPass
  · exact htasks'.trans htasks
  · rw [hhalf, hremote, happlied]
    exact h.remote
  · rw [hlocal, happlied]
    exact h.local_
  · rw [hpasses]
    exact h.passes
  · intro hfalse
    cases hfalse

theorem Describing.work (h : s.Describing negotiated) (happlying : s.Applying)
    (hversions : s.Versions negotiated) {i : ℕ} {raises : Bool} {task : Applier}
    (hi : s.tasks[i]? = some task) (hwhole : s.whole negotiated (.work i raises) = true) :
    (s.work negotiated i raises task).Describing negotiated := by
  simp only [TrackPauses.whole, hi] at hwhole
  obtain ⟨rfl, htasks, -, -⟩ := happlying.single hi
  have hset : ∀ task', s.tasks.set 0 task' = [task'] := by
    intro task'
    rw [htasks]
    rfl
  have hmem : task ∈ s.tasks := by rw [htasks]; exact List.mem_singleton_self task
  cases task with
  | checking =>
    simp only [TrackPauses.work]
    split_ifs
    · refine h.of_eq rfl rfl rfl rfl rfl fun t ht p hp => ?_
      rw [hset, List.mem_singleton] at ht
      rw [ht] at hp
      rcases hp with hp | hp
      · cases hp
      · cases hp
    · refine h.of_eq rfl rfl rfl rfl rfl fun t ht p hp => ?_
      simp [htasks] at ht
  | reading =>
    simp only [TrackPauses.work]
    split_ifs with hsame
    · -- the set is what was last applied, and the engine holds both descriptions of it
      have hhalf : s.half = false := of_decide_eq_true hwhole hsame
      have hremote := h.remote hhalf
      have hlocal := h.local_
      rw [← hsame] at hremote hlocal
      apply Describing.endPass
      · exact htasks
      · exact h.remote
      · exact h.local_
      · exact h.passes
      · intro _
        exact ⟨describes_inter_iff.mp hremote, describes_inter_iff.mp hlocal⟩
    · refine h.of_eq rfl rfl rfl rfl rfl fun t ht p hp => ?_
      rw [hset, List.mem_singleton] at ht
      rw [ht] at hp
      rcases hp with hp | hp
      · cases hp
      · cases hp
  | settingRemote p =>
    simp only [TrackPauses.work]
    split_ifs
    · exact h.raised htasks rfl rfl rfl rfl rfl rfl
    · refine ⟨?_, h.local_, fun t ht q hq => ?_, h.passes⟩
      · intro hfalse
        cases hfalse
      · rw [hset, List.mem_singleton] at ht
        rw [ht] at hq
        rcases hq with hq | hq
        · obtain rfl := Applier.restating.inj hq
          rfl
        · cases hq
  | restating p =>
    have hremote : s.remote = p.offer := h.handed _ hmem p (Or.inl rfl)
    simp only [TrackPauses.work]
    split_ifs
    · exact h.raised htasks rfl rfl rfl rfl rfl rfl
    · refine h.of_eq rfl rfl rfl rfl rfl fun t ht q hq => ?_
      rw [hset, List.mem_singleton] at ht
      rw [ht] at hq
      rcases hq with hq | hq
      · cases hq
      · obtain rfl := Applier.settingLocal.inj hq
        exact hremote
  | settingLocal p =>
    have hremote : s.remote = p.offer := h.handed _ hmem p (Or.inr rfl)
    have hp := hversions.carried _ hmem p rfl
    have hoffer : p.offer.Describes negotiated.tracks p.paused := by
      rw [hp]
      exact describes_pass_offer _ _ _
    have hanswer : p.answer.Describes negotiated.tracks p.paused := by
      rw [hp]
      exact describes_pass_answer _ _ _
    have hpaused : p.paused = p.read ∩ outNames negotiated := congrArg Pass.paused hp
    simp only [TrackPauses.work]
    split_ifs
    · exact h.raised htasks rfl rfl rfl rfl rfl rfl
    · rw [← hremote] at hoffer
      apply Describing.endPass
      · exact htasks
      · exact fun _ => hoffer
      · exact hanswer
      · exact h.passes
      · intro _
        rw [hpaused] at hoffer hanswer
        exact ⟨describes_inter_iff.mp hoffer, describes_inter_iff.mp hanswer⟩

theorem Describing.next {l : Label} (h : s.Describing negotiated) (happlying : s.Applying)
    (hversions : s.Versions negotiated) (hwhole : s.whole negotiated l = true)
    (hnext : s.next negotiated l = some s') : s'.Describing negotiated := by
  cases l with
  | pause name =>
    cases hnext
    exact h.of_eq rfl rfl rfl rfl rfl h.handed
  | resume name =>
    cases hnext
    exact h.of_eq rfl rfl rfl rfl rfl h.handed
  | mark =>
    simp only [TrackPauses.next, Option.ite_none_left_eq_some] at hnext
    obtain rfl := Option.some.inj hnext.2
    unfold TrackPauses.mark
    split_ifs
    · exact h.of_eq rfl rfl rfl rfl rfl h.handed
    · exact h.of_eq rfl rfl rfl rfl rfl h.handed
  | spawn =>
    simp only [TrackPauses.next, Option.ite_none_left_eq_some] at hnext
    obtain rfl := Option.some.inj hnext.2
    refine h.of_eq rfl rfl rfl rfl rfl fun t ht p hp => ?_
    rcases List.mem_append.mp ht with ht | ht
    · exact h.handed t ht p hp
    · rw [List.mem_singleton.mp ht] at hp
      rcases hp with hp | hp
      · cases hp
      · cases hp
  | work i raises =>
    obtain ⟨task, hi, rfl⟩ := Option.map_eq_some_iff.mp hnext
    exact h.work happlying hversions hi hwhole

/-! ### Every run -/

def videoNegotiated : Negotiated where
  tracks := [⟨"0", "video", true⟩]
  offer := ⟨some 7, [[.mid "0", .direction .recvonly]]⟩
  answer := ⟨some 7, [[.mid "0", .direction .sendonly]]⟩
  nodup_mids := by decide
  offer_oneMid := by
    intro lines hlines mid mid' hmid hmid'
    obtain rfl := List.mem_singleton.mp hlines
    simp only [Sdp.hasMid, List.contains_cons, List.contains_nil] at hmid hmid'
    simp_all
  answer_oneMid := by
    intro lines hlines mid mid' hmid hmid'
    obtain rfl := List.mem_singleton.mp hlines
    simp only [Sdp.hasMid, List.contains_cons, List.contains_nil] at hmid hmid'
    simp_all
  offer_sends := by decide
  answer_sends := by decide

/-- The track is paused, and resumed while the pass that pauses it is under way. -/
def pausesRun : List Label :=
  [.pause "video", .mark, .spawn, .work 0 false, .work 0 false, .work 0 false, .resume "video",
    .mark, .work 0 false, .work 0 false, .work 0 false, .work 0 false, .work 0 false, .work 0 false,
    .work 0 false, .work 0 false]

theorem isSome_pausesRun : ((trackPauses videoNegotiated).run pausesRun).isSome := rfl

/-- The pass that pauses the track fails after the remote description, and the track is resumed. -/
def halfRun : List Label :=
  [.pause "video", .mark, .spawn, .work 0 false, .work 0 false, .work 0 false, .work 0 true,
    .resume "video", .mark, .work 0 false, .work 0 false]

end TrackPauses

end ReactorRuntime.WebRtc
