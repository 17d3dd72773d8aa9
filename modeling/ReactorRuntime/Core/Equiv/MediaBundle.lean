import ReactorRuntime.Core.MediaBundle
import Mathlib.Data.List.Dedup
import Mathlib.Data.List.Perm.Basic

/-!
# What a split leaves of a bundle

Where a bundle is split, its tracks are divided among as many frames as it counts, and nothing is
lost or added (`TrackData.SplitInto`).  That a bundle is split just where its tracks agree
(`MediaBundle.Splits`) fails in three places: a first batch of one picture is not compared with the
others, a batch of none leaves no section for the sound, and the metadata lists of a bundle without
a batch stay as they are (`splits_iff`).
-/

namespace ReactorRuntime.Core

open ReactorRuntime.Lists

variable {P S M : Type*}

/-! ### `array_split` -/

section ArraySplit

variable {l : List S} {n : ℕ}

theorem divPoint_mono (length n i : ℕ) : divPoint length n i ≤ divPoint length n (i + 1) := by
  unfold divPoint
  have hmul : (i + 1) * (length / n) = i * (length / n) + length / n := Nat.succ_mul ..
  rw [hmul]
  generalize length / n = q
  generalize length % n = r
  omega

theorem divPoint_self (length : ℕ) (h : 0 < n) : divPoint length n n = length := by
  unfold divPoint
  have hlt : length % n < n := Nat.mod_lt _ h
  have hdiv : n * (length / n) + length % n = length := Nat.div_add_mod length n
  omega

@[simp] theorem length_arraySplit : (arraySplit n l).length = n := by simp [arraySplit]

theorem flatten_pieces (k : ℕ) :
    ((List.range k).map fun i => (l.drop (divPoint l.length n i)).take
      (divPoint l.length n (i + 1) - divPoint l.length n i)).flatten =
      l.take (divPoint l.length n k) := by
  induction k with
  | zero => simp [divPoint]
  | succ k ih =>
    have hle := divPoint_mono l.length n k
    rw [List.range_succ, List.map_append, List.flatten_append, ih, List.map_cons, List.map_nil,
      List.flatten_cons, List.flatten_nil, List.append_nil, ← List.take_add,
      Nat.add_sub_cancel' hle]

theorem flatten_arraySplit (h : 0 < n) : (arraySplit n l).flatten = l := by
  rw [arraySplit, flatten_pieces, divPoint_self _ h, List.take_length]

end ArraySplit

/-! ### A track in each of the frames -/

def Payload.samples : Payload P S → List S
  | .flat samples | .mono samples => samples
  | _ => []

/-- The tracks that a track becomes, one for each frame, in order. -/
structure TrackData.SplitInto (t : TrackData P S M) (ts : List (TrackData P S M)) : Prop where
  names : ∀ t' ∈ ts, t'.name = t.name
  kinds : ∀ t' ∈ ts, t'.data.kind = t.data.kind
  single : ∀ t' ∈ ts, t'.batchSize = none ∧ ∀ ms, t'.metadata ≠ .each ms
  picture : ∀ p, t.data = .picture p → ∀ t' ∈ ts, t'.data = .picture p
  batch : ∀ ps, t.data = .batch ps → ts.map (·.data) = ps.map .picture
  audio : t.isAudio = true → ts.flatMap (·.data.samples) = t.data.samples
  each : ∀ ms, t.metadata = .each ms → ts.map (·.metadata) = ms.map .one
  repeated : (∀ ms, t.metadata ≠ .each ms) → ∀ t' ∈ ts, t'.metadata = t.metadata

namespace TrackData

variable {t : TrackData P S M} {n i : ℕ}

def listed (t : TrackData P S M) : Bool :=
  match t.metadata with
  | .each _ => true
  | _ => false

theorem listed_eq_false : t.listed = false ↔ ∀ ms, t.metadata ≠ .each ms := by
  unfold listed
  split
  · rename_i ms heq
    simp [heq]
  · rename_i hne
    simpa using hne

def pieceAt (t : TrackData P S M) (n i : ℕ) : TrackData P S M :=
  { t with data := (t.data.split n).getD i t.data, metadata := t.frameMetadata i }

/-- A track that goes into `n` frames: a batch of `n`, with metadata for each. -/
structure Fits (t : TrackData P S M) (n : ℕ) : Prop where
  batch : ∀ ps, t.data = .batch ps → ps.length = n
  each : ∀ ms, t.metadata = .each ms → ms.length = n

theorem length_split (h : t.Fits n) : (t.data.split n).length = n := by
  cases hdata : t.data with
  | picture p => exact List.length_replicate
  | batch ps => exact (List.length_map _).trans (h.batch ps hdata)
  | flat samples => exact (List.length_map _).trans length_arraySplit
  | mono samples => exact (List.length_map _).trans length_arraySplit

theorem getElem?_split (h : t.Fits n) (hi : i < n) :
    (t.data.split n)[i]? = some (t.pieceAt n i).data := by
  have hlt : i < (t.data.split n).length := (length_split h).symm ▸ hi
  rw [pieceAt, List.getD_eq_getElem?_getD, List.getElem?_eq_getElem hlt]
  rfl

theorem map_data_pieceAt (h : t.Fits n) :
    ((List.range n).map (t.pieceAt n)).map (·.data) = t.data.split n := by
  refine List.ext_getElem? fun i => ?_
  rw [List.map_map, List.getElem?_map]
  by_cases hi : i < n
  · rw [List.getElem?_range hi, getElem?_split h hi]
    rfl
  · rw [List.getElem?_eq_none (by simpa using hi), List.getElem?_eq_none]
    · rfl
    · rw [length_split h]
      omega

theorem frameMetadata_ne_each {ms : List M} : t.frameMetadata i ≠ .each ms := by
  unfold frameMetadata
  split
  · rename_i list _
    cases list[i]? with
    | none => rintro ⟨⟩
    | some m => rintro ⟨⟩
  · rename_i hne
    exact hne ms

theorem frameMetadata_of_ne_each (h : ∀ ms, t.metadata ≠ .each ms) :
    t.frameMetadata i = t.metadata := by
  unfold frameMetadata
  split
  · rename_i ms heq
    exact absurd heq (h ms)
  · rfl

theorem map_frameMetadata {ms : List M} (h : t.metadata = .each ms) :
    (List.range ms.length).map t.frameMetadata = ms.map .one := by
  refine List.ext_getElem (by simp) fun i hi hi' => ?_
  have hlt : i < ms.length := by simpa using hi'
  simp [frameMetadata, h, hlt]

theorem kind_of_mem_split {data : Payload P S} (h : data ∈ t.data.split n) :
    data.kind = t.data.kind ∧ ∀ ps, data ≠ .batch ps := by
  cases hdata : t.data with
  | picture p =>
    rw [hdata] at h
    obtain rfl := List.eq_of_mem_replicate h
    exact ⟨rfl, by rintro ps ⟨⟩⟩
  | batch ps =>
    rw [hdata] at h
    obtain ⟨p, -, rfl⟩ := List.mem_map.mp h
    exact ⟨rfl, by rintro ps ⟨⟩⟩
  | flat samples =>
    rw [hdata] at h
    obtain ⟨piece, -, rfl⟩ := List.mem_map.mp h
    exact ⟨rfl, by rintro ps ⟨⟩⟩
  | mono samples =>
    rw [hdata] at h
    obtain ⟨piece, -, rfl⟩ := List.mem_map.mp h
    exact ⟨rfl, by rintro ps ⟨⟩⟩

theorem batchSize_eq_none (h : ∀ ps, t.data ≠ .batch ps) : t.batchSize = none := by
  unfold batchSize
  split
  · rename_i ps heq
    exact absurd heq (h ps)
  · rfl

theorem batchSize_eq_some {name : String} {size : ℕ} :
    t.batchSize = some (name, size) ↔ t.name = name ∧ ∃ ps, t.data = .batch ps ∧ ps.length = size := by
  unfold batchSize
  split
  · rename_i ps heq
    simp [heq]
  · rename_i hne
    simp only [reduceCtorEq, false_iff, not_and, not_exists]
    exact fun _ ps heq => absurd heq (hne ps)

theorem splitInto_pieceAt (h : t.Fits n) (hn : 0 < n ∨ t.isAudio = false) :
    t.SplitInto ((List.range n).map (t.pieceAt n)) := by
  have hmem : ∀ t' ∈ (List.range n).map (t.pieceAt n), ∃ i, i < n ∧ t' = t.pieceAt n i := by
    intro t' ht'
    obtain ⟨i, hi, rfl⟩ := List.mem_map.mp ht'
    exact ⟨i, List.mem_range.mp hi, rfl⟩
  have hdata : ∀ t' ∈ (List.range n).map (t.pieceAt n), t'.data ∈ t.data.split n := by
    intro t' ht'
    rw [← map_data_pieceAt h]
    exact List.mem_map_of_mem ht'
  refine ⟨?_, fun t' ht' => (kind_of_mem_split (hdata t' ht')).1, ?_, ?_, ?_, ?_, ?_, ?_⟩
  · intro t' ht'
    obtain ⟨i, -, rfl⟩ := hmem t' ht'
    rfl
  · intro t' ht'
    refine ⟨batchSize_eq_none (kind_of_mem_split (hdata t' ht')).2, ?_⟩
    obtain ⟨i, -, rfl⟩ := hmem t' ht'
    exact fun ms => frameMetadata_ne_each
  · intro p hp t' ht'
    have hsplit := hdata t' ht'
    rw [hp] at hsplit
    exact List.eq_of_mem_replicate hsplit
  · intro ps hps
    rw [map_data_pieceAt h, hps]
    rfl
  · intro haudio
    have hpos : 0 < n := hn.resolve_right (by simp [haudio])
    have hflat : ((List.range n).map (t.pieceAt n)).flatMap (·.data.samples) =
        (t.data.split n).flatMap Payload.samples := by
      rw [← map_data_pieceAt h, List.flatMap_map, List.flatMap_map, List.flatMap_map]
    rw [hflat]
    cases hpayload : t.data with
    | picture p => simp [isAudio, hpayload, Payload.kind] at haudio
    | batch ps => simp [isAudio, hpayload, Payload.kind] at haudio
    | flat samples =>
      rw [Payload.split, List.flatMap_map]
      exact List.flatMap_id.trans (flatten_arraySplit hpos)
    | mono samples =>
      rw [Payload.split, List.flatMap_map]
      exact List.flatMap_id.trans (flatten_arraySplit hpos)
  · intro ms hms
    rw [List.map_map, ← h.each ms hms]
    exact map_frameMetadata hms
  · intro hne t' ht'
    obtain ⟨i, -, rfl⟩ := hmem t' ht'
    exact frameMetadata_of_ne_each hne

/-- A batch of one picture is squeezed, and the sound is left whole. -/
theorem splitInto_squeeze (h : t.Fits 1) : t.SplitInto [t.squeeze] := by
  have hmetadata : t.squeeze.metadata = t.frameMetadata 0 := rfl
  -- What a squeezed payload is, by what it was.
  have hpayload : (∀ p, t.data = .picture p → t.squeeze.data = .picture p) ∧
      (∀ ps, t.data = .batch ps → [t.squeeze.data] = ps.map .picture) ∧
      (t.isAudio = true → t.squeeze.data = t.data) ∧ t.squeeze.data.kind = t.data.kind ∧
      ∀ ps, t.squeeze.data ≠ .batch ps := by
    cases hdata : t.data with
    | picture p => simp [squeeze, hdata, isAudio, Payload.kind]
    | batch ps =>
      obtain ⟨p, rfl⟩ := List.length_eq_one_iff.mp (h.batch ps hdata)
      simp [squeeze, hdata, isAudio, Payload.kind]
    | flat samples => simp [squeeze, hdata, isAudio, Payload.kind]
    | mono samples => simp [squeeze, hdata, isAudio, Payload.kind]
  obtain ⟨hpicture, hbatch, haudio, hkind, hsingle⟩ := hpayload
  have hmem : ∀ t' ∈ [t.squeeze], t' = t.squeeze := fun t' ht' => List.mem_singleton.mp ht'
  refine ⟨?_, ?_, ?_, ?_, fun ps hps => hbatch ps hps, ?_, ?_, ?_⟩
  · intro t' ht'
    obtain rfl := hmem t' ht'
    rfl
  · intro t' ht'
    obtain rfl := hmem t' ht'
    exact hkind
  · intro t' ht'
    obtain rfl := hmem t' ht'
    exact ⟨batchSize_eq_none hsingle, fun ms => frameMetadata_ne_each⟩
  · intro p hp t' ht'
    obtain rfl := hmem t' ht'
    exact hpicture p hp
  · intro haud
    rw [List.flatMap_cons, List.flatMap_nil, List.append_nil, haudio haud]
  · intro ms hms
    have hmap := map_frameMetadata hms
    rw [h.each ms hms] at hmap
    exact hmap
  · intro hne t' ht'
    obtain rfl := hmem t' ht'
    exact frameMetadata_of_ne_each hne

/-- A track of one frame is in that frame as it is. -/
theorem splitInto_self (hdata : ∀ ps, t.data ≠ .batch ps) (hmetadata : ∀ ms, t.metadata ≠ .each ms) :
    t.SplitInto [t] := by
  have hmem : ∀ t' ∈ [t], t' = t := fun t' ht' => List.mem_singleton.mp ht'
  refine ⟨?_, ?_, ?_, ?_, fun ps hps => absurd hps (hdata ps), fun _ => List.append_nil _,
    fun ms hms => absurd hms (hmetadata ms), ?_⟩
  · intro t' ht'
    obtain rfl := hmem t' ht'
    rfl
  · intro t' ht'
    obtain rfl := hmem t' ht'
    rfl
  · intro t' ht'
    obtain rfl := hmem t' ht'
    exact ⟨batchSize_eq_none hdata, hmetadata⟩
  · intro p hp t' ht'
    obtain rfl := hmem t' ht'
    exact hp
  · intro hne t' ht'
    obtain rfl := hmem t' ht'
    rfl

theorem metadataError_eq_none : t.metadataError n = none ↔
    ∀ ms, t.metadata = .each ms → ms.length = n := by
  unfold metadataError
  split
  · rename_i list heq
    rw [heq]
    constructor
    · intro h ms hms
      obtain rfl := Metadata.each.inj hms
      by_contra hne
      rw [if_neg hne] at h
      cases h
    · intro h
      rw [if_pos (h list rfl)]
  · rename_i hne
    exact ⟨fun _ ms hms => absurd hms (hne ms), fun _ => rfl⟩

end TrackData

/-! ### The frames of a bundle -/

namespace MediaBundle

variable {bundle : MediaBundle P S M} {n i : ℕ}

def Keyed (bundle : MediaBundle P S M) : Prop := ∀ entry ∈ bundle.tracks, entry.1 = entry.2.name

structure SplitInto (bundle : MediaBundle P S M) (frames : List (MediaBundle P S M)) : Prop where
  count : bundle.frameCount = .ok frames.length
  keys : ∀ frame ∈ frames, ∀ name,
    name ∈ frame.tracks.map Prod.fst ↔ name ∈ bundle.tracks.map Prod.fst
  tracks : ∀ entry ∈ bundle.tracks, ∃ ts, frames.map (·.getTrack entry.1) = ts.map some ∧
    entry.2.SplitInto ts

theorem map_name_getTracks (h : bundle.Keyed) :
    bundle.getTracks.map (·.name) = bundle.tracks.map Prod.fst := by
  rw [getTracks, List.map_map]
  exact List.map_congr_left fun entry hentry => (h entry hentry).symm

def ordered (bundle : MediaBundle P S M) : List (TrackData P S M) :=
  bundle.getTracksByKind .video ++ bundle.getTracksByKind .audio

theorem perm_ordered : bundle.ordered.Perm bundle.getTracks := by
  have haudio : bundle.getTracksByKind .audio =
      bundle.getTracks.filter fun t => !decide (t.data.kind = .video) := by
    refine List.filter_congr fun t _ => ?_
    cases t.data.kind <;> rfl
  rw [ordered, haudio]
  exact List.filter_append_perm _ _

theorem nodup_ordered (h : bundle.Keyed) : (bundle.ordered.map (·.name)).Nodup := by
  rw [(perm_ordered.map _).nodup_iff, map_name_getTracks h]
  exact bundle.nodup

theorem splits_eq (h : bundle.Keyed) (kind : TrackKind) :
    bundle.splits kind n =
      (bundle.getTracksByKind kind).map fun t => (t.name, t.data.split n) := by
  refine Dict.ofPairs_of_nodup ?_
  rw [List.map_map]
  have hnodup : (bundle.getTracks.map (·.name)).Nodup := by
    rw [map_name_getTracks h]
    exact bundle.nodup
  exact hnodup.sublist (List.filter_sublist.map _)

theorem frame_tracks (h : bundle.Keyed) (hfits : ∀ t ∈ bundle.getTracks, t.Fits n) (hi : i < n) :
    (bundle.frame n i).tracks = bundle.ordered.map fun t => (t.name, t.pieceAt n i) := by
  have hname : ((bundle.getTracks.map fun t => (t.name, t)).map Prod.fst).Nodup := by
    rw [List.map_map]
    exact (map_name_getTracks h).symm ▸ bundle.nodup
  have hsplits : bundle.splits .video n ++ bundle.splits .audio n =
      bundle.ordered.map fun t => (t.name, t.data.split n) := by
    rw [splits_eq h, splits_eq h, ordered, List.map_append]
  have hmap : (bundle.ordered.map fun t => (t.name, t.data.split n)).filterMap (fun split =>
      ((Dict.ofPairs (bundle.getTracks.map fun t => (t.name, t))).lookup split.1).bind fun source =>
        (split.2[i]?).map fun data =>
          (split.1, { name := source.name, data, metadata := source.frameMetadata i })) =
      bundle.ordered.map fun t => (t.name, t.pieceAt n i) := by
    rw [List.filterMap_map]
    refine (List.filterMap_congr fun t ht => ?_).trans
      (congrFun (List.filterMap_eq_map (f := fun t => (t.name, t.pieceAt n i))) bundle.ordered)
    have ht' : t ∈ bundle.getTracks := perm_ordered.mem_iff.mp ht
    have hlookup : (Dict.ofPairs (bundle.getTracks.map fun t => (t.name, t))).lookup t.name =
        some t := by
      rw [Dict.ofPairs_of_nodup hname]
      exact Dict.lookup_of_mem hname (List.mem_map_of_mem ht')
    simp only [Function.comp_apply, hlookup, Option.bind_some,
      TrackData.getElem?_split (hfits t ht') hi, Option.map_some]
    rfl
  have hpairs : ((bundle.ordered.map fun t => (t.name, t.pieceAt n i)).map Prod.fst).Nodup := by
    rw [List.map_map]
    exact nodup_ordered h
  unfold frame ofPairs
  dsimp only
  rw [hsplits, hmap, Dict.ofPairs_of_nodup hpairs]

theorem frameCount_eq (hsizes : ∀ track ∈ bundle.batched, track.2 = n) (hne : bundle.batched ≠ []) :
    bundle.frameCount = .ok n := by
  have hmem : ∀ size ∈ (bundle.batched.map Prod.snd).dedup, size = n := by
    intro size hsize
    obtain ⟨track, htrack, rfl⟩ := List.mem_map.mp (List.mem_dedup.mp hsize)
    exact hsizes track htrack
  have hcounts : (bundle.batched.map Prod.snd).dedup = [n] := by
    have hnodup := List.nodup_dedup (bundle.batched.map Prod.snd)
    revert hmem hnodup
    cases hdedup : (bundle.batched.map Prod.snd).dedup with
    | nil =>
      rw [List.dedup_eq_nil, List.map_eq_nil_iff] at hdedup
      exact absurd hdedup hne
    | cons size sizes =>
      intro hmem hnodup
      obtain rfl := hmem size List.mem_cons_self
      cases sizes with
      | nil => rfl
      | cons next sizes =>
        obtain rfl := hmem next (List.mem_cons_of_mem _ List.mem_cons_self)
        exact absurd List.mem_cons_self (List.nodup_cons.mp hnodup).1
  unfold frameCount
  rw [hcounts]

theorem splitInto_frames (h : bundle.Keyed) (hfits : ∀ t ∈ bundle.getTracks, t.Fits n)
    (hcount : bundle.frameCount = .ok n) (hn : 0 < n ∨ bundle.getTracksByKind .audio = []) :
    bundle.SplitInto ((List.range n).map (bundle.frame n)) := by
  refine ⟨?_, ?_, ?_⟩
  · rw [List.length_map, List.length_range]
    exact hcount
  · intro frame hframe name
    obtain ⟨i, hi, rfl⟩ := List.mem_map.mp hframe
    rw [frame_tracks h hfits (List.mem_range.mp hi), List.map_map, ← map_name_getTracks h]
    exact (perm_ordered.map (·.name)).mem_iff
  · intro entry hentry
    have ht : entry.2 ∈ bundle.getTracks := List.mem_map_of_mem hentry
    have hpos : 0 < n ∨ entry.2.isAudio = false := by
      refine hn.imp_right fun hnone => ?_
      by_contra haudio
      have hmem : entry.2 ∈ bundle.getTracksByKind .audio :=
        List.mem_filter.mpr ⟨ht, by simpa [TrackData.isAudio] using haudio⟩
      rw [hnone] at hmem
      cases hmem
    refine ⟨(List.range n).map (entry.2.pieceAt n), ?_,
      TrackData.splitInto_pieceAt (hfits entry.2 ht) hpos⟩
    rw [List.map_map, List.map_map]
    refine List.map_congr_left fun i hi => ?_
    have htracks := frame_tracks h hfits (List.mem_range.mp hi)
    have hmem : (entry.1, entry.2.pieceAt n i) ∈ (bundle.frame n i).tracks := by
      rw [htracks, h entry hentry]
      exact List.mem_map.mpr ⟨entry.2, perm_ordered.mem_iff.mpr ht, rfl⟩
    exact Dict.lookup_of_mem (bundle.frame n i).nodup hmem

/-! ### What is split, and what is refused -/

/-- Two batched video tracks disagree on the batch size. -/
def Disagree (bundle : MediaBundle P S M) : Prop :=
  ∃ x ∈ bundle.batched, ∃ y ∈ bundle.batched, x.2 ≠ y.2

/-- A metadata list does not have one entry for each frame of a batch. -/
def Uncovered (bundle : MediaBundle P S M) : Prop :=
  ∃ x ∈ bundle.batched, ∃ t ∈ bundle.getTracks, ∃ ms, t.metadata = .each ms ∧ ms.length ≠ x.2

/-- A bundle is refused just where its tracks do not agree, and else split into its frames. -/
structure Splits (bundle : MediaBundle P S M) : Prop where
  raises : (∃ e, bundle.splitBatch = .error e) ↔ bundle.Disagree ∨ bundle.Uncovered
  frames : ∀ frames, bundle.splitBatch = .ok frames → bundle.SplitInto frames

/-- A metadata list that a batch of `n` is refused for. -/
def refused (bundle : MediaBundle P S M) (n : ℕ) : Bool :=
  (bundle.getTracks.findSome? fun t => t.metadataError n).isSome

/-- Where a bundle has no batch it has no metadata list either; and unless a metadata list has the
wrong length, a first batch of one picture has only such beside it, and a first batch of none no
sound, or a batch of some. -/
def splittable (bundle : MediaBundle P S M) : Bool :=
  match bundle.batched with
  | [] => bundle.getTracks.all fun t => !t.listed
  | (_, n) :: rest => bundle.refused n ||
    (n ≠ 1 || rest.all fun track => track.2 = 1) &&
      (n ≠ 0 || (bundle.getTracksByKind .audio).isEmpty || rest.any fun track => track.2 ≠ 0)

theorem mem_batched {t : TrackData P S M} (ht : t ∈ bundle.getTracks) {ps : List P}
    (hdata : t.data = .batch ps) : (t.name, ps.length) ∈ bundle.batched :=
  List.mem_filterMap.mpr ⟨t, ht, TrackData.batchSize_eq_some.mpr ⟨rfl, ps, hdata, rfl⟩⟩

theorem refused_eq_false : bundle.refused n = false ↔
    ∀ t ∈ bundle.getTracks, ∀ ms, t.metadata = .each ms → ms.length = n := by
  unfold refused
  rw [Option.isSome_eq_false_iff, Option.isNone_iff_eq_none, List.findSome?_eq_none_iff]
  exact forall₂_congr fun t _ => TrackData.metadataError_eq_none

theorem fits_of_batched (hrefused : bundle.refused n = false)
    (hsizes : ∀ track ∈ bundle.batched, track.2 = n) : ∀ t ∈ bundle.getTracks, t.Fits n :=
  fun t ht => ⟨fun _ hdata => hsizes _ (mem_batched ht hdata), refused_eq_false.mp hrefused t ht⟩

theorem not_disagree_or_uncovered (hrefused : bundle.refused n = false)
    (hsizes : ∀ track ∈ bundle.batched, track.2 = n) : ¬(bundle.Disagree ∨ bundle.Uncovered) := by
  rintro (⟨x, hx, y, hy, hne⟩ | ⟨x, hx, t, ht, ms, hms, hne⟩)
  · exact hne ((hsizes x hx).trans (hsizes y hy).symm)
  · exact hne ((refused_eq_false.mp hrefused t ht ms hms).trans (hsizes x hx).symm)

theorem splits_of_ok (hrefused : bundle.refused n = false)
    (hsizes : ∀ track ∈ bundle.batched, track.2 = n) {frames : List (MediaBundle P S M)}
    (hok : bundle.splitBatch = .ok frames) (hsplit : bundle.SplitInto frames) : bundle.Splits where
  raises := by
    rw [hok]
    constructor
    · rintro ⟨e, ⟨⟩⟩
    · intro h
      exact absurd h (not_disagree_or_uncovered hrefused hsizes)
  frames frames' hframes := by
    obtain rfl := Except.ok.inj (hok.symm.trans hframes)
    exact hsplit

theorem splits_of_error {e : SplitError} (herror : bundle.splitBatch = .error e) :
    bundle.Splits ↔ bundle.Disagree ∨ bundle.Uncovered := by
  constructor
  · intro h
    exact h.raises.mp ⟨e, herror⟩
  · intro h
    refine ⟨⟨fun _ => h, fun _ => ⟨e, herror⟩⟩, fun frames hframes => ?_⟩
    rw [herror] at hframes
    cases hframes

theorem splits_iff_of_unbatched (hbatched : bundle.batched = []) :
    bundle.Splits ↔ ∀ t ∈ bundle.getTracks, t.listed = false := by
  have hok : bundle.splitBatch = .ok [bundle] := by
    unfold splitBatch
    rw [hbatched]
  have hlookup : ∀ entry ∈ bundle.tracks, bundle.getTrack entry.1 = some entry.2 :=
    fun entry hentry => Dict.lookup_of_mem bundle.nodup hentry
  constructor
  · intro h t ht
    obtain ⟨entry, hentry, rfl⟩ := List.mem_map.mp ht
    obtain ⟨ts, hts, hsplit⟩ := (h.frames _ hok).tracks entry hentry
    rw [List.map_cons, List.map_nil, hlookup entry hentry] at hts
    have hself : ts = [entry.2] := by
      have hmap : ts.map some = [entry.2].map some := hts.symm
      exact List.map_injective_iff.mpr (fun _ _ h => Option.some.inj h) hmap
    exact TrackData.listed_eq_false.mpr
      (hsplit.single entry.2 (hself ▸ List.mem_cons_self)).2
  · intro h
    refine ⟨?_, ?_⟩
    · rw [hok]
      constructor
      · rintro ⟨e, ⟨⟩⟩
      · rintro (⟨x, hx, -⟩ | ⟨x, hx, -⟩)
        · rw [hbatched] at hx
          cases hx
        · rw [hbatched] at hx
          cases hx
    · intro frames hframes
      obtain rfl := Except.ok.inj (hok.symm.trans hframes)
      refine ⟨?_, ?_, ?_⟩
      · unfold frameCount
        rw [hbatched]
        rfl
      · intro frame hframe name
        obtain rfl := List.mem_singleton.mp hframe
        exact Iff.rfl
      · intro entry hentry
        have ht : entry.2 ∈ bundle.getTracks := List.mem_map_of_mem hentry
        refine ⟨[entry.2], ?_, TrackData.splitInto_self ?_
          (TrackData.listed_eq_false.mp (h entry.2 ht))⟩
        · rw [List.map_cons, List.map_nil, hlookup entry hentry]
          rfl
        · intro ps hps
          have hmem := mem_batched ht hps
          rw [hbatched] at hmem
          cases hmem

theorem splitInto_squeeze (h : ∀ t ∈ bundle.getTracks, t.Fits 1)
    (hcount : bundle.frameCount = .ok 1)
    (hnodup : ((bundle.tracks.map fun entry => (entry.1, entry.2.squeeze)).map Prod.fst).Nodup) :
    bundle.SplitInto [⟨bundle.tracks.map fun entry => (entry.1, entry.2.squeeze), hnodup⟩] := by
  refine ⟨hcount, ?_, ?_⟩
  · intro frame hframe name
    obtain rfl := List.mem_singleton.mp hframe
    rw [List.map_map]
    exact Iff.rfl
  · intro entry hentry
    refine ⟨[entry.2.squeeze], ?_,
      TrackData.splitInto_squeeze (h entry.2 (List.mem_map_of_mem hentry))⟩
    rw [List.map_cons, List.map_nil]
    refine congrArg (fun track => [track]) (Dict.lookup_of_mem hnodup ?_)
    exact List.mem_map.mpr ⟨entry, hentry, rfl⟩

/-- A bundle whose keys are the names of its tracks is split as it should just where it is
splittable. -/
theorem splits_iff (bundle : MediaBundle P S M) (h : bundle.Keyed) :
    bundle.Splits ↔ bundle.splittable = true := by
  unfold splittable
  cases hbatched : bundle.batched with
  | nil =>
    rw [splits_iff_of_unbatched hbatched]
    simp
  | cons head rest =>
    obtain ⟨first, n⟩ := head
    dsimp only
    have hne : bundle.batched ≠ [] := by simp [hbatched]
    have hmem : (first, n) ∈ bundle.batched := hbatched ▸ List.mem_cons_self
    by_cases hrefused : bundle.refused n = true
    · -- A metadata list of the wrong length is what the code looks at first.
      obtain ⟨e, he⟩ := Option.isSome_iff_exists.mp hrefused
      have herror : bundle.splitBatch = .error e := by
        unfold splitBatch
        rw [hbatched]
        dsimp only
        rw [he]
      rw [splits_of_error herror, hrefused, Bool.true_or]
      refine iff_of_true (.inr ?_) rfl
      obtain ⟨t, ht, hmetadata⟩ := List.exists_of_findSome?_eq_some he
      refine ⟨_, hmem, t, ht, ?_⟩
      by_contra hnone
      have hcovered : t.metadataError n = none := TrackData.metadataError_eq_none.mpr fun ms hms =>
        not_not.mp fun hlength => hnone ⟨ms, hms, hlength⟩
      rw [hcovered] at hmetadata
      cases hmetadata
    have hrefused : bundle.refused n = false := by simpa using hrefused
    have hnone : (bundle.getTracks.findSome? fun t => t.metadataError n) = none := by
      simpa [refused] using hrefused
    rw [hrefused, Bool.false_or]
    by_cases hall : ∀ track ∈ bundle.batched, track.2 = n
    · have hfits := fits_of_batched hrefused hall
      have hcount := frameCount_eq hall hne
      have hrest : ∀ track ∈ rest, track.2 = n := fun track htrack =>
        hall track (hbatched ▸ List.mem_cons_of_mem _ htrack)
      by_cases hone : n = 1
      · subst hone
        have hok : ∃ hnodup, bundle.splitBatch =
            .ok [⟨bundle.tracks.map fun entry => (entry.1, entry.2.squeeze), hnodup⟩] := by
          refine ⟨?_, ?_⟩
          · rw [List.map_map]
            exact bundle.nodup
          · unfold splitBatch
            rw [hbatched]
            dsimp only
            rw [hnone]
            rfl
        obtain ⟨hnodup, hok⟩ := hok
        have hsplits := splits_of_ok hrefused hall hok (splitInto_squeeze hfits hcount hnodup)
        refine iff_of_true hsplits ?_
        simpa using fun name size htrack => hrest (name, size) htrack
      have hfind : (((first, n) :: rest).find? fun track => track.2 ≠ n) = none :=
        List.find?_eq_none.mpr fun track htrack => by simpa using hall track (hbatched ▸ htrack)
      by_cases hempty : n = 0 ∧ bundle.getTracksByKind .audio ≠ []
      · -- `array_split` refuses to make no sections, which nothing has asked for.
        have herror : bundle.splitBatch = .error .noSections := by
          unfold splitBatch
          rw [hbatched]
          dsimp only
          rw [hnone]
          dsimp only
          rw [if_neg hone, hfind]
          exact if_pos hempty
        rw [splits_of_error herror]
        refine iff_of_false (not_disagree_or_uncovered hrefused hall) ?_
        obtain ⟨rfl, haudio⟩ := hempty
        simpa [haudio] using fun name size htrack => hrest (name, size) htrack
      · have hok : bundle.splitBatch = .ok ((List.range n).map (bundle.frame n)) := by
          unfold splitBatch
          rw [hbatched]
          dsimp only
          rw [hnone]
          dsimp only
          rw [if_neg hone, hfind]
          exact if_neg hempty
        have hpos : 0 < n ∨ bundle.getTracksByKind .audio = [] := by
          by_cases hzero : n = 0
          · exact .inr (not_not.mp fun hne => hempty ⟨hzero, hne⟩)
          · exact .inl (Nat.pos_of_ne_zero hzero)
        refine iff_of_true (splits_of_ok hrefused hall hok (splitInto_frames h hfits hcount hpos)) ?_
        rcases hpos with hpos | haudio
        · simp [hone, Nat.ne_of_gt hpos]
        · simp [hone, haudio]
    · -- Some batch has another size than the first.
      obtain ⟨track, htrack, hsize⟩ : ∃ track ∈ bundle.batched, track.2 ≠ n := by
        simpa only [not_forall, exists_prop] using hall
      have hdisagree : bundle.Disagree := ⟨track, htrack, _, hmem, hsize⟩
      have hrest : track ∈ rest := by
        rw [hbatched] at htrack
        exact (List.mem_cons.mp htrack).resolve_left fun heq => hsize (congrArg Prod.snd heq)
      by_cases hone : n = 1
      · subst hone
        -- The squeeze comes before the sizes are compared.
        have hok : bundle.splitBatch.toOption.isSome = true := by
          unfold splitBatch
          rw [hbatched]
          dsimp only
          rw [hnone]
          rfl
        refine iff_of_false ?_ ?_
        · intro hsplits
          obtain ⟨e, he⟩ := hsplits.raises.mpr (.inl hdisagree)
          rw [he] at hok
          cases hok
        · simpa using ⟨track.1, track.2, hrest, hsize⟩
      · have herror : ∃ e, bundle.splitBatch = .error e := by
          cases hfind : ((first, n) :: rest).find? fun track => track.2 ≠ n with
          | none =>
            have hequal := List.find?_eq_none.mp hfind track (hbatched ▸ htrack)
            exact absurd hsize (by simpa using hequal)
          | some other =>
            refine ⟨.batchSize other.1 other.2 n first, ?_⟩
            unfold splitBatch
            rw [hbatched]
            dsimp only
            rw [hnone]
            dsimp only
            rw [if_neg hone, hfind]
        obtain ⟨e, herror⟩ := herror
        rw [splits_of_error herror]
        refine iff_of_true (.inl hdisagree) ?_
        by_cases hzero : n = 0
        · subst hzero
          simpa using .inr ⟨track.1, track.2, hrest, hsize⟩
        · simp [hone, hzero]

/-- Two pictures with metadata for each, and their sound. -/
def pairBundle : MediaBundle ℕ ℕ ℕ :=
  ⟨[("main", { name := "main", data := .batch [1, 2], metadata := .each [7, 8] }),
    ("voice", { name := "voice", data := .flat [3, 4, 5] })], by decide⟩

theorem splits_iff_pairBundle : pairBundle.Splits :=
  (splits_iff pairBundle (by unfold Keyed; decide)).mpr (by decide)

/-- A batch of one picture beside one of three. -/
def oneFirst : MediaBundle ℕ ℕ ℕ :=
  ⟨[("a", { name := "a", data := .batch [1] }), ("b", { name := "b", data := .batch [1, 2, 3] })],
    by decide⟩

/-- A batch of none, with sound. -/
def noFrames : MediaBundle ℕ ℕ ℕ :=
  ⟨[("a", { name := "a", data := .batch [] }), ("b", { name := "b", data := .mono [1] })],
    by decide⟩

def listedPicture : MediaBundle ℕ ℕ ℕ :=
  ⟨[("a", { name := "a", data := .picture 1, metadata := .each [7] })], by decide⟩

/-- Batches that disagree are squeezed, a batch of none is refused, and a metadata list is not
distributed. -/
theorem not_splits : ¬oneFirst.Splits ∧ ¬noFrames.Splits ∧ ¬listedPicture.Splits := by
  refine ⟨fun h => ?_, fun h => ?_, fun h => ?_⟩
  · obtain ⟨e, he⟩ := h.raises.mpr (.inl ⟨("a", 1), by decide, ("b", 3), by decide, by decide⟩)
    have hok : oneFirst.splitBatch.toOption.isSome = true := by decide
    rw [he] at hok
    cases hok
  · have herror : noFrames.splitBatch = .error .noSections := by decide
    rcases h.raises.mp ⟨_, herror⟩ with ⟨x, hx, y, hy, hne⟩ | ⟨x, hx, t, ht, ms, hms, -⟩
    · have hbatched : noFrames.batched = [("a", 0)] := by decide
      rw [hbatched] at hx hy
      rw [List.mem_singleton.mp hx, List.mem_singleton.mp hy] at hne
      exact hne rfl
    · have hall : ∀ t ∈ noFrames.getTracks, t.metadata = .none := by decide
      rw [hall t ht] at hms
      cases hms
  · have hok : listedPicture.splitBatch = .ok [listedPicture] := by decide
    obtain ⟨ts, hts, hsplit⟩ := (h.frames _ hok).tracks _ List.mem_cons_self
    have hself : ts = [{ name := "a", data := .picture 1, metadata := .each [7] }] := by
      have hmap : ts.map some =
          [{ name := "a", data := .picture 1, metadata := .each [7] }].map some := hts.symm
      exact List.map_injective_iff.mpr (fun _ _ h => Option.some.inj h) hmap
    exact (hsplit.single _ (hself ▸ List.mem_cons_self)).2 [7] rfl

end MediaBundle

end ReactorRuntime.Core
