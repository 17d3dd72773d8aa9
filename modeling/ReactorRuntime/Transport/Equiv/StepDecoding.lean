import ReactorRuntime.Lists.Pointwise
import ReactorRuntime.Transport.Equiv.StepFrames
import ReactorRuntime.Transport.StepDecoding
import Mathlib.Data.List.Perm.Subperm
import Mathlib.Data.List.Range

/-!
# Each encoded frame and its picture

An entry is settled by its own check and its own stream (`Settled`), and the phases of a decode come
to the first entry, in request order, that is settled with a refusal, or else to all of their
pictures (`collect_spec`).  An entry is refused exactly for a fault (`Fault`), and its pictures are
those of its own frames.
-/

namespace ReactorRuntime.Transport

open ReactorRuntime.Lists ReactorRuntime.Protocol

variable {videoInputs : List String} {codec : Codec} {decoders : Decoders}

/-! ### Access units -/

/-- NAL units that are one access unit: what precedes its first slice, the slice, of a type, and
what may follow, which begins no other picture and no other access unit. -/
def OneAccessUnit (units : List (List UInt8)) (firstVcl : UInt8) : Prop :=
  ∃ before slice after, units = before ++ slice :: after ∧
    (∀ unit ∈ before, nalType unit ∉ vclNals) ∧
    nalType slice = firstVcl ∧ firstVcl ∈ vclNals ∧
    ∀ unit ∈ after, (nalType unit ∈ vclNals → startsPicture unit = false) ∧
      nalType unit ∉ accessUnitStartNals

theorem notMem_accessUnitStartNals {kind : UInt8} (hkind : kind ∈ vclNals) :
    kind ∉ accessUnitStartNals := by
  simp only [vclNals, List.mem_cons, List.not_mem_nil, or_false] at hkind
  rcases hkind with rfl | rfl | rfl | rfl | rfl <;> decide

/-- Once there was a slice, the type of it is read off, if nothing else begins. -/
theorem accessUnitFrom_some {firstVcl kind : UInt8} {units : List (List UInt8)} :
    accessUnitFrom (some firstVcl) units = .ok kind ↔ kind = firstVcl ∧
      ∀ unit ∈ units, (nalType unit ∈ vclNals → startsPicture unit = false) ∧
        nalType unit ∉ accessUnitStartNals := by
  induction units with
  | nil =>
    constructor
    · intro h
      cases h
      exact ⟨rfl, fun unit hunit => by cases hunit⟩
    · rintro ⟨rfl, -⟩
      rfl
  | cons unit units ih =>
    rw [accessUnitFrom, List.forall_mem_cons]
    by_cases hvcl : nalType unit ∈ vclNals
    · rw [if_pos hvcl]
      by_cases hstarts : startsPicture unit = true
      · rw [if_pos (by rw [hstarts]; rfl)]
        constructor
        · intro h
          cases h
        · rintro ⟨-, ⟨hfalse, -⟩, -⟩
          rw [hfalse hvcl] at hstarts
          cases hstarts
      · rw [if_neg (by simpa using hstarts), Option.some_or, ih]
        have hcontinues : startsPicture unit = false := by simpa using hstarts
        exact ⟨fun h => ⟨h.1, ⟨fun _ => hcontinues, notMem_accessUnitStartNals hvcl⟩, h.2⟩,
          fun h => ⟨h.1, h.2.2⟩⟩
    · rw [if_neg hvcl]
      by_cases hstart : nalType unit ∈ accessUnitStartNals
      · rw [if_pos (by simpa using hstart)]
        constructor
        · intro h
          cases h
        · rintro ⟨-, ⟨-, hnot⟩, -⟩
          exact absurd hstart hnot
      · rw [if_neg (by simpa using hstart), ih]
        exact ⟨fun h => ⟨h.1, ⟨fun h => absurd h hvcl, hstart⟩, h.2⟩, fun h => ⟨h.1, h.2.2⟩⟩

theorem accessUnit_eq_ok_iff {data : List UInt8} {kind : UInt8} :
    accessUnit data = .ok kind ↔ OneAccessUnit (nalUnits data) kind := by
  rw [accessUnit]
  induction nalUnits data with
  | nil =>
    constructor
    · intro h
      cases h
    · rintro ⟨before, slice, after, hunits, -⟩
      exact absurd hunits.symm (by simp)
  | cons unit units ih =>
    rw [accessUnitFrom]
    by_cases hvcl : nalType unit ∈ vclNals
    · rw [if_pos hvcl, if_neg (by simp), Option.none_or, accessUnitFrom_some]
      constructor
      · rintro ⟨rfl, hafter⟩
        exact ⟨[], unit, units, rfl, List.forall_mem_nil _, rfl, hvcl, hafter⟩
      · rintro ⟨before, slice, after, hunits, hbefore, hslice, -, hafter⟩
        cases before with
        | nil =>
          cases hunits
          exact ⟨hslice.symm, hafter⟩
        | cons first before =>
          cases hunits
          exact absurd hvcl (hbefore unit List.mem_cons_self)
    · rw [if_neg hvcl, if_neg (by simp), ih]
      constructor
      · rintro ⟨before, slice, after, rfl, hbefore, hrest⟩
        refine ⟨unit :: before, slice, after, rfl, ?_, hrest⟩
        exact List.forall_mem_cons.mpr ⟨hvcl, hbefore⟩
      · rintro ⟨before, slice, after, hunits, hbefore, hslice, hkind, hafter⟩
        cases before with
        | nil =>
          cases hunits
          rw [hslice] at hvcl
          exact absurd hkind hvcl
        | cons first before =>
          cases hunits
          exact ⟨before, slice, after, rfl, (List.forall_mem_cons.mp hbefore).2, hslice, hkind,
            hafter⟩

/-! ### The check of an entry -/

def encodedFrames (entry : TrackFrames) : List (Frame × ℕ) :=
  entry.frames.zipIdx.filter fun f => f.1.encoding ∉ passthrough

/-- The bytes of them, which are what its stream is fed. -/
def packets (entry : TrackFrames) : List (List UInt8) := (encodedFrames entry).map fun f => f.1.data

/-- The fault of an entry that is seen before anything decodes. -/
inductive CheckFault (videoInputs : List String) (entry : TrackFrames) : Prop where
  | unknownEncoding (frame : Frame × ℕ) (hframe : frame ∈ encodedFrames entry)
      (hencoding : frame.1.encoding ≠ h264)
  | wrongTrack (hencoded : encodedFrames entry ≠ []) (htrack : entry.track ∉ videoInputs)
  | badAccessUnit (frame : Frame × ℕ) (hframe : frame ∈ encodedFrames entry)
      (hunit : ∀ firstVcl, ¬ OneAccessUnit (nalUnits frame.1.data) firstVcl)
  | missingKeyframe (frame : Frame × ℕ) (firstVcl : UInt8)
      (hframe : (encodedFrames entry).head? = some frame)
      (hunit : OneAccessUnit (nalUnits frame.1.data) firstVcl) (hidr : firstVcl ≠ idrNal)

/-- The entry that a refusal names. -/
def Place.index : Place → ℕ
  | entry index => index
  | frame index _ => index

theorem checkFrame_eq_error {index : ℕ} {first : Bool} {frame : Frame × ℕ} {r : StepFrameRefusal}
    (h : checkFrame index first frame = .error r) : r.entry.index = index ∧
      ((∀ firstVcl, ¬ OneAccessUnit (nalUnits frame.1.data) firstVcl) ∨
        first = true ∧ ∃ firstVcl, OneAccessUnit (nalUnits frame.1.data) firstVcl ∧
          firstVcl ≠ idrNal) := by
  rw [checkFrame] at h
  by_cases hempty : frame.1.data.isEmpty = true
  · rw [if_pos hempty] at h
    cases h
    refine ⟨rfl, .inl ?_⟩
    rintro firstVcl hunit
    have hok := accessUnit_eq_ok_iff.mpr hunit
    rw [List.isEmpty_iff.mp hempty] at hok
    cases hok
  · rw [if_neg hempty] at h
    cases hunit : accessUnit frame.1.data with
    | error problem =>
      rw [hunit] at h
      cases h
      refine ⟨rfl, .inl fun firstVcl hone => ?_⟩
      rw [accessUnit_eq_ok_iff.mpr hone] at hunit
      cases hunit
    | ok firstVcl =>
      rw [hunit] at h
      by_cases hfirst : (first && decide (firstVcl ≠ idrNal)) = true
      · simp only [hfirst, if_true] at h
        cases h
        rw [Bool.and_eq_true, decide_eq_true_eq] at hfirst
        exact ⟨rfl, .inr ⟨hfirst.1, firstVcl, accessUnit_eq_ok_iff.mp hunit, hfirst.2⟩⟩
      · simp only [hfirst, if_false, reduceCtorEq] at h

theorem checkFrame_eq_ok {index : ℕ} {first : Bool} {frame : Frame × ℕ}
    (h : checkFrame index first frame = .ok ()) :
    ∃ firstVcl, OneAccessUnit (nalUnits frame.1.data) firstVcl ∧
      (first = true → firstVcl = idrNal) := by
  rw [checkFrame] at h
  by_cases hempty : frame.1.data.isEmpty = true
  · rw [if_pos hempty] at h
    cases h
  · rw [if_neg hempty] at h
    cases hunit : accessUnit frame.1.data with
    | error problem =>
      rw [hunit] at h
      cases h
    | ok firstVcl =>
      rw [hunit] at h
      refine ⟨firstVcl, accessUnit_eq_ok_iff.mp hunit, fun hfirst => ?_⟩
      by_cases hidr : firstVcl = idrNal
      · exact hidr
      · simp [hfirst, hidr] at h

/-- The frames of an entry that are not refused are access units, the first of which begins with an
IDR slice. -/
structure Decodable (frames : List (Frame × ℕ)) : Prop where
  one : ∀ frame ∈ frames, ∃ firstVcl, OneAccessUnit (nalUnits frame.1.data) firstVcl
  idr : ∀ frame, frames.head? = some frame → OneAccessUnit (nalUnits frame.1.data) idrNal

theorem checkFrames_spec (index : ℕ) (frames : List (Frame × ℕ)) :
    (∀ r, checkFrames index frames = .error r → r.entry.index = index ∧
      ((∃ frame ∈ frames, ∀ firstVcl, ¬ OneAccessUnit (nalUnits frame.1.data) firstVcl) ∨
        ∃ frame firstVcl, frames.head? = some frame ∧
          OneAccessUnit (nalUnits frame.1.data) firstVcl ∧ firstVcl ≠ idrNal)) ∧
    (checkFrames index frames = .ok () → Decodable frames) := by
  have hrest (frames : List (Frame × ℕ)) :
      (∀ r, frames.forM (checkFrame index false) = .error r → r.entry.index = index ∧
        ∃ frame ∈ frames, ∀ firstVcl, ¬ OneAccessUnit (nalUnits frame.1.data) firstVcl) ∧
      (frames.forM (checkFrame index false) = .ok () →
        ∀ frame ∈ frames, ∃ firstVcl, OneAccessUnit (nalUnits frame.1.data) firstVcl) := by
    induction frames with
    | nil => exact ⟨fun r h => (by cases h), fun _ => List.forall_mem_nil _⟩
    | cons frame frames ih =>
      cases hframe : checkFrame index false frame with
      | error e =>
        have hforM : (frame :: frames).forM (checkFrame index false) = .error e := by
          show (checkFrame index false frame >>= fun _ => frames.forM _) = _
          rw [hframe]
          rfl
        rw [hforM]
        refine ⟨?_, fun h => (by cases h)⟩
        intro r h
        cases h
        obtain ⟨hindex, hbad | ⟨hfirst, -⟩⟩ := checkFrame_eq_error hframe
        · exact ⟨hindex, frame, List.mem_cons_self, hbad⟩
        · cases hfirst
      | ok u =>
        have hforM : (frame :: frames).forM (checkFrame index false) =
            frames.forM (checkFrame index false) := by
          show (checkFrame index false frame >>= fun _ => frames.forM _) = _
          rw [hframe]
          rfl
        rw [hforM]
        obtain ⟨firstVcl, hone, -⟩ := checkFrame_eq_ok hframe
        refine ⟨?_, ?_⟩
        · intro r h
          obtain ⟨hindex, other, hother, hbad⟩ := ih.1 r h
          exact ⟨hindex, other, List.mem_cons_of_mem frame hother, hbad⟩
        · intro h
          exact List.forall_mem_cons.mpr ⟨⟨firstVcl, hone⟩, ih.2 h⟩
  cases frames with
  | nil =>
    refine ⟨fun r h => (by cases h), fun _ => ⟨List.forall_mem_nil _, ?_⟩⟩
    intro frame hframe
    cases hframe
  | cons frame frames =>
    rw [checkFrames]
    cases hframe : checkFrame index true frame with
    | error e =>
      refine ⟨?_, fun h => (by cases h)⟩
      intro r h
      cases h
      obtain ⟨hindex, hbad | ⟨-, firstVcl, hone, hidr⟩⟩ := checkFrame_eq_error hframe
      · exact ⟨hindex, .inl ⟨frame, List.mem_cons_self, hbad⟩⟩
      · exact ⟨hindex, .inr ⟨frame, firstVcl, rfl, hone, hidr⟩⟩
    | ok u =>
      obtain ⟨firstVcl, hone, hidr⟩ := checkFrame_eq_ok hframe
      refine ⟨?_, ?_⟩
      · intro r h
        obtain ⟨hindex, other, hother, hbad⟩ := (hrest frames).1 r h
        exact ⟨hindex, .inl ⟨other, List.mem_cons_of_mem frame hother, hbad⟩⟩
      · intro h
        refine ⟨List.forall_mem_cons.mpr ⟨⟨firstVcl, hone⟩, (hrest frames).2 h⟩, ?_⟩
        intro other hother
        cases hother
        rw [hidr rfl] at hone
        exact hone

theorem checkEntry_eq_error {index : ℕ} {entry : TrackFrames} {r : StepFrameRefusal}
    (h : checkEntry videoInputs index entry = .error r) :
    r.entry.index = index ∧ CheckFault videoInputs entry := by
  rw [checkEntry] at h
  change (if (encodedFrames entry).isEmpty = true then _ else _) = _ at h
  by_cases hempty : (encodedFrames entry).isEmpty = true
  · rw [if_pos hempty] at h
    cases h
  · rw [if_neg hempty] at h
    have hencoded : encodedFrames entry ≠ [] := fun hnil => hempty (List.isEmpty_iff.mpr hnil)
    cases hunknown : (encodedFrames entry).find? fun f => f.1.encoding ≠ h264 with
    | some frame =>
      rw [← encodedFrames, hunknown] at h
      cases h
      refine ⟨rfl, .unknownEncoding frame (List.mem_of_find?_eq_some hunknown) ?_⟩
      simpa using List.find?_some hunknown
    | none =>
      rw [← encodedFrames, hunknown] at h
      by_cases htrack : entry.track ∉ videoInputs
      · simp only [if_pos htrack] at h
        cases h
        exact ⟨rfl, .wrongTrack hencoded htrack⟩
      · simp only [if_neg htrack] at h
        change (checkFrames index (encodedFrames entry)).map _ = _ at h
        cases hframes : checkFrames index (encodedFrames entry) with
        | ok u =>
          rw [hframes] at h
          cases h
        | error e =>
          rw [hframes] at h
          cases h
          obtain ⟨hindex, hfault⟩ := (checkFrames_spec index (encodedFrames entry)).1 _ hframes
          refine ⟨hindex, ?_⟩
          rcases hfault with ⟨frame, hframe, hbad⟩ | ⟨frame, firstVcl, hhead, hone, hidr⟩
          · exact .badAccessUnit frame hframe hbad
          · exact .missingKeyframe frame firstVcl hhead hone hidr

/-- The stream of an entry that has no fault before anything decodes. -/
structure StreamOf (videoInputs : List String) (index : ℕ) (entry : TrackFrames) (stream : Stream) :
    Prop where
  number : stream.index = index
  source : stream.entry = entry
  frames : stream.frames = encodedFrames entry
  encoded : encodedFrames entry ≠ []
  track : entry.track ∈ videoInputs
  known : ∀ frame ∈ encodedFrames entry, frame.1.encoding = h264
  decodable : Decodable (encodedFrames entry)

theorem checkEntry_eq_ok {index : ℕ} {entry : TrackFrames} {found : Option Stream}
    (h : checkEntry videoInputs index entry = .ok found) :
    (found = none ∧ encodedFrames entry = []) ∨
      ∃ stream, found = some stream ∧ StreamOf videoInputs index entry stream := by
  rw [checkEntry] at h
  change (if (encodedFrames entry).isEmpty = true then _ else _) = _ at h
  by_cases hempty : (encodedFrames entry).isEmpty = true
  · rw [if_pos hempty] at h
    cases h
    exact .inl ⟨rfl, List.isEmpty_iff.mp hempty⟩
  · rw [if_neg hempty] at h
    have hencoded : encodedFrames entry ≠ [] := fun hnil => hempty (List.isEmpty_iff.mpr hnil)
    cases hunknown : (encodedFrames entry).find? fun f => f.1.encoding ≠ h264 with
    | some frame =>
      rw [← encodedFrames, hunknown] at h
      cases h
    | none =>
      rw [← encodedFrames, hunknown] at h
      by_cases htrack : entry.track ∉ videoInputs
      · simp only [if_pos htrack] at h
        cases h
      · simp only [if_neg htrack] at h
        change (checkFrames index (encodedFrames entry)).map _ = _ at h
        cases hframes : checkFrames index (encodedFrames entry) with
        | error e =>
          rw [hframes] at h
          cases h
        | ok u =>
          rw [hframes] at h
          cases h
          refine .inr ⟨_, rfl, rfl, rfl, rfl, hencoded, not_not.mp htrack, ?_,
            (checkFrames_spec index (encodedFrames entry)).2 hframes⟩
          intro frame hframe
          simpa using List.find?_eq_none.mp hunknown frame hframe

theorem not_checkFault_of_nil {entry : TrackFrames} (hnil : encodedFrames entry = []) :
    ¬ CheckFault videoInputs entry := by
  rintro (⟨frame, hframe, -⟩ | ⟨hencoded, -⟩ | ⟨frame, hframe, -⟩ | ⟨frame, firstVcl, hframe, -⟩)
  · rw [hnil] at hframe
    cases hframe
  · exact hencoded hnil
  · rw [hnil] at hframe
    cases hframe
  · rw [hnil] at hframe
    cases hframe

/-- The type of the first slice is one. -/
theorem OneAccessUnit.unique {units : List (List UInt8)} {a b : UInt8}
    (ha : OneAccessUnit units a) (hb : OneAccessUnit units b) : a = b := by
  obtain ⟨before, slice, after, rfl, hbefore, rfl, hvcl, -⟩ := ha
  obtain ⟨before', slice', after', hunits, hbefore', rfl, hvcl', -⟩ := hb
  induction before generalizing before' with
  | nil =>
    cases before' with
    | nil =>
      cases hunits
      rfl
    | cons first before' =>
      cases hunits
      exact absurd hvcl (hbefore' slice List.mem_cons_self)
  | cons first before ih =>
    cases before' with
    | nil =>
      cases hunits
      exact absurd hvcl' (hbefore slice' List.mem_cons_self)
    | cons first' before' =>
      obtain ⟨-, hunits⟩ := List.cons.inj hunits
      exact ih (fun unit hunit => hbefore unit (List.mem_cons_of_mem first hunit)) before' hunits
        (fun unit hunit => hbefore' unit (List.mem_cons_of_mem first' hunit))

theorem StreamOf.not_checkFault {index : ℕ} {entry : TrackFrames} {stream : Stream}
    (hstream : StreamOf videoInputs index entry stream) : ¬ CheckFault videoInputs entry := by
  rintro (⟨frame, hframe, hencoding⟩ | ⟨-, htrack⟩ | ⟨frame, hframe, hbad⟩ |
    ⟨frame, firstVcl, hhead, hone, hidr⟩)
  · exact hencoding (hstream.known frame hframe)
  · exact htrack hstream.track
  · obtain ⟨firstVcl, hone⟩ := hstream.decodable.one frame hframe
    exact hbad firstVcl hone
  · exact hidr (hone.unique (hstream.decodable.idr frame hhead))

/-! ### The pictures of an entry -/

/-- What comes out of a codec carries the number of a packet that was fed. -/
def Codec.Lawful (codec : Codec) : Prop :=
  ∀ decoder packets pictures, codec decoder packets = .ok pictures →
    ∀ picture ∈ pictures, ∀ pts, picture.1 = some pts → pts < packets.length

inductive DecodeFault (codec : Codec) (decoders : Decoders) (entry : TrackFrames) : Prop where
  | doesNotDecode (decoder : TrackDecoder) (error : String) (hencoded : encodedFrames entry ≠ [])
      (hdecoder : decoders.lookup entry.track = some decoder)
      (hdecode : decoder.decode codec (packets entry) = .error error)
  | missingPicture (decoder : TrackDecoder) (decoded : List (ℕ × VideoFrame)) (i : ℕ)
      (hi : i < (encodedFrames entry).length)
      (hdecoder : decoders.lookup entry.track = some decoder)
      (hdecode : decoder.decode codec (packets entry) = .ok decoded)
      (hmissing : decoded.lookup i = none)
  | wrongShape (decoder : TrackDecoder) (decoded : List (ℕ × VideoFrame)) (i : ℕ)
      (frame : Frame × ℕ) (picture : VideoFrame) (hframe : (encodedFrames entry)[i]? = some frame)
      (hdecoder : decoders.lookup entry.track = some decoder)
      (hdecode : decoder.decode codec (packets entry) = .ok decoded)
      (hpicture : decoded.lookup i = some picture) (hdeclared : frame.1.shape ≠ [])
      (hshape : frame.1.shape ≠ [picture.height, picture.width, 3])

def Fault (codec : Codec) (decoders : Decoders) (videoInputs : List String) (entry : TrackFrames) :
    Prop :=
  CheckFault videoInputs entry ∨ DecodeFault codec decoders entry

/-- Numbers below a bound, without repetition, are fewer exactly if one is missing. -/
theorem length_lt_iff {keys : List ℕ} {n : ℕ} (hnodup : keys.Nodup) (hlt : ∀ key ∈ keys, key < n) :
    keys.length < n ↔ ∃ i < n, i ∉ keys := by
  constructor
  · intro hshort
    by_contra hnone
    have hall : List.range n ⊆ keys := by
      intro i hi
      by_contra hmissing
      exact hnone ⟨i, List.mem_range.mp hi, hmissing⟩
    have hle := (List.nodup_range.subperm hall).length_le
    rw [List.length_range] at hle
    omega
  · rintro ⟨i, hi, hmissing⟩
    have hsubset : i :: keys ⊆ List.range n := by
      intro key hkey
      rcases List.mem_cons.mp hkey with rfl | hkey
      · exact List.mem_range.mpr hi
      · exact List.mem_range.mpr (hlt key hkey)
    have hle := ((List.nodup_cons.mpr ⟨hmissing, hnodup⟩).subperm hsubset).length_le
    rw [List.length_range, List.length_cons] at hle
    omega

theorem decode_spec (hcodec : codec.Lawful) {decoder : TrackDecoder} {packets : List (List UInt8)}
    {decoded : List (ℕ × VideoFrame)} (h : decoder.decode codec packets = .ok decoded) :
    (decoded.map Prod.fst).Nodup ∧ (∀ i ∈ decoded.map Prod.fst, i < packets.length) ∧
    ∃ emitted, codec decoder packets = .ok emitted ∧
      ∀ i picture, decoded.lookup i = some picture → (some i, picture) ∈ emitted := by
  rw [TrackDecoder.decode] at h
  cases hemitted : codec decoder packets with
  | error e =>
    rw [hemitted] at h
    cases h
  | ok emitted =>
    rw [hemitted] at h
    cases h
    have hcame (i : ℕ) (picture : VideoFrame) (hpicture : (i, picture) ∈ Dict.ofPairs
        (emitted.filterMap fun picture => picture.1.map fun pts => (pts, picture.2))) :
        (some i, picture) ∈ emitted := by
      obtain ⟨⟨pts, found⟩, hfound, hmap⟩ :=
        List.mem_filterMap.mp (Dict.mem_of_mem_ofPairs hpicture)
      obtain ⟨number, rfl, hpair⟩ := Option.map_eq_some_iff.mp hmap
      cases hpair
      exact hfound
    refine ⟨Dict.nodup_ofPairs _, ?_, emitted, rfl, fun i picture hpicture => ?_⟩
    · intro i hi
      obtain ⟨⟨number, picture⟩, hpicture, rfl⟩ := List.mem_map.mp hi
      exact hcodec decoder packets emitted hemitted _ (hcame number picture hpicture) number rfl
    · exact hcame i picture (Dict.mem_of_lookup hpicture)

theorem picturesFrom_spec (stream : Stream) (decoded : List (ℕ × VideoFrame)) (i : ℕ)
    (frames : List (Frame × ℕ))
    (hall : ∀ f ∈ frames.zipIdx i, (decoded.lookup f.2).isSome) :
    ∃ outcome, picturesFrom stream decoded i frames = some outcome ∧
      (∀ r, outcome = .error r → r.entry.index = stream.index ∧
        ∃ f ∈ frames.zipIdx i, ∃ picture, decoded.lookup f.2 = some picture ∧
          f.1.1.shape ≠ [] ∧ f.1.1.shape ≠ [picture.height, picture.width, 3]) ∧
      ∀ ps, outcome = .ok ps →
        List.Forall₂ (fun (f : (Frame × ℕ) × ℕ) (p : (ℕ × ℕ) × VideoFrame) =>
          p.1 = (stream.index, f.1.2) ∧ decoded.lookup f.2 = some p.2 ∧
          (f.1.1.shape ≠ [] → f.1.1.shape = [p.2.height, p.2.width, 3])) (frames.zipIdx i) ps := by
  induction frames generalizing i with
  | nil => exact ⟨.ok [], rfl, fun r h => (by cases h), fun ps h => (by cases h; exact .nil)⟩
  | cons frame frames ih =>
    rw [List.zipIdx_cons, List.forall_mem_cons] at hall
    obtain ⟨picture, hpicture⟩ := Option.isSome_iff_exists.mp hall.1
    obtain ⟨outcome, hrest, herror, hok⟩ := ih (i + 1) hall.2
    rw [picturesFrom, pictureOf, hpicture, List.zipIdx_cons]
    by_cases hshape : (!frame.1.shape.isEmpty &&
        decide (frame.1.shape ≠ [picture.height, picture.width, 3])) = true
    · refine ⟨.error ⟨.frame stream.index frame.2, .wrongShape [picture.height, picture.width, 3]
        frame.1.shape⟩, ?_, ?_, fun ps h => (by cases h)⟩
      · simp only [Option.map_some, hshape, if_true]
      · intro r h
        cases h
        rw [Bool.and_eq_true, decide_eq_true_eq] at hshape
        refine ⟨rfl, (frame, i), List.mem_cons_self, picture, hpicture, ?_, hshape.2⟩
        intro hempty
        rw [hempty] at hshape
        cases hshape.1
    · refine ⟨outcome.map fun pictures => ((stream.index, frame.2), picture) :: pictures, ?_, ?_,
        ?_⟩
      · simp only [Option.map_some, hshape, if_false, hrest, Bool.false_eq_true]
      · intro r h
        cases outcome with
        | ok ps => cases h
        | error e =>
          cases h
          obtain ⟨hindex, f, hf, hfault⟩ := herror r rfl
          exact ⟨hindex, f, List.mem_cons_of_mem _ hf, hfault⟩
      · intro ps h
        cases outcome with
        | error e => cases h
        | ok rest =>
          cases h
          refine .cons ⟨rfl, hpicture, fun hdeclared => ?_⟩ (hok rest rfl)
          by_contra hne
          refine hshape ?_
          rw [Bool.and_eq_true, decide_eq_true_eq]
          refine ⟨?_, hne⟩
          rw [Bool.not_eq_true', List.isEmpty_eq_false_iff]
          exact hdeclared

/-- The pictures of an entry: that of each of its encoded frames, in order, is the one that the
entry's own stream decodes to for that frame's bytes. -/
def OwnPictures (codec : Codec) (decoders : Decoders) (index : ℕ) (entry : TrackFrames)
    (pictures : Pictures) : Prop :=
  List.Forall₂ (fun (f : (Frame × ℕ) × ℕ) (p : (ℕ × ℕ) × VideoFrame) =>
    p.1 = (index, f.1.2) ∧ ∃ decoder emitted, decoders.lookup entry.track = some decoder ∧
      codec decoder (packets entry) = .ok emitted ∧ (some f.2, p.2) ∈ emitted)
    (encodedFrames entry).zipIdx pictures

theorem picturesOf_spec (hcodec : codec.Lawful) {index : ℕ} {entry : TrackFrames} {stream : Stream}
    (hstream : StreamOf videoInputs index entry stream) {decoder : TrackDecoder}
    (hdecoder : decoders.lookup entry.track = some decoder) :
    ∃ outcome, picturesOf stream (decoder.decode codec (packets entry)) = some outcome ∧
      (∀ r, outcome = .error r → r.entry.index = index ∧ DecodeFault codec decoders entry) ∧
      ∀ ps, outcome = .ok ps →
        ¬ DecodeFault codec decoders entry ∧ OwnPictures codec decoders index entry ps := by
  cases hdecode : decoder.decode codec (packets entry) with
  | error error =>
    refine ⟨_, rfl, ?_, fun ps h => (by cases h)⟩
    intro r h
    cases h
    exact ⟨hstream.number, .doesNotDecode decoder error hstream.encoded hdecoder hdecode⟩
  | ok decoded =>
    obtain ⟨hnodup, hlt, emitted, hemitted, hcame⟩ := decode_spec hcodec hdecode
    have hlength : (packets entry).length = (encodedFrames entry).length := List.length_map _
    rw [hlength] at hlt
    have hmissing := length_lt_iff hnodup hlt
    rw [List.length_map] at hmissing
    have hlookup (i : ℕ) : i ∉ decoded.map Prod.fst ↔ decoded.lookup i = none := by
      constructor
      · intro hnot
        by_contra hne
        obtain ⟨picture, hpicture⟩ := Option.ne_none_iff_exists'.mp hne
        exact hnot (List.mem_map_of_mem (Dict.mem_of_lookup hpicture))
      · intro hnone hmem
        obtain ⟨⟨number, picture⟩, hpicture, rfl⟩ := List.mem_map.mp hmem
        rw [Dict.lookup_of_mem hnodup hpicture] at hnone
        cases hnone
    rw [picturesOf, hstream.frames]
    by_cases hshort : decoded.length < (encodedFrames entry).length
    · -- Some frame decoded to no picture, and the first one is named.
      obtain ⟨i, hi, hnot⟩ := hmissing.mp hshort
      have hfound : ((encodedFrames entry).zipIdx.find? fun f =>
          (decoded.lookup f.2).isNone).isSome := by
        rw [List.find?_isSome]
        refine ⟨((encodedFrames entry)[i], i), ?_, ?_⟩
        · rw [List.mk_mem_zipIdx_iff_getElem?]
          exact List.getElem?_eq_getElem hi
        · rw [(hlookup i).mp hnot]
          rfl
      obtain ⟨missing, hmissing⟩ := Option.isSome_iff_exists.mp hfound
      rw [if_pos hshort, hmissing]
      refine ⟨_, rfl, ?_, fun ps h => (by cases h)⟩
      intro r h
      cases h
      exact ⟨hstream.number, .missingPicture decoder decoded i hi hdecoder hdecode
        ((hlookup i).mp hnot)⟩
    · rw [if_neg hshort]
      have hall : ∀ f ∈ (encodedFrames entry).zipIdx, (decoded.lookup f.2).isSome := by
        rintro ⟨frame, i⟩ hf
        rw [List.mk_mem_zipIdx_iff_getElem?] at hf
        obtain ⟨hi, -⟩ := List.getElem?_eq_some_iff.mp hf
        by_contra hnone
        have hnone := Option.not_isSome_iff_eq_none.mp hnone
        exact hshort (hmissing.mpr ⟨i, hi, (hlookup i).mpr hnone⟩)
      obtain ⟨outcome, houtcome, herror, hok⟩ :=
        picturesFrom_spec stream decoded 0 (encodedFrames entry) hall
      refine ⟨outcome, houtcome, ?_, ?_⟩
      · intro r h
        obtain ⟨hindex, ⟨frame, i⟩, hf, picture, hpicture, hdeclared, hshape⟩ := herror r h
        rw [List.mk_mem_zipIdx_iff_getElem?] at hf
        exact ⟨hindex.trans hstream.number,
          .wrongShape decoder decoded i frame picture hf hdecoder hdecode hpicture hdeclared hshape⟩
      · intro ps h
        have hps := hok ps h
        refine ⟨?_, hps.imp fun f p hp => ?_⟩
        · rintro (⟨other, error, -, hother, hfails⟩ | ⟨other, found, i, hi, hother, hfound, hnone⟩ |
            ⟨other, found, i, frame, picture, hframe, hother, hfound, hpicture, hdeclared, hshape⟩)
          · rw [hdecoder] at hother
            cases hother
            rw [hdecode] at hfails
            cases hfails
          · rw [hdecoder] at hother
            cases hother
            rw [hdecode] at hfound
            cases hfound
            exact hshort (hmissing.mpr ⟨i, hi, (hlookup i).mpr hnone⟩)
          · rw [hdecoder] at hother
            cases hother
            rw [hdecode] at hfound
            cases hfound
            have hmem : (frame, i) ∈ (encodedFrames entry).zipIdx :=
              List.mk_mem_zipIdx_iff_getElem?.mpr hframe
            obtain ⟨p, -, -, hsame, hshaped⟩ := exists_of_mem_left hps hmem
            rw [hpicture] at hsame
            cases hsame
            exact hshape (hshaped hdeclared)
        · obtain ⟨hkey, hpicture, -⟩ := hp
          rw [hstream.number] at hkey
          exact ⟨hkey, decoder, emitted, hdecoder, hemitted, hcame f.2 p.2 hpicture⟩

/-! ### The streams, by track -/

theorem mem_byTrack {stream : Stream} (streams : List Stream) :
    stream ∈ (byTrack streams).flatMap Prod.snd ↔ stream ∈ streams := by
  have hset (groups : List (String × List Stream)) (last : Stream) :
      stream ∈ (Dict.set groups last.entry.track
        ((groups.lookup last.entry.track).getD [] ++ [last])).flatMap Prod.snd ↔
        stream ∈ groups.flatMap Prod.snd ∨ stream = last := by
    induction groups with
    | nil => simp [Dict.set]
    | cons group groups ih =>
      rw [Dict.set, Dict.lookup_cons_if]
      by_cases hkey : last.entry.track = group.1
      · rw [if_pos hkey.symm, if_pos hkey, List.flatMap_cons, List.flatMap_cons, List.mem_append,
          List.mem_append, Option.getD_some, List.mem_append, List.mem_singleton]
        exact or_right_comm
      · rw [if_neg (Ne.symm hkey), if_neg hkey, List.flatMap_cons, List.flatMap_cons,
          List.mem_append, List.mem_append, ih, or_assoc]
  suffices h : ∀ groups : List (String × List Stream),
      stream ∈ (streams.foldl (fun groups stream => Dict.set groups stream.entry.track
        ((groups.lookup stream.entry.track).getD [] ++ [stream])) groups).flatMap Prod.snd ↔
        stream ∈ groups.flatMap Prod.snd ∨ stream ∈ streams by
    rw [byTrack, h, List.flatMap_nil]
    exact or_iff_right List.not_mem_nil
  induction streams with
  | nil => exact fun groups => (or_iff_left List.not_mem_nil).symm
  | cons last streams ih =>
    intro groups
    rw [List.foldl_cons, ih, hset, List.mem_cons, or_assoc]

theorem exists_of_mem_checkEntries {entries : List (TrackFrames × ℕ)} {stream : Stream}
    (h : stream ∈ (checkEntries videoInputs entries).1) :
    ∃ e ∈ entries, checkEntry videoInputs e.2 e.1 = .ok (some stream) := by
  induction entries with
  | nil => cases h
  | cons e entries ih =>
    rw [checkEntries] at h
    cases hcheck : checkEntry videoInputs e.2 e.1 with
    | error r =>
      rw [hcheck] at h
      cases h
    | ok found =>
      rw [hcheck] at h
      cases found with
      | none =>
        obtain ⟨other, hother, hfound⟩ := ih h
        exact ⟨other, List.mem_cons_of_mem e hother, hfound⟩
      | some first =>
        rcases List.mem_cons.mp h with rfl | h
        · exact ⟨e, List.mem_cons_self, hcheck⟩
        · obtain ⟨other, hother, hfound⟩ := ih h
          exact ⟨other, List.mem_cons_of_mem e hother, hfound⟩

theorem exists_lookup_openDecoder {streams : List Stream} {stream : Stream}
    (hstream : stream ∈ streams) :
    ∃ decoder, (streams.foldl openDecoder decoders).lookup stream.entry.track = some decoder := by
  have hopen (decoders : Decoders) (first : Stream) (track : String)
      (hthere : (decoders.lookup track).isSome ∨ track = first.entry.track) :
      ((openDecoder decoders first).lookup track).isSome := by
    rw [openDecoder]
    split_ifs with hsuits
    · rcases hthere with hthere | rfl
      · exact hthere
      · rw [hsuits]
        rfl
    · by_cases htrack : track = first.entry.track
      · rw [htrack, AList.lookup_insert]
        rfl
      · rw [AList.lookup_insert_ne htrack]
        exact hthere.resolve_right htrack
  suffices h : ∀ decoders : Decoders, (decoders.lookup stream.entry.track).isSome ∨
      stream ∈ streams →
      ((streams.foldl openDecoder decoders).lookup stream.entry.track).isSome from
    Option.isSome_iff_exists.mp (h decoders (.inr hstream))
  clear hstream
  induction streams with
  | nil =>
    rintro decoders (h | h)
    · exact h
    · cases h
  | cons first streams ih =>
    rintro decoders h
    refine ih _ ?_
    rcases h with h | h
    · exact .inl (hopen decoders first _ (.inl h))
    · rcases List.mem_cons.mp h with rfl | h
      · exact .inl (hopen decoders stream _ (.inr rfl))
      · exact .inr h

/-- What each stream comes to is found under its number, if no two have the same. -/
theorem decodeGroups_spec (codec : Codec) {streams : List Stream}
    (hopened : ∀ stream ∈ streams, ∃ decoder,
      decoders.lookup stream.entry.track = some decoder)
    (hdistinct : ∀ a ∈ streams, ∀ b ∈ streams, a.index = b.index → a = b) :
    ∃ decoded, decodeGroups codec decoders (byTrack streams) = some decoded ∧
      ∀ stream ∈ streams, ∀ decoder, decoders.lookup stream.entry.track = some decoder →
        decoded.lookup stream.index =
          some (decoder.decode codec (stream.frames.map fun f => f.1.data)) := by
  set result := fun stream : Stream => (stream.index,
    ((decoders.lookup stream.entry.track).map fun decoder =>
      decoder.decode codec (stream.frames.map fun f => f.1.data)).getD (.ok [])) with hresult
  have hstream (stream : Stream) (hmem : stream ∈ streams) :
      decodeStream codec decoders stream = some (result stream) := by
    obtain ⟨decoder, hdecoder⟩ := hopened stream hmem
    simp only [decodeStream, hresult, hdecoder, Option.map_some, Option.getD_some]
  have hgroups : (byTrack streams).mapM (fun group : String × List Stream =>
      group.2.mapM (decodeStream codec decoders)) =
        some ((byTrack streams).map fun group => group.2.map result) := by
    refine mapM_eq_some_map fun group hgroup => mapM_eq_some_map fun stream hmem => ?_
    exact hstream stream ((mem_byTrack streams).mp (List.mem_flatMap.mpr ⟨group, hgroup, hmem⟩))
  have hpairs (pair : ℕ × Decoded) :
      pair ∈ ((byTrack streams).map fun group => group.2.map result).flatten ↔
        ∃ stream ∈ streams, result stream = pair := by
    rw [← List.flatMap_def, ← List.map_flatMap, List.mem_map]
    exact exists_congr fun stream => and_congr_left' (mem_byTrack streams)
  refine ⟨_, by rw [decodeGroups, hgroups]; rfl, ?_⟩
  intro stream hmem decoder hdecoder
  have hvalue : (result stream).2 = decoder.decode codec (stream.frames.map fun f => f.1.data) := by
    rw [hresult]
    show ((decoders.lookup stream.entry.track).map _).getD _ = _
    rw [hdecoder]
    rfl
  rw [← hvalue]
  refine Dict.lookup_ofPairs (fun pair hpair hindex => ?_) ?_
  · obtain ⟨other, hother, rfl⟩ := (hpairs pair).mp hpair
    rw [hdistinct other hother stream hmem hindex]
  · exact List.mem_map.mpr ⟨result stream, (hpairs _).mpr ⟨stream, hmem, rfl⟩, rfl⟩

/-! ### The verdicts, in request order -/

/-- What an entry comes to by itself: it is refused by its check, or carries no encoded frame, or
comes to what its stream decodes to. -/
inductive Settled (codec : Codec) (decoders : Decoders) (videoInputs : List String)
    (e : TrackFrames × ℕ) : Except StepFrameRefusal Pictures → Prop where
  | refused (r : StepFrameRefusal) (hcheck : checkEntry videoInputs e.2 e.1 = .error r) :
      Settled codec decoders videoInputs e (.error r)
  | bare (hcheck : checkEntry videoInputs e.2 e.1 = .ok none) :
      Settled codec decoders videoInputs e (.ok [])
  | decoded (stream : Stream) (decoder : TrackDecoder)
      (outcome : Except StepFrameRefusal Pictures)
      (hcheck : checkEntry videoInputs e.2 e.1 = .ok (some stream))
      (hdecoder : decoders.lookup e.1.track = some decoder)
      (houtcome : picturesOf stream (decoder.decode codec (packets e.1)) = some outcome) :
      Settled codec decoders videoInputs e outcome

theorem Settled.fault (hcodec : codec.Lawful) {e : TrackFrames × ℕ} {r : StepFrameRefusal}
    (h : Settled codec decoders videoInputs e (.error r)) :
    r.entry.index = e.2 ∧ Fault codec decoders videoInputs e.1 := by
  cases h with
  | refused r hcheck =>
    obtain ⟨hindex, hfault⟩ := checkEntry_eq_error hcheck
    exact ⟨hindex, .inl hfault⟩
  | decoded stream decoder outcome hcheck hdecoder houtcome =>
    obtain ⟨hnone, -⟩ | ⟨found, hfound, hstream⟩ := checkEntry_eq_ok hcheck
    · cases hnone
    · cases hfound
      obtain ⟨outcome, hsame, herror, -⟩ := picturesOf_spec hcodec hstream hdecoder
      rw [houtcome] at hsame
      cases hsame
      obtain ⟨hindex, hfault⟩ := herror r rfl
      exact ⟨hindex, .inr hfault⟩

theorem Settled.ownPictures (hcodec : codec.Lawful) {e : TrackFrames × ℕ} {pictures : Pictures}
    (h : Settled codec decoders videoInputs e (.ok pictures)) :
    ¬ Fault codec decoders videoInputs e.1 ∧ OwnPictures codec decoders e.2 e.1 pictures := by
  cases h with
  | bare hcheck =>
    obtain ⟨-, hnil⟩ | ⟨found, hfound, -⟩ := checkEntry_eq_ok hcheck
    · refine ⟨?_, ?_⟩
      · rintro (hfault | hfault)
        · exact not_checkFault_of_nil hnil hfault
        · rcases hfault with ⟨-, -, hencoded, -⟩ | ⟨-, -, i, hi, -⟩ | ⟨-, -, i, frame, -, hframe, -⟩
          · exact hencoded hnil
          · rw [hnil] at hi
            exact Nat.not_lt_zero i hi
          · rw [hnil] at hframe
            cases hframe
      · rw [OwnPictures, hnil]
        exact .nil
    · cases hfound
  | decoded stream decoder outcome hcheck hdecoder houtcome =>
    obtain ⟨hnone, -⟩ | ⟨found, hfound, hstream⟩ := checkEntry_eq_ok hcheck
    · cases hnone
    · cases hfound
      obtain ⟨outcome, hsame, -, hok⟩ := picturesOf_spec hcodec hstream hdecoder
      rw [houtcome] at hsame
      cases hsame
      obtain ⟨hnot, hown⟩ := hok pictures rfl
      refine ⟨?_, hown⟩
      rintro (hfault | hfault)
      · exact hstream.not_checkFault hfault
      · exact hnot hfault

theorem collect_spec (hcodec : codec.Lawful) (decoders : Decoders) {decoded : List (ℕ × Decoded)}
    (entries : List (TrackFrames × ℕ)) (pictures : Pictures)
    (hdecoded : ∀ stream ∈ (checkEntries videoInputs entries).1, ∃ decoder,
      decoders.lookup stream.entry.track = some decoder ∧
      decoded.lookup stream.index =
        some (decoder.decode codec (stream.frames.map fun f => f.1.data))) :
    ∃ outcome, collect decoded (checkEntries videoInputs entries).2
      (checkEntries videoInputs entries).1 pictures = some outcome ∧
      ((∃ results, outcome = .ok (pictures ++ results.flatten) ∧
        List.Forall₂ (fun e ps => Settled codec decoders videoInputs e (.ok ps)) entries results) ∨
      ∃ before e after r, entries = before ++ e :: after ∧ outcome = .error r ∧
        (∀ other ∈ before, ∃ ps, Settled codec decoders videoInputs other (.ok ps)) ∧
        Settled codec decoders videoInputs e (.error r)) := by
  induction entries generalizing pictures with
  | nil => exact ⟨.ok pictures, rfl, .inl ⟨[], by rw [List.flatten_nil, List.append_nil], .nil⟩⟩
  | cons e entries ih =>
    rw [checkEntries] at hdecoded ⊢
    cases hcheck : checkEntry videoInputs e.2 e.1 with
    | error r =>
      exact ⟨.error r, rfl, .inr ⟨[], e, entries, r, rfl, rfl, List.forall_mem_nil _,
        .refused r hcheck⟩⟩
    | ok found =>
      rw [hcheck] at hdecoded
      cases found with
      | none =>
        obtain ⟨outcome, hcollect, hend⟩ := ih pictures hdecoded
        refine ⟨outcome, hcollect, ?_⟩
        rcases hend with ⟨results, hok, hall⟩ | ⟨before, first, after, r, rfl, hr, hbefore, hfirst⟩
        · exact .inl ⟨[] :: results, hok, .cons (.bare hcheck) hall⟩
        · exact .inr ⟨e :: before, first, after, r, rfl, hr,
            List.forall_mem_cons.mpr ⟨⟨[], .bare hcheck⟩, hbefore⟩, hfirst⟩
      | some stream =>
        obtain ⟨hhead, hrest⟩ := List.forall_mem_cons.mp hdecoded
        obtain ⟨decoder, hdecoder, hlookup⟩ := hhead
        obtain ⟨hnone, -⟩ | ⟨other, hother, hstream⟩ := checkEntry_eq_ok hcheck
        · cases hnone
        · cases hother
          rw [hstream.source] at hdecoder
          have hpackets : (stream.frames.map fun f => f.1.data) = packets e.1 := by
            rw [hstream.frames, packets]
          rw [hpackets] at hlookup
          obtain ⟨result, hresult, -⟩ := picturesOf_spec hcodec hstream hdecoder
          have hsettled : Settled codec decoders videoInputs e result :=
            .decoded stream decoder result hcheck hdecoder hresult
          simp only []
          rw [collect, hlookup]
          show ∃ outcome, (picturesOf stream _ >>= _) = some outcome ∧ _
          rw [hresult]
          cases result with
          | error r =>
            exact ⟨.error r, rfl, .inr ⟨[], e, entries, r, rfl, rfl, List.forall_mem_nil _,
              hsettled⟩⟩
          | ok ps =>
            obtain ⟨outcome, hcollect, hend⟩ := ih (pictures ++ ps) hrest
            refine ⟨outcome, hcollect, ?_⟩
            rcases hend with
              ⟨results, hok, hall⟩ | ⟨before, first, after, r, rfl, hr, hbefore, hfirst⟩
            · refine .inl ⟨ps :: results, ?_, .cons hsettled hall⟩
              rw [hok, List.flatten_cons, List.append_assoc]
            · exact .inr ⟨e :: before, first, after, r, rfl, hr,
                List.forall_mem_cons.mpr ⟨⟨ps, hsettled⟩, hbefore⟩, hfirst⟩

/-! ### A request -/

def encodedKeys (entries : List (TrackFrames × ℕ)) : List (ℕ × ℕ) :=
  entries.flatMap fun e => (encodedFrames e.1).map fun f => (e.2, f.2)

theorem mem_encodedKeys {entries : List TrackFrames} {index position : ℕ} :
    (index, position) ∈ encodedKeys entries.zipIdx ↔ ∃ entry frame, entries[index]? = some entry ∧
      entry.frames[position]? = some frame ∧ frame.encoding ∉ passthrough := by
  rw [encodedKeys, List.mem_flatMap]
  constructor
  · rintro ⟨⟨entry, i⟩, he, hkey⟩
    obtain ⟨⟨frame, j⟩, hf, hpair⟩ := List.mem_map.mp hkey
    cases hpair
    obtain ⟨hmem, hencoded⟩ := List.mem_filter.mp hf
    exact ⟨entry, frame, List.mk_mem_zipIdx_iff_getElem?.mp he,
      List.mk_mem_zipIdx_iff_getElem?.mp hmem, of_decide_eq_true hencoded⟩
  · rintro ⟨entry, frame, hentry, hframe, hencoded⟩
    refine ⟨(entry, index), List.mk_mem_zipIdx_iff_getElem?.mpr hentry, List.mem_map.mpr
      ⟨(frame, position), List.mem_filter.mpr ⟨?_, decide_eq_true hencoded⟩, rfl⟩⟩
    exact List.mk_mem_zipIdx_iff_getElem?.mpr hframe

theorem nodup_encodedKeys (entries : List TrackFrames) (n : ℕ) :
    (encodedKeys (entries.zipIdx n)).Nodup := by
  have hle (entries : List TrackFrames) (n : ℕ) (key : ℕ × ℕ)
      (hkey : key ∈ encodedKeys (entries.zipIdx n)) : n ≤ key.1 := by
    obtain ⟨⟨entry, i⟩, he, hmem⟩ := List.mem_flatMap.mp hkey
    obtain ⟨f, -, rfl⟩ := List.mem_map.mp hmem
    exact (List.mem_zipIdx he).1
  induction entries generalizing n with
  | nil => exact List.nodup_nil
  | cons entry entries ih =>
    rw [List.zipIdx_cons, encodedKeys, List.flatMap_cons, List.nodup_append]
    refine ⟨?_, ih (n + 1), ?_⟩
    · have hpositions : ((encodedFrames entry).map Prod.snd).Nodup := by
        refine List.Nodup.sublist (List.filter_sublist.map Prod.snd) ?_
        rw [List.zipIdx_map_snd]
        exact List.nodup_range'
      have hkeys : ((encodedFrames entry).map fun f => (n, f.2)) =
          ((encodedFrames entry).map Prod.snd).map (Prod.mk n) := (List.map_map ..).symm
      rw [hkeys]
      exact hpositions.map (Prod.mk_right_injective n)
    · rintro a ha b hb rfl
      obtain ⟨f, -, rfl⟩ := List.mem_map.mp ha
      have := hle entries (n + 1) _ hb
      exact absurd this (Nat.not_succ_le_self n)

/-- What the pictures of a request are to be: the keys are those of the encoded frames, and each
picture came, for the number of the frame's packet, out of the codec that was fed the packets of the
frame's own entry. -/
structure Matched (codec : Codec) (decoders : Decoders) (step : RequestStep)
    (pictures : Pictures) : Prop where
  keys : ∀ index position, (index, position) ∈ pictures.map Prod.fst ↔ ∃ entry frame,
    step.mediaInput[index]? = some entry ∧ entry.frames[position]? = some frame ∧
    frame.encoding ∉ passthrough
  nodup : (pictures.map Prod.fst).Nodup
  own : ∀ index position picture, ((index, position), picture) ∈ pictures →
    ∃ entry frame i decoder emitted, step.mediaInput[index]? = some entry ∧
      (encodedFrames entry)[i]? = some (frame, position) ∧
      (packets entry)[i]? = some frame.data ∧
      decoders.lookup entry.track = some decoder ∧
      codec decoder (packets entry) = .ok emitted ∧ (some i, picture) ∈ emitted

/-- The number is that of the first entry, in request order, that has a fault. -/
def FirstFault (codec : Codec) (decoders : Decoders) (videoInputs : List String)
    (step : RequestStep) (index : ℕ) : Prop :=
  ∃ entry, step.mediaInput[index]? = some entry ∧ Fault codec decoders videoInputs entry ∧
    ∀ i < index, ∀ other, step.mediaInput[i]? = some other →
      ¬ Fault codec decoders videoInputs other

theorem matched_of_forall₂ {step : RequestStep} {results : List Pictures}
    (hall : List.Forall₂ (fun e ps => OwnPictures codec decoders e.2 e.1 ps)
      step.mediaInput.zipIdx results) : Matched codec decoders step results.flatten := by
  have hkeys : results.flatten.map Prod.fst = encodedKeys step.mediaInput.zipIdx := by
    rw [List.map_flatten, encodedKeys, List.flatMap_def]
    congr 1
    symm
    refine map_eq_map_of_forall₂ (hall.imp fun e ps hps => ?_)
    have hframes : (encodedFrames e.1).map (fun f => (e.2, f.2)) =
        (encodedFrames e.1).zipIdx.map fun f => (e.2, f.1.2) := by
      conv_lhs => rw [← List.zipIdx_map_fst 0 (encodedFrames e.1), List.map_map]
      rfl
    rw [hframes]
    exact map_eq_map_of_forall₂ (hps.imp fun f p hp => hp.1.symm)
  refine ⟨?_, ?_, ?_⟩
  · intro index position
    rw [hkeys]
    exact mem_encodedKeys
  · rw [hkeys]
    exact nodup_encodedKeys step.mediaInput 0
  · intro index position picture hpicture
    obtain ⟨ps, hps, hmem⟩ := List.mem_flatten.mp hpicture
    obtain ⟨⟨entry, n⟩, he, hown⟩ := exists_of_mem_right hall hps
    obtain ⟨⟨⟨frame, j⟩, i⟩, hf, hkey, decoder, emitted, hdecoder, hemitted, hcame⟩ :=
      exists_of_mem_right hown hmem
    cases hkey
    rw [List.mk_mem_zipIdx_iff_getElem?] at he hf
    refine ⟨entry, frame, i, decoder, emitted, he, hf, ?_, hdecoder, hemitted, hcame⟩
    rw [packets, List.getElem?_map, hf]
    rfl

/-- What is decoded are entries whose encoded frames are access units, the first of which begins
with an IDR slice. -/
theorem decodable_of_mem_byTrack {step : RequestStep} {stream : Stream}
    (hstream : stream ∈ (byTrack (streams videoInputs step)).flatMap Prod.snd) :
    step.mediaInput[stream.index]? = some stream.entry ∧
      stream.frames = encodedFrames stream.entry ∧ Decodable (encodedFrames stream.entry) := by
  obtain ⟨⟨entry, index⟩, he, hcheck⟩ :=
    exists_of_mem_checkEntries ((mem_byTrack _).mp hstream)
  obtain ⟨hnone, -⟩ | ⟨found, hfound, hof⟩ := checkEntry_eq_ok hcheck
  · cases hnone
  · cases hfound
    rw [hof.number, hof.source]
    exact ⟨List.mk_mem_zipIdx_iff_getElem?.mp he, hof.frames, hof.decodable⟩

/-- A codec that gives the picture of each packet, the last one first. -/
def reversing : Codec := fun _ packets =>
  .ok (packets.zipIdx.reverse.map fun packet => (some packet.2, ⟨1, packet.1.length, packet.1⟩))

theorem lawful_reversing : reversing.Lawful := by
  intro decoder packets pictures h picture hpicture pts hpts
  cases h
  obtain ⟨⟨packet, i⟩, hmem, rfl⟩ := List.mem_map.mp hpicture
  cases hpts
  have hget := List.mk_mem_zipIdx_iff_getElem?.mp (List.mem_reverse.mp hmem)
  exact (List.getElem?_eq_some_iff.mp hget).1

/-- Two entries of one track: a raw frame and two encoded ones, and an encoded one. -/
def twoEntries : RequestStep where
  state := []
  commands := []
  mediaInput :=
    [{ track := "cam", kind := 0, rate := .zero, frames := [
        { encoding := 1, dtype := "", shape := [], data := [], metadata := none
          captureTimeUs := none },
        { encoding := h264, dtype := "", shape := [], data := [0, 0, 1, 0x65, 0x88]
          metadata := none, captureTimeUs := none },
        { encoding := h264, dtype := "", shape := [], data := [0, 0, 1, 0x41, 0x88]
          metadata := none, captureTimeUs := none }] },
      { track := "cam", kind := 0, rate := .zero, frames := [
        { encoding := h264, dtype := "", shape := [1, 6, 3], data := [0, 0, 1, 0x65, 0x88]
          metadata := none, captureTimeUs := none }] }]

/-- The second entry is refused: its frame is not of the shape it declares. -/
example : (decodeStep reversing ["cam"] twoEntries ∅).map Prod.snd =
    some (.error ⟨.frame 1 0, .wrongShape [1, 5, 3] [1, 6, 3]⟩) := by
  decide +kernel

end ReactorRuntime.Transport
