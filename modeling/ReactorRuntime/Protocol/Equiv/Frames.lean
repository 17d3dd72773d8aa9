import ReactorRuntime.Protocol.Common
import ReactorRuntime.Protocol.Frames

/-!
# What a frame carries across the wire

A raw frame that passes its check is decoded, to the shape that the check returned
(`decodeFrame_of_checkFrame`), and one that does not pass is refused with the same error.  What
`track_frames` makes of a step's media passes the check and is decoded to what was encoded, entry by
entry (`carries_trackFrames`).
-/

namespace ReactorRuntime.Protocol

open ReactorRuntime.Core ReactorRuntime.Interface ReactorRuntime.LiveKit ReactorRuntime.Python

variable {E : Type} {np : Conversion E} {frame : Frame} {kind : TrackKind} {shape : List ℕ}

theorem forall₂_of_mapM {ε α β : Type} {f : α → Except ε β} {l : List α} {l' : List β}
    (h : l.mapM f = .ok l') : List.Forall₂ (fun a b => f a = .ok b) l l' := by
  induction l generalizing l' with
  | nil =>
    cases h
    exact .nil
  | cons a l ih =>
    rw [List.mapM_cons] at h
    obtain ⟨b, hb, h⟩ := bind_eq_ok h
    obtain ⟨bs, hbs, h⟩ := bind_eq_ok h
    cases h
    exact .cons hb (ih hbs)

/-! ### The check and the copy -/

/-- A frame that fits the raw encoding and the kind of the track. -/
structure Fits (frame : Frame) (kind : TrackKind) : Prop where
  dtype : frame.dtype = rawDtype kind
  rank : frame.shape.length = rawRank kind
  nonzero : 0 ∉ frame.shape
  rgb : kind = .video → frame.shape.getD 2 0 = 3
  bytes : frame.data.length = frame.shape.prod * itemSize kind

theorem check_eq_ok_iff :
    RawFrames.check frame kind = .ok shape ↔ Fits frame kind ∧ shape = readShape kind frame.shape := by
  constructor
  · intro h
    unfold RawFrames.check at h
    dsimp only at h
    split_ifs at h with hdtype hdims hrgb hbytes
    rw [not_not] at hdtype hbytes
    rw [not_or, not_not] at hdims
    have hthree : kind = .video → frame.shape.getD 2 0 = 3 := fun hkind =>
      not_not.mp fun hne => hrgb ⟨hkind, hne⟩
    exact ⟨⟨hdtype, hdims.1, hdims.2, hthree, hbytes⟩, (Except.ok.inj h).symm⟩
  · rintro ⟨hfits, rfl⟩
    unfold RawFrames.check
    rw [if_neg (not_not.mpr hfits.dtype),
      if_neg (not_or.mpr ⟨not_not.mpr hfits.rank, hfits.nonzero⟩),
      if_neg fun hvideo => hvideo.2 (hfits.rgb hvideo.1), if_neg (not_not.mpr hfits.bytes)]

theorem Fits.reshape (h : Fits frame kind) :
    RawFrames.reshape frame kind = .ok ⟨frame.shape, frame.data⟩ := by
  have hpos : 0 < itemSize kind := by cases kind <;> decide
  have hcount : frame.data.length / itemSize kind = frame.shape.prod := by
    rw [h.bytes, Nat.mul_div_cancel _ hpos]
  exact if_pos ⟨⟨_, by rw [h.bytes, Nat.mul_comm]⟩, hcount⟩

theorem length_flatMap_sampleBytes (samples : List ℤ) :
    (samples.flatMap sampleBytes).length = samples.length * 2 := by
  induction samples with
  | nil => rfl
  | cons sample samples ih =>
    rw [List.flatMap_cons, List.length_append, ih, List.length_cons]
    show 2 + _ = _
    omega

/-- A frame that fits is decoded: to its own samples, unless it has several channels. -/
theorem Fits.decode (h : Fits frame kind) :
    ∃ f, RawFrames.decode frame kind = .ok f ∧ f.shape = readShape kind frame.shape ∧
      f.data.length = f.shape.prod * itemSize kind ∧
      (kind = .video ∨ frame.shape.getD 0 0 = 1 → f = ⟨frame.shape, frame.data⟩) := by
  have hcheck := check_eq_ok_iff.mpr ⟨h, rfl⟩
  unfold RawFrames.decode
  rw [hcheck, h.reshape]
  by_cases hmix : kind = .audio ∧ 1 < frame.shape.getD 0 0
  · refine ⟨_, if_pos hmix, ?_, ?_, fun hsame => ?_⟩
    · rw [readShape, if_pos hmix.1]
    · rw [length_flatMap_sampleBytes, hmix.1]
      simp [RawFrames.mixdown, itemSize]
    · obtain hvideo | hone := hsame
      · rw [hmix.1] at hvideo
        cases hvideo
      · omega
  · refine ⟨_, if_neg hmix, ?_, h.bytes, fun _ => rfl⟩
    cases kind with
    | video => rfl
    | audio =>
      -- The only channel of a frame that is not mixed down.
      obtain ⟨channels, size, hshape⟩ := List.length_eq_two.mp h.rank
      have hnonzero := h.nonzero
      rw [hshape] at hmix hnonzero ⊢
      have hne : channels ≠ 0 := fun hzero => hnonzero (by rw [hzero]; exact List.mem_cons_self)
      have hone : channels = 1 := by
        have hle : ¬ 1 < channels := fun hlt => hmix ⟨rfl, hlt⟩
        omega
      rw [hone]
      rfl

/-- A frame that passes its check is decoded, with what its sender attached. -/
theorem exists_decodeFrame (h : checkFrame frame kind = .ok shape) :
    ∃ f, decodeFrame frame kind = .ok f ∧ f.shape = shape ∧
      f.data.length = shape.prod * itemSize kind ∧ f.metadata = frame.metadata ∧
      f.captureTimeUs = frame.captureTimeUs := by
  obtain ⟨⟨⟩, hcodec, hraw⟩ := bind_eq_ok h
  obtain ⟨hfits, rfl⟩ := check_eq_ok_iff.mp hraw
  obtain ⟨f, hdecode, hshape, hlength, -⟩ := hfits.decode
  unfold decodeFrame
  rw [hcodec, bind_ok, hdecode]
  exact ⟨decodedFrame frame f, rfl, hshape, hshape ▸ hlength, rfl, rfl⟩

/-- The check on the loop decides: what it accepts is decoded, to the shape that it returned, and
what it refuses is refused for the same reason. -/
theorem decodeFrame_of_checkFrame (frame : Frame) (kind : TrackKind) :
    (∀ shape, checkFrame frame kind = .ok shape → ∃ f, decodeFrame frame kind = .ok f ∧
      f.shape = shape ∧ f.data.length = shape.prod * itemSize kind ∧
      f.metadata = frame.metadata ∧ f.captureTimeUs = frame.captureTimeUs) ∧
    ∀ e, checkFrame frame kind = .error e → decodeFrame frame kind = .error e := by
  refine ⟨fun shape => exists_decodeFrame, fun e hcheck => ?_⟩
  unfold checkFrame at hcheck
  unfold decodeFrame RawFrames.decode
  cases hcodec : codec frame with
  | error e' =>
    rw [hcodec] at hcheck
    cases hcheck
    rfl
  | ok _ =>
    rw [hcodec] at hcheck
    have hraw : RawFrames.check frame kind = .error e := hcheck
    rw [hraw]
    rfl

/-! ### Encoding -/

theorem length_bytes {e : E} {bytes : List UInt8} (h : np.bytes kind e = .ok bytes) :
    bytes.length = itemSize kind := by
  unfold Conversion.bytes at h
  cases kind with
  | video =>
    cases hb : np.uint8 e with
    | error _ =>
      rw [hb] at h
      cases h
    | ok _ =>
      rw [hb] at h
      cases h
      rfl
  | audio =>
    cases hb : np.int16 e with
    | error _ =>
      rw [hb] at h
      cases h
    | ok _ =>
      rw [hb] at h
      cases h
      rfl

theorem length_of_mapM {es : List E} {bytes : List (List UInt8)}
    (h : es.mapM (np.bytes kind) = .ok bytes) :
    bytes.flatten.length = es.length * itemSize kind := by
  have hall := forall₂_of_mapM h
  clear h
  induction hall with
  | nil => simp
  | cons hb _ ih =>
    have hone := length_bytes hb
    rw [List.flatten_cons, List.length_append, ih, List.length_cons, Nat.succ_mul]
    omega

/-- The frame of a part of a payload is accepted, and it is decoded to the elements as they were
converted, unless these are several channels, which are mixed down. -/
structure Carries (np : Conversion E) (kind : TrackKind) (part : Samples E × Option (List UInt8))
    (frame : Frame) : Prop where
  shape : frame.shape = wireShape kind part.1.shape
  data : ∃ bytes, part.1.elements.mapM (np.bytes kind) = .ok bytes ∧ frame.data = bytes.flatten
  length : frame.data.length = part.1.elements.length * itemSize kind
  accepted : checkFrame frame kind = .ok (readShape kind frame.shape)
  restored : kind = .video ∨ frame.shape.getD 0 0 = 1 →
    decodeFrame frame kind = .ok ⟨⟨frame.shape, frame.data⟩, part.2, none⟩

theorem carries_encodeFrame {part : Samples E × Option (List UInt8)}
    (hsize : part.1.elements.length = part.1.shape.prod)
    (h : encodeFrame np part.1 kind part.2 = .ok frame) : Carries np kind part frame := by
  obtain ⟨raw, hraw, h⟩ := bind_eq_ok h
  cases h
  obtain ⟨bytes, hbytes, hraw⟩ := bind_eq_ok hraw
  dsimp only at hraw
  split_ifs at hraw with hshape
  cases hraw
  rw [not_or, not_not, not_or] at hshape
  have hmap : part.1.elements.mapM (np.bytes kind) = .ok bytes := by
    cases hmap : part.1.elements.mapM (np.bytes kind) with
    | error _ =>
      rw [hmap] at hbytes
      cases hbytes
    | ok _ =>
      rw [hmap] at hbytes
      cases hbytes
      rfl
  have hlength := length_of_mapM hmap
  have hprod : (wireShape kind part.1.shape).prod = part.1.shape.prod := by
    unfold wireShape
    split_ifs
    · rw [List.prod_cons, one_mul]
    · rfl
  have hfits : Fits
      { encoding := FRAME_ENCODING_RAW, dtype := rawDtype kind
        shape := wireShape kind part.1.shape, data := bytes.flatten
        metadata := part.2, captureTimeUs := none } kind :=
    ⟨rfl, hshape.1, hshape.2.1, fun hvideo => not_not.mp fun hne => hshape.2.2 ⟨hvideo, hne⟩,
      by rw [hlength, hsize, hprod]⟩
  refine ⟨rfl, ⟨bytes, hmap, rfl⟩, hlength, check_eq_ok_iff.mpr ⟨hfits, rfl⟩, fun hsame => ?_⟩
  obtain ⟨f, hdecode, -, -, hown⟩ := hfits.decode
  unfold decodeFrame
  rw [hdecode, hown hsame]
  rfl

/-! ### A step's media -/

/-- What a list of frames is made of: the entries of a batch, or the payload. -/
def OutputTrack.pieces (track : OutputTrack E) : List (Samples E) :=
  if track.kind = .audio ∧ hasNoSamples track.data.shape then []
  else if track.kind = .video ∧ track.data.shape.length = 4 then
    (List.range (track.data.shape.getD 0 0)).map track.data.entry
  else [track.data.toSamples]

/-- The metadata of the frame `i`. -/
def entryMetadata {M : Type*} : Metadata M → ℕ → Option M
  | .none, _ => none
  | .one m, _ => some m
  | .each ms, i => ms[i]?

/-- The pieces are whole arrays, and together they are the payload. -/
theorem OutputTrack.pieces_spec (track : OutputTrack E) :
    (∀ piece ∈ track.pieces, piece.elements.length = piece.shape.prod) ∧
      (track.pieces.map Samples.elements).flatten = track.data.elements := by
  have hsize := track.data.size
  unfold pieces
  split_ifs with hempty hbatch
  · refine ⟨fun _ h => absurd h List.not_mem_nil, ?_⟩
    have hzero : track.data.shape.prod = 0 := by
      have hno := hempty.2
      simp only [hasNoSamples, Bool.or_eq_true, Bool.and_eq_true, decide_eq_true_eq] at hno
      obtain hflat | ⟨⟨hrank, -⟩, hnone⟩ := hno
      · rw [hflat]
        rfl
      · obtain ⟨channels, size, hshape⟩ := List.length_eq_two.mp hrank
        rw [hshape] at hnone ⊢
        have hsize : size = 0 := hnone
        rw [hsize, List.prod_cons, List.prod_cons, zero_mul, mul_zero]
    exact (List.length_eq_zero_iff.mp (hsize.trans hzero)).symm
  · obtain ⟨count, tail, hshape⟩ := List.exists_cons_of_ne_nil (l := track.data.shape) (by
      intro hnil
      rw [hnil] at hbatch
      cases hbatch.2)
    rw [hshape, List.prod_cons] at hsize
    constructor
    · intro piece hpiece
      obtain ⟨i, hi, rfl⟩ := List.mem_map.mp hpiece
      rw [hshape] at hi
      have hlt : i < count := List.mem_range.mp hi
      have hle : (i + 1) * tail.prod ≤ count * tail.prod := Nat.mul_le_mul_right _ hlt
      rw [Nat.succ_mul] at hle
      have htail : track.data.shape.tail = tail := by rw [hshape, List.tail_cons]
      show (List.take _ (List.drop (i * _) _)).length = track.data.shape.tail.prod
      rw [List.length_take, List.length_drop, htail]
      omega
    · rw [List.map_map]
      refine (@Lists.flatten_slices E track.data.shape.tail.prod track.data.elements _).trans
        (List.take_of_length_le ?_)
      rw [hshape, hsize]
      rfl
  · refine ⟨fun piece hpiece => ?_, List.append_nil _⟩
    rw [List.mem_singleton.mp hpiece]
    exact hsize

theorem framesOf_spec {track : OutputTrack E} {parts : List (Samples E × Option (List UInt8))}
    (h : framesOf track = .ok parts) :
    parts.map Prod.fst = track.pieces ∧
      ∀ i part, parts[i]? = some part → part.2 = entryMetadata track.metadata i := by
  unfold framesOf at h
  unfold OutputTrack.pieces
  dsimp only at h
  split_ifs at h ⊢ with hempty hbatch
  · cases h
    exact ⟨rfl, fun i part hpart => absurd hpart (by simp)⟩
  · cases hmetadata : track.metadata with
    | none =>
      rw [hmetadata] at h
      cases h
      refine ⟨List.map_map, fun i part hpart => ?_⟩
      rw [List.getElem?_map] at hpart
      obtain ⟨_, -, rfl⟩ := Option.map_eq_some_iff.mp hpart
      rfl
    | one m =>
      rw [hmetadata] at h
      cases h
      refine ⟨List.map_map, fun i part hpart => ?_⟩
      rw [List.getElem?_map] at hpart
      obtain ⟨_, -, rfl⟩ := Option.map_eq_some_iff.mp hpart
      rfl
    | each ms =>
      rw [hmetadata] at h
      dsimp only at h
      split_ifs at h with hcount
      rw [not_not] at hcount
      cases h
      constructor
      · exact List.map_fst_zip (by simp [hcount])
      · intro i part hpart
        obtain ⟨-, hm⟩ := List.getElem?_zip_eq_some.mp hpart
        rw [List.getElem?_map] at hm
        obtain ⟨m, hm, hpart⟩ := Option.map_eq_some_iff.mp hm
        exact hpart.symm.trans hm.symm
  · have hsingle (m : Option (List UInt8)) (i : ℕ) (part : Samples E × Option (List UInt8))
        (hpart : [(track.data.toSamples, m)][i]? = some part) : part.2 = m := by
      have hmem := List.mem_singleton.mp (List.mem_of_getElem? hpart)
      rw [hmem]
    cases hmetadata : track.metadata with
    | none =>
      rw [hmetadata] at h
      cases h
      exact ⟨rfl, hsingle none⟩
    | one m =>
      rw [hmetadata] at h
      cases h
      exact ⟨rfl, hsingle (some m)⟩
    | each ms =>
      rw [hmetadata] at h
      cases h

/-- What an entry of the wire carries of a track. -/
structure CarriesTrack (np : Conversion E) (track : OutputTrack E) (entry : TrackFrames) : Prop where
  name : entry.track = track.name
  kind : entry.kind = wireKind track.kind
  frames : ∃ parts, parts.map Prod.fst = track.pieces ∧
    (∀ i part, parts[i]? = some part → part.2 = entryMetadata track.metadata i) ∧
    List.Forall₂ (Carries np track.kind) parts entry.frames

theorem sum_length_of_carries {parts : List (Samples E × Option (List UInt8))}
    {frames : List Frame} (h : List.Forall₂ (Carries np kind) parts frames) :
    (frames.map fun frame => frame.data.length).sum =
      ((parts.map Prod.fst).map Samples.elements).flatten.length * itemSize kind := by
  induction h with
  | nil => exact (Nat.zero_mul _).symm
  | cons hfirst _ ih =>
    rw [List.map_cons, List.sum_cons, ih, hfirst.length, List.map_cons, List.map_cons,
      List.flatten_cons, List.length_append, Nat.add_mul]

theorem carriesTrack_trackEntry {videoFps : Option PyFloat} {track : OutputTrack E}
    {entry : TrackFrames} (h : trackEntry np videoFps track = .ok entry) :
    CarriesTrack np track entry ∧ (entry.frames.map fun frame => frame.data.length).sum =
      track.data.elements.length * itemSize track.kind := by
  obtain ⟨parts, hparts, h⟩ := bind_eq_ok h
  obtain ⟨frames, hframes, h⟩ := bind_eq_ok h
  cases h
  obtain ⟨hpieces, hmetadata⟩ := framesOf_spec hparts
  obtain ⟨hwhole, hflatten⟩ := track.pieces_spec
  have hcarried : List.Forall₂ (Carries np track.kind) parts frames := by
    refine List.forall₂_iff_get.mpr ?_
    obtain ⟨hlength, hencoded⟩ := List.forall₂_iff_get.mp (forall₂_of_mapM hframes)
    refine ⟨hlength, fun i hi hi' => carries_encodeFrame (hwhole _ ?_) (hencoded i hi hi')⟩
    rw [← hpieces]
    exact List.mem_map_of_mem (List.get_mem _ _)
  refine ⟨⟨rfl, rfl, parts, hpieces, hmetadata, hcarried⟩, ?_⟩
  rw [← hflatten, ← hpieces]
  exact sum_length_of_carries hcarried

/-- What `track_frames` makes of a step's media: an entry for each track, in order, whose frames are
the entries of its batch, or its payload, each with its own metadata; all of them pass the check
that their reader makes, and are read as they were converted; and `media_size` is their size. -/
theorem carries_trackFrames {videoFps : Option PyFloat} {tracks : List (OutputTrack E)}
    {entries : List TrackFrames} (h : trackFrames np videoFps (some tracks) = .ok entries) :
    List.Forall₂ (CarriesTrack np) tracks entries ∧
      ((entries.flatMap (·.frames)).map fun frame => frame.data.length).sum =
        mediaSize (some tracks) := by
  have hall := forall₂_of_mapM h
  clear h
  unfold mediaSize
  rw [Option.getD_some] at hall ⊢
  induction hall with
  | nil => exact ⟨.nil, rfl⟩
  | cons hfirst _ ih =>
    obtain ⟨hcarries, hlength⟩ := carriesTrack_trackEntry hfirst
    refine ⟨.cons hcarries ih.1, ?_⟩
    rw [List.flatMap_cons, List.map_append, List.sum_append, ih.2, hlength, List.map_cons,
      List.sum_cons]

/-- NumPy's conversions of integers. -/
def wrapped : Conversion ℤ := ⟨fun n => .ok (UInt8.ofInt n), fun n => .ok n⟩

/-- A batch of two pixels, each with its metadata, and two samples. -/
def smallStep : List (OutputTrack ℤ) :=
  [⟨"camera", .video, .zero, ⟨⟨[2, 1, 1, 3], [1, 2, 3, 4, 5, 6]⟩, rfl⟩, .each [[8], [9]]⟩,
   ⟨"speaker", .audio, .zero, ⟨⟨[2], [-1, 7]⟩, rfl⟩, .none⟩]

theorem carries_trackFrames_smallStep :
    ∃ entries, trackFrames wrapped none (some smallStep) = .ok entries ∧
      ((entries.flatMap (·.frames)).map fun frame => frame.data.length).sum = 10 := by
  have h : trackFrames wrapped none (some smallStep) = .ok _ := rfl
  exact ⟨_, h, (carries_trackFrames h).2⟩

end ReactorRuntime.Protocol
