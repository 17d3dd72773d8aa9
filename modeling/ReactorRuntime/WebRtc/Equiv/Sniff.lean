import ReactorRuntime.Protocol.V1
import ReactorRuntime.WebRtc.Equiv.Wire

/-!
# The version of a wire

`sniff` looks at the first byte of a frame that is not whitespace.  A frame of the legacy version
opens with a brace.  A binary frame opens with the tag of the request's id, which is a line feed,
and the length of the id, so that an id of 91 or of 123 bytes looks like a bracket or a brace; where
the length is whitespace too, the id itself decides (`Confusable`).

A peer decodes every frame in the version of the first one (`Latched`), so that it is the version
the client speaks exactly for the ids that are not confusable (`sniff_iff`).
-/

namespace ReactorRuntime.WebRtc

open ReactorRuntime.Protocol

/-- Whether the first byte after the whitespace opens a JSON document. -/
def OpensDocument (b : List UInt8) : Prop :=
  (b.dropWhile isSpaceByte).head? = some 123 ∨ (b.dropWhile isSpaceByte).head? = some 91

instance (b : List UInt8) : Decidable (OpensDocument b) := inferInstanceAs (Decidable (_ ∨ _))

def utf8 (s : String) : List UInt8 := s.toUTF8.data.toList

/-- The ids of a request whose binary frames open like a JSON document: those of 91 or 123 bytes,
and those whose length is a byte of whitespace and that open like one themselves. -/
def Confusable (requestId : String) : Prop :=
  (utf8 requestId).length = 91 ∨ (utf8 requestId).length = 123 ∨
    (((utf8 requestId).length = 32 ∨
      (9 ≤ (utf8 requestId).length ∧ (utf8 requestId).length ≤ 13)) ∧
        OpensDocument (utf8 requestId))

instance (requestId : String) : Decidable (Confusable requestId) :=
  inferInstanceAs (Decidable (_ ∨ _ ∨ _))

def requestId : ClientMessage → String
  | .data message => message.requestId
  | .control message => message.requestId

/-- The frames of a message, in each version: the legacy one also as bytes. -/
def Encodes (writer : WireWriter) (message : ClientMessage) : ProtocolVersion → Payload → Prop
  | .v1, payload => payload = .bytes (V1Codec.encode writer message).2
  | .v0, payload => ∃ document, V0Codec.encode (.client message) = .ok document ∧
      (payload = .text document.2 ∨ payload = .bytes (utf8 document.2))

/-! ### The first byte of a frame -/

theorem sniff_eq_v0_iff (b : List UInt8) : sniff (.bytes b) = .v0 ↔ OpensDocument b := by
  rw [sniff, OpensDocument]
  generalize b.dropWhile isSpaceByte = rest
  cases rest with
  | nil => simp
  | cons c rest =>
    by_cases hbrace : c = 123
    · simp [hbrace]
    · by_cases hbracket : c = 91
      · simp [hbracket]
      · simp [hbrace, hbracket]

theorem sniff_eq_v1_iff (b : List UInt8) : sniff (.bytes b) = .v1 ↔ ¬ OpensDocument b := by
  rw [← sniff_eq_v0_iff]
  cases sniff (.bytes b) <;> simp

theorem isSpaceByte_eq_true_iff (c : UInt8) :
    isSpaceByte c = true ↔ c.toNat = 32 ∨ (9 ≤ c.toNat ∧ c.toNat ≤ 13) := by
  have h32 : c = 32 ↔ c.toNat = 32 := UInt8.toNat_inj.symm
  simp [isSpaceByte, UInt8.le_iff_toNat_le, h32]

@[simp] theorem not_opensDocument_nil : ¬ OpensDocument [] := by decide

theorem opensDocument_cons_of_space {c : UInt8} (h : isSpaceByte c = true) (b : List UInt8) :
    OpensDocument (c :: b) ↔ OpensDocument b := by
  unfold OpensDocument
  rw [List.dropWhile_cons_of_pos h]

theorem opensDocument_cons {c : UInt8} (h : isSpaceByte c = false) (b : List UInt8) :
    OpensDocument (c :: b) ↔ c.toNat = 123 ∨ c.toNat = 91 := by
  have h123 : c = 123 ↔ c.toNat = 123 := UInt8.toNat_inj.symm
  have h91 : c = 91 ↔ c.toNat = 91 := UInt8.toNat_inj.symm
  unfold OpensDocument
  rw [List.dropWhile_cons_of_neg (by simp [h])]
  simp [h123, h91]

theorem opensDocument_append {a b : List UInt8} (hb : ¬ OpensDocument b) :
    OpensDocument (a ++ b) ↔ OpensDocument a := by
  induction a with
  | nil => simpa using hb
  | cons c a ih =>
    rw [List.cons_append]
    cases hspace : isSpaceByte c with
    | true => rw [opensDocument_cons_of_space hspace, opensDocument_cons_of_space hspace, ih]
    | false => rw [opensDocument_cons hspace, opensDocument_cons hspace]

/-! ### The legacy version -/

theorem exists_dict {message : ClientMessage} {document : Channel × Python.Json}
    (h : V0Codec.encodeDocument (.client message) = .ok document) :
    ∃ entries, document.2 = .dict entries := by
  cases message with
  | data message =>
    obtain ⟨requestId, kind, payload⟩ := message
    rcases payload with _ | ⟨command | step | error⟩
    · cases h
    · obtain ⟨data, -, hdata⟩ := bind_eq_ok h
      obtain rfl := Except.ok.inj hdata
      exact ⟨_, rfl⟩
    · cases h
    · cases h
  | control message =>
    obtain ⟨requestId, kind, payload⟩ := message
    rcases payload with _ | payload
    · cases h
    · cases payload <;> cases h <;> exact ⟨_, rfl⟩

theorem utf8_ofList_brace (cs : List Char) :
    ∃ b, utf8 (String.ofList ('\x7b' :: cs)) = 123 :: b := by
  refine ⟨cs.flatMap String.utf8EncodeChar, ?_⟩
  show (String.ofList ('\x7b' :: cs)).toByteArray.data.toList = _
  rw [String.toByteArray_ofList, List.utf8Encode, List.data_toByteArray, List.flatMap_cons]
  rfl

/-- Every frame of the legacy version is taken for one. -/
theorem sniff_of_encodes_v0 {writer : WireWriter} {message : ClientMessage} {payload : Payload}
    (h : Encodes writer message .v0 payload) : sniff payload = .v0 := by
  obtain ⟨document, hdocument, hpayload⟩ := h
  rcases hpayload with rfl | rfl
  · rfl
  · rw [V0Codec.encode] at hdocument
    rcases hvalue : V0Codec.encodeDocument (.client message) with e | ⟨channel, value⟩
    · rw [hvalue] at hdocument
      cases hdocument
    rw [hvalue] at hdocument
    obtain rfl := Except.ok.inj hdocument
    obtain ⟨entries, rfl⟩ := exists_dict hvalue
    have hdumps : Python.Json.dumps (.dict entries) =
        String.ofList ('\x7b' :: Python.Json.writeEntries entries) := by
      rw [Python.Json.dumps, Python.Json.write]
    obtain ⟨b, hb⟩ := utf8_ofList_brace (Python.Json.writeEntries entries)
    rw [sniff_eq_v0_iff]
    show OpensDocument (utf8 (Python.Json.dumps (.dict entries)))
    rw [hdumps, hb]
    exact Or.inl rfl

/-! ### The binary version -/

theorem toNat_ofNat_of_lt {n : ℕ} (h : n < 256) : (UInt8.ofNat n).toNat = n := by
  rw [UInt8.toNat_ofNat']
  omega

theorem opensDocument_varint_append (n : ℕ) (b : List UInt8) :
    OpensDocument (varint n ++ b) ↔
      n = 91 ∨ n = 123 ∨ ((n = 32 ∨ (9 ≤ n ∧ n ≤ 13)) ∧ OpensDocument b) := by
  rw [varint]
  by_cases hshort : n < 128
  · have hbyte : (UInt8.ofNat n).toNat = n := toNat_ofNat_of_lt (by omega)
    rw [if_pos hshort, List.cons_append, List.nil_append]
    cases hspace : isSpaceByte (UInt8.ofNat n) with
    | true =>
      have hn := (isSpaceByte_eq_true_iff _).mp hspace
      rw [hbyte] at hn
      rw [opensDocument_cons_of_space hspace]
      constructor
      · intro h
        exact Or.inr (Or.inr ⟨hn, h⟩)
      · rintro (h | h | h)
        · omega
        · omega
        · exact h.2
    | false =>
      have hn : ¬ (n = 32 ∨ (9 ≤ n ∧ n ≤ 13)) := by
        intro h
        rw [← hbyte, ← isSpaceByte_eq_true_iff, hspace] at h
        cases h
      rw [opensDocument_cons hspace, hbyte]
      constructor
      · rintro (h | h)
        · exact Or.inr (Or.inl h)
        · exact Or.inl h
      · rintro (h | h | h)
        · exact Or.inr h
        · exact Or.inl h
        · exact (hn h.1).elim
  -- the first byte of a longer number has its high bit set
  · have hbyte : (UInt8.ofNat (n % 128 + 128)).toNat = n % 128 + 128 :=
      toNat_ofNat_of_lt (by omega)
    have hspace : isSpaceByte (UInt8.ofNat (n % 128 + 128)) = false := by
      rw [Bool.eq_false_iff, Ne, isSpaceByte_eq_true_iff, hbyte]
      omega
    rw [if_neg hshort, List.cons_append, opensDocument_cons hspace, hbyte]
    omega

theorem not_opensDocument_tag {field : ℕ} (wireType : WireType) (b : List UInt8)
    (h : field = 2 ∨ 4 < field) : ¬ OpensDocument (tag field wireType ++ b) := by
  have hnumber : wireType.number = 0 ∨ wireType.number = 2 := by
    cases wireType with
    | varint => exact Or.inl rfl
    | lengthDelimited => exact Or.inr rfl
  rw [tag, opensDocument_varint_append]
  omega

theorem not_opensDocument_kindField {kind : MessageKind} {b : List UInt8}
    (hb : ¬ OpensDocument b) : ¬ OpensDocument (V1Codec.kindField kind ++ b) := by
  rw [V1Codec.kindField]
  by_cases hkind : kind = .unspecified
  · rwa [if_pos hkind, List.nil_append]
  · rw [if_neg hkind, List.append_assoc]
    exact not_opensDocument_tag _ _ (Or.inl rfl)

theorem not_opensDocument_payloadField {P : Type} {field : P → ℕ} {body : P → List UInt8}
    (hfield : ∀ payload, 4 < field payload) (payload : Option P) :
    ¬ OpensDocument (V1Codec.payloadField field body payload) := by
  cases payload with
  | none => exact not_opensDocument_nil
  | some payload =>
    rw [V1Codec.payloadField, lengthDelimited, List.append_assoc]
    exact not_opensDocument_tag _ _ (Or.inr (hfield payload))

theorem opensDocument_serialize {P : Type} {field : P → ℕ} (body : P → List UInt8)
    (hfield : ∀ payload, 4 < field payload) (message : Envelope P) :
    OpensDocument (V1Codec.serialize field body message) ↔ Confusable message.requestId := by
  have hrest : ¬ OpensDocument (V1Codec.kindField message.kind ++
      V1Codec.payloadField field body message.payload) :=
    not_opensDocument_kindField (not_opensDocument_payloadField hfield _)
  rw [V1Codec.serialize, V1Codec.requestIdField, List.append_assoc]
  by_cases hempty : message.requestId = ""
  · have hnot : ¬ Confusable "" := by decide +kernel
    rw [if_pos hempty, List.nil_append, hempty]
    exact iff_of_false hrest hnot
  -- the tag of the id is a line feed, which is stripped, and its length comes next
  · have htag : tag 1 .lengthDelimited = [10] := by decide +kernel
    have hspace : isSpaceByte 10 = true := by decide
    rw [if_neg hempty, lengthDelimited, htag, List.append_assoc, List.append_assoc,
      List.singleton_append, opensDocument_cons_of_space hspace, opensDocument_varint_append,
      opensDocument_append hrest]
    rfl

theorem opensDocument_encode (writer : WireWriter) (message : ClientMessage) :
    OpensDocument (V1Codec.encode writer message).2 ↔ Confusable (requestId message) := by
  cases message with
  | data message =>
    refine opensDocument_serialize writer.data (fun payload => ?_) message
    cases payload <;> simp [DataClientPayload.field]
  | control message =>
    refine opensDocument_serialize writer.control (fun payload => ?_) message
    cases payload <;> simp [ControlClientPayload.field]

/-! ### The version of the first frame -/

def Wire.Label.payload? : Wire.Label → Option Payload
  | .frame _ payload => some payload
  | _ => none

def firstFrame (ls : List Wire.Label) : Option Payload := ls.findSome? Wire.Label.payload?

namespace Wire

variable {s s' : Wire} {first : Option Payload}

/-- The frames that were handed to be decoded, and those that are held. -/
def kept (s : Wire) : List InboundFrame := s.messages ++ s.earlyFrames

/-- Every frame goes by the version of the first one. -/
structure Latched (first : Option Payload) (s : Wire) : Prop where
  fresh : s.protocolSniffed = false → s.kept = [] ∧ ∀ channel, s.inSink channel = none
  late : s.protocolSniffed = false → first.isSome = true → s.stopped = true
  version : s.protocolSniffed = true → first.map sniff = some s.protocolVersion
  frames : ∀ frame ∈ s.kept, frame.version = s.protocolVersion

theorem Latched.init (version : ProtocolVersion) : Latched none { protocolVersion := version } where
  fresh _ := ⟨rfl, fun _ => rfl⟩
  late _ h := by cases h
  version h := by cases h
  frames _ h := by cases h

theorem Latched.of_eq (h : s.Latched first) (hversion : s'.protocolVersion = s.protocolVersion)
    (hsniffed : s'.protocolSniffed = s.protocolSniffed) (hinSink : s'.inSink = s.inSink)
    (hstopped : s.stopped = true → s'.stopped = true)
    (hkept : ∀ frame ∈ s'.kept, frame ∈ s.kept) : s'.Latched first := by
  refine ⟨fun hfresh => ?_, fun hfresh hfirst => ?_, fun hsniff => ?_, fun frame hframe => ?_⟩
  · rw [hsniffed] at hfresh
    have hnone : ∀ frame, frame ∉ s'.kept := by
      intro frame hframe
      have hmem := hkept frame hframe
      rw [(h.fresh hfresh).1] at hmem
      cases hmem
    rw [hinSink]
    exact ⟨List.eq_nil_iff_forall_not_mem.mpr hnone, (h.fresh hfresh).2⟩
  · rw [hsniffed] at hfresh
    exact hstopped (h.late hfresh hfirst)
  · rw [hsniffed] at hsniff
    rw [hversion]
    exact h.version hsniff
  · rw [hversion]
    exact h.frames frame (hkept frame hframe)

theorem kept_fireConnectedIfReady (s : Wire) : s.fireConnectedIfReady.kept = s.kept := by
  rcases s.fireConnectedIfReady_cases with heq | ⟨-, -, -, -, -, heq⟩
  · rw [heq]
  · rw [heq]
    simp only [kept, messages, List.filterMap_append, List.filterMap_cons, Scheduled.frame?,
      filterMap_deliveries, List.append_nil]

theorem Latched.fireConnectedIfReady (h : s.Latched first) :
    s.fireConnectedIfReady.Latched first := by
  have hkept := s.kept_fireConnectedIfReady
  rcases s.fireConnectedIfReady_cases with heq | ⟨-, -, -, -, -, heq⟩
  · rwa [heq]
  · refine h.of_eq ?_ ?_ ?_ ?_ ?_
    · rw [heq]
    · rw [heq]
    · rw [heq]
    · rw [heq]
      exact id
    · rw [hkept]
      exact fun frame hframe => hframe

theorem Latched.lossStep (h : s.Latched first) (hstep : s.lossStep = some s') :
    s'.Latched first := by
  unfold Wire.lossStep at hstep
  cases hloss : s.loss with
  | idle =>
    rw [hloss] at hstep
    cases hstep
  | stopping =>
    rw [hloss] at hstep
    cases hstep
    exact h.of_eq rfl rfl rfl (fun _ => rfl) fun _ hframe => hframe
  | clearing =>
    rw [hloss] at hstep
    cases hstep
    exact h.of_eq rfl rfl rfl id fun _ hframe => hframe
  | releasing =>
    rw [hloss] at hstep
    cases hstep
    refine h.of_eq rfl rfl rfl id fun frame hframe => ?_
    exact List.mem_append_left _ (List.append_nil s.messages ▸ hframe)
  | firing =>
    rw [hloss] at hstep
    cases hstep
    refine h.of_eq rfl rfl rfl id fun frame hframe => ?_
    have hmem : frame ∈ List.filterMap Scheduled.frame? (s.scheduled ++ [.disconnect]) ++
        s.earlyFrames := hframe
    rw [List.filterMap_append, List.filterMap_cons_none rfl, List.filterMap_nil,
      List.append_nil] at hmem
    exact hmem

theorem Latched.setChannelOpen (h : s.Latched first) (channel : Channel) (isOpen : Bool) :
    (s.setChannelOpen channel isOpen).Latched first := by
  obtain ⟨t, heq, ht⟩ := s.setChannelOpen_eq channel isOpen
  rw [heq]
  apply Latched.fireConnectedIfReady
  rw [ht]
  exact h.of_eq rfl rfl rfl id fun frame hframe => hframe

/-- A frame that arrives settles the version, unless one did before or the peer is stopped. -/
theorem Latched.frame (h : s.Latched first) (channel : Channel) (payload : Payload) :
    (s.frame channel payload).Latched (first.or (some payload)) := by
  have hsome : s.protocolSniffed = true →
      (first.or (some payload)).map sniff = some s.protocolVersion := by
    intro hsniffed
    have hversion := h.version hsniffed
    cases first with
    | none => cases hversion
    | some earlier => exact hversion
  unfold Wire.frame
  by_cases hstopped : s.stopped = true
  · rw [if_pos hstopped]
    exact ⟨h.fresh, fun _ _ => hstopped, hsome, h.frames⟩
  rw [if_neg hstopped]
  cases hsniffed : s.protocolSniffed with
  | true =>
    refine ⟨fun hfresh => ?_, fun hfresh => ?_, fun _ => ?_, fun frame hframe => ?_⟩
    · cases hfresh
    · cases hfresh
    · exact hsome hsniffed
    · exact h.frames frame hframe
  | false =>
    -- a peer that is not stopped and has no version yet has seen no frame
    have hfirst : first = none := by
      cases hfirst : first with
      | none => rfl
      | some earlier =>
        have hlate := h.late hsniffed (by rw [hfirst]; rfl)
        exact (hstopped hlate).elim
    refine ⟨fun hfresh => ?_, fun hfresh => ?_, fun _ => ?_, fun frame hframe => ?_⟩
    · cases hfresh
    · cases hfresh
    · rw [hfirst]
      rfl
    · have hkept : frame ∈ s.kept := hframe
      rw [(h.fresh hsniffed).1] at hkept
      cases hkept

theorem mem_kept_hold (s : Wire) {frame frame' : InboundFrame} (h : frame' ∈ (s.hold frame).kept) :
    frame' ∈ s.kept ∨ frame' = frame := by
  unfold hold at h
  by_cases hfull : maxEarlyFrames ≤ s.earlyFrames.length
  · rw [if_pos hfull] at h
    exact Or.inl h
  · rw [if_neg hfull] at h
    have hmem : frame' ∈ s.messages ++ (s.earlyFrames ++ [frame]) := h
    rw [← List.append_assoc, List.mem_append, List.mem_singleton] at hmem
    exact hmem

theorem mem_kept_deliver (s : Wire) {frame frame' : InboundFrame}
    (h : frame' ∈ (s.deliver frame).kept) : frame' ∈ s.kept ∨ frame' = frame := by
  have hmessages : (s.deliver frame).messages = s.messages ++ [frame] := by
    simp [messages, Wire.deliver, Wire.fire, Scheduled.frame?]
  have hmem : frame' ∈ (s.deliver frame).messages ++ s.earlyFrames := h
  rw [hmessages, List.mem_append, List.mem_append, List.mem_singleton] at hmem
  rcases hmem with (hmem | hmem) | hmem
  · exact Or.inl (List.mem_append_left _ hmem)
  · exact Or.inr hmem
  · exact Or.inl (List.mem_append_right _ hmem)

theorem sink_kept (s : Wire) (channel : Channel) (payload : Payload) {frame : InboundFrame}
    (h : frame ∈ (s.sink channel payload).kept) :
    frame ∈ s.kept ∨ frame = ⟨payload, s.protocolVersion, channel⟩ := by
  unfold Wire.sink at h
  cases hconnected : s.connected with
  | true =>
    rw [if_pos hconnected] at h
    exact mem_kept_deliver _ h
  | false =>
    rw [if_neg (by rw [hconnected]; exact Bool.false_ne_true)] at h
    cases hopened : Wire.opened { s with inSink := Function.update s.inSink channel none } with
    | true =>
      rw [if_pos hopened] at h
      have hmem := mem_kept_hold _ h
      exact hmem
    | false =>
      rw [if_neg (by rw [hopened]; exact Bool.false_ne_true)] at h
      have hmem := mem_kept_hold _ h
      exact hmem

theorem sink_version (s : Wire) (channel : Channel) (payload : Payload) :
    (s.sink channel payload).protocolVersion = s.protocolVersion ∧
      (s.sink channel payload).protocolSniffed = s.protocolSniffed := by
  unfold Wire.sink
  dsimp only
  split_ifs
  · exact ⟨rfl, rfl⟩
  · rw [hold_eq]
    exact ⟨rfl, rfl⟩
  · rw [hold_eq]
    exact ⟨rfl, rfl⟩

theorem Latched.sink (h : s.Latched first) {channel : Channel} {payload : Payload}
    (hsink : s.inSink channel = some payload) : (s.sink channel payload).Latched first := by
  have hsniffed : s.protocolSniffed = true := by
    cases hsniffed : s.protocolSniffed with
    | true => rfl
    | false =>
      rw [(h.fresh hsniffed).2 channel] at hsink
      cases hsink
  obtain ⟨hversion', hsniffed'⟩ := s.sink_version channel payload
  rw [hsniffed] at hsniffed'
  refine ⟨fun hfresh => ?_, fun hfresh => ?_, fun _ => ?_, fun frame hframe => ?_⟩
  · rw [hsniffed'] at hfresh
    cases hfresh
  · rw [hsniffed'] at hfresh
    cases hfresh
  · rw [hversion']
    exact h.version hsniffed
  · rw [hversion']
    rcases s.sink_kept channel payload hframe with hmem | rfl
    · exact h.frames frame hmem
    · rfl

/-- What is not a frame leaves the version as it is. -/
theorem Latched.of_payload?_eq_none {l : Label} (h : s.Latched first) (hnone : l.payload? = none)
    (hnext : s.next l = some s') : s'.Latched first := by
  cases l with
  | frame channel payload => cases hnone
  | peerConnects =>
    cases hnext
    exact Latched.fireConnectedIfReady (h.of_eq rfl rfl rfl id fun _ hframe => hframe)
  | peerEnds =>
    cases hnext
    refine h.of_eq rfl rfl rfl id fun frame hframe => ?_
    have hmessages : (s.peerEnds).messages = s.messages := by
      simp [messages, Wire.peerEnds, Wire.fire, Scheduled.frame?]
    have hmem : frame ∈ s.peerEnds.messages ++ s.earlyFrames := hframe
    rwa [hmessages] at hmem
  | transition channel isOpen =>
    cases hnext
    apply Latched.setChannelOpen
    exact h.of_eq rfl rfl rfl id fun _ hframe => hframe
  | adopt channel isOpen =>
    simp only [Wire.next, Option.ite_none_left_eq_some] at hnext
    obtain rfl := Option.some.inj hnext.2
    exact h.of_eq rfl rfl rfl id fun _ hframe => hframe
  | record channel =>
    obtain ⟨isOpen, -, rfl⟩ := Option.map_eq_some_iff.mp hnext
    apply Latched.setChannelOpen
    exact h.of_eq rfl rfl rfl id fun _ hframe => hframe
  | sink channel =>
    obtain ⟨payload, hsink, rfl⟩ := Option.map_eq_some_iff.mp hnext
    exact h.sink hsink
  | runNext =>
    simp only [Wire.next, Option.ite_none_right_eq_some] at hnext
    obtain ⟨call, -, rfl⟩ := Option.map_eq_some_iff.mp hnext.2
    cases call <;> exact h.of_eq rfl rfl rfl id fun _ hframe => hframe
  | lossStep =>
    exact h.lossStep hnext
  | stop =>
    cases hnext
    exact h.of_eq rfl rfl rfl (fun _ => rfl) fun _ hframe => hframe
  | release =>
    simp only [Wire.next, Option.ite_none_right_eq_some] at hnext
    obtain rfl := Option.some.inj hnext.2
    refine h.of_eq rfl rfl rfl id fun frame hframe => ?_
    exact List.mem_append_left _ (List.append_nil s.messages ▸ hframe)

theorem Latched.next {l : Label} (h : s.Latched first) (hnext : s.next l = some s') :
    s'.Latched (first.or l.payload?) := by
  by_cases hnone : l.payload? = none
  · rw [hnone, Option.or_none]
    exact h.of_payload?_eq_none hnone hnext
  · cases l with
    | frame channel payload =>
      simp only [Wire.next, Option.ite_none_left_eq_some] at hnext
      obtain rfl := Option.some.inj hnext.2
      exact h.frame channel payload
    | _ => exact (hnone rfl).elim

theorem Latched.of_run {version : ProtocolVersion} {ls : List Label} {s : Wire}
    (hrun : (wire version).run ls = some s) : s.Latched (firstFrame ls) := by
  refine TransitionSystem.run_induction (T := wire version)
    (motive := fun ls s => s.Latched (firstFrame ls)) (Latched.init version) ?_ ls s hrun
  intro ls s l s' _ h hnext
  have hfirst : firstFrame (ls ++ [l]) = (firstFrame ls).or l.payload? := by
    rw [firstFrame, List.findSome?_append, List.findSome?_singleton]
    rfl
  rw [hfirst]
  exact h.next hnext

end Wire

/-- The frames of a message are taken for what they are, and with such a first frame a peer decodes
every frame in the version its client speaks, exactly where the id of the request does not make the
binary frame open like a JSON document. -/
theorem sniff_iff (writer : WireWriter) (message : ClientMessage) :
    ((∀ spoken payload, Encodes writer message spoken payload → sniff payload = spoken) ∧
      ∀ version spoken ls s, (wire version).run ls = some s →
        (∀ payload, firstFrame ls = some payload → Encodes writer message spoken payload) →
          ∀ frame ∈ s.messages, frame.version = spoken) ↔
    ¬ Confusable (requestId message) := by
  constructor
  · rintro ⟨hsniff, -⟩
    rw [← opensDocument_encode writer, ← sniff_eq_v1_iff]
    exact hsniff .v1 _ rfl
  · intro hid
    have hsniff : ∀ spoken payload, Encodes writer message spoken payload →
        sniff payload = spoken := by
      intro spoken payload hencodes
      cases spoken with
      | v0 => exact sniff_of_encodes_v0 hencodes
      | v1 =>
        obtain rfl : payload = _ := hencodes
        rw [sniff_eq_v1_iff, opensDocument_encode]
        exact hid
    refine ⟨hsniff, fun version spoken ls s hrun hfirst frame hframe => ?_⟩
    have hlatched := Wire.Latched.of_run hrun
    have hkept : frame ∈ s.kept := List.mem_append_left _ hframe
    rw [hlatched.frames frame hkept]
    -- a frame is kept, so the version is that of a frame
    have hsniffed : s.protocolSniffed = true := by
      cases hsniffed : s.protocolSniffed with
      | true => rfl
      | false =>
        rw [(hlatched.fresh hsniffed).1] at hkept
        cases hkept
    obtain ⟨payload, hpayload, hversion⟩ := Option.map_eq_some_iff.mp (hlatched.version hsniffed)
    rw [← hversion]
    exact hsniff spoken payload (hfirst payload hpayload)

def longPing : ClientMessage :=
  .control { requestId := String.ofList (List.replicate 123 'a'), kind := .request,
             payload := some .ping }

/-- The binary frame of such a ping is taken for one of the legacy version. -/
theorem not_sniff :
    ¬ ∀ writer message spoken payload, Encodes writer message spoken payload →
      sniff payload = spoken := by
  intro h
  have hv1 := h ⟨fun _ => [], fun _ => []⟩ longPing .v1 _ rfl
  have hv0 : sniff (.bytes (V1Codec.encode ⟨fun _ => [], fun _ => []⟩ longPing).2) = .v0 := by
    decide +kernel
  rw [hv0] at hv1
  cases hv1

end ReactorRuntime.WebRtc
