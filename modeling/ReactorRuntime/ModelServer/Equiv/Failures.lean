import ReactorRuntime.ModelServer.Failures
import Mathlib.Tactic.Set
import Mathlib.Tactic.SplitIfs

/-!
# What arrives of a failure

A failure is sent as its own pickle, or as that of a stand-in (`Sent`, `exists_sent`).  A stand-in
arrives as it is (`Sent.errorOf_standIn`), and a batch failure always arrives as one
(`batchCause_errorOf`).  What is left is an exception that is sent as itself, and whose pickle makes
of it what it likes on the session's side (`crosses_iff`).
-/

namespace ReactorRuntime.ModelServer.Failures

variable {E O B : Type} {process : Process E O B} {exc : Obj E O} {requestId : ℕ}

/-! ### Descriptions -/

theorem length_describe_le (exc : Obj E O) :
    (describe process exc).length ≤ DESCRIPTION_LIMIT := by
  rw [describe]
  split_ifs with hlong
  · rw [List.length_append, List.length_take]
    have hdots : "...".toList.length = 3 := rfl
    have hlimit : DESCRIPTION_LIMIT = 4096 := rfl
    omega
  · omega

/-! ### What `pickle` does with a stand-in -/

/-- An object pickles, to no more than four bytes for each of some characters and some that are the
same for all, and is rebuilt on both sides. -/
def Travels (process : Process E O B) (obj : Obj E O) (characters : ℕ) : Prop :=
  ∃ blob, process.dumps obj = some blob ∧ process.size blob ≤ 4 * characters + 512 ∧
    process.loads blob = some obj ∧ process.loadsThere blob = some obj

/-- A `RuntimeError` with a text travels, and so does a `BatchFailed` with that as its cause. -/
structure Lawful (process : Process E O B) : Prop where
  runtimeError : ∀ text, Travels process (.runtimeError text) text.length
  batchFailed : ∀ text, Travels process (.batchFailed (.runtimeError text)) text.length

/-- How much longer the text of a stand-in is than the description. -/
def tooLarge : List Char := " (too large to send whole)".toList

theorem portablePickle_of_rebuilt {limit : Option ℕ} {blob : B} (text : List Char)
    (hdumps : process.dumps exc = some blob) (hfits : ∀ bound ∈ limit, process.size blob ≤ bound)
    (hloads : process.loads blob ≠ none) :
    portablePickle process exc limit text = some (.itself, blob) := by
  obtain ⟨rebuilt, hrebuilt⟩ := Option.ne_none_iff_exists'.mp hloads
  have hroom : ¬ limit.any (· < process.size blob) = true := by
    cases limit with
    | none => exact Bool.false_ne_true
    | some bound =>
      have hle := hfits bound rfl
      rw [Option.any_some, decide_eq_true_eq]
      omega
  have htry : tryPickle process exc limit text = some (.itself, blob) := by
    rw [tryPickle, hdumps]
    show (if limit.any (· < process.size blob) = true then _ else _) = _
    rw [if_neg hroom, hrebuilt]
    rfl
  rw [portablePickle, htry]
  rfl

theorem portablePickle_spec (hlawful : Lawful process) (exc : Obj E O) (limit : Option ℕ)
    (text : List Char) :
    (∃ blob, portablePickle process exc limit text = some (.itself, blob) ∧
      process.dumps exc = some blob ∧ (∀ bound ∈ limit, process.size blob ≤ bound) ∧
      process.loads blob ≠ none) ∨
    ∃ sent blob, portablePickle process exc limit text = some (.standIn sent, blob) ∧
      process.dumps (.runtimeError sent) = some blob ∧
      sent.length ≤ text.length + tooLarge.length := by
  obtain ⟨plain, hplain, -⟩ := hlawful.runtimeError text
  obtain ⟨large, hlarge, -⟩ := hlawful.runtimeError (text ++ tooLarge)
  have hstand : standIn process text = some (.standIn text, plain) := by
    rw [standIn, hplain]
    rfl
  -- The last resort of `portable_pickle`.
  have hfallback : tryPickle process exc limit text = none →
      ∃ sent blob, portablePickle process exc limit text = some (.standIn sent, blob) ∧
        process.dumps (.runtimeError sent) = some blob ∧
        sent.length ≤ text.length + tooLarge.length := by
    intro htry
    refine ⟨text, plain, ?_, hplain, Nat.le_add_right _ _⟩
    rw [portablePickle, htry, hstand]
    rfl
  cases hdumps : process.dumps exc with
  | none =>
    refine .inr (hfallback ?_)
    rw [tryPickle, hdumps]
    rfl
  | some blob =>
    by_cases hroom : limit.any (· < process.size blob) = true
    · refine .inr ⟨text ++ tooLarge, large, ?_, hlarge, Nat.le_of_eq List.length_append⟩
      have htry : tryPickle process exc limit text = some (.standIn (text ++ tooLarge), large) := by
        rw [tryPickle, hdumps]
        show (if limit.any (· < process.size blob) = true then
          standIn process (text ++ tooLarge) else _) = _
        rw [if_pos hroom, standIn, hlarge]
        rfl
      rw [portablePickle, htry]
      rfl
    · by_cases hloads : process.loads blob = none
      · refine .inr (hfallback ?_)
        rw [tryPickle, hdumps]
        show (if limit.any (· < process.size blob) = true then _ else _) = _
        rw [if_neg hroom, hloads]
        rfl
      · have hfits : ∀ bound ∈ limit, process.size blob ≤ bound := by
          intro bound hbound
          rw [Option.mem_def.mp hbound, Option.any_some, decide_eq_true_eq] at hroom
          omega
        exact .inl ⟨blob, portablePickle_of_rebuilt text hdumps hfits hloads, rfl, hfits, hloads⟩

/-! ### What is sent -/

/-- An exception that may travel as itself: an instance of `Exception`, and so is its cause, if it
is a batch failure. -/
def Ordinary (process : Process E O B) (exc : Obj E O) : Prop :=
  isException process exc = true ∧
    ∀ cause, batchCause process exc = some cause → isException process cause = true

/-- The stand-in for an exception: a `RuntimeError`, in a `BatchFailed` if the exception is one. -/
def standInFor (process : Process E O B) (exc : Obj E O) (text : List Char) : Obj E O :=
  if (batchCause process exc).isSome then .batchFailed (.runtimeError text) else .runtimeError text

/-- What is sent for an exception: its own pickle, or that of a stand-in. -/
structure Sent (process : Process E O B) (requestId : ℕ) (exc : Obj E O) (failed : Failed B) :
    Prop where
  requestId : failed.requestId = requestId
  description : failed.description.length ≤ DESCRIPTION_LIMIT
  batch : failed.batch = (batchCause process exc).isSome
  error : (Ordinary process exc ∧ process.dumps exc = some failed.error ∧
      process.size failed.error ≤ FAILURE_LIMIT ∧ process.loads failed.error ≠ none) ∨
    ∃ text : List Char, text.length ≤ DESCRIPTION_LIMIT + tooLarge.length ∧
      process.dumps (standInFor process exc text) = some failed.error

theorem standInFor_of_cause {cause : Obj E O} (hcause : batchCause process exc = some cause)
    (text : List Char) : standInFor process exc text = .batchFailed (.runtimeError text) := by
  rw [standInFor, hcause]
  rfl

theorem standInFor_of_none (hnone : batchCause process exc = none) (text : List Char) :
    standInFor process exc text = .runtimeError text := by
  rw [standInFor, hnone]
  rfl

theorem isException_of_batchCause {cause : Obj E O} (hcause : batchCause process exc = some cause) :
    isException process exc = true := by
  cases exc with
  | raised exc =>
    rw [batchCause] at hcause
    rw [isException]
    cases hkind : process.kind exc with
    | batch cause => rfl
    | ordinary => rfl
    | bare =>
      rw [hkind] at hcause
      cases hcause
  | runtimeError text => rfl
  | modelServerError text => rfl
  | batchFailed cause => rfl
  | other obj => cases hcause

theorem isBaseException_of_isException (hexc : isException process exc = true) :
    isBaseException exc = true := by
  cases exc with
  | other obj => cases hexc
  | raised exc => rfl
  | runtimeError text => rfl
  | modelServerError text => rfl
  | batchFailed cause => rfl

theorem batchFailure_spec (hlawful : Lawful process) (requestId : ℕ) {cause : Obj E O}
    (hcause : batchCause process exc = some cause) :
    ∃ failed, batchFailure process requestId exc cause = some failed ∧
      Sent process requestId exc failed := by
  set description := describe process cause with hdescription
  have hshort : description.length ≤ DESCRIPTION_LIMIT := length_describe_le cause
  have hbatch : true = (batchCause process exc).isSome := by rw [hcause]; rfl
  set carriedExc : Obj E O :=
    if isException process cause then exc
    else .batchFailed (.runtimeError description) with hcarried
  rcases portablePickle_spec hlawful carriedExc (some FAILURE_LIMIT) description with
    ⟨blob, hpickle, hdumps, hfits, hloads⟩ | ⟨sent, blob, hpickle, -, -⟩
  · refine ⟨⟨requestId, blob, description, true⟩, ?_, rfl, hshort, hbatch, ?_⟩
    · rw [batchFailure]
      show (portablePickle process carriedExc (some FAILURE_LIMIT) description >>= _) = _
      rw [hpickle]
      rfl
    · by_cases hordinary : isException process cause = true
      · rw [hcarried, if_pos hordinary] at hdumps
        refine .inl ⟨⟨isException_of_batchCause hcause, ?_⟩, hdumps, hfits _ rfl, hloads⟩
        intro other hother
        rw [hcause] at hother
        cases hother
        exact hordinary
      · rw [hcarried, if_neg hordinary] at hdumps
        refine .inr ⟨description, Nat.le_add_right_of_le hshort, ?_⟩
        rw [standInFor_of_cause hcause]
        exact hdumps
  · -- The wrapper is kept, and the cause is replaced.
    obtain ⟨replaced, hreplaced, text, htext, hlength⟩ : ∃ replaced,
        portablePickle process cause (some FAILURE_LIMIT) description = some replaced ∧
        ∃ text : List Char, replaced.1.textOr description = text ∧
          text.length ≤ DESCRIPTION_LIMIT + tooLarge.length := by
      rcases portablePickle_spec hlawful cause (some FAILURE_LIMIT) description with
        ⟨other, hother, -⟩ | ⟨sent, other, hother, -, hsent⟩
      · exact ⟨_, hother, description, rfl, Nat.le_add_right_of_le hshort⟩
      · exact ⟨_, hother, sent, rfl, Nat.le_trans hsent (Nat.add_le_add_right hshort _)⟩
    obtain ⟨rebuilt, hdumps, -, hloads, -⟩ := hlawful.batchFailed text
    have hlast : portablePickle process (.batchFailed (.runtimeError text)) none description =
        some (.itself, rebuilt) := by
      refine portablePickle_of_rebuilt description hdumps (fun bound hbound => by cases hbound) ?_
      rw [hloads]
      exact Option.some_ne_none _
    refine ⟨⟨requestId, rebuilt, description, true⟩, ?_, rfl, hshort, hbatch,
      .inr ⟨text, hlength, ?_⟩⟩
    · rw [batchFailure]
      show (portablePickle process carriedExc (some FAILURE_LIMIT) description >>= _) = _
      rw [hpickle]
      show (portablePickle process cause (some FAILURE_LIMIT) description >>= _) = _
      rw [hreplaced]
      show (portablePickle process (.batchFailed (.runtimeError _)) none description >>= _) = _
      rw [htext, hlast]
      rfl
    · rw [standInFor_of_cause hcause]
      exact hdumps

theorem exists_sent (hlawful : Lawful process) (requestId : ℕ) (exc : Obj E O) :
    ∃ failed, failure process requestId exc = some failed ∧ Sent process requestId exc failed := by
  suffices htry : ∃ failed, tryFailure process requestId exc = some failed ∧
      Sent process requestId exc failed by
    obtain ⟨failed, htry, hsent⟩ := htry
    refine ⟨failed, ?_, hsent⟩
    rw [failure, htry]
    rfl
  rw [tryFailure]
  cases hcause : batchCause process exc with
  | some cause => exact batchFailure_spec hlawful requestId hcause
  | none =>
    set description := describe process exc with hdescription
    have hshort : description.length ≤ DESCRIPTION_LIMIT := length_describe_le exc
    have hbatch : false = (batchCause process exc).isSome := by rw [hcause]; rfl
    set carriedExc : Obj E O :=
      if isException process exc then exc else .runtimeError description with hcarried
    rcases portablePickle_spec hlawful carriedExc (some FAILURE_LIMIT) description with
      ⟨blob, hpickle, hdumps, hfits, hloads⟩ | ⟨sent, blob, hpickle, hdumps, hsent⟩
    · refine ⟨⟨requestId, blob, description, false⟩, ?_, rfl, hshort, hbatch, ?_⟩
      · show (portablePickle process carriedExc (some FAILURE_LIMIT) description >>= _) = _
        rw [hpickle]
        rfl
      · by_cases hordinary : isException process exc = true
        · rw [hcarried, if_pos hordinary] at hdumps
          refine .inl ⟨⟨hordinary, ?_⟩, hdumps, hfits _ rfl, hloads⟩
          intro cause hsome
          rw [hcause] at hsome
          cases hsome
        · rw [hcarried, if_neg hordinary] at hdumps
          refine .inr ⟨description, Nat.le_add_right_of_le hshort, ?_⟩
          rw [standInFor_of_none hcause]
          exact hdumps
    · refine ⟨⟨requestId, blob, description, false⟩, ?_, rfl, hshort, hbatch,
        .inr ⟨sent, Nat.le_trans hsent (Nat.add_le_add_right hshort _), ?_⟩⟩
      · show (portablePickle process carriedExc (some FAILURE_LIMIT) description >>= _) = _
        rw [hpickle]
        rfl
      · rw [standInFor_of_none hcause]
        exact hdumps

/-! ### What arrives -/

theorem Lawful.standInFor (hlawful : Lawful process) (exc : Obj E O) (text : List Char) :
    Travels process (standInFor process exc text) text.length := by
  rw [Failures.standInFor]
  split_ifs
  · exact hlawful.batchFailed text
  · exact hlawful.runtimeError text

theorem Sent.size_le {failed : Failed B} (hlawful : Lawful process)
    (hsent : Sent process requestId exc failed) : process.size failed.error ≤ FAILURE_LIMIT := by
  rcases hsent.error with ⟨-, -, hfits, -⟩ | ⟨text, hlength, hdumps⟩
  · exact hfits
  · obtain ⟨blob, hblob, hsize, -⟩ := hlawful.standInFor exc text
    rw [hdumps] at hblob
    cases hblob
    have hlimit : DESCRIPTION_LIMIT = 4096 := rfl
    have htail : tooLarge.length = 26 := rfl
    have hfailure : FAILURE_LIMIT = 65536 := rfl
    omega

/-- An answer that says that it is a batch failure arrives as one. -/
theorem batchCause_errorOf {failed : Failed B} (hbatch : failed.batch = true) :
    (batchCause process (errorOf process failed)).isSome := by
  rw [errorOf]
  simp only [hbatch]
  cases process.loadsThere failed.error with
  | none => rfl
  | some error =>
    by_cases hbase : isBaseException error = true
    · by_cases hcause : batchCause process error = none
      · simp only [hbase, hcause, and_self, if_true]
        rfl
      · simp only [hbase, hcause, and_false, if_true, if_false]
        exact Option.isSome_iff_ne_none.mpr hcause
    · simp only [hbase, if_true]
      rfl

theorem errorOf_of_rebuilt {failed : Failed B} {error : Obj E O}
    (hloads : process.loadsThere failed.error = some error)
    (hbase : isBaseException error = true)
    (hbatch : failed.batch = true → (batchCause process error).isSome) :
    errorOf process failed = error := by
  rw [errorOf]
  simp only [hloads, hbase, if_true]
  rw [if_neg]
  rintro ⟨hflag, hnone⟩
  have hsome := hbatch hflag
  rw [hnone] at hsome
  cases hsome

/-- What is to become of a failure: it is sent, within the limits, and an instance of `Exception`
arrives, which is a batch failure if the exception was; and that itself, if it may travel and its
pickle fits and is rebuilt on both sides. -/
def Crosses (process : Process E O B) (requestId : ℕ) (exc : Obj E O) : Prop :=
  ∃ failed, failure process requestId exc = some failed ∧
    failed.requestId = requestId ∧
    failed.description.length ≤ DESCRIPTION_LIMIT ∧ process.size failed.error ≤ FAILURE_LIMIT ∧
    isException process (errorOf process failed) = true ∧
    (batchCause process (errorOf process failed)).isSome = (batchCause process exc).isSome ∧
    ∀ blob, Ordinary process exc → process.dumps exc = some blob →
      process.size blob ≤ FAILURE_LIMIT → process.loads blob = some exc →
      process.loadsThere blob = some exc → errorOf process failed = exc

/-- An exception that is sent as itself, and is no batch failure, is not rebuilt on the session's
side as one, nor as an exception that is no instance of `Exception`. -/
def KeepsKind (process : Process E O B) (exc : Obj E O) : Prop :=
  isException process exc = true → batchCause process exc = none →
    ∀ blob error, process.dumps exc = some blob → process.size blob ≤ FAILURE_LIMIT →
      process.loads blob ≠ none → process.loadsThere blob = some error →
      isBaseException error = true →
      isException process error = true ∧ batchCause process error = none

theorem Sent.errorOf_spec {failed : Failed B} (hlawful : Lawful process)
    (hsent : Sent process requestId exc failed) (hkeeps : KeepsKind process exc) :
    isException process (errorOf process failed) = true ∧
    (batchCause process (errorOf process failed)).isSome = (batchCause process exc).isSome := by
  cases hcause : batchCause process exc with
  | some cause =>
    have hbatch : failed.batch = true := by rw [hsent.batch, hcause]; rfl
    obtain ⟨other, hother⟩ := Option.isSome_iff_exists.mp (batchCause_errorOf hbatch)
    refine ⟨isException_of_batchCause hother, ?_⟩
    rw [hother]
    rfl
  | none =>
    have hbatch : failed.batch = false := by rw [hsent.batch, hcause]; rfl
    have hflag : ¬ failed.batch = true := by rw [hbatch]; exact Bool.false_ne_true
    rcases hsent.error with ⟨hordinary, hdumps, hfits, hloads⟩ | ⟨text, -, hdumps⟩
    · cases hthere : process.loadsThere failed.error with
      | none =>
        rw [errorOf]
        simp only [hthere, hbatch]
        exact ⟨rfl, rfl⟩
      | some error =>
        by_cases hbase : isBaseException error = true
        · obtain ⟨hexc, hnone⟩ :=
            hkeeps hordinary.1 hcause _ error hdumps hfits hloads hthere hbase
          rw [errorOf_of_rebuilt hthere hbase (fun h => absurd h hflag), hnone]
          exact ⟨hexc, rfl⟩
        · rw [errorOf]
          simp only [hthere, hbase, hbatch]
          exact ⟨rfl, rfl⟩
    · obtain ⟨blob, hblob, -, -, hthere⟩ := hlawful.standInFor exc text
      rw [hdumps] at hblob
      cases hblob
      rw [standInFor_of_none hcause] at hthere
      rw [errorOf_of_rebuilt hthere rfl (fun h => absurd h hflag)]
      exact ⟨rfl, rfl⟩

/-- An exception that may travel, and is rebuilt on both sides, arrives as itself. -/
theorem errorOf_of_roundTrip {failed : Failed B} {blob : B} (hordinary : Ordinary process exc)
    (hdumps : process.dumps exc = some blob) (hfits : process.size blob ≤ FAILURE_LIMIT)
    (hhere : process.loads blob = some exc) (hthere : process.loadsThere blob = some exc)
    (hfailed : failure process requestId exc = some failed) : errorOf process failed = exc := by
  have hpickle (text : List Char) :
      portablePickle process exc (some FAILURE_LIMIT) text = some (.itself, blob) := by
    refine portablePickle_of_rebuilt text hdumps ?_ ?_
    · intro bound hbound
      cases hbound
      exact hfits
    · rw [hhere]
      exact Option.some_ne_none _
  have hbase : isBaseException exc = true := isBaseException_of_isException hordinary.1
  cases hcause : batchCause process exc with
  | none =>
    have htry : tryFailure process requestId exc =
        some ⟨requestId, blob, describe process exc, false⟩ := by
      rw [tryFailure, hcause]
      simp only [hordinary.1, if_true]
      rw [hpickle]
      rfl
    rw [failure, htry] at hfailed
    cases hfailed
    exact errorOf_of_rebuilt hthere hbase (fun h => absurd h Bool.false_ne_true)
  | some cause =>
    have htry : tryFailure process requestId exc =
        some ⟨requestId, blob, describe process cause, true⟩ := by
      rw [tryFailure, hcause]
      show batchFailure process requestId exc cause = _
      rw [batchFailure]
      simp only [hordinary.2 cause hcause, if_true]
      rw [hpickle]
      rfl
    rw [failure, htry] at hfailed
    cases hfailed
    exact errorOf_of_rebuilt hthere hbase (fun _ => by rw [hcause]; rfl)

/-- A failure crosses the link as it is to, exactly if its exception keeps its kind. -/
theorem crosses_iff (hlawful : Lawful process) (requestId : ℕ) (exc : Obj E O) :
    Crosses process requestId exc ↔ KeepsKind process exc := by
  obtain ⟨failed, hfailed, hsent⟩ := exists_sent hlawful requestId exc
  constructor
  · rintro ⟨other, hother, -, -, -, hexc, hbatch, -⟩ hordinary hnone blob error hdumps hfits hloads
      hthere hbase
    -- It is sent as itself, and arrives as what it is rebuilt as.
    have htry : tryFailure process requestId exc =
        some ⟨requestId, blob, describe process exc, false⟩ := by
      rw [tryFailure, hnone]
      simp only [hordinary, if_true]
      rw [portablePickle_of_rebuilt _ hdumps ?_ hloads]
      · rfl
      · intro bound hbound
        cases hbound
        exact hfits
    rw [failure, htry] at hother
    cases hother
    rw [errorOf_of_rebuilt hthere hbase (fun h => absurd h Bool.false_ne_true)] at hexc hbatch
    rw [hnone] at hbatch
    exact ⟨hexc, Option.not_isSome_iff_eq_none.mp (by rw [hbatch]; exact Bool.false_ne_true)⟩
  · intro hkeeps
    obtain ⟨hexc, hbatch⟩ := hsent.errorOf_spec hlawful hkeeps
    refine ⟨failed, hfailed, hsent.requestId, hsent.description, hsent.size_le hlawful, hexc,
      hbatch, ?_⟩
    intro blob hordinary hdumps hfits hhere hthere
    exact errorOf_of_roundTrip hordinary hdumps hfits hhere hthere hfailed

/-! ### An exception that is rebuilt as `SystemExit` -/

/-- An `Exception` with a `__reduce__` that names `SystemExit`, and `SystemExit`. -/
inductive Exiting where
  | sly
  | systemExit
  deriving DecidableEq

/-- What a pickle of an object is rebuilt as. -/
def rebuild : Obj Exiting Unit → Obj Exiting Unit
  | .raised _ => .raised .systemExit
  | .runtimeError text => .runtimeError text
  | .modelServerError text => .modelServerError text
  | .batchFailed cause => .batchFailed (rebuild cause)
  | .other obj => .other obj

def characters : Obj Exiting Unit → ℕ
  | .runtimeError text => text.length
  | .modelServerError text => text.length
  | .batchFailed cause => characters cause
  | _ => 0

/-- The two classes; a pickle is the object that was pickled. -/
def exitingProcess : Process Exiting Unit (Obj Exiting Unit) where
  kind
    | .sly => .ordinary
    | .systemExit => .bare
  moduleName
    | .sly => "model".toList
    | .systemExit => "builtins".toList
  qualname
    | .sly => "Sly".toList
    | .systemExit => "SystemExit".toList
  className
    | .sly => "Sly".toList
    | .systemExit => "SystemExit".toList
  otherModule _ := "builtins".toList
  otherQualname _ := "object".toList
  otherName _ := "object".toList
  str _ := some []
  otherStr _ := none
  dumps := some
  size obj := 4 * characters obj + 100
  loads obj := some (rebuild obj)
  loadsThere obj := some (rebuild obj)

theorem lawful_exitingProcess : Lawful exitingProcess where
  runtimeError text := ⟨_, rfl, Nat.add_le_add_left (by decide) _, rfl, rfl⟩
  batchFailed text := ⟨_, rfl, Nat.add_le_add_left (by decide) _, rfl, rfl⟩

/-- It arrives as `SystemExit`. -/
theorem not_crosses : ¬ Crosses exitingProcess 1 (.raised .sly) := by
  rintro ⟨failed, hfailed, -, -, -, hexc, -⟩
  have hsome : failure exitingProcess 1 (.raised .sly) =
      some ⟨1, .raised .sly, "model.Sly: ".toList, false⟩ := rfl
  rw [hsome] at hfailed
  cases hfailed
  cases hexc

/-- As the cause of a batch failure it does no harm. -/
theorem crosses_iff_batch : Crosses exitingProcess 1 (.batchFailed (.raised .sly)) ↔
    KeepsKind exitingProcess (.batchFailed (.raised .sly)) :=
  crosses_iff lawful_exitingProcess 1 (.batchFailed (.raised .sly))

end ReactorRuntime.ModelServer.Failures
