import Dalm.Codec.Json
import Dalm.PhotoEmbeddings
import Dalm.PhotoValidation

/-! The reports of the AI workers: what a worker can send, and what the server takes. The server's
request models ask for more than the workers' own classes do. -/
namespace Dalm
open Codec Codec.Json PhotoValidationRepository

/-- A decision that passed `__post_init__`. -/
structure ValidationDecision where
  status : Verdict
  scores : List (String × ℚ)
  modelName : String
  modelVersion : String
  rejectionCode : Option String
  rejected : status = .rejected → rejectionCode ≠ none
  passed : status = .passed → rejectionCode = none
  scored : ∀ score ∈ scores, 0 ≤ score.2 ∧ score.2 ≤ 1
deriving DecidableEq

structure ValidationProviderError where
  code : String
  message : String
  retryable : Bool
deriving DecidableEq

def Verdict.text : Verdict → String
  | .passed => "PASSED"
  | .rejected => "REJECTED"

section workers

def HttpValidationBackend.complete (workerId : String) (decision : ValidationDecision) (processingTimeMs : Int) :
    Json :=
  .object [("status",.string (Verdict.text decision.status)),
    ("scores",ofDict .number decision.scores),
    ("rejection_code",ofOption .string decision.rejectionCode),
    ("model_name",.string decision.modelName),
    ("model_version",.string decision.modelVersion),
    ("processing_time_ms",.number processingTimeMs),
    ("worker_id",.string workerId)]

/-- What both backends send of an error. -/
def failure (workerId : String) (error : ValidationProviderError) : Json :=
  .object [("worker_id",.string workerId),
    ("error_code",.string error.code),
    ("error_message",.string error.message),
    ("retryable",.bool error.retryable)]

def HttpValidationBackend.fail (workerId : String) (error : ValidationProviderError) : Json := failure workerId error

def HttpEmbeddingBackend.fail (workerId : String) (error : ValidationProviderError) : Json := failure workerId error

def HttpEmbeddingBackend.complete (workerId : String) (embedding : PhotoEmbeddingData) : Json :=
  .object [("worker_id",.string workerId),
    ("scene",ofList .number embedding.scene),
    ("object_action",ofList .number embedding.objectAction),
    ("composition",ofList .number embedding.composition),
    ("color",ofList .number embedding.color),
    ("mood",ofList .number embedding.mood),
    ("labels",ofDict (ofList .string) embedding.labels),
    ("model_name",.string (String.ofList embedding.modelName)),
    ("model_version",.string (String.ofList embedding.modelVersion))]

/-- The report of `run_validation_once` on a claimed job, by what the provider came to. -/
def runValidationOnce (workerId : String) (elapsedMs : Int) : Except ValidationProviderError ValidationDecision → Json
  | .error error => HttpValidationBackend.fail workerId error
  | .ok decision => HttpValidationBackend.complete workerId decision (max 0 elapsedMs)

/-- What a provider raises: an error of its own, or a ValueError. -/
inductive ExtractionError where
  | provider (error : ValidationProviderError)
  | valueError (text : String)

def ExtractionError.error : ExtractionError → ValidationProviderError
  | .provider error => error
  | .valueError text => ⟨"EMBEDDING_INVALID_INPUT",text,false⟩

/-- The report of `run_embedding_once` on a claimed job, by what the provider came to. -/
def runEmbeddingOnce (workerId : String) : Except ExtractionError PhotoEmbeddingData → Json
  | .error error => HttpEmbeddingBackend.fail workerId error.error
  | .ok embedding => HttpEmbeddingBackend.complete workerId embedding

end workers

section server

def rejectionCodes : List String :=
  ["TOO_BLURRY","TOO_DARK","SCREENSHOT","TEXT_DOMINANT","QR_OR_BARCODE","SENSITIVE_INFORMATION","SEXUAL_OR_VIOLENT",
    "ADVERTISEMENT","DUPLICATE_PHOTO"]

def asVerdict (json : Json) : Option Verdict :=
  json.asString.bind fun text =>
    if text = "PASSED" then some .passed else if text = "REJECTED" then some .rejected else none

/-- `validate_result` -/
def isConsistent (result : Result) : Bool :=
  (result.status = .rejected → result.rejectionCode ≠ none) ∧
    (result.status = .passed → result.rejectionCode = none) ∧
    ∀ scores ∈ result.scores, ∀ score ∈ scores, 0 ≤ score.2 ∧ score.2 ≤ 1

def PhotoValidationResultRequest.validate (body : Json) : Option Result := do
  let status ← body.required "status" asVerdict
  let scores ← body.defaulted "scores" none (asOptional (asDict asNumber))
  let rejectionCode ← body.defaulted "rejection_code" none (asOptional (asLiteral rejectionCodes))
  let modelName ← body.required "model_name" (asText 1 100)
  let modelVersion ← body.required "model_version" (asText 1 50)
  let processingTimeMs ← body.required "processing_time_ms" asNat
  let workerId ← body.defaulted "worker_id" none (asOptional (asText 1 100))
  Option.guard isConsistent ⟨status,scores,rejectionCode,modelName,modelVersion,processingTimeMs,workerId⟩

def PhotoValidationFailureRequest.validate (body : Json) : Option FailureReport := do
  let workerId ← body.required "worker_id" (asText 1 100)
  let errorCode ← body.required "error_code" (asText 1 50)
  let errorMessage ← body.defaulted "error_message" none (asOptional (asText 0 500))
  let retryable ← body.required "retryable" asBool
  return ⟨workerId,errorCode,errorMessage,retryable⟩

/-- A list with an item at least. -/
def asVector (json : Json) : Option (List ℚ) := (json.asList asNumber).filter fun vector => vector ≠ []

/-- `PhotoEmbeddingData(...)` -/
def embeddingData (scene objectAction composition color mood : List ℚ) (labels : List (String × List String))
    (modelName modelVersion : List Char) : Option PhotoEmbeddingData :=
  if vectors : ∀ vector ∈ [scene,objectAction,composition,color,mood], vector ≠ [] then
    if named : strip modelName ≠ [] ∧ strip modelVersion ≠ [] then
      some ⟨scene,objectAction,composition,color,mood,labels,modelName,modelVersion,vectors,named⟩
    else none
  else none

/-- The request, and the embedding the endpoint makes of it. -/
def PhotoEmbeddingResultRequest.validate (body : Json) : Option (String × PhotoEmbeddingData) := do
  let workerId ← body.required "worker_id" (asText 1 100)
  let scene ← body.required "scene" asVector
  let objectAction ← body.required "object_action" asVector
  let composition ← body.required "composition" asVector
  let color ← body.required "color" asVector
  let mood ← body.required "mood" asVector
  let labels ← body.defaulted "labels" [] (asDict (asList asString))
  let modelName ← body.required "model_name" (asText 1 100)
  let modelVersion ← body.required "model_version" (asText 1 50)
  let embedding ← embeddingData scene objectAction composition color mood labels modelName.toList modelVersion.toList
  return (workerId,embedding)

end server

/-- What the server asks of a decision beyond what its class asks. -/
structure ValidationDecision.Fits (decision : ValidationDecision) : Prop where
  code : ∀ code ∈ decision.rejectionCode, code ∈ rejectionCodes
  modelName : 1 ≤ decision.modelName.length ∧ decision.modelName.length ≤ 100
  modelVersion : 1 ≤ decision.modelVersion.length ∧ decision.modelVersion.length ≤ 50

structure ValidationProviderError.Fits (error : ValidationProviderError) : Prop where
  code : 1 ≤ error.code.length ∧ error.code.length ≤ 50
  message : error.message.length ≤ 500

structure PhotoEmbeddingData.Fits (embedding : PhotoEmbeddingData) : Prop where
  modelName : embedding.modelName.length ≤ 100
  modelVersion : embedding.modelVersion.length ≤ 50

section reading
variable {α : Type} {members : List (String × Json)} {name : String} {json : Json} {read : Json → Option α}

theorem required_object (found : members.lookup name = some json) :
    (Json.object members).required name read = read json := congrArg (Option.bind · read) found

theorem defaulted_object {default_ : α} (json : Json) (found : members.lookup name = some json) :
    (Json.object members).defaulted name default_ read = read json := by
  have there : (Json.object members).member name = some json := found
  rw [defaulted,there]

theorem asText_eq_some {min max : Nat} {text text' : String} : (Json.string text).asText min max = some text' ↔
    text = text' ∧ min ≤ text.length ∧ text.length ≤ max := by
  rw [asText_string]
  split
  next fits => simp [fits]
  next fails => simp [fails]

theorem asOptional_code {codes : List String} {code code' : Option String} :
    (ofOption .string code).asOptional (asLiteral codes) = some code' ↔ code = code' ∧ ∀ text ∈ code, text ∈ codes := by
  cases code with
  | none => simp [ofOption,asOptional]
  | some text =>
    by_cases listed : text ∈ codes
    · simp [ofOption,asOptional,asLiteral,asString,listed]
    · simp [ofOption,asOptional,asLiteral,asString,listed]

end reading

section reports
variable {workerId : String} {decision : ValidationDecision} {error : ValidationProviderError}
  {embedding : PhotoEmbeddingData} {n : Int}

/-- The result a decision is to arrive as. -/
def ValidationDecision.result (decision : ValidationDecision) (processingTimeMs : Nat) (workerId : String) : Result :=
  ⟨decision.status,some decision.scores,decision.rejectionCode,decision.modelName,decision.modelVersion,
    processingTimeMs,some workerId⟩

theorem isConsistent_result : isConsistent (decision.result n.toNat workerId) = true := by
  refine decide_eq_true ⟨decision.rejected,decision.passed,fun scores member => ?_⟩
  cases member
  exact decision.scored

theorem validate_complete (named : 1 ≤ workerId.length ∧ workerId.length ≤ 100) (whole : 0 ≤ n) :
    PhotoValidationResultRequest.validate (HttpValidationBackend.complete workerId decision n) =
      some (decision.result n.toNat workerId) ↔ decision.Fits := by
  constructor
  · intro taken
    obtain ⟨_,_,taken⟩ := Option.bind_eq_some_iff.mp taken
    obtain ⟨_,_,taken⟩ := Option.bind_eq_some_iff.mp taken
    obtain ⟨_,code,taken⟩ := Option.bind_eq_some_iff.mp taken
    obtain ⟨_,name,taken⟩ := Option.bind_eq_some_iff.mp taken
    obtain ⟨_,version,_⟩ := Option.bind_eq_some_iff.mp taken
    exact ⟨(asOptional_code.mp ((defaulted_object _ rfl).symm.trans code)).2,
      (asText_eq_some.mp ((required_object rfl).symm.trans name)).2,
      (asText_eq_some.mp ((required_object rfl).symm.trans version)).2⟩
  · intro fits
    refine Option.bind_eq_some_iff.mpr ⟨decision.status,?_,Option.bind_eq_some_iff.mpr ⟨some decision.scores,?_,
      Option.bind_eq_some_iff.mpr ⟨decision.rejectionCode,?_,Option.bind_eq_some_iff.mpr ⟨decision.modelName,?_,
      Option.bind_eq_some_iff.mpr ⟨decision.modelVersion,?_,Option.bind_eq_some_iff.mpr ⟨n.toNat,?_,
      Option.bind_eq_some_iff.mpr ⟨some workerId,?_,?_⟩⟩⟩⟩⟩⟩⟩
    · refine (required_object rfl).trans ?_
      cases decision.status <;> rfl
    · refine (defaulted_object _ rfl).trans ?_
      exact congrArg (Option.map some) (asDict_ofDict fun _ _ => rfl)
    · exact (defaulted_object _ rfl).trans (asOptional_code.mpr ⟨rfl,fits.code⟩)
    · exact (required_object rfl).trans (asText_eq_some.mpr ⟨rfl,fits.modelName⟩)
    · exact (required_object rfl).trans (asText_eq_some.mpr ⟨rfl,fits.modelVersion⟩)
    · exact (required_object rfl).trans (asNat_number whole)
    · refine (defaulted_object _ rfl).trans ?_
      exact congrArg (Option.map some) (asText_eq_some.mpr ⟨rfl,named⟩)
    · rw [Option.guard_eq_some_iff]
      exact ⟨rfl,isConsistent_result⟩

theorem validate_failure (named : 1 ≤ workerId.length ∧ workerId.length ≤ 100) :
    PhotoValidationFailureRequest.validate (failure workerId error) =
      some ⟨workerId,error.code,some error.message,error.retryable⟩ ↔ error.Fits := by
  constructor
  · intro taken
    obtain ⟨_,_,taken⟩ := Option.bind_eq_some_iff.mp taken
    obtain ⟨_,code,taken⟩ := Option.bind_eq_some_iff.mp taken
    obtain ⟨read,message,_⟩ := Option.bind_eq_some_iff.mp taken
    have text : ((Json.string error.message).asText 0 500).map some = some read :=
      (defaulted_object (.string error.message) rfl).symm.trans message
    obtain ⟨_,text,_⟩ := Option.map_eq_some_iff.mp text
    exact ⟨(asText_eq_some.mp ((required_object rfl).symm.trans code)).2,(asText_eq_some.mp text).2.2⟩
  · intro fits
    refine Option.bind_eq_some_iff.mpr ⟨workerId,?_,Option.bind_eq_some_iff.mpr ⟨error.code,?_,
      Option.bind_eq_some_iff.mpr ⟨some error.message,?_,Option.bind_eq_some_iff.mpr ⟨error.retryable,?_,rfl⟩⟩⟩⟩
    · exact (required_object rfl).trans (asText_eq_some.mpr ⟨rfl,named⟩)
    · exact (required_object rfl).trans (asText_eq_some.mpr ⟨rfl,fits.code⟩)
    · refine (defaulted_object _ rfl).trans ?_
      exact congrArg (Option.map some) (asText_eq_some.mpr ⟨rfl,Nat.zero_le _,fits.message⟩)
    · exact (required_object rfl).trans rfl

theorem asVector_ofList {vector : List ℚ} (filled : vector ≠ []) :
    asVector (ofList .number vector) = some vector := by
  have whole : (ofList .number vector).asList asNumber = some vector := asList_ofList fun _ _ => rfl
  rw [asVector,whole,Option.filter_some,if_pos (decide_eq_true filled)]

theorem embeddingData_fields (embedding : PhotoEmbeddingData) : embeddingData embedding.scene embedding.objectAction
    embedding.composition embedding.color embedding.mood embedding.labels embedding.modelName embedding.modelVersion =
      some embedding := by
  rw [embeddingData,dif_pos embedding.vectors,dif_pos embedding.named]

theorem length_of_strip {text : List Char} (kept : strip text ≠ []) : 1 ≤ text.length := by
  cases text with
  | nil => exact absurd rfl kept
  | cons => simp

theorem validate_embedding (named : 1 ≤ workerId.length ∧ workerId.length ≤ 100) :
    PhotoEmbeddingResultRequest.validate (HttpEmbeddingBackend.complete workerId embedding) =
      some (workerId,embedding) ↔ embedding.Fits := by
  constructor
  · intro taken
    obtain ⟨_,_,taken⟩ := Option.bind_eq_some_iff.mp taken
    obtain ⟨_,_,taken⟩ := Option.bind_eq_some_iff.mp taken
    obtain ⟨_,_,taken⟩ := Option.bind_eq_some_iff.mp taken
    obtain ⟨_,_,taken⟩ := Option.bind_eq_some_iff.mp taken
    obtain ⟨_,_,taken⟩ := Option.bind_eq_some_iff.mp taken
    obtain ⟨_,_,taken⟩ := Option.bind_eq_some_iff.mp taken
    obtain ⟨_,_,taken⟩ := Option.bind_eq_some_iff.mp taken
    obtain ⟨_,name,taken⟩ := Option.bind_eq_some_iff.mp taken
    obtain ⟨_,version,_⟩ := Option.bind_eq_some_iff.mp taken
    have name := (asText_eq_some.mp ((required_object rfl).symm.trans name)).2.2
    have version := (asText_eq_some.mp ((required_object rfl).symm.trans version)).2.2
    rw [String.length_ofList] at name version
    exact ⟨name,version⟩
  · intro fits
    have filled := embedding.vectors
    simp only [List.mem_cons,List.not_mem_nil,or_false,forall_eq_or_imp,forall_eq] at filled
    obtain ⟨scene,objectAction,composition,color,mood⟩ := filled
    refine Option.bind_eq_some_iff.mpr ⟨workerId,?_,Option.bind_eq_some_iff.mpr ⟨embedding.scene,?_,
      Option.bind_eq_some_iff.mpr ⟨embedding.objectAction,?_,Option.bind_eq_some_iff.mpr ⟨embedding.composition,?_,
      Option.bind_eq_some_iff.mpr ⟨embedding.color,?_,Option.bind_eq_some_iff.mpr ⟨embedding.mood,?_,
      Option.bind_eq_some_iff.mpr ⟨embedding.labels,?_,
      Option.bind_eq_some_iff.mpr ⟨String.ofList embedding.modelName,?_,
      Option.bind_eq_some_iff.mpr ⟨String.ofList embedding.modelVersion,?_,
      Option.bind_eq_some_iff.mpr ⟨embedding,?_,rfl⟩⟩⟩⟩⟩⟩⟩⟩⟩⟩
    · exact (required_object rfl).trans (asText_eq_some.mpr ⟨rfl,named⟩)
    · exact (required_object rfl).trans (asVector_ofList scene)
    · exact (required_object rfl).trans (asVector_ofList objectAction)
    · exact (required_object rfl).trans (asVector_ofList composition)
    · exact (required_object rfl).trans (asVector_ofList color)
    · exact (required_object rfl).trans (asVector_ofList mood)
    · exact (defaulted_object _ rfl).trans (asDict_ofDict fun _ _ => asList_ofList fun _ _ => rfl)
    · refine (required_object rfl).trans (asText_eq_some.mpr ⟨rfl,?_⟩)
      rw [String.length_ofList]
      exact ⟨length_of_strip embedding.named.1,fits.modelName⟩
    · refine (required_object rfl).trans (asText_eq_some.mpr ⟨rfl,?_⟩)
      rw [String.length_ofList]
      exact ⟨length_of_strip embedding.named.2,fits.modelVersion⟩
    · rw [String.toList_ofList,String.toList_ofList]
      exact embeddingData_fields embedding

/-- The server takes what a worker sends of a decision, an error or an embedding, as it was, exactly when its
texts have the lengths the request asks for and the rejection code is one of the nine. -/
theorem workerReports (named : 1 ≤ workerId.length ∧ workerId.length ≤ 100) :
    (∀ decision elapsedMs, PhotoValidationResultRequest.validate (runValidationOnce workerId elapsedMs (.ok decision)) =
      some (decision.result elapsedMs.toNat workerId) ↔ decision.Fits) ∧
    (∀ error elapsedMs, PhotoValidationFailureRequest.validate (runValidationOnce workerId elapsedMs (.error error)) =
      some ⟨workerId,error.code,some error.message,error.retryable⟩ ↔ error.Fits) ∧
    (∀ embedding, PhotoEmbeddingResultRequest.validate (runEmbeddingOnce workerId (.ok embedding)) =
      some (workerId,embedding) ↔ embedding.Fits) ∧
    ∀ error : ExtractionError, PhotoValidationFailureRequest.validate (runEmbeddingOnce workerId (.error error)) =
      some ⟨workerId,error.error.code,some error.error.message,error.error.retryable⟩ ↔ error.error.Fits := by
  refine ⟨fun decision elapsedMs => ?_,fun error _ => validate_failure named,fun embedding => validate_embedding named,
    fun error => validate_failure named⟩
  have rounded : elapsedMs.toNat = (max 0 elapsedMs).toNat := by omega
  rw [rounded]
  exact validate_complete named (le_max_left 0 elapsedMs)

end reports

namespace Sample

/-- What the mock provider decides of a photo it is told to reject. -/
def mockRejection (code : String) : ValidationDecision :=
  ⟨.rejected,[("QUALITY",1/100),("QR_BARCODE",99/100)],"dalm-mock-validator","1",some code,fun _ => nofun,nofun,by
    decide +kernel⟩

end Sample

theorem workerReports_screenshot : PhotoValidationResultRequest.validate (runValidationOnce "worker-1" 12
    (.ok (Sample.mockRejection "SCREENSHOT"))) = some ((Sample.mockRejection "SCREENSHOT").result 12 "worker-1") :=
  ((workerReports (by decide +kernel)).1 _ 12).mpr ⟨fun text member => by
    cases member
    decide +kernel,by decide +kernel,by decide +kernel⟩

/-- A check that the server asked for by name is no code it takes. -/
theorem workerReports_check : ¬ ∀ workerId : String, 1 ≤ workerId.length ∧ workerId.length ≤ 100 →
    (∀ decision elapsedMs, PhotoValidationResultRequest.validate (runValidationOnce workerId elapsedMs (.ok decision)) =
      some (decision.result elapsedMs.toNat workerId)) ∧
    (∀ error elapsedMs, PhotoValidationFailureRequest.validate (runValidationOnce workerId elapsedMs (.error error)) =
      some ⟨workerId,error.code,some error.message,error.retryable⟩) ∧
    (∀ embedding, PhotoEmbeddingResultRequest.validate (runEmbeddingOnce workerId (.ok embedding)) =
      some (workerId,embedding)) ∧
    ∀ error : ExtractionError, PhotoValidationFailureRequest.validate (runEmbeddingOnce workerId (.error error)) =
      some ⟨workerId,error.error.code,some error.error.message,error.error.retryable⟩ := by
  intro claim
  have named : 1 ≤ "worker-1".length ∧ "worker-1".length ≤ 100 := by decide +kernel
  have taken := (claim "worker-1" named).1 (Sample.mockRejection "QR_BARCODE") 12
  have fits := (validate_complete named (by decide)).mp taken
  exact absurd (fits.code "QR_BARCODE" rfl) (by decide +kernel)

end Dalm
