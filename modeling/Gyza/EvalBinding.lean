import Gyza.CapabilityEval
import Gyza.Closure
import Gyza.Identity
import Gyza.LineageRuns

/-! What an evaluation's envelope commits to: the text behind its `output_hash` against
the output that was judged, and against the artifact that the runner hashed. -/

namespace Gyza

open CanonJson (Doc FloatText)
open Hex (Bytes utf8)
open PyNumber (FloatFormat)
open PyValue (Fields Value dictGet)

section Texts

variable {φ : Type} (crypto : Crypto) (format : FloatFormat φ)
  -- `json.loads`; nothing where it raises
  (loads : String → Option (Doc φ))

theorem canonical_eq_iff (document other : Doc φ) :
    canonical format document = canonical format other ↔ document.normal = other.normal := by
  constructor
  · intro same
    exact Doc.dumps_injective format.toFloatText (Hex.utf8_injective same)
  · intro same
    rw [canonical, canonical, same]

theorem outputTextHash_injective (ideal : Function.Injective crypto.blake3) :
    Function.Injective (outputTextHash crypto format) := by
  intro text other same
  have documents := (canonical_eq_iff format _ _).mp (crypto.hexdigest_injective ideal same)
  simpa [Doc.normal, Doc.normalFields, Doc.sortFields, Doc.lastOfEach] using documents

/-- The text parses to this dictionary, up to the order of its keys. -/
def ReadsAs (text : String) (fields : List (String × Doc φ)) : Prop :=
  ∃ parsed, loads text = some (.obj parsed) ∧ (Doc.obj parsed).normal = (Doc.obj fields).normal

/-- For every task there is a text behind the `output_hash` of its envelope, and every
such text parses to the task's expected output. -/
def SignsExpected (results : Dict String (EvalResult φ)) (nonce : String)
    (tasks : List (EvalTask φ)) : Prop :=
  ∀ task ∈ tasks, ∃ result env expected, results.lookup task.taskId = some result ∧
    result.envelope = some env ∧ task.expectedOutput nonce = .ok expected ∧
    (∃ text, outputTextHash crypto format text = env.outputHash) ∧
    ∀ text, outputTextHash crypto format text = env.outputHash → ReadsAs loads text expected

/-- The text beside every output parses to that output. -/
def TextsReadAsOutputs (results : Dict String (EvalResult φ)) (tasks : List (EvalTask φ)) : Prop :=
  ∀ task ∈ tasks, ∀ result output, results.lookup task.taskId = some result →
    result.output = some output → ReadsAs loads result.outputText output

/-- What a task that passes says of its result. -/
theorem verifyOne_ok {task : EvalTask φ} {result : Option (EvalResult φ)} {applicantPubkey : String}
    {applicantPubkeyBytes : Bytes} {nonce : String}
    (passed : verifyOne crypto format task result applicantPubkey applicantPubkeyBytes nonce = .ok ()) :
    ∃ given env output expected, result = some given ∧ given.envelope = some env ∧
      given.output = some output ∧ task.expectedOutput nonce = .ok expected ∧
      outputTextHash crypto format given.outputText = env.outputHash ∧
      (Doc.obj output).normal = (Doc.obj expected).normal := by
  simp only [verifyOne, Checks.bind_ok_iff, Checks.present_ok_iff, Checks.demand_ok_iff,
    Checks.each_ok_iff, Checks.wrap_ok_iff, exists_const, canonical_eq_iff] at passed
  obtain ⟨given, found, -, env, enveloped, output, claimed, -, -, -, binds, expected, wanted, same⟩ :=
    passed
  exact ⟨given, env, output, expected, found, enveloped, claimed, wanted, binds, same⟩

/-- A bundle that passes has signed the expected outputs exactly when every text in it
parses to the output beside it. -/
theorem passed_signs_expected_iff (ideal : Function.Injective crypto.blake3)
    (results : Dict String (EvalResult φ)) (applicantPubkey nonce : String)
    (tasks : List (EvalTask φ))
    (passed : (verifyEvalResults crypto format results applicantPubkey nonce tasks).passed = true) :
    SignsExpected crypto format loads results nonce tasks ↔
      TextsReadAsOutputs loads results tasks := by
  obtain ⟨bytes, -, -, each⟩ := (evaluation_passed_iff crypto format _ _ _ _).mp passed
  constructor
  · intro signs task listed result output found claimed
    obtain ⟨given, env, output', expected, found', enveloped, claimed', wanted, binds, same⟩ :=
      verifyOne_ok crypto format (each task listed)
    cases found.symm.trans found'
    cases claimed.symm.trans claimed'
    obtain ⟨result', env', expected', found'', enveloped', wanted', -, reads⟩ := signs task listed
    cases found.symm.trans found''
    cases enveloped.symm.trans enveloped'
    cases wanted.symm.trans wanted'
    obtain ⟨parsed, loaded, read⟩ := reads _ binds
    exact ⟨parsed, loaded, read.trans same.symm⟩
  · intro reads task listed
    obtain ⟨given, env, output, expected, found, enveloped, claimed, wanted, binds, same⟩ :=
      verifyOne_ok crypto format (each task listed)
    refine ⟨given, env, expected, found, enveloped, wanted, ⟨_, binds⟩, fun text committed => ?_⟩
    have signed : text = given.outputText :=
      outputTextHash_injective crypto format ideal (committed.trans binds.symm)
    obtain ⟨parsed, loaded, read⟩ := reads task listed given output found claimed
    exact ⟨parsed, signed ▸ loaded, read.trans same⟩

end Texts

/-! The runner's side: the artifact it hashes, against the text it recorded. -/

section Runner

open Spawn (Agent Execution ExecuteResult Posting artifactHash artifactObject enforcementPart)

/-- The executor's result has no enforcement record and asks for no subtasks. -/
def PlainResult (fields : Fields) : Prop :=
  Audit.enforcementOf fields = .none ∧ (Audit.subtasksOf fields).truthy = false

variable {agent : Agent} {fields : Fields} {posting : Option Posting}

theorem enforcementPart_names (record : Value) :
    record = .none ∧ (enforcementPart record).map Prod.fst = [] ∨
      record ≠ .none ∧ (enforcementPart record).map Prod.fst = ["__enforcement__"] := by
  cases record <;> simp [enforcementPart]

/-- The names of the parts of an artifact. -/
theorem artifactObject_names (fields : Fields) (posting : Option Posting) :
    ∃ part : List String, (artifactObject fields posting).map Prod.fst =
        "text" :: ((enforcementPart (Audit.enforcementOf fields)).map Prod.fst ++ part) ∧
      (posting = none ∧ part = [] ∨ posting ≠ none ∧
        (part = ["__subtasks__"] ∨ part = ["__subtasks__", "__combine__"])) := by
  cases posting with
  | none => exact ⟨[], by simp [artifactObject], Or.inl ⟨rfl, rfl⟩⟩
  | some spawned =>
      cases combined : spawned.combineId with
      | none => exact ⟨["__subtasks__"], by simp [artifactObject, combined], by simp⟩
      | some child =>
          by_cases empty : child = ""
          · exact ⟨["__subtasks__"], by simp [artifactObject, combined, empty], by simp⟩
          · exact ⟨["__subtasks__", "__combine__"], by simp [artifactObject, combined, empty], by simp⟩

theorem artifactObject_distinct (fields : Fields) (posting : Option Posting) :
    ((artifactObject fields posting).map Prod.fst).Nodup := by
  obtain ⟨part, names, parts⟩ := artifactObject_names fields posting
  rw [names]
  rcases enforcementPart_names (Audit.enforcementOf fields) with ⟨-, record⟩ | ⟨-, record⟩ <;>
    rcases parts with ⟨-, rfl⟩ | ⟨-, rfl | rfl⟩ <;> rw [record] <;> decide

theorem artifactObject_unnamed_iff (fields : Fields) (posting : Option Posting) :
    "__enforcement__" ∉ (artifactObject fields posting).map Prod.fst ∧
        "__subtasks__" ∉ (artifactObject fields posting).map Prod.fst ↔
      Audit.enforcementOf fields = .none ∧ posting = none := by
  obtain ⟨part, names, parts⟩ := artifactObject_names fields posting
  rw [names]
  rcases enforcementPart_names (Audit.enforcementOf fields) with ⟨none, record⟩ | ⟨some, record⟩
  · rw [record]
    rcases parts with ⟨rfl, rfl⟩ | ⟨posted, rfl | rfl⟩
    · simp [none]
    · simp [posted]
    · simp [posted]
  · simp [record, some]

/-- The hash of an artifact, whatever its parts, is a text's hash exactly when the text
is its only part. -/
theorem artifactHash_eq_iff {format : FloatFormat Float}
    (texts : agent.python.floatRepr = format.repr) (ideal : Function.Injective agent.crypto.blake3)
    {text hash : String} (recorded : dictGet fields "text" (.str "") = .str text)
    (hashed : artifactHash agent (artifactObject fields posting) = some hash) :
    hash = outputTextHash agent.crypto format text ↔
      Audit.enforcementOf fields = .none ∧ posting = none := by
  obtain ⟨document, converted, rfl⟩ := Option.map_eq_some_iff.mp hashed
  constructor
  · intro same
    rw [texts] at same
    have documents : document.normal = (Doc.obj [("text", .str text)]).normal :=
      (canonical_eq_iff format _ _).mp (agent.crypto.hexdigest_injective ideal same)
    have absent : ∀ key, key ≠ "text" → key ∉ (artifactObject fields posting).map Prod.fst := by
      intro key other member
      obtain ⟨sorted, read, held⟩ :=
        Identity.isSome_lookup_normal (artifactObject_distinct fields posting) converted key
      rw [Doc.isSome_lookup (artifactObject fields posting), decide_eq_true member, Doc.isSome_lookup,
        decide_eq_true_iff] at held
      rw [read] at documents
      cases documents
      simp [Doc.normalFields, Doc.sortFields, Doc.lastOfEach] at held
      exact other held
    exact (artifactObject_unnamed_iff fields posting).mp
      ⟨absent _ (by decide), absent _ (by decide)⟩
  · rintro ⟨unenforced, rfl⟩
    have plain : artifactObject fields none = [("text", .str text)] := by
      simp [artifactObject, unenforced, enforcementPart, recorded]
    rw [plain] at converted
    cases converted
    rw [texts]
    rfl

theorem finish_outputHash {execution : Execution} {result : ExecuteResult}
    (finished : Spawn.finish agent execution fields posting = .ok result) :
    artifactHash agent (artifactObject fields posting) = some result.outputHash := by
  unfold Spawn.finish at finished
  cases hashed : artifactHash agent (artifactObject fields posting) with
  | none =>
      rw [hashed] at finished
      cases finished
  | some outputHash =>
      rw [hashed] at finished
      dsimp only at finished
      split_ifs at finished with missing
      simp only [Checks.bind_ok_iff, Checks.pure_ok_iff] at finished
      obtain ⟨_, _, _, _, rfl⟩ := finished
      rfl

/-- An execution that gives a result has hashed an artifact, with a decomposition in it
exactly when one was asked for. -/
theorem execute_outputHash {item : WorkItem} {posting : Posting} {execution : Execution}
    {result : ExecuteResult} (accepted : (Spawn.execute agent item posting execution).2 = .ok result)
    (checked : Spawn.checkResult agent execution = .ok fields) :
    ∃ spawned, artifactHash agent (artifactObject fields spawned) = some result.outputHash ∧
      (spawned = none ↔ (Audit.subtasksOf fields).truthy = false) := by
  unfold Spawn.execute at accepted
  rw [checked] at accepted
  dsimp only at accepted
  by_cases asked : (Audit.subtasksOf fields).truthy = true
  · rw [if_pos asked] at accepted
    split at accepted
    · cases accepted
    · split at accepted
      · cases accepted
      · rename_i spawned _
        exact ⟨some spawned, finish_outputHash accepted, by simp [asked]⟩
  · rw [if_neg asked] at accepted
    exact ⟨none, finish_outputHash accepted, by simp [asked]⟩

/-- The hash of an accepted result is the one recomputed from its text exactly when the
result is plain. -/
theorem outputHash_binds_iff {format : FloatFormat Float}
    (texts : agent.python.floatRepr = format.repr) (ideal : Function.Injective agent.crypto.blake3)
    {item : WorkItem} {posting : Posting} {execution : Execution} {result : ExecuteResult}
    (accepted : (Spawn.execute agent item posting execution).2 = .ok result)
    (checked : Spawn.checkResult agent execution = .ok fields) {text : String}
    (recorded : dictGet fields "text" (.str "") = .str text) :
    result.outputHash = outputTextHash agent.crypto format text ↔ PlainResult fields := by
  obtain ⟨spawned, hashed, asked⟩ := execute_outputHash accepted checked
  rw [artifactHash_eq_iff texts ideal recorded hashed, asked]
  exact Iff.rfl

end Runner

/-! A bundle of an applicant that answers every task. -/

section Applicant

open Lineage (Fleet signAction)

variable {ι : Type} (fleet : Fleet ι) (runner : ι) (loads : String → Option (Doc Float))
  (nonce : String)

/-- The recorded result of a task: the runner accepted an executor result with these
fields and signed it, and its text parses to the output that the task expects. -/
structure AnswersTask (task : EvalTask Float) (answer : EvalResult Float) (fields : Fields)
    (result : Spawn.ExecuteResult) : Prop where
  succeeded : answer.succeeded = true
  accepted : ∃ item posting execution,
    (Spawn.execute (fleet.agents runner) item posting execution).2 = .ok result ∧
      Spawn.checkResult (fleet.agents runner) execution = .ok fields
  signed : ∃ item parentEnvelope timestampNs,
    answer.envelope = some (signAction fleet runner item result parentEnvelope timestampNs)
  text : dictGet fields "text" (.str "") = .str answer.outputText
  correct : ∃ output expected, loads answer.outputText = some (.obj output) ∧
    answer.output = some output ∧ task.expectedOutput nonce = .ok expected ∧
    (Doc.obj output).normal = (Doc.obj expected).normal ∧
    ∀ key ∈ task.outputKeys, checkKey output key = .ok ()

variable {fleet runner loads nonce}

theorem signAction_verifies (item : WorkItem) (result : Spawn.ExecuteResult)
    (parentEnvelope : Option ICPEnvelope) (timestampNs : Int) :
    verifyEnvelope fleet.crypto (signAction fleet runner item result parentEnvelope timestampNs)
      (fleet.keys runner).publicBytes = true := by
  have pubkey : pubkeyBytesOf (signAction fleet runner item result parentEnvelope timestampNs) =
      some (fleet.keys runner).publicBytes := Hex.fromhex_encode _
  have own : selfVerifies fleet.crypto
      (signAction fleet runner item result parentEnvelope timestampNs) = true :=
    signEnvelope_verifies (fleet.keys runner) _ rfl
  rw [selfVerifies, pubkey, Bool.and_eq_true] at own
  exact own.2

/-- A correct answer passes exactly when its hash is the one recomputed from its text. -/
theorem AnswersTask.passes_iff {format : FloatFormat Float} {task : EvalTask Float}
    {answer : EvalResult Float} {fields : Fields} {result : Spawn.ExecuteResult}
    (answers : AnswersTask fleet runner loads nonce task answer fields result) :
    verifyOne fleet.crypto format task (some answer) (fleet.keys runner).pubkeyHex
        (fleet.keys runner).publicBytes nonce = .ok () ↔
      result.outputHash = outputTextHash fleet.crypto format answer.outputText := by
  obtain ⟨item, parentEnvelope, timestampNs, enveloped⟩ := answers.signed
  obtain ⟨output, expected, loaded, claimed, wanted, same, typed⟩ := answers.correct
  have hashes : (signAction fleet runner item result parentEnvelope timestampNs).outputHash =
      result.outputHash := rfl
  simp only [verifyOne, Checks.bind_ok_iff, Checks.present_ok_iff, Checks.demand_ok_iff,
    Checks.each_ok_iff, Checks.wrap_ok_iff, exists_const, canonical_eq_iff]
  constructor
  · rintro ⟨given, found, -, env, enveloped', -, -, -, -, -, binds, -⟩
    cases found
    cases enveloped.symm.trans enveloped'
    exact hashes ▸ binds.symm
  · intro binds
    exact ⟨answer, rfl, answers.succeeded, _, enveloped, output, claimed, rfl,
      signAction_verifies item result parentEnvelope timestampNs, typed, binds ▸ hashes.symm,
      expected, wanted, same⟩

/-- An accepted result binds exactly when it carries no enforcement record and no
decomposition, and with it a bundle in which every answer is correct passes. -/
theorem honest_results_bind_iff (fleet : Fleet ι) (runner : ι) (format : FloatFormat Float)
    (texts : (fleet.agents runner).python.floatRepr = format.repr)
    (ideal : Function.Injective fleet.crypto.blake3) :
    (∀ item posting execution result fields text,
      (Spawn.execute (fleet.agents runner) item posting execution).2 = .ok result →
      Spawn.checkResult (fleet.agents runner) execution = .ok fields →
      dictGet fields "text" (.str "") = .str text →
        (result.outputHash = outputTextHash fleet.crypto format text ↔ PlainResult fields)) ∧
      ∀ loads nonce (results : Dict String (EvalResult Float)) tasks
        (given : String → Fields × Spawn.ExecuteResult),
        (∀ task ∈ tasks, ∃ answer, results.lookup task.taskId = some answer ∧
          AnswersTask fleet runner loads nonce task answer (given task.taskId).1
            (given task.taskId).2) →
          ((verifyEvalResults fleet.crypto format results (fleet.keys runner).pubkeyHex nonce
              tasks).passed = true ↔
            ∀ task ∈ tasks, PlainResult (given task.taskId).1) := by
  have shared := fleet.shared runner
  have binds : ∀ item posting execution result fields text,
      (Spawn.execute (fleet.agents runner) item posting execution).2 = .ok result →
      Spawn.checkResult (fleet.agents runner) execution = .ok fields →
      dictGet fields "text" (.str "") = .str text →
        (result.outputHash = outputTextHash fleet.crypto format text ↔ PlainResult fields) := by
    intro item posting execution result fields text accepted checked recorded
    rw [← shared] at ideal ⊢
    exact outputHash_binds_iff texts ideal accepted checked recorded
  refine ⟨binds, fun loads nonce results tasks given answered => ?_⟩
  have decoded : Hex.fromhex (fleet.keys runner).pubkeyHex = some (fleet.keys runner).publicBytes :=
    Hex.fromhex_encode _
  have passes : ∀ task ∈ tasks, (verifyOne fleet.crypto format task (results.lookup task.taskId)
      (fleet.keys runner).pubkeyHex (fleet.keys runner).publicBytes nonce = .ok () ↔
        PlainResult (given task.taskId).1) := by
    intro task listed
    obtain ⟨answer, found, answers⟩ := answered task listed
    obtain ⟨item, posting, execution, accepted, checked⟩ := answers.accepted
    rw [found, answers.passes_iff,
      binds item posting execution _ _ _ accepted checked answers.text]
  rw [evaluation_passed_iff]
  constructor
  · rintro ⟨bytes, read, -, each⟩ task listed
    cases decoded.symm.trans read
    exact (passes task listed).mp (each task listed)
  · intro plain
    exact ⟨_, decoded, (fleet.keys runner).publicBytes_length, fun task listed =>
      (passes task listed).mpr (plain task listed)⟩

end Applicant

namespace Sample

def evalFormat : FloatFormat Float where
  toFloatText := bitFloats
  value _ := 0
  ofInt _ := none

def evalAgent : Spawn.Agent :=
  { planner with
    python := { jsonPython with str := pathText }
    manifest := (agentManifest (.collection .list [.str "/a"]) [("memory_limit_mb", .int 512)]).fields }

def evalRunners : Lineage.Fleet Unit :=
  { runners with
    agents := fun _ => evalAgent
    shared := fun _ => rfl
    named := runners.named }

def countOutput : List (String × Doc Float) := [("count", .int 3)]

def countText : String := Doc.dumps bitFloats.repr (.obj countOutput)

def countLoads (text : String) : Option (Doc Float) :=
  if text = countText then some (.obj countOutput) else none

def countTask : EvalTask Float where
  taskId := "count_py_files"
  outputKeys := [("count", .int)]
  expectedOutput _ := .ok countOutput

/-- What the executor returns beside its text. -/
def countFields (extra : Fields) : Fields := ("text", .str countText) :: extra

def countExecution (extra : Fields) : Spawn.Execution where
  raw := some (.dict (countFields extra))
  recentActions := none
  artifactStored := true
  durationMs := 1
  contextHash := none

def sandboxed : Fields := [("__enforcement__", enforcementRecord ["/a"])]

def signedAnswer (result : Spawn.ExecuteResult) (text : String) : EvalResult Float where
  taskId := "count_py_files"
  succeeded := true
  output := some countOutput
  outputText := text
  envelope := some (Lineage.signAction evalRunners () sampleItem result none 1500)
  durationS := .int 1
  error := ""

def answerBundle (answer : EvalResult Float) : Dict String (EvalResult Float) :=
  Dict.empty.set "count_py_files" answer

theorem checkResult_plain : Spawn.checkResult evalAgent (countExecution []) = .ok (countFields []) :=
  rfl

theorem checkResult_sandboxed :
    Spawn.checkResult evalAgent (countExecution sandboxed) = .ok (countFields sandboxed) := rfl

theorem execute_plain : ∃ result, (Spawn.execute evalAgent sampleItem ⟨oneItem, 0, [], none⟩
    (countExecution [])).2 = .ok result := ⟨_, rfl⟩

theorem execute_sandboxed : ∃ result, (Spawn.execute evalAgent sampleItem ⟨oneItem, 0, [], none⟩
    (countExecution sandboxed)).2 = .ok result := ⟨_, rfl⟩

theorem sample_answers {extra : Fields} {result : Spawn.ExecuteResult}
    (accepted : (Spawn.execute evalAgent sampleItem ⟨oneItem, 0, [], none⟩
      (countExecution extra)).2 = .ok result)
    (checked : Spawn.checkResult evalAgent (countExecution extra) = .ok (countFields extra)) :
    AnswersTask evalRunners () countLoads "n" countTask (signedAnswer result countText)
      (countFields extra) result where
  succeeded := rfl
  accepted := ⟨_, _, _, accepted, checked⟩
  signed := ⟨_, _, _, rfl⟩
  text := rfl
  correct := by
    refine ⟨countOutput, countOutput, if_pos rfl, rfl, rfl, rfl, fun key listed => ?_⟩
    rw [List.mem_singleton.mp listed]
    rfl

/-- A signature over some text, beside the correct output. -/
def attached (text : String) : EvalResult Float :=
  signedAnswer ⟨none, .str text, outputTextHash crypto evalFormat text, 1, 0, 0, "mock", "mock"⟩ text

theorem attached_passes (text : String) :
    (verifyEvalResults crypto evalFormat (answerBundle (attached text)) (compositor 1).pubkeyHex "n"
      [countTask]).passed = true := by
  rw [evaluation_passed_iff]
  refine ⟨(compositor 1).publicBytes, Hex.fromhex_encode _, (compositor 1).publicBytes_length, ?_⟩
  intro task listed
  rw [List.mem_singleton.mp listed]
  simp only [verifyOne, Checks.bind_ok_iff, Checks.present_ok_iff, Checks.demand_ok_iff,
    Checks.each_ok_iff, Checks.wrap_ok_iff, exists_const]
  refine ⟨attached text, rfl, rfl, _, rfl, countOutput, rfl, rfl,
    @signAction_verifies Unit evalRunners () _ _ _ _, ?_, rfl, countOutput, rfl, rfl⟩
  intro key listed
  rw [List.mem_singleton.mp listed]
  rfl

end Sample

/-- The applicant signs the text it was asked for. -/
theorem passed_signs_expected_sample :
    SignsExpected Sample.crypto Sample.evalFormat Sample.countLoads
      (Sample.answerBundle (Sample.attached Sample.countText)) "n" [Sample.countTask] := by
  apply (passed_signs_expected_iff Sample.crypto Sample.evalFormat Sample.countLoads
    Sample.blake3_injective _ _ _ _ (Sample.attached_passes Sample.countText)).mpr
  intro task listed result output found claimed
  rw [List.mem_singleton.mp listed] at found
  cases found
  cases claimed
  exact ⟨Sample.countOutput, if_pos rfl, rfl⟩

/-- The applicant signs "three" and passes with the correct count beside it. -/
theorem attached_output_passes :
    (verifyEvalResults Sample.crypto Sample.evalFormat (Sample.answerBundle (Sample.attached "three"))
      (Sample.compositor 1).pubkeyHex "n" [Sample.countTask]).passed = true ∧
      ¬SignsExpected Sample.crypto Sample.evalFormat Sample.countLoads
        (Sample.answerBundle (Sample.attached "three")) "n" [Sample.countTask] := by
  refine ⟨Sample.attached_passes "three", fun signs => ?_⟩
  obtain ⟨result, env, expected, found, enveloped, -, -, reads⟩ := signs _ (List.mem_singleton_self _)
  cases found
  cases enveloped
  obtain ⟨parsed, loaded, -⟩ := reads "three" rfl
  have other : "three" ≠ Sample.countText := by decide
  rw [Sample.countLoads, if_neg other] at loaded
  cases loaded

/-- Without a sandbox the answer binds, and the bundle passes. -/
theorem honest_results_bind_sample :
    ∃ result, (Spawn.execute Sample.evalAgent sampleItem ⟨Sample.oneItem, 0, [], none⟩
        (Sample.countExecution [])).2 = .ok result ∧
      result.outputHash = outputTextHash Sample.crypto Sample.evalFormat Sample.countText ∧
      (verifyEvalResults Sample.crypto Sample.evalFormat
        (Sample.answerBundle (Sample.signedAnswer result Sample.countText))
        (Sample.compositor 1).pubkeyHex "n" [Sample.countTask]).passed = true := by
  obtain ⟨result, accepted⟩ := Sample.execute_plain
  obtain ⟨binds, passes⟩ := honest_results_bind_iff Sample.evalRunners () Sample.evalFormat rfl
    Sample.blake3_injective
  refine ⟨result, accepted, ?_, ?_⟩
  · exact (binds _ _ _ _ _ _ accepted Sample.checkResult_plain rfl).mpr ⟨rfl, rfl⟩
  · refine (passes Sample.countLoads "n" _ [Sample.countTask]
      (fun _ => (Sample.countFields [], result)) ?_).mpr (fun _ _ => ⟨rfl, rfl⟩)
    intro task listed
    rw [List.mem_singleton.mp listed]
    exact ⟨_, rfl, Sample.sample_answers accepted Sample.checkResult_plain⟩

/-- In a sandbox that keeps to the manifest, the correct answer fails. -/
theorem sandboxed_answer_fails :
    Spawn.checkResult Sample.evalAgent (Sample.countExecution Sample.sandboxed) =
        .ok (Sample.countFields Sample.sandboxed) ∧
      ∃ result, (Spawn.execute Sample.evalAgent sampleItem ⟨Sample.oneItem, 0, [], none⟩
          (Sample.countExecution Sample.sandboxed)).2 = .ok result ∧
        AnswersTask Sample.evalRunners () Sample.countLoads "n" Sample.countTask
          (Sample.signedAnswer result Sample.countText) (Sample.countFields Sample.sandboxed) result ∧
        result.outputHash ≠ outputTextHash Sample.crypto Sample.evalFormat Sample.countText ∧
        (verifyEvalResults Sample.crypto Sample.evalFormat
          (Sample.answerBundle (Sample.signedAnswer result Sample.countText))
          (Sample.compositor 1).pubkeyHex "n" [Sample.countTask]).passed = false := by
  obtain ⟨result, accepted⟩ := Sample.execute_sandboxed
  have answers := Sample.sample_answers accepted Sample.checkResult_sandboxed
  have apart : result.outputHash ≠ outputTextHash Sample.crypto Sample.evalFormat Sample.countText := by
    intro same
    have plain := (@outputHash_binds_iff _ _ Sample.evalFormat rfl Sample.blake3_injective _ _ _ _
      accepted Sample.checkResult_sandboxed _ rfl).mp same
    cases plain.1
  refine ⟨Sample.checkResult_sandboxed, result, accepted, answers, apart, ?_⟩
  rw [← Bool.not_eq_true, evaluation_passed_iff]
  rintro ⟨bytes, read, -, each⟩
  cases (show Hex.fromhex (Sample.compositor 1).pubkeyHex = some (Sample.compositor 1).publicBytes from
    Hex.fromhex_encode _).symm.trans read
  exact apart (answers.passes_iff.mp (each _ (List.mem_singleton_self _)))

end Gyza
