import Gyza.CapabilityStream

/-! Sessions between an honest validator and an honest applicant.

A reader that is dropped with bytes in its buffer loses them, and two frames go to the applicant.
None is lost: the validator writes the second one only after the applicant has read the first to
its end and answered. -/

namespace Gyza.CapabilityStream

open Uvarint (Bytes)

namespace Setting

variable (setting : Setting)

/-- What is on the way to the applicant, by where the applicant stands. -/
structure ApplicantReads (session : Session) : Prop where
  challenge : ∀ arrived, session.applicant = .readingChallenge arrived →
    Unread (frameOf setting.wires.challenge session.validator.challenge) arrived
      session.toApplicant
  nothing : ∀ challenge, session.applicant = .evaluating challenge →
    session.validator.challenge = some challenge ∧ session.toApplicant.inFlight = []
  outcome : ∀ challenge response arrived,
    session.applicant = .readingOutcome challenge response arrived →
      session.validator.challenge = some challenge ∧
        Unread (frameOf setting.wires.outcome
          (session.validator.verdict.map fun verdict => setting.outcomeOf verdict.found))
          arrived session.toApplicant

/-- What is on the way to the validator, by where the validator stands. -/
structure ValidatorReads (session : Session) : Prop where
  nothing : session.validator = .opened → session.toValidator.inFlight = []
  response : ∀ challenge arrived, session.validator = .awaiting challenge arrived →
    Unread (frameOf setting.wires.response session.applicant.response) arrived
      session.toValidator
  closed : ∀ challenge verdict, session.validator = .finished challenge verdict →
    session.toApplicant.ended = true

/-- The causes of what `RequestAttestation` returns. -/
inductive Explained (session : Session) : Except RequestError GoCoSignature → Prop where
  | cosigned (verdict : Verdict) (cosignature : GoCoSignature)
      (judged : session.validator.verdict = some verdict)
      (accepted : verdict.found = .ok cosignature) : Explained session (.ok cosignature)
  | rejected (verdict : Verdict) (error : ResponseError)
      (judged : session.validator.verdict = some verdict)
      (refused : verdict.found = .error error) :
      Explained session (.error (.rejected (setting.describe error)))
  | distrusted (challenge : GoChallenge) (nowNs : Int) (error : ChallengeError)
      (issued : session.validator.challenge = some challenge)
      (invalid : verifyChallenge setting.crypto setting.marshal (some challenge) nowNs =
        .error error) : Explained session (.error (.invalidChallenge error))
  | evalFailed (challenge : GoChallenge) (cause : String)
      (issued : session.validator.challenge = some challenge)
      (failed : setting.runEval challenge = .error cause) : Explained session (.error (.eval cause))
  | unanswered (challenge : GoChallenge)
      (issued : session.validator.challenge = some challenge)
      (nothing : setting.runEval challenge = .ok none) : Explained session (.error .nilResponse)
  | unwritable (challenge : GoChallenge) (response : GoChallengeResponse) (error : WriteError)
      (issued : session.validator.challenge = some challenge)
      (answered : setting.runEval challenge = .ok (some response))
      (unwritten : writeFrame setting.wires.response response = .error error) :
      Explained session (.error (.writeResponse error))
  | challengeCut (arrived : Bytes) (ended : session.toApplicant.ended = true) :
      Explained session (.error (.readChallenge (endOfStream arrived)))
  | outcomeCut (arrived : Bytes) (ended : session.toApplicant.ended = true) :
      Explained session (.error (.readOutcome (endOfStream arrived)))
  | streamFailed : Explained session (.error .streamFailed)

/-- What holds of a session whatever is on the way to the applicant. -/
structure Agreed (session : Session) : Prop where
  kept : session.discarded = []
  issued : ∀ challenge, session.validator.challenge = some challenge →
    ∃ nonce nowNs, setting.challengeFor nonce nowNs = some challenge ∧
      ∃ frame, writeFrame setting.wires.challenge challenge = .ok frame
  answered : ∀ response, session.applicant.response = some response →
    ∃ challenge, session.validator.challenge = some challenge ∧
      setting.runEval challenge = .ok (some response) ∧
        ∃ frame, writeFrame setting.wires.response response = .ok frame
  judged : ∀ verdict, session.validator.verdict = some verdict →
    session.applicant.response = some verdict.response ∧
      ∃ challenge nowNs, session.validator.challenge = some challenge ∧
        setting.judge challenge verdict.response nowNs = verdict.found
  validator : setting.ValidatorReads session
  explained : ∀ response result, session.applicant = .returned response result →
    setting.Explained session result

structure Lockstep (session : Session) : Prop extends setting.Agreed session where
  applicant : setting.ApplicantReads session

variable {setting} {session : Session}

theorem lockstep_opened : setting.Lockstep {} where
  kept := rfl
  issued := fun _ issued => nomatch issued
  answered := fun _ answered => nomatch answered
  judged := fun _ judged => nomatch judged
  validator := ⟨fun _ => rfl, fun _ _ standing => (nomatch standing),
    fun _ _ standing => (nomatch standing)⟩
  explained := fun _ _ returned => nomatch returned
  applicant := by
    refine ⟨?_, fun _ standing => (nomatch standing), fun _ _ _ standing => (nomatch standing)⟩
    intro arrived standing
    cases standing
    exact Unread.start {} rfl

theorem Explained.later {after : Session} {result : Except RequestError GoCoSignature}
    (explained : setting.Explained session result)
    (issued : ∀ challenge, session.validator.challenge = some challenge →
      after.validator.challenge = some challenge)
    (judged : ∀ verdict, session.validator.verdict = some verdict →
      after.validator.verdict = some verdict)
    (ended : session.toApplicant.ended = true → after.toApplicant.ended = true) :
    setting.Explained after result := by
  cases explained with
  | cosigned verdict cosignature found accepted =>
      exact .cosigned verdict cosignature (judged verdict found) accepted
  | rejected verdict error found refused =>
      exact .rejected verdict error (judged verdict found) refused
  | distrusted challenge nowNs error sent invalid =>
      exact .distrusted challenge nowNs error (issued challenge sent) invalid
  | evalFailed challenge cause sent failed =>
      exact .evalFailed challenge cause (issued challenge sent) failed
  | unanswered challenge sent nothing => exact .unanswered challenge (issued challenge sent) nothing
  | unwritable challenge response error sent answered unwritten =>
      exact .unwritable challenge response error (issued challenge sent) answered unwritten
  | challengeCut arrived cut => exact .challengeCut arrived (ended cut)
  | outcomeCut arrived cut => exact .outcomeCut arrived (ended cut)
  | streamFailed => exact .streamFailed

/-! The applicant's steps. -/

/-- The applicant reads on without having written or returned anything. -/
theorem Agreed.reads (agreed : setting.Agreed session) (standing : ApplicantState)
    (direction : Direction) (response : standing.response = session.applicant.response)
    (running : ∀ response result, standing ≠ .returned response result)
    (same : direction.ended = session.toApplicant.ended) :
    setting.Agreed { session with applicant := standing, toApplicant := direction } where
  kept := agreed.kept
  issued := agreed.issued
  answered := fun sent answered => agreed.answered sent (response ▸ answered)
  judged := by
    intro verdict judged
    have earlier := agreed.judged verdict judged
    exact ⟨response.trans earlier.1, earlier.2⟩
  validator := by
    refine ⟨agreed.validator.nothing, ?_, ?_⟩
    · intro challenge arrived awaiting
      simp only [response]
      exact agreed.validator.response challenge arrived awaiting
    · intro challenge verdict finished
      exact same.trans (agreed.validator.closed challenge verdict finished)
  explained := fun _ _ returned => absurd returned (running _ _)

theorem Agreed.toApplicant (agreed : setting.Agreed session) (direction : Direction)
    (same : direction.ended = session.toApplicant.ended) :
    setting.Agreed { session with toApplicant := direction } where
  kept := agreed.kept
  issued := agreed.issued
  answered := agreed.answered
  judged := agreed.judged
  validator := ⟨agreed.validator.nothing, agreed.validator.response,
    fun challenge verdict finished => same.trans
      (agreed.validator.closed challenge verdict finished)⟩
  explained := fun response result returned =>
    (agreed.explained response result returned).later (fun _ issued => issued)
      (fun _ judged => judged) same.trans

theorem Agreed.returns (agreed : setting.Agreed session)
    {result : Except RequestError GoCoSignature} (explained : setting.Explained session result) :
    setting.Lockstep (session.returns result) where
  kept := agreed.kept
  issued := agreed.issued
  answered := agreed.answered
  judged := agreed.judged
  validator := ⟨agreed.validator.nothing, fun challenge arrived awaiting =>
    (agreed.validator.response challenge arrived awaiting).finish, agreed.validator.closed⟩
  explained := by
    intro response other returned
    cases returned
    exact explained.later (fun _ issued => issued) (fun _ judged => judged) id
  applicant := ⟨fun _ standing => (nomatch standing), fun _ standing => (nomatch standing),
    fun _ _ _ standing => (nomatch standing)⟩

theorem Lockstep.readingChallenge (agreed : setting.Agreed session)
    (unwritten : session.applicant.response = none) {direction : Direction} {arrived : Bytes}
    (same : direction.ended = session.toApplicant.ended)
    (unread : Unread (frameOf setting.wires.challenge session.validator.challenge) arrived
      direction) :
    setting.Lockstep { session with
      applicant := .readingChallenge arrived, toApplicant := direction } where
  toAgreed := agreed.reads _ direction unwritten.symm (fun _ _ => nofun) same
  applicant := by
    refine ⟨?_, fun _ standing => (nomatch standing), fun _ _ _ standing => (nomatch standing)⟩
    intro other standing
    cases standing
    exact unread

theorem Lockstep.readingOutcome (agreed : setting.Agreed session) {challenge : GoChallenge}
    {response : GoChallengeResponse} (written : session.applicant.response = some response)
    (issued : session.validator.challenge = some challenge) {direction : Direction}
    {arrived : Bytes} (same : direction.ended = session.toApplicant.ended)
    (unread : Unread (frameOf setting.wires.outcome
      (session.validator.verdict.map fun verdict => setting.outcomeOf verdict.found)) arrived
        direction) :
    setting.Lockstep { session with
      applicant := .readingOutcome challenge response arrived, toApplicant := direction } where
  toAgreed := agreed.reads _ direction written.symm (fun _ _ => nofun) same
  applicant := by
    refine ⟨fun _ standing => (nomatch standing), fun _ standing => (nomatch standing), ?_⟩
    intro other sent text standing
    cases standing
    exact ⟨issued, unread⟩

theorem Lockstep.readChallenge (lockstep : setting.Lockstep session) {arrived : Bytes}
    (standing : session.applicant = .readingChallenge arrived) (size : Nat) (nowNs : Int) :
    setting.Lockstep (setting.readChallengeStep session arrived size nowNs) := by
  have unread := lockstep.applicant.challenge arrived standing
  have unwritten : session.applicant.response = none := by rw [standing]; rfl
  have reads := readStep_readsOn unread size
  unfold readChallengeStep
  generalize readStep setting.wires.challenge session.toApplicant arrived size = next at reads ⊢
  cases reads with
  | blocked empty going => exact .readingChallenge lockstep.toAgreed unwritten rfl unread
  | closed empty ended => exact lockstep.toAgreed.returns (.challengeCut arrived ended)
  | further next grown unread same less =>
      exact .readingChallenge lockstep.toAgreed unwritten same unread
  | found next challenge sent empty same =>
      simp only [List.append_nil]
      split
      · rename_i error invalid
        exact (lockstep.toAgreed.toApplicant next same).returns
          (.distrusted challenge nowNs error sent invalid)
      · refine ⟨lockstep.toAgreed.reads (.evaluating challenge) next unwritten.symm
          (fun _ _ => nofun) same, fun _ standing => (nomatch standing), ?_,
          fun _ _ _ standing => (nomatch standing)⟩
        intro other evaluating
        cases evaluating
        exact ⟨sent, empty⟩

theorem Lockstep.readOutcome (lockstep : setting.Lockstep session) {challenge : GoChallenge}
    {response : GoChallengeResponse} {arrived : Bytes}
    (standing : session.applicant = .readingOutcome challenge response arrived) (size : Nat) :
    setting.Lockstep (setting.readOutcomeStep session challenge response arrived size) := by
  obtain ⟨issued, unread⟩ := lockstep.applicant.outcome challenge response arrived standing
  have written : session.applicant.response = some response := by rw [standing]; rfl
  have reads := readStep_readsOn unread size
  unfold readOutcomeStep
  generalize readStep setting.wires.outcome session.toApplicant arrived size = next at reads ⊢
  cases reads with
  | blocked empty going => exact .readingOutcome lockstep.toAgreed written issued rfl unread
  | closed empty ended => exact lockstep.toAgreed.returns (.outcomeCut arrived ended)
  | further next grown unread same less =>
      exact .readingOutcome lockstep.toAgreed written issued same unread
  | found next outcome sent empty same =>
      simp only [List.append_nil]
      obtain ⟨verdict, judged, rfl⟩ := Option.map_eq_some_iff.mp sent
      apply (lockstep.toAgreed.toApplicant next same).returns
      cases found : verdict.found with
      | error error => exact .rejected verdict error judged found
      | ok cosignature => exact .cosigned verdict cosignature judged found

theorem Lockstep.respond (lockstep : setting.Lockstep session) {challenge : GoChallenge}
    (standing : session.applicant = .evaluating challenge) :
    setting.Lockstep (setting.respondStep session challenge) := by
  obtain ⟨issued, empty⟩ := lockstep.applicant.nothing challenge standing
  have unwritten : session.applicant.response = none := by rw [standing]; rfl
  unfold respondStep
  split
  · rename_i cause failed
    exact lockstep.toAgreed.returns (.evalFailed challenge cause issued failed)
  · rename_i nothing
    exact lockstep.toAgreed.returns (.unanswered challenge issued nothing)
  · rename_i response answered
    split
    · rename_i error unwritten
      exact lockstep.toAgreed.returns
        (.unwritable challenge response error issued answered unwritten)
    · rename_i frame written
      have silent : session.validator.verdict = none := by
        cases judged : session.validator.verdict with
        | none => rfl
        | some verdict =>
            have sent := (lockstep.judged verdict judged).1
            rw [unwritten] at sent
            cases sent
      constructor
      · refine ⟨lockstep.kept, lockstep.issued, ?_, ?_, ⟨?_, ?_, lockstep.validator.closed⟩, ?_⟩
        · intro sent same
          cases same
          exact ⟨challenge, issued, answered, frame, written⟩
        · intro verdict judged
          rw [silent] at judged
          cases judged
        · intro opened
          have nothing : session.validator.challenge = none := by rw [opened]; rfl
          rw [issued] at nothing
          cases nothing
        · intro other arrived awaiting
          have unread := lockstep.validator.response other arrived awaiting
          rw [unwritten] at unread
          exact unread.send written
        · intro _ _ returned
          cases returned
      · refine ⟨fun _ standing => (nomatch standing), fun _ standing => (nomatch standing), ?_⟩
        intro other sent arrived standing
        cases standing
        refine ⟨issued, ?_⟩
        simp only [silent]
        exact Unread.start _ empty

/-! The validator's steps. -/

theorem Lockstep.stops (lockstep : setting.Lockstep session)
    (silent : session.validator.verdict = none) (direction : Direction) :
    setting.Lockstep
      ({ session with toValidator := direction }.finishes session.validator.challenge none) where
  kept := lockstep.kept
  issued := lockstep.issued
  answered := lockstep.answered
  judged := fun _ judged => nomatch judged
  validator := ⟨fun standing => (nomatch standing), fun _ _ standing => (nomatch standing),
    fun _ _ _ => rfl⟩
  explained := by
    intro response result returned
    refine (lockstep.explained response result returned).later (fun _ issued => issued) ?_
      (fun _ => rfl)
    intro verdict judged
    rw [silent] at judged
    cases judged
  applicant := by
    refine ⟨fun arrived standing => (lockstep.applicant.challenge arrived standing).finish,
      lockstep.applicant.nothing, ?_⟩
    intro challenge response arrived standing
    obtain ⟨issued, unread⟩ := lockstep.applicant.outcome challenge response arrived standing
    rw [silent] at unread
    exact ⟨issued, unread.finish⟩

theorem Lockstep.challenge (lockstep : setting.Lockstep session)
    (standing : session.validator = .opened) (nonce : Nonce) (nowNs : Int) :
    setting.Lockstep (setting.challengeStep session nonce nowNs) := by
  have silent : session.validator.verdict = none := by rw [standing]; rfl
  have unissued : session.validator.challenge = none := by rw [standing]; rfl
  have unwritten : session.applicant.response = none := by
    cases written : session.applicant.response with
    | none => rfl
    | some response =>
        obtain ⟨challenge, issued, _⟩ := lockstep.answered response written
        rw [unissued] at issued
        cases issued
  have stopped : setting.Lockstep (session.finishes none none) :=
    unissued ▸ lockstep.stops silent session.toValidator
  unfold challengeStep
  split
  · exact stopped
  · rename_i challenge chosen
    split
    · exact stopped
    · rename_i frame written
      constructor
      · refine ⟨lockstep.kept, ?_, ?_, fun _ judged => (nomatch judged),
          ⟨fun standing => (nomatch standing), ?_, fun _ _ standing => (nomatch standing)⟩, ?_⟩
        · intro other same
          cases same
          exact ⟨nonce, nowNs, chosen, frame, written⟩
        · intro response answered
          rw [unwritten] at answered
          cases answered
        · intro other arrived awaiting
          cases awaiting
          simp only [unwritten]
          exact Unread.start _ (lockstep.validator.nothing standing)
        · intro response result returned
          refine (lockstep.explained response result returned).later ?_ ?_ ?_
          · intro other issued
            rw [unissued] at issued
            cases issued
          · intro verdict judged
            rw [silent] at judged
            cases judged
          · exact fun ended => (session.toApplicant.ended_send frame).trans ended
      · refine ⟨?_, ?_, ?_⟩
        · intro arrived reading
          have unread := lockstep.applicant.challenge arrived reading
          rw [unissued] at unread
          exact unread.send written
        · intro other evaluating
          have issued := (lockstep.applicant.nothing other evaluating).1
          rw [unissued] at issued
          cases issued
        · intro other response arrived reading
          have issued := (lockstep.applicant.outcome other response arrived reading).1
          rw [unissued] at issued
          cases issued

/-- The outcome is written to an applicant that waits for it, or has returned. -/
theorem Lockstep.answers (lockstep : setting.Lockstep session) {challenge : GoChallenge}
    {response : GoChallengeResponse} {found : Except ResponseError GoCoSignature} {nowNs : Int}
    (issued : session.validator.challenge = some challenge)
    (silent : session.validator.verdict = none)
    (sent : session.applicant.response = some response)
    (judged : setting.judge challenge response nowNs = found) (direction : Direction)
    {frame : Bytes}
    (written : writeFrame setting.wires.outcome (setting.outcomeOf found) = .ok frame) :
    setting.Lockstep ({ session with
      toValidator := direction
      toApplicant := session.toApplicant.send frame }.finishes (some challenge)
        (some ⟨response, found⟩)) where
  kept := lockstep.kept
  issued := fun other same => lockstep.issued other (issued.trans same)
  answered := by
    intro other answered
    obtain ⟨asked, given, run⟩ := lockstep.answered other answered
    exact ⟨asked, issued.symm.trans given, run⟩
  judged := by
    intro verdict same
    cases same
    exact ⟨sent, challenge, nowNs, rfl, judged⟩
  validator := ⟨fun standing => (nomatch standing), fun _ _ standing => (nomatch standing),
    fun _ _ _ => rfl⟩
  explained := by
    intro written result returned
    refine (lockstep.explained written result returned).later
      (fun _ given => issued.symm.trans given) ?_ (fun _ => rfl)
    intro verdict early
    rw [silent] at early
    cases early
  applicant := by
    refine ⟨?_, ?_, ?_⟩
    · intro arrived reading
      have unsent : session.applicant.response = none := by
        have standing : session.applicant = .readingChallenge arrived := reading
        rw [standing]
        rfl
      rw [sent] at unsent
      cases unsent
    · intro other evaluating
      have unsent : session.applicant.response = none := by
        have standing : session.applicant = .evaluating other := evaluating
        rw [standing]
        rfl
      rw [sent] at unsent
      cases unsent
    · intro other wrote arrived reading
      obtain ⟨given, unread⟩ := lockstep.applicant.outcome other wrote arrived reading
      rw [silent] at unread
      exact ⟨issued.symm.trans given, (unread.send written).finish⟩

theorem Lockstep.readResponse (lockstep : setting.Lockstep session) {challenge : GoChallenge}
    {arrived : Bytes} (standing : session.validator = .awaiting challenge arrived) (size : Nat)
    (nowNs : Int) :
    setting.Lockstep (setting.readResponseStep session challenge arrived size nowNs) := by
  have unread := lockstep.validator.response challenge arrived standing
  have silent : session.validator.verdict = none := by rw [standing]; rfl
  have issued : session.validator.challenge = some challenge := by rw [standing]; rfl
  have stopped : ∀ direction, setting.Lockstep
      ({ session with toValidator := direction }.finishes (some challenge) none) :=
    fun direction => issued ▸ lockstep.stops silent direction
  have waits : ∀ direction text,
      Unread (frameOf setting.wires.response session.applicant.response) text direction →
        setting.Lockstep { session with
          validator := .awaiting challenge text, toValidator := direction } := by
    intro direction text unread
    constructor
    · refine ⟨lockstep.kept, fun other same => lockstep.issued other (issued.trans same), ?_,
        fun _ judged => (nomatch judged), ⟨fun standing => (nomatch standing), ?_,
        fun _ _ standing => (nomatch standing)⟩, ?_⟩
      · intro other answered
        obtain ⟨asked, given, run⟩ := lockstep.answered other answered
        exact ⟨asked, issued.symm.trans given, run⟩
      · intro other grown awaiting
        cases awaiting
        exact unread
      · intro response result returned
        refine (lockstep.explained response result returned).later
          (fun _ given => issued.symm.trans given) ?_ id
        intro verdict judged
        rw [silent] at judged
        cases judged
    · refine ⟨?_, ?_, ?_⟩
      · intro other reading
        have frame := lockstep.applicant.challenge other reading
        rw [issued] at frame
        exact frame
      · intro other evaluating
        obtain ⟨given, empty⟩ := lockstep.applicant.nothing other evaluating
        exact ⟨issued.symm.trans given, empty⟩
      · intro other response grown reading
        obtain ⟨given, frame⟩ := lockstep.applicant.outcome other response grown reading
        rw [silent] at frame
        exact ⟨issued.symm.trans given, frame⟩
  have reads := readStep_readsOn unread size
  unfold readResponseStep
  generalize readStep setting.wires.response session.toValidator arrived size = next at reads ⊢
  cases reads with
  | blocked empty going => exact waits session.toValidator arrived unread
  | closed empty ended => exact stopped session.toValidator
  | further next grown unread same less => exact waits next grown unread
  | found next response sent empty same =>
      simp only [List.append_nil]
      split
      · exact stopped next
      · rename_i frame written
        exact lockstep.answers issued silent sent rfl next written

/-- Every step keeps the parties in lockstep. -/
theorem Lockstep.step (lockstep : setting.Lockstep session) (event : StreamEvent) :
    setting.Lockstep (setting.step session event) := by
  cases event with
  | issue nonce nowNs =>
      simp only [Setting.step, issueStep]
      split
      · rename_i standing
        exact lockstep.challenge standing nonce nowNs
      · exact lockstep
  | applicantRead size nowNs =>
      simp only [Setting.step, applicantReadStep]
      split
      · rename_i arrived standing
        exact lockstep.readChallenge standing size nowNs
      · rename_i challenge response arrived standing
        exact lockstep.readOutcome standing size
      · exact lockstep
  | evaluate =>
      simp only [Setting.step, evaluateStep]
      split
      · rename_i challenge standing
        exact lockstep.respond standing
      · exact lockstep
  | validatorRead size nowNs =>
      simp only [Setting.step, validatorReadStep]
      split
      · rename_i challenge arrived standing
        exact lockstep.readResponse standing size nowNs
      · exact lockstep
  | applicantFails =>
      simp only [Setting.step]
      split
      · exact lockstep
      · exact lockstep.toAgreed.returns .streamFailed
  | validatorFails =>
      simp only [Setting.step]
      split
      · exact lockstep
      · rename_i running
        have silent : session.validator.verdict = none := by
          cases standing : session.validator with
          | opened => rfl
          | awaiting challenge arrived => rfl
          | finished challenge verdict => exact absurd standing (running challenge verdict)
        exact lockstep.stops silent session.toValidator
  | cutToApplicant keep =>
      refine ⟨⟨lockstep.kept, lockstep.issued, lockstep.answered, lockstep.judged,
        ⟨lockstep.validator.nothing, lockstep.validator.response, fun _ _ _ => rfl⟩, ?_⟩,
        ⟨fun arrived standing => (lockstep.applicant.challenge arrived standing).cut keep, ?_, ?_⟩⟩
      · intro response result returned
        exact (lockstep.explained response result returned).later (fun _ issued => issued)
          (fun _ judged => judged) (fun _ => rfl)
      · intro challenge evaluating
        obtain ⟨issued, empty⟩ := lockstep.applicant.nothing challenge evaluating
        refine ⟨issued, ?_⟩
        simp only [Setting.step, Direction.cut, empty, List.take_nil]
      · intro challenge response arrived standing
        obtain ⟨issued, unread⟩ := lockstep.applicant.outcome challenge response arrived standing
        exact ⟨issued, unread.cut keep⟩
  | cutToValidator keep =>
      refine ⟨⟨lockstep.kept, lockstep.issued, lockstep.answered, lockstep.judged,
        ⟨?_, ?_, lockstep.validator.closed⟩, ?_⟩, ⟨lockstep.applicant.challenge,
        lockstep.applicant.nothing, lockstep.applicant.outcome⟩⟩
      · intro opened
        have empty := lockstep.validator.nothing opened
        simp only [Setting.step, Direction.cut, empty, List.take_nil]
      · intro challenge arrived awaiting
        exact (lockstep.validator.response challenge arrived awaiting).cut keep
      · intro response result returned
        exact (lockstep.explained response result returned).later (fun _ issued => issued)
          (fun _ judged => judged) id

theorem lockstep_run (events : List StreamEvent) :
    setting.Lockstep (Run.run setting.step {} events) :=
  Run.kept_run setting.step setting.Lockstep (fun _ event lockstep => lockstep.step event) {} events
    lockstep_opened

end Setting

def ValidatorState.ahead : ValidatorState → Nat
  | .opened => 2
  | .awaiting _ _ => 1
  | .finished _ _ => 0

def ApplicantState.ahead : ApplicantState → Nat
  | .readingChallenge _ => 3
  | .evaluating _ => 2
  | .readingOutcome _ _ _ => 1
  | .returned _ _ => 0

/-- What is left to do: phases, each of which may put a frame on the stream, and bytes to read. -/
def Session.remaining (session : Session) : Nat :=
  (session.validator.ahead + session.applicant.ahead) * (frameBound + 1) +
    (session.toApplicant.inFlight.length + session.toValidator.inFlight.length)

/-- The steps of the parties while nothing fails. -/
def StreamEvent.Orderly : StreamEvent → Prop
  | .issue _ _ | .applicantRead _ _ | .evaluate | .validatorRead _ _ => True
  | _ => False

section Progress

variable {setting : Setting} {session : Session}

theorem applicant_unmoved {standing : ApplicantState} (stands : session.applicant = standing) :
    { session with applicant := standing } = session := by rw [← stands]

theorem validator_unmoved {standing : ValidatorState} (stands : session.validator = standing) :
    { session with validator := standing } = session := by rw [← stands]

theorem length_send (direction : Direction) (bytes : Bytes) :
    (direction.send bytes).inFlight.length ≤ direction.inFlight.length + bytes.length := by
  unfold Direction.send
  split_ifs
  · exact Nat.le_add_right _ _
  · rw [List.length_append]

theorem challengeStep_less (standing : session.validator = .opened) (nonce : Nonce) (nowNs : Int) :
    (setting.challengeStep session nonce nowNs).remaining < session.remaining := by
  have before : session.remaining = (2 + session.applicant.ahead) * (frameBound + 1) +
      (session.toApplicant.inFlight.length + session.toValidator.inFlight.length) := by
    rw [Session.remaining, standing, ValidatorState.ahead]
  have stopped : (session.finishes none none).remaining < session.remaining := by
    rw [before]
    simp only [Session.remaining, Session.finishes, ValidatorState.ahead,
      Direction.finish, Nat.add_mul]
    omega
  unfold Setting.challengeStep
  split
  · exact stopped
  · split
    · exact stopped
    · rename_i frame written
      have short := (writeFrame_ok written).1
      have sent := length_send session.toApplicant frame
      rw [before]
      simp only [Session.remaining, ValidatorState.ahead, Nat.add_mul]
      omega

theorem readChallengeStep_less (lockstep : setting.Lockstep session) {arrived : Bytes}
    (standing : session.applicant = .readingChallenge arrived) (size : Nat) (nowNs : Int) :
    (session.toApplicant.inFlight = [] ∧ session.toApplicant.ended = false ∧
        setting.readChallengeStep session arrived size nowNs = session) ∨
      (setting.readChallengeStep session arrived size nowNs).remaining < session.remaining := by
  have before : session.remaining = (session.validator.ahead + 3) * (frameBound + 1) +
      (session.toApplicant.inFlight.length + session.toValidator.inFlight.length) := by
    rw [Session.remaining, standing, ApplicantState.ahead]
  have reads := readStep_readsOn (lockstep.applicant.challenge arrived standing) size
  unfold Setting.readChallengeStep
  generalize readStep setting.wires.challenge session.toApplicant arrived size = next at reads ⊢
  cases reads with
  | blocked empty going =>
      left
      exact ⟨empty, going, applicant_unmoved standing⟩
  | closed empty ended =>
      right
      rw [before]
      simp only [Session.remaining, Session.returns, ApplicantState.ahead,
        Direction.finish, Nat.add_mul]
      omega
  | further next grown unread same less =>
      right
      rw [before]
      simp only [Session.remaining, ApplicantState.ahead]
      omega
  | found next challenge sent empty same =>
      right
      simp only [List.append_nil]
      split
      · rw [before]
        simp only [Session.remaining, Session.returns, ApplicantState.ahead,
          Direction.finish, empty, List.length_nil, Nat.add_mul]
        omega
      · rw [before]
        simp only [Session.remaining, ApplicantState.ahead, empty, List.length_nil,
          Nat.add_mul]
        omega

theorem readOutcomeStep_less (lockstep : setting.Lockstep session) {challenge : GoChallenge}
    {response : GoChallengeResponse} {arrived : Bytes}
    (standing : session.applicant = .readingOutcome challenge response arrived) (size : Nat) :
    (session.toApplicant.inFlight = [] ∧ session.toApplicant.ended = false ∧
        setting.readOutcomeStep session challenge response arrived size = session) ∨
      (setting.readOutcomeStep session challenge response arrived size).remaining <
        session.remaining := by
  have before : session.remaining = (session.validator.ahead + 1) * (frameBound + 1) +
      (session.toApplicant.inFlight.length + session.toValidator.inFlight.length) := by
    rw [Session.remaining, standing, ApplicantState.ahead]
  obtain ⟨-, unread⟩ := lockstep.applicant.outcome challenge response arrived standing
  have reads := readStep_readsOn unread size
  unfold Setting.readOutcomeStep
  generalize readStep setting.wires.outcome session.toApplicant arrived size = next at reads ⊢
  cases reads with
  | blocked empty going =>
      left
      exact ⟨empty, going, applicant_unmoved standing⟩
  | closed empty ended =>
      right
      rw [before]
      simp only [Session.remaining, Session.returns, ApplicantState.ahead,
        Direction.finish, Nat.add_mul]
      omega
  | further next grown unread same less =>
      right
      rw [before]
      simp only [Session.remaining, ApplicantState.ahead]
      omega
  | found next outcome sent empty same =>
      right
      rw [before]
      simp only [Session.remaining, Session.returns, ApplicantState.ahead,
        Direction.finish, empty, List.length_nil, Nat.add_mul]
      omega

theorem respondStep_less {challenge : GoChallenge}
    (standing : session.applicant = .evaluating challenge) :
    (setting.respondStep session challenge).remaining < session.remaining := by
  have before : session.remaining = (session.validator.ahead + 2) * (frameBound + 1) +
      (session.toApplicant.inFlight.length + session.toValidator.inFlight.length) := by
    rw [Session.remaining, standing, ApplicantState.ahead]
  have returned : ∀ result, (session.returns result).remaining < session.remaining := by
    intro result
    rw [before]
    simp only [Session.remaining, Session.returns, ApplicantState.ahead,
      Direction.finish, Nat.add_mul]
    omega
  unfold Setting.respondStep
  split
  · exact returned _
  · exact returned _
  · split
    · exact returned _
    · rename_i frame written
      have short := (writeFrame_ok written).1
      have sent := length_send session.toValidator frame
      rw [before]
      simp only [Session.remaining, ApplicantState.ahead, Nat.add_mul]
      omega

theorem readResponseStep_less (lockstep : setting.Lockstep session) {challenge : GoChallenge}
    {arrived : Bytes} (standing : session.validator = .awaiting challenge arrived) (size : Nat)
    (nowNs : Int) :
    (session.toValidator.inFlight = [] ∧ session.toValidator.ended = false ∧
        setting.readResponseStep session challenge arrived size nowNs = session) ∨
      (setting.readResponseStep session challenge arrived size nowNs).remaining <
        session.remaining := by
  have before : session.remaining = (1 + session.applicant.ahead) * (frameBound + 1) +
      (session.toApplicant.inFlight.length + session.toValidator.inFlight.length) := by
    rw [Session.remaining, standing, ValidatorState.ahead]
  have reads := readStep_readsOn (lockstep.validator.response challenge arrived standing) size
  unfold Setting.readResponseStep
  generalize readStep setting.wires.response session.toValidator arrived size = next at reads ⊢
  cases reads with
  | blocked empty going =>
      left
      exact ⟨empty, going, validator_unmoved standing⟩
  | closed empty ended =>
      right
      rw [before]
      simp only [Session.remaining, Session.finishes, ValidatorState.ahead,
        Direction.finish, Nat.add_mul]
      omega
  | further next grown unread same less =>
      right
      rw [before]
      simp only [Session.remaining, ValidatorState.ahead]
      omega
  | found next response sent empty same =>
      right
      simp only [List.append_nil]
      split
      · rw [before]
        simp only [Session.remaining, Session.finishes, ValidatorState.ahead,
          Direction.finish, empty, List.length_nil, Nat.add_mul]
        omega
      · rename_i frame written
        have short := (writeFrame_ok written).1
        have sent := length_send session.toApplicant frame
        rw [before]
        simp only [Session.remaining, Session.finishes, ValidatorState.ahead,
          Direction.finish, empty, List.length_nil, Nat.add_mul]
        omega

theorem step_less (lockstep : setting.Lockstep session) {event : StreamEvent}
    (orderly : event.Orderly) :
    setting.step session event = session ∨
      (setting.step session event).remaining < session.remaining := by
  cases event with
  | issue nonce nowNs =>
      simp only [Setting.step, Setting.issueStep]
      split
      · rename_i standing
        exact Or.inr (challengeStep_less standing nonce nowNs)
      · exact Or.inl rfl
  | applicantRead size nowNs =>
      simp only [Setting.step, Setting.applicantReadStep]
      split
      · rename_i arrived standing
        exact (readChallengeStep_less lockstep standing size nowNs).imp_left
          fun blocked => blocked.2.2
      · rename_i challenge response arrived standing
        exact (readOutcomeStep_less lockstep standing size).imp_left
          fun blocked => blocked.2.2
      · exact Or.inl rfl
  | evaluate =>
      simp only [Setting.step, Setting.evaluateStep]
      split
      · rename_i challenge standing
        exact Or.inr (respondStep_less standing)
      · exact Or.inl rfl
  | validatorRead size nowNs =>
      simp only [Setting.step, Setting.validatorReadStep]
      split
      · rename_i challenge arrived standing
        exact (readResponseStep_less lockstep standing size nowNs).imp_left
          fun blocked => blocked.2.2
      · exact Or.inl rfl
  | applicantFails => exact orderly.elim
  | validatorFails => exact orderly.elim
  | cutToApplicant keep => exact orderly.elim
  | cutToValidator keep => exact orderly.elim

/-- A reader that waits has not been sent the whole of its frame. -/
theorem Unread.unfinished {α : Type} {wire : Wire α} {message : α} {frame arrived : Bytes}
    {direction : Direction} (unread : Unread (frameOf wire (some message)) arrived direction)
    (written : writeFrame wire message = .ok frame) (empty : direction.inFlight = [])
    (going : direction.ended = false) : False := by
  obtain ⟨-, body, -, scanned⟩ := writeFrame_ok written
  have whole := unread.whole going
  rw [empty, List.append_nil, frameOf, written] at whole
  have arrived_frame : arrived = frame := whole
  have more := unread.more
  rw [arrived_frame, scanned] at more
  cases more

/-- Somebody can go on until the applicant returns. -/
theorem Setting.Lockstep.progress (lockstep : setting.Lockstep session) :
    (∃ response result, session.applicant = .returned response result) ∨
      ∃ event : StreamEvent, event.Orderly ∧
        (setting.step session event).remaining < session.remaining := by
  cases standing : session.applicant with
  | readingChallenge arrived =>
      right
      rcases readChallengeStep_less lockstep standing 0 0 with ⟨empty, going, _⟩ | less
      · cases stands : session.validator with
        | opened =>
            refine ⟨.issue ⟨List.replicate nonceSize 0, List.length_replicate⟩ 0, trivial, ?_⟩
            simp only [Setting.step, Setting.issueStep, stands]
            exact challengeStep_less stands _ _
        | awaiting challenge text =>
            have issued : session.validator.challenge = some challenge := by rw [stands]; rfl
            have unread := lockstep.applicant.challenge arrived standing
            obtain ⟨_, _, _, frame, written⟩ := lockstep.issued challenge issued
            rw [issued] at unread
            exact (unread.unfinished written empty going).elim
        | finished challenge verdict =>
            have ended := lockstep.validator.closed challenge verdict stands
            rw [going] at ended
            cases ended
      · refine ⟨.applicantRead 0 0, trivial, ?_⟩
        simp only [Setting.step, Setting.applicantReadStep, standing]
        exact less
  | evaluating challenge =>
      right
      refine ⟨.evaluate, trivial, ?_⟩
      simp only [Setting.step, Setting.evaluateStep, standing]
      exact respondStep_less standing
  | readingOutcome challenge response arrived =>
      right
      rcases readOutcomeStep_less lockstep standing 0 with ⟨empty, going, _⟩ | less
      · have issued := (lockstep.applicant.outcome challenge response arrived standing).1
        cases stands : session.validator with
        | opened =>
            rw [stands] at issued
            cases issued
        | awaiting asked text =>
            have sent : session.applicant.response = some response := by rw [standing]; rfl
            rcases readResponseStep_less lockstep stands 0 0 with ⟨blank, flowing, _⟩ | less
            · have unread := lockstep.validator.response asked text stands
              obtain ⟨_, _, _, frame, written⟩ := lockstep.answered response sent
              rw [sent] at unread
              exact (unread.unfinished written blank flowing).elim
            · refine ⟨.validatorRead 0 0, trivial, ?_⟩
              simp only [Setting.step, Setting.validatorReadStep, stands]
              exact less
        | finished asked verdict =>
            have ended := lockstep.validator.closed asked verdict stands
            rw [going] at ended
            cases ended
      · refine ⟨.applicantRead 0 0, trivial, ?_⟩
        simp only [Setting.step, Setting.applicantReadStep, standing]
        exact less
  | returned response result => exact Or.inl ⟨response, result, rfl⟩

end Progress

end Gyza.CapabilityStream
