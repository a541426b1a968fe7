import Gyza.Review

/-! Review queues of several processes on one database, statement by statement. -/

namespace Gyza

open CanonJson (Doc FloatText)
open Hex (Bytes utf8)

namespace Review

variable {φ : Type}

/-- What a call is about to append. -/
structure Draft (φ : Type) where
  recordId : String
  kind : String
  payload : Option (Doc φ)

/-- Where a process stands within a call, with what its statements have read. -/
inductive Phase (φ : Type) where
  | idle
  | reviewsRead (review : Decision φ) (reviewed : List String)
  | drafted (draft : Draft φ)
  | hashRead (draft : Draft φ) (prev : String)
  | seqRead (draft : Draft φ) (prev : String) (seq : Int)

structure Shared (φ : Type) where
  processes : Nat → Phase φ
  log : ReviewLog φ

inductive Action (φ : Type) where
  | escalate (p : Nat) (recordId harmClass : String) (measured bound : Option φ) (reason : String)
  | resolve (p : Nat) (review : Decision φ)
  | selectEscalations (p : Nat)
  | selectHash (p : Nat)
  | selectSeq (p : Nat)
  | insert (p : Nat) (now : Int)
  | stop (p : Nat)

namespace Shared

def set (shared : Shared φ) (p : Nat) (phase : Phase φ) : Shared φ :=
  { shared with processes := Function.update shared.processes p phase }

/-- `record_id not in {e.record_id for e in self.pending()}`, after its second statement. -/
def afterPending (review : Decision φ) (found : Except ReviewError (List (Escalation φ))) : Phase φ :=
  match found with
  | .error _ => .idle
  | .ok escalations =>
      if review.recordId ∈ escalations.map Escalation.recordId then
        .drafted ⟨review.recordId, "REVIEW", reviewPayload review⟩
      else .idle

section Steps

variable (crypto : Crypto) (repr : φ → List Char)

def step (shared : Shared φ) : Action φ → Shared φ
  | .escalate p recordId harmClass measured bound reason =>
      match shared.processes p with
      | .idle =>
          shared.set p
            (.drafted ⟨recordId, "ESCALATION", escalationPayload harmClass measured bound reason⟩)
      | _ => shared
  | .resolve p review =>
      match shared.processes p, checkDecision review with
      | .idle, .ok _ =>
          shared.set p (.reviewsRead review
            ((rowsOf shared.log "REVIEW").map ReviewRow.recordId))
      | _, _ => shared
  | .selectEscalations p =>
      match shared.processes p with
      | .reviewsRead review reviewed =>
          shared.set p (afterPending review (pendingOf reviewed (rowsOf shared.log "ESCALATION")))
      | _ => shared
  | .selectHash p =>
      match shared.processes p with
      | .drafted draft => shared.set p (.hashRead draft shared.log.lastHash)
      | _ => shared
  | .selectSeq p =>
      match shared.processes p with
      | .hashRead draft prev => shared.set p (.seqRead draft prev shared.log.nextSeq)
      | _ => shared
  | .insert p now =>
      match shared.processes p with
      | .seqRead draft prev seq =>
          match insertRow crypto repr shared.log draft.recordId draft.kind draft.payload seq prev
              now with
          | .error _ => shared.set p .idle
          | .ok log => { shared.set p .idle with log := log }
      | _ => shared
  | .stop p => shared.set p .idle

def fresh : Shared φ := ⟨fun _ => .idle, ReviewLog.empty⟩

/-- A call raises and leaves the table, or ends with one more row; its other
statements leave the table. -/
def Outcome (shared : Shared φ) (action : Action φ) : Prop :=
  match action with
  | .insert p now => ∀ draft prev seq, shared.processes p = .seqRead draft prev seq →
      match insertRow crypto repr shared.log draft.recordId draft.kind draft.payload seq prev now with
      | .error _ => (shared.step crypto repr action).log = shared.log
      | .ok _ => ∃ row, (shared.step crypto repr action).log.rows = shared.log.rows ++ [row]
  | _ => (shared.step crypto repr action).log = shared.log

/-- A row whose number is still free goes in while the hash its call has read is that
of the last row, and its payload hashes alike when it is read back. -/
def AppendsAtHead (shared : Shared φ) (action : Action φ) : Prop :=
  match action with
  | .insert p now => ∀ draft prev seq document, shared.processes p = .seqRead draft prev seq →
      draft.payload = some document → (∀ old ∈ shared.log.rows, old.seq ≠ seq) →
        prev = shared.log.lastHash ∧
          rowHash crypto repr seq draft.kind document.normal now prev =
            rowHash crypto repr seq draft.kind document now prev
  | _ => True

end Steps

/-- The rows are numbered from 1 without a gap, and no call holds a number past the next. -/
structure Numbered (shared : Shared φ) : Prop where
  rows : ∀ (k : Nat) row, shared.log.rows[k]? = some row → row.seq = (k : Int) + 1
  calls : ∀ p draft prev seq, shared.processes p = .seqRead draft prev seq →
    1 ≤ seq ∧ seq ≤ (shared.log.rows.length : Int) + 1

variable {crypto : Crypto} {repr : φ → List Char}

theorem Numbered.nextSeq {shared : Shared φ} (numbered : shared.Numbered) :
    shared.log.nextSeq = shared.log.rows.length + 1 := by
  rw [ReviewLog.nextSeq, List.getLast?_eq_getElem?]
  cases found : shared.log.rows[shared.log.rows.length - 1]? with
  | none =>
      have short := List.getElem?_eq_none_iff.mp found
      have empty : shared.log.rows.length = 0 := by omega
      simp [empty]
  | some row =>
      have last := numbered.rows _ row found
      rcases List.getElem?_eq_some_iff.mp found with ⟨bound, _⟩
      simp only [Option.map_some, Option.getD_some, last]
      omega

/-- The number is taken, or it is the next one. -/
theorem Numbered.taken_or_next {shared : Shared φ} (numbered : shared.Numbered) {seq : Int}
    (bounds : 1 ≤ seq ∧ seq ≤ (shared.log.rows.length : Int) + 1) :
    (∃ old ∈ shared.log.rows, old.seq = seq) ∨
      seq = (shared.log.rows.length : Int) + 1 ∧ ∀ old ∈ shared.log.rows, old.seq < seq := by
  by_cases next : seq = (shared.log.rows.length : Int) + 1
  · refine Or.inr ⟨next, ?_⟩
    intro old member
    rcases List.mem_iff_getElem.mp member with ⟨k, bound, at_k⟩
    have number := numbered.rows k old (by rw [List.getElem?_eq_getElem bound, at_k])
    omega
  · obtain ⟨k, rfl⟩ : ∃ k : Nat, seq = k + 1 := ⟨(seq - 1).toNat, by omega⟩
    have bound : k < shared.log.rows.length := by omega
    have number := numbered.rows k _ (List.getElem?_eq_getElem bound)
    exact Or.inl ⟨_, List.getElem_mem bound, number⟩

/-- A statement that is no insert leaves the table. -/
theorem step_log (shared : Shared φ) (action : Action φ) (other : ∀ p now, action ≠ .insert p now) :
    (shared.step crypto repr action).log = shared.log := by
  cases action with
  | escalate p recordId harmClass measured bound reason =>
      rw [step]
      split <;> rfl
  | resolve p review =>
      rw [step]
      split <;> rfl
  | selectEscalations p =>
      rw [step]
      split <;> rfl
  | selectHash p =>
      rw [step]
      split <;> rfl
  | selectSeq p =>
      rw [step]
      split <;> rfl
  | insert p now => exact absurd rfl (other p now)
  | stop p => rfl

variable (crypto repr) in
/-- An insert is refused, or puts its row behind the last one. -/
theorem Numbered.insert_cases {shared : Shared φ} (numbered : shared.Numbered) {p : Nat} (now : Int)
    {draft : Draft φ} {prev : String} {seq : Int}
    (phase : shared.processes p = .seqRead draft prev seq) :
    (∃ error, insertRow crypto repr shared.log draft.recordId draft.kind draft.payload seq prev now =
        .error error ∧ shared.step crypto repr (.insert p now) = shared.set p .idle ∧
        (draft.payload = none ∨ ∃ old ∈ shared.log.rows, old.seq = seq)) ∨
      ∃ document next, draft.payload = some document ∧ seq = (shared.log.rows.length : Int) + 1 ∧
        (∀ old ∈ shared.log.rows, old.seq < seq) ∧
        insertRow crypto repr shared.log draft.recordId draft.kind draft.payload seq prev now =
          .ok next ∧
        next.rows = shared.log.rows ++
          [newRow crypto repr draft.recordId draft.kind document seq prev now] ∧
        shared.step crypto repr (.insert p now) = { shared.set p .idle with log := next } := by
  cases written : draft.payload with
  | none =>
      left
      exact ⟨_, rfl, by simp only [step, phase, insertRow, written], Or.inl rfl⟩
  | some document =>
      rcases numbered.taken_or_next (numbered.calls p draft prev seq phase) with
        taken | ⟨next, below⟩
      · left
        have refused := insert_taken shared.log
          (newRow crypto repr draft.recordId draft.kind document seq prev now) taken
        exact ⟨_, refused, by simp only [step, phase, insertRow, written, refused], Or.inr taken⟩
      · right
        rcases insert_last shared.log
          (newRow crypto repr draft.recordId draft.kind document seq prev now) below with
          ⟨log, inserted, rows⟩
        exact ⟨document, log, rfl, next, below, inserted, rows,
          by simp only [step, phase, insertRow, written, inserted]⟩

theorem Numbered.set {shared : Shared φ} (numbered : shared.Numbered) (p : Nat) (phase : Phase φ)
    (bounds : ∀ draft prev seq, phase = .seqRead draft prev seq →
      1 ≤ seq ∧ seq ≤ (shared.log.rows.length : Int) + 1) : (shared.set p phase).Numbered := by
  refine ⟨numbered.rows, ?_⟩
  intro q draft prev seq held
  by_cases same : q = p
  · subst same
    simp only [Shared.set, Function.update_self] at held
    exact bounds draft prev seq held
  · simp only [Shared.set, Function.update_of_ne same] at held
    exact numbered.calls q draft prev seq held

theorem Numbered.step {shared : Shared φ} (numbered : shared.Numbered) (action : Action φ) :
    (shared.step crypto repr action).Numbered := by
  have idle : ∀ p, (shared.set p .idle).Numbered := by
    intro p
    exact numbered.set p .idle (fun _ _ _ held => by cases held)
  cases action with
  | escalate p recordId harmClass measured bound reason =>
      rw [Shared.step]
      split
      · exact numbered.set p _ (fun _ _ _ held => by cases held)
      · exact numbered
  | resolve p review =>
      rw [Shared.step]
      split
      · exact numbered.set p _ (fun _ _ _ held => by cases held)
      · exact numbered
  | selectEscalations p =>
      rw [Shared.step]
      split
      · refine numbered.set p _ ?_
        intro draft prev seq held
        unfold afterPending at held
        split at held
        · cases held
        · split_ifs at held
      · exact numbered
  | selectHash p =>
      rw [Shared.step]
      split
      · exact numbered.set p _ (fun _ _ _ held => by cases held)
      · exact numbered
  | selectSeq p =>
      rw [Shared.step]
      split
      · refine numbered.set p _ ?_
        intro draft prev seq held
        cases held
        rw [numbered.nextSeq]
        omega
      · exact numbered
  | insert p now =>
      cases phase : shared.processes p with
      | seqRead draft prev seq =>
          rcases numbered.insert_cases crypto repr now phase with
            ⟨_, _, same, _⟩ | ⟨document, next, _, number, _, _, rows, stepped⟩
          · rw [same]
            exact idle p
          · rw [stepped]
            refine ⟨?_, ?_⟩
            · intro k row found
              simp only [rows] at found
              rcases Nat.lt_or_ge k shared.log.rows.length with before | last
              · rw [List.getElem?_append_left before] at found
                exact numbered.rows k row found
              · rw [List.getElem?_append_right last, List.getElem?_singleton] at found
                split_ifs at found with first
                cases found
                simp only [newRow, number]
                omega
            · intro q draft' prev' seq' held
              have bounds := (idle p).calls q draft' prev' seq' held
              simp only [Shared.set] at bounds
              simp only [rows, List.length_append, List.length_singleton]
              omega
      | _ => simpa only [Shared.step, phase] using numbered
  | stop p => exact idle p

theorem Numbered.outcome {shared : Shared φ} (numbered : shared.Numbered) (action : Action φ) :
    shared.Outcome crypto repr action := by
  cases action with
  | insert p now =>
      intro draft prev seq phase
      rcases numbered.insert_cases crypto repr now phase with
        ⟨error, refused, same, _⟩ | ⟨document, next, _, _, _, inserted, rows, stepped⟩
      · rw [refused, same]
        rfl
      · rw [inserted, stepped]
        exact ⟨_, rows⟩
  | _ => exact step_log shared _ (fun _ _ same => by cases same)

/-- The chain survives a statement exactly when a row goes in behind the one it names. -/
theorem Numbered.step_intact_iff {shared : Shared φ} (numbered : shared.Numbered)
    (action : Action φ) (intact : Intact crypto repr shared.log) :
    Intact crypto repr (shared.step crypto repr action).log ↔
      shared.AppendsAtHead crypto repr action := by
  cases action with
  | insert p now =>
      cases phase : shared.processes p with
      | seqRead draft prev seq =>
          rcases numbered.insert_cases crypto repr now phase with
            ⟨error, _, same, why⟩ | ⟨document, next, written, _, below, _, rows, stepped⟩
          · rw [same]
            refine ⟨fun _ => ?_, fun _ => intact⟩
            intro draft' prev' seq' document held written unused
            cases phase.symm.trans held
            rcases why with unwritten | ⟨old, member, taken⟩
            · rw [written] at unwritten
              cases unwritten
            · exact absurd taken (unused old member)
          · have appended : Intact crypto repr (shared.step crypto repr (.insert p now)).log ↔
                prev = shared.log.lastHash ∧
                  rowHash crypto repr seq draft.kind document.normal now prev =
                    rowHash crypto repr seq draft.kind document now prev := by
              rw [stepped, Intact, rows, HashChain.linked_append, List.forall_mem_append,
                List.forall_mem_singleton]
              constructor
              · intro ⟨⟨_, named⟩, _, sound⟩
                exact ⟨named, sound⟩
              · intro ⟨named, sound⟩
                exact ⟨⟨intact.1, named⟩, intact.2, sound⟩
            rw [appended]
            constructor
            · intro ready draft' prev' seq' document' held written' _
              cases phase.symm.trans held
              cases written.symm.trans written'
              exact ready
            · intro atHead
              refine atHead draft prev seq document phase written ?_
              intro old member
              have before := below old member
              omega
      | _ =>
          have unmoved : shared.step crypto repr (.insert p now) = shared := by
            simp only [Shared.step, phase]
          rw [unmoved]
          refine ⟨fun _ => ?_, fun _ => intact⟩
          intro draft prev seq document held
          rw [phase] at held
          cases held
  | _ =>
      rw [step_log shared _ (fun _ _ same => by cases same)]
      exact ⟨fun _ => trivial, fun _ => intact⟩

/-- Over every interleaving of statements: each call raises or appends one row, and
the chain verifies in every state, exactly when every row goes in behind the row its
call has read. -/
theorem review_log_intact_iff (crypto : Crypto) (repr : φ → List Char) (actions : List (Action φ)) :
    (∀ front action back, actions = front ++ action :: back →
      (Run.run (step crypto repr) fresh front).Outcome crypto repr action ∧
        verifyChain crypto repr (Run.run (step crypto repr) fresh (front ++ [action])).log =
          (true, "intact")) ↔
      Run.Admissible (step crypto repr) (AppendsAtHead crypto repr) fresh actions := by
  have start : (fresh : Shared φ).Numbered :=
    ⟨fun k row found => by simp [fresh, ReviewLog.empty] at found, fun p _ _ _ held => by cases held⟩
  have numbered : ∀ inputs, (Run.run (step crypto repr) (fresh : Shared φ) inputs).Numbered := by
    intro inputs
    exact Run.kept_run (step crypto repr) Numbered (fun _ action holds => holds.step action) fresh
      inputs start
  rw [← Run.fine_iff_admissible (step crypto repr) (AppendsAtHead crypto repr) (Outcome crypto repr)
    (fun shared => shared.Numbered ∧ Intact crypto repr shared.log)
    (by
      intro shared action ⟨holds, intact⟩
      rw [← holds.step_intact_iff action intact]
      exact ⟨fun kept => kept.2.2, fun kept => ⟨holds.outcome action, holds.step action, kept⟩⟩)
    fresh actions ⟨start, trivial, fun _ member => by cases member⟩]
  simp only [verifyChain_intact_iff, numbered, true_and]

end Shared

end Review

namespace Sample

/-- The second process appends between the first one's two readings. -/
def interleavedEscalations : List (Review.Action Int) :=
  [.escalate 0 "e-0" "H1" (some 7) (some 5) "bound reached",
    .escalate 1 "e-1" "H1" (some 8) (some 5) "bound reached",
    .selectHash 0, .selectHash 1, .selectSeq 1, .insert 1 1000, .selectSeq 0, .insert 0 1001]

end Sample

open Review Shared in
theorem review_log_broken :
    Review.verifyChain Sample.crypto CanonJson.wholeFloats.repr
      (Run.run (step Sample.crypto CanonJson.wholeFloats.repr) fresh
        Sample.interleavedEscalations).log ≠ (true, "intact") := by
  have rows : (Run.run (step Sample.crypto CanonJson.wholeFloats.repr) fresh
      Sample.interleavedEscalations).log.rows =
      [newRow Sample.crypto CanonJson.wholeFloats.repr "e-1" "ESCALATION"
          (.obj [("bound", .float 5), ("harm_class", .str "H1"), ("measured", .float 8),
            ("reason", .str "bound reached")]) 1 genesis 1000,
        newRow Sample.crypto CanonJson.wholeFloats.repr "e-0" "ESCALATION"
          (.obj [("bound", .float 5), ("harm_class", .str "H1"), ("measured", .float 7),
            ("reason", .str "bound reached")]) 2 genesis 1001] := rfl
  rw [ne_eq, verifyChain_intact_iff, Intact, rows]
  intro ⟨⟨_, named, _⟩, _⟩
  exact Sample.dumps_ne_genesis _ _ named.symm

end Gyza
