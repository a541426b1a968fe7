import Gyza.EnvelopeLog
import Gyza.Lib.PyNumber
import Gyza.Review

/-! The review cadence: `check_cadence`, run by `AgentRunner._complete` after every
signed action. -/

namespace Gyza

open CanonJson (Doc)
open PyNumber (FloatFormat Number)

namespace Review

def h6 : String := "H6_unsupervised_actions"

/-- `f"{count:,}"`: the digits in threes from the right. -/
def thousands (count : Nat) : String :=
  String.ofList (List.intercalate [','] ((Nat.toDigits 10 count).reverse.toChunks 3)).reverse

inductive CadenceError where
  | overflow
  | review (error : ReviewError)

/-- What one runner's check is wired with. -/
structure Cadence (φ : Type) where
  crypto : Crypto
  format : FloatFormat φ
  /-- `f"{bound:,.0f}"`. -/
  wholeText : φ → String
  /-- `_harm_registry`, which holds the interval. -/
  interval : Number φ
  originNs : Int
  /-- What `uuid.uuid7()` returns while the node's n-th action is checked. -/
  uuid7 : Nat → String

variable {φ : Type}

/-- `e.harm_class == harm_class`. -/
def isText (text : String) : Doc φ → Bool
  | .str other => other = text
  | _ => false

namespace Cadence

variable (cadence : Cadence φ)

def reason (actionsSinceOrigin : Nat) (bound : φ) : String :=
  "review cadence reached: " ++ thousands actionsSinceOrigin ++
    " actions since the accounting origin, declared cadence " ++ cadence.wholeText bound

/-- The queue with the escalation it opens, or nothing where it opens none. -/
def checkCadence (queue : ReviewLog φ) (actionsSinceOrigin : Nat) (recordId : String) (now : Int) :
    Except CadenceError (Option (ReviewLog φ)) :=
  match cadence.interval.toFloat cadence.format with
  | none => .error .overflow
  | some bound =>
      if cadence.format.value bound ≤ 0 then .ok none
      else if (actionsSinceOrigin : ℚ) < cadence.format.value bound then .ok none
      else
        match pending queue with
        | .error error => .error (.review error)
        | .ok found =>
            if found.any (fun escalation => isText h6 escalation.harmClass) then .ok none
            else
              match cadence.format.ofInt actionsSinceOrigin with
              | none => .error .overflow
              | some measured =>
                  match escalate cadence.crypto cadence.format.repr queue recordId h6 (some measured)
                      (some bound) (cadence.reason actionsSinceOrigin bound) now with
                  | .error error => .error (.review error)
                  | .ok opened => .ok (some opened)

/-- A node: its envelopes, its review queue, and how many actions it has signed. -/
structure Node (φ : Type) where
  envelopes : EnvelopeLog
  queue : ReviewLog φ
  signed : Nat

inductive Action (φ : Type) where
  | sign (env : ICPEnvelope) (now : Int)
  | resolve (review : Decision φ) (now : Int)

def queueAfterCount (queue : ReviewLog φ) (count : Nat) (recordId : String) (now : Int) :
    ReviewLog φ :=
  match cadence.checkCadence queue count recordId now with
  | .error _ => queue
  | .ok opened => opened.getD queue

/-- The queue after the check in `_complete`, which lets no exception through. -/
def queueAfterCheck (envelopes : EnvelopeLog) (queue : ReviewLog φ) (recordId : String) (now : Int) :
    ReviewLog φ :=
  match countEnvelopesSince envelopes cadence.originNs with
  | .error _ => queue
  | .ok count => cadence.queueAfterCount queue count recordId now

def step (node : Node φ) : Action φ → Node φ
  | .sign env now =>
      { envelopes := afterStore cadence.crypto node.envelopes env
        queue := cadence.queueAfterCheck (afterStore cadence.crypto node.envelopes env) node.queue
          (cadence.uuid7 node.signed) now
        signed := node.signed + 1 }
  | .resolve review now =>
      match Review.resolve cadence.crypto cadence.format.repr node.queue review now with
      | .error _ => node
      | .ok queue => { node with queue := queue }

def start (envelopes : EnvelopeLog) : Node φ := ⟨envelopes, ReviewLog.empty, 0⟩

def Node.escalations (node : Node φ) : Nat := (rowsOf node.queue "ESCALATION").length

def Node.reviews (node : Node φ) : Nat := (rowsOf node.queue "REVIEW").length

/-- The check after this signature finds the interval reached and nothing pending. -/
def Due (node : Node φ) (env : ICPEnvelope) : Prop :=
  ∃ bound count measured, cadence.interval.toFloat cadence.format = some bound ∧
    0 < cadence.format.value bound ∧
    countEnvelopesSince (afterStore cadence.crypto node.envelopes env) cadence.originNs = .ok count ∧
    cadence.format.value bound ≤ count ∧ cadence.format.ofInt count = some measured ∧
    pending node.queue = .ok []

/-- A check that finds the cadence due with every escalation reviewed comes a full
interval of signed actions after each of the reviews so far. -/
def InPace (node : Node φ) : Action φ → Prop
  | .sign env _ => cadence.Due node env →
      ((node.reviews : ℚ) + 1) * cadence.interval.exactValue cadence.format ≤ (node.signed : ℚ) + 1
  | .resolve _ _ => True

/-! What `_append` and `pending` do to the projections. -/

theorem escalationPayload_reads (harmClass : String) (measured bound : φ) (reason : String)
    (row : ReviewRow φ)
    (written : escalationPayload harmClass (some measured) (some bound) reason = some row.payload) :
    toEscalation row = .ok ⟨row.recordId, .str harmClass, .float measured, .float bound, .str reason,
      row.atNs⟩ := by
  have payload : row.payload = .obj [("bound", .float bound), ("harm_class", .str harmClass),
      ("measured", .float measured), ("reason", .str reason)] := (Option.some.inj written).symm
  have sorted : row.payload.normal = row.payload := by
    rw [payload]
    simp [Doc.normal, Doc.normalFields, Doc.sortFields, Doc.lastOfEach]
  rw [toEscalation, loadFields, sorted, payload]
  rfl

/-- Where every row can be read, the pending escalations are the unreviewed rows. -/
theorem pendingOf_readable (reviewed : List String) (rows : List (ReviewRow φ))
    (readable : ∀ row ∈ rows, ∃ escalation, toEscalation row = .ok escalation ∧
      escalation.recordId = row.recordId ∧ escalation.harmClass = .str h6) :
    ∃ found, pendingOf reviewed rows = .ok found ∧
      found.map Escalation.recordId =
        (rows.map ReviewRow.recordId).filter (fun recordId => recordId ∉ reviewed) ∧
      ∀ escalation ∈ found, escalation.harmClass = .str h6 := by
  induction rows with
  | nil => exact ⟨[], rfl, rfl, fun _ member => by cases member⟩
  | cons row rest ih =>
      rw [List.forall_mem_cons] at readable
      rcases ih readable.2 with ⟨found, read, ids, classes⟩
      by_cases seen : row.recordId ∈ reviewed
      · refine ⟨found, by rw [pendingOf, if_pos seen, read], ?_, classes⟩
        rw [List.map_cons, List.filter_cons_of_neg (by simpa using seen), ids]
      · rcases readable.1 with ⟨escalation, first, named, harm⟩
        refine ⟨escalation :: found, ?_, ?_, List.forall_mem_cons.mpr ⟨harm, classes⟩⟩
        · rw [pendingOf, if_neg seen, first, read]
          rfl
        · rw [List.map_cons, List.map_cons, List.filter_cons_of_pos (by simpa using seen), ids, named]

/-! One step. -/

variable {cadence}

theorem checkCadence_opens_iff (queue next : ReviewLog φ) (count : Nat) (recordId : String)
    (now : Int) :
    cadence.checkCadence queue count recordId now = .ok (some next) ↔
      ∃ bound measured found, cadence.interval.toFloat cadence.format = some bound ∧
        0 < cadence.format.value bound ∧ cadence.format.value bound ≤ count ∧
        pending queue = .ok found ∧
        (∀ escalation ∈ found, isText h6 escalation.harmClass = false) ∧
        cadence.format.ofInt count = some measured ∧
        escalate cadence.crypto cadence.format.repr queue recordId h6 (some measured) (some bound)
          (cadence.reason count bound) now = .ok next := by
  constructor
  · intro opened
    unfold checkCadence at opened
    cases limit : cadence.interval.toFloat cadence.format with
    | none => simp [limit] at opened
    | some bound =>
        by_cases unset : cadence.format.value bound ≤ 0
        · simp [limit, unset] at opened
        by_cases early : (count : ℚ) < cadence.format.value bound
        · simp [limit, unset, early] at opened
        simp only [limit, unset, early, if_false] at opened
        cases read : pending queue with
        | error error => simp [read] at opened
        | ok found =>
            by_cases waiting : found.any (fun escalation => isText h6 escalation.harmClass) = true
            · simp [read, waiting] at opened
            simp only [read] at opened
            rw [if_neg waiting] at opened
            cases measure : cadence.format.ofInt count with
            | none => simp [measure] at opened
            | some measured =>
                simp only [measure] at opened
                split at opened
                · cases opened
                · next written =>
                    cases opened
                    refine ⟨bound, measured, found, rfl, not_le.mp unset, not_lt.mp early, rfl, ?_, rfl,
                      written⟩
                    simpa using waiting
  · intro ⟨bound, measured, found, limit, positive, reached, read, clear, measure, written⟩
    have waiting : found.any (fun escalation => isText h6 escalation.harmClass) = false := by
      simpa using clear
    simp only [checkCadence, limit, not_le.mpr positive, not_lt.mpr reached, read, waiting, measure,
      written, if_false, Bool.false_eq_true]

/-- The check opens an escalation under its own id exactly when it is due. -/
theorem sign_cases {node : Node φ} {found : List (Escalation φ)}
    (read : pending node.queue = .ok found)
    (classes : ∀ escalation ∈ found, escalation.harmClass = .str h6) (env : ICPEnvelope) (now : Int) :
    (¬cadence.Due node env ∧ (cadence.step node (.sign env now)).queue = node.queue) ∨
      cadence.Due node env ∧ ∃ row : ReviewRow φ,
        (cadence.step node (.sign env now)).queue.rows = node.queue.rows ++ [row] ∧
          row.kind = "ESCALATION" ∧ row.recordId = cadence.uuid7 node.signed ∧
          ∃ escalation, toEscalation row = .ok escalation ∧ escalation.recordId = row.recordId ∧
            escalation.harmClass = .str h6 := by
  by_cases due : cadence.Due node env
  · right
    refine ⟨due, ?_⟩
    rcases due with ⟨bound, count, measured, limit, positive, counted, reached, measure, clear⟩
    rcases append_cases cadence.crypto cadence.format.repr node.queue (cadence.uuid7 node.signed)
        "ESCALATION" (escalationPayload h6 (some measured) (some bound) (cadence.reason count bound))
        now with ⟨unwritten, _⟩ | ⟨document, next, payload, written, rows⟩
    · cases unwritten
    · have opened := (checkCadence_opens_iff node.queue next count (cadence.uuid7 node.signed) now).mpr
        ⟨bound, measured, [], limit, positive, reached, clear, List.forall_mem_nil _, measure, written⟩
      refine ⟨newRow cadence.crypto cadence.format.repr (cadence.uuid7 node.signed) "ESCALATION" document
        node.queue.nextSeq node.queue.lastHash now, ?_, rfl, rfl, _,
        escalationPayload_reads h6 measured bound _ _ payload, rfl, rfl⟩
      simp only [step, queueAfterCheck, queueAfterCount, counted, opened, Option.getD_some, rows]
  · left
    refine ⟨due, ?_⟩
    simp only [step, queueAfterCheck, queueAfterCount]
    split
    · rfl
    · next count counted =>
        split
        · rfl
        · next result checked =>
            cases result with
            | none => rfl
            | some next =>
                rcases (checkCadence_opens_iff _ _ _ _ _).mp checked with
                  ⟨bound, measured, found', limit, positive, reached, read', clear, measure, _⟩
                have empty : found' = [] := by
                  cases read.symm.trans read'
                  apply List.eq_nil_iff_forall_not_mem.mpr
                  intro escalation member
                  have other := clear escalation member
                  simp [classes escalation member, isText] at other
                exact absurd ⟨bound, count, measured, limit, positive, counted, reached, measure,
                  empty ▸ read'⟩ due

theorem step_resolve (node : Node φ) (review : Decision φ) (now : Int) :
    cadence.step node (.resolve review now) =
      { node with queue := (Review.resolve cadence.crypto cadence.format.repr node.queue review
          now).toOption.getD node.queue } := by
  simp only [step]
  split
  · next raised => rw [raised]; rfl
  · next resolved => rw [resolved]; rfl

/-- A review appends one row for a pending escalation, or leaves the queue. -/
theorem resolve_cases (node : Node φ) (review : Decision φ) (now : Int) :
    cadence.step node (.resolve review now) = node ∨
      ∃ found row, pending node.queue = .ok found ∧
        review.recordId ∈ found.map Escalation.recordId ∧
        (cadence.step node (.resolve review now)).queue.rows = node.queue.rows ++ [row] ∧
        (cadence.step node (.resolve review now)).signed = node.signed ∧
        row.kind = "REVIEW" ∧ row.recordId = review.recordId := by
  simp only [step]
  split
  · exact Or.inl rfl
  · next queue resolved =>
      right
      rw [resolve] at resolved
      cases checked : checkDecision review with
      | error error => simp [checked, bind, Except.bind] at resolved
      | ok _ =>
          cases read : pending node.queue with
          | error error => simp [checked, read, bind, Except.bind] at resolved
          | ok found =>
              simp only [checked, read, bind, Except.bind] at resolved
              split_ifs at resolved with waiting
              rcases append_cases cadence.crypto cadence.format.repr node.queue review.recordId "REVIEW"
                  (reviewPayload review) now with ⟨_, error, refused⟩ | ⟨document, next, _, written, rows⟩
              · rw [refused] at resolved
                cases resolved
              · rw [written] at resolved
                cases resolved
                exact ⟨found, _, rfl, waiting, rows, rfl, rfl, rfl⟩

variable (cadence) in
/-- Every escalation can be read and has an id of its own; the reviews answer different ones. -/
structure Node.Sound (node : Node φ) : Prop where
  readable : ∀ row ∈ rowsOf node.queue "ESCALATION", ∃ escalation,
    toEscalation row = .ok escalation ∧ escalation.recordId = row.recordId ∧
      escalation.harmClass = .str h6
  drawn : ∀ row ∈ rowsOf node.queue "ESCALATION", ∃ k < node.signed, row.recordId = cadence.uuid7 k
  escalated : ((rowsOf node.queue "ESCALATION").map ReviewRow.recordId).Nodup
  reviewed : ((rowsOf node.queue "REVIEW").map ReviewRow.recordId).Nodup
  answers : (rowsOf node.queue "REVIEW").map ReviewRow.recordId ⊆
    (rowsOf node.queue "ESCALATION").map ReviewRow.recordId

theorem Node.Sound.pending {node : Node φ} (sound : node.Sound cadence) :
    ∃ found, Review.pending node.queue = .ok found ∧
      found.map Escalation.recordId = ((rowsOf node.queue "ESCALATION").map ReviewRow.recordId).filter
        (fun recordId => recordId ∉ (rowsOf node.queue "REVIEW").map ReviewRow.recordId) ∧
      ∀ escalation ∈ found, escalation.harmClass = .str h6 :=
  pendingOf_readable _ _ sound.readable

/-- With nothing pending there are as many reviews as escalations. -/
theorem Node.Sound.reviews_eq {node : Node φ} (sound : node.Sound cadence)
    (clear : Review.pending node.queue = .ok []) : node.reviews = node.escalations := by
  rcases sound.pending with ⟨found, read, ids, _⟩
  rw [clear] at read
  cases read
  have answered : (rowsOf node.queue "ESCALATION").map ReviewRow.recordId ⊆
      (rowsOf node.queue "REVIEW").map ReviewRow.recordId := by
    intro recordId member
    have seen := List.filter_eq_nil_iff.mp ids.symm recordId member
    simpa using seen
  have most := (List.subperm_of_subset sound.reviewed sound.answers).length_le
  have least := (List.subperm_of_subset sound.escalated answered).length_le
  rw [List.length_map, List.length_map] at most least
  exact Nat.le_antisymm most least

/-- The rows of each kind after a row of the first kind. -/
theorem Node.escalations_append {node next : Node φ} {row : ReviewRow φ}
    (rows : next.queue.rows = node.queue.rows ++ [row]) (kind : row.kind = "ESCALATION") :
    rowsOf next.queue "ESCALATION" = rowsOf node.queue "ESCALATION" ++ [row] ∧
      rowsOf next.queue "REVIEW" = rowsOf node.queue "REVIEW" := by
  rw [rowsOf_append rows, rowsOf_append rows, kind]
  simp

theorem Node.reviews_append {node next : Node φ} {row : ReviewRow φ}
    (rows : next.queue.rows = node.queue.rows ++ [row]) (kind : row.kind = "REVIEW") :
    rowsOf next.queue "ESCALATION" = rowsOf node.queue "ESCALATION" ∧
      rowsOf next.queue "REVIEW" = rowsOf node.queue "REVIEW" ++ [row] := by
  rw [rowsOf_append rows, rowsOf_append rows, kind]
  simp

theorem Node.Sound.step (distinct : Function.Injective cadence.uuid7) {node : Node φ}
    (sound : node.Sound cadence) (action : Action φ) : (cadence.step node action).Sound cadence := by
  rcases sound.pending with ⟨found, read, ids, classes⟩
  cases action with
  | sign env now =>
      have earlier : ∀ row ∈ rowsOf node.queue "ESCALATION", ∃ k < node.signed + 1,
          row.recordId = cadence.uuid7 k := by
        intro row member
        rcases sound.drawn row member with ⟨k, before, named⟩
        exact ⟨k, Nat.lt_succ_of_lt before, named⟩
      rcases sign_cases read classes env now with ⟨_, same⟩ | ⟨_, row, rows, kind, named, readable⟩
      · constructor
        · rw [same]
          exact sound.readable
        · rw [same]
          exact earlier
        · rw [same]
          exact sound.escalated
        · rw [same]
          exact sound.reviewed
        · rw [same]
          exact sound.answers
      · rcases Node.escalations_append rows kind with ⟨escalations, reviews⟩
        have unused : row.recordId ∉ (rowsOf node.queue "ESCALATION").map ReviewRow.recordId := by
          intro taken
          rcases List.mem_map.mp taken with ⟨old, member, same⟩
          rcases sound.drawn old member with ⟨k, before, drawn⟩
          rw [drawn, named] at same
          exact absurd (distinct same) before.ne
        constructor
        · rw [escalations, List.forall_mem_append, List.forall_mem_singleton]
          exact ⟨sound.readable, readable⟩
        · rw [escalations, List.forall_mem_append, List.forall_mem_singleton]
          exact ⟨earlier, node.signed, Nat.lt_succ_self _, named⟩
        · rw [escalations, List.map_append, List.map_singleton, ← List.concat_eq_append,
            List.nodup_concat]
          exact ⟨unused, sound.escalated⟩
        · rw [reviews]
          exact sound.reviewed
        · rw [reviews, escalations, List.map_append]
          exact List.subset_append_of_subset_left _ sound.answers
  | resolve review now =>
      rcases cadence.resolve_cases node review now with same | ⟨found', row, read', waiting, rows, signed, kind, named⟩
      · rw [same]
        exact sound
      · cases read.symm.trans read'
        rw [ids] at waiting
        rcases List.mem_filter.mp waiting with ⟨escalated, unreviewed⟩
        rcases Node.reviews_append rows kind with ⟨escalations, reviews⟩
        constructor
        · rw [escalations]
          exact sound.readable
        · rw [escalations, signed]
          exact sound.drawn
        · rw [escalations]
          exact sound.escalated
        · rw [reviews, List.map_append, List.map_singleton, ← List.concat_eq_append, List.nodup_concat,
            named]
          exact ⟨by simpa using unreviewed, sound.reviewed⟩
        · rw [reviews, escalations, List.map_append, List.map_singleton, List.append_subset, named]
          refine ⟨sound.answers, ?_⟩
          intro recordId member
          rwa [List.mem_singleton.mp member]

/-- Where at most one escalation was opened for every interval of signed actions, that
stays so exactly when the next check is in pace. -/
theorem Node.Sound.step_periodic_iff {node : Node φ} (sound : node.Sound cadence)
    (action : Action φ)
    (periodic : (node.escalations : ℚ) * cadence.interval.exactValue cadence.format ≤ node.signed) :
    ((cadence.step node action).escalations : ℚ) * cadence.interval.exactValue cadence.format ≤
        (cadence.step node action).signed ↔ cadence.InPace node action := by
  rcases sound.pending with ⟨found, read, ids, classes⟩
  cases action with
  | sign env now =>
      have signed : ((cadence.step node (.sign env now)).signed : ℚ) = node.signed + 1 := by
        simp [Cadence.step]
      rcases sign_cases read classes env now with ⟨undue, same⟩ | ⟨due, row, rows, kind, _⟩
      · have unchanged : (cadence.step node (.sign env now)).escalations = node.escalations := by
          rw [Node.escalations, same, Node.escalations]
        rw [unchanged, signed]
        refine ⟨fun _ due => absurd due undue, fun _ => by linarith⟩
      · have opened : (cadence.step node (.sign env now)).escalations = node.escalations + 1 := by
          rw [Node.escalations, (Node.escalations_append rows kind).1, List.length_append, Node.escalations,
            List.length_singleton]
        have clear : Review.pending node.queue = .ok [] := by
          rcases due with ⟨_, _, _, _, _, _, _, _, clear⟩
          exact clear
        rw [opened, signed, InPace, sound.reviews_eq clear, Nat.cast_add, Nat.cast_one]
        exact ⟨fun bound _ => bound, fun bound => bound due⟩
  | resolve review now =>
      have kept : (cadence.step node (.resolve review now)).escalations = node.escalations ∧
          (cadence.step node (.resolve review now)).signed = node.signed := by
        rcases cadence.resolve_cases node review now with same | ⟨_, row, _, _, rows, signed, kind, _⟩
        · rw [same]
          exact ⟨rfl, rfl⟩
        · rw [Node.escalations, (Node.reviews_append rows kind).1]
          exact ⟨rfl, signed⟩
      rw [kept.1, kept.2]
      exact ⟨fun _ => trivial, fun _ => periodic⟩

/-- In every run each interval of signed actions opens at most one escalation, exactly
when no check is due ahead of a full interval after each review. -/
theorem cadence_periodic_iff (cadence : Cadence φ) (distinct : Function.Injective cadence.uuid7)
    (positive : 0 < cadence.interval.exactValue cadence.format) (envelopes : EnvelopeLog)
    (actions : List (Action φ)) :
    (∀ front back, actions = front ++ back →
      ((Run.run cadence.step (start envelopes) front).escalations : Int) ≤
        ⌊((Run.run cadence.step (start envelopes) front).signed : ℚ) /
          cadence.interval.exactValue cadence.format⌋) ↔
      Run.Admissible cadence.step cadence.InPace (start envelopes) actions := by
  have sound : ∀ inputs, (Run.run cadence.step (start envelopes) inputs).Sound cadence := by
    intro inputs
    apply Run.kept_run cadence.step (Node.Sound cadence)
      (fun _ action holds => holds.step distinct action)
    refine ⟨?_, ?_, List.nodup_nil, List.nodup_nil, List.nil_subset _⟩
    · exact List.forall_mem_nil _
    · exact List.forall_mem_nil _
  rw [← Run.invariant_iff_admissible cadence.step cadence.InPace
    (fun node => node.Sound cadence ∧
      (node.escalations : ℚ) * cadence.interval.exactValue cadence.format ≤ node.signed)
    (by
      intro node action ⟨holds, periodic⟩
      rw [← holds.step_periodic_iff action periodic]
      exact ⟨fun kept => kept.2, fun kept => ⟨holds.step distinct action, kept⟩⟩)
    (start envelopes) actions ⟨sound [], by simp [start, Node.escalations, rowsOf, ReviewLog.empty]⟩]
  simp only [sound, true_and, Int.le_floor, Int.cast_natCast, le_div_iff₀ positive]

end Cadence

end Review

namespace Sample

/-- An escalation is due after every second action. -/
def cadence : Review.Cadence Int where
  crypto := crypto
  format := PyNumber.wholeFormat
  wholeText bound := Review.thousands bound.toNat
  interval := .int 2
  originNs := 0
  uuid7 n := String.ofList (List.replicate n 'u')

def seen (recordId : String) : Review.Decision Int := ⟨recordId, "operator", "RESUME", "seen", some []⟩

def envelopesOf (outputs : List String) : EnvelopeLog :=
  (outputs.map (fun output => envelope ["in"] output none)).foldl (afterStore crypto) Table.empty

theorem envelopesOf_append (outputs : List String) (output : String) :
    envelopesOf (outputs ++ [output]) =
      afterStore crypto (envelopesOf outputs) (envelope ["in"] output none) := by
  simp only [envelopesOf, List.map_append, List.map_cons, List.map_nil, List.foldl_append,
    List.foldl_cons, List.foldl_nil]

/-- Envelopes with different outputs are counted one by one. -/
theorem counted_envelopesOf (outputs : List String) (distinct : outputs.Nodup) :
    countEnvelopesSince (envelopesOf outputs) 0 = .ok outputs.length ∧
      ∀ output ∉ outputs, getEnvelope (envelopesOf outputs)
        (computeEnvelopeHash crypto (envelope ["in"] output none)) = none := by
  induction outputs using List.reverseRecOn with
  | nil => exact ⟨rfl, fun _ _ => rfl⟩
  | append_singleton earlier last ih =>
      rw [← List.concat_eq_append, List.nodup_concat] at distinct
      rcases ih distinct.2 with ⟨counted, absent⟩
      have fits : FitsInt64 (envelope ["in"] last none).timestampNs := by
        change FitsInt64 1000
        decide
      have since : (0 : Int) ≤ (envelope ["in"] last none).timestampNs := by
        change (0 : Int) ≤ 1000
        decide
      rw [envelopesOf_append, List.length_append, List.length_singleton]
      refine ⟨countEnvelopesSince_afterStore fits (absent last distinct.1) since counted, ?_⟩
      intro output other
      rw [List.mem_append, List.mem_singleton, not_or] at other
      rw [getEnvelope_afterStore fits, if_neg, absent output other.1]
      intro same
      have unsigned := (computeEnvelopeHash_eq_iff blake3_injective _ _).mp same
      exact other.2 (congrArg ICPEnvelope.outputHash unsigned).symm

theorem counted_sign (outputs : List String) (output : String)
    (distinct : (outputs ++ [output]).Nodup) :
    countEnvelopesSince (afterStore cadence.crypto (envelopesOf outputs)
      (envelope ["in"] output none)) cadence.originNs = .ok (outputs.length + 1) := by
  have counted := (counted_envelopesOf (outputs ++ [output]) distinct).1
  rwa [envelopesOf_append, List.length_append, List.length_singleton] at counted

theorem step_sign (outputs : List String) (output : String)
    (distinct : (outputs ++ [output]).Nodup) (queue : Review.ReviewLog Int) (signed : Nat) (now : Int) :
    cadence.step ⟨envelopesOf outputs, queue, signed⟩ (.sign (envelope ["in"] output none) now) =
      ⟨envelopesOf (outputs ++ [output]), cadence.queueAfterCount queue (outputs.length + 1)
        (cadence.uuid7 signed) now, signed + 1⟩ := by
  rw [envelopesOf_append]
  simp only [Review.Cadence.step, Review.Cadence.queueAfterCheck, counted_sign outputs output distinct]
  rfl

/-- Two actions, the escalation reviewed at once, and a third action. -/
def reviewedAtOnce : List (Review.Cadence.Action Int) :=
  [.sign (envelope ["in"] "out-1" none) 1, .sign (envelope ["in"] "out-2" none) 2,
    .resolve (seen "u") 3, .sign (envelope ["in"] "out-3" none) 4]

theorem uuid7_distinct : Function.Injective cadence.uuid7 := by
  intro n m same
  have letters : List.replicate n 'u' = List.replicate m 'u' := String.ofList_injective same
  simpa using congrArg List.length letters

theorem start_eq : Review.Cadence.start Table.empty =
    (⟨envelopesOf [], Review.ReviewLog.empty, 0⟩ : Review.Cadence.Node Int) := rfl

end Sample

open Review Cadence in
theorem cadence_periodic_sample :
    Function.Injective Sample.cadence.uuid7 ∧
      ∀ front back, Sample.reviewedAtOnce.take 3 = front ++ back →
      ((Run.run Sample.cadence.step (start Table.empty) front).escalations : Int) ≤
        ⌊((Run.run Sample.cadence.step (start Table.empty) front).signed : ℚ) /
          Sample.cadence.interval.exactValue Sample.cadence.format⌋ := by
  refine ⟨Sample.uuid7_distinct, ?_⟩
  apply (cadence_periodic_iff Sample.cadence Sample.uuid7_distinct (by decide) Table.empty
    (Sample.reviewedAtOnce.take 3)).mpr
  rw [Sample.start_eq]
  refine ⟨?_, ?_, trivial, trivial⟩
  · intro ⟨bound, count, _, limit, _, counted, reached, _⟩
    cases limit
    cases (Sample.counted_sign [] "out-1" (by decide)).symm.trans counted
    exact absurd reached (by decide)
  · intro _
    rw [Sample.step_sign _ _ (by decide)]
    have unreviewed : Node.reviews ⟨Sample.envelopesOf ([] ++ ["out-1"]),
        Sample.cadence.queueAfterCount ReviewLog.empty (([] : List String).length + 1)
          (Sample.cadence.uuid7 0) 1, 0 + 1⟩ = 0 := by
      decide +kernel
    have interval : Sample.cadence.interval.exactValue Sample.cadence.format = 2 := rfl
    rw [interval, unreviewed]
    norm_num

open Review Cadence in
/-- Every action after the first review opens an escalation. -/
theorem cadence_not_periodic :
    Function.Injective Sample.cadence.uuid7 ∧
      1 ≤ Sample.cadence.interval.exactValue Sample.cadence.format ∧
      ¬(((Run.run Sample.cadence.step (start Table.empty) Sample.reviewedAtOnce).escalations : Int) ≤
        ⌊((Run.run Sample.cadence.step (start Table.empty) Sample.reviewedAtOnce).signed : ℚ) /
          Sample.cadence.interval.exactValue Sample.cadence.format⌋) := by
  have run : (Run.run Sample.cadence.step (start Table.empty) Sample.reviewedAtOnce).escalations = 2 ∧
      (Run.run Sample.cadence.step (start Table.empty) Sample.reviewedAtOnce).signed = 3 := by
    rw [Sample.start_eq]
    simp only [Sample.reviewedAtOnce, Run.run_cons, Run.run_nil]
    rw [Sample.step_sign _ _ (by decide), Sample.step_sign _ _ (by decide), step_resolve,
      Sample.step_sign _ _ (by decide)]
    exact ⟨by decide +kernel, rfl⟩
  have interval : Sample.cadence.interval.exactValue Sample.cadence.format = 2 := rfl
  refine ⟨Sample.uuid7_distinct, by rw [interval]; norm_num, ?_⟩
  rw [run.1, run.2, interval]
  norm_num

end Gyza
