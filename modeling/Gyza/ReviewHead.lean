import Gyza.Review

/-! What the last hash of a review log commits to: every column but the record ids. -/

namespace Gyza

open CanonJson (Doc FloatText)
open Hex (Bytes utf8)

namespace Review

variable {φ : Type}

/-- What a row's hash covers, and what the next row names. -/
def core (row : ReviewRow φ) : Int × String × Doc φ × Int :=
  (row.seq, row.kind, row.payload.normal, row.atNs)

/-- Two tables whose rows differ in nothing that the chain covers. -/
abbrev SameCore (rows other : List (ReviewRow φ)) : Prop :=
  List.Forall₂ (fun row row' => core row = core row') rows other

section Commitment

variable {crypto : Crypto}

theorem rowHash_injective (ideal : Function.Injective crypto.blake3) (floats : FloatText φ)
    {seq seq' : Int} {kind kind' : String} {payload payload' : Doc φ} {atNs atNs' : Int}
    {prev prev' : String}
    (same : rowHash crypto floats.repr seq kind payload atNs prev =
      rowHash crypto floats.repr seq' kind' payload' atNs' prev') :
    (seq, kind, payload, atNs) = (seq', kind', payload', atNs') ∧ prev = prev' := by
  have documents := Doc.dumps_injective floats
    (Hex.utf8_injective (crypto.hexdigest_injective ideal same))
  simp only [Doc.obj.injEq, List.cons.injEq, Prod.mk.injEq, true_and, Doc.int.injEq, Doc.str.injEq,
    and_true] at documents
  rcases documents with ⟨rfl, rfl, rfl, rfl, rfl⟩
  exact ⟨rfl, rfl⟩

/-- The last hash of an intact log determines its rows, record ids apart. -/
theorem sameCore_of_lastHash (ideal : Function.Injective crypto.blake3) (floats : FloatText φ)
    (fresh : ∀ fields, crypto.hexdigest (utf8 (Doc.dumps floats.repr (.obj fields))) ≠ genesis)
    {log other : ReviewLog φ} (intact : Intact crypto floats.repr log)
    (intact' : Intact crypto floats.repr other) (heads : log.lastHash = other.lastHash) :
    SameCore log.rows other.rows := by
  have cores : log.rows.map core = other.rows.map core := by
    apply HashChain.same_core core genesis log.rows other.rows _ _ intact.1 intact'.1 heads
    · intro row member row' member' hashes
      have sound := intact.2 row member
      have sound' := intact'.2 row' member'
      rw [RowSound] at sound sound'
      exact rowHash_injective ideal floats (sound.trans (hashes.trans sound'.symm))
    · intro row member started
      have sound : RowSound crypto floats.repr row := by
        rcases List.mem_append.mp member with first | second
        · exact intact.2 row first
        · exact intact'.2 row second
      rw [RowSound, started] at sound
      exact fresh _ sound
  have columns : List.Forall₂ Eq (log.rows.map core) (other.rows.map core) :=
    List.forall₂_eq_eq_eq ▸ cores
  exact List.forall₂_map_right_iff.mp (List.forall₂_map_left_iff.mp columns)

end Commitment

/-! The projections see the cores and the record ids. -/

theorem SameCore.rowsOf {rows other : List (ReviewRow φ)} (same : SameCore rows other)
    (kind : String) :
    SameCore (rows.filter (fun row => row.kind = kind)) (other.filter (fun row => row.kind = kind)) := by
  induction same with
  | nil => exact List.Forall₂.nil
  | @cons row row' rest rest' cores _ ih =>
      have kinds : row.kind = row'.kind := congrArg (fun columns => columns.2.1) cores
      by_cases kept : row'.kind = kind
      · rw [List.filter_cons_of_pos (by simp [kinds, kept]), List.filter_cons_of_pos (by simp [kept])]
        exact List.Forall₂.cons cores ih
      · rw [List.filter_cons_of_neg (by simp [kinds, kept]), List.filter_cons_of_neg (by simp [kept])]
        exact ih

theorem loadFields_congr {row row' : ReviewRow φ} (cores : core row = core row') :
    loadFields row = loadFields row' := by
  have payloads : row.payload.normal = row'.payload.normal :=
    congrArg (fun columns => columns.2.2.1) cores
  rw [loadFields, loadFields, payloads]

theorem countResumes_congr {rows other : List (ReviewRow φ)} (same : SameCore rows other) :
    countResumes rows = countResumes other := by
  induction same with
  | nil => rfl
  | cons cores _ ih => rw [countResumes, countResumes, loadFields_congr cores, ih]

/-- An escalation read from a row: the record id, and what the core says. -/
theorem toEscalation_congr {row row' : ReviewRow φ} (cores : core row = core row') :
    toEscalation row =
      (toEscalation row').map (fun escalation => { escalation with recordId := row.recordId }) := by
  have stamps : row.atNs = row'.atNs := congrArg (fun columns => columns.2.2.2) cores
  rw [toEscalation, toEscalation, loadFields_congr cores, stamps]
  cases loadFields row' with
  | error error => rfl
  | ok fields =>
      cases first : field fields "harm_class" with
      | error error => simp [first, bind, Except.bind, Except.map]
      | ok harmClass =>
          cases second : field fields "measured" with
          | error error => simp [first, second, bind, Except.bind, Except.map]
          | ok measured =>
              cases third : field fields "bound" with
              | error error => simp [first, second, third, bind, Except.bind, Except.map]
              | ok bound =>
                  simp [first, second, third, bind, Except.bind, Except.map, pure, Except.pure]

theorem pendingOf_unreviewed {reviewed : List String} {rows : List (ReviewRow φ)}
    (unreviewed : ∀ row ∈ rows, row.recordId ∉ reviewed) :
    pendingOf reviewed rows = pendingOf [] rows := by
  induction rows with
  | nil => rfl
  | cons row rest ih =>
      rw [List.forall_mem_cons] at unreviewed
      rw [pendingOf, pendingOf, if_neg unreviewed.1, if_neg List.not_mem_nil, ih unreviewed.2]

theorem pendingOf_reviewed {reviewed : List String} {rows : List (ReviewRow φ)}
    (all : ∀ row ∈ rows, row.recordId ∈ reviewed) : pendingOf reviewed rows = .ok [] := by
  induction rows with
  | nil => rfl
  | cons row rest ih =>
      rw [List.forall_mem_cons] at all
      rw [pendingOf, if_pos all.1, ih all.2]

/-- Without reviews, reading fails on the same rows with the same error. -/
theorem pendingOf_error {rows other : List (ReviewRow φ)} (same : SameCore rows other)
    {error : ReviewError} (raised : pendingOf [] rows = .error error) :
    pendingOf [] other = .error error := by
  induction same with
  | nil => cases raised
  | @cons row row' rest rest' cores _ ih =>
      rw [pendingOf, if_neg List.not_mem_nil, toEscalation_congr cores] at raised
      rw [pendingOf, if_neg List.not_mem_nil]
      cases first : toEscalation row' with
      | error error' =>
          simp only [first, Except.map, bind, Except.bind] at raised ⊢
          exact raised
      | ok escalation =>
          cases others : pendingOf [] rest with
          | error error' =>
              simp only [first, others, Except.map, bind, Except.bind] at raised
              cases raised
              simp only [bind, Except.bind, ih others]
          | ok list => simp [first, others, Except.map, bind, Except.bind, pure, Except.pure] at raised

/-- Without reviews, every escalation is pending under its own id. -/
theorem pendingOf_ids {rows : List (ReviewRow φ)} {found : List (Escalation φ)}
    (read : pendingOf [] rows = .ok found) :
    found.map Escalation.recordId = rows.map ReviewRow.recordId := by
  induction rows generalizing found with
  | nil =>
      cases read
      rfl
  | cons row rest ih =>
      rw [pendingOf, if_neg List.not_mem_nil] at read
      have named := toEscalation_congr (rfl : core row = core row)
      cases first : toEscalation row with
      | error error => simp [first, bind, Except.bind] at read
      | ok escalation =>
          cases others : pendingOf [] rest with
          | error error => simp [first, others, bind, Except.bind] at read
          | ok list =>
              simp only [first, others, bind, Except.bind, pure, Except.pure, Except.ok.injEq] at read
              subst read
              rw [first] at named
              have own := congrArg Escalation.recordId (Except.ok.inj named)
              rw [List.map_cons, List.map_cons, ih others]
              exact congrArg (· :: _) own

/-! Rewriting the record ids. -/

/-- `UPDATE review_log SET record_id = ...`. -/
def ReviewLog.relabel (log : ReviewLog φ) (label : ReviewRow φ → String) : ReviewLog φ where
  rows := log.rows.map (fun row => { row with recordId := label row })
  ordered := List.pairwise_map.mpr log.ordered

theorem relabel_intact {crypto : Crypto} {repr : φ → List Char} {log : ReviewLog φ}
    (label : ReviewRow φ → String) (intact : Intact crypto repr log) :
    Intact crypto repr (log.relabel label) ∧ (log.relabel label).lastHash = log.lastHash := by
  have linked : ∀ start, ∀ rows : List (ReviewRow φ),
      HashChain.Linked ReviewRow.prevHash ReviewRow.hash start rows →
        HashChain.Linked ReviewRow.prevHash ReviewRow.hash start
          (rows.map (fun row => { row with recordId := label row })) ∧
        HashChain.head ReviewRow.hash start (rows.map (fun row => { row with recordId := label row })) =
          HashChain.head ReviewRow.hash start rows := by
    intro start rows
    induction rows generalizing start with
    | nil => exact fun _ => ⟨trivial, rfl⟩
    | cons row rest ih =>
        intro ⟨named, tail⟩
        rcases ih row.hash tail with ⟨linked, heads⟩
        exact ⟨⟨named, linked⟩, heads⟩
  rcases linked genesis log.rows intact.1 with ⟨chain, heads⟩
  refine ⟨⟨chain, ?_⟩, heads⟩
  intro row member
  rcases List.mem_map.mp member with ⟨old, present, rfl⟩
  exact intact.2 old present

theorem rowsOf_relabel (log : ReviewLog φ) (label : ReviewRow φ → String) (kind : String) :
    rowsOf (log.relabel label) kind =
      (rowsOf log kind).map (fun row => { row with recordId := label row }) := by
  rw [rowsOf, rowsOf, ReviewLog.relabel, List.filter_map]
  rfl

/-- Escalations under one id, reviews under another. -/
def apart (name : String) (row : ReviewRow φ) : String :=
  if row.kind = "ESCALATION" then name else "review"

theorem pending_apart (log : ReviewLog φ) (name : String) (different : name ≠ "review") :
    pending (log.relabel (apart name)) = pendingOf [] (rowsOf (log.relabel (apart name)) "ESCALATION") := by
  apply pendingOf_unreviewed
  intro row member reviewed
  rw [rowsOf_relabel] at member reviewed
  rcases List.mem_map.mp member with ⟨old, present, rfl⟩
  rw [List.map_map] at reviewed
  rcases List.mem_map.mp reviewed with ⟨review, present', same⟩
  have escalation : old.kind = "ESCALATION" := by simpa using (List.mem_filter.mp present).2
  have kind : review.kind = "REVIEW" := by simpa using (List.mem_filter.mp present').2
  simp only [Function.comp, apart, escalation, kind] at same
  exact different (by simpa using same.symm)

theorem rowsOf_absent {log : ReviewLog φ} {kind : String}
    (absent : ∀ row ∈ log.rows, row.kind ≠ kind) : rowsOf log kind = [] := by
  rw [rowsOf, List.filter_eq_nil_iff]
  intro row member
  simpa using absent row member

/-- What is pending after an escalation shows its record id, unless it cannot be read. -/
theorem raised_of_relabelled {log : ReviewLog φ} {row : ReviewRow φ} (member : row ∈ log.rows)
    (kind : row.kind = "ESCALATION")
    (relabelled : ∀ label, pending (log.relabel label) = pending log) :
    ∃ error, pending log = .error error := by
  have listed : row ∈ rowsOf log "ESCALATION" := List.mem_filter.mpr ⟨member, by simp [kind]⟩
  have first := relabelled (apart "first")
  have second := relabelled (apart "second")
  rw [pending_apart log _ (by decide)] at first second
  cases read : pending log with
  | ok found =>
      rw [read] at first second
      have ids := (pendingOf_ids first).symm.trans (pendingOf_ids second)
      rw [rowsOf_relabel, rowsOf_relabel, List.map_map, List.map_map] at ids
      have same := List.map_inj_left.mp ids row listed
      simp [apart, kind] at same
  | error error => exact ⟨error, rfl⟩

/-- A review of the record id that all rows share hides every escalation. -/
theorem pending_shared {log : ReviewLog φ} {review : ReviewRow φ} (member : review ∈ log.rows)
    (kind : review.kind = "REVIEW") (name : String) :
    pending (log.relabel fun _ => name) = .ok [] := by
  apply pendingOf_reviewed
  intro old listed
  rw [rowsOf_relabel] at listed ⊢
  rcases List.mem_map.mp listed with ⟨_, _, rfl⟩
  rw [List.map_map]
  exact List.mem_map.mpr ⟨review, List.mem_filter.mpr ⟨member, by simp [kind]⟩, rfl⟩

/-- The head of an intact log commits to what the projections return exactly when
the log has no escalation, or none it can read and no review. -/
theorem head_commits_iff (crypto : Crypto) (ideal : Function.Injective crypto.blake3)
    (floats : FloatText φ)
    (fresh : ∀ fields, crypto.hexdigest (utf8 (Doc.dumps floats.repr (.obj fields))) ≠ genesis)
    (log : ReviewLog φ) (verified : verifyChain crypto floats.repr log = (true, "intact")) :
    (∀ other : ReviewLog φ, verifyChain crypto floats.repr other = (true, "intact") →
      other.lastHash = log.lastHash →
        pending other = pending log ∧ resumeCount other = resumeCount log) ↔
      (∀ row ∈ log.rows, row.kind ≠ "ESCALATION") ∨
        (∀ row ∈ log.rows, row.kind ≠ "REVIEW") ∧ ∃ error, pending log = .error error := by
  have intact := (verifyChain_intact_iff log).mp verified
  constructor
  · intro commits
    have relabelled : ∀ label, pending (log.relabel label) = pending log := by
      intro label
      rcases relabel_intact label intact with ⟨intact', heads⟩
      exact (commits _ ((verifyChain_intact_iff _).mpr intact') heads).1
    by_cases escalated : ∃ row ∈ log.rows, row.kind = "ESCALATION"
    · rcases escalated with ⟨row, member, kind⟩
      rcases raised_of_relabelled member kind relabelled with ⟨error, raised⟩
      refine Or.inr ⟨?_, error, raised⟩
      intro review member' kind'
      have hidden := relabelled fun _ => "same"
      rw [pending_shared member' kind', raised] at hidden
      cases hidden
    · push Not at escalated
      exact Or.inl escalated
  · intro hidden other verified' heads
    have same := sameCore_of_lastHash ideal floats fresh intact
      ((verifyChain_intact_iff other).mp verified') heads.symm
    refine ⟨?_, (countResumes_congr (same.rowsOf "REVIEW")).symm⟩
    have escalations : SameCore (rowsOf log "ESCALATION") (rowsOf other "ESCALATION") :=
      same.rowsOf "ESCALATION"
    rcases hidden with none_escalated | ⟨none_reviewed, error, raised⟩
    · have empty := rowsOf_absent none_escalated
      rw [empty] at escalations
      rw [pending, pending, empty, List.forall₂_nil_left_iff.mp escalations]
      rfl
    · have reviews : SameCore (rowsOf log "REVIEW") (rowsOf other "REVIEW") := same.rowsOf "REVIEW"
      have empty := rowsOf_absent none_reviewed
      rw [empty] at reviews
      rw [raised]
      rw [pending, empty] at raised
      rw [pending, List.forall₂_nil_left_iff.mp reviews]
      exact pendingOf_error escalations raised

end Review

namespace Sample

open Review

def escalatedRow (seq : Int) (recordId prev : String) : ReviewRow Int :=
  newRow crypto CanonJson.wholeFloats.repr recordId "ESCALATION"
    (.obj [("bound", .float 5), ("harm_class", .str "H1"), ("measured", .float (5 + seq)),
      ("reason", .str "bound reached")]) seq prev (1000 + seq)

def reviewedRow (seq : Int) (recordId prev : String) : ReviewRow Int :=
  newRow crypto CanonJson.wholeFloats.repr recordId "REVIEW"
    (.obj [("decision", .str "RESUME"), ("new_origin", .obj []), ("note", .str "seen"),
      ("reviewer", .str "operator")]) seq prev (1000 + seq)

/-- Two escalations, and a review of the one it is given. -/
def reviewedLog (resolved : String) : ReviewLog Int where
  rows := [escalatedRow 1 "e-0" genesis, escalatedRow 2 "e-1" (escalatedRow 1 "e-0" genesis).hash,
    reviewedRow 3 resolved (escalatedRow 2 "e-1" (escalatedRow 1 "e-0" genesis).hash).hash]
  ordered := by simp [escalatedRow, reviewedRow, newRow]

theorem reviewedLog_verifies (resolved : String) :
    Review.verifyChain crypto CanonJson.wholeFloats.repr (reviewedLog resolved) = (true, "intact") := by
  rw [verifyChain_intact_iff]
  refine ⟨⟨rfl, rfl, rfl, trivial⟩, ?_⟩
  intro row member
  simp only [reviewedLog, List.mem_cons, List.not_mem_nil, or_false] at member
  rcases member with rfl | rfl | rfl
  · rfl
  · rfl
  · rfl

end Sample

open Review in
theorem head_commits_sample :
    ¬∀ other : ReviewLog Int,
      Review.verifyChain Sample.crypto CanonJson.wholeFloats.repr other = (true, "intact") →
        other.lastHash = (Sample.reviewedLog "e-0").lastHash →
          pending other = pending (Sample.reviewedLog "e-0") ∧
            resumeCount other = resumeCount (Sample.reviewedLog "e-0") := by
  intro commits
  rcases (head_commits_iff Sample.crypto Sample.blake3_injective CanonJson.wholeFloats
    (Sample.dumps_ne_genesis _) (Sample.reviewedLog "e-0") (Sample.reviewedLog_verifies "e-0")).mp
      commits with none_escalated | ⟨none_reviewed, _⟩
  · exact none_escalated _ List.mem_cons_self rfl
  · exact none_reviewed _ (List.mem_cons_of_mem _ (List.mem_cons_of_mem _ List.mem_cons_self)) rfl

open Review in
/-- The review moves from one escalation to the other; both tables verify under one head. -/
theorem review_reattached :
    Review.verifyChain Sample.crypto CanonJson.wholeFloats.repr (Sample.reviewedLog "e-0") =
        (true, "intact") ∧
      Review.verifyChain Sample.crypto CanonJson.wholeFloats.repr (Sample.reviewedLog "e-1") =
        (true, "intact") ∧
      (Sample.reviewedLog "e-0").lastHash = (Sample.reviewedLog "e-1").lastHash ∧
      pending (Sample.reviewedLog "e-0") ≠ pending (Sample.reviewedLog "e-1") := by
  refine ⟨Sample.reviewedLog_verifies _, Sample.reviewedLog_verifies _, rfl, ?_⟩
  have second : pending (Sample.reviewedLog "e-0") =
      .ok [⟨"e-1", .str "H1", .float 7, .float 5, .str "bound reached", 1002⟩] := rfl
  have first : pending (Sample.reviewedLog "e-1") =
      .ok [⟨"e-0", .str "H1", .float 6, .float 5, .str "bound reached", 1001⟩] := rfl
  rw [first, second]
  simp

end Gyza
