import Gyza.RawAudit
import Gyza.Lib.Checks

/-! When `verify_dag` answers on envelopes of any field types. -/

namespace Gyza

open Hex (Bytes)
open PyValue (Fields Value)
open Audit (AuditError)
open Checks (Answers)

/-- What a dictionary or a set takes as a key. -/
def isHashable : Value → Bool
  | .collection _ _ => false
  | .dict _ => false
  | _ => true

theorem hashKey_answers_iff (value : Value) : Answers (hashKey value) ↔ isHashable value = true := by
  cases value <;> simp [hashKey, isHashable]

namespace RawDag

variable (crypto : Crypto) (python : Audit.Python)

/-- The payload has a canonical text: every float in it is finite. -/
def HasPayload (env : RawEnvelope) : Prop :=
  (Audit.toDoc (.dict env.payloadFields)).isSome = true

/-- The key of an envelope, where its field is a text that spells 32 bytes. -/
def HasKey (env : RawEnvelope) (pubkey : Bytes) : Prop :=
  ∃ text, env.agentPubkey = .str text ∧ Hex.fromhex text = some pubkey ∧ pubkey.length = 32

/-- The parent is none, or a text. -/
def NamesParent (env : RawEnvelope) : Prop :=
  env.parentEnvelopeHash = .none ∨ ∃ parent, env.parentEnvelopeHash = .str parent

/-- No check of the loop finds a defect. -/
def Passes (held : Dict String RawEnvelope) (env : RawEnvelope) : Prop :=
  (∃ pubkey, HasKey env pubkey ∧ verifyEnvelope crypto python env pubkey = .ok true) ∧
    env.inputHashes.truthy = true ∧
    (env.parentEnvelopeHash = .none ∨
      ∃ parent, env.parentEnvelopeHash = .str parent ∧ parent ∈ held.keys)

/-- The checks of the loop read only what has the type they need. -/
def ChecksReadable (env : RawEnvelope) : Prop :=
  ∀ pubkey, HasKey env pubkey →
    (env.signature.truthy = true → ∃ text, env.signature = .str text) ∧
    (verifyEnvelope crypto python env pubkey = .ok true → env.inputHashes.truthy = true →
      NamesParent env)

variable {crypto python}

theorem payloadBytes_answers_iff (env : RawEnvelope) :
    Answers (payloadBytes python env) ↔ HasPayload env := by
  unfold payloadBytes HasPayload
  cases Audit.toDoc (.dict env.payloadFields) <;> simp

theorem computeEnvelopeHash_answers_iff (env : RawEnvelope) :
    Answers (computeEnvelopeHash crypto python env) ↔ HasPayload env := by
  rw [computeEnvelopeHash, Checks.answers_map, payloadBytes_answers_iff]

theorem fromhexField_answers_iff (value : Value) :
    Answers (fromhexField value) ↔ ∃ text, value = .str text := by
  cases value <;> simp [fromhexField]

theorem verifyEnvelope_answers_iff {env : RawEnvelope} (payload : HasPayload env) (pubkey : Bytes) :
    Answers (verifyEnvelope crypto python env pubkey) ↔
      (env.signature.truthy = true → ∃ text, env.signature = .str text) := by
  obtain ⟨bytes, encoded⟩ := (@payloadBytes_answers_iff python env).mpr payload
  unfold verifyEnvelope
  by_cases empty : env.signature.truthy = false
  · simp [empty]
  · rw [if_neg empty, ← fromhexField_answers_iff]
    rw [Bool.not_eq_false] at empty
    cases fromhexField env.signature with
    | error fault => simp [bind, Except.bind, empty]
    | ok sig => cases sig <;> simp [bind, Except.bind, encoded, pure, Except.pure]

theorem parentDefect_answers_iff (held : Dict String RawEnvelope) (h : String)
    (env : RawEnvelope) :
    Answers (parentDefect true held h env.parentEnvelopeHash) ↔ NamesParent env := by
  unfold NamesParent parentDefect
  cases env.parentEnvelopeHash with
  | str parent =>
      dsimp only
      split_ifs <;> simp
  | _ => simp

theorem parentDefect_none_iff (held : Dict String RawEnvelope) (h : String) (parent : Value) :
    parentDefect true held h parent = .ok none ↔
      parent = .none ∨ ∃ text, parent = .str text ∧ text ∈ held.keys := by
  unfold parentDefect
  cases parent with
  | str text =>
      dsimp only
      split_ifs with absent
      · simp at absent
        simp [absent]
      · simp at absent
        simp [absent]
  | _ => simp

/-- One turn of the loop, for an envelope whose key is a text. -/
theorem envelopeDefect_answers_iff (held : Dict String RawEnvelope) (h : String) {env : RawEnvelope}
    (payload : HasPayload env) (text : ∃ text, env.agentPubkey = .str text) :
    Answers (envelopeDefect crypto python true held (h, env)) ↔ ChecksReadable crypto python env := by
  obtain ⟨text, named⟩ := text
  unfold ChecksReadable HasKey
  rw [envelopeDefect, named, fromhexField]
  dsimp only [bind, Except.bind]
  cases decoded : Hex.fromhex text with
  | none => simp [decoded]
  | some pubkey =>
      dsimp only
      by_cases length : pubkey.length = 32
      · have only : ∀ (holds : Bytes → Prop), (∀ other, (∃ text', Value.str text = .str text' ∧
            Hex.fromhex text' = some other ∧ other.length = 32) → holds other) ↔ holds pubkey := by
          intro holds
          constructor
          · intro all
            exact all pubkey ⟨text, rfl, decoded, length⟩
          · rintro one other ⟨text', same, decoded', -⟩
            cases same
            cases decoded.symm.trans decoded'
            exact one
        rw [if_neg (not_not.mpr length), only, ← verifyEnvelope_answers_iff payload pubkey]
        cases verified : verifyEnvelope crypto python env pubkey with
        | error fault => simp
        | ok holds =>
            dsimp only
            cases holds with
            | false => simp
            | true =>
                rw [if_neg (by simp)]
                by_cases inputs : env.inputHashes.truthy = false
                · simp [inputs]
                · rw [if_neg inputs, parentDefect_answers_iff]
                  simp [Bool.not_eq_false _ ▸ inputs]
      · rw [if_pos length]
        simp only [Checks.answers_pure, true_iff]
        rintro other ⟨text', same, decoded', exact⟩
        cases same
        cases decoded.symm.trans decoded'
        exact absurd exact length

theorem envelopeDefect_none_iff (held : Dict String RawEnvelope) (h : String) (env : RawEnvelope) :
    envelopeDefect crypto python true held (h, env) = .ok none ↔
      Passes crypto python held env := by
  unfold Passes HasKey
  rw [envelopeDefect]
  cases named : env.agentPubkey with
  | str text =>
      rw [fromhexField]
      dsimp only [bind, Except.bind]
      cases decoded : Hex.fromhex text with
      | none => simp [decoded, pure, Except.pure]
      | some pubkey =>
          dsimp only
          by_cases length : pubkey.length = 32
          · rw [if_neg (not_not.mpr length)]
            cases verified : verifyEnvelope crypto python env pubkey with
            | error fault => simp [decoded, verified]
            | ok holds =>
                dsimp only
                cases holds with
                | false => simp [decoded, verified, pure, Except.pure]
                | true =>
                    rw [if_neg (by simp)]
                    by_cases inputs : env.inputHashes.truthy = false
                    · simp [inputs, pure, Except.pure]
                    · rw [if_neg inputs, parentDefect_none_iff]
                      rw [Bool.not_eq_false] at inputs
                      simp [decoded, length, verified, inputs]
          · rw [if_pos length]
            simp [decoded, length, pure, Except.pure]
  | _ => simp [fromhexField, bind, Except.bind]

/-- The loop gets past the rows before a row exactly when none of them has a defect. -/
theorem firstDefect_answers_iff (held : Dict String RawEnvelope)
    (rows : List (String × RawEnvelope)) :
    Answers (firstDefect crypto python true held rows) ↔
      ∀ before row after, rows = before ++ row :: after →
        (∀ earlier ∈ before, Passes crypto python held earlier.2) →
          Answers (envelopeDefect crypto python true held row) := by
  induction rows with
  | nil => simp [firstDefect]
  | cons first rest ih =>
      rw [firstDefect, Checks.answers_bind]
      constructor
      · rintro ⟨defect, checked, later⟩ before row after split passed
        cases before with
        | nil =>
            cases split
            exact ⟨defect, checked⟩
        | cons earlier before =>
            cases split
            rw [List.forall_mem_cons] at passed
            have clean := (envelopeDefect_none_iff held first.1 first.2).mpr passed.1
            cases checked.symm.trans clean
            exact ih.mp later before row after rfl passed.2
      · intro answers
        obtain ⟨defect, checked⟩ := answers [] first rest rfl (by simp)
        refine ⟨defect, checked, ?_⟩
        cases defect with
        | some reason => exact ⟨some reason, rfl⟩
        | none =>
            apply ih.mpr
            intro before row after split passed
            refine answers (first :: before) row after (by rw [split]; rfl) ?_
            rw [List.forall_mem_cons]
            exact ⟨(envelopeDefect_none_iff held first.1 first.2).mp checked, passed⟩

theorem firstDefect_none_iff (held : Dict String RawEnvelope) (rows : List (String × RawEnvelope)) :
    firstDefect crypto python true held rows = .ok none ↔
      ∀ row ∈ rows, Passes crypto python held row.2 := by
  induction rows with
  | nil => simp [firstDefect]
  | cons first rest ih =>
      rw [firstDefect, List.forall_mem_cons, ← ih,
        ← envelopeDefect_none_iff held first.1 first.2]
      cases envelopeDefect crypto python true held (first.1, first.2) with
      | error fault => simp [bind, Except.bind]
      | ok defect => cases defect <;> simp [bind, Except.bind, pure, Except.pure]

/-- What is held for a hash is one of the envelopes. -/
theorem byHash_rows_mem {envelopes : List RawEnvelope} {held : Dict String RawEnvelope}
    (hashed : byHash crypto python envelopes = .ok held) :
    ∀ row ∈ held.rows, row.2 ∈ envelopes := by
  have from_ : ∀ (rest : List RawEnvelope) (start final : Dict String RawEnvelope),
      rest.foldlM (fun dict env => do
        pure (dict.set (← computeEnvelopeHash crypto python env) env)) start =
          (.ok final : Except AuditError _) →
      ∀ row ∈ final.rows, row ∈ start.rows ∨ row.2 ∈ rest := by
    intro rest
    induction rest with
    | nil =>
        intro start final folded row member
        cases folded
        exact Or.inl member
    | cons env rest ih =>
        intro start final folded row member
        rw [List.foldlM_cons, Checks.bind_ok_iff] at folded
        obtain ⟨next, stepped, folded⟩ := folded
        obtain ⟨hash, _, set⟩ := (Checks.bind_ok_iff _ _ _).mp stepped
        cases set
        obtain kept | later := ih _ _ folded row member
        · have found := (Dict.lookup_eq_some _ row.1 row.2).mpr kept
          rw [Dict.lookup_set] at found
          split_ifs at found
          · cases found
            exact Or.inr List.mem_cons_self
          · exact Or.inl ((Dict.lookup_eq_some _ row.1 row.2).mp found)
        · exact Or.inr (List.mem_cons_of_mem _ later)
  intro row member
  obtain none | present := from_ envelopes Dict.empty held hashed row member
  · cases none
  · exact present

/-- The provenance of an envelope that passes can be read off its inputs. -/
def InputsReadable (env : RawEnvelope) : Prop :=
  ∃ items, env.inputHashes.iterate = some items ∧ ∀ item ∈ items, isHashable item = true

theorem parentsOf_answers_iff (held : Dict String RawEnvelope) (producers : Dict HashKey String)
    (h : String) {env : RawEnvelope} (named : NamesParent env) :
    Answers (parentsOf held producers (h, env)) ↔ InputsReadable env := by
  have spine : Answers (spineParent held env.parentEnvelopeHash) := by
    unfold spineParent
    obtain none | ⟨parent, text⟩ := named
    · rw [none]
      exact ⟨_, rfl⟩
    · rw [text]
      exact ⟨_, rfl⟩
  obtain ⟨parents, spine⟩ := spine
  rw [parentsOf, spine]
  dsimp only [bind, Except.bind]
  unfold InputsReadable
  cases iterated : env.inputHashes.iterate with
  | none => simp [iterate, iterated]
  | some items =>
      have keys := Checks.answers_mapM hashKey items
      simp only [hashKey_answers_iff] at keys
      simp only [iterate, iterated, Option.elim, Option.some.injEq, exists_eq_left']
      rw [← keys]
      cases items.mapM hashKey <;> simp

theorem provenanceParents_answers_iff (held : Dict String RawEnvelope)
    (producers : Dict HashKey String) (named : ∀ row ∈ held.rows, NamesParent row.2) :
    Answers (provenanceParents held producers) ↔ ∀ row ∈ held.rows, InputsReadable row.2 := by
  rw [provenanceParents, Checks.answers_mapM]
  apply forall₂_congr
  intro row member
  rw [← parentsOf_answers_iff held producers row.1 (named row member)]
  cases parentsOf held producers (row.1, row.2) <;> simp [bind, Except.bind]

theorem Passes.namesParent {held : Dict String RawEnvelope} {env : RawEnvelope}
    (passes : Passes crypto python held env) : NamesParent env := by
  obtain none | ⟨parent, text, -⟩ := passes.2.2
  · exact Or.inl none
  · exact Or.inr ⟨parent, text⟩

theorem byOutput_answers {envelopes : List RawEnvelope} {held : Dict String RawEnvelope}
    (hashed : byHash crypto python envelopes = .ok held)
    (outputs : ∀ env ∈ envelopes, isHashable env.outputHash = true) : Answers (byOutput held) := by
  refine (Checks.answers_foldlM (fun row : String × RawEnvelope => hashKey row.2.outputHash)
    (fun dict key row => Dict.setdefault dict key row.1) _ Dict.empty).mpr ?_
  intro row member
  obtain ⟨h, -, kept⟩ := List.mem_filterMap.mp member
  obtain ⟨env, found, rfl⟩ := Option.map_eq_some_iff.mp kept
  rw [hashKey_answers_iff]
  exact outputs env (byHash_rows_mem hashed (h, env) ((Dict.lookup_eq_some _ _ _).mp found))

variable (crypto python) in
/-- What the graph needs of envelopes with canonical payloads and hashable fields: no
malformed field before the first defect, and readable inputs where there is none. -/
def GraphReadable (envelopes : List RawEnvelope) : Prop :=
  ∀ held, byHash crypto python envelopes = .ok held →
    (∀ before row after, held.rows = before ++ row :: after →
      (∀ earlier ∈ before, Passes crypto python held earlier.2) →
        ChecksReadable crypto python row.2) ∧
    ((∀ row ∈ held.rows, Passes crypto python held row.2) →
      ∀ row ∈ held.rows, InputsReadable row.2)

theorem verifyDag_answers_iff {envelopes : List RawEnvelope}
    (payloads : ∀ env ∈ envelopes, HasPayload env)
    (keys : ∀ env ∈ envelopes, ∃ text, env.agentPubkey = .str text)
    (outputs : ∀ env ∈ envelopes, isHashable env.outputHash = true) :
    Answers (verifyDag crypto python true envelopes) ↔ GraphReadable crypto python envelopes := by
  have hashed : Answers (byHash crypto python envelopes) := by
    refine (Checks.answers_foldlM (computeEnvelopeHash crypto python)
      (fun dict hash env => Dict.set dict hash env) envelopes Dict.empty).mpr ?_
    intro env member
    exact (computeEnvelopeHash_answers_iff env).mpr (payloads env member)
  obtain ⟨held, hashed⟩ := hashed
  have among := byHash_rows_mem hashed
  have rows : ∀ before row after, held.rows = before ++ row :: after →
      (Answers (envelopeDefect crypto python true held row) ↔ ChecksReadable crypto python row.2) := by
    intro before row after split
    have member : row.2 ∈ envelopes := among row (by rw [split]; simp)
    exact envelopeDefect_answers_iff held row.1 (payloads _ member) (keys _ member)
  have loop := @firstDefect_answers_iff crypto python held held.rows
  have clean := @firstDefect_none_iff crypto python held held.rows
  have graph : GraphReadable crypto python envelopes ↔
      Answers (firstDefect crypto python true held held.rows) ∧
        (firstDefect crypto python true held held.rows = .ok none →
          ∀ row ∈ held.rows, InputsReadable row.2) := by
    rw [loop, clean]
    constructor
    · intro readable
      obtain ⟨checks, inputs⟩ := readable held hashed
      refine ⟨?_, inputs⟩
      intro before row after split passed
      exact (rows before row after split).mpr (checks before row after split passed)
    · rintro ⟨checks, inputs⟩ other hashed'
      cases hashed.symm.trans hashed'
      refine ⟨?_, inputs⟩
      intro before row after split passed
      exact (rows before row after split).mp (checks before row after split passed)
  rw [graph, verifyDag, hashed]
  dsimp only [bind, Except.bind]
  cases defect : firstDefect crypto python true held held.rows with
  | error fault => simp
  | ok found =>
      cases found with
      | some reason => simp
      | none =>
          have passed := clean.mp defect
          obtain ⟨producers, produced⟩ := byOutput_answers hashed outputs
          have parents := provenanceParents_answers_iff held producers
            (fun row member => (passed row member).namesParent)
          dsimp only
          rw [produced]
          dsimp only
          cases provided : provenanceParents held producers with
          | error fault =>
              rw [provided] at parents
              simpa using parents
          | ok rows =>
              rw [provided] at parents
              simpa using parents

/-- A key that is no text, in the one envelope of a graph. -/
theorem verifyDag_key_error {env : RawEnvelope} (payload : HasPayload env)
    (key : fromhexField env.agentPubkey = .error .typeError) :
    verifyDag crypto python true [env] = .error .typeError := by
  obtain ⟨hash, hashed⟩ := (@computeEnvelopeHash_answers_iff crypto python env).mpr payload
  have held : byHash crypto python [env] = .ok (Dict.empty.set hash env) := by
    rw [byHash, List.foldlM_cons, hashed]
    rfl
  have rows : (Dict.empty.set hash env).rows = [(hash, env)] :=
    Dict.rows_set_absent Dict.empty hash env List.not_mem_nil
  rw [verifyDag, held]
  dsimp only [bind, Except.bind]
  rw [rows, firstDefect, envelopeDefect, key]
  rfl

end RawDag

end Gyza
