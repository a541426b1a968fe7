import Gyza.Evidence

/-! What a valid closure pins down. -/

namespace Gyza

open CanonJson (Doc FloatText)
open Hex (Bytes utf8)
open PyValue (Fields Value dictGet)
open Audit (AuditError)

namespace Evidence

/-! The root of a set of hashes. -/

/-- Lines of equal number without line breaks can be read back. -/
theorem intercalate_lines {left right : List String} (clean : ∀ line ∈ left, '\n' ∉ line.toList)
    (clean' : ∀ line ∈ right, '\n' ∉ line.toList) (length : left.length = right.length)
    (same : "\n".intercalate left = "\n".intercalate right) : left = right := by
  have lines := String.toList_split_intercalate clean
  have lines' := String.toList_split_intercalate clean'
  have joined : String.intercalate (String.singleton '\n') left =
      String.intercalate (String.singleton '\n') right := same
  rw [joined, lines'] at lines
  by_cases empty : left = []
  · have none := List.length_eq_zero_iff.mp (length.symm.trans (List.length_eq_zero_iff.mpr empty))
    rw [empty, none]
  · have some : right ≠ [] := by
      intro none
      exact empty (List.length_eq_zero_iff.mp (length.trans (List.length_eq_zero_iff.mpr none)))
    rw [if_neg empty, if_neg some] at lines
    exact lines.symm

theorem rootOf_injective {crypto : Crypto} (ideal : Function.Injective crypto.blake3)
    {hashes other : List String} (clean : ∀ hash ∈ hashes, '\n' ∉ hash.toList)
    (clean' : ∀ hash ∈ other, '\n' ∉ hash.toList)
    (count : (ordered hashes).length = (ordered other).length)
    (same : rootOf crypto hashes = rootOf crypto other) : hashes.toFinset = other.toFinset := by
  have lines : ordered hashes = ordered other := by
    apply intercalate_lines _ _ count
    · exact Hex.utf8_injective (crypto.hexdigest_injective ideal same)
    · intro line member
      exact clean line (List.mem_toFinset.mp ((Finset.mem_sort _).mp member))
    · intro line member
      exact clean' line (List.mem_toFinset.mp ((Finset.mem_sort _).mp member))
  calc
    hashes.toFinset = (ordered hashes).toFinset := (Finset.sort_toFinset _ _).symm
    _ = (ordered other).toFinset := by rw [lines]
    _ = other.toFinset := Finset.sort_toFinset _ _

section Statements

variable (crypto : Crypto) (python : Audit.Python)

/-- The signature that a bundle carries is one of a single message. -/
def SignatureBinds (bundle : Fields) : Prop :=
  ∀ closure pubkey sig, dictGet bundle "closure" .none = .dict closure →
    assertedBy closure = some pubkey → signatureOf closure = some sig →
    ∀ message other, crypto.ed25519Verify pubkey message sig = true →
      crypto.ed25519Verify pubkey other sig = true → message = other

/-- A bundle's completeness claim that is asserted and valid, opened up. -/
structure ValidClosure (bundle closure : Fields) (hashes : List String)
    (pubkey sig signed : Bytes) : Prop where
  recorded : dictGet bundle "closure" .none = .dict closure
  hashed : hashesOf crypto python bundle = .ok hashes
  root : dictGet closure "root" .none = .str (rootOf crypto hashes)
  count : isNumber (dictGet closure "count" .none) (ordered hashes).length = true
  key : assertedBy closure = some pubkey
  signature : signatureOf closure = some sig
  signs : canonicalBytes python (signedFields closure) = some signed
  verifies : crypto.ed25519Verify pubkey signed sig = true

/-- The key has signed exactly the payload of the bundle's own intent and envelopes. -/
def SignsOwnPayload (bundle : Fields) : Prop :=
  ∃ closure hashes pubkey sig payload, dictGet bundle "closure" .none = .dict closure ∧
    hashesOf crypto python bundle = .ok hashes ∧ assertedBy closure = some pubkey ∧
    signatureOf closure = some sig ∧
    canonicalBytes python (closurePayload crypto (intentOf bundle) hashes) = some payload ∧
    crypto.ed25519Verify pubkey payload sig = true

/-- Two values with the same canonical text. -/
def SameJson (value other : Value) : Prop :=
  ∃ document, (Audit.toDoc value).map Doc.normal = some document ∧
    (Audit.toDoc other).map Doc.normal = some document

/-- The closure states the bundle's own intent, and its count as an integer. -/
def StatesOwnIntent (bundle : Fields) : Prop :=
  ∃ closure, dictGet bundle "closure" .none = .dict closure ∧
    (∃ intent, closure.lookup "intent_id" = some intent ∧ SameJson intent (intentOf bundle)) ∧
    ∃ count, dictGet closure "count" .none = .int count

/-- The two bundles carry the same signer and the same signature. -/
def SameSignature (bundle other : Fields) : Prop :=
  ∃ closure closure', dictGet bundle "closure" .none = .dict closure ∧
    dictGet other "closure" .none = .dict closure' ∧
    dictGet closure "asserted_by" .none = dictGet closure' "asserted_by" .none ∧
    dictGet closure "signature" (.str "") = dictGet closure' "signature" (.str "")

/-- The same set of envelope hashes. -/
def SameHashes (bundle other : Fields) : Prop :=
  ∃ hashes hashes', hashesOf crypto python bundle = .ok hashes ∧
    hashesOf crypto python other = .ok hashes' ∧ hashes.toFinset = hashes'.toFinset

end Statements

variable {crypto : Crypto} {python : Audit.Python}

theorem hashOf_clean {item : Value} {hash : String} (hashed : hashOf crypto python item = .ok hash) :
    '\n' ∉ hash.toList := by
  have hex : ∀ bytes, '\n' ∉ (Hex.encode bytes).toList := by
    intro bytes member
    have unspaced := Hex.encode_unspaced bytes
    rw [List.any_eq_false] at unspaced
    exact unspaced _ member rfl
  unfold hashOf at hashed
  split at hashed
  · split at hashed
    · cases hashed
      simp
    · obtain ⟨bytes, _, rfl⟩ := (Checks.map_ok_iff _ _ _).mp hashed
      exact hex _
  · cases hashed
    simp

theorem hashesOf_clean {bundle : Fields} {hashes : List String}
    (hashed : hashesOf crypto python bundle = .ok hashes) : ∀ hash ∈ hashes, '\n' ∉ hash.toList := by
  obtain ⟨items, -, each⟩ := (Checks.bind_ok_iff _ _ _).mp hashed
  have along := (Checks.mapM_ok_iff _ _ _).mp each
  clear each hashed
  induction along with
  | nil => simp
  | cons first _ ih =>
      intro hash member
      rcases List.mem_cons.mp member with rfl | later
      · exact hashOf_clean first
      · exact ih hash later

theorem isText_iff (value : Value) (text : String) :
    RawAudit.isText value text = true ↔ value = .str text := by
  unfold RawAudit.isText
  split
  next other => simp
  next other => simpa using other text

theorem verifyClosure_valid {bundle : Fields} {status : ClosureStatus}
    (verified : verifyClosure crypto python bundle = .ok status) (asserted : status.asserted = true)
    (valid : status.valid = true) :
    ∃ closure hashes pubkey sig signed,
      ValidClosure crypto python bundle closure hashes pubkey sig signed := by
  unfold verifyClosure at verified
  split at verified
  next closure recorded =>
    obtain ⟨hashes, hashed, rest⟩ := (Checks.bind_ok_iff _ _ _).mp verified
    dsimp only at rest
    split_ifs at rest with changed
    · cases (Checks.pure_ok_iff _ _).mp rest
      cases valid
    · push Not at changed
      split at rest
      next =>
        cases (Checks.pure_ok_iff _ _).mp rest
        cases valid
      next sound =>
        unfold checkSignature at sound
        split at sound
        next pubkey sig signed key signature signs =>
          split_ifs at sound with length verifies
          exact ⟨closure, hashes, pubkey, sig, signed, recorded, hashed,
            (isText_iff _ _).mp (by simpa using changed.1), by simpa using changed.2, key,
            signature, signs, verifies⟩
        next => cases sound
  next =>
    cases verified
    cases asserted

/-! The signed payload as a document. -/

/-- A payload with or without the intent. -/
def payloadDoc (intent : Option (Doc Float)) (count : Doc Float) (root : String) : Doc Float :=
  .obj (intent.toList.map (fun document => ("intent_id", document)) ++
    [("count", count), ("root", .str root)])

theorem payloadDoc_normal (intent : Option (Doc Float)) (count : Doc Float) (root : String) :
    (payloadDoc intent count root).normal =
      .obj (("count", count.normal) ::
        (intent.toList.map (fun document => ("intent_id", document.normal)) ++
          [("root", .str root)])) := by
  cases intent <;>
    simp [payloadDoc, Doc.normal, Doc.normalFields, Doc.sortFields, Doc.lastOfEach,
      List.insertionSort, List.orderedInsert]

theorem payloadDoc_injective {intent intent' : Option (Doc Float)} {count count' : Doc Float}
    {root root' : String}
    (same : (payloadDoc intent count root).normal = (payloadDoc intent' count' root').normal) :
    intent.map Doc.normal = intent'.map Doc.normal ∧ count.normal = count'.normal ∧ root = root' := by
  rw [payloadDoc_normal, payloadDoc_normal] at same
  cases intent <;> cases intent' <;> simp_all

theorem lookup_of_dictGet {fields : Fields} {key : String} {value : Value}
    (got : dictGet fields key .none = value) (present : value ≠ .none) :
    fields.lookup key = some value := by
  cases found : fields.lookup key with
  | none =>
      rw [dictGet, found] at got
      exact absurd got.symm present
  | some other =>
      rw [dictGet, found] at got
      exact congrArg some got

theorem isNumber_present {value : Value} {number : Int} (counted : isNumber value number = true) :
    value ≠ .none := by
  rintro rfl
  cases counted

theorem toDoc_dict_iff (fields : Fields) (document : Doc Float) :
    Audit.toDoc (.dict fields) = some document ↔
      ∃ inner, Audit.fieldsToDoc fields = some inner ∧ Doc.obj inner = document := by
  rw [Audit.toDoc, Option.map_eq_some_iff]

theorem fieldsToDoc_cons_iff (name : String) (value : Value) (rest : Fields)
    (inner : List (String × Doc Float)) :
    Audit.fieldsToDoc ((name, value) :: rest) = some inner ↔
      ∃ first others, Audit.toDoc value = some first ∧ Audit.fieldsToDoc rest = some others ∧
        (name, first) :: others = inner := by
  simp [Audit.fieldsToDoc, Option.bind_eq_some_iff]

/-- The fields of a payload, with or without the intent. -/
def payloadFields (intent : Option Value) (count : Value) (root : String) : Fields :=
  intent.toList.map (fun value => ("intent_id", value)) ++ [("count", count), ("root", .str root)]

theorem payloadFields_doc (intent : Option Value) (count : Value) (root : String) (bytes : Bytes) :
    canonicalBytes python (payloadFields intent count root) = some bytes ↔
      ∃ intent' count', intent.map Audit.toDoc = intent'.map some ∧ Audit.toDoc count = some count' ∧
        utf8 (Doc.dumps python.floatRepr (payloadDoc intent' count' root).normal) = bytes := by
  have numbers : ∀ inner, Audit.fieldsToDoc [("count", count), ("root", .str root)] = some inner ↔
      ∃ count', Audit.toDoc count = some count' ∧ [("count", count'), ("root", .str root)] = inner := by
    intro inner
    simp [Audit.fieldsToDoc, Audit.toDoc, Option.bind_eq_some_iff]
  rw [canonicalBytes, Option.map_eq_some_iff]
  cases intent with
  | none =>
      constructor
      · rintro ⟨_, converted, rfl⟩
        obtain ⟨inner, fields, rfl⟩ := (toDoc_dict_iff _ _).mp converted
        obtain ⟨count', counts, rfl⟩ := (numbers _).mp fields
        exact ⟨none, count', rfl, counts, rfl⟩
      · rintro ⟨intent', count', intends, counts, rfl⟩
        cases intent' with
        | some _ => cases intends
        | none =>
            exact ⟨_, (toDoc_dict_iff _ _).mpr ⟨_, (numbers _).mpr ⟨count', counts, rfl⟩, rfl⟩, rfl⟩
  | some intent =>
      constructor
      · rintro ⟨_, converted, rfl⟩
        obtain ⟨inner, fields, rfl⟩ := (toDoc_dict_iff _ _).mp converted
        obtain ⟨document, _, intends, tail, rfl⟩ := (fieldsToDoc_cons_iff _ _ _ _).mp fields
        obtain ⟨count', counts, rfl⟩ := (numbers _).mp tail
        exact ⟨some document, count', congrArg some intends, counts, rfl⟩
      · rintro ⟨intent', count', intends, counts, rfl⟩
        cases intent' with
        | none => cases intends
        | some document =>
            exact ⟨_, (toDoc_dict_iff _ _).mpr ⟨_, (fieldsToDoc_cons_iff _ _ _ _).mpr
              ⟨document, _, Option.some.inj intends, (numbers _).mpr ⟨count', counts, rfl⟩, rfl⟩,
              rfl⟩, rfl⟩

/-- The document that was signed: an intent only where the closure has one. -/
theorem signedFields_doc {closure : Fields} {root : String} {number : Int} {signed : Bytes}
    (rooted : dictGet closure "root" .none = .str root)
    (counted : isNumber (dictGet closure "count" .none) number = true)
    (signs : canonicalBytes python (signedFields closure) = some signed) :
    ∃ intent count, (closure.lookup "intent_id").map Audit.toDoc = intent.map some ∧
      Audit.toDoc (dictGet closure "count" .none) = some count ∧
      utf8 (Doc.dumps python.floatRepr (payloadDoc intent count root).normal) = signed := by
  have root_held := lookup_of_dictGet rooted (by simp)
  have count_held := lookup_of_dictGet rfl (isNumber_present counted)
  have fields : signedFields closure =
      payloadFields (closure.lookup "intent_id") (dictGet closure "count" .none) root := by
    cases intent_held : closure.lookup "intent_id" <;>
      simp [signedFields, payloadFields, count_held, root_held, intent_held]
  rw [fields] at signs
  exact (payloadFields_doc _ _ _ _).mp signs

/-- The document of the bundle's own payload. -/
theorem closurePayload_doc (intent : Value) (hashes : List String) (payload : Bytes) :
    canonicalBytes python (closurePayload crypto intent hashes) = some payload ↔
      ∃ document, Audit.toDoc intent = some document ∧
        utf8 (Doc.dumps python.floatRepr (payloadDoc (some document) (.int (ordered hashes).length)
          (rootOf crypto hashes)).normal) = payload := by
  have fields : closurePayload crypto intent hashes =
      payloadFields (some intent) (.int (ordered hashes).length) (rootOf crypto hashes) := rfl
  rw [fields, payloadFields_doc]
  constructor
  · rintro ⟨intent', count', intends, counts, same⟩
    cases intent' with
    | none => cases intends
    | some document =>
        cases (Audit.toDoc.eq_3 _).symm.trans counts
        exact ⟨document, Option.some.inj intends, same⟩
  · rintro ⟨document, intends, same⟩
    exact ⟨some document, _, congrArg some intends, Audit.toDoc.eq_3 _, same⟩

theorem signed_same (floats : FloatText Float) (texts : python.floatRepr = floats.repr)
    {intent intent' : Option (Doc Float)} {count count' : Doc Float} {root root' : String}
    (same : utf8 (Doc.dumps python.floatRepr (payloadDoc intent count root).normal) =
      utf8 (Doc.dumps python.floatRepr (payloadDoc intent' count' root').normal)) :
    intent.map Doc.normal = intent'.map Doc.normal ∧ count.normal = count'.normal ∧ root = root' := by
  rw [texts] at same
  exact payloadDoc_injective (Doc.dumps_injective floats (Hex.utf8_injective same))

/-! Counts. -/

theorem toDoc_int {value : Value} {document : Doc Float} {number : Int}
    (converted : Audit.toDoc value = some document) (same : document.normal = .int number) :
    value = .int number := by
  unfold Audit.toDoc at converted
  split at converted
  next => cases converted; cases same
  next => cases converted; cases same
  next => cases converted; cases same; rfl
  next =>
    split_ifs at converted
    cases converted
    cases same
  next => cases converted; cases same
  next =>
    obtain ⟨_, _, rfl⟩ := Option.map_eq_some_iff.mp converted
    cases same
  next =>
    obtain ⟨_, _, rfl⟩ := Option.map_eq_some_iff.mp converted
    cases same
  next => cases converted
  next =>
    obtain ⟨_, _, rfl⟩ := Option.map_eq_some_iff.mp converted
    cases same

/-- A number is written in one way per type, so its text determines it. -/
theorem number_same {value value' : Value} {number number' : Int} {document document' : Doc Float}
    (counted : isNumber value number = true) (counted' : isNumber value' number' = true)
    (converted : Audit.toDoc value = some document) (converted' : Audit.toDoc value' = some document')
    (same : document.normal = document'.normal) : number = number' := by
  have atomic : ∀ {v : Value} {n : Int} {d : Doc Float}, isNumber v n = true →
      Audit.toDoc v = some d → (∃ b, v = .bool b ∧ d.normal = .bool b) ∨
        (∃ i, v = .int i ∧ d.normal = .int i) ∨ ∃ f, v = .float f ∧ d.normal = .float f := by
    intro v n d counts converts
    cases v with
    | bool b =>
        cases converts
        exact Or.inl ⟨b, rfl, rfl⟩
    | int i =>
        cases converts
        exact Or.inr (Or.inl ⟨i, rfl, rfl⟩)
    | float f =>
        rw [Audit.toDoc] at converts
        split_ifs at converts
        cases converts
        exact Or.inr (Or.inr ⟨f, rfl, rfl⟩)
    | none => cases counts
    | str text => cases counts
    | collection kind items => cases counts
    | dict fields => cases counts
  have values : value = value' := by
    obtain ⟨_, rfl, written⟩ | ⟨_, rfl, written⟩ | ⟨_, rfl, written⟩ := atomic counted converted <;>
      obtain ⟨_, rfl, written'⟩ | ⟨_, rfl, written'⟩ | ⟨_, rfl, written'⟩ :=
        atomic counted' converted' <;>
      rw [written, written'] at same <;>
      cases same <;>
      rfl
  subst values
  unfold isNumber at counted counted'
  split at counted
  next found key =>
    rw [key] at counted'
    have first : found = number := of_decide_eq_true counted
    have second : found = number' := of_decide_eq_true counted'
    exact_mod_cast first.symm.trans second
  next => cases counted

/-! What a valid closure pins. -/

section Pinned

variable {floats : FloatText Float} {bundle closure : Fields} {hashes : List String}
  {pubkey sig signed : Bytes}

theorem ValidClosure.binds (holds : ValidClosure crypto python bundle closure hashes pubkey sig signed)
    (binds : SignatureBinds crypto bundle) {message : Bytes}
    (verifies : crypto.ed25519Verify pubkey message sig = true) : signed = message :=
  binds closure pubkey sig holds.recorded holds.key holds.signature _ _ holds.verifies verifies

theorem ValidClosure.signs_own_iff (texts : python.floatRepr = floats.repr)
    (binds : SignatureBinds crypto bundle)
    (holds : ValidClosure crypto python bundle closure hashes pubkey sig signed) :
    SignsOwnPayload crypto python bundle ↔ StatesOwnIntent bundle := by
  obtain ⟨intent, count, intends, counts, rfl⟩ :=
    signedFields_doc holds.root holds.count holds.signs
  constructor
  · rintro ⟨closure', hashes', pubkey', sig', payload, recorded, hashed, key, signature, own, verifies⟩
    cases holds.recorded.symm.trans recorded
    cases holds.hashed.symm.trans hashed
    cases holds.key.symm.trans key
    cases holds.signature.symm.trans signature
    obtain ⟨document, converted, rfl⟩ := (closurePayload_doc _ _ _).mp own
    obtain ⟨intents, numbers, -⟩ :=
      signed_same floats texts (holds.binds binds verifies)
    refine ⟨closure, recorded, ?_, _, toDoc_int counts numbers⟩
    cases intent with
    | none => cases intents
    | some stated =>
        obtain ⟨value, held, states⟩ := Option.map_eq_some_iff.mp intends
        refine ⟨value, held, document.normal, ?_, ?_⟩
        · rw [states]
          exact intents
        · rw [converted]
          rfl
  · rintro ⟨closure', recorded, ⟨value, held, document, states, own⟩, number, integer⟩
    cases holds.recorded.symm.trans recorded
    obtain ⟨stated, converted, written⟩ := Option.map_eq_some_iff.mp states
    obtain ⟨owned, owns, rfl⟩ := Option.map_eq_some_iff.mp own
    rw [held, Option.map_some, converted] at intends
    rw [integer] at counts
    cases intent with
    | none => cases intends
    | some intent =>
        cases Option.some.inj intends
        cases counts
        have counted := holds.count
        rw [integer, isNumber, hashKey] at counted
        have length : number = (ordered hashes).length := by
          exact_mod_cast of_decide_eq_true counted
        refine ⟨closure, hashes, pubkey, sig, _, recorded, holds.hashed, holds.key, holds.signature,
          (closurePayload_doc _ _ _).mpr ⟨owned, owns, rfl⟩, ?_⟩
        have same : (payloadDoc (some owned) (.int (ordered hashes).length)
            (rootOf crypto hashes)).normal =
              (payloadDoc (some stated) (.int number) (rootOf crypto hashes)).normal := by
          rw [payloadDoc_normal, payloadDoc_normal, length, Option.toList_some, List.map_singleton,
            Option.toList_some, List.map_singleton, written]
        rw [same]
        exact holds.verifies

variable {other closure' : Fields} {hashes' : List String} {signed' : Bytes}

theorem ValidClosure.pins_hashes (texts : python.floatRepr = floats.repr)
    (ideal : Function.Injective crypto.blake3) (binds : SignatureBinds crypto bundle)
    (holds : ValidClosure crypto python bundle closure hashes pubkey sig signed)
    (holds' : ValidClosure crypto python other closure' hashes' pubkey sig signed') :
    hashes.toFinset = hashes'.toFinset := by
  obtain ⟨intent, count, -, counts, rfl⟩ := signedFields_doc holds.root holds.count holds.signs
  obtain ⟨intent', count', -, counts', rfl⟩ :=
    signedFields_doc holds'.root holds'.count holds'.signs
  obtain ⟨-, numbers, roots⟩ :=
    signed_same floats texts (holds.binds binds holds'.verifies)
  have count := number_same holds.count holds'.count counts counts' numbers
  exact rootOf_injective ideal (hashesOf_clean holds.hashed) (hashesOf_clean holds'.hashed)
    (by exact_mod_cast count) roots

theorem ValidClosure.same_intent (texts : python.floatRepr = floats.repr)
    (binds : SignatureBinds crypto bundle)
    (holds : ValidClosure crypto python bundle closure hashes pubkey sig signed)
    (holds' : ValidClosure crypto python other closure' hashes' pubkey sig signed')
    (own : StatesOwnIntent bundle) (own' : StatesOwnIntent other) :
    SameJson (intentOf bundle) (intentOf other) := by
  obtain ⟨intent, count, intends, -, rfl⟩ := signedFields_doc holds.root holds.count holds.signs
  obtain ⟨intent', count', intends', -, rfl⟩ :=
    signedFields_doc holds'.root holds'.count holds'.signs
  obtain ⟨intents, -, -⟩ := signed_same floats texts (holds.binds binds holds'.verifies)
  obtain ⟨_, recorded, ⟨value, held, document, states, owns⟩, -⟩ := own
  obtain ⟨_, recorded', ⟨value', held', document', states', owns'⟩, -⟩ := own'
  cases holds.recorded.symm.trans recorded
  cases holds'.recorded.symm.trans recorded'
  have stated : some document = intent.map Doc.normal := by
    rw [← states]
    rw [held] at intends
    cases intent with
    | none => cases intends
    | some intent => rw [Option.some.inj intends]
  have stated' : some document' = intent'.map Doc.normal := by
    rw [← states']
    rw [held'] at intends'
    cases intent' with
    | none => cases intends'
    | some intent => rw [Option.some.inj intends']
  have documents : document = document' := Option.some.inj (stated.trans (intents.trans stated'.symm))
  exact ⟨document, owns, documents ▸ owns'⟩

end Pinned

/-! Attaching a closure, and changing the rest of a bundle afterwards. -/

theorem lookup_setField (fields : Fields) (key : String) (value : Value) (other : String) :
    (setField fields key value).lookup other =
      if other = key then some value else fields.lookup other := by
  unfold setField
  split_ifs with held same same
  · subst same
    induction fields with
    | nil => simp at held
    | cons field rest ih =>
        obtain ⟨name, old⟩ := field
        by_cases named : name = other
        · simp [named]
        · have later : rest.any (fun field => field.1 = other) = true := by
            simpa [named] using held
          have unequal : (other == name) = false := by simpa using Ne.symm named
          simpa [named, List.lookup, unequal] using ih later
  · clear held
    induction fields with
    | nil => rfl
    | cons field rest ih =>
        obtain ⟨name, old⟩ := field
        by_cases named : name = key
        · have unequal : (other == name) = false := by simpa [named] using same
          have unequal' : (other == key) = false := by simpa using same
          simpa [named, List.lookup, unequal, unequal'] using ih
        · simp only [List.map_cons, named, if_false, List.lookup_cons]
          rw [ih]
  · subst same
    have absent : fields.lookup other = none := by
      rw [List.lookup_eq_none_iff]
      intro field member
      have unequal : field.1 ≠ other := by
        intro named
        exact held (List.any_eq_true.mpr ⟨field, member, decide_eq_true named⟩)
      simpa using Ne.symm unequal
    rw [List.lookup_append, absent]
    simp
  · rw [List.lookup_append]
    have unequal : (other == key) = false := by simpa using same
    simp [List.lookup, unequal]

theorem dictGet_setField (fields : Fields) (key : String) (value : Value) (other : String)
    (default : Value) :
    dictGet (setField fields key value) other default =
      if other = key then value else dictGet fields other default := by
  rw [dictGet, lookup_setField]
  split_ifs
  · rfl
  · rfl

theorem hashesOf_setField (bundle : Fields) (key : String) (value : Value)
    (kept : key ≠ "envelopes") :
    hashesOf crypto python (setField bundle key value) = hashesOf crypto python bundle := by
  rw [hashesOf, envelopeItems, dictGet_setField, if_neg (Ne.symm kept)]
  rfl

/-- The verdict on a closure reads the envelopes of the bundle and nothing else of it. -/
theorem verifyClosure_setField (bundle : Fields) (key : String) (value : Value)
    (kept : key ≠ "envelopes") (kept' : key ≠ "closure") :
    verifyClosure crypto python (setField bundle key value) = verifyClosure crypto python bundle := by
  rw [verifyClosure, verifyClosure, dictGet_setField, if_neg (Ne.symm kept'),
    hashesOf_setField bundle key value kept]

theorem attachClosure_iff (bundle : Fields) (signer : String) (sign : Bytes → String)
    (closed : Fields) :
    attachClosure crypto python bundle signer sign = .ok closed ↔
      ∃ hashes bytes, hashesOf crypto python bundle = .ok hashes ∧
        canonicalBytes python (closurePayload crypto (intentOf bundle) hashes) = some bytes ∧
        setField bundle "closure" (.dict (closurePayload crypto (intentOf bundle) hashes ++
          [("asserted_by", .str signer), ("signature", .str (sign bytes))])) = closed := by
  unfold attachClosure
  simp only [Checks.bind_ok_iff]
  constructor
  · rintro ⟨hashes, hashed, rest⟩
    cases signs : canonicalBytes python (closurePayload crypto (intentOf bundle) hashes) with
    | none =>
        rw [signs] at rest
        cases rest
    | some bytes =>
        rw [signs] at rest
        exact ⟨hashes, bytes, hashed, signs, (Checks.pure_ok_iff _ _).mp rest⟩
  · rintro ⟨hashes, bytes, hashed, signs, same⟩
    refine ⟨hashes, hashed, ?_⟩
    rw [signs]
    exact (Checks.pure_ok_iff _ _).mpr same

/-- The record that `attach_closure` writes. -/
def closureRecord (crypto : Crypto) (intentId : Value) (hashes : List String)
    (signer signature : String) : Fields :=
  closurePayload crypto intentId hashes ++
    [("asserted_by", .str signer), ("signature", .str signature)]

section Record

variable {bundle closure : Fields} {intentId : Value} {hashes : List String}
  {signer signature : String}

/-- The closure answers every lookup of the check as the record does. -/
def Records (crypto : Crypto) (closure : Fields) (intentId : Value) (hashes : List String)
    (signer signature : String) : Prop :=
  ∀ key ∈ ["intent_id", "count", "root", "asserted_by", "signature"],
    closure.lookup key = (closureRecord crypto intentId hashes signer signature).lookup key

/-- Over the hashes that the record was made for, only the signature is left to fail. -/
theorem verifyClosure_record (recorded : dictGet bundle "closure" .none = .dict closure)
    (hashed : hashesOf crypto python bundle = .ok hashes)
    (records : Records crypto closure intentId hashes signer signature) :
    verifyClosure crypto python bundle = .ok
      (match checkSignature crypto python closure with
        | some fault => ⟨true, false, some fault, 0⟩
        | none => ⟨true, true, none, (ordered hashes).length⟩) := by
  have root : dictGet closure "root" .none = .str (rootOf crypto hashes) := by
    rw [dictGet, records "root" (by simp)]
    rfl
  have count : dictGet closure "count" .none = .int (ordered hashes).length := by
    rw [dictGet, records "count" (by simp)]
    rfl
  have agrees : isNumber (.int ((ordered hashes).length : Int)) (ordered hashes).length = true := by
    simp [isNumber, hashKey]
  rw [verifyClosure, recorded, hashed]
  dsimp only [bind, Except.bind]
  rw [root, count, agrees, if_neg (by simp [RawAudit.isText])]
  cases checkSignature crypto python closure with
  | none => rfl
  | some fault => rfl

theorem checkSignature_record
    (records : Records crypto closure intentId hashes signer signature) {bytes pubkey sig : Bytes}
    (payload : canonicalBytes python (closurePayload crypto intentId hashes) = some bytes)
    (key : Hex.fromhex signer = some pubkey) (length : pubkey.length = 32)
    (hex : Hex.fromhex signature = some sig) :
    checkSignature crypto python closure =
      if crypto.ed25519Verify pubkey bytes sig then none else some .doesNotVerify := by
  have asserted : assertedBy closure = some pubkey := by
    rw [assertedBy, dictGet, records "asserted_by" (by simp)]
    exact key
  have signed : signatureOf closure = some sig := by
    rw [signatureOf, dictGet, records "signature" (by simp)]
    exact hex
  have own : signedFields closure = closurePayload crypto intentId hashes := by
    simp [signedFields, records "intent_id" (by simp), records "count" (by simp),
      records "root" (by simp), closureRecord, closurePayload, List.lookup]
  rw [checkSignature, asserted, signed, own, payload]
  dsimp only
  rw [if_neg (not_not.mpr length)]

end Record

/-- A closure that a key pair attaches holds. -/
theorem attachClosure_verifies {bundle closed : Fields} {signer : String} {sign : Bytes → String}
    {pubkey : Bytes} (key : Hex.fromhex signer = some pubkey) (length : pubkey.length = 32)
    (signs : ∀ message, ∃ sig, Hex.fromhex (sign message) = some sig ∧
      crypto.ed25519Verify pubkey message sig = true)
    (attached : attachClosure crypto python bundle signer sign = .ok closed) :
    ∃ count, verifyClosure crypto python closed = .ok ⟨true, true, none, count⟩ := by
  obtain ⟨hashes, bytes, hashed, payload, rfl⟩ := (attachClosure_iff _ _ _ _).mp attached
  obtain ⟨sig, hex, verifies⟩ := signs bytes
  have records : Records crypto (closureRecord crypto (intentOf bundle) hashes signer (sign bytes))
      (intentOf bundle) hashes signer (sign bytes) := fun _ _ => rfl
  have recorded := dictGet_setField bundle "closure"
    (.dict (closureRecord crypto (intentOf bundle) hashes signer (sign bytes))) "closure" .none
  have kept := @hashesOf_setField crypto python bundle "closure"
    (.dict (closureRecord crypto (intentOf bundle) hashes signer (sign bytes))) (by decide)
  have verdict := verifyClosure_record recorded (kept.trans hashed) records
  rw [checkSignature_record records payload key length hex, if_pos verifies] at verdict
  exact ⟨_, verdict⟩

theorem hashesOf_createBundle (resolvers : Resolvers) (runner : Fields) (intentId : String)
    (envelopes : List ICPEnvelope) :
    hashesOf crypto python (createBundle resolvers runner intentId envelopes) =
      .ok (envelopes.map (computeEnvelopeHash crypto)) := by
  have items : envelopeItems (createBundle resolvers runner intentId envelopes) =
      .ok (envelopes.map (fun env => .dict (RawEnvelope.ofEnvelope env).asdict)) := rfl
  rw [hashesOf, items, Checks.bind_ok_iff]
  refine ⟨_, rfl, (Checks.mapM_ok_iff _ _ _).mpr ?_⟩
  rw [List.forall₂_map_left_iff, List.forall₂_map_right_iff, List.forall₂_same]
  intro env _
  rw [hashOf, ofFields_asdict]
  exact computeEnvelopeHash_ofEnvelope crypto python env

/-- A valid closure fixes the set of envelopes. It fixes the intent, and the payload is the
bundle's own, exactly when the closure states the intent that the bundle states. -/
theorem closure_pins_iff {floats : FloatText Float} (texts : python.floatRepr = floats.repr)
    (ideal : Function.Injective crypto.blake3) {bundle other : Fields}
    (binds : SignatureBinds crypto bundle) (binds' : SignatureBinds crypto other)
    {status status' : ClosureStatus}
    (verified : verifyClosure crypto python bundle = .ok status)
    (asserted : status.asserted = true) (valid : status.valid = true)
    (verified' : verifyClosure crypto python other = .ok status')
    (asserted' : status'.asserted = true) (valid' : status'.valid = true) :
    (SameSignature bundle other → SameHashes crypto python bundle other) ∧
      ((SignsOwnPayload crypto python bundle ∧ SignsOwnPayload crypto python other ∧
          (SameSignature bundle other → SameJson (intentOf bundle) (intentOf other) ∧
            SameHashes crypto python bundle other)) ↔
        StatesOwnIntent bundle ∧ StatesOwnIntent other) := by
  obtain ⟨closure, hashes, pubkey, sig, signed, holds⟩ := verifyClosure_valid verified asserted valid
  obtain ⟨closure', hashes', pubkey', sig', signed', holds'⟩ :=
    verifyClosure_valid verified' asserted' valid'
  have signer : SameSignature bundle other → pubkey' = pubkey ∧ sig' = sig := by
    rintro ⟨_, _, recorded, recorded', keys, signatures⟩
    cases holds.recorded.symm.trans recorded
    cases holds'.recorded.symm.trans recorded'
    have key := holds'.key
    have signature := holds'.signature
    rw [assertedBy, ← keys] at key
    rw [signatureOf, ← signatures] at signature
    exact ⟨Option.some.inj (key.symm.trans holds.key),
      Option.some.inj (signature.symm.trans holds.signature)⟩
  have pinned : SameSignature bundle other → SameHashes crypto python bundle other := by
    intro same
    obtain ⟨rfl, rfl⟩ := signer same
    exact ⟨hashes, hashes', holds.hashed, holds'.hashed, holds.pins_hashes texts ideal binds holds'⟩
  refine ⟨pinned, ?_⟩
  rw [holds.signs_own_iff texts binds, holds'.signs_own_iff texts binds']
  constructor
  · rintro ⟨own, own', -⟩
    exact ⟨own, own'⟩
  · rintro ⟨own, own'⟩
    refine ⟨own, own', fun same => ⟨?_, pinned same⟩⟩
    obtain ⟨rfl, rfl⟩ := signer same
    exact holds.same_intent texts binds holds' own own'

end Evidence

/-! A bundle of one envelope, closed under one intent and relabelled to another. -/

namespace Sample

def bitFloats : FloatText Float :=
  CanonJson.wholeFloats.comap (fun value => (value.toBits.toNat : Int)) (by
    intro left right same
    have bits := UInt64.toNat_inj.mp (Int.ofNat.inj same)
    obtain ⟨⟨left, valid⟩⟩ := left
    obtain ⟨⟨right, valid'⟩⟩ := right
    cases (show left = right from bits)
    rfl)

def jsonPython : Audit.Python where
  loads _ := .malformed
  str _ := ""
  floatRepr := bitFloats.repr
  truncate _ := 0
  intOfText _ := none

/-- A signature is the key followed by the message. -/
def plainCrypto : Crypto where
  blake3 := id
  ed25519Verify pubkey message sig := decide (sig = pubkey ++ message)

def closerKey : Bytes := List.replicate 32 7

def plainSign (message : Bytes) : String := Hex.encode (closerKey ++ message)

def exportedEnvelope : ICPEnvelope where
  intentId := "intent-1"
  actionId := "action-1"
  agentPubkey := Hex.encode closerKey
  capabilityManifestHash := "manifest"
  inputHashes := ["input"]
  outputHash := "output"
  parentEnvelopeHash := none
  timestampNs := 1000
  inferenceBackend := "mock"
  modelIdentifier := "mock"
  durationMs := 5
  tokensIn := 3
  tokensOut := 4

def exported : Fields :=
  Evidence.createBundle ⟨fun _ => none, fun _ => none⟩ [] "intent-1" [exportedEnvelope]

def relabel (bundle : Fields) : Fields := Evidence.setField bundle "intent_id" (.str "intent-2")

theorem plainCrypto_binds (bundle : Fields) : Evidence.SignatureBinds plainCrypto bundle := by
  intro closure pubkey sig _ _ _ message other verifies verifies'
  have first : sig = pubkey ++ message := of_decide_eq_true verifies
  have second : sig = pubkey ++ other := of_decide_eq_true verifies'
  exact List.append_cancel_left (first.symm.trans second)

open Evidence in
/-- The closure states the first intent, whatever becomes of the bundle's own. -/
theorem exported_closes : ∃ closed closure count,
    attachClosure plainCrypto jsonPython exported (Hex.encode closerKey) plainSign = .ok closed ∧
      verifyClosure plainCrypto jsonPython closed = .ok ⟨true, true, none, count⟩ ∧
      dictGet closed "closure" .none = .dict closure ∧
      closure.lookup "intent_id" = some (.str "intent-1") ∧
      intentOf closed = .str "intent-1" := by
  have hashed := @hashesOf_createBundle plainCrypto jsonPython ⟨fun _ => none, fun _ => none⟩ []
    "intent-1" [exportedEnvelope]
  have written := (@closurePayload_doc plainCrypto jsonPython (.str "intent-1")
    ([exportedEnvelope].map (computeEnvelopeHash plainCrypto)) _).mpr ⟨.str "intent-1", rfl, rfl⟩
  have attached := (attachClosure_iff exported (Hex.encode closerKey) plainSign _).mpr
    ⟨_, _, hashed, written, rfl⟩
  obtain ⟨count, verified⟩ := attachClosure_verifies (Hex.fromhex_encode closerKey) (by decide)
    (fun message => ⟨closerKey ++ message, Hex.fromhex_encode _, decide_eq_true rfl⟩) attached
  exact ⟨_, _, count, attached, verified, by rw [dictGet_setField, if_pos rfl], rfl, rfl⟩

end Sample

open Evidence Sample in
theorem closure_pins_sample : ∃ closed,
    attachClosure plainCrypto jsonPython exported (Hex.encode closerKey) plainSign = .ok closed ∧
      (SameSignature closed (relabel closed) →
        SameHashes plainCrypto jsonPython closed (relabel closed)) ∧
      ((SignsOwnPayload plainCrypto jsonPython closed ∧
          SignsOwnPayload plainCrypto jsonPython (relabel closed) ∧
          (SameSignature closed (relabel closed) →
            SameJson (intentOf closed) (intentOf (relabel closed)) ∧
              SameHashes plainCrypto jsonPython closed (relabel closed))) ↔
        StatesOwnIntent closed ∧ StatesOwnIntent (relabel closed)) := by
  obtain ⟨closed, _, _, attached, verified, -⟩ := exported_closes
  have relabelled := verified
  rw [← verifyClosure_setField closed "intent_id" (.str "intent-2") (by decide) (by decide)]
    at relabelled
  exact ⟨closed, attached, @closure_pins_iff plainCrypto jsonPython bitFloats rfl
    Function.injective_id closed (relabel closed) (plainCrypto_binds _) (plainCrypto_binds _) _ _
    verified rfl rfl relabelled rfl rfl⟩

open Evidence Sample in
/-- The closed bundle passes under another intent: the payload is rebuilt from the closure's
own `intent_id`, which nothing compares with the bundle's. -/
theorem closure_relabels : ∃ closed closure status,
    attachClosure plainCrypto jsonPython exported (Hex.encode closerKey) plainSign = .ok closed ∧
      dictGet closed "closure" .none = .dict closure ∧
      dictGet (relabel closed) "closure" .none = .dict closure ∧
      verifyClosure plainCrypto jsonPython closed = .ok status ∧
      verifyClosure plainCrypto jsonPython (relabel closed) = .ok status ∧
      status.asserted = true ∧ status.valid = true ∧
      intentOf closed = .str "intent-1" ∧ intentOf (relabel closed) = .str "intent-2" ∧
      ¬SameJson (intentOf closed) (intentOf (relabel closed)) ∧
      ¬SignsOwnPayload plainCrypto jsonPython (relabel closed) := by
  obtain ⟨closed, closure, count, attached, verified, recorded, held, intent⟩ := exported_closes
  have kept : dictGet (relabel closed) "closure" .none = .dict closure := by
    rw [relabel, dictGet_setField, if_neg (by decide), recorded]
  have relabelled : verifyClosure plainCrypto jsonPython (relabel closed) =
      .ok ⟨true, true, none, count⟩ := by
    rw [relabel, verifyClosure_setField _ _ _ (by decide) (by decide), verified]
  have renamed : intentOf (relabel closed) = .str "intent-2" := by
    rw [relabel, intentOf, dictGet_setField, if_pos rfl]
  have other : ¬SameJson (.str "intent-1") (.str "intent-2") := by
    rintro ⟨document, first, second⟩
    have texts := first.trans second.symm
    simp [Audit.toDoc, Doc.normal] at texts
  refine ⟨closed, closure, _, attached, recorded, kept, verified, relabelled, rfl, rfl, intent,
    renamed, ?_, ?_⟩
  · rw [intent, renamed]
    exact other
  · obtain ⟨closure', hashes, pubkey, sig, signed, holds⟩ := verifyClosure_valid relabelled rfl rfl
    rw [@ValidClosure.signs_own_iff plainCrypto jsonPython bitFloats _ _ _ _ _ _ rfl
      (plainCrypto_binds _) holds]
    rintro ⟨closure'', recorded'', ⟨value, held'', same⟩, -⟩
    cases kept.symm.trans recorded''
    cases held.symm.trans held''
    rw [renamed] at same
    exact other same

end Gyza
