import Gyza.Closure
import Gyza.Lib.KeyOrder
import Gyza.TrustRegistry

/-! What a compositor signs for its agents (`gyza/identity.py`): the manifests it issues and
the revocations it records. -/

namespace Gyza

open CanonJson (Doc FloatText)
open Hex (Bytes utf8)
open PyValue (Fields Value dictGet)

structure AgentRequest where
  agentType : String
  modelPath : String
  fsReadPaths : List String
  fsWritePaths : List String
  allowedHosts : List String := []
  spawnPermitted : List String := []
  maxChildren : Int := 0
  memoryLimitMb : Int := 512
  parentAgentId : Option String := none
  attestationTier : Int := 1

/-- The derivation of an agent's seed from the master seed, the public key of a seed, and
`_compute_model_hash`. -/
structure AgentKeys where
  deriveSeed : Bytes → Bytes
  publicOf : Bytes → Bytes
  modelHash : String → String

namespace Identity

def textList (texts : List String) : Value := .collection .list (texts.map .str)

/-- `f"{agent_type}|{spawn_counter}|{spawn_time}"`. -/
def seedInfo (agentType : String) (spawnCounter spawnTime : Int) : Bytes :=
  utf8 (agentType ++ "|" ++ toString spawnCounter ++ "|" ++ toString spawnTime)

def capabilities (request : AgentRequest) : Fields :=
  [("filesystem", .dict
      [("read", textList request.fsReadPaths), ("write", textList request.fsWritePaths)]),
    ("network", .dict
      [("allowed_hosts", textList request.allowedHosts), ("allowed_ports", Value.emptyList)]),
    ("spawn", .dict
      [("permitted", textList request.spawnPermitted),
        ("resource_budget", .dict
          [("max_children", .int request.maxChildren), ("cpu_quota_percent", .int 50),
            ("memory_limit_mb", .int request.memoryLimitMb)])])]

section Bodies

variable {crypto : Crypto} (compositor : LocalCompositor crypto)

/-- The manifest before it is signed. -/
def manifestBody (agentId modelHash : String) (request : AgentRequest)
    (spawnCounter spawnTime : Int) : Fields :=
  [("agent_id", .str agentId),
    ("model_hash", .str modelHash),
    ("spawn_time", .int spawnTime),
    ("spawn_counter", .int spawnCounter),
    ("parent_agent_id", request.parentAgentId.elim .none .str),
    ("capabilities", .dict (capabilities request)),
    ("attestation_tier", .int request.attestationTier),
    ("compositor_pubkey", .str compositor.pubkeyHex)]

def revocationBody (agentId reason : String) (timestampNs : Int) : Fields :=
  [("agent_id", .str agentId),
    ("reason", .str reason),
    ("timestamp_ns", .int timestampNs),
    ("compositor_pubkey", .str compositor.pubkeyHex)]

variable (python : Audit.Python)

/-- The body with the signature of its digest; `none` is a `ValueError`. -/
def signBody (body : Fields) : Option Fields :=
  (TrustRegistry.manifestPayloadHash crypto python body).map (fun digest =>
    body ++ [("signature", .str (compositor.sign digest))])

/-- The seed and the manifest of a new agent. -/
def issueAgent (keys : AgentKeys) (request : AgentRequest) (spawnCounter spawnTime : Int) :
    Option (Bytes × Fields) :=
  if request.attestationTier ∉ [0, 1, 2, 3] then none
  else
    let seed := keys.deriveSeed (seedInfo request.agentType spawnCounter spawnTime)
    let body := manifestBody compositor (Hex.encode (keys.publicOf seed))
      (keys.modelHash request.modelPath) request spawnCounter spawnTime
    (signBody compositor python body).map (fun manifest => (seed, manifest))

def revokeAgent (agentId reason : String) (timestampNs : Int) : Option Fields :=
  signBody compositor python (revocationBody compositor agentId reason timestampNs)

/-- The check of both kinds of object; what has no canonical text is not accepted. -/
def verifySigned (record : Fields) : Bool :=
  match dictGet record "signature" .none with
  | .str sigHex =>
      if sigHex = "" then false
      else
        match Hex.fromhex sigHex, TrustRegistry.manifestPayloadHash crypto python record with
        | some sig, some digest => crypto.ed25519Verify compositor.publicBytes digest sig
        | _, _ => false
  | _ => false

def verifyManifest (manifest : Fields) : Bool := verifySigned compositor python manifest

def verifyRevocation (record : Fields) : Bool := verifySigned compositor python record

end Bodies

/-! Calls in sequence. -/

inductive Call where
  /-- `stored` says whether the counter file could be written; if not, the call raises. -/
  | issue (request : AgentRequest) (spawnTime : Int) (stored : Bool)
  /-- `stored` says whether the record could be written. -/
  | revoke (agentId reason : String) (timestampNs : Int) (stored : Bool)

/-- The counter, and what the calls have returned. -/
structure Issuer where
  spawnCounter : Int := 0
  issued : List Fields := []
  revoked : List Fields := []

section Runs

variable {crypto : Crypto} (compositor : LocalCompositor crypto) (python : Audit.Python)
  (keys : AgentKeys)

def step (issuer : Issuer) : Call → Issuer
  | .issue request spawnTime stored =>
      match issueAgent compositor python keys request issuer.spawnCounter spawnTime with
      | none => issuer
      | some (_, manifest) =>
          { issuer with
            spawnCounter := issuer.spawnCounter + 1
            issued := issuer.issued ++ (if stored then [manifest] else []) }
  | .revoke agentId reason timestampNs stored =>
      match revokeAgent compositor python agentId reason timestampNs with
      | none => issuer
      | some record =>
          { issuer with revoked := issuer.revoked ++ (if stored then [record] else []) }

/-! What an accepted object is. -/

/-- The bodies have one canonical text: they agree up to the order of keys. -/
def SameBody (record other : Fields) : Prop :=
  ∃ document document', Audit.toDoc (.dict (record.filter (fun field => field.1 ≠ "signature"))) =
      some document ∧
    Audit.toDoc (.dict (other.filter (fun field => field.1 ≠ "signature"))) = some document' ∧
    document.normal = document'.normal

/-- Both signatures spell the same bytes. -/
def SameSignature (record other : Fields) : Prop :=
  ∃ text text' sig, dictGet record "signature" .none = .str text ∧ Hex.fromhex text = some sig ∧
    dictGet other "signature" .none = .str text' ∧ Hex.fromhex text' = some sig

/-- A signature that verifies on the object is one the compositor made for what it returned. -/
def Unforged (returned : List Fields) (record : Fields) : Prop :=
  ∀ text sig digest, dictGet record "signature" .none = .str text → Hex.fromhex text = some sig →
    TrustRegistry.manifestPayloadHash crypto python record = some digest →
      crypto.ed25519Verify compositor.publicBytes digest sig = true →
        ∃ source ∈ returned,
          TrustRegistry.manifestPayloadHash crypto python source = some digest ∧
            sig = compositor.signBytes digest

/-- The object carries the compositor's signature of its digest. -/
structure Signed (record : Fields) : Prop where
  distinct : (record.map Prod.fst).Nodup
  signed : ∃ digest, TrustRegistry.manifestPayloadHash crypto python record = some digest ∧
    dictGet record "signature" .none = .str (compositor.sign digest)

structure Sound (issuer : Issuer) : Prop where
  issued : ∀ manifest ∈ issuer.issued, Signed compositor python manifest ∧
    (manifest.lookup "capabilities").isSome = true
  revoked : ∀ record ∈ issuer.revoked, Signed compositor python record ∧
    record.lookup "capabilities" = none

end Runs

variable {crypto : Crypto} {compositor : LocalCompositor crypto} {python : Audit.Python}

theorem payloadHash_iff (record : Fields) (digest : Bytes) :
    TrustRegistry.manifestPayloadHash crypto python record = some digest ↔
      ∃ document, Audit.toDoc (.dict (record.filter (fun field => field.1 ≠ "signature"))) =
          some document ∧
        crypto.blake3 (utf8 (Doc.dumps python.floatRepr document.normal)) = digest := by
  rw [TrustRegistry.manifestPayloadHash, Option.map_eq_some_iff]

/-- Equal digests are equal bodies. -/
theorem sameBody_iff {floats : FloatText Float} (texts : python.floatRepr = floats.repr)
    (ideal : Function.Injective crypto.blake3) {record other : Fields} {digest digest' : Bytes}
    (hashed : TrustRegistry.manifestPayloadHash crypto python record = some digest)
    (hashed' : TrustRegistry.manifestPayloadHash crypto python other = some digest') :
    SameBody record other ↔ digest = digest' := by
  obtain ⟨document, converted, rfl⟩ := (payloadHash_iff _ _).mp hashed
  obtain ⟨document', converted', rfl⟩ := (payloadHash_iff _ _).mp hashed'
  constructor
  · rintro ⟨first, second, same, same', normal⟩
    cases converted.symm.trans same
    cases converted'.symm.trans same'
    rw [normal]
  · intro same
    have written := Hex.utf8_injective (ideal same)
    rw [texts] at written
    exact ⟨document, document', converted, converted', Doc.dumps_injective floats written⟩

theorem fieldsToDoc_keys {fields : Fields} {inner : List (String × Doc Float)}
    (converted : Audit.fieldsToDoc fields = some inner) :
    inner.map Prod.fst = fields.map Prod.fst := by
  induction fields generalizing inner with
  | nil =>
      cases converted
      rfl
  | cons field rest ih =>
      obtain ⟨name, value⟩ := field
      simp only [Audit.fieldsToDoc, bind, Option.bind_eq_some_iff, pure, Option.some.injEq]
        at converted
      obtain ⟨first, -, others, later, rfl⟩ := converted
      rw [List.map_cons, List.map_cons, ih later]

/-- A key of a dictionary is a key of its canonical text. -/
theorem isSome_lookup_normal {fields : Fields} {document : Doc Float}
    (distinct : (fields.map Prod.fst).Nodup)
    (converted : Audit.toDoc (.dict fields) = some document) (key : String) :
    ∃ sorted, document.normal = .obj sorted ∧
      (sorted.lookup key).isSome = (fields.lookup key).isSome := by
  obtain ⟨inner, fieldwise, rfl⟩ := Option.map_eq_some_iff.mp converted
  have keys := fieldsToDoc_keys fieldwise
  refine ⟨_, Doc.normal.eq_2 _, ?_⟩
  have normal_keys : (Doc.normalFields inner).map Prod.fst = inner.map Prod.fst := by
    rw [Doc.normalFields_eq_map, List.map_map]
    rfl
  rw [Doc.lookup_sortFields (by rwa [normal_keys, keys]), Doc.isSome_lookup, normal_keys, keys,
    Doc.isSome_lookup]

/-- Objects of one body have the same keys, the signature apart. -/
theorem SameBody.isSome_lookup {record other : Fields} (same : SameBody record other)
    (distinct : (record.map Prod.fst).Nodup) (distinct' : (other.map Prod.fst).Nodup)
    {key : String} (kept : key ≠ "signature") :
    (record.lookup key).isSome = (other.lookup key).isSome := by
  have unsigned : ∀ (fields : Fields),
      (fields.filter (fun field => field.1 ≠ "signature")).lookup key = fields.lookup key := by
    intro fields
    induction fields with
    | nil => rfl
    | cons field rest ih =>
        obtain ⟨name, value⟩ := field
        by_cases signature : name = "signature"
        · subst signature
          have apart : (key == "signature") = false := by simpa using kept
          rw [List.filter_cons_of_neg (by simp), ih, List.lookup_cons, apart]
        · rw [List.filter_cons_of_pos (by simpa using signature), List.lookup_cons,
            List.lookup_cons, ih]
  have sub : ∀ {fields : Fields}, (fields.map Prod.fst).Nodup →
      ((fields.filter (fun field => field.1 ≠ "signature")).map Prod.fst).Nodup :=
    fun distinct => distinct.sublist (List.filter_sublist.map Prod.fst)
  obtain ⟨document, document', converted, converted', normal⟩ := same
  obtain ⟨sorted, read, held⟩ := isSome_lookup_normal (sub distinct) converted key
  obtain ⟨sorted', read', held'⟩ := isSome_lookup_normal (sub distinct') converted' key
  cases (read.symm.trans normal).trans read'
  rw [← unsigned record, ← unsigned other, ← held, ← held']

theorem signBody_signed {body record : Fields} (distinct : (body.map Prod.fst).Nodup)
    (unsigned : "signature" ∉ body.map Prod.fst)
    (signs : signBody compositor python body = some record) :
    Signed compositor python record ∧
      ∀ key ≠ "signature", record.lookup key = body.lookup key := by
  obtain ⟨digest, hashed, rfl⟩ := Option.map_eq_some_iff.mp signs
  have absent : body.lookup "signature" = none := by
    cases found : body.lookup "signature" with
    | none => rfl
    | some value =>
        have member := (Doc.mem_lookup distinct _ _).mp found
        exact absurd (List.mem_map_of_mem member) unsigned
  have whole : body.filter (fun field => field.1 ≠ "signature") = body := by
    rw [List.filter_eq_self]
    intro field member
    have apart : field.1 ≠ "signature" := by
      rintro same
      exact unsigned (same ▸ List.mem_map_of_mem member)
    simpa using apart
  have stripped : (body ++ [("signature", Value.str (compositor.sign digest))]).filter
      (fun field => field.1 ≠ "signature") = body.filter (fun field => field.1 ≠ "signature") := by
    rw [List.filter_append, List.filter_cons_of_neg (by simp), List.filter_nil, List.append_nil]
  refine ⟨⟨?_, digest, ?_, ?_⟩, ?_⟩
  · rw [List.map_append, List.nodup_append]
    refine ⟨distinct, by simp, ?_⟩
    intro name member other signature same
    have key : other = "signature" := List.mem_singleton.mp signature
    rw [same, key] at member
    exact unsigned member
  · rw [TrustRegistry.manifestPayloadHash, stripped]
    exact hashed
  · rw [dictGet, List.lookup_append, absent]
    rfl
  · intro key apart
    have unequal : (key == "signature") = false := by simpa using apart
    rw [List.lookup_append, List.lookup_cons, unequal]
    simp

/-- What the calls return is signed, and says by its keys what it is. -/
theorem Sound.step {issuer : Issuer} (sound : Sound compositor python issuer) (keys : AgentKeys)
    (call : Call) : Sound compositor python (Identity.step compositor python keys issuer call) := by
  cases call with
  | issue request spawnTime stored =>
      rw [Identity.step]
      cases made : issueAgent compositor python keys request issuer.spawnCounter spawnTime with
      | none => exact sound
      | some result =>
          obtain ⟨seed, manifest⟩ := result
          refine ⟨?_, sound.revoked⟩
          intro other member
          obtain old | new := List.mem_append.mp member
          · exact sound.issued other old
          · unfold issueAgent at made
            split_ifs at made
            obtain ⟨signed, signs, same⟩ := Option.map_eq_some_iff.mp made
            cases same
            obtain ⟨valid, lookups⟩ := signBody_signed (by simp [manifestBody])
              (by simp [manifestBody]) signs
            have named : manifest.lookup "capabilities" = some (.dict (capabilities request)) :=
              lookups "capabilities" (by decide)
            cases stored with
            | false => cases new
            | true =>
                cases List.mem_singleton.mp new
                exact ⟨valid, by rw [named]; rfl⟩
  | revoke agentId reason timestampNs stored =>
      rw [Identity.step]
      cases made : revokeAgent compositor python agentId reason timestampNs with
      | none => exact sound
      | some record =>
          refine ⟨sound.issued, ?_⟩
          intro other member
          obtain old | new := List.mem_append.mp member
          · exact sound.revoked other old
          · obtain ⟨valid, lookups⟩ := signBody_signed (by simp [revocationBody])
              (by simp [revocationBody]) made
            have unnamed : record.lookup "capabilities" = none :=
              lookups "capabilities" (by decide)
            cases stored with
            | false => cases new
            | true =>
                cases List.mem_singleton.mp new
                exact ⟨valid, unnamed⟩

theorem sound_run (keys : AgentKeys) (spawnCounter : Int) (calls : List Call) :
    Sound compositor python
      (Run.run (Identity.step compositor python keys) { spawnCounter } calls) :=
  Run.kept_run _ (Sound compositor python) (fun _ call sound => sound.step keys call) _ _
    ⟨by simp, by simp⟩

theorem verifySigned_iff (record : Fields) :
    verifySigned compositor python record = true ↔
      ∃ text sig digest, dictGet record "signature" .none = .str text ∧ text ≠ "" ∧
        Hex.fromhex text = some sig ∧
        TrustRegistry.manifestPayloadHash crypto python record = some digest ∧
        crypto.ed25519Verify compositor.publicBytes digest sig = true := by
  unfold verifySigned
  cases dictGet record "signature" .none with
  | str text =>
      by_cases empty : text = ""
      · simp [empty]
      · cases decoded : Hex.fromhex text <;>
          cases hashed : TrustRegistry.manifestPayloadHash crypto python record <;>
            simp [empty, decoded]
  | _ => simp

/-- Whatever restates a signed object is accepted, and without forgeries nothing else is. -/
theorem verifySigned_restates_iff {floats : FloatText Float}
    (texts : python.floatRepr = floats.repr) (ideal : Function.Injective crypto.blake3)
    {returned : List Fields} (signed : ∀ source ∈ returned, Signed compositor python source)
    {record : Fields} (unforged : Unforged compositor python returned record) :
    verifySigned compositor python record = true ↔
      ∃ source ∈ returned, SameBody record source ∧ SameSignature record source := by
  rw [verifySigned_iff]
  constructor
  · rintro ⟨text, sig, digest, named, _, decoded, hashed, verifies⟩
    obtain ⟨source, member, hashed', rfl⟩ := unforged text sig digest named decoded hashed verifies
    obtain ⟨digest', hashed'', named'⟩ := (signed source member).signed
    cases hashed'.symm.trans hashed''
    exact ⟨source, member, (sameBody_iff texts ideal hashed hashed').mpr rfl,
      text, _, _, named, decoded, named', Hex.fromhex_encode _⟩
  · rintro ⟨source, member, same, text, text', sig, named, decoded, named', decoded'⟩
    obtain ⟨digest, hashed, signature⟩ := (signed source member).signed
    cases signature.symm.trans named'
    cases (Hex.fromhex_encode _).symm.trans decoded'
    obtain ⟨document, document', converted, converted', normal⟩ := same
    obtain ⟨document'', again, rfl⟩ := (payloadHash_iff _ _).mp hashed
    cases converted'.symm.trans again
    have hashed_record := (@payloadHash_iff crypto python record _).mpr
      ⟨document, converted, rfl⟩
    refine ⟨text, _, _, named, ?_, decoded, hashed_record, ?_⟩
    · rintro rfl
      have length := compositor.signBytes_length (crypto.blake3
        (utf8 (Doc.dumps python.floatRepr document'.normal)))
      have empty : some [] = some (compositor.signBytes _) := decoded
      rw [← Option.some.inj empty] at length
      cases length
    · rw [normal]
      exact compositor.signBytes_verifies _

end Identity

namespace Sample

def agentKeys : AgentKeys where
  deriveSeed := id
  publicOf _ := List.replicate 32 9
  modelHash := id

def agentRequest : AgentRequest where
  agentType := "summariser"
  modelPath := "mock"
  fsReadPaths := ["/data"]
  fsWritePaths := []

/-- The first manifest of the sample compositor. -/
def issuedManifest : Option Fields :=
  (Identity.issueAgent (compositor 1) jsonPython agentKeys agentRequest 0 1000).map Prod.snd

theorem issuedManifest_signed : ∃ manifest, issuedManifest = some manifest ∧
    Identity.Signed (compositor 1) jsonPython manifest := by
  have body : Audit.toDoc (.dict ((Identity.manifestBody (compositor 1)
      (Hex.encode (List.replicate 32 9)) "mock" agentRequest 0 1000).filter
        (fun field => field.1 ≠ "signature"))) = some _ := rfl
  have signs : Identity.signBody (compositor 1) jsonPython (Identity.manifestBody (compositor 1)
      (Hex.encode (List.replicate 32 9)) "mock" agentRequest 0 1000) = some _ :=
    Option.map_eq_some_iff.mpr ⟨_, (Identity.payloadHash_iff _ _).mpr ⟨_, body, rfl⟩, rfl⟩
  have valid := Identity.signBody_signed (by simp [Identity.manifestBody])
    (by simp [Identity.manifestBody]) signs
  refine ⟨_, ?_, valid.1⟩
  have made : issuedManifest = (Identity.signBody (compositor 1) jsonPython
      (Identity.manifestBody (compositor 1) (Hex.encode (List.replicate 32 9)) "mock" agentRequest 0
        1000)).map id := by
    rw [issuedManifest, Identity.issueAgent, if_neg (by decide), Option.map_map]
    rfl
  rw [made, signs]
  rfl

/-- The issuer after one call. -/
def issuedOnce : Identity.Issuer :=
  Run.run (Identity.step (compositor 1) jsonPython agentKeys) {} [.issue agentRequest 1000 true]

theorem issuedOnce_eq {manifest : Fields} (made : issuedManifest = some manifest) :
    issuedOnce.issued = [manifest] ∧ issuedOnce.revoked = [] := by
  obtain ⟨⟨seed, other⟩, issued, rfl⟩ := Option.map_eq_some_iff.mp made
  have after : issuedOnce = { spawnCounter := 1, issued := [other] } := by
    rw [issuedOnce, Run.run_cons, Run.run_nil, Identity.step, issued]
    rfl
  rw [after]
  exact ⟨rfl, rfl⟩

/-- The sample signatures are the only ones that verify. -/
theorem sample_unforged {returned : List Fields} {record : Fields} (member : record ∈ returned) :
    Identity.Unforged (compositor 1) jsonPython returned record := by
  intro text sig digest _ _ hashed verifies
  exact ⟨record, member, hashed, of_decide_eq_true verifies⟩

end Sample

namespace Identity

end Identity

end Gyza
