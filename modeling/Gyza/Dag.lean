import Gyza.Envelope
import Gyza.Lib.Dict
import Gyza.Lib.Kahn

/-! DAG-native provenance (`verify_dag`). -/

namespace Gyza

open Hex (Bytes)

structure DagVerification where
  valid : Bool
  reason : String
  topoOrder : List ICPEnvelope
  roots : List String
  leaves : List String
  deriving DecidableEq

/-- `text[:12]`. -/
def shortHash (text : String) : String := String.ofList (text.toList.take 12)

def sortedHashes (hashes : List String) : List String := hashes.insertionSort (· ≤ ·)

section Verification

variable (crypto : Crypto)

/-- Later envelopes of one hash replace earlier ones. -/
def byHash (envelopes : List ICPEnvelope) : Dict String ICPEnvelope :=
  envelopes.foldl (fun dict env => dict.set (computeEnvelopeHash crypto env) env) Dict.empty

/-- The per-envelope checks, with the reason the first failing one gives. -/
def envelopeDefect (requireClosed : Bool) (held : Dict String ICPEnvelope) :
    String × ICPEnvelope → Option String
  | (h, env) =>
      match pubkeyBytesOf env with
      | none => some (shortHash h ++ ": pubkey not 32-byte hex")
      | some pubkey =>
          if pubkey.length ≠ 32 then some (shortHash h ++ ": pubkey not 32-byte hex")
          else if verifyEnvelope crypto env pubkey = false then
            some (shortHash h ++ ": signature invalid")
          else if env.inputHashes = [] then some (shortHash h ++ ": input_hashes empty")
          else
            match env.parentEnvelopeHash with
            | none => none
            | some parent =>
                if requireClosed = true ∧ parent ∉ held.keys then
                  some (shortHash h ++ ": spine parent " ++ shortHash parent ++
                    " not held (DAG not closed — predecessor lost or altered)")
                else none

/-- The outputs in `sorted(by_hash)` order, each with its envelope's hash. -/
def outputs (held : Dict String ICPEnvelope) : List (String × String) :=
  (sortedHashes held.keys).filterMap (fun h =>
    (held.lookup h).map (fun env => (env.outputHash, h)))

/-- `output_hash` to producing envelope hash; the least hash wins. -/
def byOutput (held : Dict String ICPEnvelope) : Dict String String :=
  (outputs held).foldl (fun dict item => dict.setdefault item.1 item.2) Dict.empty

def provenanceParents (held : Dict String ICPEnvelope) (producers : Dict String String)
    (h : String) : Finset String :=
  match held.lookup h with
  | none => ∅
  | some env =>
      (env.parentEnvelopeHash.toList.filter (· ∈ held.keys)).toFinset ∪
        ((env.inputHashes.filterMap producers.lookup).filter (· ≠ h)).toFinset

def dagOrder (held : Dict String ICPEnvelope) : Option (List String) :=
  Kahn.topoOrder held.keys (provenanceParents held (byOutput held))

def dagRoots (held : Dict String ICPEnvelope) : List String :=
  sortedHashes (held.keys.filter (fun h => provenanceParents held (byOutput held) h = ∅))

/-- The held hashes outside `consumed`, the union of all parent sets. -/
def dagLeaves (held : Dict String ICPEnvelope) : List String :=
  sortedHashes (held.keys.filter (fun h =>
    ∀ child ∈ held.keys, h ∉ provenanceParents held (byOutput held) child))

def verifyDag (requireClosed : Bool) (envelopes : List ICPEnvelope) : DagVerification :=
  let held := byHash crypto envelopes
  match held.rows.findSome? (envelopeDefect crypto requireClosed held) with
  | some reason => ⟨false, reason, [], [], []⟩
  | none =>
      match dagOrder held with
      | none => ⟨false, "provenance cycle detected", [], [], []⟩
      | some order => ⟨true, "ok", order.filterMap held.lookup, dagRoots held, dagLeaves held⟩

/-! The graph the envelopes themselves describe, whatever their order. -/

def Held (envelopes : List ICPEnvelope) (h : String) : Prop :=
  ∃ env ∈ envelopes, computeEnvelopeHash crypto env = h

/-- `h` is the least hash among the envelopes with this output. -/
def Producer (envelopes : List ICPEnvelope) (output h : String) : Prop :=
  IsLeast { hash | ∃ env ∈ envelopes, env.outputHash = output ∧
    computeEnvelopeHash crypto env = hash } h

/-- `child` depends on `parent` along the spine or through an input. -/
def DependsOn (envelopes : List ICPEnvelope) (parent child : String) : Prop :=
  ∃ env ∈ envelopes, computeEnvelopeHash crypto env = child ∧
    ((env.parentEnvelopeHash = some parent ∧ Held crypto envelopes parent) ∨
      ∃ input ∈ env.inputHashes, Producer crypto envelopes input parent ∧ parent ≠ child)

structure Sound (requireClosed : Bool) (envelopes : List ICPEnvelope) : Prop where
  inputs : ∀ env ∈ envelopes, env.inputHashes ≠ []
  closed : requireClosed = true → ∀ env ∈ envelopes, ∀ parent,
    env.parentEnvelopeHash = some parent → Held crypto envelopes parent
  acyclic : ∀ h, ¬ Relation.TransGen (DependsOn crypto envelopes) h h

variable {crypto}

theorem lookup_byHash (envelopes : List ICPEnvelope) (h : String) :
    (byHash crypto envelopes).lookup h =
      envelopes.reverse.find? (fun env => computeEnvelopeHash crypto env = h) := by
  have last := Dict.lookup_foldl_set (computeEnvelopeHash crypto) id envelopes h
  rwa [Option.map_id_apply] at last

theorem mem_keys_byHash (envelopes : List ICPEnvelope) (h : String) :
    h ∈ (byHash crypto envelopes).keys ↔ Held crypto envelopes h :=
  Dict.mem_keys_foldl_set (computeEnvelopeHash crypto) id envelopes h

/-- The envelope kept for a hash is one of those held. -/
theorem lookup_byHash_mem {envelopes : List ICPEnvelope} {h : String} {env : ICPEnvelope}
    (kept : (byHash crypto envelopes).lookup h = some env) :
    env ∈ envelopes ∧ computeEnvelopeHash crypto env = h := by
  rw [lookup_byHash] at kept
  exact ⟨List.mem_reverse.mp (List.mem_of_find?_eq_some kept), by simpa using List.find?_some kept⟩

theorem exists_lookup_byHash {envelopes : List ICPEnvelope} {env : ICPEnvelope}
    (member : env ∈ envelopes) :
    ∃ kept, (byHash crypto envelopes).lookup (computeEnvelopeHash crypto env) = some kept :=
  (Dict.mem_keys _ _).mp ((mem_keys_byHash envelopes _).mpr ⟨env, member, rfl⟩)

theorem mem_outputs (held : Dict String ICPEnvelope) (output h : String) :
    (output, h) ∈ outputs held ↔ ∃ env, held.lookup h = some env ∧ env.outputHash = output := by
  simp only [outputs, List.mem_filterMap, sortedHashes, List.mem_insertionSort,
    Option.map_eq_some_iff, Prod.mk.injEq]
  constructor
  · rintro ⟨h, _, env, found, same, rfl⟩
    exact ⟨env, found, same⟩
  · intro held
    rcases held with ⟨env, found, same⟩
    exact ⟨h, (Dict.mem_keys _ _).mpr ⟨env, found⟩, env, found, same, rfl⟩

theorem outputs_sorted (held : Dict String ICPEnvelope) :
    (outputs held).Pairwise (fun first second => first.2 ≤ second.2) := by
  have sorted : (sortedHashes held.keys).Pairwise (· ≤ ·) := List.pairwise_insertionSort _ _
  refine sorted.filterMap _ ?_
  intro first second below item found item' found'
  rcases Option.map_eq_some_iff.mp found with ⟨_, _, rfl⟩
  rcases Option.map_eq_some_iff.mp found' with ⟨_, _, rfl⟩
  exact below

/-- The recorded producer of an output is the least hash that has it. -/
theorem lookup_byOutput (held : Dict String ICPEnvelope) (output h : String) :
    (byOutput held).lookup output = some h ↔
      IsLeast { hash | ∃ env, held.lookup hash = some env ∧ env.outputHash = output } h := by
  have least : ∀ item, (outputs held).find? (fun item => item.1 = output) = some item →
      IsLeast { hash | ∃ env, held.lookup hash = some env ∧ env.outputHash = output } item.2 := by
    intro item found
    rcases List.find?_eq_some_iff_append.mp found with ⟨same, before, after, split, earlier⟩
    have named : item.1 = output := by simpa using same
    refine ⟨(mem_outputs held output item.2).mp (named ▸ List.mem_of_find?_eq_some found), ?_⟩
    intro other otherProduces
    have member := (mem_outputs held output other).mpr otherProduces
    have sorted := outputs_sorted held
    rw [split] at member sorted
    rcases List.mem_append.mp member with inBefore | inRest
    · have skipped := earlier _ inBefore
      simp at skipped
    · rcases List.mem_cons.mp inRest with same | inAfter
      · exact le_of_eq (congrArg Prod.snd same).symm
      · exact (List.pairwise_cons.mp (List.pairwise_append.mp sorted).2.1).1 _ inAfter
  rw [byOutput, Dict.lookup_foldl_setdefault Prod.fst Prod.snd]
  constructor
  · intro found
    rcases Option.map_eq_some_iff.mp found with ⟨item, present, rfl⟩
    exact least item present
  · intro isLeast
    cases present : (outputs held).find? (fun item => item.1 = output) with
    | none =>
        have absent := List.find?_eq_none.mp present _ ((mem_outputs held output h).mpr isLeast.1)
        simp at absent
    | some item =>
        simp only [Option.map_some, Option.some.injEq]
        exact (least item present).unique isLeast

theorem dependsOn_held {envelopes : List ICPEnvelope} {parent child : String}
    (edge : DependsOn crypto envelopes parent child) : Held crypto envelopes parent := by
  rcases edge with ⟨_, _, _, ⟨_, held⟩ | ⟨_, _, ⟨⟨env, held, _, hash⟩, _⟩, _⟩⟩
  · exact held
  · exact ⟨env, held, hash⟩

section Ideal

variable (ideal : Function.Injective crypto.blake3)
include ideal

theorem kept_unsigned {envelopes : List ICPEnvelope} {env kept : ICPEnvelope}
    (found : (byHash crypto envelopes).lookup (computeEnvelopeHash crypto env) = some kept) :
    kept.unsigned = env.unsigned :=
  (computeEnvelopeHash_eq_iff ideal kept env).mp (lookup_byHash_mem found).2

/-- What is kept for the hash of a held envelope agrees with it on every field
the graph is made of. -/
theorem lookup_output_iff (envelopes : List ICPEnvelope) (output h : String) :
    (∃ env, (byHash crypto envelopes).lookup h = some env ∧ env.outputHash = output) ↔
      ∃ env ∈ envelopes, env.outputHash = output ∧ computeEnvelopeHash crypto env = h := by
  constructor
  · intro ⟨env, found, same⟩
    rcases lookup_byHash_mem found with ⟨member, hash⟩
    exact ⟨env, member, same, hash⟩
  · rintro ⟨env, member, same, rfl⟩
    rcases exists_lookup_byHash member with ⟨kept, found⟩
    rcases unsigned_graph_fields (kept_unsigned ideal found) with ⟨_, _, output⟩
    exact ⟨kept, found, output.trans same⟩

theorem lookup_producer (envelopes : List ICPEnvelope) (output h : String) :
    (byOutput (byHash crypto envelopes)).lookup output = some h ↔
      Producer crypto envelopes output h := by
  rw [lookup_byOutput, Producer]
  simp only [lookup_output_iff ideal]

theorem mem_provenanceParents (envelopes : List ICPEnvelope) (parent child : String) :
    parent ∈ provenanceParents (byHash crypto envelopes) (byOutput (byHash crypto envelopes))
        child ↔ DependsOn crypto envelopes parent child := by
  have through : ∀ env : ICPEnvelope,
      parent ∈ (env.parentEnvelopeHash.toList.filter
          (· ∈ (byHash crypto envelopes).keys)).toFinset ∪
        ((env.inputHashes.filterMap (byOutput (byHash crypto envelopes)).lookup).filter
          (· ≠ child)).toFinset ↔
      (env.parentEnvelopeHash = some parent ∧ Held crypto envelopes parent) ∨
        ∃ input ∈ env.inputHashes, Producer crypto envelopes input parent ∧ parent ≠ child := by
    intro env
    simp only [Finset.mem_union, List.mem_toFinset, List.mem_filter, Option.mem_toList,
      mem_keys_byHash, decide_eq_true_eq, List.mem_filterMap,
      lookup_producer ideal]
    constructor
    · rintro (spine | ⟨⟨input, member, producer⟩, other⟩)
      · exact Or.inl spine
      · exact Or.inr ⟨input, member, producer, other⟩
    · rintro (spine | ⟨input, member, producer, other⟩)
      · exact Or.inl spine
      · exact Or.inr ⟨⟨input, member, producer⟩, other⟩
  constructor
  · intro member
    unfold provenanceParents at member
    cases found : (byHash crypto envelopes).lookup child with
    | none => simp [found] at member
    | some env =>
        simp only [found] at member
        rcases lookup_byHash_mem found with ⟨held, hash⟩
        exact ⟨env, held, hash, (through env).mp member⟩
  · rintro ⟨env, held, rfl, edge⟩
    rcases exists_lookup_byHash held with ⟨kept, found⟩
    rcases unsigned_graph_fields (kept_unsigned ideal found) with ⟨spine, inputs, _⟩
    rw [← spine, ← inputs] at edge
    simp only [provenanceParents, found]
    exact (through kept).mpr edge

theorem acyclic_iff (envelopes : List ICPEnvelope) :
    Kahn.Acyclic (byHash crypto envelopes).keys
        (provenanceParents (byHash crypto envelopes) (byOutput (byHash crypto envelopes))) ↔
      ∀ h, ¬ Relation.TransGen (DependsOn crypto envelopes) h h := by
  have edges : Kahn.Parent (byHash crypto envelopes).keys
      (provenanceParents (byHash crypto envelopes) (byOutput (byHash crypto envelopes))) =
      DependsOn crypto envelopes := by
    funext parent child
    apply propext
    simp only [Kahn.Parent, mem_provenanceParents ideal, mem_keys_byHash]
    refine ⟨fun edge => edge.2, fun edge => ⟨?_, edge⟩⟩
    rcases edge with ⟨env, held, hash, _⟩
    exact ⟨env, held, hash⟩
  rw [Kahn.Acyclic, edges]

/-- The sort fails exactly on a cycle among the dependencies. -/
theorem dagOrder_exists_iff (envelopes : List ICPEnvelope) :
    (∃ order, dagOrder (byHash crypto envelopes) = some order) ↔
      ∀ h, ¬ Relation.TransGen (DependsOn crypto envelopes) h h := by
  rw [← acyclic_iff ideal]
  apply Kahn.topoOrder_isSome_iff (Dict.keys_nodup _)
  intro child _ parent edge
  rw [mem_keys_byHash]
  exact dependsOn_held ((mem_provenanceParents ideal envelopes parent child).mp edge)

end Ideal

theorem envelopeDefect_eq_none (requireClosed : Bool) (held : Dict String ICPEnvelope)
    (h : String) (env : ICPEnvelope) :
    envelopeDefect crypto requireClosed held (h, env) = none ↔
      selfVerifies crypto env = true ∧ env.inputHashes ≠ [] ∧
        (requireClosed = true → ∀ parent, env.parentEnvelopeHash = some parent →
          parent ∈ held.keys) := by
  simp only [envelopeDefect, selfVerifies]
  cases pubkeyBytesOf env with
  | none => simp
  | some pubkey =>
      by_cases length : pubkey.length = 32
      · by_cases verified : verifyEnvelope crypto env pubkey = true
        · by_cases empty : env.inputHashes = []
          · simp [length, verified, empty]
          · cases env.parentEnvelopeHash <;> simp [length, verified, empty]
        · simp [length, verified]
      · simp [length]

variable (crypto) in
/-- The two kinds of verdict: a rejection carries nothing but its reason, and a
valid one is read off the sort. -/
theorem verifyDag_cases (requireClosed : Bool) (envelopes : List ICPEnvelope) :
    ((∃ reason, verifyDag crypto requireClosed envelopes = ⟨false, reason, [], [], []⟩) ∧
      ¬ ((byHash crypto envelopes).rows.findSome?
          (envelopeDefect crypto requireClosed (byHash crypto envelopes)) = none ∧
        ∃ order, dagOrder (byHash crypto envelopes) = some order)) ∨
    ((byHash crypto envelopes).rows.findSome?
        (envelopeDefect crypto requireClosed (byHash crypto envelopes)) = none ∧
      ∃ order, dagOrder (byHash crypto envelopes) = some order ∧
        verifyDag crypto requireClosed envelopes =
          ⟨true, "ok", order.filterMap (byHash crypto envelopes).lookup,
            dagRoots (byHash crypto envelopes), dagLeaves (byHash crypto envelopes)⟩) := by
  cases defect : (byHash crypto envelopes).rows.findSome?
      (envelopeDefect crypto requireClosed (byHash crypto envelopes)) with
  | some reason => exact Or.inl ⟨⟨reason, by simp [verifyDag, defect]⟩, by simp⟩
  | none =>
      cases sorted : dagOrder (byHash crypto envelopes) with
      | none => exact Or.inl ⟨⟨_, by simp only [verifyDag, defect, sorted]; rfl⟩, by simp⟩
      | some order => exact Or.inr ⟨rfl, order, rfl, by simp only [verifyDag, defect, sorted]⟩

theorem verifyDag_valid_iff (ideal : Function.Injective crypto.blake3) (requireClosed : Bool)
    (envelopes : List ICPEnvelope) :
    (verifyDag crypto requireClosed envelopes).valid = true ↔
      (∀ h env, (byHash crypto envelopes).lookup h = some env →
        selfVerifies crypto env = true) ∧ Sound crypto requireClosed envelopes := by
  have clean : (byHash crypto envelopes).rows.findSome?
        (envelopeDefect crypto requireClosed (byHash crypto envelopes)) = none ↔
      ∀ h env, (byHash crypto envelopes).lookup h = some env →
        selfVerifies crypto env = true ∧ env.inputHashes ≠ [] ∧
          (requireClosed = true → ∀ parent, env.parentEnvelopeHash = some parent →
            Held crypto envelopes parent) := by
    simp only [List.findSome?_eq_none_iff, Prod.forall, ← Dict.lookup_eq_some,
      envelopeDefect_eq_none, mem_keys_byHash]
  have kept : ∀ env ∈ envelopes, ∃ h other, (byHash crypto envelopes).lookup h = some other ∧
      other.unsigned = env.unsigned := by
    intro env member
    rcases exists_lookup_byHash member with ⟨other, found⟩
    exact ⟨_, other, found, kept_unsigned ideal found⟩
  have valid_iff : (verifyDag crypto requireClosed envelopes).valid = true ↔
      (byHash crypto envelopes).rows.findSome?
        (envelopeDefect crypto requireClosed (byHash crypto envelopes)) = none ∧
      ∃ order, dagOrder (byHash crypto envelopes) = some order := by
    rcases verifyDag_cases crypto requireClosed envelopes with ⟨⟨reason, verdict⟩, rejected⟩ |
      ⟨noDefect, order, sorted, verdict⟩
    · simp only [verdict, rejected, Bool.false_eq_true]
    · simp only [verdict, noDefect, sorted, true_and, Option.some.injEq, exists_eq']
  rw [valid_iff, clean, dagOrder_exists_iff ideal]
  constructor
  · intro accepted
    rcases accepted with ⟨checks, acyclic⟩
    refine ⟨fun h env found => (checks h env found).1, ?_, ?_, acyclic⟩
    · intro env member
      rcases kept env member with ⟨h, other, found, unsigned⟩
      rcases unsigned_graph_fields unsigned with ⟨_, inputs, _⟩
      exact inputs ▸ (checks h other found).2.1
    · intro closed env member parent spine
      rcases kept env member with ⟨h, other, found, unsigned⟩
      rcases unsigned_graph_fields unsigned with ⟨sameSpine, _, _⟩
      exact (checks h other found).2.2 closed parent (sameSpine.trans spine)
  · intro described
    rcases described with ⟨verifies, sound⟩
    refine ⟨?_, sound.acyclic⟩
    intro h env found
    have member := (lookup_byHash_mem found).1
    exact ⟨verifies h env found, sound.inputs env member, fun closed parent spine =>
      sound.closed closed env member parent spine⟩

end Verification

end Gyza
