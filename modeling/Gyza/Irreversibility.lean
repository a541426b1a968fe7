import Gyza.Lib.LexicalPath
import Gyza.Lib.PyValue

/-! The irreversibility measure (`gyza/containment/irreversibility.py`).

An action is classified by its signed enforcement record. A writable path counts as inside a
store when its text starts with the store's, and `..` is a name like any other there. -/

namespace Gyza.Irreversibility

open LexicalPath (Beneath climbs isAbsolute namesOf names resolve rstrip walk)
open PyValue (Fields Value dictGet)

inductive Verdict where
  | reversible
  | destructive
  | irreversible
  | unproven
  deriving DecidableEq

def countedVerdicts : Finset Verdict := {.destructive, .irreversible, .unproven}

inductive Reason where
  | noRecord
  | network
  | writable (paths : List Value)
  | nothingLeft

def Reason.text (repr : List Value → String) : Reason → String
  | .noRecord =>
      "no enforcement record; reversibility cannot be established and is not assumed"
  | .network =>
      "the sandbox granted network access; anything sent has left modelled state (C15)"
  | .writable paths => "writable paths outside any append-only store: " ++ repr paths
  | .nothingLeft =>
      "no network and no writes outside an append-only store; nothing left the system"

structure Reversibility where
  actionId : String
  verdict : Verdict
  reason : Reason

def Reversibility.counted (measured : Reversibility) : Bool := measured.verdict ∈ countedVerdicts

inductive Raised where
  | attributeError
  | typeError

/-- `path or ""`, which must have `rstrip`. -/
def pathText (path : Value) : Except Raised String :=
  if path.truthy = false then .ok ""
  else
    match path with
    | .str text => .ok text
    | _ => .error .attributeError

/-- `p == s.rstrip("/") or p.startswith(s.rstrip("/") + "/")`, of a store with a name. -/
def inStore (store text : String) : Bool :=
  store ≠ "" && (rstrip text = rstrip store ||
    ((rstrip store).toList ++ ['/']).isPrefixOf (rstrip text).toList)

def outsideStore (path : Value) (stores : List String) : Except Raised Bool :=
  (pathText path).map fun text => !stores.any (inStore · text)

/-- `[p for p in paths if _outside_store(p, store_paths)]`. -/
def keepOutside (stores : List String) : List Value → Except Raised (List Value)
  | [] => .ok []
  | path :: paths =>
      match outsideStore path stores, keepOutside stores paths with
      | .error raised, _ => .error raised
      | .ok _, .error raised => .error raised
      | .ok outside, .ok kept => .ok (if outside then path :: kept else kept)

/-- `enforcement.get("rw_paths") or []`, as it is iterated. -/
def rwPaths (enforcement : Fields) : Except Raised (List Value) :=
  if (dictGet enforcement "rw_paths" .none).truthy then
    match (dictGet enforcement "rw_paths" .none).iterate with
    | some paths => .ok paths
    | none => .error .typeError
  else .ok []

/-- What `<` compares among itself; `None` and dictionaries are compared with nothing. -/
inductive OrderClass where
  | number
  | text
  | list
  | tuple
  | set
  deriving DecidableEq

def orderClass : Value → Option OrderClass
  | .bool _ | .int _ | .float _ => some .number
  | .str _ => some .text
  | .collection .list _ => some .list
  | .collection .tuple _ => some .tuple
  | .collection .set _ | .collection .frozenset _ => some .set
  | .none | .dict _ => none

/-- Only texts differ here: an item that is no text is an empty or a zero one. -/
def textLe : Value → Value → Bool
  | .str left, .str right => left ≤ right
  | _, _ => true

/-- `sorted(rw)`. -/
def sortedPaths : List Value → Except Raised (List Value)
  | [] => .ok []
  | [path] => .ok [path]
  | path :: paths =>
      if (orderClass path).isSome && paths.all (orderClass · = orderClass path) then
        .ok ((path :: paths).mergeSort textLe)
      else .error .typeError

def classify (enforcement : Value) (actionId : String) (stores : List String) :
    Except Raised Reversibility :=
  match enforcement with
  | .dict fields =>
      if fields.isEmpty then .ok ⟨actionId, .unproven, .noRecord⟩
      else if (dictGet fields "requires_network" .none).truthy then
        .ok ⟨actionId, .irreversible, .network⟩
      else
        match rwPaths fields with
        | .error raised => .error raised
        | .ok paths =>
            match keepOutside stores paths with
            | .error raised => .error raised
            | .ok [] => .ok ⟨actionId, .reversible, .nothingLeft⟩
            | .ok outside =>
                (sortedPaths outside).map fun sorted =>
                  ⟨actionId, .destructive, .writable sorted⟩
  | _ => .ok ⟨actionId, .unproven, .noRecord⟩

def foldIrreversible (stores : List String) : List (String × Value) → Except Raised Nat
  | [] => .ok 0
  | (actionId, enforcement) :: records =>
      match classify enforcement actionId stores with
      | .error raised => .error raised
      | .ok measured => (foldIrreversible stores records).map (measured.counted.toNat + ·)

/-! When a record is classified reversible. -/

theorem inStore_iff (store text : String) : inStore store text = true ↔
    store ≠ "" ∧ (rstrip text = rstrip store ∨
      (rstrip store).toList ++ ['/'] <+: (rstrip text).toList) := by
  rw [inStore, Bool.and_eq_true, Bool.or_eq_true, decide_eq_true_eq, decide_eq_true_eq,
    List.isPrefixOf_iff_prefix]

/-- The path is taken for one inside a store. -/
def Inside (stores : List String) (path : Value) : Prop :=
  ∃ text, pathText path = .ok text ∧ ∃ store ∈ stores, inStore store text = true

theorem outsideStore_false_iff (stores : List String) (path : Value) :
    outsideStore path stores = .ok false ↔ Inside stores path := by
  cases parsed : pathText path with
  | error raised => simp [outsideStore, Inside, parsed, Except.map]
  | ok text => simp [outsideStore, Inside, parsed, Except.map]

theorem keepOutside_nil_iff (stores : List String) (paths : List Value) :
    keepOutside stores paths = .ok [] ↔ ∀ path ∈ paths, Inside stores path := by
  induction paths with
  | nil => simp [keepOutside]
  | cons path rest ih =>
      rw [List.forall_mem_cons, ← ih, ← outsideStore_false_iff, keepOutside]
      cases outsideStore path stores with
      | error raised => simp
      | ok outside =>
          cases keepOutside stores rest with
          | error raised => simp
          | ok kept => cases outside <;> simp

/-- What `classify` needs to answer REVERSIBLE. -/
structure Passes (stores : List String) (fields : Fields) (paths : List Value) : Prop where
  stated : fields ≠ []
  network : (dictGet fields "requires_network" .none).truthy = false
  writable : rwPaths fields = .ok paths
  inside : ∀ path ∈ paths, Inside stores path

/-- The record is classified REVERSIBLE. -/
def Reversible (stores : List String) (record : String × Value) : Prop :=
  ∃ measured, classify record.2 record.1 stores = .ok measured ∧ measured.verdict = .reversible

theorem reversible_iff (stores : List String) (record : String × Value) :
    Reversible stores record ↔
      ∃ fields paths, record.2 = .dict fields ∧ Passes stores fields paths := by
  obtain ⟨actionId, enforcement⟩ := record
  constructor
  · rintro ⟨measured, classified, reversible⟩
    cases enforcement with
    | dict fields =>
        simp only [classify] at classified
        split_ifs at classified with unstated granted
        · cases classified
          cases reversible
        · cases classified
          cases reversible
        · have stated : fields ≠ [] := fun empty => unstated (List.isEmpty_iff.mpr empty)
          split at classified
          · cases classified
          · rename_i paths writable
            split at classified
            · cases classified
            · rename_i nothing
              exact ⟨fields, paths, rfl, stated, Bool.eq_false_of_not_eq_true granted, writable,
                (keepOutside_nil_iff stores paths).mp nothing⟩
            · rename_i outside _ _
              cases sorted : sortedPaths outside with
              | error raised =>
                  rw [sorted] at classified
                  cases classified
              | ok items =>
                  rw [sorted] at classified
                  cases classified
                  cases reversible
    | _ =>
        cases classified
        cases reversible
  · rintro ⟨fields, paths, same, passes⟩
    refine ⟨⟨actionId, .reversible, .nothingLeft⟩, ?_, rfl⟩
    have stated : fields.isEmpty = false := by simpa using passes.stated
    simp [classify, show enforcement = .dict fields from same, stated, passes.network,
      passes.writable, (keepOutside_nil_iff stores paths).mpr passes.inside]

/-! Where a path leads that is taken for one inside a store. -/

/-- The names of a path after the text of the store it starts with. -/
def namesBelow (store text : String) : List String :=
  namesOf ((rstrip text).toList.drop (rstrip store).toList.length)

theorem resolve_inStore {store text : String} (inside : inStore store text = true) :
    resolve text = walk (resolve store) (namesBelow store text) := by
  have leads : names text = names store ++ namesBelow store text := by
    obtain ⟨-, same | starts⟩ := (inStore_iff store text).mp inside
    · rw [namesBelow, same, List.drop_length, LexicalPath.namesOf_nil, List.append_nil,
        ← LexicalPath.names_rstrip text, same, LexicalPath.names_rstrip]
    · obtain ⟨rest, split⟩ := starts
      rw [List.append_assoc, List.singleton_append] at split
      have below : namesBelow store text = namesOf rest := by
        rw [namesBelow, ← split, List.drop_left]
        exact LexicalPath.namesOf_slash [] rest
      calc
        names text = namesOf (rstrip text).toList := (LexicalPath.names_rstrip text).symm
        _ = namesOf (rstrip store).toList ++ namesOf rest := by
          rw [← split, LexicalPath.namesOf_slash]
        _ = names store ++ namesBelow store text := by
          rw [below]
          exact congrArg (· ++ namesOf rest) (LexicalPath.names_rstrip store)
  rw [resolve, leads, LexicalPath.walk_append, resolve]

/-- A path inside an absolute store is absolute, unless nothing but slashes is left of it. -/
theorem absolute_inStore {store text : String} (absolute : isAbsolute store)
    (inside : inStore store text = true) : isAbsolute text ∨ resolve text = [] := by
  obtain ⟨-, same | ⟨rest, starts⟩⟩ := (inStore_iff store text).mp inside
  · by_cases nothing : rstrip text = ""
    · exact Or.inr (LexicalPath.resolve_slashes nothing)
    · left
      calc
        text.toList.head? = (rstrip text).toList.head? := (LexicalPath.head_rstrip nothing).symm
        _ = (rstrip store).toList.head? := by rw [same]
        _ = store.toList.head? := LexicalPath.head_rstrip (same ▸ nothing)
        _ = some '/' := absolute
  · left
    have something : rstrip text ≠ "" := by
      intro nothing
      rw [nothing] at starts
      simp at starts
    calc
      text.toList.head? = (rstrip text).toList.head? := (LexicalPath.head_rstrip something).symm
      _ = some '/' := by
        rw [← starts]
        by_cases nothing : rstrip store = ""
        · rw [nothing]
          rfl
        · have first := LexicalPath.head_rstrip nothing
          rw [absolute] at first
          cases chars : (rstrip store).toList with
          | nil => rw [chars] at first; cases first
          | cons c front =>
              rw [chars] at first
              exact first

/-- The names of a path stay in a store it starts in, or they come back to one. -/
def Kept (stores : List String) (text : String) : Prop :=
  ∃ store ∈ stores, inStore store text = true ∧
    (climbs 0 (namesBelow store text) = false ∨
      ∃ other ∈ stores, resolve other <+: walk (resolve store) (namesBelow store text))

theorem beneath_iff_kept {stores : List String} {text : String}
    (absolute : ∀ store ∈ stores, isAbsolute store)
    (inside : ∃ store ∈ stores, inStore store text = true) :
    (∃ store ∈ stores, Beneath store text) ↔ Kept stores text := by
  constructor
  · rintro ⟨other, listed, -, below⟩
    obtain ⟨store, member, starts⟩ := inside
    rw [resolve_inStore starts] at below
    exact ⟨store, member, starts, Or.inr ⟨other, listed, below⟩⟩
  · rintro ⟨store, member, starts, stays | ⟨other, listed, below⟩⟩
    all_goals have rooted := absolute_inStore (absolute store member) starts
    · have below : resolve store <+: resolve text := by
        rw [resolve_inStore starts]
        exact LexicalPath.prefix_walk_start stays
      refine ⟨store, member, rooted.imp_right fun root => ?_, below⟩
      rw [root] at below
      exact List.prefix_nil.mp below
    · rw [← resolve_inStore starts] at below
      refine ⟨other, listed, rooted.imp_right fun root => ?_, below⟩
      rw [root] at below
      exact List.prefix_nil.mp below

/-! The bound. -/

/-- The record says that it grants no network. -/
def DeniesNetwork (fields : Fields) : Prop :=
  ∃ grant, fields.lookup "requires_network" = some grant ∧ grant.truthy = false

/-- A writable path leads out of every store. -/
def Escapes (stores : List String) (enforcement : Value) : Prop :=
  ∃ fields paths path text, enforcement = .dict fields ∧ rwPaths fields = .ok paths ∧
    path ∈ paths ∧ pathText path = .ok text ∧ ∀ store ∈ stores, ¬Beneath store text

structure UpperBound (stores : List String) (records : List (String × Value)) : Prop where
  denied : ∀ record ∈ records, Reversible stores record →
    ∃ fields, record.2 = .dict fields ∧ DeniesNetwork fields
  contained : ∀ record ∈ records, Reversible stores record → ¬Escapes stores record.2
  counted : ∀ count, foldIrreversible stores records = .ok count →
    ∀ escaping : List (String × Value), escaping.Sublist records →
      (∀ record ∈ escaping, Escapes stores record.2) → escaping.length ≤ count

/-- A record that grants no network and whose writable paths all start in a store says that it
grants none, and its paths are kept. -/
def Accounted (stores : List String) (enforcement : Value) : Prop :=
  ∀ fields paths, enforcement = .dict fields → Passes stores fields paths →
    (fields.lookup "requires_network").isSome = true ∧
      ∀ path ∈ paths, ∀ text, pathText path = .ok text → Kept stores text

theorem not_escapes_iff {stores : List String} {fields : Fields} {paths : List Value}
    (absolute : ∀ store ∈ stores, isAbsolute store) (passes : Passes stores fields paths) :
    ¬Escapes stores (.dict fields) ↔
      ∀ path ∈ paths, ∀ text, pathText path = .ok text → Kept stores text := by
  constructor
  · intro stays path member text parsed
    obtain ⟨other, again, inside⟩ := passes.inside path member
    cases parsed.symm.trans again
    refine (beneath_iff_kept absolute inside).mp (by_contra fun outside => stays ?_)
    exact ⟨fields, paths, path, text, rfl, passes.writable, member, parsed,
      fun store listed below => outside ⟨store, listed, below⟩⟩
  · rintro kept ⟨_, others, path, text, same, writable, member, parsed, outside⟩
    cases same
    cases passes.writable.symm.trans writable
    obtain ⟨other, again, inside⟩ := passes.inside path member
    cases parsed.symm.trans again
    obtain ⟨store, listed, below⟩ :=
      (beneath_iff_kept absolute inside).mpr (kept path member text parsed)
    exact outside store listed below

theorem denies_iff {stores : List String} {fields : Fields} {paths : List Value}
    (passes : Passes stores fields paths) :
    DeniesNetwork fields ↔ (fields.lookup "requires_network").isSome = true := by
  have network := passes.network
  rw [dictGet] at network
  cases stated : fields.lookup "requires_network" with
  | none => simp [DeniesNetwork, stated]
  | some grant =>
      rw [stated] at network
      exact ⟨fun _ => rfl, fun _ => ⟨grant, stated, network⟩⟩

theorem counted_iff (measured : Reversibility) :
    measured.counted = true ↔ measured.verdict ≠ .reversible := by
  obtain ⟨actionId, verdict, reason⟩ := measured
  cases verdict <;> simp [Reversibility.counted, countedVerdicts]

theorem fold_cons {stores : List String} {record : String × Value}
    {records : List (String × Value)} {count : Nat}
    (folded : foldIrreversible stores (record :: records) = .ok count) :
    ∃ measured others, classify record.2 record.1 stores = .ok measured ∧
      foldIrreversible stores records = .ok others ∧ count = measured.counted.toNat + others := by
  rw [foldIrreversible] at folded
  cases classified : classify record.2 record.1 stores with
  | error raised =>
      rw [classified] at folded
      cases folded
  | ok measured =>
      rw [classified] at folded
      cases rest : foldIrreversible stores records with
      | error raised =>
          rw [rest] at folded
          cases folded
      | ok others =>
          rw [rest] at folded
          cases folded
          exact ⟨measured, others, rfl, rfl, rfl⟩

/-- The fold counts every record that is not classified REVERSIBLE. -/
theorem length_le_fold {stores : List String} {records : List (String × Value)} {count : Nat}
    (folded : foldIrreversible stores records = .ok count) {chosen : List (String × Value)}
    (among : chosen.Sublist records) (lasting : ∀ record ∈ chosen, ¬Reversible stores record) :
    chosen.length ≤ count := by
  induction among generalizing count with
  | slnil => exact Nat.zero_le count
  | @cons chosen records record among ih =>
      obtain ⟨measured, others, -, rest, total⟩ := fold_cons folded
      have below := ih rest lasting
      omega
  | @cons_cons chosen records record among ih =>
      obtain ⟨measured, others, classified, rest, total⟩ := fold_cons folded
      have counts : measured.counted = true := (counted_iff measured).mpr fun reversible =>
        lasting record List.mem_cons_self ⟨measured, classified, reversible⟩
      have below := ih rest fun other member => lasting other (List.mem_cons_of_mem record member)
      rw [counts, Bool.toNat_true] at total
      rw [List.length_cons]
      omega

theorem irreversibility_bound_iff (stores : List String) (records : List (String × Value))
    (absolute : ∀ store ∈ stores, isAbsolute store) :
    UpperBound stores records ↔ ∀ record ∈ records, Accounted stores record.2 := by
  constructor
  · intro bound record member fields paths same passes
    have reversible := (reversible_iff stores record).mpr ⟨fields, paths, same, passes⟩
    have stays := bound.contained record member reversible
    obtain ⟨found, again, denies⟩ := bound.denied record member reversible
    cases same.symm.trans again
    rw [same] at stays
    exact ⟨(denies_iff passes).mp denies, (not_escapes_iff absolute passes).mp stays⟩
  · intro accounted
    have contained :
        ∀ record ∈ records, Reversible stores record → ¬Escapes stores record.2 := by
      intro record member reversible
      obtain ⟨fields, paths, same, passes⟩ := (reversible_iff stores record).mp reversible
      have kept := (accounted record member fields paths same passes).2
      rw [same]
      exact (not_escapes_iff absolute passes).mpr kept
    refine ⟨?_, contained, ?_⟩
    · intro record member reversible
      obtain ⟨fields, paths, same, passes⟩ := (reversible_iff stores record).mp reversible
      have stated := (accounted record member fields paths same passes).1
      exact ⟨fields, same, (denies_iff passes).mpr stated⟩
    · intro count folded escaping among escapes
      refine length_le_fold folded among fun record member reversible => ?_
      exact contained record (among.subset member) reversible (escapes record member)

namespace Sample

def denying (paths : List String) : Value :=
  .dict [("requires_network", .bool false), ("rw_paths", .collection .list (paths.map .str))]

end Sample

theorem irreversibility_bound_objects :
    UpperBound ["/cas/"] [("a1", Sample.denying ["/cas/objects/..//tmp", "/cas"])] := by
  refine (irreversibility_bound_iff _ _ ?_).mpr ?_
  · intro store listed
    cases List.mem_singleton.mp listed
    rfl
  · intro record listed fields paths same passes
    cases List.mem_singleton.mp listed
    cases same
    cases passes.writable
    refine ⟨rfl, ?_⟩
    intro path member text parsed
    refine ⟨"/cas/", List.mem_singleton_self _, ?_⟩
    rcases List.mem_cons.mp member with first | rest
    · cases first
      cases parsed
      decide
    · cases List.mem_singleton.mp rest
      cases parsed
      decide

/-- The text of the first path starts with the store's, and `..` leads it out. The second record
does not say whether it grants the network. -/
theorem irreversibility_escapes :
    ¬UpperBound ["/cas"] [("a1", Sample.denying ["/cas/../etc"])] ∧
      ¬UpperBound ["/cas"] [("a1", .dict [("backend", .str "bubblewrap")])] := by
  constructor
  · intro bound
    refine bound.contained _ (List.mem_singleton_self _) ⟨_, rfl, rfl⟩
      ⟨_, _, _, _, rfl, rfl, List.mem_singleton_self _, rfl, ?_⟩
    intro store listed beneath
    cases List.mem_singleton.mp listed
    have below := beneath.2
    revert below
    decide
  · intro bound
    obtain ⟨fields, same, grant, stated, denies⟩ := bound.denied _ (List.mem_singleton_self _)
      ⟨_, rfl, rfl⟩
    cases same
    cases stated

end Gyza.Irreversibility
