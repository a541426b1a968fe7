import Gyza.GuardRuns

/-! Loosening a bound: `LooseningRecord` and `install_loosening` of
`gyza/containment/guardconfig.py`, beside the other calls of a guard host. -/

namespace Gyza

open CanonJson (Doc)
open Hex (Bytes)
open PyNumber (FloatFormat Number)

namespace Guard

variable {φ : Type}

/-- One of the changes a record declares: the id, the old bound and the new one. -/
structure DeclaredChange (φ : Type) where
  boundId : String
  old : Option (Number φ)
  new : Option (Number φ)

structure LooseningRecord (φ : Type) where
  changes : List (DeclaredChange φ)
  reason : String

/-- The refusals of `install_loosening`; those of the store pass through. -/
inductive LooseningError (φ : Type) where
  | nothingInstalled
  | recordSignature
  | noneLoosens
  | notMatching (undeclared notLoosening : List String)
  | misstates (change : DeclaredChange φ) (actual : BoundChange)
  | noReason
  | store (cause : GuardError)

def DeclaredChange.toDoc (change : DeclaredChange φ) : Doc φ :=
  .arr [.str change.boundId, change.old.elim .null Number.toDoc,
    change.new.elim .null Number.toDoc]

/-- `as_dict`. -/
def LooseningRecord.toDoc (record : LooseningRecord φ) : Doc φ :=
  .obj [("changes", .arr (record.changes.map DeclaredChange.toDoc)), ("reason", .str record.reason)]

def LooseningRecord.named (record : LooseningRecord φ) : List String :=
  record.changes.map DeclaredChange.boundId

/-- `str.isspace` of a character. -/
def isSpace (c : Char) : Bool :=
  (9 ≤ c.toNat && c.toNat ≤ 13) || (28 ≤ c.toNat && c.toNat ≤ 32) ||
    (0x2000 ≤ c.toNat && c.toNat ≤ 0x200a) ||
    [0x85, 0xa0, 0x1680, 0x2028, 0x2029, 0x202f, 0x205f, 0x3000].contains c.toNat

/-- `not text.strip()`. -/
def blank (text : String) : Bool := text.toList.all isSpace

section Loosening

/-! `quoted` is `repr` of a string. -/

variable (crypto : Crypto) (format : FloatFormat φ) (quoted : String → String)

def verifyLoosening (record : LooseningRecord φ) (signatureHex : String) (authority : Bytes) :
    Bool :=
  verifyBytes crypto (crypto.blake3 (canonicalBytes format record.toDoc)) signatureHex authority

def signLoosening (key : LocalCompositor crypto) (record : LooseningRecord φ) : String :=
  key.sign (crypto.blake3 (canonicalBytes format record.toDoc))

def boundText : Option (Number φ) → String
  | none => "None"
  | some (.int value) => value.repr
  | some (.float value) => String.ofList (format.repr value)

def loosenedAlarm (requestedBy : String) (record : LooseningRecord φ) : String :=
  "GUARD-LOOSENED (requested by " ++ quoted requestedBy ++ "): " ++
    String.intercalate "; " (record.changes.map fun change =>
      change.boundId ++ ": " ++ boundText format change.old ++ " -> " ++
        boundText format change.new) ++
    " — reason: " ++ record.reason

/-- `(old, new) != actual[bid]`, numbers being compared by what they are worth. -/
def misstated (change : DeclaredChange φ) (actual : BoundChange) : Bool :=
  !(change.old.map (Number.exactValue format) = actual.old &&
    change.new.map (Number.exactValue format) = actual.new)

/-- The first declared change that is not what happens to its bound. -/
def firstMisstated (actual : List BoundChange) :
    List (DeclaredChange φ) → Option (DeclaredChange φ × BoundChange)
  | [] => none
  | change :: rest =>
      match actual.find? fun own => own.boundId = change.boundId with
      | none => firstMisstated actual rest
      | some own =>
          if misstated format change own then some (change, own)
          else firstMisstated actual rest

/-- `sorted(set(actual) - record.named)`; the ids of the changes are sorted already. -/
def undeclared (actual : List BoundChange) (record : LooseningRecord φ) : List String :=
  (actual.map BoundChange.boundId).filter fun key => key ∉ record.named

/-- `sorted(record.named - set(actual))`. -/
def notLoosening (actual : List BoundChange) (record : LooseningRecord φ) : List String :=
  (record.named.filter fun key => key ∉ actual.map BoundChange.boundId).dedup.insertionSort (· ≤ ·)

def checkStated (actual : List BoundChange) (record : LooseningRecord φ) :
    Except (LooseningError φ) Unit :=
  match firstMisstated format actual record.changes with
  | some (change, own) => .error (.misstates change own)
  | none => if blank record.reason then .error .noReason else .ok ()

/-- What `install_loosening` checks of the record against what really loosens. -/
def checkRecord (actual : List BoundChange) (record : LooseningRecord φ) :
    Except (LooseningError φ) Unit :=
  if actual = [] then .error .noneLoosens
  else if undeclared actual record ≠ [] ∨ notLoosening actual record ≠ [] then
    .error (.notMatching (undeclared actual record) (notLoosening actual record))
  else checkStated format actual record

def installLoosening (store : GuardConfigStore φ) (history : List (HistoryRecord φ))
    (config : GuardConfig φ) (signatureHex : String) (record : LooseningRecord φ)
    (recordSignatureHex requestedBy : String) (now : Int) :
    Except (LooseningError φ)
      (GuardConfigStore φ × List (HistoryRecord φ) × VerifiedGuardConfig φ) := do
  let some installed := store.cfg | .error .nothingInstalled
  if verifyLoosening crypto format record recordSignatureHex store.authority = false then
    .error .recordSignature
  else do
    let changes ← (diffBounds format installed.bounds (config.bounds.getD [])).mapError .store
    checkRecord format (changes.filter fun change => change.direction = .loosened) record
    let (store, history, cfg) ← (install crypto format store history config signatureHex true
      now).mapError .store
    pure ({ store with alarms := store.alarms ++ [loosenedAlarm format quoted requestedBy record] },
      history, cfg)

end Loosening

/-! `diff_bounds` against the levels of the bounds. -/

section Levels

variable {format : FloatFormat φ}

/-- The level of a bound, none where there is no bound. -/
def levelAt (format : FloatFormat φ) (bounds : Bounds φ) (key : String) : Option ℚ :=
  (boundOf bounds key).bind fun bound => (floatOf format bound).toOption

theorem mem_admitted (bounds : Bounds φ) (key : String) (level : ℚ) :
    (key, level) ∈ admitted format bounds ↔
      ∃ top, levelAt format bounds key = some top ∧ level ≤ top := by
  constructor
  · rintro ⟨bound, bounded, top, read, below⟩
    refine ⟨top, ?_, below⟩
    rw [levelAt, show boundOf bounds key = some bound from bounded, Option.bind_some, read]
    rfl
  · rintro ⟨top, levelled, below⟩
    obtain ⟨bound, bounded, read⟩ := Option.bind_eq_some_iff.mp levelled
    cases result : floatOf format bound with
    | error error => simp [result, Except.toOption] at read
    | ok value =>
        simp only [result, Except.toOption, Option.some.injEq] at read
        exact ⟨bound, bounded, top, by rw [result, read], below⟩

/-- The direction of a bound that goes from one level to another. -/
def moved : Option ℚ → Option ℚ → Option Direction
  | none, none => none
  | none, some _ => some .loosened
  | some _, none => some .tightened
  | some old, some new => some (direction old new)

theorem boundChange_eq {old new : Bounds φ} {key : String} {own : List BoundChange}
    (changed : boundChange format key (boundOf old key) (boundOf new key) = .ok own) :
    own = ((moved (levelAt format old key) (levelAt format new key)).map fun direction =>
      ⟨key, levelAt format old key, levelAt format new key, direction⟩).toList := by
  simp only [levelAt]
  cases before : boundOf old key with
  | none =>
      cases after : boundOf new key with
      | none => simpa [before, after, boundChange, moved, eq_comm] using changed
      | some n =>
          cases read : floatOf format n with
          | error error => simp [before, after, boundChange, read, bind, Except.bind] at changed
          | ok level =>
              simpa [before, after, boundChange, read, bind, Except.bind, pure, Except.pure, moved,
                Except.toOption, eq_comm] using changed
  | some o =>
      cases after : boundOf new key with
      | none =>
          cases read : floatOf format o with
          | error error => simp [before, after, boundChange, read, bind, Except.bind] at changed
          | ok level =>
              simpa [before, after, boundChange, read, bind, Except.bind, pure, Except.pure, moved,
                Except.toOption, eq_comm] using changed
      | some n =>
          cases read : floatOf format n with
          | error error => simp [before, after, boundChange, read, bind, Except.bind] at changed
          | ok next =>
              cases read' : floatOf format o with
              | error error =>
                  simp [before, after, boundChange, read, read', bind, Except.bind] at changed
              | ok earlier =>
                  simpa [before, after, boundChange, read, read', bind, Except.bind, pure,
                    Except.pure, moved, Except.toOption, eq_comm] using changed

theorem mem_changesOf {old new : Bounds φ} {keys : List String} {changes : List BoundChange}
    (diffed : changesOf format old new keys = .ok changes) (change : BoundChange) :
    change ∈ changes ↔ change.boundId ∈ keys ∧
      moved (levelAt format old change.boundId) (levelAt format new change.boundId) =
        some change.direction ∧
      change.old = levelAt format old change.boundId ∧
      change.new = levelAt format new change.boundId := by
  induction keys generalizing changes with
  | nil =>
      cases diffed
      simp
  | cons first rest ih =>
      rw [changesOf] at diffed
      cases changed : boundChange format first (boundOf old first) (boundOf new first) with
      | error error => simp [changed, bind, Except.bind] at diffed
      | ok own =>
          cases others : changesOf format old new rest with
          | error error => simp [changed, others, bind, Except.bind] at diffed
          | ok tail =>
              simp only [changed, others, bind, Except.bind, pure, Except.pure,
                Except.ok.injEq] at diffed
              subst diffed
              rw [boundChange_eq changed, List.mem_append, ih others, Option.mem_toList,
                Option.map_eq_some_iff, List.mem_cons, or_and_right]
              apply or_congr_left
              constructor
              · rintro ⟨direction, went, rfl⟩
                exact ⟨rfl, went, rfl, rfl⟩
              · rintro ⟨same, went, before, after⟩
                subst same
                exact ⟨change.direction, went, by rw [← before, ← after]⟩

theorem moved_loosened_iff (old new : Option ℚ) :
    moved old new = some .loosened ↔
      ∃ level, (∃ top, new = some top ∧ level ≤ top) ∧ ¬ ∃ top, old = some top ∧ level ≤ top := by
  cases new with
  | none => cases old <;> simp [moved]
  | some new =>
      cases old with
      | none =>
          simp only [moved, true_iff]
          exact ⟨new, ⟨new, rfl, le_rfl⟩, by simp⟩
      | some old =>
          have rises : moved (some old) (some new) = some .loosened ↔ old < new := by
            rw [moved, Option.some.injEq, direction]
            split_ifs with up down <;> simp [up]
          rw [rises]
          constructor
          · intro up
            exact ⟨new, ⟨new, rfl, le_rfl⟩, by simpa using up⟩
          · rintro ⟨level, ⟨top, same, below⟩, above⟩
            cases same
            by_contra stays
            exact above ⟨old, rfl, below.trans (not_lt.mp stays)⟩

/-- The changes that loosen are those of the bounds that let more through. -/
theorem loosened_ids {old new : Bounds φ} {changes : List BoundChange}
    (diffed : diffBounds format old new = .ok changes) (key : String) :
    key ∈ (changes.filter fun change => change.direction = .loosened).map BoundChange.boundId ↔
      ∃ level, (key, level) ∈ admitted format new ∧ (key, level) ∉ admitted format old := by
  simp only [mem_admitted, ← moved_loosened_iff]
  constructor
  · intro member
    obtain ⟨change, listed, rfl⟩ := List.mem_map.mp member
    obtain ⟨inside, loosens⟩ := List.mem_filter.mp listed
    rw [((mem_changesOf diffed change).mp inside).2.1, of_decide_eq_true loosens]
  · intro loosens
    have known : key ∈ boundIds old new := by
      obtain ⟨level, ⟨top, levelled, -⟩, -⟩ := (moved_loosened_iff _ _).mp loosens
      obtain ⟨bound, bounded, -⟩ := Option.bind_eq_some_iff.mp levelled
      exact mem_boundIds bounded
    refine List.mem_map.mpr ⟨⟨key, levelAt format old key, levelAt format new key, .loosened⟩,
      List.mem_filter.mpr ⟨?_, decide_eq_true rfl⟩, rfl⟩
    exact (mem_changesOf diffed _).mpr ⟨known, loosens, rfl, rfl⟩

end Levels

/-! What the record says, once it was checked. -/

section Records

variable {format : FloatFormat φ}

theorem firstMisstated_none {actual : List BoundChange} {declared : List (DeclaredChange φ)}
    (none_wrong : firstMisstated format actual declared = none) :
    ∀ change ∈ declared, ∀ own, actual.find? (fun own => own.boundId = change.boundId) = some own →
      change.old.map (Number.exactValue format) = own.old ∧
        change.new.map (Number.exactValue format) = own.new := by
  induction declared with
  | nil => simp
  | cons first rest ih =>
      rw [firstMisstated] at none_wrong
      rw [List.forall_mem_cons]
      cases found : actual.find? (fun own => own.boundId = first.boundId) with
      | none =>
          rw [found] at none_wrong
          exact ⟨by simp, ih none_wrong⟩
      | some own =>
          simp only [found] at none_wrong
          split_ifs at none_wrong with wrong
          refine ⟨?_, ih none_wrong⟩
          intro other same
          cases same
          simpa [misstated] using wrong

/-- The record names just the bounds that let more through, with their levels before and
after. -/
structure Tells (format : FloatFormat φ) (old new : Bounds φ) (record : LooseningRecord φ) :
    Prop where
  named : ∀ key, key ∈ record.named ↔
    ∃ level, (key, level) ∈ admitted format new ∧ (key, level) ∉ admitted format old
  levels : ∀ change ∈ record.changes,
    change.old.map (Number.exactValue format) = levelAt format old change.boundId ∧
      change.new.map (Number.exactValue format) = levelAt format new change.boundId
  reason : blank record.reason = false

theorem matching_names {actual : List BoundChange} {record : LooseningRecord φ}
    (declared : undeclared actual record = []) (loosening : notLoosening actual record = [])
    (key : String) : key ∈ record.named ↔ key ∈ actual.map BoundChange.boundId := by
  constructor
  · intro named
    by_contra other
    have listed : key ∈ notLoosening actual record := by
      rw [notLoosening, List.mem_insertionSort, List.mem_dedup, List.mem_filter]
      exact ⟨named, decide_eq_true other⟩
    rw [loosening] at listed
    cases listed
  · intro loosens
    by_contra other
    have listed : key ∈ undeclared actual record :=
      List.mem_filter.mpr ⟨loosens, decide_eq_true other⟩
    rw [declared] at listed
    cases listed

theorem checkStated_ok {actual : List BoundChange} {record : LooseningRecord φ}
    (checked : checkStated format actual record = .ok ()) :
    firstMisstated format actual record.changes = none ∧ blank record.reason = false := by
  rw [checkStated] at checked
  cases wrong : firstMisstated format actual record.changes with
  | some pair => simp [wrong] at checked
  | none =>
      simp only [wrong] at checked
      split_ifs at checked with empty
      exact ⟨rfl, by simpa using empty⟩

theorem checkRecord_ok {old new : Bounds φ} {changes : List BoundChange}
    {record : LooseningRecord φ} (diffed : diffBounds format old new = .ok changes)
    (checked : checkRecord format (changes.filter fun change => change.direction = .loosened)
      record = .ok ()) : Tells format old new record := by
  rw [checkRecord] at checked
  split_ifs at checked with nothing matching
  rw [not_or, not_not, not_not] at matching
  have names := matching_names matching.1 matching.2
  obtain ⟨right, reason⟩ := checkStated_ok checked
  refine ⟨fun key => (names key).trans (loosened_ids diffed key), ?_, reason⟩
  intro change member
  obtain ⟨own, listed, same⟩ := List.mem_map.mp
    ((names change.boundId).mp (List.mem_map_of_mem member))
  have known : ((changes.filter fun change => change.direction = .loosened).find?
      fun own => own.boundId = change.boundId).isSome := by
    rw [List.find?_isSome]
    exact ⟨own, listed, decide_eq_true same⟩
  obtain ⟨found, search⟩ := Option.isSome_iff_exists.mp known
  have name : found.boundId = change.boundId := by
    simpa using List.find?_some search
  have inside := (List.mem_filter.mp (List.mem_of_find?_eq_some search)).1
  obtain ⟨-, -, before, after⟩ := (mem_changesOf diffed found).mp inside
  rw [← name, ← before, ← after]
  exact firstMisstated_none right change member found search

end Records

/-! A host that may loosen. -/

inductive LooseningCall (φ : Type) where
  | call (call : Call φ)
  | installLoosening (config : GuardConfig φ) (signatureHex : String) (record : LooseningRecord φ)
      (recordSignatureHex requestedBy : String) (now : Int)

namespace Host

def loosenStep (crypto : Crypto) (format : FloatFormat φ) (quoted : String → String)
    (host : Host φ) : LooseningCall φ → Host φ
  | .call call => host.step crypto format call
  | .installLoosening config signatureHex record recordSignatureHex requestedBy now =>
      match installLoosening crypto format quoted host.store host.history config signatureHex record
        recordSignatureHex requestedBy now with
      | .ok (store, history, cfg) => ⟨store, history, host.installed ++ [cfg]⟩
      | .error _ => host

/-- The history tells of every install, in order, and the live store of the last. -/
structure Told (crypto : Crypto) (format : FloatFormat φ) (host : Host φ) : Prop where
  intact : Intact crypto format host.history
  recorded : host.history.map (fun rec => (rec.version, rec.bounds)) =
    host.installed.map (fun cfg => (cfg.version, some cfg.bounds))
  live : ∀ cfg, host.store.cfg = some cfg → host.installed.getLast? = some cfg

/-- A call that let more through after `last` was an `install_loosening` whose record the
authority signed, and which tells just what is let through now; it raised the alarm. -/
def Declared (crypto : Crypto) (format : FloatFormat φ) (quoted : String → String)
    (before after : Host φ) (last cfg : VerifiedGuardConfig φ) : LooseningCall φ → Prop
  | .call _ => False
  | .installLoosening _ _ record recordSignatureHex requestedBy _ =>
      verifyLoosening crypto format record recordSignatureHex before.store.authority = true ∧
        Tells format last.bounds cfg.bounds record ∧
        after.store.alarms =
          before.store.alarms ++ [loosenedAlarm format quoted requestedBy record]

variable {crypto : Crypto} {format : FloatFormat φ} {quoted : String → String}

theorem vetInstall_ok {store : GuardConfigStore φ} {history : List (HistoryRecord φ)}
    {config : GuardConfig φ} {signatureHex : String} {allowLoosening : Bool}
    {cfg : VerifiedGuardConfig φ}
    (vetted : vetInstall crypto format store history config signatureHex allowLoosening = .ok cfg) :
    cfg = verified crypto format store.authority config signatureHex ∧
      ∃ floor recorded, versionFloor crypto format history = .ok (floor, recorded) ∧
        (store.cfg = none → coldChecks format allowLoosening floor recorded cfg = .ok ()) ∧
        ∀ installed, store.cfg = some installed →
          warmChecks format allowLoosening installed cfg = .ok () := by
  rw [vetInstall] at vetted
  split at vetted
  · cases vetted
  · cases read : versionFloor crypto format history with
    | error error => simp [read, bind, Except.bind] at vetted
    | ok result =>
        obtain ⟨floor, recorded⟩ := result
        cases stored : store.cfg with
        | none =>
            simp only [read, stored, bind, Except.bind, pure, Except.pure] at vetted
            split at vetted
            · cases vetted
            · rename_i checked
              cases vetted
              exact ⟨rfl, floor, recorded, rfl, fun _ => checked, by simp⟩
        | some installed =>
            simp only [read, stored, bind, Except.bind, pure, Except.pure] at vetted
            split at vetted
            · cases vetted
            · rename_i checked
              cases vetted
              exact ⟨rfl, floor, recorded, rfl, by simp, fun _ same => by cases same; exact checked⟩

theorem install_ok {store : GuardConfigStore φ} {history : List (HistoryRecord φ)}
    {config : GuardConfig φ} {signatureHex : String} {allowLoosening : Bool} {now : Int}
    {result : GuardConfigStore φ × List (HistoryRecord φ) × VerifiedGuardConfig φ}
    (installed : install crypto format store history config signatureHex allowLoosening now =
      .ok result) :
    ∃ cfg, vetInstall crypto format store history config signatureHex allowLoosening = .ok cfg ∧
      result = ({ store with cfg := some cfg },
        history ++ [installRecord cfg (lastLink crypto format history) now], cfg) := by
  rw [Guard.install] at installed
  cases vetted : vetInstall crypto format store history config signatureHex allowLoosening with
  | error error => simp [vetted, bind, Except.bind] at installed
  | ok cfg =>
      simp only [vetted, bind, Except.bind, pure, Except.pure, Except.ok.injEq] at installed
      exact ⟨cfg, rfl, installed.symm⟩

/-- A rotation leaves the installed configuration in place. -/
theorem rotateAuthority_cfg (store : GuardConfigStore φ) (record : KeySuccession)
    (signatureHex : String) :
    (rotateAuthority crypto format store record signatureHex).1.cfg = store.cfg := by
  unfold rotateAuthority
  split_ifs
  · rfl
  · rfl
  · rfl
  · split <;> rfl

theorem installLoosening_ok {store : GuardConfigStore φ} {history : List (HistoryRecord φ)}
    {config : GuardConfig φ} {signatureHex : String} {record : LooseningRecord φ}
    {recordSignatureHex requestedBy : String} {now : Int}
    {result : GuardConfigStore φ × List (HistoryRecord φ) × VerifiedGuardConfig φ}
    (loosened : installLoosening crypto format quoted store history config signatureHex record
      recordSignatureHex requestedBy now = .ok result) :
    ∃ installed changes cfg, store.cfg = some installed ∧
      verifyLoosening crypto format record recordSignatureHex store.authority = true ∧
      diffBounds format installed.bounds (config.bounds.getD []) = .ok changes ∧
      checkRecord format (changes.filter fun change => change.direction = .loosened) record =
        .ok () ∧
      vetInstall crypto format store history config signatureHex true = .ok cfg ∧
      result = ({ store with
          cfg := some cfg
          alarms := store.alarms ++ [loosenedAlarm format quoted requestedBy record] },
        history ++ [installRecord cfg (lastLink crypto format history) now], cfg) := by
  rw [installLoosening] at loosened
  cases stored : store.cfg with
  | none => simp [stored] at loosened
  | some installed =>
      simp only [stored] at loosened
      split at loosened
      · cases loosened
      · rename_i signed
        cases diffed : diffBounds format installed.bounds (config.bounds.getD []) with
        | error error => simp [diffed, Except.mapError, bind, Except.bind] at loosened
        | ok changes =>
            simp only [diffed, Except.mapError, bind, Except.bind] at loosened
            cases checked : checkRecord format
                (changes.filter fun change => change.direction = .loosened) record with
            | error error => simp [checked] at loosened
            | ok done =>
                simp only [checked] at loosened
                cases added : Guard.install crypto format store history config signatureHex true
                    now with
                | error error => simp [added] at loosened
                | ok next =>
                    obtain ⟨cfg, vetted, rfl⟩ := install_ok added
                    simp only [added, pure, Except.pure, Except.ok.injEq] at loosened
                    exact ⟨installed, changes, cfg, rfl, by simpa using signed, diffed, checked,
                      vetted, loosened.symm⟩

namespace Told

theorem last_record {host : Host φ} (told : Told crypto format host)
    {last : VerifiedGuardConfig φ} (latest : host.installed.getLast? = some last) :
    ∃ lines rec, host.history = lines ++ [rec] ∧ rec.version = last.version ∧
      rec.bounds = some last.bounds := by
  obtain ⟨earlier, split⟩ := List.getLast?_eq_some_iff.mp latest
  have recorded := told.recorded
  rw [split, List.map_append, List.map_singleton] at recorded
  obtain ⟨lines, tail, same, -, single⟩ := List.map_eq_append_iff.mp recorded
  obtain ⟨rec, rfl, values⟩ := List.map_eq_singleton_iff.mp single
  exact ⟨lines, rec, same, congrArg Prod.fst values, congrArg Prod.snd values⟩

/-- An install without leave to loosen tightens the last one. -/
theorem vetInstall_tightens {host : Host φ} (told : Told crypto format host)
    {config : GuardConfig φ} {signatureHex : String} {cfg last : VerifiedGuardConfig φ}
    (vetted : vetInstall crypto format host.store host.history config signatureHex false = .ok cfg)
    (latest : host.installed.getLast? = some last) : Tightens format last cfg := by
  obtain ⟨-, floor, recorded, read, cold, warm⟩ := vetInstall_ok vetted
  cases stored : host.store.cfg with
  | none =>
      obtain ⟨lines, rec, history, version, bounds⟩ := told.last_record latest
      rw [history] at read
      obtain ⟨highest, rfl⟩ := versionFloor_append read
      have floored := highest rec (by simp)
      have checked := cold stored
      rw [bounds] at checked
      simp only [coldChecks, Bool.false_eq_true, if_false] at checked
      split_ifs at checked with below
      exact ⟨by omega, refuseLoosening_ok checked⟩
  | some installed =>
      have same := (told.live installed stored).symm.trans latest
      have checked := warm installed stored
      rw [Option.some.inj same] at checked
      simp only [warmChecks, Bool.false_eq_true, if_false] at checked
      split_ifs at checked with below
      exact ⟨by omega, refuseLoosening_ok checked⟩

/-- Whatever the leave, a warm store goes on to a higher version. -/
theorem vetInstall_version {store : GuardConfigStore φ} {history : List (HistoryRecord φ)}
    {config : GuardConfig φ} {signatureHex : String} {allowLoosening : Bool}
    {cfg installed : VerifiedGuardConfig φ}
    (vetted : vetInstall crypto format store history config signatureHex allowLoosening = .ok cfg)
    (stored : store.cfg = some installed) : installed.version < cfg.version := by
  obtain ⟨-, floor, recorded, -, -, warm⟩ := vetInstall_ok vetted
  have checked := warm installed stored
  rw [warmChecks] at checked
  split_ifs at checked with below
  · exact not_le.mp below
  · exact not_le.mp below

theorem append {host : Host φ} (told : Told crypto format host) {store : GuardConfigStore φ}
    {cfg : VerifiedGuardConfig φ} {now : Int} (stored : store.cfg = some cfg) :
    Told crypto format ⟨store,
      host.history ++ [installRecord cfg (lastLink crypto format host.history) now],
      host.installed ++ [cfg]⟩ := by
  refine ⟨?_, ?_, ?_⟩
  · exact (HashChain.linked_append "" host.history _).mpr ⟨told.intact, rfl⟩
  · simp only [List.map_append, told.recorded, List.map_singleton, installRecord]
  · intro live same
    rw [show store.cfg = some live from same, Option.some.injEq] at stored
    simp [stored]

/-- What the calls that may not loosen do. -/
theorem step {host : Host φ} (told : Told crypto format host) (call : Call φ) :
    Told crypto format (host.step crypto format call) ∧
      ((host.step crypto format call).installed = host.installed ∨
        ∃ cfg, (host.step crypto format call).installed = host.installed ++ [cfg] ∧
          ∀ last, host.installed.getLast? = some last → Tightens format last cfg) := by
  have kept : ∀ {config signatureHex now result},
      Guard.install crypto format host.store host.history config signatureHex false now =
        .ok result → Told crypto format (host.keep (.ok result)) ∧
          ∃ cfg, (host.keep (.ok result)).installed = host.installed ++ [cfg] ∧
            ∀ last, host.installed.getLast? = some last → Tightens format last cfg := by
    intro config signatureHex now result installed
    obtain ⟨cfg, vetted, rfl⟩ := install_ok installed
    exact ⟨told.append rfl, cfg, rfl, fun last latest => told.vetInstall_tightens vetted latest⟩
  cases call with
  | load config signatureHex now =>
      rw [Host.step, load]
      cases result : Guard.install crypto format host.store host.history config signatureHex false
          now with
      | error error => exact ⟨told, Or.inl rfl⟩
      | ok next => exact ⟨(kept result).1, Or.inr (kept result).2⟩
  | attemptUpdate config signatureHex requestedBy now =>
      rw [Host.step, attemptUpdate]
      cases result : Guard.install crypto format host.store host.history config signatureHex false
          now with
      | error error => exact ⟨told, Or.inl rfl⟩
      | ok next => exact ⟨(kept result).1, Or.inr (kept result).2⟩
  | rotateAuthority record signatureHex =>
      refine ⟨⟨told.intact, told.recorded, ?_⟩, Or.inl rfl⟩
      intro cfg stored
      exact told.live cfg ((rotateAuthority_cfg host.store record signatureHex).symm.trans stored)
  | restart authority =>
      refine ⟨⟨told.intact, told.recorded, ?_⟩, Or.inl rfl⟩
      intro cfg stored
      cases stored

theorem loosenStep {host : Host φ} (told : Told crypto format host) (quoted : String → String)
    (call : LooseningCall φ) :
    Told crypto format (host.loosenStep crypto format quoted call) ∧
      ((host.loosenStep crypto format quoted call).installed = host.installed ∨
        ∃ cfg, (host.loosenStep crypto format quoted call).installed = host.installed ++ [cfg] ∧
          ∀ last, host.installed.getLast? = some last → last.version ≤ cfg.version ∧
            (admitted format cfg.bounds ⊆ admitted format last.bounds ∨
              Declared crypto format quoted host (host.loosenStep crypto format quoted call) last
                cfg call)) := by
  cases call with
  | call call =>
      obtain ⟨next, unchanged | ⟨cfg, grown, tightens⟩⟩ := told.step call
      · exact ⟨next, Or.inl unchanged⟩
      · refine ⟨next, Or.inr ⟨cfg, grown, ?_⟩⟩
        intro last latest
        exact ⟨(tightens last latest).version, Or.inl (tightens last latest).within⟩
  | installLoosening config signatureHex record recordSignatureHex requestedBy now =>
      rw [Host.loosenStep]
      cases result : Guard.installLoosening crypto format quoted host.store host.history config
          signatureHex record recordSignatureHex requestedBy now with
      | error error => exact ⟨told, Or.inl rfl⟩
      | ok next =>
          obtain ⟨installed, changes, cfg, stored, signed, diffed, checked, vetted, rfl⟩ :=
            installLoosening_ok result
          refine ⟨told.append rfl, Or.inr ⟨cfg, rfl, ?_⟩⟩
          intro last latest
          have same := Option.some.inj ((told.live installed stored).symm.trans latest)
          have bounds : cfg.bounds = config.bounds.getD [] :=
            congrArg VerifiedGuardConfig.bounds (vetInstall_ok vetted).1
          subst same
          refine ⟨(vetInstall_version vetted stored).le, Or.inr ⟨signed, ?_, rfl⟩⟩
          rw [bounds]
          exact checkRecord_ok diffed checked

end Told

end Host

/-- In every run of loads, updates, loosenings, rotations and restarts, a configuration that
lets through more than the one installed before it came with a record which the authority of
that time signed: it names just the harm classes in which more is let through, with their
bounds before and after. -/
theorem loosening_declared (crypto : Crypto) (format : FloatFormat φ) (quoted : String → String)
    (authority : Bytes) (front : List (LooseningCall φ)) (call : LooseningCall φ)
    (before after : Host φ)
    (reached : before = Run.run (Host.loosenStep crypto format quoted)
      ⟨freshStore authority, [], []⟩ front)
    (called : after = before.loosenStep crypto format quoted call)
    (last cfg : VerifiedGuardConfig φ) (latest : before.installed.getLast? = some last)
    (grown : after.installed = before.installed ++ [cfg]) :
    last.version ≤ cfg.version ∧
      (admitted format cfg.bounds ⊆ admitted format last.bounds ∨
        Host.Declared crypto format quoted before after last cfg call) := by
  have fresh : Host.Told crypto format (⟨freshStore authority, [], []⟩ : Host φ) :=
    ⟨trivial, rfl, fun _ stored => nomatch stored⟩
  have told : Host.Told crypto format before := by
    rw [reached]
    exact Run.kept_run (Host.loosenStep crypto format quoted) (Host.Told crypto format)
      (fun host call holds => (holds.loosenStep quoted call).1) _ front fresh
  subst called
  obtain ⟨-, unchanged | ⟨added, grown', declared⟩⟩ := told.loosenStep quoted call
  · rw [unchanged, List.self_eq_append_right] at grown
    cases grown
  · rw [grown', List.append_cancel_left_eq, List.cons.injEq] at grown
    obtain ⟨rfl, -⟩ := grown
    exact declared last latest

/-! A bound of five is raised to seven. -/

namespace Sample

open Gyza.Sample (crypto compositor guardConfig)

def quoted (text : String) : String := "'" ++ text ++ "'"

def tight : GuardConfig Int := guardConfig 1 [("H1", some (.int 5))]

def loose : GuardConfig Int := guardConfig 2 [("H1", some (.int 7))]

def record : LooseningRecord Int :=
  ⟨[⟨"H1", some (.int 5), some (.int 7)⟩], "quarterly review"⟩

def loadTight : LooseningCall Int :=
  .call (.load tight (signConfig crypto PyNumber.wholeFormat (compositor 7) tight) 0)

def raiseBound : LooseningCall Int :=
  .installLoosening loose (signConfig crypto PyNumber.wholeFormat (compositor 7) loose) record
    (signLoosening crypto PyNumber.wholeFormat (compositor 7) record) "operator" 1

def before : Host Int :=
  Run.run (Host.loosenStep crypto PyNumber.wholeFormat quoted)
    ⟨freshStore (compositor 7).publicBytes, [], []⟩ [loadTight]

def after : Host Int := before.loosenStep crypto PyNumber.wholeFormat quoted raiseBound

theorem before_version : before.installed.map VerifiedGuardConfig.version = [1] := by
  decide +kernel

theorem after_version : after.installed.map VerifiedGuardConfig.version = [1, 2] := by
  decide +kernel

theorem raised : ∃ last cfg, before.installed.getLast? = some last ∧
    after.installed = before.installed ++ [cfg] := by
  have fresh : Host.Told crypto PyNumber.wholeFormat
      (⟨freshStore (compositor 7).publicBytes, [], []⟩ : Host Int) :=
    ⟨trivial, rfl, fun _ stored => nomatch stored⟩
  have told : Host.Told crypto PyNumber.wholeFormat before := by
    rw [before, Run.run_cons, Run.run_nil]
    exact (fresh.loosenStep quoted loadTight).1
  have first := before_version
  have both := after_version
  obtain ⟨-, unchanged | ⟨cfg, grown, -⟩⟩ := told.loosenStep quoted raiseBound
  · rw [after, unchanged, first] at both
    simp at both
  · obtain ⟨last, single⟩ : ∃ last, before.installed = [last] :=
      List.length_eq_one_iff.mp (by rw [← List.length_map, first]; rfl)
    exact ⟨last, cfg, by rw [single]; rfl, grown⟩

end Sample

theorem loosening_declared_sample : ∃ last cfg,
    last.version ≤ cfg.version ∧
      (admitted PyNumber.wholeFormat cfg.bounds ⊆ admitted PyNumber.wholeFormat last.bounds ∨
        Host.Declared Gyza.Sample.crypto PyNumber.wholeFormat Sample.quoted Sample.before
          Sample.after last cfg Sample.raiseBound) := by
  obtain ⟨last, cfg, latest, grown⟩ := Sample.raised
  have reached : Sample.before = Run.run
      (Host.loosenStep Gyza.Sample.crypto PyNumber.wholeFormat Sample.quoted)
      ⟨freshStore (Gyza.Sample.compositor 7).publicBytes, [], []⟩ [Sample.loadTight] := by
    simp only [Sample.before]
  have called : Sample.after = Sample.before.loosenStep Gyza.Sample.crypto PyNumber.wholeFormat
      Sample.quoted Sample.raiseBound := by
    simp only [Sample.after]
  exact ⟨last, cfg, loosening_declared Gyza.Sample.crypto PyNumber.wholeFormat Sample.quoted
    (Gyza.Sample.compositor 7).publicBytes [Sample.loadTight] Sample.raiseBound Sample.before
    Sample.after reached called last cfg latest grown⟩

end Guard

end Gyza
