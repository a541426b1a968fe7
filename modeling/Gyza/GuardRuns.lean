import Gyza.GuardConfig

/-! Runs of one guard host: loads, updates, key rotations and restarts on one
history file. A restart pins the next store to any key. -/

namespace Gyza

open CanonJson (Doc)
open Hex (Bytes utf8)
open PyNumber (FloatFormat Number)

namespace Guard

variable {φ : Type}

/-- The harm classes and levels a configuration lets through. -/
def admitted (format : FloatFormat φ) (bounds : Bounds φ) : Set (String × ℚ) :=
  { measured | ∃ bound, boundOf bounds measured.1 = some bound ∧
    ∃ top, floatOf format bound = .ok top ∧ measured.2 ≤ top }

/-- The version does not fall and nothing more is let through. -/
structure Tightens (format : FloatFormat φ) (earlier later : VerifiedGuardConfig φ) : Prop where
  version : earlier.version ≤ later.version
  within : admitted format later.bounds ⊆ admitted format earlier.bounds

theorem Tightens.trans {format : FloatFormat φ} {first second third : VerifiedGuardConfig φ}
    (left : Tightens format first second) (right : Tightens format second third) :
    Tightens format first third :=
  ⟨left.version.trans right.version, right.within.trans left.within⟩

/-! `diff_bounds` against the admitted sets. -/

section Bounds

variable {format : FloatFormat φ}

theorem mem_boundIds {old new : Bounds φ} {key : String} {bound : Number φ}
    (bounded : boundOf new key = some bound) : key ∈ boundIds old new := by
  rcases List.lookup_eq_some_iff.mp (Option.join_eq_some_iff.mp bounded) with
    ⟨before, after, split, _⟩
  simp only [boundIds, List.mem_insertionSort, List.mem_dedup, List.map_append, List.mem_append,
    List.mem_map]
  exact Or.inr ⟨(key, some bound), by simp [split], rfl⟩

theorem changesOf_ok {old new : Bounds φ} {keys : List String} {changes : List BoundChange}
    (diffed : changesOf format old new keys = .ok changes) (key : String) (member : key ∈ keys) :
    ∃ change, boundChange format key (boundOf old key) (boundOf new key) = .ok change ∧
      change ⊆ changes := by
  induction keys generalizing changes with
  | nil => cases member
  | cons first rest ih =>
      rw [changesOf] at diffed
      cases changed : boundChange format first (boundOf old first) (boundOf new first) with
      | error error => simp [changed, bind, Except.bind] at diffed
      | ok change =>
          cases others : changesOf format old new rest with
          | error error => simp [changed, others, bind, Except.bind] at diffed
          | ok tail =>
              simp only [changed, others, bind, Except.bind, pure, Except.pure,
                Except.ok.injEq] at diffed
              subst diffed
              rcases List.mem_cons.mp member with rfl | later
              · exact ⟨change, changed, List.subset_append_left _ _⟩
              · rcases ih others later with ⟨other, changed', within⟩
                exact ⟨other, changed', List.subset_append_of_subset_right _ within⟩

/-- One bound that does not loosen lets nothing more through. -/
theorem boundChange_kept {key : String} {old : Option (Number φ)} {new : Number φ}
    {change : List BoundChange} (changed : boundChange format key old (some new) = .ok change)
    (kept : ∀ item ∈ change, item.direction ≠ .loosened) :
    ∃ o earlier next, old = some o ∧ floatOf format o = .ok earlier ∧
      floatOf format new = .ok next ∧ next ≤ earlier := by
  cases read : floatOf format new with
  | error error =>
      cases old <;> simp [boundChange, read, bind, Except.bind] at changed
  | ok next =>
      cases old with
      | none =>
          simp only [boundChange, read, bind, Except.bind, pure, Except.pure, Except.ok.injEq]
            at changed
          subst changed
          exact absurd rfl (kept _ List.mem_cons_self)
      | some o =>
          cases read' : floatOf format o with
          | error error => simp [boundChange, read, read', bind, Except.bind] at changed
          | ok earlier =>
              simp only [boundChange, read, read', bind, Except.bind, pure, Except.pure,
                Except.ok.injEq] at changed
              subst changed
              have steady := kept _ List.mem_cons_self
              refine ⟨o, earlier, next, rfl, read', rfl, ?_⟩
              by_contra above
              simp [direction, not_le.mp above] at steady

theorem refuseLoosening_ok {old new : Bounds φ}
    (accepted : refuseLoosening format old new = .ok ()) :
    admitted format new ⊆ admitted format old := by
  rw [refuseLoosening] at accepted
  cases diffed : diffBounds format old new with
  | error error => simp [diffed, bind, Except.bind] at accepted
  | ok changes =>
      simp only [diffed, bind, Except.bind] at accepted
      split at accepted
      · rename_i none_loosened
        intro ⟨key, level⟩ ⟨bound, bounded, top, read, below⟩
        rcases changesOf_ok diffed key (mem_boundIds bounded) with ⟨change, changed, within⟩
        rw [bounded] at changed
        have kept : ∀ item ∈ change, item.direction ≠ .loosened := by
          intro item member loosened
          have listed : item ∈ changes.filter (fun change => change.direction = .loosened) := by
            simp [within member, loosened]
          rw [none_loosened] at listed
          cases listed
        rcases boundChange_kept changed kept with ⟨o, earlier, next, bounded', read', readNext, le⟩
        cases read.symm.trans readNext
        exact ⟨o, bounded', earlier, read', below.trans le⟩
      · cases accepted

end Bounds

/-! The history as the store reads it. -/

section History

variable {crypto : Crypto} {format : FloatFormat φ}

/-- Every line names the link of the line before it. -/
abbrev Intact (crypto : Crypto) (format : FloatFormat φ) (history : List (HistoryRecord φ)) : Prop :=
  HashChain.Linked HistoryRecord.prev (link crypto format) "" history

theorem floorFrom_ok_iff (line : Nat) (prev : String) (floor : Int) (recorded : Option (Bounds φ))
    (history : List (HistoryRecord φ)) (result : Int × Option (Bounds φ)) :
    floorFrom crypto format line prev floor recorded history = .ok result ↔
      HashChain.Linked HistoryRecord.prev (link crypto format) prev history ∧
        result = (history.foldl (fun highest rec => max highest rec.version) floor,
          history.foldl (fun _ rec => rec.bounds) recorded) := by
  induction history generalizing line prev floor recorded with
  | nil => simp [floorFrom, HashChain.Linked, eq_comm]
  | cons rec rest ih =>
      by_cases named : rec.prev = prev
      · simp [floorFrom, HashChain.Linked, named, ih]
      · simp [floorFrom, HashChain.Linked, named]

theorem versionFloor_ok_iff (history : List (HistoryRecord φ)) :
    (∃ result, versionFloor crypto format history = .ok result) ↔ Intact crypto format history := by
  constructor
  · intro ⟨result, read⟩
    exact ((floorFrom_ok_iff 1 "" 0 none history result).mp read).1
  · intro intact
    exact ⟨_, (floorFrom_ok_iff 1 "" 0 none history _).mpr ⟨intact, rfl⟩⟩

theorem foldl_max_ge (history : List (HistoryRecord φ)) (floor : Int) :
    floor ≤ history.foldl (fun highest rec => max highest rec.version) floor ∧
      ∀ rec ∈ history, rec.version ≤ history.foldl (fun highest rec => max highest rec.version) floor := by
  induction history generalizing floor with
  | nil => simp
  | cons first rest ih =>
      rcases ih (max floor first.version) with ⟨start, others⟩
      refine ⟨(le_max_left _ _).trans start, ?_⟩
      intro rec member
      rcases List.mem_cons.mp member with rfl | later
      · exact (le_max_right _ _).trans start
      · exact others rec later

/-- What a cold store learns from an intact history with lines in it. -/
theorem versionFloor_append {history : List (HistoryRecord φ)} {last : HistoryRecord φ}
    {floor : Int} {recorded : Option (Bounds φ)}
    (read : versionFloor crypto format (history ++ [last]) = .ok (floor, recorded)) :
    (∀ rec ∈ history ++ [last], rec.version ≤ floor) ∧ recorded = last.bounds := by
  rcases (floorFrom_ok_iff 1 "" 0 none _ _).mp read with ⟨_, result⟩
  rw [Prod.mk.injEq] at result
  refine ⟨?_, by simpa using result.2⟩
  intro rec member
  rw [result.1]
  exact (foldl_max_ge _ 0).2 rec member

end History

/-! The host. -/

/-- The live store, the history file, and every configuration installed so far. -/
structure Host (φ : Type) where
  store : GuardConfigStore φ
  history : List (HistoryRecord φ) := []
  installed : List (VerifiedGuardConfig φ) := []

inductive Call (φ : Type) where
  | load (config : GuardConfig φ) (signatureHex : String) (now : Int)
  | attemptUpdate (config : GuardConfig φ) (signatureHex requestedBy : String) (now : Int)
  | rotateAuthority (record : KeySuccession) (signatureHex : String)
  | restart (authority : Bytes)

namespace Host

/-- A call that raises leaves the store and the file as they were. -/
def keep (host : Host φ) :
    Except GuardError (GuardConfigStore φ × List (HistoryRecord φ) × VerifiedGuardConfig φ) → Host φ
  | .ok (store, history, cfg) => ⟨store, history, host.installed ++ [cfg]⟩
  | .error _ => host

def step (crypto : Crypto) (format : FloatFormat φ) (host : Host φ) : Call φ → Host φ
  | .load config signatureHex now =>
      host.keep (load crypto format host.store host.history config signatureHex now)
  | .attemptUpdate config signatureHex requestedBy now =>
      host.keep (attemptUpdate crypto format host.store host.history config signatureHex requestedBy
        now)
  | .rotateAuthority record signatureHex =>
      { host with store := (rotateAuthority crypto format host.store record signatureHex).1 }
  | .restart authority => { host with store := freshStore authority }

/-- The history tells of every install, in order, and the live store of the last. -/
structure Faithful (crypto : Crypto) (format : FloatFormat φ) (host : Host φ) : Prop where
  intact : Intact crypto format host.history
  recorded : host.history.map (fun rec => (rec.version, rec.bounds)) =
    host.installed.map (fun cfg => (cfg.version, some cfg.bounds))
  live : ∀ cfg, host.store.cfg = some cfg → host.installed.getLast? = some cfg
  tightening : host.installed.Pairwise (Tightens format)

variable {crypto : Crypto} {format : FloatFormat φ}

theorem Faithful.last_record {host : Host φ} (faithful : Faithful crypto format host)
    {earlier : List (VerifiedGuardConfig φ)} {last : VerifiedGuardConfig φ}
    (split : host.installed = earlier ++ [last]) :
    ∃ lines rec, host.history = lines ++ [rec] ∧ rec.version = last.version ∧
      rec.bounds = some last.bounds := by
  have recorded := faithful.recorded
  rw [split, List.map_append, List.map_singleton] at recorded
  rcases List.map_eq_append_iff.mp recorded with ⟨lines, tail, same, _, single⟩
  rcases List.map_eq_singleton_iff.mp single with ⟨rec, rfl, values⟩
  exact ⟨lines, rec, same, congrArg Prod.fst values, congrArg Prod.snd values⟩

/-- What `vetInstall` lets through tightens the last install. -/
theorem Faithful.vetInstall_tightens {host : Host φ} (faithful : Faithful crypto format host)
    {config : GuardConfig φ} {signatureHex : String} {cfg last : VerifiedGuardConfig φ}
    (vetted : vetInstall crypto format host.store host.history config signatureHex false = .ok cfg)
    {earlier : List (VerifiedGuardConfig φ)} (split : host.installed = earlier ++ [last]) :
    Tightens format last cfg := by
  rcases faithful.last_record split with ⟨lines, rec, history, version, bounds⟩
  rw [vetInstall] at vetted
  split at vetted
  · cases vetted
  · cases read : versionFloor crypto format host.history with
    | error error => simp [read, bind, Except.bind] at vetted
    | ok result =>
        rcases result with ⟨floor, recorded⟩
        cases stored : host.store.cfg with
        | none =>
            rw [history] at read
            rcases versionFloor_append read with ⟨highest, rfl⟩
            have floored := highest rec (by simp)
            rw [← history] at read
            simp only [read, stored, coldChecks, bounds, bind, Except.bind, pure, Except.pure,
              Bool.false_eq_true, if_false] at vetted
            split at vetted
            · cases vetted
            · rename_i checked
              cases vetted
              split_ifs at checked with below
              exact ⟨by omega, refuseLoosening_ok checked⟩
        | some installed =>
            have same := faithful.live installed stored
            rw [split, List.getLast?_append, List.getLast?_singleton, Option.some_or,
              Option.some.injEq] at same
            subst same
            simp only [read, stored, warmChecks, bind, Except.bind, pure, Except.pure,
              Bool.false_eq_true, if_false] at vetted
            split at vetted
            · cases vetted
            · rename_i checked
              cases vetted
              split_ifs at checked with below
              exact ⟨by omega, refuseLoosening_ok checked⟩

theorem Faithful.install {host : Host φ} (faithful : Faithful crypto format host)
    {config : GuardConfig φ} {signatureHex : String} {now : Int}
    {result : GuardConfigStore φ × List (HistoryRecord φ) × VerifiedGuardConfig φ}
    (installed : install crypto format host.store host.history config signatureHex false now =
      .ok result) : Faithful crypto format (host.keep (.ok result)) := by
  rw [Guard.install] at installed
  cases vetted : vetInstall crypto format host.store host.history config signatureHex false with
  | error error => simp [vetted, bind, Except.bind] at installed
  | ok cfg =>
      simp only [vetted, bind, Except.bind, pure, Except.pure, Except.ok.injEq] at installed
      subst installed
      refine ⟨?_, ?_, ?_, ?_⟩
      · exact (HashChain.linked_append "" host.history _).mpr ⟨faithful.intact, rfl⟩
      · simp only [keep, List.map_append, faithful.recorded, List.map_singleton, installRecord]
      · intro live stored
        simp only [keep, Option.some.injEq] at stored ⊢
        simp [stored]
      · rw [keep, List.pairwise_append]
        refine ⟨faithful.tightening, List.pairwise_singleton _ _, ?_⟩
        intro earlier member next single
        rcases List.mem_singleton.mp single with rfl
        rcases host.installed.eq_nil_or_concat with empty | ⟨init, last, split⟩
        · rw [empty] at member
          cases member
        · rw [List.concat_eq_append] at split
          have step := faithful.vetInstall_tightens vetted split
          have sorted := faithful.tightening
          rw [split, List.pairwise_append] at sorted
          rw [split] at member
          rcases List.mem_append.mp member with before | single
          · exact (sorted.2.2 earlier before last (by simp)).trans step
          · rcases List.mem_singleton.mp single with rfl
            exact step

theorem Faithful.step {host : Host φ} (faithful : Faithful crypto format host) (call : Call φ) :
    Faithful crypto format (host.step crypto format call) := by
  cases call with
  | load config signatureHex now =>
      rw [Host.step, load]
      cases result : Guard.install crypto format host.store host.history config signatureHex false
          now with
      | error error => exact faithful
      | ok next => exact faithful.install result
  | attemptUpdate config signatureHex requestedBy now =>
      rw [Host.step, attemptUpdate]
      cases result : Guard.install crypto format host.store host.history config signatureHex false
          now with
      | error error => exact faithful
      | ok next => exact faithful.install result
  | rotateAuthority record signatureHex =>
      have kept : (rotateAuthority crypto format host.store record signatureHex).1.cfg =
          host.store.cfg := by
        unfold rotateAuthority
        split_ifs
        · rfl
        · rfl
        · rfl
        · split <;> rfl
      refine ⟨faithful.intact, faithful.recorded, ?_, faithful.tightening⟩
      intro cfg stored
      exact faithful.live cfg (kept ▸ stored)
  | restart authority =>
      refine ⟨faithful.intact, faithful.recorded, ?_, faithful.tightening⟩
      intro cfg stored
      cases stored

end Host

/-- Whatever is loaded, updated, rotated or restarted, each configuration lets
through no more than those installed before it, and its version is not lower. -/
theorem installs_tighten (crypto : Crypto) (format : FloatFormat φ) (authority : Bytes)
    (calls : List (Call φ)) :
    (Run.run (Host.step crypto format) ⟨freshStore authority, [], []⟩ calls).installed.Pairwise
      (fun earlier later => earlier.version ≤ later.version ∧
        admitted format later.bounds ⊆ admitted format earlier.bounds) := by
  have fresh : Host.Faithful crypto format (⟨freshStore authority, [], []⟩ : Host φ) :=
    ⟨trivial, rfl, (fun _ stored => nomatch stored), List.Pairwise.nil⟩
  have faithful := Run.kept_run (Host.step crypto format) (Host.Faithful crypto format)
    (fun host call holds => holds.step call) _ calls fresh
  exact faithful.tightening.imp (fun tighter => ⟨tighter.version, tighter.within⟩)

end Guard

end Gyza
