import ClusterReadiness.Config.Load
import ClusterReadiness.Proofs.Config.Fields
import Mathlib.Data.List.TakeWhile
import Mathlib.Tactic.Common

/-!
# Accepted configurations

Loading ends in a configuration, in a configuration error, or in bytes that are no text. A
configuration that is accepted has valid policies and valid topics of its own, since their
constructors check them. The counts that bare names share are kept unchecked, though: they are
looked at when the specs are made, and only if some name is not blank. So an accepted configuration
can be bootstrapped exactly if all bare names are blank or both counts are positive.
-/

namespace ClusterReadiness

namespace Text

theorem trimBlanks_eq_nil_iff {cs : List Char} :
    trimBlanks cs = [] ↔ ∀ c ∈ cs, isBlank c = true := by
  rw [trimBlanks, List.reverse_eq_nil_iff, List.dropWhile_eq_nil_iff]
  constructor
  · intro blank
    by_contra h
    have kept : cs.dropWhile isBlank ≠ [] := fun gone => h (List.dropWhile_eq_nil_iff.mp gone)
    have first := List.head_dropWhile_not isBlank kept
    exact absurd (blank _ (List.mem_reverse.mpr (List.head_mem kept))) (by simp [first])
  · intro blank c hc
    exact blank c ((List.dropWhile_suffix isBlank).subset (List.mem_reverse.mp hc))

theorem allBlank_iff_trim_eq {s : String} : AllBlank s ↔ trim s = "" := by
  rw [AllBlank, ← trimBlanks_eq_nil_iff, trim, String.ofList_eq_empty_iff]

/-- What trimming leaves of a text ends in a character that is not blank. -/
theorem not_allBlank_trim {s : String} (kept : trim s ≠ "") : ¬ AllBlank (trim s) := by
  have left : (s.toList.dropWhile isBlank).reverse.dropWhile isBlank ≠ [] := by
    simpa [trim, trimBlanks] using kept
  have last : ((s.toList.dropWhile isBlank).reverse.dropWhile isBlank).head left ∈
      (trim s).toList := by
    rw [trim, String.toList_ofList, trimBlanks, List.mem_reverse]
    exact List.head_mem left
  intro blank
  exact absurd (blank _ last) (by simp [List.head_dropWhile_not isBlank left])

end Text

namespace TopicSpec

variable {name : String} {partitions replication : Int}

/-- Of a declaration whose name is not blank only the counts are in question, the partitions first. -/
theorem make_eq_error_iff (named : ¬ Text.AllBlank name) {defect : Defect} :
    make name partitions replication = .error defect ↔
      partitions < 1 ∧ defect = .partitionCount (.int partitions) ∨
      1 ≤ partitions ∧ replication < 1 ∧ defect = .replicationFactor (.int replication) := by
  rw [make, dif_neg named]
  by_cases hp : 1 ≤ partitions
  · by_cases hr : 1 ≤ replication
    · simp [hp, hr, Int.not_lt.mpr]
    · simp [hp, hr, Int.not_lt.mpr, Int.not_le.mp hr, eq_comm]
  · simp [hp, Int.not_le.mp hp, eq_comm]

theorem exists_make_eq_ok_iff (named : ¬ Text.AllBlank name) :
    (∃ spec, make name partitions replication = .ok spec) ↔ 1 ≤ partitions ∧ 1 ≤ replication := by
  rw [make, dif_neg named]
  by_cases hp : 1 ≤ partitions
  · by_cases hr : 1 ≤ replication <;> simp [hp, hr]
  · simp [hp]

end TopicSpec

section Traversal

variable {α β ε : Type} {f : α → Except ε β}

theorem exists_map_eq_ok_iff {result : Except ε α} {g : α → β} :
    (∃ value, result.map g = .ok value) ↔ ∃ value, result = .ok value := by
  cases result <;> simp [Except.map]

theorem map_eq_error_iff {result : Except ε α} {g : α → β} {e : ε} :
    result.map g = .error e ↔ result = .error e := by
  cases result <;> simp [Except.map]

theorem exists_mapM_eq_ok_iff {items : List α} :
    (∃ values, items.mapM f = .ok values) ↔ ∀ item ∈ items, ∃ value, f item = .ok value := by
  induction items with
  | nil => simp [pure, Except.pure]
  | cons item rest ih =>
    rw [List.forall_mem_cons, ← ih, List.mapM_cons]
    cases f item with
    | error e => simp [bind, Except.bind]
    | ok value => cases rest.mapM f <;> simp [bind, Except.bind, pure, Except.pure]

/-- A traversal fails in what one of the items fails in. -/
theorem exists_of_mapM_eq_error {items : List α} {e : ε} (failed : items.mapM f = .error e) :
    ∃ item ∈ items, f item = .error e := by
  induction items with
  | nil => cases failed
  | cons item rest ih =>
    rw [List.mapM_cons] at failed
    cases first : f item with
    | error e' =>
      simp only [first, bind, Except.bind, Except.error.injEq] at failed
      exact ⟨item, List.mem_cons_self, by rw [first, failed]⟩
    | ok value =>
      cases later : rest.mapM f with
      | error e' =>
        simp only [first, later, bind, Except.bind, Except.error.injEq] at failed
        obtain ⟨item', hitem', h⟩ := ih (by rw [later, failed])
        exact ⟨item', List.mem_cons_of_mem _ hitem', h⟩
      | ok values => simp [first, later, bind, Except.bind, pure, Except.pure] at failed

end Traversal

namespace Config

variable {config : Config}

theorem not_allBlank_of_shared {name : String} (shared : name ∈ config.sharedNames) :
    ¬ Text.AllBlank name := by
  obtain ⟨hname, kept⟩ := List.mem_filter.mp shared
  obtain ⟨text, -, rfl⟩ := List.mem_map.mp hname
  exact Text.not_allBlank_trim (by simpa using kept)

theorem sharedNames_eq_nil_iff :
    config.sharedNames = [] ↔ ∀ name ∈ config.topicNames, Text.AllBlank name := by
  simp [sharedNames, List.filter_eq_nil_iff, Text.allBlank_iff_trim_eq]

theorem topicSpecs_eq : config.topicSpecs =
    (config.sharedNames.mapM fun name =>
      TopicSpec.make name config.partitions config.replication).map
        fun shared => (config.topics ++ shared).foldl merge [] := by
  rw [topicSpecs]
  cases config.sharedNames.mapM fun name =>
    TopicSpec.make name config.partitions config.replication <;> rfl

/-- The specs can be made iff no bare name needs the shared counts, or they are positive. -/
theorem exists_topicSpecs_eq_ok_iff : (∃ specs, config.topicSpecs = .ok specs) ↔
    (∀ name ∈ config.topicNames, Text.AllBlank name) ∨
      1 ≤ config.partitions ∧ 1 ≤ config.replication := by
  have made : (∃ specs, config.topicSpecs = .ok specs) ↔
      ∀ name ∈ config.sharedNames, 1 ≤ config.partitions ∧ 1 ≤ config.replication := by
    rw [topicSpecs_eq, exists_map_eq_ok_iff, exists_mapM_eq_ok_iff]
    exact forall₂_congr fun name shared =>
      TopicSpec.exists_make_eq_ok_iff (not_allBlank_of_shared shared)
  rw [made, ← sharedNames_eq_nil_iff]
  cases config.sharedNames with
  | nil => simp
  | cons name rest =>
    simp only [List.forall_mem_cons, reduceCtorEq, false_or, and_iff_left_iff_imp]
    exact fun positive _ _ => positive

/-- Specs that cannot be made are refused for one of the shared counts, the partitions first. -/
theorem counts_of_topicSpecs_eq_error {defect : Defect}
    (refused : config.topicSpecs = .error defect) :
    config.partitions < 1 ∧ defect = .partitionCount (.int config.partitions) ∨
      1 ≤ config.partitions ∧ config.replication < 1 ∧
        defect = .replicationFactor (.int config.replication) := by
  rw [topicSpecs_eq, map_eq_error_iff] at refused
  obtain ⟨name, shared, h⟩ := exists_of_mapM_eq_error refused
  exact (TopicSpec.make_eq_error_iff (not_allBlank_of_shared shared)).mp h

/-- What a configuration promises whoever boots with it: valid specs and a valid wait policy. -/
structure Bootable (config : Config) : Prop where
  topics : ∃ specs, config.topicSpecs = .ok specs ∧
    ∀ spec ∈ specs, ¬ Text.AllBlank spec.name ∧ 1 ≤ spec.partitions ∧ 1 ≤ spec.replication
  wait : WaitPolicy.make config.waitPolicy.interval config.waitPolicy.multiplier
    config.waitPolicy.maxAttempts = .ok config.waitPolicy

theorem bootable_iff : config.Bootable ↔ (∀ name ∈ config.topicNames, Text.AllBlank name) ∨
    1 ≤ config.partitions ∧ 1 ≤ config.replication := by
  rw [← exists_topicSpecs_eq_ok_iff]
  constructor
  · rintro ⟨⟨specs, made, -⟩, -⟩
    exact ⟨specs, made⟩
  · rintro ⟨specs, made⟩
    refine ⟨⟨specs, made, fun spec _ => ⟨spec.named, spec.partitions_pos, spec.replication_pos⟩⟩, ?_⟩
    simp [WaitPolicy.make, config.waitPolicy.interval_pos, config.waitPolicy.growing,
      config.waitPolicy.attempts_pos]

end Config

/-- What a file gives, and without one nothing. -/
def ConfigFile.given (file : Option ConfigFile) : Result Table :=
  (file.map ConfigFile.table).getD (.ok [])

/-- A file without a table is at fault as a configuration, or its bytes are no text. -/
theorem ConfigFile.fault_of_given {file : Option ConfigFile} {failure : Failure}
    (failed : ConfigFile.given file = .error failure) :
    (∃ text, failure.fault = .configuration text) ∨
      ∃ file' bytes undecodable, file = some file' ∧ file'.content = .ok bytes ∧
        Text.decodeUtf8 bytes = .error undecodable ∧
        failure.fault = .undecodable undecodable.message := by
  cases file with
  | none => cases failed
  | some file =>
    replace failed : file.table = .error failure := failed
    rw [table] at failed
    cases read : file.content with
    | error reason =>
      simp only [read, Except.error.injEq] at failed
      subst failed
      exact .inl ⟨_, rfl⟩
    | ok bytes =>
      cases decoded : Text.decodeUtf8 bytes with
      | error undecodable =>
        simp only [read, decoded, Except.error.injEq] at failed
        subst failed
        exact .inr ⟨file, bytes, undecodable, rfl, read, decoded, rfl⟩
      | ok text =>
        cases parsed : Toml.parse text with
        | none =>
          simp only [read, decoded, parsed, Except.error.injEq] at failed
          subst failed
          exact .inl ⟨_, rfl⟩
        | some table => simp [read, decoded, parsed] at failed

namespace Config

theorem resolve_eq_ok_iff {table : Table} {environment : Environment} {config : Config} :
    resolve table environment = .ok config ↔
      reader.read (.object (table.update environment.overrides)) = .ok config := by
  rw [resolve]
  cases reader.read (.object (table.update environment.overrides)) <;> simp

theorem resolve_eq_error_iff {table : Table} {environment : Environment} {failure : Failure} :
    resolve table environment = .error failure ↔ ∃ refusal,
      reader.read (.object (table.update environment.overrides)) = .error refusal ∧
      .because (.configuration ("invalid configuration: " ++ refusal.message)) refusal.failure =
        failure := by
  rw [resolve]
  cases reader.read (.object (table.update environment.overrides)) <;> simp

/-- What is noted on the way changes nothing about the outcome. -/
theorem run_load {σ : Type} (record : Level → String → StateM σ Unit) (file : Option ConfigFile)
    (environment : Environment) (log : σ) :
    ((load record file environment).run log).1 =
      (ConfigFile.given file).bind fun table => resolve table environment := by
  rw [load, ConfigFile.given]
  cases (file.map ConfigFile.table).getD (.ok []) with
  | error failure => rfl
  | ok table =>
    cases noted : environment.overrides.isEmpty
    · simp only [Bool.not_false, if_true, StateT.run_bind]
      rfl
    · simp only [Bool.not_true]
      rfl

/-- Loading ends in a configuration error, in bytes that are no text, or in a configuration, and no
table fails to load unless its fields are refused. A configuration can be bootstrapped iff none of
its bare names needs the shared counts or they are positive; otherwise its specs are refused for a
count, which is the one that the fields give. -/
theorem load_bootable_iff {σ : Type} (record : Level → String → StateM σ Unit)
    (file : Option ConfigFile) (environment : Environment) (log : σ) :
    match ((load record file environment).run log).1 with
    | .error failure =>
      ((∃ text, failure.fault = .configuration text) ∨
        ∃ file' bytes undecodable, file = some file' ∧ file'.content = .ok bytes ∧
          Text.decodeUtf8 bytes = .error undecodable ∧
          failure.fault = .undecodable undecodable.message) ∧
      ∀ table, ConfigFile.given file = .ok table → ∃ refusal,
        reader.read (.object (table.update environment.overrides)) = .error refusal
    | .ok config =>
      (∃ table, ConfigFile.given file = .ok table ∧
        reader.read (.object (table.update environment.overrides)) = .ok config ∧
        config.Shares (table.update environment.overrides)) ∧
      (config.Bootable ↔ (∀ name ∈ config.topicNames, Text.AllBlank name) ∨
        1 ≤ config.partitions ∧ 1 ≤ config.replication) ∧
      (config.Bootable ∨
        config.partitions < 1 ∧
          config.topicSpecs = .error (.partitionCount (.int config.partitions)) ∨
        1 ≤ config.partitions ∧ config.replication < 1 ∧
          config.topicSpecs = .error (.replicationFactor (.int config.replication))) := by
  rw [run_load]
  cases given : ConfigFile.given file with
  | error failure => exact ⟨ConfigFile.fault_of_given given, nofun⟩
  | ok table =>
    cases resolved : resolve table environment with
    | error failure =>
      simp only [Except.bind, resolved]
      obtain ⟨refusal, refused, rfl⟩ := resolve_eq_error_iff.mp resolved
      refine ⟨.inl ⟨_, rfl⟩, ?_⟩
      rintro _ ⟨⟩
      exact ⟨refusal, refused⟩
    | ok config =>
      simp only [Except.bind, resolved]
      have read := resolve_eq_ok_iff.mp resolved
      refine ⟨⟨table, rfl, read, shares_of_read read⟩, bootable_iff, ?_⟩
      cases made : config.topicSpecs with
      | ok specs => exact .inl (bootable_iff.mpr (exists_topicSpecs_eq_ok_iff.mp ⟨specs, made⟩))
      | error defect =>
        rcases counts_of_topicSpecs_eq_error made with ⟨h, rfl⟩ | ⟨h, h', rfl⟩
        · exact .inr (.inl ⟨h, rfl⟩)
        · exact .inr (.inr ⟨h, h', rfl⟩)

/-- One bare name and no partitions for it: the file is accepted, and then has no specs. -/
theorem load_keeps_bad_count :
    ∃ (bytes : List UInt8) (config : Config),
      bytes = "topic_names = [\"orders\"]\nnum_of_partitions = 0\n".toList.map
        (fun c => UInt8.ofNat c.toNat) ∧
      (StateT.run (m := Id) (load (fun level text => modify (Log.record · level text))
        (some ⟨"kbootstrap.toml", .ok bytes⟩) []) Log.keepingAll).1 = .ok config ∧
      config.topicSpecs = .error (.partitionCount (.int 0)) ∧ ¬ config.Bootable := by
  refine ⟨_, { default with topicNames := ["orders"], partitions := 0 }, rfl, by decide +kernel,
    by decide +kernel, ?_⟩
  rw [bootable_iff]
  decide +kernel

end Config

end ClusterReadiness
