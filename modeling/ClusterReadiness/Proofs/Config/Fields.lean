import ClusterReadiness.Document.Declaration
import Mathlib.Tactic.Common

/-!
# Fields of declarations that were read

What is known of a declaration is changed by one field at a time. A view of it that only the field
of one name changes therefore holds, in the end, what the last document under this name reads, or
what was known before if there is none.
-/

namespace ClusterReadiness

/-- What an object gives for a name, the last of several documents. -/
def Table.last? (table : Table) (name : String) : Option Document := table.reverse.lookup name

theorem Table.last?_cons {table : Table} {name other : String} {document : Document} :
    Table.last? ((other, document) :: table) name =
      (Table.last? table name).or (if other = name then some document else none) := by
  rw [Table.last?, List.reverse_cons, List.lookup_append, Table.last?]
  by_cases same : other = name
  · simp [same]
  · have : (name == other) = false := by simpa using Ne.symm same
    simp [same, List.lookup_cons, this]

namespace Reader

variable {α β σ : Type} {name : String} {reader : Reader β} {view : σ → β}

@[simp] theorem field_name {reader : Reader α} {set : σ → α → σ} :
    (field name reader set).name = name := rfl

theorem store_field_eq_ok_iff {reader : Reader α} {set : σ → α → σ} {document : Document}
    {known known' : σ} : (field name reader set).store document known = .ok known' ↔
      ∃ value, reader.read document = .ok value ∧ set known value = known' := by
  simp only [field]
  cases reader.read document with
  | error refusal => simp [within, Except.mapError, Except.map]
  | ok value => simp [within, Except.mapError, Except.map]

/-- An entry that is read either has no meaning or is stored in the field of its name. -/
theorem readFields_cons_eq_ok {fields : List (Field σ)} {document : Document} {rest : Table}
    {known known' : σ} (read : readFields fields ((name, document) :: rest) known = .ok known') :
    name ∉ fields.map Field.name ∧ readFields fields rest known = .ok known' ∨
      ∃ field ∈ fields, ∃ between, field.name = name ∧ field.store document known = .ok between ∧
        readFields fields rest between = .ok known' := by
  rw [readFields] at read
  cases found : fields.find? (·.name == name) with
  | none =>
    rw [found] at read
    refine .inl ⟨?_, read⟩
    simpa using List.find?_eq_none.mp found
  | some field =>
    rw [found] at read
    cases stored : field.store document known with
    | error refusal => simp [stored, bind, Except.bind] at read
    | ok between =>
      refine .inr ⟨field, List.mem_of_find?_eq_some found, between, ?_, stored, ?_⟩
      · simpa using List.find?_some found
      · simpa [stored, bind, Except.bind] using read

/-- The field changes the view only if it has the given name, and then to the value it reads. -/
def Field.Respects (name : String) (reader : Reader β) (view : σ → β) (field : Field σ) : Prop :=
  ∀ document known known', field.store document known = .ok known' →
    if field.name = name then reader.read document = .ok (view known')
    else view known' = view known

theorem respects_own {set : σ → β → σ} (shows : ∀ known value, view (set known value) = value) :
    (field name reader set).Respects name reader view := by
  intro document known known' stored
  obtain ⟨value, read, rfl⟩ := store_field_eq_ok_iff.mp stored
  simp [shows, read]

theorem respects_other {other : String} {reader' : Reader α} {set : σ → α → σ} (ne : other ≠ name)
    (keeps : ∀ known value, view (set known value) = view known) :
    (field other reader' set).Respects name reader view := by
  intro document known known' stored
  obtain ⟨value, -, rfl⟩ := store_field_eq_ok_iff.mp stored
  simp [ne, keeps]

/-- A view of a declaration holds what the last document under its name reads. -/
theorem readFields_holds {fields : List (Field σ)}
    (respects : ∀ field ∈ fields, field.Respects name reader view)
    (listed : name ∈ fields.map Field.name) {table : Table} {known known' : σ}
    (read : readFields fields table known = .ok known') :
    (table.last? name).elim (.ok (view known)) reader.read = .ok (view known') := by
  induction table generalizing known with
  | nil =>
    cases read
    rfl
  | cons entry rest ih =>
    obtain ⟨other, document⟩ := entry
    rw [Table.last?_cons]
    rcases readFields_cons_eq_ok read with ⟨unknown, read⟩ | ⟨field, hfield, between, rfl, stored, read⟩
    · have ne : other ≠ name := fun same => unknown (same ▸ listed)
      simpa [ne] using ih read
    · have change := respects field hfield _ _ _ stored
      have later := ih read
      by_cases own : field.name = name
      · rw [if_pos own] at change
        -- The entry counts only if no later one has its name.
        cases last : Table.last? rest name with
        | none => simpa [own, last, change] using later
        | some document' => simpa [own, last] using later
      · rw [if_neg own] at change
        simpa [own, change] using later

end Reader

namespace Config

/-- An object read as a configuration: its fields, and then the check of the timeout. -/
theorem exists_of_read {table : Table} {config : Config}
    (read : reader.read (.object table) = .ok config) :
    ∃ draft, Reader.readFields fields table ⟨default, default.requestTimeout⟩ = .ok draft ∧
      draft.config.withTimeout draft.requestTimeout = .ok config := by
  simp only [reader, Reader.declaration, Reader.read] at read
  cases fieldsRead : Reader.readFields fields table ⟨default, default.requestTimeout⟩ with
  | error refusal => simp [fieldsRead, bind, Except.bind] at read
  | ok draft =>
    refine ⟨draft, rfl, ?_⟩
    rw [fieldsRead] at read
    cases checked : draft.config.withTimeout draft.requestTimeout with
    | error defect => simp [bind, Except.bind, checked, Reader.checked, Except.mapError] at read
    | ok made => simpa [bind, Except.bind, checked, Reader.checked, Except.mapError] using read

/-- A view that the timeout is no part of, in a configuration that was read. -/
theorem read_holds {β : Type} {name : String} {valueReader : Reader β} (view : Config → β)
    (respects : ∀ field ∈ fields, field.Respects name valueReader fun draft => view draft.config)
    (listed : name ∈ fields.map Reader.Field.name)
    (untimed : ∀ (config : Config) timeout pos,
      view { config with requestTimeout := timeout, timeout_pos := pos } = view config)
    {table : Table} {config : Config} (read : reader.read (.object table) = .ok config) :
    (table.last? name).elim (.ok (view default)) valueReader.read = .ok (view config) := by
  obtain ⟨draft, fieldsRead, timed⟩ := exists_of_read read
  have holds := Reader.readFields_holds respects listed fieldsRead
  rw [withTimeout] at timed
  split at timed
  · cases timed
  · cases timed
    exact holds.trans (congrArg Except.ok (untimed draft.config _ _).symm)

/-- The bare names and the counts they share are those that the object gives. -/
structure Shares (config : Config) (table : Table) : Prop where
  topicNames : (table.last? "topic_names").elim (.ok []) Reader.text.list.read =
    .ok config.topicNames
  partitions : (table.last? "num_of_partitions").elim (.ok 3) Reader.int.read =
    .ok config.partitions
  replication : (table.last? "replication_factor").elim (.ok 1) Reader.int.read =
    .ok config.replication

theorem shares_of_read {table : Table} {config : Config}
    (read : reader.read (.object table) = .ok config) : config.Shares table := by
  refine ⟨read_holds topicNames ?_ (by decide) (fun _ _ _ => rfl) read,
    read_holds partitions ?_ (by decide) (fun _ _ _ => rfl) read,
    read_holds replication ?_ (by decide) (fun _ _ _ => rfl) read⟩
  all_goals
    simp only [fields, List.forall_mem_cons]
    refine ⟨?_, ?_, ?_, ?_, ?_, ?_, ?_, ?_, ?_, ?_, ?_, ?_, by simp⟩
  -- A field shows in the view of its own name and in no other.
  all_goals first
    | exact Reader.respects_own fun _ _ => rfl
    | exact Reader.respects_other (by decide) fun _ _ => rfl

end Config

end ClusterReadiness
