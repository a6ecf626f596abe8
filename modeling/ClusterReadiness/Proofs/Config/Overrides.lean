import ClusterReadiness.Proofs.Config.Acceptance
import ClusterReadiness.Proofs.Toml.Names
import Mathlib

/-!
# Overridden fields

A variable that is set and not empty is put into the table before its fields are read, where it
takes the place of whatever the file has there. Its document is always of the kind that the field
takes, so reading never stops there; and fields are stored independently of each other. Reading the
overridden table therefore comes to the same as reading what the file says about all other fields,
starting from the defaults with the overrides in place.
-/

namespace ClusterReadiness

namespace Table

variable {table : Table} {name other : String} {document : Document}
  {changes : List (String × Document)} {names : List String}

/-- What an object has outside of some names, in its order. -/
def without (table : Table) (names : List String) : Table :=
  table.filter fun entry => entry.1 ∉ names

theorem without_cons_of_mem (given : name ∈ names) :
    without ((name, document) :: table) names = table.without names := by
  simp [without, given]

theorem without_cons_of_notMem (ungiven : name ∉ names) :
    without ((name, document) :: table) names = (name, document) :: table.without names := by
  simp [without, ungiven]

theorem without_put (given : name ∈ names) :
    (table.put name document).without names = table.without names := by
  induction table with
  | nil => exact without_cons_of_mem given
  | cons entry rest ih =>
    obtain ⟨other, old⟩ := entry
    rw [put]
    by_cases same : other = name
    · rw [if_pos same, without_cons_of_mem given, same, without_cons_of_mem given]
    · rw [if_neg same]
      by_cases other ∈ names
      · rw [without_cons_of_mem ‹_›, without_cons_of_mem ‹_›, ih]
      · rw [without_cons_of_notMem ‹_›, without_cons_of_notMem ‹_›, ih]

theorem without_update (given : ∀ change ∈ changes, change.1 ∈ names) :
    (table.update changes).without names = table.without names := by
  induction changes generalizing table with
  | nil => rfl
  | cons change rest ih =>
    obtain ⟨first, given⟩ := List.forall_mem_cons.mp given
    exact (ih given).trans (without_put first)

theorem last?_eq_none (ungiven : name ∉ table.map Prod.fst) : table.last? name = none := by
  induction table with
  | nil => rfl
  | cons entry rest ih =>
    obtain ⟨other, document⟩ := entry
    rw [List.map_cons, List.mem_cons, not_or] at ungiven
    rw [last?_cons, ih ungiven.2, if_neg (Ne.symm ungiven.1), Option.none_or]

theorem names_put : (table.put name document).map Prod.fst =
    if name ∈ table.map Prod.fst then table.map Prod.fst else table.map Prod.fst ++ [name] := by
  induction table with
  | nil => rfl
  | cons entry rest ih =>
    obtain ⟨other, old⟩ := entry
    rw [put]
    by_cases same : other = name
    · simp [same]
    · rw [if_neg same, List.map_cons, ih]
      by_cases given : name ∈ rest.map Prod.fst
      · simp only [List.map_cons, List.mem_cons, given, or_true, if_true]
      · simp only [List.map_cons, List.mem_cons, given, Ne.symm same, or_self, if_false,
          List.cons_append]

theorem nodup_put (distinct : (table.map Prod.fst).Nodup) :
    ((table.put name document).map Prod.fst).Nodup := by
  rw [names_put]
  exact nodup_added distinct

theorem last?_put (distinct : (table.map Prod.fst).Nodup) :
    (table.put name document).last? other =
      if name = other then some document else table.last? other := by
  induction table with
  | nil =>
    rw [put, last?_cons]
    rfl
  | cons entry rest ih =>
    obtain ⟨first, old⟩ := entry
    obtain ⟨fresh, distinct⟩ := List.nodup_cons.mp distinct
    rw [put]
    by_cases same : first = name
    · subst same
      rw [if_pos rfl, last?_cons, last?_cons]
      by_cases own : first = other
      · rw [← own, last?_eq_none fresh, if_pos rfl, Option.none_or, if_pos rfl]
      · rw [if_neg own, if_neg own, if_neg own]
    · rw [if_neg same, last?_cons, last?_cons, ih distinct]
      by_cases own : name = other
      · rw [if_pos own, if_pos own, Option.some_or]
      · rw [if_neg own, if_neg own]

theorem nodup_update (distinct : (table.map Prod.fst).Nodup) :
    ((table.update changes).map Prod.fst).Nodup := by
  induction changes generalizing table with
  | nil => exact distinct
  | cons change rest ih => exact ih (nodup_put distinct)

theorem last?_of_mem (distinct : (table.map Prod.fst).Nodup) (given : (name, document) ∈ table) :
    table.last? name = some document := by
  induction table with
  | nil => cases given
  | cons entry rest ih =>
    obtain ⟨other, old⟩ := entry
    obtain ⟨fresh, distinct⟩ := List.nodup_cons.mp distinct
    rw [last?_cons]
    rcases List.mem_cons.mp given with here | given
    · cases here
      rw [last?_eq_none fresh, if_pos rfl, Option.none_or]
    · rw [ih distinct given, Option.some_or]

theorem lookup_of_mem (distinct : (table.map Prod.fst).Nodup) (given : (name, document) ∈ table) :
    table.lookup name = some document := by
  induction table with
  | nil => cases given
  | cons entry rest ih =>
    obtain ⟨other, old⟩ := entry
    obtain ⟨fresh, distinct⟩ := List.nodup_cons.mp distinct
    rcases List.mem_cons.mp given with here | given
    · cases here
      exact List.lookup_cons_self
    · have ne : (name == other) = false :=
        beq_false_of_ne fun same => fresh (List.mem_map.mpr ⟨_, given, same⟩)
      rw [List.lookup_cons, ne]
      exact ih distinct given

/-- A change is what the table has in the end, unless the same name is changed again. -/
theorem last?_update (distinct : (table.map Prod.fst).Nodup)
    (once : (changes.map Prod.fst).Nodup) : (table.update changes).last? name =
      (changes.lookup name).or (table.last? name) := by
  induction changes generalizing table with
  | nil => rfl
  | cons change rest ih =>
    obtain ⟨other, document⟩ := change
    obtain ⟨fresh, once⟩ := List.nodup_cons.mp once
    have kept : ((table.put other document).map Prod.fst).Nodup := nodup_put distinct
    refine (ih kept once).trans ?_
    rw [last?_put distinct]
    by_cases own : other = name
    · have unchanged : rest.lookup name = none := by
        refine List.lookup_eq_none_iff.mpr fun entry hentry => ?_
        rw [bne_iff_ne]
        exact fun same => fresh (List.mem_map.mpr ⟨entry, hentry, by rw [← same, own]⟩)
      rw [unchanged, if_pos own, own, List.lookup_cons_self, Option.none_or, Option.some_or]
    · have : (name == other) = false := beq_false_of_ne (Ne.symm own)
      rw [if_neg own, List.lookup_cons, this]

end Table

namespace Environment

variable {environment : Environment} {name text : String} {config : Config}

/-- The fields whose variables are set and not empty. -/
def overridden (environment : Environment) : List String := environment.overrides.map (·.1)

theorem overridden_eq : environment.overridden =
    (variableFields.filter fun field => (environment.value? field.1).isSome).map (·.2.1) := by
  rw [overridden, overrides]
  induction variableFields with
  | nil => rfl
  | cons field rest ih =>
    cases set : environment.value? field.1 with
    | none => simpa [set] using ih
    | some text => simpa [set] using ih

theorem mem_overridden_iff : name ∈ environment.overridden ↔ ∃ field ∈ variableFields,
    (environment.value? field.1).isSome ∧ field.2.1 = name := by
  simp only [overridden_eq, List.mem_map, List.mem_filter, and_assoc]

theorem nodup_overridden : environment.overridden.Nodup := by
  have all : (variableFields.map (·.2.1)).Nodup := by decide
  rw [overridden_eq]
  exact all.sublist (List.filter_sublist.map _)

theorem mem_overrides_iff {entry : String × Document} : entry ∈ environment.overrides ↔
    ∃ override ∈ variableFields, ∃ text, environment.value? override.1 = some text ∧
      (override.2.1, override.2.2 text) = entry := by
  simp only [overrides, List.mem_filterMap, Option.map_eq_some_iff]

/-- What an overridden table has in the end for a variable that is set. -/
theorem last?_overridden {table : Table} {override : String × String × (String → Document)}
    (distinct : (table.map Prod.fst).Nodup) (listed : override ∈ variableFields)
    (set : environment.value? override.1 = some text) :
    (table.update environment.overrides).last? override.2.1 = some (override.2.2 text) := by
  have given := mem_overrides_iff.mpr ⟨override, listed, text, set, rfl⟩
  rw [Table.last?_update distinct nodup_overridden, Table.lookup_of_mem nodup_overridden given,
    Option.some_or]

/-- The configuration with the overrides in place. -/
def applied (environment : Environment) (config : Config) : Config :=
  { config with
    bootstrapServers := (environment.value? "KAFKA_BOOTSTRAP_SERVERS").getD config.bootstrapServers
    registryUrl := (environment.value? "SCHEMA_REGISTRY_URL").getD config.registryUrl
    topicNames := ((environment.value? "KBOOTSTRAP_TOPICS").map topicNames).getD config.topicNames
    logLevel := ((environment.value? "KBOOTSTRAP_LOG_LEVEL").map Text.upper).getD config.logLevel }

/-- A variable that is set alone determines the field it stands for. -/
structure Dictates (environment : Environment) (config : Config) : Prop where
  bootstrapServers : ∀ text, environment.value? "KAFKA_BOOTSTRAP_SERVERS" = some text →
    config.bootstrapServers = text
  registryUrl : ∀ text, environment.value? "SCHEMA_REGISTRY_URL" = some text →
    config.registryUrl = text
  topicNames : ∀ text, environment.value? "KBOOTSTRAP_TOPICS" = some text →
    config.topicNames = topicNames text
  logLevel : ∀ text, environment.value? "KBOOTSTRAP_LOG_LEVEL" = some text →
    config.logLevel = Text.upper text

theorem Dictates.applied_eq (dictates : environment.Dictates config) :
    environment.applied config = config := by
  have dictated {α : Type} {set : Option String} {write : String → α} {held : α}
      (h : ∀ text, set = some text → held = write text) : (set.map write).getD held = held := by
    cases set with
    | none => rfl
    | some text => exact (h text rfl).symm
  have servers : ((environment.value? "KAFKA_BOOTSTRAP_SERVERS").map id).getD
      config.bootstrapServers = config.bootstrapServers := dictated dictates.bootstrapServers
  have url : ((environment.value? "SCHEMA_REGISTRY_URL").map id).getD config.registryUrl =
      config.registryUrl := dictated dictates.registryUrl
  rw [Option.map_id, id] at servers url
  rw [applied, servers, url, dictated dictates.topicNames, dictated dictates.logLevel]

end Environment

namespace Reader

variable {α β σ : Type} {name : String} {fields : List (Field σ)} {names : List String}
  {settle : σ → σ} {document : Document} {table : Table} {known : σ} {refusal : Refusal}

/-- It makes no difference whether a value is stored before or after settling. -/
def Field.Commutes (settle : σ → σ) (field : Field σ) : Prop :=
  ∀ document known, (field.store document known).map settle = field.store document (settle known)

/-- Settling takes back whatever is stored in the field. -/
def Field.Absorbed (settle : σ → σ) (field : Field σ) : Prop :=
  ∀ document known stored, field.store document known = .ok stored → settle stored = settle known

/-- What is refused is refused at the field itself. -/
def Field.Located (field : Field σ) : Prop :=
  ∀ document known refusal, field.store document known = .error refusal →
    ∃ inner, refusal.path = .field field.name :: inner

section Settled

variable {reader : Reader α} {set : σ → α → σ}

theorem commutes_field (same : ∀ known value, settle (set known value) = set (settle known) value) :
    (field name reader set).Commutes settle := by
  intro document known
  simp only [field]
  cases reader.read document with
  | error refusal => rfl
  | ok value => exact congrArg Except.ok (same known value)

theorem absorbed_field (same : ∀ known value, settle (set known value) = settle known) :
    (field name reader set).Absorbed settle := by
  intro document known stored h
  obtain ⟨value, -, rfl⟩ := store_field_eq_ok_iff.mp h
  exact same known value

theorem located_field : (field name reader set).Located := by
  intro document known refusal refused
  simp only [field] at refused
  cases read : reader.read document with
  | ok value => simp [read, within, Except.mapError, Except.map] at refused
  | error inner =>
    simp only [read, within, Except.mapError, Except.map, Except.error.injEq] at refused
    exact ⟨inner.path, by rw [← refused, Refusal.under, field_name]⟩

end Settled

theorem readFields_cons_of_none {rest : Table} (found : fields.find? (·.name == name) = none) :
    readFields fields ((name, document) :: rest) known = readFields fields rest known := by
  rw [readFields, found]

theorem readFields_cons_of_some {field : Field σ} {rest : Table}
    (found : fields.find? (·.name == name) = some field) :
    readFields fields ((name, document) :: rest) known =
      (field.store document known).bind (readFields fields rest) := by
  rw [readFields, found]
  rfl

/-- An entry of one of the names is what the reading stops at. -/
def StopsAt (fields : List (Field σ)) (names : List String) (table : Table) (refusal : Refusal) :
    Prop :=
  ∃ entry ∈ table, ∃ field ∈ fields, entry.1 ∈ names ∧ field.name = entry.1 ∧
    ∃ between, field.store entry.2 between = .error refusal

theorem StopsAt.cons {entry : String × Document} (stops : StopsAt fields names table refusal) :
    StopsAt fields names (entry :: table) refusal := by
  obtain ⟨entry', hentry', stopped⟩ := stops
  exact ⟨entry', List.mem_cons_of_mem entry hentry', stopped⟩

/-- Unless reading stops at one of the names, what is read comes to the same, once settled, as what
the other entries give from a settled start. -/
theorem map_readFields (table : Table) (known : σ)
    (commutes : ∀ field ∈ fields, field.name ∉ names → field.Commutes settle)
    (absorbed : ∀ field ∈ fields, field.name ∈ names → field.Absorbed settle) :
    (∃ refusal, StopsAt fields names table refusal ∧
      readFields fields table known = .error refusal) ∨
    (readFields fields table known).map settle =
      readFields fields (table.without names) (settle known) := by
  induction table generalizing known with
  | nil => exact .inr rfl
  | cons entry rest ih =>
    obtain ⟨name, document⟩ := entry
    have extend {between : σ} (stops : ∃ refusal, StopsAt fields names rest refusal ∧
        readFields fields rest between = .error refusal) :
        ∃ refusal, StopsAt fields names ((name, document) :: rest) refusal ∧
          readFields fields rest between = .error refusal := by
      obtain ⟨refusal, stops, read⟩ := stops
      exact ⟨refusal, stops.cons, read⟩
    cases found : fields.find? (·.name == name) with
    | none =>
      rw [readFields_cons_of_none found]
      refine (ih known).imp extend fun same => same.trans ?_
      by_cases given : name ∈ names
      · rw [Table.without_cons_of_mem given]
      · rw [Table.without_cons_of_notMem given, readFields_cons_of_none found]
    | some field =>
      have own : field.name = name := by simpa using List.find?_some found
      have listed : field ∈ fields := List.mem_of_find?_eq_some found
      rw [readFields_cons_of_some found]
      by_cases given : name ∈ names
      · rw [Table.without_cons_of_mem given]
        cases stored : field.store document known with
        | error refusal =>
          refine .inl ⟨refusal, ?_, rfl⟩
          exact ⟨_, List.mem_cons_self, field, listed, given, own, known, stored⟩
        | ok between =>
          rw [← absorbed field listed (own ▸ given) _ _ _ stored]
          exact (ih between).imp extend id
      · rw [Table.without_cons_of_notMem given, readFields_cons_of_some found,
          ← commutes field listed (own ▸ given)]
        cases field.store document known with
        | error refusal => exact .inr rfl
        | ok between => exact (ih between).imp extend id

/-- What is refused while fields are read is refused at one of the entries. -/
theorem exists_entry_of_readFields_eq_error (located : ∀ field ∈ fields, field.Located)
    (refused : readFields fields table known = .error refusal) :
    ∃ entry ∈ table, ∃ inner, refusal.path = .field entry.1 :: inner := by
  induction table generalizing known with
  | nil => cases refused
  | cons entry rest ih =>
    obtain ⟨name, document⟩ := entry
    have later {between : σ} (refused : readFields fields rest between = .error refusal) :
        ∃ entry ∈ (name, document) :: rest, ∃ inner, refusal.path = .field entry.1 :: inner := by
      obtain ⟨entry, hentry, located⟩ := ih refused
      exact ⟨entry, List.mem_cons_of_mem _ hentry, located⟩
    cases found : fields.find? (·.name == name) with
    | none => exact later (readFields_cons_of_none found ▸ refused)
    | some field =>
      rw [readFields_cons_of_some found] at refused
      cases stored : field.store document known with
      | ok between => exact later (stored ▸ refused)
      | error here =>
        rw [stored] at refused
        cases refused
        obtain ⟨inner, path⟩ := located field (List.mem_of_find?_eq_some found) _ _ _ stored
        have own : field.name = name := by simpa using List.find?_some found
        exact ⟨_, List.mem_cons_self, inner, own ▸ path⟩

theorem read_texts {values : List String} :
    Reader.text.list.read (.texts values) = .ok values := by
  have items (index : Nat) : readItems text index (values.map Document.text) = .ok values := by
    induction values generalizing index with
    | nil => rfl
    | cons value rest ih => rw [List.map_cons, readItems, ih]; rfl
  exact items 0

end Reader

theorem ConfigFile.nodup_of_given {file : Option ConfigFile} {table : Table}
    (given : ConfigFile.given file = .ok table) : (table.map Prod.fst).Nodup := by
  cases file with
  | none =>
    cases given
    exact List.nodup_nil
  | some file => exact nodup_of_table given

namespace Config

variable {environment : Environment} {table : Table} {config : Config}

/-- A configuration read as one, from other values than the defaults to begin with. -/
def readerFrom (start : Config) : Reader Config :=
  Reader.declaration fields ⟨start, start.requestTimeout⟩ fun draft =>
    Reader.checked (draft.config.withTimeout draft.requestTimeout)

def Draft.applied (environment : Environment) (draft : Draft) : Draft :=
  { draft with config := environment.applied draft.config }

theorem located_of_mem_fields : ∀ field ∈ fields, field.Located := by
  simp only [fields, List.forall_mem_cons]
  refine ⟨?_, ?_, ?_, ?_, ?_, ?_, ?_, ?_, ?_, ?_, ?_, ?_, by simp⟩
  all_goals exact Reader.located_field

theorem commutes_applied (environment : Environment) :
    ∀ field ∈ fields, field.name ∉ environment.overridden →
      field.Commutes (Draft.applied environment) := by
  simp only [fields, List.forall_mem_cons, Environment.mem_overridden_iff,
    Environment.variableFields]
  refine ⟨?_, ?_, ?_, ?_, ?_, ?_, ?_, ?_, ?_, ?_, ?_, ?_, by simp⟩
  all_goals
    intro unset
    refine Reader.commutes_field fun draft value => ?_
    simp_all [Draft.applied, Environment.applied, change]

theorem absorbed_applied (environment : Environment) :
    ∀ field ∈ fields, field.name ∈ environment.overridden →
      field.Absorbed (Draft.applied environment) := by
  simp only [fields, List.forall_mem_cons, Environment.mem_overridden_iff,
    Environment.variableFields]
  refine ⟨?_, ?_, ?_, ?_, ?_, ?_, ?_, ?_, ?_, ?_, ?_, ?_, by simp⟩
  -- Only four of the fields have a variable that stands for them.
  all_goals
    intro set
    simp at set
  all_goals
    obtain ⟨text, set⟩ := Option.isSome_iff_exists.mp set
    refine Reader.absorbed_field fun draft value => ?_
    simp [Draft.applied, Environment.applied, change, set]

/-- The timeout is checked last, and has nothing to do with the overrides. -/
theorem withTimeout_applied {timeout : Float} :
    (environment.applied config).withTimeout timeout =
      (config.withTimeout timeout).map environment.applied := by
  rw [withTimeout, withTimeout]
  split <;> rfl

/-- An override is of the kind that its field takes. -/
theorem exists_store_override : ∀ override ∈ Environment.variableFields, ∀ field ∈ fields,
    field.name = override.2.1 → ∀ text known, ∃ stored,
      field.store (override.2.2 text) known = .ok stored := by
  have text {set : Config → String → Config} {name value : String} {draft : Draft} :
      ∃ stored, (Reader.field name Reader.text (change set)).store (.text value) draft =
        .ok stored := ⟨_, rfl⟩
  have texts {set : Config → List String → Config} {name : String} {values : List String}
      {draft : Draft} : ∃ stored,
      (Reader.field name Reader.text.list (change set)).store (.texts values) draft = .ok stored :=
    ⟨_, Reader.store_field_eq_ok_iff.mpr ⟨values, Reader.read_texts, rfl⟩⟩
  simp [Environment.variableFields, fields, text, texts]

theorem not_stopsAt_overrides {refusal : Refusal} (distinct : (table.map Prod.fst).Nodup) :
    ¬ Reader.StopsAt fields environment.overridden (table.update environment.overrides)
      refusal := by
  rintro ⟨⟨name, document⟩, hentry, field, hfield, overridden, own, between, refused⟩
  obtain ⟨⟨name, written⟩, hoverride, rfl⟩ := List.mem_map.mp overridden
  obtain ⟨override, listed, text, set, h⟩ := Environment.mem_overrides_iff.mp hoverride
  cases h
  have held := Table.last?_of_mem (Table.nodup_update distinct) hentry
  rw [Environment.last?_overridden distinct listed set, Option.some.injEq] at held
  subst held
  obtain ⟨stored, h⟩ := exists_store_override override listed field hfield own text between
  cases h.symm.trans refused

/-- Unless reading stops at an overridden field, it comes to the same, with the overrides in place,
as reading all other fields with the overrides to begin with. -/
theorem map_read (environment : Environment) (table : Table) :
    (∃ refusal, Reader.StopsAt fields environment.overridden table refusal ∧
      reader.read (.object table) = .error refusal) ∨
    (reader.read (.object table)).map environment.applied =
      (readerFrom (environment.applied default)).read
        (.object (table.without environment.overridden)) := by
  refine (Reader.map_readFields table ⟨default, default.requestTimeout⟩
    (commutes_applied environment) (absorbed_applied environment)).imp ?_ ?_
  · rintro ⟨refusal, stops, read⟩
    refine ⟨refusal, stops, ?_⟩
    simp only [reader, Reader.declaration, Reader.read, read]
    rfl
  · intro same
    have start : Draft.mk (environment.applied default)
        (environment.applied default).requestTimeout =
      Draft.applied environment ⟨default, default.requestTimeout⟩ := rfl
    simp only [reader, readerFrom, Reader.declaration, Reader.read, start, ← same]
    cases Reader.readFields fields table ⟨default, default.requestTimeout⟩ with
    | error refusal => rfl
    | ok draft =>
      simp only [Except.map, bind, Except.bind, Draft.applied, withTimeout_applied]
      cases draft.config.withTimeout draft.requestTimeout <;> rfl

/-- The fields that a variable stands for hold what the object has for them in the end. -/
theorem holds_of_read (read : reader.read (.object table) = .ok config) :
    (table.last? "bootstrap_servers").elim (.ok default.bootstrapServers) Reader.text.read =
      .ok config.bootstrapServers ∧
    (table.last? "schema_registry_url").elim (.ok default.registryUrl) Reader.text.read =
      .ok config.registryUrl ∧
    (table.last? "log_level").elim (.ok default.logLevel) Reader.text.read =
      .ok config.logLevel := by
  refine ⟨read_holds bootstrapServers ?_ (by decide) (fun _ _ _ => rfl) read,
    read_holds registryUrl ?_ (by decide) (fun _ _ _ => rfl) read,
    read_holds logLevel ?_ (by decide) (fun _ _ _ => rfl) read⟩
  all_goals
    simp only [fields, List.forall_mem_cons]
    refine ⟨?_, ?_, ?_, ?_, ?_, ?_, ?_, ?_, ?_, ?_, ?_, ?_, by simp⟩
  all_goals first
    | exact Reader.respects_own fun _ _ => rfl
    | exact Reader.respects_other (by decide) fun _ _ => rfl

/-- Overrides that were put into the table are what the configuration has. -/
theorem dictates_of_read (distinct : (table.map Prod.fst).Nodup)
    (read : reader.read (.object (table.update environment.overrides)) = .ok config) :
    environment.Dictates config := by
  obtain ⟨servers, url, level⟩ := holds_of_read read
  have names := (shares_of_read read).topicNames
  have put : ∀ override ∈ Environment.variableFields, ∀ text,
      environment.value? override.1 = some text →
      (table.update environment.overrides).last? override.2.1 = some (override.2.2 text) :=
    fun override listed text => Environment.last?_overridden distinct listed
  simp only [Environment.variableFields, List.forall_mem_cons] at put
  obtain ⟨putServers, putUrl, putNames, putLevel, -⟩ := put
  refine ⟨fun text set => ?_, fun text set => ?_, fun text set => ?_, fun text set => ?_⟩
  · rw [putServers text set] at servers
    exact (Except.ok.inj servers).symm
  · rw [putUrl text set] at url
    exact (Except.ok.inj url).symm
  · rw [putNames text set, Option.elim_some, Reader.read_texts] at names
    exact (Except.ok.inj names).symm
  · rw [putLevel text set] at level
    exact (Except.ok.inj level).symm

/-- Reading an overridden table is reading all other fields with the overrides to begin with. -/
theorem read_overridden (environment : Environment)
    (distinct : (table.map Prod.fst).Nodup) :
    reader.read (.object (table.update environment.overrides)) =
      (readerFrom (environment.applied default)).read
        (.object (table.without environment.overridden)) := by
  have others : (table.update environment.overrides).without environment.overridden =
      table.without environment.overridden :=
    Table.without_update fun change hchange => List.mem_map_of_mem hchange
  rcases map_read environment (table.update environment.overrides) with ⟨refusal, stops, -⟩ | same
  · exact absurd stops (not_stopsAt_overrides distinct)
  · rw [← others, ← same]
    cases read : reader.read (.object (table.update environment.overrides)) with
    | error refusal => rfl
    | ok config => exact congrArg Except.ok (dictates_of_read distinct read).applied_eq.symm

/-- What another reading starts from makes no difference to where it is refused. -/
theorem head_of_readerFrom_eq_error {start : Config} {refusal : Refusal} {name : String}
    (refused : (readerFrom start).read (.object table) = .error refusal)
    (located : refusal.path.head? = some (.field name)) : name ∈ table.map Prod.fst := by
  simp only [readerFrom, Reader.declaration, Reader.read] at refused
  cases read : Reader.readFields fields table ⟨start, start.requestTimeout⟩ with
  | error refusal' =>
    simp only [read, bind, Except.bind, Except.error.injEq] at refused
    subst refused
    obtain ⟨entry, hentry, inner, path⟩ :=
      Reader.exists_entry_of_readFields_eq_error located_of_mem_fields read
    rw [path, List.head?_cons, Option.some.injEq, PathStep.field.injEq] at located
    exact List.mem_map.mpr ⟨entry, hentry, located⟩
  | ok draft =>
    simp only [read, bind, Except.bind, Except.mapError] at refused
    split at refused
    · cases refused
      cases located
    · cases refused

/-- What is given is resolved, and the overrides are noted if there are any. -/
theorem run_load_of_given {σ : Type} {record : Level → String → StateM σ Unit}
    {file : Option ConfigFile} (given : ConfigFile.given file = .ok table) (log : σ) :
    (load record file environment).run log = (resolve table environment,
      if environment.overrides.isEmpty then log
      else ((record .debug (overriddenText environment)).run log).2) := by
  rw [ConfigFile.given] at given
  rw [load, given]
  cases environment.overrides.isEmpty <;> rfl

/-- Loading does not depend on what a file has for an overridden field: two tables that agree
elsewhere, in content and order, load alike, and are noted alike. No refusal is about an overridden
field, each of them holds what its variable says, and if the file alone is accepted then all other
fields are what they are then. -/
theorem load_ignores_overridden {σ : Type} (record : Level → String → StateM σ Unit)
    (environment : Environment) (log : σ) {file file' : Option ConfigFile} {table table' : Table}
    (given : ConfigFile.given file = .ok table) (given' : ConfigFile.given file' = .ok table')
    (agree : table.without environment.overridden = table'.without environment.overridden) :
    (load record file environment).run log = (load record file' environment).run log ∧
    (match ((load record file environment).run log).1 with
    | .error failure => ∃ refusal : Refusal,
      failure = .because (.configuration ("invalid configuration: " ++ refusal.message))
        refusal.failure ∧
      ∀ name ∈ environment.overridden, refusal.path.head? ≠ some (.field name)
    | .ok config => environment.Dictates config) ∧
    ∀ plain, ((load record file []).run log).1 = .ok plain →
      ((load record file environment).run log).1 = .ok (environment.applied plain) := by
  have distinct := ConfigFile.nodup_of_given given
  have read := read_overridden environment distinct
  rw [run_load_of_given given, run_load_of_given given', run_load_of_given given]
  refine ⟨?_, ?_, fun plain accepted => ?_⟩
  · rw [resolve, resolve, read, agree,
      ← read_overridden environment (ConfigFile.nodup_of_given given')]
  · cases resolved : resolve table environment with
    | ok config => exact dictates_of_read distinct (resolve_eq_ok_iff.mp resolved)
    | error failure =>
      obtain ⟨refusal, refused, rfl⟩ := resolve_eq_error_iff.mp resolved
      refine ⟨refusal, rfl, fun name overridden located => ?_⟩
      rw [read] at refused
      obtain ⟨entry, hentry, rfl⟩ := List.mem_map.mp (head_of_readerFrom_eq_error refused located)
      simpa [overridden] using (List.mem_filter.mp hentry).2
  · have alone : reader.read (.object table) = .ok plain := resolve_eq_ok_iff.mp accepted
    apply resolve_eq_ok_iff.mpr
    rcases map_read environment table with ⟨refusal, -, refused⟩ | same
    · cases refused.symm.trans alone
    · rw [read, ← same, alone]
      rfl

/-- A file with a bad list of topics is as good as one without any, once the topics are set. -/
theorem load_ignores_overridden_topics :
    ∃ bad good : Option ConfigFile,
      ConfigFile.given bad = .ok [("topic_names", .int 3), ("num_of_partitions", .int 6)] ∧
      ConfigFile.given good = .ok [("num_of_partitions", .int 6)] ∧
      (load (fun _ _ => modify (· + 1)) bad [("KBOOTSTRAP_TOPICS", "orders,events")] :
        StateM Nat (Result Config)).run 0 =
      (load (fun _ _ => modify (· + 1)) good [("KBOOTSTRAP_TOPICS", "orders,events")] :
        StateM Nat (Result Config)).run 0 := by
  have bad : ConfigFile.given (some ⟨"bad.toml",
      .ok ("topic_names = 3\nnum_of_partitions = 6".toList.map fun c => UInt8.ofNat c.toNat)⟩) =
      .ok [("topic_names", .int 3), ("num_of_partitions", .int 6)] := by cbv
  have good : ConfigFile.given (some ⟨"good.toml",
      .ok ("num_of_partitions = 6".toList.map fun c => UInt8.ofNat c.toNat)⟩) =
      .ok [("num_of_partitions", .int 6)] := by cbv
  have names : Environment.overridden [("KBOOTSTRAP_TOPICS", "orders,events")] =
      ["topic_names"] := by decide +kernel
  refine ⟨_, _, bad, good, ?_⟩
  refine (load_ignores_overridden _ _ 0 bad good ?_).1
  rw [names]
  rfl

end Config

end ClusterReadiness
