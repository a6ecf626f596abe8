import ClusterReadiness.Config.Load
import Mathlib.Data.List.Nodup
import Mathlib.Tactic.Common

/-!
# Names in a TOML document

Whatever a line of a TOML document adds, it adds by altering one entry of the document's table,
where it stands or behind all others. No name is therefore ever given twice, and the table that a
configuration file gives has each of its names once.
-/

namespace ClusterReadiness

/-- A name that goes behind all others unless it is there already. -/
theorem nodup_added {names : List String} {name : String} (distinct : names.Nodup) :
    (if name ∈ names then names else names ++ [name]).Nodup := by
  by_cases given : name ∈ names
  · rwa [if_pos given]
  · rw [if_neg given]
    exact distinct.append (List.nodup_singleton name) (List.disjoint_singleton.mpr given)

namespace Toml

namespace Fields

/-- An alteration keeps the names and their order; a new name goes behind them. -/
theorem names_of_alter {name : String} {change : Option Entry → Option Entry}
    {fields altered : Fields} (done : alter name change fields = some altered) :
    altered.map Prod.fst = if name ∈ fields.map Prod.fst then fields.map Prod.fst
      else fields.map Prod.fst ++ [name] := by
  induction fields generalizing altered with
  | nil =>
    obtain ⟨entry, -, rfl⟩ := Option.map_eq_some_iff.mp done
    rfl
  | cons first rest ih =>
    obtain ⟨other, entry⟩ := first
    rw [alter] at done
    by_cases same : other = name
    · rw [if_pos same] at done
      obtain ⟨entry', -, rfl⟩ := Option.map_eq_some_iff.mp done
      simp [same]
    · rw [if_neg same] at done
      obtain ⟨rest', changed, rfl⟩ := Option.map_eq_some_iff.mp done
      have names := ih changed
      by_cases given : name ∈ rest.map Prod.fst
      · rw [if_pos given] at names
        simp only [List.map_cons, names, List.mem_cons, given, or_true, if_true]
      · rw [if_neg given] at names
        simp only [List.map_cons, names, List.mem_cons, given, Ne.symm same, or_self, if_false,
          List.cons_append]

/-- Every name is given once. -/
def Distinct (fields : Fields) : Prop := (fields.map Prod.fst).Nodup

theorem Distinct.alter {name : String} {change : Option Entry → Option Entry}
    {fields altered : Fields} (distinct : fields.Distinct)
    (done : alter name change fields = some altered) : altered.Distinct := by
  rw [Distinct, names_of_alter done]
  exact nodup_added distinct

/-- What is done to a table under a path alters it, or is the change at the path's end. -/
theorem Distinct.within {change : Fields → Option Fields}
    (keeps : ∀ {fields changed}, Distinct fields → change fields = some changed → Distinct changed)
    {path : List String} {fields changed : Fields} (distinct : fields.Distinct)
    (done : within change path fields = some changed) : changed.Distinct := by
  cases path with
  | nil => exact keeps distinct done
  | cons name path => exact distinct.alter done

theorem Distinct.insert {number : Nat} {document : Document} {path : List String}
    {fields changed : Fields} (distinct : fields.Distinct)
    (done : insert number document path fields = some changed) : changed.Distinct := by
  match path, done with
  | [name], done => exact distinct.alter done
  | _ :: _ :: _, done => exact distinct.alter done

end Fields

namespace Progress

variable {progress opened : Progress}

theorem distinct_of_opened {make : String → Fields → Option Fields}
    (keeps : ∀ {name fields changed}, Fields.Distinct fields → make name fields = some changed →
      Fields.Distinct changed)
    {path : List String} (distinct : progress.fields.Distinct)
    (done : progress.opened make path = some opened) : opened.fields.Distinct := by
  simp only [Progress.opened, Option.bind_eq_bind, Option.bind_eq_some_iff] at done
  obtain ⟨name, -, fields, made, ⟨⟩⟩ := done
  exact distinct.within keeps made

theorem distinct_of_insert {path : List String} {document : Document}
    (distinct : progress.fields.Distinct)
    (done : progress.insert path document = some opened) : opened.fields.Distinct := by
  simp only [Progress.insert, Option.bind_eq_bind, Option.bind_eq_some_iff] at done
  obtain ⟨fields, made, ⟨⟩⟩ := done
  exact distinct.within Fields.Distinct.insert made

end Progress

variable {progress next : Progress} {cs rest : List Char}

theorem distinct_of_header (distinct : progress.fields.Distinct)
    (read : header progress cs = some (next, rest)) : next.fields.Distinct := by
  unfold header at read
  split at read
  all_goals
    simp only [Option.bind_eq_bind, Option.bind_eq_some_iff] at read
    obtain ⟨⟨path, left⟩, -, opened, made, after, -, ⟨⟩⟩ := read
    exact Progress.distinct_of_opened Fields.Distinct.alter distinct made

theorem distinct_of_pair (distinct : progress.fields.Distinct)
    (read : pair progress cs = some (next, rest)) : next.fields.Distinct := by
  simp only [pair, Option.bind_eq_bind, Option.bind_eq_some_iff] at read
  obtain ⟨⟨path, left⟩, -, after, -, ⟨document, left'⟩, -, inserted, made, ⟨⟩⟩ := read
  exact Progress.distinct_of_insert distinct made

/-- One line keeps the names of the document distinct. -/
theorem distinct_of_line (distinct : progress.fields.Distinct)
    (read : line progress cs = some (next, rest)) : next.fields.Distinct := by
  simp only [line, Option.bind_eq_bind] at read
  split at read
  on_goal 2 => split at read
  all_goals
    obtain ⟨⟨reached, left⟩, first, read⟩ := Option.bind_eq_some_iff.mp read
    obtain ⟨after, -, ⟨⟩⟩ := Option.bind_eq_some_iff.mp read
  · exact distinct_of_header distinct first
  · exact distinct_of_pair distinct first
  all_goals
    cases first
    exact distinct

theorem distinct_of_linesWithin {fuel : Nat} (distinct : progress.fields.Distinct)
    (read : linesWithin fuel progress cs = some next) : next.fields.Distinct := by
  induction fuel generalizing progress cs with
  | zero => cases read
  | succ fuel ih =>
    rw [linesWithin] at read
    cases first : line progress cs with
    | none => simp [first] at read
    | some reached =>
      obtain ⟨reached, left⟩ := reached
      have kept := distinct_of_line distinct first
      simp only [first] at read
      split at read
      · cases read
      · next h => cases h; cases read; exact kept
      · next h => cases h; exact ih kept read
      · cases read

theorem names_toTable (fields : Fields) :
    (Entry.toTable fields).map Prod.fst = fields.map Prod.fst := by
  induction fields with
  | nil => rfl
  | cons field rest ih => rw [Entry.toTable, List.map_cons, List.map_cons, ih]

theorem nodup_of_parse {text : String} {table : Table} (read : parse text = some table) :
    (table.map Prod.fst).Nodup := by
  obtain ⟨progress, lines, rfl⟩ := Option.map_eq_some_iff.mp read
  have start : Progress.start.fields.Distinct := List.nodup_nil
  rw [names_toTable]
  exact distinct_of_linesWithin start lines

end Toml

/-- A configuration file gives each of its names once. -/
theorem ConfigFile.nodup_of_table {file : ConfigFile} {table : Table}
    (read : file.table = .ok table) : (table.map Prod.fst).Nodup := by
  rw [ConfigFile.table] at read
  split at read
  · cases read
  · split at read
    · cases read
    · split at read
      · next parsed => cases read; exact Toml.nodup_of_parse parsed
      · cases read

end ClusterReadiness
