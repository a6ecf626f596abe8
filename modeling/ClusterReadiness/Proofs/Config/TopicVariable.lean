import ClusterReadiness.Proofs.Config.Merging
import ClusterReadiness.Proofs.Config.Overrides

/-!
# Topics named in the environment

One variable holds the names of topics between commas. Names may have blanks around them and there
may be blank pieces anywhere: the loader keeps every piece that is not blank as it is written, and
the names come out when the pieces are trimmed and merged. So whichever way names are written into
the variable, loading gives them back, each at its first place.
-/

namespace ClusterReadiness

namespace Text

section Pieces

theorem splitChars_eq_splitOn (separator : Char) (cs : List Char) :
    splitChars separator cs = cs.splitOn separator := by
  induction cs with
  | nil => rfl
  | cons c rest ih =>
    obtain ⟨piece, pieces, split⟩ :=
      List.exists_cons_of_ne_nil (List.splitOn_ne_nil separator rest)
    rw [splitChars, ih, List.splitOn_cons_eq_if_modifyHead, split]
    by_cases here : c = separator
    · rw [if_pos here, if_pos (beq_iff_eq.mpr here)]
    · rw [if_neg here, if_neg fun same => here (beq_iff_eq.mp same), List.modifyHead_cons]

/-- Texts without commas are the pieces of what they are joined to. -/
theorem splitOn_intercalate {pieces : List String} (some : pieces ≠ [])
    (free : ∀ piece ∈ pieces, ',' ∉ piece.toList) :
    splitOn ',' (",".intercalate pieces) = pieces := by
  have joined : (",".intercalate pieces).toList = [','].intercalate (pieces.map String.toList) :=
    String.toList_intercalate
  have apart : ∀ cs ∈ pieces.map String.toList, ',' ∉ cs := by simpa using free
  rw [splitOn, joined, splitChars_eq_splitOn,
    List.splitOn_intercalate ',' apart (by simpa using some), List.map_map]
  exact (List.map_congr_left fun piece _ => String.ofList_toList).trans (List.map_id pieces)

end Pieces

section Trimming

variable {left right s : String}

theorem trimBlanks_padded {before after : List Char} (before_blank : ∀ c ∈ before, isBlank c = true)
    (after_blank : ∀ c ∈ after, isBlank c = true) (cs : List Char) :
    trimBlanks (before ++ (cs ++ after)) = trimBlanks cs := by
  rw [trimBlanks, List.dropWhile_append_of_pos before_blank, List.dropWhile_append]
  by_cases gone : (cs.dropWhile isBlank).isEmpty
  · have nothing : cs.dropWhile isBlank = [] := List.isEmpty_iff.mp gone
    rw [if_pos gone, List.dropWhile_eq_nil_iff.mpr after_blank, trimBlanks, nothing]
  · have backwards : ∀ c ∈ after.reverse, isBlank c = true :=
      fun c hc => after_blank c (List.mem_reverse.mp hc)
    rw [if_neg gone, List.reverse_append, List.dropWhile_append_of_pos backwards, trimBlanks]

/-- Blanks on either side make no difference to what is left by trimming. -/
theorem trim_padded (left_blank : AllBlank left) (right_blank : AllBlank right) :
    trim (left ++ s ++ right) = trim s := by
  rw [trim, String.toList_append, String.toList_append, List.append_assoc,
    trimBlanks_padded left_blank right_blank, trim]

theorem comma_notMem_of_allBlank (blank : AllBlank s) : ',' ∉ s.toList := by
  intro among
  exact absurd (blank ',' among) (by decide)

end Trimming

end Text

namespace Environment

variable {names pieces : List String}

/-- The names of all pieces that are not blank, each piece being a name with blanks around it. -/
inductive Spells : List String → List String → Prop where
  | none : Spells [] []
  | blank {names pieces : List String} {piece : String} (blank : Text.AllBlank piece)
      (others : Spells names pieces) : Spells names (piece :: pieces)
  | name {names pieces : List String} {name left right : String}
      (left_blank : Text.AllBlank left) (right_blank : Text.AllBlank right)
      (others : Spells names pieces) : Spells (name :: names) ((left ++ name ++ right) :: pieces)

/-- A name that can be told from the text around it. -/
structure Plain (name : String) : Prop where
  some : name ≠ ""
  uncut : ',' ∉ name.toList
  trimmed : Text.trim name = name

/-- No comma comes in with the blanks. -/
theorem Spells.free (spells : Spells names pieces) (plain : ∀ name ∈ names, Plain name) :
    ∀ piece ∈ pieces, ',' ∉ piece.toList := by
  induction spells with
  | none => simp
  | blank blank _ ih =>
    exact List.forall_mem_cons.mpr ⟨Text.comma_notMem_of_allBlank blank, ih plain⟩
  | name left_blank right_blank _ ih =>
    obtain ⟨here, others⟩ := List.forall_mem_cons.mp plain
    refine List.forall_mem_cons.mpr ⟨?_, ih others⟩
    simp [here.uncut, Text.comma_notMem_of_allBlank left_blank,
      Text.comma_notMem_of_allBlank right_blank]

/-- The pieces that are not blank, trimmed, are the names. -/
theorem Spells.trimmed (spells : Spells names pieces) (plain : ∀ name ∈ names, Plain name) :
    (pieces.filter fun piece => !decide (Text.AllBlank piece)).map Text.trim = names := by
  induction spells with
  | none => rfl
  | blank blank _ ih =>
    rw [List.filter_cons_of_neg (by simpa using blank)]
    exact ih plain
  | @name names pieces name left right left_blank right_blank _ ih =>
    obtain ⟨here, others⟩ := List.forall_mem_cons.mp plain
    have taken : Text.trim (left ++ name ++ right) = name :=
      (Text.trim_padded left_blank right_blank).trans here.trimmed
    have seen : ¬ Text.AllBlank (left ++ name ++ right) := by
      rw [Text.allBlank_iff_trim_eq, taken]
      exact here.some
    rw [List.filter_cons_of_pos (by simpa using seen), List.map_cons, taken, ih others]

/-- What the variable holds is cut into the pieces that it was joined from. -/
theorem topicNames_intercalate (free : ∀ piece ∈ pieces, ',' ∉ piece.toList) :
    topicNames (",".intercalate pieces) =
      pieces.filter fun piece => !decide (Text.AllBlank piece) := by
  rw [topicNames]
  by_cases some : pieces = []
  · rw [some]
    decide
  · rw [Text.splitOn_intercalate some free]

end Environment

namespace Config

/-- Without a file, loading gives the defaults with the overrides in place. -/
theorem run_load_without_file {σ : Type} (record : Level → String → StateM σ Unit)
    (environment : Environment) (log : σ) :
    ((load record none environment).run log).1 = .ok (environment.applied default) := by
  have distinct : (([] : Table).map Prod.fst).Nodup := List.nodup_nil
  have timed : (environment.applied default).withTimeout
      (environment.applied default).requestTimeout = .ok (environment.applied default) :=
    dif_neg (environment.applied default).timeout_pos
  rw [run_load]
  refine resolve_eq_ok_iff.mpr ((read_overridden environment distinct).trans ?_)
  -- No field is read, so the start is all there is to check.
  show (Reader.checked (Config.withTimeout _ _)).mapError _ = _
  rw [timed]
  rfl

/-- A variable that is empty names as many topics as one that is not set. -/
theorem topicNames_applied (text : String) :
    (Environment.applied [("KBOOTSTRAP_TOPICS", text)] default).topicNames =
      Environment.topicNames text := by
  by_cases empty : text = ""
  · rw [empty]
    decide
  · have set : Environment.value? [("KBOOTSTRAP_TOPICS", text)] "KBOOTSTRAP_TOPICS" = some text := by
      simp [Environment.value?, Option.filter, empty]
    rw [Environment.applied, set]
    rfl

/-- Plain names that are spelled in the variable come out as they are. -/
theorem sharedNames_applied {names pieces : List String} (spells : Environment.Spells names pieces)
    (plain : ∀ name ∈ names, Environment.Plain name) :
    sharedNames (Environment.applied [("KBOOTSTRAP_TOPICS", ",".intercalate pieces)] default) =
      names := by
  rw [sharedNames, topicNames_applied, Environment.topicNames_intercalate (spells.free plain),
    spells.trimmed plain]
  exact List.filter_eq_self.mpr fun name hname => by simpa using (plain name hname).some

/-- Whichever way plain names are spelled in the variable, loading without a file gives them back,
each at its first place and with the shared counts; all else is as it is by default. -/
theorem load_names_topics {σ : Type} (record : Level → String → StateM σ Unit) (log : σ)
    {names pieces : List String} (plain : ∀ name ∈ names, Environment.Plain name)
    (spells : Environment.Spells names pieces) :
    ∃ config specs, ((load record none
        [("KBOOTSTRAP_TOPICS", ",".intercalate pieces)]).run log).1 = .ok config ∧
      config = { default with topicNames := config.topicNames } ∧
      config.topicSpecs = .ok specs ∧ specs.map (·.name) = names.eraseDups ∧
      ∀ spec ∈ specs, spec.partitions = config.partitions ∧
        spec.replication = config.replication := by
  let environment : Environment := [("KBOOTSTRAP_TOPICS", ",".intercalate pieces)]
  have partitions_pos : 1 ≤ (environment.applied default).partitions :=
    show 1 ≤ default.partitions by decide
  have replication_pos : 1 ≤ (environment.applied default).replication :=
    show 1 ≤ default.replication by decide
  obtain ⟨shared, made, bare, counts⟩ := exists_topicSpecs_eq partitions_pos replication_pos
  refine ⟨_, shared, run_load_without_file record environment log, rfl, made, ?_, counts⟩
  rw [bare, bareNames, sharedNames_applied spells plain]
  exact congrArg List.eraseDups (List.filter_eq_self.mpr fun name _ => rfl)

/-- Blank pieces, blanks around names, and a name that is given twice. -/
theorem load_names_topics_spaced :
    (∀ name ∈ ["orders", "a b", "orders"], Environment.Plain name) ∧
    Environment.Spells ["orders", "a b", "orders"] ["", " orders", "  ", "a b\t", "orders", " "] ∧
    ∃ config specs, ((load (fun _ _ => modify (· + 1)) none
        [("KBOOTSTRAP_TOPICS", ", orders,  ,a b\t,orders, ")] :
          StateM Nat (Result Config)).run 0).1 = .ok config ∧
      config.topicSpecs = .ok specs ∧ specs.map (·.name) = ["orders", "a b"] ∧
      ∀ spec ∈ specs, spec.partitions = 3 ∧ spec.replication = 1 := by
  have plain : ∀ name ∈ ["orders", "a b", "orders"], Environment.Plain name := by
    simp only [List.forall_mem_cons]
    refine ⟨⟨?_, ?_, ?_⟩, ⟨?_, ?_, ?_⟩, ⟨?_, ?_, ?_⟩, by simp⟩ <;> decide +kernel
  have none : Text.AllBlank "" := by decide
  have space : Text.AllBlank " " := by decide
  have tab : Text.AllBlank "\t" := by decide
  have spells : Environment.Spells ["orders", "a b", "orders"]
      ["", " orders", "  ", "a b\t", "orders", " "] :=
    .blank none (.name space none (.blank (by decide) (.name none tab (.name none none
      (.blank space .none)))))
  obtain ⟨config, specs, loaded, usual, made, names, counts⟩ :=
    load_names_topics (fun _ _ => modify (· + 1)) 0 plain spells
  refine ⟨plain, spells, config, specs, loaded, made, names.trans (by decide), ?_⟩
  rw [usual] at counts
  exact counts

end Config

end ClusterReadiness
