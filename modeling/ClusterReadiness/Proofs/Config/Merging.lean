import ClusterReadiness.Proofs.Config.Acceptance
import ClusterReadiness.Proofs.Toml.Names
import Mathlib.Data.List.Forall2

/-!
# Merged declarations

Topics that are declared one by one and topics that are declared by name alone are put into one list,
in which the first declaration of a name stays and later ones are passed over. So the declarations
come first, and then the bare names that none of them has. A merged list is merged already: merging
it with the same bare names once more changes nothing.
-/

namespace ClusterReadiness

/-- A traversal that succeeds gives each item the value of its own. -/
theorem forall₂_of_mapM_eq_ok {α β ε : Type} {f : α → Except ε β} {items : List α}
    {values : List β} (done : items.mapM f = .ok values) :
    List.Forall₂ (fun item value => f item = .ok value) items values := by
  induction items generalizing values with
  | nil =>
    cases done
    exact .nil
  | cons item rest ih =>
    rw [List.mapM_cons] at done
    cases first : f item with
    | error e => simp [first, bind, Except.bind] at done
    | ok value =>
      cases later : rest.mapM f with
      | error e => simp [first, later, bind, Except.bind] at done
      | ok others =>
        simp only [first, later, bind, Except.bind, pure, Except.pure, Except.ok.injEq] at done
        subst done
        exact .cons first (ih later)

theorem TopicSpec.eq_of_make {name : String} {partitions replication : Int} {spec : TopicSpec}
    (made : make name partitions replication = .ok spec) :
    (spec.partitions = partitions ∧ spec.replication = replication) ∧ spec.name = name := by
  unfold make at made
  split at made
  · cases made
  · split at made
    · split at made
      · cases made
        exact ⟨⟨rfl, rfl⟩, rfl⟩
      · cases made
    · cases made

namespace Config

variable {config : Config} {specs items : List TopicSpec} {spec : TopicSpec}

/-- A later declaration of the same name. -/
def repeats (later earlier : TopicSpec) : Bool := later.name == earlier.name

/-- The topics that are declared one by one, of each name the first declaration. -/
def ownSpecs (config : Config) : List TopicSpec := config.topics.eraseDupsBy repeats

/-- The bare names that no topic declared one by one has, each of them once. -/
def bareNames (config : Config) : List String :=
  (config.sharedNames.filter fun name => name ∉ config.topics.map (·.name)).eraseDups

section Merge

theorem merge_of_mem (declared : spec.name ∈ specs.map (·.name)) : merge specs spec = specs := by
  obtain ⟨earlier, hearlier, same⟩ := List.mem_map.mp declared
  refine if_pos (List.any_eq_true.mpr ⟨earlier, hearlier, ?_⟩)
  simpa using same

theorem merge_of_notMem (fresh : spec.name ∉ specs.map (·.name)) :
    merge specs spec = specs ++ [spec] := by
  refine if_neg fun declared => fresh ?_
  obtain ⟨earlier, hearlier, same⟩ := List.any_eq_true.mp declared
  exact List.mem_map.mpr ⟨earlier, hearlier, by simpa using same⟩

theorem names_merge : (merge specs spec).map (·.name) =
    if spec.name ∈ specs.map (·.name) then specs.map (·.name)
    else specs.map (·.name) ++ [spec.name] := by
  by_cases declared : spec.name ∈ specs.map (·.name)
  · rw [merge_of_mem declared, if_pos declared]
  · rw [merge_of_notMem declared, if_neg declared, List.map_append]
    rfl

/-- What merging adds is what is not declared yet, of each name the first declaration. -/
theorem foldl_merge_eq : items.foldl merge specs =
    specs ++ (items.filter fun item => item.name ∉ specs.map (·.name)).eraseDupsBy repeats := by
  induction items generalizing specs with
  | nil => simp
  | cons item rest ih =>
    rw [List.foldl_cons, ih]
    by_cases declared : item.name ∈ specs.map (·.name)
    · rw [merge_of_mem declared, List.filter_cons_of_neg (by simpa using declared)]
    · rw [merge_of_notMem declared, List.filter_cons_of_pos (by simpa using declared),
        List.eraseDupsBy_cons, List.filter_filter, List.append_assoc, List.singleton_append]
      congr 3
      refine List.filter_congr fun later _ => ?_
      simp [repeats, or_comm]

theorem nodup_foldl_merge (distinct : (specs.map (·.name)).Nodup) :
    ((items.foldl merge specs).map (·.name)).Nodup := by
  induction items generalizing specs with
  | nil => exact distinct
  | cons item rest ih =>
    refine ih ?_
    rw [names_merge]
    exact nodup_added distinct

theorem mem_names_foldl_merge {name : String} :
    name ∈ (items.foldl merge specs).map (·.name) ↔
      name ∈ specs.map (·.name) ∨ name ∈ items.map (·.name) := by
  induction items generalizing specs with
  | nil => simp
  | cons item rest ih =>
    rw [List.foldl_cons, ih, names_merge, List.map_cons, List.mem_cons]
    by_cases declared : item.name ∈ specs.map (·.name)
    · rw [if_pos declared]
      constructor
      · exact Or.imp_right .inr
      · rintro (before | rfl | after)
        · exact .inl before
        · exact .inl declared
        · exact .inr after
    · rw [if_neg declared, List.mem_append, List.mem_singleton, or_assoc]

/-- Declarations of names that are declared already change nothing. -/
theorem foldl_merge_of_declared (declared : ∀ item ∈ items, item.name ∈ specs.map (·.name)) :
    items.foldl merge specs = specs := by
  induction items with
  | nil => rfl
  | cons item rest ih =>
    obtain ⟨here, others⟩ := List.forall_mem_cons.mp declared
    rw [List.foldl_cons, merge_of_mem here]
    exact ih others

/-- Declarations of different names all stay. -/
theorem foldl_merge_of_nodup (distinct : ((specs ++ items).map (·.name)).Nodup) :
    items.foldl merge specs = specs ++ items := by
  induction items generalizing specs with
  | nil => exact (List.append_nil specs).symm
  | cons item rest ih =>
    have fresh : item.name ∉ specs.map (·.name) := by
      rw [List.map_append, List.map_cons] at distinct
      exact fun declared => (List.disjoint_of_nodup_append distinct) declared (.head _)
    rw [List.append_cons] at distinct ⊢
    rw [List.foldl_cons, merge_of_notMem fresh]
    exact ih distinct

/-- The first declaration stays, and what is left of the others after it has other names. -/
theorem eraseDupsBy_induction {motive : List TopicSpec → Prop} (nil : motive [])
    (cons : ∀ item rest, motive (rest.filter fun later => repeats later item = false) →
      motive (item :: rest)) (items : List TopicSpec) : motive items := by
  generalize length : items.length = n
  induction n using Nat.strong_induction_on generalizing items with
  | _ n ih =>
    cases items with
    | nil => exact nil
    | cons item rest =>
      refine cons item rest (ih _ ?_ _ rfl)
      rw [← length]
      exact Nat.lt_succ_of_le (List.length_filter_le _ _)

theorem eraseDupsBy_subset (items : List TopicSpec) : items.eraseDupsBy repeats ⊆ items := by
  induction items using eraseDupsBy_induction with
  | nil => exact List.Subset.refl []
  | cons item rest ih =>
    rw [List.eraseDupsBy_cons]
    exact List.cons_subset_cons item (List.Subset.trans ih (List.filter_subset_self _))

/-- The names of first declarations are the names without their repetitions. -/
theorem names_eraseDupsBy (items : List TopicSpec) :
    (items.eraseDupsBy repeats).map (·.name) = (items.map (·.name)).eraseDups := by
  induction items using eraseDupsBy_induction with
  | nil => rfl
  | cons item rest ih =>
    rw [List.eraseDupsBy_cons, List.map_cons, ih, List.map_cons, List.eraseDups_cons,
      List.filter_map]
    congr 3
    refine List.filter_congr fun later _ => ?_
    simp [repeats, ← beq_eq_decide]

end Merge

section Counts

/-- With positive counts every bare name that is not blank gets a declaration with these counts. -/
theorem exists_shared (partitions_pos : 1 ≤ config.partitions)
    (replication_pos : 1 ≤ config.replication) :
    ∃ shared : List TopicSpec,
      (∀ spec ∈ shared, spec.partitions = config.partitions ∧
        spec.replication = config.replication) ∧
      shared.map (·.name) = config.sharedNames ∧
      ∀ topics, { config with topics }.topicSpecs = .ok ((topics ++ shared).foldl merge []) := by
  obtain ⟨shared, made⟩ := exists_mapM_eq_ok_iff.mpr fun name (hname : name ∈ config.sharedNames) =>
    (TopicSpec.exists_make_eq_ok_iff (not_allBlank_of_shared hname)).mpr
      ⟨partitions_pos, replication_pos⟩
  have each := (forall₂_of_mapM_eq_ok made).flip.imp fun spec name => TopicSpec.eq_of_make
  obtain ⟨counts, names⟩ := (List.forall₂_and_left _ _).mp each
  refine ⟨shared, counts, List.forall₂_eq_eq_eq ▸ List.forall₂_map_left_iff.mpr names, ?_⟩
  exact fun topics => topicSpecs_eq.trans (congrArg (Except.map _) made)

/-- The merged list is the topics declared one by one, of each name the first, and then a topic with
the shared counts for each bare name that is left. -/
theorem exists_topicSpecs_eq (partitions_pos : 1 ≤ config.partitions)
    (replication_pos : 1 ≤ config.replication) :
    ∃ shared : List TopicSpec, config.topicSpecs = .ok (config.ownSpecs ++ shared) ∧
      shared.map (·.name) = config.bareNames ∧
      ∀ spec ∈ shared, spec.partitions = config.partitions ∧
        spec.replication = config.replication := by
  obtain ⟨shared, counts, names, merged⟩ := exists_shared partitions_pos replication_pos
  have own : config.topics.foldl merge [] = config.ownSpecs := by
    rw [foldl_merge_eq]
    simp [ownSpecs]
  have declared (name : String) : name ∈ config.ownSpecs.map (·.name) ↔
      name ∈ config.topics.map (·.name) := by
    rw [← own, mem_names_foldl_merge]
    simp
  let fresh (spec : TopicSpec) : Bool := spec.name ∉ config.ownSpecs.map (·.name)
  refine ⟨(shared.filter fresh).eraseDupsBy repeats, ?_, ?_, fun spec hspec => counts spec ?_⟩
  · rw [merged, List.foldl_append, own, foldl_merge_eq]
  · rw [names_eraseDupsBy, bareNames, ← names, List.filter_map]
    congr 2
    refine List.filter_congr fun spec _ => ?_
    simp only [fresh, declared, Function.comp_apply]
  · exact List.filter_subset_self _ (eraseDupsBy_subset _ hspec)

end Counts

/-- With positive counts the topics are the declarations, in their order and of each name the first,
and then one with the shared counts for each bare name, in order, that is not blank and is not
declared before. So every name that is declared is there, and none is there twice; and in place of
the declarations the merged list comes to itself again. -/
theorem topicSpecs_first_wins (partitions_pos : 1 ≤ config.partitions)
    (replication_pos : 1 ≤ config.replication) :
    ∃ specs, config.topicSpecs = .ok specs ∧
      (∃ shared, specs = config.ownSpecs ++ shared ∧ shared.map (·.name) = config.bareNames ∧
        ∀ spec ∈ shared, spec.partitions = config.partitions ∧
          spec.replication = config.replication) ∧
      (specs.map (·.name)).Nodup ∧
      (∀ name, name ∈ specs.map (·.name) ↔
        name ∈ config.topics.map (·.name) ∨ name ∈ config.sharedNames) ∧
      { config with topics := specs }.topicSpecs = .ok specs := by
  obtain ⟨shared, made, bare⟩ := exists_topicSpecs_eq partitions_pos replication_pos
  obtain ⟨all, -, names, merged⟩ := exists_shared partitions_pos replication_pos
  have whole : config.ownSpecs ++ shared = (config.topics ++ all).foldl merge [] :=
    Except.ok.inj (made.symm.trans (merged config.topics))
  have distinct : ((config.ownSpecs ++ shared).map (·.name)).Nodup := by
    rw [whole]
    exact nodup_foldl_merge List.nodup_nil
  have declared (name : String) : name ∈ (config.ownSpecs ++ shared).map (·.name) ↔
      name ∈ config.topics.map (·.name) ∨ name ∈ config.sharedNames := by
    rw [whole, mem_names_foldl_merge, List.map_append, names, List.mem_append]
    simp
  refine ⟨_, made, ⟨shared, rfl, bare⟩, distinct, declared, ?_⟩
  -- The merged list stays as it is, and has every bare name already.
  have stays : (config.ownSpecs ++ shared).foldl merge [] = [] ++ (config.ownSpecs ++ shared) :=
    foldl_merge_of_nodup distinct
  rw [merged, List.foldl_append, stays, List.nil_append]
  refine congrArg Except.ok (foldl_merge_of_declared fun spec hspec => ?_)
  rw [declared, ← names]
  exact .inr (List.mem_map_of_mem hspec)

/-- Two declarations of one name, and bare names that repeat it and each other up to blanks. -/
def overlapping : Config :=
  { default with
    topics := [⟨"shipments", 12, 4, by decide, by decide, by decide⟩,
      ⟨"shipments", 8, 7, by decide, by decide, by decide⟩]
    topicNames := [" events", "shipments ", "", "events"] }

theorem topicSpecs_first_wins_overlapping :
    1 ≤ overlapping.partitions ∧ 1 ≤ overlapping.replication ∧
    ∃ specs, overlapping.topicSpecs = .ok specs ∧ specs.map (·.name) = ["shipments", "events"] ∧
      { overlapping with topics := specs }.topicSpecs = .ok specs := by
  have partitions_pos : 1 ≤ overlapping.partitions := by decide
  have replication_pos : 1 ≤ overlapping.replication := by decide
  obtain ⟨specs, made, ⟨shared, rfl, names, -⟩, -, -, again⟩ :=
    topicSpecs_first_wins partitions_pos replication_pos
  refine ⟨partitions_pos, replication_pos, _, made, ?_, again⟩
  rw [List.map_append, names]
  decide +kernel

end Config

end ClusterReadiness
