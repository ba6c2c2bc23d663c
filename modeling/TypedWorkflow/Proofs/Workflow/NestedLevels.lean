import TypedWorkflow.Proofs.Workflow.Definition
import TypedWorkflow.Proofs.Workflow.Levels

/-!
# The levels of a definition in order

A walk through a definition that looks at a level before the levels inside, and at these in node
order, meets the levels in a list. Every level is in it, at the location to which the chain of its
owners leads, and since the ids of a level are distinct no location is met twice.

## Main definitions

* `Definition.levels`, `Definition.nestedLevels`: the levels with their locations, in order.
* `Definition.mem_levels_iff`: all levels are in the list.
* `Definition.Validated.nodup_levels`: none is in it twice.
-/

namespace TypedWorkflow.Definition

mutual

/-- The levels of a definition with their locations, each before the levels inside. -/
def levels : Definition → List (Location × Definition)
  | ⟨nodes, links, inputs⟩ => ([], ⟨nodes, links, inputs⟩) :: levelsOwned nodes

/-- The levels that nodes own, in node order, each before the levels inside. -/
def levelsOwned : List Node → List (Location × Definition)
  | [] => []
  | ⟨_, _, _, _, _, _, none⟩ :: rest => levelsOwned rest
  | ⟨id, _, _, _, _, _, some s⟩ :: rest =>
    (levels s).map (fun level => (id :: level.1, level.2)) ++ levelsOwned rest

end

/-- The levels inside a definition. -/
def nestedLevels (d : Definition) : List (Location × Definition) :=
  levelsOwned d.nodes

theorem levels_eq (d : Definition) : d.levels = ([], d) :: d.nestedLevels := by
  obtain ⟨nodes, links, inputs⟩ := d
  rw [levels, nestedLevels]

/-- The levels inside a definition, by the definitions that its nodes own. -/
theorem nestedLevels_eq (d : Definition) :
    d.nestedLevels = d.subworkflows.flatMap fun owned =>
      owned.2.levels.map fun level => (owned.1 :: level.1, level.2) := by
  rw [nestedLevels, subworkflows]
  induction d.nodes with
  | nil => rfl
  | cons n rest ih =>
    obtain ⟨id, parent, title, type, config, coordinates, owned⟩ := n
    cases owned with
    | none => rw [levelsOwned, ih]; rfl
    | some s => rw [levelsOwned, ih]; rfl

theorem mem_subworkflows_iff {d s : Definition} {id : String} :
    (id, s) ∈ d.subworkflows ↔ ∃ n ∈ d.nodes, n.id = id ∧ n.subworkflow = some s := by
  simp only [subworkflows, List.mem_filterMap, Option.map_eq_some_iff, Prod.mk.injEq]
  constructor
  · rintro ⟨n, hn, t, ht, rfl, rfl⟩
    exact ⟨n, hn, rfl, ht⟩
  · rintro ⟨n, hn, rfl, hs⟩
    exact ⟨n, hn, s, hs, rfl, rfl⟩

/-- The levels inside a definition are those of the definitions that its nodes own. -/
theorem mem_nestedLevels_iff {d s : Definition} {location : Location} :
    (location, s) ∈ d.nestedLevels ↔ ∃ n ∈ d.nodes, ∃ t, n.subworkflow = some t ∧
      ∃ inner, location = n.id :: inner ∧ (inner, s) ∈ t.levels := by
  rw [nestedLevels_eq, List.mem_flatMap]
  constructor
  · rintro ⟨⟨id, t⟩, howned, hmem⟩
    obtain ⟨⟨inner, u⟩, hlevel, heq⟩ := List.mem_map.1 hmem
    obtain ⟨rfl, rfl⟩ := Prod.mk.inj heq
    obtain ⟨n, hn, rfl, ht⟩ := mem_subworkflows_iff.1 howned
    exact ⟨n, hn, t, ht, inner, rfl, hlevel⟩
  · rintro ⟨n, hn, t, ht, inner, rfl, hlevel⟩
    exact ⟨(n.id, t), mem_subworkflows_iff.2 ⟨n, hn, rfl, ht⟩,
      List.mem_map.2 ⟨(inner, s), hlevel, rfl⟩⟩

theorem workflow_injective {d s : Definition} (h : d.workflow = s.workflow) : d = s := by
  rw [← ofValidated_workflow d, h, ofValidated_workflow]

/-- A definition is among the levels at a location exactly if the location leads to it. -/
theorem mem_levels_iff {d s : Definition} {location : Location} :
    (location, s) ∈ d.levels ↔ d.workflow.LevelAt location s.workflow := by
  induction d using Definition.ind generalizing location with
  | level d ih =>
    rw [levels_eq, List.mem_cons, mem_nestedLevels_iff]
    cases location with
    | nil =>
      rw [Workflow.levelAt_nil_iff]
      constructor
      · rintro (htop | ⟨n, hn, t, ht, inner, hnil, hlevel⟩)
        · rw [(Prod.mk.inj htop).2]
        · cases hnil
      · intro hsame
        rw [workflow_injective hsame]
        exact .inl rfl
    | cons id location =>
      rw [Workflow.levelAt_cons_iff, nodes_workflow]
      constructor
      · rintro (htop | ⟨n, hn, t, ht, inner, hcons, hlevel⟩)
        · cases htop
        · obtain ⟨rfl, rfl⟩ := List.cons.inj hcons
          refine ⟨n.mapOwned workflow, List.mem_map_of_mem hn, rfl, t.workflow, ?_, ?_⟩
          · simp [NodeEntry.mapOwned, ht]
          · exact (ih n hn t ht).1 hlevel
      · rintro ⟨m, hm, rfl, u, hu, hlevel⟩
        obtain ⟨n, hn, rfl⟩ := List.mem_map.1 hm
        obtain ⟨t, ht, rfl⟩ := Option.map_eq_some_iff.1 hu
        exact .inr ⟨n, hn, t, ht, location, rfl, (ih n hn t ht).2 hlevel⟩

/-! ## Levels of validated definitions -/

/-- The levels of a validated definition are validated. -/
theorem Validated.of_mem_levels {d : Definition} (hd : d.Validated) {location : Location}
    {s : Definition} (h : (location, s) ∈ d.levels) : s.Validated := by
  induction d using Definition.ind generalizing location with
  | level d ih =>
    rw [levels_eq, List.mem_cons, mem_nestedLevels_iff] at h
    rcases h with htop | ⟨n, hn, t, ht, inner, -, hlevel⟩
    · rw [(Prod.mk.inj htop).2]
      exact hd
    · exact ih n hn t ht (.owned hd (mem_subworkflows_iff.2 ⟨n, hn, rfl, ht⟩)) hlevel

/-- The owners of a validated level have distinct ids. -/
theorem Validated.nodup_owners {d : Definition} (hd : d.Validated) :
    (d.subworkflows.map Prod.fst).Nodup := by
  have hsublist : (d.subworkflows.map Prod.fst).Sublist (d.nodes.map NodeEntry.id) :=
    Entries.names_filterMap_sublist NodeEntry.id NodeEntry.subworkflow d.nodes
  exact hd.nodup_nodeIds.sublist hsublist

/-- No location is met twice. -/
theorem Validated.nodup_levels {d : Definition} (hd : d.Validated) :
    (d.levels.map Prod.fst).Nodup := by
  induction d using Definition.ind with
  | level d ih =>
    have hinside : d.nestedLevels.map Prod.fst = d.subworkflows.flatMap fun owned =>
        (owned.2.levels.map Prod.fst).map (owned.1 :: ·) := by
      rw [nestedLevels_eq, List.map_flatMap]
      simp [Function.comp_def]
    rw [levels_eq, List.map_cons, hinside, List.nodup_cons, List.nodup_flatMap]
    refine ⟨by simp, ?_, ?_⟩
    · rintro ⟨id, s⟩ howned
      obtain ⟨n, hn, rfl, hs⟩ := mem_subworkflows_iff.1 howned
      exact (ih n hn s hs (.owned hd howned)).map List.cons_injective
    · -- locations inside different nodes start with different ids
      refine (List.pairwise_map.1 hd.nodup_owners).imp fun {a b} hne => ?_
      intro location ha hb
      obtain ⟨_, _, rfl⟩ := List.mem_map.1 ha
      obtain ⟨_, _, heq⟩ := List.mem_map.1 hb
      exact hne (List.cons.inj heq).1.symm

end TypedWorkflow.Definition
