import TypedWorkflow.Node.Config
import TypedWorkflow.Proofs.Entries
import TypedWorkflow.Proofs.Except

/-!
# Reading the config of a node

The entries of an object are read one after the other. What stands under the key of a side has to
read as a schema, which the config then declares for this side; every other entry is kept as it is.
So a config can be read exactly if its sides can, and where no key is repeated, the schema declared
for a side is the one under its key.

## Main definitions

* `NodeConfig.addEntries_cons_iff`: what one entry does.
* `NodeConfig.exists_ofJson_obj_iff`: which objects are configs.
* `NodeConfig.schema?_eq_some_iff`, `NodeConfig.get?_of_ofJson`: what a config that was read holds.
-/

namespace TypedWorkflow

/-! ## Sides -/

namespace Side

theorem eq_other_of_ne {side other : Side} (h : other ≠ side) : other = side.other := by
  cases side with
  | input =>
    cases other with
    | input => exact absurd rfl h
    | output => rfl
  | output =>
    cases other with
    | input => rfl
    | output => exact absurd rfl h

theorem key_inj {side other : Side} : side.key = other.key ↔ side = other := by
  refine ⟨fun h => ?_, congrArg key⟩
  by_contra hne
  rw [eq_other_of_ne hne] at h
  cases other <;> exact absurd h (by decide)

end Side

namespace NodeConfig

variable {c d : NodeConfig} {side : Side} {s : Schema}

/-! ## One entry -/

/-- The config that declares a schema for a side. -/
def declare (c : NodeConfig) : Side → Schema → NodeConfig
  | .input, s => { c with inputSchema := some s }
  | .output, s => { c with outputSchema := some s }

/-- The config with one more entry that is no schema of a side. -/
def keep (c : NodeConfig) (key : String) (v : Json) : NodeConfig :=
  { c with values := c.values ++ [(key, v)] }

@[simp] theorem schema?_declare (c : NodeConfig) (side other : Side) (s : Schema) :
    (c.declare side s).schema? other = if other = side then some s else c.schema? other := by
  cases side <;> cases other <;> rfl

@[simp] theorem values_declare (c : NodeConfig) (side : Side) (s : Schema) :
    (c.declare side s).values = c.values := by
  cases side <;> rfl

@[simp] theorem schema?_keep (c : NodeConfig) (key : String) (v : Json) (side : Side) :
    (c.keep key v).schema? side = c.schema? side := by
  cases side <;> rfl

@[simp] theorem values_keep (c : NodeConfig) (key : String) (v : Json) :
    (c.keep key v).values = c.values ++ [(key, v)] :=
  rfl

theorem readSchema_eq_ok_iff {v : Json} : readSchema side v = .ok s ↔ Schema.ofJson v = .ok s := by
  rw [readSchema]
  cases Schema.ofJson v <;> simp

theorem addEntries_side (c : NodeConfig) (side : Side) (v : Json) (rest : Json.Entries) :
    c.addEntries ((side.key, v) :: rest) =
      readSchema side v >>= fun s => (c.declare side s).addEntries rest := by
  cases side with
  | input => rw [addEntries, if_pos rfl]; rfl
  | output => rw [addEntries, if_neg (by decide), if_pos rfl]; rfl

theorem addEntries_other {key : String} (hkey : ∀ side : Side, key ≠ side.key) (c : NodeConfig)
    (v : Json) (rest : Json.Entries) :
    c.addEntries ((key, v) :: rest) = (c.keep key v).addEntries rest := by
  rw [addEntries, if_neg (hkey .input), if_neg (hkey .output)]
  rfl

/-- An entry declares the schema of a side or is kept. -/
theorem addEntries_cons_iff {key : String} {v : Json} {rest : Json.Entries} :
    c.addEntries ((key, v) :: rest) = .ok d ↔
      (∃ (side : Side) (s : Schema), key = side.key ∧ Schema.ofJson v = .ok s ∧
        (c.declare side s).addEntries rest = .ok d) ∨
      (∀ side : Side, key ≠ side.key) ∧ (c.keep key v).addEntries rest = .ok d := by
  by_cases hkey : ∃ side : Side, key = side.key
  · obtain ⟨side, rfl⟩ := hkey
    rw [addEntries_side, Except.bind_eq_ok_iff]
    constructor
    · rintro ⟨s, hs, hrest⟩
      exact .inl ⟨side, s, rfl, readSchema_eq_ok_iff.1 hs, hrest⟩
    · rintro (⟨other, s, hother, hs, hrest⟩ | ⟨hne, -⟩)
      · obtain rfl := Side.key_inj.1 hother
        exact ⟨s, readSchema_eq_ok_iff.2 hs, hrest⟩
      · exact absurd rfl (hne side)
  · have hne : ∀ side : Side, key ≠ side.key := fun side h => hkey ⟨side, h⟩
    rw [addEntries_other hne]
    constructor
    · intro hrest
      exact .inr ⟨hne, hrest⟩
    · rintro (⟨side, -, hside, -⟩ | ⟨-, hrest⟩)
      · exact absurd hside (hne side)
      · exact hrest

/-! ## All entries -/

/-- Entries can be added to a config if those under the keys of the sides read as schemas, whatever
has been added before. -/
theorem exists_addEntries_iff {entries : Json.Entries} :
    (∃ d, c.addEntries entries = .ok d) ↔
      ∀ (side : Side) v, (side.key, v) ∈ entries → ∃ s, Schema.ofJson v = .ok s := by
  induction entries generalizing c with
  | nil => exact ⟨fun _ => by simp, fun _ => ⟨c, rfl⟩⟩
  | cons e rest ih =>
    obtain ⟨key, v⟩ := e
    constructor
    · rintro ⟨d, h⟩ side u hu
      rcases addEntries_cons_iff.1 h with ⟨other, s, rfl, hs, hrest⟩ | ⟨hne, hrest⟩
      · rcases List.mem_cons.1 hu with heq | hu
        · obtain ⟨-, rfl⟩ := Prod.mk.inj heq
          exact ⟨s, hs⟩
        · exact ih.1 ⟨d, hrest⟩ side u hu
      · rcases List.mem_cons.1 hu with heq | hu
        · exact absurd (Prod.mk.inj heq).1.symm (hne side)
        · exact ih.1 ⟨d, hrest⟩ side u hu
    · intro h
      have hrest (side : Side) (u : Json) (hu : (side.key, u) ∈ rest) :
          ∃ s, Schema.ofJson u = .ok s := h side u (List.mem_cons_of_mem _ hu)
      by_cases hkey : ∃ side : Side, key = side.key
      · obtain ⟨side, rfl⟩ := hkey
        obtain ⟨s, hs⟩ := h side v (List.mem_cons_self ..)
        obtain ⟨d, hd⟩ := (ih (c := c.declare side s)).2 hrest
        exact ⟨d, addEntries_cons_iff.2 (.inl ⟨side, s, rfl, hs, hd⟩)⟩
      · obtain ⟨d, hd⟩ := (ih (c := c.keep key v)).2 hrest
        exact ⟨d, addEntries_cons_iff.2 (.inr ⟨fun side h => hkey ⟨side, h⟩, hd⟩)⟩

/-- The schema that the entries declare for a side, or the one declared before. -/
theorem schema?_of_addEntries {entries : Json.Entries} (hkeys : (entries.map Prod.fst).Nodup)
    (h : c.addEntries entries = .ok d) (side : Side) :
    d.schema? side = (entries.lookup side.key).elim (c.schema? side)
      fun v => (Schema.ofJson v).toOption := by
  induction entries generalizing c with
  | nil =>
    obtain rfl : c = d := Except.ok.inj h
    rfl
  | cons e rest ih =>
    obtain ⟨key, v⟩ := e
    obtain ⟨hnew, hrestKeys⟩ := List.nodup_cons.1 hkeys
    rcases addEntries_cons_iff.1 h with ⟨other, s, rfl, hs, hrest⟩ | ⟨hne, hrest⟩
    · rw [ih hrestKeys hrest, schema?_declare]
      by_cases hside : side = other
      · subst hside
        have hnone : rest.lookup side.key = none := by
          rw [← Option.not_isSome_iff_eq_none, Entries.isSome_lookup_iff]
          exact hnew
        rw [if_pos rfl, hnone, List.lookup_cons_self, Option.elim_some, hs]
        rfl
      · rw [if_neg hside, List.lookup_cons, beq_false_of_ne (mt Side.key_inj.1 hside)]
    · rw [ih hrestKeys hrest, schema?_keep, List.lookup_cons, beq_false_of_ne (hne side).symm]

/-- Entries other than the schemas are found as before and as they stand among the entries. -/
theorem lookup_of_addEntries {entries : Json.Entries} (h : c.addEntries entries = .ok d)
    {key : String} (hkey : ∀ side : Side, key ≠ side.key) :
    d.values.lookup key = (c.values ++ entries).lookup key := by
  induction entries generalizing c with
  | nil =>
    obtain rfl : c = d := Except.ok.inj h
    rw [List.append_nil]
  | cons e rest ih =>
    obtain ⟨name, v⟩ := e
    rcases addEntries_cons_iff.1 h with ⟨side, s, rfl, -, hrest⟩ | ⟨-, hrest⟩
    · rw [ih hrest, values_declare, List.lookup_append, List.lookup_append, List.lookup_cons,
        beq_false_of_ne (hkey side)]
    · rw [ih hrest, values_keep, List.append_assoc]
      rfl

/-! ## Configs that were read -/

/-- An object is a config if what stands under the keys of the sides are schemas. -/
theorem exists_ofJson_obj_iff {entries : Json.Entries} (hkeys : (entries.map Prod.fst).Nodup) :
    (∃ c, ofJson (.obj entries) = .ok c) ↔
      ∀ (side : Side) v, (Json.obj entries).get? side.key = some v →
        ∃ s, Schema.ofJson v = .ok s := by
  rw [ofJson, exists_addEntries_iff]
  simp only [Json.get?, Entries.lookup_eq_some_iff hkeys]

/-- The schema of a side is what stands under its key. -/
theorem schema?_of_ofJson {v : Json} (hv : v.Distinct) (h : ofJson v = .ok c) (side : Side) :
    c.schema? side = (v.get? side.key).bind fun u => (Schema.ofJson u).toOption := by
  have hempty : empty.schema? side = none := by cases side <;> rfl
  cases v with
  | null => exact Except.ok.inj h ▸ hempty
  | obj entries =>
    rw [schema?_of_addEntries hv.1 h, hempty, Json.get?]
    cases entries.lookup side.key <;> rfl
  | _ => cases h

theorem schema?_eq_some_iff {v : Json} (hv : v.Distinct) (h : ofJson v = .ok c) :
    c.schema? side = some s ↔ ∃ u, v.get? side.key = some u ∧ Schema.ofJson u = .ok s := by
  rw [schema?_of_ofJson hv h, Option.bind_eq_some_iff]
  refine exists_congr fun u => and_congr_right fun _ => ?_
  cases Schema.ofJson u <;> simp [Except.toOption]

/-- A config that was read declares no schema for a side only if there is nothing under its key. -/
theorem schema?_eq_none_iff {v : Json} (hv : v.Distinct) (h : ofJson v = .ok c) :
    c.schema? side = none ↔ v.get? side.key = none := by
  rw [schema?_of_ofJson hv h]
  cases hu : v.get? side.key with
  | none => simp
  | some u =>
    cases v with
    | obj entries =>
      obtain ⟨s, hs⟩ := (exists_ofJson_obj_iff hv.1).1 ⟨c, h⟩ side u hu
      simp [hs, Except.toOption]
    | _ => cases hu

/-- An entry other than the schemas is what the config holds under its key. -/
theorem get?_of_ofJson {v : Json} (h : ofJson v = .ok c) {key : String}
    (hkey : ∀ side : Side, key ≠ side.key) : c.get? key = v.get? key := by
  cases v with
  | null => exact Except.ok.inj h ▸ rfl
  | obj entries => exact lookup_of_addEntries h hkey
  | _ => cases h

end NodeConfig

end TypedWorkflow
