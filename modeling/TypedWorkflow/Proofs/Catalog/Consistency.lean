import Mathlib.Data.List.Nodup
import TypedWorkflow.CommandLine.Run
import TypedWorkflow.Proofs.Entries
import TypedWorkflow.Proofs.Workflow.Levels

/-!
# Consistency of catalogs

A catalog says the same thing several times over: its node types stand in groups and by name, its
deprecated names in a list and with their replacements. Whatever a builder has been asked for, in
whatever order and however often, the catalog that it assembles says it consistently. The passes
over the requests add to both views at once, and refuse what does not fit. So every valid name
stands for a supported type, and no chain of replacements is longer than one.

## Main definitions

* `Catalog.Consistent`: the views of a catalog agree.
* `CatalogBuilder.consistent_assemble`: they do in every assembled catalog.
* `Catalog.Consistent.resolve_cases`: what a name stands for.
* `CatalogBuilder.assemble_views_agree`: so all answers about a name agree.
* `CatalogBuilder.not_createNode_unknown_eq`: but a loader may report another name as unknown.
-/

namespace TypedWorkflow

/-- The descriptors with their names. -/
def Descriptor.byName (ds : List Descriptor) : List (String × Descriptor) :=
  ds.map fun d => (d.typeName, d)

/-- The deprecated names with their replacements. -/
def DeprecatedType.byName (ds : List DeprecatedType) : List (String × String) :=
  ds.map fun d => (d.descriptor.typeName, d.replacement)

/-- The types are the same by category and by name, and no name stands for two of them. The
deprecated names are the same in the list and with their replacements; none of them stands twice or
for a supported type, and their replacements are supported. -/
structure Catalog.Consistent (c : Catalog) : Prop where
  nodup_types : (c.descriptors.map Descriptor.typeName).Nodup
  supported_perm : c.supported.Perm (Descriptor.byName c.descriptors)
  nodup_deprecated : (c.deprecated.map fun d => d.descriptor.typeName).Nodup
  aliases_perm : c.aliases.Perm (DeprecatedType.byName c.deprecated)
  unsupported : ∀ d ∈ c.deprecated, d.descriptor.typeName ∉ c.supported.map Prod.fst
  replacement_supported : ∀ d ∈ c.deprecated, d.replacement ∈ c.supported.map Prod.fst

theorem Descriptor.names_byName (ds : List Descriptor) :
    (byName ds).map Prod.fst = ds.map typeName := by
  rw [byName, List.map_map]
  rfl

theorem DeprecatedType.names_byName (ds : List DeprecatedType) :
    (byName ds).map Prod.fst = ds.map fun d => d.descriptor.typeName := by
  rw [byName, List.map_map]
  rfl

namespace CatalogBuilder

/-! ## Supported types -/

theorem keepNew_cons_of_mem {supported : List (String × Descriptor)} {d : Descriptor}
    (h : d.typeName ∈ supported.map Prod.fst) (ds : List Descriptor) :
    keepNew supported (d :: ds) =
      let (kept, problems, after) := keepNew supported ds
      (kept, .duplicate d.typeName :: problems, after) := by
  rw [keepNew, if_pos (Entries.isSome_lookup_iff.2 h)]

theorem keepNew_cons_of_notMem {supported : List (String × Descriptor)} {d : Descriptor}
    (h : d.typeName ∉ supported.map Prod.fst) (ds : List Descriptor) :
    keepNew supported (d :: ds) =
      let (kept, problems, after) := keepNew (supported ++ [(d.typeName, d)]) ds
      (d :: kept, problems, after) := by
  rw [keepNew, if_neg (mt Entries.isSome_lookup_iff.1 h)]

/-- The descriptors that are kept are those that are added by name. -/
theorem supported_keepNew (supported : List (String × Descriptor)) (ds : List Descriptor) :
    (keepNew supported ds).2.2 = supported ++ Descriptor.byName (keepNew supported ds).1 := by
  induction ds generalizing supported with
  | nil => simp [keepNew, Descriptor.byName]
  | cons d ds ih =>
    by_cases h : d.typeName ∈ supported.map Prod.fst
    · rw [keepNew_cons_of_mem h]
      exact ih supported
    · rw [keepNew_cons_of_notMem h]
      simpa [Descriptor.byName] using ih (supported ++ [(d.typeName, d)])

theorem nodup_keepNew {supported : List (String × Descriptor)}
    (hnodup : (supported.map Prod.fst).Nodup) (ds : List Descriptor) :
    ((keepNew supported ds).2.2.map Prod.fst).Nodup := by
  induction ds generalizing supported with
  | nil => exact hnodup
  | cons d ds ih =>
    by_cases h : d.typeName ∈ supported.map Prod.fst
    · rw [keepNew_cons_of_mem h]
      exact ih hnodup
    · rw [keepNew_cons_of_notMem h]
      exact ih (Entries.nodup_names_append hnodup h d)

theorem keepNewGroups_cons (supported : List (String × Descriptor)) (category : String)
    (ds : List Descriptor) (rest : List (String × List Descriptor)) :
    keepNewGroups supported ((category, ds) :: rest) =
      let (kept, problems, between) := keepNew supported ds
      let (groups, more, after) := keepNewGroups between rest
      ((category, kept) :: groups, problems ++ more, after) :=
  rfl

/-- The same of all groups. -/
theorem supported_keepNewGroups (supported : List (String × Descriptor))
    (groups : List (String × List Descriptor)) :
    (keepNewGroups supported groups).2.2 =
      supported ++ Descriptor.byName ((keepNewGroups supported groups).1.flatMap Prod.snd) := by
  induction groups generalizing supported with
  | nil => simp [keepNewGroups, Descriptor.byName]
  | cons group rest ih =>
    obtain ⟨category, ds⟩ := group
    rw [keepNewGroups_cons]
    dsimp only
    rw [ih, supported_keepNew]
    simp [Descriptor.byName]

theorem nodup_keepNewGroups {supported : List (String × Descriptor)}
    (hnodup : (supported.map Prod.fst).Nodup) (groups : List (String × List Descriptor)) :
    ((keepNewGroups supported groups).2.2.map Prod.fst).Nodup := by
  induction groups generalizing supported with
  | nil => exact hnodup
  | cons group rest ih => exact ih (nodup_keepNew hnodup group.2)

/-! ## Deprecated names -/

/-- Every alias is a name of its own, which no supported type has, for a supported type. -/
structure Fit (supported : List (String × Descriptor)) (aliases : List (String × String)) :
    Prop where
  nodup : (aliases.map Prod.fst).Nodup
  unsupported : ∀ e ∈ aliases, e.1 ∉ supported.map Prod.fst
  target_supported : ∀ e ∈ aliases, e.2 ∈ supported.map Prod.fst

variable {supported : List (String × Descriptor)} {aliases : List (String × String)}

theorem fit_nil (supported : List (String × Descriptor)) : Fit supported [] :=
  ⟨List.nodup_nil, by simp, by simp⟩

theorem Fit.append (h : Fit supported aliases) {name replacement : String}
    (hunsupported : name ∉ supported.map Prod.fst) (hnew : name ∉ aliases.map Prod.fst)
    (htarget : replacement ∈ supported.map Prod.fst) :
    Fit supported (aliases ++ [(name, replacement)]) := by
  refine ⟨Entries.nodup_names_append h.nodup hnew replacement, ?_, ?_⟩
  · exact List.forall_mem_append.2 ⟨h.unsupported, List.forall_mem_singleton.2 hunsupported⟩
  · exact List.forall_mem_append.2 ⟨h.target_supported, List.forall_mem_singleton.2 htarget⟩

/-- What becomes of a deprecated name: it is refused because the name is taken or its replacement is
not supported, and nothing changes, or it fits and is added, to both views. -/
theorem keepAliases_cons_cases (supported : List (String × Descriptor))
    (aliases : List (String × String)) (d : DeprecatedType) (rest : List DeprecatedType) :
    (∃ problem, (problem = .duplicate d.descriptor.typeName ∧
        (d.descriptor.typeName ∈ supported.map Prod.fst ∨
          d.descriptor.typeName ∈ aliases.map Prod.fst) ∨
        problem = .unknownReplacement d.descriptor.typeName d.replacement ∧
          d.replacement ∉ supported.map Prod.fst) ∧
      keepAliases supported aliases (d :: rest) =
        let (kept, problems, after) := keepAliases supported aliases rest
        (kept, problem :: problems, after)) ∨
    (d.descriptor.typeName ∉ supported.map Prod.fst ∧
      d.descriptor.typeName ∉ aliases.map Prod.fst ∧ d.replacement ∈ supported.map Prod.fst ∧
      keepAliases supported aliases (d :: rest) =
        let (kept, problems, after) :=
          keepAliases supported (aliases ++ [(d.descriptor.typeName, d.replacement)]) rest
        (d :: kept, problems, after)) := by
  rw [keepAliases]
  simp only [Bool.or_eq_true, Entries.isSome_lookup_iff]
  split
  case isTrue htaken => exact .inl ⟨_, .inl ⟨rfl, htaken⟩, rfl⟩
  case isFalse hnew =>
    rw [not_or] at hnew
    have htarget : (supported.lookup d.replacement).isNone = true ↔
        d.replacement ∉ supported.map Prod.fst := by
      rw [← Entries.isSome_lookup_iff, Bool.not_eq_true, Option.isSome_eq_false_iff]
    split
    case isTrue h => exact .inl ⟨_, .inr ⟨rfl, htarget.1 h⟩, rfl⟩
    case isFalse h => exact .inr ⟨hnew.1, hnew.2, not_not.1 (mt htarget.2 h), rfl⟩

/-- The deprecated names that are kept are those that are added with their replacements. -/
theorem aliases_keepAliases (supported : List (String × Descriptor))
    (aliases : List (String × String)) (ds : List DeprecatedType) :
    (keepAliases supported aliases ds).2.2 =
      aliases ++ DeprecatedType.byName (keepAliases supported aliases ds).1 := by
  induction ds generalizing aliases with
  | nil => simp [keepAliases, DeprecatedType.byName]
  | cons d rest ih =>
    rcases keepAliases_cons_cases supported aliases d rest with ⟨problem, -, h⟩ | ⟨-, -, -, h⟩
    · rw [h]
      exact ih aliases
    · rw [h]
      simpa [DeprecatedType.byName] using
        ih (aliases ++ [(d.descriptor.typeName, d.replacement)])

theorem Fit.keepAliases (h : Fit supported aliases) (ds : List DeprecatedType) :
    Fit supported (keepAliases supported aliases ds).2.2 := by
  induction ds generalizing aliases with
  | nil => exact h
  | cons d rest ih =>
    rcases keepAliases_cons_cases supported aliases d rest with
      ⟨problem, -, heq⟩ | ⟨hunsupported, hnew, htarget, heq⟩
    · rw [heq]
      exact ih h
    · rw [heq]
      exact ih (h.append hunsupported hnew htarget)

/-! ## Assembling -/

/-- An assembled catalog is consistent, whatever has been asked of the builder. -/
theorem consistent_assemble (b : CatalogBuilder) : b.assemble.1.Consistent := by
  have hsupported := supported_keepNewGroups [] (setLoaders b.groups b.loaders).1
  have hnodup := @nodup_keepNewGroups [] List.nodup_nil (setLoaders b.groups b.loaders).1
  have haliases := aliases_keepAliases b.assemble.1.supported [] b.deprecated
  have hfit := (fit_nil b.assemble.1.supported).keepAliases b.deprecated
  change b.assemble.1.supported = [] ++ Descriptor.byName b.assemble.1.descriptors at hsupported
  change (b.assemble.1.supported.map Prod.fst).Nodup at hnodup
  change b.assemble.1.aliases = [] ++ DeprecatedType.byName b.assemble.1.deprecated at haliases
  change Fit b.assemble.1.supported b.assemble.1.aliases at hfit
  rw [List.nil_append] at hsupported haliases
  have hmem : ∀ d ∈ b.assemble.1.deprecated,
      (d.descriptor.typeName, d.replacement) ∈ b.assemble.1.aliases := by
    intro d hd
    rw [haliases]
    exact List.mem_map_of_mem hd
  exact {
    nodup_types := by rwa [hsupported, Descriptor.names_byName] at hnodup
    supported_perm := .of_eq hsupported
    nodup_deprecated := by
      rw [← DeprecatedType.names_byName, ← haliases]
      exact hfit.nodup
    aliases_perm := .of_eq haliases
    unsupported := fun d hd => hfit.unsupported _ (hmem d hd)
    replacement_supported := fun d hd => hfit.target_supported _ (hmem d hd) }

end CatalogBuilder

/-! ## What names stand for -/

namespace Catalog.Consistent

variable {c : Catalog}

/-- A supported name is found with its descriptor. -/
theorem find?_eq_some_iff (h : c.Consistent) {name : String} {d : Descriptor} :
    c.find? name = some d ↔ d ∈ c.descriptors ∧ d.typeName = name := by
  have hnodup : (c.supported.map Prod.fst).Nodup := by
    rw [(h.supported_perm.map Prod.fst).nodup_iff, Descriptor.names_byName]
    exact h.nodup_types
  rw [find?, Entries.lookup_eq_some_iff hnodup, h.supported_perm.mem_iff, Descriptor.byName,
    List.mem_map]
  constructor
  · rintro ⟨d, hd, heq⟩
    obtain ⟨rfl, rfl⟩ := Prod.mk.inj heq
    exact ⟨hd, rfl⟩
  · rintro ⟨hd, rfl⟩
    exact ⟨d, hd, rfl⟩

/-- A deprecated name is found with its replacement. -/
theorem replacement?_eq_some_iff (h : c.Consistent) {name replacement : String} :
    c.replacement? name = some replacement ↔
      ∃ d ∈ c.deprecated, d.descriptor.typeName = name ∧ d.replacement = replacement := by
  have hnodup : (c.aliases.map Prod.fst).Nodup := by
    rw [(h.aliases_perm.map Prod.fst).nodup_iff, DeprecatedType.names_byName]
    exact h.nodup_deprecated
  rw [replacement?, Entries.lookup_eq_some_iff hnodup, h.aliases_perm.mem_iff,
    DeprecatedType.byName, List.mem_map]
  simp only [Prod.mk.injEq]

theorem find?_eq_none_of_replacement? (h : c.Consistent) {name replacement : String}
    (hname : c.replacement? name = some replacement) : c.find? name = none := by
  obtain ⟨d, hd, rfl, -⟩ := h.replacement?_eq_some_iff.1 hname
  rw [find?, ← Option.not_isSome_iff_eq_none, Entries.isSome_lookup_iff]
  exact h.unsupported d hd

theorem exists_find?_of_replacement? (h : c.Consistent) {name replacement : String}
    (hname : c.replacement? name = some replacement) : ∃ d, c.find? replacement = some d := by
  obtain ⟨d, hd, -, rfl⟩ := h.replacement?_eq_some_iff.1 hname
  exact Entries.lookup_isSome_iff_mem.2 (h.replacement_supported d hd)

/-- A supported name is not deprecated. -/
theorem replacement?_eq_none_of_find? (h : c.Consistent) {name : String} {d : Descriptor}
    (hname : c.find? name = some d) : c.replacement? name = none := by
  cases halias : c.replacement? name with
  | none => rfl
  | some replacement =>
    rw [h.find?_eq_none_of_replacement? halias] at hname
    cases hname

/-- What a name stands for: its own descriptor, or that of its replacement, or nothing. -/
theorem resolve_cases (h : c.Consistent) (name : String) :
    (∃ d, c.find? name = some d ∧ c.replacement? name = none ∧ c.resolve name = .ok d) ∨
    (∃ replacement d, c.find? name = none ∧ c.replacement? name = some replacement ∧
      c.find? replacement = some d ∧ c.resolve name = .ok d) ∨
    c.find? name = none ∧ c.replacement? name = none ∧
      c.resolve name = .error (.unknownNodeType name) := by
  cases hname : c.find? name with
  | some d => exact .inl ⟨d, rfl, h.replacement?_eq_none_of_find? hname, by rw [resolve, hname]⟩
  | none =>
    cases halias : c.replacement? name with
    | none => exact .inr (.inr ⟨rfl, rfl, by rw [resolve, hname, halias]⟩)
    | some replacement =>
      obtain ⟨d, hd⟩ := h.exists_find?_of_replacement? halias
      exact .inr (.inl ⟨replacement, d, rfl, rfl, hd, by simp only [resolve, hname, halias, hd]⟩)

/-- A name stands for the type that has the name or is its replacement. -/
theorem resolve_eq_ok_iff (h : c.Consistent) {name : String} {d : Descriptor} :
    c.resolve name = .ok d ↔
      d ∈ c.descriptors ∧ (d.typeName = name ∨ c.replacement? name = some d.typeName) := by
  rcases h.resolve_cases name with ⟨e, he, halias, hok⟩ | ⟨replacement, e, hnone, halias, he, hok⟩ |
    ⟨hnone, halias, herror⟩
  · simp [hok, halias, ← h.find?_eq_some_iff, he]
  · rw [hok, halias, Except.ok.injEq]
    constructor
    · rintro rfl
      obtain ⟨hmem, rfl⟩ := h.find?_eq_some_iff.1 he
      exact ⟨hmem, .inr rfl⟩
    · rintro ⟨hmem, hname | hreplacement⟩
      · rw [h.find?_eq_some_iff.2 ⟨hmem, hname⟩] at hnone
        cases hnone
      · obtain rfl := Option.some.inj hreplacement
        exact Option.some.inj (he.symm.trans (h.find?_eq_some_iff.2 ⟨hmem, rfl⟩))
  · rw [herror, halias]
    constructor
    · rintro ⟨⟩
    · rintro ⟨hmem, hname | hreplacement⟩
      · rw [h.find?_eq_some_iff.2 ⟨hmem, hname⟩] at hnone
        cases hnone
      · cases hreplacement

theorem isValid_iff_resolve (h : c.Consistent) (name : String) :
    c.isValid name = true ↔ ∃ d, c.resolve name = .ok d := by
  rcases h.resolve_cases name with ⟨d, hd, -, hok⟩ | ⟨_, d, -, halias, -, hok⟩ |
    ⟨hnone, halias, herror⟩
  · simp [isValid, hd, hok]
  · simp [isValid, isDeprecated, halias, hok]
  · simp [isValid, isDeprecated, hnone, halias, herror]

/-- What a name stands for is not deprecated itself. -/
theorem isDeprecated_of_resolve (h : c.Consistent) {name : String} {d : Descriptor}
    (hname : c.resolve name = .ok d) : c.isDeprecated d.typeName = false := by
  have hd : c.find? d.typeName = some d :=
    h.find?_eq_some_iff.2 ⟨(h.resolve_eq_ok_iff.1 hname).1, rfl⟩
  rw [isDeprecated, h.replacement?_eq_none_of_find? hd]
  rfl

theorem eq_of_resolve_eq_error (h : c.Consistent) {name : String} {e : WorkflowError}
    (hname : c.resolve name = .error e) : e = .unknownNodeType name := by
  rcases h.resolve_cases name with ⟨d, -, -, hok⟩ | ⟨_, d, -, -, -, hok⟩ | ⟨-, -, herror⟩
  · rw [hok] at hname
    cases hname
  · rw [hok] at hname
    cases hname
  · exact (Except.error.inj (herror.symm.trans hname)).symm

/-- A deprecated name stands for what its replacement stands for. -/
theorem resolve_of_replacement? (h : c.Consistent) {name replacement : String}
    (hname : c.replacement? name = some replacement) : c.resolve name = c.resolve replacement := by
  obtain ⟨d, hd⟩ := h.exists_find?_of_replacement? hname
  have hnone := h.find?_eq_none_of_replacement? hname
  simp only [resolve, hnone, hname, hd]

/-- The status of a name is unknown exactly if the name is not valid. -/
theorem ofName_eq_unknown_iff (h : c.Consistent) (name : String) :
    Command.TypeStatus.ofName c name = .unknown ↔ c.isValid name = false := by
  rcases h.resolve_cases name with ⟨d, hd, halias, hok⟩ | ⟨_, d, -, halias, -, -⟩ |
    ⟨hnone, halias, herror⟩
  · simp [Command.TypeStatus.ofName, isValid, hd, halias, hok]
  · simp [Command.TypeStatus.ofName, isValid, isDeprecated, halias]
  · simp [Command.TypeStatus.ofName, isValid, isDeprecated, hnone, halias, herror]

end Catalog.Consistent

namespace Catalog

/-- Names that stand for the same construct the same nodes. -/
theorem createNode_congr {c : Catalog} {name other : String} (h : c.resolve name = c.resolve other)
    (config : Json) (context : ExecutionContext) :
    c.createNode name config context = c.createNode other config context := by
  rw [createNode, createNode, h]

/-- A name is reported as unknown because it stands for nothing, or by the loader of its type. -/
theorem createNode_unknown_cases {c : Catalog} {name other : String} {config : Json}
    {context : ExecutionContext}
    (h : c.createNode name config context = .error (.unknownNodeType other)) :
    c.resolve name = .error (.unknownNodeType other) ∨ ∃ d load, c.resolve name = .ok d ∧
      d.loader = some load ∧ load config context = .error (.unknownNodeType other) := by
  rw [createNode] at h
  cases hresolve : c.resolve name with
  | error e =>
    rw [hresolve] at h
    exact .inl (congrArg Except.error (Except.error.inj h))
  | ok d =>
    rw [hresolve] at h
    cases hloader : d.loader with
    | none => simp [bind, Except.bind, hloader] at h
    | some load =>
      simp only [bind, Except.bind, hloader] at h
      exact .inr ⟨d, load, rfl, hloader, h⟩

theorem createNode_of_error {c : Catalog} {name : String} {e : WorkflowError}
    (h : c.resolve name = .error e) (config : Json) (context : ExecutionContext) :
    c.createNode name config context = .error e := by
  rw [createNode, h]
  rfl

end Catalog

/-- In an assembled catalog the views agree, whatever has been asked of the builder. So a name is
valid exactly if it stands for a type. It stands for the type of this name, or of its replacement,
which is not deprecated itself. A deprecated name constructs what its replacement constructs. Only a
name that stands for nothing is reported as unknown, and under its own name; a loader may give any
error that it likes. The status of a name is unknown exactly if a validator reports the nodes of
this type, wherever it looks at them. -/
theorem CatalogBuilder.assemble_views_agree (b : CatalogBuilder) :
    b.assemble.1.Consistent ∧ ∀ name,
      (b.assemble.1.isValid name = true ↔ ∃ d, b.assemble.1.resolve name = .ok d) ∧
      (∀ d, b.assemble.1.resolve name = .ok d ↔ d ∈ b.assemble.1.descriptors ∧
        (d.typeName = name ∨ b.assemble.1.replacement? name = some d.typeName)) ∧
      (∀ d, b.assemble.1.resolve name = .ok d →
        b.assemble.1.isDeprecated d.typeName = false) ∧
      (∀ replacement, b.assemble.1.replacement? name = some replacement → ∀ config context,
        b.assemble.1.createNode name config context =
          b.assemble.1.createNode replacement config context) ∧
      (∀ e, b.assemble.1.resolve name = .error e → e = .unknownNodeType name ∧
        ∀ config context, b.assemble.1.createNode name config context = .error e) ∧
      (∀ config context other,
        b.assemble.1.createNode name config context = .error (.unknownNodeType other) →
        other = name ∨ ∃ d load, b.assemble.1.resolve name = .ok d ∧ d.loader = some load ∧
          load config context = .error (.unknownNodeType other)) ∧
      ∀ config w location id,
        ⟨location, .unknownNodeType id name⟩ ∈ (Validator.mk b.assemble.1 config).check w ↔
          Command.TypeStatus.ofName b.assemble.1 name = .unknown ∧
          ∃ level, w.LevelAt location level ∧ location.length ≤ config.maxDepth ∧
            ∃ n ∈ level.nodes, n.id = id ∧ n.nodeType = name := by
  have h := b.consistent_assemble
  refine ⟨h, fun name => ⟨h.isValid_iff_resolve name, fun d => h.resolve_eq_ok_iff,
    fun d hd => h.isDeprecated_of_resolve hd, ?_, ?_, ?_, ?_⟩⟩
  · intro replacement hname
    exact Catalog.createNode_congr (h.resolve_of_replacement? hname)
  · intro e he
    exact ⟨h.eq_of_resolve_eq_error he, Catalog.createNode_of_error he⟩
  · intro config context other hcreate
    refine (Catalog.createNode_unknown_cases hcreate).imp_left fun hresolve => ?_
    exact WorkflowError.unknownNodeType.inj (h.eq_of_resolve_eq_error hresolve)
  · intro config w location id
    rw [h.ofName_eq_unknown_iff]
    exact Validator.unknownNodeType_mem_check_iff

namespace CatalogBuilder

/-- A loader of a host. It wants a node of another type, and passes on that it has found none. -/
def forwardingLoader : NodeLoader :=
  fun _ _ => .error (.unknownNodeType "OutputNode")

/-- A catalog of one type with this loader, and of a deprecated name for it. Both are asked for
before the type is. -/
def forwardedTypes : CatalogBuilder :=
  ((empty.withLoader "InputNode" forwardingLoader).addDeprecated
    ⟨"StartNode", "deprecated", "nodes", "StartNode", none⟩ "InputNode").register
    ⟨"InputNode", "primitives", "nodes", "InputNode", none⟩

theorem assemble_views_agree_forwardedTypes :
    forwardedTypes.assemble.1.replacement? "StartNode" = some "InputNode" ∧
    (∀ config context, forwardedTypes.assemble.1.createNode "StartNode" config context =
      forwardedTypes.assemble.1.createNode "InputNode" config context) ∧
    forwardedTypes.assemble.1.createNode "StartNode" .null none =
      .error (.unknownNodeType "OutputNode") ∧
    (∃ d load, forwardedTypes.assemble.1.resolve "StartNode" = .ok d ∧
      forwardedTypes.assemble.1.isDeprecated d.typeName = false ∧ d.loader = some load ∧
      load .null none = .error (.unknownNodeType "OutputNode")) ∧
    forwardedTypes.assemble.1.resolve "GoneNode" = .error (.unknownNodeType "GoneNode") ∧
    ∀ config context, forwardedTypes.assemble.1.createNode "GoneNode" config context =
      .error (.unknownNodeType "GoneNode") := by
  obtain ⟨-, hall⟩ := assemble_views_agree forwardedTypes
  have hname : forwardedTypes.assemble.1.replacement? "StartNode" = some "InputNode" := rfl
  have hcreate : forwardedTypes.assemble.1.createNode "StartNode" .null none =
      .error (.unknownNodeType "OutputNode") := rfl
  have hgone : forwardedTypes.assemble.1.resolve "GoneNode" =
      .error (.unknownNodeType "GoneNode") := rfl
  obtain ⟨-, -, hcurrent, hsame, -, hunknown, -⟩ := hall "StartNode"
  obtain ⟨-, -, -, -, herror, -, -⟩ := hall "GoneNode"
  refine ⟨hname, hsame _ hname, hcreate, ?_, hgone, (herror _ hgone).2⟩
  rcases hunknown _ _ _ hcreate with hother | ⟨d, load, hd, hload, hmade⟩
  · exact absurd hother (by decide)
  · exact ⟨d, load, hd, hcurrent d hd, hload, hmade⟩

/-- What a loader reports is not looked at: the name that a construction reports as unknown need not
be the one that was asked for. -/
theorem not_createNode_unknown_eq :
    ¬ ∀ (b : CatalogBuilder) (name other : String) (config : Json) (context : ExecutionContext),
      b.assemble.1.createNode name config context = .error (.unknownNodeType other) →
        other = name := by
  intro hall
  have hcreate : forwardedTypes.assemble.1.createNode "InputNode" .null none =
      .error (.unknownNodeType "OutputNode") := rfl
  have hname := hall forwardedTypes "InputNode" "OutputNode" .null none hcreate
  exact absurd hname (by decide)

end CatalogBuilder

end TypedWorkflow
