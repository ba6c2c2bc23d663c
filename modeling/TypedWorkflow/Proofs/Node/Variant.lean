import TypedWorkflow.Proofs.Node.Config

/-!
# What schema variants allow

The variant of a node says of each side whether the config declares its schema or the implementation
fixes it. A config that declares a fixed side has a fault, and so has one that leaves out the output
where it alone is dynamic. If the config has no fault, the sides are made one after the other, and
each depends on one schema only: a fixed side on that of the implementation, which must have fields,
a dynamic one on that of the config, in whose place there is a default.

## Main definitions

* `SchemaVariant.Breaks`: what is wrong with a config, said apart from the order of the checks.
* `SchemaVariant.Default`, `SchemaVariant.Gives`: the schema of a side.
* `SchemaVariant.LacksFixed`: a side that has none.
* `SchemaVariant.setup_eq_ok_iff`: the models that a variant gives.
* `SchemaVariant.setup_policy`: when it gives any, what they depend on, and which error comes first.
-/

namespace TypedWorkflow

/-- The record type of a side. -/
def NodeModels.type (m : NodeModels) : Side → RecordType
  | .input => m.input
  | .output => m.output

namespace SchemaVariant

variable {variant : SchemaVariant} {node : String} {config : NodeConfig} {fixed : FixedSchemas}
  {side : Side} {s : Schema}

/-! ## Configs -/

/-- What is wrong with a config: it declares a side that the variant fixes, or it declares no output
where the output alone is dynamic. -/
inductive Breaks (variant : SchemaVariant) (config : NodeConfig) : ConfigFault → Prop where
  | sideFixed {side : Side} {s : Schema} (hside : variant.isDynamic side = false)
      (hs : config.schema? side = some s) : Breaks variant config (.sideFixed side variant)
  | schemaRequired (hvariant : variant = .fixedInputDynamicOutput)
      (hs : config.schema? .output = none) : Breaks variant config (.schemaRequired .output)

/-- A config passes the check if nothing is wrong with it; otherwise the check names one thing that
is. -/
theorem checkConfig_cases (variant : SchemaVariant) (config : NodeConfig) :
    (variant.checkConfig config = .ok () ∧ ∀ fault, ¬ variant.Breaks config fault) ∨
      ∃ fault, variant.checkConfig config = .error fault ∧ variant.Breaks config fault := by
  have hfixed (side : Side) : (!variant.isDynamic side && (config.schema? side).isSome) = true ↔
      variant.isDynamic side = false ∧ ∃ s, config.schema? side = some s := by
    simp [Option.isSome_iff_exists]
  rw [checkConfig]
  dsimp only
  split
  case isTrue hinput =>
    obtain ⟨hside, s, hs⟩ := (hfixed .input).1 hinput
    exact .inr ⟨_, rfl, .sideFixed hside hs⟩
  case isFalse hinput =>
    split
    case isTrue houtput =>
      obtain ⟨hside, s, hs⟩ := (hfixed .output).1 houtput
      exact .inr ⟨_, rfl, .sideFixed hside hs⟩
    case isFalse houtput =>
      split
      case isTrue hrequired =>
        exact .inr ⟨_, rfl, .schemaRequired hrequired.1 (Option.isNone_iff_eq_none.1 hrequired.2)⟩
      case isFalse hrequired =>
        refine .inl ⟨rfl, ?_⟩
        rintro fault (⟨hside, hs⟩ | ⟨hvariant, hs⟩)
        · rename_i side s
          cases side with
          | input => exact hinput ((hfixed .input).2 ⟨hside, s, hs⟩)
          | output => exact houtput ((hfixed .output).2 ⟨hside, s, hs⟩)
        · exact hrequired ⟨hvariant, Option.isNone_iff_eq_none.2 hs⟩

/-- Nothing is wrong with a config that declares no fixed side, and the output where it must. -/
theorem not_breaks_iff : (∀ fault, ¬ variant.Breaks config fault) ↔
    (∀ side, variant.isDynamic side = false → config.schema? side = none) ∧
      (variant = .fixedInputDynamicOutput → ∃ s, config.schema? .output = some s) := by
  constructor
  · intro h
    refine ⟨fun side hside => ?_, fun hvariant => ?_⟩
    · exact Option.eq_none_iff_forall_ne_some.2 fun s hs => h _ (.sideFixed hside hs)
    · exact Option.ne_none_iff_exists'.1 fun hs => h _ (.schemaRequired hvariant hs)
  · rintro ⟨hfixed, hrequired⟩ fault (⟨hside, hs⟩ | ⟨hvariant, hs⟩)
    · rw [hfixed _ hside] at hs
      cases hs
    · obtain ⟨s, hsome⟩ := hrequired hvariant
      rw [hs] at hsome
      cases hsome

/-! ## Sides -/

/-- The schema of a dynamic side that the config leaves out. -/
inductive Default : SchemaVariant → Side → Schema → Prop where
  | input : Default .dynamic .input (.single "input_field_1" .str)
  | inputOfFixedOutput : Default .dynamicInputFixedOutput .input (.single "input_1" .str)
  | output : Default .dynamic .output (.single "response" .str)

/-- The schema that a side gets: the fixed one, which has fields, the declared one, or a default. -/
inductive Gives (variant : SchemaVariant) (config : NodeConfig) (fixed : FixedSchemas) :
    Side → Schema → Prop where
  | fixed {side : Side} {s : Schema} (hside : variant.isDynamic side = false)
      (hs : fixed.schema? side = some s) (hfields : s.fields ≠ []) :
      Gives variant config fixed side s
  | declared {side : Side} {s : Schema} (hside : variant.isDynamic side = true)
      (hs : config.schema? side = some s) : Gives variant config fixed side s
  | default {side : Side} {s : Schema} (hside : variant.isDynamic side = true)
      (hs : config.schema? side = none) (hdefault : variant.Default side s) :
      Gives variant config fixed side s

theorem gives_iff_of_fixed (hside : variant.isDynamic side = false) :
    variant.Gives config fixed side s ↔ fixed.schema? side = some s ∧ s.fields ≠ [] := by
  constructor
  · rintro (⟨-, hs, hfields⟩ | ⟨hdynamic, -⟩ | ⟨hdynamic, -, -⟩)
    · exact ⟨hs, hfields⟩
    · simp [hside] at hdynamic
    · simp [hside] at hdynamic
  · rintro ⟨hs, hfields⟩
    exact .fixed hside hs hfields

theorem gives_iff_of_dynamic (hside : variant.isDynamic side = true) :
    variant.Gives config fixed side s ↔ config.schema? side = some s ∨
      config.schema? side = none ∧ variant.Default side s := by
  constructor
  · rintro (⟨hfixed, -, -⟩ | ⟨-, hs⟩ | ⟨-, hs, hdefault⟩)
    · simp [hside] at hfixed
    · exact .inl hs
    · exact .inr ⟨hs, hdefault⟩
  · rintro (hs | ⟨hs, hdefault⟩)
    · exact .declared hside hs
    · exact .default hside hs hdefault

/-- The implementation fixes a side and has no fields for it. -/
def LacksFixed (variant : SchemaVariant) (fixed : FixedSchemas) (side : Side) : Prop :=
  variant.isDynamic side = false ∧ ∀ s, fixed.schema? side = some s → s.fields = []

theorem not_lacksFixed_iff : ¬ variant.LacksFixed fixed side ↔
    (variant.isDynamic side = false → ∃ s, fixed.schema? side = some s ∧ s.fields ≠ []) := by
  simp [LacksFixed]

/-- A dynamic side that is left out has a default, unless it has to be declared. -/
theorem default_defaultSchema (hconfig : ∀ fault, ¬ variant.Breaks config fault)
    (hside : variant.isDynamic side = true) (hs : config.schema? side = none) :
    variant.Default side (variant.defaultSchema side) := by
  cases variant with
  | dynamic =>
    cases side with
    | input => exact .input
    | output => exact .output
  | dynamicInputFixedOutput =>
    cases side with
    | input => exact .inputOfFixedOutput
    | output => cases hside
  | fixedInputDynamicOutput =>
    cases side with
    | input => cases hside
    | output => exact absurd (.schemaRequired rfl hs) (hconfig _)
  | fixed => cases hside

theorem eq_defaultSchema (h : variant.Default side s) : s = variant.defaultSchema side := by
  cases h <;> rfl

/-- With an admissible config, a side gets a schema unless it lacks a fixed one. -/
theorem exists_gives (hconfig : ∀ fault, ¬ variant.Breaks config fault)
    (hside : ¬ variant.LacksFixed fixed side) : ∃ s, variant.Gives config fixed side s := by
  cases hdynamic : variant.isDynamic side with
  | true =>
    cases hs : config.schema? side with
    | some s => exact ⟨s, .declared hdynamic hs⟩
    | none => exact ⟨_, .default hdynamic hs (default_defaultSchema hconfig hdynamic hs)⟩
  | false =>
    obtain ⟨s, hs, hfields⟩ := not_lacksFixed_iff.1 hside hdynamic
    exact ⟨s, .fixed hdynamic hs hfields⟩

theorem Gives.unique {t : Schema} (hs : variant.Gives config fixed side s)
    (ht : variant.Gives config fixed side t) : s = t := by
  cases hs with
  | fixed hside hs =>
    exact Option.some.inj (hs.symm.trans ((gives_iff_of_fixed hside).1 ht).1)
  | declared hside hs =>
    rcases (gives_iff_of_dynamic hside).1 ht with ht | ⟨ht, -⟩
    · exact Option.some.inj (hs.symm.trans ht)
    · simp [hs] at ht
  | default hside hs hdefault =>
    rcases (gives_iff_of_dynamic hside).1 ht with ht | ⟨-, ht⟩
    · simp [hs] at ht
    · rw [eq_defaultSchema hdefault, eq_defaultSchema ht]

/-- A side depends on one schema only: a fixed side on what the implementation fixes for it, a
dynamic side on what the config declares for it. -/
theorem Gives.congr {config' : NodeConfig} {fixed' : FixedSchemas}
    (h : variant.Gives config fixed side s)
    (hfixed : variant.isDynamic side = false → fixed'.schema? side = fixed.schema? side)
    (hdynamic : variant.isDynamic side = true → config'.schema? side = config.schema? side) :
    variant.Gives config' fixed' side s := by
  cases hside : variant.isDynamic side with
  | true => rwa [gives_iff_of_dynamic hside, hdynamic hside, ← gives_iff_of_dynamic hside]
  | false => rwa [gives_iff_of_fixed hside, hfixed hside, ← gives_iff_of_fixed hside]

/-- With an admissible config, a side gets the schema that is made for it. -/
theorem sideSchema_eq_ok_iff (hconfig : ∀ fault, ¬ variant.Breaks config fault) :
    variant.sideSchema node config fixed side = .ok s ↔ variant.Gives config fixed side s := by
  rw [sideSchema]
  cases hside : variant.isDynamic side with
  | true =>
    rw [gives_iff_of_dynamic hside, if_pos rfl, Except.ok.injEq]
    cases hs : config.schema? side with
    | some u => simp
    | none =>
      have hdefault := default_defaultSchema hconfig hside hs
      constructor
      · rintro rfl
        exact .inr ⟨rfl, hdefault⟩
      · rintro (hsome | ⟨-, hs⟩)
        · cases hsome
        · exact (eq_defaultSchema hs).symm
  | false =>
    rw [gives_iff_of_fixed hside, if_neg Bool.false_ne_true]
    cases hs : fixed.schema? side with
    | none => simp
    | some u =>
      by_cases hfields : u.fields = []
      · have hempty : u.isEmpty = true := List.isEmpty_iff.2 hfields
        simp only [hempty, if_true, reduceCtorEq, Option.some.injEq, false_iff, not_and,
          Classical.not_not]
        rintro rfl
        exact hfields
      · have hempty : u.isEmpty = false := by simpa [Schema.isEmpty] using hfields
        simp only [hempty, Bool.false_eq_true, if_false, Except.ok.injEq, Option.some.injEq]
        refine (and_iff_left_of_imp ?_).symm
        rintro rfl
        exact hfields

/-- A side that cannot be made lacks its fixed schema, and the error names the node and the side. -/
theorem sideSchema_eq_error_iff {e : WorkflowError} :
    variant.sideSchema node config fixed side = .error e ↔
      variant.LacksFixed fixed side ∧ e = .schemaDefinition node side := by
  rw [sideSchema, LacksFixed]
  cases hside : variant.isDynamic side with
  | true => simp
  | false =>
    cases hs : fixed.schema? side with
    | none => simp [eq_comm]
    | some u =>
      by_cases hfields : u.fields = []
      · simp [Schema.isEmpty, hfields, eq_comm]
      · simp [Schema.isEmpty, hfields]

/-! ## Models -/

/-- A variant gives models exactly of admissible configs, and of the schemas that the sides get. -/
theorem setup_eq_ok_iff {m : NodeModels} : variant.setup node config fixed = .ok m ↔
    (∀ fault, ¬ variant.Breaks config fault) ∧ ∀ side, ∃ s,
      variant.Gives config fixed side s ∧ m.type side = ⟨side.recordName node, s⟩ := by
  rw [setup]
  rcases variant.checkConfig_cases config with ⟨hcheck, hconfig⟩ | ⟨fault, hcheck, hfault⟩
  · rw [hcheck]
    dsimp only
    simp only [Except.bind_eq_ok_iff, sideSchema_eq_ok_iff hconfig]
    constructor
    · rintro ⟨input, hinput, output, houtput, hm⟩
      obtain rfl := Except.ok.inj hm
      refine ⟨hconfig, fun side => ?_⟩
      cases side with
      | input => exact ⟨input, hinput, rfl⟩
      | output => exact ⟨output, houtput, rfl⟩
    · rintro ⟨-, hsides⟩
      obtain ⟨input, hinput, htypeInput⟩ := hsides .input
      obtain ⟨output, houtput, htypeOutput⟩ := hsides .output
      have hm : NodeModels.make node input output = m := by
        rw [NodeModels.make, ← htypeInput, ← htypeOutput]
        rfl
      exact ⟨input, hinput, output, houtput, congrArg Except.ok hm⟩
  · rw [hcheck]
    simp only [reduceCtorEq, false_iff, not_and]
    intro hconfig
    exact absurd hfault (hconfig fault)

/-- A config with a fault is reported with one, whatever the implementation fixes. -/
theorem setup_of_breaks {fault : ConfigFault} (h : variant.Breaks config fault) :
    ∃ fault, variant.Breaks config fault ∧
      variant.setup node config fixed = .error (.configShape node fault) := by
  rcases variant.checkConfig_cases config with ⟨-, hconfig⟩ | ⟨fault, hcheck, hfault⟩
  · exact absurd h (hconfig _)
  · exact ⟨fault, hfault, by rw [setup, hcheck]⟩

/-- With an admissible config, the first side that lacks its fixed schema is reported. -/
theorem setup_of_lacksFixed (hconfig : ∀ fault, ¬ variant.Breaks config fault)
    (hside : variant.LacksFixed fixed side)
    (hfirst : side = .output → ¬ variant.LacksFixed fixed .input) :
    variant.setup node config fixed = .error (.schemaDefinition node side) := by
  have herror : variant.sideSchema node config fixed side = .error (.schemaDefinition node side) :=
    sideSchema_eq_error_iff.2 ⟨hside, rfl⟩
  rcases variant.checkConfig_cases config with ⟨hcheck, -⟩ | ⟨fault, -, hfault⟩
  · rw [setup, hcheck]
    cases side with
    | input =>
      dsimp only
      rw [herror]
      rfl
    -- the input is made first, and it has its schema
    | output =>
      dsimp only
      cases hinput : variant.sideSchema node config fixed .input with
      | ok input =>
        rw [herror]
        rfl
      | error e => exact absurd (sideSchema_eq_error_iff.1 hinput).1 (hfirst rfl)
  · exact absurd hfault (hconfig fault)

theorem exists_setup_iff : (∃ m, variant.setup node config fixed = .ok m) ↔
    (∀ fault, ¬ variant.Breaks config fault) ∧ ∀ side, ¬ variant.LacksFixed fixed side := by
  constructor
  · rintro ⟨m, hm⟩
    obtain ⟨hconfig, hsides⟩ := setup_eq_ok_iff.1 hm
    refine ⟨hconfig, fun side ⟨hside, hlacks⟩ => ?_⟩
    obtain ⟨s, hs, -⟩ := hsides side
    obtain ⟨hfixed, hfields⟩ := (gives_iff_of_fixed hside).1 hs
    exact hfields (hlacks s hfixed)
  · rintro ⟨hconfig, hlacks⟩
    obtain ⟨input, hinput⟩ := exists_gives hconfig (hlacks .input)
    obtain ⟨output, houtput⟩ := exists_gives hconfig (hlacks .output)
    refine ⟨.make node input output, setup_eq_ok_iff.2 ⟨hconfig, fun side => ?_⟩⟩
    cases side with
    | input => exact ⟨input, hinput, rfl⟩
    | output => exact ⟨output, houtput, rfl⟩

/-- So a side of the models depends on one schema only. -/
theorem type_eq_of_setup {config' : NodeConfig} {fixed' : FixedSchemas} {m m' : NodeModels}
    (h : variant.setup node config fixed = .ok m) (h' : variant.setup node config' fixed' = .ok m')
    (hfixed : variant.isDynamic side = false → fixed'.schema? side = fixed.schema? side)
    (hdynamic : variant.isDynamic side = true → config'.schema? side = config.schema? side) :
    m'.type side = m.type side := by
  obtain ⟨s, hs, htype⟩ := (setup_eq_ok_iff.1 h).2 side
  obtain ⟨s', hs', htype'⟩ := (setup_eq_ok_iff.1 h').2 side
  rw [htype, htype', hs'.unique (hs.congr hfixed hdynamic)]

/-- What is fixed for a dynamic side does not matter. -/
theorem setup_congr {fixed' : FixedSchemas} {m : NodeModels}
    (h : variant.setup node config fixed = .ok m)
    (hfixed : ∀ side, variant.isDynamic side = false → fixed'.schema? side = fixed.schema? side) :
    variant.setup node config fixed' = .ok m := by
  obtain ⟨hconfig, hsides⟩ := setup_eq_ok_iff.1 h
  refine setup_eq_ok_iff.2 ⟨hconfig, fun side => ?_⟩
  obtain ⟨s, hs, htype⟩ := hsides side
  exact ⟨s, hs.congr (hfixed side) fun _ => rfl, htype⟩

/-- A variant gives models exactly if the config declares no fixed side, declares the output where
that alone is dynamic, and every fixed side has a schema with fields. A fixed side then has the
schema that is fixed for it, whatever the config; a dynamic side has the declared one or the default
of the variant, whatever is fixed for it. Otherwise a fault of the config is reported before a fixed
schema that is lacking, and the input before the output. -/
theorem setup_policy (variant : SchemaVariant) (node : String) (config : NodeConfig)
    (fixed : FixedSchemas) :
    ((∃ m, variant.setup node config fixed = .ok m) ↔
      (∀ side, variant.isDynamic side = false → config.schema? side = none) ∧
      (variant = .fixedInputDynamicOutput → ∃ s, config.schema? .output = some s) ∧
      ∀ side, variant.isDynamic side = false →
        ∃ s, fixed.schema? side = some s ∧ s.fields ≠ []) ∧
    (∀ m, variant.setup node config fixed = .ok m → ∀ side,
      (variant.isDynamic side = false →
        (∃ s, fixed.schema? side = some s ∧ m.type side = ⟨side.recordName node, s⟩) ∧
        ∀ config' m', variant.setup node config' fixed = .ok m' → m'.type side = m.type side) ∧
      (variant.isDynamic side = true →
        (∃ s, (config.schema? side = some s ∨
            config.schema? side = none ∧ variant.Default side s) ∧
          m.type side = ⟨side.recordName node, s⟩) ∧
        (∀ fixed' : FixedSchemas, fixed'.schema? side.other = fixed.schema? side.other →
          variant.setup node config fixed' = .ok m) ∧
        ∀ fixed' m', variant.setup node config fixed' = .ok m' → m'.type side = m.type side)) ∧
    ((∃ fault, variant.Breaks config fault) → ∃ fault, variant.Breaks config fault ∧
      variant.setup node config fixed = .error (.configShape node fault)) ∧
    ((∀ fault, ¬ variant.Breaks config fault) →
      (variant.LacksFixed fixed .input →
        variant.setup node config fixed = .error (.schemaDefinition node .input)) ∧
      (¬ variant.LacksFixed fixed .input → variant.LacksFixed fixed .output →
        variant.setup node config fixed = .error (.schemaDefinition node .output))) := by
  refine ⟨?_, fun m hm side => ⟨fun hside => ⟨?_, ?_⟩, fun hside => ⟨?_, ?_, ?_⟩⟩, ?_, ?_⟩
  · rw [exists_setup_iff, not_breaks_iff, and_assoc]
    simp only [not_lacksFixed_iff]
  · obtain ⟨s, hs, htype⟩ := (setup_eq_ok_iff.1 hm).2 side
    exact ⟨s, ((gives_iff_of_fixed hside).1 hs).1, htype⟩
  · intro config' m' hm'
    refine type_eq_of_setup hm hm' (fun _ => rfl) fun hdynamic => ?_
    simp [hside] at hdynamic
  · obtain ⟨s, hs, htype⟩ := (setup_eq_ok_iff.1 hm).2 side
    exact ⟨s, (gives_iff_of_dynamic hside).1 hs, htype⟩
  · intro fixed' hother
    refine setup_congr hm fun other hfixed => ?_
    have hne : other ≠ side := by
      rintro rfl
      simp [hside] at hfixed
    rwa [Side.eq_other_of_ne hne]
  · intro fixed' m' hm'
    refine type_eq_of_setup hm hm' (fun hfixed => ?_) fun _ => rfl
    simp [hside] at hfixed
  · rintro ⟨fault, hfault⟩
    exact setup_of_breaks hfault
  · intro hconfig
    refine ⟨fun hinput => setup_of_lacksFixed hconfig hinput nofun, fun hinput houtput => ?_⟩
    exact setup_of_lacksFixed hconfig houtput fun _ => hinput

/-- A config that declares the input alone. -/
def questionInput : NodeConfig := ⟨some (.single "question" .str), none, []⟩

/-- An output that an implementation fixes. -/
def answerOutput : FixedSchemas := ⟨none, some (.single "answer" .str)⟩

theorem setup_policy_questionInput :
    ∃ m, setup .dynamicInputFixedOutput "judge" questionInput answerOutput = .ok m ∧
      (∃ s, answerOutput.schema? .output = some s ∧
        m.type .output = ⟨Side.output.recordName "judge", s⟩) ∧
      (∀ other : FixedSchemas, other.schema? .output = answerOutput.schema? .output →
        setup .dynamicInputFixedOutput "judge" questionInput other = .ok m) ∧
      setup .dynamicInputFixedOutput "judge" questionInput .none =
        .error (.schemaDefinition "judge" .output) := by
  have hconfig : ∀ side, dynamicInputFixedOutput.isDynamic side = false →
      questionInput.schema? side = none := by
    rintro (_ | _) hside
    · cases hside
    · rfl
  have hfixed : ∀ side, dynamicInputFixedOutput.isDynamic side = false →
      ∃ s, answerOutput.schema? side = some s ∧ s.fields ≠ [] := by
    rintro (_ | _) hside
    · cases hside
    · exact ⟨_, rfl, List.cons_ne_nil _ _⟩
  obtain ⟨hsucceeds, hmodels, -, -⟩ :=
    setup_policy .dynamicInputFixedOutput "judge" questionInput answerOutput
  obtain ⟨-, -, -, hlacking⟩ := setup_policy .dynamicInputFixedOutput "judge" questionInput .none
  obtain ⟨m, hm⟩ := hsucceeds.2 ⟨hconfig, nofun, hfixed⟩
  refine ⟨m, hm, ((hmodels m hm .output).1 rfl).1, ((hmodels m hm .input).2 rfl).2.1, ?_⟩
  exact (hlacking (not_breaks_iff.2 ⟨hconfig, nofun⟩)).2 (fun h => nomatch h.1) ⟨rfl, nofun⟩

end SchemaVariant

end TypedWorkflow
