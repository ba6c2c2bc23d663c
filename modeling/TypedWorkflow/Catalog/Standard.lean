import TypedWorkflow.Catalog.Builder
import TypedWorkflow.Node.Primitive

/-!
# The standard catalog

The node types that every workflow may use. The primitive ones can be constructed; all others are
known by name and wait for a host that brings their loaders.

## Main definitions

* `CatalogBuilder.withStandardTypes`: adds the standard types.
* `Catalog.standard`: the catalog of the standard types.
-/

namespace TypedWorkflow

/-- The primitive node types with their kinds. -/
def primitiveTypes : List (String × NodeKind) :=
  [("InputNode", Primitive.inputNode), ("OutputNode", Primitive.outputNode),
    ("StaticValueNode", Primitive.staticValueNode)]

/-- The categories, names and modules of the node types that hosts implement. -/
def externalTypes : List (String × String × String) :=
  [("json", "JsonifyNode", "nodes::json::jsonify"),
    ("json", "ExtractJsonNode", "nodes::json::extract_json"),
    ("json", "PickOneNode", "nodes::json::pick_one"),
    ("llm", "SingleLLMCallNode", "nodes::llm::single_llm_call"),
    ("llm", "MCTSNode", "nodes::llm::mcts"),
    ("llm", "BestOfNNode", "nodes::llm::generative::best_of_n"),
    ("llm", "BranchSolveMergeNode", "nodes::llm::generative::branch_solve_merge"),
    ("llm", "MixtureOfAgentsNode", "nodes::llm::mixture_of_agents"),
    ("llm", "SelfConsistencyNode", "nodes::llm::self_consistency"),
    ("llm", "TreeOfThoughtsNode", "nodes::llm::tree_of_thoughts"),
    ("loops", "FixedIterationLoopNode", "nodes::loops::fixed_iteration_loop"),
    ("python", "PythonFuncNode", "nodes::python::python_func")]

/-- The names, modules, classes and replacements of the deprecated node types. -/
def deprecatedTypes : List (String × String × String × String) :=
  [("StringOutputLLMNode", "nodes::llm::string_output_llm", "StringOutputLLMNode",
      "SingleLLMCallNode"),
    ("StructuredOutputNode", "nodes::llm::structured_output", "StructuredOutputNode",
      "SingleLLMCallNode"),
    ("AdvancedLLMNode", "nodes::llm::single_llm_call", "SingleLLMCallNode", "SingleLLMCallNode"),
    ("SampleLLMNode", "nodes::llm::sample_llm", "SampleLLMNode", "SingleLLMCallNode"),
    ("SubworkflowNode", "nodes::subworkflow", "SubworkflowNode", "FixedIterationLoopNode")]

namespace CatalogBuilder

/-- Adds the standard node types. -/
def withStandardTypes (b : CatalogBuilder) : CatalogBuilder :=
  let b := primitiveTypes.foldl (fun b (name, kind) => b.register
    ⟨name, "primitives", "pipewise_runtime::node::primitive", name, some kind.loader⟩) b
  let b := externalTypes.foldl (fun b (category, name, moduleName) => b.register
    ⟨name, category, moduleName, name, none⟩) b
  deprecatedTypes.foldl (fun b (name, moduleName, className, replacement) => b.addDeprecated
    ⟨name, "deprecated", moduleName, className, none⟩ replacement) b

end CatalogBuilder

/-- The catalog of the standard node types. -/
def Catalog.standard : Catalog :=
  (CatalogBuilder.empty.withStandardTypes.assemble).1

end TypedWorkflow
