/-!
# Names in generated code

The parameters of the wrapper function, and the kinds of node behind which names are local.
-/

namespace NotebookCell

/-- The object that holds the top-level bindings of all cells. -/
def namespaceName : String := "__global"

def importName : String := "__import"

def consoleName : String := "console"

/-- The kinds of node whose bodies have a scope of their own. No pass looks into them. -/
def scopeKinds : List String :=
  ["function_expression", "function", "generator_function", "arrow_function", "method_definition",
    "class_static_block", "field_definition"]

def functionDeclarationKinds : List String :=
  ["function_declaration", "generator_function_declaration"]

end NotebookCell
