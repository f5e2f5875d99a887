import OpencodeToolbelt.Data.JsString
import Mathlib.Data.List.Basic

/-!
# Extraction of symbols

What is read off the syntax tree of a source: the symbols it defines and the references it makes
to names. A reference stands under the name of the symbol that encloses it. The trees themselves
come from the grammars of tree-sitter.
-/

/-- A node of a syntax tree. -/
inductive SyntaxNode where
  | mk (type : String) (text : String) (row : ℕ) (fields : List (String × SyntaxNode))
    (namedChildren : List SyntaxNode)

namespace SyntaxNode

def type : SyntaxNode → String
  | mk type _ _ _ _ => type

def text : SyntaxNode → String
  | mk _ text _ _ _ => text

/-- `node.startPosition.row` -/
def row : SyntaxNode → ℕ
  | mk _ _ row _ _ => row

def fields : SyntaxNode → List (String × SyntaxNode)
  | mk _ _ _ fields _ => fields

def childForFieldName (node : SyntaxNode) (field : String) : Option SyntaxNode :=
  node.fields.lookup field

end SyntaxNode

inductive SymbolKind where
  | function
  | method
  | classDeclaration
  deriving DecidableEq

inductive RefKind where
  | call
  | new
  | method
  deriving DecidableEq

inductive EdgeConfidence where
  | name
  | this
  | typed
  deriving DecidableEq

structure SymbolDef where
  name : String
  kind : SymbolKind
  line : ℕ
  deriving DecidableEq

structure RefEdge where
  caller : String
  dstName : String
  kind : RefKind
  line : ℕ
  confidence : EdgeConfidence
  deriving DecidableEq

structure Extraction where
  defs : List SymbolDef
  refs : List RefEdge
  deriving DecidableEq

inductive Grammar where
  | typescript
  | tsx
  deriving DecidableEq

namespace CodeIndex

def MODULE : String := "<module>"

def grammarForExtension (ext : String) : Option Grammar :=
  let ext := String.ofList (toLowerCase ext.toList)
  if ext ∈ ["ts", "mts", "cts", "js", "mjs", "cjs"] then some .typescript
  else if ext ∈ ["tsx", "jsx"] then some .tsx
  else none

/-- The name of a node, unless it is empty. -/
def nameOf (node : SyntaxNode) : Option String :=
  nonEmpty ((node.childForFieldName "name").map SyntaxNode.text)

/-- The symbol that a node defines. -/
def definition (node : SyntaxNode) : Option SymbolDef :=
  let named (kind : SymbolKind) : Option SymbolDef :=
    (nameOf node).map fun name => ⟨name, kind, node.row + 1⟩
  if node.type ∈ ["function_declaration", "generator_function_declaration"] then named .function
  else if node.type = "method_definition" then named .method
  else if node.type ∈ ["class_declaration", "abstract_class_declaration"] then named .classDeclaration
  else if node.type = "variable_declarator" then
    (node.childForFieldName "value").bind fun value =>
      if value.type ∈ ["arrow_function", "function_expression"] then named .function else none
  else none

/-- The name that encloses what is below a node: that of a function or a method it defines. -/
def enclosing (node : SyntaxNode) (outer : String) : String :=
  match definition node with
  | some ⟨_, .classDeclaration, _⟩ => outer
  | some ⟨name, _, _⟩ => name
  | none => outer

/-- The reference that a node makes. Of the calls of members, only those of `this` count. -/
def reference (node : SyntaxNode) (outer : String) : Option RefEdge :=
  if node.type = "call_expression" then
    (node.childForFieldName "function").bind fun fn =>
      if fn.type = "identifier" then some ⟨outer, fn.text, .call, node.row + 1, .name⟩
      else if fn.type = "member_expression" then
        match fn.childForFieldName "object", fn.childForFieldName "property" with
        | some object, some property =>
            if object.type = "this" then
              some ⟨outer, property.text, .method, node.row + 1, .this⟩
            else none
        | _, _ => none
      else none
  else if node.type = "new_expression" then
    (node.childForFieldName "constructor").bind fun ctor =>
      if ctor.type = "identifier" then some ⟨outer, ctor.text, .new, node.row + 1, .name⟩
      else none
  else none

mutual

/-- What a node and the nodes below it define and refer to, within a symbol. -/
def walk (outer : String) : SyntaxNode → Extraction
  | .mk type text row fields namedChildren =>
      let node := SyntaxNode.mk type text row fields namedChildren
      let below := walkAll (enclosing node outer) namedChildren
      ⟨(definition node).toList ++ below.defs, (reference node outer).toList ++ below.refs⟩

def walkAll (outer : String) : List SyntaxNode → Extraction
  | [] => ⟨[], []⟩
  | node :: nodes =>
      let first := walk outer node
      let rest := walkAll outer nodes
      ⟨first.defs ++ rest.defs, first.refs ++ rest.refs⟩

end

/-- The extraction of a source under a file extension, with `none` where the parser throws. -/
def extractFromSource (parse : Grammar → String → Option SyntaxNode) (source ext : String) :
    Option Extraction :=
  match grammarForExtension ext with
  | none => some ⟨[], []⟩
  | some grammar => (parse grammar source).map (walk MODULE)

/-- A file extension matters by its grammar only. -/
theorem extractFromSource_congr (parse : Grammar → String → Option SyntaxNode) (source : String)
    {ext ext' : String} (h : grammarForExtension ext = grammarForExtension ext') :
  extractFromSource parse source ext = extractFromSource parse source ext'
  := by
  rw [extractFromSource, extractFromSource, h]

end CodeIndex
