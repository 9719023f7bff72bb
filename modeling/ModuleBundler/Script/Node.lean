/-
# ModuleBundler.Script.Node — the tree of a script.

A node is a leaf or a branch.  The form of a branch says what the construct is and carries the
names and marks that belong to it; its parts are its sub-constructs in the order of the text.
Every node knows the range of the text it was read from, so that a conversion of the text can be
described by ranges alone.  Names that are declared (`binding`) and names that are used (`name`)
are different leaves.
-/
import ModuleBundler.Script.Token

namespace ModuleBundler.Script

/-- A construct without parts. -/
inductive Leaf
  /-- a name that is used -/
  | name (text : String)
  /-- a name that is declared -/
  | binding (text : String)
  /-- a name or literal that names a property -/
  | key (text : String)
  /-- a string literal, by the text it stands for -/
  | string (value : String)
  /-- another literal or a keyword that is an operand, as written -/
  | atom (text : String)
  /-- nothing: a place left free in a list -/
  | hole
  deriving DecidableEq, Repr

/-- A module named by a string literal: the range of the literal, and what it stands for. -/
structure Source where
  literal : Span
  specifier : String
  deriving DecidableEq, Repr

/-- One name that an import declaration binds. -/
inductive ImportBinding
  /-- the default export -/
  | default (locally : String)
  /-- all exports as one object -/
  | namespace (locally : String)
  /-- the export of a given name -/
  | named (imported locally : String)
  deriving DecidableEq, Repr

/-- One entry of an export list: the name of the value and the name it is exported under, with the
ranges of the entry and of the exported name. -/
structure ExportEntry where
  span : Span
  value : String
  exported : String
  exportedSpan : Span
  deriving DecidableEq, Repr

/-- The kinds of members of an object or a class that hold a function. -/
inductive MethodKind
  | method
  | getter
  | setter
  deriving DecidableEq, Repr

/-- What a branch is. -/
inductive Form
  /-- the whole text -/
  | program
  -- Expressions
  /-- an expression in parentheses -/
  | paren
  | sequence
  /-- elements, and where a comma stands behind the last one -/
  | array (comma : Option Nat)
  /-- properties, and where a comma stands behind the last one -/
  | object (comma : Option Nat)
  | spread
  /-- key and value -/
  | property
  /-- a name that is both key and value -/
  | shorthand
  /-- the same with a default value, which only a pattern may have -/
  | shorthandDefault
  | computed
  | method (kind : MethodKind) (isStatic isAsync isGenerator : Bool)
  | field (isStatic : Bool)
  | staticBlock
  | member (isOptional : Bool)
  | index (isOptional : Bool)
  | call (isOptional : Bool)
  | new
  /-- an optional chain as a whole -/
  | chain
  | template
  | tagged
  | metaProperty
  /-- source, then options -/
  | dynamicImport
  | unary (operator : String)
  | update (operator : Mark) (isLeading : Bool)
  | binary (operator : String)
  | assign (operator : Mark)
  | conditional
  | yield (delegates : Bool)
  | await
  | arrow (isAsync : Bool)
  /-- optional name, parameters, body -/
  | functionExpression (isAsync isGenerator : Bool)
  /-- decorators, optional name, optional heritage, members -/
  | classExpression
  | decorator
  /-- decorators and the export or the parameter behind them -/
  | decorated
  | heritage
  | members
  | parameters
  | body
  -- Patterns
  | objectPattern
  | arrayPattern
  /-- a target with a default value -/
  | default
  | rest
  -- Statements
  | block
  | empty
  | expression
  | variableDeclaration (keyword : String)
  | declarator
  | functionDeclaration (isAsync isGenerator : Bool)
  | classDeclaration
  | ifElse
  | for
  | forIn
  | forOf (isAwait : Bool)
  | while
  | doWhile
  | continue
  | break
  | return
  | withObject
  | switch
  | case (isDefault : Bool)
  | throw
  | try
  | catch
  | finally
  | debugger
  | labeled (label : String)
  -- Module syntax
  | importDeclaration (bindings : List ImportBinding) (source : Source)
  | exportList (entries : List ExportEntry) (source : Option Source)
  | exportAll (name : Option (String × Span)) (source : Source)
  /-- an exported declaration, its only part -/
  | exportDeclaration
  /-- a default export, its only part the declaration or value -/
  | exportDefault (keyword : Span)
  deriving DecidableEq, Repr

/-- A construct of a script. -/
inductive Node
  | leaf (span : Span) (leaf : Leaf)
  | branch (span : Span) (form : Form) (parts : List Node)
  deriving Repr

namespace Node

def span : Node → Span
  | .leaf span _ => span
  | .branch span _ _ => span

/-- The sub-constructs, in the order of the text. -/
def parts : Node → List Node
  | .leaf _ _ => []
  | .branch _ _ parts => parts

mutual

/-- The names that a pattern or declaration binds, in the order of the text and each with its
range.  Keys and default values bind nothing. -/
def bindings : Node → List (String × Span)
  | .leaf span (.binding name) => [(name, span)]
  | .leaf _ _ => []
  | .branch _ form parts =>
    match form with
    | .property => bindingsOfLast parts
    | .default => bindingsOfFirst parts
    | .declarator => bindingsOfFirst parts
    | .functionDeclaration _ _ => ownBinding parts
    | .classDeclaration => ownBinding parts
    | .objectPattern | .arrayPattern | .rest | .shorthand | .variableDeclaration _ => bindingsOfAll parts
    | _ => []

/-- The names that all nodes of a list bind. -/
def bindingsOfAll : List Node → List (String × Span)
  | [] => []
  | node :: nodes => bindings node ++ bindingsOfAll nodes

/-- The names that the first node of a list binds. -/
def bindingsOfFirst : List Node → List (String × Span)
  | [] => []
  | node :: _ => bindings node

/-- The names that the last node of a list binds. -/
def bindingsOfLast : List Node → List (String × Span)
  | [] => []
  | [node] => bindings node
  | _ :: nodes => bindingsOfLast nodes

/-- The first name that stands directly in a list of nodes. -/
def ownBinding : List Node → List (String × Span)
  | [] => []
  | .leaf span (.binding name) :: _ => [(name, span)]
  | _ :: nodes => ownBinding nodes

end

/-- The name that a declared function or class has. -/
def declaredName? : Node → Option String
  | .branch _ (.functionDeclaration _ _) parts => (ownBinding parts).head?.map (·.1)
  | .branch _ .classDeclaration parts => (ownBinding parts).head?.map (·.1)
  | _ => none

mutual

/-- The position of the first property in the node that has a default value although it stands in
no pattern. -/
def strayDefault? : Node → Option Nat
  | .leaf _ _ => none
  | .branch span form parts =>
    if form = .shorthandDefault then some span.start else strayDefaultAmong? parts

/-- The same for a list of nodes. -/
def strayDefaultAmong? : List Node → Option Nat
  | [] => none
  | node :: nodes =>
    match strayDefault? node with
    | some position => some position
    | none => strayDefaultAmong? nodes

end

end Node

end ModuleBundler.Script
