/-
# ModuleBundler.Proofs.Execution.Language — the language that linking functions are written in.

A bundle runs when its linking function is applied to its registry.  This module says what the two
linking functions are: not texts but terms of a small language, which the trees of the project's own
reader are turned into (`Term.ofTree?`).  What a tree has beyond this language has no term, so a
script that has one means what its term means.  Read in this way, the texts that stand at the front
of bundles are the terms `Linking.function true` and `Linking.function false`
(`ofScript?_runtime`), and everything that is proved of running them is proved of the texts.
-/
import ModuleBundler.Registry
import ModuleBundler.Script.Program

namespace ModuleBundler.Execution

open Script

mutual

/-- Expressions. -/
inductive Term
  | number (value : Nat)
  | text (value : String)
  | name (name : String)
  | member (object : Term) (key : String)
  | index (object key : Term)
  | array (elements : Terms)
  | object (fields : Fields)
  | not (operand : Term)
  | sum (left right : Term)
  | construct (callee : Term) (arguments : Terms)
  | call (callee : Term) (arguments : Terms)
  /-- an assignment to a property -/
  | assign (object key value : Term)
  | function (parameters : List String) (body : Block)
  /-- a function that is known by the text of its body only -/
  | script (body : String)

/-- Expressions in a list. -/
inductive Terms
  | nil
  | cons (first : Term) (rest : Terms)

/-- The properties that an object is written with. -/
inductive Fields
  | nil
  | cons (key : String) (value : Term) (rest : Fields)

inductive Statement
  | variable (name : String) (value : Term)
  | function (name : String) (parameters : List String) (body : Block)
  | when (condition : Term) (body : Block)
  | return (value : Term)
  | throw (value : Term)
  | expression (term : Term)

/-- Statements in a list. -/
inductive Block
  | nil
  | cons (first : Statement) (rest : Block)

end

deriving instance DecidableEq for Term, Terms, Fields, Statement, Block

@[simp] def Terms.ofList : List Term → Terms
  | [] => .nil
  | term :: terms => .cons term (ofList terms)

@[simp] def Fields.ofList : List (String × Term) → Fields
  | [] => .nil
  | field :: fields => .cons field.1 field.2 (ofList fields)

@[simp] def Block.ofList : List Statement → Block
  | [] => .nil
  | statement :: statements => .cons statement (ofList statements)

/-! ## From trees to terms -/

/-- The names of parameters, none of which is a pattern or has a default value. -/
def parameterNames? : List Node → Option (List String)
  | [] => some []
  | .leaf _ (.binding name) :: nodes => (name :: ·) <$> parameterNames? nodes
  | _ => none

/-- The number that a literal stands for, if it is written in digits as numbers are printed. -/
def plainNumber? (literal : String) : Option Nat :=
  let value := Nat.ofDigitChars 10 literal.toList 0
  if Nat.toDigits 10 value = literal.toList then some value else none

mutual

/-- The term that a tree stands for. -/
def Term.ofTree? : Node → Option Term
  | .leaf _ (.name name) => some (.name name)
  | .leaf _ (.string value) => some (.text value)
  | .leaf _ (.atom literal) => Term.number <$> plainNumber? literal
  | .branch _ .paren [inner] => Term.ofTree? inner
  | .branch _ (.member false) [object, .leaf _ (.key key)] =>
    (Term.member · key) <$> Term.ofTree? object
  | .branch _ (.index false) [object, key] => do
    return .index (← Term.ofTree? object) (← Term.ofTree? key)
  | .branch _ (.object none) properties => Term.object <$> Fields.ofTrees? properties
  | .branch _ (.unary "!") [operand] => Term.not <$> Term.ofTree? operand
  | .branch _ (.binary "+") [left, right] => do
    return .sum (← Term.ofTree? left) (← Term.ofTree? right)
  | .branch _ .new (callee :: arguments) => do
    return .construct (← Term.ofTree? callee) (← Terms.ofTrees? arguments)
  | .branch _ (.call false) (callee :: arguments) => do
    return .call (← Term.ofTree? callee) (← Terms.ofTrees? arguments)
  | .branch _ (.assign .assign) [.branch _ (.index false) [object, key], value] => do
    return .assign (← Term.ofTree? object) (← Term.ofTree? key) (← Term.ofTree? value)
  | .branch _ (.functionExpression false false)
      [.branch _ .parameters parameters, .branch _ .body statements] => do
    return .function (← parameterNames? parameters) (← Block.ofTrees? statements)
  | _ => none

def Terms.ofTrees? : List Node → Option Terms
  | [] => some .nil
  | node :: nodes => do
    return .cons (← Term.ofTree? node) (← Terms.ofTrees? nodes)

def Fields.ofTrees? : List Node → Option Fields
  | [] => some .nil
  | .branch _ .property [.leaf _ (.key key), value] :: nodes => do
    return .cons key (← Term.ofTree? value) (← Fields.ofTrees? nodes)
  | _ => none

/-- The statement that a tree stands for.  Functions are declared outside of other statements
only. -/
def Statement.ofTree? : Node → Option Statement
  | .branch _ (.variableDeclaration "var")
      [.branch _ .declarator [.leaf _ (.binding name), value]] =>
    Statement.variable name <$> Term.ofTree? value
  | .branch _ (.functionDeclaration false false)
      [.leaf _ (.binding name), .branch _ .parameters parameters, .branch _ .body statements] => do
    return .function name (← parameterNames? parameters) (← Block.ofTrees? statements)
  | .branch _ .ifElse [condition, .branch _ .block statements] => do
    return .when (← Term.ofTree? condition) (← Block.ofTrees? statements)
  | .branch _ .return [value] => Statement.return <$> Term.ofTree? value
  | .branch _ .throw [value] => Statement.throw <$> Term.ofTree? value
  | .branch _ .expression [value] => Statement.expression <$> Term.ofTree? value
  | _ => none

def Block.ofTrees? : List Node → Option Block
  | [] => some .nil
  | node :: nodes => do
    return .cons (← Statement.ofTree? node) (← Block.ofTrees? nodes)

end

/-- The term that a script stands for that is a single expression. -/
def ofScript? (text : List Char) : Option Term :=
  match Program.read false text with
  | .ok ⟨[.branch _ .expression [tree]], none, _, none⟩ => Term.ofTree? tree
  | _ => none

/-! ## The linking functions -/

namespace Linking

/-- The test whether an object itself has a property. -/
@[simp] def hasOwn (object key : Term) : Term :=
  .call (.member (.member (.member (.name "Object") "prototype") "hasOwnProperty") "call")
    (.ofList [object, key])

/-- What a factory is given to require other modules with. -/
def localRequire : Block :=
  .ofList
    [ .when (.not (hasOwn (.name "mapping") (.name "name")))
        (.ofList
          [ .throw (.construct (.name "Error")
              (.ofList
                [.sum (.sum (.text "Cannot find module '") (.name "name")) (.text "'")])) ]),
      .return (.call (.name "require") (.ofList [.index (.name "mapping") (.name "name")])) ]

/-- Answers from the cache. -/
def answerKept : Statement :=
  .when (hasOwn (.name "cache") (.name "id"))
    (.ofList [.return (.member (.index (.name "cache") (.name "id")) "exports")])

/-- Looks a module up and makes what its factory is given. -/
def prepare : List Statement :=
  [ .variable "fn" (.index (.index (.name "modules") (.name "id")) (.number 0)),
    .variable "mapping" (.index (.index (.name "modules") (.name "id")) (.number 1)),
    .function "localRequire" ["name"] localRequire,
    .variable "module" (.object (.ofList [("exports", .object .nil)])) ]

/-- Puts a module into the cache. -/
def keep : Statement :=
  .expression (.assign (.name "cache") (.name "id") (.name "module"))

/-- Runs a factory and answers what it exports. -/
def runFactory : List Statement :=
  [ .expression (.call (.name "fn")
      (.ofList [.name "localRequire", .name "module", .member (.name "module") "exports"])),
    .return (.member (.name "module") "exports") ]

/-- What answers the identity of a module with its exports. -/
def require (caches : Bool) : Block :=
  .ofList
    ((if caches then [answerKept] else []) ++ prepare ++ (if caches then [keep] else []) ++
      runFactory)

/-- The body of a linking function. -/
def body (caches : Bool) : Block :=
  .ofList
    ((if caches then [.variable "cache" (.object .nil)] else []) ++
      [ .function "require" ["id"] (require caches),
        .expression (.call (.name "require") (.ofList [.number 0])) ])

/-- A linking function: the one that keeps modules, or the one that runs them again. -/
def function (caches : Bool) : Term :=
  .function ["modules"] (body caches)

end Linking

/-- The text at the front of a bundle is a linking function. -/
theorem ofScript?_runtime (options : RuntimeOptions) :
    ofScript? (Registry.runtime options).toList = some (Linking.function options.moduleCache) := by
  unfold Registry.runtime Registry.cachingRuntime Registry.reinvokingRuntime
  cases options.moduleCache
  all_goals
    simp only [Bool.false_eq_true, if_true, if_false, String.toList_intercalate,
      Registry.linkLines, Registry.runLines, List.cons_append, List.nil_append, List.map_cons,
      List.map_nil]
    -- the characters of a literal are known as they stand
    repeat rw [String.toList_ofList]
    decide +kernel

end ModuleBundler.Execution
