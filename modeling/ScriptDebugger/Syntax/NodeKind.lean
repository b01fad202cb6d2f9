import ScriptDebugger.Syntax.Operator

/-!
# Node kinds

What a node of a syntax tree is, over the type `α` that stands for its
children. In a flat tree these are the numbers of nodes. `children` lists them
in source order.
-/

namespace ScriptDebugger

inductive VarKind where
  | varKind | letKind | constKind
  deriving DecidableEq, Repr, Inhabited

namespace VarKind

/-- Whether the bindings belong to the block they stand in. -/
def isLexical : VarKind → Bool
  | varKind => false
  | letKind | constKind => true

def text : VarKind → String
  | varKind => "var"
  | letKind => "let"
  | constKind => "const"

end VarKind

inductive Literal where
  | number (value : Float)
  | string (value : String)
  | bool (value : Bool)
  | null
  deriving Repr, Inhabited

inductive NodeKind (α : Type) where
  | program (body : List α)
  | variableDeclaration (kind : VarKind) (declarators : List α)
  | variableDeclarator (name : α) (init : Option α)
  | functionDeclaration (name : α) (params : List α) (body : α)
  | expressionStatement (expression : α)
  | blockStatement (body : List α)
  | ifStatement (test consequent : α) (alternate : Option α)
  | forStatement (init test update : Option α) (body : α)
  | whileStatement (test body : α)
  | returnStatement (argument : Option α)
  | throwStatement (argument : α)
  | breakStatement
  | continueStatement
  | debuggerStatement
  | emptyStatement
  | identifier (name : String)
  | literal (value : Literal)
  | arrayExpression (elements : List α)
  | objectExpression (properties : List α)
  | property (key : String) (value : α)
  | functionExpression (name : Option α) (params : List α) (body : α)
  | unaryExpression (op : UnaryOp) (argument : α)
  | updateExpression (op : UpdateOp) (before : Bool) (argument : α)
  | binaryExpression (op : BinaryOp) (left right : α)
  | logicalExpression (op : LogicalOp) (left right : α)
  | assignmentExpression (op : AssignOp) (left right : α)
  | conditionalExpression (test consequent alternate : α)
  | callExpression (callee : α) (arguments : List α)
  | newExpression (callee : α) (arguments : List α)
  | memberExpression (object property : α) (computed : Bool)
  deriving Repr, Inhabited

namespace NodeKind

variable {α : Type}

/-- The name that trees and traces show. -/
def typeName : NodeKind α → String
  | program .. => "Program"
  | variableDeclaration .. => "VariableDeclaration"
  | variableDeclarator .. => "VariableDeclarator"
  | functionDeclaration .. => "FunctionDeclaration"
  | expressionStatement .. => "ExpressionStatement"
  | blockStatement .. => "BlockStatement"
  | ifStatement .. => "IfStatement"
  | forStatement .. => "ForStatement"
  | whileStatement .. => "WhileStatement"
  | returnStatement .. => "ReturnStatement"
  | throwStatement .. => "ThrowStatement"
  | breakStatement => "BreakStatement"
  | continueStatement => "ContinueStatement"
  | debuggerStatement => "DebuggerStatement"
  | emptyStatement => "EmptyStatement"
  | identifier .. => "Identifier"
  | literal .. => "Literal"
  | arrayExpression .. => "ArrayExpression"
  | objectExpression .. => "ObjectExpression"
  | property .. => "Property"
  | functionExpression .. => "FunctionExpression"
  | unaryExpression .. => "UnaryExpression"
  | updateExpression .. => "UpdateExpression"
  | binaryExpression .. => "BinaryExpression"
  | logicalExpression .. => "LogicalExpression"
  | assignmentExpression .. => "AssignmentExpression"
  | conditionalExpression .. => "ConditionalExpression"
  | callExpression .. => "CallExpression"
  | newExpression .. => "NewExpression"
  | memberExpression .. => "MemberExpression"

/-- Statements, declarations among them. -/
def isStatement : NodeKind α → Bool
  | variableDeclaration .. | functionDeclaration .. | expressionStatement .. | blockStatement ..
  | ifStatement .. | forStatement .. | whileStatement .. | returnStatement .. | throwStatement ..
  | breakStatement | continueStatement | debuggerStatement | emptyStatement => true
  | _ => false

/-- Children in source order. -/
def children : NodeKind α → List α
  | program body | blockStatement body => body
  | variableDeclaration _ declarators => declarators
  | variableDeclarator name init => name :: init.toList
  | functionDeclaration name params body => name :: params ++ [body]
  | functionExpression name params body => name.toList ++ params ++ [body]
  | expressionStatement expression => [expression]
  | ifStatement test consequent alternate => test :: consequent :: alternate.toList
  | forStatement init test update body => init.toList ++ test.toList ++ update.toList ++ [body]
  | whileStatement test body => [test, body]
  | returnStatement argument => argument.toList
  | throwStatement argument => [argument]
  | breakStatement | continueStatement | debuggerStatement | emptyStatement => []
  | identifier _ | literal _ => []
  | arrayExpression elements => elements
  | objectExpression properties => properties
  | property _ value => [value]
  | unaryExpression _ argument | updateExpression _ _ argument => [argument]
  | binaryExpression _ left right | logicalExpression _ left right
  | assignmentExpression _ left right => [left, right]
  | conditionalExpression test consequent alternate => [test, consequent, alternate]
  | callExpression callee arguments | newExpression callee arguments => callee :: arguments
  | memberExpression object key _ => [object, key]

/-- The name of an identifier. -/
def name? : NodeKind α → Option String
  | identifier name => some name
  | _ => none

end NodeKind

end ScriptDebugger
