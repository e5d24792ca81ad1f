import Mathlib.Data.List.Induction
import Mathlib.Data.List.TakeWhile

/-!
# The iLL abstract syntax tree

What lowering produces, the validator checks and the harness runs. Commands
are generic (a name and arguments); what an actor type makes of them belongs
to its descriptors. Byte positions in the normalised source are natural
numbers, and integer literals are the integers their spelling denotes.
-/

namespace Ill.Ast

/-- A byte range of the normalised source; `stop` is the source's `end`. -/
structure Span where
  start : Nat
  stop : Nat
deriving DecidableEq, Repr

structure Ident where
  name : String
  span : Span
deriving DecidableEq, Repr

mutual

inductive Expr where
  | ident (ident : Ident)
  | stringLit (fragments : List StringFragment) (span : Span)
  | number (value : Int)
  | bool (value : Bool)
  | null
  | atom (ident : Ident)
  | array (items : List Expr)
  | squiggle (name : Ident) (fragments : List StringFragment) (span : Span)
  | memberAccess (object : Expr) (property : Ident) (span : Span)
  | index (object : Expr) (indices : List Expr) (span : Span)
deriving Repr

inductive StringFragment where
  | text (text : String)
  | interpolation (expr : Expr)
deriving Repr

end

inductive KeywordValue where
  | expr (expr : Expr)
  | map (pairs : List (Expr × Expr))
deriving Repr

/-- A keyword argument of an actor declaration or a command. -/
structure KeywordArg where
  key : Ident
  value : KeywordValue
  span : Span
deriving Repr

structure Annotation where
  name : Ident
  value : Option String
  span : Span
deriving Repr

structure VarDeclaration where
  annotations : List Annotation
  name : Ident
  default : Option Expr
  span : Span
deriving Repr

structure ActorDeclaration where
  name : Ident
  actorType : Ident
  keywordArgs : List KeywordArg
  vars : List VarDeclaration
  span : Span
deriving Repr

structure Command where
  annotation : Option Annotation
  name : Ident
  positionalArgs : List Expr
  keywordArgs : List KeywordArg
  span : Span
deriving Repr

structure Assignment where
  target : Expr
  value : Expr
  span : Span
deriving Repr

inductive ComparisonOp where
  | eq | notEq | gt | gte | lt | lte | contains | notContains | «matches» | notMatches
deriving DecidableEq, Repr

structure Assert where
  annotation : Option Annotation
  left : Expr
  op : Option ComparisonOp
  right : Option Expr
  span : Span
deriving Repr

inductive LetValue where
  | expr (expr : Expr)
  | parse (source : Expr) (format : Ident)
deriving Repr

structure Let where
  name : Ident
  value : LetValue
  span : Span
deriving Repr

inductive Statement where
  | command (command : Command)
  | assert (assert : Assert)
  | «let» (letStmt : Let)
  | assignment (assignment : Assignment)
deriving Repr

structure AsBlock where
  actor : Ident
  body : List Statement
  span : Span
deriving Repr

inductive TopLevel where
  | actorDeclaration (decl : ActorDeclaration)
  | asBlock (block : AsBlock)
deriving Repr

structure SourceFile where
  items : List TopLevel
deriving Repr

/-- Whether a statement opens a new command window. -/
def Statement.isCommand : Statement → Bool
  | .command _ => true
  | _ => false

/-- The window of a command: the statements after it up to the next command or
the end of the block. -/
def window (after : List Statement) : List Statement :=
  after.takeWhile fun stmt => !stmt.isCommand

@[simp] theorem window_nil : window [] = [] := rfl

@[simp] theorem window_command (command : Command) (rest : List Statement) :
    window (.command command :: rest) = [] := rfl

/-- A statement other than a command belongs to the window it stands in. -/
theorem window_cons {stmt : Statement} (inside : stmt.isCommand = false) (rest : List Statement) :
    window (stmt :: rest) = stmt :: window rest := by
  simp [window, inside]

/-- A window holds no command. -/
theorem isCommand_of_mem_window {stmt : Statement} {after : List Statement}
    (member : stmt ∈ window after) : stmt.isCommand = false := by
  have inside := List.mem_takeWhile_imp member
  simpa using inside

/-- A window runs up to what ends it. -/
theorem window_append {inside after : List Statement}
    (quiet : ∀ stmt ∈ inside, stmt.isCommand = false) :
    window (inside ++ after) = inside ++ window after := by
  induction inside with
  | nil => rfl
  | cons stmt rest ih =>
    rw [List.cons_append, window_cons (quiet stmt List.mem_cons_self),
      ih fun other member => quiet other (List.mem_cons_of_mem _ member), List.cons_append]

/-- Induction over a block by its windows: the statements before the first
command, and then one command with its window at a time. -/
theorem window_induction {motive : List Statement → Prop}
    (head : ∀ inside, (∀ stmt ∈ inside, stmt.isCommand = false) → motive inside)
    (command : ∀ prior cmd inside, (∀ stmt ∈ inside, stmt.isCommand = false) →
      motive prior → motive (prior ++ .command cmd :: inside))
    (body : List Statement) : motive body := by
  -- `inside` is the part of the last window that lies behind the split point.
  have split : ∀ body inside, (∀ stmt ∈ inside, stmt.isCommand = false) →
      motive (body ++ inside) := by
    intro body
    induction body using List.reverseRecOn with
    | nil =>
      intro inside quiet
      exact head inside quiet
    | append_singleton body last ih =>
      intro inside quiet
      rw [List.append_assoc, List.singleton_append]
      rcases kind : last.isCommand with _ | _
      · refine ih (last :: inside) fun stmt member => ?_
        rcases List.mem_cons.mp member with rfl | later
        · exact kind
        · exact quiet stmt later
      · cases last with
        | command cmd =>
          refine command body cmd inside quiet ?_
          have whole := ih [] (by simp)
          rwa [List.append_nil] at whole
        | _ => simp [Statement.isCommand] at kind
  have whole := split body [] (by simp)
  rwa [List.append_nil] at whole

end Ill.Ast
