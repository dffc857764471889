import EntityViews.Decl.Node

/-!
This module contains the statements that generated methods loop over collections with, as data, and
how they are written. A collection of collections is walked with two indices, so the terms are
variables, numbers and the few operations on collections that such a walk needs.
-/

namespace EntityViews

inductive Term where
  | var (name : String)
  | int (value : Int)
  | bool (value : Bool)
  | increment (name : String)
  | less (left right : Term)
  | count (collection : Term)
  | item (collection index : Term)
  | prepared (entities : Term)
  | components (collection : Term) (type : String)
deriving DecidableEq, Repr

def Term.text : Term → String
  | .var name => name
  | .int value => toString value
  | .bool value => if value then "true" else "false"
  | .increment name => s!"++{name}"
  | .less left right => s!"{left.text} < {right.text}"
  | .count collection => s!"{collection.text}.Count"
  | .item collection index => s!"{collection.text}[{index.text}]"
  | .prepared entities => s!"{entities.text}.PrepareCollections()"
  | .components collection type => s!"{collection.text}.GetComponents<{type}>()"

inductive Statement where
  | declare (type name : String) (value : Term)
  | assign (target : String) (value : Term)
  | eval (term : Term)
  | call (method : String)
  | return (value : Term)
  | ifThen (condition : Term) (body : List Statement)
  | while (condition : Term) (body : List Statement)

namespace Statement

mutual

def node : Statement → Node
  | .declare type name value => .text s!"{type} {name} = {value.text};"
  | .assign target value => Node.assign target value.text
  | .eval term => .text s!"{term.text};"
  | .call method => .text s!"{method}();"
  | .return value => .text s!"return {value.text};"
  | .ifThen condition body => .block (.text s!"if ({condition.text})") (nodes body)
  | .while condition body => .block (.text s!"while ({condition.text})") (nodes body)

def nodes : List Statement → List Node
  | [] => []
  | statement :: statements => statement.node :: nodes statements

end

@[simp]
theorem nodes_eq_map (statements : List Statement) : nodes statements = statements.map node := by
  induction statements with
  | nil => rfl
  | cons statement statements ih => simp [nodes, ih]

end Statement

end EntityViews
