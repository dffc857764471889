import EntityViews.Source.Script

/-!
This module contains the operations that a buffer offers to those who write to it, as opposed to the
steps of a script that all of them come down to.
-/

namespace EntityViews

inductive Operation where
  | append (text : String)
  | appendChar (c : Char)
  | appendIf (condition : Bool) (text : String)
  | newLine
  | newLineWith (text : String)
  | indent
  | indentIf (enabled : Bool)
  | block
  | release
  | clear
deriving DecidableEq, Repr

def Operation.script : Operation → Script
  | .append text => [.append text]
  | .appendChar c => [.append (String.singleton c)]
  | .appendIf condition text => if condition then [.append text] else []
  | .newLine => [.newLine]
  | .newLineWith text => [.newLine, .append text]
  | .indent => [.enter (.indent true)]
  | .indentIf enabled => [.enter (.indent enabled)]
  | .block => [.enter .block]
  | .release => [.leave]
  | .clear => [.clear]

namespace Session

def perform (session : Session) (operation : Operation) : Session :=
  session.run operation.script

def performAll (session : Session) (operations : List Operation) : Session :=
  operations.foldl perform session

theorem performAll_eq_run (session : Session) (operations : List Operation) :
    session.performAll operations = session.run (operations.flatMap Operation.script) := by
  induction operations generalizing session with
  | nil => rfl
  | cons operation operations ih =>
    rw [List.flatMap_cons, run_append]
    exact ih (session.perform operation)

end Session

end EntityViews
