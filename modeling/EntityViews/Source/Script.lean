import EntityViews.Source.Buffer

/-!
This module contains scripts: sequences of buffer operations as data. Code is generated by computing
a script first and running it on a buffer afterwards, so what is written can be reasoned about
without a buffer.
-/

namespace EntityViews

inductive Step where
  | append (text : String)
  | newLine
  | enter (scope : Scope)
  | leave
  | clear
deriving DecidableEq, Repr

abbrev Script := List Step

structure Session where
  buffer : Buffer
  -- innermost first
  scopes : List Scope := []
deriving Repr

namespace Session

def step (session : Session) : Step → Session
  | .append text => { session with buffer := session.buffer.append text }
  | .newLine => { session with buffer := session.buffer.newLine }
  | .enter scope => ⟨session.buffer.enter scope, scope :: session.scopes⟩
  | .leave =>
    match session.scopes with
    | [] => session
    | scope :: scopes => ⟨session.buffer.leave scope, scopes⟩
  | .clear => { session with buffer := session.buffer.clear }

def run (session : Session) (script : Script) : Session :=
  script.foldl step session

def finish (session : Session) : Buffer :=
  session.scopes.foldl Buffer.leave session.buffer

theorem run_nil (session : Session) : session.run [] = session := by
  rfl

theorem run_append (session : Session) (first second : Script) :
    session.run (first ++ second) = (session.run first).run second := by
  simp [run]

end Session

def Buffer.run (buffer : Buffer) (script : Script) : Buffer :=
  ((Session.mk buffer []).run script).finish

namespace Script

/--
Like the given script, but closing exactly the scopes that it opens, where `opened` of its own
scopes are open already. A `leave` without a scope of its own is dropped.
-/
def closed (opened : Nat) : Script → Script
  | [] => List.replicate opened .leave
  | .enter scope :: script => .enter scope :: closed (opened + 1) script
  | .leave :: script =>
    match opened with
    | 0 => closed 0 script
    | opened + 1 => .leave :: closed opened script
  | step :: script => step :: closed opened script

end Script

end EntityViews
