import EntityViews.Source.Indent

/-!
This module contains the text buffer that generated code is written through. It is append-only and
indents lazily: a line break records the depth at which it was written, and the indentation itself
is written right before the next text that is not empty. So blank lines stay empty and all other
lines start with exactly as many units as scopes were open at the break.
-/

namespace EntityViews

inductive Scope where
  | indent (enabled : Bool)
  | block
deriving DecidableEq, Repr

structure Buffer where
  indent : Indent
  text : String := ""
  depth : Nat := 0
  -- the depth at the last line break, until the indentation of the line is written
  pending : Option Nat := none
deriving Repr

def openBrace : String := String.singleton '{'

def closeBrace : String := String.singleton '}'

@[simp]
theorem toList_openBrace : openBrace.toList = ['{'] := by
  rfl

@[simp]
theorem toList_closeBrace : closeBrace.toList = ['}'] := by
  rfl

@[simp]
theorem openBrace_ne_empty : openBrace ≠ "" := by
  decide

@[simp]
theorem closeBrace_ne_empty : closeBrace ≠ "" := by
  decide

namespace Buffer

def margin (indent : Indent) (levels : Nat) : String :=
  String.join (List.replicate levels indent.unit)

/--
Append text. An empty text leaves the indentation of the line pending.
-/
def append (buffer : Buffer) (text : String) : Buffer :=
  if text.isEmpty then
    buffer
  else
    match buffer.pending with
    | none => { buffer with text := buffer.text ++ text }
    | some levels =>
      { buffer with text := buffer.text ++ margin buffer.indent levels ++ text, pending := none }

def newLine (buffer : Buffer) : Buffer :=
  { buffer with text := buffer.text ++ "\n", pending := some buffer.depth }

/--
Drop all text. Meant for depth 0, between independent uses of the buffer.
-/
def clear (buffer : Buffer) : Buffer :=
  { buffer with text := "", pending := none }

def enter (buffer : Buffer) : Scope → Buffer
  | .indent true => { buffer with depth := buffer.depth + 1 }
  | .indent false => buffer
  | .block =>
    let opened := buffer.newLine.append openBrace
    { opened with depth := opened.depth + 1 }

def leave (buffer : Buffer) : Scope → Buffer
  | .indent true => { buffer with depth := buffer.depth - 1 }
  | .indent false => buffer
  | .block => ({ buffer with depth := buffer.depth - 1 } : Buffer).newLine.append closeBrace

end Buffer

end EntityViews
