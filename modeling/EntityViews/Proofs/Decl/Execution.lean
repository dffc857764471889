import Mathlib.Algebra.Group.Nat.Defs
import Mathlib.Logic.Function.Basic
import EntityViews.Proofs.Decl.Reading

/-!
This module contains the meaning of statements. Variables are fields of the object that a method is
called on or locals, numbers have 32 bits, and a statement that can not be carried out or that does not
come to an end has no outcome.
-/

namespace EntityViews

structure Prepared (Stored : Type) where
  collections : List Stored
  count : Stored → Nat
  -- the length of a list is a number as well
  length_lt : collections.length < 2 ^ 31
  count_lt : ∀ stored ∈ collections, count stored < 2 ^ 31

def Prepared.counts {Stored : Type} (prepared : Prepared Stored) : List Nat :=
  prepared.collections.map prepared.count

inductive Term.Value (Stored : Type) where
  | unset
  | int (value : Int32)
  | bool (value : Bool)
  | entities
  | list (items : List Stored)
  | stored (collection : Stored)
  | components (collection : Stored) (type : String)
deriving DecidableEq, Repr

abbrev Object (Stored : Type) := String → Option (Term.Value Stored)

structure Frame (Stored : Type) where
  object : Object Stored
  -- the ones of the innermost block are in front
  locals : List (String × Term.Value Stored) := []

namespace Frame

variable {Stored : Type}

def read (frame : Frame Stored) (name : String) : Option (Term.Value Stored) :=
  (frame.locals.lookup name).or (frame.object name)

def declare (frame : Frame Stored) (name : String) (value : Term.Value Stored) :
    Option (Frame Stored) :=
  if (frame.locals.lookup name).isSome then
    none
  else
    some { frame with locals := (name, value) :: frame.locals }

def assign (frame : Frame Stored) (name : String) (value : Term.Value Stored) :
    Option (Frame Stored) :=
  if (frame.locals.lookup name).isSome then
    some { frame with
      locals := frame.locals.map fun entry => if entry.1 = name then (name, value) else entry }
  else if (frame.object name).isSome then
    some { frame with object := Function.update frame.object name (some value) }
  else
    none

def leave (frame outer : Frame Stored) : Frame Stored :=
  { frame with locals := frame.locals.drop (frame.locals.length - outer.locals.length) }

variable {object : Object Stored} {locals : List (String × Term.Value Stored)} {name : String}

theorem lookup_eq_none (h : name ∉ locals.map (·.1)) : locals.lookup name = none := by
  rw [List.lookup_eq_none_iff]
  intro entry hentry
  simp only [bne_iff_ne]
  rintro rfl
  exact h (List.mem_map_of_mem hentry)

theorem read_of_notMem (h : name ∉ locals.map (·.1)) :
    read ⟨object, locals⟩ name = object name := by
  unfold read
  rw [lookup_eq_none h]
  rfl

theorem assign_of_notMem (h : name ∉ locals.map (·.1)) (hdeclared : (object name).isSome)
    (value : Term.Value Stored) :
    assign ⟨object, locals⟩ name value
      =
    some ⟨Function.update object name (some value), locals⟩ := by
  unfold assign
  rw [lookup_eq_none h, if_neg (by simp), if_pos hdeclared]

end Frame

section

variable {Stored : Type} (prepared : Prepared Stored)

def Term.eval : Term → Frame Stored → Option (Term.Value Stored × Frame Stored)
  | .var name, frame => do
    let value ← frame.read name
    return (value, frame)
  | .int value, frame => return (.int (.ofInt value), frame)
  | .bool value, frame => return (.bool value, frame)
  | .increment name, frame => do
    let .int value ← frame.read name | none
    let frame ← frame.assign name (.int (value + 1))
    return (.int (value + 1), frame)
  | .less left right, frame => do
    let (.int left, frame) ← left.eval frame | none
    let (.int right, frame) ← right.eval frame | none
    return (.bool (left < right), frame)
  | .count collection, frame => do
    let (value, frame) ← collection.eval frame
    match value with
    | .list items => return (.int (.ofNat items.length), frame)
    | .stored collection => return (.int (.ofNat (prepared.count collection)), frame)
    | _ => none
  | .item collection index, frame => do
    let (.list items, frame) ← collection.eval frame | none
    let (.int index, frame) ← index.eval frame | none
    let stored ← items[← index.toInt.toNat?]?
    return (.stored stored, frame)
  | .prepared entities, frame => do
    let (.entities, frame) ← entities.eval frame | none
    return (.list prepared.collections, frame)
  | .components collection type, frame => do
    let (.stored collection, frame) ← collection.eval frame | none
    return (.components collection type, frame)

namespace Statement

variable (methods : String → Option (List Statement))

/--
Statements are carried out one after the other until one of them returns, which ends all of them. Related
are the frame before them, the value that they return, if they do, and the frame after them.
-/
inductive Executes :
    List Statement → Frame Stored → Option (Term.Value Stored) → Frame Stored → Prop where
  | nil {frame : Frame Stored} : Executes [] frame none frame
  | declare {type name : String} {term : Term} {statements : List Statement}
      {frame next inner after : Frame Stored} {value : Term.Value Stored}
      {returned : Option (Term.Value Stored)} (hterm : term.eval prepared frame = some (value, next))
      (hdeclare : next.declare name value = some inner)
      (hrest : Executes statements inner returned after) :
      Executes (.declare type name term :: statements) frame returned after
  | assign {name : String} {term : Term} {statements : List Statement}
      {frame next inner after : Frame Stored} {value : Term.Value Stored}
      {returned : Option (Term.Value Stored)} (hterm : term.eval prepared frame = some (value, next))
      (hassign : next.assign name value = some inner)
      (hrest : Executes statements inner returned after) :
      Executes (.assign name term :: statements) frame returned after
  | eval {term : Term} {statements : List Statement} {frame next after : Frame Stored}
      {value : Term.Value Stored} {returned : Option (Term.Value Stored)}
      (hterm : term.eval prepared frame = some (value, next))
      (hrest : Executes statements next returned after) :
      Executes (.eval term :: statements) frame returned after
  | call {method : String} {body statements : List Statement} {frame inner after : Frame Stored}
      {answer returned : Option (Term.Value Stored)} (hmethod : methods method = some body)
      (hbody : Executes body { frame with locals := [] } answer inner)
      (hrest : Executes statements { inner with locals := frame.locals } returned after) :
      Executes (.call method :: statements) frame returned after
  | return {term : Term} {statements : List Statement} {frame after : Frame Stored}
      {value : Term.Value Stored} (hterm : term.eval prepared frame = some (value, after)) :
      Executes (.return term :: statements) frame (some value) after
  | ifFalse {condition : Term} {body statements : List Statement} {frame next after : Frame Stored}
      {returned : Option (Term.Value Stored)}
      (hcondition : condition.eval prepared frame = some (.bool false, next))
      (hrest : Executes statements next returned after) :
      Executes (.ifThen condition body :: statements) frame returned after
  | ifPassed {condition : Term} {body statements : List Statement}
      {frame next inner after : Frame Stored} {returned : Option (Term.Value Stored)}
      (hcondition : condition.eval prepared frame = some (.bool true, next))
      (hbody : Executes body next none inner)
      (hrest : Executes statements (inner.leave next) returned after) :
      Executes (.ifThen condition body :: statements) frame returned after
  | ifReturned {condition : Term} {body statements : List Statement} {frame next inner : Frame Stored}
      {value : Term.Value Stored}
      (hcondition : condition.eval prepared frame = some (.bool true, next))
      (hbody : Executes body next (some value) inner) :
      Executes (.ifThen condition body :: statements) frame (some value) (inner.leave next)
  | whileFalse {condition : Term} {body statements : List Statement}
      {frame next after : Frame Stored} {returned : Option (Term.Value Stored)}
      (hcondition : condition.eval prepared frame = some (.bool false, next))
      (hrest : Executes statements next returned after) :
      Executes (.while condition body :: statements) frame returned after
  | whilePassed {condition : Term} {body statements : List Statement}
      {frame next inner after : Frame Stored} {returned : Option (Term.Value Stored)}
      (hcondition : condition.eval prepared frame = some (.bool true, next))
      (hbody : Executes body next none inner)
      (hagain : Executes (.while condition body :: statements) (inner.leave next) returned after) :
      Executes (.while condition body :: statements) frame returned after
  | whileReturned {condition : Term} {body statements : List Statement}
      {frame next inner : Frame Stored} {value : Term.Value Stored}
      (hcondition : condition.eval prepared frame = some (.bool true, next))
      (hbody : Executes body next (some value) inner) :
      Executes (.while condition body :: statements) frame (some value) (inner.leave next)

variable {prepared} {methods}

theorem Executes.unique {statements : List Statement} {frame after other : Frame Stored}
    {returned answer : Option (Term.Value Stored)}
    (h : Executes prepared methods statements frame returned after)
    (hother : Executes prepared methods statements frame answer other) :
    answer = returned ∧ other = after := by
  induction h generalizing answer other with
  | nil =>
    cases hother
    exact ⟨rfl, rfl⟩
  | declare hterm hframe _ ih | assign hterm hframe _ ih =>
    cases hother
    grind
  | eval hterm _ ih =>
    cases hother
    grind
  | call hmethod _ _ ihbody ihrest =>
    cases hother
    grind
  | «return» hterm =>
    cases hother
    grind
  -- both executions take the same branch, since they evaluate the condition in the same frame
  | ifFalse hcondition _ ih | whileFalse hcondition _ ih => cases hother <;> grind
  | ifPassed hcondition _ _ ihbody ihrest | whilePassed hcondition _ _ ihbody ihrest =>
    cases hother <;> grind
  | ifReturned hcondition _ ih | whileReturned hcondition _ ih => cases hother <;> grind

end Statement

end

structure Procedure where
  kind : CallableKind
  name : String
  parameters : List Variable
  body : List Statement

structure Code where
  fields : List Variable
  procedures : List Procedure

namespace Code

/--
The node declares a type whose fields and routines are written as those of the code.
-/
def IsCodeOf (code : Code) (node : Node) : Prop :=
  node.fields = code.fields
    ∧ node.routines = code.procedures.map fun procedure =>
        ⟨procedure.kind, procedure.name, procedure.parameters, [],
          Statement.nodes procedure.body⟩

def method? (code : Code) (name : String) : Option (List Statement) :=
  (code.procedures.find? fun procedure => procedure.kind = .method ∧ procedure.name = name).map
    (·.body)

open Statement

variable {Stored : Type}

def blank (code : Code) : Object Stored :=
  fun name => (code.fields.find? (·.name = name)).map fun field =>
    if field.type = "int" then .int 0 else .unset

def Constructs (code : Code) (prepared : Prepared Stored) (object : Object Stored) : Prop :=
  ∃ constructor parameter returned locals,
    code.procedures.find? (·.kind = .constructor) = some constructor
      ∧ constructor.parameters = [parameter]
      ∧ Executes prepared code.method? constructor.body
          ⟨code.blank, [(parameter.name, .entities)]⟩ returned ⟨object, locals⟩

def Invokes (code : Code) (prepared : Prepared Stored) (name : String) (object : Object Stored)
    (returned : Option (Term.Value Stored)) (after : Object Stored) : Prop :=
  ∃ body locals, code.method? name = some body
    ∧ Executes prepared code.method? body ⟨object, []⟩ returned ⟨after, locals⟩

inductive InvokesAll (code : Code) (prepared : Prepared Stored) :
    List String → Object Stored → Object Stored → Prop where
  | nil {object : Object Stored} : InvokesAll code prepared [] object object
  | cons {name : String} {names : List String} {object between after : Object Stored}
      {returned : Option (Term.Value Stored)}
      (h : code.Invokes prepared name object returned between)
      (hrest : InvokesAll code prepared names between after) :
      InvokesAll code prepared (name :: names) object after

/--
The object is what a new one becomes when the methods are called on it.
-/
def Reaches (code : Code) (prepared : Prepared Stored) (names : List String)
    (object : Object Stored) : Prop :=
  ∃ first, code.Constructs prepared first ∧ code.InvokesAll prepared names first object

variable {code : Code} {prepared : Prepared Stored} {object between after other : Object Stored}
  {returned answer : Option (Term.Value Stored)} {name : String} {names : List String}

theorem Constructs.unique (h : code.Constructs prepared object)
    (hother : code.Constructs prepared other) : other = object := by
  have ⟨constructor, parameter, _, _, hconstructor, hparameter, hbody⟩ := h
  have ⟨_, _, _, _, hconstructor', hparameter', hbody'⟩ := hother
  cases hconstructor.symm.trans hconstructor'
  cases hparameter.symm.trans hparameter'
  exact congrArg Frame.object (hbody.unique hbody').2

theorem Invokes.unique (h : code.Invokes prepared name object returned after)
    (hother : code.Invokes prepared name object answer other) :
    answer = returned ∧ other = after := by
  have ⟨body, _, hmethod, hbody⟩ := h
  have ⟨_, _, hmethod', hbody'⟩ := hother
  cases hmethod.symm.trans hmethod'
  have ⟨hanswer, hframe⟩ := hbody.unique hbody'
  exact ⟨hanswer, congrArg Frame.object hframe⟩

theorem InvokesAll.concat (h : code.InvokesAll prepared names object between)
    (hinvoke : code.Invokes prepared name between returned after) :
    code.InvokesAll prepared (names ++ [name]) object after := by
  induction h with
  | nil => exact .cons hinvoke .nil
  | cons hfirst _ ih => exact .cons hfirst (ih hinvoke)

theorem InvokesAll.unique (h : code.InvokesAll prepared names object after)
    (hother : code.InvokesAll prepared names object other) : other = after := by
  induction h with
  | nil =>
    cases hother
    rfl
  | cons hfirst _ ih =>
    cases hother with
    | cons hfirst' hrest =>
      rw [(hfirst.unique hfirst').2] at hrest
      exact ih hrest

theorem Reaches.unique (h : code.Reaches prepared names object)
    (hother : code.Reaches prepared names other) : other = object := by
  have ⟨first, hconstructs, hcalls⟩ := h
  have ⟨_, hconstructs', hcalls'⟩ := hother
  rw [hconstructs.unique hconstructs'] at hcalls'
  exact hcalls.unique hcalls'

end Code

end EntityViews
