import Mathlib.Tactic.ByContra
import Mathlib.Tactic.MkIffOfInductiveProp
import EntityViews.Proofs.Decl.Unwritten

/-!
This module contains what the check of a declaration finds. Each node has its own faults, which have
nothing to do with those of its parts. The check fails with a fault of one of the nodes that are
visited and passes if none of them has any.
-/

namespace EntityViews

namespace CallableHead

structure Permits (head : CallableHead) (parameters : List Node)
    (thisArguments baseArguments : Option (List Node)) : Prop where
  initializer : thisArguments.isSome ∨ baseArguments.isSome →
    head.kind = .constructor ∧ head.isStatic = false
  single : ¬ (thisArguments.isSome ∧ baseArguments.isSome)
  staticConstructor : head.kind = .constructor → head.isStatic → parameters = []
  destructor : head.kind = .destructor → head.isStatic = false ∧ parameters = []

def title (head : CallableHead) : String :=
  match head.kind with
  | .constructor => if head.isStatic then "static constructor" else head.kind.noun
  | _ => head.kind.noun

@[mk_iff]
inductive Forbids (head : CallableHead) (name : Node) (parameters : List Node)
    (thisArguments baseArguments : Option (List Node)) : DeclError → Prop where
  | initializer (hinitializer : thisArguments.isSome ∨ baseArguments.isSome)
      (hhead : head.kind = .constructor → head.isStatic) :
      Forbids head name parameters thisArguments baseArguments
        (.unexpectedInitializer name.toText head.title)
  | twoInitializers (hthis : thisArguments.isSome) (hbase : baseArguments.isSome)
      (hkind : head.kind = .constructor) (hstatic : head.isStatic = false) :
      Forbids head name parameters thisArguments baseArguments (.twoInitializers name.toText)
  | staticConstructor (hkind : head.kind = .constructor) (hstatic : head.isStatic)
      (hparameters : parameters ≠ []) :
      Forbids head name parameters thisArguments baseArguments
        (.staticConstructorParameters name.toText)
  | destructor (hkind : head.kind = .destructor) (h : head.isStatic ∨ parameters ≠ []) :
      Forbids head name parameters thisArguments baseArguments
        (.destructorParameters name.toText)

variable {head : CallableHead} {parameters : List Node}
  {thisArguments baseArguments : Option (List Node)}

theorem permits_iff_forall_not_forbids {name : Node} :
    head.Permits parameters thisArguments baseArguments
      ↔
    ∀ error, ¬ head.Forbids name parameters thisArguments baseArguments error := by
  constructor
  . intro h error hforbids
    cases hforbids with
    | initializer hinitializer hhead =>
      have ⟨hkind, hstatic⟩ := h.initializer hinitializer
      rw [hhead hkind] at hstatic
      cases hstatic
    | twoInitializers hthis hbase => exact h.single ⟨hthis, hbase⟩
    | staticConstructor hkind hstatic hparameters =>
      exact hparameters (h.staticConstructor hkind hstatic)
    | destructor hkind hhead =>
      have ⟨hstatic, hparameters⟩ := h.destructor hkind
      cases hhead with
      | inl hhead => rw [hstatic] at hhead; cases hhead
      | inr hhead => exact hhead hparameters
  . intro h
    have hinitializer (hsome : thisArguments.isSome ∨ baseArguments.isSome) :
        head.kind = .constructor ∧ head.isStatic = false := by
      by_contra hhead
      apply h _ (.initializer hsome _)
      simpa using hhead
    refine ⟨hinitializer, ?_, ?_, ?_⟩
    . rintro ⟨hthis, hbase⟩
      have ⟨hkind, hstatic⟩ := hinitializer (.inl hthis)
      exact h _ (.twoInitializers hthis hbase hkind hstatic)
    . intro hkind hstatic
      by_contra hparameters
      exact h _ (.staticConstructor hkind hstatic hparameters)
    . intro hkind
      by_contra hhead
      apply h _ (.destructor hkind _)
      rwa [not_and_or, Bool.not_eq_false] at hhead

theorem Permits.eq_none (h : head.Permits parameters thisArguments baseArguments)
    (hhead : head.kind = .constructor → head.isStatic) :
    thisArguments = none ∧ baseArguments = none := by
  rw [← Option.not_isSome_iff_eq_none, ← Option.not_isSome_iff_eq_none, ← not_or]
  intro hinitializer
  have ⟨hkind, hstatic⟩ := h.initializer hinitializer
  rw [hhead hkind] at hstatic
  cases hstatic

end CallableHead

namespace Node

def labels : Node → List (String × Node)
  | .generic name _ => [("generic type", name)]
  | .typeDecl head name _ _ => [(head.kind.keyword, name)]
  | .field _ type name => [("field type", type), ("field", name)]
  | .property _ type name _ => [("property type", type), ("property", name)]
  | .callable head returns name _ _ _ _ =>
    match head.kind with
    | .method => [(head.kind.noun, name), ("return type", returns)]
    | _ => [(head.kind.noun, name)]
  | _ => []

def HasShape : Node → Prop
  | .generic _ arguments => arguments ≠ []
  | .property _ _ _ accessors => accessors ≠ []
  | .callable head _ _ parameters thisArguments baseArguments _ =>
    head.Permits parameters thisArguments baseArguments
  | _ => True

structure IsWellFormed (node : Node) : Prop where
  labels : ∀ label ∈ node.labels, label.2.isInvisible = false
  shape : node.HasShape

def HasShapeFault : Node → DeclError → Prop
  | .generic name arguments, error => arguments = [] ∧ error = .noTypeArguments name.toText
  | .property _ _ name accessors, error => accessors = [] ∧ error = .noAccessors name.toText
  | .callable head _ name parameters thisArguments baseArguments _, error =>
    head.Forbids name parameters thisArguments baseArguments error
  | _, _ => False

def HasFault (node : Node) (error : DeclError) : Prop :=
  (∃ label ∈ node.labels, label.2.isInvisible ∧ error = .blankName label.1)
    ∨ node.HasShapeFault error

theorem hasShape_iff_forall_not_hasShapeFault (node : Node) :
    node.HasShape ↔ ∀ error, ¬ node.HasShapeFault error := by
  cases node with
  | generic name arguments => simp [HasShape, HasShapeFault]
  | property head type name accessors => simp [HasShape, HasShapeFault]
  | callable head returns name parameters thisArguments baseArguments body =>
    exact CallableHead.permits_iff_forall_not_forbids
  | _ => simp [HasShape, HasShapeFault]

theorem isWellFormed_iff_forall_not_hasFault (node : Node) :
    node.IsWellFormed ↔ ∀ error, ¬ node.HasFault error := by
  constructor
  . rintro ⟨hlabels, hshape⟩ error (⟨label, hlabel, hinvisible, _⟩ | hfault)
    . rw [hlabels label hlabel] at hinvisible
      cases hinvisible
    . exact node.hasShape_iff_forall_not_hasShapeFault.mp hshape error hfault
  . intro h
    constructor
    . intro label hlabel
      rw [← Bool.not_eq_true]
      intro hinvisible
      exact h _ (.inl ⟨label, hlabel, hinvisible, rfl⟩)
    . rw [hasShape_iff_forall_not_hasShapeFault]
      exact fun error hfault => h error (.inr hfault)

def Detects (result : Except DeclError Unit) (faults : DeclError → Prop) : Prop :=
  match result with
  | .ok () => ∀ error, ¬ faults error
  | .error error => faults error

section

variable {first second : Except DeclError Unit} {faults later : DeclError → Prop}

theorem Detects.bind (hfirst : Detects first faults)
    (hsecond : (∀ error, ¬ faults error) → Detects second later) :
    Detects (first >>= fun _ => second) (fun error => faults error ∨ later error) := by
  cases first with
  | error error => exact .inl hfirst
  | ok _ =>
    change Detects second _
    have h := hsecond hfirst
    cases second with
    | error error => exact .inr h
    | ok _ => exact fun error herror => herror.elim (hfirst error) (h error)

theorem Detects.congr (h : Detects first faults) (heq : ∀ error, faults error ↔ later error) :
    Detects first later := by
  rwa [funext fun error => propext (heq error)] at h

theorem detects_ok : Detects (.ok ()) (fun _ => False) := by
  exact fun _ h => h

theorem detects_rejectIf (condition : Bool) (error : DeclError) :
    Detects (rejectIf condition error) (fun found => condition ∧ found = error) := by
  cases condition with
  | true => exact ⟨rfl, rfl⟩
  | false => exact fun _ h => Bool.false_ne_true h.1

theorem detects_rejectBlank (kind : String) (node : Node) :
    Detects (rejectBlank kind node) (fun error => node.isInvisible ∧ error = .blankName kind) := by
  exact detects_rejectIf _ _

end

theorem detects_checkHead (head : CallableHead) (name : Node) (parameters : List Node)
    (thisArguments baseArguments : Option (List Node)) :
    Detects (checkHead head name (!parameters.isEmpty) thisArguments.isSome baseArguments.isSome)
      (head.Forbids name parameters thisArguments baseArguments) := by
  rcases head with ⟨kind, access, isStatic, wrap⟩
  unfold checkHead
  cases kind with
  | method =>
    refine (detects_rejectIf _ _).congr fun error => ?_
    simp [CallableHead.forbids_iff, CallableHead.title]
  | constructor =>
    cases isStatic with
    | true =>
      refine ((detects_rejectIf _ _).bind fun _ => detects_rejectIf _ _).congr fun error => ?_
      simp [CallableHead.forbids_iff, CallableHead.title]
      grind
    | false =>
      refine (detects_rejectIf _ _).congr fun error => ?_
      simp [CallableHead.forbids_iff, CallableHead.title]
      grind
  | destructor =>
    refine ((detects_rejectIf _ _).bind fun _ => detects_rejectIf _ _).congr fun error => ?_
    simp [CallableHead.forbids_iff, CallableHead.title]
    grind

def AnyHasFault (nodes : List Node) (error : DeclError) : Prop :=
  ∃ node ∈ nodes, node.HasFault error

section

variable {error : DeclError}

@[simp]
theorem anyHasFault_nil : AnyHasFault [] error ↔ False := by
  simp [AnyHasFault]

@[simp]
theorem anyHasFault_cons {node : Node} {nodes : List Node} :
    AnyHasFault (node :: nodes) error ↔ node.HasFault error ∨ AnyHasFault nodes error := by
  simp [AnyHasFault]

@[simp]
theorem anyHasFault_append {first second : List Node} :
    AnyHasFault (first ++ second) error ↔ AnyHasFault first error ∨ AnyHasFault second error := by
  simp [AnyHasFault, or_and_right, exists_or]

end

def DetectsAll (node : Node) : Prop :=
  Detects node.check (AnyHasFault node.visited)

theorem detects_checkAll {nodes : List Node} (h : ∀ node ∈ nodes, node.DetectsAll) :
    Detects (checkAll nodes) (AnyHasFault (nodes.flatMap visited)) := by
  induction nodes with
  | nil => exact detects_ok.congr (by simp)
  | cons node nodes ih =>
    rw [List.forall_mem_cons] at h
    unfold checkAll
    exact (h.1.bind fun _ => ih h.2).congr (by simp)

theorem detects_checkForwarded {forwarded : Option (List Node)}
    (h : ∀ arguments ∈ forwarded, ∀ node ∈ arguments, node.DetectsAll) :
    Detects (checkForwarded forwarded) (AnyHasFault ((forwarded.getD []).flatMap visited)) := by
  cases forwarded with
  | none => exact detects_ok.congr (by simp)
  | some arguments => exact detects_checkAll (h arguments rfl)

section

variable {head : CallableHead} {returns name : Node} {parameters body : List Node}
  {thisArguments baseArguments : Option (List Node)}

def checkReturns (head : CallableHead) (returns : Node) : Except DeclError Unit :=
  match head.kind with
  | .method => do
    rejectBlank "return type" returns
    returns.check
  | _ => .ok ()

def visitedReturns (head : CallableHead) (returns : Node) : List Node :=
  match head.kind with
  | .method => returns.visited
  | _ => []

def visitedArguments (head : CallableHead) (parameters : List Node)
    (thisArguments baseArguments : Option (List Node)) : List Node :=
  match head.kind with
  | .method => parameters.flatMap visited
  | .constructor =>
    if head.isStatic then
      []
    else
      parameters.flatMap visited ++ (thisArguments.getD []).flatMap visited
        ++ (baseArguments.getD []).flatMap visited
  | .destructor => []

theorem check_callable :
    (callable head returns name parameters thisArguments baseArguments body).check
      =
    (do
      (do
        rejectBlank head.kind.noun name
        name.check
        checkReturns head returns
        checkHead head name (!parameters.isEmpty) thisArguments.isSome baseArguments.isSome)
      checkAll parameters
      checkForwarded thisArguments
      checkForwarded baseArguments
      checkAll body) := by
  rw [check]
  unfold checkReturns
  simp only [bind_assoc]
  cases head.kind with
  | method => simp
  | constructor => rfl
  | destructor => rfl

theorem anyHasFault_visited_callable {error : DeclError} :
    AnyHasFault
        (callable head returns name parameters thisArguments baseArguments body).visited error
      ↔
    (callable head returns name parameters thisArguments baseArguments body).HasFault error
      ∨ AnyHasFault name.visited error
      ∨ AnyHasFault (visitedReturns head returns) error
      ∨ AnyHasFault (visitedArguments head parameters thisArguments baseArguments) error
      ∨ AnyHasFault (body.flatMap visited) error := by
  cases hkind : head.kind with
  | method =>
    simp [visited, visitedReturns, visitedArguments, hkind]
    grind
  | constructor =>
    cases hstatic : head.isStatic with
    | true => simp [visited, visitedReturns, visitedArguments, hkind, hstatic]
    | false => simp [visited, visitedReturns, visitedArguments, hkind, hstatic, or_assoc]
  | destructor => simp [visited, visitedReturns, visitedArguments, hkind]

theorem detects_checkReturns (head : CallableHead) (h : returns.DetectsAll) :
    Detects (checkReturns head returns) (fun error =>
      (head.kind = .method ∧ returns.isInvisible ∧ error = .blankName "return type")
        ∨ AnyHasFault (visitedReturns head returns) error) := by
  unfold checkReturns visitedReturns
  cases head.kind with
  | method =>
    refine ((detects_rejectBlank _ returns).bind fun _ => h).congr fun error => ?_
    simp
  | constructor => exact detects_ok.congr (by simp)
  | destructor => exact detects_ok.congr (by simp)

/--
The check looks at all arguments and not only at those that are written, but once the head permits
them there are no others.
-/
theorem detects_arguments (h : head.Permits parameters thisArguments baseArguments)
    (hparameters : ∀ node ∈ parameters, node.DetectsAll)
    (hthis : ∀ arguments ∈ thisArguments, ∀ node ∈ arguments, node.DetectsAll)
    (hbase : ∀ arguments ∈ baseArguments, ∀ node ∈ arguments, node.DetectsAll)
    (hbody : ∀ node ∈ body, node.DetectsAll) :
    Detects
      (do
        checkAll parameters
        checkForwarded thisArguments
        checkForwarded baseArguments
        checkAll body)
      (fun error => AnyHasFault (visitedArguments head parameters thisArguments baseArguments) error
        ∨ AnyHasFault (body.flatMap visited) error) := by
  refine ((detects_checkAll hparameters).bind fun _ =>
    (detects_checkForwarded hthis).bind fun _ =>
    (detects_checkForwarded hbase).bind fun _ => detects_checkAll hbody).congr fun error => ?_
  cases hkind : head.kind with
  | method =>
    have ⟨hthis, hbase⟩ := h.eq_none (by simp [hkind])
    simp [visitedArguments, hkind, hthis, hbase]
  | constructor =>
    cases hstatic : head.isStatic with
    | true =>
      have ⟨hthis, hbase⟩ := h.eq_none (by simp [hstatic])
      simp [visitedArguments, hkind, hstatic, hthis, hbase, h.staticConstructor hkind hstatic]
    | false => simp [visitedArguments, hkind, hstatic, or_assoc]
  | destructor =>
    have ⟨hthis, hbase⟩ := h.eq_none (by simp [hkind])
    simp [visitedArguments, hkind, hthis, hbase, (h.destructor hkind).2]

theorem detectsAll_callable (hreturns : returns.DetectsAll) (hname : name.DetectsAll)
    (hparameters : ∀ node ∈ parameters, node.DetectsAll)
    (hthis : ∀ arguments ∈ thisArguments, ∀ node ∈ arguments, node.DetectsAll)
    (hbase : ∀ arguments ∈ baseArguments, ∀ node ∈ arguments, node.DetectsAll)
    (hbody : ∀ node ∈ body, node.DetectsAll) :
    (callable head returns name parameters thisArguments baseArguments body).DetectsAll := by
  unfold DetectsAll
  rw [check_callable]
  have hfront := (detects_rejectBlank head.kind.noun name).bind fun _ =>
    hname.bind fun _ => (detects_checkReturns head hreturns).bind fun _ =>
    detects_checkHead head name parameters thisArguments baseArguments
  -- the arguments are only checked once the head has passed, and so it permits them
  have hback (hnone : ∀ error, ¬ head.Forbids name parameters thisArguments baseArguments error) :=
    detects_arguments (CallableHead.permits_iff_forall_not_forbids.mpr hnone)
      hparameters hthis hbase hbody
  refine (hfront.bind fun hnone => hback fun error hforbids => ?_).congr fun error => ?_
  . exact hnone error (.inr (.inr (.inr hforbids)))
  . rw [anyHasFault_visited_callable]
    cases hkind : head.kind with
    | method =>
      simp [HasFault, labels, HasShapeFault, hkind]
      grind
    | constructor =>
      simp [HasFault, labels, HasShapeFault, hkind]
      grind
    | destructor =>
      simp [HasFault, labels, HasShapeFault, hkind]
      grind

end

section

attribute [local simp] visited HasFault labels HasShapeFault

theorem detectsAll (node : Node) : node.DetectsAll := by
  induction node with
  | text content => exact detects_ok.congr (by simp)
  | lineBreak => exact detects_ok.congr (by simp)
  | list layout elements ih => exact (detects_checkAll ih).congr (by simp)
  | block header body ihheader ihbody =>
    exact (ihheader.bind fun _ => detects_checkAll ihbody).congr (by simp)
  | generic name arguments ihname iharguments =>
    unfold DetectsAll check
    refine ((detects_rejectBlank _ name).bind fun _ => ihname.bind fun _ =>
      (detects_rejectIf arguments.isEmpty _).bind fun _ =>
      detects_checkAll iharguments).congr fun error => ?_
    simp
    grind
  | typeDecl head name bases members ihname ihbases ihmembers =>
    unfold DetectsAll check
    refine ((detects_rejectBlank _ name).bind fun _ => ihname.bind fun _ =>
      (detects_checkAll ihbases).bind fun _ => detects_checkAll ihmembers).congr fun error => ?_
    simp
  | field head type name ihtype ihname =>
    unfold DetectsAll check
    refine ((detects_rejectBlank _ type).bind fun _ => ihtype.bind fun _ =>
      (detects_rejectBlank _ name).bind fun _ => ihname).congr fun error => ?_
    simp
    grind
  | property head type name accessors ihtype ihname ihaccessors =>
    unfold DetectsAll check
    refine ((detects_rejectBlank _ type).bind fun _ => ihtype.bind fun _ =>
      (detects_rejectBlank _ name).bind fun _ => ihname.bind fun _ =>
      (detects_rejectIf accessors.isEmpty _).bind fun _ =>
      detects_checkAll ihaccessors).congr fun error => ?_
    simp
    grind
  | accessor kind body ihbody => exact (detects_checkAll ihbody).congr (by simp)
  | callable head returns name parameters thisArguments baseArguments body ihreturns ihname
      ihparameters ihthis ihbase ihbody =>
    exact detectsAll_callable ihreturns ihname ihparameters ihthis ihbase ihbody
  | callback script => exact detects_ok.congr (by simp)
  | wrapped before core after ihbefore ihcore ihafter =>
    unfold DetectsAll check
    refine (ihbefore.bind fun _ => ihafter.bind fun _ => ihcore).congr fun error => ?_
    simp
    grind

end

theorem check_eq_ok_iff_forall_isWellFormed (node : Node) :
    node.check = .ok () ↔ ∀ part ∈ node.visited, part.IsWellFormed := by
  have h := node.detectsAll
  unfold DetectsAll at h
  simp only [isWellFormed_iff_forall_not_hasFault]
  constructor
  . intro hcheck part hpart error hfault
    rw [hcheck] at h
    exact h error ⟨part, hpart, hfault⟩
  . intro hnone
    cases hcheck : node.check with
    | ok _ => rfl
    | error error =>
      rw [hcheck] at h
      have ⟨part, hpart, hfault⟩ := h
      exact (hnone part hpart error hfault).elim

theorem exists_hasFault_of_check_eq_error {node : Node} {error : DeclError}
    (hcheck : node.check = .error error) : ∃ part ∈ node.visited, part.HasFault error := by
  have h := node.detectsAll
  unfold DetectsAll at h
  rw [hcheck] at h
  exact h

/--
A tree passes its check if and only if all of its nodes that are visited are well-formed. The types
that are not written have no influence.
-/
theorem check_detects_visited_faults (node : Node) :
    (node.check = .ok () ↔ ∀ part ∈ node.visited, part.IsWellFormed)
      ∧ (∀ error, node.check = .error error → ∃ part ∈ node.visited, part.HasFault error)
      ∧ (∀ part ∈ node.visited, part.script <:+: node.script)
      ∧ node.dropReturns.script = node.script
      ∧ node.dropReturns.check = node.check := by
  refine ⟨node.check_eq_ok_iff_forall_isWellFormed, ?_, node.contains_visited,
    node.script_dropReturns, node.check_dropReturns⟩
  exact fun error hcheck => exists_hasFault_of_check_eq_error hcheck

theorem check_detects_visited_faults_property :
    let property : Node := .property {} (.text "int") (.text "Count") []
    let tree := namespaceBlock "Game"
      [.typeDecl { kind := .classType } (.text "Unit") [] [property]]
    tree.check = .error (.noAccessors "Count")
      ∧ ¬ property.IsWellFormed
      ∧ ∃ part ∈ tree.visited, part.HasFault (.noAccessors "Count") := by
  intro property tree
  have ⟨_, hfault, _⟩ := check_detects_visited_faults tree
  have hcheck : tree.check = .error (.noAccessors "Count") := by
    rfl
  refine ⟨hcheck, ?_, hfault _ hcheck⟩
  intro h
  exact h.shape rfl

end Node

end EntityViews
