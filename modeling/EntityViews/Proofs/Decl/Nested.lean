import EntityViews.Proofs.Decl.Visited
import EntityViews.Proofs.Source.Scope
import EntityViews.Proofs.Text.Joined

/-!
This module contains the shape of the scripts that write declarations. The script of a node closes
exactly the scopes and parentheses it opens, and besides line breaks it consists of the steps of its
parts and of texts from a fixed list.
-/

namespace EntityViews

namespace Script

variable {allowed : Step → Prop}

namespace Nested

theorem appendIf (condition : Bool) {script : Script} (h : script.Nested allowed) :
    Nested allowed (if condition then script else []) := by
  cases condition with
  | true => exact h
  | false => exact .nil

theorem keywordIf (condition : Bool) {keyword : String} (hkeyword : allowed (.append keyword))
    (hblank : allowed (.append " ")) : (Script.keywordIf condition keyword).Nested allowed := by
  exact appendIf condition (.join (.append hkeyword) (.append hblank))

theorem intercalate {separator : Script} (hseparator : separator.Nested allowed)
    {elements : List Script} (helements : ∀ element ∈ elements, element.Nested allowed) :
    Nested allowed (separator.intercalate elements) := by
  by_cases hne : elements = []
  . rw [hne]
    exact .nil
  . exact Joined.intercalate_induction hne
      (fun _ _ hfirst hsecond => .join (.join hfirst hseparator) hsecond) helements

theorem flatMap {elements : List Script} {write : Script → Script}
    (helements : ∀ element ∈ elements, (write element).Nested allowed) :
    Nested allowed (elements.flatMap write) := by
  induction elements with
  | nil => exact .nil
  | cons element elements ih =>
    rw [List.forall_mem_cons] at helements
    rw [List.flatMap_cons]
    exact .join helements.1 (ih helements.2)

variable (hbreak : allowed .newLine)
include hbreak

theorem lineBreakIf (condition : Bool) : (ofList.lineBreakIf condition).Nested allowed := by
  exact appendIf condition (.newLine hbreak)

theorem separator {layout : ListLayout}
    (hseparator : ∀ step ∈ ofList.separator layout, allowed step) :
    (ofList.separator layout).Nested allowed := by
  unfold ofList.separator at *
  split
  . exact lineBreakIf hbreak layout.eachOnNewLine
  . next delimiter hdelimiter =>
    simp only [hdelimiter] at hseparator
    split
    . next heach =>
      simp only [heach, ↓reduceIte, List.forall_mem_cons] at hseparator
      exact .join (.append hseparator.1) (.newLine hbreak)
    . next heach =>
      simp only [heach, Bool.false_eq_true, ↓reduceIte, List.forall_mem_singleton] at hseparator
      exact .append hseparator

theorem ofList {layout : ListLayout} (hseparator : ∀ step ∈ ofList.separator layout, allowed step)
    {elements : List Script} (helements : ∀ element ∈ elements, element.Nested allowed) :
    (Script.ofList layout elements).Nested allowed := by
  unfold Script.ofList
  split
  . exact .nil
  . have hbody := (lineBreakIf hbreak layout.newLineBefore).join
      (intercalate (separator hbreak hseparator) helements)
    have hlist := (hbody.scope (.indent layout.indented)).join
      (lineBreakIf hbreak layout.newLineAfter)
    simpa only [List.append_assoc] using hlist

theorem ofBody {elements : List Script} (helements : ∀ element ∈ elements, element.Nested allowed) :
    (Script.ofBody elements).Nested allowed := by
  unfold Script.ofBody
  split
  . exact nil.scope .block
  . have hseparator : ∀ step ∈ ofList.separator .lines, allowed step := by
      simpa [ofList.separator, ListLayout.lines, ofList.lineBreakIf] using hbreak
    exact ((newLine hbreak).join (ofList hbreak hseparator helements)).scope .block

end Nested

/--
Scripts that close the given number of scopes besides those that they open.
-/
def Closing (allowed : Step → Prop) : Nat → Script → Prop
  | 0, script => script.Nested allowed
  | count + 1, script =>
    ∃ body rest : Script,
      script = body ++ [.leave] ++ rest ∧ body.Nested allowed ∧ Closing allowed count rest

theorem Closing.prepend {first : Script} (hfirst : first.Nested allowed) {count : Nat}
    {second : Script} (h : Closing allowed count second) :
    Closing allowed count (first ++ second) := by
  cases count with
  | zero => exact .join hfirst h
  | succ count =>
    have ⟨body, rest, heq, hbody, hrest⟩ := h
    refine ⟨first ++ body, rest, ?_, .join hfirst hbody, hrest⟩
    rw [heq]
    simp only [List.append_assoc]

theorem closing_replicate (count : Nat) : Closing allowed count (List.replicate count .leave) := by
  induction count with
  | zero => exact .nil
  | succ count ih => exact ⟨[], List.replicate count .leave, rfl, .nil, ih⟩

theorem closing_closed {script : Script} (h : ∀ step ∈ script, allowed step) (opened : Nat) :
    Closing allowed opened (closed opened script) := by
  induction script generalizing opened with
  | nil => exact closing_replicate opened
  | cons step script ih =>
    rw [List.forall_mem_cons] at h
    replace ih := ih h.2
    cases step with
    | enter scope =>
      -- the scope ends at the first of the steps that close one scope more than the script opened
      have ⟨body, rest, heq, hbody, hrest⟩ := ih (opened + 1)
      have hclosing := hrest.prepend (hbody.scope scope)
      unfold closed
      rw [heq]
      simpa using hclosing
    | leave =>
      cases opened with
      | zero => exact ih 0
      | succ opened => exact ⟨[], closed opened script, rfl, .nil, ih opened⟩
    | append text => exact (ih opened).prepend (.append h.1)
    | newLine => exact (ih opened).prepend (.newLine h.1)
    | clear => exact (ih opened).prepend (.clear h.1)

end Script

namespace Node

open Script

/--
The texts that declarations are written with besides those that their nodes bring along, without the
parentheses around arguments.
-/
def tokens : List String :=
  Access.all.map (·.keyword)
    ++ ["static", "readonly", "unsafe", "ref", "class", "struct", "get", "set", "", " ", ", ", ",",
      ";", " : ", "<", ">", "()", "~", " : this", " : base"]

def ownSteps : Node → Script
  | .text content => [.append content]
  | .list layout _ => ofList.separator layout
  | .callback script => script
  | _ => []

def Allows (allowed : Step → Prop) (node : Node) : Prop :=
  ∀ step ∈ node.ownSteps, allowed step

theorem access_keyword_mem_tokens (access : Access) : access.keyword ∈ tokens := by
  cases access <;> decide

theorem typeKind_keyword_mem_tokens (kind : TypeKind) : kind.keyword ∈ tokens := by
  cases kind <;> decide

theorem accessorKind_keyword_mem_tokens (kind : AccessorKind) : kind.keyword ∈ tokens := by
  cases kind <;> decide

theorem forall_mem_separator_parameterLayout {allowed : Step → Prop} (hbreak : allowed .newLine)
    (htokens : ∀ token ∈ tokens, allowed (.append token)) (head : CallableHead) :
    ∀ step ∈ ofList.separator head.parameterLayout, allowed step := by
  have htrim : Text.trimEnd ", " = "," := by decide
  rcases head with ⟨kind, access, isStatic, wrapParameters⟩
  cases wrapParameters with
  | true =>
    simp only [CallableHead.parameterLayout, ListLayout.hanging, ofList.separator, ↓reduceIte,
      List.forall_mem_cons, htrim]
    exact ⟨htokens _ (by decide), hbreak, by simp⟩
  | false =>
    simp only [CallableHead.parameterLayout, ofList.separator, ↓reduceIte, Bool.false_eq_true,
      List.forall_mem_singleton]
    exact htokens _ (by decide)

theorem nested_map_script {allowed : Step → Prop} {nodes : List Node}
    (ih : ∀ node ∈ nodes,
      (∀ part ∈ node.visited, part.Allows allowed) → node.script.Nested allowed)
    (hparts : ∀ node ∈ nodes, ∀ part ∈ node.visited, part.Allows allowed) :
    ∀ element ∈ nodes.map script, Nested allowed element := by
  intro element helement
  have ⟨node, hnode, heq⟩ := List.mem_map.mp helement
  rw [← heq]
  exact ih node hnode (hparts node hnode)

section

variable {allowed : Step → Prop} (htokens : ∀ token ∈ tokens, allowed (.append token))
include htokens

theorem nested_keywordIf (condition : Bool) {keyword : String} (h : keyword ∈ tokens) :
    (keywordIf condition keyword).Nested allowed := by
  exact .keywordIf condition (htokens keyword h) (htokens " " (by decide))

theorem nested_token {token : String} (h : token ∈ tokens) : Nested allowed [.append token] :=
  .append (htokens token h)

theorem nested_access (access : Access) : (keywordIf true access.keyword).Nested allowed :=
  nested_keywordIf htokens true (access_keyword_mem_tokens access)

theorem nested_field {head : FieldHead} {type name : Node} (htype : type.script.Nested allowed)
    (hname : name.script.Nested allowed) : (field head type name).script.Nested allowed := by
  simp only [script]
  repeat' apply Nested.join
  . exact nested_access htokens head.access
  . exact nested_keywordIf htokens head.isStatic (by decide)
  . exact nested_keywordIf htokens head.isReadonly (by decide)
  . exact htype
  . exact nested_token htokens (by decide)
  . exact hname
  . exact nested_token htokens (by decide)

variable (hbreak : allowed .newLine)
include hbreak

theorem nested_arguments {elements : List Script}
    (helements : ∀ element ∈ elements, element.Nested allowed) :
    (ofList {} elements).Nested allowed := by
  apply Nested.ofList hbreak _ helements
  simpa [ofList.separator] using htokens ", " (by decide)

theorem nested_forwarded {front opening : String} (hopening : front ++ "(" = opening)
    (hfront : front ∈ tokens) {arguments : Option (List Node)}
    (ih : ∀ nodes ∈ arguments, ∀ node ∈ nodes,
      (∀ part ∈ node.visited, part.Allows allowed) → node.script.Nested allowed)
    (hparts : ∀ node ∈ arguments.getD [], ∀ part ∈ node.visited, part.Allows allowed) :
    (forwarded opening arguments).Nested allowed := by
  cases arguments with
  | none => exact .nil
  | some nodes =>
    simp only [forwarded, scripts_eq_map]
    rw [← hopening]
    exact .parentheses (htokens front hfront)
      (nested_arguments htokens hbreak (nested_map_script (ih nodes rfl) hparts))

theorem nested_parenthesized (head : CallableHead) {elements : List Script}
    (helements : ∀ element ∈ elements, element.Nested allowed) :
    Nested allowed ([.append "("] ++ ofList head.parameterLayout elements ++ [.append ")"]) := by
  have hparameters := Nested.ofList hbreak
    (forall_mem_separator_parameterLayout hbreak htokens head) helements
  have hall := hparameters.parentheses (htokens "" (by decide))
  rwa [String.empty_append] at hall

section

variable {name : Node} (hname : name.script.Nested allowed)
include hname

theorem nested_generic {arguments : List Node}
    (harguments : ∀ element ∈ arguments.map script, Nested allowed element) :
    (generic name arguments).script.Nested allowed := by
  simp only [script, scripts_eq_map]
  repeat' apply Nested.join
  . exact hname
  . exact nested_token htokens (by decide)
  . exact nested_arguments htokens hbreak harguments
  . exact nested_token htokens (by decide)

theorem nested_typeDecl {head : TypeHead} {bases members : List Node}
    (hbases : ∀ element ∈ bases.map script, Nested allowed element)
    (hmembers : ∀ element ∈ members.map script, Nested allowed element) :
    (typeDecl head name bases members).script.Nested allowed := by
  simp only [script, scripts_eq_map]
  repeat' apply Nested.join
  . exact nested_access htokens head.access
  . exact nested_keywordIf htokens head.isStatic (by decide)
  . exact nested_keywordIf htokens head.isReadonly (by decide)
  . exact nested_keywordIf htokens head.isUnsafe (by decide)
  . exact nested_keywordIf htokens true (typeKind_keyword_mem_tokens head.kind)
  . exact hname
  . split
    . exact .nil
    . exact (nested_token htokens (by decide)).join (nested_arguments htokens hbreak hbases)
  . exact .ofBody hbreak hmembers

theorem nested_property {head : PropertyHead} {type : Node} {accessors : List Node}
    (htype : type.script.Nested allowed)
    (haccessors : ∀ element ∈ accessors.map script, Nested allowed element) :
    (property head type name accessors).script.Nested allowed := by
  have hhead : Nested allowed (keywordIf true head.access.keyword
      ++ keywordIf head.isStatic "static" ++ keywordIf head.isByRef "ref"
      ++ type.script ++ [.append " "] ++ name.script) := by
    repeat' apply Nested.join
    . exact nested_access htokens head.access
    . exact nested_keywordIf htokens head.isStatic (by decide)
    . exact nested_keywordIf htokens head.isByRef (by decide)
    . exact htype
    . exact nested_token htokens (by decide)
    . exact hname
  have hbody : Nested allowed ((accessors.map script).flatMap (.newLine :: ·)) := by
    apply Nested.flatMap
    intro element helement
    exact (Nested.newLine hbreak).join (haccessors element helement)
  -- the brace of the block stands between the head and the accessors, so the sum is regrouped
  simpa only [script, scripts_eq_map, List.append_assoc] using hhead.join (hbody.scope .block)

variable {head : CallableHead} {returns : Node} {parameters body : List Node}
  {thisArguments baseArguments : Option (List Node)}
  (hbody : ∀ element ∈ body.map script, Nested allowed element)
include hbody

theorem nested_method (hkind : head.kind = .method) (hreturns : returns.script.Nested allowed)
    (hparameters : ∀ element ∈ parameters.map script, Nested allowed element) :
    (callable head returns name parameters thisArguments baseArguments body).script.Nested
      allowed := by
  simp only [script, scripts_eq_map, hkind]
  apply Nested.join
  . apply Nested.join
    . repeat' apply Nested.join
      . exact nested_access htokens head.access
      . exact nested_keywordIf htokens head.isStatic (by decide)
      . exact hreturns
      . exact nested_token htokens (by decide)
      . exact hname
    . exact nested_parenthesized htokens hbreak head hparameters
  . exact .ofBody hbreak hbody

theorem nested_staticConstructor (hkind : head.kind = .constructor) (hstatic : head.isStatic) :
    (callable head returns name parameters thisArguments baseArguments body).script.Nested
      allowed := by
  have hkeyword : (keywordIf true "static").Nested allowed :=
    nested_keywordIf htokens true (by decide)
  have hempty : Nested allowed [.append "()"] := nested_token htokens (by decide)
  simp only [script, scripts_eq_map, hkind, hstatic, ↓reduceIte]
  exact .join (.join (.join hkeyword hname) hempty) (.ofBody hbreak hbody)

theorem nested_constructor (hkind : head.kind = .constructor) (hstatic : head.isStatic = false)
    (hparameters : ∀ element ∈ parameters.map script, Nested allowed element)
    (hthis : (forwarded " : this(" thisArguments).Nested allowed)
    (hbase : (forwarded " : base(" baseArguments).Nested allowed) :
    (callable head returns name parameters thisArguments baseArguments body).script.Nested
      allowed := by
  have haccess := nested_access htokens head.access
  have hgiven := nested_parenthesized htokens hbreak head hparameters
  have hheader := (((haccess.join hname).join hgiven).join hthis).join hbase
  simp only [script, scripts_eq_map, hkind, hstatic, Bool.false_eq_true, ↓reduceIte]
  exact hheader.join (.ofBody hbreak hbody)

theorem nested_destructor (hkind : head.kind = .destructor) :
    (callable head returns name parameters thisArguments baseArguments body).script.Nested
      allowed := by
  have htilde : Nested allowed [.append "~"] := nested_token htokens (by decide)
  have hempty : Nested allowed [.append "()"] := nested_token htokens (by decide)
  simp only [script, scripts_eq_map, hkind]
  exact .join (.join (.join htilde hname) hempty) (.ofBody hbreak hbody)

end

theorem nested_script (node : Node) (hparts : ∀ part ∈ node.visited, part.Allows allowed) :
    node.script.Nested allowed := by
  induction node with
  | text content =>
    simp only [visited, List.forall_mem_singleton, Allows, ownSteps] at hparts
    exact .append hparts
  | lineBreak => exact .newLine hbreak
  | list layout elements ih =>
    simp only [visited, List.forall_mem_cons, visitedAll_eq_flatMap, List.forall_mem_flatMap]
      at hparts
    simp only [script, scripts_eq_map]
    exact .ofList hbreak hparts.1 (nested_map_script ih hparts.2)
  | block header body ihheader ihbody =>
    simp only [visited, List.cons_append, List.forall_mem_cons, visitedAll_eq_flatMap,
      List.forall_mem_flatMap, List.forall_mem_append] at hparts
    simp only [script, scripts_eq_map]
    obtain ⟨_, hheader, hbody⟩ := hparts
    exact .join (ihheader hheader) (.ofBody hbreak (nested_map_script ihbody hbody))
  | generic name arguments ihname iharguments =>
    simp only [visited, List.cons_append, List.forall_mem_cons, visitedAll_eq_flatMap,
      List.forall_mem_flatMap, List.forall_mem_append] at hparts
    obtain ⟨_, hname, hgiven⟩ := hparts
    exact nested_generic htokens hbreak (ihname hname) (nested_map_script iharguments hgiven)
  | typeDecl head name bases members ihname ihbases ihmembers =>
    simp only [visited, List.cons_append, List.forall_mem_cons, visitedAll_eq_flatMap,
      List.forall_mem_flatMap, List.forall_mem_append] at hparts
    obtain ⟨_, ⟨hname, hbases⟩, hmembers⟩ := hparts
    exact nested_typeDecl htokens hbreak (ihname hname) (nested_map_script ihbases hbases)
      (nested_map_script ihmembers hmembers)
  | field head type name ihtype ihname =>
    simp only [visited, List.cons_append, List.forall_mem_cons, List.forall_mem_append] at hparts
    obtain ⟨_, htype, hname⟩ := hparts
    exact nested_field htokens (ihtype htype) (ihname hname)
  | property head type name accessors ihtype ihname ihaccessors =>
    simp only [visited, List.cons_append, List.forall_mem_cons, visitedAll_eq_flatMap,
      List.forall_mem_flatMap, List.forall_mem_append] at hparts
    obtain ⟨_, ⟨htype, hname⟩, haccessors⟩ := hparts
    exact nested_property htokens hbreak (ihname hname) (ihtype htype)
      (nested_map_script ihaccessors haccessors)
  | accessor kind body ihbody =>
    simp only [visited, List.forall_mem_cons, visitedAll_eq_flatMap, List.forall_mem_flatMap]
      at hparts
    simp only [script, scripts_eq_map]
    exact (nested_token htokens (accessorKind_keyword_mem_tokens kind)).join
      (.ofBody hbreak (nested_map_script ihbody hparts.2))
  | callable head returns name parameters thisArguments baseArguments body ihreturns ihname
      ihparameters ihthis ihbase ihbody =>
    simp only [visited, List.cons_append, List.forall_mem_cons, visitedAll_eq_flatMap,
      visitedForwarded_eq_flatMap, List.forall_mem_append, List.forall_mem_flatMap] at hparts
    obtain ⟨_, hheader, hbody⟩ := hparts
    replace hbody := nested_map_script ihbody hbody
    -- only the kind of the callable says which of its parts are written
    cases hkind : head.kind with
    | method =>
      simp only [hkind, List.forall_mem_append, List.forall_mem_flatMap] at hheader
      obtain ⟨⟨hreturns, hname⟩, hgiven⟩ := hheader
      exact nested_method htokens hbreak (ihname hname) hbody hkind (ihreturns hreturns)
        (nested_map_script ihparameters hgiven)
    | constructor =>
      cases hstatic : head.isStatic with
      | true =>
        simp only [hkind, hstatic, ↓reduceIte] at hheader
        exact nested_staticConstructor htokens hbreak (ihname hheader) hbody hkind hstatic
      | false =>
        simp only [hkind, hstatic, Bool.false_eq_true, ↓reduceIte, List.forall_mem_append,
          List.forall_mem_flatMap] at hheader
        obtain ⟨⟨⟨hname, hgiven⟩, hthis⟩, hbase⟩ := hheader
        have hopeningThis : " : this" ++ "(" = " : this(" := rfl
        have hopeningBase : " : base" ++ "(" = " : base(" := rfl
        exact nested_constructor htokens hbreak (ihname hname) hbody hkind hstatic
          (nested_map_script ihparameters hgiven)
          (nested_forwarded htokens hbreak hopeningThis (by decide) ihthis hthis)
          (nested_forwarded htokens hbreak hopeningBase (by decide) ihbase hbase)
    | destructor =>
      simp only [hkind] at hheader
      exact nested_destructor htokens hbreak (ihname hheader) hbody hkind
  | callback script =>
    simp only [visited, List.forall_mem_singleton] at hparts
    exact closing_closed hparts 0
  | wrapped before core after ihbefore ihcore ihafter =>
    simp only [visited, List.cons_append, List.forall_mem_cons, List.forall_mem_append] at hparts
    simp only [script]
    obtain ⟨_, ⟨hbefore, hcore⟩, hafter⟩ := hparts
    exact .join (.join (ihbefore hbefore) (ihcore hcore)) (ihafter hafter)

end

end Node

end EntityViews
