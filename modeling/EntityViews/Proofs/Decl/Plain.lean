import EntityViews.Proofs.Decl.Nested
import EntityViews.Proofs.Source.Plain

/-!
This module contains the plain text of declarations, which is put together from the plain texts of
their parts.
-/

namespace EntityViews

namespace Text

def keywordIf (condition : Bool) (keyword : String) : List Char :=
  if condition then keyword.toList ++ [' '] else []

@[simp]
theorem keywordIf_false (keyword : String) : keywordIf false keyword = [] := by
  rfl

def unlines (lines : List (List Char)) : List Char :=
  lines.flatMap (· ++ ['\n'])

@[simp]
theorem unlines_nil : unlines [] = [] := by
  rfl

@[simp]
theorem unlines_cons (line : List Char) (lines : List (List Char)) :
    unlines (line :: lines) = line ++ '\n' :: unlines lines := by
  simp [unlines]

@[simp]
theorem unlines_append (first second : List (List Char)) :
    unlines (first ++ second) = unlines first ++ unlines second := by
  simp [unlines]

def inBraces (elements : List (List Char)) : List Char :=
  ['\n', '{', '\n'] ++ unlines elements ++ ['}']

theorem inBraces_eq (elements : List (List Char)) :
    inBraces elements
      =
    ['\n', '{'] ++ elements.flatMap (['\n'] ++ ·) ++ ['\n', '}'] := by
  have hbreaks := Joined.append_flatMap ['\n'] elements
  simp only [List.cons_append, List.nil_append] at hbreaks
  simp [inBraces, unlines, hbreaks]

end Text

namespace ListLayout

def plainSeparator (layout : ListLayout) : List Char :=
  (Script.ofList.separator layout).plain

def plain (layout : ListLayout) (elements : List (List Char)) : List Char :=
  if elements.isEmpty then
    []
  else
    lineBreakIf layout.newLineBefore
      ++ layout.plainSeparator.intercalate elements
      ++ lineBreakIf layout.newLineAfter
where
  lineBreakIf (condition : Bool) : List Char :=
    if condition then ['\n'] else []

theorem plainSeparator_lines : lines.plainSeparator = ['\n'] := by
  exact Script.Spells.newLine.plain_eq

theorem plain_lines_append {elements : List (List Char)} (hne : elements ≠ []) :
    lines.plain elements ++ ['\n'] = Text.unlines elements := by
  unfold plain
  rw [if_neg (by simpa using hne)]
  rw [plainSeparator_lines]
  simpa [plain.lineBreakIf, lines, Text.unlines] using Joined.intercalate_append ['\n'] hne

end ListLayout

namespace Script

theorem spells_appendIf (condition : Bool) {script : Script} {text : List Char}
    (h : script.Spells text) :
    Spells (if condition then script else []) (if condition then text else []) := by
  cases condition with
  | true => exact h
  | false => exact .nil

theorem spells_keywordIf (condition : Bool) (keyword : String) :
    (keywordIf condition keyword).Spells (Text.keywordIf condition keyword) := by
  exact spells_appendIf condition ((Spells.single keyword).append (.single " "))

theorem spells_lineBreakIf (condition : Bool) :
    (ofList.lineBreakIf condition).Spells (ListLayout.plain.lineBreakIf condition) := by
  exact spells_appendIf condition .newLine

theorem spells_separator (layout : ListLayout) :
    (ofList.separator layout).Spells layout.plainSeparator := by
  have hnested : (ofList.separator layout).Nested fun _ => True :=
    .separator trivial fun _ _ => trivial
  exact hnested.spells_plain

variable {elements : List Script} (h : ∀ element ∈ elements, element.Spells element.plain)
include h

theorem spells_ofList (layout : ListLayout) :
    (ofList layout elements).Spells (layout.plain (elements.map plain)) := by
  unfold ofList ListLayout.plain
  rw [List.isEmpty_map]
  split
  . exact .nil
  . have hbody := (spells_lineBreakIf layout.newLineBefore).append
      (.intercalate (spells_separator layout) h)
    have hlist := (hbody.indent layout.indented).append (spells_lineBreakIf layout.newLineAfter)
    simpa only [List.append_assoc] using hlist

theorem spells_ofBody : (ofBody elements).Spells (Text.inBraces (elements.map plain)) := by
  unfold ofBody
  split
  . next hempty =>
    rw [List.isEmpty_iff.mp hempty]
    exact Spells.nil.block
  . next hne =>
    have hne : elements.map plain ≠ [] := by simpa using hne
    have hlines := (Spells.newLine.append (spells_ofList h .lines)).block
    unfold Text.inBraces
    rw [← ListLayout.plain_lines_append hne]
    simpa using hlines

end Script

namespace Node

open Script

def plain (node : Node) : List Char :=
  node.script.plain

theorem spells (node : Node) : node.script.Spells node.plain := by
  have hnested : node.script.Nested fun _ => True :=
    node.nested_script (fun _ _ => trivial) trivial fun _ _ _ _ => trivial
  exact hnested.spells_plain

theorem spells_map_script (nodes : List Node) :
    ∀ element ∈ nodes.map script, element.Spells element.plain := by
  rw [List.forall_mem_map]
  intro node _
  exact node.spells

theorem map_plain_map_script (nodes : List Node) :
    (nodes.map script).map Script.plain = nodes.map plain := by
  rw [List.map_map]
  rfl

theorem spells_list (layout : ListLayout) (nodes : List Node) :
    (ofList layout (nodes.map script)).Spells (layout.plain (nodes.map plain)) := by
  rw [← map_plain_map_script]
  exact spells_ofList (spells_map_script nodes) layout

theorem spells_body (nodes : List Node) :
    (ofBody (nodes.map script)).Spells (Text.inBraces (nodes.map plain)) := by
  rw [← map_plain_map_script]
  exact spells_ofBody (spells_map_script nodes)

@[simp]
theorem plain_text (content : String) : (text content).plain = content.toList := by
  exact (Spells.single content).plain_eq

theorem plain_list (layout : ListLayout) (elements : List Node) :
    (list layout elements).plain = layout.plain (elements.map plain) := by
  apply Spells.plain_eq
  rw [script]
  rw [scripts_eq_map]
  exact spells_list layout elements

theorem plain_block (header : Node) (body : List Node) :
    (block header body).plain = header.plain ++ Text.inBraces (body.map plain) := by
  apply Spells.plain_eq
  rw [script]
  rw [scripts_eq_map]
  exact header.spells.append (spells_body body)

theorem plain_typeDecl (head : TypeHead) (name : Node) (bases members : List Node) :
    (typeDecl head name bases members).plain
      =
    Text.keywordIf true head.access.keyword
      ++ Text.keywordIf head.isStatic "static"
      ++ Text.keywordIf head.isReadonly "readonly"
      ++ Text.keywordIf head.isUnsafe "unsafe"
      ++ Text.keywordIf true head.kind.keyword
      ++ name.plain
      ++ (if bases.isEmpty then [] else " : ".toList ++ ListLayout.plain {} (bases.map plain))
      ++ Text.inBraces (members.map plain) := by
  have hbases : Spells
      (if bases.isEmpty then [] else [.append " : "] ++ ofList {} (bases.map script))
      (if bases.isEmpty then [] else " : ".toList ++ ListLayout.plain {} (bases.map plain)) := by
    split
    . exact .nil
    . exact (Spells.single " : ").append (spells_list {} bases)
  have hmodifiers := ((spells_keywordIf true head.access.keyword).append
    (spells_keywordIf head.isStatic "static")).append (spells_keywordIf head.isReadonly "readonly")
  have hkeywords := (hmodifiers.append (spells_keywordIf head.isUnsafe "unsafe")).append
    (spells_keywordIf true head.kind.keyword)
  apply Spells.plain_eq
  rw [script]
  rw [scripts_eq_map]
  rw [scripts_eq_map]
  exact ((hkeywords.append name.spells).append hbases).append (spells_body members)

theorem plain_field (head : FieldHead) (type name : Node) :
    (field head type name).plain
      =
    Text.keywordIf true head.access.keyword
      ++ Text.keywordIf head.isStatic "static"
      ++ Text.keywordIf head.isReadonly "readonly"
      ++ type.plain ++ " ".toList ++ name.plain ++ ";".toList := by
  have hkeywords := ((spells_keywordIf true head.access.keyword).append
    (spells_keywordIf head.isStatic "static")).append (spells_keywordIf head.isReadonly "readonly")
  apply Spells.plain_eq
  rw [script]
  exact (((hkeywords.append type.spells).append (.single " ")).append name.spells).append
    (.single ";")

theorem plain_property (head : PropertyHead) (type name : Node) (accessors : List Node) :
    (property head type name accessors).plain
      =
    Text.keywordIf true head.access.keyword
      ++ Text.keywordIf head.isStatic "static"
      ++ Text.keywordIf head.isByRef "ref"
      ++ type.plain ++ " ".toList ++ name.plain
      ++ Text.inBraces (accessors.map plain) := by
  have hkeywords := ((spells_keywordIf true head.access.keyword).append
    (spells_keywordIf head.isStatic "static")).append (spells_keywordIf head.isByRef "ref")
  have hhead := ((hkeywords.append type.spells).append (.single " ")).append name.spells
  have hbody := (Spells.flatMap_newLine (spells_map_script accessors)).block
  have hproperty := hhead.append hbody
  rw [map_plain_map_script] at hproperty
  apply Spells.plain_eq
  rw [script]
  rw [scripts_eq_map]
  rw [Text.inBraces_eq]
  simpa only [List.append_assoc] using hproperty

theorem plain_accessor (kind : AccessorKind) (body : List Node) :
    (accessor kind body).plain = kind.keyword.toList ++ Text.inBraces (body.map plain) := by
  apply Spells.plain_eq
  rw [script]
  rw [scripts_eq_map]
  exact (Spells.single kind.keyword).append (spells_body body)

theorem plain_wrapped (before core after : Node) :
    (wrapped before core after).plain = before.plain ++ core.plain ++ after.plain := by
  apply Spells.plain_eq
  rw [script]
  exact (before.spells.append core.spells).append after.spells

def plainForwarded (opening : String) : Option (List Node) → List Char
  | none => []
  | some arguments => opening.toList ++ ListLayout.plain {} (arguments.map plain) ++ ")".toList

theorem spells_forwarded (opening : String) (arguments : Option (List Node)) :
    (forwarded opening arguments).Spells (plainForwarded opening arguments) := by
  cases arguments with
  | none => exact .nil
  | some arguments =>
    rw [forwarded]
    rw [scripts_eq_map]
    exact ((Spells.single opening).append (spells_list {} arguments)).append (.single ")")

theorem plain_constructor {head : CallableHead} (h : head.kind = .constructor)
    (hstatic : head.isStatic = false) (returns name : Node) (parameters : List Node)
    (thisArguments baseArguments : Option (List Node)) (body : List Node) :
    (callable head returns name parameters thisArguments baseArguments body).plain
      =
    Text.keywordIf true head.access.keyword
      ++ name.plain
      ++ ("(".toList ++ head.parameterLayout.plain (parameters.map plain) ++ ")".toList)
      ++ plainForwarded " : this(" thisArguments
      ++ plainForwarded " : base(" baseArguments
      ++ Text.inBraces (body.map plain) := by
  have hfront := (spells_keywordIf true head.access.keyword).append name.spells
  have hparameters := ((Spells.single "(").append
    (spells_list head.parameterLayout parameters)).append (.single ")")
  have hforwarded := ((hfront.append hparameters).append
    (spells_forwarded " : this(" thisArguments)).append (spells_forwarded " : base(" baseArguments)
  apply Spells.plain_eq
  rw [script]
  simp only [h, hstatic, scripts_eq_map]
  exact hforwarded.append (spells_body body)

end Node

end EntityViews
