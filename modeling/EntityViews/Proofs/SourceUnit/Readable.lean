import EntityViews.Proofs.SourceUnit.Plain
import EntityViews.Proofs.SourceUnit.Types

/-!
This module contains the reading of plain texts. What a unit declares can be told from its plain text:
each declaration is read off the front of the text together with what is left after it.
-/

namespace EntityViews

open Text

theorem Script.Inscribes.plain_eq {script : Script} {text : String} (h : script.Inscribes text) :
    script.plain = text.toList := by
  unfold Script.plain
  rw [h.page_eq]
  simp [Page.plain]

theorem Node.IsPhrase.lineFeed_notMem_plain {node : Node} (h : node.IsPhrase) :
    '\n' ∉ node.plain := by
  have ⟨content, hscript, hcontent⟩ := h
  unfold Node.plain
  rw [hscript.plain_eq]
  exact hcontent.lineFeed

namespace Component

variable {ecs : Ecs} {components others : List Component} {rest other : List Char}

theorem plain_viewField (ecs : Ecs) (component : Component) :
    (component.viewField ecs).plain
      =
    "private readonly ".toList ++ (component.storageType ecs).plain ++ " ".toList
      ++ component.fieldName.toList ++ ";".toList := by
  unfold viewField
  rw [Node.plain_field]
  simp [Text.keywordIf, Access.keyword]

def propertyHead (component : Component) : List Char :=
  Text.keywordIf (component.kind = .value) "ref" ++ component.type.toList ++ " ".toList
    ++ component.propertyName.toList

def getterFront : List Char :=
  ['{', '\n'] ++ (Node.concat [.text inliningAttribute, .lineBreak]).plain
    ++ AccessorKind.get.keyword.toList ++ ['\n', '{', '\n']

theorem plain_viewProperty_append (component : Component) (rest : List Char) :
    component.viewProperty.plain ++ rest
      =
    "public ".toList ++ (component.propertyHead ++ '\n' :: (getterFront
      ++ ((viewProperty.statement component).toList ++ '\n' :: (['}', '\n', '}'] ++ rest)))) := by
  unfold viewProperty
  rw [Node.plain_property]
  simp [Text.keywordIf, Access.keyword, Node.plain_wrapped, Node.plain_accessor, Node.empty,
    Text.inBraces, getterFront, propertyHead]

/--
The fields for components can be read off a text if what follows does not look like one more of them.
-/
theorem viewFields_inj (hcomponents : ∀ component ∈ components, component.HasPhrases)
    (hothers : ∀ component ∈ others, component.HasPhrases)
    (hecs : ecs.namespaceName ≠ "" → IsPhrase ecs.namespaceName) {names : List String}
    (hnames : components.map (·.fieldName) <+: names)
    (hotherNames : others.map (·.fieldName) <+: names)
    (hrest : rest.head? ≠ some 'p') (hother : other.head? ≠ some 'p')
    (h : unlines (components.map fun component => (component.viewField ecs).plain) ++ rest
      = unlines (others.map fun component => (component.viewField ecs).plain) ++ other) :
    components.map (fun component => (component.storageType ecs).plain)
        = others.map (fun component => (component.storageType ecs).plain)
      ∧ rest = other := by
  induction components generalizing others names with
  | nil =>
    cases others with
    | nil => exact ⟨rfl, by simpa using h⟩
    | cons second others =>
      rw [List.map_nil, unlines_nil, List.nil_append] at h
      rw [h] at hrest
      simp [plain_viewField] at hrest
  | cons first components ih =>
    cases others with
    | nil =>
      rw [List.map_nil, unlines_nil, List.nil_append] at h
      rw [← h] at hother
      simp [plain_viewField] at hother
    | cons second others =>
      rw [List.forall_mem_cons] at hcomponents hothers
      cases names with
      | nil => simp at hnames
      | cons name names =>
        rw [List.map_cons, List.cons_prefix_cons] at hnames hotherNames
        simp only [List.map_cons, unlines_cons, List.append_assoc, List.cons_append] at h
        have ⟨hline, hlines⟩ := Joined.append_cons_inj
          (hcomponents.1.isPhrase_viewField hecs).lineFeed_notMem_plain
          (hothers.1.isPhrase_viewField hecs).lineFeed_notMem_plain h
        have ⟨htypes, hrests⟩ := ih hcomponents.2 hothers.2 hnames.2 hotherNames.2 hlines
        rw [plain_viewField, plain_viewField, hnames.1, hotherNames.1] at hline
        refine ⟨?_, hrests⟩
        rw [List.map_cons, List.map_cons, htypes]
        simpa using hline

/--
Components are taken to be the same if they are declared with the same type and name and are of the
same kind.
-/
def declared (component : Component) : String × ComponentKind × String :=
  (component.type, component.kind, component.propertyName)

theorem statement_inj {first second : Component} (hname : first.fieldName = second.fieldName)
    (h : viewProperty.statement first = viewProperty.statement second) :
    first.kind = second.kind := by
  have hlength := congrArg (·.toList.length) h
  unfold viewProperty.statement at hlength
  rw [hname] at hlength
  cases hfirst : first.kind <;> cases hsecond : second.kind
  . rfl
  . simp [hfirst, hsecond, toString] at hlength
    omega
  . simp [hfirst, hsecond, toString] at hlength
  . rfl

theorem HasPhrases.lineFeed_notMem_propertyHead {component : Component}
    (h : component.HasPhrases) : '\n' ∉ component.propertyHead := by
  have hkeyword : '\n' ∉ Text.keywordIf (component.kind = .value) "ref" := by
    cases component.kind <;> decide
  simp [propertyHead, hkeyword, h.type.lineFeed, h.propertyName.lineFeed]

theorem viewProperty_inj {first second : Component} (hfirst : first.HasPhrases)
    (hsecond : second.HasPhrases) (hblank : ' ' ∉ first.propertyName.toList)
    (hblankSecond : ' ' ∉ second.propertyName.toList) (hname : first.fieldName = second.fieldName)
    (h : first.viewProperty.plain ++ rest = second.viewProperty.plain ++ other) :
    first.declared = second.declared ∧ rest = other := by
  rw [plain_viewProperty_append, plain_viewProperty_append] at h
  have ⟨hhead, hgetter⟩ := Joined.append_cons_inj hfirst.lineFeed_notMem_propertyHead
    hsecond.lineFeed_notMem_propertyHead (List.append_cancel_left h)
  have ⟨hstatement, hrest⟩ := Joined.append_cons_inj hfirst.isPhrase_statement.lineFeed
    hsecond.isPhrase_statement.lineFeed (List.append_cancel_left hgetter)
  have hkind := statement_inj hname (String.toList_inj.mp hstatement)
  unfold propertyHead at hhead
  rw [hkind, List.append_assoc, List.append_assoc, List.append_assoc, List.append_assoc] at hhead
  -- there is no blank in the name, so the last blank is the one in front of it
  have ⟨htype, hproperty⟩ := append_cons_inj_of_notMem hblank hblankSecond
    (List.append_cancel_left hhead)
  refine ⟨?_, List.append_cancel_left hrest⟩
  unfold declared
  rw [String.toList_inj.mp htype, hkind, String.toList_inj.mp hproperty]

theorem viewProperties_inj (hcomponents : ∀ component ∈ components, component.HasPhrases)
    (hothers : ∀ component ∈ others, component.HasPhrases)
    (hblank : ∀ component ∈ components, ' ' ∉ component.propertyName.toList)
    (hblankOther : ∀ component ∈ others, ' ' ∉ component.propertyName.toList)
    (hnames : components.map (·.fieldName) = others.map (·.fieldName))
    (h : unlines ((components.flatMap fun component => [.empty, component.viewProperty]).map
          Node.plain) ++ rest
      = unlines ((others.flatMap fun component => [.empty, component.viewProperty]).map
          Node.plain) ++ other) :
    components.map declared = others.map declared ∧ rest = other := by
  induction components generalizing others with
  | nil =>
    rw [List.map_nil, eq_comm, List.map_eq_nil_iff] at hnames
    rw [hnames] at h ⊢
    exact ⟨rfl, h⟩
  | cons first components ih =>
    cases others with
    | nil => simp at hnames
    | cons second others =>
      rw [List.forall_mem_cons] at hcomponents hothers hblank hblankOther
      rw [List.map_cons, List.map_cons, List.cons.injEq] at hnames
      simp only [List.flatMap_cons, List.map_cons, unlines_cons, List.append_assoc,
        List.cons_append, List.nil_append] at h
      have hline := (List.cons.inj (List.append_cancel_left h)).2
      have ⟨hdeclared, hlines⟩ := viewProperty_inj hcomponents.1 hothers.1 hblank.1 hblankOther.1
        hnames.1 hline
      have ⟨hrests, hrest⟩ := ih hcomponents.2 hothers.2 hblank.2 hblankOther.2 hnames.2
        (List.cons.inj hlines).2
      rw [List.map_cons, List.map_cons, hdeclared, hrests]
      exact ⟨rfl, hrest⟩

end Component

def typeofText (type : String) : List Char :=
  "typeof(".toList ++ type.toList ++ [')']

theorem toList_typeof (type : String) : s!"typeof({type})".toList = typeofText type := by
  unfold typeofText
  simp only [toString, String.toList_append]
  rfl

theorem plain_typeArray (types : List String) :
    (typeArray types).plain
      =
    ("new Type[] " ++ openBrace).toList
      ++ ListLayout.plain { ListLayout.hanging with newLineAfter := true } (types.map typeofText)
      ++ ['}'] := by
  have hmap : (types.map fun type => Node.text s!"typeof({type})").map Node.plain
      = types.map typeofText := by
    rw [List.map_map]
    apply List.map_congr_left
    intro type _
    rw [Function.comp_apply, Node.plain_text, toList_typeof]
  unfold typeArray
  rw [Node.plain_wrapped, Node.plain_list, Node.plain_text, Node.plain_text, hmap, toList_closeBrace]

theorem typeofText_inj {first second : String} {rest other : List Char}
    (hfirst : ')' ∉ first.toList) (hsecond : ')' ∉ second.toList)
    (h : typeofText first ++ rest = typeofText second ++ other) :
    first = second ∧ rest = other := by
  unfold typeofText at h
  rw [List.append_assoc, List.append_assoc, List.append_assoc, List.append_assoc] at h
  have ⟨htype, hrest⟩ := Joined.append_cons_inj hfirst hsecond (List.append_cancel_left h)
  exact ⟨String.toList_inj.mp htype, hrest⟩

-- an element is followed by a comma if it is not the last one and by a line feed if it is
theorem typeofs_inj {types others : List String} {first second : String} {rest other : List Char}
    (htypes : ∀ type ∈ first :: types, ')' ∉ type.toList)
    (hothers : ∀ type ∈ second :: others, ')' ∉ type.toList)
    (h : [',', '\n'].intercalate ((first :: types).map typeofText) ++ '\n' :: rest
      = [',', '\n'].intercalate ((second :: others).map typeofText) ++ '\n' :: other) :
    first :: types = second :: others ∧ rest = other := by
  induction types generalizing first second others with
  | nil =>
    cases others with
    | nil =>
      simp only [List.map_cons, List.map_nil, List.intercalate_singleton] at h
      have ⟨htype, hrest⟩ := typeofText_inj (htypes first (by simp)) (hothers second (by simp)) h
      rw [htype]
      exact ⟨rfl, (List.cons.inj hrest).2⟩
    | cons next others =>
      simp only [List.map_cons, List.map_nil, List.intercalate_singleton,
        List.intercalate_cons_cons, List.append_assoc] at h
      have ⟨_, hrest⟩ := typeofText_inj (htypes first (by simp)) (hothers second (by simp)) h
      simp at hrest
  | cons nextType types ih =>
    cases others with
    | nil =>
      simp only [List.map_cons, List.map_nil, List.intercalate_singleton,
        List.intercalate_cons_cons, List.append_assoc] at h
      have ⟨_, hrest⟩ := typeofText_inj (htypes first (by simp)) (hothers second (by simp)) h
      simp at hrest
    | cons next others =>
      rw [List.forall_mem_cons] at htypes hothers
      rw [List.map_cons, List.map_cons, List.map_cons, List.map_cons, List.intercalate_cons_cons,
        List.intercalate_cons_cons, List.append_assoc, List.append_assoc, List.append_assoc,
        List.append_assoc] at h
      have ⟨htype, hrest⟩ := typeofText_inj htypes.1 hothers.1 h
      have ⟨hnext, hend⟩ := ih htypes.2 hothers.2 (List.append_cancel_left hrest)
      rw [htype, hnext]
      exact ⟨rfl, hend⟩

theorem typeArray_inj {types others : List String} {rest other : List Char}
    (htypes : ∀ type ∈ types, ')' ∉ type.toList)
    (hothers : ∀ type ∈ others, ')' ∉ type.toList)
    (h : (typeArray types).plain ++ rest = (typeArray others).plain ++ other) :
    types = others ∧ rest = other := by
  have hseparator : ListLayout.plainSeparator { ListLayout.hanging with newLineAfter := true }
      = [',', '\n'] :=
    ((Script.Spells.single ",").append .newLine).plain_eq
  rw [plain_typeArray, plain_typeArray, List.append_assoc, List.append_assoc, List.append_assoc,
    List.append_assoc] at h
  replace h := List.append_cancel_left h
  unfold ListLayout.plain at h
  rw [hseparator] at h
  cases types with
  | nil =>
    cases others with
    | nil => exact ⟨rfl, by simpa using h⟩
    | cons second others =>
      simp [ListLayout.plain.lineBreakIf, ListLayout.hanging] at h
  | cons first types =>
    cases others with
    | nil => simp [ListLayout.plain.lineBreakIf, ListLayout.hanging] at h
    | cons second others =>
      have hlists : [',', '\n'].intercalate ((first :: types).map typeofText)
            ++ '\n' :: (['}'] ++ rest)
          = [',', '\n'].intercalate ((second :: others).map typeofText)
            ++ '\n' :: (['}'] ++ other) := by
        simpa [ListLayout.plain.lineBreakIf, ListLayout.hanging] using h
      obtain ⟨htypes, hrest⟩ := typeofs_inj htypes hothers hlists
      exact ⟨htypes, List.append_cancel_left hrest⟩

theorem Access.keyword_inj {first second : Access} {rest other : List Char}
    (h : first.keyword.toList ++ (" readonly".toList ++ rest)
      = second.keyword.toList ++ (" readonly".toList ++ other)) : first = second ∧ rest = other := by
  cases first <;> cases second <;> simp [keyword] at h ⊢
  all_goals exact h

namespace Schema

variable {ecs : Ecs} {schema : Schema}

structure IsReadable (ecs : Ecs) (schema : Schema) : Prop extends HasPhrases ecs schema where
  isDerived : schema.IsDerived
  fieldNames : schema.components.map (·.fieldName)
    = (List.range schema.components.length).map Component.storedName
  propertyNames : ∀ component ∈ schema.components, ' ' ∉ component.propertyName.toList
  excludedTypes : ∀ type ∈ schema.excluded, ')' ∉ type.toList

def handleField (ecs : Ecs) (name : String) : List Char :=
  "public readonly ".toList ++ (ecs.entity.toList ++ (" ".toList ++ (name.toList ++ ";".toList)))

theorem map_plain_viewFields (ecs : Ecs) (schema : Schema) :
    (schema.viewFields ecs).map Node.plain
      =
    schema.backReference.toList.map (handleField ecs)
      ++ schema.components.map fun component => (component.viewField ecs).plain := by
  have hhandle (name : String) :
      (Node.field { isReadonly := true } (.text ecs.entity) (.text name)).plain
        = handleField ecs name := by
    rw [Node.plain_field]
    unfold handleField
    simp [Text.keywordIf, Access.keyword]
  unfold viewFields
  simp only [List.map_append, List.map_map, Function.comp_def, hhandle]

theorem plain_view_append (ecs : Ecs) (schema : Schema) (rest : List Char) :
    (schema.view ecs).plain ++ rest
      =
    schema.access.keyword.toList ++ (" readonly".toList ++ (" struct ".toList
      ++ (schema.viewName.toList ++ '\n' :: (['{', '\n']
        ++ (unlines ((schema.viewFields ecs).map Node.plain)
          ++ (unlines ((schema.viewConstructor ecs).map Node.plain)
            ++ (unlines ((schema.components.flatMap fun component =>
                  [.empty, component.viewProperty]).map Node.plain)
              ++ (['}'] ++ rest)))))))) := by
  unfold view
  rw [Node.plain_typeDecl]
  simp [Text.keywordIf, Text.inBraces, TypeKind.keyword]

variable {second : Schema} {rest other : List Char}

theorem IsReadable.fieldNames_prefix (h : schema.IsReadable ecs) {count : Nat}
    (hle : schema.components.length ≤ count) :
    schema.components.map (·.fieldName) <+: (List.range count).map Component.storedName := by
  rw [h.fieldNames]
  apply List.IsPrefix.map
  rw [← Nat.min_eq_left hle]
  rw [← List.take_range]
  exact List.take_prefix _ _

theorem IsReadable.map_fieldName_eq (hfirst : schema.IsReadable ecs) (hsecond : second.IsReadable ecs)
    (hlength : schema.components.length = second.components.length) :
    schema.components.map (·.fieldName) = second.components.map (·.fieldName) := by
  rw [hfirst.fieldNames, hsecond.fieldNames, hlength]

theorem handleField_inj {first second : String} (hfirst : '\n' ∉ first.toList)
    (hsecond : '\n' ∉ second.toList)
    (h : handleField ecs first ++ '\n' :: rest = handleField ecs second ++ '\n' :: other) :
    first = second ∧ rest = other := by
  unfold handleField at h
  simp only [List.append_assoc] at h
  replace h := List.append_cancel_left (List.append_cancel_left (List.append_cancel_left h))
  rw [← List.append_assoc, ← List.append_assoc] at h
  have ⟨hname, hrest⟩ := Joined.append_cons_inj (by simp [hfirst]) (by simp [hsecond]) h
  exact ⟨String.toList_inj.mp (List.append_cancel_right hname), hrest⟩

theorem handleFields_inj {first second : Option String} (hfirst : ∀ name ∈ first, '\n' ∉ name.toList)
    (hsecond : ∀ name ∈ second, '\n' ∉ name.toList)
    (hrest : ∀ name tail, rest ≠ handleField ecs name ++ tail)
    (hother : ∀ name tail, other ≠ handleField ecs name ++ tail)
    (h : unlines (first.toList.map (handleField ecs)) ++ rest
      = unlines (second.toList.map (handleField ecs)) ++ other) :
    first = second ∧ rest = other := by
  have hline (name : String) (tail : List Char) :
      unlines ((some name).toList.map (handleField ecs)) ++ tail
        = handleField ecs name ++ '\n' :: tail := by
    simp
  cases first with
  | none =>
    cases second with
    | none => exact ⟨rfl, h⟩
    | some name =>
      rw [hline] at h
      exact absurd h (hrest name _)
  | some name =>
    rw [hline] at h
    cases second with
    | none => exact absurd h.symm (hother name _)
    | some nameSecond =>
      rw [hline] at h
      have ⟨hname, htails⟩ := handleField_inj (hfirst name rfl) (hsecond nameSecond rfl) h
      rw [hname]
      exact ⟨rfl, htails⟩

theorem viewFields_ne_handleField (components : List Component) (hrest : rest.head? ≠ some 'p')
    (name : String) (tail : List Char) :
    unlines (components.map fun component => (component.viewField ecs).plain) ++ rest
      ≠ handleField ecs name ++ tail := by
  intro h
  unfold handleField at h
  cases components with
  | nil =>
    rw [List.map_nil, unlines_nil, List.nil_append] at h
    rw [h] at hrest
    simp at hrest
  | cons component components =>
    rw [List.map_cons, Component.plain_viewField] at h
    simp at h

theorem viewFields_inj (hfirst : schema.IsReadable ecs) (hsecond : second.IsReadable ecs)
    (hrest : rest.head? ≠ some 'p') (hother : other.head? ≠ some 'p')
    (h : unlines ((schema.viewFields ecs).map Node.plain) ++ rest
      = unlines ((second.viewFields ecs).map Node.plain) ++ other) :
    schema.backReference = second.backReference
      ∧ schema.components.map (fun component => (component.storageType ecs).plain)
          = second.components.map (fun component => (component.storageType ecs).plain)
      ∧ rest = other := by
  rw [map_plain_viewFields, map_plain_viewFields, unlines_append, unlines_append,
    List.append_assoc, List.append_assoc] at h
  have ⟨hback, hfields⟩ := handleFields_inj
    (fun name hname => (hfirst.backReference name hname).lineFeed)
    (fun name hname => (hsecond.backReference name hname).lineFeed)
    (viewFields_ne_handleField _ hrest) (viewFields_ne_handleField _ hother) h
  have ⟨htypes, htails⟩ := Component.viewFields_inj hfirst.components hsecond.components hfirst.ecs
    (hfirst.fieldNames_prefix (Nat.le_max_left _ _))
    (hsecond.fieldNames_prefix (Nat.le_max_right _ _)) hrest hother hfields
  exact ⟨hback, htypes, htails⟩

theorem map_plain_viewConstructor_congr (hview : schema.viewName = second.viewName)
    (hback : schema.backReference = second.backReference)
    (htypes : schema.components.map (fun component => (component.storageType ecs).plain)
      = second.components.map (fun component => (component.storageType ecs).plain))
    (hnames : schema.components.map (·.fieldName) = second.components.map (·.fieldName)) :
    (schema.viewConstructor ecs).map Node.plain = (second.viewConstructor ecs).map Node.plain := by
  have hparameters (schema : Schema) : (schema.viewParameters ecs).map Node.plain
      = (schema.backReference.toList.map fun _ =>
            (Node.parameter (.text ecs.entity) (.text handleParameter)).plain)
        ++ List.zipWith
            (fun type name => ListLayout.plain { delimiter := some " " } [type, name.toList])
            (schema.components.map fun component => (component.storageType ecs).plain)
            (schema.components.map (·.fieldName)) := by
    unfold viewParameters
    rw [List.map_append, List.map_map, List.map_map, List.zipWith_map, List.zipWith_self]
    simp only [Function.comp_def, Node.parameter, Node.plain_list, List.map_cons, List.map_nil,
      Node.plain_text]
  have hassignments (schema : Schema) : schema.viewAssignments
      = (schema.backReference.toList.map fun name => .assign s!"this.{name}" handleParameter)
        ++ (schema.components.map (·.fieldName)).map fun name => .assign s!"this.{name}" name := by
    unfold viewAssignments
    rw [List.map_map]
    rfl
  have hempty : schema.isEmpty = second.isEmpty := by
    unfold isEmpty
    rw [hback]
    have hmap := congrArg List.isEmpty hnames
    rw [List.isEmpty_map, List.isEmpty_map] at hmap
    rw [hmap]
  unfold viewConstructor
  rw [hempty]
  split
  . rfl
  . simp only [List.map_cons, List.map_nil]
    rw [Node.plain_constructor rfl rfl, Node.plain_constructor rfl rfl, hparameters, hparameters,
      hassignments, hassignments, hview, hback, htypes, hnames]

theorem view_inj (hfirst : schema.IsReadable ecs) (hsecond : second.IsReadable ecs)
    (h : (schema.view ecs).plain ++ rest = (second.view ecs).plain ++ other) :
    schema.access = second.access
      ∧ schema.viewName = second.viewName
      ∧ schema.backReference = second.backReference
      ∧ schema.components.map Component.declared = second.components.map Component.declared
      ∧ rest = other := by
  have hhead (schema : Schema) (rest : List Char) :
      (unlines ((schema.viewConstructor ecs).map Node.plain)
        ++ (unlines ((schema.components.flatMap fun component =>
              [.empty, component.viewProperty]).map Node.plain)
          ++ (['}'] ++ rest))).head? ≠ some 'p' := by
    unfold viewConstructor
    split
    . next hempty =>
      unfold isEmpty at hempty
      rw [Bool.and_eq_true, List.isEmpty_iff] at hempty
      rw [hempty.2]
      simp
    . simp [Node.empty]
  rw [plain_view_append, plain_view_append] at h
  obtain ⟨haccess, hview⟩ := Access.keyword_inj h
  obtain ⟨hname, hmembers⟩ := Joined.append_cons_inj hfirst.viewName.lineFeed
    hsecond.viewName.lineFeed (List.append_cancel_left hview)
  obtain ⟨hback, htypes, hrest⟩ := viewFields_inj hfirst hsecond (hhead schema rest)
    (hhead second other) (List.append_cancel_left hmembers)
  replace hname := String.toList_inj.mp hname
  have hfieldNames := hfirst.map_fieldName_eq hsecond (by simpa using congrArg List.length htypes)
  rw [map_plain_viewConstructor_congr hname hback htypes hfieldNames] at hrest
  obtain ⟨hdeclared, hend⟩ := Component.viewProperties_inj hfirst.components hsecond.components
    hfirst.propertyNames hsecond.propertyNames hfieldNames (List.append_cancel_left hrest)
  exact ⟨haccess, hname, hback, hdeclared, List.append_cancel_left hend⟩

def collectionConstructorFront (ecs : Ecs) (schema : Schema) : List Char :=
  Text.keywordIf true Access.everywhere.keyword ++ schema.collectionName.toList
    ++ ("(".toList ++ ListLayout.plain {} [(worldParameter ecs).plain] ++ ")".toList)
    ++ " : base(".toList ++ "world".toList ++ ", ".toList
    ++ (typeArray (schema.components.map (·.type))).plain ++ ", ".toList

def collectionFront (ecs : Ecs) (schema : Schema) : List Char :=
  Text.keywordIf true schema.access.keyword ++ Text.keywordIf true TypeKind.classType.keyword
    ++ schema.collectionName.toList ++ (" : ".toList ++ ListLayout.plain {} [ecs.entities.toList])
    ++ ['\n', '{', '\n'] ++ unlines [(schema.collectionFactory ecs).plain, []]
    ++ schema.collectionConstructorFront ecs

theorem plain_collectionConstructor (ecs : Ecs) (schema : Schema) :
    (schema.collectionConstructor ecs).plain
      =
    schema.collectionConstructorFront ecs
      ++ ((typeArray schema.excluded).plain ++ (")".toList ++ inBraces [])) := by
  have hseparator : ListLayout.plainSeparator {} = ", ".toList := (Script.Spells.single ", ").plain_eq
  have harguments (first second third : List Char) : ListLayout.plain {} [first, second, third]
      = first ++ (", ".toList ++ (second ++ (", ".toList ++ third))) := by
    simp [ListLayout.plain, ListLayout.plain.lineBreakIf, hseparator]
  unfold collectionConstructor collectionConstructorFront
  rw [Node.plain_constructor rfl rfl]
  simp only [Node.plainForwarded, List.map_cons, List.map_nil, harguments, Node.plain_text,
    CallableHead.parameterLayout, Bool.false_eq_true, ↓reduceIte, List.append_assoc,
    List.nil_append]

theorem exists_plain_collection_eq (ecs : Ecs) (schema : Schema) :
    ∃ tail, (schema.collection ecs).plain
      = schema.collectionFront ecs ++ ((typeArray schema.excluded).plain ++ tail) := by
  refine ⟨")".toList ++ (inBraces [] ++ '\n' :: (unlines
    [[], getEnumerator.plain, [], (schema.enumerator ecs).plain] ++ ['}'])), ?_⟩
  have hbraces (elements : List (List Char)) :
      inBraces elements = ['\n', '{', '\n'] ++ (unlines elements ++ ['}']) := by
    simp [inBraces]
  unfold collection collectionFront
  rw [Node.plain_typeDecl, hbraces]
  simp only [keywordIf_false, List.isEmpty_cons, Bool.false_eq_true, ↓reduceIte, Node.plain_text,
    List.map_cons, List.map_nil, unlines_cons, unlines_nil, plain_collectionConstructor, Node.empty,
    String.toList_empty, List.append_assoc, List.cons_append, List.nil_append, List.append_nil]

theorem collectionFront_congr (haccess : schema.access = second.access)
    (hname : schema.collectionName = second.collectionName)
    (htypes : schema.components.map (·.type) = second.components.map (·.type)) :
    schema.collectionFront ecs = second.collectionFront ecs := by
  unfold collectionFront collectionConstructorFront collectionFactory
  rw [haccess, hname, htypes]

-- neither the declared name nor the way components were declared to be handed out matters
structure Agrees (schema second : Schema) : Prop where
  namespaceName : schema.namespaceName = second.namespaceName
  viewName : schema.viewName = second.viewName
  access : schema.access = second.access
  backReference : schema.backReference = second.backReference
  components : schema.components.map Component.declared = second.components.map Component.declared
  excluded : schema.excluded = second.excluded

theorem collection_inj (hfirst : schema.IsReadable ecs) (hsecond : second.IsReadable ecs)
    (haccess : schema.access = second.access)
    (hname : schema.collectionName = second.collectionName)
    (htypes : schema.components.map (·.type) = second.components.map (·.type))
    (h : (schema.collection ecs).plain ++ rest = (second.collection ecs).plain ++ other) :
    schema.excluded = second.excluded := by
  have ⟨tail, htail⟩ := exists_plain_collection_eq ecs schema
  have ⟨tailSecond, htailSecond⟩ := exists_plain_collection_eq ecs second
  rw [htail, htailSecond, collectionFront_congr haccess hname htypes, List.append_assoc,
    List.append_assoc, List.append_assoc, List.append_assoc] at h
  exact (typeArray_inj hfirst.excludedTypes hsecond.excludedTypes (List.append_cancel_left h)).1

def declarations (ecs : Ecs) (schema : Schema) : List Char :=
  unlines [(schema.view ecs).plain, [], (schema.collection ecs).plain]

theorem IsReadable.collectionName_eq (hfirst : schema.IsReadable ecs)
    (hsecond : second.IsReadable ecs) (hview : schema.viewName = second.viewName) :
    schema.collectionName = second.collectionName := by
  rw [hfirst.isDerived.viewName, hsecond.isDerived.viewName, EntityName.view_eq_view_iff] at hview
  rw [hfirst.isDerived.collectionName, hsecond.isDerived.collectionName]
  exact EntityName.collection_eq_collection_iff.mpr hview

theorem declarations_inj (hfirst : schema.IsReadable ecs) (hsecond : second.IsReadable ecs)
    (hnamespace : schema.namespaceName = second.namespaceName)
    (h : schema.declarations ecs = second.declarations ecs) : schema.Agrees second := by
  unfold declarations at h
  rw [unlines_cons (schema.view ecs).plain, unlines_cons (second.view ecs).plain] at h
  have ⟨haccess, hviewName, hback, hcomponents, hrest⟩ := view_inj hfirst hsecond h
  simp only [unlines_cons, List.nil_append, List.cons.injEq, true_and] at hrest
  have htypes : schema.components.map (·.type) = second.components.map (·.type) := by
    have hmap := congrArg (List.map (·.1)) hcomponents
    rw [List.map_map, List.map_map] at hmap
    exact hmap
  have hexcluded := collection_inj hfirst hsecond haccess (hfirst.collectionName_eq hsecond hviewName)
    htypes hrest
  exact ⟨hnamespace, hviewName, haccess, hback, hcomponents, hexcluded⟩

theorem declarations_ne_namespace (ecs : Ecs) (schema : Schema) (other : List Char) :
    schema.declarations ecs ≠ "namespace ".toList ++ other := by
  unfold declarations
  rw [unlines_cons, plain_view_append]
  cases schema.access <;> simp [Access.keyword]

def plainBody (ecs : Ecs) (schema : Schema) : List Char :=
  if schema.namespaceName.isEmpty then
    schema.declarations ecs
  else
    "namespace ".toList ++ (schema.namespaceName.toList ++ '\n' :: (['{', '\n']
      ++ (schema.declarations ecs ++ ['}', '\n'])))

theorem plain_unitTree_append (options : Options) (schema : Schema) :
    (schema.unitTree options).plain ++ ['\n']
      =
    unlines ((preamble options).map Node.plain) ++ schema.plainBody options.ecs := by
  have hempty : Node.empty.plain = [] := Node.plain_text ""
  have hlines (nodes : List Node) (hne : nodes ≠ []) :
      (Node.lines nodes).plain ++ ['\n'] = unlines (nodes.map Node.plain) := by
    unfold Node.lines
    rw [Node.plain_list]
    exact ListLayout.plain_lines_append (by simpa using hne)
  unfold unitTree plainBody
  dsimp only
  split
  . rw [hlines _ (by simp), List.map_append, unlines_append]
    simp only [List.map_cons, List.map_nil, hempty, declarations]
  . rw [hlines _ (by simp), List.map_append, unlines_append]
    unfold Node.namespaceBlock declarations
    rw [List.map_singleton, Node.plain_block]
    simp [hempty, inBraces, toString]

theorem plainBody_inj (hfirst : schema.IsReadable ecs) (hsecond : second.IsReadable ecs)
    (h : schema.plainBody ecs = second.plainBody ecs) : schema.Agrees second := by
  unfold plainBody at h
  by_cases hempty : schema.namespaceName = ""
  . by_cases hemptySecond : second.namespaceName = ""
    . rw [if_pos (by simpa using hempty), if_pos (by simpa using hemptySecond)] at h
      exact declarations_inj hfirst hsecond (hempty.trans hemptySecond.symm) h
    . rw [if_pos (by simpa using hempty), if_neg (by simpa using hemptySecond)] at h
      exact absurd h (declarations_ne_namespace _ _ _)
  . by_cases hemptySecond : second.namespaceName = ""
    . rw [if_neg (by simpa using hempty), if_pos (by simpa using hemptySecond)] at h
      exact absurd h.symm (declarations_ne_namespace _ _ _)
    . rw [if_neg (by simpa using hempty), if_neg (by simpa using hemptySecond)] at h
      have ⟨hnamespace, hrest⟩ := Joined.append_cons_inj (hfirst.namespaceName hempty).lineFeed
        (hsecond.namespaceName hemptySecond).lineFeed (List.append_cancel_left h)
      exact declarations_inj hfirst hsecond (String.toList_inj.mp hnamespace)
        (List.append_cancel_right (List.append_cancel_left hrest))

theorem unitTree_inj {options : Options} (hfirst : schema.IsReadable options.ecs)
    (hsecond : second.IsReadable options.ecs)
    (h : (schema.unitTree options).plain = (second.unitTree options).plain) :
    schema.Agrees second := by
  have happend := congrArg (· ++ ['\n']) h
  rw [plain_unitTree_append, plain_unitTree_append] at happend
  exact plainBody_inj hfirst hsecond (List.append_cancel_left happend)

def essence (schema : Schema) : Schema :=
  { schema with
    declaredName := ""
    components := schema.components.map fun component => { component with isByRef := false } }

theorem view_essence (ecs : Ecs) (schema : Schema) : schema.essence.view ecs = schema.view ecs := by
  simp only [view, essence, viewFields, viewConstructor, viewParameters, viewAssignments, isEmpty,
    List.map_map, List.flatMap_map, List.isEmpty_map]
  rfl

theorem enumerator_essence (ecs : Ecs) (schema : Schema) :
    schema.essence.enumerator ecs = schema.enumerator ecs := by
  simp only [enumerator, essence, enumeratorConstructor, returnView, viewArguments,
    Enumerator.moveNext, Enumerator.bindAccessors, List.map_map]
  rfl

theorem collection_essence (ecs : Ecs) (schema : Schema) :
    schema.essence.collection ecs = schema.collection ecs := by
  unfold collection
  rw [enumerator_essence]
  simp only [collectionConstructor, essence, List.map_map]
  rfl

theorem unitTree_essence (options : Options) (schema : Schema) :
    schema.essence.unitTree options = schema.unitTree options := by
  unfold unitTree
  rw [view_essence]
  rw [collection_essence]
  rfl

variable {options : Options}

theorem Agrees.of_essence_eq (h : schema.essence = second.essence) : schema.Agrees second := by
  simp only [essence, Schema.mk.injEq] at h
  have ⟨hnamespace, _, hview, _, haccess, hback, hcomponents, hexcluded⟩ := h
  refine ⟨hnamespace, hview, haccess, hback, ?_, hexcluded⟩
  have hmap := congrArg (List.map Component.declared) hcomponents
  rw [List.map_map, List.map_map] at hmap
  exact hmap

theorem Agrees.essence_eq (h : schema.Agrees second) (hfirst : schema.IsReadable ecs)
    (hsecond : second.IsReadable ecs) : schema.essence = second.essence := by
  have hnames := hfirst.map_fieldName_eq hsecond (by simpa using congrArg List.length h.components)
  have hcomponents (schema : Schema) :
      schema.components.map (fun component => { component with isByRef := false })
        = List.zipWith (fun (type, kind, propertyName) fieldName =>
              { type, kind, fieldName, propertyName, isByRef := false })
            (schema.components.map Component.declared) (schema.components.map (·.fieldName)) := by
    rw [List.zipWith_map, List.zipWith_self]
    rfl
  unfold essence
  rw [hcomponents, hcomponents, h.namespaceName, h.viewName,
    hfirst.collectionName_eq hsecond h.viewName, h.access, h.backReference, h.components, hnames,
    h.excluded]

end Schema

end EntityViews
