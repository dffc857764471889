import EntityViews.Proofs.Manifest.Validity
import EntityViews.Proofs.Toml.Line

/-!
This module contains manifests that only give names. They have one table for each entity, with its name
and its namespace, and what is read from them are the entities with these names.
-/

namespace EntityViews

open Toml

theorem isPlain_of_isIdentifierPart {c : Char} (h : isIdentifierPart c) : isPlain c := by
  have hrange := toNat_of_isIdentifierPart h
  have hquote : c ≠ '"' := by
    rintro rfl
    cases h
  have hbackslash : c ≠ '\\' := by
    rintro rfl
    cases h
  have hprintable : isPrintable c := by
    simp only [isPrintable, Bool.or_eq_true, Bool.and_eq_true, decide_eq_true_eq, bne_iff_ne]
    omega
  simp [isPlain, hprintable, hquote, hbackslash]

theorem Toml.Table.put_of_lookup_eq_none {origin : Origin} {entries : List (String × Value)}
    {key : String} (h : entries.lookup key = none) (value : Value) :
    Table.put ⟨origin, entries⟩ key value = ⟨origin, entries ++ [(key, value)]⟩ := by
  unfold Table.put
  congr 1
  induction entries with
  | nil => rfl
  | cons entry entries ih =>
    obtain ⟨other, held⟩ := entry
    rw [List.lookup_cons] at h
    cases hkey : key == other with
    | true => simp [hkey] at h
    | false =>
      have hne : other ≠ key := (beq_eq_false_iff_ne.mp hkey).symm
      simp [Table.put.go, hne, ih (by simpa [hkey] using h)]

@[ext]
structure QualifiedName where
  namespaceName : String
  name : String
deriving DecidableEq

namespace QualifiedName

variable {entity : QualifiedName}

def descriptor (entity : QualifiedName) : Descriptor where
  namespaceName := entity.namespaceName
  name := entity.name

def lines (entity : QualifiedName) : List Toml.Line :=
  [.arrayTable "entities", .string "name" entity.name, .string "namespace" entity.namespaceName]

theorem isPlain_name (h : entity.descriptor.IsValid) : ∀ c ∈ entity.name.toList, isPlain c := by
  intro c hc
  exact isPlain_of_isIdentifierPart (h.name.identifier.forall_mem c hc)

theorem isPlain_namespaceName (h : entity.descriptor.IsValid) :
    ∀ c ∈ entity.namespaceName.toList, isPlain c := by
  intro c hc
  rcases h.namespaceName with hempty | hparts
  . simp only [descriptor] at hempty
    simp [hempty] at hc
  . rcases isIdentifierPart_or_eq_dot hparts c hc with hpart | rfl
    . exact isPlain_of_isIdentifierPart hpart
    . rfl

theorem isPlain_of_mem_lines (h : entity.descriptor.IsValid) :
    ∀ line ∈ entity.lines, line.IsPlain := by
  have hentities : IsBareKey "entities".toList := isBareKey_of_all (by decide) (by decide)
  have hname : IsBareKey "name".toList := isBareKey_of_all (by decide) (by decide)
  have hnamespace : IsBareKey "namespace".toList := isBareKey_of_all (by decide) (by decide)
  simp only [lines, List.forall_mem_cons, Toml.Line.IsPlain, List.not_mem_nil, false_implies,
    implies_true, and_true]
  exact ⟨hentities, ⟨hname, isPlain_name h⟩, ⟨hnamespace, isPlain_namespaceName h⟩⟩

def table (entity : QualifiedName) : Value :=
  .table .header [("name", .string entity.name), ("namespace", .string entity.namespaceName)]

theorem entity?_table (entity : QualifiedName) :
    Manifest.entity? entity.table = some entity.descriptor := by
  rfl

end QualifiedName

namespace Manifest

def nameDocument (entities : List QualifiedName) : String :=
  Toml.Line.document (entities.flatMap QualifiedName.lines)

section Reading

def readUpTo (tables : List Value) : Document where
  root := { entries := [("entities", .array true tables)] }
  current := ["entities"]

theorem add_arrayTable (tables : List Value) :
    (readUpTo tables).add (.arrayTable { key := "entities" })
      =
    some (readUpTo (tables ++ [.table .header []])) := by
  rfl

-- the keys behind the header of a table belong to the last table of the array
theorem add_keyValue {entries : List (String × Value)} {key : String}
    (h : entries.lookup key = none) (tables : List Value) (value : Value) :
    (readUpTo (tables ++ [.table .header entries])).add (.keyValue { key } value)
      =
    some (readUpTo (tables ++ [.table .header (entries ++ [(key, value)])])) := by
  have hadd : Table.insert ⟨.header, entries⟩ { key } value
      = some ⟨.header, entries ++ [(key, value)]⟩ := by
    simp [Table.insert, Table.alter, Table.add, Table.get?, h, Table.put_of_lookup_eq_none]
  simp only [Document.add, readUpTo, Table.alter, Table.get?]
  simp [Value.extend, hadd, Value.ofTable, Table.put, Table.put.go]

theorem foldlM_add_lines (entity : QualifiedName) (tables : List Value) :
    (entity.lines.map Toml.Line.expression).foldlM Document.add (readUpTo tables)
      =
    some (readUpTo (tables ++ [entity.table])) := by
  simp only [QualifiedName.lines, List.map_cons, List.map_nil, Toml.Line.expression, List.foldlM_cons,
    add_arrayTable, Option.bind_eq_bind, Option.bind_some]
  rw [add_keyValue rfl, Option.bind_some, add_keyValue rfl]
  rfl

theorem foldlM_add (entities : List QualifiedName) (tables : List Value) :
    ((entities.flatMap QualifiedName.lines).map Toml.Line.expression).foldlM Document.add
        (readUpTo tables)
      =
    some (readUpTo (tables ++ entities.map QualifiedName.table)) := by
  induction entities generalizing tables with
  | nil => simp
  | cons entity entities ih =>
    rw [List.flatMap_cons, List.map_append, List.foldlM_append, foldlM_add_lines]
    simp [ih]

end Reading

variable {entities : List QualifiedName}

theorem isPlain_of_mem_lines (h : ∀ entity ∈ entities, entity.descriptor.IsValid) :
    ∀ line ∈ entities.flatMap QualifiedName.lines, line.IsPlain := by
  rw [List.forall_mem_flatMap]
  exact fun entity hentity => QualifiedName.isPlain_of_mem_lines (h entity hentity)

theorem parse?_nameDocument (h : ∀ entity ∈ entities, entity.descriptor.IsValid)
    (hne : entities ≠ []) :
    Document.parse? (nameDocument entities)
      =
    some { entries := [("entities", .array true (entities.map QualifiedName.table))] } := by
  obtain ⟨entity, entities, rfl⟩ := List.exists_cons_of_ne_nil hne
  unfold nameDocument
  rw [Toml.Line.parse?_document (isPlain_of_mem_lines h)]
  -- the first header adds the array, which is then there for all other lines
  have hfirst : (entity.lines.map Toml.Line.expression).foldlM Document.add {}
      = some (readUpTo [entity.table]) := by
    exact foldlM_add_lines entity []
  rw [List.flatMap_cons, List.map_append, List.foldlM_append, hfirst, Option.bind_eq_bind,
    Option.bind_some, foldlM_add]
  rfl

theorem ofTable?_nameDocument (h : ∀ entity ∈ entities, entity.descriptor.IsValid)
    (hne : entities ≠ []) :
    (Document.parse? (nameDocument entities)).bind ofTable?
      =
    some { entities := entities.map QualifiedName.descriptor } := by
  have htables : (entities.map QualifiedName.table).mapM entity?
      = some (entities.map QualifiedName.descriptor) := by
    clear h hne
    induction entities with
    | nil => rfl
    | cons entity entities ih => simp [List.mapM_cons, QualifiedName.entity?_table, ih]
  rw [parse?_nameDocument h hne, Option.bind_some]
  simp [ofTable?, Value.ofTable, Value.record?, Toml.optional, List.lookup_cons,
    Value.list?, htables]

end Manifest

end EntityViews
