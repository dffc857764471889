import EntityViews.Decl.Access
import EntityViews.Decl.Identifier
import EntityViews.Entity.Name
import EntityViews.Proofs.Text.Joined
import EntityViews.Proofs.Text.Words

/-!
This module contains what the checks on names mean: which texts are names, why others are not, and
which texts spell an access level.
-/

namespace EntityViews

def IsIdentifier (name : List Char) : Prop :=
  ∃ first rest, name = first :: rest
    ∧ isIdentifierStart first
    ∧ ∀ c ∈ rest, isIdentifierPart c

structure IsName (name : String) : Prop where
  identifier : IsIdentifier name.toList
  notReserved : name ∉ reservedWords

def NameFault.ofIdentifier : List Char → NameFault
  | [] => .empty
  | first :: _ => if isIdentifierStart first then .badCharacter else .badStart

def NameFault.ofSegment (part : List Char) : NameFault :=
  if isReserved (String.ofList part) then .reservedSegment else .ofIdentifier part

theorem checkIdentifier_of_isIdentifier {name : List Char} (h : IsIdentifier name) :
    checkIdentifier name = .ok () := by
  have ⟨first, rest, hname, hfirst, hrest⟩ := h
  have hall : rest.all isIdentifierPart = true := List.all_eq_true.mpr hrest
  rw [hname]
  simp [checkIdentifier, hfirst, hall]

theorem checkIdentifier_of_not_isIdentifier {name : List Char} (h : ¬ IsIdentifier name) :
    checkIdentifier name = .error (.ofIdentifier name) := by
  cases name with
  | nil => rfl
  | cons first rest =>
    unfold checkIdentifier NameFault.ofIdentifier
    cases hfirst : isIdentifierStart first with
    | false => simp [hfirst]
    | true =>
      have hrest : rest.all isIdentifierPart = false := by
        rw [← Bool.not_eq_true]
        intro hall
        apply h
        exact ⟨first, rest, rfl, hfirst, by simpa using hall⟩
      simp [hfirst, hrest]

theorem isName_iff {name : String} :
    IsName name ↔ isReserved name = false ∧ IsIdentifier name.toList := by
  constructor
  . intro h
    exact ⟨by simpa [isReserved] using h.notReserved, h.identifier⟩
  . intro h
    exact ⟨h.2, by simpa [isReserved] using h.1⟩

theorem checkNamespacePart_of_isName {part : List Char} (h : IsName (String.ofList part)) :
    checkNamespacePart part = .ok () := by
  rw [isName_iff] at h
  rw [String.toList_ofList] at h
  unfold checkNamespacePart
  rw [h.1]
  exact checkIdentifier_of_isIdentifier h.2

theorem checkNamespacePart_of_not_isName {part : List Char} (h : ¬ IsName (String.ofList part)) :
    checkNamespacePart part = .error (.ofSegment part) := by
  rw [isName_iff] at h
  rw [String.toList_ofList] at h
  unfold checkNamespacePart NameFault.ofSegment
  cases hreserved : isReserved (String.ofList part) with
  | true => rfl
  | false =>
    have hidentifier : ¬ IsIdentifier part := fun hidentifier => h ⟨hreserved, hidentifier⟩
    exact checkIdentifier_of_not_isIdentifier hidentifier

theorem isIdentifierPart_of_isIdentifierStart {c : Char} (h : isIdentifierStart c) :
    isIdentifierPart c := by
  simp only [isIdentifierStart, isIdentifierPart, Char.isAlphanum, Bool.or_eq_true] at *
  rcases h with h | h
  . exact .inl (.inl h)
  . exact .inr h

theorem IsIdentifier.forall_mem {name : List Char} (h : IsIdentifier name) :
    ∀ c ∈ name, isIdentifierPart c := by
  have ⟨first, rest, hname, hfirst, hrest⟩ := h
  rw [hname]
  rw [List.forall_mem_cons]
  exact ⟨isIdentifierPart_of_isIdentifierStart hfirst, hrest⟩

theorem IsIdentifier.notMem {name : List Char} (h : IsIdentifier name) {c : Char}
    (hc : isIdentifierPart c = false) : c ∉ name := by
  intro hmem
  rw [h.forall_mem c hmem] at hc
  cases hc

theorem toNat_of_isIdentifierPart {c : Char} (h : isIdentifierPart c) :
    48 ≤ c.toNat ∧ c.toNat ≤ 122 := by
  unfold isIdentifierPart at h
  delta Char.isAlphanum Char.isAlpha Char.isUpper Char.isLower Char.isDigit at h
  simp only [UInt32.le_iff_toNat_le, Bool.or_eq_true, Bool.and_eq_true, decide_eq_true_eq] at h
  rcases h with hrange | hunderscore
  . simp at hrange
    omega
  . rw [hunderscore]
    decide

theorem isBlank_of_isIdentifierPart {c : Char} (h : isIdentifierPart c) : isBlank c = false := by
  have hrange := toNat_of_isIdentifierPart h
  simp [isBlank, blankRanges]
  omega

theorem IsName.notMem_dot {name : String} (h : IsName name) : '.' ∉ name.toList := by
  exact h.identifier.notMem (by decide)

theorem IsName.trim_eq {name : String} (h : IsName name) : Text.trim name = name := by
  apply Text.trim_eq_self
  intro c hc
  exact isBlank_of_isIdentifierPart (h.identifier.forall_mem c hc)

theorem IsName.ne_empty {name : String} (h : IsName name) : name ≠ "" := by
  intro hempty
  have ⟨first, rest, hname, _⟩ := h.identifier
  simp [hempty] at hname

theorem isIdentifierPart_or_eq_dot {name : String}
    (h : ∀ part ∈ dottedParts name, IsName (.ofList part)) :
    ∀ c ∈ name.toList, isIdentifierPart c ∨ c = '.' := by
  have hparts : ['.'].intercalate (dottedParts name) = name.toList := List.intercalate_splitOn '.'
  rw [← hparts]
  refine Joined.intercalate_induction (List.splitOnP_ne_nil _ _) ?_ ?_
  . intro first second hfirst hsecond
    simp only [List.forall_mem_append, List.forall_mem_singleton]
    exact ⟨⟨hfirst, .inr trivial⟩, hsecond⟩
  . intro part hpart c hc
    have hidentifier := (h part hpart).identifier
    rw [String.toList_ofList] at hidentifier
    exact .inl (hidentifier.forall_mem c hc)

theorem append_cons_inj_of_notMem {α : Type} {a : α} {first second name other : List α}
    (hname : a ∉ name) (hother : a ∉ other) (h : first ++ a :: name = second ++ a :: other) :
    first = second ∧ name = other := by
  rw [List.append_eq_append_iff] at h
  rcases h with ⟨between, hsecond, hrest⟩ | ⟨between, hfirst, hrest⟩
  . cases between with
    | nil => simpa [eq_comm] using And.intro hsecond hrest
    | cons b between =>
      rw [List.cons_append, List.cons.injEq] at hrest
      simp [hrest.2] at hname
  . cases between with
    | nil => simpa [eq_comm] using And.intro hfirst hrest
    | cons b between =>
      rw [List.cons_append, List.cons.injEq] at hrest
      simp [hrest.2] at hother

theorem toList_qualify {namespaceName : String} (h : namespaceName ≠ "") (name : String) :
    (qualify namespaceName name).toList = namespaceName.toList ++ '.' :: name.toList := by
  unfold qualify
  rw [if_neg (by simpa using h)]
  simp [toString]

-- the last dot is the one between the namespace and the name
theorem qualify_inj {first second name other : String} (hname : '.' ∉ name.toList)
    (hother : '.' ∉ other.toList) :
    qualify first name = qualify second other ↔ first = second ∧ name = other := by
  constructor
  . intro h
    by_cases hfirst : first = ""
    . by_cases hsecond : second = ""
      . simpa [qualify, hfirst, hsecond] using h
      . have hlist := toList_qualify hsecond other
        rw [← h] at hlist
        simp [qualify, hfirst] at hlist
        simp [hlist] at hname
    . by_cases hsecond : second = ""
      . have hlist := toList_qualify hfirst name
        rw [h] at hlist
        simp [qualify, hsecond] at hlist
        simp [hlist] at hother
      . have hlist := toList_qualify hfirst name
        rw [h] at hlist
        rw [toList_qualify hsecond] at hlist
        have ⟨heq, hrest⟩ := append_cons_inj_of_notMem hother hname hlist
        exact ⟨String.toList_inj.mp heq.symm, String.toList_inj.mp hrest.symm⟩
  . rintro ⟨rfl, rfl⟩
    rfl

namespace Access

theorem isSome_ofText?_iff {text : String} :
    (ofText? text).isSome ↔ ∃ access : Access, Text.words text = Text.words access.keyword := by
  unfold ofText?
  rw [List.find?_isSome]
  constructor
  . rintro ⟨access, _, hkeyword⟩
    rw [beq_iff_eq] at hkeyword
    refine ⟨access, ?_⟩
    rw [hkeyword]
    rw [Text.words_intercalate]
    intro word hword
    exact Text.isWord_of_mem_words hword
  . rintro ⟨access, hwords⟩
    refine ⟨access, by cases access <;> decide, ?_⟩
    rw [hwords]
    cases access <;> decide

end Access

end EntityViews
