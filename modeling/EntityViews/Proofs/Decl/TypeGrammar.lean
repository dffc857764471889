import Mathlib.Data.List.Chain
import EntityViews.Decl.TypeName
import EntityViews.Proofs.Decl.Name

/-!
This module contains the grammar of type names: identifiers with dots between them, each of which may
have type arguments. In all texts of the grammar, brackets are closed again, there is at most one word
between two separators, and each character may stand behind the one in front of it.
-/

namespace EntityViews

theorem ne_of_isIdentifierPart {c d : Char} (h : isIdentifierPart c)
    (hd : isIdentifierPart d = false) : c ≠ d := by
  rintro rfl
  rw [h] at hd
  cases hd

namespace TypeName

inductive Part where
  | type
  | segment
  | arguments
  | argument

/--
The texts of the parts of a type name, as in the grammar
```
type      ::= segment ('.' segment)*
segment   ::= identifier | identifier '<' arguments '>'
arguments ::= argument (',' argument)*
argument  ::= ' '* type ' '*
```
-/
inductive Derives : Part → List Char → Prop where
  | identifier {name : List Char} (hname : IsIdentifier name) : Derives .segment name
  | generic {name arguments : List Char} (hname : IsIdentifier name)
      (harguments : Derives .arguments arguments) :
      Derives .segment (name ++ '<' :: arguments ++ ['>'])
  | single {segment : List Char} (hsegment : Derives .segment segment) : Derives .type segment
  | dotted {segment type : List Char} (hsegment : Derives .segment segment)
      (htype : Derives .type type) : Derives .type (segment ++ '.' :: type)
  | last {argument : List Char} (hargument : Derives .argument argument) :
      Derives .arguments argument
  | listed {argument arguments : List Char} (hargument : Derives .argument argument)
      (harguments : Derives .arguments arguments) :
      Derives .arguments (argument ++ ',' :: arguments)
  | padded (front back : Nat) {type : List Char} (htype : Derives .type type) :
      Derives .argument (List.replicate front ' ' ++ type ++ List.replicate back ' ')

/--
Whether a character may stand behind another one. There is something behind each separator, where only
a closing bracket has further separators behind it and nothing but those. There is no space next to a
dot or in front of an opening bracket.
-/
def mayFollow (before after : Char) : Bool :=
  match before with
  | '.' => !isSeparator after && after ≠ ' '
  | '<' | ',' => !isSeparator after
  | '>' => after ∈ ['.', '>', ',', ' ']
  | ' ' => after ≠ '.' && after ≠ '<'
  | _ => true

def IsCoherent (text : List Char) : Prop :=
  text.IsChain (mayFollow · ·) ∧ (text.filter (· ≠ ' ')).IsChain (mayFollow · ·)

instance : DecidablePred IsCoherent :=
  fun text =>
    inferInstanceAs (Decidable
      (text.IsChain (mayFollow · ·) ∧ (text.filter (· ≠ ' ')).IsChain (mayFollow · ·)))

def IsSpelled (piece : List Char) : Prop :=
  ∃ front word back, piece = List.replicate front ' ' ++ word ++ List.replicate back ' '
    ∧ (word = [] ∨ IsIdentifier word)

def AllSpelled (text : List Char) : Prop :=
  ∀ piece ∈ text.splitOnP isSeparator, IsSpelled piece

def Part.minDepth : Part → Nat
  | .type | .segment => 0
  | .arguments | .argument => 1

section Characters

variable {depth : Nat} {c : Char}

theorem isSeparator_of_isIdentifierPart (h : isIdentifierPart c) : isSeparator c = false := by
  simp only [isSeparator, List.mem_cons, List.not_mem_nil, or_false, decide_eq_false_iff_not, not_or]
  exact ⟨ne_of_isIdentifierPart h rfl, ne_of_isIdentifierPart h rfl, ne_of_isIdentifierPart h rfl,
    ne_of_isIdentifierPart h rfl⟩

theorem mayFollow_of_isIdentifierPart (h : isIdentifierPart c) (after : Char) :
    mayFollow c after := by
  unfold mayFollow
  split
  all_goals first | rfl | exact absurd rfl (ne_of_isIdentifierPart h rfl)

theorem mayFollow_identifierPart {before : Char} (hbefore : before ≠ '>') (h : isIdentifierPart c) :
    mayFollow before c := by
  have hseparator := isSeparator_of_isIdentifierPart h
  have hspace : c ≠ ' ' := ne_of_isIdentifierPart h rfl
  have hdot : c ≠ '.' := ne_of_isIdentifierPart h rfl
  have hopen : c ≠ '<' := ne_of_isIdentifierPart h rfl
  unfold mayFollow
  split <;> simp_all

theorem checkCharacters_cons_of_not_isSeparator (hc : isSeparator c = false) (text : List Char) :
    checkCharacters depth (c :: text) = .ok ()
      ↔
    (isIdentifierPart c ∨ c = ' ' ∧ 0 < depth) ∧ checkCharacters depth text = .ok () := by
  simp only [isSeparator, List.mem_cons, List.not_mem_nil, or_false, decide_eq_false_iff_not,
    not_or] at hc
  obtain ⟨hdot, hopen, hclose, hcomma⟩ := hc
  rw [checkCharacters]
  . have hallowed : ((0 < depth && (c = ',' || c = ' ')) || c = '.' || isIdentifierPart c)
        ↔ isIdentifierPart c ∨ c = ' ' ∧ 0 < depth := by
      simp [hdot, hcomma, or_comm, and_comm]
    split
    . next h => simp [hallowed.mp h]
    . next h => simp [mt hallowed.mpr h]
  . exact hopen
  . exact hclose

theorem checkCharacters_dot (text : List Char) :
    checkCharacters depth ('.' :: text) = checkCharacters depth text := by
  simp [checkCharacters]

theorem checkCharacters_comma (hdepth : 0 < depth) (text : List Char) :
    checkCharacters depth (',' :: text) = checkCharacters depth text := by
  simp [checkCharacters, hdepth]

theorem checkCharacters_append_of_not_isSeparator {word : List Char}
    (hword : ∀ c ∈ word, isSeparator c = false) (text : List Char) :
    checkCharacters depth (word ++ text) = .ok ()
      ↔
    (∀ c ∈ word, isIdentifierPart c ∨ c = ' ' ∧ 0 < depth) ∧ checkCharacters depth text = .ok () := by
  induction word with
  | nil => simp
  | cons c word ih =>
    rw [List.forall_mem_cons] at hword
    rw [List.cons_append, checkCharacters_cons_of_not_isSeparator hword.1, ih hword.2,
      List.forall_mem_cons, and_assoc]

theorem checkCharacters_append_identifier {name : List Char} (h : IsIdentifier name)
    (text : List Char) :
    checkCharacters depth (name ++ text) = .ok () ↔ checkCharacters depth text = .ok () := by
  rw [checkCharacters_append_of_not_isSeparator]
  . exact and_iff_right fun c hc => .inl (h.forall_mem c hc)
  . exact fun c hc => isSeparator_of_isIdentifierPart (h.forall_mem c hc)

theorem checkCharacters_append_replicate (hdepth : 0 < depth) (count : Nat) (text : List Char) :
    checkCharacters depth (List.replicate count ' ' ++ text) = .ok ()
      ↔
    checkCharacters depth text = .ok () := by
  rw [checkCharacters_append_of_not_isSeparator]
  . exact and_iff_right fun c hc => .inr ⟨List.eq_of_mem_replicate hc, hdepth⟩
  . intro c hc
    rw [List.eq_of_mem_replicate hc]
    rfl

theorem Derives.checkCharacters_append {part : Part} {text : List Char} (h : Derives part text)
    (hdepth : part.minDepth ≤ depth) (rest : List Char) :
    checkCharacters depth (text ++ rest) = .ok () ↔ checkCharacters depth rest = .ok () := by
  induction h generalizing depth rest with
  | identifier hname => exact checkCharacters_append_identifier hname rest
  | generic hname _ ih =>
    simp only [List.append_assoc, List.cons_append, List.nil_append]
    rw [checkCharacters_append_identifier hname, checkCharacters, ih (Nat.le_add_left 1 depth)]
    rfl
  | single _ ih => exact ih hdepth rest
  | dotted _ _ ihSegment ihType =>
    rw [List.append_assoc, ihSegment hdepth, List.cons_append, checkCharacters_dot, ihType hdepth]
  | last _ ih => exact ih hdepth rest
  | listed _ _ ihArgument ihArguments =>
    rw [List.append_assoc, ihArgument hdepth, List.cons_append, checkCharacters_comma hdepth,
      ihArguments hdepth]
  | padded front back _ ih =>
    rw [List.append_assoc, List.append_assoc, checkCharacters_append_replicate hdepth,
      ih (Nat.zero_le depth), checkCharacters_append_replicate hdepth]

end Characters

section Pieces

theorem isSpelled_replicate (count : Nat) : IsSpelled (List.replicate count ' ') := by
  exact ⟨count, [], 0, by simp, .inl rfl⟩

theorem isSpelled_cons_space {piece : List Char} (h : IsSpelled piece) : IsSpelled (' ' :: piece) := by
  obtain ⟨front, word, back, rfl, hword⟩ := h
  exact ⟨front + 1, word, back, rfl, hword⟩

theorem isSpelled_identifier_append {name : List Char} (h : IsIdentifier name) (back : Nat) :
    IsSpelled (name ++ List.replicate back ' ') := by
  exact ⟨0, name, back, rfl, .inr h⟩

theorem allSpelled_of_not_isSeparator {piece : List Char} (h : ∀ c ∈ piece, isSeparator c = false) :
    AllSpelled piece ↔ IsSpelled piece := by
  rw [AllSpelled, List.splitOnP_eq_singleton h, List.forall_mem_singleton]

theorem allSpelled_append_cons {piece : List Char} (h : ∀ c ∈ piece, isSeparator c = false)
    {separator : Char} (hseparator : isSeparator separator) (text : List Char) :
    AllSpelled (piece ++ separator :: text) ↔ IsSpelled piece ∧ AllSpelled text := by
  rw [AllSpelled, List.splitOnP_append_cons_of_forall_mem h separator hseparator,
    List.forall_mem_cons, AllSpelled]

theorem allSpelled_cons {separator : Char} (hseparator : isSeparator separator) (text : List Char) :
    AllSpelled (separator :: text) ↔ AllSpelled text := by
  rw [← List.nil_append (separator :: text), allSpelled_append_cons (by simp) hseparator]
  exact and_iff_right (isSpelled_replicate 0)

theorem AllSpelled.replicate_append {text : List Char} (h : AllSpelled text) (count : Nat) :
    AllSpelled (List.replicate count ' ' ++ text) := by
  induction count with
  | zero => exact h
  | succ count ih =>
    rw [List.replicate_succ, List.cons_append]
    unfold AllSpelled at ih ⊢
    rw [List.splitOnP_cons_eq_if_modifyHead, if_neg (by decide)]
    cases hsplit : (List.replicate count ' ' ++ text).splitOnP isSeparator with
    | nil => exact absurd hsplit (List.splitOnP_ne_nil _ _)
    | cons piece pieces =>
      rw [hsplit, List.forall_mem_cons] at ih
      rw [List.modifyHead_cons, List.forall_mem_cons]
      exact ⟨isSpelled_cons_space ih.1, ih.2⟩

/--
What may stand behind an identifier: spaces up to the next separator, and pieces that are spelled
correctly from there on.
-/
def EndsPiece (text : List Char) : Prop :=
  ∃ back rest, text = List.replicate back ' ' ++ rest
    ∧ (∀ c ∈ rest.head?, isSeparator c)
    ∧ AllSpelled rest

theorem EndsPiece.replicate_append {text : List Char} (h : EndsPiece text) (count : Nat) :
    EndsPiece (List.replicate count ' ' ++ text) := by
  obtain ⟨back, rest, rfl, hrest⟩ := h
  exact ⟨count + back, rest, by rw [List.replicate_add, List.append_assoc], hrest⟩

theorem EndsPiece.allSpelled {text : List Char} (h : EndsPiece text) : AllSpelled text := by
  obtain ⟨back, rest, rfl, _, hrest⟩ := h
  exact hrest.replicate_append back

theorem AllSpelled.endsPiece_cons {text : List Char} (h : AllSpelled text) (separator : Char)
    (hseparator : isSeparator separator) : EndsPiece (separator :: text) := by
  exact ⟨0, separator :: text, rfl, by simpa using hseparator, (allSpelled_cons hseparator text).mpr h⟩

theorem endsPiece_nil : EndsPiece [] := by
  exact ⟨0, [], rfl, by simp, (allSpelled_of_not_isSeparator (by simp)).mpr (isSpelled_replicate 0)⟩

theorem EndsPiece.allSpelled_identifier_append {name text : List Char} (h : EndsPiece text)
    (hname : IsIdentifier name) : AllSpelled (name ++ text) := by
  obtain ⟨back, rest, rfl, hseparator, hrest⟩ := h
  have hpiece : ∀ c ∈ name ++ List.replicate back ' ', isSeparator c = false := by
    intro c hc
    rcases List.mem_append.mp hc with hc | hc
    . exact isSeparator_of_isIdentifierPart (hname.forall_mem c hc)
    . rw [List.eq_of_mem_replicate hc]
      rfl
  rw [← List.append_assoc]
  cases rest with
  | nil =>
    rw [List.append_nil, allSpelled_of_not_isSeparator hpiece]
    exact isSpelled_identifier_append hname back
  | cons separator rest =>
    have hcons : isSeparator separator := hseparator separator rfl
    rw [allSpelled_append_cons hpiece hcons]
    exact ⟨isSpelled_identifier_append hname back, (allSpelled_cons hcons rest).mp hrest⟩

theorem Derives.allSpelled_append {part : Part} {text : List Char} (h : Derives part text)
    {rest : List Char} (hrest : EndsPiece rest) : AllSpelled (text ++ rest) := by
  induction h generalizing rest with
  | identifier hname => exact hrest.allSpelled_identifier_append hname
  | generic hname _ ih =>
    have harguments := ih (hrest.allSpelled.endsPiece_cons '>' rfl)
    have hopen := harguments.endsPiece_cons '<' rfl
    simpa using hopen.allSpelled_identifier_append hname
  | single _ ih => exact ih hrest
  | dotted _ _ ihSegment ihType =>
    have hdot := (ihType hrest).endsPiece_cons '.' rfl
    simpa using ihSegment hdot
  | last _ ih => exact ih hrest
  | listed _ _ ihArgument ihArguments =>
    have hcomma := (ihArguments hrest).endsPiece_cons ',' rfl
    simpa using ihArgument hcomma
  | padded front back _ ih =>
    have hpadded := (ih (hrest.replicate_append back)).replicate_append front
    simpa using hpadded

end Pieces

section Neighbours

variable {part : Part} {text : List Char}

theorem Derives.filter_space (h : Derives part text) : Derives part (text.filter (· ≠ ' ')) := by
  have hidentifier : ∀ {name : List Char}, IsIdentifier name → name.filter (· ≠ ' ') = name := by
    intro name hname
    rw [List.filter_eq_self]
    intro c hc
    exact decide_eq_true (ne_of_isIdentifierPart (hname.forall_mem c hc) rfl)
  induction h with
  | identifier hname =>
    rw [hidentifier hname]
    exact .identifier hname
  | generic hname _ ih =>
    rw [List.filter_append, List.filter_append, hidentifier hname]
    exact .generic hname ih
  | single _ ih => exact .single ih
  | dotted _ _ ihSegment ihType =>
    rw [List.filter_append]
    exact .dotted ihSegment ihType
  | last _ ih => exact .last ih
  | listed _ _ ihArgument ihArguments =>
    rw [List.filter_append]
    exact .listed ihArgument ihArguments
  | padded front back _ ih => simpa using Derives.padded 0 0 ih

theorem Derives.ne_nil (h : Derives part text) : text ≠ [] := by
  induction h with
  | identifier hname =>
    obtain ⟨first, rest, rfl, _⟩ := hname
    exact List.cons_ne_nil first rest
  | single _ ih => exact ih
  | last _ ih => exact ih
  | generic => simp
  | dotted => simp
  | listed => simp
  | padded front back _ ih => simp [ih]

def Part.IsEdge (part : Part) (c : Char) : Prop :=
  isIdentifierPart c ∨ c = ' ' ∧ 0 < part.minDepth

theorem Derives.isEdge_of_mem_head? (h : Derives part text) : ∀ c ∈ text.head?, part.IsEdge c := by
  induction h with
  | identifier hname =>
    intro c hc
    exact .inl (hname.forall_mem c (List.mem_of_mem_head? hc))
  | @generic name arguments hname _ _ =>
    intro c hc
    rw [List.append_assoc, List.head?_append_of_ne_nil _ (Derives.identifier hname).ne_nil] at hc
    exact .inl (hname.forall_mem c (List.mem_of_mem_head? hc))
  | single _ ih => exact ih
  | dotted hsegment _ ih _ =>
    rw [List.head?_append_of_ne_nil _ hsegment.ne_nil]
    exact ih
  | last _ ih => exact ih
  | listed hargument _ ih _ =>
    rw [List.head?_append_of_ne_nil _ hargument.ne_nil]
    exact ih
  | padded front back htype ih =>
    intro c hc
    cases front with
    | zero =>
      rw [List.replicate_zero, List.nil_append, List.head?_append_of_ne_nil _ htype.ne_nil] at hc
      exact (ih c hc).imp_right fun h => absurd h.2 (Nat.lt_irrefl 0)
    | succ front =>
      cases hc
      exact .inr ⟨rfl, Nat.one_pos⟩

theorem Derives.isEdge_of_mem_getLast? (h : Derives part text) :
    ∀ c ∈ text.getLast?, c = '>' ∨ part.IsEdge c := by
  induction h with
  | identifier hname =>
    intro c hc
    exact .inr (.inl (hname.forall_mem c (List.mem_of_mem_getLast? hc)))
  | generic =>
    intro c hc
    rw [List.getLast?_append_of_ne_nil _ (by simp)] at hc
    cases hc
    exact .inl rfl
  | single _ ih => exact ih
  | dotted _ htype _ ih =>
    rw [List.getLast?_append_of_ne_nil _ (by simp), List.getLast?_cons_of_ne_nil htype.ne_nil]
    exact ih
  | last _ ih => exact ih
  | listed _ harguments _ ih =>
    rw [List.getLast?_append_of_ne_nil _ (by simp), List.getLast?_cons_of_ne_nil harguments.ne_nil]
    exact ih
  | padded front back htype ih =>
    intro c hc
    cases back with
    | zero =>
      rw [List.replicate_zero, List.append_nil, List.getLast?_append_of_ne_nil _ htype.ne_nil] at hc
      exact (ih c hc).imp_right fun h => h.imp_right fun h => absurd h.2 (Nat.lt_irrefl 0)
    | succ back =>
      rw [List.getLast?_append_of_ne_nil _ (by simp), List.getLast?_replicate, if_neg (by simp)] at hc
      cases hc
      exact .inr (.inr ⟨rfl, Nat.one_pos⟩)

theorem mayFollow_space_iff {after : Char} : mayFollow ' ' after ↔ after ≠ '.' ∧ after ≠ '<' := by
  simp [mayFollow]

-- a part may begin behind each separator in front of it
theorem Part.IsEdge.mayFollow {before c : Char} (h : part.IsEdge c) (hbefore : before ≠ '>')
    (hdot : before = '.' → part.minDepth = 0) : mayFollow before c := by
  rcases h with hpart | ⟨rfl, hdepth⟩
  . exact mayFollow_identifierPart hbefore hpart
  . unfold TypeName.mayFollow
    split <;> simp_all [isSeparator]

theorem mayFollow_of_isEdge {c after : Char} (h : c = '>' ∨ part.IsEdge c)
    (hafter : after ∈ ['.', '>', ',', ' ']) (hdot : after = '.' → part.minDepth = 0) :
    mayFollow c after := by
  rcases h with rfl | hpart | ⟨rfl, hdepth⟩
  . exact decide_eq_true hafter
  . exact mayFollow_of_isIdentifierPart hpart after
  . rw [mayFollow_space_iff]
    refine ⟨fun heq => ?_, ?_⟩
    . exact absurd (hdot heq) (Nat.ne_of_gt hdepth)
    . rintro rfl
      exact absurd hafter (by decide)

theorem isChain_identifier_append {name rest : List Char} (hname : IsIdentifier name)
    (hrest : rest.IsChain (mayFollow · ·)) : (name ++ rest).IsChain (mayFollow · ·) := by
  have hpart := hname.forall_mem
  clear hname
  induction name with
  | nil => exact hrest
  | cons c name ih =>
    rw [List.forall_mem_cons] at hpart
    rw [List.cons_append, List.isChain_cons]
    exact ⟨fun after _ => mayFollow_of_isIdentifierPart hpart.1 after, ih hpart.2⟩

theorem Derives.isChain (h : Derives part text) : text.IsChain (mayFollow · ·) := by
  induction h with
  | identifier hname => simpa using isChain_identifier_append hname .nil
  | @generic name arguments hname harguments ih =>
    have hclose : (arguments ++ ['>']).IsChain (mayFollow · ·) := by
      refine ih.append (.singleton '>') ?_
      rintro c hc _ ⟨⟩
      exact mayFollow_of_isEdge (harguments.isEdge_of_mem_getLast? c hc) (by decide) (by decide)
    rw [List.append_assoc, List.cons_append]
    refine isChain_identifier_append hname (List.isChain_cons.mpr ⟨?_, hclose⟩)
    intro c hc
    rw [List.head?_append_of_ne_nil _ harguments.ne_nil] at hc
    exact (harguments.isEdge_of_mem_head? c hc).mayFollow (by decide) (by decide)
  | single _ ih => exact ih
  | dotted hsegment htype ihSegment ihType =>
    refine ihSegment.append (List.isChain_cons.mpr ⟨?_, ihType⟩) ?_
    . intro c hc
      exact (htype.isEdge_of_mem_head? c hc).mayFollow (by decide) (fun _ => rfl)
    . rintro c hc _ ⟨⟩
      exact mayFollow_of_isEdge (hsegment.isEdge_of_mem_getLast? c hc) (by decide) (fun _ => rfl)
  | last _ ih => exact ih
  | listed hargument harguments ihArgument ihArguments =>
    refine ihArgument.append (List.isChain_cons.mpr ⟨?_, ihArguments⟩) ?_
    . intro c hc
      exact (harguments.isEdge_of_mem_head? c hc).mayFollow (by decide) (by decide)
    . rintro c hc _ ⟨⟩
      exact mayFollow_of_isEdge (hargument.isEdge_of_mem_getLast? c hc) (by decide) (by decide)
  | @padded front back type htype ih =>
    have hback : (type ++ List.replicate back ' ').IsChain (mayFollow · ·) := by
      refine ih.append (List.isChain_replicate_of_rel back rfl) ?_
      intro c hc after hafter
      rw [List.eq_of_mem_replicate (List.mem_of_mem_head? hafter)]
      exact mayFollow_of_isEdge (htype.isEdge_of_mem_getLast? c hc) (by decide) (by decide)
    rw [List.append_assoc]
    refine .append (List.isChain_replicate_of_rel front rfl) hback ?_
    intro before hbefore c hc
    rw [List.eq_of_mem_replicate (List.mem_of_mem_getLast? hbefore)]
    rw [List.head?_append_of_ne_nil _ htype.ne_nil] at hc
    exact (htype.isEdge_of_mem_head? c hc).mayFollow (by decide) (by decide)

theorem Derives.isCoherent (h : Derives .type text) : IsCoherent ('.' :: text) := by
  have hchain : ∀ {text}, Derives .type text → ('.' :: text).IsChain (mayFollow · ·) := by
    intro text h
    rw [List.isChain_cons]
    refine ⟨?_, h.isChain⟩
    intro c hc
    exact (h.isEdge_of_mem_head? c hc).mayFollow (by decide) (fun _ => rfl)
  exact ⟨hchain h, hchain h.filter_space⟩

example : IsCoherent ".Game.Buffer<int, Game.Item>".toList := by decide

end Neighbours

end TypeName

end EntityViews
