import EntityViews.Proofs.Decl.TypeGrammar
import EntityViews.Proofs.Decl.TypeName

/-!
This module contains which type names are accepted. All names of the grammar are, and an accepted name
is one of the grammar if and only if it is coherent. The check looks at the words between separators
regardless of where they stand, so it does not notice words that are missing or have spaces in between.

The names of the grammar are found from left to right: behind an identifier stands a list of arguments,
another segment or what follows a type, and so on, each time with less text left.
-/

namespace EntityViews

namespace TypeName

-- the rest of an accepted name behind the separator `before`, within `depth` angle brackets
structure Fits (depth : Nat) (before : Char) (text : List Char) : Prop where
  characters : checkCharacters depth text = .ok ()
  allSpelled : AllSpelled text
  isCoherent : IsCoherent (before :: text)
  last_ne_dot : (before :: text).getLast? ≠ some '.'

inductive Remains : Nat → List Char → Prop where
  | nothing : Remains 0 []
  | dot {depth : Nat} {text : List Char} (h : Fits depth '.' text) : Remains depth ('.' :: text)
  | opening {depth : Nat} {text : List Char} (h : Fits (depth + 1) '<' text) :
      Remains depth ('<' :: text)
  | closing {depth : Nat} {text : List Char} (h : Fits depth '>' text) :
      Remains (depth + 1) ('>' :: text)
  | comma {depth : Nat} {text : List Char} (h : Fits (depth + 1) ',' text) :
      Remains (depth + 1) (',' :: text)

inductive FollowsType : Nat → List Char → Prop where
  | nothing : FollowsType 0 []
  | closing {depth : Nat} {text : List Char} (back : Nat) (h : Fits depth '>' text) :
      FollowsType (depth + 1) (List.replicate back ' ' ++ '>' :: text)
  | comma {depth : Nat} {text : List Char} (back : Nat) (h : Fits (depth + 1) ',' text) :
      FollowsType (depth + 1) (List.replicate back ' ' ++ ',' :: text)

inductive FollowsSegment : Nat → List Char → Prop where
  | dot {depth : Nat} {text : List Char} (h : Fits depth '.' text) :
      FollowsSegment depth ('.' :: text)
  | type {depth : Nat} {text : List Char} (h : FollowsType depth text) : FollowsSegment depth text

inductive FollowsName : Nat → List Char → Prop where
  | opening {depth : Nat} {text : List Char} (h : Fits (depth + 1) '<' text) :
      FollowsName depth ('<' :: text)
  | segment {depth : Nat} {text : List Char} (h : FollowsSegment depth text) :
      FollowsName depth text

section Pieces

variable {depth : Nat} {before : Char} {text : List Char}

theorem IsCoherent.right_of_append (first : List Char) {second : List Char}
    (h : IsCoherent (first ++ second)) : IsCoherent second := by
  unfold IsCoherent at h
  rw [List.filter_append] at h
  exact ⟨h.1.right_of_append, h.2.right_of_append⟩

theorem exists_piece (text : List Char) :
    ∃ piece rest, text = piece ++ rest
      ∧ (∀ c ∈ piece, isSeparator c = false)
      ∧ ∀ c ∈ rest.head?, isSeparator c := by
  refine ⟨text.takeWhile (!isSeparator ·), text.dropWhile (!isSeparator ·), ?_, ?_, ?_⟩
  . exact List.takeWhile_append_dropWhile.symm
  . intro c hc
    simpa using List.mem_takeWhile_imp hc
  . intro c hc
    have hhead := List.head?_dropWhile_not (!isSeparator ·) text
    rw [hc] at hhead
    simpa using hhead

theorem Fits.of_append_cons {separator : Char} {piece rest : List Char} {inner : Nat}
    (h : Fits depth before (piece ++ separator :: rest))
    (hpiece : ∀ c ∈ piece, isSeparator c = false) (hseparator : isSeparator separator)
    (hcharacters : checkCharacters inner rest = .ok ()) : Fits inner separator rest where
  characters := hcharacters
  allSpelled := ((allSpelled_append_cons hpiece hseparator rest).mp h.allSpelled).2
  isCoherent := IsCoherent.right_of_append (before :: piece) h.isCoherent
  last_ne_dot := by
    have hlast := h.last_ne_dot
    rw [← List.cons_append, List.getLast?_append_of_ne_nil _ (by simp)] at hlast
    exact hlast

theorem Fits.exists_piece (h : Fits depth before text) :
    ∃ piece rest, text = piece ++ rest
      ∧ IsSpelled piece
      ∧ (∀ c ∈ piece, isIdentifierPart c ∨ c = ' ' ∧ 0 < depth)
      ∧ Remains depth rest := by
  obtain ⟨piece, rest, rfl, hpiece, hseparator⟩ := TypeName.exists_piece text
  have ⟨hpieceCharacters, hcharacters⟩ :=
    (checkCharacters_append_of_not_isSeparator hpiece rest).mp h.characters
  cases rest with
  | nil =>
    have hspelled := h.allSpelled
    rw [List.append_nil, allSpelled_of_not_isSeparator hpiece] at hspelled
    refine ⟨piece, [], rfl, hspelled, hpieceCharacters, ?_⟩
    cases depth with
    | zero => exact .nothing
    | succ depth => cases hcharacters
  | cons separator rest =>
    have hcons : isSeparator separator := hseparator separator rfl
    have hspelled := ((allSpelled_append_cons hpiece hcons rest).mp h.allSpelled).1
    refine ⟨piece, separator :: rest, rfl, hspelled, hpieceCharacters, ?_⟩
    have hfits : ∀ inner, checkCharacters inner rest = .ok () → Fits inner separator rest :=
      fun inner hinner => h.of_append_cons hpiece hcons hinner
    simp only [isSeparator, List.mem_cons, List.not_mem_nil, or_false, decide_eq_true_eq] at hcons
    rcases hcons with rfl | rfl | rfl | rfl
    . rw [checkCharacters_dot] at hcharacters
      exact .dot (hfits depth hcharacters)
    . exact .opening (hfits (depth + 1) hcharacters)
    . cases depth with
      | zero => cases hcharacters
      | succ depth => exact .closing (hfits depth hcharacters)
    . cases depth with
      | zero => cases hcharacters
      | succ depth =>
        rw [checkCharacters_comma (Nat.succ_pos depth)] at hcharacters
        exact .comma (hfits (depth + 1) hcharacters)

theorem Remains.eq_nil_or_cons {rest : List Char} (h : Remains depth rest) :
    (depth = 0 ∧ rest = [])
      ∨ ∃ separator later, rest = separator :: later ∧ isSeparator separator ∧ AllSpelled later := by
  cases h with
  | nothing => exact .inl ⟨rfl, rfl⟩
  | dot h => exact .inr ⟨_, _, rfl, rfl, h.allSpelled⟩
  | opening h => exact .inr ⟨_, _, rfl, rfl, h.allSpelled⟩
  | closing h => exact .inr ⟨_, _, rfl, rfl, h.allSpelled⟩
  | comma h => exact .inr ⟨_, _, rfl, rfl, h.allSpelled⟩

theorem Remains.endsPiece {rest : List Char} (h : Remains depth rest) (back : Nat) :
    EndsPiece (List.replicate back ' ' ++ rest) := by
  apply EndsPiece.replicate_append
  rcases h.eq_nil_or_cons with ⟨_, rfl⟩ | ⟨separator, later, rfl, hseparator, hlater⟩
  . exact endsPiece_nil
  . exact hlater.endsPiece_cons separator hseparator

theorem Remains.followsName {rest : List Char} (h : Remains depth rest) {back : Nat}
    (hchain : (List.replicate back ' ' ++ rest).IsChain (mayFollow · ·))
    (hdepth : 0 < back → 0 < depth) : FollowsName depth (List.replicate back ' ' ++ rest) := by
  have hspace : 0 < back → ∀ c ∈ rest.head?, c ≠ '.' ∧ c ≠ '<' := by
    intro hback c hc
    rw [List.isChain_append] at hchain
    apply mayFollow_space_iff.mp
    exact hchain.2.2 ' ' (by simp [List.getLast?_replicate, Nat.ne_of_gt hback]) c hc
  cases h with
  | nothing =>
    cases back with
    | zero => exact .segment (.type .nothing)
    | succ back => exact absurd (hdepth (Nat.succ_pos back)) (Nat.lt_irrefl 0)
  | dot h =>
    cases back with
    | zero => exact .segment (.dot h)
    | succ back => exact absurd rfl (hspace (Nat.succ_pos back) '.' rfl).1
  | opening h =>
    cases back with
    | zero => exact .opening h
    | succ back => exact absurd rfl (hspace (Nat.succ_pos back) '<' rfl).2
  | closing h => exact .segment (.type (.closing back h))
  | comma h => exact .segment (.type (.comma back h))

theorem IsCoherent.mayFollow {after : Char} {count : Nat}
    (h : IsCoherent (before :: (List.replicate count ' ' ++ after :: text))) (hbefore : before ≠ ' ')
    (hafter : after ≠ ' ') : mayFollow before after := by
  have hvisible := h.2
  rw [List.filter_cons_of_pos (by simpa using hbefore), List.filter_append,
    List.filter_cons_of_pos (by simpa using hafter)] at hvisible
  simp only [ne_eq, decide_not, List.filter_replicate, decide_true, Bool.not_true, Bool.false_eq_true,
    if_false, List.nil_append, List.isChain_cons_cons] at hvisible
  exact hvisible.1

theorem pos_of_space_mem {piece : List Char}
    (hpiece : ∀ c ∈ piece, isIdentifierPart c ∨ c = ' ' ∧ 0 < depth) (hmem : ' ' ∈ piece) :
    0 < depth := by
  rcases hpiece ' ' hmem with hpart | hspace
  . exact absurd hpart (by decide)
  . exact hspace.2

theorem IsCoherent.dot_cons {c : Char} (h : IsCoherent (c :: text)) (hc : isIdentifierPart c) :
    IsCoherent ('.' :: c :: text) := by
  have hfollow : TypeName.mayFollow '.' c := mayFollow_identifierPart (by decide) hc
  have hspace : c ≠ ' ' := ne_of_isIdentifierPart hc rfl
  refine ⟨List.isChain_cons_cons.mpr ⟨hfollow, h.1⟩, ?_⟩
  have hvisible := h.2
  rw [List.filter_cons_of_pos (by simpa using hspace)] at hvisible
  rw [List.filter_cons_of_pos (by decide), List.filter_cons_of_pos (by simpa using hspace)]
  exact List.isChain_cons_cons.mpr ⟨hfollow, hvisible⟩

theorem Fits.exists_name (h : Fits depth '.' text) :
    ∃ name rest, text = name ++ rest ∧ IsIdentifier name ∧ FollowsName depth rest := by
  obtain ⟨piece, rest, rfl, ⟨front, word, back, rfl, hword⟩, hpiece, hremains⟩ := h.exists_piece
  have ⟨hfirst, hchain⟩ := List.isChain_cons.mp h.isCoherent.1
  cases front with
  | succ front => exact absurd (hfirst ' ' rfl) (by decide)
  | zero =>
    rw [List.replicate_zero, List.nil_append] at *
    have hname : IsIdentifier word := by
      refine hword.resolve_left ?_
      rintro rfl
      cases back with
      | succ back => exact absurd (hfirst ' ' rfl) (by decide)
      | zero =>
        rcases hremains.eq_nil_or_cons with ⟨_, rfl⟩ | ⟨separator, later, rfl, hseparator, _⟩
        . exact absurd rfl h.last_ne_dot
        . have hdot := hfirst separator rfl
          simp [mayFollow, hseparator] at hdot
    refine ⟨word, List.replicate back ' ' ++ rest, List.append_assoc _ _ _, hname, ?_⟩
    rw [List.append_assoc] at hchain
    refine hremains.followsName hchain.right_of_append fun hback => ?_
    exact pos_of_space_mem hpiece (by simp [Nat.ne_of_gt hback])

theorem Fits.followsSegment (h : Fits depth '>' text) : FollowsSegment depth text := by
  obtain ⟨piece, rest, rfl, ⟨front, word, back, rfl, hword⟩, hpiece, hremains⟩ := h.exists_piece
  rcases hword with rfl | hname
  . rw [List.append_nil, ← List.replicate_add] at *
    have hchain := (List.isChain_cons.mp h.isCoherent.1).2
    have hfollows := hremains.followsName hchain fun hspaces =>
      pos_of_space_mem hpiece (by simpa using Nat.ne_of_gt hspaces)
    have hcoherent := h.isCoherent
    generalize List.replicate (front + back) ' ' ++ rest = text at hfollows hcoherent
    cases hfollows with
    | opening _ => exact absurd (List.isChain_cons_cons.mp hcoherent.1).1 (by decide)
    | segment hsegment => exact hsegment
  -- an identifier behind a closing bracket is incoherent
  . obtain ⟨first, later, rfl, hfirst, _⟩ := hname
    have hpart := isIdentifierPart_of_isIdentifierStart hfirst
    have hcoherent := h.isCoherent
    simp only [List.append_assoc, List.cons_append] at hcoherent
    have hfollow := hcoherent.mayFollow (by decide) (ne_of_isIdentifierPart hpart rfl)
    have hmem : first ∈ ['.', '>', ',', ' '] := of_decide_eq_true hfollow
    simp only [List.mem_cons, List.not_mem_nil, or_false] at hmem
    rcases hmem with rfl | rfl | rfl | rfl
    all_goals exact absurd hpart (by decide)

theorem Fits.exists_padding (h : Fits depth before text) (hbefore : before ∈ ['<', ','])
    (hdepth : 0 < depth) :
    ∃ front rest, text = List.replicate front ' ' ++ rest ∧ Fits depth '.' rest := by
  obtain ⟨piece, rest, rfl, ⟨front, word, back, rfl, hword⟩, hpiece, hremains⟩ := h.exists_piece
  have hcharacters := h.characters
  have hcoherent := h.isCoherent
  have hlast := h.last_ne_dot
  simp only [List.append_assoc] at hcharacters hcoherent hlast
  have hname : IsIdentifier word := by
    refine hword.resolve_left ?_
    rintro rfl
    rcases hremains.eq_nil_or_cons with ⟨rfl, _⟩ | ⟨separator, later, rfl, hseparator, _⟩
    . exact absurd hdepth (Nat.lt_irrefl 0)
    . rw [List.nil_append, ← List.append_assoc, ← List.replicate_add] at hcoherent
      have hfollow := hcoherent.mayFollow
        (by rintro rfl; exact absurd hbefore (by decide))
        (by rintro rfl; exact absurd hseparator (by decide))
      simp only [List.mem_cons, List.not_mem_nil, or_false] at hbefore
      rcases hbefore with rfl | rfl
      all_goals simp [TypeName.mayFollow, hseparator] at hfollow
  obtain ⟨first, name, rfl, hfirst, hname'⟩ := id hname
  refine ⟨front, first :: name ++ (List.replicate back ' ' ++ rest), by simp, ?_, ?_, ?_, ?_⟩
  . exact (checkCharacters_append_replicate hdepth front _).mp hcharacters
  . exact (hremains.endsPiece back).allSpelled_identifier_append hname
  . rw [← List.cons_append] at hcoherent
    exact (hcoherent.right_of_append _).dot_cons (isIdentifierPart_of_isIdentifierStart hfirst)
  . rw [← List.cons_append, List.getLast?_append_of_ne_nil _ (by simp)] at hlast
    rw [List.getLast?_cons_of_ne_nil (by simp)]
    exact hlast

end Pieces

section Grammar

variable {depth : Nat} {text : List Char}

def StartsType (depth : Nat) (text : List Char) : Prop :=
  ∃ type rest, text = type ++ rest ∧ Derives .type type ∧ FollowsType depth rest

def StartsArguments (depth : Nat) (text : List Char) : Prop :=
  ∃ arguments rest, text = arguments ++ '>' :: rest
    ∧ Derives .arguments arguments
    ∧ Fits depth '>' rest

-- the texts of arguments are no longer than `bound`, so that it is known of them where types start
theorem Fits.startsArguments {bound : Nat}
    (htype : ∀ depth text, text.length ≤ bound → Fits depth '.' text → StartsType depth text)
    {before : Char} (h : Fits (depth + 1) before text) (hbefore : before ∈ ['<', ','])
    (hbound : text.length ≤ bound) : StartsArguments depth text := by
  induction hlength : text.length using Nat.strong_induction_on generalizing before text with
  | _ length ih =>
    obtain ⟨front, padded, rfl, hpadded⟩ := h.exists_padding hbefore (Nat.succ_pos depth)
    rw [List.length_append] at hbound hlength
    obtain ⟨type, rest, rfl, htypeDerives, hfollows⟩ := htype _ padded (by omega) hpadded
    rw [List.length_append] at hbound hlength
    cases hfollows with
    | @closing _ rest back hrest =>
      refine ⟨_, rest, ?_, .last (.padded front back htypeDerives), hrest⟩
      simp
    | @comma _ rest back hrest =>
      simp only [List.length_append, List.length_cons] at hbound hlength
      obtain ⟨arguments, later, rfl, harguments, hlater⟩ :=
        ih rest.length (by omega) hrest (by simp) (by omega) rfl
      refine ⟨_, later, ?_, .listed (.padded front back htypeDerives) harguments, hlater⟩
      simp

theorem FollowsSegment.startsType {segment rest : List Char} (h : FollowsSegment depth rest)
    (hsegment : Derives .segment segment)
    (htype : ∀ later, later.length < rest.length → Fits depth '.' later → StartsType depth later) :
    StartsType depth (segment ++ rest) := by
  cases h with
  | @dot later hlater =>
    obtain ⟨type, rest, rfl, htypeDerives, hfollows⟩ := htype later (by simp) hlater
    exact ⟨segment ++ '.' :: type, rest, by simp, .dotted hsegment htypeDerives, hfollows⟩
  | type hfollows => exact ⟨segment, rest, rfl, .single hsegment, hfollows⟩

theorem Fits.startsType (h : Fits depth '.' text) : StartsType depth text := by
  induction hlength : text.length using Nat.strong_induction_on generalizing depth text with
  | _ length ih =>
    obtain ⟨name, rest, rfl, hname, hfollows⟩ := h.exists_name
    rw [List.length_append] at hlength
    cases hfollows with
    | segment hsegment =>
      have hpos := List.length_pos_of_ne_nil (Derives.identifier hname).ne_nil
      refine hsegment.startsType (.identifier hname) ?_
      intro later hlater hfits
      exact ih later.length (by omega) hfits rfl
    | @opening rest hfits =>
      rw [List.length_cons] at hlength
      obtain ⟨arguments, later, rfl, harguments, hlater⟩ :=
        hfits.startsArguments (fun _ text hbound hfits => ih text.length (by omega) hfits rfl) (by simp)
          (Nat.le_refl _)
      rw [List.length_append, List.length_cons] at hlength
      have hstarts := hlater.followsSegment.startsType (.generic hname harguments)
        fun text htext hfits => ih text.length (by omega) hfits rfl
      simpa using hstarts

theorem Fits.derives (h : Fits 0 '.' text) : Derives .type text := by
  have ⟨type, rest, htext, htype, hfollows⟩ := h.startsType
  cases hfollows
  rw [htext, List.append_nil]
  exact htype

end Grammar

section Check

variable {name : String}

theorem isBlank_of_mem_replicate {count : Nat} : ∀ c ∈ List.replicate count ' ', isBlank c := by
  intro c hc
  rw [List.eq_of_mem_replicate hc]
  decide

theorem eq_replicate_of_isBlank {spaces : List Char}
    (hpart : ∀ c ∈ spaces, isIdentifierPart c ∨ c = ' ') (hblank : ∀ c ∈ spaces, isBlank c) :
    spaces = List.replicate spaces.length ' ' := by
  apply List.eq_replicate_of_mem
  intro c hc
  refine (hpart c hc).resolve_left fun hidentifier => ?_
  have hvisible := isBlank_of_isIdentifierPart hidentifier
  rw [hblank c hc] at hvisible
  cases hvisible

theorem isSpelled_iff {piece : List Char} (h : ∀ c ∈ piece, isIdentifierPart c ∨ c = ' ') :
    IsSpelled piece
      ↔
    Text.trim (String.ofList piece) = ""
      ∨ (checkIdentifier (Text.trim (String.ofList piece)).toList).isOk := by
  constructor
  . rintro ⟨front, word, back, rfl, hword⟩
    have hvisible : ∀ c ∈ word, isBlank c = false := by
      rcases hword with rfl | hname
      . simp
      . exact fun c hc => isBlank_of_isIdentifierPart (hname.forall_mem c hc)
    rw [Text.trim_ofList_append isBlank_of_mem_replicate isBlank_of_mem_replicate
      (fun c hc => hvisible c (List.mem_of_mem_head? hc))
      (fun c hc => hvisible c (List.mem_of_mem_getLast? hc)), String.toList_ofList]
    rcases hword with rfl | hname
    . exact .inl rfl
    . rw [checkIdentifier_of_isIdentifier hname]
      exact .inr rfl
  . intro hword
    obtain ⟨front, back, hpiece, hfront, hback⟩ := Text.exists_append_trim (String.ofList piece)
    rw [String.toList_ofList] at hpiece
    generalize Text.trim (String.ofList piece) = word at hword hpiece
    subst hpiece
    have hfrontSpaces := eq_replicate_of_isBlank (fun c hc => h c (by simp [hc])) hfront
    have hbackSpaces := eq_replicate_of_isBlank (fun c hc => h c (by simp [hc])) hback
    refine ⟨front.length, word.toList, back.length, by rw [← hfrontSpaces, ← hbackSpaces], ?_⟩
    rcases hword with rfl | hok
    . exact .inl rfl
    . refine .inr (Classical.byContradiction fun hname => ?_)
      rw [checkIdentifier_of_not_isIdentifier hname] at hok
      cases hok

theorem allSpelled_iff (hcharacters : checkCharacters 0 name.toList = .ok ()) :
    AllSpelled name.toList ↔ ∀ word ∈ words name, (checkIdentifier word.toList).isOk := by
  have hpieces : ∀ piece ∈ name.toList.splitOnP isSeparator, ∀ c ∈ piece,
      isIdentifierPart c ∨ c = ' ' := by
    intro piece hpiece c hc
    have ⟨hmem, hseparator⟩ := Text.forall_mem_splitOnP isSeparator name.toList piece hpiece c hc
    rcases of_checkCharacters hcharacters c hmem with hspecial | hpart
    . simp only [List.mem_cons, List.not_mem_nil, or_false] at hspecial
      rcases hspecial with rfl | rfl | rfl | rfl | rfl
      all_goals first | exact .inr rfl | exact absurd hseparator (by decide)
    . exact .inl hpart
  unfold words AllSpelled
  simp only [List.mem_filter, List.mem_map, and_imp, forall_exists_index]
  constructor
  . rintro h _ piece hpiece rfl hne
    exact ((isSpelled_iff (hpieces piece hpiece)).mp (h piece hpiece)).resolve_left (by simpa using hne)
  . intro h piece hpiece
    rw [isSpelled_iff (hpieces piece hpiece)]
    refine Classical.or_iff_not_imp_left.mpr fun hne => ?_
    exact h _ piece hpiece rfl (by simpa using hne)

-- the part in front may go on from the character before
theorem exists_splitOnP_of_isChain {text : List Char} {before : Char}
    (hchain : (before :: text).IsChain (mayFollow · ·)) (hlast : (before :: text).getLast? ≠ some '.') :
    ∃ part parts, text.splitOnP (· = '.') = part :: parts
      ∧ (before = '.' → part ≠ [])
      ∧ [] ∉ parts := by
  induction text generalizing before with
  | nil =>
    refine ⟨[], [], List.splitOnP_nil, ?_, by simp⟩
    rintro rfl
    exact absurd rfl hlast
  | cons c text ih =>
    rw [List.isChain_cons_cons] at hchain
    rw [List.getLast?_cons_cons] at hlast
    obtain ⟨part, parts, hsplit, hpart, hparts⟩ := ih hchain.2 hlast
    rw [List.splitOnP_cons_eq_if_modifyHead, hsplit]
    by_cases hc : c = '.'
    . subst hc
      refine ⟨[], part :: parts, by simp, ?_, ?_⟩
      . rintro rfl
        exact absurd hchain.1 (by decide)
      . simp [hparts, Ne.symm (hpart rfl)]
    . exact ⟨c :: part, parts, by simp [hc], by simp, hparts⟩

theorem nil_notMem_dottedParts (h : IsCoherent ('.' :: name.toList))
    (hlast : ('.' :: name.toList).getLast? ≠ some '.') : [] ∉ dottedParts name := by
  obtain ⟨part, parts, hsplit, hpart, hparts⟩ := exists_splitOnP_of_isChain h.1 hlast
  unfold dottedParts
  rw [hsplit]
  simp [hparts, Ne.symm (hpart rfl)]

theorem getLast?_of_nil_notMem_dottedParts (hne : name ≠ "") (h : [] ∉ dottedParts name) :
    ('.' :: name.toList).getLast? ≠ some '.' := by
  intro hlast
  rw [List.getLast?_cons_of_ne_nil (by simpa using hne), List.getLast?_eq_some_iff] at hlast
  obtain ⟨front, hfront⟩ := hlast
  unfold dottedParts at h
  rw [hfront, List.splitOnP_append_cons _ _ rfl] at h
  simp at h

theorem Derives.getLast?_ne_dot {text : List Char} (h : Derives .type text) :
    ('.' :: text).getLast? ≠ some '.' := by
  rw [List.getLast?_cons_of_ne_nil h.ne_nil]
  intro hlast
  rcases h.isEdge_of_mem_getLast? '.' hlast with hclose | hpart | ⟨hspace, _⟩
  . cases hclose
  . exact absurd hpart (by decide)
  . cases hspace

theorem Derives.trim_eq (h : Derives .type name.toList) : Text.trim name = name := by
  have hvisible : ∀ c, Part.IsEdge .type c → isBlank c = false := by
    rintro c (hpart | ⟨_, hdepth⟩)
    . exact isBlank_of_isIdentifierPart hpart
    . exact absurd hdepth (Nat.lt_irrefl 0)
  apply Text.trim_eq_self_of_edges
  . exact fun c hc => hvisible c (h.isEdge_of_mem_head? c hc)
  . intro c hc
    rcases h.isEdge_of_mem_getLast? c hc with rfl | hedge
    . decide
    . exact hvisible c hedge

theorem Derives.check (h : Derives .type name.toList) : check name = .ok () := by
  have hcharacters : checkCharacters 0 name.toList = .ok () := by
    have hrest := (h.checkCharacters_append (Nat.le_refl 0) []).mpr rfl
    rwa [List.append_nil] at hrest
  have hspelled : AllSpelled name.toList := by
    have hrest := h.allSpelled_append endsPiece_nil
    rwa [List.append_nil] at hrest
  rw [check_eq_ok_iff]
  refine ⟨?_, h.trim_eq, hcharacters, (allSpelled_iff hcharacters).mp hspelled, ?_⟩
  . rintro rfl
    exact h.ne_nil rfl
  . exact nil_notMem_dottedParts h.isCoherent h.getLast?_ne_dot

theorem derives_type_iff_check :
    Derives .type name.toList ↔ check name = .ok () ∧ IsCoherent ('.' :: name.toList) := by
  constructor
  . intro h
    exact ⟨h.check, h.isCoherent⟩
  . rintro ⟨hcheck, hcoherent⟩
    have ⟨hne, _, hcharacters, hwords, hparts⟩ := check_eq_ok_iff.mp hcheck
    have hfits : Fits 0 '.' name.toList :=
      { characters := hcharacters
        allSpelled := (allSpelled_iff hcharacters).mpr hwords
        isCoherent := hcoherent
        last_ne_dot := getLast?_of_nil_notMem_dottedParts hne hparts }
    exact hfits.derives

theorem check_of_dot_within_brackets :
    check "Game.Position." = .error .notDotted
      ∧ check "Game.Buffer<Game.Position.>" = .ok ()
      ∧ ¬ Derives .type "Game.Buffer<Game.Position.>".toList := by
  refine ⟨by decide +kernel, by decide +kernel, ?_⟩
  intro h
  exact absurd h.isCoherent (by decide +kernel)

end Check

end TypeName

end EntityViews
