/-
**Where the tokens that start definitions stand.**

Six tokens start a definition: the words for the four kinds, the word for its visibility and the sign of
an attribute. Only the rules for definitions and for what stands before them have such a token, so
inside the parts of a definition there is none.

* `Spells.stays`: what the rules of some categories keep to, everything that is spelled keeps to;
* `Sentence.contained`: behind the word for a definition, nothing in it starts another.
-/

import ContractSyntax.Grammar.Program
import ContractSyntax.Proofs.Language.Beginning

namespace ContractSyntax

/-- Whether a token is the word for a kind of definition. -/
def definesItem : Token → Bool
  | .keyword .fn | .keyword .struct | .keyword .enum | .keyword .use => true
  | _ => false

theorem startsItem_of_definesItem {token : Token} (defines : definesItem token = true) :
    startsItem token = true := by
  unfold definesItem at defines
  split at defines
  all_goals first | rfl | cases defines

/-- Whether no token that starts a definition comes behind the word for one. -/
def Contained (tokens : List Token) : Prop :=
  tokens.Pairwise fun word later => definesItem word = true → startsItem later = false

/-! ### Rules that keep to some tokens and categories -/

/-- Whether the element is one of certain tokens or categories. -/
def Element.isWithin (allowed : Token → Bool) (inside : Category → Bool) : Element → Bool
  | .token content => allowed content
  | .of category => inside category

/-- If the rules for certain categories have certain tokens and categories only, then no other tokens
are spelled. -/
theorem Spells.stays {allowed : Token → Bool} {inside : Category → Bool}
    (closed : ∀ {category body}, Rule category body → inside category = true →
      ∀ element ∈ body, element.isWithin allowed inside = true)
    {elements : List Element} {tokens : List Token} (spelled : Spells elements tokens)
    (within : ∀ element ∈ elements, element.isWithin allowed inside = true) :
    ∀ token ∈ tokens, allowed token = true := by
  induction spelled with
  | nothing => nofun
  | token token _ continued =>
    obtain ⟨first, others⟩ := List.forall_mem_cons.mp within
    exact List.forall_mem_cons.mpr ⟨first, continued others⟩
  | of rule _ _ inner continued =>
    obtain ⟨first, others⟩ := List.forall_mem_cons.mp within
    exact List.forall_mem_append.mpr ⟨inner (closed rule first), continued others⟩

namespace Category

/-- Whether the category is about a part of a definition, behind the word for it. -/
def isPart : Category → Bool
  | mark | attributes | visibility | item | program => false
  | list member => member.isPart
  | clause word => !startsItem (.keyword word)
  | _ => true

/-- Whether the category is about what stands before the word, or about a part. -/
def isHeader : Category → Bool
  | mark | attributes | visibility => true
  | category => category.isPart

theorem isHeader_of_isPart {category : Category} (part : category.isPart = true) :
    category.isHeader = true := by
  cases category <;> first | rfl | exact part

variable {category : Category} {body : List Element}

/-- No rule for a part of a definition has a token that starts one. -/
theorem isWithin_of_isPart (rule : Rule category body) (part : category.isPart = true) :
    ∀ element ∈ body, element.isWithin (!startsItem ·) isPart = true := by
  refine List.all_eq_true.mp ?_
  cases rule with
  | primitive base => cases base <;> rfl
  | @refined base => cases base <;> rfl
  | binary operator => cases operator <;> rfl
  | state moment => cases moment <;> rfl
  | endOfList | moreOfList =>
    simp only [isPart] at part
    simp [Element.isWithin, isPart, part, startsItem]
  | clause =>
    simp only [isPart] at part
    simp [Element.isWithin, isPart, part]
  | mark | markOf | attributes | noAttributes | shown | hidden | use | struct | enum | function
  | program | endOfProgram => cases part
  | _ => rfl

/-- No rule for what stands before a definition has the word for one. -/
theorem isWithin_of_isHeader (rule : Rule category body) (header : category.isHeader = true) :
    ∀ element ∈ body, element.isWithin (!definesItem ·) isHeader = true := by
  have ofPart (part : category.isPart = true) :
      ∀ element ∈ body, element.isWithin (!definesItem ·) isHeader = true := by
    intro element member
    have within := isWithin_of_isPart rule part element member
    cases element with
    | token content =>
      simp only [Element.isWithin, Bool.not_eq_true'] at within ⊢
      exact Bool.eq_false_iff.mpr fun defines =>
        Bool.eq_false_iff.mp within (startsItem_of_definesItem defines)
    | of category => exact isHeader_of_isPart within
  cases category
  case mark | attributes | visibility =>
    refine List.all_eq_true.mp ?_
    cases rule <;> rfl
  all_goals exact ofPart header

end Category

/-! ### Definitions -/

/-- What is spelled for two rows is spelled for one after the other. -/
theorem Spells.split {front back : List Element} {tokens : List Token}
    (spelled : Spells (front ++ back) tokens) :
    ∃ first second, tokens = first ++ second ∧ Spells front first ∧ Spells back second := by
  induction front generalizing tokens with
  | nil => exact ⟨[], tokens, rfl, .nothing, spelled⟩
  | cons element front continued =>
    cases spelled with
    | token token others =>
      obtain ⟨first, second, rfl, before, after⟩ := continued others
      exact ⟨token :: first, second, rfl, .token token before, after⟩
    | @of _ _ _ inside _ rule inner others =>
      obtain ⟨first, second, rfl, before, after⟩ := continued others
      exact ⟨inside ++ first, second, (List.append_assoc _ _ _).symm, .of rule inner before, after⟩

/-- A definition is what stands before its word, the word, and its parts. -/
theorem Contained.of_spells (front : List Element) {word : Token} {parts : List Element}
    {tokens : List Token} (spelled : Spells (front ++ .token word :: parts) tokens)
    (before : ∀ element ∈ front, element.isWithin (!definesItem ·) Category.isHeader = true)
    (after : ∀ element ∈ parts, element.isWithin (!startsItem ·) Category.isPart = true) :
    Contained tokens := by
  obtain ⟨first, second, rfl, header, others⟩ := spelled.split
  cases others with
  | @token _ _ inside rest =>
    have wordless := header.stays Category.isWithin_of_isHeader before
    have plain := rest.stays Category.isWithin_of_isPart after
    simp only [Bool.not_eq_true'] at wordless plain
    have unnamed {earlier later : Token} (member : earlier ∈ first) :
        definesItem earlier = true → startsItem later = false := by
      simp [wordless earlier member]
    refine List.pairwise_append.mpr ⟨?_, List.pairwise_cons.mpr ⟨?_, ?_⟩, ?_⟩
    · exact List.Pairwise.imp_of_mem (fun member _ _ => unnamed member) (List.pairwise_of_forall fun _ _ => trivial)
    · exact fun later member _ => plain later member
    · exact List.Pairwise.imp_of_mem (fun _ member _ _ => plain _ member) (List.pairwise_of_forall fun _ _ => trivial)
    · exact fun earlier member later _ => unnamed member

/-- Behind the word for a definition, nothing in it starts another. -/
theorem Sentence.contained {tokens : List Token} (sentence : Sentence .item tokens) :
    Contained tokens := by
  obtain ⟨body, rule, spelled⟩ := sentence
  have attributed : ∀ element ∈ [Element.of .attributes, .of .visibility],
      element.isWithin (!definesItem ·) Category.isHeader = true := List.all_eq_true.mp rfl
  cases rule with
  | use => exact .of_spells [] spelled nofun (List.all_eq_true.mp rfl)
  | struct | enum | function =>
    exact .of_spells [.of .attributes, .of .visibility] spelled attributed (List.all_eq_true.mp rfl)

end ContractSyntax
