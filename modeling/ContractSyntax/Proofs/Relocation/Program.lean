/-
**Reading moved programs.**

* `Parser.Moves.program`: the program read from moved tokens is the moved program.
-/

import ContractSyntax.Proofs.Relocation.Grammar

namespace ContractSyntax

open ContractSyntax.Parser

variable {move : Relocation}

/-- The header with its spans moved. -/
def Parser.Header.relocate (move : Relocation) (header : Parser.Header) : Parser.Header :=
  ⟨header.start.relocate move, ContractSyntax.relocate move header.attributes, header.visibility⟩

instance : Relocate Parser.Header := ⟨Parser.Header.relocate⟩

namespace Parser.Moves

theorem typedName (role : NameRole) : Moves move (Parser.typedName role) (Parser.typedName role) :=
  bind (name role) fun _ => bind (expect _) fun _ => bind type fun _ => .pure rfl

theorem attributeRest (start : Span) :
    Moves move (Parser.attributeRest (start.relocate move)) (Parser.attributeRest start) := by
  refine bind (name _) fun mark => bind top.arguments? fun found => ?_
  rcases found with _ | ⟨given, stop⟩
  · exact .pure (congrArg (Attribute.mk _ _) (Span.relocate_merge move _ _).symm)
  · exact .pure (congrArg (Attribute.mk _ _) (Span.relocate_merge move _ _).symm)

theorem visibility : Moves move Parser.visibility Parser.visibility := by
  refine bind (accept _) fun found => ?_
  rcases found with _ | shown
  · exact .pure rfl
  · exact .pure rfl

theorem condition : Moves move Parser.condition Parser.condition :=
  bind (nameBefore _) fun _ => bind expression fun _ => .pure rfl

theorem conditions : Moves move Parser.conditions Parser.conditions := by
  refine bind (expect _) fun _ => bind (list _ condition) fun found => ?_
  exact note (congrArg Event.conditioned (List.length_map _)) (.pure rfl)

theorem clause? (word : Keyword) : Moves move (Parser.clause? word) (Parser.clause? word) := by
  refine bind (accept _) fun found => ?_
  rcases found with _ | started
  · exact .pure rfl
  · exact bind expression fun _ => .pure rfl

theorem contract? : Moves move Parser.contract? Parser.contract? := by
  refine bind (accept _) fun found => ?_
  rcases found with _ | started
  · refine bind (clause? _) fun pre => bind (clause? _) fun post => ?_
    cases pre with
    | none => cases post with
      | none => exact .pure rfl
      | some post => exact .pure rfl
    | some pre => exact .pure rfl
  · exact bind conditions fun _ => .pure rfl

theorem variant : Moves move Parser.variant Parser.variant := by
  refine bind (name _) fun _ => bind (accept _) fun found => ?_
  rcases found with _ | opened
  · exact .pure rfl
  · exact bind (list _ type) fun _ => .pure rfl

/-! ### Definitions -/

theorem useItem : Moves move Parser.useItem Parser.useItem :=
  bind (expect _) fun _ => bind (name _) fun _ => bind (opened fun _ => name _) fun _ =>
    bind (expect _) fun _ => .pure (congrArg (UseItem.mk _) (Span.relocate_merge move _ _).symm)

theorem structItem (header : Header) :
    Moves move (Parser.structItem (relocate move header)) (Parser.structItem header) :=
  bind (expect _) fun _ => bind (name _) fun _ => bind (expect _) fun _ =>
    bind (list _ (typedName _)) fun _ =>
      .pure (congrArg (StructItem.mk _ _ _ _) (Span.relocate_merge move _ _).symm)

theorem enumItem (header : Header) :
    Moves move (Parser.enumItem (relocate move header)) (Parser.enumItem header) :=
  bind (expect _) fun _ => bind (name _) fun _ => bind (expect _) fun _ =>
    bind (list _ variant) fun _ =>
      .pure (congrArg (EnumItem.mk _ _ _ _) (Span.relocate_merge move _ _).symm)

theorem functionItem (header : Header) :
    Moves move (Parser.functionItem (relocate move header)) (Parser.functionItem header) :=
  bind (expect _) fun _ => bind (name _) fun _ => bind (expect _) fun _ =>
    bind (list _ (typedName _)) fun _ => bind (expect _) fun _ => bind (nameBefore _) fun _ =>
      bind type fun _ => bind contract? fun _ => bind (expect _) fun _ => bind expression fun _ =>
        bind (expect _) fun _ =>
          .pure (congrArg (FunctionItem.mk _ _ _ _ _ _ _ _) (Span.relocate_merge move _ _).symm)

theorem header : Moves move Parser.header Parser.header :=
  here fun _ => bind (opened attributeRest) fun _ => bind visibility fun _ => .pure rfl

theorem isPlain_relocate (header : Header) :
    (header.relocate move).isPlain = header.isPlain := by
  obtain ⟨start, attributes, visibility⟩ := header
  cases attributes <;> rfl

theorem itemBody (header : Header) :
    Moves move (Parser.itemBody (relocate move header)) (Parser.itemBody header) := by
  refine current fun found => ?_
  split
  · rw [show (relocate move header).isPlain = header.isPlain from isPlain_relocate header]
    split
    · exact bind useItem fun _ => .pure rfl
    · exact .fail _
  · exact bind (structItem header) fun _ => .pure rfl
  · exact bind (enumItem header) fun _ => .pure rfl
  · exact bind (functionItem header) fun _ => .pure rfl
  · exact .fail _

theorem item : Moves move Parser.item Parser.item := by
  refine bind header fun header => bind (itemBody header) fun item => note ?_ (.pure rfl)
  show Event.defined (item.relocate move).name? (item.relocate move).span.start = _
  rw [item.name?_relocate, item.span_relocate]
  rfl

/-- The program read from moved tokens is the moved program. -/
theorem program : Moves move Parser.program Parser.program :=
  bind (untilEnd item) fun _ => .pure rfl

theorem endOfInput : Moves move Parser.endOfInput Parser.endOfInput := by
  refine current fun found => ?_
  split
  · exact .pure rfl
  · exact .fail _

end Parser.Moves

end ContractSyntax
