/-
**Where the nodes of a program lie.**

The spans of a program that was read are nested, but for one case. A block that is written without
braces, as the rest of another after a binding, ends with its last token. If the last of its tokens
belong to a binding behind which nothing is left, the rest after that binding is an empty block in
front of the closing brace, and so the binding ends there, after the block it belongs to.

* `nested_iff`: the spans are nested exactly if no block ends before its value in this way;
* `not_nested`: a source with such a block.
-/

import ContractSyntax.Proofs.Lexing.Scans
import ContractSyntax.Proofs.Places.Nesting
import ContractSyntax.Proofs.Reading

namespace ContractSyntax

open Outline

section Definitions

variable {places : Tokens} {height : Nat}

/-! ### Parts of definitions -/

theorem Row.fits {α : Type} {meaning : Tokens → α → Nat → Prop} {values : List α}
    (row : Row meaning places values height) (outline : α → List Outline)
    (each : ∀ places value height, meaning places value height → Fits places (outline value)) :
    Fits places (values.flatMap outline) := by
  obtain ⟨parts, commas, rfl, _, derived⟩ := row
  exact .parts commas fun part member => each _ _ _ (derived part member)

theorem Row.fits_map {α : Type} {meaning : Tokens → α → Nat → Prop} {values : List α}
    (row : Row meaning places values height) (outline : α → Outline)
    (each : ∀ places value height, meaning places value height → Fits places [outline value]) :
    Fits places (values.map outline) := by
  rw [List.map_eq_flatMap]
  exact row.fits _ each

theorem Derives.fits_expr {tree : Spanned Expr} (derived : Derives .subexpr places tree height) :
    Fits places [ofExpr tree] :=
  .expr derived.placed

theorem Derives.fits_type {tree : Spanned Ty} (derived : Derives .subtype places tree height) :
    Fits places [ofType tree] :=
  .type derived.placed

theorem TypedName.Derives.fits {typed : TypedName} (derived : TypedName.Derives places typed height) :
    Fits places typed.outlines := by
  obtain ⟨name, colon, type⟩ := derived
  exact .named name (.skip _ type.fits_type)

theorem Attribute.Derives.fits {mark : Attribute} (derived : Attribute.Derives places mark height) :
    Fits places [ofAttribute mark] := by
  cases derived with
  | bare start name => exact .node (.leading _ start [] (.token _ _)) (.skip _ (.name name))
  | applied start opened stop name row =>
    have given := row.fits_map ofExpr fun _ _ _ derived => derived.fits_expr
    exact .node (.enclosed _ _ start stop (_ :: _ :: _))
      (.skip _ (.named name (.skip _ (given.closed _))))

theorem Labelled.fits {label : Option Name} (labelled : Labelled places label) :
    Fits places (label.toList.map ofName) := by
  cases labelled with
  | absent => exact .nil
  | present name => exact .named name (.gap _)

theorem Condition.Derives.fits {condition : Condition}
    (derived : Condition.Derives places condition height) : Fits places condition.outlines := by
  obtain ⟨labelled, expr⟩ := derived
  exact labelled.fits.append expr.fits_expr

theorem Clause.fits {word : Keyword} {found : Option (Spanned Expr)}
    (clause : Clause word places found height) : Fits places (found.toList.map ofExpr) := by
  cases clause with
  | absent => exact .nil
  | present _ derived => exact .skip _ derived.fits_expr

theorem Contract.Derives.fits {contract : Option Contract}
    (derived : Contract.Derives places contract height) :
    Fits places (contract.toList.flatMap Contract.outlines) := by
  cases derived with
  | conditions start opened stop row =>
    have conditions := row.fits Condition.outlines fun _ _ _ derived => derived.fits
    rw [Option.toList_some, List.flatMap_singleton]
    exact .skip _ (.skip _ (conditions.closed _))
  | @clauses _ _ pre post _ _ derivedPre derivedPost =>
    have same : (Contract.ofClauses pre post).toList.flatMap Contract.outlines =
        pre.toList.map ofExpr ++ post.toList.map ofExpr := by
      cases pre <;> cases post <;> rfl
    rw [same]
    exact derivedPre.fits.append derivedPost.fits

theorem Variant.Derives.fits {variant : Variant} (derived : Variant.Derives places variant height) :
    Fits places variant.outlines := by
  cases derived with
  | bare name => exact .name name
  | parts name start stop row =>
    have parts := row.fits_map ofType fun _ _ _ derived => derived.fits_type
    exact .named name (.skip _ (parts.closed _))

theorem Several.fits {α : Type} {meaning : Tokens → α → Nat → Prop} {values : List α}
    (several : Several meaning places values height) (outline : α → Outline)
    (each : ∀ places value height, meaning places value height → Fits places [outline value]) :
    Fits places (values.map outline) := by
  induction several with
  | none => exact .nil
  | more first _ continued => exact (each _ _ _ first).append continued

theorem Parser.Header.Derives.fits {header : Parser.Header} {following : Span}
    (headed : header.Derives following places height) :
    Fits places (header.attributes.map ofAttribute) := by
  obtain @⟨_, shown, _, _, _, several, _⟩ := headed
  have marks := several.fits ofAttribute fun _ _ _ derived => derived.fits
  have whole := marks.append (.gap shown)
  rwa [List.append_nil] at whole

/-- A definition begins with what stands before its word, or else with its word. -/
theorem Parser.Header.Derives.spans {header : Parser.Header} {word : Span}
    (headed : header.Derives word places height) (opening closing : Token) (stop : Span)
    (tokens : Tokens) :
    Spans (places ++ ⟨opening, word⟩ :: (tokens ++ [⟨closing, stop⟩])) (header.start.merge stop) := by
  have start : header.start = spanBefore word places := by
    obtain ⟨_, _⟩ := headed
    rfl
  rw [start]
  cases places with
  | nil => exact .enclosed opening closing word stop tokens
  | cons first rest =>
    have spans := Spans.enclosed first.node closing first.span stop
      (rest ++ ⟨opening, word⟩ :: tokens)
    rwa [List.append_assoc] at spans

theorem fits_path (first : Name) (rest : List (Span × Name)) :
    Fits (first.ident :: pathTokens rest) ((first :: rest.map (·.2)).map ofName) := by
  induction rest generalizing first with
  | nil => exact .name first
  | cons part rest continued => exact .named first (.skip _ (continued part.2))

/-! ### Definitions -/

/-- A definition lies over its tokens. -/
theorem Item.Derives.placed {item : Item} (derived : Item.Derives places item height) :
    Spans places item.span ∧ Fits places item.outlines := by
  cases derived with
  | use start stop first rest =>
    exact ⟨.enclosed _ _ start stop (_ :: pathTokens rest), .skip _ ((fits_path first rest).closed _)⟩
  | struct word opened stop name headed row =>
    have fields := row.fits TypedName.outlines fun _ _ _ derived => derived.fits
    exact ⟨headed.spans _ _ _ (_ :: _ :: _),
      headed.fits.append (.skip _ (.named name (.skip _ (fields.closed _))))⟩
  | enum word opened stop name headed row =>
    have variants := row.fits Variant.outlines fun _ _ _ derived => derived.fits
    exact ⟨headed.spans _ _ _ (_ :: _ :: _),
      headed.fits.append (.skip _ (.named name (.skip _ (variants.closed _))))⟩
  | @function word opened closed arrow equal stop name _ listed labelled typed contracted tokens _ _ _ _
      _ _ _ _ _ _ _ headed row named derivedType derivedContract derivedBody =>
    have spans := headed.spans (.keyword .fn) (.symbol .semicolon) stop
      (name.ident :: ⟨.symbol .leftParen, opened⟩ :: (listed ++ ⟨.symbol .rightParen, closed⟩ ::
        ⟨.symbol .arrow, arrow⟩ :: (labelled ++ (typed ++
        (contracted ++ ⟨.symbol .equal, equal⟩ :: tokens)))))
    have parameters := row.fits TypedName.outlines fun _ _ _ derived => derived.fits
    have body := Fits.skip ⟨.symbol .equal, equal⟩
      (derivedBody.fits_expr.closed ⟨.symbol .semicolon, stop⟩)
    have result := named.fits.append (derivedType.fits_type.append
      (derivedContract.fits.append body))
    exact ⟨by simpa [Item.span] using spans, headed.fits.append (.skip _ (.named name (.skip _
      (parameters.append (.skip _ (.skip _ result))))))⟩

/-- No definition is empty. -/
theorem Item.Derives.start_lt {item : Item} {low high : Nat} (derived : Item.Derives places item height)
    (between : places.Between low high) : item.span.start < item.span.stop := by
  obtain ⟨_, inner, _⟩ := derived.placed.1 low high between
  have some : places ≠ [] := by cases derived <;> simp
  obtain ⟨first, rest, rfl⟩ := List.exists_cons_of_ne_nil some
  obtain ⟨start, here, others⟩ := inner
  exact Nat.lt_of_le_of_lt start (Nat.lt_of_lt_of_le here others.le)

/-- What holds of each phrase between two offsets holds of phrases one after the other. -/
theorem Several.forall_between {α : Type} {meaning : Tokens → α → Nat → Prop} {values : List α}
    {low high : Nat} {holds : α → Prop} (several : Several meaning places values height)
    (between : places.Between low high)
    (each : ∀ {places value height low high}, meaning places value height →
      places.Between low high → holds value) : ∀ value ∈ values, holds value := by
  induction several generalizing low with
  | none => nofun
  | more first _ continued =>
    obtain ⟨middle, here, others⟩ := Tokens.between_append.mp between
    exact List.forall_mem_cons.mpr ⟨each first here, continued others⟩

/-- The definitions of a program lie over its tokens. -/
theorem Program.Derives.fits {program : Program} (derived : program.Derives places height) :
    Fits places program.outlines :=
  Several.fits derived _ fun _ _ _ derived => .node derived.placed.1 derived.placed.2

end Definitions

/-! ### The exact condition -/

section Source

variable {file source : String} {program : Program}

/-- The spans of a program that was read are nested exactly if no block ends before the empty rest
in which its value ends. -/
theorem nested_iff (read : (readProgram file source).value = .ok program) :
    program.Nested source.utf8ByteSize ↔
      ∀ outline ∈ allNodes program.outlines, ¬ outline.EndsLoosely := by
  refine ⟨fun nested => tidy_of_nested nested.1, fun tidy => ?_⟩
  obtain ⟨tokens, height, lexed, derived⟩ := Program.Derives.of_read read
  have between := between_of_tokenize lexed
  have within := derived.fits _ _ between tidy
  refine ⟨fun outline member => (within.nested (Nat.le_refl _) outline member).2.2, ?_⟩
  refine within.pairwise.2.imp_of_mem fun member _ ordered => ⟨ordered.1, ?_⟩
  obtain ⟨item, inside, rfl⟩ := List.mem_map.mp member
  have some : item.span.start < item.span.stop :=
    Several.forall_between derived between (fun derived between => derived.start_lt between) item inside
  exact Nat.lt_of_lt_of_le some ordered.1

end Source

theorem nested_iff_of_brace :
    ∃ program,
      (readProgram "a" "fn f() -> i64 = \x7b let a = 1; s; let b = 2;\x7d;").value = .ok program ∧
      (program.Nested "fn f() -> i64 = \x7b let a = 1; s; let b = 2;\x7d;".utf8ByteSize ↔
        ∀ outline ∈ allNodes program.outlines, ¬ outline.EndsLoosely) := by
  have isRead :
      (readProgram "a" "fn f() -> i64 = \x7b let a = 1; s; let b = 2;\x7d;").value.isOk := by
    decide +kernel
  obtain ⟨program, read⟩ := ok_of_isOk isRead
  exact ⟨program, read, nested_iff read⟩

/-- With a space before the brace, the rest of the block after `a` ends before the binding of `b`. -/
theorem not_nested :
    ∃ program,
      (readProgram "a" "fn f() -> i64 = \x7b let a = 1; s; let b = 2; \x7d;").value = .ok program ∧
      ¬ program.Nested "fn f() -> i64 = \x7b let a = 1; s; let b = 2; \x7d;".utf8ByteSize := by
  have isRead :
      (readProgram "a" "fn f() -> i64 = \x7b let a = 1; s; let b = 2; \x7d;").value.isOk := by
    decide +kernel
  have loose :
      (match (readProgram "a" "fn f() -> i64 = \x7b let a = 1; s; let b = 2; \x7d;").value with
      | .ok program =>
        decide (program.Nested "fn f() -> i64 = \x7b let a = 1; s; let b = 2; \x7d;".utf8ByteSize)
      | .error _ => true) = false := by
    decide +kernel
  obtain ⟨program, read⟩ := ok_of_isOk isRead
  rw [read] at loose
  exact ⟨program, read, of_decide_eq_false loose⟩

end ContractSyntax
