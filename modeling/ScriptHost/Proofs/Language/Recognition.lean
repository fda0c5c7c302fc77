import Mathlib.Data.List.Basic
import ScriptHost.Proofs.Language.Grammar
import ScriptHost.Proofs.Language.Reading

/-!
# Reading follows the grammar

The readers accept exactly what the grammar derives.

* Reading the yield of a derivation, with something after it that does not belong to it, gives its
  meaning and that rest.
* Tokens that are read are the yield of a derivation with that meaning.  Here the tokens have to be
  well formed: a sign is recognised by its text alone, and only a mark or a string can have it.
* `program_eq_ok_iff_derived`: a program is read exactly if it has a derivation, and this is the
  only one.
-/

namespace ScriptHost
namespace Language

section Tokens

theorem wordLiteral?_word (word : Word) : wordLiteral? word.text = some word.value := by
  cases word <;> simp [wordLiteral?, Word.text, Word.value]

theorem wordLiteral?_identifier (name : Identifier) : wordLiteral? name.text = none := by
  have yes : name.text ≠ "true" := (name.free .yes).symm
  have no : name.text ≠ "false" := (name.free .no).symm
  have nothing : name.text ≠ "none" := (name.free .nothing).symm
  rw [wordLiteral?, if_neg yes, if_neg no, if_neg nothing]

/-- A name token is a word that is a literal or an identifier. -/
theorem word_or_identifier (text : String) :
    (∃ word : Word, word.text = text) ∨ ∃ name : Identifier, name.text = text := by
  by_cases taken : ∃ word : Word, word.text = text
  · exact .inl taken
  · exact .inr ⟨⟨text, fun word same => taken ⟨word, same⟩⟩, rfl⟩

@[simp] theorem isMark_markToken (text other : String) :
    (markToken text).isMark other = true ↔ text = other := by
  simp [Token.isMark, markToken]

theorem eq_markToken_of_isMark {token : Token} {text : String} (mark : token.isMark text = true) :
    token = markToken text := by
  obtain ⟨kind, found⟩ := token
  simpa [Token.isMark, markToken] using mark

@[simp] theorem expectText_sign (spelling : Spelling) (text : String) :
    expectText text (spelling.token text) = none := by
  cases spelling <;> simp [expectText, Spelling.token, Spelling.kind]

/-- Only a mark or a string can have the text of a sign. -/
theorem exists_spelling
    {token : Token}
    (wellFormed : token.isWellFormed = true)
    (sign : token.text = "," ∨ token.text = ":" ∨ token.text = "=") :
    ∃ spelling : Spelling, token = spelling.token token.text := by
  obtain ⟨kind, text⟩ := token
  cases kind with
  | punctuation => exact ⟨.mark, rfl⟩
  | string => exact ⟨.quoted, rfl⟩
  | _ => rcases sign with rfl | rfl | rfl <;> exact absurd wellFormed (by decide)

theorem exists_spelling_of_expectText
    {token : Token}
    {text : String}
    (wellFormed : token.isWellFormed = true)
    (sign : text = "," ∨ text = ":")
    (expected : expectText text token = none) :
    ∃ spelling : Spelling, token = spelling.token text := by
  have same : token.text = text := by
    unfold expectText at expected
    split at expected
    · cases expected
    · split at expected
      · assumption
      · cases expected
  subst same
  exact exists_spelling wellFormed (sign.imp_right .inl)

theorem exists_terminator
    {token : Token}
    (wellFormed : token.isWellFormed = true)
    (terminator : token.kind = .terminator) :
    ∃ found : Terminator, token = found.token := by
  obtain ⟨kind, text⟩ := token
  obtain rfl : kind = .terminator := terminator
  have texts : text = "\n" ∨ text = ";" := by simpa [Token.isWellFormed] using wellFormed
  rcases texts with rfl | rfl
  · exact ⟨.newline, rfl⟩
  · exact ⟨.semicolon, rfl⟩

end Tokens

section Completeness

theorem not_isMark_of_detaches {token : Token} {rest : List Token}
    (apart : Detaches (token :: rest)) : ¬ token.isMark "(" = true := by
  intro mark
  exact apart token rfl (eq_markToken_of_isMark mark)

theorem readExpression_identifier
    (name : Identifier)
    {rest : List Token}
    (apart : Detaches rest) :
    readExpression (name.token :: rest) = .ok (.variable name.text, rest) := by
  rw [readExpression_cons]
  simp only [Identifier.token, wordLiteral?_identifier]
  cases rest with
  | nil => rfl
  | cons next others =>
      dsimp only
      rw [if_neg (not_isMark_of_detaches apart)]

/-- Items whose first expression has been read. -/
theorem readItems_of_readExpression
    {close : String}
    {tokens others : List Token}
    {next : Token}
    {first : Expr}
    (inside : ∀ token ∈ tokens.head?, ¬ token.isMark close = true)
    (read : readExpression tokens = .ok (first, next :: others)) :
    readItems close tokens =
      if next.isMark close then .ok ([first], others)
      else
        match expectText "," next with
        | some fault => .error fault
        | none => (readItems close others).map (onPiece (first :: ·)) := by
  cases tokens with
  | nil =>
      rw [readExpression_nil] at read
      cases read
  | cons token rest =>
      have unrolled := readItems_cons close token rest
      rw [if_neg (inside token rfl), read] at unrolled
      exact unrolled

/-- Entries whose first value has been read. -/
theorem readEntries_of_readExpression
    (name : String)
    (colon : Spelling)
    {body others : List Token}
    {next : Token}
    {first : Expr}
    (read : readExpression body = .ok (first, next :: others)) :
    readEntries (⟨.name, name⟩ :: colon.token ":" :: body) =
      if next.isMark "\x7d" then .ok ([(name, first)], others)
      else
        match expectText "," next with
        | some fault => .error fault
        | none => (readEntries others).map (onPiece ((name, first) :: ·)) := by
  have unmarked : ¬ Token.isMark ⟨.name, name⟩ "\x7d" = true := by simp [Token.isMark]
  have unended : ¬ (TokenKind.name = .terminator) := by decide
  have unrolled := readEntries_cons ⟨.name, name⟩ (colon.token ":" :: body)
  rw [if_neg unmarked, if_neg unended, if_neg (not_not.2 rfl)] at unrolled
  dsimp only at unrolled
  rw [expectText_sign, read] at unrolled
  exact unrolled

theorem not_isMark_head
    (tree : ExprTree)
    {close : String}
    (closing : IsClosing close)
    (rest : List Token) :
    ∀ token ∈ (tree.yield ++ rest).head?, ¬ token.isMark close = true := by
  obtain ⟨token, others, yields, -, opening⟩ := tree.exists_yield
  rw [yields]
  intro head member mark
  obtain rfl : token = head := by simpa using member
  have opens := opening close (eq_markToken_of_isMark mark)
  rcases closing with rfl | rfl <;> simp at opens

theorem not_isMark_comma
    (comma : Spelling)
    {close : String}
    (closing : IsClosing close ∨ close = "\x7d") :
    ¬ (comma.token ",").isMark close = true :=
  fun mark => comma_ne_closing closing comma (eq_markToken_of_isMark mark)

mutual

theorem readExpression_yield : (tree : ExprTree) → {rest : List Token} → Detaches rest →
    readExpression (tree.yield ++ rest) = .ok (tree.expr, rest)
  | .number _, _, _ => by
      rw [ExprTree.yield, List.singleton_append, readExpression_cons]
      rfl
  | .string _, _, _ => by
      rw [ExprTree.yield, List.singleton_append, readExpression_cons]
      rfl
  | .word word, _, _ => by
      rw [ExprTree.yield, List.singleton_append, readExpression_cons]
      simp only [Word.token, wordLiteral?_word]
      rfl
  | .reference name, _, apart => readExpression_identifier name apart
  | .call name arguments, rest, _ => by
      have read := readItems_yield arguments (.inl rfl) rest
      rw [ExprTree.yield, List.cons_append, List.cons_append, List.append_assoc,
        List.singleton_append, readExpression_cons]
      simp only [Identifier.token, wordLiteral?_identifier, isMark_markToken, if_true, read]
      rfl
  | .list members, rest, _ => by
      have read := readItems_yield members (.inr rfl) rest
      rw [ExprTree.yield, List.cons_append, List.append_assoc, List.singleton_append,
        readExpression_cons]
      simp only [markToken, if_true] at read ⊢
      rw [read]
      rfl
  | .scope members, rest, _ => by
      have read := readEntries_yield members rest
      rw [ExprTree.yield, List.cons_append, List.append_assoc, List.singleton_append,
        readExpression_cons]
      have brace : ("\x7b" : String) ≠ "[" := by decide
      simp only [markToken, brace, if_false, if_true] at read ⊢
      rw [read]
      rfl

theorem readItems_yield : (tree : ItemsTree) → {close : String} → IsClosing close →
    (rest : List Token) →
      readItems close (tree.yield ++ markToken close :: rest) = .ok (tree.exprs, rest)
  | .none, close, _, rest => by
      rw [ItemsTree.yield, List.nil_append, readItems_cons]
      simp [ItemsTree.exprs]
  | .last item, close, closing, rest => by
      have read := readExpression_yield item (detaches_closing closing rest)
      rw [ItemsTree.yield, readItems_of_readExpression (not_isMark_head item closing _) read]
      simp [ItemsTree.exprs]
  | .more item comma others, close, closing, rest => by
      have read := readExpression_yield item
        (detaches_comma comma (others.yield ++ markToken close :: rest))
      rw [ItemsTree.yield, List.append_assoc, List.cons_append,
        readItems_of_readExpression (not_isMark_head item closing _) read,
        if_neg (not_isMark_comma comma (.inl closing)), expectText_sign,
        readItems_yield others closing rest]
      rfl

theorem readEntries_yield : (tree : EntriesTree) → (rest : List Token) →
    readEntries (tree.yield ++ markToken "\x7d" :: rest) = .ok (tree.entries, rest)
  | .none, rest => by
      rw [EntriesTree.yield, List.nil_append, readEntries_cons]
      simp [EntriesTree.entries]
  | .last name colon value, rest => by
      have apart : Detaches (markToken "\x7d" :: rest) := detaches_mark (by decide) rest
      have read := readExpression_yield value apart
      rw [EntriesTree.yield, List.cons_append, List.cons_append,
        readEntries_of_readExpression name colon read]
      simp [EntriesTree.entries]
  | .more name colon value comma others, rest => by
      have read := readExpression_yield value
        (detaches_comma comma (others.yield ++ markToken "\x7d" :: rest))
      rw [EntriesTree.yield, List.cons_append, List.cons_append, List.append_assoc,
        List.cons_append, readEntries_of_readExpression name colon read,
        if_neg (not_isMark_comma comma (.inr rfl)), expectText_sign,
        readEntries_yield others rest]
      rfl

end

/-- A statement that does not start like an import, a forgetting or an assignment is an
expression. -/
theorem readStatement_eq_readExpression
    {tokens : List Token}
    (nonempty : tokens ≠ [])
    (other : ∀ name second rest, tokens = ⟨.name, name⟩ :: second :: rest →
      second.kind ≠ .name ∧ second.text ≠ "=") :
    readStatement tokens = (readExpression tokens).map (onPiece .expression) := by
  cases tokens with
  | nil => exact absurd rfl nonempty
  | cons first rest =>
      cases rest with
      | nil => exact readStatement_singleton first
      | cons second rest =>
          rw [readStatement_cons_cons]
          by_cases named : first.kind = .name
          · obtain ⟨kind, name⟩ := first
            obtain rfl : kind = .name := named
            obtain ⟨unnamed, unassigned⟩ := other name second rest rfl
            rw [if_pos rfl, if_neg unnamed, if_neg unassigned]
          · rw [if_neg named]

theorem readStatement_yield (tree : StatementTree) {rest : List Token} (ends : Ends rest) :
    readStatement (tree.yield ++ rest) = .ok (tree.statement, rest) := by
  cases tree with
  | importModule name =>
      rw [StatementTree.yield, List.cons_append, List.singleton_append, readStatement_cons_cons]
      rfl
  | forget name =>
      rw [StatementTree.yield, List.cons_append, List.singleton_append, readStatement_cons_cons]
      rfl
  | assign name sign value =>
      have unnamed : ¬ (sign.token "=").kind = .name := by cases sign <;> decide
      rw [StatementTree.yield, List.cons_append, List.cons_append, readStatement_cons_cons,
        if_pos rfl, if_neg unnamed, readExpression_yield value ends.detaches]
      rfl
  | expression value =>
      obtain ⟨token, others, yields, -⟩ := value.exists_yield
      rw [StatementTree.yield, readStatement_eq_readExpression (by simp [yields]),
        readExpression_yield value ends.detaches]
      · rfl
      · intro name second more same
        rcases value.second_of_yield ends same with rfl | ⟨terminator, rfl⟩
        · exact ⟨by decide, by decide⟩
        · cases terminator <;> exact ⟨by decide, by decide⟩

/-- A program whose first statement has been read, by what stands after it. -/
def programAfter (first : Statement) : List Token → Except SourceFault Program
  | [] => .ok [first]
  | next :: others =>
      if next.kind = .terminator then (program others).map (first :: ·)
      else .error (.unexpectedToken next.text)

theorem program_of_readStatement
    {token : Token}
    {others rest : List Token}
    {first : Statement}
    (inside : token.kind ≠ .terminator)
    (read : readStatement (token :: others) = .ok (first, rest)) :
    program (token :: others) = programAfter first rest := by
  rw [program_cons, if_neg inside, read]
  cases rest <;> rfl

theorem program_statement_yield
    (tree : StatementTree)
    {rest : List Token}
    (ends : Ends rest) :
    program (tree.yield ++ rest) = programAfter tree.statement rest := by
  have read := readStatement_yield tree ends
  obtain ⟨token, others, yields, inside⟩ := tree.exists_yield
  rw [yields, List.cons_append] at read ⊢
  exact program_of_readStatement inside read

/-- The program of a derivation is read from its yield. -/
theorem program_yield (tree : ProgramTree) : program tree.yield = .ok tree.program := by
  induction tree with
  | none => exact program_nil
  | blank terminator rest ih =>
      rw [ProgramTree.yield, program_cons, if_pos terminator.token_kind, ih]
      rfl
  | last statement =>
      rw [ProgramTree.yield, ← List.append_nil statement.yield,
        program_statement_yield statement ends_nil]
      rfl
  | more statement terminator rest ih =>
      rw [ProgramTree.yield, program_statement_yield statement (ends_terminator _ _),
        programAfter, if_pos terminator.token_kind, ih]
      rfl

end Completeness

section Soundness

/-- An expression at the front of the tokens is derived. -/
def ExpressionDerived (tokens : List Token) : Prop :=
  ∀ expr rest, readExpression tokens = .ok (expr, rest) →
    ∃ tree : ExprTree, tree.yield ++ rest = tokens ∧ tree.expr = expr

/-- Items at the front of the tokens are derived. -/
def ItemsDerived (close : String) (tokens : List Token) : Prop :=
  ∀ exprs rest, readItems close tokens = .ok (exprs, rest) →
    ∃ tree : ItemsTree, tree.yield ++ markToken close :: rest = tokens ∧ tree.exprs = exprs

/-- Entries at the front of the tokens are derived. -/
def EntriesDerived (tokens : List Token) : Prop :=
  ∀ entries rest, readEntries tokens = .ok (entries, rest) →
    ∃ tree : EntriesTree, tree.yield ++ markToken "\x7d" :: rest = tokens ∧
      tree.entries = entries

theorem map_onPiece_eq_ok
    {α β : Type}
    {f : α → β}
    {read : Except SourceFault (α × List Token)}
    {piece : β}
    {rest : List Token}
    (mapped : read.map (onPiece f) = .ok (piece, rest)) :
    ∃ inner, read = .ok (inner, rest) ∧ f inner = piece := by
  cases read with
  | error fault => cases mapped
  | ok pair =>
      obtain ⟨inner, after⟩ := pair
      cases mapped
      exact ⟨inner, rfl, rfl⟩

theorem expressionDerived_step
    (tokens : List Token)
    (onItems : ∀ first others, tokens = first ++ others → first ≠ [] →
      ∀ close, ItemsDerived close others)
    (onEntries : ∀ first others, tokens = first ++ others → first ≠ [] →
      EntriesDerived others) :
    ExpressionDerived tokens := by
  intro expr rest read
  cases tokens with
  | nil =>
      rw [readExpression_nil] at read
      cases read
  | cons token others =>
      rw [readExpression_cons] at read
      obtain ⟨kind, text⟩ := token
      cases kind with
      | terminator => cases read
      | number =>
          cases read
          exact ⟨.number text, rfl, rfl⟩
      | string =>
          cases read
          exact ⟨.string text, rfl, rfl⟩
      | name =>
          dsimp only at read
          rcases word_or_identifier text with ⟨word, rfl⟩ | ⟨name, rfl⟩
          · rw [wordLiteral?_word] at read
            cases read
            exact ⟨.word word, rfl, rfl⟩
          · rw [wordLiteral?_identifier] at read
            cases others with
            | nil =>
                cases read
                exact ⟨.reference name, rfl, rfl⟩
            | cons next inner =>
                dsimp only at read
                by_cases opening : next.isMark "(" = true
                · rw [if_pos opening] at read
                  obtain ⟨exprs, readInner, rfl⟩ := map_onPiece_eq_ok read
                  obtain ⟨arguments, yields, rfl⟩ :=
                    onItems [_, next] inner rfl (by simp) ")" exprs rest readInner
                  refine ⟨.call name arguments, ?_, rfl⟩
                  rw [eq_markToken_of_isMark opening, ← yields]
                  simp [ExprTree.yield, Identifier.token]
                · rw [if_neg opening] at read
                  cases read
                  exact ⟨.reference name, rfl, rfl⟩
      | punctuation =>
          dsimp only at read
          by_cases bracket : text = "["
          · rw [if_pos bracket] at read
            obtain ⟨exprs, readInner, rfl⟩ := map_onPiece_eq_ok read
            obtain ⟨members, yields, rfl⟩ :=
              onItems [_] others rfl (by simp) "]" exprs rest readInner
            refine ⟨.list members, ?_, rfl⟩
            rw [bracket, ← yields]
            simp [ExprTree.yield, markToken]
          rw [if_neg bracket] at read
          by_cases brace : text = "\x7b"
          · rw [if_pos brace] at read
            obtain ⟨entries, readInner, rfl⟩ := map_onPiece_eq_ok read
            obtain ⟨members, yields, rfl⟩ :=
              onEntries [_] others rfl (by simp) entries rest readInner
            refine ⟨.scope members, ?_, rfl⟩
            rw [brace, ← yields]
            simp [ExprTree.yield, markToken]
          · rw [if_neg brace] at read
            cases read

theorem itemsDerived_step
    (close : String)
    (tokens : List Token)
    (wellFormed : ∀ token ∈ tokens, token.isWellFormed = true)
    (onExpression : ExpressionDerived tokens)
    (onItems : ∀ first others, tokens = first ++ others → first ≠ [] →
      ItemsDerived close others) :
    ItemsDerived close tokens := by
  intro exprs rest read
  cases tokens with
  | nil =>
      rw [readItems_nil] at read
      cases read
  | cons token others =>
      rw [readItems_cons] at read
      by_cases closing : token.isMark close = true
      · rw [if_pos closing] at read
        cases read
        exact ⟨.none, by rw [eq_markToken_of_isMark closing]; rfl, rfl⟩
      rw [if_neg closing] at read
      cases readFirst : readExpression (token :: others) with
      | error fault =>
          rw [readFirst] at read
          cases read
      | ok pair =>
          obtain ⟨first, after⟩ := pair
          rw [readFirst] at read
          obtain ⟨item, yields, rfl⟩ := onExpression first after readFirst
          cases after with
          | nil => cases read
          | cons next inner =>
              dsimp only at read
              by_cases ending : next.isMark close = true
              · rw [if_pos ending] at read
                cases read
                refine ⟨.last item, ?_, rfl⟩
                rw [← yields, eq_markToken_of_isMark ending]
                rfl
              rw [if_neg ending] at read
              cases expected : expectText "," next with
              | some fault =>
                  rw [expected] at read
                  cases read
              | none =>
                  rw [expected] at read
                  have inside : next ∈ token :: others := by
                    rw [← yields]
                    simp
                  obtain ⟨comma, rfl⟩ :=
                    exists_spelling_of_expectText (wellFormed next inside) (.inl rfl) expected
                  obtain ⟨more, readMore, rfl⟩ := map_onPiece_eq_ok read
                  obtain ⟨items, yieldsMore, rfl⟩ :=
                    onItems (item.yield ++ [comma.token ","]) inner (by simp [← yields]) (by simp)
                      more rest readMore
                  refine ⟨.more item comma items, ?_, rfl⟩
                  rw [← yields, ← yieldsMore]
                  simp [ItemsTree.yield]

theorem entriesDerived_step
    (tokens : List Token)
    (wellFormed : ∀ token ∈ tokens, token.isWellFormed = true)
    (onExpression : ∀ first others, tokens = first ++ others → first ≠ [] →
      ExpressionDerived others)
    (onEntries : ∀ first others, tokens = first ++ others → first ≠ [] →
      EntriesDerived others) :
    EntriesDerived tokens := by
  intro entries rest read
  cases tokens with
  | nil =>
      rw [readEntries_nil] at read
      cases read
  | cons token others =>
      rw [readEntries_cons] at read
      by_cases closing : token.isMark "\x7d" = true
      · rw [if_pos closing] at read
        cases read
        exact ⟨.none, by rw [eq_markToken_of_isMark closing]; rfl, rfl⟩
      rw [if_neg closing] at read
      by_cases terminator : token.kind = .terminator
      · rw [if_pos terminator] at read
        cases read
      rw [if_neg terminator] at read
      by_cases named : token.kind = .name
      swap
      · rw [if_pos named] at read
        cases read
      rw [if_neg (not_not.2 named)] at read
      obtain ⟨kind, name⟩ := token
      obtain rfl : kind = .name := named
      cases others with
      | nil => cases read
      | cons sign body =>
          dsimp only at read
          cases expected : expectText ":" sign with
          | some fault =>
              rw [expected] at read
              cases read
          | none =>
              rw [expected] at read
              obtain ⟨colon, rfl⟩ := exists_spelling_of_expectText
                (wellFormed sign (by simp)) (.inr rfl) expected
              dsimp only at read
              cases readFirst : readExpression body with
              | error fault =>
                  rw [readFirst] at read
                  cases read
              | ok pair =>
                  obtain ⟨first, after⟩ := pair
                  rw [readFirst] at read
                  obtain ⟨value, yields, rfl⟩ :=
                    onExpression [_, _] body rfl (by simp) first after readFirst
                  cases after with
                  | nil => cases read
                  | cons next inner =>
                      dsimp only at read
                      by_cases ending : next.isMark "\x7d" = true
                      · rw [if_pos ending] at read
                        cases read
                        refine ⟨.last name colon value, ?_, rfl⟩
                        rw [← yields, eq_markToken_of_isMark ending]
                        rfl
                      rw [if_neg ending] at read
                      cases separated : expectText "," next with
                      | some fault =>
                          rw [separated] at read
                          cases read
                      | none =>
                          rw [separated] at read
                          have inside : next ∈ body := by
                            rw [← yields]
                            simp
                          obtain ⟨comma, rfl⟩ := exists_spelling_of_expectText
                            (wellFormed next (by simp [inside])) (.inl rfl) separated
                          obtain ⟨more, readMore, rfl⟩ := map_onPiece_eq_ok read
                          obtain ⟨members, yieldsMore, rfl⟩ :=
                            onEntries (⟨.name, name⟩ :: colon.token ":" ::
                              (value.yield ++ [comma.token ","])) inner (by simp [← yields])
                              (by simp) more rest readMore
                          refine ⟨.more name colon value comma members, ?_, rfl⟩
                          rw [← yields, ← yieldsMore]
                          simp [EntriesTree.yield]

/-- Everything that is read from well-formed tokens is derived. -/
theorem readers_derived
    (tokens : List Token)
    (wellFormed : ∀ token ∈ tokens, token.isWellFormed = true) :
    ExpressionDerived tokens ∧ (∀ close, ItemsDerived close tokens) ∧ EntriesDerived tokens := by
  -- by the number of tokens; items use the expression at the same number, which comes first
  induction size : tokens.length using Nat.strongRecOn generalizing tokens with
  | _ n ih =>
      subst size
      have inner : ∀ first others, tokens = first ++ others → first ≠ [] →
          ExpressionDerived others ∧ (∀ close, ItemsDerived close others) ∧
            EntriesDerived others := by
        rintro first others rfl nonempty
        have positive := List.length_pos_iff.2 nonempty
        refine ih others.length (by simp [positive]) others ?_ rfl
        intro token member
        exact wellFormed token (List.mem_append_right _ member)
      have onExpression := expressionDerived_step tokens
        (fun first others parts nonempty => (inner first others parts nonempty).2.1)
        (fun first others parts nonempty => (inner first others parts nonempty).2.2)
      refine ⟨onExpression, ?_, ?_⟩
      · intro close
        exact itemsDerived_step close tokens wellFormed onExpression
          (fun first others parts nonempty => (inner first others parts nonempty).2.1 close)
      · exact entriesDerived_step tokens wellFormed
          (fun first others parts nonempty => (inner first others parts nonempty).1)
          (fun first others parts nonempty => (inner first others parts nonempty).2.2)

theorem readStatement_nil : readStatement [] = .error .unexpectedEnd := by
  rw [readStatement, statement, expressionStatement_pair, readExpression_nil]
  · rfl
  · simp

theorem keyword_derived
    {name : String}
    {second : Token}
    {found : Statement}
    (made : (if second.kind = .name then keywordStatement? name second.text else none) =
      some found) :
    ∃ tree : StatementTree, tree.yield = [⟨.name, name⟩, second] ∧ tree.statement = found := by
  obtain ⟨kind, text⟩ := second
  by_cases named : kind = .name
  swap
  · rw [if_neg named] at made
    cases made
  subst named
  rw [if_pos rfl, keywordStatement?] at made
  by_cases importing : name = "import"
  · subst importing
    rw [if_pos rfl] at made
    cases made
    exact ⟨.importModule text, rfl, rfl⟩
  rw [if_neg importing] at made
  by_cases forgetting : name = "forget"
  · subst forgetting
    rw [if_pos rfl] at made
    cases made
    exact ⟨.forget text, rfl, rfl⟩
  · rw [if_neg forgetting] at made
    cases made

theorem statement_derived
    {tokens rest : List Token}
    (wellFormed : ∀ token ∈ tokens, token.isWellFormed = true)
    {statement : Statement}
    (read : readStatement tokens = .ok (statement, rest)) :
    ∃ tree : StatementTree, tree.yield ++ rest = tokens ∧ tree.statement = statement := by
  have derived : ∀ {expr}, readExpression tokens = .ok (expr, rest) →
      ∃ tree : StatementTree, tree.yield ++ rest = tokens ∧
        tree.statement = .expression expr := by
    intro expr readExpr
    obtain ⟨tree, yields, rfl⟩ := (readers_derived tokens wellFormed).1 expr rest readExpr
    exact ⟨.expression tree, yields, rfl⟩
  match tokens, read with
  | [], read =>
      rw [readStatement_nil] at read
      cases read
  | [token], read =>
      rw [readStatement_singleton] at read
      obtain ⟨expr, readExpr, rfl⟩ := map_onPiece_eq_ok read
      exact derived readExpr
  | ⟨kind, name⟩ :: second :: others, read =>
      rw [readStatement_cons_cons] at read
      by_cases named : kind = .name
      swap
      · rw [if_neg named] at read
        obtain ⟨expr, readExpr, rfl⟩ := map_onPiece_eq_ok read
        exact derived readExpr
      subst named
      rw [if_pos rfl] at read
      cases made : (if second.kind = .name then keywordStatement? name second.text else none) with
      | some found =>
          rw [made] at read
          cases read
          obtain ⟨tree, yields, rfl⟩ := keyword_derived made
          exact ⟨tree, by rw [yields]; rfl, rfl⟩
      | none =>
          rw [made] at read
          dsimp only at read
          by_cases assigned : second.text = "="
          · rw [if_pos assigned] at read
            obtain ⟨expr, readExpr, rfl⟩ := map_onPiece_eq_ok read
            obtain ⟨sign, spelled⟩ :=
              exists_spelling (wellFormed second (by simp)) (.inr (.inr assigned))
            obtain ⟨value, yields, rfl⟩ := (readers_derived others fun token member =>
              wellFormed token (by simp [member])).1 expr rest readExpr
            refine ⟨.assign name sign value, ?_, rfl⟩
            rw [spelled, assigned, ← yields]
            rfl
          · rw [if_neg assigned] at read
            obtain ⟨expr, readExpr, rfl⟩ := map_onPiece_eq_ok read
            exact derived readExpr

/-- A program that is read from well-formed tokens is derived. -/
theorem program_derived
    (tokens : List Token)
    (wellFormed : ∀ token ∈ tokens, token.isWellFormed = true)
    {statements : Program}
    (read : program tokens = .ok statements) :
    ∃ tree : ProgramTree, tree.yield = tokens ∧ tree.program = statements := by
  induction size : tokens.length using Nat.strongRecOn
    generalizing tokens statements with
  | _ n ih =>
      subst size
      cases tokens with
      | nil =>
          rw [program_nil] at read
          cases read
          exact ⟨.none, rfl, rfl⟩
      | cons token others =>
          by_cases ended : token.kind = .terminator
          · rw [program_cons, if_pos ended] at read
            obtain ⟨terminator, rfl⟩ := exists_terminator (wellFormed token (by simp)) ended
            obtain ⟨rest, yields, rfl⟩ := ih others.length (by simp) others
              (fun other member => wellFormed other (by simp [member])) read rfl
            exact ⟨.blank terminator rest, by rw [← yields]; rfl, rfl⟩
          cases readFirst : readStatement (token :: others) with
          | error fault =>
              rw [program_cons, if_neg ended, readFirst] at read
              cases read
          | ok pair =>
              obtain ⟨first, after⟩ := pair
              rw [program_of_readStatement ended readFirst] at read
              have shorter := length_lt_of_pair readFirst
              obtain ⟨statement, yields, rfl⟩ := statement_derived wellFormed readFirst
              cases after with
              | nil =>
                  cases read
                  exact ⟨.last statement, by simpa [ProgramTree.yield] using yields, rfl⟩
              | cons next rest =>
                  rw [programAfter] at read
                  by_cases separated : next.kind = .terminator
                  swap
                  · rw [if_neg separated] at read
                    cases read
                  rw [if_pos separated] at read
                  have inside : ∀ other ∈ next :: rest, other ∈ token :: others := by
                    intro other member
                    rw [← yields]
                    exact List.mem_append_right _ member
                  obtain ⟨terminator, rfl⟩ :=
                    exists_terminator (wellFormed next (inside next (by simp))) separated
                  cases readRest : program rest with
                  | error fault =>
                      rw [readRest] at read
                      cases read
                  | ok more =>
                      rw [readRest] at read
                      cases read
                      obtain ⟨tree, yieldsRest, rfl⟩ := ih rest.length
                        (by simp only [List.length_cons] at shorter ⊢; omega) rest
                        (fun other member => wellFormed other (inside other (by simp [member])))
                        readRest rfl
                      exact ⟨.more statement terminator tree, by rw [← yields, ← yieldsRest]; rfl,
                        rfl⟩

end Soundness

/-- The parser accepts exactly the grammar.  A program is read from well-formed tokens if and only
if it has a derivation from them; tokens without a derivation are refused with a syntax error; and
no list of tokens has two derivations. -/
theorem program_eq_ok_iff_derived
    {tokens : List Token}
    (wellFormed : ∀ token ∈ tokens, token.isWellFormed = true) :
    (∀ statements, program tokens = .ok statements ↔
        ∃ tree : ProgramTree, tree.yield = tokens ∧ tree.program = statements) ∧
      ((∀ tree : ProgramTree, tree.yield ≠ tokens) →
        ∃ fault, program tokens = .error fault ∧ (Fault.malformed fault).name = "SyntaxError") ∧
      ∀ first second : ProgramTree, first.yield = tokens → second.yield = tokens →
        first = second := by
  refine ⟨?_, ?_, ?_⟩
  · intro statements
    constructor
    · intro read
      exact program_derived tokens wellFormed read
    · rintro ⟨tree, rfl, rfl⟩
      exact program_yield tree
  · intro underivable
    cases read : program tokens with
    | error fault => exact ⟨fault, rfl, rfl⟩
    | ok statements =>
        obtain ⟨tree, yields, -⟩ := program_derived tokens wellFormed read
        exact absurd yields (underivable tree)
  · intro first second yields yields'
    exact first.eq_of_yield_eq second (yields.trans yields'.symm)

/-- A derivation in which strings serve as a sign of assignment and as a separator before a closing
bracket, and one of the same text is an item. -/
def quotedSigns : ProgramTree :=
  .blank .semicolon
    (.more (.assign "x" .quoted (.list (.more (.string ",") .quoted .none))) .newline
      (.last (.expression (.call ⟨"import", by intro word; cases word <;> decide⟩ .none))))

theorem program_eq_ok_iff_derived_quotedSigns :
    (∀ token ∈ quotedSigns.yield, token.isWellFormed = true) ∧
      quotedSigns.yield =
        [⟨.terminator, ";"⟩, ⟨.name, "x"⟩, ⟨.string, "="⟩, ⟨.punctuation, "["⟩, ⟨.string, ","⟩,
          ⟨.string, ","⟩, ⟨.punctuation, "]"⟩, ⟨.terminator, "\n"⟩, ⟨.name, "import"⟩,
          ⟨.punctuation, "("⟩, ⟨.punctuation, ")"⟩] ∧
      program quotedSigns.yield =
        .ok [.assign "x" (.list [.literal (.str ",")]), .expression (.call "import" [])] ∧
      ∀ tree : ProgramTree, tree.yield = quotedSigns.yield → tree = quotedSigns := by
  have wellFormed : ∀ token ∈ quotedSigns.yield, token.isWellFormed = true := by decide
  obtain ⟨accepted, -, unique⟩ := program_eq_ok_iff_derived wellFormed
  refine ⟨wellFormed, rfl, (accepted _).2 ⟨quotedSigns, rfl, rfl⟩, ?_⟩
  intro tree yields
  exact unique tree quotedSigns yields rfl

end Language
end ScriptHost
