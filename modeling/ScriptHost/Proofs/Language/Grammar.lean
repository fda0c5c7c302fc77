import ScriptHost.Language.Parser

/-!
# The grammar of the line language

The derivations of programs as trees.  A tree has a yield, the tokens that it derives, and a
meaning, the program that it stands for.

* A separator, a colon or the sign of assignment may be written as the mark itself or as a string
  of the same text; brackets are marks.
* A separator may stand before a closing bracket.
* Terminators stand before, between and after statements, at least one between two of them.
* `ProgramTree.eq_of_yield_eq`: the grammar is unambiguous, no list of tokens has two derivations.
-/

namespace ScriptHost
namespace Language

namespace Token

/-- Is this the text of a number: perhaps a minus, a digit, then digits and points? -/
def isNumberText : List Char → Bool
  | '-' :: digit :: rest => digit.isDigit && rest.all isNumberChar
  | digit :: rest => digit.isDigit && rest.all isNumberChar
  | [] => false

/-- Is this the text of a name? -/
def isNameText : List Char → Bool
  | start :: rest => isNameStart start && rest.all isNameChar
  | [] => false

/-- Is the text one that a token of its kind can have?  A string can have any text. -/
def isWellFormed (token : Token) : Bool :=
  match token.kind with
  | .number => isNumberText token.text.toList
  | .name => isNameText token.text.toList
  | .string => true
  | .punctuation => marks.any fun mark => token.text.toList == [mark]
  | .terminator => token.text == "\n" || token.text == ";"

end Token

/-- The words that are literals. -/
inductive Word where
  | yes
  | no
  | nothing
  deriving DecidableEq, Repr

namespace Word

def text : Word → String
  | yes => "true"
  | no => "false"
  | nothing => "none"

def value : Word → Value
  | yes => .ofBool true
  | no => .ofBool false
  | nothing => .none

def token (word : Word) : Token := ⟨.name, word.text⟩

theorem token_injective : Function.Injective token := by
  intro first second same
  cases first <;> cases second <;> simp_all [token, text]

end Word

/-- A name that is no literal. -/
structure Identifier where
  text : String
  free : ∀ word : Word, word.text ≠ text

namespace Identifier

def token (name : Identifier) : Token := ⟨.name, name.text⟩

theorem token_injective : Function.Injective token := by
  rintro ⟨text, free⟩ ⟨other, free'⟩ same
  obtain rfl : text = other := (Token.mk.inj same).2
  rfl

theorem token_ne_word (name : Identifier) (word : Word) : name.token ≠ word.token :=
  fun same => name.free word (Token.mk.inj same).2.symm

end Identifier

/-- How a sign is written: as a mark, or as a string of the same text. -/
inductive Spelling where
  | mark
  | quoted
  deriving DecidableEq, Repr

namespace Spelling

def kind : Spelling → TokenKind
  | mark => .punctuation
  | quoted => .string

/-- The sign of the given text. -/
def token (spelling : Spelling) (text : String) : Token := ⟨spelling.kind, text⟩

theorem token_injective (text : String) : Function.Injective (token · text) := by
  intro first second same
  cases first <;> cases second <;> simp_all [token, kind]

end Spelling

/-- What ends a statement. -/
inductive Terminator where
  | newline
  | semicolon
  deriving DecidableEq, Repr

namespace Terminator

def token : Terminator → Token
  | newline => ⟨.terminator, "\n"⟩
  | semicolon => ⟨.terminator, ";"⟩

theorem token_injective : Function.Injective token := by
  intro first second same
  cases first <;> cases second <;> simp_all [token]

@[simp] theorem token_kind (terminator : Terminator) : terminator.token.kind = .terminator := by
  cases terminator <;> rfl

end Terminator

/-- A mark. -/
def markToken (text : String) : Token := ⟨.punctuation, text⟩

mutual

/-- The derivations of expressions. -/
inductive ExprTree where
  | number (text : String)
  | string (text : String)
  | word (word : Word)
  | reference (name : Identifier)
  | call (name : Identifier) (arguments : ItemsTree)
  | list (members : ItemsTree)
  | scope (members : EntriesTree)

/-- The derivations of items between brackets. -/
inductive ItemsTree where
  | none
  | last (item : ExprTree)
  | more (item : ExprTree) (comma : Spelling) (rest : ItemsTree)

/-- The derivations of the entries of a scope. -/
inductive EntriesTree where
  | none
  | last (name : String) (colon : Spelling) (value : ExprTree)
  | more (name : String) (colon : Spelling) (value : ExprTree) (comma : Spelling)
      (rest : EntriesTree)

end

/-- The derivations of statements. -/
inductive StatementTree where
  | importModule (name : String)
  | forget (name : String)
  | assign (name : String) (sign : Spelling) (value : ExprTree)
  | expression (value : ExprTree)

/-- The derivations of programs. -/
inductive ProgramTree where
  | none
  | blank (terminator : Terminator) (rest : ProgramTree)
  | last (statement : StatementTree)
  | more (statement : StatementTree) (terminator : Terminator) (rest : ProgramTree)

section Yields

mutual

/-- The tokens of an expression. -/
def ExprTree.yield : ExprTree → List Token
  | .number text => [⟨.number, text⟩]
  | .string text => [⟨.string, text⟩]
  | .word word => [word.token]
  | .reference name => [name.token]
  | .call name arguments =>
      name.token :: markToken "(" :: (arguments.yield ++ [markToken ")"])
  | .list members => markToken "[" :: (members.yield ++ [markToken "]"])
  | .scope members => markToken "\x7b" :: (members.yield ++ [markToken "\x7d"])

/-- The tokens of items, without the brackets around them. -/
def ItemsTree.yield : ItemsTree → List Token
  | .none => []
  | .last item => item.yield
  | .more item comma rest => item.yield ++ comma.token "," :: rest.yield

/-- The tokens of entries, without the brackets around them. -/
def EntriesTree.yield : EntriesTree → List Token
  | .none => []
  | .last name colon value => ⟨.name, name⟩ :: colon.token ":" :: value.yield
  | .more name colon value comma rest =>
      ⟨.name, name⟩ :: colon.token ":" :: (value.yield ++ comma.token "," :: rest.yield)

end

/-- The tokens of a statement. -/
def StatementTree.yield : StatementTree → List Token
  | .importModule name => [⟨.name, "import"⟩, ⟨.name, name⟩]
  | .forget name => [⟨.name, "forget"⟩, ⟨.name, name⟩]
  | .assign name sign value => ⟨.name, name⟩ :: sign.token "=" :: value.yield
  | .expression value => value.yield

/-- The tokens of a program. -/
def ProgramTree.yield : ProgramTree → List Token
  | .none => []
  | .blank terminator rest => terminator.token :: rest.yield
  | .last statement => statement.yield
  | .more statement terminator rest => statement.yield ++ terminator.token :: rest.yield

end Yields

section Meanings

mutual

/-- The expression that is derived. -/
def ExprTree.expr : ExprTree → Expr
  | .number text => .literal (.int (tokenNumber text))
  | .string text => .literal (.str text)
  | .word word => .literal word.value
  | .reference name => .variable name.text
  | .call name arguments => .call name.text arguments.exprs
  | .list members => .list members.exprs
  | .scope members => .scope members.entries

/-- The expressions that are derived. -/
def ItemsTree.exprs : ItemsTree → List Expr
  | .none => []
  | .last item => [item.expr]
  | .more item _ rest => item.expr :: rest.exprs

/-- The entries that are derived. -/
def EntriesTree.entries : EntriesTree → List (String × Expr)
  | .none => []
  | .last name _ value => [(name, value.expr)]
  | .more name _ value _ rest => (name, value.expr) :: rest.entries

end

/-- The statement that is derived. -/
def StatementTree.statement : StatementTree → Statement
  | .importModule name => .importModule name
  | .forget name => .forget name
  | .assign name _ value => .assign name value.expr
  | .expression value => .expression value.expr

/-- The program that is derived. -/
def ProgramTree.program : ProgramTree → Program
  | .none => []
  | .blank _ rest => rest.program
  | .last statement => [statement.statement]
  | .more statement _ rest => statement.statement :: rest.program

end Meanings

/-! No piece of a program can be read in two ways: where a piece ends is decided by the token after
it, and which form it has by its first two tokens. -/

/-- These tokens do not go on with an opening parenthesis, which would make a call of a name before
them. -/
def Detaches (rest : List Token) : Prop :=
  ∀ token ∈ rest.head?, token ≠ markToken "("

theorem detaches_cons {token : Token} {rest : List Token} (other : token ≠ markToken "(") :
    Detaches (token :: rest) := by
  simpa [Detaches] using other

theorem detaches_mark {text : String} (other : text ≠ "(") (rest : List Token) :
    Detaches (markToken text :: rest) :=
  detaches_cons (by simpa [markToken] using other)

theorem detaches_comma (comma : Spelling) (rest : List Token) :
    Detaches (comma.token "," :: rest) :=
  detaches_cons (by simp [Spelling.token, markToken])

/-- The closing brackets of items. -/
def IsClosing (close : String) : Prop :=
  close = ")" ∨ close = "]"

/-- An expression starts with a token that neither closes a bracket nor ends a statement. -/
theorem ExprTree.exists_yield (tree : ExprTree) :
    ∃ token rest, tree.yield = token :: rest ∧ token.kind ≠ .terminator ∧
      ∀ close, token = markToken close → close = "[" ∨ close = "\x7b" := by
  cases tree <;>
    simp [yield, Word.token, Identifier.token, markToken]

/-- What stands after an item, a separator or the closing bracket, does not make a call of it. -/
theorem detaches_closing {close : String} (closing : IsClosing close) (rest : List Token) :
    Detaches (markToken close :: rest) := by
  rcases closing with rfl | rfl <;> exact detaches_mark (by decide) rest

theorem ne_yield_append_of_closing
    {close : String}
    (closing : IsClosing close ∨ close = "\x7d")
    (tree : ExprTree)
    (rest more : List Token) :
    markToken close :: rest ≠ tree.yield ++ more := by
  obtain ⟨token, others, yields, -, opening⟩ := tree.exists_yield
  intro same
  rw [yields, List.cons_append] at same
  have closes := opening close (List.cons.inj same).1.symm
  rcases closing with (rfl | rfl) | rfl <;> simp at closes

theorem comma_ne_closing {close : String} (closing : IsClosing close ∨ close = "\x7d")
    (comma : Spelling) : comma.token "," ≠ markToken close := by
  rcases closing with (rfl | rfl) | rfl <;> simp [Spelling.token, markToken]

mutual

theorem ExprTree.eq_of_append_eq : (first second : ExprTree) → {rest more : List Token} →
    Detaches rest → Detaches more → first.yield ++ rest = second.yield ++ more →
      first = second ∧ rest = more
  | .number _, second, _, _, _, _, same => by
      cases second <;>
        simp_all [ExprTree.yield, Word.token, Identifier.token, markToken]
  | .string _, second, _, _, _, _, same => by
      cases second <;>
        simp_all [ExprTree.yield, Word.token, Identifier.token, markToken]
  | .word word, second, _, _, _, _, same => by
      cases second with
      | word other =>
          obtain ⟨sameToken, sameRest⟩ := List.cons.inj same
          exact ⟨congrArg _ (Word.token_injective sameToken), sameRest⟩
      | reference name => exact absurd (List.cons.inj same).1.symm (name.token_ne_word word)
      | call name arguments => exact absurd (List.cons.inj same).1.symm (name.token_ne_word word)
      | _ => simp [ExprTree.yield, Word.token, markToken] at same
  | .reference name, second, _, _, apart, _, same => by
      cases second with
      | word word => exact absurd (List.cons.inj same).1 (name.token_ne_word word)
      | reference other =>
          obtain ⟨sameToken, sameRest⟩ := List.cons.inj same
          exact ⟨congrArg _ (Identifier.token_injective sameToken), sameRest⟩
      | call other arguments =>
          -- the rest after a reference would open the arguments of the call
          obtain ⟨-, rfl⟩ := List.cons.inj same
          exact absurd rfl (apart _ rfl)
      | _ => simp [ExprTree.yield, Identifier.token, markToken] at same
  | .call name arguments, second, _, _, _, apart, same => by
      cases second with
      | word word => exact absurd (List.cons.inj same).1 (name.token_ne_word word)
      | reference other =>
          obtain ⟨-, rfl⟩ := List.cons.inj same.symm
          exact absurd rfl (apart _ rfl)
      | call other others =>
          simp only [ExprTree.yield, List.cons_append, List.append_assoc, List.nil_append,
            List.cons.injEq, true_and] at same
          obtain ⟨sameToken, same⟩ := same
          obtain ⟨sameArguments, sameRest⟩ := arguments.eq_of_append_eq others (.inl rfl) same
          exact ⟨by rw [Identifier.token_injective sameToken, sameArguments], sameRest⟩
      | _ => simp [ExprTree.yield, Identifier.token, markToken] at same
  | .list members, second, _, _, _, _, same => by
      cases second with
      | list others =>
          simp only [ExprTree.yield, List.cons_append, List.append_assoc, List.nil_append,
            List.cons.injEq, true_and] at same
          obtain ⟨sameMembers, sameRest⟩ := members.eq_of_append_eq others (.inr rfl) same
          exact ⟨by rw [sameMembers], sameRest⟩
      | _ => simp [ExprTree.yield, Word.token, Identifier.token, markToken] at same
  | .scope members, second, _, _, _, _, same => by
      cases second with
      | scope others =>
          simp only [ExprTree.yield, List.cons_append, List.append_assoc, List.nil_append,
            List.cons.injEq, true_and] at same
          obtain ⟨sameMembers, sameRest⟩ := members.eq_of_append_eq others same
          exact ⟨by rw [sameMembers], sameRest⟩
      | _ => simp [ExprTree.yield, Word.token, Identifier.token, markToken] at same

theorem ItemsTree.eq_of_append_eq : (first second : ItemsTree) → {close : String} →
    {rest more : List Token} → IsClosing close →
      first.yield ++ markToken close :: rest = second.yield ++ markToken close :: more →
        first = second ∧ rest = more
  | .none, second, _, _, _, closing, same => by
      cases second with
      | none => simpa [ItemsTree.yield] using same
      | last item => exact absurd same (ne_yield_append_of_closing (.inl closing) item _ _)
      | more item comma others =>
          rw [ItemsTree.yield, ItemsTree.yield, List.append_assoc] at same
          exact absurd same (ne_yield_append_of_closing (.inl closing) item _ _)
  | .last item, second, _, _, _, closing, same => by
      cases second with
      | none => exact absurd same.symm (ne_yield_append_of_closing (.inl closing) item _ _)
      | last other =>
          obtain ⟨sameItem, sameRest⟩ := item.eq_of_append_eq other (detaches_closing closing _)
            (detaches_closing closing _) same
          exact ⟨by rw [sameItem], (List.cons.inj sameRest).2⟩
      | more other comma others =>
          rw [ItemsTree.yield, ItemsTree.yield, List.append_assoc] at same
          obtain ⟨-, sameRest⟩ := item.eq_of_append_eq other (detaches_closing closing _)
            (detaches_comma comma _) same
          exact absurd (List.cons.inj sameRest).1.symm (comma_ne_closing (.inl closing) comma)
  | .more item comma rest, second, _, _, _, closing, same => by
      cases second with
      | none =>
          rw [ItemsTree.yield, ItemsTree.yield, List.append_assoc] at same
          exact absurd same.symm (ne_yield_append_of_closing (.inl closing) item _ _)
      | last other =>
          rw [ItemsTree.yield, ItemsTree.yield, List.append_assoc] at same
          obtain ⟨-, sameRest⟩ := item.eq_of_append_eq other (detaches_comma comma _)
            (detaches_closing closing _) same
          exact absurd (List.cons.inj sameRest).1 (comma_ne_closing (.inl closing) comma)
      | more other comma' others =>
          rw [ItemsTree.yield, ItemsTree.yield, List.append_assoc, List.append_assoc] at same
          obtain ⟨sameItem, sameRest⟩ := item.eq_of_append_eq other (detaches_comma comma _)
            (detaches_comma comma' _) same
          obtain ⟨sameComma, sameMore⟩ := List.cons.inj sameRest
          obtain ⟨sameItems, last⟩ := rest.eq_of_append_eq others closing sameMore
          exact ⟨by rw [sameItem, Spelling.token_injective _ sameComma, sameItems], last⟩

theorem EntriesTree.eq_of_append_eq : (first second : EntriesTree) → {rest more : List Token} →
    first.yield ++ markToken "\x7d" :: rest = second.yield ++ markToken "\x7d" :: more →
      first = second ∧ rest = more
  | .none, second, _, _, same => by
      cases second <;> simp_all [EntriesTree.yield, markToken]
  | .last name colon value, second, _, _, same => by
      cases second with
      | none => simp [EntriesTree.yield, markToken] at same
      | last name' colon' value' =>
          simp only [EntriesTree.yield, List.cons_append, List.cons.injEq, Token.mk.injEq,
            true_and] at same
          obtain ⟨sameName, sameColon, sameRest⟩ := same
          obtain ⟨sameValue, sameMore⟩ := value.eq_of_append_eq value'
            (detaches_mark (by decide) _) (detaches_mark (by decide) _) sameRest
          exact ⟨by rw [sameName, Spelling.token_injective _ sameColon, sameValue],
            (List.cons.inj sameMore).2⟩
      | more name' colon' value' comma others =>
          simp only [EntriesTree.yield, List.cons_append, List.append_assoc,
            List.cons.injEq] at same
          obtain ⟨-, sameMore⟩ := value.eq_of_append_eq value' (detaches_mark (by decide) _)
            (detaches_comma comma _) same.2.2
          exact absurd (List.cons.inj sameMore).1.symm (comma_ne_closing (.inr rfl) comma)
  | .more name colon value comma rest, second, _, _, same => by
      cases second with
      | none => simp [EntriesTree.yield, markToken] at same
      | last name' colon' value' =>
          simp only [EntriesTree.yield, List.cons_append, List.append_assoc,
            List.cons.injEq] at same
          obtain ⟨-, sameMore⟩ := value.eq_of_append_eq value' (detaches_comma comma _)
            (detaches_mark (by decide) _) same.2.2
          exact absurd (List.cons.inj sameMore).1 (comma_ne_closing (.inr rfl) comma)
      | more name' colon' value' comma' others =>
          simp only [EntriesTree.yield, List.cons_append, List.append_assoc, List.cons.injEq,
            Token.mk.injEq, true_and] at same
          obtain ⟨sameName, sameColon, sameRest⟩ := same
          obtain ⟨sameValue, sameMore⟩ := value.eq_of_append_eq value' (detaches_comma comma _)
            (detaches_comma comma' _) sameRest
          obtain ⟨sameComma, sameOthers⟩ := List.cons.inj sameMore
          obtain ⟨sameEntries, last⟩ := rest.eq_of_append_eq others sameOthers
          refine ⟨?_, last⟩
          rw [sameName, Spelling.token_injective _ sameColon, sameValue,
            Spelling.token_injective _ sameComma, sameEntries]

end

/-- What stands after a statement: nothing, or a terminator. -/
def Ends (rest : List Token) : Prop :=
  ∀ token ∈ rest.head?, ∃ terminator : Terminator, token = terminator.token

theorem Ends.detaches {rest : List Token} (ends : Ends rest) : Detaches rest := by
  intro token member same
  obtain ⟨terminator, rfl⟩ := ends token member
  cases terminator <;> simp [Terminator.token, markToken] at same

theorem ends_nil : Ends [] := by
  simp [Ends]

theorem ends_terminator (terminator : Terminator) (rest : List Token) :
    Ends (terminator.token :: rest) := by
  intro token member
  exact ⟨terminator, (Option.some.inj member).symm⟩

/-- After the name at the start of an expression stands an opening parenthesis or the end of the
statement: no expression starts with two names, or with a name and a sign of assignment. -/
theorem ExprTree.second_of_yield
    (tree : ExprTree)
    {rest more : List Token}
    (ends : Ends rest)
    {name : String}
    {second : Token}
    (same : tree.yield ++ rest = ⟨.name, name⟩ :: second :: more) :
    second = markToken "(" ∨ ∃ terminator : Terminator, second = terminator.token := by
  cases tree with
  | call function arguments =>
      simp only [ExprTree.yield, List.cons_append, List.cons.injEq] at same
      exact .inl same.2.1.symm
  | word word =>
      obtain ⟨-, rfl⟩ := List.cons.inj same
      exact .inr (ends _ rfl)
  | reference name =>
      obtain ⟨-, rfl⟩ := List.cons.inj same
      exact .inr (ends _ rfl)
  | _ => simp [ExprTree.yield, markToken] at same

theorem not_opened_or_ended
    {token : Token}
    (other : token.kind = .name ∨ ∃ sign : Spelling, token = sign.token "=") :
    ¬ (token = markToken "(" ∨ ∃ terminator : Terminator, token = terminator.token) := by
  rintro (rfl | ⟨terminator, rfl⟩)
  · simp [markToken, Spelling.token] at other
  · cases terminator <;> simp [Terminator.token, Spelling.token] at other

theorem StatementTree.eq_of_append_eq
    (first second : StatementTree)
    {rest more : List Token}
    (ends : Ends rest)
    (ends' : Ends more)
    (same : first.yield ++ rest = second.yield ++ more) :
    first = second ∧ rest = more := by
  cases first with
  | importModule name =>
      cases second with
      | expression value =>
          exact absurd (value.second_of_yield ends' same.symm) (not_opened_or_ended (.inl rfl))
      | assign other sign value =>
          cases sign <;> simp [StatementTree.yield, Spelling.token, Spelling.kind] at same
      | importModule other => simpa [StatementTree.yield] using same
      | forget other => simp [StatementTree.yield] at same
  | forget name =>
      cases second with
      | expression value =>
          exact absurd (value.second_of_yield ends' same.symm) (not_opened_or_ended (.inl rfl))
      | assign other sign value =>
          cases sign <;> simp [StatementTree.yield, Spelling.token, Spelling.kind] at same
      | importModule other => simp [StatementTree.yield] at same
      | forget other => simpa [StatementTree.yield] using same
  | assign name sign value =>
      cases second with
      | expression other =>
          exact absurd (other.second_of_yield ends' same.symm)
            (not_opened_or_ended (.inr ⟨sign, rfl⟩))
      | assign other sign' value' =>
          simp only [StatementTree.yield, List.cons_append, List.cons.injEq, Token.mk.injEq,
            true_and] at same
          obtain ⟨sameName, sameSign, sameRest⟩ := same
          obtain ⟨sameValue, last⟩ :=
            value.eq_of_append_eq value' ends.detaches ends'.detaches sameRest
          exact ⟨by rw [sameName, Spelling.token_injective _ sameSign, sameValue], last⟩
      | _ => cases sign <;> simp [StatementTree.yield, Spelling.token, Spelling.kind] at same
  | expression value =>
      cases second with
      | expression other =>
          obtain ⟨sameValue, last⟩ :=
            value.eq_of_append_eq other ends.detaches ends'.detaches same
          exact ⟨by rw [sameValue], last⟩
      | assign name sign other =>
          exact absurd (value.second_of_yield ends same) (not_opened_or_ended (.inr ⟨sign, rfl⟩))
      | _ => exact absurd (value.second_of_yield ends same) (not_opened_or_ended (.inl rfl))

/-- A statement starts with a token that ends no statement. -/
theorem StatementTree.exists_yield (tree : StatementTree) :
    ∃ token rest, tree.yield = token :: rest ∧ token.kind ≠ .terminator := by
  cases tree with
  | expression value =>
      obtain ⟨token, rest, yields, inner, -⟩ := value.exists_yield
      exact ⟨token, rest, yields, inner⟩
  | _ => exact ⟨_, _, rfl, by simp⟩

theorem StatementTree.ne_terminator
    (tree : StatementTree)
    (terminator : Terminator)
    (rest more : List Token) :
    terminator.token :: rest ≠ tree.yield ++ more := by
  obtain ⟨token, others, yields, inner⟩ := tree.exists_yield
  intro same
  rw [yields, List.cons_append] at same
  rw [← (List.cons.inj same).1] at inner
  exact inner terminator.token_kind

theorem StatementTree.yield_ne_nil (tree : StatementTree) : tree.yield ≠ [] := by
  obtain ⟨token, rest, yields, -⟩ := tree.exists_yield
  simp [yields]

/-- No list of tokens has two derivations. -/
theorem ProgramTree.eq_of_yield_eq (first second : ProgramTree)
    (same : first.yield = second.yield) : first = second := by
  induction first generalizing second with
  | none =>
      cases second with
      | none => rfl
      | blank terminator rest => simp [yield] at same
      | last statement => exact absurd same.symm statement.yield_ne_nil
      | more statement terminator rest => simp [yield] at same
  | blank terminator rest ih =>
      cases second with
      | none => simp [yield] at same
      | blank other others =>
          obtain ⟨sameToken, sameRest⟩ := List.cons.inj same
          rw [Terminator.token_injective sameToken, ih _ sameRest]
      | last statement =>
          rw [yield, yield, ← List.append_nil statement.yield] at same
          exact absurd same (statement.ne_terminator _ _ _)
      | more statement other others => exact absurd same (statement.ne_terminator _ _ _)
  | last statement =>
      cases second with
      | none => exact absurd same statement.yield_ne_nil
      | blank terminator rest =>
          rw [yield, yield, ← List.append_nil statement.yield] at same
          exact absurd same.symm (statement.ne_terminator _ _ _)
      | last other =>
          have whole : statement.yield ++ [] = other.yield ++ [] := by simpa [yield] using same
          rw [(statement.eq_of_append_eq other ends_nil ends_nil whole).1]
      | more other terminator rest =>
          rw [yield, yield, ← List.append_nil statement.yield] at same
          obtain ⟨-, nothing⟩ :=
            statement.eq_of_append_eq other ends_nil (ends_terminator _ _) same
          cases nothing
  | more statement terminator rest ih =>
      cases second with
      | none => simp [yield] at same
      | blank other others => exact absurd same.symm (statement.ne_terminator _ _ _)
      | last other =>
          rw [yield, yield, ← List.append_nil other.yield] at same
          obtain ⟨-, nothing⟩ :=
            statement.eq_of_append_eq other (ends_terminator _ _) ends_nil same
          cases nothing
      | more other terminator' others =>
          obtain ⟨sameStatement, sameRest⟩ :=
            statement.eq_of_append_eq other (ends_terminator _ _) (ends_terminator _ _) same
          obtain ⟨sameToken, sameOthers⟩ := List.cons.inj sameRest
          rw [sameStatement, Terminator.token_injective sameToken, ih _ sameOthers]

end Language
end ScriptHost
