import ScriptHost.Proofs.Language.Recognition
import ScriptHost.Proofs.Language.Regularity
import ScriptHost.Proofs.Language.Scanning

/-!
# Literals

Texts that have a value on their own, and the same texts as programs.

* `Expr.IsLiteral` are the expressions of literals, lists and scopes.  They are the expressions with
  a literal value, and an evaluation gives them this value at once, whatever the scope.
* Tokens without a terminator are one expression for the reader of expressions exactly if they are
  one expression for the reader of programs.  The only derivation of such a program is the one of
  its expression.
* `exists_literal_iff`: a text is a literal exactly if it has no terminator and its program is one
  expression of this kind.
-/

namespace ScriptHost
namespace Language

/-- Nothing but literals, lists and scopes. -/
inductive Expr.IsLiteral : Expr → Prop
  | literal (value : Value) : IsLiteral (.literal value)
  | list {members : List Expr} :
      (∀ member ∈ members, IsLiteral member) → IsLiteral (.list members)
  | scope {members : List (String × Expr)} :
      (∀ entry ∈ members, IsLiteral entry.2) → IsLiteral (.scope members)

section Values

theorem literalItems?_cons_eq_some
    {first : Expr}
    {rest : List Expr}
    {values : List Value} :
    literalItems? (first :: rest) = some values ↔
      ∃ value others, first.literalValue? = some value ∧ literalItems? rest = some others ∧
        value :: others = values := by
  simp [literalItems?, Option.bind_eq_some_iff]

theorem literalEntries?_cons_eq_some
    {name : String}
    {first : Expr}
    {rest : List (String × Expr)}
    {vars : List Variable} :
    literalEntries? ((name, first) :: rest) = some vars ↔
      ∃ value others, first.literalValue? = some value ∧ literalEntries? rest = some others ∧
        (name, value) :: others = vars := by
  simp [literalEntries?, Option.bind_eq_some_iff]

mutual

theorem Expr.isLiteral_of_literalValue? : (expr : Expr) → {value : Value} →
    expr.literalValue? = some value → expr.IsLiteral
  | .literal value, _, _ => .literal value
  | .variable _, _, known => by
      rw [Expr.literalValue?] at known
      cases known
  | .call _ _, _, known => by
      rw [Expr.literalValue?] at known
      cases known
  | .list members, _, known => by
      rw [Expr.literalValue?, Option.map_eq_some_iff] at known
      obtain ⟨values, knownMembers, -⟩ := known
      exact .list (isLiteral_of_literalItems? members knownMembers)
  | .scope members, _, known => by
      rw [Expr.literalValue?, Option.map_eq_some_iff] at known
      obtain ⟨vars, knownMembers, -⟩ := known
      exact .scope (isLiteral_of_literalEntries? members knownMembers)

theorem isLiteral_of_literalItems? : (exprs : List Expr) → {values : List Value} →
    literalItems? exprs = some values → ∀ expr ∈ exprs, expr.IsLiteral
  | [], _, _ => by simp
  | first :: rest, _, known => by
      obtain ⟨value, others, knownFirst, knownRest, -⟩ := literalItems?_cons_eq_some.1 known
      exact List.forall_mem_cons.2 ⟨first.isLiteral_of_literalValue? knownFirst,
        isLiteral_of_literalItems? rest knownRest⟩

theorem isLiteral_of_literalEntries? : (members : List (String × Expr)) →
    {vars : List Variable} → literalEntries? members = some vars →
      ∀ entry ∈ members, entry.2.IsLiteral
  | [], _, _ => by simp
  | (name, first) :: rest, _, known => by
      obtain ⟨value, others, knownFirst, knownRest, -⟩ := literalEntries?_cons_eq_some.1 known
      exact List.forall_mem_cons.2 ⟨first.isLiteral_of_literalValue? knownFirst,
        isLiteral_of_literalEntries? rest knownRest⟩

end

theorem exists_literalItems?
    {exprs : List Expr}
    (known : ∀ expr ∈ exprs, ∃ value, expr.literalValue? = some value) :
    ∃ values, literalItems? exprs = some values := by
  induction exprs with
  | nil => exact ⟨[], by rw [literalItems?]⟩
  | cons first rest ih =>
      obtain ⟨⟨value, knownFirst⟩, knownRest⟩ := List.forall_mem_cons.1 known
      obtain ⟨others, knownOthers⟩ := ih knownRest
      exact ⟨_, literalItems?_cons_eq_some.2 ⟨value, others, knownFirst, knownOthers, rfl⟩⟩

theorem exists_literalEntries?
    {members : List (String × Expr)}
    (known : ∀ entry ∈ members, ∃ value, entry.2.literalValue? = some value) :
    ∃ vars, literalEntries? members = some vars := by
  induction members with
  | nil => exact ⟨[], by rw [literalEntries?]⟩
  | cons entry rest ih =>
      obtain ⟨⟨value, knownFirst⟩, knownRest⟩ := List.forall_mem_cons.1 known
      obtain ⟨others, knownOthers⟩ := ih knownRest
      exact ⟨_, literalEntries?_cons_eq_some.2 ⟨value, others, knownFirst, knownOthers, rfl⟩⟩

/-- The expressions with a literal value are those of literals, lists and scopes. -/
theorem Expr.exists_literalValue?_iff (expr : Expr) :
    (∃ value, expr.literalValue? = some value) ↔ expr.IsLiteral := by
  constructor
  · rintro ⟨value, known⟩
    exact expr.isLiteral_of_literalValue? known
  · intro isLiteral
    induction isLiteral with
    | literal value => exact ⟨value, by rw [literalValue?]⟩
    | list _ ih =>
        obtain ⟨values, known⟩ := exists_literalItems? ih
        exact ⟨.list values, by rw [literalValue?, known]; rfl⟩
    | scope _ ih =>
        obtain ⟨vars, known⟩ := exists_literalEntries? ih
        exact ⟨.scope vars, by rw [literalValue?, known]; rfl⟩

end Values

section Evaluation

variable (debug : Bool)
variable (scope : Entries Value)

mutual

/-- An expression with a literal value evaluates to it, without a call and without a log. -/
theorem eval_of_literalValue? : (expr : Expr) → {value : Value} →
    expr.literalValue? = some value → expr.eval debug scope = .done value
  | .literal value, _, known => by
      rw [Expr.literalValue?] at known
      cases known
      rw [Expr.eval]
      rfl
  | .variable _, _, known => by
      rw [Expr.literalValue?] at known
      cases known
  | .call _ _, _, known => by
      rw [Expr.literalValue?] at known
      cases known
  | .list members, _, known => by
      rw [Expr.literalValue?, Option.map_eq_some_iff] at known
      obtain ⟨values, knownMembers, rfl⟩ := known
      rw [Expr.eval, evalItems_of_literalItems? members knownMembers]
      rfl
  | .scope members, _, known => by
      rw [Expr.literalValue?, Option.map_eq_some_iff] at known
      obtain ⟨vars, knownMembers, rfl⟩ := known
      rw [Expr.eval, evalEntries_of_literalEntries? members knownMembers]
      rfl

theorem evalItems_of_literalItems? : (exprs : List Expr) → {values : List Value} →
    literalItems? exprs = some values → evalItems debug scope exprs = .done values
  | [], _, known => by
      rw [literalItems?] at known
      cases known
      rw [evalItems]
      rfl
  | first :: rest, _, known => by
      obtain ⟨value, others, knownFirst, knownRest, rfl⟩ := literalItems?_cons_eq_some.1 known
      rw [evalItems, eval_of_literalValue? first knownFirst, Interaction.done_bind,
        evalItems_of_literalItems? rest knownRest]
      rfl

theorem evalEntries_of_literalEntries? : (members : List (String × Expr)) →
    {vars : List Variable} → literalEntries? members = some vars →
      evalEntries debug scope members = .done vars
  | [], _, known => by
      rw [literalEntries?] at known
      cases known
      rw [evalEntries]
      rfl
  | (name, first) :: rest, _, known => by
      obtain ⟨value, others, knownFirst, knownRest, rfl⟩ := literalEntries?_cons_eq_some.1 known
      rw [evalEntries, eval_of_literalValue? first knownFirst, Interaction.done_bind,
        evalEntries_of_literalEntries? rest knownRest]
      rfl

end

end Evaluation

/-- The evaluation of a program that is an expression with a literal value gives this value and
leaves the variables as they are. -/
theorem evaluate_of_literalValue?
    {expr : Expr}
    {value : Value}
    (known : expr.literalValue? = some value)
    (vars : List Variable)
    (functions : List String)
    (modules : Entries (Option Program))
    (debug : Bool) :
    evaluate ⟨[.expression expr], vars, functions, modules, debug⟩ =
      .done ⟨value, Entries.ofPairs vars⟩ := by
  have ran : ∀ depth, run debug (fun name => (modules.get? name).join) depth [.expression expr]
      (Entries.ofPairs vars) = .done ⟨value, Entries.ofPairs vars⟩ := by
    intro depth
    cases depth <;>
      rw [run, runStatements, eval_of_literalValue? _ _ expr known, Interaction.done_bind] <;> rfl
  rw [evaluate, ran]
  rfl

section Reading

mutual

theorem ExprTree.kind_ne_terminator : (tree : ExprTree) →
    ∀ token ∈ tree.yield, token.kind ≠ .terminator
  | .number _ => by simp [ExprTree.yield]
  | .string _ => by simp [ExprTree.yield]
  | .word _ => by simp [ExprTree.yield, Word.token]
  | .reference _ => by simp [ExprTree.yield, Identifier.token]
  | .call name arguments => by
      have inside := arguments.kind_ne_terminator
      simpa [ExprTree.yield, Identifier.token, markToken, or_imp, forall_and] using inside
  | .list members => by
      have inside := members.kind_ne_terminator
      simpa [ExprTree.yield, markToken, or_imp, forall_and] using inside
  | .scope members => by
      have inside := members.kind_ne_terminator
      simpa [ExprTree.yield, markToken, or_imp, forall_and] using inside

theorem ItemsTree.kind_ne_terminator : (tree : ItemsTree) →
    ∀ token ∈ tree.yield, token.kind ≠ .terminator
  | .none => by simp [ItemsTree.yield]
  | .last item => item.kind_ne_terminator
  | .more item comma rest => by
      have first := item.kind_ne_terminator
      have others := rest.kind_ne_terminator
      have separator : (comma.token ",").kind ≠ .terminator := by cases comma <;> decide
      rw [ItemsTree.yield]
      exact List.forall_mem_append.2 ⟨first, List.forall_mem_cons.2 ⟨separator, others⟩⟩

theorem EntriesTree.kind_ne_terminator : (tree : EntriesTree) →
    ∀ token ∈ tree.yield, token.kind ≠ .terminator
  | .none => by simp [EntriesTree.yield]
  | .last name colon value => by
      have inside := value.kind_ne_terminator
      have sign : (colon.token ":").kind ≠ .terminator := by cases colon <;> decide
      rw [EntriesTree.yield]
      exact List.forall_mem_cons.2 ⟨by simp, List.forall_mem_cons.2 ⟨sign, inside⟩⟩
  | .more name colon value comma rest => by
      have inside := value.kind_ne_terminator
      have others := rest.kind_ne_terminator
      have sign : (colon.token ":").kind ≠ .terminator := by cases colon <;> decide
      have separator : (comma.token ",").kind ≠ .terminator := by cases comma <;> decide
      rw [EntriesTree.yield]
      exact List.forall_mem_cons.2 ⟨by simp, List.forall_mem_cons.2 ⟨sign,
        List.forall_mem_append.2 ⟨inside, List.forall_mem_cons.2 ⟨separator, others⟩⟩⟩⟩

end

/-- A program of one expression that is written without a terminator is derived from the expression
alone. -/
theorem ProgramTree.exists_of_program_eq
    {tree : ProgramTree}
    (unended : ∀ token ∈ tree.yield, token.kind ≠ .terminator)
    {expr : Expr}
    (meaning : tree.program = [.expression expr]) :
    ∃ inner : ExprTree, inner.yield = tree.yield ∧ inner.expr = expr := by
  -- every other derivation has a terminator, no statement or a statement of another kind
  cases tree with
  | none => cases meaning
  | blank terminator rest =>
      exact absurd terminator.token_kind (unended _ (by simp [ProgramTree.yield]))
  | more statement terminator rest =>
      exact absurd terminator.token_kind (unended _ (by simp [ProgramTree.yield]))
  | last statement =>
      cases statement with
      | expression inner =>
          obtain ⟨same⟩ : Statement.expression inner.expr = .expression expr :=
            (List.cons.inj meaning).1
          exact ⟨inner, rfl, rfl⟩
      | _ => cases meaning

/-- The readers of programs and of expressions agree on what is one expression, unless it has a
terminator. -/
theorem program_eq_expression_iff
    {tokens : List Token}
    (wellFormed : ∀ token ∈ tokens, token.isWellFormed = true)
    (expr : Expr) :
    (∀ token ∈ tokens, token.kind ≠ .terminator) ∧ program tokens = .ok [.expression expr] ↔
      readExpression tokens = .ok (expr, []) := by
  constructor
  · rintro ⟨unended, read⟩
    obtain ⟨tree, rfl, meaning⟩ := program_derived tokens wellFormed read
    obtain ⟨inner, yields, rfl⟩ := ProgramTree.exists_of_program_eq unended meaning
    rw [← yields, ← List.append_nil inner.yield]
    exact readExpression_yield inner ends_nil.detaches
  · intro read
    obtain ⟨tree, yields, rfl⟩ := (readers_derived tokens wellFormed).1 expr [] read
    obtain rfl : tree.yield = tokens := by simpa using yields
    exact ⟨tree.kind_ne_terminator, program_yield (.last (.expression tree))⟩

theorem literal_of_tokenize
    {text : String}
    {tokens : List Token}
    (scanned : tokenize text = .ok tokens) :
    literal text =
      match readExpression tokens with
      | .error fault => .error fault
      | .ok (_, _ :: _) => .error (.trailingInput text)
      | .ok (expr, []) =>
          match expr.literalValue? with
          | some value => .ok value
          | none => .error .notLiteral := by
  rw [literal, scanned, readExpression]
  dsimp only
  cases expression tokens with
  | error fault => rfl
  | ok parsed =>
      obtain ⟨expr, rest, shorter⟩ := parsed
      cases rest <;> rfl

theorem literal_eq_ok_iff (text : String) (value : Value) :
    literal text = .ok value ↔
      ∃ tokens expr, tokenize text = .ok tokens ∧ readExpression tokens = .ok (expr, []) ∧
        expr.literalValue? = some value := by
  constructor
  · intro made
    cases scanned : tokenize text with
    | error fault => simp [literal, scanned] at made
    | ok tokens =>
        rw [literal_of_tokenize scanned] at made
        split at made
        · cases made
        · cases made
        · next expr read =>
            split at made
            · next found known =>
                cases made
                exact ⟨tokens, expr, rfl, read, known⟩
            · cases made
  · rintro ⟨tokens, expr, scanned, read, known⟩
    rw [literal_of_tokenize scanned, read]
    dsimp only
    rw [known]

theorem literal_eq_ok_iff_compile (text : String) (value : Value) :
    literal text = .ok value ↔
      ∃ tokens expr, tokenize text = .ok tokens ∧
        (∀ token ∈ tokens, token.kind ≠ .terminator) ∧
        compile text = .ok [.expression expr] ∧ expr.literalValue? = some value := by
  have agree : ∀ tokens, tokenize text = .ok tokens → ∀ expr,
      (∀ token ∈ tokens, token.kind ≠ .terminator) ∧ compile text = .ok [.expression expr] ↔
        readExpression tokens = .ok (expr, []) := by
    intro tokens scanned expr
    rw [compile, scanned]
    exact program_eq_expression_iff (isWellFormed_of_tokenize scanned) expr
  rw [literal_eq_ok_iff]
  constructor
  · rintro ⟨tokens, expr, scanned, read, known⟩
    obtain ⟨unended, compiled⟩ := (agree tokens scanned expr).2 read
    exact ⟨tokens, expr, scanned, unended, compiled, known⟩
  · rintro ⟨tokens, expr, scanned, unended, compiled, known⟩
    exact ⟨tokens, expr, scanned, (agree tokens scanned expr).1 ⟨unended, compiled⟩, known⟩

/-- A text is a literal if and only if it has no terminator and its program is one expression of
literals, lists and scopes. -/
theorem exists_literal_iff (text : String) :
    (∃ value, literal text = .ok value) ↔
      ∃ tokens expr, tokenize text = .ok tokens ∧
        (∀ token ∈ tokens, token.kind ≠ .terminator) ∧
        compile text = .ok [.expression expr] ∧ expr.IsLiteral := by
  constructor
  · rintro ⟨value, made⟩
    obtain ⟨tokens, expr, scanned, unended, compiled, known⟩ :=
      (literal_eq_ok_iff_compile text value).1 made
    exact ⟨tokens, expr, scanned, unended, compiled, expr.exists_literalValue?_iff.1 ⟨_, known⟩⟩
  · rintro ⟨tokens, expr, scanned, unended, compiled, isLiteral⟩
    obtain ⟨value, known⟩ := expr.exists_literalValue?_iff.2 isLiteral
    exact ⟨value, (literal_eq_ok_iff_compile text value).2
      ⟨tokens, expr, scanned, unended, compiled, known⟩⟩

/-- The value of a literal is regular, since its program is. -/
theorem regular_literal
    {text : String}
    {value : Value}
    (made : literal text = .ok value) :
    value.Regular := by
  obtain ⟨-, expr, -, -, compiled, known⟩ := (literal_eq_ok_iff_compile text value).1 made
  have regular : expr.Regular := regular_compile compiled _ List.mem_cons_self
  have nothing : ∀ entry ∈ ([] : Entries Value), entry.2.Regular := nofun
  have evaluated := yields_eval false nothing expr regular
  rwa [eval_of_literalValue? false [] expr known] at evaluated

end Reading

end Language
end ScriptHost
