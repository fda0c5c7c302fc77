import ScriptHost.Proofs.Language.Reading

/-!
# Sources joined by a newline

Two sources that are put together with a newline between them are read as the two one after the
other.  No token, no expression and no statement reaches over the newline, so the tokens are those
of the first source, the newline and those of the second, and the program is the first followed by
the second.

What comes after a terminator has no influence on what is read before it, whether reading succeeds
or fails; only the rest of the tokens is longer.
-/

namespace ScriptHost
namespace Language

namespace Token

/-- The token of a newline. -/
def newline : Token := ⟨.terminator, String.ofList ['\n']⟩

theorem before_eq_ok
    {kind : TokenKind}
    {text : List Char}
    {others : Except SourceFault (List Token)}
    {tokens : List Token} :
    before kind text others = .ok tokens ↔
      ∃ rest, others = .ok rest ∧ tokens = ⟨kind, String.ofList text⟩ :: rest := by
  cases others with
  | error fault =>
      simp [before]
  | ok rest =>
      simp [before, eq_comm]

/-- A token before others that are changed by adding some at their end. -/
theorem before_map
    (kind : TokenKind)
    (text : List Char)
    (rest : List Token)
    (others : Except SourceFault (List Token)) :
    before kind text (others.map fun tokens => rest ++ newline :: tokens) =
      others.map fun tokens => (⟨kind, String.ofList text⟩ :: rest) ++ newline :: tokens := by
  cases others <;> rfl

/-- A word that cannot contain a newline ends before it. -/
theorem takeWhile_append_newline
    {p : Char → Bool}
    (ends : p '\n' = false)
    (first second : List Char) :
    (first ++ '\n' :: second).takeWhile p = first.takeWhile p := by
  induction first with
  | nil =>
      simp [ends]
  | cons c rest ih =>
      simp only [List.cons_append, List.takeWhile_cons, ih]

theorem dropWhile_append_newline
    {p : Char → Bool}
    (ends : p '\n' = false)
    (first second : List Char) :
    (first ++ '\n' :: second).dropWhile p = first.dropWhile p ++ '\n' :: second := by
  induction first with
  | nil =>
      simp [ends]
  | cons c rest ih =>
      simp only [List.cons_append, List.dropWhile_cons, ih]
      split <;> rfl

/-- A string that is closed ends at its quote, whatever follows. -/
theorem takeWhile_append_of_mem
    {p : Char → Bool}
    {first : List Char}
    {c : Char}
    (ends : p c = false)
    (member : c ∈ first)
    (second : List Char) :
    (first ++ second).takeWhile p = first.takeWhile p ∧
      (first ++ second).dropWhile p = first.dropWhile p ++ second ∧
      first.dropWhile p ≠ [] := by
  induction first with
  | nil =>
      cases member
  | cons d rest ih =>
      simp only [List.cons_append, List.takeWhile_cons, List.dropWhile_cons]
      cases here : p d with
      | false =>
          simp
      | true =>
          have later : c ∈ rest := by
            rcases List.mem_cons.1 member with rfl | later
            · rw [ends] at here
              cases here
            · exact later
          obtain ⟨taken, dropped, nonempty⟩ := ih later
          simp [taken, dropped, nonempty]

theorem startsNumber_append_newline (c : Char) (first second : List Char) :
    startsNumber c (first ++ '\n' :: second) = startsNumber c first := by
  cases first with
  | nil =>
      simp [startsNumber]
  | cons d rest =>
      simp [startsNumber]

/-- The tokens of two texts joined by a newline. -/
theorem scan_append_newline
    (first second : List Char)
    {tokens : List Token}
    (scanned : scan first = .ok tokens) :
    scan (first ++ '\n' :: second) =
      (scan second).map fun others => tokens ++ newline :: others := by
  induction first using scan.induct generalizing tokens with
  | case1 =>
      rw [scan] at scanned
      cases scanned
      rw [List.nil_append, scan]
      cases scan second <;> rfl
  | case2 c rest terminator ih =>
      rw [scan, if_pos terminator, before_eq_ok] at scanned
      obtain ⟨others, scannedRest, rfl⟩ := scanned
      rw [List.cons_append, scan, if_pos terminator, ih scannedRest, before_map]
  | case3 c rest notTerminator blank ih =>
      rw [scan, if_neg notTerminator, if_pos blank] at scanned
      rw [List.cons_append, scan, if_neg notTerminator, if_pos blank, ih scanned]
  | case4 rest notTerminator notBlank ih =>
      rw [scan, if_neg notTerminator, if_neg notBlank, if_pos rfl] at scanned
      rw [List.cons_append, scan, if_neg notTerminator, if_neg notBlank, if_pos rfl,
        dropWhile_append_newline (by decide), ih scanned]
  | case5 c rest notTerminator notBlank notComment number ih =>
      rw [scan, if_neg notTerminator, if_neg notBlank, if_neg notComment, if_pos number,
        before_eq_ok] at scanned
      obtain ⟨others, scannedRest, rfl⟩ := scanned
      have number' : startsNumber c (rest ++ '\n' :: second) = true := by
        rwa [startsNumber_append_newline]
      rw [List.cons_append, scan, if_neg notTerminator, if_neg notBlank, if_neg notComment,
        if_pos number', takeWhile_append_newline (by decide), dropWhile_append_newline (by decide),
        ih scannedRest, before_map]
  | case6 rest closed notTerminator notBlank notComment notNumber ih =>
      rw [scan, if_neg notTerminator, if_neg notBlank, if_neg notComment, if_neg notNumber,
        if_pos rfl, if_pos closed, before_eq_ok] at scanned
      obtain ⟨others, scannedRest, rfl⟩ := scanned
      have notNumber' : ¬ startsNumber '"' (rest ++ '\n' :: second) = true := by
        rwa [startsNumber_append_newline]
      have member : '"' ∈ rest := by
        simpa using closed
      have closed' : (rest ++ '\n' :: second).contains '"' = true := by
        simp [member]
      obtain ⟨taken, dropped, nonempty⟩ :=
        takeWhile_append_of_mem (p := (· != '"')) (by decide) member ('\n' :: second)
      rw [List.cons_append, scan, if_neg notTerminator, if_neg notBlank, if_neg notComment,
        if_neg notNumber', if_pos rfl, if_pos closed', taken, dropped,
        List.tail_append_of_ne_nil nonempty, ih scannedRest, before_map]
  | case7 rest unclosed notTerminator notBlank notComment notNumber =>
      rw [scan, if_neg notTerminator, if_neg notBlank, if_neg notComment, if_neg notNumber,
        if_pos rfl, if_neg unclosed] at scanned
      cases scanned
  | case8 c rest notTerminator notBlank notComment notNumber notString name ih =>
      rw [scan, if_neg notTerminator, if_neg notBlank, if_neg notComment, if_neg notNumber,
        if_neg notString, if_pos name, before_eq_ok] at scanned
      obtain ⟨others, scannedRest, rfl⟩ := scanned
      have notNumber' : ¬ startsNumber c (rest ++ '\n' :: second) = true := by
        rwa [startsNumber_append_newline]
      rw [List.cons_append, scan, if_neg notTerminator, if_neg notBlank, if_neg notComment,
        if_neg notNumber', if_neg notString, if_pos name, takeWhile_append_newline (by decide),
        dropWhile_append_newline (by decide), ih scannedRest, before_map]
  | case9 c rest notTerminator notBlank notComment notNumber notString notName mark ih =>
      rw [scan, if_neg notTerminator, if_neg notBlank, if_neg notComment, if_neg notNumber,
        if_neg notString, if_neg notName, if_pos mark, before_eq_ok] at scanned
      obtain ⟨others, scannedRest, rfl⟩ := scanned
      have notNumber' : ¬ startsNumber c (rest ++ '\n' :: second) = true := by
        rwa [startsNumber_append_newline]
      rw [List.cons_append, scan, if_neg notTerminator, if_neg notBlank, if_neg notComment,
        if_neg notNumber', if_neg notString, if_neg notName, if_pos mark, ih scannedRest,
        before_map]
  | case10 c rest notTerminator notBlank notComment notNumber notString notName notMark =>
      rw [scan, if_neg notTerminator, if_neg notBlank, if_neg notComment, if_neg notNumber,
        if_neg notString, if_neg notName, if_neg notMark] at scanned
      cases scanned

end Token
/-- A piece that was read, with more tokens after the rest. -/
def withMore {α : Type} (more : List Token) (read : α × List Token) : α × List Token :=
  (read.1, read.2 ++ more)

theorem map_withMore_onPiece
    {α β : Type}
    (f : α → β)
    (more : List Token)
    (read : Except SourceFault (α × List Token)) :
    (read.map (withMore more)).map (onPiece f) = (read.map (onPiece f)).map (withMore more) := by
  cases read <;> rfl

section Terminated

variable {stop : Token} (terminator : stop.kind = .terminator) (more : List Token)
include terminator

theorem not_isMark (text : String) : ¬ stop.isMark text = true := by
  simp [Token.isMark, terminator]

theorem expectText_terminator (text : String) : expectText text stop = some .unexpectedEnd := by
  rw [expectText, if_pos terminator]

theorem readExpression_terminator :
    readExpression (stop :: more) = .error .unexpectedEnd := by
  rw [readExpression_cons, terminator]

/-- An expression ends before a terminator, if the lists and scopes in it do. -/
theorem readExpression_append_step
    (tokens : List Token)
    (onItems : ∀ inner : List Token, inner.length < tokens.length → ∀ close,
      readItems close (inner ++ stop :: more) =
        (readItems close inner).map (withMore (stop :: more)))
    (onEntries : ∀ inner : List Token, inner.length < tokens.length →
      readEntries (inner ++ stop :: more) = (readEntries inner).map (withMore (stop :: more))) :
    readExpression (tokens ++ stop :: more) =
      (readExpression tokens).map (withMore (stop :: more)) := by
  cases tokens with
  | nil =>
      rw [List.nil_append, readExpression_terminator terminator, readExpression_nil]
      rfl
  | cons token rest =>
      rw [List.cons_append, readExpression_cons, readExpression_cons]
      cases token.kind with
      | terminator =>
          rfl
      | number =>
          rfl
      | string =>
          rfl
      | name =>
          dsimp only
          cases wordLiteral? token.text with
          | some value =>
              rfl
          | none =>
              cases rest with
              | nil =>
                  rw [List.nil_append]
                  dsimp only
                  rw [if_neg (not_isMark terminator "(")]
                  rfl
              | cons next inner =>
                  rw [List.cons_append]
                  dsimp only
                  by_cases opening : next.isMark "(" = true
                  · rw [if_pos opening, if_pos opening,
                      onItems inner (length_lt_cons_cons token next inner), map_withMore_onPiece]
                  · rw [if_neg opening, if_neg opening]
                    rfl
      | punctuation =>
          dsimp only
          by_cases bracket : token.text = "["
          · rw [if_pos bracket, if_pos bracket, onItems rest (by simp), map_withMore_onPiece]
          · rw [if_neg bracket, if_neg bracket]
            by_cases brace : token.text = "\x7b"
            · rw [if_pos brace, if_pos brace, onEntries rest (by simp), map_withMore_onPiece]
            · rw [if_neg brace, if_neg brace]
              rfl

/-- Items end before a terminator, if the first of them and those after it do. -/
theorem readItems_append_step
    (close : String)
    (tokens : List Token)
    (onExpression : readExpression (tokens ++ stop :: more) =
      (readExpression tokens).map (withMore (stop :: more)))
    (onItems : ∀ inner : List Token, inner.length < tokens.length →
      readItems close (inner ++ stop :: more) =
        (readItems close inner).map (withMore (stop :: more))) :
    readItems close (tokens ++ stop :: more) =
      (readItems close tokens).map (withMore (stop :: more)) := by
  cases tokens with
  | nil =>
      rw [List.nil_append, readItems_cons, if_neg (not_isMark terminator close),
        readExpression_terminator terminator, readItems_nil]
      rfl
  | cons token rest =>
      rw [List.cons_append] at onExpression
      rw [List.cons_append, readItems_cons, readItems_cons, onExpression]
      by_cases closing : token.isMark close = true
      · rw [if_pos closing, if_pos closing]
        rfl
      rw [if_neg closing, if_neg closing]
      cases read : readExpression (token :: rest) with
      | error fault =>
          rfl
      | ok pair =>
          obtain ⟨first, after⟩ := pair
          have shorter := length_lt_of_pair read
          cases after with
          | nil =>
              change (if _ then _ else _) = _
              rw [if_neg (not_isMark terminator close), expectText_terminator terminator]
              rfl
          | cons next others =>
              change (if _ then _ else _) = Except.map _ (if _ then _ else _)
              by_cases ending : next.isMark close = true
              · rw [if_pos ending, if_pos ending]
                rfl
              · rw [if_neg ending, if_neg ending]
                cases expectText "," next with
                | some fault =>
                    rfl
                | none =>
                    have fewer : others.length < (token :: rest).length := by
                      simp only [List.length_cons] at shorter ⊢
                      omega
                    change Except.map _ (readItems close (others ++ stop :: more)) = _
                    rw [onItems others fewer, map_withMore_onPiece]

/-- The entries of a scope end before a terminator, if the values in them do. -/
theorem readEntries_append_step
    (tokens : List Token)
    (onExpression : ∀ inner : List Token, inner.length < tokens.length →
      readExpression (inner ++ stop :: more) =
        (readExpression inner).map (withMore (stop :: more)))
    (onEntries : ∀ inner : List Token, inner.length < tokens.length →
      readEntries (inner ++ stop :: more) = (readEntries inner).map (withMore (stop :: more))) :
    readEntries (tokens ++ stop :: more) =
      (readEntries tokens).map (withMore (stop :: more)) := by
  cases tokens with
  | nil =>
      rw [List.nil_append, readEntries_cons, if_neg (not_isMark terminator _),
        if_pos terminator, readEntries_nil]
      rfl
  | cons token rest =>
      rw [List.cons_append, readEntries_cons, readEntries_cons]
      by_cases closing : token.isMark "\x7d" = true
      · rw [if_pos closing, if_pos closing]
        rfl
      rw [if_neg closing, if_neg closing]
      by_cases ended : token.kind = .terminator
      · rw [if_pos ended, if_pos ended]
        rfl
      rw [if_neg ended, if_neg ended]
      by_cases other : token.kind ≠ .name
      · rw [if_pos other, if_pos other]
        rfl
      rw [if_neg other, if_neg other]
      cases rest with
      | nil =>
          rw [List.nil_append]
          dsimp only
          rw [expectText_terminator terminator]
          rfl
      | cons colon body =>
          rw [List.cons_append]
          dsimp only
          cases expectText ":" colon with
          | some fault =>
              rfl
          | none =>
              dsimp only
              rw [onExpression body (length_lt_cons_cons token colon body)]
              cases read : readExpression body with
              | error fault =>
                  rfl
              | ok pair =>
                  obtain ⟨first, after⟩ := pair
                  have shorter := length_lt_of_pair read
                  cases after with
                  | nil =>
                      change (if _ then _ else _) = _
                      rw [if_neg (not_isMark terminator _), expectText_terminator terminator]
                      rfl
                  | cons next others =>
                      change (if _ then _ else _) = Except.map _ (if _ then _ else _)
                      by_cases ending : next.isMark "\x7d" = true
                      · rw [if_pos ending, if_pos ending]
                        rfl
                      · rw [if_neg ending, if_neg ending]
                        cases expectText "," next with
                        | some fault =>
                            rfl
                        | none =>
                            have fewer : others.length < (token :: colon :: body).length := by
                              simp only [List.length_cons] at shorter ⊢
                              omega
                            change Except.map _ (readEntries (others ++ stop :: more)) = _
                            rw [onEntries others fewer, map_withMore_onPiece]

/-- Nothing that is read reaches over a terminator. -/
theorem readers_append (tokens : List Token) :
    readExpression (tokens ++ stop :: more) =
        (readExpression tokens).map (withMore (stop :: more)) ∧
      (∀ close, readItems close (tokens ++ stop :: more) =
        (readItems close tokens).map (withMore (stop :: more))) ∧
      readEntries (tokens ++ stop :: more) =
        (readEntries tokens).map (withMore (stop :: more)) := by
  -- by the number of tokens; items use the expression at the same number, which comes first
  induction size : tokens.length using Nat.strongRecOn generalizing tokens with
  | _ n ih =>
      subst size
      have onExpression := readExpression_append_step terminator more tokens
        (fun inner fewer => (ih _ fewer inner rfl).2.1)
        (fun inner fewer => (ih _ fewer inner rfl).2.2)
      refine ⟨onExpression, ?_, ?_⟩
      · intro close
        exact readItems_append_step terminator more close tokens onExpression
          (fun inner fewer => (ih _ fewer inner rfl).2.1 close)
      · exact readEntries_append_step terminator more tokens
          (fun inner fewer => (ih _ fewer inner rfl).1)
          (fun inner fewer => (ih _ fewer inner rfl).2.2)

theorem readExpression_append (tokens : List Token) :
    readExpression (tokens ++ stop :: more) =
      (readExpression tokens).map (withMore (stop :: more)) :=
  (readers_append terminator more tokens).1

/-- A statement ends before a terminator, which is no sign of assignment. -/
theorem readStatement_append
    (unassigned : stop.text ≠ "=")
    (first : Token)
    (rest : List Token) :
    readStatement (first :: rest ++ stop :: more) =
      (readStatement (first :: rest)).map (withMore (stop :: more)) := by
  cases rest with
  | nil =>
      have unnamed : ¬ stop.kind = .name := by
        rw [terminator]
        decide
      have onExpression := readExpression_append terminator more [first]
      rw [List.singleton_append] at onExpression ⊢
      rw [readStatement_cons_cons, readStatement_singleton, if_neg unnamed, if_neg unassigned,
        onExpression, map_withMore_onPiece]
      simp
  | cons second rest =>
      have onExpression := readExpression_append terminator more (first :: second :: rest)
      rw [List.cons_append, List.cons_append] at onExpression ⊢
      rw [readStatement_cons_cons, readStatement_cons_cons, onExpression, map_withMore_onPiece]
      by_cases named : first.kind = .name
      · rw [if_pos named, if_pos named]
        cases (if second.kind = .name then keywordStatement? first.text second.text else none) with
        | some made =>
            rfl
        | none =>
            dsimp only
            by_cases assigned : second.text = "="
            · rw [if_pos assigned, if_pos assigned, readExpression_append terminator more rest,
                map_withMore_onPiece]
            · rw [if_neg assigned, if_neg assigned]
      · rw [if_neg named, if_neg named]

/-- The program of tokens joined by a terminator is the first program followed by the second; the
first fault counts. -/
theorem program_append
    (unassigned : stop.text ≠ "=")
    (tokens : List Token) :
    program (tokens ++ stop :: more) =
      match program tokens with
      | .error fault => .error fault
      | .ok statements => (program more).map (statements ++ ·) := by
  induction size : tokens.length using Nat.strongRecOn generalizing tokens with
  | _ n ih =>
      subst size
      cases tokens with
      | nil =>
          rw [List.nil_append, program_cons, if_pos terminator, program_nil]
          cases program more <;> rfl
      | cons token rest =>
          have onStatement := readStatement_append terminator more unassigned token rest
          rw [List.cons_append] at onStatement ⊢
          rw [program_cons, program_cons, onStatement]
          by_cases ended : token.kind = .terminator
          · rw [if_pos ended, if_pos ended, ih _ (by simp) rest rfl]
          rw [if_neg ended, if_neg ended]
          cases read : readStatement (token :: rest) with
          | error fault =>
              rfl
          | ok pair =>
              obtain ⟨first, after⟩ := pair
              have shorter := length_lt_of_pair read
              cases after with
              | nil =>
                  change (if _ then _ else _) = _
                  rw [if_pos terminator]
                  rfl
              | cons next others =>
                  change (if _ then _ else _) = _
                  dsimp only
                  by_cases separated : next.kind = .terminator
                  · have fewer : others.length < (token :: rest).length := by
                      simp only [List.length_cons] at shorter ⊢
                      omega
                    rw [if_pos separated, if_pos separated]
                    change Except.map _ (program (others ++ stop :: more)) = _
                    rw [ih _ fewer others rfl]
                    cases program others with
                    | error fault =>
                        rfl
                    | ok statements =>
                        cases program more <;> rfl
                  · rw [if_neg separated, if_neg separated]

end Terminated

/-- Compiling two sources joined by a newline scans the second one, reads the first and then reads
the second; what fails first counts. -/
theorem compile_append
    {first : String}
    {tokens : List Token}
    (scanned : tokenize first = .ok tokens)
    (second : String) :
    compile (first ++ "\n" ++ second) =
      match tokenize second with
      | .error fault => .error fault
      | .ok more =>
          match program tokens with
          | .error fault => .error fault
          | .ok statements => (program more).map (statements ++ ·) := by
  have text : (first ++ "\n" ++ second).toList = first.toList ++ '\n' :: second.toList := by
    simp
  have stop : Token.newline.kind = .terminator := rfl
  unfold compile tokenize at *
  rw [text, Token.scan_append_newline _ _ scanned]
  cases Token.scan second.toList with
  | error fault => rfl
  | ok more => exact program_append stop more (by decide) tokens

/-- The program of two sources joined by a newline is the first program followed by the second. -/
theorem compile_append_newline
    {first second : String}
    {statements others : Program}
    (compiledFirst : compile first = .ok statements)
    (compiledSecond : compile second = .ok others) :
    compile (first ++ "\n" ++ second) = .ok (statements ++ others) := by
  cases scannedFirst : tokenize first with
  | error fault =>
      rw [compile, scannedFirst] at compiledFirst
      cases compiledFirst
  | ok tokens =>
      cases scannedSecond : tokenize second with
      | error fault =>
          rw [compile, scannedSecond] at compiledSecond
          cases compiledSecond
      | ok more =>
          rw [compile_of_tokenize scannedFirst] at compiledFirst
          rw [compile_of_tokenize scannedSecond] at compiledSecond
          rw [compile_append scannedFirst, scannedSecond, compiledFirst]
          dsimp only
          rw [compiledSecond]
          rfl

/-- Compilation is compositional at newlines.  If the first source can be scanned, then the two
joined by a newline fail as scanning the second fails, else as reading the tokens of the first
fails, else as reading those of the second fails; else they give the program of the first followed
by that of the second. -/
theorem compile_compositional
    {first : String}
    {tokens : List Token}
    (scanned : tokenize first = .ok tokens)
    (second : String) :
    compile (first ++ "\n" ++ second) = (do
        let _ ← tokenize second
        let statements ← compile first
        let others ← compile second
        pure (statements ++ others)) ∧
      compile first = program tokens ∧
      ∀ more, tokenize second = .ok more → compile second = program more := by
  refine ⟨?_, compile_of_tokenize scanned, fun more scannedSecond =>
    compile_of_tokenize scannedSecond⟩
  rw [compile_append scanned, compile_of_tokenize scanned]
  cases scannedSecond : tokenize second with
  | error fault => rfl
  | ok more =>
      rw [compile_of_tokenize scannedSecond]
      dsimp only
      cases program tokens with
      | error fault => rfl
      | ok statements => cases program more <;> rfl

/-- The first source ends in an open list and a comment.  The list cannot be closed after the
newline, but what cannot be scanned there is reported before it. -/
theorem compile_compositional_openList :
    tokenize "[x#a" = .ok [⟨.punctuation, "["⟩, ⟨.name, "x"⟩] ∧
      compile ("[x#a" ++ "\n" ++ "]") = .error .unexpectedEnd ∧
      compile ("[x#a" ++ "\n" ++ "]\"") = .error .unterminatedString := by
  have scanned : tokenize "[x#a" = .ok [⟨.punctuation, "["⟩, ⟨.name, "x"⟩] := by
    with_unfolding_all rfl
  have closes : tokenize "]" = .ok [⟨.punctuation, "]"⟩] := by
    with_unfolding_all rfl
  have refused : tokenize "]\"" = .error .unterminatedString := by
    with_unfolding_all rfl
  have unclosed : program [⟨.punctuation, "["⟩, ⟨.name, "x"⟩] = .error .unexpectedEnd := by cbv
  refine ⟨scanned, ?_, ?_⟩
  · obtain ⟨joined, reads, -⟩ := compile_compositional scanned "]"
    rw [joined, closes, reads, unclosed]
    rfl
  · obtain ⟨joined, -, -⟩ := compile_compositional scanned "]\""
    rw [joined, refused]
    rfl

end Language
end ScriptHost
