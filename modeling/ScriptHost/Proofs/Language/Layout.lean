import Mathlib.Data.List.TakeWhile
import Mathlib.Tactic.FinCases
import Mathlib.Tactic.Tauto
import ScriptHost.Proofs.Language.Scanning
import ScriptHost.Proofs.Text.Reading

/-!
# Layouts

How a source writes its tokens.  Each token has a spelling, and gaps of blanks and comments stand
before, between and after the spellings.

* `Gap` says what can stand in a gap, and `LaidOut` that a source consists of the spellings of
  tokens and the gaps around them, where no number and no name could be longer.
* `tokenize_eq_ok_iff_laidOut`: a source has these tokens exactly if it lays them out.  So nothing
  of a source is lost, and its tokens are determined by where its spellings and gaps are.
* `tokenize_spaced`: the spellings of tokens with a blank between each two are read as the tokens.
-/

namespace ScriptHost
namespace Language

/-- Does the character make a token of the kind longer if it follows the token? -/
def TokenKind.lengthenedBy : TokenKind → Char → Bool
  | .number => Token.isNumberChar
  | .name => Token.isNameChar
  | _ => fun _ => false

namespace Token

/-- How a source writes a token; a string stands between quotes. -/
def spelling (token : Token) : List Char :=
  match token.kind with
  | .string => '"' :: (token.text.toList ++ ['"'])
  | _ => token.text.toList

/-- A source can write the token: it is well formed, and a string holds no quote. -/
structure IsWritable (token : Token) : Prop where
  wellFormed : token.isWellFormed = true
  unquoted : token.kind = .string → '"' ∉ token.text.toList

instance (token : Token) : Decidable token.IsWritable :=
  decidable_of_iff (token.isWellFormed = true ∧ (token.kind = .string → '"' ∉ token.text.toList))
    ⟨fun both => ⟨both.1, both.2⟩, fun writable => ⟨writable.wellFormed, writable.unquoted⟩⟩

/-- What follows the token in a source does not make it longer. -/
def EndsBefore (token : Token) (rest : List Char) : Prop :=
  Stops token.kind.lengthenedBy rest

theorem spelling_string (text : List Char) :
    spelling ⟨.string, String.ofList text⟩ = '"' :: (text ++ ['"']) := by
  rw [spelling, String.toList_ofList]

theorem spelling_of_ne_string
    {kind : TokenKind}
    (plain : kind ≠ .string)
    (text : List Char) :
    spelling ⟨kind, String.ofList text⟩ = text := by
  cases kind <;> simp_all [spelling]

end Token

/-- What stands in a gap before the given rest of a source: blanks and comments.  A comment takes
all of its line, so that after it comes a newline or nothing. -/
inductive Gap (rest : List Char) : List Char → Prop
  | nothing : Gap rest []
  | blank {c : Char} {gap : List Char} :
      Token.isBlank c = true → Gap rest gap → Gap rest (c :: gap)
  | comment {text gap : List Char} :
      '\n' ∉ text → Stops (· != '\n') (gap ++ rest) → Gap rest gap →
        Gap rest ('#' :: (text ++ gap))

/-- The source consists of the spellings of the tokens in their order, with a gap before each of
them and one at the end. -/
inductive LaidOut : List Token → List Char → Prop
  | last {gap : List Char} : Gap [] gap → LaidOut [] gap
  | token {gap rest : List Char} {token : Token} {others : List Token} :
      Gap (token.spelling ++ rest) gap → token.IsWritable → token.EndsBefore rest →
        LaidOut others rest → LaidOut (token :: others) (gap ++ (token.spelling ++ rest))

namespace LaidOut

variable {tokens : List Token}
variable {source : List Char}

/-- The first gap of a source can be made longer at its front. -/
theorem prepend
    (laid : LaidOut tokens source)
    (more : List Char)
    (lengthens : ∀ gap rest, gap ++ rest = source → Gap rest gap → Gap rest (more ++ gap)) :
    LaidOut tokens (more ++ source) := by
  cases laid with
  | last gap => exact .last (lengthens _ _ (List.append_nil _) gap)
  | token gap writable ends others =>
      rw [← List.append_assoc]
      exact .token (lengthens _ _ rfl gap) writable ends others

theorem blank
    {c : Char}
    (blank : Token.isBlank c = true)
    (laid : LaidOut tokens source) :
    LaidOut tokens (c :: source) :=
  laid.prepend [c] fun _ _ _ gap => .blank blank gap

theorem comment
    {text : List Char}
    (inside : '\n' ∉ text)
    (ended : Stops (· != '\n') source)
    (laid : LaidOut tokens source) :
    LaidOut tokens ('#' :: (text ++ source)) := by
  refine laid.prepend ('#' :: text) ?_
  rintro gap rest rfl between
  exact .comment inside ended between

/-- A token at the front of a source, without a gap before it. -/
theorem front
    {token : Token}
    (writable : token.IsWritable)
    (ends : token.EndsBefore source)
    (laid : LaidOut tokens source) :
    LaidOut (token :: tokens) (token.spelling ++ source) :=
  .token .nothing writable ends laid

theorem isWritable (laid : LaidOut tokens source) : ∀ token ∈ tokens, token.IsWritable := by
  induction laid with
  | last _ => simp
  | token _ writable _ _ ih => exact List.forall_mem_cons.2 ⟨writable, ih⟩

end LaidOut

section Scanned

/-- A token that was scanned before others stands in front of what they were scanned from. -/
theorem laidOut_of_before
    {kind : TokenKind}
    {text source rest : List Char}
    {others : Except SourceFault (List Token)}
    {tokens : List Token}
    (made : Token.before kind text others = .ok tokens)
    (writable : Token.IsWritable ⟨kind, String.ofList text⟩)
    (ends : Stops kind.lengthenedBy rest)
    (laid : ∀ further, others = .ok further → LaidOut further rest)
    (spelled : Token.spelling ⟨kind, String.ofList text⟩ ++ rest = source) :
    LaidOut tokens source := by
  obtain ⟨further, scanned, rfl⟩ := Token.before_eq_ok.1 made
  rw [← spelled]
  exact .front writable ends (laid further scanned)

/-- A number or a name that was scanned takes all the characters that make it longer. -/
theorem laidOut_of_word
    {kind : TokenKind}
    {c : Char}
    {rest : List Char}
    {tokens : List Token}
    (made : Token.before kind (c :: rest.takeWhile kind.lengthenedBy)
      (Token.scan (rest.dropWhile kind.lengthenedBy)) = .ok tokens)
    (plain : kind ≠ .string)
    (wellFormed : Token.isWellFormed
      ⟨kind, String.ofList (c :: rest.takeWhile kind.lengthenedBy)⟩ = true)
    (laid : ∀ further, Token.scan (rest.dropWhile kind.lengthenedBy) = .ok further →
      LaidOut further (rest.dropWhile kind.lengthenedBy)) :
    LaidOut tokens (c :: rest) := by
  refine laidOut_of_before made ⟨wellFormed, fun quoted => absurd quoted plain⟩
    (stops_dropWhile _ _) laid ?_
  rw [Token.spelling_of_ne_string plain, List.cons_append, List.takeWhile_append_dropWhile]

/-- A token of one character, which nothing makes longer. -/
theorem laidOut_of_char
    {kind : TokenKind}
    {c : Char}
    {rest : List Char}
    {tokens : List Token}
    (made : Token.before kind [c] (Token.scan rest) = .ok tokens)
    (short : ∀ d, kind.lengthenedBy d = false)
    (plain : kind ≠ .string)
    (wellFormed : Token.isWellFormed ⟨kind, String.ofList [c]⟩ = true)
    (laid : ∀ further, Token.scan rest = .ok further → LaidOut further rest) :
    LaidOut tokens (c :: rest) := by
  refine laidOut_of_before made ⟨wellFormed, fun quoted => absurd quoted plain⟩
    (fun d _ => short d) laid ?_
  rw [Token.spelling_of_ne_string plain, List.singleton_append]

/-- A string that is closed ends at the next quote. -/
theorem quote_cons_tail_dropWhile
    {rest : List Char}
    (closed : '"' ∈ rest) :
    '"' :: (rest.dropWhile (· != '"')).tail = rest.dropWhile (· != '"') := by
  obtain ⟨-, -, nonempty⟩ :=
    Token.takeWhile_append_of_mem (p := (· != '"')) (by decide) closed []
  obtain ⟨c, others, starts⟩ := List.exists_cons_of_ne_nil nonempty
  have quote : (c != '"') = false := stops_dropWhile (· != '"') rest c (by rw [starts]; rfl)
  obtain rfl : c = '"' := by simpa using quote
  rw [starts, List.tail_cons]

theorem laidOut_of_scan
    {source : List Char}
    {tokens : List Token}
    (scanned : Token.scan source = .ok tokens) :
    LaidOut tokens source := by
  -- blanks and comments go into the gap before the next token, and every other branch that succeeds
  -- puts its token in front of what the rest lays out
  induction source using Token.scan.induct generalizing tokens with
  | case1 =>
      rw [Token.scan] at scanned
      cases scanned
      exact .last .nothing
  | case2 c rest terminator ih =>
      rw [Token.scan, if_pos terminator] at scanned
      exact laidOut_of_char scanned (fun _ => rfl) (by decide)
        (Token.isWellFormed_terminator terminator) fun _ => ih
  | case3 c rest notTerminator blank ih =>
      rw [Token.scan, if_neg notTerminator, if_pos blank] at scanned
      exact (ih scanned).blank blank
  | case4 rest notTerminator notBlank ih =>
      rw [Token.scan, if_neg notTerminator, if_neg notBlank, if_pos rfl] at scanned
      rw [← List.takeWhile_append_dropWhile (p := (· != '\n')) (l := rest)]
      refine (ih scanned).comment ?_ (stops_dropWhile _ _)
      intro member
      simpa using List.mem_takeWhile_imp member
  | case5 c rest notTerminator notBlank notComment number ih =>
      rw [Token.scan, if_neg notTerminator, if_neg notBlank, if_neg notComment, if_pos number]
        at scanned
      refine laidOut_of_word scanned (by decide) ?_ fun _ => ih
      rw [Token.isWellFormed, String.toList_ofList]
      exact Token.isNumberText_of_startsNumber number
  | case6 rest closed notTerminator notBlank notComment notNumber ih =>
      rw [Token.scan, if_neg notTerminator, if_neg notBlank, if_neg notComment, if_neg notNumber,
        if_pos rfl, if_pos closed] at scanned
      have unquoted : '"' ∉ rest.takeWhile (· != '"') := by
        intro member
        simpa using List.mem_takeWhile_imp member
      refine laidOut_of_before scanned ⟨rfl, fun _ => ?_⟩ (fun _ _ => rfl) (fun _ => ih) ?_
      · rwa [String.toList_ofList]
      · rw [Token.spelling_string, List.cons_append, List.append_assoc, List.singleton_append,
          quote_cons_tail_dropWhile (by simpa using closed), List.takeWhile_append_dropWhile]
  | case7 rest unclosed notTerminator notBlank notComment notNumber =>
      rw [Token.scan, if_neg notTerminator, if_neg notBlank, if_neg notComment, if_neg notNumber,
        if_pos rfl, if_neg unclosed] at scanned
      cases scanned
  | case8 c rest notTerminator notBlank notComment notNumber notString name ih =>
      rw [Token.scan, if_neg notTerminator, if_neg notBlank, if_neg notComment, if_neg notNumber,
        if_neg notString, if_pos name] at scanned
      refine laidOut_of_word scanned (by decide) ?_ fun _ => ih
      rw [Token.isWellFormed, String.toList_ofList]
      exact Token.isNameText_of_isNameStart name rest
  | case9 c rest notTerminator notBlank notComment notNumber notString notName mark ih =>
      rw [Token.scan, if_neg notTerminator, if_neg notBlank, if_neg notComment, if_neg notNumber,
        if_neg notString, if_neg notName, if_pos mark] at scanned
      exact laidOut_of_char scanned (fun _ => rfl) (by decide) (Token.isWellFormed_mark mark)
        fun _ => ih
  | case10 c rest notTerminator notBlank notComment notNumber notString notName notMark =>
      rw [Token.scan, if_neg notTerminator, if_neg notBlank, if_neg notComment, if_neg notNumber,
        if_neg notString, if_neg notName, if_neg notMark] at scanned
      cases scanned

end Scanned

section Spelled

namespace Token

/-- A character of a kind differs from one that is not of the kind. -/
theorem ne_of_kind
    {kind : Char → Bool}
    {c d : Char}
    (inside : kind c = true)
    (outside : kind d = false) :
    c ≠ d := by
  rintro rfl
  rw [inside] at outside
  cases outside

/-- A character of a kind to which no terminator, no blank and no sign of a comment belongs is none
of these. -/
theorem not_between_of_kind
    (kind : Char → Bool)
    {c : Char}
    (inside : kind c = true)
    (outside : ['\n', ';', ' ', '\t', '\r', '#'].any kind = false) :
    ¬ isTerminator c = true ∧ ¬ isBlank c = true ∧ c ≠ '#' := by
  have other : ∀ d ∈ ['\n', ';', ' ', '\t', '\r', '#'], c ≠ d := fun d member =>
    ne_of_kind inside (by simpa using List.any_eq_false.1 outside d member)
  simp only [List.forall_mem_cons] at other
  obtain ⟨newline, semicolon, blank, tab, carriage, comment, -⟩ := other
  refine ⟨?_, ?_, comment⟩
  · simp [isTerminator, newline, semicolon]
  · simp [isBlank, blank, tab, carriage]

theorem scan_terminator
    {c : Char}
    (terminator : isTerminator c = true)
    (rest : List Char) :
    scan (c :: rest) = before .terminator [c] (scan rest) := by
  rw [scan, if_pos terminator]

theorem scan_blank
    {c : Char}
    (blank : isBlank c = true)
    (rest : List Char) :
    scan (c :: rest) = scan rest := by
  have newline : c ≠ '\n' := ne_of_kind blank rfl
  have semicolon : c ≠ ';' := ne_of_kind blank rfl
  have notTerminator : ¬ isTerminator c = true := by
    simp [isTerminator, newline, semicolon]
  rw [scan, if_neg notTerminator, if_pos blank]

theorem scan_comment
    {text rest : List Char}
    (inside : '\n' ∉ text)
    (ended : Stops (· != '\n') rest) :
    scan ('#' :: (text ++ rest)) = scan rest := by
  have line : ∀ c ∈ text, (c != '\n') = true := by
    intro c member
    simpa using ne_of_mem_of_not_mem member inside
  rw [scan, if_neg (by decide), if_neg (by decide), if_pos rfl, dropWhile_row_append line ended]

theorem isDigit_of_isNameStart {c : Char} (starts : isNameStart c = true) : c.isDigit = false := by
  rw [isNameStart, Bool.or_eq_true] at starts
  rcases starts with letter | underscore
  · have letters : c.isUpper = true ∨ c.isLower = true := Bool.or_eq_true _ _ ▸ letter
    have upper : c.isUpper = decide ('A'.val ≤ c.val ∧ c.val ≤ 'Z'.val) := rfl
    have lower : c.isLower = (decide ('a'.val ≤ c.val) && decide (c.val ≤ 'z'.val)) := rfl
    have digit : c.isDigit = (decide ('0'.val ≤ c.val) && decide (c.val ≤ '9'.val)) := rfl
    rw [upper, lower] at letters
    rw [digit]
    grind
  · obtain rfl : c = '_' := by simpa using underscore
    rfl

theorem scan_number
    {c : Char}
    {rest : List Char}
    (starts : startsNumber c rest = true) :
    scan (c :: rest) =
      before .number (c :: rest.takeWhile isNumberChar) (scan (rest.dropWhile isNumberChar)) := by
  have first : (c.isDigit || c == '-') = true := by
    simp only [startsNumber, Bool.or_eq_true, Bool.and_eq_true] at starts ⊢
    tauto
  obtain ⟨notTerminator, notBlank, notComment⟩ :=
    not_between_of_kind (fun c => c.isDigit || c == '-') first rfl
  rw [scan, if_neg notTerminator, if_neg notBlank, if_neg notComment, if_pos starts]

theorem scan_string
    {text : List Char}
    (unquoted : '"' ∉ text)
    (rest : List Char) :
    scan ('"' :: (text ++ '"' :: rest)) = before .string text (scan rest) := by
  have inside : ∀ c ∈ text, (c != '"') = true := by
    intro c member
    simpa using ne_of_mem_of_not_mem member unquoted
  have ended : Stops (· != '"') ('"' :: rest) := stops_cons rfl rest
  have notNumber : ¬ startsNumber '"' (text ++ '"' :: rest) = true := by
    simp [startsNumber]
  rw [scan, if_neg (by decide), if_neg (by decide), if_neg (by decide), if_neg notNumber,
    if_pos rfl, if_pos (by simp), takeWhile_row_append inside ended,
    dropWhile_row_append inside ended, List.tail_cons]

theorem scan_name
    {c : Char}
    (starts : isNameStart c = true)
    (rest : List Char) :
    scan (c :: rest) =
      before .name (c :: rest.takeWhile isNameChar) (scan (rest.dropWhile isNameChar)) := by
  obtain ⟨notTerminator, notBlank, notComment⟩ := not_between_of_kind isNameStart starts rfl
  have unsigned : c ≠ '-' := ne_of_kind starts rfl
  have notString : c ≠ '"' := ne_of_kind starts rfl
  have notNumber : ¬ startsNumber c rest = true := by
    simp [startsNumber, isDigit_of_isNameStart starts, unsigned]
  rw [scan, if_neg notTerminator, if_neg notBlank, if_neg notComment, if_neg notNumber,
    if_neg notString, if_pos starts]

theorem marks_eq : marks = ['(', ')', '[', ']', '\x7b', '\x7d', ',', ':', '='] := by
  rfl

theorem scan_mark
    {c : Char}
    (mark : c ∈ marks)
    (rest : List Char) :
    scan (c :: rest) = before .punctuation [c] (scan rest) := by
  have contained : marks.contains c = true := by simpa using mark
  obtain ⟨notTerminator, notBlank, notComment⟩ := not_between_of_kind marks.contains contained rfl
  obtain ⟨notDigit, unsigned, notString, notName⟩ :
      ¬ c.isDigit = true ∧ c ≠ '-' ∧ c ≠ '"' ∧ ¬ isNameStart c = true := by
    rw [marks_eq] at mark
    fin_cases mark <;> decide
  have notNumber : ¬ startsNumber c rest = true := by
    simp [startsNumber, notDigit, unsigned]
  rw [scan, if_neg notTerminator, if_neg notBlank, if_neg notComment, if_neg notNumber,
    if_neg notString, if_neg notName, if_pos contained]

theorem exists_of_isNumberText
    {text : List Char}
    (number : isNumberText text = true) :
    ∃ c row, text = c :: row ∧ (∀ rest, startsNumber c (row ++ rest) = true) ∧
      ∀ d ∈ row, isNumberChar d = true := by
  have continues : ∀ d : Char, d.isDigit = true → isNumberChar d = true := by
    intro d digit
    simp [isNumberChar, digit]
  unfold isNumberText at number
  split at number
  · next d row =>
      rw [Bool.and_eq_true, List.all_eq_true] at number
      obtain ⟨digit, all⟩ := number
      refine ⟨'-', d :: row, rfl, fun rest => ?_, List.forall_mem_cons.2 ⟨continues d digit, all⟩⟩
      simp [startsNumber, digit]
  · next d row _ =>
      rw [Bool.and_eq_true, List.all_eq_true] at number
      obtain ⟨digit, all⟩ := number
      refine ⟨d, row, rfl, fun rest => ?_, all⟩
      simp [startsNumber, digit]
  · cases number

theorem exists_of_isNameText
    {text : List Char}
    (name : isNameText text = true) :
    ∃ c row, text = c :: row ∧ isNameStart c = true ∧ ∀ d ∈ row, isNameChar d = true := by
  cases text with
  | nil => cases name
  | cons c row =>
      rw [isNameText, Bool.and_eq_true, List.all_eq_true] at name
      exact ⟨c, row, rfl, name⟩

/-- The spelling of a token is scanned as the token, if what follows does not make it longer. -/
theorem scan_spelling
    {token : Token}
    {rest : List Char}
    (writable : token.IsWritable)
    (ends : token.EndsBefore rest) :
    scan (token.spelling ++ rest) = before token.kind token.text.toList (scan rest) := by
  obtain ⟨kind, text⟩ := token
  obtain ⟨wellFormed, unquoted⟩ := writable
  cases kind with
  | number =>
      obtain ⟨c, row, chars, starts, all⟩ := exists_of_isNumberText wellFormed
      rw [spelling, chars, List.cons_append, scan_number (starts rest),
        takeWhile_row_append all ends, dropWhile_row_append all ends]
  | string =>
      have quoted := scan_string (unquoted rfl) rest
      simpa [spelling] using quoted
  | name =>
      obtain ⟨c, row, chars, starts, all⟩ := exists_of_isNameText wellFormed
      rw [spelling, chars, List.cons_append, scan_name starts, takeWhile_row_append all ends,
        dropWhile_row_append all ends]
  | punctuation =>
      obtain ⟨mark, member, single⟩ : ∃ mark ∈ marks, text.toList = [mark] := by
        simpa [isWellFormed] using wellFormed
      rw [spelling, single]
      exact scan_mark member rest
  | terminator =>
      have texts : text = "\n" ∨ text = ";" := by simpa [isWellFormed] using wellFormed
      rcases texts with rfl | rfl
      · exact scan_terminator rfl rest
      · exact scan_terminator rfl rest

theorem scan_gap
    {rest gap : List Char}
    (between : Gap rest gap) :
    scan (gap ++ rest) = scan rest := by
  induction between with
  | nothing => rfl
  | blank blank _ ih => rw [List.cons_append, scan_blank blank, ih]
  | comment inside ended _ ih =>
      rw [List.cons_append, List.append_assoc, scan_comment inside ended, ih]

end Token

theorem scan_of_laidOut
    {tokens : List Token}
    {source : List Char}
    (laid : LaidOut tokens source) :
    Token.scan source = .ok tokens := by
  induction laid with
  | last between =>
      have skipped := Token.scan_gap between
      rw [List.append_nil] at skipped
      rw [skipped, Token.scan]
  | @token gap rest token others between writable ends _ ih =>
      rw [Token.scan_gap between, Token.scan_spelling writable ends, ih, Token.before,
        String.ofList_toList]

end Spelled

/-- The tokenizer is lossless and greedy.  A source has these tokens if and only if it consists of
their spellings with gaps of blanks and comments around them, each token being well formed and no
number or name being followed by a character that would make it longer. -/
theorem tokenize_eq_ok_iff_laidOut (source : String) (tokens : List Token) :
    tokenize source = .ok tokens ↔ LaidOut tokens source.toList := by
  constructor
  · exact laidOut_of_scan
  · exact scan_of_laidOut

/-- A source that writes the tokens with a blank between each two. -/
def spaced (tokens : List Token) : String :=
  String.intercalate " " (tokens.map fun token => String.ofList token.spelling)

theorem laidOut_spaced
    {tokens : List Token}
    (writable : ∀ token ∈ tokens, token.IsWritable) :
    LaidOut tokens (spaced tokens).toList := by
  induction tokens with
  | nil => exact .last .nothing
  | cons first rest ih =>
      obtain ⟨writableFirst, writableRest⟩ := List.forall_mem_cons.1 writable
      cases rest with
      | nil =>
          have laid : LaidOut [first] (first.spelling ++ []) :=
            (LaidOut.last .nothing).front writableFirst (stops_nil _)
          simpa [spaced] using laid
      | cons second others =>
          have ends : first.EndsBefore (' ' :: (spaced (second :: others)).toList) := by
            refine stops_cons ?_ _
            cases first.kind <;> rfl
          have laid := ((ih writableRest).blank (c := ' ') rfl).front writableFirst ends
          simpa [spaced, String.intercalate_cons_cons] using laid

/-- Scanning undoes spelling.  The spellings of well-formed tokens, strings between quotes, with a
blank between each two are scanned as these tokens; so the tokens of any source are those of their
spaced spellings. -/
theorem tokenize_spaced :
    (∀ tokens : List Token, (∀ token ∈ tokens, token.IsWritable) →
      tokenize (spaced tokens) = .ok tokens) ∧
      ∀ (source : String) (tokens : List Token), tokenize source = .ok tokens →
        tokenize (spaced tokens) = .ok tokens := by
  have undone : ∀ tokens : List Token, (∀ token ∈ tokens, token.IsWritable) →
      tokenize (spaced tokens) = .ok tokens := fun _ writable =>
    scan_of_laidOut (laidOut_spaced writable)
  refine ⟨undone, ?_⟩
  intro source tokens scanned
  exact undone tokens (laidOut_of_scan scanned).isWritable

theorem tokenize_spaced_adjoiningTokens :
    let tokens : List Token := [⟨.number, "-1."⟩, ⟨.number, "2..3"⟩, ⟨.name, "a"⟩, ⟨.name, "_1"⟩,
      ⟨.string, "#;\n ("⟩, ⟨.terminator, "\n"⟩, ⟨.punctuation, "="⟩]
    (∀ token ∈ tokens, token.IsWritable) ∧
      tokenize "-1. 2..3 a _1 \"#;\n (\" \n =" = .ok tokens ∧
      tokenize "a(-1)# b\n" = .ok [⟨.name, "a"⟩, ⟨.punctuation, "("⟩, ⟨.number, "-1"⟩,
        ⟨.punctuation, ")"⟩, ⟨.terminator, "\n"⟩] ∧
      tokenize "a ( -1 ) \n" = .ok [⟨.name, "a"⟩, ⟨.punctuation, "("⟩, ⟨.number, "-1"⟩,
        ⟨.punctuation, ")"⟩, ⟨.terminator, "\n"⟩] := by
  intro tokens
  have writable : ∀ token ∈ tokens, token.IsWritable := by decide
  have scanned : tokenize "a(-1)# b\n" = .ok [⟨.name, "a"⟩, ⟨.punctuation, "("⟩,
      ⟨.number, "-1"⟩, ⟨.punctuation, ")"⟩, ⟨.terminator, "\n"⟩] := by
    with_unfolding_all rfl
  exact ⟨writable, tokenize_spaced.1 tokens writable, scanned, tokenize_spaced.2 _ _ scanned⟩

end Language
end ScriptHost
