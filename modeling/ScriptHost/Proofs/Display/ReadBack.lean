import ScriptHost.Language.Evaluation
import ScriptHost.Proofs.Display.Unambiguity
import ScriptHost.Proofs.Language.Layout
import ScriptHost.Proofs.Language.Literal

/-!
# Display forms as literals

Inline data are nulls, booleans, safe integers, texts in which nothing is escaped, scopes without
entries, and lists of inline data.  Their display forms are literals of the line language.

* `literalTree` is the derivation of the literal that inline data are displayed as.
* `laidOut_shown`: the display form lays out the tokens of this derivation, whatever follows it.
* `literalValue?_literalTree`: the derivation has a literal value, which decodes to the data.
* `expression_format`: the display form of inline data evaluates to these data.  A negative zero is
  displayed without its sign, so that it comes back as the other zero, which equals it.
-/

namespace ScriptHost

/-- The character stands for itself between quotes. -/
def Quoted.IsVerbatim (c : Char) : Prop :=
  0x20 ≤ c.toNat ∧ c ≠ '"' ∧ c ≠ '\\'

namespace HostValue

mutual

/-- Data displayed on one line whose texts are displayed as they are. -/
def IsInline : HostValue → Prop
  | null => True
  | bool _ => True
  | number value => value.IsSafe
  | text value => ∀ c ∈ value.toList, Quoted.IsVerbatim c
  | list items => ItemsInline items
  | scope [] => True
  | _ => False

def ItemsInline : List HostValue → Prop
  | [] => True
  | item :: rest => item.IsInline ∧ ItemsInline rest

end

mutual

/-- The value without the signs of its negative zeros, in lists at any depth. -/
def unsigned : HostValue → HostValue
  | list items => list (unsignedItems items)
  | value => value.storedKey

def unsignedItems : List HostValue → List HostValue
  | [] => []
  | item :: rest => item.unsigned :: unsignedItems rest

end

mutual

theorem isPlain_of_isInline : (value : HostValue) → value.IsInline → value.IsPlain
  | null, _ => trivial
  | bool _, _ => trivial
  | number _, safe => safe
  | text _, _ => trivial
  | list items, inline => itemsPlain_of_itemsInline items inline
  | scope [], _ => trivial
  | reference _ _, inline => False.elim inline

theorem itemsPlain_of_itemsInline : (items : List HostValue) → ItemsInline items →
    ItemsPlain items
  | [], _ => trivial
  | item :: rest, inline =>
      ⟨isPlain_of_isInline item inline.1, itemsPlain_of_itemsInline rest inline.2⟩

end

end HostValue

section Characters

theorem Quoted.escape_of_isVerbatim
    {c : Char}
    (verbatim : IsVerbatim c) :
    escape c = [c] := by
  obtain ⟨visible, notQuote, notSlash⟩ := verbatim
  have other : ∀ d : Char, d.toNat < 0x20 → c ≠ d := by
    rintro d below rfl
    omega
  rw [escape, if_neg notQuote, if_neg notSlash, if_neg (other _ (by decide)),
    if_neg (other _ (by decide)), if_neg (other _ (by decide)), if_neg (other _ (by decide)),
    if_neg (other _ (by decide)), if_neg (by omega)]

theorem Quoted.flatMap_escape_of_isVerbatim
    {text : List Char}
    (verbatim : ∀ c ∈ text, IsVerbatim c) :
    text.flatMap escape = text := by
  induction text with
  | nil => rfl
  | cons c rest ih =>
      obtain ⟨first, others⟩ := List.forall_mem_cons.1 verbatim
      rw [List.flatMap_cons, escape_of_isVerbatim first, ih others, List.singleton_append]

theorem Language.Token.isNumberText_integerText (n : Int) :
    isNumberText (Decimal.integerText n).toList = true := by
  obtain ⟨c, rest, starts, digit⟩ := Decimal.exists_digits_eq_cons n.natAbs
  have continues : ∀ d ∈ rest, isNumberChar d = true := by
    intro d member
    have digit : d.isDigit = true :=
      Decimal.isDigit_of_mem_digits (starts ▸ List.mem_cons_of_mem c member)
    rw [isNumberChar, digit, Bool.true_or]
  have unsigned : c ≠ '-' := by
    rintro rfl
    cases digit
  rw [Decimal.toList_integerText, starts]
  split_ifs with negative
  · simpa [isNumberText, digit] using continues
  · rw [isNumberText.eq_2 c rest (by simp [unsigned]), digit, Bool.true_and]
    exact List.all_eq_true.2 continues

end Characters

namespace Language

/-- What follows does not make any token before it longer. -/
def EndsTokens (rest : List Char) : Prop :=
  ∀ token : Token, token.EndsBefore rest

theorem endsTokens_nil : EndsTokens [] :=
  fun _ => stops_nil _

theorem endsTokens_cons
    {c : Char}
    (notNumber : Token.isNumberChar c = false)
    (notName : Token.isNameChar c = false)
    (rest : List Char) :
    EndsTokens (c :: rest) := by
  intro token
  refine stops_cons ?_ rest
  cases token.kind with
  | number => exact notNumber
  | name => exact notName
  | _ => rfl

theorem Word.isWritable_token (word : Word) : word.token.IsWritable := by
  cases word <;> decide

/-- A mark at the front of a source. -/
theorem LaidOut.mark
    {tokens : List Token}
    {source : List Char}
    {c : Char}
    (mark : c ∈ Token.marks)
    (laid : LaidOut tokens source) :
    LaidOut (markToken (String.ofList [c]) :: tokens) (c :: source) := by
  have writable : (markToken (String.ofList [c])).IsWritable := by
    refine ⟨?_, fun quoted => by cases quoted⟩
    simpa [markToken, Token.isWellFormed] using mark
  have spelled : (markToken (String.ofList [c])).spelling = [c] :=
    Token.spelling_of_ne_string (by decide) [c]
  have front := laid.front writable fun _ _ => rfl
  rwa [spelled] at front

end Language

open ScriptHost.Language

namespace HostValue

mutual

/-- The derivation of the literal that inline data are displayed as. -/
def literalTree : HostValue → ExprTree
  | bool true => .word .yes
  | bool false => .word .no
  | number value => .number value.text
  | text value => .string value
  | list items => .list (literalItems items)
  | scope _ => .scope .none
  | _ => .word .nothing

def literalItems : List HostValue → ItemsTree
  | [] => .none
  | [item] => .last item.literalTree
  | item :: next :: rest => .more item.literalTree .mark (literalItems (next :: rest))

end

theorem shownItems_cons_cons
    (level : Nat)
    (item next : HostValue)
    (rest : List HostValue) :
    shownItems level (item :: next :: rest) =
      item.shown level ++ ',' :: ' ' :: shownItems level (next :: rest) := by
  rw [shownItems, shownRest, shownItems]

-- The tokens and the text after the value stay general: in a list the separator and the other items
-- follow, and they are laid out first.
mutual

/-- The display form of inline data lays out the tokens of their literal, before anything that makes
no token longer. -/
theorem laidOut_shown : (value : HostValue) → value.IsInline → (level : Nat) →
    {tokens : List Token} → {rest : List Char} → EndsTokens rest → LaidOut tokens rest →
      LaidOut (value.literalTree.yield ++ tokens) (value.shown level ++ rest)
  | null, _, _, _, _, ends, laid => by
      rw [shown]
      exact laid.front Word.nothing.isWritable_token (ends _)
  | bool true, _, _, _, _, ends, laid => by
      rw [shown]
      exact laid.front Word.yes.isWritable_token (ends _)
  | bool false, _, _, _, _, ends, laid => by
      rw [shown]
      exact laid.front Word.no.isWritable_token (ends _)
  | number x, safe, _, _, _, ends, laid => by
      obtain ⟨n, written, -⟩ := Number.exists_integer_of_isSafe safe
      have writable : Token.IsWritable ⟨.number, x.text⟩ := by
        refine ⟨?_, fun quoted => by cases quoted⟩
        rw [written]
        exact Token.isNumberText_integerText n
      rw [shown]
      exact laid.front writable (ends _)
  | text value, verbatim, _, _, _, ends, laid => by
      have writable : Token.IsWritable ⟨.string, value⟩ :=
        ⟨rfl, fun _ member => (verbatim _ member).2.1 rfl⟩
      rw [shown, Quoted.flatMap_escape_of_isVerbatim verbatim]
      exact laid.front writable (ends _)
  | list items, inline, level, _, _, _, laid => by
      have inside := (laidOut_shownItems items inline level laid).mark (c := '[') (by decide)
      simpa [literalTree, ExprTree.yield, shown] using inside
  | scope [], _, _, _, _, _, laid => by
      have closed := (laid.mark (c := '\x7d') (by decide)).mark (c := '\x7b') (by decide)
      simpa [literalTree, ExprTree.yield, EntriesTree.yield, shown] using closed
  | reference _ _, inline, _, _, _, _, _ => False.elim inline

theorem laidOut_shownItems : (items : List HostValue) → ItemsInline items → (level : Nat) →
    {tokens : List Token} → {rest : List Char} → LaidOut tokens rest →
      LaidOut ((literalItems items).yield ++ markToken "]" :: tokens)
        (shownItems level items ++ rest)
  | [], _, _, _, _, laid => by
      have closed := laid.mark (c := ']') (by decide)
      simpa [literalItems, ItemsTree.yield, shownItems] using closed
  | [item], inline, level, _, rest, laid => by
      have closed := laid.mark (c := ']') (by decide)
      have ends : EndsTokens (']' :: rest) := endsTokens_cons (by decide) (by decide) rest
      have last := laidOut_shown item inline.1 level ends closed
      simpa [literalItems, ItemsTree.yield, shownItems, shownRest] using last
  | item :: next :: others, inline, level, _, rest, laid => by
      have following := laidOut_shownItems (next :: others) inline.2 level laid
      have separated := (following.blank (c := ' ') rfl).mark (c := ',') (by decide)
      have first := laidOut_shown item inline.1 level
        (endsTokens_cons (by decide) (by decide) _) separated
      simpa [literalItems, ItemsTree.yield, Spelling.token, Spelling.kind, markToken,
        shownItems_cons_cons] using first

end

/-- Among the safe integers only negative zero loses its sign. -/
theorem storedKey_ofInt
    {n : Int}
    (small : n.natAbs < Number.significandBound) :
    (number (.ofInt n)).storedKey = number (.ofInt n) := by
  rw [storedKey, Number.isNegativeZero_of_safeInteger (Number.safeInteger?_ofInt small),
    if_neg (by decide)]

/-- The text of a safe integer is read as this integer; negative zero is read as zero. -/
theorem number_tokenNumber
    {x : Number}
    (safe : x.IsSafe) :
    number (tokenNumber x.text) = (number x).storedKey := by
  have read : ∀ {n : Int}, n.natAbs < Number.significandBound →
      x.text = Decimal.integerText n → tokenNumber x.text = .ofInt n := by
    intro n small written
    rw [tokenNumber, written, Number.parse?_integerText small, Option.getD_some]
  rcases safe with rfl | ⟨n, small, rfl⟩
  · rw [read (by decide) Number.text_negativeZero]
    rfl
  · have written := Number.text_of_safeInteger (Number.safeInteger?_ofInt small)
    rw [read small written, storedKey_ofInt small]

theorem sameData_storedKey
    {x : Number}
    (safe : x.IsSafe) :
    SameData (number x) (number x).storedKey := by
  obtain ⟨m, -, integer⟩ := Number.exists_integer_of_isSafe safe
  rcases safe with rfl | ⟨n, small, rfl⟩
  · exact .number rfl
  · rw [storedKey_ofInt small]
    exact .number (Number.equals_of_equals integer integer)

mutual

/-- Without the signs of its negative zeros a value holds the same data. -/
theorem sameData_unsigned : (value : HostValue) → value.IsInline → SameData value value.unsigned
  | null, _ => .null
  | bool value, _ => .bool value
  | number _, safe => sameData_storedKey safe
  | text value, _ => .text value
  | list items, inline => .list (sameItems_unsignedItems items inline)
  | scope [], _ => .scope .nil
  | reference _ _, inline => False.elim inline

theorem sameItems_unsignedItems : (items : List HostValue) → ItemsInline items →
    SameItems items (unsignedItems items)
  | [], _ => .nil
  | item :: rest, inline =>
      .cons (sameData_unsigned item inline.1) (sameItems_unsignedItems rest inline.2)

end

mutual

/-- The literal of inline data has a value, which decodes to the data without the signs of negative
zeros. -/
theorem literalValue?_literalTree : (value : HostValue) → value.IsInline →
    ∃ known, value.literalTree.expr.literalValue? = some known ∧ known.decode = value.unsigned
  | null, _ => ⟨.none, rfl, rfl⟩
  | bool true, _ => ⟨.ofBool true, rfl, rfl⟩
  | bool false, _ => ⟨.ofBool false, rfl, rfl⟩
  | number x, safe => by
      refine ⟨.int (tokenNumber x.text), rfl, ?_⟩
      rw [Value.decode, number_tokenNumber safe]
      rfl
  | text value, _ => ⟨.str value, rfl, rfl⟩
  | list items, inline => by
      obtain ⟨values, known, decoded⟩ := literalItems?_literalItems items inline
      refine ⟨.list values, ?_, ?_⟩
      · rw [literalTree, ExprTree.expr, Expr.literalValue?, known]
        rfl
      · rw [Value.decode, decoded, unsigned]
  | scope [], _ => ⟨.scope [], rfl, rfl⟩
  | reference _ _, inline => False.elim inline

theorem literalItems?_literalItems : (items : List HostValue) → ItemsInline items →
    ∃ values, literalItems? (literalItems items).exprs = some values ∧
      Value.decodeItems values = unsignedItems items
  | [], _ => ⟨[], rfl, rfl⟩
  | [item], inline => by
      obtain ⟨value, known, decoded⟩ := literalValue?_literalTree item inline.1
      refine ⟨[value], ?_, ?_⟩
      · rw [literalItems, ItemsTree.exprs]
        exact literalItems?_cons_eq_some.2 ⟨value, [], known, rfl, rfl⟩
      · rw [Value.decodeItems, decoded]
        rfl
  | item :: next :: others, inline => by
      obtain ⟨value, known, decoded⟩ := literalValue?_literalTree item inline.1
      obtain ⟨values, knownOthers, decodedOthers⟩ :=
        literalItems?_literalItems (next :: others) inline.2
      refine ⟨value :: values, ?_, ?_⟩
      · rw [literalItems, ItemsTree.exprs]
        exact literalItems?_cons_eq_some.2 ⟨value, values, known, knownOthers, rfl⟩
      · rw [Value.decodeItems, decoded, decodedOthers]
        rfl

end

/-- An engine value that decodes to data is no error, since an error decodes to an exception. -/
theorem result_of_sameData
    {known : Value}
    {value : HostValue}
    (same : SameData value known.decode) :
    known.result = .ok known.decode := by
  unfold Value.result
  split
  · next decoded =>
      rw [decoded] at same
      cases same
  · rfl

end HostValue

open HostValue

/-- What is printed for inline data is read back.  The display form of inline data evaluates as an
expression, and its value is the same data, except that negative zeros come back without their
sign. -/
theorem expression_format
    {value : HostValue}
    (inline : value.IsInline) :
    ∃ text, value.format 1 = .ok text ∧
      Language.engine.expression text = .ok (.ok value.unsigned) ∧
      value.SameData value.unsigned := by
  obtain ⟨known, isKnown, decoded⟩ := value.literalValue?_literalTree inline
  have displayed := value.format_of_isPlain (value.isPlain_of_isInline inline) 0
  have scanned : tokenize (String.ofList (value.shown 0)) = .ok value.literalTree.yield := by
    have laid := value.laidOut_shown inline 0 endsTokens_nil (.last .nothing)
    rw [List.append_nil, List.append_nil] at laid
    rw [tokenize, String.toList_ofList]
    exact scan_of_laidOut laid
  have read := readExpression_yield value.literalTree ends_nil.detaches
  rw [List.append_nil] at read
  have made := (literal_eq_ok_iff _ _).2 ⟨_, _, scanned, read, isKnown⟩
  have same := value.sameData_unsigned inline
  refine ⟨_, displayed, ?_, same⟩
  rw [← decoded] at same ⊢
  rw [Engine.expression, Language.engine]
  dsimp only
  rw [made]
  exact congrArg Except.ok (result_of_sameData same)

theorem expression_format_nestedList :
    let value : HostValue := .list [.number (.ofInt (-12)), .list [.number (.zero true), .list []],
      .text "#;, [", .scope [], .null, .bool true]
    value.IsInline ∧
      value.format 1 = .ok "[-12, [0, []], \"#;, [\", \x7b\x7d, none, true]" ∧
      Language.engine.expression "[-12, [0, []], \"#;, [\", \x7b\x7d, none, true]" =
        .ok (.ok (.list [.number (.ofInt (-12)), .list [.number (.zero false), .list []],
          .text "#;, [", .scope [], .null, .bool true])) := by
  intro value
  have small : (-12 : Int).natAbs < Number.significandBound := by
    decide
  have inline : value.IsInline := by
    simp only [value, IsInline, ItemsInline]
    exact ⟨Or.inr ⟨-12, small, rfl⟩, ⟨Or.inl rfl, trivial, trivial⟩, by simp [Quoted.IsVerbatim],
      trivial, trivial, trivial, trivial⟩
  have here : value.format 1 = .ok "[-12, [0, []], \"#;, [\", \x7b\x7d, none, true]" := by
    have minus := Number.text_of_safeInteger (Number.safeInteger?_ofInt small)
    simp only [value, format, renderScope, formatItems, minus, Number.text_negativeZero]
    rfl
  obtain ⟨text, displayed, evaluated, -⟩ := expression_format inline
  obtain rfl := Except.ok.inj (here.symm.trans displayed)
  exact ⟨inline, here, evaluated⟩

/-- A text is displayed through its code units. -/
theorem HostValue.format_text_eq_quoteUnits (depth : Int) (value : String) :
    (text value).format depth = .ok (Quoted.quoteUnits (Utf16.units value)) := by
  rw [format, Quoted.quote]

/-- A half of a character by itself is no text.  Every code unit of this row stands for itself
between quotes but for being such a half, and the escape that shows it is read back as the six
characters of the escape, which are other code units. -/
theorem expression_quoteUnits_half :
    let half : List UInt16 := [0xd800]
    (∀ unit ∈ half, 0x20 ≤ unit ∧ unit ≠ 0x22 ∧ unit ≠ 0x5c) ∧
      Quoted.quoteUnits half = "\"\\ud800\"" ∧
      Language.engine.expression (Quoted.quoteUnits half) = .ok (.ok (.text "\\ud800")) ∧
      Utf16.units "\\ud800" ≠ half := by
  intro half
  have quoted : Quoted.quoteUnits half = "\"\\ud800\"" := by
    rfl
  have scanned : tokenize "\"\\ud800\"" = .ok [⟨.string, "\\ud800"⟩] := by
    with_unfolding_all rfl
  have made : literal "\"\\ud800\"" = .ok (.str "\\ud800") := by
    rw [literal, scanned]
    cbv
  refine ⟨?_, quoted, ?_, ?_⟩
  · simp only [half, List.mem_singleton, forall_eq]
    decide
  · rw [quoted, Engine.expression, Language.engine]
    dsimp only
    rw [made]
    rfl
  · decide

end ScriptHost
