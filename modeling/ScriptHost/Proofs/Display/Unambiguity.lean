import ScriptHost.Value.Codec
import ScriptHost.Proofs.Display.Indentation
import ScriptHost.Proofs.Language.Grammar

/-!
# Plain data are told by their display form

Plain data are null, booleans, safe integers, texts, bytes, and lists and scopes of plain data whose
names are names of the language.

* `shown` writes the display form of plain data character by character, and `format_of_isPlain`
  proves that it is the display form.
* The first character tells the kind of a value, and what follows a value never prolongs a number.
* `shown_append_inj`: a value is told by its characters, whatever follows it.
-/

namespace ScriptHost

namespace Number

/-- An integer below `2 ^ 53` in magnitude, or negative zero. -/
def IsSafe (x : Number) : Prop :=
  x = zero true ∨ ∃ n : Int, n.natAbs < significandBound ∧ x = ofInt n

theorem equals_iff {x y : Number} :
    x.equals y = true ↔ x.isZero = true ∧ y.isZero = true ∨ x ≠ nan ∧ x = y := by
  unfold equals
  split_ifs with zeros missing <;> simp_all

theorem equals_of_equals
    {x y z : Number}
    (first : x.equals z = true)
    (second : y.equals z = true) :
    x.equals y = true := by
  rw [equals_iff] at first second ⊢
  rcases first with ⟨zero, common⟩ | ⟨some, rfl⟩
  · rcases second with ⟨zero', -⟩ | ⟨-, rfl⟩
    · exact Or.inl ⟨zero, zero'⟩
    · exact Or.inl ⟨zero, common⟩
  · rcases second with ⟨zero', common⟩ | ⟨-, rfl⟩
    · exact Or.inl ⟨common, zero'⟩
    · exact Or.inr ⟨some, rfl⟩

/-- A safe integer is written as an integer that it equals. -/
theorem exists_integer_of_isSafe
    {x : Number}
    (safe : x.IsSafe) :
    ∃ n : Int, x.text = Decimal.integerText n ∧ x.equals (ofInt n) = true := by
  rcases safe with rfl | ⟨n, small, rfl⟩
  · exact ⟨0, text_negativeZero, equals_iff.2 (Or.inl ⟨rfl, rfl⟩)⟩
  · have written := text_of_safeInteger (safeInteger?_ofInt small)
    refine ⟨n, written, equals_iff.2 (Or.inr ⟨?_, rfl⟩)⟩
    intro missing
    have read := safeInteger?_ofInt small
    rw [missing] at read
    cases read

end Number

namespace HostValue

mutual

/-- Plain data: nothing in it is foreign, every number is a safe integer, and every name is a name
of the language. -/
def IsPlain : HostValue → Prop
  | null => True
  | bool _ => True
  | number value => value.IsSafe
  | text _ => True
  | bytes _ _ => True
  | list items => ItemsPlain items
  | scope entries => EntriesPlain entries
  | _ => False

def ItemsPlain : List HostValue → Prop
  | [] => True
  | item :: rest => item.IsPlain ∧ ItemsPlain rest

def EntriesPlain : List (String × HostValue) → Prop
  | [] => True
  | (name, value) :: rest =>
      Language.Token.isNameText name.toList = true ∧ value.IsPlain ∧ EntriesPlain rest

end

mutual

/-- Two values hold the same data: numbers are compared as numbers, containers by content, and
scopes in their order. -/
inductive SameData : HostValue → HostValue → Prop where
  | null : SameData null null
  | bool (value : Bool) : SameData (bool value) (bool value)
  | number {first second : Number} :
      first.equals second = true → SameData (number first) (number second)
  | text (value : String) : SameData (text value) (text value)
  | bytes (buffer buffer' : Bool) (content : List UInt8) :
      SameData (bytes buffer content) (bytes buffer' content)
  | list {first second : List HostValue} :
      SameItems first second → SameData (list first) (list second)
  | scope {first second : List (String × HostValue)} :
      SameEntries first second → SameData (scope first) (scope second)

inductive SameItems : List HostValue → List HostValue → Prop where
  | nil : SameItems [] []
  | cons {first second : HostValue} {rest rest' : List HostValue} :
      SameData first second → SameItems rest rest' →
        SameItems (first :: rest) (second :: rest')

inductive SameEntries : List (String × HostValue) → List (String × HostValue) → Prop where
  | nil : SameEntries [] []
  | cons {name : String} {first second : HostValue} {rest rest' : List (String × HostValue)} :
      SameData first second → SameEntries rest rest' →
        SameEntries ((name, first) :: rest) ((name, second) :: rest')

end

/-- The blanks before something that stands so many levels deep. -/
def margin (levels : Nat) : List Char :=
  List.replicate (4 * levels) ' '

mutual

/-- The display form of plain data; the closing brace of a scope stands at the given level. -/
def shown (level : Nat) : HostValue → List Char
  | null => "none".toList
  | bool value => (if value then "true" else "false").toList
  | number value => value.text.toList
  | text value => '"' :: (value.toList.flatMap Quoted.escape ++ ['"'])
  | bytes _ content => 'b' :: '"' :: (content.flatMap Hex.byteText ++ ['"'])
  | list items => '[' :: shownItems level items
  | scope [] => ['\x7b', '\x7d']
  | scope (entry :: rest) => '\x7b' :: '\n' :: shownLines level (entry :: rest)
  | _ => []

/-- The items of a list, up to the closing bracket. -/
def shownItems (level : Nat) : List HostValue → List Char
  | [] => [']']
  | item :: rest => item.shown level ++ shownRest level rest

/-- The items of a list after its first, up to the closing bracket. -/
def shownRest (level : Nat) : List HostValue → List Char
  | [] => [']']
  | item :: rest => ',' :: ' ' :: (item.shown level ++ shownRest level rest)

/-- The lines of a scope, up to the closing brace. -/
def shownLines (level : Nat) : List (String × HostValue) → List Char
  | [] => margin level ++ ['\x7d']
  | (name, value) :: rest =>
      margin (level + 1) ++ (name.toList ++ ' ' :: '=' :: ' ' ::
        (value.shown (level + 1) ++ ';' :: '\n' :: shownLines level rest))

end

theorem toList_intercalate_shown
    (level : Nat)
    (items : List HostValue) :
    (String.intercalate ", "
        (items.map fun item => String.ofList (item.shown level))).toList ++ [']'] =
      shownItems level items := by
  have later : ∀ (first : HostValue) (rest : List HostValue),
      (String.intercalate ", "
          ((first :: rest).map fun item => String.ofList (item.shown level))).toList ++ [']'] =
        first.shown level ++ shownRest level rest := by
    intro first rest
    induction rest generalizing first with
    | nil => simp [String.intercalate_singleton, shownRest]
    | cons second rest ih =>
        have others := ih second
        simp only [List.map_cons] at others ⊢
        rw [String.intercalate_cons_cons, String.toList_append, String.toList_append,
          List.append_assoc, others, shownRest]
        simp
  cases items with
  | nil => simp [shownItems]
  | cons first rest => rw [later, shownItems]

theorem toList_intercalate_entryLine
    (level : Nat)
    (name : String)
    (value : HostValue)
    (rest : List (String × HostValue)) :
    (String.intercalate "\n" (((name, value) :: rest).map fun entry =>
        entryLine (blanks (4 * (level + 1))) entry.1
          (String.ofList (entry.2.shown (level + 1))))).toList ++
        '\n' :: (margin level ++ ['\x7d']) =
      shownLines level ((name, value) :: rest) := by
  induction rest generalizing name value with
  | nil => simp [String.intercalate_singleton, shownLines, entryLine, blanks, margin]
  | cons second rest ih =>
      obtain ⟨name', value'⟩ := second
      have others := ih name' value'
      simp only [List.map_cons] at others ⊢
      rw [String.intercalate_cons_cons, String.toList_append, String.toList_append,
        List.append_assoc, others]
      conv_rhs => rw [shownLines]
      simp [entryLine, blanks, margin]

mutual

/-- Plain data have a display form at every depth, which is what `shown` writes. -/
theorem format_of_isPlain : (value : HostValue) → value.IsPlain → (level : Nat) →
    value.format (level + 1) = .ok (String.ofList (value.shown level))
  | null, _, _ => by
      rw [format, shown, String.ofList_toList]
  | bool value, _, _ => by
      rw [format, shown, String.ofList_toList]
  | number value, _, _ => by
      rw [format, shown, String.ofList_toList]
  | text value, _, _ => by
      rw [format, shown, Quoted.quote_eq]
  | bytes _ content, _, _ => by
      rw [format, shown]
      refine congrArg Except.ok (String.toList_inj.1 ?_)
      simp [bytesText, Hex.text]
  | list items, plain, level => by
      rw [IsPlain] at plain
      rw [format, formatItems_of_itemsPlain items plain level, shown,
        ← toList_intercalate_shown]
      refine congrArg Except.ok (String.toList_inj.1 ?_)
      simp
  | scope [], _, _ => by
      rw [format, renderScope, shown]
  | scope ((name, value) :: rest), plain, level => by
      rw [IsPlain] at plain
      have first := format_of_isPlain value plain.2.1 (level + 1)
      have others := entryLines_of_entriesPlain rest plain.2.2 (blanks (4 * (level + 1)))
        (level + 1)
      have lines := toList_intercalate_entryLine level name value rest
      have deeper : ((level : Int) + 1).toNat = level + 1 := by
        omega
      have outer : ((level : Int) + 1 - 1).toNat = level := by
        omega
      push_cast at first others
      rw [format, renderScope_cons (by omega), deeper, outer, first, others, shown, ← lines]
      refine congrArg Except.ok (String.toList_inj.1 ?_)
      simp [block, blanks, margin]
  | reference _ _, plain, _ => False.elim plain

theorem formatItems_of_itemsPlain : (items : List HostValue) → ItemsPlain items →
    (level : Nat) →
      formatItems (level + 1) items =
        .ok (items.map fun item => String.ofList (item.shown level))
  | [], _, _ => by
      rw [formatItems]
      rfl
  | item :: rest, plain, level => by
      rw [formatItems, format_of_isPlain item plain.1 level,
        formatItems_of_itemsPlain rest plain.2 level]
      rfl

theorem entryLines_of_entriesPlain : (entries : List (String × HostValue)) →
    EntriesPlain entries → (space : String) → (level : Nat) →
      entryLines space (level + 1) entries =
        .ok (entries.map fun entry =>
          entryLine space entry.1 (String.ofList (entry.2.shown level)))
  | [], _, _, _ => by
      rw [entryLines]
      rfl
  | (name, value) :: rest, plain, space, level => by
      rw [entryLines, format_of_isPlain value plain.2.1 level,
        entryLines_of_entriesPlain rest plain.2.2 space level]
      rfl

end

/-- The kind of the plain data whose display form starts with the character. -/
def leadKind? (c : Char) : Option Tag :=
  if c = 'n' then some .none
  else if c = 't' ∨ c = 'f' then some .bool
  else if c = '"' then some .str
  else if c = 'b' then some .bytes
  else if c = '[' then some .list
  else if c = '\x7b' then some .scope
  else if c = '-' ∨ c.isDigit then some .int
  else none

theorem leadKind?_of_isDigit
    {c : Char}
    (digit : c.isDigit = true) :
    leadKind? c = some .int := by
  have other : ∀ d : Char, d.isDigit = false → c ≠ d := by
    rintro d plain rfl
    rw [plain] at digit
    cases digit
  unfold leadKind?
  rw [if_neg (other _ (by decide)), if_neg (not_or.2 ⟨other _ (by decide), other _ (by decide)⟩),
    if_neg (other _ (by decide)), if_neg (other _ (by decide)), if_neg (other _ (by decide)),
    if_neg (other _ (by decide)), if_pos (Or.inr digit)]

/-- The first character tells the kind of plain data. -/
theorem exists_shown_eq_cons
    {value : HostValue}
    (plain : value.IsPlain)
    (level : Nat) :
    ∃ c others, value.shown level = c :: others ∧ leadKind? c = some value.classify := by
  cases value with
  | null => exact ⟨_, _, by rw [shown]; rfl, by decide⟩
  | bool value => cases value <;> exact ⟨_, _, by rw [shown]; rfl, by decide⟩
  | number x =>
      obtain ⟨n, written, -⟩ := Number.exists_integer_of_isSafe plain
      rw [shown, written, Decimal.toList_integerText]
      split_ifs with below
      · exact ⟨_, _, rfl, rfl⟩
      · obtain ⟨c, others, starts, digit⟩ := Decimal.exists_digits_eq_cons n.natAbs
        exact ⟨c, others, starts, leadKind?_of_isDigit digit⟩
  | text value => exact ⟨_, _, by rw [shown], rfl⟩
  | bytes _ content => exact ⟨_, _, by rw [shown], rfl⟩
  | list items => cases items <;> exact ⟨_, _, by rw [shown], rfl⟩
  | scope entries => cases entries <;> exact ⟨_, _, by rw [shown], rfl⟩
  | _ => cases plain

/-- Two values are of one kind of plain data. -/
inductive Alike : HostValue → HostValue → Prop where
  | null : Alike null null
  | bool (first second : Bool) : Alike (bool first) (bool second)
  | number (first second : Number) : Alike (number first) (number second)
  | text (first second : String) : Alike (text first) (text second)
  | bytes (buffer buffer' : Bool) (first second : List UInt8) :
      Alike (bytes buffer first) (bytes buffer' second)
  | list (first second : List HostValue) : Alike (list first) (list second)
  | scope (first second : List (String × HostValue)) : Alike (scope first) (scope second)

theorem alike_of_classify_eq
    {first second : HostValue}
    (plain : first.IsPlain)
    (plain' : second.IsPlain)
    (kinds : first.classify = second.classify) :
    Alike first second := by
  cases first <;> try exact False.elim plain
  all_goals
    cases second <;> cases kinds <;> try exact False.elim plain'
    constructor

theorem alike_of_shown_append_eq
    {first second : HostValue}
    (plain : first.IsPlain)
    (plain' : second.IsPlain)
    {level : Nat}
    {rest more : List Char}
    (same : first.shown level ++ rest = second.shown level ++ more) :
    Alike first second := by
  obtain ⟨c, others, starts, kind⟩ := exists_shown_eq_cons plain level
  obtain ⟨c', others', starts', kind'⟩ := exists_shown_eq_cons plain' level
  rw [starts, starts'] at same
  obtain rfl : c = c' := (List.cons.inj same).1
  exact alike_of_classify_eq plain plain' (Option.some.inj (kind.symm.trans kind'))

theorem shown_append_ne_bracket
    {value : HostValue}
    (plain : value.IsPlain)
    (level : Nat)
    (rest more : List Char) :
    value.shown level ++ rest ≠ ']' :: more := by
  obtain ⟨c, others, starts, kind⟩ := exists_shown_eq_cons plain level
  rw [starts]
  intro same
  obtain rfl : c = ']' := (List.cons.inj same).1
  cases kind

theorem stops_shownRest
    (level : Nat)
    (items : List HostValue)
    (rest : List Char) :
    Stops Char.isDigit (shownRest level items ++ rest) := by
  cases items <;> exact stops_cons (by decide) _

theorem isNameChar_of_isNameText
    {name : List Char}
    (named : Language.Token.isNameText name = true) :
    ∀ c ∈ name, Language.Token.isNameChar c = true := by
  cases name with
  | nil => simp
  | cons start rest =>
      obtain ⟨starts, others⟩ := Bool.and_eq_true_iff.1 named
      have continues : Language.Token.isNameChar start = true := by
        simp only [Language.Token.isNameStart, Language.Token.isNameChar, Char.isAlphanum,
          Bool.or_eq_true] at starts ⊢
        tauto
      exact List.forall_mem_cons.2 ⟨continues, List.all_eq_true.1 others⟩

/-- A line of a scope goes on with blanks where the closing brace stands. -/
theorem shownLines_cons_ne_shownLines_nil
    {level : Nat}
    {name : String}
    {value : HostValue}
    {others : List (String × HostValue)}
    {rest more : List Char} :
    shownLines level ((name, value) :: others) ++ rest ≠ shownLines level [] ++ more := by
  have longer : margin (level + 1) = margin level ++ [' ', ' ', ' ', ' '] := by
    rw [margin, margin, Nat.mul_succ, List.replicate_add]
    rfl
  rw [shownLines, shownLines, longer]
  intro same
  simp only [List.append_assoc] at same
  exact absurd (List.append_cancel_left same) (by simp)

-- What follows a value stays general: within a list the next item follows, and within a scope the
-- end of the line.  Neither goes on with a digit, where a number would not end.
mutual

/-- Plain data are told by their display form, whatever follows it. -/
theorem shown_append_inj : (first : HostValue) → first.IsPlain → {second : HostValue} →
    second.IsPlain → {level : Nat} → {rest more : List Char} → Stops Char.isDigit rest →
      Stops Char.isDigit more → first.shown level ++ rest = second.shown level ++ more →
        SameData first second ∧ rest = more
  | null, plain, _, plain', _, _, _, _, _, same => by
      cases alike_of_shown_append_eq plain plain' same
      exact ⟨.null, List.append_cancel_left same⟩
  | bool value, plain, _, plain', _, _, _, _, _, same => by
      cases alike_of_shown_append_eq plain plain' same with
      | bool _ value' =>
          rw [shown, shown] at same
          cases value <;> cases value' <;> simp at same
          · exact ⟨.bool false, same⟩
          · exact ⟨.bool true, same⟩
  | number x, plain, _, plain', _, _, _, stops, stops', same => by
      cases alike_of_shown_append_eq plain plain' same with
      | number _ y =>
          obtain ⟨m, written, value⟩ := Number.exists_integer_of_isSafe plain
          obtain ⟨n, written', value'⟩ := Number.exists_integer_of_isSafe plain'
          rw [shown, shown, written, written'] at same
          obtain ⟨rfl, others⟩ := Decimal.integerText_append_inj stops stops' same
          exact ⟨.number (Number.equals_of_equals value value'), others⟩
  | text value, plain, _, plain', _, rest, more, _, _, same => by
      cases alike_of_shown_append_eq plain plain' same with
      | text _ value' =>
          have quoted : value.toList.flatMap Quoted.escape ++ '"' :: rest =
              value'.toList.flatMap Quoted.escape ++ '"' :: more := by
            simpa [shown] using same
          obtain ⟨chars, others⟩ := flatMap_append_inj Quoted.escape_append_inj
            Quoted.escape_append_ne_quote quoted
          obtain rfl := String.toList_inj.1 chars
          exact ⟨.text value, others⟩
  | bytes _ content, plain, _, plain', _, rest, more, _, _, same => by
      cases alike_of_shown_append_eq plain plain' same with
      | bytes _ _ _ content' =>
          have quoted : content.flatMap Hex.byteText ++ '"' :: rest =
              content'.flatMap Hex.byteText ++ '"' :: more := by
            simpa [shown] using same
          obtain ⟨rfl, others⟩ := flatMap_append_inj Hex.byteText_append_inj
            Hex.byteText_append_ne_quote quoted
          exact ⟨.bytes _ _ content, others⟩
  | list items, plain, _, plain', level, rest, more, _, _, same => by
      cases alike_of_shown_append_eq plain plain' same with
      | list _ items' =>
          have tails : shownItems level items ++ rest = shownItems level items' ++ more := by
            simpa [shown] using same
          obtain ⟨content, others⟩ := shownItems_append_inj items plain plain' tails
          exact ⟨.list content, others⟩
  | scope [], plain, _, plain', level, rest, more, _, _, same => by
      cases alike_of_shown_append_eq plain plain' same with
      | scope _ entries' =>
          cases entries' with
          | nil =>
              rw [shown] at same
              exact ⟨.scope .nil, List.append_cancel_left same⟩
          | cons entry' others' => simp [shown] at same
  | scope (entry :: others), plain, _, plain', level, rest, more, _, _, same => by
      cases alike_of_shown_append_eq plain plain' same with
      | scope _ entries' =>
          cases entries' with
          | nil => simp [shown] at same
          | cons entry' others' =>
              rw [IsPlain] at plain plain'
              have lines : shownLines level (entry :: others) ++ rest =
                  shownLines level (entry' :: others') ++ more := by
                simpa [shown] using same
              obtain ⟨entries, last⟩ := shownLines_append_inj (entry :: others) plain plain' lines
              exact ⟨.scope entries, last⟩
  | reference _ _, plain, _, _, _, _, _, _, _, _ => False.elim plain

theorem shownItems_append_inj : (first : List HostValue) → ItemsPlain first →
    {second : List HostValue} → ItemsPlain second → {level : Nat} → {rest more : List Char} →
      shownItems level first ++ rest = shownItems level second ++ more →
        SameItems first second ∧ rest = more
  | [], _, [], _, _, _, _, same => ⟨.nil, List.append_cancel_left same⟩
  | [], _, item :: others, plain', level, rest, more, same => by
      rw [shownItems, shownItems, List.append_assoc] at same
      exact absurd same.symm (shown_append_ne_bracket plain'.1 _ _ _)
  | item :: others, plain, [], _, level, rest, more, same => by
      rw [shownItems, shownItems, List.append_assoc] at same
      exact absurd same (shown_append_ne_bracket plain.1 _ _ _)
  | item :: others, plain, item' :: others', plain', level, rest, more, same => by
      rw [shownItems, shownItems, List.append_assoc, List.append_assoc] at same
      obtain ⟨first, tails⟩ := shown_append_inj item plain.1 plain'.1 (stops_shownRest _ _ _)
        (stops_shownRest _ _ _) same
      obtain ⟨further, last⟩ := shownRest_append_inj others plain.2 plain'.2 tails
      exact ⟨.cons first further, last⟩

theorem shownRest_append_inj : (first : List HostValue) → ItemsPlain first →
    {second : List HostValue} → ItemsPlain second → {level : Nat} → {rest more : List Char} →
      shownRest level first ++ rest = shownRest level second ++ more →
        SameItems first second ∧ rest = more
  | [], _, [], _, _, _, _, same => ⟨.nil, List.append_cancel_left same⟩
  | [], _, item :: others, plain', level, rest, more, same => by
      simp [shownRest] at same
  | item :: others, plain, [], _, level, rest, more, same => by
      simp [shownRest] at same
  | item :: others, plain, item' :: others', plain', level, rest, more, same => by
      have items : item.shown level ++ (shownRest level others ++ rest) =
          item'.shown level ++ (shownRest level others' ++ more) := by
        simpa [shownRest] using same
      obtain ⟨first, tails⟩ := shown_append_inj item plain.1 plain'.1 (stops_shownRest _ _ _)
        (stops_shownRest _ _ _) items
      obtain ⟨further, last⟩ := shownRest_append_inj others plain.2 plain'.2 tails
      exact ⟨.cons first further, last⟩

theorem shownLines_append_inj : (first : List (String × HostValue)) → EntriesPlain first →
    {second : List (String × HostValue)} → EntriesPlain second → {level : Nat} →
      {rest more : List Char} →
        shownLines level first ++ rest = shownLines level second ++ more →
          SameEntries first second ∧ rest = more
  | [], _, [], _, _, _, _, same => ⟨.nil, List.append_cancel_left same⟩
  | [], _, (name, value) :: others, _, level, rest, more, same => by
      exact absurd same.symm shownLines_cons_ne_shownLines_nil
  | (name, value) :: others, plain, [], _, level, rest, more, same => by
      exact absurd same shownLines_cons_ne_shownLines_nil
  | (name, value) :: others, plain, (name', value') :: others', plain', level, rest, more,
      same => by
      have named : name.toList ++ ' ' :: '=' :: ' ' :: (value.shown (level + 1) ++
            ';' :: '\n' :: (shownLines level others ++ rest)) =
          name'.toList ++ ' ' :: '=' :: ' ' :: (value'.shown (level + 1) ++
            ';' :: '\n' :: (shownLines level others' ++ more)) := by
        simpa [shownLines] using same
      obtain ⟨names, valued⟩ := row_append_inj (isNameChar_of_isNameText plain.1)
        (isNameChar_of_isNameText plain'.1) (stops_cons rfl _) (stops_cons rfl _) named
      obtain rfl := String.toList_inj.1 names
      obtain ⟨first, tails⟩ := shown_append_inj value plain.2.1 plain'.2.1
        (stops_cons (by decide) _) (stops_cons (by decide) _)
        (@List.append_cancel_left _ [' ', '=', ' '] _ _ valued)
      obtain ⟨further, last⟩ := shownLines_append_inj others plain.2.2 plain'.2.2
        (@List.append_cancel_left _ [';', '\n'] _ _ tails)
      exact ⟨.cons first further, last⟩

end

end HostValue

open HostValue

/-- Plain data are told by their display form.  At every depth from one on, a value of plain data
has a display form, and only values of plain data that hold the same data have it. -/
theorem format_unambiguous
    {depth : Int}
    (inside : 1 ≤ depth)
    {first : HostValue}
    (plain : first.IsPlain) :
    ∃ text, first.format depth = .ok text ∧
      ∀ second : HostValue, second.IsPlain → second.format depth = .ok text →
        SameData first second := by
  obtain ⟨level, rfl⟩ : ∃ level : Nat, depth = level + 1 := ⟨(depth - 1).toNat, by omega⟩
  refine ⟨_, format_of_isPlain first plain level, ?_⟩
  intro second plain' same
  have texts := Except.ok.inj ((format_of_isPlain second plain' level).symm.trans same)
  have shownSame : first.shown level ++ [] = second.shown level ++ [] := by
    simpa using (String.ofList_injective texts).symm
  exact (shown_append_inj first plain plain' (stops_nil _) (stops_nil _) shownSame).1

theorem format_unambiguous_nestedScope :
    let value : HostValue := .scope [("a", .list [.number (.ofInt (-1)), .bytes false [10]])]
    value.IsPlain ∧
      ∀ other : HostValue, other.IsPlain →
        other.format 2 = .ok "\x7b\n        a = [-1, b\"0a\"];\n    \x7d" →
          SameData value other := by
  intro value
  have small : (-1 : Int).natAbs < Number.significandBound := by
    decide
  have plain : value.IsPlain := by
    simp only [value, IsPlain, ItemsPlain, EntriesPlain]
    exact ⟨by decide, ⟨Or.inr ⟨-1, small, rfl⟩, trivial, trivial⟩, trivial⟩
  have here : value.format 2 = .ok "\x7b\n        a = [-1, b\"0a\"];\n    \x7d" := by
    have minus := Number.text_of_safeInteger (Number.safeInteger?_ofInt small)
    simp only [value, format, renderScope, formatItems, entryLines, minus]
    rfl
  obtain ⟨text, displayed, told⟩ := format_unambiguous (show (1 : Int) ≤ 2 by decide) plain
  obtain rfl := Except.ok.inj (here.symm.trans displayed)
  exact ⟨plain, told⟩

end ScriptHost
