import ScriptHost.HostValue.Display
import ScriptHost.Proofs.Number.Text

/-!
# Depth and indentation

The depth at which a value is laid out decides nothing but its indentation.  For every level more
there are four blanks more after every newline.

* `shifted` is a text with blanks put after its newlines.
* `SingleLined` values hold no newline where a name, a message or a class is written as it stands.
  Numbers, quoted text and bytes hold none in any case, so that every newline comes from a scope.
* `format_add` and `renderScope_add`: going deeper shifts what is laid out, and a fault stays.
-/

namespace ScriptHost

/-- A row of blanks. -/
def blanks (count : Nat) : String :=
  String.ofList (List.replicate count ' ')

/-- The text with so many blanks after each of its newlines. -/
def shifted (count : Nat) (text : String) : String :=
  String.ofList (text.toList.flatMap fun c =>
    if c = '\n' then '\n' :: List.replicate count ' ' else [c])

/-- The text holds no newline. -/
def IsLine (text : String) : Prop :=
  '\n' ∉ text.toList

instance : DecidablePred IsLine :=
  fun text => inferInstanceAs (Decidable ('\n' ∉ text.toList))

theorem isLine_append
    {first second : String}
    (line : IsLine first)
    (line' : IsLine second) :
    IsLine (first ++ second) := by
  intro member
  rw [String.toList_append] at member
  rcases List.mem_append.1 member with member | member
  · exact line member
  · exact line' member

theorem isLine_blanks (count : Nat) : IsLine (blanks count) := by
  simp [IsLine, blanks]

theorem blanks_add (first second : Nat) :
    blanks (first + second) = blanks first ++ blanks second := by
  rw [blanks, List.replicate_add, String.ofList_append]
  rfl

theorem shifted_append (count : Nat) (first second : String) :
    shifted count (first ++ second) = shifted count first ++ shifted count second := by
  rw [shifted, String.toList_append, List.flatMap_append, String.ofList_append]
  rfl

theorem shifted_newline (count : Nat) :
    shifted count "\n" = "\n" ++ blanks count := by
  apply String.toList_inj.1
  simp [shifted, blanks]

theorem shifted_of_isLine
    (count : Nat)
    {text : String}
    (line : IsLine text) :
    shifted count text = text := by
  have kept : ∀ c ∈ text.toList,
      (if c = '\n' then '\n' :: List.replicate count ' ' else [c]) = [c] := by
    intro c member
    rw [if_neg]
    rintro rfl
    exact line member
  rw [shifted, List.flatMap_congr kept, List.flatMap_singleton', String.ofList_toList]

/-- Shifted lines are the lines of the shifted text. -/
theorem shifted_intercalate
    (count : Nat)
    (first : String)
    (others : List String) :
    blanks count ++ shifted count (String.intercalate "\n" (first :: others)) =
      String.intercalate "\n"
        ((first :: others).map fun line => blanks count ++ shifted count line) := by
  induction others generalizing first with
  | nil => simp [String.intercalate_singleton]
  | cons second rest ih =>
      rw [String.intercalate_cons_cons, shifted_append, shifted_append, shifted_newline,
        String.append_assoc, String.append_assoc, ih]
      simp only [List.map_cons, String.intercalate_cons_cons, String.append_assoc]

/-- No newline is in the names and messages of the reference. -/
def Reference.SingleLined : Reference → Prop
  | symbol description => IsLine (description.getD "")
  | function name _ _ => IsLine name
  | object className _ => IsLine className
  | unclassed _ _ => True

theorem Reference.isLine_format
    {target : Reference}
    (single : target.SingleLined) :
    IsLine target.format := by
  cases target with
  | symbol description => exact isLine_append (isLine_append (by decide) single) (by decide)
  | function name text answer =>
      refine isLine_append (isLine_append (by decide) ?_) (by decide)
      split
      · decide
      · exact single
  | object className text => exact isLine_append (isLine_append (by decide) single) (by decide)
  | unclassed shape text =>
      rw [format]
      decide

namespace HostValue

theorem isLine_bytesText (content : List UInt8) : IsLine (bytesText content) :=
  isLine_append (isLine_append (by decide) (Hex.newline_notMem_text content)) (by decide)

mutual

/-- No newline is in the names, messages, descriptions and classes that the display form of the
value shows.  A foreign mapping shows none of its keys. -/
def SingleLined : HostValue → Prop
  | list items => ItemsSingleLined items
  | scope entries => EntriesSingleLined entries
  | record _ entries => EntriesSingleLined entries
  | exception _ message => IsLine message
  | reference _ target => target.SingleLined
  | _ => True

def ItemsSingleLined : List HostValue → Prop
  | [] => True
  | item :: rest => item.SingleLined ∧ ItemsSingleLined rest

def EntriesSingleLined : List (String × HostValue) → Prop
  | [] => True
  | (name, value) :: rest => IsLine name ∧ value.SingleLined ∧ EntriesSingleLined rest

end

theorem indent_of_nonneg
    {depth : Int}
    (nonnegative : 0 ≤ depth) :
    indent depth = .ok (blanks (4 * depth.toNat)) := by
  have spaced : ¬ depth < 0 := by
    omega
  rw [indent, if_neg spaced]
  rfl

/-- The lines of a scope stand a level deeper than its closing brace. -/
theorem renderScope_cons
    {depth : Int}
    (inside : 1 ≤ depth)
    (name : String)
    (value : HostValue)
    (rest : List (String × HostValue)) :
    renderScope depth ((name, value) :: rest) = (do
      let first ← value.format (depth + 1)
      let others ← entryLines (blanks (4 * depth.toNat)) (depth + 1) rest
      .ok (block (entryLine (blanks (4 * depth.toNat)) name first :: others)
        (blanks (4 * (depth - 1).toNat)))) := by
  rw [renderScope, indent_of_nonneg (by omega), indent_of_nonneg (by omega)]
  rfl

theorem shifted_entryLine
    (count : Nat)
    {space name : String}
    (blank : IsLine space)
    (line : IsLine name)
    (value : String) :
    blanks count ++ shifted count (entryLine space name value) =
      entryLine (blanks count ++ space) name (shifted count value) := by
  have sign : IsLine " = " := by decide
  have stop : IsLine ";" := by decide
  simp only [entryLine, shifted_append, shifted_of_isLine count blank,
    shifted_of_isLine count line, shifted_of_isLine count sign, shifted_of_isLine count stop,
    String.append_assoc]

/-- The lines of a shifted block stand further to the right, and so does its closing brace. -/
theorem shifted_block
    (count : Nat)
    (first : String)
    (others : List String)
    {margin : String}
    (blank : IsLine margin) :
    shifted count (block (first :: others) margin) =
      block ((first :: others).map fun line => blanks count ++ shifted count line)
        (blanks count ++ margin) := by
  have closing : IsLine "\x7d" := by decide
  have opening : shifted count "\x7b\n" = "\x7b\n" ++ blanks count := by
    have parts : "\x7b\n" = "\x7b" ++ "\n" := rfl
    rw [parts, shifted_append, shifted_of_isLine count (by decide), shifted_newline,
      String.append_assoc]
  rw [block, block, ← shifted_intercalate]
  simp only [shifted_append, opening, shifted_newline, shifted_of_isLine count blank,
    shifted_of_isLine count closing, String.append_assoc]

theorem shifted_list (count : Nat) (texts : List String) :
    shifted count ("[" ++ String.intercalate ", " texts ++ "]") =
      "[" ++ String.intercalate ", " (texts.map (shifted count)) ++ "]" := by
  have comma : IsLine ", " := by decide
  have items : shifted count (String.intercalate ", " texts) =
      String.intercalate ", " (texts.map (shifted count)) := by
    induction texts with
    | nil => exact shifted_of_isLine count (by decide)
    | cons first rest ih =>
        cases rest with
        | nil => simp [String.intercalate_singleton]
        | cons second rest =>
            rw [String.intercalate_cons_cons, shifted_append, shifted_append, ih,
              shifted_of_isLine count comma]
            simp only [List.map_cons, String.intercalate_cons_cons]
  rw [shifted_append, shifted_append, items, shifted_of_isLine count (by decide),
    shifted_of_isLine count (by decide)]

theorem ok_eq_map_shifted
    (count : Nat)
    {text : String}
    (line : IsLine text) :
    (.ok text : Except Fault String) = (Except.ok text).map (shifted count) :=
  congrArg Except.ok (shifted_of_isLine count line).symm

section Deeper

variable (count : Nat)

mutual

/-- Going deeper shifts what is displayed; a fault stays. -/
theorem format_add : (value : HostValue) → value.SingleLined → {depth : Int} → 1 ≤ depth →
    value.format (depth + count) = (value.format depth).map (shifted (4 * count))
  | null, _, _, _ => by
      rw [format, format]
      exact ok_eq_map_shifted _ (by decide)
  | text value, _, _, _ => by
      rw [format, format]
      exact ok_eq_map_shifted _ (Quoted.newline_notMem_quote value)
  | number value, _, _, _ => by
      rw [format, format]
      exact ok_eq_map_shifted _ value.newline_notMem_text
  | bool value, _, _, _ => by
      rw [format, format]
      exact ok_eq_map_shifted _ (by cases value <;> decide)
  | scope entries, single, _, inside => by
      rw [SingleLined] at single
      rw [format, format]
      exact renderScope_add entries single inside
  | exception _ message, single, _, _ => by
      rw [format, format]
      exact ok_eq_map_shifted _ single
  | bytes _ content, _, _, _ => by
      rw [format, format]
      exact ok_eq_map_shifted _ (isLine_bytesText content)
  | list items, single, depth, inside => by
      rw [SingleLined] at single
      rw [format, format, formatItems_add items single inside]
      cases formatItems depth items with
      | error fault => rfl
      | ok texts => exact congrArg Except.ok (shifted_list _ texts).symm
  | record _ entries, single, _, inside => by
      rw [SingleLined] at single
      rw [format, format]
      exact renderScope_add entries single inside
  | reference _ target, single, _, _ => by
      rw [format, format]
      exact ok_eq_map_shifted _ (target.isLine_format single)
  | integer _, _, _, _ => by
      rw [format, format]
      exact ok_eq_map_shifted _ (by decide)
  | mapping _, _, _, _ => by
      rw [format, format]
      exact ok_eq_map_shifted _ (by decide)
  | promise _ _, _, _, _ => by
      rw [format, format]
      exact ok_eq_map_shifted _ (by decide)
  | rejection _ _, _, _, _ => by
      rw [format, format]
      exact ok_eq_map_shifted _ (by decide)
  | absent, _, _, _ => by
      rw [format, format]
      rfl

theorem formatItems_add : (items : List HostValue) → ItemsSingleLined items →
    {depth : Int} → 1 ≤ depth →
      formatItems (depth + count) items =
        (formatItems depth items).map (List.map (shifted (4 * count)))
  | [], _, _, _ => by
      rw [formatItems, formatItems]
      rfl
  | item :: rest, single, depth, inside => by
      rw [formatItems, formatItems, format_add item single.1 inside,
        formatItems_add rest single.2 inside]
      cases item.format depth with
      | error fault => rfl
      | ok first => cases formatItems depth rest <;> rfl

theorem entryLines_add : (entries : List (String × HostValue)) → EntriesSingleLined entries →
    {depth : Int} → 1 ≤ depth → {space : String} → IsLine space →
      entryLines (blanks (4 * count) ++ space) (depth + count) entries =
        (entryLines space depth entries).map
          (List.map fun line => blanks (4 * count) ++ shifted (4 * count) line)
  | [], _, _, _, _, _ => by
      rw [entryLines, entryLines]
      rfl
  | (name, value) :: rest, single, depth, inside, space, blank => by
      have first := fun text => shifted_entryLine (4 * count) blank single.1 text
      rw [entryLines, entryLines, format_add value single.2.1 inside,
        entryLines_add rest single.2.2 inside blank]
      cases value.format depth with
      | error fault => rfl
      | ok text =>
          cases entryLines space depth rest with
          | error fault => rfl
          | ok others => exact congrArg (fun line => Except.ok (line :: _)) (first text).symm

theorem renderScope_add : (entries : List (String × HostValue)) → EntriesSingleLined entries →
    {depth : Int} → 1 ≤ depth →
      renderScope (depth + count) entries =
        (renderScope depth entries).map (shifted (4 * count))
  | [], _, _, _ => by
      rw [renderScope, renderScope]
      exact ok_eq_map_shifted _ (by decide)
  | (name, value) :: rest, single, depth, inside => by
      have space : blanks (4 * (depth + count).toNat) =
          blanks (4 * count) ++ blanks (4 * depth.toNat) := by
        rw [← blanks_add]
        congr 1
        omega
      have margin : blanks (4 * (depth + count - 1).toNat) =
          blanks (4 * count) ++ blanks (4 * (depth - 1).toNat) := by
        rw [← blanks_add]
        congr 1
        omega
      have deeper : depth + count + 1 = depth + 1 + count := by
        omega
      rw [renderScope_cons (by omega), renderScope_cons inside, space, margin, deeper,
        format_add value single.2.1 (by omega),
        entryLines_add rest single.2.2 (by omega) (isLine_blanks _)]
      cases value.format (depth + 1) with
      | error fault => rfl
      | ok first =>
          cases entryLines (blanks (4 * depth.toNat)) (depth + 1) rest with
          | error fault => rfl
          | ok others =>
              refine congrArg Except.ok ?_
              rw [shifted_block _ _ _ (isLine_blanks _), List.map_cons,
                shifted_entryLine _ (isLine_blanks _) single.1]

end

end Deeper

/-- Entries as a foreign mapping holds them, with their names as keys. -/
def keyed (entries : List (String × HostValue)) : List (HostValue × HostValue) :=
  entries.map fun entry => (text entry.1, entry.2)

theorem mappingLines_keyed
    (space : String)
    (depth : Int)
    (entries : List (String × HostValue)) :
    mappingLines space depth (keyed entries) = entryLines space depth entries := by
  induction entries with
  | nil =>
      rw [entryLines]
      rfl
  | cons entry rest ih =>
      obtain ⟨name, value⟩ := entry
      change mappingLines space depth ((text name, value) :: keyed rest) = _
      rw [mappingLines, entryLines, ih, plainText]
      rfl

/-- A foreign mapping whose keys are texts is laid out as a scope is. -/
theorem renderMapping_keyed
    {depth : Int}
    (inside : 1 ≤ depth)
    (entries : List (String × HostValue)) :
    renderMapping depth (keyed entries) = renderScope depth entries := by
  cases entries with
  | nil =>
      rw [renderScope]
      rfl
  | cons entry rest =>
      obtain ⟨name, value⟩ := entry
      have filled : ¬ (keyed ((name, value) :: rest)).isEmpty = true := by
        simp [keyed]
      rw [renderMapping, if_neg filled, indent_of_nonneg (by omega), indent_of_nonneg (by omega),
        renderScope_cons inside]
      change (do
        let lines ← mappingLines (blanks (4 * depth.toNat)) (depth + 1)
          (keyed ((name, value) :: rest))
        .ok (block lines (blanks (4 * (depth - 1).toNat)))) = _
      rw [mappingLines_keyed, entryLines]
      cases value.format (depth + 1) with
      | error fault => rfl
      | ok first => cases entryLines (blanks (4 * depth.toNat)) (depth + 1) rest <;> rfl

end HostValue

open HostValue

/-- Depth only shifts the indentation.  Let no newline be in the names and messages that a value
shows.  Its display form some levels deeper is the one at the given depth with four blanks for each
level after every newline, and it fails deeper only where it fails at the given depth.  The same
holds of the layout of a scope and of a foreign mapping whose keys are texts. -/
theorem format_shifted
    {depth : Int}
    (inside : 1 ≤ depth)
    (levels : Nat) :
    (∀ value : HostValue, value.SingleLined →
      value.format (depth + levels) = (value.format depth).map (shifted (4 * levels))) ∧
      ∀ entries : List (String × HostValue), EntriesSingleLined entries →
        ∀ laidOut ∈ [scope entries, mapping (keyed entries)],
          laidOut.render (depth + levels) =
            (laidOut.render depth).map (shifted (4 * levels)) := by
  have scopes := fun entries single => renderScope_add levels entries single inside
  refine ⟨fun value single => format_add levels value single inside, ?_⟩
  intro entries single laidOut member
  rcases List.mem_pair.1 member with rfl | rfl
  · exact scopes entries single
  · rw [render, render, renderMapping_keyed (by omega), renderMapping_keyed inside]
    exact scopes entries single

theorem format_shifted_nestedScope :
    let value : HostValue := .list [.scope [("a", .record false [("b", .text "x\ny")])], .null]
    value.SingleLined ∧
      value.format 1 = .ok
        "[\x7b\n    a = \x7b\n        b = \"x\\ny\";\n    \x7d;\n\x7d, none]" ∧
      value.format 2 = .ok
        "[\x7b\n        a = \x7b\n            b = \"x\\ny\";\n        \x7d;\n    \x7d, none]" := by
  intro value
  have single : value.SingleLined := by
    simp only [value, SingleLined, ItemsSingleLined, EntriesSingleLined]
    decide
  have here : value.format 1 = .ok
      "[\x7b\n    a = \x7b\n        b = \"x\\ny\";\n    \x7d;\n\x7d, none]" := by
    rfl
  have deeper := (format_shifted (le_refl (1 : Int)) 1).1 value single
  rw [here] at deeper
  refine ⟨single, here, deeper.trans ?_⟩
  rfl

end ScriptHost
