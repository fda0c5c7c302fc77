import ScriptHost.Proofs.Language.Grammar
import ScriptHost.Proofs.Language.Joining

/-!
# Scanned tokens

What can be said of the tokens of a text by the text alone.  Each token takes as many characters as
its kind allows, so every token that is scanned is well formed for its kind.
-/

namespace ScriptHost
namespace Language

namespace Token

theorem isNumberText_of_startsNumber
    {c : Char}
    {rest : List Char}
    (starts : startsNumber c rest = true) :
    isNumberText (c :: rest.takeWhile isNumberChar) = true := by
  rw [startsNumber, Bool.or_eq_true] at starts
  rcases starts with digit | negative
  · have unsigned : c ≠ '-' := by
      rintro rfl
      cases digit
    rw [isNumberText.eq_2 _ _ (by simp [unsigned]), digit, List.all_takeWhile]
    rfl
  · cases rest with
    | nil => simp at negative
    | cons d others =>
        obtain ⟨rfl, digit⟩ : c = '-' ∧ d.isDigit = true := by simpa using negative
        have continues : isNumberChar d = true := by simp [isNumberChar, digit]
        rw [List.takeWhile_cons_of_pos continues, isNumberText, digit, List.all_takeWhile]
        rfl

theorem isNameText_of_isNameStart
    {c : Char}
    (starts : isNameStart c = true)
    (rest : List Char) :
    isNameText (c :: rest.takeWhile isNameChar) = true := by
  rw [isNameText, starts, List.all_takeWhile]
  rfl

theorem isWellFormed_terminator
    {c : Char}
    (ends : isTerminator c = true) :
    isWellFormed ⟨.terminator, String.ofList [c]⟩ = true := by
  have either : c = '\n' ∨ c = ';' := by simpa [isTerminator] using ends
  rcases either with rfl | rfl <;> rfl

theorem isWellFormed_mark
    {c : Char}
    (mark : marks.contains c = true) :
    isWellFormed ⟨.punctuation, String.ofList [c]⟩ = true := by
  have member : c ∈ marks := by simpa using mark
  simpa [isWellFormed] using member

/-- A token that is well formed before others that are. -/
theorem isWellFormed_of_before
    {kind : TokenKind}
    {text : List Char}
    {others : Except SourceFault (List Token)}
    {tokens : List Token}
    (made : before kind text others = .ok tokens)
    (wellFormed : isWellFormed ⟨kind, String.ofList text⟩ = true)
    (wellFormedOthers : ∀ rest, others = .ok rest → ∀ token ∈ rest, token.isWellFormed = true) :
    ∀ token ∈ tokens, token.isWellFormed = true := by
  obtain ⟨rest, scanned, rfl⟩ := before_eq_ok.1 made
  intro token member
  rcases List.mem_cons.1 member with rfl | member
  · exact wellFormed
  · exact wellFormedOthers rest scanned token member

theorem isWellFormed_of_scan
    {cs : List Char}
    {tokens : List Token}
    (scanned : scan cs = .ok tokens) :
    ∀ token ∈ tokens, token.isWellFormed = true := by
  induction cs using scan.induct generalizing tokens with
  | case1 =>
      rw [scan] at scanned
      cases scanned
      simp
  | case2 c rest terminator ih =>
      rw [scan, if_pos terminator] at scanned
      exact isWellFormed_of_before scanned (isWellFormed_terminator terminator) fun _ => ih
  | case3 c rest notTerminator blank ih =>
      rw [scan, if_neg notTerminator, if_pos blank] at scanned
      exact ih scanned
  | case4 rest notTerminator notBlank ih =>
      rw [scan, if_neg notTerminator, if_neg notBlank, if_pos rfl] at scanned
      exact ih scanned
  | case5 c rest notTerminator notBlank notComment number ih =>
      rw [scan, if_neg notTerminator, if_neg notBlank, if_neg notComment, if_pos number] at scanned
      refine isWellFormed_of_before scanned ?_ fun _ => ih
      rw [isWellFormed, String.toList_ofList]
      exact isNumberText_of_startsNumber number
  | case6 rest closed notTerminator notBlank notComment notNumber ih =>
      rw [scan, if_neg notTerminator, if_neg notBlank, if_neg notComment, if_neg notNumber,
        if_pos rfl, if_pos closed] at scanned
      exact isWellFormed_of_before scanned rfl fun _ => ih
  | case7 rest unclosed notTerminator notBlank notComment notNumber =>
      rw [scan, if_neg notTerminator, if_neg notBlank, if_neg notComment, if_neg notNumber,
        if_pos rfl, if_neg unclosed] at scanned
      cases scanned
  | case8 c rest notTerminator notBlank notComment notNumber notString name ih =>
      rw [scan, if_neg notTerminator, if_neg notBlank, if_neg notComment, if_neg notNumber,
        if_neg notString, if_pos name] at scanned
      refine isWellFormed_of_before scanned ?_ fun _ => ih
      rw [isWellFormed, String.toList_ofList]
      exact isNameText_of_isNameStart name rest
  | case9 c rest notTerminator notBlank notComment notNumber notString notName mark ih =>
      rw [scan, if_neg notTerminator, if_neg notBlank, if_neg notComment, if_neg notNumber,
        if_neg notString, if_neg notName, if_pos mark] at scanned
      exact isWellFormed_of_before scanned (isWellFormed_mark mark) fun _ => ih
  | case10 c rest notTerminator notBlank notComment notNumber notString notName notMark =>
      rw [scan, if_neg notTerminator, if_neg notBlank, if_neg notComment, if_neg notNumber,
        if_neg notString, if_neg notName, if_neg notMark] at scanned
      cases scanned

end Token

/-- Every token of a source is well formed for its kind. -/
theorem isWellFormed_of_tokenize
    {source : String}
    {tokens : List Token}
    (scanned : tokenize source = .ok tokens) :
    ∀ token ∈ tokens, token.isWellFormed = true :=
  Token.isWellFormed_of_scan scanned

end Language
end ScriptHost
