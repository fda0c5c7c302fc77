import Mathlib.Data.List.Basic
import ScriptHost.Text.Hex

/-!
# Reading texts back

What was written into a text can often be read back whatever follows it.

* `row_append_inj`: a row of characters of one kind is told by a text in which none of that kind
  follows.
* `flatMap_append_inj`: a list written piece by piece is told by its text, if each piece tells what
  it was written for and none starts like the mark at the end.
* Quoted text and bytes are such lists.  Neither of them holds a newline.
-/

namespace ScriptHost

/-- The text does not go on with a character of the kind. -/
def Stops (kind : Char → Bool) (rest : List Char) : Prop :=
  ∀ c ∈ rest.head?, kind c = false

theorem stops_nil (kind : Char → Bool) : Stops kind [] := by
  rintro c ⟨⟩

theorem stops_cons
    {kind : Char → Bool}
    {c : Char}
    (other : kind c = false)
    (rest : List Char) :
    Stops kind (c :: rest) := by
  rintro d ⟨⟩
  exact other

theorem takeWhile_row_append
    {kind : Char → Bool}
    {row rest : List Char}
    (all : ∀ c ∈ row, kind c = true)
    (stops : Stops kind rest) :
    (row ++ rest).takeWhile kind = row := by
  have ended : rest.takeWhile kind = [] := by
    cases rest with
    | nil => rfl
    | cons c others => rw [List.takeWhile_cons_of_neg (by simp [stops c rfl])]
  rw [List.takeWhile_append_of_pos all, ended, List.append_nil]

theorem dropWhile_row_append
    {kind : Char → Bool}
    {row rest : List Char}
    (all : ∀ c ∈ row, kind c = true)
    (stops : Stops kind rest) :
    (row ++ rest).dropWhile kind = rest := by
  rw [List.dropWhile_append_of_pos all]
  cases rest with
  | nil => rfl
  | cons c others => rw [List.dropWhile_cons_of_neg (by simp [stops c rfl])]

theorem stops_dropWhile (kind : Char → Bool) (text : List Char) :
    Stops kind (text.dropWhile kind) := by
  intro c first
  have kept := List.head?_dropWhile_not kind text
  simpa [Option.mem_def.1 first] using kept

theorem row_append_inj
    {kind : Char → Bool}
    {first second rest more : List Char}
    (all : ∀ c ∈ first, kind c = true)
    (all' : ∀ c ∈ second, kind c = true)
    (stops : Stops kind rest)
    (stops' : Stops kind more)
    (same : first ++ rest = second ++ more) :
    first = second ∧ rest = more := by
  have rows := congrArg (List.takeWhile kind) same
  rw [takeWhile_row_append all stops, takeWhile_row_append all' stops'] at rows
  subst rows
  exact ⟨rfl, List.append_cancel_left same⟩

/-- What is written piece by piece up to a mark can be read back, if each piece can and none starts
with the mark. -/
theorem flatMap_append_inj
    {α : Type}
    {written : α → List Char}
    {mark : Char}
    (tells : ∀ {a b : α} {rest more : List Char},
      written a ++ rest = written b ++ more → a = b ∧ rest = more)
    (apart : ∀ (a : α) (rest more : List Char), written a ++ rest ≠ mark :: more)
    {first second : List α}
    {rest more : List Char}
    (same : first.flatMap written ++ mark :: rest = second.flatMap written ++ mark :: more) :
    first = second ∧ rest = more := by
  induction first generalizing second with
  | nil =>
      cases second with
      | nil => simpa using same
      | cons b others =>
          rw [List.flatMap_cons, List.append_assoc] at same
          exact absurd same.symm (apart b _ rest)
  | cons a others ih =>
      cases second with
      | nil =>
          rw [List.flatMap_cons, List.append_assoc] at same
          exact absurd same (apart a _ more)
      | cons b others' =>
          rw [List.flatMap_cons, List.flatMap_cons, List.append_assoc, List.append_assoc] at same
          obtain ⟨rfl, further⟩ := tells same
          obtain ⟨rfl, last⟩ := ih further
          exact ⟨rfl, last⟩

namespace Hex

theorem digitValue?_hexDigit (n : Nat) :
    digitValue? (Quoted.hexDigit n) = some (n % 16) := by
  have each : ∀ m < 16, digitValue? (Nat.digitChar m) = some m := by
    decide
  exact each (n % 16) (Nat.mod_lt n (by decide))

theorem hexDigit_ne
    {c : Char}
    (other : digitValue? c = none)
    (n : Nat) :
    Quoted.hexDigit n ≠ c := by
  intro same
  have value := digitValue?_hexDigit n
  rw [same, other] at value
  cases value

theorem mod_eq_of_hexDigit_eq
    {m n : Nat}
    (same : Quoted.hexDigit m = Quoted.hexDigit n) :
    m % 16 = n % 16 := by
  have values := congrArg digitValue? same
  rw [digitValue?_hexDigit, digitValue?_hexDigit] at values
  exact Option.some.inj values

theorem byteText_append_inj
    {first second : UInt8}
    {rest more : List Char}
    (same : byteText first ++ rest = byteText second ++ more) :
    first = second ∧ rest = more := by
  obtain ⟨high, low, others⟩ : Quoted.hexDigit (first.toNat / 16) =
      Quoted.hexDigit (second.toNat / 16) ∧
        Quoted.hexDigit first.toNat = Quoted.hexDigit second.toNat ∧ rest = more := by
    simpa [byteText] using same
  have highs := mod_eq_of_hexDigit_eq high
  have lows := mod_eq_of_hexDigit_eq low
  have firstBound := first.toNat_lt
  have secondBound := second.toNat_lt
  refine ⟨UInt8.toNat_inj.1 ?_, others⟩
  omega

theorem byteText_append_ne_quote
    (byte : UInt8)
    (rest more : List Char) :
    byteText byte ++ rest ≠ '"' :: more := by
  intro same
  exact hexDigit_ne (by decide) _ (List.cons.inj same).1

theorem newline_notMem_text (bytes : List UInt8) : '\n' ∉ (text bytes).toList := by
  rw [text, String.toList_ofList]
  intro member
  obtain ⟨byte, -, member⟩ := List.mem_flatMap.1 member
  have digits : '\n' = Quoted.hexDigit (byte.toNat / 16) ∨
      '\n' = Quoted.hexDigit byte.toNat := by
    simpa [byteText] using member
  rcases digits with high | low
  · exact hexDigit_ne (by decide) _ high.symm
  · exact hexDigit_ne (by decide) _ low.symm

end Hex

namespace Quoted

/-- Reads one character of a quoted text. -/
def unescape? : List Char → Option (Char × List Char)
  | [] => none
  | '\\' :: 'u' :: '0' :: '0' :: high :: low :: rest => do
      let h ← Hex.digitValue? high
      let l ← Hex.digitValue? low
      some (Char.ofNat (16 * h + l), rest)
  | '\\' :: 'b' :: rest => some ('\x08', rest)
  | '\\' :: 'f' :: rest => some ('\x0c', rest)
  | '\\' :: 'n' :: rest => some ('\n', rest)
  | '\\' :: 'r' :: rest => some ('\r', rest)
  | '\\' :: 't' :: rest => some ('\t', rest)
  | '\\' :: c :: rest => some (c, rest)
  | c :: rest => some (c, rest)

theorem unescape?_plain
    {c : Char}
    (plain : c ≠ '\\')
    (rest : List Char) :
    unescape? (c :: rest) = some (c, rest) := by
  unfold unescape?
  split <;> simp_all

theorem unescape?_escape
    (c : Char)
    (rest : List Char) :
    unescape? (escape c ++ rest) = some (c, rest) := by
  unfold escape
  split_ifs with quote slash backspace feed newline carriage tab control
  · rw [quote]
    rfl
  · rw [slash]
    rfl
  · rw [backspace]
    rfl
  · rw [feed]
    rfl
  · rw [newline]
    rfl
  · rw [carriage]
    rfl
  · rw [tab]
    rfl
  · have spelled : 16 * (c.toNat / 16 % 16) + c.toNat % 16 = c.toNat := by
      omega
    simp [unescape?, Hex.digitValue?_hexDigit, spelled]
  · exact unescape?_plain slash rest

theorem escape_append_inj
    {first second : Char}
    {rest more : List Char}
    (same : escape first ++ rest = escape second ++ more) :
    first = second ∧ rest = more := by
  have read := congrArg unescape? same
  rw [unescape?_escape, unescape?_escape] at read
  exact Prod.mk.inj (Option.some.inj read)

theorem escape_append_ne_quote
    (c : Char)
    (rest more : List Char) :
    escape c ++ rest ≠ '"' :: more := by
  unfold escape
  split_ifs with quote <;> simp [quote]

theorem newline_notMem_escape (c : Char) : '\n' ∉ escape c := by
  have digit : ∀ n, '\n' ≠ hexDigit n := fun n => (Hex.hexDigit_ne (by decide) n).symm
  unfold escape
  split_ifs with quote slash backspace feed newline
  case neg => simpa [eq_comm] using newline
  all_goals simp [digit]

theorem newline_notMem_quote (text : String) : '\n' ∉ (quote text).toList := by
  rw [quote_eq, String.toList_ofList]
  simp [newline_notMem_escape]

end Quoted
end ScriptHost
