/-
OffsetAtlas.Proofs.Csv.Messages — what the warnings about a file say.

Every warning about a row begins with the number of its line, and a warning about the second line
with that line (`RowFault.message_tells`, `duplicateMessage_tells`,
`DeclarationFault.message_begins`). A warning about a repeated row says in full what has happened
(`repetition`), and all of it can be told from the text (`repetition_injective`): each number is
written in digits alone, and what stands behind it begins with something else. No other warning
reads the same (`RowFault.message_ne_repetition`, `not_begins_repetition`).
-/
import OffsetAtlas.Csv.Parse
import OffsetAtlas.Proofs.Text.Numeral

namespace OffsetAtlas.Csv

open Text

/-! ## How a warning begins -/

/-- A text that begins with another. -/
def Begins (front text : String) : Prop :=
  ∃ rest, text = front ++ rest

theorem begins_append (front rest : String) : Begins front (front ++ rest) :=
  ⟨rest, rfl⟩

theorem Begins.append {front text : String} (h : Begins front text) (more : String) :
    Begins front (text ++ more) := by
  obtain ⟨rest, rfl⟩ := h
  exact ⟨rest ++ more, String.append_assoc ..⟩

theorem Begins.of_append {front more text : String} (h : Begins (front ++ more) text) :
    Begins front text := by
  obtain ⟨rest, rfl⟩ := h
  exact ⟨more ++ rest, String.append_assoc ..⟩

theorem Begins.take {front text : String} {k : Nat} (h : Begins front text)
    (hk : k ≤ front.toList.length) : text.toList.take k = front.toList.take k := by
  obtain ⟨rest, rfl⟩ := h
  rw [String.toList_append, List.take_append_of_le_length hk]

/-- What is wrong with a row is said behind the number of its line. -/
theorem RowFault.message_tells (number : Nat) (fault : RowFault) :
    ∃ what c, Begins ("CSV line " ++ Numeral.decimal number ++ ": " ++ what) (fault.message number)
      ∧ what.toList.head? = some c ∧ c ≠ 'D' := by
  have hsaid : ∀ (what : String) (line : List Char),
      Begins ("CSV line " ++ Numeral.decimal number ++ ": " ++ what)
        ("CSV line " ++ Numeral.decimal number ++ ": " ++ what ++ ". Line: '"
          ++ String.ofList line ++ "'") :=
    fun _ _ => ((begins_append _ _).append _).append _
  cases fault with
  | notText line => exact ⟨"Not valid UTF-8", 'N', hsaid _ line, by decide, by decide⟩
  | noComma line =>
    exact ⟨"Invalid format (missing comma)", 'I', hsaid _ line, by decide, by decide⟩
  | blankField line => exact ⟨"Empty ID or offset value", 'E', hsaid _ line, by decide, by decide⟩
  | notNumber line => exact ⟨"Invalid number format", 'I', hsaid _ line, by decide, by decide⟩

theorem duplicateMessage_tells (number : Nat) (id previous offset : UInt64) :
    Begins ("CSV line " ++ Numeral.decimal number ++ ": " ++ "Duplicate ID ")
      (duplicateMessage number id previous offset) := by
  have hcolon : ": Duplicate ID " = ": " ++ "Duplicate ID " := by decide
  have hfront : Begins ("CSV line " ++ Numeral.decimal number ++ ": " ++ "Duplicate ID ")
      ("CSV line " ++ Numeral.decimal number ++ ": Duplicate ID ") := by
    rw [String.append_assoc, ← hcolon]
    exact ⟨"", String.append_empty.symm⟩
  exact (((((hfront.append _).append _).append _).append _).append _).append _

theorem DeclarationFault.message_begins (fault : DeclarationFault) :
    Begins "CSV metadata line 2: " fault.message := by
  have htext : Begins "CSV metadata line 2: " "CSV metadata line 2: Not valid UTF-8" :=
    ⟨"Not valid UTF-8", by decide⟩
  have hcomma : Begins "CSV metadata line 2: "
      "CSV metadata line 2: Invalid format (missing comma). Line: '" :=
    ⟨"Invalid format (missing comma). Line: '", by decide⟩
  have hnumber : Begins "CSV metadata line 2: "
      "CSV metadata line 2: Could not parse entry count or version string. Line: '" :=
    ⟨"Could not parse entry count or version string. Line: '", by decide⟩
  cases fault with
  | notText => exact htext
  | noComma line => exact (hcomma.append _).append _
  | notNumber line => exact (hnumber.append _).append _

/-! ## Repeated rows -/

/-- What there is to say of a row that gives an identifier another offset: its line and the
identifier in decimal, the offset so far and the one from now on in upper-case hexadecimal. -/
def repetition (number : Nat) (id previous offset : UInt64) : String :=
  "CSV line " ++ String.ofList (Nat.toDigits 10 number)
    ++ ": Duplicate ID " ++ String.ofList (Nat.toDigits 10 id.toNat)
    ++ " (previous offset: 0x" ++ String.ofList ((Nat.toDigits 16 previous.toNat).map Char.toUpper)
    ++ ", new offset: 0x" ++ String.ofList ((Nat.toDigits 16 offset.toNat).map Char.toUpper) ++ ")"

theorem duplicateMessage_eq (number : Nat) (id previous offset : UInt64) :
    duplicateMessage number id previous offset = repetition number id previous offset := by
  simp only [duplicateMessage, Numeral.decimal_eq, Numeral.hex_eq, repetition]

theorem head?_append {s : String} {c : Char} (h : s.toList.head? = some c) (t : String) :
    (s ++ t).toList.head? = some c := by
  rw [String.toList_append, List.head?_append, h]
  rfl

/-- The number of a line is told from a text that has it in front of something else. -/
theorem line_cancel {front between more more' rest rest' : String} {m n : Nat}
    (hbetween : between.toList.head? = some ':')
    (h : front ++ Numeral.decimal m ++ between ++ more ++ rest
      = front ++ Numeral.decimal n ++ between ++ more' ++ rest') :
    m = n ∧ more ++ rest = more' ++ rest' := by
  have h := congrArg String.toList h
  simp only [String.toList_append, Numeral.decimal, String.toList_ofList, List.append_assoc] at h
  obtain ⟨hnumber, h⟩ := Numeral.write_append_cancel (by decide) (by decide) hbetween (by decide)
    (List.append_cancel_left h)
  exact ⟨hnumber, String.toList_inj.1 (by rwa [String.toList_append, String.toList_append])⟩

/-- Four numbers are told from a text with other texts between them. -/
theorem numbers_cancel {front second third fourth back : String} {a b c d a' b' c' d' : Nat}
    (hsecond : second.toList.head? = some ':') (hthird : third.toList.head? = some ' ')
    (hfourth : fourth.toList.head? = some ',') (hback : back.toList.head? = some ')')
    (h : front ++ Numeral.decimal a ++ second ++ Numeral.decimal b ++ third ++ Numeral.hex c
        ++ fourth ++ Numeral.hex d ++ back
      = front ++ Numeral.decimal a' ++ second ++ Numeral.decimal b' ++ third ++ Numeral.hex c'
        ++ fourth ++ Numeral.hex d' ++ back) :
    a = a' ∧ b = b' ∧ c = c' ∧ d = d' := by
  have h := congrArg String.toList h
  simp only [String.toList_append, Numeral.decimal, Numeral.hex, String.toList_ofList,
    List.append_assoc] at h
  rw [← List.append_nil back.toList] at h
  have h := List.append_cancel_left h
  obtain ⟨ha, h⟩ := Numeral.write_append_cancel (by decide) (by decide) hsecond (by decide) h
  obtain ⟨hb, h⟩ := Numeral.write_append_cancel (by decide) (by decide) hthird (by decide) h
  obtain ⟨hc, h⟩ := Numeral.write_append_cancel (by decide) (by decide) hfourth (by decide) h
  obtain ⟨hd, -⟩ := Numeral.write_append_cancel (by decide) (by decide) hback (by decide) h
  exact ⟨ha, hb, hc, hd⟩

/-- What is said of two repeated rows is the same only if they have everything in common. -/
theorem repetition_injective {number number' : Nat}
    {id id' previous previous' offset offset' : UInt64}
    (h : repetition number id previous offset = repetition number' id' previous' offset') :
    number = number' ∧ id = id' ∧ previous = previous' ∧ offset = offset' := by
  rw [← duplicateMessage_eq, ← duplicateMessage_eq] at h
  obtain ⟨hnumber, hid, hprevious, hoffset⟩ :=
    numbers_cancel (by decide) (by decide) (by decide) (by decide) h
  exact ⟨hnumber, UInt64.toNat_inj.1 hid, UInt64.toNat_inj.1 hprevious,
    UInt64.toNat_inj.1 hoffset⟩

/-- Nothing else is said in the same words: not of a faulty row, -/
theorem RowFault.message_ne_repetition (number number' : Nat) (fault : RowFault)
    (id previous offset : UInt64) :
    fault.message number ≠ repetition number' id previous offset := by
  intro h
  obtain ⟨what, c, ⟨rest, hfault⟩, hc, hne⟩ := fault.message_tells number
  obtain ⟨rest', hrepeated⟩ := duplicateMessage_tells number' id previous offset
  rw [duplicateMessage_eq, ← h, hfault] at hrepeated
  obtain ⟨-, hwhat⟩ := line_cancel (by decide) hrepeated
  have hD : "Duplicate ID ".toList.head? = some 'D' := by decide
  have hheads : (what ++ rest).toList.head? = ("Duplicate ID " ++ rest').toList.head? := by
    rw [hwhat]
  rw [head?_append hc, head?_append hD, Option.some.injEq] at hheads
  exact hne hheads

/-- and not of the second line. -/
theorem not_begins_repetition (number : Nat) (id previous offset : UInt64) :
    ¬ Begins "CSV metadata line 2: " (repetition number id previous offset) := by
  intro h
  have hline : Begins "CSV line " (repetition number id previous offset) := by
    rw [← duplicateMessage_eq]
    exact (duplicateMessage_tells number id previous offset).of_append.of_append.of_append
  have hfronts : "CSV metadata line 2: ".toList.take 5 = "CSV line ".toList.take 5 :=
    (h.take (by decide)).symm.trans (hline.take (by decide))
  exact absurd hfronts (by decide)

end OffsetAtlas.Csv
