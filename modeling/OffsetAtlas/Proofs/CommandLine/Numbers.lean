/-
OffsetAtlas.Proofs.CommandLine.Numbers — what can be typed for a number, and for a set of
identifiers.

Decimal digits may have a plus sign in front, and hexadecimal digits follow a mark, `0x` or `0X`.
That is how a number is to be typed (`Typed`), and all of it is read. But the digits behind the mark
are read by the same rule as those without one, so a plus sign may stand there, too (`Signed`),
where it is neither a decimal number nor hexadecimal digits behind a mark. Nothing else is read as a
number (`parseNumber_eq_ok_iff`).

A set of identifiers is cut at every comma and its elements are read one after the other, so main
statement is about all of them at once: which texts are read, which of these are typed as they
should be, and where a text is refused (`parseIdSet_listed`).
-/
import OffsetAtlas.CommandLine.Number
import OffsetAtlas.Proofs.Attempt.Each
import OffsetAtlas.Proofs.Text.Numeral

namespace OffsetAtlas.CommandLine

open Text

variable {text digits : List Char} {mark : Char} {n : Nat} {id : UInt64}

/-! ## Numbers -/

/-- The letter behind the zero in a mark of hexadecimal digits. -/
def IsMark (c : Char) : Prop :=
  c = 'x' ∨ c = 'X'

/-- A number as it is to be typed. -/
inductive Typed : List Char → Nat → Prop where
  | decimal {text : List Char} {n : Nat} (h : Numeral.Denotes text n) : Typed text n
  | hexadecimal {mark : Char} {digits : List Char} {n : Nat} (hmark : IsMark mark)
    (h : Numeral.DenotesHex digits n) : Typed ('0' :: mark :: digits) n

/-- Hexadecimal digits with a plus sign between the mark and them. -/
inductive Signed : List Char → Nat → Prop where
  | plus {mark : Char} {digits : List Char} {n : Nat} (hmark : IsMark mark)
    (h : Numeral.DenotesHex digits n) : Signed ('0' :: mark :: '+' :: digits) n

/-- What is read as a number. -/
def Read (text : List Char) (n : Nat) : Prop :=
  Typed text n ∨ Signed text n

theorem IsMark.not_denotes (h : IsMark mark) : ¬ Numeral.Denotes ('0' :: mark :: digits) n := by
  intro hdenotes
  obtain ⟨ds, htext, -, hdigits, -⟩ := hdenotes
  rcases htext with rfl | htext
  · have hdigit := hdigits mark (by simp)
    rcases h with rfl | rfl <;> exact absurd hdigit (by decide)
  · exact absurd (List.cons.inj htext).1 (by decide)

theorem typed_marked_iff (h : IsMark mark) :
    Typed ('0' :: mark :: digits) n ↔ Numeral.DenotesHex digits n := by
  constructor
  · intro htyped
    cases htyped with
    | decimal hdenotes => exact absurd hdenotes h.not_denotes
    | hexadecimal _ hdenotes => exact hdenotes
  · exact .hexadecimal h

theorem signed_marked_iff (h : IsMark mark) :
    Signed ('0' :: mark :: digits) n ↔ ∃ ds, digits = '+' :: ds ∧ Numeral.DenotesHex ds n := by
  constructor
  · intro hsigned
    cases hsigned with
    | plus _ hdenotes => exact ⟨_, rfl, hdenotes⟩
  · intro ⟨ds, hdigits, hdenotes⟩
    rw [hdigits]
    exact .plus h hdenotes

/-- A plus sign behind the mark is not as it is to be typed. -/
theorem Signed.not_typed {m : Nat} (h : Signed text n) : ¬ Typed text m := by
  intro htyped
  cases h with
  | plus hmark _ =>
    have hdenotes := (typed_marked_iff hmark).1 htyped
    exact (hdenotes.solid '+' List.mem_cons_self).2 rfl

theorem readNumber_of_mark (h : IsMark mark) :
    readNumber ('0' :: mark :: digits) = Numeral.read 16 UInt64.size digits := by
  rcases h with rfl | rfl <;> rfl

theorem readNumber_of_no_mark (h : ∀ mark digits, IsMark mark → text ≠ '0' :: mark :: digits) :
    readNumber text = Numeral.read 10 UInt64.size text := by
  unfold readNumber
  split
  · exact absurd rfl (h 'x' _ (.inl rfl))
  · exact absurd rfl (h 'X' _ (.inr rfl))
  · rfl

theorem readNumber_eq_ok_iff : readNumber text = .ok n ↔ Read text n ∧ n < UInt64.size := by
  have hbound : 0 < UInt64.size := by decide
  by_cases hmarked : ∃ mark digits, IsMark mark ∧ text = '0' :: mark :: digits
  · obtain ⟨mark, digits, hmark, rfl⟩ := hmarked
    rw [readNumber_of_mark hmark, Numeral.read_sixteen_eq_ok_iff hbound, Read,
      typed_marked_iff hmark, signed_marked_iff hmark]
    constructor
    · intro ⟨ds, hdigits, hdenotes, hlt⟩
      refine ⟨?_, hlt⟩
      rcases hdigits with rfl | rfl
      · exact .inl hdenotes
      · exact .inr ⟨ds, rfl, hdenotes⟩
    · intro ⟨hread, hlt⟩
      rcases hread with hdenotes | ⟨ds, rfl, hdenotes⟩
      · exact ⟨digits, .inl rfl, hdenotes, hlt⟩
      · exact ⟨ds, .inr rfl, hdenotes, hlt⟩
  · have hno : ∀ mark digits, IsMark mark → text ≠ '0' :: mark :: digits := fun mark digits hmark h =>
      hmarked ⟨mark, digits, hmark, h⟩
    have hread : Read text n ↔ Numeral.Denotes text n := by
      constructor
      · intro h
        rcases h with (hdenotes | ⟨hmark, _⟩) | ⟨hmark, _⟩
        · exact hdenotes
        · exact absurd rfl (hno _ _ hmark)
        · exact absurd rfl (hno _ _ hmark)
      · exact fun hdenotes => .inl (.decimal hdenotes)
    rw [readNumber_of_no_mark hno, Numeral.read_eq_ok_iff hbound, hread]

/-- There is no blank inside. -/
theorem Read.solid (h : Read text n) : ∀ c ∈ text, isBlank c = false := by
  have hmarked : ∀ {mark digits}, IsMark mark → (∀ c ∈ digits, isBlank c = false) →
      ∀ c ∈ '0' :: mark :: digits, isBlank c = false := by
    intro mark digits hmark hdigits
    rw [List.forall_mem_cons, List.forall_mem_cons]
    refine ⟨rfl, ?_, hdigits⟩
    rcases hmark with rfl | rfl <;> rfl
  rcases h with (hdenotes | ⟨hmark, hdenotes⟩) | ⟨hmark, hdenotes⟩
  · exact Numeral.isBlank_of_denotes hdenotes
  · exact hmarked hmark fun c hc => (hdenotes.solid c hc).1
  · refine hmarked hmark ?_
    rw [List.forall_mem_cons]
    exact ⟨rfl, fun c hc => (hdenotes.solid c hc).1⟩

/-- An identifier between blanks. -/
def Element (spelled : List Char → Nat → Prop) (element : List Char) (id : UInt64) : Prop :=
  Padded (spelled · id.toNat) element

theorem Element.imp {p q : List Char → Nat → Prop} (hpq : ∀ text n, p text n → q text n)
    (h : Element p text id) : Element q text id := by
  obtain ⟨front, core, back, htext, hfront, hback, hcore⟩ := h
  exact ⟨front, core, back, htext, hfront, hback, hpq _ _ hcore⟩

theorem element_iff {p : List Char → Nat → Prop} (hp : ∀ text n, p text n → Read text n) :
    Element p text id ↔ p (trim text) id.toNat :=
  padded_iff fun core h => (hp core _ h).solid

theorem parseNumber_eq_ok_iff : parseNumber text = .ok id ↔ Element Read text id := by
  have hread : Element Read text id ↔ readNumber (trim text) = .ok id.toNat := by
    rw [element_iff fun _ _ h => h, readNumber_eq_ok_iff]
    exact (and_iff_left id.toNat_lt).symm
  rw [hread, parseNumber]
  cases hnumber : readNumber (trim text) with
  | error fault => simp
  | ok n =>
    have hlt : n < UInt64.size := (readNumber_eq_ok_iff.1 hnumber).2
    simp only [Except.ok.injEq]
    rw [← UInt64.toNat_inj, UInt64.toNat_ofNat_of_lt' hlt]

/-- A refusal names the text without the blanks around it. -/
theorem text_of_parseNumber {fault : NumberFault} (h : parseNumber text = .error fault) :
    fault.text = String.ofList (trim text) := by
  unfold parseNumber at h
  split at h
  · cases h
  · cases h
    rfl

/-! ## Sets of identifiers -/

/-- The identifiers of the elements between commas. -/
def Lists (spelled : List Char → Nat → Prop) (text : List Char) (ids : List UInt64) : Prop :=
  List.Forall₂ (Element spelled) (text.splitOn ',') ids

/-- A refusal and the first element that is no number, with those in front of it and behind it. -/
structure Stuck (text : List Char) (fault : NumberFault) (front : List (List Char))
    (element : List Char) (back : List (List Char)) : Prop where
  elements : text.splitOn ',' = front ++ element :: back
  before : ∀ e ∈ front, ∃ id, Element Read e id
  refused : ∀ id, ¬ Element Read element id
  named : fault.text = String.ofList (trim element)

theorem parseIdSet_eq_ok_iff {ids : List UInt64} :
    parseIdSet text = .ok ids ↔ Lists Read text ids := by
  rw [parseIdSet, split_eq_splitOn, mapM_eq_ok_iff, Lists]
  simp only [parseNumber_eq_ok_iff]

theorem stuck_of_parseIdSet {fault : NumberFault} (h : parseIdSet text = .error fault) :
    ∃ front element back, Stuck text fault front element back := by
  rw [parseIdSet, split_eq_splitOn] at h
  obtain ⟨front, element, back, hsplit, hfront, helement⟩ := mapM_eq_error_iff.1 h
  refine ⟨front, element, back, hsplit, ?_, ?_, text_of_parseNumber helement⟩
  · intro e he
    obtain ⟨id, hid⟩ := hfront e he
    exact ⟨id, parseNumber_eq_ok_iff.1 hid⟩
  · intro id hid
    rw [parseNumber_eq_ok_iff.2 hid] at helement
    cases helement

theorem Element.not_signed {id' : UInt64} (h : Element Typed text id) :
    ¬ Element Signed text id' := by
  intro hsigned
  have htyped := (element_iff fun _ _ h => .inl h).1 h
  exact ((element_iff fun _ _ h => .inr h).1 hsigned).not_typed htyped

/-- Where no element has a plus sign behind its mark, all are typed as they should be. -/
theorem typed_of_unsigned {elements : List (List Char)} {ids : List UInt64}
    (h : List.Forall₂ (Element Read) elements ids)
    (hunsigned : ∀ e ∈ elements, ∀ id, ¬ Element Signed e id) :
    List.Forall₂ (Element Typed) elements ids := by
  induction h with
  | nil => exact .nil
  | @cons e id es ids hread _ ih =>
    rw [List.forall_mem_cons] at hunsigned
    obtain ⟨hfirst, hrest⟩ := hunsigned
    refine .cons ?_ (ih hrest)
    have hsigned : ¬ Signed (trim e) id.toNat := fun h =>
      hfirst id ((element_iff fun _ _ h => .inr h).2 h)
    have hcore := (element_iff fun _ _ h => h).1 hread
    exact (element_iff fun _ _ h => .inl h).2 (hcore.resolve_right hsigned)

/-- **What is read as a set of identifiers.** A text is read exactly if each of its elements is read
as a number, and as these numbers. That is how numbers are to be typed, unless the text is read with
an element that has a plus sign behind its mark. A text that is refused has a first element that is
no number, and the refusal names it. -/
theorem parseIdSet_listed (text : List Char) :
    (∀ ids, parseIdSet text = .ok ids ↔ Lists Read text ids)
      ∧ ((∀ ids, parseIdSet text = .ok ids ↔ Lists Typed text ids)
        ↔ ∀ ids, parseIdSet text = .ok ids →
          ∀ element ∈ text.splitOn ',', ∀ id, ¬ Element Signed element id)
      ∧ ∀ fault, parseIdSet text = .error fault →
        ∃ front element back, Stuck text fault front element back := by
  refine ⟨fun ids => parseIdSet_eq_ok_iff, ?_, fun fault h => stuck_of_parseIdSet h⟩
  constructor
  · intro h ids hids element helement id
    obtain ⟨_, -, htyped⟩ := related_of_mem ((h ids).1 hids) helement
    exact htyped.not_signed
  · intro hunsigned ids
    constructor
    · intro hids
      exact typed_of_unsigned (parseIdSet_eq_ok_iff.1 hids) (hunsigned ids hids)
    · intro hlists
      refine parseIdSet_eq_ok_iff.2 (hlists.imp fun _ _ h => h.imp ?_)
      exact fun _ _ htyped => .inl htyped

/-- A minus sign behind the mark is refused. -/
theorem parseIdSet_listed_minus :
    parseIdSet "+7,\t0X1f ,0x-5,".toList = .error ⟨"0x-5", .invalidDigit⟩
      ∧ ∃ front element back,
        Stuck "+7,\t0X1f ,0x-5,".toList ⟨"0x-5", .invalidDigit⟩ front element back := by
  have hrefused : parseIdSet "+7,\t0X1f ,0x-5,".toList = .error ⟨"0x-5", .invalidDigit⟩ := by decide
  exact ⟨hrefused, (parseIdSet_listed _).2.2 _ hrefused⟩

/-- A plus sign behind the mark is passed over. -/
theorem signed_read :
    parseIdSet "0x+5".toList = .ok [5] ∧ ∀ ids, ¬ Lists Typed "0x+5".toList ids := by
  have hread : parseIdSet "0x+5".toList = .ok [5] := by decide
  refine ⟨hread, ?_⟩
  intro ids hlists
  have hdigit : Numeral.HexDigit '5' 5 := ⟨by decide, rfl⟩
  have hsigned : Signed "0x+5".toList (5 : UInt64).toNat :=
    .plus (.inl rfl) ⟨by simp, [5], .cons hdigit .nil, rfl⟩
  have helement : Element Signed "0x+5".toList 5 := ⟨[], _, [], by simp, by simp, by simp, hsigned⟩
  have hmem : "0x+5".toList ∈ "0x+5".toList.splitOn ',' := by decide
  obtain ⟨id, -, htyped⟩ := related_of_mem hlists hmem
  exact htyped.not_signed helement

end OffsetAtlas.CommandLine
