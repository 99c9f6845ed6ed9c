/-
OffsetAtlas.Proofs.Csv.Warnings — no row is dropped or replaced in silence.

Warnings are made on some ways out of the loop over the rows and the counters go up on others. Both
follow from what becomes of a row (`Fate`), and that follows from the row itself and from the good
rows in front of it. A tally that goes on over one line has counted and said what the fate of the
line asks for (`Tally.Holds.goes_take`), and so has one that goes on over all of them
(`Tally.Holds.goes_takeAll`). Lines that are skipped keep their number, so the numbers in the
warnings are those of the file.

A warning about a repeated identifier names the offset it had and the one it gets, and which rows
were repeated can be told from the warnings alone (`repetition_mem_warnings_iff`). Each begins with
the offset that the one before it ended with. Put together they lead from the first offset of the
identifier to the one in the result (`leads_moves`).
-/
import OffsetAtlas.Proofs.Csv.Messages
import OffsetAtlas.Proofs.Csv.Verdicts

namespace OffsetAtlas.Csv

open Text

/-! ## Fates -/

/-- What becomes of a row. -/
inductive Fate where
  | skipped
  /-- It brings an identifier. -/
  | fresh
  | invalid (fault : RowFault)
  /-- It gives an identifier another offset. -/
  | duplicate (id previous offset : UInt64)
  deriving DecidableEq, Repr

/-- What becomes of a row behind some good ones. -/
def Row.fate (earlier : List Entry) : Row → Fate
  | .skipped => .skipped
  | .bad fault => .invalid fault
  | .good id offset =>
    match lastOf earlier id with
    | none => .fresh
    | some last => .duplicate id last.offset offset

namespace Fate

/-- What is said about the row of a numbered line. -/
def message? (lineNumber : Nat) : Fate → Option String
  | .skipped => none
  | .fresh => none
  | .invalid fault => some (fault.message lineNumber)
  | .duplicate id previous offset => some (duplicateMessage lineNumber id previous offset)

/-- Whether the row is counted as a new one. -/
def isFresh : Fate → Bool
  | .fresh => true
  | _ => false

/-- Whether the row is counted as a faulty one. -/
def isInvalid : Fate → Bool
  | .invalid _ => true
  | _ => false

/-- Whether the row is counted as a repeated one. -/
def isDuplicate : Fate → Bool
  | .duplicate _ _ _ => true
  | _ => false

/-- The offsets that the row moves an identifier between. -/
def move? (id : UInt64) : Fate → Option (UInt64 × UInt64)
  | .duplicate repeated previous offset =>
    if repeated = id then some (previous, offset) else none
  | _ => none

end Fate

/-- What becomes of lines behind some good rows. -/
def fatesBehind (earlier : List Entry) : List (List UInt8) → List Fate
  | [] => []
  | line :: lines =>
    (Row.ofLine line).fate earlier
      :: fatesBehind (earlier ++ (Row.ofLine line).listed?.toList) lines

/-- What is said about lines that are numbered from `first` on. -/
def messages (first : Nat) (fates : List Fate) : List String :=
  (fates.zipIdx first).filterMap fun line => line.1.message? line.2

/-- The moves of an identifier, in their order. -/
def moves (id : UInt64) (fates : List Fate) : List (UInt64 × UInt64) :=
  fates.filterMap (Fate.move? id)

variable {earlier : List Entry} {line : List UInt8} {lines : List (List UInt8)}

theorem Row.fate_eq_invalid_iff {row : Row} {fault : RowFault} :
    row.fate earlier = .invalid fault ↔ row = .bad fault := by
  cases row with
  | skipped => simp [fate]
  | bad fault' => simp [fate]
  | good id offset =>
    rw [fate]
    cases lastOf earlier id <;> simp

theorem Row.fate_eq_duplicate_iff {row : Row} {id previous offset : UInt64} :
    row.fate earlier = .duplicate id previous offset
      ↔ row = .good id offset ∧ (lastOf earlier id).map Entry.offset = some previous := by
  cases row with
  | skipped => simp [fate]
  | bad fault => simp [fate]
  | good id' offset' =>
    rw [fate]
    by_cases hid : id' = id
    · subst hid
      cases lastOf earlier id' with
      | none => simp
      | some last => simp [and_comm]
    · cases lastOf earlier id' <;> simp [hid]

theorem listed_verdict (row : Row) : listed [row.verdict] = row.listed?.toList := by
  cases row <;> rfl

/-- The fate of a line depends on the good rows in front of it. -/
theorem getElem?_fatesBehind (earlier : List Entry) (lines : List (List UInt8)) (k : Nat) :
    (fatesBehind earlier lines)[k]?
      = lines[k]?.map fun line =>
        (Row.ofLine line).fate (earlier ++ goodRows (lines.take k)) := by
  induction lines generalizing earlier k with
  | nil => rfl
  | cons line lines ih =>
    cases k with
    | zero => simp [fatesBehind, goodRows]
    | succ k =>
      simp only [fatesBehind, List.getElem?_cons_succ, List.take_succ_cons]
      rw [ih, goodRows_cons, List.append_assoc]

theorem messages_cons (first : Nat) (fate : Fate) (fates : List Fate) :
    messages first (fate :: fates)
      = (fate.message? first).toList ++ messages (first + 1) fates := by
  rw [messages, List.zipIdx_cons, List.filterMap_cons]
  cases fate.message? first with
  | none => rfl
  | some text => rfl

theorem mem_messages_iff {first : Nat} {fates : List Fate} {text : String} :
    text ∈ messages first fates
      ↔ ∃ (k : Nat) (fate : Fate), fates[k]? = some fate
        ∧ fate.message? (first + k) = some text := by
  rw [messages, List.mem_filterMap]
  constructor
  · rintro ⟨⟨fate, number⟩, hmem, htext⟩
    obtain ⟨hle, hfate⟩ := List.mk_mem_zipIdx_iff_le_and_getElem?_sub.1 hmem
    refine ⟨number - first, fate, hfate, ?_⟩
    rwa [Nat.add_sub_cancel' hle]
  · rintro ⟨k, fate, hfate, htext⟩
    refine ⟨(fate, first + k), List.mk_mem_zipIdx_iff_le_and_getElem?_sub.2 ?_, htext⟩
    rw [Nat.add_sub_cancel_left]
    exact ⟨Nat.le_add_right first k, hfate⟩

/-- A row is warned about exactly if it is counted as faulty or as repeated. -/
theorem isSome_message? (number : Nat) (fate : Fate) :
    (fate.message? number).isSome = (fate.isInvalid || fate.isDuplicate) := by
  cases fate <;> rfl

theorem length_messages (first : Nat) (fates : List Fate) :
    (messages first fates).length
      = fates.countP Fate.isInvalid + fates.countP Fate.isDuplicate := by
  induction fates generalizing first with
  | nil => rfl
  | cons fate fates ih =>
    rw [messages_cons, List.length_append, ih, List.countP_cons, List.countP_cons]
    cases fate <;> simp [Fate.message?, Fate.isInvalid, Fate.isDuplicate] <;> omega

/-- A warning about a row begins with the number of its line. -/
theorem message?_begins {fate : Fate} {number : Nat} {text : String}
    (h : fate.message? number = some text) :
    Begins ("CSV line " ++ String.ofList (Nat.toDigits 10 number) ++ ": ") text := by
  rw [← Numeral.decimal_eq]
  cases fate with
  | skipped => cases h
  | fresh => cases h
  | invalid fault =>
    obtain rfl := Option.some.inj h
    obtain ⟨_, _, htells, -⟩ := fault.message_tells number
    exact htells.of_append
  | duplicate id previous offset =>
    obtain rfl := Option.some.inj h
    exact (duplicateMessage_tells number id previous offset).of_append

/-! ## Moves -/

/-- Moves of which each begins where the one before it ended. -/
inductive Leads : UInt64 → List (UInt64 × UInt64) → UInt64 → Prop where
  | nil (offset : UInt64) : Leads offset [] offset
  | cons {start next stop : UInt64} {rest : List (UInt64 × UInt64)} :
      Leads next rest stop → Leads start ((start, next) :: rest) stop

theorem move?_fate (row : Row) (earlier : List Entry) (id : UInt64) :
    (row.fate earlier).move? id
      = (lastOf earlier id).bind fun last =>
        (lastOf row.listed?.toList id).map fun e => (last.offset, e.offset) := by
  cases row with
  | skipped => cases lastOf earlier id <;> rfl
  | bad fault => cases lastOf earlier id <;> rfl
  | good id' offset =>
    have hrow : lastOf (Row.good id' offset).listed?.toList id
        = if id' = id then some ⟨id', offset⟩ else none := lastOf_singleton _ id
    rw [hrow, Row.fate]
    by_cases hid : id' = id
    · subst hid
      cases lastOf earlier id' with
      | none => rfl
      | some last => simp [Fate.move?]
    · have hnone : Fate.move? id (match lastOf earlier id' with
          | none => .fresh
          | some last => .duplicate id' last.offset offset) = none := by
        cases lastOf earlier id' with
        | none => rfl
        | some last => exact if_neg hid
      rw [hnone, if_neg hid]
      cases lastOf earlier id <;> rfl

/-- Where an identifier has an offset, the moves begin with it. -/
theorem leads_moves_of_some {id : UInt64} {current last : Entry}
    (hcurrent : lastOf earlier id = some current)
    (hlast : lastOf (earlier ++ goodRows lines) id = some last) :
    Leads current.offset (moves id (fatesBehind earlier lines)) last.offset := by
  induction lines generalizing earlier current with
  | nil =>
    rw [goodRows, List.filterMap_nil, List.append_nil] at hlast
    obtain rfl := Option.some.inj (hcurrent.symm.trans hlast)
    exact .nil _
  | cons line lines ih =>
    rw [goodRows_cons, ← List.append_assoc] at hlast
    rw [fatesBehind, moves, List.filterMap_cons, move?_fate, hcurrent, Option.bind_some]
    have hnext := lastOf_append earlier (Row.ofLine line).listed?.toList id
    rw [hcurrent] at hnext
    cases hrow : lastOf (Row.ofLine line).listed?.toList id with
    | none => exact ih (hnext.trans (by rw [hrow]; rfl)) hlast
    | some e => exact .cons (ih (hnext.trans (by rw [hrow]; rfl)) hlast)

/-- Where it has none yet, they begin with its first one. -/
theorem leads_moves {id : UInt64} {last : Entry} (hnone : lastOf earlier id = none)
    (hlast : lastOf (earlier ++ goodRows lines) id = some last) :
    ∃ first, (goodRows lines).find? (fun e => e.id = id) = some first
      ∧ Leads first.offset (moves id (fatesBehind earlier lines)) last.offset := by
  induction lines generalizing earlier with
  | nil =>
    rw [goodRows, List.filterMap_nil, List.append_nil, hnone] at hlast
    cases hlast
  | cons line lines ih =>
    rw [goodRows_cons, ← List.append_assoc] at hlast
    rw [fatesBehind, moves, List.filterMap_cons, move?_fate, hnone, Option.bind_none, goodRows_cons]
    cases hrow : (Row.ofLine line).listed? with
    | none =>
      rw [hrow, Option.toList_none, List.append_nil] at hlast
      simp only [Option.toList_none, List.append_nil, List.nil_append]
      exact ih hnone hlast
    | some e =>
      rw [hrow] at hlast
      have hnext : lastOf (earlier ++ [e]) id = if e.id = id then some e else none := by
        rw [lastOf_append, hnone, Option.or_none, lastOf_singleton]
      by_cases hid : e.id = id
      · rw [if_pos hid] at hnext
        exact ⟨e, List.find?_cons_of_pos (by simpa using hid), leads_moves_of_some hnext hlast⟩
      · rw [if_neg hid] at hnext
        obtain ⟨first, hfirst, hleads⟩ := ih hnext hlast
        exact ⟨first, (List.find?_cons_of_neg (by simpa using hid)).trans hfirst, hleads⟩

/-! ## The tally -/

namespace Tally

variable {t t' t'' : Tally} {vs : List Verdict}

/-- A tally that has gone on over lines with these fates, numbered from `first` on. -/
structure Goes (t : Tally) (first : Nat) (fates : List Fate) (t' : Tally) : Prop where
  valid : t'.valid = t.valid + fates.countP Fate.isFresh
  invalid : t'.invalid = t.invalid + fates.countP Fate.isInvalid
  duplicates : t'.duplicates = t.duplicates + fates.countP Fate.isDuplicate
  notices : t'.notices.toList = t.notices.toList ++ (messages first fates).map Notice.warning

theorem Goes.refl (t : Tally) (first : Nat) : t.Goes first [] t :=
  ⟨rfl, rfl, rfl, (List.append_nil _).symm⟩

theorem Goes.cons {first : Nat} {fate : Fate} {fates : List Fate} (h : t.Goes first [fate] t')
    (h' : t'.Goes (first + 1) fates t'') : t.Goes first (fate :: fates) t'' where
  valid := by
    rw [h'.valid, h.valid, Nat.add_assoc, ← List.countP_append]
    rfl
  invalid := by
    rw [h'.invalid, h.invalid, Nat.add_assoc, ← List.countP_append]
    rfl
  duplicates := by
    rw [h'.duplicates, h.duplicates, Nat.add_assoc, ← List.countP_append]
    rfl
  notices := by
    rw [h'.notices, h.notices, messages_cons, messages_cons, List.append_assoc, ← List.map_append,
      List.append_assoc]
    rfl

/-- One more row. -/
theorem Holds.goes_take (ht : t.Holds vs) (number : Nat) (row : Row) :
    t.Goes number [row.fate (listed vs)] (t.take number row) := by
  cases row with
  | skipped => exact ⟨rfl, rfl, rfl, (List.append_nil _).symm⟩
  | bad fault => exact ⟨rfl, rfl, rfl, Array.toList_push ..⟩
  | good id offset =>
    have hlast := ht.last id
    by_cases hknown : id ∈ t.offsets
    · rw [Std.HashMap.getElem?_eq_some_getElem hknown] at hlast
      obtain ⟨current, hcurrent, hoffset⟩ := Option.map_eq_some_iff.1 hlast.symm
      rw [take_good_of_mem t hknown, Row.fate, hcurrent]
      refine ⟨rfl, rfl, rfl, ?_⟩
      rw [replace, ← hoffset]
      exact Array.toList_push ..
    · rw [Std.HashMap.getElem?_eq_none hknown] at hlast
      rw [take_good_of_not_mem t hknown, Row.fate, Option.map_eq_none_iff.1 hlast.symm]
      exact ⟨rfl, rfl, rfl, (List.append_nil _).symm⟩

/-- Any number of lines. -/
theorem Holds.goes_takeAll (ht : t.Holds vs) (lines : List (List UInt8)) (first : Nat) :
    t.Goes first (fatesBehind (listed vs) lines) (Tally.takeAll first lines t) := by
  induction lines generalizing t vs first with
  | nil => exact .refl t first
  | cons line lines ih =>
    have hrest := ih (ht.take first (Row.ofLine line)) (first + 1)
    rw [listed_append, listed_verdict] at hrest
    rw [takeAll_cons, fatesBehind]
    exact (ht.goes_take first (Row.ofLine line)).cons hrest

end Tally

/-! ## Files -/

section

variable (source : List UInt8)

/-- The lines of a file behind the second. -/
def laterLines : List (List UInt8) :=
  (source.splitOn newline).drop 2

/-- What becomes of these lines. -/
def fates : List Fate :=
  (laterLines source).mapIdx fun k line =>
    (Row.ofLine line).fate (goodRows ((laterLines source).take k))

/-- The warnings that are made of a file. -/
def warnings : List String :=
  ((parse source).notices.filter fun n => n.severity = .warning).map Notice.text

/-- What is said about a second line that declares nothing. -/
def secondWarning : Option String :=
  ((source.splitOn newline)[1]?).bind fun line =>
    match Declaration.ofLine line with
    | .ok _ => none
    | .error fault => some fault.message

theorem fates_eq : fates source = fatesBehind [] (laterLines source) := by
  refine List.ext_getElem? fun k => ?_
  rw [getElem?_fatesBehind, List.nil_append, fates, List.getElem?_mapIdx]

/-- What is counted and said of a file. -/
theorem goes_parse :
    (parse source).report.valid = (fates source).countP Fate.isFresh
      ∧ (parse source).report.invalid = (fates source).countP Fate.isInvalid
      ∧ (parse source).report.duplicates = (fates source).countP Fate.isDuplicate
      ∧ (parse source).notices
        = declarationNotices (((source.splitOn newline)[1]?).map Declaration.ofLine)
          ++ (messages 3 (fates source)).map Notice.warning := by
  rw [fates_eq, laterLines, ← split_eq_splitOn]
  obtain ⟨hvalid, hinvalid, hduplicates, hnotices⟩ :=
    (Tally.holds_empty (declarationNotices
      (((split newline source)[1]?).map Declaration.ofLine)).toArray).goes_takeAll
      ((split newline source).drop 2) 3
  exact ⟨hvalid.trans (Nat.zero_add _), hinvalid.trans (Nat.zero_add _),
    hduplicates.trans (Nat.zero_add _), hnotices⟩

/-- The warning about the second line begins with its number. -/
theorem secondWarning_begins {text : String} (h : secondWarning source = some text) :
    Begins "CSV metadata line 2: " text := by
  obtain ⟨line, -, hline⟩ := Option.bind_eq_some_iff.1 h
  cases hdeclared : Declaration.ofLine line with
  | ok declared =>
    rw [hdeclared] at hline
    cases hline
  | error fault =>
    rw [hdeclared] at hline
    obtain rfl := Option.some.inj hline
    exact fault.message_begins

theorem declared_parse : (parse source).report.expected
    = (((source.splitOn newline)[1]?).bind fun line => (Declaration.ofLine line).toOption).map
      Declaration.expected := by
  rw [← split_eq_splitOn, parse]
  simp only [Option.bind_map]
  rfl

/-- The second line is warned about exactly if it is there and declares nothing. -/
theorem secondWarning_isSome : (secondWarning source).isSome
    ↔ 2 ≤ (source.splitOn newline).length ∧ (parse source).report.expected = none := by
  rw [declared_parse, secondWarning]
  by_cases hlength : 2 ≤ (source.splitOn newline).length
  · rw [List.getElem?_eq_getElem hlength, Option.bind_some, Option.bind_some]
    cases Declaration.ofLine (source.splitOn newline)[1] with
    | ok declared => simp [Except.toOption]
    | error fault => simpa [Except.toOption] using hlength
  · rw [List.getElem?_eq_none (Nat.le_of_lt_succ (Nat.lt_of_not_le hlength))]
    exact iff_of_false Bool.false_ne_true fun h => hlength h.1

theorem warnings_eq :
    warnings source = (secondWarning source).toList ++ messages 3 (fates source) := by
  have hrows : ∀ texts : List String,
      ((texts.map Notice.warning).filter fun n => n.severity = .warning).map Notice.text
        = texts := by
    intro texts
    rw [List.filter_eq_self.2, List.map_map]
    · exact List.map_id _
    · simp [Notice.warning]
  obtain ⟨-, -, -, hnotices⟩ := goes_parse source
  rw [warnings, hnotices, List.filter_append, List.map_append, hrows, secondWarning]
  congr 1
  cases (source.splitOn newline)[1]? with
  | none => rfl
  | some line =>
    rw [Option.map_some, Option.bind_some]
    cases Declaration.ofLine line with
    | ok declared => rfl
    | error fault => rfl

/-- The warnings tell which rows were repeated, and with which offsets. -/
theorem repetition_mem_warnings_iff (number : Nat) (id previous offset : UInt64) :
    repetition number id previous offset ∈ warnings source
      ↔ ∃ k, number = k + 3 ∧ (fates source)[k]? = some (.duplicate id previous offset) := by
  have hsecond : ∀ text, secondWarning source = some text →
      text ≠ repetition number id previous offset := by
    rintro text htext rfl
    exact not_begins_repetition _ _ _ _ (secondWarning_begins source htext)
  rw [warnings_eq, List.mem_append, mem_messages_iff]
  constructor
  · rintro (hmem | ⟨k, fate, hfate, htext⟩)
    · exact absurd rfl (hsecond _ (Option.mem_toList.1 hmem))
    · cases fate with
      | skipped => cases htext
      | fresh => cases htext
      | invalid fault =>
        exact absurd (Option.some.inj htext) (fault.message_ne_repetition _ _ _ _ _)
      | duplicate id' previous' offset' =>
        rw [Fate.message?, duplicateMessage_eq, Option.some.injEq] at htext
        obtain ⟨rfl, rfl, rfl, rfl⟩ := repetition_injective htext
        exact ⟨k, Nat.add_comm 3 k, hfate⟩
  · rintro ⟨k, rfl, hfate⟩
    refine .inr ⟨k, _, hfate, ?_⟩
    rw [Fate.message?, duplicateMessage_eq, Nat.add_comm]

/-- What is said about the lines of a file, and how it agrees with the counts and the result. -/
structure Accounted : Prop where
  /-- The second line comes first, then each line behind it that there is something to say about. -/
  warned : warnings source = (secondWarning source).toList ++ messages 3 (fates source)
  second : (secondWarning source).isSome
    ↔ 2 ≤ (source.splitOn newline).length ∧ (parse source).report.expected = none
  secondNumbered : ∀ text, secondWarning source = some text →
    Begins "CSV metadata line 2: " text
  said : ∀ (number : Nat) (fate : Fate),
    (fate.message? number).isSome = (fate.isInvalid || fate.isDuplicate)
  numbered : ∀ (number : Nat) (fate : Fate) (text : String), fate.message? number = some text →
    Begins ("CSV line " ++ String.ofList (Nat.toDigits 10 number) ++ ": ") text
  /-- A repeated row is said to have given its identifier another offset, both of which are named,
  -/
  named : ∀ (number : Nat) (id previous offset : UInt64),
    (Fate.duplicate id previous offset).message? number
      = some (repetition number id previous offset)
  /-- and from what is said all of it can be told. -/
  readable : ∀ (number : Nat) (id previous offset : UInt64),
    repetition number id previous offset ∈ warnings source
      ↔ ∃ k, number = k + 3 ∧ (fates source)[k]? = some (.duplicate id previous offset)
  valid : (parse source).report.valid = (fates source).countP Fate.isFresh
  invalid : (parse source).report.invalid = (fates source).countP Fate.isInvalid
  duplicates : (parse source).report.duplicates = (fates source).countP Fate.isDuplicate
  count : (warnings source).length
    = (parse source).report.invalid + (parse source).report.duplicates
      + if 2 ≤ (source.splitOn newline).length ∧ (parse source).report.expected = none then 1 else 0
  faulty : ∀ (k : Nat) (fault : RowFault), (fates source)[k]? = some (Fate.invalid fault)
    ↔ ∃ line, (laterLines source)[k]? = some line ∧ Row.ofLine line = .bad fault
  /-- A repeated row moves its identifier from where the latest good row in front has put it. -/
  repeated : ∀ k id previous offset, (fates source)[k]? = some (.duplicate id previous offset)
    ↔ ∃ line, (laterLines source)[k]? = some line ∧ Row.ofLine line = .good id offset
      ∧ (lastOf (goodRows ((laterLines source).take k)) id).map Entry.offset = some previous
  /-- The moves lead to the result. -/
  moved : ∀ e ∈ (parse source).entries, ∃ first,
    (goodRows (laterLines source)).find? (fun x => x.id = e.id) = some first
      ∧ Leads first.offset (moves e.id (fates source)) e.offset

/-- **No row is dropped or replaced in silence.** The warnings are one for a second line that
declares nothing and one for each faulty and each repeated line, in file order and by the number of
the line; so they are as many as the report counts. What is said of the repeated lines of an
identifier leads from its first offset to the one in the result. -/
theorem parse_accounts : Accounted source := by
  obtain ⟨hvalid, hinvalid, hduplicates, -⟩ := goes_parse source
  refine ⟨warnings_eq source, secondWarning_isSome source,
    fun _ => secondWarning_begins source, isSome_message?, fun _ _ _ => message?_begins,
    fun _ _ _ _ => congrArg some (duplicateMessage_eq ..), repetition_mem_warnings_iff source,
    hvalid, hinvalid, hduplicates, ?count, ?faulty, ?repeated, ?moved⟩
  case count =>
    have hsecond : (secondWarning source).toList.length
        = if 2 ≤ (source.splitOn newline).length ∧ (parse source).report.expected = none then 1
          else 0 := by
      simp only [← secondWarning_isSome]
      cases secondWarning source <;> rfl
    rw [warnings_eq, List.length_append, length_messages, hinvalid, hduplicates, hsecond,
      Nat.add_comm]
  case faulty =>
    intro k fault
    simp only [fates, List.getElem?_mapIdx, Option.map_eq_some_iff, Row.fate_eq_invalid_iff]
  case repeated =>
    intro k id previous offset
    simp only [fates, List.getElem?_mapIdx, Option.map_eq_some_iff, Row.fate_eq_duplicate_iff]
  case moved =>
    intro e he
    have hlast := mem_entries_iff.1 he
    rw [listed_verdicts, split_eq_splitOn] at hlast
    rw [fates_eq]
    exact leads_moves rfl hlast

end

end OffsetAtlas.Csv
