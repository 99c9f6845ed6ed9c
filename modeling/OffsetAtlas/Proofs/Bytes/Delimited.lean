/-
OffsetAtlas.Proofs.Bytes.Delimited — readings that know where they end.

A reading takes some bytes for an answer if it always does: whatever follows them, the answer is the
same and what follows is left; and cut short anywhere they are too few, which is said of nothing
else (`Reader.Takes`). A reading is delimited if whatever it answers is answered so. A run of bytes
is delimited, and so is everything that is put together of delimited readings, because the bytes of
two readings in a row are cut either in the first or in the second (`Reader.Takes.bind`). Failing
has no part in it: a reading that refuses its bytes has taken none of them for an answer.
-/
import OffsetAtlas.Proofs.Bytes.Reading

namespace OffsetAtlas.Reader

variable {α β : Type} {x : Attempt Reader α} {f : α → Attempt Reader β} {a : α} {b : β}
  {bs cs : List UInt8}

/-- There were fewer bytes than a reading needed. -/
def FallsShort (result : Except Failure α × Reader) : Prop :=
  ∃ what needed available r, available < needed
    ∧ result = (.error (.truncated what needed available), r)

/-- The bytes that a reading takes for an answer, whatever stands behind them. -/
structure Takes (x : Attempt Reader α) (bs : List UInt8) (a : α) : Prop where
  whole : ∀ position rest, x ⟨position, bs ++ rest⟩ = (.ok a, ⟨position + bs.length, rest⟩)
  cut : ∀ position j, j < bs.length → FallsShort (x ⟨position, bs.take j⟩)

/-- A reading that takes the bytes in front of it for every answer that it gives. -/
def Delimited (x : Attempt Reader α) : Prop :=
  ∀ r a t, x r = (.ok a, t) →
    ∃ bs, r.unread = bs ++ t.unread ∧ t.position = r.position + bs.length ∧ Takes x bs a

/-! ## One reading after another -/

theorem takes_pure (a : α) : Takes (pure a) [] a where
  whole _ _ := rfl
  cut _ _ hj := absurd hj (Nat.not_lt_zero _)

/-- A reading in two parts is cut in one of them. -/
theorem Takes.bind (hx : Takes x bs a) (hf : Takes (f a) cs b) : Takes (x >>= f) (bs ++ cs) b where
  whole position rest := by
    rw [List.append_assoc, Attempt.bind_of_ok (hx.whole _ _), hf.whole, List.length_append,
      Nat.add_assoc]
  cut position j hj := by
    rcases Nat.lt_or_ge j bs.length with hfirst | hsecond
    · obtain ⟨what, needed, available, r, hfew, hfall⟩ := hx.cut position j hfirst
      refine ⟨what, needed, available, r, hfew, ?_⟩
      rw [List.take_append_of_le_length (Nat.le_of_lt hfirst), Attempt.bind_of_error hfall]
    · have hrest : j - bs.length < cs.length := by
        rw [List.length_append] at hj
        omega
      rw [List.take_append, List.take_of_length_le hsecond, Attempt.bind_of_ok (hx.whole _ _)]
      exact hf.cut _ _ hrest

theorem delimited_pure (a : α) : Delimited (pure a : Attempt Reader α) := by
  intro r a' t h
  cases h
  exact ⟨[], rfl, rfl, takes_pure a⟩

theorem delimited_fail (e : Failure) : Delimited (Attempt.fail e : Attempt Reader α) := by
  intro r a t h
  cases h

theorem Delimited.bind (hx : Delimited x) (hf : ∀ a, Delimited (f a)) : Delimited (x >>= f) := by
  intro r b t h
  obtain ⟨a, s, hxr, hfs⟩ := Attempt.bind_eq_ok.1 h
  obtain ⟨bs, hbs, hs, htakes⟩ := hx r a s hxr
  obtain ⟨cs, hcs, ht, htakes'⟩ := hf a s b t hfs
  refine ⟨bs ++ cs, ?_, ?_, htakes.bind htakes'⟩
  · rw [hbs, hcs, List.append_assoc]
  · rw [ht, hs, List.length_append, Nat.add_assoc]

theorem Delimited.map (hx : Delimited x) (g : α → β) : Delimited (g <$> x) := by
  rw [map_eq_pure_bind]
  exact hx.bind fun a => delimited_pure (g a)

/-! ## Runs and numbers -/

/-- A run takes as many bytes as it asks for. -/
theorem takes_bytes (bs : List UInt8) (what : String) : Takes (bytes bs.length what) bs bs where
  whole position rest := bytes_append what bs rest position
  cut position j hj := by
    have hshort : remaining ⟨position, bs.take j⟩ < bs.length := by
      rw [remaining, List.length_take]
      omega
    exact ⟨what, bs.length, _, _, hshort, bytes_of_lt hshort what⟩

theorem delimited_bytes (n : Nat) (what : String) : Delimited (bytes n what) := by
  intro r bs t h
  obtain ⟨hbs, rfl, rfl⟩ := bytes_of_ok h
  have hsplit := List.take_append_drop bs.length r.unread
  rw [← hbs] at hsplit
  exact ⟨bs, hsplit.symm, rfl, takes_bytes bs what⟩

theorem delimited_word (w : Nat) (what : String) : Delimited (word w what) :=
  (delimited_bytes w what).map Bytes.read

theorem delimited_u8 (what : String) : Delimited (u8 what) :=
  (delimited_word 1 what).map UInt8.ofNat

end OffsetAtlas.Reader
