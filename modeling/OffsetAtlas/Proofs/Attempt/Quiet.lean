/-
OffsetAtlas.Proofs.Attempt.Quiet — attempts that write to the log and to nothing else.

Most of a load is of this kind. `Host.Quiet` relates two hosts that differ in their logs at most,
and `Attempt.Quiet` says of an attempt that it never leads further than that, whatever it answers.
-/
import OffsetAtlas.Host

namespace OffsetAtlas

namespace Host

/-- At most the log is another. -/
structure Quiet (h h' : Host) : Prop where
  disk : h'.disk = h.disk
  holds : h'.holds = h.holds

theorem Quiet.refl (h : Host) : Quiet h h :=
  ⟨rfl, rfl⟩

theorem Quiet.trans {h h' h'' : Host} (hq : Quiet h h') (hq' : Quiet h' h'') : Quiet h h'' :=
  ⟨hq'.disk.trans hq.disk, hq'.holds.trans hq.holds⟩

theorem quiet_foldl_noted (ns : List Notice) (h : Host) : Quiet h (ns.foldl noted h) := by
  induction ns generalizing h with
  | nil => exact .refl h
  | cons n ns ih => exact ⟨(ih (h.noted n)).disk, (ih (h.noted n)).holds⟩

theorem disk_foldl_noted (ns : List Notice) (h : Host) : (ns.foldl noted h).disk = h.disk :=
  (quiet_foldl_noted ns h).disk

end Host

namespace Attempt

/-- An attempt that writes to the log only. -/
def Quiet {α : Type} (x : HostM α) : Prop :=
  ∀ h : Host, h.Quiet (x h).2

variable {α β : Type}

theorem Quiet.bind {x : HostM α} {f : α → HostM β} (hx : Quiet x) (hf : ∀ a, Quiet (f a)) :
    Quiet (x >>= f) := by
  intro h
  rw [bind_apply]
  have hq := hx h
  rcases hxh : x h with ⟨e | a, t⟩ <;> rw [hxh] at hq
  · exact hq
  · exact hq.trans (hf a t)

theorem quiet_pure (a : α) : Quiet (pure a : HostM α) := fun h => .refl h

theorem quiet_fail (e : Failure) : Quiet (fail e : HostM α) := fun h => .refl h

theorem quiet_ofExcept (x : Except Failure α) : Quiet (ofExcept x : HostM α) := fun h => .refl h

theorem quiet_ask (f : Disk → Except Failure α) : Quiet (Host.ask f) := fun h => .refl h

theorem quiet_note (n : Notice) : Quiet (Host.note n) := fun _ => ⟨rfl, rfl⟩

theorem quiet_noteAll (ns : List Notice) : Quiet (Host.noteAll ns) := fun h =>
  Host.quiet_foldl_noted ns h

end Attempt

end OffsetAtlas
