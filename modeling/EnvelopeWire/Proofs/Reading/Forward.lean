import EnvelopeWire.Proofs.Reading.Envelope
import Mathlib.Data.List.Chain

/-!
# References lead forward

A field lies behind the four bytes at the start of its object, and the distance that a reference
stores is not negative. So what an object refers to starts at least four bytes behind the object,
whatever bytes the buffer holds; only the reference to a vtable may lead back. Whoever follows
references from object to object gets on by four bytes with every step, and runs out of buffer.

* `Table.add_four_le_of_follow`: where a reference leads.
* `Table.LeadsTo.forward`: one step from an object to an object.
* `Table.length_le_of_isChain`, `Table.pairwise_of_isChain`: any number of steps.
-/

namespace EnvelopeWire

namespace Table

/-! ### One reference -/

section Reference

variable {t : Table} {slot : UInt16}

/-- What a reference leads to lies behind the start of its object, in the buffer. -/
theorem add_four_le_of_follow {target : Nat} (h : t.follow slot = .ok (some target)) :
    t.position + 4 ≤ target ∧ target < t.buffer.length := by
  obtain ⟨b, p⟩ := t
  obtain ⟨-, ⟨hslot, hin⟩, htarget⟩ := follow_eq_ok_iff.mp h
  by_cases hzero : b.fieldAt p slot.toNat = 0
  · rw [if_pos hzero] at htarget
    cases htarget
  · rw [if_neg hzero] at htarget
    obtain rfl := Option.some.inj htarget
    obtain ⟨hfour, -⟩ := hslot.resolve_left hzero
    refine ⟨?_, hin hzero⟩
    change p + 4 ≤ p + _ + _
    omega

/-- Something is read behind a reference exactly where the reference leads to it. -/
theorem getWith_eq_some_iff {α : Type} {read : Nat → Except WireError α} {a : α} :
    t.getWith slot read = .ok (some a) ↔
      ∃ target, t.follow slot = .ok (some target) ∧ read target = .ok a := by
  rw [getWith, bind_eq_ok_iff]
  constructor
  · rintro ⟨_ | target, hfollow, hread⟩
    · cases hread
    · obtain ⟨a', ha, heq⟩ := bind_eq_ok_iff.mp hread
      obtain rfl := Option.some.inj (Except.ok.inj heq)
      exact ⟨target, hfollow, ha⟩
  · rintro ⟨target, hfollow, hread⟩
    exact ⟨some target, hfollow, bind_eq_ok_iff.mpr ⟨a, hread, rfl⟩⟩

/-- The reference in `slot` leads to a vector of `bytes`, whose count lies behind the start of the
object. -/
def RefersForward (t : Table) (slot : UInt16) (bytes : Bytes) : Prop :=
  ∃ p, t.follow slot = .ok (some p) ∧ t.position + 4 ≤ p ∧
    t.buffer.IsVector p ∧ t.buffer.vectorAt p = bytes

private theorem refersForward_of_getString {text : String}
    (h : t.getString slot = .ok (some text)) :
    t.RefersForward slot (utf8 text) := by
  obtain ⟨p, hfollow, hread⟩ := getWith_eq_some_iff.mp h
  obtain ⟨hvector, hbytes⟩ := readString_eq_ok_iff.mp hread
  exact ⟨p, hfollow, (add_four_le_of_follow hfollow).1, hvector, hbytes⟩

private theorem refersForward_of_getBytes {bytes : Bytes} (h : t.getBytes slot = .ok (some bytes)) :
    t.RefersForward slot bytes := by
  obtain ⟨p, hfollow, hread⟩ := getWith_eq_some_iff.mp h
  obtain ⟨hvector, hbytes⟩ := readVector_eq_ok_iff.mp hread
  exact ⟨p, hfollow, (add_four_le_of_follow hfollow).1, hvector, hbytes.symm⟩

end Reference

/-! ### From object to object -/

/-- A reference of `t` leads to the object `t'`. -/
def LeadsTo (t t' : Table) : Prop := ∃ slot, t.getTable slot = .ok (some t')

/-- `t'` lies in the same buffer as `t` and starts at least four bytes behind it. -/
structure Before (t t' : Table) : Prop where
  buffer : t'.buffer = t.buffer
  position : t.position + 4 ≤ t'.position

instance : Trans Before Before Before where
  trans h h' := ⟨h'.buffer.trans h.buffer, by have := h.position; have := h'.position; omega⟩

private theorem Before.ne {t t' : Table} (h : t.Before t') : t ≠ t' := by
  rintro rfl
  have hposition := h.position
  omega

variable {t t' : Table}

/-- **A step from an object to an object leads forward**, to where the four bytes at the start of
the other one are in the buffer. -/
theorem LeadsTo.forward (h : t.LeadsTo t') :
    t.Before t' ∧ t'.position + 4 ≤ t.buffer.length := by
  obtain ⟨slot, hslot⟩ := h
  obtain ⟨target, hfollow, hobject⟩ := getWith_eq_some_iff.mp hslot
  obtain ⟨hlies, rfl⟩ := ofPosition_eq_ok_iff.mp hobject
  exact ⟨⟨rfl, (add_four_le_of_follow hfollow).1⟩, hlies.reference_le⟩

/-- Every object on the way lies behind all those before it. -/
theorem pairwise_of_isChain {ts : List Table} (h : ts.IsChain LeadsTo) : ts.Pairwise Before :=
  (h.imp fun _ _ hstep => hstep.forward.1).pairwise

/-- Each step takes four bytes, and the last object takes four more. -/
theorem length_le_of_isChain {ts : List Table} (h : (t :: ts).IsChain LeadsTo) (hne : ts ≠ []) :
    t.position + 4 * ts.length + 4 ≤ t.buffer.length := by
  induction ts generalizing t with
  | nil => exact absurd rfl hne
  | cons next ts ih =>
    obtain ⟨hstep, hrest⟩ := List.isChain_cons_cons.mp h
    obtain ⟨hbefore, hin⟩ := hstep.forward
    have hposition := hbefore.position
    rw [List.length_cons]
    by_cases hlast : ts = []
    · rw [hlast, List.length_nil]
      omega
    · have hlength := ih hrest hlast
      rw [hbefore.buffer] at hlength
      omega

/-- **References cannot loop.** Whatever bytes a buffer holds, an object, a string or a vector that
an object refers to lies at least four bytes behind it. So the objects on any way along references
are all different, and there are at most as many steps as a quarter of the length of the buffer. -/
theorem references_cannot_loop (t : Table) :
    (∀ slot t', t.getTable slot = .ok (some t') → t.Before t') ∧
      (∀ slot t', t.getRecord Table slot = .ok (some t') → t.Before t') ∧
      (∀ slot text, t.getString slot = .ok (some text) → t.RefersForward slot (utf8 text)) ∧
      (∀ slot bytes, t.getBytes slot = .ok (some bytes) → t.RefersForward slot bytes) ∧
      ∀ ts, (t :: ts).IsChain LeadsTo →
        ts.length ≤ t.buffer.length / 4 ∧ (t :: ts).Pairwise Before ∧ (t :: ts).Nodup := by
  have htable {slot : UInt16} {t' : Table} (h : t.getTable slot = .ok (some t')) : t.Before t' :=
    LeadsTo.forward ⟨slot, h⟩ |>.1
  refine ⟨fun _ _ => htable, fun slot t' h => ?_, fun _ _ => refersForward_of_getString,
    fun _ _ => refersForward_of_getBytes, fun ts h => ⟨?_, ?_, ?_⟩⟩
  · rw [getRecord_table] at h
    exact htable h
  · by_cases hne : ts = []
    · rw [hne]
      exact Nat.zero_le _
    · have hlength := length_le_of_isChain h hne
      omega
  · exact pairwise_of_isChain h
  · exact (pairwise_of_isChain h).imp Before.ne

/-- Three objects in a row that share a vtable, which lies in front of them. The first and the
second refer to the next one, and the reference of the third leads out of the buffer. -/
def threeInARow : Bytes :=
  [12, 0, 0, 0, 6, 0, 8, 0, 4, 0, 0, 0, 8, 0, 0, 0, 4, 0, 0, 0, 16, 0, 0, 0, 4, 0, 0, 0,
    24, 0, 0, 0, 255, 255, 255, 255]

theorem references_cannot_loop_threeInARow :
    rootTable threeInARow = .ok ⟨threeInARow, 12⟩ ∧
      List.IsChain LeadsTo [⟨threeInARow, 12⟩, ⟨threeInARow, 20⟩, ⟨threeInARow, 28⟩] ∧
      2 ≤ threeInARow.length / 4 ∧ Before ⟨threeInARow, 12⟩ ⟨threeInARow, 20⟩ := by
  have hfirst : getTable ⟨threeInARow, 12⟩ 0 = .ok (some ⟨threeInARow, 20⟩) := rfl
  have hsecond : getTable ⟨threeInARow, 20⟩ 0 = .ok (some ⟨threeInARow, 28⟩) := rfl
  have hchain : List.IsChain LeadsTo [⟨threeInARow, 12⟩, ⟨threeInARow, 20⟩, ⟨threeInARow, 28⟩] :=
    .cons_cons ⟨0, hfirst⟩ (.cons_cons ⟨0, hsecond⟩ (.singleton _))
  obtain ⟨htable, -, -, -, hchains⟩ := references_cannot_loop ⟨threeInARow, 12⟩
  exact ⟨rfl, hchain, (hchains _ hchain).1, htable 0 _ hfirst⟩

end Table

end EnvelopeWire
