import EnvelopeWire.Proofs.Builder.Account
import EnvelopeWire.Proofs.Builder.View

/-!
# What is written stays

A builder moves what it has written when it runs out of cells, and it patches the reference to a
vtable once the vtable is placed, at a position that is computed after a possible move. Both could
spoil what was written before, on which every offset and every vtable that was given out depends.
Neither does: as long as nothing is reset, what is written at some time is behind whatever is
written later, byte for byte.

A `Draft` has no patch to speak of, so what the patch leaves alone is shown of the builder itself.

* `Builder.suffix_of_run`: what is written at some time is a suffix of what is written later.
* `Builder.patched_of_endObject`: the patch is in four bytes that were kept free for it.
* `Builder.append_only`: both, and the fields of an open object.
-/

namespace EnvelopeWire

namespace Builder

/-- What is written at some time is a suffix of what is written later. -/
theorem suffix_of_run {calls : List Call} {replies : List Reply} {b c : Builder}
    (hb : b.draft.VTablesWritten) (hreset : .reset ∉ calls)
    (hrun : runCalls calls b = .ok (replies, c)) : b.written <:+ c.written :=
  (Draft.grows_of_run hreset (draft_of_run hb hrun)).written

/-! ### Closing an object -/

/-- How closing the open object of `b` comes to `c`. First `free` has four bytes for the reference
in front of what `b` has written, aligned; then `placed` has the vtable too, unless that was written
already. Then the reference is put in the place of the four bytes, and nothing else changes. -/
structure Patched (b : Builder) (offset : Offset) (free placed c : Builder) : Prop where
  free_eq : b.pushScalar .i32 0 = .ok free
  offset_eq : offset.value = free.used
  placed_eq : ∃ vtable place, free.placeVTable vtable = .ok (place, placed)
  patch : ∃ front back reference : Bytes, reference.length = 4 ∧ back.length + 4 = offset.value ∧
    placed.written = front ++ (ScalarType.i32.encode 0 ++ back) ∧
    c.written = front ++ (reference ++ back) ∧ b.written <:+ back

/-- Bytes that are put on a boundary are in front of all that was written. -/
private theorem written_of_pushScalar {b free : Builder} {type : ScalarType} {value : type.Value}
    (h : b.pushScalar type value = .ok free) :
    ∃ back, free.written = type.encode value ++ back ∧ b.written <:+ back := by
  obtain ⟨-, hdraft⟩ := Draft.put_eq_ok_iff.mp (draft_of_ok (draft_pushScalar b type value) h)
  have hwritten : free.written = type.encode value ++ _ ++ b.written :=
    (congrArg Draft.written hdraft).symm
  rw [List.append_assoc] at hwritten
  exact ⟨_, hwritten, List.suffix_append _ _⟩

/-- Placing a vtable leaves what was written behind it. -/
private theorem suffix_of_placeVTable {free placed : Builder} {vtable : Bytes} {place : Nat}
    (h : free.placeVTable vtable = .ok (place, placed)) : free.written <:+ placed.written := by
  obtain ⟨found, -, hplace⟩ := bind_eq_ok_iff.mp h
  cases found with
  | some offset =>
    cases hplace
    exact List.suffix_rfl
  | none =>
    obtain ⟨after, hafter, heq⟩ := bind_eq_ok_iff.mp hplace
    cases heq
    exact (Draft.grows_of_put (draft_of_ok (draft_prepend free vtable) hafter)).written

/-- **Closing an object patches four bytes of its own.** -/
theorem patched_of_endObject {b c : Builder} {offset : Offset}
    (h : Build.endObject b = .ok (offset, c)) : ∃ free placed, Patched b offset free placed c := by
  obtain ⟨start, -, hclose⟩ := bind_eq_ok_iff.mp h
  obtain ⟨free, hfree, hrest⟩ := bind_eq_ok_iff.mp hclose
  obtain ⟨length, -, hrest⟩ := bind_eq_ok_iff.mp hrest
  obtain ⟨-, -, hrest⟩ := bind_eq_ok_iff.mp hrest
  obtain ⟨vtable, -, hrest⟩ := bind_eq_ok_iff.mp hrest
  obtain ⟨⟨place, placed⟩, hplaced, hrest⟩ := bind_eq_ok_iff.mp hrest
  obtain ⟨linked, hlinked, heq⟩ := bind_eq_ok_iff.mp hrest
  cases heq
  obtain ⟨back, hback, hsuffix⟩ := written_of_pushScalar hfree
  obtain ⟨front, hfront⟩ := suffix_of_placeVTable hplaced
  rw [hback] at hfront
  have hlength : (ScalarType.i32.encode 0).length = 4 := ScalarType.length_encode _ _
  have hused : free.used = 4 + back.length := by
    rw [← length_written, hback, List.length_append, hlength]
  have hpatch : (ScalarType.i32.encode 0).length = (vtableReference place free.used).length :=
    hlength.trans (length_vtableReference _ _).symm
  -- The position of the patch is counted from the end, so the vtable in front does not move it.
  obtain ⟨s, hs, hwritten⟩ := written_overwrite_piece hfront.symm hpatch
  rw [hlength, ← hused] at hs
  cases (onStorage_eq_ok hs).symm.trans hlinked
  refine ⟨free, placed, hfree, rfl, ⟨vtable, place, hplaced⟩, front, back, _,
    length_vtableReference place free.used, ?_, hfront.symm, hwritten, hsuffix⟩
  rw [hused, Nat.add_comm]

/-! ### From calls to bytes -/

/-- `c` still has all that `b` has written while an object with `fields` is open in front of `start`
bytes: those bytes, and each of the fields at its place. Nothing else was written by then. -/
structure KeepsOpen (b c : Builder) (start : Nat) (fields : List Field) : Prop where
  base : ∃ base : Bytes, base.length = start ∧ b.written = fieldBytes start fields ++ base ∧
    base <:+ c.written
  field : ∀ slot v place, findField slot fields = some (v, place) →
    c.written.StandsAt (start + place) (v.bytes (start + place))

/-- **Bytes are only ever put in front.** What is written after any calls is at the end of what is
written after any further ones, as long as none of these is a reset. If an object is open, this is
what was written before it was opened, and its fields. When an object is closed then, the patch
leaves alone all but the four bytes that are kept free for it in front of the object. -/
theorem append_only {options : BuilderOptions} {calls more : List Call}
    {replies later : List Reply} {b c : Builder} {a : Account}
    (hrun : runCalls calls (withOptions options) = .ok (replies, b))
    (haccount : Account.empty.afterCalls options.forceDefaults calls replies = a)
    (hmore : runCalls more b = .ok (later, c)) (hreset : .reset ∉ more) :
    b.written <:+ c.written ∧
      (∀ start count, b.phase = .building start count → KeepsOpen b c start a.fields) ∧
      ∀ offset d, Build.endObject c = .ok (offset, d) →
        ∃ free placed, Patched c offset free placed d := by
  have hempty : (withOptions options).draft.VTablesWritten := by
    rw [draft_withOptions]
    exact Draft.vtablesWritten_empty _
  have hdraft := draft_of_run hempty hrun
  have hdescribes : a.Describes b.draft := by
    rw [draft_withOptions] at hdraft
    rw [← haccount]
    exact (Account.describes_empty _).run hdraft
  have hsuffix := suffix_of_run hdescribes.vtablesWritten hreset hmore
  refine ⟨hsuffix, fun start count hphase => ?_, fun offset d hend => patched_of_endObject hend⟩
  obtain ⟨base, hbase, hwritten⟩ := (hdescribes.openObject start count hphase).written_eq
  have hwhole : b.written = fieldBytes start a.fields ++ base := hwritten
  refine ⟨⟨base, hbase, hwhole, ?_⟩, fun slot v place hfound => ?_⟩
  · rw [hwhole] at hsuffix
    exact (List.suffix_append _ _).trans hsuffix
  · have hstands := Bytes.standsAt_front (fieldBytes start a.fields) base
    rw [List.length_append, length_fieldBytes, hbase, Nat.add_comm, ← hwhole] at hstands
    exact (standsAt_of_findField hstands hfound).of_suffix hsuffix

/-- A string, and an object with a field of one byte that is left open. -/
def openCalls : List Call :=
  [.createString "ab", .startObject 2, .pushSlot .u8 0 (7 : UInt8) (0 : UInt8)]

/-- The block has a single cell at first, so that it is moved several times, also to put the vtable
in front of the bytes that are kept free. -/
theorem append_only_singleCell :
    ∃ b c d, runCalls openCalls (withOptions ⟨1, false⟩) = .ok ([.place ⟨8⟩, .done, .done], b) ∧
      runCalls [.pushSlot .u64 1 (9 : UInt64) (0 : UInt64)] b = .ok ([.done], c) ∧
      b.written <:+ c.written ∧ c.written.StandsAt 9 [7] ∧
      Build.endObject c = .ok (⟨28⟩, d) ∧ ∃ free placed, Patched c ⟨28⟩ free placed d := by
  obtain ⟨⟨replies, b⟩, hrun, hshown⟩ :=
    exists_ok_of_any (x := runCalls openCalls (withOptions ⟨1, false⟩))
      (p := fun r => r.1 == [.place ⟨8⟩, .done, .done] && (r.2.phase == .building 8 2 &&
        (runCalls [.pushSlot .u64 1 (9 : UInt64) (0 : UInt64)] r.2).toOption.any fun r =>
          r.1 == [.done] && (Build.endObject r.2).toOption.any fun r => r.1 == ⟨28⟩))
      (by decide +kernel)
  simp only [Bool.and_eq_true, beq_iff_eq] at hshown
  obtain ⟨rfl, hphase, hshown⟩ := hshown
  obtain ⟨⟨later, c⟩, hmore, hshown⟩ := exists_ok_of_any hshown
  simp only [Bool.and_eq_true, beq_iff_eq] at hshown
  obtain ⟨rfl, hshown⟩ := hshown
  obtain ⟨⟨offset, d⟩, hend, hshown⟩ := exists_ok_of_any hshown
  obtain rfl := eq_of_beq hshown
  obtain ⟨hsuffix, hopen, hpatched⟩ := append_only hrun rfl hmore (by simp)
  exact ⟨b, c, d, hrun, hmore, hsuffix, (hopen 8 2 hphase).field 0 _ 1 rfl, hend,
    hpatched _ d hend⟩

end Builder

end EnvelopeWire
