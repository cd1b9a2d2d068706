import EnvelopeWire.Proofs.Reading.Chain

/-!
# Tables that were obtained

A table is checked before anybody gets hold of it: whatever reads lead there from the bytes of a
buffer, the object and its vtable lie in that buffer. So the checks that every later read makes over
again cannot fail, and only the fields of the object can be wrong.

That a field lies inside its object is checked with the sum of its offset and its size. The size is
chosen by whoever asks, and the sum has to be a 64-bit word: where it reaches `2 ^ 64` the program
stops, instead of the error that the field does not fit.

* `Bytes.obtained`: what is obtained from a buffer lies in it.
* `Table.locateField_eq`: all answers to where a field is that an accessor looks for.
* `Chain.fieldPosition_exact`: the place of a field, for every size.
* `Chain.only_fields_fail`: what can be wrong with a field.
-/

namespace EnvelopeWire

/-! ### What was obtained -/

/-- `t` is an object in `b`, whose vtable was checked. -/
structure Table.LiesIn (t : Table) (b : Bytes) : Prop where
  buffer : t.buffer = b
  object : b.IsTable t.position

/-- Reads keep to the buffer that they start from. -/
def Bytes.obtained (b : Bytes) : ReadInvariant where
  bytes a := a = b
  table t := t.LiesIn b
  vtable _ := True
  bytes_buffer _ ht := ht.buffer
  table_ofPosition a p t ha h := by
    obtain ⟨hobject, rfl⟩ := Table.ofPosition_eq_ok_iff.mp h
    subst ha
    exact ⟨rfl, hobject⟩
  vtable_vtable _ _ _ _ := trivial

/-- A table that was obtained from a buffer lies in it, with the vtable that the bytes hold. -/
private theorem Chain.vtable_of_run {b : Bytes} {chain : Chain .bytes (.record .table)} {t : Table}
    (h : chain.run b = .ok (some t)) :
    t.LiesIn b ∧ t.vtable = .ok (b.vtable t.position) := by
  have ht : t.LiesIn b := chain.holds_run (I := b.obtained) (k := .bytes) rfl h
  refine ⟨ht, Table.vtable_eq_ok_iff_isTable.mpr ?_⟩
  rw [ht.buffer]
  exact ⟨ht.object, rfl⟩

/-! ### Fields -/

namespace Table

section Fields

variable {t : Table} {v : VTable} (hv : t.vtable = .ok v) (slot : UInt16)

include hv

/-- All answers to where a field is. -/
theorem locateField_eq (size : Nat) :
    t.locateField slot size =
      if (v.fieldOffset slot).toNat = 0 then .ok none
      else if 4 ≤ (v.fieldOffset slot).toNat ∧
          (v.fieldOffset slot).toNat + size ≤ v.objectLength then
        .ok (some (t.position + (v.fieldOffset slot).toNat))
      else .error (.badVTable v.position .fieldOutsideObject) := by
  rw [locateField, hv]
  change (if (v.fieldOffset slot).toNat = 0 then _ else ensure _ _ >>= _) = _
  rw [ensure]
  split
  · rfl
  · split <;> rfl

/-- A field is not found exactly where it is there and does not fit in its object. -/
private theorem locateField_eq_error_iff {size : Nat} {e : WireError} :
    t.locateField slot size = .error e ↔
      e = .badVTable v.position .fieldOutsideObject ∧ (v.fieldOffset slot).toNat ≠ 0 ∧
        ((v.fieldOffset slot).toNat < 4 ∨
          v.objectLength < (v.fieldOffset slot).toNat + size) := by
  rw [locateField_eq hv]
  split
  case isTrue hzero => simp [hzero]
  case isFalse hzero =>
    split
    case isTrue hin =>
      simp only [reduceCtorEq, false_iff]
      omega
    case isFalse hout =>
      rw [Except.error.injEq, eq_comm, iff_self_and]
      omega

/-- A field that is found lies inside its object. -/
private theorem locateField_eq_some_iff {size p : Nat} :
    t.locateField slot size = .ok (some p) ↔
      4 ≤ (v.fieldOffset slot).toNat ∧ (v.fieldOffset slot).toNat + size ≤ v.objectLength ∧
        p = t.position + (v.fieldOffset slot).toNat := by
  rw [locateField_eq hv]
  split
  case isTrue hzero => simp [hzero]
  case isFalse hzero =>
    split
    case isTrue hin => simp [hin, eq_comm]
    case isFalse hout =>
      simp only [reduceCtorEq, false_iff]
      omega

/-- Only an entry that is zero makes a field absent. -/
private theorem locateField_eq_none_iff {size : Nat} :
    t.locateField slot size = .ok none ↔ (v.fieldOffset slot).toNat = 0 := by
  rw [locateField_eq hv]
  split
  case isTrue hzero => simp [hzero]
  case isFalse hzero => split <;> simp [hzero]

/-- The place of a field is told as the accessors find it, unless the field lies behind the vtable
reference and its end is no word. -/
private theorem fieldPosition_eq (size : Nat) :
    t.fieldPosition slot size =
      if (v.fieldOffset slot).toNat < 4 ∨ (v.fieldOffset slot).toNat + size < 2 ^ 64 then
        (t.locateField slot size).mapError .wire
      else .error .overflow := by
  rw [fieldPosition, hv]
  change (ensure ((v.fieldOffset slot).toNat < 4 ∨ (v.fieldOffset slot).toNat + size < 2 ^ 64) _
    >>= _) = _
  rw [ensure]
  split <;> rfl

/-- The object lies in the buffer as far as its vtable says. -/
private theorem object_le : t.position + v.objectLength ≤ t.buffer.length := by
  obtain ⟨hobject, rfl⟩ := vtable_eq_ok_iff_isTable.mp hv
  rw [hobject.objectLength_vtable]
  exact hobject.object_le

end Fields

/-- The answers to where the field of `size` bytes in `slot` is, all told. The sum of the offset and
the size is that of the numbers, however large it is. -/
structure Places (t : Table) (v : VTable) (slot : UInt16) (size : Nat) : Prop where
  none_iff : t.fieldPosition slot size = .ok none ↔ (v.fieldOffset slot).toNat = 0
  some_iff : ∀ p, t.fieldPosition slot size = .ok (some p) ↔
    4 ≤ (v.fieldOffset slot).toNat ∧ (v.fieldOffset slot).toNat + size ≤ v.objectLength ∧
      p = t.position + (v.fieldOffset slot).toNat
  wire_iff : ∀ e, t.fieldPosition slot size = .error (.wire e) ↔
    e = .badVTable v.position .fieldOutsideObject ∧ (v.fieldOffset slot).toNat ≠ 0 ∧
      ((v.fieldOffset slot).toNat < 4 ∨
        v.objectLength < (v.fieldOffset slot).toNat + size ∧
          (v.fieldOffset slot).toNat + size < 2 ^ 64)
  /-- The sum of the offset and the size is taken only behind the vtable reference. -/
  overflow_iff : t.fieldPosition slot size = .error .overflow ↔
    4 ≤ (v.fieldOffset slot).toNat ∧ 2 ^ 64 ≤ (v.fieldOffset slot).toNat + size
  /-- The whole field is in the object, and the object is in the buffer. -/
  inside : ∀ p, t.fieldPosition slot size = .ok (some p) →
    t.position + 4 ≤ p ∧ p + size ≤ t.position + v.objectLength ∧
      t.position + v.objectLength ≤ t.buffer.length

/-- **The place of a field is exact**, whatever size is asked for. -/
theorem places {t : Table} {v : VTable} (hv : t.vtable = .ok v) (slot : UInt16) (size : Nat) :
    t.Places v slot size := by
  have hsome (p : Nat) : t.fieldPosition slot size = .ok (some p) ↔
      4 ≤ (v.fieldOffset slot).toNat ∧ (v.fieldOffset slot).toNat + size ≤ v.objectLength ∧
        p = t.position + (v.fieldOffset slot).toNat :=
    fieldPosition_eq_ok_iff.trans (locateField_eq_some_iff hv slot)
  have hobject := object_le hv
  have heq := fieldPosition_eq hv slot size
  have hlength : v.objectLength < 2 ^ 16 := UInt16.toNat_lt _
  refine ⟨fieldPosition_eq_ok_iff.trans (locateField_eq_none_iff hv slot), hsome, fun e => ?_, ?_,
    fun p hp => ?_⟩
  · rw [heq]
    split
    case isTrue hword =>
      have hwire : (t.locateField slot size).mapError FieldFailure.wire = .error (.wire e)
          ↔ t.locateField slot size = .error e := by
        cases t.locateField slot size <;> simp [Except.mapError]
      rw [hwire, locateField_eq_error_iff hv]
      refine and_congr_right fun _ => ?_
      omega
    case isFalse hword =>
      simp only [Except.error.injEq, reduceCtorEq, false_iff]
      omega
  · rw [heq]
    split
    case isTrue hword =>
      -- Where the sum is a word, the answer is the one the accessors get, an error of the format.
      have hnot : (t.locateField slot size).mapError FieldFailure.wire ≠ .error .overflow := by
        cases t.locateField slot size <;> simp [Except.mapError]
      simp only [hnot, false_iff]
      omega
    case isFalse hword => simp only [true_iff]; omega
  · obtain ⟨hfour, hle, rfl⟩ := (hsome p).mp hp
    omega

end Table

/-- **The place of a field, for every size.** In a table that was obtained from a buffer, a field is
found exactly when it fits behind the vtable reference of its object, and then all of it is in the
buffer. A field that does not fit is reported as such, unless its offset and its size make a sum of
`2 ^ 64` or more: then the program stops. -/
theorem Chain.fieldPosition_exact {b : Bytes} {chain : Chain .bytes (.record .table)} {t : Table}
    (h : chain.run b = .ok (some t)) (slot : UInt16) (size : UInt64) :
    ∃ v, t.vtable = .ok v ∧ t.Places v slot size.toNat := by
  obtain ⟨-, hv⟩ := vtable_of_run h
  exact ⟨_, hv, Table.places hv slot size.toNat⟩

/-- An object with one field of four bytes, the number 7 in slot 0, behind its vtable. -/
def oneNumber : Bytes := [12, 0, 0, 0, 6, 0, 8, 0, 4, 0, 0, 0, 8, 0, 0, 0, 7, 0, 0, 0]

/-- Four bytes are there, five are not, and whoever asks for `2 ^ 64 - 1` is not told so. -/
theorem Chain.fieldPosition_exact_oneNumber :
    ∃ t, (cons .rootTable nil).run oneNumber = .ok (some t) ∧
      t.fieldPosition 0 4 = .ok (some 16) ∧
      t.fieldPosition 0 5 = .error (.wire (.badVTable 4 .fieldOutsideObject)) ∧
      t.fieldPosition 0 0xFFFFFFFFFFFFFFFF = .error .overflow := by
  have hrun : (cons .rootTable nil).run oneNumber = .ok (some ⟨oneNumber, 12⟩) := rfl
  have hvtable : Table.vtable ⟨oneNumber, 12⟩ = .ok ⟨[6, 0, 8, 0, 4, 0], 4⟩ := rfl
  obtain ⟨v, hv, hfour⟩ := fieldPosition_exact hrun 0 4
  obtain ⟨v', hv', hfive⟩ := fieldPosition_exact hrun 0 5
  obtain ⟨v'', hv'', hhuge⟩ := fieldPosition_exact hrun 0 0xFFFFFFFFFFFFFFFF
  obtain rfl := Except.ok.inj (hvtable.symm.trans hv)
  obtain rfl := Except.ok.inj (hvtable.symm.trans hv')
  obtain rfl := Except.ok.inj (hvtable.symm.trans hv'')
  exact ⟨_, hrun, (hfour.some_iff 16).mpr (by decide), (hfive.wire_iff _).mpr (by decide),
    hhuge.overflow_iff.mpr (by decide)⟩

/-! ### What can be wrong with a field -/

/-- Text that is read from a slot, beside the bytes that are read from the same slot: the text is
what the bytes spell, and unless they spell none both fail alike. -/
inductive TextOf : Except WireError (Option String) → Except WireError (Option Bytes) → Prop
  | absent : TextOf (.ok none) (.ok none)
  | text (s : String) : TextOf (.ok (some s)) (.ok (some (utf8 s)))
  | notUtf8 {p : Nat} {bytes : Bytes} (h : utf8? bytes = none) :
    TextOf (.error (.invalidUtf8 p)) (.ok (some bytes))
  | error {e : WireError} (h : ∀ p, e ≠ .invalidUtf8 p) : TextOf (.error e) (.error e)

private theorem readVector_ne_invalidUtf8 (b : Bytes) (q p : Nat) :
    readVector b q ≠ .error (.invalidUtf8 p) := by
  intro h
  rcases bind_eq_error_iff.mp h with hcount | ⟨count, -, hbytes⟩
  · cases (Bytes.read_eq_error_iff.mp (map_eq_error_iff.mp hcount)).2
  · cases (Bytes.read_eq_error_iff.mp hbytes).2

/-- Text and bytes at the same place. -/
private theorem textOf_readString (b : Bytes) (q : Nat) :
    TextOf ((readString b q).map some) ((readVector b q).map some) := by
  cases hvector : readVector b q with
  | error e =>
    have htext : readString b q = .error e := bind_eq_error_iff.mpr (.inl hvector)
    rw [htext]
    refine .error fun p hp => ?_
    rw [hp] at hvector
    exact readVector_ne_invalidUtf8 b q p hvector
  | ok bytes =>
    cases hutf8 : utf8? bytes with
    | none =>
      have htext : readString b q = .error (.invalidUtf8 q) :=
        bind_eq_error_iff.mpr (.inr ⟨bytes, hvector, by rw [hutf8]; rfl⟩)
      rw [htext]
      exact .notUtf8 hutf8
    | some s =>
      have htext : readString b q = .ok s :=
        bind_eq_ok_iff.mpr ⟨bytes, hvector, by rw [hutf8]; rfl⟩
      rw [htext, utf8?_eq_some_iff.mp hutf8]
      exact .text s

namespace Table

section Slots

variable {t : Table} {v : VTable} (hv : t.vtable = .ok v) (slot : UInt16)

include hv

/-- **A scalar fails only where its field does not fit in its object**, and never for the place
from which it is read. -/
theorem get_eq_error_iff {type : ScalarType} {default : type.Value} {e : WireError} :
    t.get type slot default = .error e ↔
      e = .badVTable v.position .fieldOutsideObject ∧ (v.fieldOffset slot).toNat ≠ 0 ∧
        ((v.fieldOffset slot).toNat < 4 ∨
          v.objectLength < (v.fieldOffset slot).toNat + type.width) := by
  rw [← locateField_eq_error_iff hv, get, bind_eq_error_iff, or_iff_left_iff_imp]
  rintro ⟨_ | p, hfound, hread⟩
  · cases hread
  · obtain ⟨hout, -⟩ := Bytes.read_eq_error_iff.mp (map_eq_error_iff.mp hread)
    obtain ⟨-, hfield, rfl⟩ := (locateField_eq_some_iff hv slot).mp hfound
    have hobject := object_le hv
    omega

private theorem follow_ne_invalidUtf8 (p : Nat) : t.follow slot ≠ .error (.invalidUtf8 p) := by
  intro h
  rcases bind_eq_error_iff.mp h with hfield | ⟨_ | place, -, hrest⟩
  · rw [locateField_eq hv] at hfield
    repeat' split at hfield
    all_goals cases hfield
  · cases hrest
  · rcases bind_eq_error_iff.mp hrest with hdistance | ⟨distance, -, hrest⟩
    · cases (Bytes.read_eq_error_iff.mp (map_eq_error_iff.mp hdistance)).2
    · rcases bind_eq_error_iff.mp hrest with hout | ⟨_, -, hrest⟩
      · cases (ensure_eq_error_iff.mp hout).2
      · cases hrest

/-- Text and bytes of a slot are read from the same place. -/
private theorem textOf_getString : TextOf (t.getString slot) (t.getBytes slot) := by
  cases hfollow : t.follow slot with
  | error e =>
    have htext : t.getString slot = .error e := bind_eq_error_iff.mpr (.inl hfollow)
    have hbytes : t.getBytes slot = .error e := bind_eq_error_iff.mpr (.inl hfollow)
    rw [htext, hbytes]
    refine .error fun p hp => ?_
    rw [hp] at hfollow
    exact follow_ne_invalidUtf8 hv slot p hfollow
  | ok found =>
    rw [getString, getBytes, getWith_eq hfollow, getWith_eq hfollow]
    cases found with
    | none => exact .absent
    | some target => exact textOf_readString t.buffer target

end Slots

/-- Of a table with the vtable `v`, only the fields can be wrong. -/
structure OnlyFieldsFail (t : Table) (v : VTable) : Prop where
  get_error_iff : ∀ (type : ScalarType) (slot : UInt16) (default : type.Value) (e : WireError),
    t.get type slot default = .error e ↔
      e = .badVTable v.position .fieldOutsideObject ∧ (v.fieldOffset slot).toNat ≠ 0 ∧
        ((v.fieldOffset slot).toNat < 4 ∨
          v.objectLength < (v.fieldOffset slot).toNat + type.width)
  text : ∀ slot, TextOf (t.getString slot) (t.getBytes slot)

end Table

/-- **Once a table is obtained, only its fields can be wrong.** Its vtable is the one that the bytes
hold, however often it is read; a scalar can be read from every slot that is absent or inside the
object; and a string differs from the bytes of its slot in nothing but that they may not be text. -/
theorem Chain.only_fields_fail {b : Bytes} {chain : Chain .bytes (.record .table)} {t : Table}
    (h : chain.run b = .ok (some t)) :
    t.vtable = .ok (b.vtable t.position) ∧ t.OnlyFieldsFail (b.vtable t.position) := by
  obtain ⟨-, hv⟩ := vtable_of_run h
  exact ⟨hv, fun _ slot _ _ => Table.get_eq_error_iff hv slot, Table.textOf_getString hv⟩

/-- An object of eight bytes. The field in slot 1 has two bytes left of it, and the field in slot 0
refers to two bytes that are no text. -/
def noText : Bytes :=
  [12, 0, 0, 0, 8, 0, 8, 0, 4, 0, 6, 0, 8, 0, 0, 0, 4, 0, 0, 0, 2, 0, 0, 0, 255, 254]

theorem Chain.only_fields_fail_noText :
    ∃ t, (cons .rootTable nil).run noText = .ok (some t) ∧
      t.get .u16 1 (7 : UInt16) = .ok (0 : UInt16) ∧
      t.get .u32 1 (7 : UInt32) = .error (.badVTable 4 .fieldOutsideObject) ∧
      t.getBytes 0 = .ok (some [255, 254]) ∧ t.getString 0 = .error (.invalidUtf8 20) := by
  have hrun : (cons .rootTable nil).run noText = .ok (some ⟨noText, 12⟩) := rfl
  obtain ⟨-, hfail⟩ := only_fields_fail hrun
  have houtside := (hfail.get_error_iff .u32 1 (7 : UInt32) _).mpr ⟨rfl, by decide, by decide⟩
  exact ⟨_, hrun, rfl, houtside, rfl, rfl⟩

end EnvelopeWire
