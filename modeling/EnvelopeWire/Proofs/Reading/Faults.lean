import EnvelopeWire.Proofs.Reading.Format

/-!
# What an error says of the bytes

Every error that a read of a buffer ends with says something about the bytes of the buffer, and
`Bytes.Fault` says what: which range is not there, which vtable contradicts itself or its object,
which bytes are not text. A read explains itself when it ends with no other error
(`Bytes.Explains`), and all of them do, one step at a time.

An error that names a range says in three ways that the buffer does not hold it. As a rule the
range leaves the buffer. But where a vtable would start in front of the buffer, the range that is
named is that of the reference to it, and where a reference leads out of the buffer, the numbers
that are named are its own place and its distance.

* `Bytes.explains_vtable`, `Bytes.explains_locateField`, `Bytes.explains_follow`: the steps that
  every read of an object takes.
* `Bytes.explains_getTable`, `Bytes.explains_getString`, `Bytes.explains_getBytes`: what a slot
  refers to.
* `Bytes.explains_rootTable`: the object at the root.
-/

namespace EnvelopeWire

namespace Bytes

/-- The errors that a read of `b` can end with, each with what is wrong with the bytes. -/
inductive Fault (b : Bytes) : WireError → Prop
  | tooShort (h : b.length < 4) : Fault b (.tooShort b.length)
  | outside {p size : Nat} (h : b.length < p + size) : Fault b (.outOfBounds p size b.length)
  /-- The vtable of the object at `p` would start in front of the buffer. -/
  | vtableInFront {p : Nat} (hin : p + 4 ≤ b.length) (h : (p : Int) < b.int32At p) :
    Fault b (.outOfBounds p 4 b.length)
  /-- The reference at `p` leads out of the buffer. -/
  | leadsOut {p : Nat} (hin : p + 4 ≤ b.length) (h : b.length ≤ p + b.word32At p) :
    Fault b (.outOfBounds p (b.word32At p) b.length)
  | vtableLength {p : Nat} (h : ¬ (4 ≤ b.vtableLengthAt p ∧ b.vtableLengthAt p % 2 = 0)) :
    Fault b (.badVTable (b.vtableAt p) .length)
  | objectLength {p : Nat} (h : b.objectLengthAt p < 4) :
    Fault b (.badVTable (b.vtableAt p) .objectLength)
  | fieldOutside {p slot width : Nat} (hobject : b.IsTable p) (h : ¬ b.GoodSlot p slot width) :
    Fault b (.badVTable (b.vtableAt p) .fieldOutsideObject)
  | notUtf8 {p : Nat} (hvector : b.IsVector p) (h : utf8? (b.vectorAt p) = none) :
    Fault b (.invalidUtf8 p)

/-- Each error of `x` is one of the faults of `b`. -/
def Explains {α : Type} (b : Bytes) (x : Except WireError α) : Prop :=
  ∀ e, x = .error e → b.Fault e

namespace Explains

variable {α β : Type} {b : Bytes}

/-- A result needs no explanation. -/
theorem of_ok (a : α) : b.Explains (.ok a) := by
  intro e h
  cases h

/-- Steps in sequence explain themselves when each does, the later ones after what came before. -/
theorem bind {x : Except WireError α} {f : α → Except WireError β} (hx : b.Explains x)
    (hf : ∀ a, x = .ok a → b.Explains (f a)) : b.Explains (x >>= f) := by
  intro e h
  rcases bind_eq_error_iff.mp h with hfirst | ⟨a, ha, hsecond⟩
  · exact hx e hfirst
  · exact hf a ha e hsecond

private theorem map {x : Except WireError α} (hx : b.Explains x) (f : α → β) :
    b.Explains (x.map f) :=
  fun e h => hx e (map_eq_error_iff.mp h)

/-- A condition explains itself when its failure shows a fault of the buffer. -/
private theorem ensure {p : Prop} [Decidable p] {e : WireError} (he : ¬ p → b.Fault e) :
    b.Explains (EnvelopeWire.ensure p e) := by
  intro e' h
  obtain ⟨hp, rfl⟩ := ensure_eq_error_iff.mp h
  exact he hp

end Explains

variable (b : Bytes)

/-! ### Places -/

/-- A range that is not read leaves the buffer. -/
private theorem explains_read (p size : Nat) : b.Explains (b.read p size) := by
  intro e h
  obtain ⟨hout, rfl⟩ := read_eq_error_iff.mp h
  exact .outside hout

/-- A scalar fails only for its range, whatever its type. -/
theorem explains_readScalar (type : ScalarType) (p : Nat) : b.Explains (readScalar type b p) :=
  (b.explains_read p type.width).map _

private theorem explains_readVector (p : Nat) : b.Explains (readVector b p) :=
  (b.explains_readScalar .u32 p).bind fun _ _ => b.explains_read _ _

/-- A string fails for its length, for its bytes, or because they are not text. -/
private theorem explains_readString (p : Nat) : b.Explains (readString b p) := by
  refine (b.explains_readVector p).bind fun bytes hbytes => ?_
  obtain ⟨hvector, rfl⟩ := readVector_eq_ok_iff.mp hbytes
  split
  · exact .of_ok _
  · intro e h
    cases h
    exact .notUtf8 hvector ‹_›

/-! ### Objects -/

section Objects

variable (p : Nat) (slot : UInt16)

/-- The vtable of an object is refused for one of four faults: its start, its length, the length of
the object, or a range that leaves the buffer. -/
theorem explains_vtable : b.Explains (Table.vtable ⟨b, p⟩) := by
  refine (b.explains_readScalar .i32 p).bind fun reference href => ?_
  obtain ⟨hin, hreference⟩ := readScalar_i32_eq_ok_iff.mp href
  rw [hreference]
  refine (Explains.ensure fun hfront => ?_).bind fun _ _ => ?_
  · exact .vtableInFront hin (Int.not_le.mp fun hle => hfront (Int.sub_nonneg_of_le hle))
  refine (b.explains_readScalar .u16 (b.vtableAt p)).bind fun length hlength => ?_
  obtain ⟨-, hlength⟩ := readScalar_u16_eq_ok_iff.mp hlength
  refine (Explains.ensure fun hbad => .vtableLength ?_).bind fun _ _ => ?_
  · rwa [hlength] at hbad
  refine (b.explains_read _ _).bind fun _ _ => ?_
  refine (b.explains_readScalar .u16 (b.vtableAt p + 2)).bind fun objectLength hobject => ?_
  obtain ⟨-, hobject⟩ := readScalar_u16_eq_ok_iff.mp hobject
  refine (Explains.ensure fun hbad => .objectLength ?_).bind fun _ _ => ?_
  · rwa [hobject, Nat.not_le] at hbad
  exact (b.explains_read _ _).bind fun _ _ => .of_ok _

theorem explains_ofPosition : b.Explains (Table.ofPosition b p) :=
  (b.explains_vtable p).map _

/-- A field is refused where its slot is not a good one. -/
theorem explains_locateField (size : Nat) :
    b.Explains (Table.locateField ⟨b, p⟩ slot size) := by
  refine (b.explains_vtable p).bind fun v hv => ?_
  obtain ⟨hobject, rfl⟩ := Table.vtable_eq_ok_iff_isTable.mp hv
  have hobject : b.IsTable p := hobject
  dsimp only
  rw [hobject.fieldOffset_vtable, hobject.objectLength_vtable]
  split
  case isTrue => exact .of_ok none
  case isFalse hfield =>
    refine (Explains.ensure fun hout => ?_).bind fun _ _ => .of_ok _
    exact .fieldOutside hobject fun hslot => hout (hslot.resolve_left hfield)

/-- A scalar slot fails for its vtable or its field; the bytes it is read from are there. -/
theorem explains_get (type : ScalarType) (default : type.Value) :
    b.Explains (Table.get ⟨b, p⟩ type slot default) := by
  refine (b.explains_locateField p slot type.width).bind fun position _ => ?_
  split
  · exact b.explains_readScalar _ _
  · exact .of_ok default

/-- A reference fails for its field, or because it leads out of the buffer. -/
theorem explains_follow : b.Explains (Table.follow ⟨b, p⟩ slot) := by
  refine (b.explains_locateField p slot 4).bind fun position _ => ?_
  split
  · exact .of_ok none
  · refine (b.explains_readScalar .u32 _).bind fun distance hdistance => ?_
    obtain ⟨hin, hdistance⟩ := readScalar_u32_eq_ok_iff.mp hdistance
    rw [hdistance]
    exact (Explains.ensure fun hout => .leadsOut hin (Nat.not_lt.mp hout)).bind fun _ _ => .of_ok _

/-- What is read at the end of a reference may fail for its own reasons besides. -/
private theorem explains_getWith {α : Type} {read : Nat → Except WireError α}
    (hread : ∀ target, b.Explains (read target)) : b.Explains (Table.getWith ⟨b, p⟩ slot read) := by
  refine (b.explains_follow p slot).bind fun target _ => ?_
  split
  · exact .of_ok none
  · exact (hread _).bind fun _ _ => .of_ok _

theorem explains_getTable : b.Explains (Table.getTable ⟨b, p⟩ slot) :=
  b.explains_getWith p slot b.explains_ofPosition

theorem explains_getString : b.Explains (Table.getString ⟨b, p⟩ slot) :=
  b.explains_getWith p slot b.explains_readString

theorem explains_getBytes : b.Explains (Table.getBytes ⟨b, p⟩ slot) :=
  b.explains_getWith p slot b.explains_readVector

end Objects

/-- The object at the root: the buffer may be too short to refer to it. -/
theorem explains_rootTable : b.Explains (rootTable b) :=
  (Explains.ensure fun hshort => .tooShort (Nat.not_le.mp hshort)).bind fun _ _ =>
    (b.explains_readScalar .u32 0).bind fun _ _ => b.explains_ofPosition _

end Bytes

end EnvelopeWire
