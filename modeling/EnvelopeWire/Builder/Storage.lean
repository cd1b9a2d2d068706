import EnvelopeWire.Bytes.LittleEndian
import EnvelopeWire.Builder.Failure

/-!
# Storage that grows towards the front

A buffer is written back to front, so the written bytes are the tail of a block of cells: from
`head` to the end. `Storage.prepend` takes cells in front of the head and moves the block into a
larger one when there are too few; `Storage.clear` forgets the written bytes but keeps the cells
and what is in them.

Everything that can be observed is the view `Storage.written`:

* `Storage.written_prepend`: a prepended byte string stands in front of what was written.
* `Storage.prepend_eq_error_iff`: it is refused exactly when it does not fit under the limit.
* `Storage.written_overwrite`: an overwrite replaces a range of the written bytes.
* `Storage.written_clear`, `Storage.written_allocate`: nothing is written afterwards, whatever
  the cells hold and however many there are.
-/

namespace EnvelopeWire

/-- A block of cells, of which those from `head` on are written. -/
structure Storage where
  cells : Array UInt8
  head : Nat
  head_le : head ≤ cells.size
  size_le : cells.size ≤ maxBufferSize

/-- The most cells that are allocated at first. -/
def maxInitialCapacity : Nat := 0x100000

namespace Storage

/-- How many cells are allocated for a wanted capacity: at least one, and not too many. -/
def initialSize (capacity : Nat) : Nat := min (max capacity 1) maxInitialCapacity

/-- A block of about `capacity` cells, none written. -/
def allocate (capacity : Nat) : Storage where
  cells := Array.replicate (initialSize capacity) 0
  head := initialSize capacity
  head_le := by simp
  size_le := by
    rw [Array.size_replicate]
    exact Nat.le_trans (Nat.min_le_right _ _) (by decide)

/-- The same cells, none written. -/
def clear (s : Storage) : Storage where
  cells := s.cells
  head := s.cells.size
  head_le := Nat.le_refl _
  size_le := s.size_le

/-- The number of bytes written. -/
def used (s : Storage) : Nat := s.cells.size - s.head

/-- The bytes written. -/
def written (s : Storage) : Bytes := s.cells.toList.drop s.head

/-- The first doubling of `capacity` that is at least `needed`. -/
def doubled (capacity needed : Nat) : Nat :=
  if 0 < capacity ∧ capacity < needed then doubled (2 * capacity) needed else capacity
termination_by needed - capacity

/-- The written bytes at the end of a block that has room for `additional` more in front. The
block doubles until it suffices, and never exceeds `maxBufferSize`. -/
def grow (s : Storage) (additional : Nat) : Except Failure Storage :=
  let needed := s.used + additional
  if h : needed ≤ maxBufferSize then
    let capacity := min (doubled (max s.cells.size 1) needed) maxBufferSize
    -- Always so, since the capacity is at least `needed`; what is written has to fit in the block.
    if s.used ≤ capacity then
      .ok
        { cells := Array.replicate (capacity - s.used) 0 ++ s.cells.extract s.head s.cells.size
          head := capacity - s.used
          head_le := by simp
          size_le := by
            have hused : s.used ≤ maxBufferSize := by omega
            simp only [Array.size_append, Array.size_replicate, Array.size_extract, Nat.min_self]
            rw [used] at hused ⊢
            omega }
    else
      .error .outOfRange
  else
    .error .bufferLimit

/-- The same written bytes with at least `size` free cells in front of them. -/
def reserve (s : Storage) (size : Nat) : Except Failure Storage :=
  if size ≤ s.head then .ok s else s.grow size

/-- The cells with `bs` in place of what is at `i` and after. -/
def setRange (cells : Array UInt8) (i : Nat) : Bytes → Array UInt8
  | [] => cells
  | b :: bs => setRange (cells.setIfInBounds i b) (i + 1) bs

@[simp]
theorem size_setRange (cells : Array UInt8) (i : Nat) (bs : Bytes) :
    (setRange cells i bs).size = cells.size := by
  induction bs generalizing cells i with
  | nil => rfl
  | cons b bs ih => simp [setRange, ih]

/-- Writes `bs` in front of what is written. -/
def prepend (s : Storage) (bs : Bytes) : Except Failure Storage := do
  let s ← s.reserve bs.length
  -- Always so after `reserve`; the cells are written only where they exist.
  if bs.length ≤ s.head then
    return {
      cells := setRange s.cells (s.head - bs.length) bs
      head := s.head - bs.length
      head_le := by rw [size_setRange]; exact Nat.le_trans (Nat.sub_le _ _) s.head_le
      size_le := by rw [size_setRange]; exact s.size_le }
  else
    throw .outOfRange

/-- Writes `bs` over the bytes that start `distance` before the end. -/
def overwrite (s : Storage) (distance : Nat) (bs : Bytes) : Except Failure Storage :=
  if distance ≤ s.cells.size ∧ bs.length ≤ distance then
    .ok
      { cells := setRange s.cells (s.cells.size - distance) bs
        head := s.head
        head_le := by rw [size_setRange]; exact s.head_le
        size_le := by rw [size_setRange]; exact s.size_le }
  else
    .error .outOfRange

/-- Whether the cells from `i` on hold `bs`. -/
def matchesAt (cells : Array UInt8) (i : Nat) : Bytes → Bool
  | [] => true
  | b :: bs => cells[i]? == some b && matchesAt cells (i + 1) bs

/-- Whether the cells that start `distance` before the end hold `bs`. -/
def holds (s : Storage) (distance : Nat) (bs : Bytes) : Except Failure Bool :=
  if distance ≤ s.cells.size then .ok (matchesAt s.cells (s.cells.size - distance) bs)
  else .error .outOfRange

/-! ### The view -/

@[simp]
theorem length_written (s : Storage) : s.written.length = s.used := by
  simp [written, used]

/-- A new storage holds nothing written, whatever its capacity. -/
@[simp]
theorem written_allocate (capacity : Nat) : (allocate capacity).written = [] := by
  simp [written, allocate]

@[simp]
theorem written_clear (s : Storage) : s.clear.written = [] := by
  simp [written, clear]

/-- Doubling does not stop before there is room. -/
private theorem le_doubled (capacity needed : Nat) (h : 0 < capacity) :
    needed ≤ doubled capacity needed := by
  fun_induction doubled capacity needed with
  | case1 capacity hc ih => exact ih (by omega)
  | case2 capacity hc => omega

/-- Room is made exactly when the bytes to come fit under the limit, and what is written stays
as it is. -/
private theorem reserve_eq_ok {s : Storage} {size : Nat} (h : s.used + size ≤ maxBufferSize) :
    ∃ s', s.reserve size = .ok s' ∧ s'.written = s.written ∧ size ≤ s'.head := by
  rw [reserve]
  split
  case isTrue hs => exact ⟨s, rfl, rfl, hs⟩
  case isFalse =>
    have hd := le_doubled (max s.cells.size 1) (s.used + size) (by omega)
    refine ⟨_, by rw [grow, dif_pos h]; exact if_pos (by omega), ?_, ?_⟩
    · simp only [written, Array.toList_append, Array.toList_replicate, Array.toList_extract,
        List.extract_eq_take_drop]
      rw [List.drop_left' (by simp), List.take_of_length_le (by simp)]
    · simp only
      omega

/-- Cells that are set lie between those in front and those behind. -/
private theorem toList_setRange (cells : Array UInt8) (i : Nat) (bs : Bytes)
    (h : i + bs.length ≤ cells.size) :
    (setRange cells i bs).toList =
      cells.toList.take i ++ bs ++ cells.toList.drop (i + bs.length) := by
  induction bs generalizing cells i with
  | nil => simp [setRange]
  | cons b bs ih =>
    rw [List.length_cons] at h
    have hi : i < cells.toList.length := by rw [Array.length_toList]; omega
    rw [setRange, ih _ _ (by rw [Array.size_setIfInBounds]; omega), Array.toList_setIfInBounds]
    have htake : (cells.toList.set i b).take (i + 1) = cells.toList.take i ++ [b] := by
      rw [List.take_add_one, List.take_set_of_le (Nat.le_refl i), List.getElem?_set_self hi]
      rfl
    have hdrop : (cells.toList.set i b).drop (i + 1 + bs.length)
        = cells.toList.drop (i + (b :: bs).length) := by
      rw [List.drop_set_of_lt (by omega), List.length_cons]
      congr 1
      omega
    rw [htake, hdrop]
    simp

/-- A prepended byte string stands in front of what was written, as long as all of it fits under
the limit. -/
theorem written_prepend {s : Storage} {bs : Bytes} (h : s.used + bs.length ≤ maxBufferSize) :
    ∃ s', s.prepend bs = .ok s' ∧ s'.written = bs ++ s.written := by
  obtain ⟨r, hr, hwritten, hhead⟩ := reserve_eq_ok h
  have hle := r.head_le
  refine ⟨_, by rw [prepend, hr]; exact if_pos hhead, ?_⟩
  simp only [written] at hwritten ⊢
  rw [← hwritten, toList_setRange _ _ _ (by omega), List.drop_append, List.drop_append]
  have hsum : r.head - bs.length + bs.length = r.head := by omega
  have hlen : min (r.head - bs.length) r.cells.size = r.head - bs.length := by omega
  simp [hsum, hlen]

/-- Bytes are refused exactly when they do not fit under the limit, however many cells there are. -/
theorem prepend_eq_error_iff {s : Storage} {bs : Bytes} {e : Failure} :
    s.prepend bs = .error e ↔ maxBufferSize < s.used + bs.length ∧ e = .bufferLimit := by
  by_cases h : s.used + bs.length ≤ maxBufferSize
  · obtain ⟨s', hs, _⟩ := written_prepend h
    simp only [hs, reduceCtorEq, false_iff, not_and]
    omega
  · have hle := s.head_le
    have hmax := s.size_le
    have hfull : ¬ bs.length ≤ s.head := by
      rw [used] at h
      omega
    have hreserve : s.reserve bs.length = .error .bufferLimit := by
      rw [reserve, if_neg hfull, grow, dif_neg h]
    rw [prepend, hreserve]
    change Except.error Failure.bufferLimit = Except.error e ↔ _
    simp only [Except.error.injEq, eq_comm (a := e), iff_and_self]
    omega

/-- An overwrite replaces a range of the written bytes that ends `distance - bs.length` before
their end. -/
theorem written_overwrite {s : Storage} {distance : Nat} {bs : Bytes} (hd : distance ≤ s.used)
    (hb : bs.length ≤ distance) :
    ∃ s', s.overwrite distance bs = .ok s' ∧
      s'.written = s.written.take (s.used - distance) ++ bs
        ++ s.written.drop (s.used - distance + bs.length) := by
  have hle := s.head_le
  rw [used] at hd
  refine ⟨_, by rw [overwrite, if_pos ⟨by omega, hb⟩], ?_⟩
  simp only [written, used]
  rw [toList_setRange _ _ _ (by omega)]
  have hsplit : s.cells.size - distance = s.head + (s.cells.size - s.head - distance) := by omega
  rw [hsplit, List.drop_append_of_le_length (by simp; omega),
    List.drop_append_of_le_length (by simp; omega), List.drop_take, List.drop_drop]
  rw [Nat.add_sub_cancel_left, Nat.add_assoc]

/-- Cells are compared one by one, up to the first difference. -/
private theorem matchesAt_eq (cells : Array UInt8) (i : Nat) (bs : Bytes) :
    matchesAt cells i bs = bs.isPrefixOf (cells.toList.drop i) := by
  induction bs generalizing i with
  | nil => rfl
  | cons b bs ih =>
    by_cases hi : i < cells.size
    · have hdrop : cells.toList.drop i = cells[i] :: cells.toList.drop (i + 1) :=
        List.drop_eq_getElem_cons (by simpa using hi)
      simp [matchesAt, ih, hdrop, hi, List.isPrefixOf, BEq.comm]
    · have hdrop : cells.toList.drop i = [] := List.drop_eq_nil_of_le (by simpa using hi)
      simp [matchesAt, hdrop, hi]

/-- The comparison is with the written bytes, from `distance` before their end on. -/
theorem holds_eq {s : Storage} {distance : Nat} (bs : Bytes) (hd : distance ≤ s.used) :
    s.holds distance bs = .ok (bs.isPrefixOf (s.written.drop (s.used - distance))) := by
  have hle := s.head_le
  rw [used] at hd
  rw [holds, if_pos (by omega), matchesAt_eq, written, used, List.drop_drop]
  congr 4
  omega

end Storage

end EnvelopeWire
