import EnvelopeWire.Proofs.Bytes.Standing
import Mathlib.Data.List.Perm.Basic

/-!
# Regions of a buffer

A buffer that is written back to front consists of pieces, each put in front of the ones before, and
zeros between them. `w.Tiled regions` says that the pieces are where `regions` are: they lie in the
buffer, none of them overlaps another one, and what lies in none is zero. A region is counted from
the end of the buffer, so it does not change when more is put in front.

* `Bytes.Tiled.front`: a piece that is put in front has a region of its own.
* `Bytes.Tiled.zeros`: zeros that are put in front need none.
* `Bytes.Tiled.within`: what stands in a buffer is made up of pieces as it is by itself.
-/

namespace EnvelopeWire

/-- The `length` bytes of a buffer from `place` bytes before its end. -/
structure Region where
  place : Nat
  length : Nat
deriving DecidableEq, Repr

namespace Region

/-- The position `i` in `w`, counted from the front, is one of the region. -/
def Covers (r : Region) (w : Bytes) (i : Nat) : Prop :=
  w.length - r.place ≤ i ∧ i < w.length - r.place + r.length

/-- The region lies in `w`. -/
def Inside (r : Region) (w : Bytes) : Prop := r.length ≤ r.place ∧ r.place ≤ w.length

/-- One of the regions ends before the other one starts. -/
def Apart (r s : Region) : Prop := r.place + s.length ≤ s.place ∨ s.place + r.length ≤ r.place

/-- The region with `n` more bytes behind it. -/
def shift (n : Nat) (r : Region) : Region := ⟨n + r.place, r.length⟩

variable {r s : Region} {w : Bytes} {i : Nat}

private theorem Apart.symm (h : r.Apart s) : s.Apart r := Or.symm h

/-- Regions that move together stay apart. -/
private theorem Apart.shift (h : r.Apart s) (n : Nat) : (r.shift n).Apart (s.shift n) := by
  rcases h with h | h
  · exact .inl (by simp only [Region.shift]; omega)
  · exact .inr (by simp only [Region.shift]; omega)

/-- Bytes put in front move the positions of a region. -/
private theorem covers_append_iff (h : r.place ≤ w.length) (front : Bytes) :
    r.Covers (front ++ w) (front.length + i) ↔ r.Covers w i := by
  simp only [Covers, List.length_append]
  omega

end Region

namespace Bytes

/-- The `regions` are pieces of `w`, no two of them overlap, and what is in none of them is zero. -/
structure Tiled (w : Bytes) (regions : List Region) : Prop where
  inside : ∀ r ∈ regions, r.Inside w
  apart : regions.Pairwise Region.Apart
  zero : ∀ i < w.length, (∀ r ∈ regions, ¬ r.Covers w i) → w[i]? = some 0

namespace Tiled

variable {w : Bytes} {regions regions' : List Region}

theorem nil : Tiled [] [] where
  inside := List.forall_mem_nil _
  apart := .nil
  zero _ hi _ := absurd hi (Nat.not_lt_zero _)

/-- A tiling does not depend on the order of its pieces. -/
theorem perm (h : w.Tiled regions) (hperm : regions.Perm regions') : w.Tiled regions' where
  inside r hr := h.inside r (hperm.mem_iff.mpr hr)
  apart := hperm.pairwise h.apart fun hapart => hapart.symm
  zero i hi hout := h.zero i hi fun r hr => hout r (hperm.mem_iff.mp hr)

/-- What is behind a piece that is put in front is zero where it was. -/
private theorem getElem?_append (h : w.Tiled regions) {front : Bytes} {i : Nat}
    (hi : front.length ≤ i) (hlt : i < (front ++ w).length)
    (hout : ∀ r ∈ regions, ¬ r.Covers (front ++ w) i) :
    (front ++ w)[i]? = some 0 := by
  obtain ⟨j, rfl⟩ := Nat.exists_eq_add_of_le hi
  rw [List.length_append, Nat.add_lt_add_iff_left] at hlt
  rw [List.getElem?_append_right hi, Nat.add_sub_cancel_left]
  refine h.zero j hlt fun r hr hcovers => hout r hr ?_
  exact (Region.covers_append_iff (h.inside r hr).2 front).mpr hcovers

/-- **A piece that is put in front** is a region of its own. -/
theorem front (h : w.Tiled regions) (bytes : Bytes) :
    (bytes ++ w).Tiled (⟨(bytes ++ w).length, bytes.length⟩ :: regions) where
  inside := by
    refine List.forall_mem_cons.mpr ⟨⟨?_, Nat.le_refl _⟩, fun r hr => ⟨(h.inside r hr).1, ?_⟩⟩
    · rw [List.length_append]
      exact Nat.le_add_right _ _
    · rw [List.length_append]
      exact Nat.le_add_left_of_le (h.inside r hr).2
  apart := by
    refine List.pairwise_cons.mpr ⟨fun r hr => .inr ?_, h.apart⟩
    have hplace := (h.inside r hr).2
    change r.place + bytes.length ≤ (bytes ++ w).length
    rw [List.length_append]
    omega
  zero i hi hout := by
    rw [List.forall_mem_cons] at hout
    refine h.getElem?_append (Nat.le_of_not_lt fun hlt => hout.1 ?_) hi hout.2
    change (bytes ++ w).length - (bytes ++ w).length ≤ i ∧
      i < (bytes ++ w).length - (bytes ++ w).length + bytes.length
    rw [Nat.sub_self, Nat.zero_add]
    exact ⟨Nat.zero_le i, hlt⟩

/-- **Zeros that are put in front** are in no region. -/
theorem zeros (h : w.Tiled regions) (n : Nat) : Tiled (List.replicate n 0 ++ w) regions where
  inside r hr := by
    rw [Region.Inside, List.length_append]
    exact ⟨(h.inside r hr).1, Nat.le_add_left_of_le (h.inside r hr).2⟩
  apart := h.apart
  zero i hi hout := by
    rcases Nat.lt_or_ge i (List.replicate n (0 : UInt8)).length with hlt | hge
    · rw [List.getElem?_append_left hlt, List.getElem?_replicate, if_pos (by simpa using hlt)]
    · exact h.getElem?_append hge hi hout

end Tiled

/-- The `parts` are pieces of the region `whole` of `w`, no two of them overlap, and what of it is
in none of them is zero. -/
structure TiledIn (w : Bytes) (whole : Region) (parts : List Region) : Prop where
  within : ∀ r ∈ parts,
    r.place ≤ whole.place ∧ whole.place + r.length ≤ r.place + whole.length
  apart : parts.Pairwise Region.Apart
  zero : ∀ i, whole.Covers w i → (∀ r ∈ parts, ¬ r.Covers w i) → w[i]? = some 0

/-- **What stands in a buffer** is made up of pieces there as it is by itself. -/
theorem Tiled.within {s w : Bytes} {parts : List Region} {place : Nat} (h : s.Tiled parts)
    (hstands : w.StandsAt place s) :
    w.TiledIn ⟨place, s.length⟩ (parts.map (Region.shift (place - s.length))) := by
  obtain ⟨front, back, rfl, rfl⟩ := hstands
  rw [Nat.add_sub_cancel_left]
  refine ⟨?_, List.pairwise_map.mpr (h.apart.imp fun hapart => hapart.shift _), ?_⟩
  · refine List.forall_mem_map.mpr fun r hr => ?_
    obtain ⟨hlength, hplace⟩ := h.inside r hr
    simp only [Region.shift]
    omega
  · intro i hi hout
    rw [List.forall_mem_map] at hout
    simp only [Region.Covers, Region.shift, List.length_append] at hi hout
    obtain ⟨j, rfl⟩ := Nat.exists_eq_add_of_le (show front.length ≤ i by omega)
    have hj : j < s.length := by omega
    rw [List.getElem?_append_right (Nat.le_add_right _ _), Nat.add_sub_cancel_left,
      List.getElem?_append_left hj]
    refine h.zero j hj fun r hr hcovers => hout r hr ?_
    obtain ⟨-, hplace⟩ := h.inside r hr
    simp only [Region.Covers] at hcovers
    omega

end Bytes

end EnvelopeWire
