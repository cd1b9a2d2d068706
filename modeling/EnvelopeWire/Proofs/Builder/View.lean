import EnvelopeWire.Proofs.Builder.Draft
import Mathlib.Data.List.Find

/-!
# Builders through their drafts

A builder reserves cells, moves its block when it runs out of them, and patches the reference to
a vtable once the vtable is placed. None of this shows.

* `Builder.perform_draft`: on a builder whose vtables lie in what it has written, a call does to
  the draft what `Draft.perform` says, with the same reply or the same failure.
* `Builder.run_draft`: so does a whole sequence of calls.
-/

namespace EnvelopeWire

/-! ### The draft of a builder -/

/-- What shows of a builder. -/
def Builder.draft (b : Builder) : Draft where
  written := b.written
  minAlign := b.minAlign
  forceDefaults := b.forceDefaults
  phase := b.phase
  fields := b.fields
  vtables := b.vtables
  vtablesReused := b.vtablesReused

namespace Builder

@[simp]
theorem used_draft (b : Builder) : b.draft.used = b.used :=
  b.length_written

/-- A new builder shows an empty draft, whatever its capacity. -/
@[simp]
theorem draft_withOptions (options : BuilderOptions) :
    (withOptions options).draft = Draft.empty options.forceDefaults := by
  rw [draft, written_withOptions]
  rfl

/-- Bytes in front of the storage are bytes in front of the draft. -/
theorem draft_prepend (b : Builder) (bytes : Bytes) :
    (b.prepend bytes).map draft = b.draft.put bytes := by
  by_cases h : b.used + bytes.length ≤ maxBufferSize
  · obtain ⟨s, hs, hwritten⟩ := written_prepend h
    rw [hs]
    refine (Draft.put_eq_ok_iff.mpr ⟨by rwa [used_draft], ?_⟩).symm
    exact congrArg (fun w => ({ b.draft with written := w } : Draft)) hwritten.symm
  · have hlt : maxBufferSize < b.used + bytes.length := Nat.not_le.mp h
    rw [prepend_eq_error_iff.mpr ⟨hlt, rfl⟩]
    exact (Draft.put_eq_error_iff.mpr ⟨by rwa [used_draft], rfl⟩).symm

private theorem draft_align (b : Builder) (size alignment : Nat) :
    (b.align size alignment).map draft = b.draft.pad size alignment := by
  rw [align, draft_prepend, Draft.pad, used_draft]
  rfl

/-- A scalar in the storage is its aligned bytes in the draft. -/
theorem draft_pushScalar (b : Builder) (type : ScalarType) (value : type.Value) :
    (b.pushScalar type value).map draft
      = b.draft.putAligned (type.encode value) type.width := by
  rw [← Draft.pad_bind_put, ScalarType.length_encode]
  exact bind_map_eq (b.draft_align _ _) fun b _ => b.draft_prepend _

/-- A reference in the storage is one in the draft. -/
private theorem draft_pushReference (b : Builder) (target : Offset) :
    (b.pushReference target).map draft = b.draft.putReference target := by
  refine bind_map_eq (b.draft_align 4 4) fun b _ => ?_
  rw [used_draft]
  refine bind_map_congr fun _ hensure => ?_
  have htarget : target.value ≤ b.used := (ensure_eq_ok_iff.mp hensure).2
  rw [difference_eq_ok_iff.mpr ⟨by omega, rfl⟩]
  exact b.draft_prepend _

/-- A vector in the storage is one in the draft. -/
private theorem draft_pushVector (b : Builder) (bytes : Bytes) (terminated : Bool) :
    (b.pushVector bytes terminated).map draft = b.draft.putVector bytes terminated := by
  refine bind_map_congr fun _ _ => ?_
  have hlength : (bytes ++ List.replicate terminated.toNat (0 : UInt8)).length
      = bytes.length + terminated.toNat := by simp
  rw [vectorBytes, ← Draft.putAligned_bind_putAligned _ (by decide)
    (by rw [ScalarType.length_encode]; rfl), ← Draft.pad_bind_put, bind_assoc, hlength]
  refine bind_map_eq (b.draft_align _ _) fun b _ => ?_
  exact bind_map_eq (b.draft_prepend _) fun b _ => b.draft_pushScalar _ _

/-! ### Closing an object -/

/-- Overwriting the piece `old` of what is written puts the new piece in its place. -/
theorem written_overwrite_piece {s : Storage} {front old back bytes : Bytes}
    (hwritten : s.written = front ++ (old ++ back)) (hold : old.length = bytes.length) :
    ∃ s', s.overwrite (old.length + back.length) bytes = .ok s' ∧
      s'.written = front ++ (bytes ++ back) := by
  have hused : s.used = front.length + (old.length + back.length) := by
    rw [← Storage.length_written, hwritten, List.length_append, List.length_append]
  -- A place is counted from the end, so the bytes in front of the piece do not move it.
  obtain ⟨s', hs', hw⟩ := Storage.written_overwrite
    (show old.length + back.length ≤ s.used by omega)
    (show bytes.length ≤ old.length + back.length by omega)
  refine ⟨s', hs', ?_⟩
  have hfront : s.used - (old.length + back.length) = front.length := by omega
  rw [hw, hwritten, hfront, ← hold, List.take_left, ← List.append_assoc front old,
    List.append_assoc, ← List.length_append, List.drop_left]

/-- Where all vtables lie in what is written, looking one up is looking in what is written. -/
private theorem findVTable_eq {s : Storage} {vtable : Bytes} {places : List Nat}
    (h : ∀ place ∈ places, place ≤ s.used) :
    findVTable s vtable places =
      .ok (places.find? fun place => vtable.isPrefixOf (s.written.drop (s.used - place))) := by
  induction places with
  | nil => rfl
  | cons place places ih =>
    obtain ⟨hplace, hplaces⟩ := List.forall_mem_cons.mp h
    rw [findVTable, Storage.holds_eq vtable hplace, List.find?_cons]
    change (if vtable.isPrefixOf _ = true then _ else _) = _
    cases hread : vtable.isPrefixOf (s.written.drop (s.used - place)) with
    | true => rfl
    | false =>
      rw [if_neg Bool.false_ne_true]
      exact ih hplaces

/-- What the storage reads at a vtable does not change when bytes are written in front. -/
private theorem findVTable_append {s : Storage} {d : Draft} {front vtable : Bytes}
    (hwritten : s.written = front ++ d.written) (h : ∀ place ∈ d.vtables, place ≤ d.used) :
    findVTable s vtable d.vtables = .ok (d.findVTable vtable) := by
  have hused : s.used = front.length + d.used := by
    rw [← Storage.length_written, hwritten, List.length_append, d.length_written]
  rw [findVTable_eq fun place hplace => by have := h place hplace; omega, Draft.findVTable]
  refine congrArg Except.ok (List.find?_congr fun place hplace => ?_)
  have hle := h place hplace
  have hsub : s.used - place = front.length + (d.used - place) := by omega
  rw [hsub, hwritten, ← List.drop_drop, List.drop_left]

/-- A result with the draft of the builder it comes with. -/
def viewed {α : Type} (x : Except Failure (α × Builder)) : Except Failure (α × Draft) :=
  x.map fun p => (p.1, p.2.draft)

/-- A draft after a step, from the builder after it. -/
theorem draft_of_ok {x : Except Failure Builder} {y : Except Failure Draft} {b : Builder}
    (h : x.map draft = y) (hx : x = .ok b) : y = .ok b.draft := by
  rw [← h, hx]
  rfl

/-- Patching bytes that were kept free puts the new bytes in their place. -/
private theorem draft_patch {b : Builder} {d : Draft} (front : Bytes) {free bytes : Bytes}
    {distance : Nat} (hview : b.draft = { d with written := front ++ (free ++ d.written) })
    (hfree : free.length = bytes.length) (hdistance : distance = bytes.length + d.used)
    (hfits : front.length + distance ≤ maxBufferSize) :
    (b.onStorage (·.overwrite distance bytes)).map draft = d.put (front ++ bytes) := by
  have hwritten : b.storage.written = front ++ (free ++ d.written) := congrArg Draft.written hview
  obtain ⟨s, hs, hs'⟩ := written_overwrite_piece hwritten hfree
  rw [hfree, d.length_written, ← hdistance] at hs
  rw [onStorage_eq_ok hs]
  refine (Draft.put_eq_ok_iff.mpr ⟨by rw [List.length_append]; omega, ?_⟩).symm
  rw [List.append_assoc, ← hs']
  exact congrArg (fun v : Draft => { v with written := s.written }) hview.symm

/-- A vtable that is not written yet goes in front of the four bytes that were kept free for the
reference to it, and the reference goes in their place. -/
private theorem draft_linkNewVTable {b : Builder} {d : Draft} {free : Bytes} (vtable : Bytes)
    (hview : b.draft = { d with written := free ++ d.written }) (hfree : free.length = 4) :
    (do
      let after ← b.prepend vtable
      onStorage { after with vtables := after.vtables ++ [after.used] }
        (·.overwrite (d.used + 4) (vtableReference after.used (d.used + 4)))).map draft
      = Draft.put { d with vtables := d.vtables ++ [vtable.length + (d.used + 4)] }
          (vtable ++ vtableReference (vtable.length + (d.used + 4)) (d.used + 4)) := by
  have hused : b.draft.used = d.used + 4 := by
    rw [hview, Draft.used, List.length_append, hfree, d.length_written, Nat.add_comm]
  cases hafter : b.prepend vtable with
  | error e =>
    -- Without room for the vtable behind the bytes kept free there is none for both together.
    have hput : b.draft.put vtable = .error e := by
      rw [← draft_prepend, hafter]
      rfl
    obtain ⟨hlt, rfl⟩ := Draft.put_eq_error_iff.mp hput
    refine (Draft.put_eq_error_iff.mpr ⟨?_, rfl⟩).symm
    rw [List.length_append, length_vtableReference]
    change _ < d.used + _
    omega
  | ok after =>
    obtain ⟨hroom, hviewAfter⟩ :=
      Draft.put_eq_ok_iff.mp (draft_of_ok (draft_prepend b vtable) hafter)
    have hplace : after.used = vtable.length + (d.used + 4) := by
      rw [← used_draft, ← hviewAfter, ← hused, Draft.used, List.length_append, Draft.length_written]
    rw [hview] at hviewAfter
    change (onStorage { after with vtables := after.vtables ++ [after.used] }
      (·.overwrite (d.used + 4) (vtableReference after.used (d.used + 4)))).map draft = _
    rw [hplace]
    refine draft_patch (d := { d with vtables := d.vtables ++ [vtable.length + (d.used + 4)] })
      vtable (congrArg (fun v : Draft => { v with
        vtables := v.vtables ++ [vtable.length + (d.used + 4)] }) hviewAfter.symm) ?_ ?_ (by omega)
    · rw [hfree, length_vtableReference]
    · rw [length_vtableReference]
      exact Nat.add_comm _ _

/-- Placing the vtable and patching the reference to it puts both in front, in the place of the
four bytes that were kept free for the reference. -/
private theorem draft_linkVTable {b : Builder} {d : Draft} {free : Bytes} (vtable : Bytes)
    (hview : b.draft = { d with written := free ++ d.written }) (hfree : free.length = 4)
    (hfits : d.used + 4 ≤ maxBufferSize) (h : ∀ place ∈ d.vtables, place ≤ d.used) :
    (do
      let (place, after) ← b.placeVTable vtable
      after.onStorage (·.overwrite (d.used + 4) (vtableReference place (d.used + 4)))).map draft
        = d.linkVTable (d.used + 4) vtable := by
  have hfind : findVTable b.storage vtable b.vtables = .ok (d.findVTable vtable) := by
    have hvtables : b.vtables = d.vtables := congrArg Draft.vtables hview
    rw [hvtables]
    exact findVTable_append (congrArg Draft.written hview) h
  rw [placeVTable, Draft.linkVTable, hfind]
  cases d.findVTable vtable with
  | some place =>
    refine draft_patch (b := { b with vtablesReused := b.vtablesReused + 1 })
      (d := { d with vtablesReused := d.vtablesReused + 1 }) []
      (congrArg (fun v : Draft => { v with vtablesReused := v.vtablesReused + 1 }) hview) ?_ ?_
      (by rwa [List.length_nil, Nat.zero_add])
    · rw [hfree, length_vtableReference]
    · rw [length_vtableReference]
      exact Nat.add_comm _ _
  | none =>
    rw [← draft_linkNewVTable vtable hview hfree]
    refine congrArg (Except.map draft) ?_
    change (b.prepend vtable >>= fun _ => _) >>= _ = _
    rw [bind_assoc]
    rfl

/-- The end of an object shows as that in the draft, where the places of the vtables are good. -/
private theorem draft_closeObject {b : Builder} (start : Nat)
    (h : ∀ place ∈ b.vtables, place ≤ b.used) :
    viewed (b.closeObject start) = b.draft.closeObject start := by
  rw [closeObject, pushScalar, bind_assoc]
  refine bind_map_eq (b.draft_align 4 4) fun b₁ hb₁ => ?_
  have hvtables : ∀ place ∈ b₁.draft.vtables, place ≤ b₁.draft.used := by
    obtain ⟨-, heq⟩ := Draft.put_eq_ok_iff.mp (draft_of_ok (b.draft_align 4 4) hb₁)
    rw [← heq]
    intro place hplace
    have hle : place ≤ b.draft.used := by
      rw [used_draft]
      exact h place hplace
    simp only [Draft.used, List.length_append]
    exact Nat.le_add_left_of_le hle
  have hlength : (ScalarType.i32.encode 0).length = 4 := ScalarType.length_encode _ _
  have hstore := draft_prepend b₁ (ScalarType.i32.encode 0)
  -- The four bytes for the reference are written first and patched at the end; a draft puts the
  -- reference itself, so it only asks beforehand whether there is room for it.
  cases hb₂ : b₁.prepend (ScalarType.i32.encode 0) with
  | error e =>
    rw [hb₂] at hstore
    obtain ⟨hlt, rfl⟩ := Draft.put_eq_error_iff.mp hstore.symm
    rw [hlength] at hlt
    change _ = (ensure _ _ >>= _)
    rw [ensure_eq_error_iff.mpr ⟨Nat.not_le.mpr hlt, rfl⟩]
    rfl
  | ok b₂ =>
    obtain ⟨hfits, hview⟩ := Draft.put_eq_ok_iff.mp (draft_of_ok hstore hb₂)
    rw [hlength] at hfits
    have hused : b₂.used = b₁.draft.used + 4 := by
      rw [← used_draft, ← hview, Draft.used, List.length_append, hlength, Draft.length_written,
        Nat.add_comm]
    have hfields : b₂.fields = b₁.draft.fields := congrArg Draft.fields hview.symm
    change viewed (difference b₂.used start >>= _) = (ensure _ _ >>= _)
    rw [(ensure_eq_ok_iff (u := ())).mpr hfits, hused, hfields]
    refine bind_map_congr fun length _ => bind_map_congr fun _ _ => ?_
    refine bind_map_congr fun vtable _ => ?_
    have hlink := draft_linkVTable vtable hview.symm hlength hfits hvtables
    refine Eq.trans (congrArg viewed ?_) (bind_map_eq (f := fun b₃ => .ok
      (⟨b₁.draft.used + 4⟩, { b₃ with fields := [], phase := .idle })) hlink fun b₃ _ => rfl)
    rw [bind_assoc]
    exact bind_congr_ok fun placed _ => rfl

/-! ### The calls -/

/-- A check that comes first in a call is the same check of the draft. -/
private theorem viewed_bind {α β γ : Type} {x : Except Failure α} {f : α → Except Failure β}
    {g : β → Except Failure (γ × Builder)} {k : α → Except Failure (γ × Draft)}
    (h : ∀ a, viewed (f a >>= g) = k a) : viewed ((x >>= f) >>= g) = x >>= k := by
  rw [bind_assoc]
  exact bind_map_congr fun a _ => h a

/-- **A call does to the draft what `Draft.perform` says**, with the same reply or failure. -/
theorem perform_draft (call : Call) {b : Builder} (h : b.draft.VTablesWritten) :
    viewed (call.run b) = b.draft.perform call := by
  cases call with
  | startObject fields =>
    refine viewed_bind fun _ => ?_
    rw [bind_assoc]
    refine bind_map_eq (b.draft_align 0 8) fun b _ => ?_
    rw [used_draft]
    rfl
  | pushSlot type slot value default =>
    refine viewed_bind fun _ => ?_
    by_cases helided : (type.agrees value default && !b.forceDefaults) = true
    · rw [if_pos helided, if_pos (by exact helided)]
      rfl
    · rw [if_neg helided, if_neg (by exact helided), bind_assoc]
      refine bind_map_eq (b.draft_pushScalar type value) fun b _ => ?_
      rw [Draft.mark, used_draft]
      rfl
  | pushSlotOffset slot target =>
    refine viewed_bind fun _ => ?_
    rw [bind_assoc]
    refine bind_map_eq (b.draft_pushReference target) fun b _ => ?_
    rw [Draft.mark, used_draft]
    rfl
  | endObject =>
    refine viewed_bind fun start => ?_
    exact bind_map_eq (draft_closeObject start (by rwa [← used_draft])) fun _ _ => rfl
  | createString text =>
    refine viewed_bind fun _ => ?_
    rw [bind_assoc]
    refine bind_map_eq (b.draft_pushVector _ true) fun b _ => ?_
    rw [used_draft]
    rfl
  | createByteVector bytes =>
    refine viewed_bind fun _ => ?_
    rw [bind_assoc]
    refine bind_map_eq (b.draft_pushVector _ false) fun b _ => ?_
    rw [used_draft]
    rfl
  | finish root =>
    refine viewed_bind fun _ => ?_
    rw [bind_assoc]
    refine bind_map_eq (b.draft_align _ _) fun b _ => ?_
    rw [bind_assoc]
    exact bind_map_eq (b.draft_pushReference root) fun _ _ => rfl
  | reset =>
    exact congrArg (fun w =>
      Except.ok (Reply.done, { Draft.empty b.forceDefaults with written := w }))
      b.storage.written_clear
  | finishedData => exact viewed_bind fun _ => rfl
  | takeFinishedData => exact viewed_bind fun _ => rfl

/-- A builder after a call, from the draft after it. -/
theorem perform_of_run {call : Call} {b b' : Builder} {reply : Reply} (h : b.draft.VTablesWritten)
    (hrun : call.run b = .ok (reply, b')) : b.draft.perform call = .ok (reply, b'.draft) := by
  rw [← perform_draft call h, hrun]
  rfl

/-- **A sequence of calls does to the draft what it does to the builder.** -/
theorem run_draft (calls : List Call) {b : Builder} (h : b.draft.VTablesWritten) :
    viewed (runCalls calls b) = b.draft.run calls := by
  induction calls generalizing b with
  | nil => rfl
  | cons call calls ih =>
    refine bind_map_eq (perform_draft call h) fun p hp => ?_
    have hnext := h.perform (perform_of_run h hp)
    exact bind_map_eq (ih hnext) fun _ _ => rfl

/-- A run that goes through takes the draft along. -/
theorem draft_of_run {calls : List Call} {b b' : Builder} {replies : List Reply}
    (h : b.draft.VTablesWritten) (hrun : runCalls calls b = .ok (replies, b')) :
    b.draft.run calls = .ok (replies, b'.draft) := by
  rw [← run_draft calls h, hrun]
  rfl

end Builder

end EnvelopeWire
