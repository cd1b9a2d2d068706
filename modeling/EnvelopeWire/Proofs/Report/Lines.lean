import EnvelopeWire.Proofs.Report.Findings
import EnvelopeWire.Proofs.Text.Quoted
import EnvelopeWire.Tool.Run

/-!
# What can be told from the lines of a report

The target of a destination, the category and the reason of an error are text from a buffer, so
anyone can have chosen it. No such text adds a line to a report, breaks one or hides part of it, and
none makes a line look like one for something else: from the line of a destination one can tell the
byte of its kind and its target, from the line of an error its code, its category and its reason.
Only a text that is absent looks like one that is empty.

* `destinationLine_inj`, `ContentReport.line_error_inj`: what is told from a line.
* `Report.lines_tell`: the lines of the reports on buffers, alone and as they are printed.
-/

namespace EnvelopeWire

/-! ### Shown text -/

namespace Text

private theorem shown_toString {s : String} : Shown (toString s) ↔ Shown s := Iff.rfl

private theorem shown_blanks (n : Nat) : Shown (String.ofList (List.replicate n ' ')) := by
  rw [shown_ofList]
  rintro c hc
  rw [List.eq_of_mem_replicate hc]
  decide

/-- Blanks behind a text are shown. -/
@[simp]
theorem shown_padRight {width : Nat} {s : String} : Shown (padRight width s) ↔ Shown s := by
  rw [padRight, shown_append]
  exact and_iff_left (shown_blanks _)

@[simp]
theorem shown_padLeft {width : Nat} {s : String} : Shown (padLeft width s) ↔ Shown s := by
  rw [padLeft, shown_append]
  exact and_iff_right (shown_blanks _)

end Text

open Text

/-- The wording of an error is shown: it holds nothing of the buffer but numbers. -/
private theorem WireError.shown_message (e : WireError) : Shown e.message := by
  have hdefect (d : VTableDefect) : Shown d.message := by cases d <;> decide
  unfold message
  cases e <;> simp only [shown_append, shown_toString, shown_nat, hdefect, and_true]
    <;> decide

private theorem EnvelopeError.shown_message (e : EnvelopeError) : Shown e.message := by
  unfold message
  cases e with
  | wire e => exact e.shown_message
  | untaggedContent => decide
  | reservedContentTag => decide
  | _ => simp only [shown_append, shown_toString, shown_byte, and_true]; decide

private theorem DestinationKind.shown_name (kind : DestinationKind) : Shown kind.name := by
  cases kind <;> decide

/-- The target of a destination is quoted, so the line is shown whatever it is. -/
private theorem shown_destinationLine (r : Option DestinationReport) :
    Shown (destinationLine r) := by
  unfold destinationLine DestinationReport.kindText
  rcases r with _ | ⟨_ | kind, kindByte, target⟩
  · decide
  · simp only [shown_append, shown_byte, shown_quoted, and_true]
    decide
  · simp only [shown_append, kind.shown_name, shown_quoted, and_true]
    decide

/-- The texts of an error record are quoted, so the line is shown whatever they are. -/
private theorem ContentReport.shown_line (r : ContentReport) : Shown r.line := by
  unfold line
  cases r with
  | error => simp only [shown_append, shown_nat, shown_quoted, and_true]; decide
  | other => simp only [shown_append, shown_byte, shown_nat, and_true]; decide
  | invalid e => simp only [shown_append, e.shown_message, and_true]; decide
  | _ => decide

private theorem shown_slotName (slot : UInt16) : Shown (slotName slot) := by
  rw [slotName]
  split <;> decide

private theorem SlotReport.shown_line (entry : UInt16 × UInt16) : Shown (ofEntry entry).line := by
  unfold line
  simp only [ofEntry, shown_append, shown_nat, shown_padRight, shown_padLeft, shown_slotName,
    and_true]
  decide

/-- No line of the report on a buffer has a control character. -/
private theorem Report.shown_of_mem_lines {r : Report} {v : VTable}
    (hvtable : r.vtable = .ofVTable v) :
    ∀ line ∈ r.lines, Shown line := by
  have hslots : ∀ line ∈ r.vtable.slots.map SlotReport.line, Shown line := by
    rw [hvtable]
    intro line hline
    simp only [VTableReport.ofVTable, List.mem_map] at hline
    obtain ⟨-, ⟨entry, -, rfl⟩, rfl⟩ := hline
    exact SlotReport.shown_line entry
  unfold lines
  simp only [List.forall_mem_append, List.forall_mem_cons, List.not_mem_nil, false_implies,
    implies_true, and_true, shown_append, shown_nat, shown_int, shown_destinationLine,
    ContentReport.shown_line]
  exact ⟨⟨by decide, hslots⟩, by decide⟩

/-! ### What a line tells -/

/-- A number has no blank in it. -/
private theorem notMem_space_nat (n : Nat) : ' ' ∉ (toString n).toList := by
  rw [Nat.toString_eq_ofList_toDigits, String.toList_ofList]
  intro hmem
  obtain ⟨digit, hdigit, heq⟩ := exists_digit_of_mem_toDigits (by decide) hmem
  have hne : ∀ d < 10, ' ' ≠ Nat.digitChar d := by decide
  exact hne digit hdigit heq

/-- Different numbers are written differently. -/
private theorem toString_nat_inj {m n : Nat} (h : toString m = toString n) : m = n := by
  rw [Nat.toString_eq_ofList_toDigits, Nat.toString_eq_ofList_toDigits] at h
  exact toDigits_inj (by decide) (by decide) (String.ofList_injective h)

/-- A blank ends the first part of a text, if the part does not hold it. -/
private theorem append_space_inj {s s' t t' : String} (hs : ' ' ∉ s.toList) (hs' : ' ' ∉ s'.toList)
    (h : s ++ (" " ++ t) = s' ++ (" " ++ t')) : s = s' ∧ t = t' := by
  have hchars := congrArg String.toList h
  simp only [String.toList_append] at hchars
  obtain ⟨hfirst, hrest⟩ := append_cons_inj_of_notMem hs hs' hchars
  exact ⟨String.toList_inj.mp hfirst, String.toList_inj.mp hrest⟩

/-- **The line of an error tells its code, its category and its reason.** -/
theorem ContentReport.line_error_inj {code code' : UInt16}
    {category category' reason reason' : Option String}
    (h : (error code category reason).line = (error code' category' reason').line) :
    code = code' ∧ category.getD "" = category'.getD "" ∧ reason.getD "" = reason'.getD "" := by
  unfold line at h
  have hcategory : " category=" = " " ++ "category=" := by decide
  simp only [hcategory, String.append_assoc, String.append_right_inj] at h
  obtain ⟨hcode, htexts⟩ := append_space_inj (notMem_space_nat _) (notMem_space_nat _) h
  rw [String.append_right_inj] at htexts
  obtain ⟨hcategories, hreasons⟩ := quoted_append_inj htexts
  rw [String.append_right_inj] at hreasons
  exact ⟨UInt16.toNat_inj.mp (toString_nat_inj hcode), hcategories, quoted_inj hreasons⟩

/-- The word for the kind of a destination with the byte `byte`. -/
private def kindWord (byte : UInt8) : String :=
  match (DestinationKind.ofByte byte).toOption with
  | some kind => kind.name
  | none => "0x" ++ Hex.byte byte

/-- The word is a name, or starts as no name does. -/
private theorem kindWord_cases (byte : UInt8) :
    byte = 0 ∧ kindWord byte = "module" ∨ byte = 1 ∧ kindWord byte = "topic" ∨
      kindWord byte = "0x" ++ Hex.byte byte := by
  by_cases hmodule : byte = 0
  · subst hmodule
    exact .inl ⟨rfl, rfl⟩
  · by_cases htopic : byte = 1
    · subst htopic
      exact .inr (.inl ⟨rfl, rfl⟩)
    · rw [kindWord, DestinationKind.ofByte, if_neg hmodule, if_neg htopic]
      exact .inr (.inr rfl)

private theorem notMem_space_kindWord (byte : UInt8) : ' ' ∉ (kindWord byte).toList := by
  rcases kindWord_cases byte with ⟨-, h⟩ | ⟨-, h⟩ | h
  · rw [h]
    decide
  · rw [h]
    decide
  · rw [h, String.toList_append, List.mem_append, not_or]
    refine ⟨by decide, fun hmem => ?_⟩
    obtain ⟨n, hn, heq⟩ := exists_digit_of_mem_byte hmem
    have hne : ∀ n < 16, ' ' ≠ Char.ofNat (Hex.digit n).toNat := by decide
    exact hne n hn heq

/-- The kinds of destinations have different words. -/
private theorem kindWord_inj {byte byte' : UInt8} (h : kindWord byte = kindWord byte') :
    byte = byte' := by
  have hname : "module" ≠ "topic" := by decide
  have hnumber (s : String) : "module" ≠ "0x" ++ s ∧ "topic" ≠ "0x" ++ s := by
    have hhead : ("0x" ++ s).toList.head? = some '0' := by
      rw [String.toList_append]
      rfl
    constructor <;> intro heq <;> rw [← heq] at hhead <;> exact absurd hhead (by decide)
  rcases kindWord_cases byte with ⟨rfl, hword⟩ | ⟨rfl, hword⟩ | hword <;>
    rcases kindWord_cases byte' with ⟨rfl, hword'⟩ | ⟨rfl, hword'⟩ | hword' <;>
    have heq := hword.symm.trans (h.trans hword')
  · rfl
  · exact absurd heq hname
  · exact absurd heq (hnumber _).1
  · exact absurd heq hname.symm
  · rfl
  · exact absurd heq (hnumber _).2
  · exact absurd heq.symm (hnumber _).1
  · exact absurd heq.symm (hnumber _).2
  · exact byte_inj ((String.append_right_inj _).mp heq)

/-- **The line of a destination tells the byte of its kind and its target**, and that there is a
destination. -/
theorem destinationLine_inj {d d' : Option Destination}
    (h : destinationLine (d.map .ofDestination) = destinationLine (d'.map .ofDestination)) :
    d.map (fun d => (d.kindByte, d.target.getD ""))
      = d'.map fun d => (d.kindByte, d.target.getD "") := by
  have hprefix : "destination: none" = "destination: " ++ "none" := by decide
  have hnone {s t : String} (h : "none" = s ++ (" " ++ t)) : False := by
    have hmem : ' ' ∈ (s ++ (" " ++ t)).toList := by simp
    rw [← h] at hmem
    exact absurd hmem (by decide)
  unfold destinationLine at h
  rcases d with _ | d <;> rcases d' with _ | d' <;>
    simp only [Option.map_none, Option.map_some, hprefix, String.append_assoc,
      String.append_right_inj] at h
  · rfl
  · exact (hnone h).elim
  · exact (hnone h.symm).elim
  · obtain ⟨hword, htarget⟩ :=
      append_space_inj (notMem_space_kindWord _) (notMem_space_kindWord _) h
    have htext : d.target.getD "" = d'.target.getD "" := quoted_inj htarget
    rw [Option.map_some, Option.map_some, kindWord_inj hword, htext]

/-! ### Lines that are printed -/

/-- A text that is shown has no line break in it. -/
private theorem notMem_newline_of_shown {s : String} (h : Shown s) : '\n' ∉ s.toList :=
  fun hmem => h _ hmem (by decide)

/-- Lines are told apart where they are printed. -/
private theorem join_lines_inj {lines lines' : List String} (h : ∀ line ∈ lines, Shown line)
    (h' : ∀ line ∈ lines', Shown line)
    (heq : String.join (lines.map (· ++ "\n")) = String.join (lines'.map (· ++ "\n"))) :
    lines = lines' := by
  have hchars := congrArg String.toList heq
  clear heq
  have hne (line : String) (rest : List Char) : [] ≠ (line ++ "\n").toList ++ rest := by
    rw [String.toList_append]
    simp
  rw [String.toList_join, String.toList_join] at hchars
  induction lines generalizing lines' with
  | nil =>
    rcases lines' with _ | ⟨line', lines'⟩
    · rfl
    · exact absurd hchars (hne _ _)
  | cons line lines ih =>
    rcases lines' with _ | ⟨line', lines'⟩
    · exact absurd hchars.symm (hne _ _)
    · rw [List.forall_mem_cons] at h h'
      simp only [List.map_cons, List.flatMap_cons, String.toList_append, List.append_assoc]
        at hchars
      obtain ⟨hline, hrest⟩ := append_cons_inj_of_notMem (notMem_newline_of_shown h.1)
        (notMem_newline_of_shown h'.1) hchars
      rw [String.toList_inj.mp hline, ih h.2 h'.2 hrest]

/-! ### Reports -/

/-- How a report is laid out in lines: one for each slot and six more, all of them free of control
characters, with those for the destination and the content at their places. -/
structure Report.InLines (r : Report) : Prop where
  length : r.lines.length = r.vtable.slots.length + 6
  shown : ∀ line ∈ r.lines, Shown line
  destination : r.lines[r.vtable.slots.length + 2]? = some (destinationLine r.destination)
  content : r.lines[r.vtable.slots.length + 4]? = some r.content.line

/-- What the lines of two reports tell of their contents. -/
structure Report.TellApart (r r' : Report) : Prop where
  destination : destinationLine r.destination = destinationLine r'.destination →
    r.destination.map (fun d => (d.kindByte, d.target.getD ""))
      = r'.destination.map fun d => (d.kindByte, d.target.getD "")
  content : ∀ code category reason code' category' reason',
    r.content = .error code category reason → r'.content = .error code' category' reason' →
      r.content.line = r'.content.line →
        code = code' ∧ category.getD "" = category'.getD "" ∧ reason.getD "" = reason'.getD ""
  printed : ∀ i : Invocation, i.quiet = false → i.printed r.lines = i.printed r'.lines →
    r.lines = r'.lines

/-- A report is its lines in order, each of them shown. -/
private theorem Report.inLines {r : Report} {v : VTable} (hvtable : r.vtable = .ofVTable v) :
    r.InLines := by
  obtain ⟨above, habove, hlines⟩ : ∃ above : List String,
      above.length = r.vtable.slots.length + 2 ∧
        r.lines = above ++ [destinationLine r.destination,
          "content_type: " ++ toString r.contentType.toNat, r.content.line,
          "id: " ++ toString r.id.toInt] := by
    refine ⟨_, ?_, rfl⟩
    rw [List.length_append, List.length_map]
    exact Nat.add_comm 2 _
  refine ⟨?_, shown_of_mem_lines hvtable, ?_, ?_⟩
  · rw [hlines, List.length_append, habove]
    rfl
  · rw [hlines, ← habove, List.getElem?_append_right (Nat.le_refl _), Nat.sub_self]
    rfl
  · have hplace : r.vtable.slots.length + 4 = above.length + 2 := by rw [habove]
    rw [hlines, hplace, List.getElem?_append_right (Nat.le_add_right _ 2), Nat.add_sub_cancel_left]
    rfl

/-- **No content of a buffer can forge the report on it.** A report has one line for each slot and
six more, none with a control character, so that also what is printed is those lines and no others.
The line of a destination tells the byte of its kind and its target, that of an error its code, its
category and its reason, where what is absent reads as empty. -/
theorem Report.lines_tell :
    (∀ b r, ofBuffer b = .ok r → r.InLines) ∧
      ∀ b b' r r', ofBuffer b = .ok r → ofBuffer b' = .ok r' → r.TellApart r' := by
  refine ⟨fun b r hr => ?_, fun b b' r r' hr hr' => ?_⟩
  · obtain ⟨e, v, content, -, -, -, -, rfl⟩ := eq_ofEnvelope_of_ofBuffer hr
    exact inLines rfl
  · obtain ⟨e, v, content, -, -, -, -, rfl⟩ := eq_ofEnvelope_of_ofBuffer hr
    obtain ⟨e', v', content', -, -, -, -, rfl⟩ := eq_ofEnvelope_of_ofBuffer hr'
    refine ⟨fun hline => ?_, fun code category reason code' category' reason' hc hc' hline => ?_,
      fun i hi hprinted => ?_⟩
    · have htold := destinationLine_inj hline
      simp only [ofEnvelope, Option.map_map]
      exact htold
    · rw [hc, hc'] at hline
      exact ContentReport.line_error_inj hline
    · rw [Invocation.printed, Invocation.printed, hi] at hprinted
      exact join_lines_inj (inLines rfl).shown (inLines rfl).shown hprinted

/-- An envelope with an error that has the code 1: the table of the error lies at 48, its category
`category` bytes behind 56, and its reason at 68. -/
def errorSaying (category : UInt8) (texts : Bytes) : Bytes :=
  [20, 0, 0, 0, 0, 0, 0, 0, 0, 0, 10, 0, 12, 0, 0, 0, 7, 0, 8, 0, 10, 0, 0, 0, 0, 0, 0, 2, 20, 0, 0,
    0, 0, 0, 0, 0, 0, 0, 10, 0, 16, 0, 6, 0, 8, 0, 12, 0, 10, 0, 0, 0, 0, 0, 1, 0, category, 0, 0,
    0, 8, 0, 0, 0, 0, 0, 0, 0] ++ texts

/-- The category has quotes in it, so that it holds what looks like the start of the reason. -/
def quotesInCategory : Bytes :=
  errorSaying 20 ([1, 0, 0, 0, 99, 0, 0, 0, 12, 0, 0, 0] ++ utf8 "a\" reason=\"b" ++ [0, 0, 0, 0])

/-- The reason has the quotes. Without escapes the two would read alike. -/
def quotesInReason : Bytes :=
  errorSaying 32
    ([12, 0, 0, 0] ++ utf8 "b\" reason=\"c" ++ [0, 0, 0, 0, 1, 0, 0, 0, 97, 0, 0, 0])

theorem Report.lines_tell_quotes : ∃ r r', ofBuffer quotesInCategory = .ok r ∧
    ofBuffer quotesInReason = .ok r' ∧
      r.content = .error 1 (some "a\" reason=\"b") (some "c") ∧
      r'.content = .error 1 (some "a") (some "b\" reason=\"c") ∧
      r.content.line ≠ r'.content.line ∧ r.lines.length = 8 ∧ ∀ line ∈ r.lines, Shown line := by
  obtain ⟨r, hr, hcontent⟩ := exists_ok_of_any (x := ofBuffer quotesInCategory)
    (p := fun r => r.content == .error 1 (some "a\" reason=\"b") (some "c") &&
      r.vtable.slots.length == 2) (by decide)
  obtain ⟨r', hr', hcontent'⟩ := exists_ok_of_any (x := ofBuffer quotesInReason)
    (p := fun r => r.content == .error 1 (some "a") (some "b\" reason=\"c")) (by decide)
  rw [Bool.and_eq_true] at hcontent
  have hc := eq_of_beq hcontent.1
  have hc' := eq_of_beq hcontent'
  have hin := lines_tell.1 _ r hr
  refine ⟨r, r', hr, hr', hc, hc', fun hline => ?_, ?_, hin.shown⟩
  · obtain ⟨-, hcategory, -⟩ :=
      (lines_tell.2 _ _ r r' hr hr').content _ _ _ _ _ _ hc hc' hline
    exact absurd hcategory (by decide)
  · rw [hin.length, eq_of_beq hcontent.2]

end EnvelopeWire
