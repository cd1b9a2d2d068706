import EnvelopeWire.Proofs.Description.RoundTrip
import EnvelopeWire.Proofs.Tool.Effects
import Mathlib.Data.List.Basic

/-!
# Digits in place of bytes

Where a buffer is asked for, a file may hold its digits instead. The digits are read from the bytes
of the file, without those that are ASCII white space. What is accepted is said here of the text:
`Hex.Spells` says which characters spell which bytes. They are what is left when the characters that
are white space in ASCII are dropped, wherever they stand.

What the tool prints as digits it accepts as digits, so a buffer can be handed on in either form.

* `Hex.decode_filter_eq_ok_iff`: the digits that are accepted.
* `outcome_readBuffer_iff`: the files that are accepted.
* `Invocation.forms_agree`: a buffer that is printed, stored, or printed and read again is the same.
-/

namespace EnvelopeWire

/-! ### Digits -/

namespace Hex

/-- The digits in order, in lower case. -/
def lowerDigits : List Char := "0123456789abcdef".toList

/-- The digits in order, in upper case. -/
def upperDigits : List Char := "0123456789ABCDEF".toList

/-- The number that a character stands for as a digit, in either case. -/
def digitValue? (c : Char) : Option Nat := lowerDigits.idxOf? c <|> upperDigits.idxOf? c

/-- The characters are pairs of digits, the first one of each the high one, that spell the bytes. -/
inductive Spells : List Char → Bytes → Prop
  | nil : Spells [] []
  | pair {high low : Char} {h l : Nat} {chars : List Char} {bytes : Bytes}
    (hhigh : digitValue? high = some h) (hlow : digitValue? low = some l)
    (hrest : Spells chars bytes) : Spells (high :: low :: chars) (UInt8.ofNat (16 * h + l) :: bytes)

/-- The characters that are white space in ASCII: space, tab, line feed, form feed and carriage
return. -/
def asciiSpaces : List Char := [' ', '\t', '\n', '\x0c', '\r']

/-- The text without white space. -/
def withoutSpaces (text : String) : List Char := text.toList.filter (· ∉ asciiSpaces)

/-- What holds of the 128 characters in ASCII holds of each character in ASCII. -/
private theorem of_ascii {P : Char → Prop} (h : ∀ n < 128, P (Char.ofNat n)) {c : Char}
    (hc : c.toNat < 128) : P c := by
  have hchar := h c.toNat hc
  rwa [Char.ofNat_toNat] at hchar

/-- A list of characters that are all in ASCII has no others. -/
private theorem lt_of_mem_of_all {chars : List Char} (hall : chars.all (·.toNat < 128) = true)
    {c : Char} (hc : c ∈ chars) : c.toNat < 128 :=
  of_decide_eq_true (List.all_eq_true.mp hall c hc)

private theorem digitValue?_of_lt {c : Char} (h : c.toNat < 128) :
    digitValue? c = value? (UInt8.ofNat c.toNat) :=
  of_ascii (P := fun c => digitValue? c = value? (UInt8.ofNat c.toNat)) (by decide +kernel) h

private theorem isAsciiSpace_of_lt {c : Char} (h : c.toNat < 128) :
    isAsciiSpace (UInt8.ofNat c.toNat) = decide (c ∈ asciiSpaces) :=
  of_ascii (P := fun c => isAsciiSpace (UInt8.ofNat c.toNat) = decide (c ∈ asciiSpaces))
    (by decide +kernel) h

/-- Only characters in ASCII are digits. -/
private theorem digitValue?_of_le {c : Char} (h : 128 ≤ c.toNat) : digitValue? c = none := by
  have hnot : c ∉ lowerDigits ++ upperDigits :=
    fun hmem => Nat.not_lt.mpr h (lt_of_mem_of_all (by decide) hmem)
  rw [List.mem_append, not_or] at hnot
  rw [digitValue?, List.idxOf?_eq_none_iff.mpr hnot.1, List.idxOf?_eq_none_iff.mpr hnot.2]
  rfl

private theorem value?_of_le {b : UInt8} (h : 128 ≤ b.toNat) : value? b = none := by
  rw [value?, if_neg (by omega), if_neg (by omega), if_neg (by omega)]

/-- The bytes of a character, without white space, are those of the character, unless it is white
space itself. -/
private theorem filter_utf8EncodeChar (c : Char) :
    (String.utf8EncodeChar c).filter (fun b => !isAsciiSpace b)
      = if c ∈ asciiSpaces then [] else String.utf8EncodeChar c := by
  rcases Nat.lt_or_ge c.toNat 128 with hlt | hge
  · rw [utf8EncodeChar_of_lt hlt, List.filter_cons, isAsciiSpace_of_lt hlt]
    by_cases hspace : c ∈ asciiSpaces <;> simp [hspace]
  · have hnot : c ∉ asciiSpaces :=
      fun hmem => Nat.not_lt.mpr hge (lt_of_mem_of_all (by decide) hmem)
    rw [if_neg hnot, List.filter_eq_self]
    intro b hb
    have hle := le_of_mem_utf8EncodeChar hge hb
    have hbytes : ∀ n < 128, isAsciiSpace (UInt8.ofNat (n + 128)) = false := by decide
    have hspace := hbytes (b.toNat - 128) (by have := b.toNat_lt; omega)
    rw [Nat.sub_add_cancel hle, UInt8.ofNat_toNat] at hspace
    rw [hspace]
    rfl

/-- White space is dropped from the bytes of a text as it is from the text. -/
private theorem filter_utf8 (text : String) :
    (utf8 text).filter (fun b => !isAsciiSpace b)
      = (withoutSpaces text).flatMap String.utf8EncodeChar := by
  rw [utf8_eq_flatMap, withoutSpaces, List.filter_flatMap]
  induction text.toList with
  | nil => rfl
  | cons c chars ih =>
    rw [List.flatMap_cons, ih, filter_utf8EncodeChar, List.filter_cons]
    by_cases hspace : c ∈ asciiSpaces <;> simp [hspace]

/-- A pair of digits, and the pairs after it. -/
private theorem decodePairs_cons_eq_ok_iff {position : Nat} {high low : UInt8}
    {rest bytes : Bytes} :
    decodePairs position (high :: low :: rest) = .ok bytes ↔ ∃ h l after, value? high = some h ∧
      value? low = some l ∧ decodePairs (position + 2) rest = .ok after ∧
      UInt8.ofNat (16 * h + l) :: after = bytes := by
  have hvalue {position : Nat} {b : UInt8} {n : Nat} :
      valueAt position b = .ok n ↔ value? b = some n := by
    rw [valueAt]
    cases value? b <;> simp
  simp only [decodePairs, bind_eq_ok_iff, hvalue, pure, Except.pure, Except.ok.injEq]
  constructor
  · rintro ⟨h, hhigh, l, hlow, after, hafter, heq⟩
    exact ⟨h, l, after, hhigh, hlow, hafter, heq⟩
  · rintro ⟨h, l, after, hhigh, hlow, hafter, heq⟩
    exact ⟨h, hhigh, l, hlow, after, hafter, heq⟩

/-- A character that is not in ASCII starts with a byte that is no digit. -/
private theorem exists_value?_eq_none {c : Char} (h : 128 ≤ c.toNat) (chars : List Char) :
    ∃ first second rest, (c :: chars).flatMap String.utf8EncodeChar = first :: second :: rest ∧
      value? first = none := by
  obtain ⟨first, second, rest, henc⟩ := exists_utf8EncodeChar_of_le h
  refine ⟨first, second, rest ++ chars.flatMap String.utf8EncodeChar, ?_, ?_⟩
  · rw [List.flatMap_cons, henc]
    rfl
  · refine value?_of_le (le_of_mem_utf8EncodeChar h ?_)
    rw [henc]
    exact List.mem_cons_self

private theorem flatMap_utf8EncodeChar_of_lt {c : Char} (h : c.toNat < 128) (chars : List Char) :
    (c :: chars).flatMap String.utf8EncodeChar
      = UInt8.ofNat c.toNat :: chars.flatMap String.utf8EncodeChar := by
  rw [List.flatMap_cons, utf8EncodeChar_of_lt h]
  rfl

private theorem spells_cons_iff {high low : Char} {chars : List Char} {bytes : Bytes} :
    Spells (high :: low :: chars) bytes ↔ ∃ h l after, digitValue? high = some h ∧
      digitValue? low = some l ∧ Spells chars after ∧
        UInt8.ofNat (16 * h + l) :: after = bytes := by
  constructor
  · intro hspells
    cases hspells with | pair hhigh hlow hrest => ?_
    exact ⟨_, _, _, hhigh, hlow, hrest, rfl⟩
  · rintro ⟨h, l, after, hhigh, hlow, hrest, rfl⟩
    exact .pair hhigh hlow hrest

/-- The bytes of a text are decoded exactly where the text spells bytes. The characters are taken in
pairs, as `Spells` does; one that is not in ASCII is no digit, and neither is its first byte. -/
private theorem decodePairs_eq_ok_iff : ∀ (position : Nat) (chars : List Char) (bytes : Bytes),
    (chars.flatMap String.utf8EncodeChar).length % 2 = 0 →
      (decodePairs position (chars.flatMap String.utf8EncodeChar) = .ok bytes ↔ Spells chars bytes)
  | position, [], bytes, _ => by
    constructor
    · intro h
      cases h
      exact .nil
    · intro h
      cases h
      rfl
  | position, [c], bytes, heven => by
    rcases Nat.lt_or_ge c.toNat 128 with hlt | hge
    · rw [flatMap_utf8EncodeChar_of_lt hlt] at heven
      cases heven
    · obtain ⟨first, second, rest, hflat, hnone⟩ := exists_value?_eq_none hge []
      rw [hflat, decodePairs_cons_eq_ok_iff]
      constructor
      · rintro ⟨h, -, -, hsome, -⟩
        cases hnone.symm.trans hsome
      · intro h
        cases h
  | position, high :: low :: chars, bytes, heven => by
    rw [spells_cons_iff]
    rcases Nat.lt_or_ge high.toNat 128 with hhigh | hhigh
    · rw [flatMap_utf8EncodeChar_of_lt hhigh] at heven ⊢
      rw [digitValue?_of_lt hhigh]
      rcases Nat.lt_or_ge low.toNat 128 with hlow | hlow
      · rw [flatMap_utf8EncodeChar_of_lt hlow] at heven ⊢
        rw [digitValue?_of_lt hlow]
        have hrest (after : Bytes) := decodePairs_eq_ok_iff (position + 2) chars after (by
          rw [List.length_cons, List.length_cons] at heven
          omega)
        simp only [decodePairs_cons_eq_ok_iff, hrest]
      · obtain ⟨first, second, rest, hflat, hnone⟩ := exists_value?_eq_none hlow chars
        rw [hflat, decodePairs_cons_eq_ok_iff, digitValue?_of_le hlow, hnone]
        simp
    · obtain ⟨first, second, rest, hflat, hnone⟩ := exists_value?_eq_none hhigh (low :: chars)
      rw [hflat, decodePairs_cons_eq_ok_iff, digitValue?_of_le hhigh, hnone]
      simp

private theorem lt_of_digitValue?_eq_some {c : Char} {n : Nat} (h : digitValue? c = some n) :
    c.toNat < 128 := by
  by_contra hge
  rw [digitValue?_of_le (Nat.not_lt.mp hge)] at h
  cases h

/-- A text that spells bytes has an even number of digits, each of them one byte. -/
private theorem Spells.length_mod {chars : List Char} {bytes : Bytes} (h : Spells chars bytes) :
    (chars.flatMap String.utf8EncodeChar).length % 2 = 0 := by
  induction h with
  | nil => rfl
  | pair hhigh hlow hrest ih =>
    rw [flatMap_utf8EncodeChar_of_lt (lt_of_digitValue?_eq_some hhigh),
      flatMap_utf8EncodeChar_of_lt (lt_of_digitValue?_eq_some hlow), List.length_cons,
      List.length_cons]
    omega

/-- **The digits that are accepted** are those that spell bytes when white space is dropped. -/
theorem decode_filter_eq_ok_iff {text : String} {bytes : Bytes} :
    decode ((utf8 text).filter fun b => !isAsciiSpace b) = .ok bytes
      ↔ Spells (withoutSpaces text) bytes := by
  rw [filter_utf8, decode]
  split
  case isTrue heven => exact decodePairs_eq_ok_iff 0 _ bytes heven
  case isFalse hodd =>
    constructor
    · intro h
      cases h
    · intro h
      exact absurd h.length_mod hodd

/-! ### Digits that are printed -/

/-- Each digit that is printed is one of the sixteen. -/
private theorem exists_of_mem_digits {bytes : Bytes} {b : UInt8} (h : b ∈ digits bytes) :
    ∃ n < 16, b = digit n := by
  rw [digits, List.mem_flatMap] at h
  obtain ⟨a, -, hmem⟩ := h
  have ha := a.toNat_lt
  simp only [List.mem_cons, List.not_mem_nil, or_false] at hmem
  rcases hmem with rfl | rfl
  · exact ⟨_, by omega, rfl⟩
  · exact ⟨_, by omega, rfl⟩

/-- The digits that are printed are in ASCII, and none of them is white space. -/
private theorem lt_of_mem_digits {bytes : Bytes} {b : UInt8} (h : b ∈ digits bytes) :
    b.toNat < 128 ∧ isAsciiSpace b = false := by
  have hdigit : ∀ n < 16, (digit n).toNat < 128 ∧ isAsciiSpace (digit n) = false := by decide
  obtain ⟨n, hn, rfl⟩ := exists_of_mem_digits h
  exact hdigit n hn

/-- Digits stand between quotes as they are: none of them needs an escape. -/
private theorem quote_encode (bytes : Bytes) :
    Json.quote (encode bytes) = "\x22" ++ encode bytes ++ "\x22" := by
  have hescape : ∀ n < 16, Json.escape (Char.ofNat (digit n).toNat)
      = [Char.ofNat (digit n).toNat] := by decide
  have hchars : ((digits bytes).map fun b => Char.ofNat b.toNat).flatMap Json.escape
      = (digits bytes).map fun b => Char.ofNat b.toNat := by
    rw [List.flatMap_map, List.map_eq_flatMap]
    refine List.flatMap_congr fun b hb => ?_
    obtain ⟨n, hn, rfl⟩ := exists_of_mem_digits hb
    exact hescape n hn
  rw [Json.quote, encode, String.toList_ofList, hchars, List.cons_append, String.ofList_cons,
    String.ofList_append]
  rfl

/-- The digits that are printed are written as their own bytes. -/
private theorem utf8_encode (bytes : Bytes) : utf8 (encode bytes) = digits bytes := by
  have hself : (digits bytes).flatMap (fun b => [b]) = digits bytes := by
    rw [← List.map_eq_flatMap, List.map_id']
  rw [utf8_eq_flatMap, encode, String.toList_ofList, List.flatMap_map]
  refine (List.flatMap_congr fun b hb => ?_).trans hself
  have hascii := (lt_of_mem_digits hb).1
  have hvalid : ∀ n < 128, (Char.ofNat n).toNat = n := by decide
  have hchar : (Char.ofNat b.toNat).toNat = b.toNat := hvalid _ hascii
  rw [utf8EncodeChar_of_lt (by rw [hchar]; exact hascii), hchar, UInt8.ofNat_toNat]

/-- **What is printed as digits is accepted as digits**, with the end of the line behind them. -/
theorem decode_encode (bytes : Bytes) :
    decode ((utf8 (encode bytes ++ "\n")).filter fun b => !isAsciiSpace b) = .ok bytes := by
  have hdigits : (digits bytes).filter (fun b => !isAsciiSpace b) = digits bytes := by
    rw [List.filter_eq_self]
    intro b hb
    rw [(lt_of_mem_digits hb).2]
    rfl
  have hline : (utf8 "\n").filter (fun b => !isAsciiSpace b) = [] := by decide
  rw [utf8_append, List.filter_append, utf8_encode, hdigits, hline, List.append_nil, decode_digits]

end Hex

/-! ### Buffers in files -/

section Buffers

variable {σ : Type} {fs : FileSystem σ} {s t : σ} {path : String} {bytes : Bytes}

private theorem outcome_readBuffer_raw_iff :
    Job.outcome fs s (readBuffer path false) = (.ok bytes, t) ↔
      fs.read s path = .ok bytes ∧ t = s := by
  change Job.outcome fs s (Job.readBytes _ _) = _ ↔ _
  rw [Job.outcome_readBytes, Prod.mk.injEq, mapError_eq_ok_iff, eq_comm (a := s)]

/-- The buffer in a file of digits. -/
private theorem outcome_readBuffer_hex_iff :
    Job.outcome fs s (readBuffer path true) = (.ok bytes, t) ↔
      (∃ text, fs.read s path = .ok (utf8 text) ∧ Hex.Spells (Hex.withoutSpaces text) bytes) ∧
        t = s := by
  change Job.outcome fs s (Job.readText _ _ >>= fun text => Job.ofExcept _ _) = _ ↔ _
  simp only [Job.outcome_bind_eq_ok_iff, Job.outcome_readText_eq_ok_iff,
    outcome_ofExcept_eq_ok_iff, Hex.decode_filter_eq_ok_iff]
  constructor
  · rintro ⟨text, _, ⟨hread, rfl⟩, hspells, rfl⟩
    exact ⟨⟨text, hread, hspells⟩, rfl⟩
  · rintro ⟨⟨text, hread, hspells⟩, rfl⟩
    exact ⟨text, t, ⟨hread, rfl⟩, hspells, rfl⟩

end Buffers

/-! ### Runs -/

/-- What `encode` prints of a buffer that it stores nowhere: its digits, on a line of their own or
in a field of an object, behind the length of the buffer and the name of no file. -/
def printedBuffer (format : OutputFormat) (bytes : Bytes) : String :=
  match format with
  | .json =>
    "\x7b\n" ++
    "  \x22len\x22: " ++ toString bytes.length ++ ",\n" ++
    "  \x22path\x22: null,\n" ++
    "  \x22hex\x22: \x22" ++ Hex.encode bytes ++ "\x22\n" ++
    "\x7d\n"
  | .text | .hex => Hex.encode bytes ++ "\n"

/-- The summary of a buffer that is stored nowhere, as it is printed. -/
private theorem pretty_encodeSummary (bytes : Bytes) :
    (encodeSummary bytes none).pretty ++ "\n" = printedBuffer .json bytes := by
  have hfront : "\x7b" ++ Json.newline 1 ++ Json.quote "len" ++ ": "
      = "\x7b\n" ++ "  \x22len\x22: " := by decide
  have hmiddle : "," ++ Json.newline 1 ++ Json.quote "path" ++ ": " ++ "null" ++ "," ++
      Json.newline 1 ++ Json.quote "hex" ++ ": " ++ "\x22"
      = ",\n" ++ "  \x22path\x22: null,\n" ++ "  \x22hex\x22: \x22" := by decide
  have hback : "\x22" ++ Json.newline 0 ++ "\x7d" ++ "\n" = "\x22\n" ++ "\x7d\n" := by decide
  calc (encodeSummary bytes none).pretty ++ "\n"
      = "\x7b" ++ Json.newline 1 ++ Json.quote "len" ++ ": " ++ toString bytes.length ++
          ("," ++ Json.newline 1 ++ Json.quote "path" ++ ": " ++ "null" ++ "," ++
            Json.newline 1 ++ Json.quote "hex" ++ ": " ++ "\x22") ++
          Hex.encode bytes ++ ("\x22" ++ Json.newline 0 ++ "\x7d" ++ "\n") := by
        have hlength : toString (bytes.length : Int) = toString bytes.length := rfl
        simp only [encodeSummary, Json.pretty, Json.prettyAt, Json.prettyFields, Json.ofOption,
          Json.ofNat, Option.isSome_none, Bool.false_eq_true, if_false, Hex.quote_encode, hlength,
          String.append_assoc, String.append_empty]
    _ = printedBuffer .json bytes := by
        rw [hfront, hmiddle, hback]
        simp only [printedBuffer, String.append_assoc]

namespace Invocation

/-- The description in `input` encodes to `bytes`, and whether these are handed on as bytes or as
digits makes no difference. -/
structure FormsAgree {σ : Type} (fs : FileSystem σ) (s : σ) (config : Option String)
    (settings : Settings) (input : String) (bytes : Bytes) : Prop where
  printed : ∀ i : Invocation, i.config = config → i.command = .encode input none →
    i.quiet = false →
      i.task.runOn fs s = (.ok (printedBuffer (i.outputFormat settings) bytes), s)
  stored : ∀ (i : Invocation) (output : String) (s' : σ), i.config = config →
    i.command = .encode input (some output) → fs.write s output bytes = .ok s' →
      (∃ text, i.task.runOn fs s = (.ok text, s')) ∧ (fs.Lawful → fs.read s' output = .ok bytes)
  /-- At any later time, with any settings, `file` holding the bytes and `digits` the line that was
  printed. -/
  inspected : ∀ (i : Invocation) (t : σ) (settings' : Settings) (file digits : String),
    i.command = .inspect file false → fs.Configures t i.config settings' →
    fs.read t file = .ok bytes → fs.read t digits = .ok (utf8 (Hex.encode bytes ++ "\n")) →
      ∃ report, Report.ofBuffer bytes = .ok report ∧
        i.task.runOn fs t
          = (.ok (i.printed (inspectOutput (i.outputFormat settings') bytes report)), t) ∧
        { i with command := .inspect digits true }.task.runOn fs t = i.task.runOn fs t

section Runs

variable {σ : Type} {fs : FileSystem σ} {s t : σ} {i : Invocation} {settings : Settings}
  {input file : String} {bytes : Bytes}

private theorem runOn_encode (hconfig : fs.Configures s i.config settings)
    (hbytes : fs.Encodes s settings.builder input bytes) (hcommand : i.command = .encode input none)
    (hquiet : i.quiet = false) :
    i.task.runOn fs s = (.ok (printedBuffer (i.outputFormat settings) bytes), s) := by
  refine outcome_job_eq_ok_iff.mpr
    ⟨settings, encodeOutput (i.outputFormat settings) bytes none, hconfig, ?_, ?_⟩
  · rw [perform_encode hcommand, Job.outcome_bind_eq_ok_iff]
    exact ⟨bytes, s, outcome_encodeFile_eq_ok_iff.mpr ⟨hbytes, rfl⟩, rfl⟩
  · rw [Invocation.printed, hquiet]
    cases i.outputFormat settings with
    | json => simp [encodeOutput, String.join, pretty_encodeSummary]
    | text | hex => simp [printedBuffer, encodeOutput, String.join]

private theorem runOn_encode_to {output : String} (hconfig : fs.Configures s i.config settings)
    (hbytes : fs.Encodes s settings.builder input bytes)
    (hcommand : i.command = .encode input (some output))
    (hwrite : fs.write s output bytes = .ok t) :
    i.task.runOn fs s
      = (.ok (i.printed (encodeOutput (i.outputFormat settings) bytes (some output))), t) := by
  refine outcome_job_eq_ok_iff.mpr ⟨settings, _, hconfig, ?_, rfl⟩
  exact (outcome_perform_encode_to_iff hcommand).mpr ⟨bytes, hbytes, hwrite, rfl⟩

/-- A buffer is inspected in the same way in whatever form it is read. -/
private theorem runOn_inspect {hexInput : Bool} {report : Report}
    (hconfig : fs.Configures s i.config settings) (hcommand : i.command = .inspect file hexInput)
    (hbytes : Job.outcome fs s (readBuffer file hexInput) = (.ok bytes, s))
    (hreport : Report.ofBuffer bytes = .ok report) :
    i.task.runOn fs s
      = (.ok (i.printed (inspectOutput (i.outputFormat settings) bytes report)), s) := by
  refine outcome_job_eq_ok_iff.mpr ⟨settings, _, hconfig, ?_, rfl⟩
  rw [perform_inspect hcommand, Job.outcome_bind_eq_ok_iff]
  refine ⟨bytes, s, hbytes, ?_⟩
  rw [hreport]
  rfl

private theorem formsAgree {config : Option String} (hconfig : fs.Configures s config settings)
    (hbytes : fs.Encodes s settings.builder input bytes) :
    FormsAgree fs s config settings input bytes where
  printed := by
    rintro i rfl hcommand hquiet
    exact runOn_encode hconfig hbytes hcommand hquiet
  stored := by
    rintro i output s' rfl hcommand hwrite
    exact ⟨⟨_, runOn_encode_to hconfig hbytes hcommand hwrite⟩,
      fun hlawful => hlawful s output bytes s' hwrite⟩
  inspected := by
    intro i t settings' file digits hcommand hsettings hfile hdigits
    -- What a description encodes to is an envelope, so there is a report.
    obtain ⟨text, description, -, -, hencode⟩ := hbytes
    have hreported := description.report_of_encode settings.builder
    rw [hencode] at hreported
    obtain ⟨-, report, hreport, -⟩ := hreported
    have hraw : Job.outcome fs t (readBuffer file false) = (.ok bytes, t) :=
      outcome_readBuffer_raw_iff.mpr ⟨hfile, rfl⟩
    have hhex : Job.outcome fs t (readBuffer digits true) = (.ok bytes, t) :=
      outcome_readBuffer_hex_iff.mpr
        ⟨⟨_, hdigits, Hex.decode_filter_eq_ok_iff.mp (Hex.decode_encode bytes)⟩, rfl⟩
    have hrun := runOn_inspect hsettings hcommand hraw hreport
    refine ⟨report, hreport, hrun, ?_⟩
    rw [hrun]
    exact runOn_inspect (i := { i with command := .inspect digits true }) hsettings rfl hhex hreport

end Runs

/-- **Bytes and digits agree.** What a description encodes to is printed, stored and inspected as
the same buffer. A file of digits holds a buffer exactly where it is text in UTF-8 that spells the
buffer when white space is dropped, and every other file is refused. The files of a directory are a
lawful file system. -/
theorem forms_agree :
    (∀ (σ : Type) (fs : FileSystem σ) (s : σ) (config : Option String) (settings : Settings)
        (input : String) (bytes : Bytes), fs.Configures s config settings →
      fs.Encodes s settings.builder input bytes → FormsAgree fs s config settings input bytes) ∧
    (∀ (σ : Type) (fs : FileSystem σ) (s : σ) (path : String),
      (∀ bytes, Job.outcome fs s (readBuffer path true) = (.ok bytes, s) ↔ ∃ text,
        fs.read s path = .ok (utf8 text) ∧ Hex.Spells (Hex.withoutSpaces text) bytes) ∧
      ((∃ bytes, Job.outcome fs s (readBuffer path true) = (.ok bytes, s)) ∨
        ∃ e, Job.outcome fs s (readBuffer path true) = (.error e, s))) ∧
    Directory.fileSystem.Lawful := by
  refine ⟨fun σ fs s config settings input bytes => formsAgree, fun σ fs s path => ⟨?_, ?_⟩,
    Directory.lawful⟩
  · intro bytes
    rw [outcome_readBuffer_hex_iff]
    exact and_iff_left rfl
  · cases houtcome : Job.outcome fs s (readBuffer path true) with | mk result t => ?_
    obtain rfl := (reads_readBuffer path true).eq_of_outcome houtcome
    cases result with
    | ok bytes => exact .inl ⟨bytes, rfl⟩
    | error e => exact .inr ⟨e, rfl⟩

/-- The buffer that the description `id = 7` encodes to. -/
def seven : Bytes :=
  [16, 0, 0, 0, 12, 0, 8, 0, 0, 0, 0, 0, 0, 0, 4, 0, 12, 0, 0, 0, 7, 0, 0, 0]

/-- A description, and its buffer in both forms. -/
def handedOn : Directory :=
  [(["in.toml"], utf8 "id = 7"), (["buffer"], seven), (["line"], utf8 (Hex.encode seven ++ "\n"))]

/-- Performs a command with the default settings. -/
def plainly (command : Command) : Invocation where
  config := none
  json := false
  quiet := false
  format := none
  command := command

theorem forms_agree_seven :
    (plainly (.encode "in.toml" none)).task.run handedOn
        = (.ok "100000000c00080000000000000004000c00000007000000\n", handedOn) ∧
      { plainly (.encode "in.toml" none) with json := true }.task.run handedOn
        = (.ok ("\x7b\n  \x22len\x22: 24,\n  \x22path\x22: null,\n  \x22hex\x22: \x22" ++
            "100000000c00080000000000000004000c00000007000000" ++ "\x22\n\x7d\n"), handedOn) ∧
      (plainly (.inspect "line" true)).task.run handedOn
        = (plainly (.inspect "buffer" false)).task.run handedOn := by
  have hbytes : Directory.fileSystem.Encodes handedOn ({} : Settings).builder "in.toml" seven :=
    ⟨"id = 7", { id := 7, destination := none, content := none },
      toOption_eq_some_iff.mp (by decide +kernel), toOption_eq_some_iff.mp (by decide +kernel),
      toOption_eq_some_iff.mp (by decide +kernel)⟩
  have hagree := forms_agree.1 _ Directory.fileSystem handedOn none {} "in.toml" seven rfl hbytes
  rw [Task.run_eq_runOn, Task.run_eq_runOn, Task.run_eq_runOn, Task.run_eq_runOn]
  refine ⟨?_, ?_, ?_⟩
  · have hline : printedBuffer ((plainly (.encode "in.toml" none)).outputFormat {}) seven
        = "100000000c00080000000000000004000c00000007000000\n" := by decide +kernel
    rw [hagree.printed (plainly (.encode "in.toml" none)) rfl rfl rfl, hline]
  · have hobject : printedBuffer .json seven
        = "\x7b\n  \x22len\x22: 24,\n  \x22path\x22: null,\n  \x22hex\x22: \x22" ++
          "100000000c00080000000000000004000c00000007000000" ++ "\x22\n\x7d\n" := by decide +kernel
    rw [← hobject]
    exact hagree.printed { plainly (.encode "in.toml" none) with json := true } rfl rfl rfl
  · obtain ⟨report, -, -, hsame⟩ := hagree.inspected (plainly (.inspect "buffer" false)) handedOn {}
      "buffer" "line" rfl rfl (toOption_eq_some_iff.mp (by decide +kernel))
      (toOption_eq_some_iff.mp (by decide +kernel))
    exact hsame

end Invocation

end EnvelopeWire
