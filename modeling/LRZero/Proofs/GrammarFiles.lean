import LRZero.GrammarFile
import LRZero.Proofs.WordsAndLines

/-!
# Reading a file is reading its text

The characters of a text are found again from their bytes, and other bytes are
refused (`decode_utf8Encode`, `exists_decode_eq_error_iff`).  That line ends of
a file become line feeds is not seen by the reader: where a carriage return ends
a line, so does the line feed in its place, and a line feed behind it belongs to
it (`lines_normalizeLineEnds`).  Reading goes by the lines alone.

Main statement: `readBytes_text`.
-/

namespace LRZero

namespace Text

/-! ## Bytes -/

theorem decode_utf8Encode (cs : List Char) : decode cs.utf8Encode = .ok (String.ofList cs) := by
  have hvalid : cs.utf8Encode.IsValidUTF8 := ⟨cs, rfl⟩
  have htext : String.fromUTF8 cs.utf8Encode hvalid = String.ofList cs :=
    String.toByteArray_inj.mp String.toByteArray_ofList.symm
  rw [decode, String.fromUTF8?, dif_pos hvalid, htext]

/-- Exactly the bytes of no text are refused. -/
theorem exists_decode_eq_error_iff {bytes : ByteArray} :
    (∃ e, decode bytes = .error e) ↔ ¬ ∃ cs : List Char, bytes = cs.utf8Encode := by
  constructor
  · rintro ⟨e, he⟩ ⟨cs, rfl⟩
    rw [decode_utf8Encode] at he
    cases he
  · intro h
    have hinvalid : ¬ bytes.IsValidUTF8 := fun ⟨cs, hcs⟩ => h ⟨cs, hcs⟩
    rw [decode, String.fromUTF8?, dif_neg hinvalid]
    exact ⟨_, rfl⟩

/-! ## Line ends -/

/-- Line feeds for the line ends of a file leave the lines as they are. -/
theorem linesFrom_plainEnds (line cs : List Char) :
    linesFrom line (plainEnds cs) = linesFrom line cs := by
  induction cs using plainEnds.induct generalizing line with
  | case1 => rfl
  | case2 rest ih => rw [plainEnds.eq_2, linesFrom_newline, linesFrom.eq_2, ih]
  | case3 c rest hpair ih =>
    rw [plainEnds.eq_3 _ _ hpair, linesFrom.eq_3 _ _ _ hpair]
    by_cases hreturn : c = '\r'
    · have hend : isLineEnd c := by rw [hreturn]; rfl
      rw [if_pos hreturn, if_pos hend, linesFrom_newline, ih]
    · rw [if_neg hreturn, linesFrom.eq_3 _ _ _ fun _ hc => absurd hc hreturn, ih, ih]

theorem lines_normalizeLineEnds (s : String) : lines (normalizeLineEnds s) = lines s := by
  rw [lines, normalizeLineEnds, String.toList_ofList, linesFrom_plainEnds, lines]

end Text

/-! ## Files -/

/-- Reading goes by the lines of a text alone. -/
theorem read_congr (strict : Bool) {s t : String} (h : Text.lines s = Text.lines t) :
    read strict s = read strict t := by
  have hreading : Reading.ofText strict s = Reading.ofText strict t := by
    rw [Reading.ofText, Reading.ofText, h]
  rw [read, read, hreading]

theorem readBytes_utf8Encode (strict : Bool) (cs : List Char) :
    readBytes strict cs.utf8Encode = .ok (read strict (String.ofList cs)) := by
  rw [readBytes, Text.decode_utf8Encode]
  exact congrArg Except.ok (read_congr strict (Text.lines_normalizeLineEnds _))

theorem exists_readBytes_eq_error_iff {strict : Bool} {bytes : ByteArray} :
    (∃ e, readBytes strict bytes = .error e) ↔ ¬ ∃ cs : List Char, bytes = cs.utf8Encode := by
  rw [← Text.exists_decode_eq_error_iff, readBytes]
  cases Text.decode bytes with
  | ok text => simp [Except.map]
  | error e => simp [Except.map]

theorem exists_utf8Encode {strict : Bool} {bytes : ByteArray} {outcome : ReadOutcome}
    (h : readBytes strict bytes = .ok outcome) : ∃ cs : List Char, bytes = cs.utf8Encode := by
  refine Classical.byContradiction fun hbytes => ?_
  obtain ⟨e, he⟩ := exists_readBytes_eq_error_iff.mpr hbytes
  cases h.symm.trans he

/-- What is read from a file is read from some text. -/
theorem exists_eq_read {strict : Bool} {bytes : ByteArray} {outcome : ReadOutcome}
    (h : readBytes strict bytes = .ok outcome) : ∃ text, outcome = read strict text := by
  rw [readBytes] at h
  cases hdecode : Text.decode bytes with
  | ok text =>
    rw [hdecode] at h
    exact ⟨_, (Except.ok.inj h).symm⟩
  | error e =>
    rw [hdecode] at h
    cases h

/-- A file that holds the bytes of a text is read as the text, with the same
result and the same log.  Bytes of no text are refused with nothing read. -/
theorem readBytes_text (strict : Bool) :
    (∀ cs : List Char, readBytes strict cs.utf8Encode = .ok (read strict (String.ofList cs))) ∧
      ∀ bytes : ByteArray, (∃ e, readBytes strict bytes = .error e) ↔
        ¬ ∃ cs : List Char, bytes = cs.utf8Encode :=
  ⟨readBytes_utf8Encode strict, fun _ => exists_readBytes_eq_error_iff⟩

end LRZero
