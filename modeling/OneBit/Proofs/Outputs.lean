import OneBit.Proofs.Assembler
import OneBit.Proofs.Text.Padded
/-!
# One program in four outputs

An assembler puts its program out as an image, as two dumps and as a listing.  All four spell the
same bits, in bytes, in columns of three hexadecimal digits and in rows of three binary fields, so
each of them tells two programs apart.
-/

namespace OneBit

open Text Bit Grammar

/-! ## Bits in hexadecimal -/

/-- The capital hexadecimal digit of a number below sixteen. -/
def capitalDigit (number : Nat) : Char := number.digitChar.toUpper

/-- Bytes in capital hexadecimal digits, two for each. -/
def hexOfBytes (bytes : List UInt8) : List Char :=
  bytes.flatMap fun byte => [capitalDigit (byte.toNat / 16), capitalDigit (byte.toNat % 16)]

/-- Bits in capital hexadecimal digits, one for four bits. -/
def hexOfBits : List Bool → List Char
  | a :: b :: c :: d :: rest => capitalDigit (numberOf [a, b, c, d]) :: hexOfBits rest
  | _ => []

theorem hexOfBits_bitsOf_four (value : Nat) (rest : List Bool) :
    hexOfBits (bitsOf 4 value ++ rest) = capitalDigit (value % 16) :: hexOfBits rest := by
  have hnumber : numberOf (bitsOf 4 value) = value % 16 := numberOf_bitsOf 4 value
  rw [← hnumber]
  rfl

theorem hexOfBits_bitsOf_eight (value : Nat) (rest : List Bool) :
    hexOfBits (bitsOf 8 value ++ rest) =
      capitalDigit (value / 16 % 16) :: capitalDigit (value % 16) :: hexOfBits rest := by
  rw [bitsOf_add 4 4, List.append_assoc, hexOfBits_bitsOf_four, hexOfBits_bitsOf_four,
    Nat.shiftRight_eq_div_pow]

theorem hexOfBits_bitsOf_twelve (value : Nat) (rest : List Bool) :
    hexOfBits (bitsOf 12 value ++ rest) =
      capitalDigit (value / 256 % 16) :: capitalDigit (value / 16 % 16) ::
        capitalDigit (value % 16) :: hexOfBits rest := by
  rw [bitsOf_add 4 8, List.append_assoc, hexOfBits_bitsOf_four, hexOfBits_bitsOf_eight,
    Nat.shiftRight_eq_div_pow]

theorem hexOfBits_bitsOfBytes (bytes : List UInt8) :
    hexOfBits (bitsOfBytes bytes) = hexOfBytes bytes := by
  induction bytes with
  | nil => rfl
  | cons byte bytes ih =>
      have hbyte : byte.toNat / 16 % 16 = byte.toNat / 16 := by
        have hlt := byte.toNat_lt
        omega
      rw [bitsOfBytes_cons, hexOfBits_bitsOf_eight, ih, hbyte]
      rfl

/-! ## Words in hexadecimal -/

theorem paddedDigits_succ {radix width : Nat} (hradix : 1 < radix) (hwidth : 0 < width)
    (number : Nat) :
    paddedDigits radix (width + 1) number =
      paddedDigits radix width (number / radix) ++ [(number % radix).digitChar] := by
  unfold paddedDigits digits
  rw [Nat.toDigits_eq_if hradix (n := number)]
  split_ifs with hlt
  · have hzeros : List.leftpad width '0' (Nat.toDigits radix 0) = List.replicate width '0' := by
      obtain ⟨rest, rfl⟩ : ∃ rest, width = rest + 1 := ⟨width - 1, by omega⟩
      rw [Nat.toDigits_zero, List.leftpad, List.length_singleton, Nat.add_sub_cancel,
        List.replicate_succ']
    rw [Nat.div_eq_of_lt hlt, Nat.mod_eq_of_lt hlt, hzeros, List.leftpad, List.length_singleton,
      Nat.add_sub_cancel]
  · rw [List.leftpad, List.leftpad, List.length_append, List.length_singleton,
      Nat.add_sub_add_right, List.append_assoc]

/-- The three digits of a word. -/
def wordColumn (w : Word) : List Char := capitals (paddedDigits 16 3 w.toBits)

theorem wordColumn_eq (w : Word) :
    wordColumn w = [capitalDigit (w.toBits / 256 % 16), capitalDigit (w.toBits / 16 % 16),
      capitalDigit (w.toBits % 16)] := by
  have hhigh : w.toBits / 16 / 16 = w.toBits / 256 % 16 := by
    have hlt := w.toBits_lt
    omega
  have hone : paddedDigits 16 1 (w.toBits / 256 % 16) = [(w.toBits / 256 % 16).digitChar] := by
    rw [paddedDigits, digits, Nat.toDigits_of_lt_base (Nat.mod_lt _ (by decide))]
    rfl
  rw [wordColumn, paddedDigits_succ (by decide) (by decide),
    paddedDigits_succ (by decide) (by decide), hhigh, hone]
  rfl

theorem hexOfBits_bitsOfWords (words : List Word) (rest : List Bool) :
    hexOfBits (Image.bitsOfWords words ++ rest) =
      (words.map wordColumn).flatten ++ hexOfBits rest := by
  induction words with
  | nil => rfl
  | cons w words ih =>
      rw [Image.bitsOfWords, List.flatMap_cons, List.append_assoc, Image.bitsOfWord, wordBits,
        hexOfBits_bitsOf_twelve, ← Image.bitsOfWords, ih, List.map_cons, List.flatten_cons,
        wordColumn_eq]
      rfl

/-- The image of words has their digits, and a zero where the last byte is filled up. -/
theorem hexOfBytes_packWords (words : List Word) :
    hexOfBytes (Image.packWords words) =
      (words.map wordColumn).flatten ++ if words.length % 2 = 1 then ['0'] else [] := by
  rw [← hexOfBits_bitsOfBytes, Image.bitsOfBytes_packWords, hexOfBits_bitsOfWords]
  congr 1
  split_ifs with hodd
  · have hfill : (8 - 12 * words.length % 8) % 8 = 4 := by omega
    rw [hfill]
    decide
  · have hfill : (8 - 12 * words.length % 8) % 8 = 0 := by omega
    rw [hfill]
    rfl

/-- Three capital hexadecimal digits that spell a word. -/
structure WordDigits (w : Word) (column : List Char) : Prop where
  padded : Padded 16 3 w.toBits column
  length : column.length = 3
  word : Word.ofBits (ofDigits 16 column) = w

theorem wordDigits_wordColumn (w : Word) : WordDigits w (wordColumn w) where
  padded := padded_capitals (by decide) (by decide) (by decide) _
  length := by rw [wordColumn_eq]; rfl
  word := by
    have hpadded : Padded 16 3 w.toBits (wordColumn w) :=
      padded_capitals (by decide) (by decide) (by decide) _
    rw [hpadded.digits.ofDigits_eq (by decide), Word.ofBits_toBits]

/-! ## Dumps -/

/-- The lines of a text; an empty text has none. -/
def textLines (text : String) : List (List Char) :=
  if text.toList = [] then [] else splitAt '\n' text.toList

/-- A text with a line for each column: a mark, the index of the line in at least four capital
hexadecimal digits, a gap and the column. -/
structure Dumped (mark gap : List Char) (columns : List (List Char)) (text : String) : Prop where
  empty : text = "" ↔ columns = []
  count : (textLines text).length = columns.length
  line {i : Nat} {column : List Char} (h : columns[i]? = some column) :
    ∃ index, Padded 16 4 i index ∧ (textLines text)[i]? = some (mark ++ index ++ gap ++ column)

/-- The word that the last three digits of a line spell. -/
def wordOfLine (line : List Char) : Word := .ofBits (ofDigits 16 (line.drop (line.length - 3)))

section

variable {mark gap : List Char} {columns : List (List Char)} {text : String} {words : List Word}

theorem WordDigits.wordOfLine_append {w : Word} {column : List Char} (h : WordDigits w column)
    (front : List Char) : wordOfLine (front ++ column) = w := by
  have hfront : (front ++ column).length - 3 = front.length := by
    rw [List.length_append, h.length, Nat.add_sub_cancel]
  rw [wordOfLine, hfront, List.drop_left, h.word]

/-- Whatever a dump puts around its columns, they give the words back. -/
theorem Dumped.words_eq (h : Dumped mark gap columns text)
    (hcolumns : List.Forall₂ WordDigits words columns) :
    (textLines text).map wordOfLine = words := by
  obtain ⟨hlength, hdigits⟩ := List.forall₂_iff_get.1 hcolumns
  apply List.ext_getElem
  · rw [List.length_map, h.count, hlength]
  · intro i hline hword
    have hcolumn : i < columns.length := by omega
    obtain ⟨index, -, hsome⟩ := h.line (List.getElem?_eq_getElem hcolumn)
    obtain ⟨_, hget⟩ := List.getElem?_eq_some_iff.1 hsome
    rw [List.getElem_map, hget]
    exact (hdigits i hword hcolumn).wordOfLine_append _

theorem joinLines_cons_ne_nil {first : List Char} (hfirst : first ≠ []) (rest : List (List Char)) :
    joinLines (first :: rest) ≠ [] := by
  cases rest with
  | nil =>
      rw [joinLines_singleton]
      exact hfirst
  | cons second rest =>
      rw [joinLines_cons_cons]
      exact List.append_ne_nil_of_left_ne_nil hfirst _

theorem textLines_intercalate {lines : List String}
    (h : ∀ line ∈ lines, line.toList ≠ [] ∧ '\n' ∉ line.toList) :
    textLines ("\n".intercalate lines) = lines.map String.toList := by
  have htext : ("\n".intercalate lines).toList = joinLines (lines.map String.toList) :=
    String.toList_intercalate
  rw [textLines, htext]
  cases lines with
  | nil => rfl
  | cons first rest =>
      have hfeeds : ∀ line ∈ (first :: rest).map String.toList, '\n' ∉ line := by
        intro line hline
        obtain ⟨source, hsource, rfl⟩ := List.mem_map.1 hline
        exact (h source hsource).2
      have hne : joinLines ((first :: rest).map String.toList) ≠ [] :=
        joinLines_cons_ne_nil (h first List.mem_cons_self).1 _
      rw [if_neg hne]
      exact splitAt_joinLines (List.cons_ne_nil _ _) hfeeds

theorem textLines_eq_nil_iff (text : String) : textLines text = [] ↔ text = "" := by
  unfold textLines
  split_ifs with hempty
  · exact iff_of_true rfl (String.toList_eq_nil_iff.1 hempty)
  · refine iff_of_false (splitAt_ne_nil _ _) fun h => hempty ?_
    rw [h]
    rfl

/-- A dump is made line by line, whatever its marks and gaps are. -/
theorem dumped_of_lines {line : Nat → Word → String} (hmark : '\n' ∉ mark) (hgap : '\n' ∉ gap)
    (hline : ∀ i w, (line i w).toList =
      mark ++ capitals (paddedDigits 16 4 i) ++ gap ++ wordColumn w) (words : List Word) :
    Dumped mark gap (words.map wordColumn) ("\n".intercalate (words.mapIdx line)) := by
  have hindex (i : Nat) : Padded 16 4 i (capitals (paddedDigits 16 4 i)) :=
    padded_capitals (by decide) (by decide) (by decide) i
  have hlines : textLines ("\n".intercalate (words.mapIdx line)) =
      (words.mapIdx line).map String.toList := by
    apply textLines_intercalate
    intro text htext
    obtain ⟨i, hi, rfl⟩ := List.mem_mapIdx.1 htext
    have hcolumn := wordDigits_wordColumn words[i]
    have hne : wordColumn words[i] ≠ [] :=
      List.ne_nil_of_length_pos (by rw [hcolumn.length]; decide)
    rw [hline]
    refine ⟨?_, ?_⟩
    · exact List.append_ne_nil_of_right_ne_nil _ hne
    · simp only [List.mem_append, not_or]
      exact ⟨⟨⟨hmark, (hindex i).notMem_lineFeed (by decide)⟩, hgap⟩,
        hcolumn.padded.notMem_lineFeed (by decide)⟩
  refine ⟨?_, ?_, ?_⟩
  · rw [← textLines_eq_nil_iff, hlines, List.map_eq_nil_iff, List.mapIdx_eq_nil_iff,
      List.map_eq_nil_iff]
  · rw [hlines, List.length_map, List.length_mapIdx, List.length_map]
  · intro i column hcolumn
    rw [List.getElem?_map, Option.map_eq_some_iff] at hcolumn
    obtain ⟨w, hw, rfl⟩ := hcolumn
    refine ⟨_, hindex i, ?_⟩
    rw [hlines, List.getElem?_map, List.getElem?_mapIdx, hw, Option.map_some, Option.map_some,
      hline]

end

theorem dumped_hexText (words : List Word) :
    Dumped [] [':', ' '] (words.map wordColumn) (Dump.hexText words) := by
  apply dumped_of_lines (by decide) (by decide)
  intro i w
  simp [Dump.hexLine, Dump.hex, wordColumn]

theorem dumped_memText (words : List Word) :
    Dumped ['@'] [' '] (words.map wordColumn) (Dump.memText words) := by
  apply dumped_of_lines (by decide) (by decide)
  intro i w
  simp [Dump.memLine, Dump.hex, wordColumn]

example :
    Dump.memText [⟨.one, ⟨63⟩, .null⟩, ⟨.stoc, ⟨40⟩, .stopTape⟩] = "@0000 4FC\n@0001 9A3" := by
  decide

theorem forall₂_wordDigits (words : List Word) :
    List.Forall₂ WordDigits words (words.map wordColumn) := by
  rw [List.forall₂_map_right_iff, List.forall₂_same]
  exact fun w _ => wordDigits_wordColumn w

theorem Dump.hexText_injective : Function.Injective hexText :=
  Function.LeftInverse.injective (g := fun text => (textLines text).map wordOfLine) fun words =>
    (dumped_hexText words).words_eq (forall₂_wordDigits words)

theorem Dump.memText_injective : Function.Injective memText :=
  Function.LeftInverse.injective (g := fun text => (textLines text).map wordOfLine) fun words =>
    (dumped_memText words).words_eq (forall₂_wordDigits words)

/-! ## Listings -/

/-- Rows for words, in order: each has the index of its word and the word in twelve binary digits,
cut into the three fields. -/
structure Listed (words : List Word) (rows : List (List String)) : Prop where
  count : rows.length = words.length
  row {i : Nat} {w : Word} (h : words[i]? = some w) :
    ∃ instruction address control mnemonic mode : String,
      rows[i]? = some [toString i, instruction, address, control, mnemonic, mode] ∧
      Padded 2 12 w.toBits (instruction ++ address ++ control).toList ∧
      (instruction ++ address ++ control).length = 12

/-- The word that the fields of a row spell. -/
def wordOfRow (row : List String) : Word :=
  .ofBits (ofDigits 2 (((row.drop 1).take 3).flatMap String.toList))

theorem toUpper_eq_of_binary {run : List Char} {value : Nat} (h : Digits 2 run value) :
    ∀ c ∈ run, c.toUpper = c := by
  intro c hc
  obtain ⟨digit, hdigit, hvalue⟩ := isDigitOf_iff.1 (h.isDigitOf (by decide) hc)
  obtain ⟨-, rfl | rfl⟩ := digitValue?_eq_some_iff.1 hvalue
  · interval_cases digit <;> decide
  · interval_cases digit <;> decide

/-- The binary fields of a word, one after the other, are the word in binary. -/
theorem padded_fields (w : Word) :
    Padded 2 12 w.toBits (w.instruction.binary ++ w.address.binary ++ w.control.binary).toList ∧
      (w.instruction.binary ++ w.address.binary ++ w.control.binary).length = 12 := by
  have htext : (w.instruction.binary ++ w.address.binary ++ w.control.binary).toList =
      paddedDigits 2 4 w.instruction.code ++ paddedDigits 2 6 w.address.value ++
        paddedDigits 2 2 w.control.code := by
    simp [Instruction.binary, Address.binary, Control.binary]
  have hinstruction : (paddedDigits 2 4 w.instruction.code).length = 4 :=
    length_paddedDigits (by decide) (by decide) w.instruction.code.isLt
  have haddress : (paddedDigits 2 6 w.address.value).length = 6 :=
    length_paddedDigits (by decide) (by decide) w.address.value.isLt
  have hcontrol : (paddedDigits 2 2 w.control.code).length = 2 :=
    length_paddedDigits (by decide) (by decide) w.control.code.isLt
  have hdigits : Digits 2 (paddedDigits 2 4 w.instruction.code ++
      paddedDigits 2 6 w.address.value ++ paddedDigits 2 2 w.control.code) w.toBits := by
    have h := ((digits_paddedDigits (by decide) 4 w.instruction.code).append
      (digits_paddedDigits (by decide) 6 w.address.value)).append
      (digits_paddedDigits (show 1 < 2 by decide) 2 w.control.code)
    have hbits : w.toBits =
        (w.instruction.code * 2 ^ 6 + w.address.value) * 2 ^ 2 + w.control.code := by
      rw [Word.toBits_eq]
      omega
    rw [hbits]
    rwa [haddress, hcontrol] at h
  have hlength : (paddedDigits 2 4 w.instruction.code ++ paddedDigits 2 6 w.address.value ++
      paddedDigits 2 2 w.control.code).length = 12 := by
    rw [List.length_append, List.length_append, hinstruction, haddress, hcontrol]
  rw [← String.length_toList, htext]
  exact ⟨⟨hdigits, toUpper_eq_of_binary hdigits, hlength.ge, fun h => absurd h (by omega)⟩, hlength⟩

theorem listed_ofWords (words : List Word) (title : Option Text.Raw) :
    Listed words (Listing.ofWords words title).rows where
  count := List.length_mapIdx
  row {i w} h := by
    refine ⟨_, _, _, w.instruction.mnemonic, w.address.kind.label, ?_, padded_fields w⟩
    rw [Listing.ofWords, List.getElem?_mapIdx, h]
    rfl

/-- The fields of the rows give the words back. -/
theorem Listed.words_eq {words : List Word} {rows : List (List String)} (h : Listed words rows) :
    rows.map wordOfRow = words := by
  apply List.ext_getElem
  · rw [List.length_map, h.count]
  · intro i hrow hword
    obtain ⟨instruction, address, control, mnemonic, mode, hsome, hpadded, -⟩ :=
      h.row (List.getElem?_eq_getElem hword)
    obtain ⟨_, hget⟩ := List.getElem?_eq_some_iff.1 hsome
    have hfields : ([instruction, address, control] : List String).flatMap String.toList =
        (instruction ++ address ++ control).toList := by
      simp
    rw [List.getElem_map, hget, wordOfRow]
    change Word.ofBits (ofDigits 2 ([instruction, address, control].flatMap String.toList)) = _
    rw [hfields, hpadded.digits.ofDigits_eq (by decide), Word.ofBits_toBits]

theorem Listing.ofWords_injective (title : Option Text.Raw) :
    Function.Injective fun words => ofWords words title :=
  Function.LeftInverse.injective (g := fun listing => listing.rows.map wordOfRow) fun words =>
    (listed_ofWords words title).words_eq

/-! ## All outputs -/

/-- The columns of both dumps are the words in hexadecimal, and together the bytes of the image; the
rows of the listing are the words in binary. So each output tells any two programs apart. -/
theorem outputs_denote_words :
    (∀ a : Assembler, ∃ columns : List (List Char),
      List.Forall₂ WordDigits a.words columns ∧
      Dumped [] [':', ' '] columns a.hexText ∧
      Dumped ['@'] [' '] columns a.memText ∧
      (columns.flatten ++ if a.words.length % 2 = 1 then ['0'] else []) =
        hexOfBytes a.image.value ∧
      ∀ title, Listed a.words (a.listing title).rows) ∧
    ∀ a b : Assembler,
      (a.image.value = b.image.value ↔ a.words = b.words) ∧
      (a.hexText = b.hexText ↔ a.words = b.words) ∧
      (a.memText = b.memText ↔ a.words = b.words) ∧
      ∀ title, a.listing title = b.listing title ↔ a.words = b.words := by
  constructor
  · intro a
    refine ⟨a.words.map wordColumn, forall₂_wordDigits a.words, dumped_hexText a.words,
      dumped_memText a.words, ?_, listed_ofWords a.words⟩
    exact (hexOfBytes_packWords a.words).symm
  · intro a b
    have himage : Function.Injective Image.packWords :=
      Function.LeftInverse.injective Image.decode_packWords
    exact ⟨himage.eq_iff, Dump.hexText_injective.eq_iff, Dump.memText_injective.eq_iff,
      fun title => (Listing.ofWords_injective title).eq_iff⟩

end OneBit
