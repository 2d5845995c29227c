import OneBit.ByteStream
import OneBit.Proofs.Concatenation
/-!
# Images in streams

Bytes that go to a stream one at a time are written as if at once: each takes the place behind the
one before.  So a program that is packed into a stream leaves its image there, over what stood at
the position, and leaves all else as it was.
-/

namespace OneBit.ByteStream

variable {s : ByteStream} {data more : List UInt8}

/-! ## Writing -/

@[simp] theorem write_nil (s : ByteStream) : s.write [] = s := rfl

theorem content_write (h : data ≠ []) :
    (s.write data).content =
      s.content.take s.position ++ List.replicate (s.position - s.content.length) 0 ++ data ++
        s.content.drop (s.position + data.length) := by
  rw [write, if_neg (by simpa using h)]

theorem position_write (s : ByteStream) (data : List UInt8) :
    (s.write data).position = s.position + data.length := by
  cases data with
  | nil => rfl
  | cons byte data => rfl

theorem length_front (s : ByteStream) :
    (s.content.take s.position ++
      List.replicate (s.position - s.content.length) (0 : UInt8)).length = s.position := by
  rw [List.length_append, List.length_take, List.length_replicate]
  omega

/-- A written stream byte by byte: what was written, and around it what stood there, with zeros in
the gap before the position. -/
theorem getElem?_content_write (h : data ≠ []) (i : Nat) :
    (s.write data).content[i]? =
      if s.position ≤ i ∧ i < s.position + data.length then data[i - s.position]?
      else if i < s.position ∧ s.content.length ≤ i then some 0
      else s.content[i]? := by
  have hfront := length_front s
  rw [content_write h]
  by_cases hbefore : i < s.position
  · rw [if_neg (by omega), List.append_assoc, List.getElem?_append_left (by omega)]
    by_cases hgap : s.content.length ≤ i
    · rw [if_pos ⟨hbefore, hgap⟩, List.getElem?_append_right (by rw [List.length_take]; omega),
        List.getElem?_replicate_of_lt (by rw [List.length_take]; omega)]
    · rw [if_neg (by omega), List.getElem?_append_left (by rw [List.length_take]; omega),
        List.getElem?_take_of_lt hbefore]
  · by_cases hinside : i < s.position + data.length
    · rw [if_pos (by omega), List.getElem?_append_left (by rw [List.length_append]; omega),
        List.getElem?_append_right (by omega), hfront]
    · rw [if_neg (by omega), if_neg (by omega),
        List.getElem?_append_right (by rw [List.length_append]; omega), List.getElem?_drop]
      congr 1
      rw [List.length_append]
      omega

theorem length_content_write (h : data ≠ []) :
    (s.write data).content.length = max s.content.length (s.position + data.length) := by
  rw [content_write h, List.length_append, List.length_append, length_front, List.length_drop]
  omega

/-- Writing on where the last write ended is one write. -/
theorem write_write (s : ByteStream) (data more : List UInt8) :
    (s.write data).write more = s.write (data ++ more) := by
  by_cases hdata : data = []
  · rw [hdata, write_nil, List.nil_append]
  by_cases hmore : more = []
  · rw [hmore, write_nil, List.append_nil]
  have hboth : data ++ more ≠ [] := List.append_ne_nil_of_left_ne_nil hdata more
  have hposition := position_write s data
  have hlength := length_content_write (s := s) hdata
  have hcontent : ((s.write data).write more).content = (s.write (data ++ more)).content := by
    apply List.ext_getElem?
    intro i
    rw [getElem?_content_write hmore, getElem?_content_write hdata, getElem?_content_write hboth,
      hposition, hlength, List.length_append, ← Nat.add_assoc]
    by_cases hlast : s.position + data.length ≤ i ∧ i < s.position + data.length + more.length
    · rw [if_pos hlast, if_pos (by omega), List.getElem?_append_right (by omega)]
      congr 1
      omega
    · rw [if_neg hlast, if_neg (by omega)]
      by_cases hfirst : s.position ≤ i ∧ i < s.position + data.length
      · rw [if_pos hfirst, if_pos (by omega), List.getElem?_append_left (by omega)]
      · have hnone : ¬ (s.position ≤ i ∧ i < s.position + data.length + more.length) := by omega
        rw [if_neg hfirst, if_neg hnone]
  have hend : ((s.write data).write more).position = (s.write (data ++ more)).position := by
    rw [position_write, position_write, position_write, List.length_append, Nat.add_assoc]
  exact congrArg₂ ByteStream.mk hcontent hend

theorem foldl_write (s : ByteStream) (data : List UInt8) :
    data.foldl (fun s byte => s.write [byte]) s = s.write data := by
  induction data generalizing s with
  | nil => rfl
  | cons byte data ih => rw [List.foldl_cons, ih, write_write, List.singleton_append]

/-! ## Packing -/

namespace Packer

variable {w : Bit.Writer} {p : Packer}

theorem stream_flush (p : Packer) : p.flush.stream = p.stream.write p.bits.bytes :=
  foldl_write p.stream p.bits.bytes

theorem bits_flush (p : Packer) : p.flush.bits = { p.bits with bytes := [] } := rfl

theorem written_flush (p : Packer) : p.flush.written = p.written + p.bits.bytes.length := rfl

/-- A step of a writer that adds bytes behind those that are there, whatever they are. -/
def Incremental (step : Bit.Writer → Bit.Writer) : Prop :=
  ∀ w, step w = { step { w with bytes := [] } with
    bytes := w.bytes ++ (step { w with bytes := [] }).bytes }

theorem incremental_append (value : Int) (count : Nat) : Incremental (·.append value count) :=
  fun _ => rfl

theorem incremental_pad : Incremental Bit.Writer.pad := by
  intro w
  by_cases hpending : w.pending = 0
  · simp only [Bit.Writer.pad, if_pos hpending, List.append_nil]
  · simp only [Bit.Writer.pad, if_neg hpending]
    exact incremental_append 0 (8 - w.pending) w

/-- A packer that started on a stream goes along with a writer: the bytes of the writer are in the
stream, and only the bits behind them are still to come. -/
structure Follows (s : ByteStream) (w : Bit.Writer) (p : Packer) : Prop where
  stream : p.stream = s.write w.bytes
  bits : p.bits = { w with bytes := [] }
  written : p.written = w.bytes.length

theorem follows_start (s : ByteStream) : Follows s {} { stream := s } := ⟨rfl, rfl, rfl⟩

theorem Follows.flush {step : Bit.Writer → Bit.Writer} (hstep : Incremental step)
    (h : Follows s w p) : Follows s (step w) (flush { p with bits := step p.bits }) := by
  have hw := hstep w
  rw [← h.bits] at hw
  refine ⟨?_, ?_, ?_⟩
  · rw [stream_flush, h.stream, write_write, hw]
  · rw [bits_flush, hw]
  · rw [written_flush, h.written, hw, List.length_append]

theorem Follows.append (h : Follows s w p) (value : Int) (count : Nat) :
    Follows s (w.append value count) (p.append value count) :=
  h.flush (incremental_append value count)

theorem Follows.pad (h : Follows s w p) : Follows s w.pad p.pad := h.flush incremental_pad

theorem Follows.appendWord (h : Follows s w p) (word : Word) :
    Follows s (Image.appendWord w word) (p.appendWord word) :=
  ((h.append _ _).append _ _).append _ _

theorem Follows.foldl_appendWord (h : Follows s w p) (words : List Word) :
    Follows s (words.foldl Image.appendWord w) (words.foldl Packer.appendWord p) := by
  induction words generalizing w p with
  | nil => exact h
  | cons word words ih => exact ih (h.appendWord word)

end Packer

/-- Packing a program into a stream is writing its image there, with the same record. -/
theorem writeImage_eq (s : ByteStream) (nodes : List Node) :
    s.writeImage nodes =
      ⟨((wordsOf nodes).length, s.write (Image.encode nodes)),
        (Image.encodeLogged nodes).events⟩ := by
  have hfollows := ((Packer.follows_start s).foldl_appendWord (wordsOf nodes)).pad
  have hstream : (((wordsOf nodes).foldl Packer.appendWord { stream := s }).pad).stream =
      s.write (Image.encode nodes) := hfollows.stream
  have hwritten : (((wordsOf nodes).foldl Packer.appendWord { stream := s }).pad).written =
      (Image.encode nodes).length := hfollows.written
  simp only [writeImage, hstream, hwritten]
  rfl

/-! ## Reading back -/

theorem seek_natCast (s : ByteStream) (position : Nat) :
    s.seek position = .ok { s with position } := by
  rw [seek, if_neg (by omega), Int.toNat_natCast]

theorem drop_content_write (s : ByteStream) (data : List UInt8) :
    (s.write data).content.drop s.position =
      data ++ s.content.drop (s.position + data.length) := by
  by_cases hdata : data = []
  · rw [hdata, write_nil, List.nil_append, List.length_nil, Nat.add_zero]
  · rw [content_write hdata, List.append_assoc, List.drop_left' (length_front s)]

theorem value_readImage_write (s : ByteStream) (data : List UInt8) :
    (readImage { s.write data with position := s.position }).value.1 =
      Image.decode (data ++ s.content.drop (s.position + data.length)) := by
  rw [← drop_content_write]
  rfl

/-- Packing a program into a stream changes the bytes of its image from the position on and no
others, after zeros if the position is beyond the end; without words it changes nothing. The words
are then read back from the position, and nothing but them if the image reaches the old end. -/
theorem writeImage_in_place (s : ByteStream) (nodes : List Node) :
    let image := Image.encode nodes
    let count := (s.writeImage nodes).value.1
    let after := (s.writeImage nodes).value.2
    count = (wordsOf nodes).length ∧
    (image = [] → after = s) ∧
    (image ≠ [] →
      after.position = s.position + image.length ∧
      after.content.length = max s.content.length (s.position + image.length) ∧
      (∀ i < image.length, after.content[s.position + i]? = image[i]?) ∧
      (∀ i < s.content.length, i < s.position ∨ s.position + image.length ≤ i →
        after.content[i]? = s.content[i]?) ∧
      ∀ i < s.position, s.content.length ≤ i → after.content[i]? = some 0) ∧
    ∃ back, after.seek s.position = .ok back ∧
      wordsOf nodes <+: back.readImage.value.1 ∧
      (s.content.length ≤ s.position + image.length →
        back.readImage.value.1 = wordsOf nodes) := by
  intro image count after
  have hcount : count = (wordsOf nodes).length := congrArg (·.value.1) (writeImage_eq s nodes)
  have hafter : after = s.write image := congrArg (·.value.2) (writeImage_eq s nodes)
  refine ⟨hcount, ?_, ?_, { after with position := s.position }, seek_natCast _ _, ?_⟩
  · intro hempty
    rw [hafter, hempty, write_nil]
  · intro hne
    rw [hafter]
    refine ⟨position_write s image, length_content_write hne, ?_, ?_, ?_⟩
    · intro i hi
      rw [getElem?_content_write hne, if_pos (by omega), Nat.add_sub_cancel_left]
    · intro i hi houtside
      rw [getElem?_content_write hne, if_neg (by omega), if_neg (by omega)]
    · intro i hi hgap
      rw [getElem?_content_write hne, if_neg (by omega), if_pos ⟨hi, hgap⟩]
  · have hwords : Image.decode image = wordsOf nodes := Image.decode_packWords (wordsOf nodes)
    rw [hafter, value_readImage_write]
    constructor
    · rw [← hwords]
      exact Image.decode_prefix_decode_append image _
    · intro hend
      rw [List.drop_eq_nil_of_le hend, List.append_nil, hwords]

/-- A word behind the end of a stream, with a gap of one byte, and a program without words. -/
theorem writeImage_in_place_beyond_end :
    let s : ByteStream := ⟨[0xAA], 2⟩
    let nodes : List Node := [.comment "one", .word ⟨.one, ⟨0o77⟩, .null⟩]
    let after := (s.writeImage nodes).value.2
    Image.encode nodes ≠ [] ∧
      after.content[0]? = s.content[0]? ∧ after.content[1]? = some 0 ∧
      after.content[3]? = (Image.encode nodes)[1]? ∧
      (∃ back, after.seek 2 = .ok back ∧ back.readImage.value.1 = wordsOf nodes) ∧
      Image.encode [.comment "none"] = [] ∧ (s.writeImage [.comment "none"]).value.2 = s := by
  intro s nodes after
  have hne : Image.encode nodes ≠ [] := by decide
  have hlength : (Image.encode nodes).length = 2 := by decide
  obtain ⟨-, -, hchanged, back, hseek, -, hback⟩ := writeImage_in_place s nodes
  obtain ⟨-, -, hinside, houtside, hgap⟩ := hchanged hne
  refine ⟨hne, houtside 0 (by decide) (.inl (by decide)), hgap 1 (by decide) (by decide),
    hinside 1 (by omega), ⟨back, hseek, hback (by rw [hlength]; decide)⟩, by decide, ?_⟩
  exact (writeImage_in_place s [.comment "none"]).2.1 (by decide)

end OneBit.ByteStream
