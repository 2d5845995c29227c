import OneBit.Proofs.Command.Arguments
import OneBit.Proofs.Command.Task
/-!
# Listing what was assembled

The listing of an image has the rows of the listing that was shown when the image was written.
Every file that can be read has a listing: twelve bits are always a word, and every word has a row.
Whether the listing can be printed is for the console to say, which has the path for a title.
-/

namespace OneBit

/-! ## Every word can be shown -/

theorem Address.ofInt_value (a : Address) : AddressKind.ofInt (a.value : Nat) = .ok a.kind := by
  have hfound : AddressKind.find? (a.value : Nat) = some a.kind := (Option.some_get _).symm
  unfold AddressKind.ofInt
  rw [hfound]

namespace Command

open Text

variable {σ : Type} {host : Host σ} {files : σ} {environment : Option Raw}
  {input output path : Raw} {i : Invocation}

/-! ## Runs without options -/

/-- The report of a listing that was built: the console got it, and the run exits with zero exactly
if the console has printed it. -/
structure Report.Lists (report : Report) (print : Console) (listing : Listing) : Prop where
  built : report.listing = some listing
  exit : report.status = .exit 0 ↔ ∃ text, print listing = .ok text
  stdout : ∀ text, print listing = .ok text → report.stdout = text

theorem lists_withListing (report : Report) (hstatus : report.status = .exit 0) (print : Console)
    (listing : Listing) : (report.withListing listing (print listing)).Lists print listing := by
  cases hprint : print listing with
  | ok text =>
      refine ⟨rfl, iff_of_true hstatus ⟨text, hprint⟩, ?_⟩
      exact fun text' htext => Except.ok.inj (hprint.symm.trans htext)
  | error text =>
      have hnone (text' : String) : print listing ≠ .ok text' := by simp [hprint]
      refine ⟨rfl, iff_of_false nofun fun ⟨text', htext⟩ => hnone text' htext, ?_⟩
      exact fun text' htext => absurd htext (hnone text')

theorem run_list_of_read {data : List UInt8}
    (h : Invocation.ofArguments environment ["list", path] = .ok i)
    (hread : host.read files path = .ok data) :
    let result := run host environment ["list", path] files
    result.1.Lists host.print (.ofWords (Image.decode data) (some path)) ∧ result.2 = files := by
  obtain rfl := eq_of_ofArguments_list h
  have hrun := run_of_done (step_list hread)
  rw [run_of_level h rfl, hrun]
  obtain ⟨hbuilt, hexit, hstdout⟩ := lists_withListing
    { status := .exit 0, events := (Image.decodeLogged data).events } rfl host.print
    (.ofWords (Image.decode data) (some path))
  exact ⟨⟨hbuilt, hexit, hstdout⟩, rfl⟩

theorem run_asm_of_exit (h : Invocation.ofArguments environment ["asm", input, output] = .ok i)
    (hexit : (run host environment ["asm", input, output] files).1.status = .exit 0) :
    ∃ nodes opened,
      (∃ source, host.HoldsText files input source ∧ Source.parse source = .ok nodes) ∧
        (run host environment ["asm", input, output] files).1.Lists host.print
          (.ofWords (wordsOf nodes) (some input)) ∧
        host.create files output = .ok opened ∧
        host.write opened output (Image.encode nodes) =
          (none, (run host environment ["asm", input, output] files).2) := by
  obtain rfl := eq_of_ofArguments_asm h
  obtain ⟨ending, after, hends⟩ := Invocation.exists_ends host files _
  obtain ⟨htells, hafter⟩ := Invocation.Ends.run h hends
  rw [hafter]
  cases ending with
  | refused => cases hexit.symm.trans htells.1
  | broken reason => cases hexit.symm.trans htells
  | completed listing? text =>
      obtain ⟨-, hbuilt, hstdout⟩ := htells
      cases hends with
      | task _ htask =>
          obtain ⟨nodes, opened, hready, hcreate, hwrite⟩ := htask.exists_written rfl
          refine ⟨nodes, opened, hready.source, ?_, hcreate, hwrite⟩
          cases hready.shows with
          | listed hprint =>
              refine ⟨hbuilt, iff_of_true hexit ⟨text, hprint⟩, ?_⟩
              intro text' htext
              rw [hstdout]
              exact Except.ok.inj (hprint.symm.trans htext)

/-! ## Assembling, then listing -/

/-- A listing of an image that was just written has the rows that writing it showed. Every file that
can be read has a listing, with a row for each twelve bits, since no word is without an instruction,
a control and an addressing mode. The run exits with zero exactly if the console has printed the
listing. -/
theorem list_shows_assembled (view : host.Files) :
    (∀ (environment environment' : Option Raw) (input output : Raw) (files : σ) (i : Invocation),
      Invocation.ofArguments environment ["asm", input, output] = .ok i →
      let assembled := run host environment ["asm", input, output] files
      assembled.1.status = .exit 0 → view.Regular files output →
      ∃ nodes, (∃ source, host.HoldsText files input source ∧ Source.parse source = .ok nodes) ∧
        let rows := (wordsOf nodes).mapIdx Word.cells
        let listed := run host environment' ["list", output] assembled.2
        assembled.1.listing = some ⟨some input, rows⟩ ∧
          view.content? assembled.2 output = some (Image.encode nodes) ∧
          ∀ data, host.read assembled.2 output = .ok data →
            listed.1.Lists host.print ⟨some output, rows⟩ ∧ listed.2 = assembled.2) ∧
    (∀ (environment : Option Raw) (path : Raw) (files : σ) (data : List UInt8) (i : Invocation),
      Invocation.ofArguments environment ["list", path] = .ok i →
      host.read files path = .ok data →
      let rows := (Image.decode data).mapIdx Word.cells
      let listed := run host environment ["list", path] files
      rows.length = 8 * data.length / 12 ∧
        listed.1.Lists host.print ⟨some path, rows⟩ ∧ listed.2 = files) ∧
    (∀ (environment : Option Raw) (path : Raw), path.head? ≠ some (.char '-') →
      ∃ i, Invocation.ofArguments environment ["list", path] = .ok i) ∧
    ∀ bits : Int,
      let word := Word.ofBits bits
      Instruction.ofInt (Field.instruction.extract bits : Nat) = .ok word.instruction ∧
        Control.ofInt (Field.control.extract bits : Nat) = .ok word.control ∧
        AddressKind.ofInt (word.address.value : Nat) = .ok word.address.kind := by
  refine ⟨?_, ?_, ?_, ?_⟩
  · intro environment environment' input output files i h assembled hexit hregular
    obtain ⟨nodes, opened, hsource, hlists, hcreate, hwrite⟩ := run_asm_of_exit h hexit
    have hfault : (host.write opened output (Image.encode nodes)).1 = none := by rw [hwrite]
    have hafter : (host.write opened output (Image.encode nodes)).2 = assembled.2 := by rw [hwrite]
    have hcontent : view.content? assembled.2 output = some (Image.encode nodes) := by
      rw [← hafter]
      exact view.content_write hregular hcreate hfault
    have hregular' : view.Regular assembled.2 output := by
      rw [← hafter]
      exact view.regular_write hregular hcreate _
    have hwords : Image.decode (Image.encode nodes) = wordsOf nodes := Image.decode_packWords _
    refine ⟨nodes, hsource, hlists.built, hcontent, ?_⟩
    intro data hread
    have hdata : data = Image.encode nodes :=
      Option.some.inj ((view.content_of_read hregular' hread).symm.trans hcontent)
    rw [hdata] at hread
    have hlisted := run_list_of_read (ofArguments_list_of_asm h environment') hread
    rwa [hwords] at hlisted
  · intro environment path files data i h hread
    refine ⟨?_, run_list_of_read h hread⟩
    rw [List.length_mapIdx, Image.length_decode]
  · intro environment path hpath
    exact ⟨_, ofArguments_list_of_head environment hpath⟩
  · intro bits
    exact ⟨Instruction.ofInt_code _, Control.ofInt_code _, Address.ofInt_value _⟩

/-- One word fills one byte and a half; the name of the output begins with a dash. -/
theorem list_shows_assembled_half_byte :
    let host := Host.ofTrees Console.plain
    let tree : FileTree :=
      { entries :=
          [(["p.asm".toList], .file (encodeFile "; on\nONE 0o77 0b0\n")),
            (["ones".toList], .file [0xFF, 0xFF, 0xFF, 0xFF])] }
    let assembled := run host none ["asm", "p.asm", "- o"] tree
    let rows := [["0", "0100", "111111", "00", "one", "low input / high-z"]]
    assembled.1.status = .exit 0 ∧
      host.read assembled.2 "- o" = .ok [0x4F, 0xC0] ∧
      assembled.1.listing = some ⟨some "p.asm", rows⟩ ∧
      (run host none ["list", "- o"] assembled.2).1.listing = some ⟨some "- o", rows⟩ ∧
      (run host none ["list", "- o"] assembled.2).1.status = .exit 0 ∧
      (run host none ["list", "/ones"] tree).1.status = .exit 0 := by
  intro host tree assembled rows
  obtain ⟨hasm, hlist, -⟩ := list_shows_assembled (Host.filesOfTrees Console.plain)
  have hexit : assembled.1.status = .exit 0 := by decide +kernel
  have himage : host.read assembled.2 "- o" = .ok [0x4F, 0xC0] := by decide +kernel
  have hones : host.read tree "/ones" = .ok [0xFF, 0xFF, 0xFF, 0xFF] := by decide +kernel
  obtain ⟨nodes, -, hbuilt, -, hlisted⟩ := hasm none none "p.asm" "- o" tree _ rfl hexit trivial
  have hlists := (hlisted _ himage).1
  have hshown : assembled.1.listing = some ⟨some "p.asm", rows⟩ := by decide +kernel
  have hrows : (wordsOf nodes).mapIdx Word.cells = rows :=
    congrArg Listing.rows (Option.some.inj (hbuilt.symm.trans hshown))
  rw [hrows] at hlists
  have hall := (hlist none "/ones" tree _ _ rfl hones).2.1
  exact ⟨hexit, himage, hshown, hlists.built, hlists.exit.2 ⟨_, rfl⟩, hall.exit.2 ⟨_, rfl⟩⟩

/-- A console that takes titles for markup finds a tag closed in this one that was never opened. -/
theorem list_breaks_off_at_closing_tag :
    let print : Console := fun listing =>
      if listing.title = some (Raw.ofString "a[/b].bin") then
        .error "closing tag '[/b]' at position 1 doesn't match any open tag"
      else .ok listing.render
    let host := Host.ofTrees print
    let tree : FileTree :=
      { entries :=
          [(["a[".toList], .directory), (["a[".toList, "b].bin".toList], .file [0x4F, 0xC0])] }
    let listed := run host none ["list", "a[/b].bin"] tree
    host.read tree "a[/b].bin" = .ok [0x4F, 0xC0] ∧
      listed.1.listing = some ⟨some "a[/b].bin",
        [["0", "0100", "111111", "00", "one", "low input / high-z"]]⟩ ∧
      listed.1.status =
        .broken (.unprintable "closing tag '[/b]' at position 1 doesn't match any open tag") := by
  decide +kernel

end Command

end OneBit
