import OneBit.Command.Host
import OneBit.Proofs.FileTree
/-!
# What the files of a host hold

A program that only opens, reads and writes files relies on little: a file that was written holds
what was written to it, no other file changes, and reading gives what a file holds.  Paths may lead
to one file by different spellings or by links, files may be closed to reading or to writing, and
what is said here of writing is said of regular files only, not of devices.
-/

namespace OneBit.Command

open Text

variable {σ : Type}

namespace Host

/-- What a host guarantees of its files. -/
structure Files (host : Host σ) where
  /-- What the regular file at a path holds, whether or not it can be opened. -/
  content? : σ → Raw → Option (List UInt8)
  /-- The path leads to a regular file, or to none. -/
  Regular : σ → Raw → Prop
  /-- Two paths lead to one file. -/
  Same : σ → Raw → Raw → Prop
  content_of_read {files : σ} {path : Raw} {bytes : List UInt8} (hregular : Regular files path)
    (hread : host.read files path = .ok bytes) : content? files path = some bytes
  regular_write {files opened : σ} {path : Raw} (hregular : Regular files path)
    (hcreate : host.create files path = .ok opened) (bytes : List UInt8) :
    Regular (host.write opened path bytes).2 path
  content_write {files opened : σ} {path : Raw} {bytes : List UInt8}
    (hregular : Regular files path) (hcreate : host.create files path = .ok opened)
    (hwrite : (host.write opened path bytes).1 = none) :
    content? (host.write opened path bytes).2 path = some bytes
  content_write_of_not_same {files opened : σ} {path other : Raw} (hregular : Regular files path)
    (hcreate : host.create files path = .ok opened) (hother : ¬ Same files other path)
    (bytes : List UInt8) :
    content? (host.write opened path bytes).2 other = content? files other

/-- A file that was opened for writing can be written. -/
def WritesOpened (host : Host σ) : Prop :=
  ∀ {files opened : σ} {path : Raw}, host.create files path = .ok opened →
    ∀ bytes, (host.write opened path bytes).1 = none

/-- The text of a file was read. -/
def HoldsText (host : Host σ) (files : σ) (path : Raw) (source : String) : Prop :=
  ∃ bytes, host.read files path = .ok bytes ∧ decodeFile? bytes = some source

/-! ## File trees -/

variable {print : Console} {tree after opened : FileTree} {path other : Raw} {content : List UInt8}

theorem onText_eq_ok_iff {α : Type} {open? : String → Except FileError α} {a : α} :
    onText path open? = .ok a ↔ ∃ text, path = Raw.ofString text ∧ open? text = .ok a := by
  unfold onText
  cases h : path.toString? with
  | none =>
      refine iff_of_false nofun ?_
      rintro ⟨text, rfl, -⟩
      rw [Raw.toString?_ofString] at h
      cases h
  | some text =>
      rw [mapError_eq_ok_iff]
      refine ⟨fun hopen => ⟨text, Raw.toString?_eq_some_iff.1 h, hopen⟩, ?_⟩
      rintro ⟨text', rfl, hopen⟩
      rw [Raw.toString?_ofString] at h
      rwa [← Option.some.inj h]

theorem create_ofTrees (h : (ofTrees print).create tree path = .ok opened) :
    ∃ text place, path = Raw.ofString text ∧ tree.Opens text place ∧
      opened = tree.put place (.file []) := by
  obtain ⟨text, rfl, hwrite⟩ := onText_eq_ok_iff.1 h
  obtain ⟨place, hopens, rfl⟩ := FileTree.write_eq_ok_iff.1 hwrite
  exact ⟨text, place, rfl, hopens, rfl⟩

theorem write_ofTrees {text : String} {place : FilePath} (h : tree.Opens text place)
    (content : List UInt8) :
    (ofTrees print).write tree (Raw.ofString text) content =
      (none, tree.put place (.file content)) := by
  have hwrite : onText (Raw.ofString text) (tree.write · content) =
      .ok (tree.put place (.file content)) :=
    onText_eq_ok_iff.2 ⟨text, rfl, FileTree.write_eq_ok_iff.2 ⟨place, h, rfl⟩⟩
  simp only [ofTrees, hwrite]

theorem writesOpened_ofTrees (print : Console) : (ofTrees print).WritesOpened := by
  intro tree opened path hcreate bytes
  obtain ⟨text, place, rfl, hopens, rfl⟩ := create_ofTrees hcreate
  rw [write_ofTrees hopens.put]

theorem toOption_congr {ε α : Type} {first second : Except ε α}
    (h : ∀ a, first = .ok a ↔ second = .ok a) : first.toOption = second.toOption := by
  cases first with
  | ok a => rw [(h a).1 rfl]
  | error e =>
      cases second with
      | ok a => cases (h a).2 rfl
      | error e' => rfl

/-- Two paths lead to one place of a tree. -/
def SamePlace (tree : FileTree) (path other : Raw) : Prop :=
  ∃ text text' place, path = Raw.ofString text ∧ other = Raw.ofString text' ∧
    tree.locate text = .ok place ∧ tree.locate text' = .ok place

theorem read_write_ofTrees {text : String} {place : FilePath} (h : tree.Opens text place)
    (hother : ¬ SamePlace tree other (Raw.ofString text)) (bytes : List UInt8) :
    onText other (tree.put place (.file bytes)).read = .ok content ↔
      onText other tree.read = .ok content := by
  rw [onText_eq_ok_iff, onText_eq_ok_iff]
  refine exists_congr fun text' => and_congr_right fun htext => ?_
  refine FileTree.read_put_eq_ok_iff h.free fun hlocate => hother ?_
  exact ⟨text', text, place, htext, rfl, hlocate, h.locate⟩

/-- What a tree holds is what is read from it. -/
def filesOfTrees (print : Console) : (ofTrees print).Files where
  content? tree path := (onText path tree.read).toOption
  Regular _ _ := True
  Same := SamePlace
  content_of_read := by
    intro tree path bytes _ hread
    change onText path tree.read = .ok bytes at hread
    rw [hread]
    rfl
  regular_write _ _ _ := trivial
  content_write := by
    intro tree opened path bytes _ hcreate _
    obtain ⟨text, place, rfl, hopens, rfl⟩ := create_ofTrees hcreate
    rw [write_ofTrees hopens.put, onText_eq_ok_iff.2 ⟨text, rfl, FileTree.read_put hopens.put⟩]
    rfl
  content_write_of_not_same := by
    intro tree opened path other _ hcreate hother bytes
    obtain ⟨text, place, rfl, hopens, rfl⟩ := create_ofTrees hcreate
    rw [write_ofTrees hopens.put]
    have hopened : ¬ SamePlace (tree.put place (.file [])) other (Raw.ofString text) := by
      rintro ⟨text', text'', place', hpath, hpath', hlocate, hlocate'⟩
      refine hother ⟨text', text'', place', hpath, hpath', ?_, ?_⟩
      · exact (FileTree.locate_put hopens.free).1 hlocate
      · exact (FileTree.locate_put hopens.free).1 hlocate'
    apply toOption_congr
    intro content
    rw [read_write_ofTrees hopens.put hopened, read_write_ofTrees hopens hother]

end Host

end OneBit.Command
