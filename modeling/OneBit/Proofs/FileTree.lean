import Mathlib.Tactic.SplitIfs
import OneBit.FileTree
/-!
# Writing and reading files

A file is written where its path leads, if the directories on the way are there and no directory
stands at its end.  No directory comes or goes, so every path still leads where it led.  Reading the
path gives back what was written, and paths to other places are read as before.
-/

namespace OneBit

theorem bind_eq_ok_iff {ε α β : Type} {first : Except ε α} {next : α → Except ε β} {b : β} :
    (first >>= next) = .ok b ↔ ∃ a, first = .ok a ∧ next a = .ok b := by
  cases first with
  | error e => simp [bind, Except.bind]
  | ok a => simp [bind, Except.bind]

theorem mapError_eq_ok_iff {ε ε' α : Type} {f : ε → ε'} {first : Except ε α} {a : α} :
    first.mapError f = .ok a ↔ first = .ok a := by
  cases first with
  | error e => exact iff_of_false nofun nofun
  | ok b => simp [Except.mapError]

namespace FileTree

variable {tree after : FileTree} {path : String} {place other : FilePath} {entry : FileEntry}
  {content : List UInt8}

/-! ## One place of a tree -/

theorem find?_put_self (h : place ≠ []) : (tree.put place entry).find? place = some entry := by
  rw [find?, if_neg (by simpa using h), put, List.lookup_cons_self]

theorem find?_put_of_ne (h : other ≠ place) :
    (tree.put place entry).find? other = tree.find? other := by
  have hbeq : (other == place) = false := beq_eq_false_iff_ne.2 h
  rw [find?, find?, put, List.lookup_cons, hbeq]

/-! ## Where paths lead -/

/-- The last name on a path. -/
def lastName (path : String) : List Char := (Text.splitAt '/' path.toList).getLast?.getD []

/-- The directories that a path goes through. -/
def wayTo (path : String) : List (List Char) := (Text.splitAt '/' path.toList).dropLast

theorem locate_eq (tree : FileTree) (path : String) :
    tree.locate path = (checkPath path >>= fun _ =>
      if (staysPut (lastName path) || lastName path == ['.', '.']) = true then
        tree.descend (tree.startOf path.toList) (Text.splitAt '/' path.toList) >>= fun _ =>
          .error .isDirectory
      else
        tree.descend (tree.startOf path.toList) (wayTo path) >>= fun directory =>
          if isTooLong (lastName path) = true then .error .nameTooLong
          else .ok (directory ++ [lastName path])) := rfl

/-- A path that leads somewhere goes through directories to a name that a file can have. -/
theorem locate_eq_ok_iff :
    tree.locate path = .ok place ↔
      checkPath path = .ok () ∧ (staysPut (lastName path) || lastName path == ['.', '.']) ≠ true ∧
        isTooLong (lastName path) ≠ true ∧
        ∃ directory, tree.descend (tree.startOf path.toList) (wayTo path) = .ok directory ∧
          place = directory ++ [lastName path] := by
  rw [locate_eq, bind_eq_ok_iff]
  constructor
  · rintro ⟨_, hcheck, h⟩
    split_ifs at h with hlast hlong
    · obtain ⟨_, -, h⟩ := bind_eq_ok_iff.1 h
      cases h
    · obtain ⟨_, -, h⟩ := bind_eq_ok_iff.1 h
      cases h
    · obtain ⟨directory, hdescend, h⟩ := bind_eq_ok_iff.1 h
      cases h
      exact ⟨hcheck, hlast, hlong, directory, hdescend, rfl⟩
  · rintro ⟨hcheck, hlast, hlong, directory, hdescend, rfl⟩
    refine ⟨(), hcheck, ?_⟩
    rw [if_neg hlast, bind_eq_ok_iff]
    exact ⟨directory, hdescend, if_neg hlong⟩

theorem ne_nil_of_locate (h : tree.locate path = .ok place) : place ≠ [] := by
  obtain ⟨-, -, -, directory, -, rfl⟩ := locate_eq_ok_iff.1 h
  simp

theorem locateForWriting_eq (tree : FileTree) (path : String) :
    let trimmed := (path.toList.reverse.dropWhile (· == '/')).reverse
    tree.locateForWriting path =
      if (!trimmed.isEmpty && trimmed.length < path.toList.length) = true then
        checkPath path >>= fun _ =>
          tree.descend (tree.startOf trimmed) (Text.splitAt '/' trimmed).dropLast >>= fun _ =>
            .error .isDirectory
      else tree.locate path := rfl

/-- A path that can be written leads where it leads for reading, and does not end with a slash. -/
theorem locateForWriting_eq_ok_iff :
    let trimmed := (path.toList.reverse.dropWhile (· == '/')).reverse
    tree.locateForWriting path = .ok place ↔
      (!trimmed.isEmpty && trimmed.length < path.toList.length) ≠ true ∧
        tree.locate path = .ok place := by
  intro trimmed
  rw [locateForWriting_eq]
  split_ifs with hslash
  · refine ⟨fun h => ?_, fun h => absurd hslash h.1⟩
    obtain ⟨_, -, h⟩ := bind_eq_ok_iff.1 h
    obtain ⟨_, -, h⟩ := bind_eq_ok_iff.1 h
    cases h
  · exact ⟨fun h => ⟨hslash, h⟩, And.right⟩

/-! ## Writing -/

/-- A path that can be opened for writing, and the place it leads to. -/
structure Opens (tree : FileTree) (path : String) (place : FilePath) : Prop where
  located : tree.locateForWriting path = .ok place
  free : tree.find? place ≠ some .directory

theorem Opens.locate (h : tree.Opens path place) : tree.locate path = .ok place :=
  (locateForWriting_eq_ok_iff.1 h.located).2

theorem write_of_located (h : tree.locateForWriting path = .ok place) (content : List UInt8) :
    tree.write path content =
      if tree.find? place = some .directory then .error ⟨.isDirectory, path⟩
      else .ok (tree.put place (.file content)) := by
  unfold write
  rw [h]
  cases hentry : tree.find? place with
  | none => simp [bind, Except.bind, pure, Except.pure, Except.mapError, hentry]
  | some entry =>
      cases entry with
      | file bytes => simp [bind, Except.bind, pure, Except.pure, Except.mapError, hentry]
      | directory =>
          simp [bind, Except.bind, Except.mapError, throw, throwThe, MonadExceptOf.throw, hentry]

theorem write_eq_ok_iff :
    tree.write path content = .ok after ↔
      ∃ place, tree.Opens path place ∧ after = tree.put place (.file content) := by
  cases hlocated : tree.locateForWriting path with
  | error fault =>
      have hwrite : tree.write path content = .error ⟨fault, path⟩ := by
        unfold write
        rw [hlocated]
        rfl
      rw [hwrite]
      refine ⟨nofun, ?_⟩
      rintro ⟨place, hopens, -⟩
      cases hlocated.symm.trans hopens.located
  | ok place =>
      rw [write_of_located hlocated]
      constructor
      · intro h
        split_ifs at h with hdirectory
        exact ⟨place, ⟨hlocated, hdirectory⟩, (Except.ok.inj h).symm⟩
      · rintro ⟨place', hopens, rfl⟩
        obtain rfl := Except.ok.inj (hlocated.symm.trans hopens.located)
        rw [if_neg hopens.free]

/-! ## Paths after a file was put -/

theorem find?_put_eq_directory_iff (hfree : tree.find? place ≠ some .directory) :
    (tree.put place (.file content)).find? other = some .directory ↔
      tree.find? other = some .directory := by
  by_cases hother : other = place
  · subst hother
    refine iff_of_false (fun h => ?_) hfree
    by_cases hroot : other = []
    · exact hfree (by rw [hroot]; rfl)
    · rw [find?_put_self hroot] at h
      cases h
  · rw [find?_put_of_ne hother]

/-- One name that is neither empty nor made of dots goes down to a directory. -/
theorem descend_cons_eq_ok_iff {start finish : FilePath} {name : List Char}
    {names : List (List Char)} (hstays : staysPut name ≠ true) (hup : (name == ['.', '.']) ≠ true) :
    tree.descend start (name :: names) = .ok finish ↔
      isTooLong name ≠ true ∧ tree.find? (start ++ [name]) = some .directory ∧
        tree.descend (start ++ [name]) names = .ok finish := by
  rw [descend, if_neg hstays, if_neg hup]
  split_ifs with hlong
  · exact iff_of_false nofun fun h => h.1 hlong
  · cases hfound : tree.find? (start ++ [name]) with
    | none => simp
    | some entry => cases entry <;> simp [hlong]

/-- Directories are found as before, since none stands where a file was put. -/
theorem descend_put (hfree : tree.find? place ≠ some .directory) {start finish : FilePath}
    {names : List (List Char)} :
    (tree.put place (.file content)).descend start names = .ok finish ↔
      tree.descend start names = .ok finish := by
  induction names generalizing start with
  | nil => rw [descend, descend]
  | cons name names ih =>
      by_cases hstays : staysPut name = true
      · rw [descend, descend, if_pos hstays, if_pos hstays, ih]
      by_cases hup : (name == ['.', '.']) = true
      · rw [descend, descend, if_neg hstays, if_neg hstays, if_pos hup, if_pos hup, ih]
      rw [descend_cons_eq_ok_iff hstays hup, descend_cons_eq_ok_iff hstays hup,
        find?_put_eq_directory_iff hfree, ih]

theorem locate_put (hfree : tree.find? place ≠ some .directory) {other : FilePath} :
    (tree.put place (.file content)).locate path = .ok other ↔ tree.locate path = .ok other := by
  have hstart : (tree.put place (.file content)).startOf path.toList = tree.startOf path.toList :=
    rfl
  rw [locate_eq_ok_iff, locate_eq_ok_iff, hstart]
  simp only [descend_put hfree]

theorem Opens.put (h : tree.Opens path place) :
    (tree.put place (.file content)).Opens path place where
  located := by
    obtain ⟨hslash, hlocate⟩ := locateForWriting_eq_ok_iff.1 h.located
    exact locateForWriting_eq_ok_iff.2 ⟨hslash, (locate_put h.free).2 hlocate⟩
  free := mt (find?_put_eq_directory_iff h.free).1 h.free

/-! ## Reading -/

theorem read_eq (tree : FileTree) (path : String) :
    tree.read path =
      (tree.locate path >>= fun place =>
        match tree.find? place with
        | some (.file content) => .ok content
        | some .directory => .error .isDirectory
        | none => .error .notFound).mapError fun fault => FileError.mk fault path := rfl

theorem read_eq_ok_iff :
    tree.read path = .ok content ↔
      ∃ place, tree.locate path = .ok place ∧ tree.find? place = some (.file content) := by
  rw [read_eq, mapError_eq_ok_iff, bind_eq_ok_iff]
  refine exists_congr fun place => and_congr_right fun _ => ?_
  cases tree.find? place with
  | none => simp
  | some entry => cases entry <;> simp

/-- A path that leads to another place is read as before. -/
theorem read_put_eq_ok_iff (hfree : tree.find? place ≠ some .directory)
    (hpath : tree.locate path ≠ .ok place) {bytes : List UInt8} :
    (tree.put place (.file content)).read path = .ok bytes ↔ tree.read path = .ok bytes := by
  rw [read_eq_ok_iff, read_eq_ok_iff]
  refine exists_congr fun other => ?_
  rw [locate_put hfree]
  refine and_congr_right fun hlocate => ?_
  have hne : other ≠ place := by
    rintro rfl
    exact hpath hlocate
  rw [find?_put_of_ne hne]

theorem read_put (h : tree.Opens path place) :
    (tree.put place (.file content)).read path = .ok content :=
  read_eq_ok_iff.2
    ⟨place, (locate_put h.free).2 h.locate, find?_put_self (ne_nil_of_locate h.locate)⟩

end FileTree

end OneBit
