import OneBit.Text.Quoted
/-!
# Texts that the system hands over

What the system hands over need not be text: a name may hold bytes that are not UTF-8, and each of
these comes in as half of a surrogate pair that stands alone. A raw text has such halves beside
characters.
-/

namespace OneBit.Text

/-- What stands at one place of a raw text. -/
inductive Mark
  | char (c : Char)
  /-- Half of a surrogate pair, by its distance from the first one. -/
  | half (offset : Fin 0x800)
  deriving DecidableEq, Repr

abbrev Raw := List Mark

namespace Mark

def char? : Mark → Option Char
  | char c => some c
  | half _ => none

def escapeHalf (offset : Fin 0x800) : List Char :=
  '\\' :: 'u' :: paddedDigits 16 4 (0xD800 + offset.val)

/-- A mark as it is printed: halves cannot be, and are escaped. -/
def shown : Mark → List Char
  | char c => [c]
  | half offset => escapeHalf offset

def quoted (quote : Char) : Mark → List Char
  | char c => quotedChar quote c
  | half offset => escapeHalf offset

end Mark

namespace Raw

def ofString (text : String) : Raw := text.toList.map .char

instance : Coe String Raw := ⟨ofString⟩

/-- The characters, if there is no half among them. -/
def chars? : Raw → Option (List Char)
  | [] => some []
  | .char c :: rest => (chars? rest).map (c :: ·)
  | .half _ :: _ => none

def toString? (raw : Raw) : Option String := raw.chars?.map String.ofList

def shown (raw : Raw) : String := String.ofList (raw.flatMap Mark.shown)

def quoted (raw : Raw) : String :=
  let mark := quoteMark (raw.filterMap Mark.char?)
  String.ofList (mark :: raw.flatMap (Mark.quoted mark) ++ [mark])

theorem chars?_eq_some_iff {raw : Raw} {chars : List Char} :
    raw.chars? = some chars ↔ raw = chars.map Mark.char := by
  induction raw generalizing chars with
  | nil => cases chars <;> simp [chars?]
  | cons mark rest ih =>
      cases mark with
      | half offset => cases chars <;> simp [chars?]
      | char c =>
          cases chars with
          | nil => simp [chars?]
          | cons d chars =>
              simp only [chars?, Option.map_eq_some_iff, ih, List.map_cons, List.cons.injEq,
                Mark.char.injEq]
              exact ⟨fun ⟨_, hrest, hc, hchars⟩ => ⟨hc, hchars ▸ hrest⟩,
                fun ⟨hc, hrest⟩ => ⟨chars, hrest, hc, rfl⟩⟩

theorem toString?_eq_some_iff {raw : Raw} {text : String} :
    raw.toString? = some text ↔ raw = ofString text := by
  rw [toString?, Option.map_eq_some_iff, ofString, ← chars?_eq_some_iff]
  refine ⟨?_, fun h => ⟨_, h, String.ofList_toList⟩⟩
  rintro ⟨chars, h, rfl⟩
  rwa [String.toList_ofList]

@[simp] theorem toString?_ofString (text : String) : (ofString text).toString? = some text :=
  toString?_eq_some_iff.2 rfl

end Raw

end OneBit.Text
