import OneBit.Loader
/-!
# Sessions

An assembler or a loader that is kept serves one request after the other, and each request finds it
as the one before left it. Assembling starts afresh, whatever was there.
-/

namespace OneBit

namespace Assembler

/-- What can be asked of an assembler that is kept. -/
inductive Request
  | assemble (source : String)
  | addError (line : Int) (text : String)
  | addWarning (line : Int) (text : String)
  deriving DecidableEq, Repr

def serve (a : Assembler) : Request → Logged Assembler
  | .assemble source => assemble source
  | .addError line text => return a.addError line text
  | .addWarning line text => return a.addWarning line text

end Assembler

namespace Loader

/-- What can be asked of a loader that is kept. -/
inductive Request
  | assemble (source : String)
  | assembleFile (path : String)
  /-- The words of an image file. -/
  | loadImage (path : String)
  | build (entries : List (Option ProgramEntry))
  | words
  | comments
  deriving DecidableEq, Repr

inductive Response
  | image (bytes : List UInt8)
  | words (words : List Word)
  | comments (comments : List String)
  deriving DecidableEq, Repr

def serve (tree : FileTree) (l : Loader) :
    Request → Logged (Except LoadError Response × Loader)
  | .assemble source => do
    let (outcome, next) ← assemble source
    return (outcome.map .image, next)
  | .assembleFile path => do
    let (outcome, next) ← l.assembleFile tree path
    return (outcome.map .image, next)
  | .loadImage path => do
    let outcome ← readImageFile tree path
    return ((outcome.map .words).mapError .file, l)
  | .build entries => do
    let (outcome, next) ← l.build entries
    return (outcome.map .image, next)
  | .words => return (.ok (.words l.words), l)
  | .comments => return (.ok (.comments l.comments), l)

end Loader

def imageOfSource (source : String) : Logged (Except LoadError (List UInt8)) := do
  let (outcome, _) ← Loader.assemble source
  return outcome

end OneBit
