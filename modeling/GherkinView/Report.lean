import GherkinView.File.Discovery
import GherkinView.Gherkin.Format

namespace GherkinView

open File

-- Characters that names of files had better not hold.
def isReserved (c : Char) : Bool :=
  c == '<' || c == '>' || c == ':' || c == '\x22' || c == '/' || c == '\\' || c == '|' || c == '?' || c == '*'

def safeName (t : Text) : Text :=
  t.map fun c => if isReserved c then '_' else c

-- The stem of a script without the mark of a test in it.
def plainStem (stem : Text) : Text :=
  let mark := fun m => List.isSuffixOf m stem
  if mark ".spec".toList || mark ".test".toList then stem.take (stem.length - 5) else stem

-- Where the source stands below the root, if that is a directory.
def placeBelow (t : Tree) (source root : Path) : Except Error Path :=
  if t.isDirectory root then
    match source.parent.below? root with
    | some place => .ok place
    | none => .error (.outside source.parent root)
  else .ok {}

-- The target keeps the place of the source below the root; `withSuffix` keeps its suffix too.
def target (t : Tree) (source root out : Path) (format : Gherkin.Format) (withSuffix : Bool) :
    Except Error Path := do
  let stem := plainStem source.stem ++ if withSuffix then source.suffix else []
  let place ← placeBelow t source root
  return (out.join place).child (safeName stem ++ format.suffix)

-- Writes the page of a document, with the directories above it.
def writePage (t : Tree) (d : Gherkin.Document) (p : Path) (title : Option Text) : Except Error Tree := do
  let t ← t.makeDirectories p.parent
  t.writeText p (d.page title)

end GherkinView
