import GherkinView.File.Path
import GherkinView.File.Utf8

namespace GherkinView

inductive File.Cause
  | missing
  | exists
  | notDirectory
  | isDirectory
  | nullCharacter
  deriving DecidableEq

inductive File.PatternFault
  -- What stands there counts as nothing.
  | nothing (shown : Text)
  | mapping
  | absolute
  | deepInName
  -- A pattern of single dots names nothing below the directory; with a slash behind, the directory.
  | onlyDots
  | onlySlash
  deriving DecidableEq

inductive Error
  | file (cause : File.Cause) (path : File.Path)
  | undecodable (failure : File.Utf8.Failure)
  | unsupportedSource (name : Text)
  | unknownFormat (name : Text)
  | unknownKeyword (name : Text)
  | outside (path base : File.Path)
  | pattern (fault : File.PatternFault)
  | invalidSettings (path : File.Path)
  | invalidValue (message : Text)
  | endlessValue
  | settingsNotMapping (path : File.Path)
  | unknownLevel (name : Text)
  | notNumber (shown : Text)
  -- A setting of a kind that cannot be used where it stands.
  | wrongKind
  | levelNotText
  | overridesNotMapping
  deriving DecidableEq

namespace Error

def fileMessage (path : File.Path) : File.Cause → Text
  | .missing => "[Errno 2] No such file or directory: ".toList ++ Text.display path.toText
  | .exists => "[Errno 17] File exists: ".toList ++ Text.display path.toText
  | .notDirectory => "[Errno 20] Not a directory: ".toList ++ Text.display path.toText
  | .isDirectory => "[Errno 21] Is a directory: ".toList ++ Text.display path.toText
  | .nullCharacter => "embedded null byte".toList

def patternMessage : File.PatternFault → Text
  | .nothing shown => "Unacceptable pattern: ".toList ++ shown
  | .absolute => "Non-relative patterns are unsupported".toList
  | .deepInName => "Invalid pattern: '**' can only be an entire path component".toList
  | .mapping => "A mapping is no pattern".toList
  | .onlyDots | .onlySlash => "A pattern of dots names nothing".toList

def message : Error → Text
  | file cause path => fileMessage path cause
  | undecodable failure => failure.message
  | unsupportedSource name =>
    "Please open a JavaScript or TypeScript test file (got '".toList ++ name ++ "')".toList
  | unknownFormat name => "Unknown output format: ".toList ++ name
  | unknownKeyword name => Text.display name ++ " is not a valid StepType".toList
  | outside path base =>
    Text.display path.toText ++ " is not in the subpath of ".toList ++ Text.display base.toText ++
      " OR one path is relative and the other is absolute.".toList
  | pattern fault => patternMessage fault
  | invalidSettings path => "Invalid YAML in ".toList ++ path.toText
  | invalidValue message => message
  | endlessValue => "maximum recursion depth exceeded".toList
  | settingsNotMapping path => "Expected a mapping at the top of ".toList ++ path.toText
  | unknownLevel name => "Unknown level: ".toList ++ Text.display name
  | notNumber shown => "could not convert string to float: ".toList ++ Text.display shown
  | wrongKind => "A setting is of the wrong kind".toList
  | levelNotText => "The logging level is no text".toList
  | overridesNotMapping => "The overrides are no mapping".toList

end Error
end GherkinView
