import GherkinView.File.Pattern

namespace GherkinView.File

def defaultPatterns : List Text :=
  ["**/*.spec.ts".toList, "**/*.spec.js".toList, "**/*.test.ts".toList, "**/*.test.js".toList]

def sortedOnce (ps : List Path) : List Path :=
  ps.eraseDups.mergeSort fun p q => !q.precedes p

namespace Tree

def filesMatching (t : Tree) (root : Path) (pattern : Text) : Except Error (List Path) :=
  match parsePattern pattern with
  | .error f => .error (.pattern f)
  | .ok segments => .ok ((if t.isDirectory root then t.glob root segments else []).filter t.isFile)

def scriptsUnder (t : Tree) (root : Path) (patterns : List Text) : Except Error (List Path) := do
  if t.isFile root then return [root]
  let found ← patterns.mapM (t.filesMatching root)
  return sortedOnce found.flatten

end Tree
end GherkinView.File
