import GherkinView.Gherkin.Layout
import GherkinView.Text.Word

namespace GherkinView.Gherkin

open Text

inductive Section
  | feature
  | background
  | scenario
  deriving DecidableEq

namespace Section

def header : Section → Text
  | feature => "Feature:".toList
  | background => "Background:".toList
  | scenario => "Scenario:".toList

def cssClass : Section → Text
  | feature => "gherkin-feature".toList
  | background => "gherkin-background".toList
  | scenario => "gherkin-scenario".toList

def all : List Section := [feature, background, scenario]

end Section

-- A line of Gherkin text as it is shown: `indent` and `rest` stand around what is set off.
inductive PageLine
  | header (kind : Section) (indent rest : Text)
  | step (keyword : Keyword) (indent rest : Text)
  | plain (line : Text)
  deriving DecidableEq

namespace PageLine

def ofHeader? (line : Text) : Option PageLine :=
  Section.all.findSome? fun s =>
    (after? s.header (trimStart line)).map (header s (line.takeWhile isBlank))

-- The keyword ends where a word does.
def ofStep? (line : Text) : Option PageLine :=
  Keyword.all.findSome? fun k =>
    ((after? k.name (trimStart line)).filter fun r => !r.head?.any isWord).map
      (step k (line.takeWhile isBlank))

def ofLine (line : Text) : PageLine :=
  ((ofHeader? line).or (ofStep? line)).getD (plain line)

end PageLine

namespace Page

def escapeChar : Char → Text
  | '&' => "&amp;".toList
  | '<' => "&lt;".toList
  | '>' => "&gt;".toList
  | '\x22' => "&#34;".toList
  | '\x27' => "&#39;".toList
  | c => [c]

def escape (t : Text) : Text :=
  t.flatMap escapeChar

def line : PageLine → Text
  | .header s indent rest =>
    "<div class=\"".toList ++ s.cssClass ++ "\">".toList ++
      escape indent ++ escape s.header ++ escape rest ++ "</div>".toList
  | .step k indent rest =>
    "<div>".toList ++ escape indent ++ "<span class=\"gherkin-keyword\">".toList ++
      escape k.name ++ "</span>".toList ++ escape rest ++ "</div>".toList
  | .plain t => "<div>".toList ++ escape t ++ "</div>".toList

def emptyNotice : Text :=
  "<p class=\"empty\">No test suites found</p>".toList

def rules : List Text :=
  ["body \x7b font-family: monospace; padding: 1em; \x7d".toList,
    "div \x7b white-space: pre; min-height: 1em; \x7d".toList,
    ".gherkin-feature \x7b font-weight: bold; color: #0b5394; \x7d".toList,
    ".gherkin-background \x7b font-weight: bold; color: #6a329f; \x7d".toList,
    ".gherkin-scenario \x7b font-weight: bold; color: #38761d; \x7d".toList,
    ".gherkin-keyword \x7b font-weight: bold; color: #b45f06; \x7d".toList]

def head (title : Text) : List Text :=
  ["<!DOCTYPE html>".toList, "<html lang=\"en\">".toList, "<head>".toList,
    "    <meta charset=\"UTF-8\">".toList,
    "    <title>".toList ++ escape title ++ "</title>".toList,
    "    <style>".toList] ++
  rules.map ("        ".toList ++ ·) ++
  ["    </style>".toList, "</head>".toList]

def lines (gherkin : Text) : List PageLine :=
  if gherkin.isEmpty then [] else (Text.lines gherkin).map PageLine.ofLine

def body (ls : List PageLine) : List Text :=
  "<body>".toList :: (if ls.isEmpty then [emptyNotice] else ls.map line) ++ ["</body>".toList]

def ofText (title gherkin : Text) : Text :=
  Text.unlines (head title ++ body (lines gherkin) ++ ["</html>".toList])

end Page

def Document.defaultTitle (d : Document) : Text :=
  (d.features.head?.map (·.name)).getD "Gherkin Preview".toList

def Document.page (d : Document) (title : Option Text) : Text :=
  Page.ofText (title.getD d.defaultTitle) d.render

end GherkinView.Gherkin
