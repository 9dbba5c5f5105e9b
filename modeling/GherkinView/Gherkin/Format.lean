import GherkinView.Gherkin.Json
import GherkinView.Gherkin.Layout
import GherkinView.Gherkin.Page

namespace GherkinView.Gherkin

inductive Format
  | gherkin
  | html
  | json
  deriving DecidableEq

namespace Format

def name : Format → Text
  | gherkin => "gherkin".toList
  | html => "html".toList
  | json => "json".toList

-- What names of files in this format end in.
def suffix : Format → Text
  | gherkin => ".feature".toList
  | html => ".html".toList
  | json => ".json".toList

def all : List Format := [gherkin, html, json]

def ofName? (t : Text) : Option Format :=
  all.find? (·.name == t)

end Format

-- Only a page has a title.
def Document.write (d : Document) (title : Option Text) : Format → Text
  | .gherkin => d.render
  | .html => d.page title
  | .json => d.toJson.pretty 0

end GherkinView.Gherkin
