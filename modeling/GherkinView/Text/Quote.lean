import GherkinView.Text.Basic

namespace GherkinView.Text

def isQuote (c : Char) : Bool :=
  c == '\x27' || c == '\x22' || c == '\x60'

-- `some inner` stands inside a literal, of which `inner` has been read, last character first.
def literals.scan : Option Text → Text → List Text
  | _, [] => []
  | none, c :: r => scan (if isQuote c then some [] else none) r
  | some inner, c :: r =>
    if isQuote c then inner.reverse :: scan none r else scan (some (c :: inner)) r

-- A literal opens at a quote mark of any kind and ends before the next one, again of any kind.
def literals (t : Text) : List Text :=
  literals.scan none t

def firstLiteral? (t : Text) : Option Text :=
  (literals t).head?

def stripQuotes (t : Text) : Text :=
  t.filter fun c => !isQuote c

end GherkinView.Text
