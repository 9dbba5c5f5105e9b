import GherkinView.Sentence.Splice
import GherkinView.Sentence.Selector
import GherkinView.Sentence.Opening

namespace GherkinView.Sentence

def tell (label code : Text) : Text :=
  applyOpenings (describeSelectors (splice (Text.stripQuotes label) code))

end GherkinView.Sentence
