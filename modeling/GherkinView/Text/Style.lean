import GherkinView.Text.Basic

namespace GherkinView.Text

-- Style sequences start with an escape and a bracket and end with a letter.
def escape : Char := '\x1b'

def isStyleParameter (c : Char) : Bool :=
  c == ';' || c == '?' || c.isDigit

-- `held` may turn out to be a sequence; its characters are last first.
def unstyled.scan (held : Text) : Text → Text
  | [] => held.reverse
  | c :: r =>
    let restart := held.reverse ++ if c == escape then scan [escape] r else c :: scan [] r
    match held with
    | [] => restart
    | [_] => if c == '[' then scan (c :: held) r else restart
    | _ => if isStyleParameter c then scan (c :: held) r else if c.isAlpha then scan [] r else restart

def unstyled (t : Text) : Text :=
  unstyled.scan [] t

end GherkinView.Text
