import Soms.Bbcode.Text

/-!
# HTML of the BBCode service

`html.escape` and `make_tag`.
-/

namespace Soms.Bbcode

/-- What `html.escape` puts for a character. -/
def escapeChar : Char → Text
  | '&' => "&amp;".toList
  | '<' => "&lt;".toList
  | '>' => "&gt;".toList
  | '"' => "&quot;".toList
  | '\'' => "&#x27;".toList
  | c => [c]

/-- `html.escape` -/
def escape (text : Text) : Text := text.flatMap escapeChar

/-- One attribute of a tag, with the blank before it. -/
def attrPart (entry : String × Text) : Text :=
  ' ' :: entry.1.toList ++ '=' :: '"' :: (escape entry.2 ++ ['"'])

def makeTag (tag : String) (content : Text) (attributes : List (String × Text))
    (selfClosing : Bool) : Text :=
  '<' :: tag.toList ++ attributes.flatMap attrPart ++
    (if selfClosing then " />".toList else '>' :: content ++ "</".toList ++ tag.toList ++ ['>'])

end Soms.Bbcode
