import PanelClient.Text.Visible
/-!
# Quoted text

* `Quoted.escape`: a character between quotes, by a short escape or by its code where it would not
  be visible;
* `Quoted.quote`: a text between quotes.
-/

namespace PanelClient.Quoted

/-- A character as it stands between quotes. -/
def escape (c : Char) : String :=
  match c with
  | '\x00' => "\\0"
  | '\t' => "\\t"
  | '\r' => "\\r"
  | '\n' => "\\n"
  | '"' => "\\\""
  | '\\' => "\\\\"
  | c =>
    if Visible.isHidden c then
      "\\u\x7b" ++ String.ofList (Nat.toDigits 16 c.toNat) ++ "\x7d"
    else String.singleton c

/-- A text between quotes. -/
def quote (s : String) : String := "\"" ++ String.join (s.toList.map escape) ++ "\""

end PanelClient.Quoted
