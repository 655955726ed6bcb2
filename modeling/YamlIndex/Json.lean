import YamlIndex.Text.Number

/-!
# Results as JSON

A result is written as JSON in full lines: every element of a list and every member of an object has
a line of its own, two blanks further in than what it belongs to.  Members keep their order.

## Main results

* `escape_visible`: no control character is left as it is in a text.
-/

namespace YamlIndex

/-- A value that is written as JSON. -/
inductive Json where
  | bool (b : Bool)
  | number (n : Nat)
  | text (s : String)
  | list (items : List Json)
  | object (members : List (String × Json))

namespace Json

/-- A control character by its number. -/
def numbered (c : Char) : List Char :=
  let digits := Text.hexDigits c.toNat
  ['\\', 'u'] ++ List.replicate (4 - digits.length) '0' ++ digits

/-- One character of a text. -/
def escape (c : Char) : List Char :=
  match c with
  | '"' => ['\\', '"']
  | '\\' => ['\\', '\\']
  | '\x08' => ['\\', 'b']
  | '\t' => ['\\', 't']
  | '\n' => ['\\', 'n']
  | '\x0c' => ['\\', 'f']
  | '\r' => ['\\', 'r']
  | _ => if c.toNat < 0x20 then numbered c else [c]

/-- A text in double quotes. -/
def quoted (s : String) : String :=
  String.ofList (['"'] ++ s.toList.flatMap escape ++ ['"'])

/-- Lines between an opening and a closing bracket; nothing stands between the brackets when there
are none. -/
def bracketed (opening closing margin : String) : List String → String
  | [] => opening ++ closing
  | lines =>
    opening ++ "\n" ++ String.intercalate ",\n" (lines.map fun line => margin ++ "  " ++ line) ++
      "\n" ++ margin ++ closing

mutual

/-- The text of a value whose line starts with the given margin. -/
def render (margin : String) : Json → String
  | .bool true => "true"
  | .bool false => "false"
  | .number n => Text.decimal n
  | .text s => quoted s
  | .list items => bracketed "[" "]" margin (renderItems (margin ++ "  ") items)
  | .object members => bracketed "\x7b" "\x7d" margin (renderMembers (margin ++ "  ") members)

/-- The texts of the elements of a list. -/
def renderItems (margin : String) : List Json → List String
  | [] => []
  | item :: rest => item.render margin :: renderItems margin rest

/-- The texts of the members of an object. -/
def renderMembers (margin : String) : List (String × Json) → List String
  | [] => []
  | (name, value) :: rest =>
    (quoted name ++ ": " ++ value.render margin) :: renderMembers margin rest

end

/-- A value as a text that ends its last line. -/
def document (value : Json) : String :=
  value.render "" ++ "\n"

theorem escape_visible (c : Char) (h : c.toNat < 0x20) : (escape c).head? = some '\\' := by
  unfold escape
  split <;> first
    | rfl
    | simp [h, numbered]

end Json

end YamlIndex
