import YamlIndex.Yaml.Cursor
import YamlIndex.Yaml.Token

/-!
# Names, tags and directives

Anchors and aliases are names.  A tag is a handle, which a directive may have bound, and a suffix of
URI characters, where a percent sign and two hexadecimal digits stand for an octet.  Flow indicators
belong to a tag only where it stands between angle brackets.

Each reader takes the cursor behind what it recognises; none means that the text is malformed.
-/

namespace YamlIndex.Yaml

/-! ## Anchors and aliases -/

/-- Reads the name of an anchor or an alias, whose sign is ahead. -/
def readName? (cursor : Cursor) : Option (List Char × Cursor) :=
  let (name, cursor) := (cursor.skip 1).span isNameChar
  let ends := match cursor.rest with
    | [] => true
    | c :: _ => isSpace c || isBreak c || ['?', ':', ',', ']', '}', '%', '@', '`'].contains c
  if name.isEmpty || !ends then none else some (name, cursor)

/-! ## URIs -/

/-- Whether a character may stand in a tag; flow indicators only in a bracketed one. -/
def isUriChar (bracketed : Bool) (c : Char) : Bool :=
  isNameChar c || ";/?:@&=+$.%!~*'()".toList.contains c ||
    (bracketed && [',', '[', ']'].contains c)

/-- Reads one escaped octet. -/
def escapedOctet? : List Char → Option (UInt8 × List Char)
  | '%' :: high :: low :: rest => do
    let high ← Text.hexValue? high
    let low ← Text.hexValue? low
    return ((16 * high + low).toUInt8, rest)
  | _ => none

/-- The number of octets that follow the first one of a character; none if it is no first octet. -/
def octetsAfter? (first : UInt8) : Option Nat :=
  if first &&& 0x80 == 0 then some 0
  else if first &&& 0xe0 == 0xc0 then some 1
  else if first &&& 0xf0 == 0xe0 then some 2
  else if first &&& 0xf8 == 0xf0 then some 3
  else none

/-- Reads a number of escaped octets that continue a character. -/
def continuingOctets? : Nat → List Char → Option (Octets × List Char)
  | 0, s => some ([], s)
  | n + 1, s => do
    let (octet, rest) ← escapedOctet? s
    if octet &&& 0xc0 != 0x80 then none
    else
      let (octets, rest) ← continuingOctets? n rest
      return (octet :: octets, rest)

/-- Reads the octets of one escaped character. -/
def escapedOctets? (s : List Char) : Option (Octets × List Char) := do
  let (first, rest) ← escapedOctet? s
  let count ← octetsAfter? first
  let (octets, rest) ← continuingOctets? count rest
  return (first :: octets, rest)

/-- Reads URI characters as far as they go; `cursor` moves over them.  The first argument bounds the
number of steps. -/
def readUriFrom? (bracketed : Bool) : Nat → Octets → Cursor → Option (Octets × Cursor)
  | 0, sofar, cursor => some (sofar, cursor)
  | steps + 1, sofar, cursor =>
    match cursor.rest with
    | [] => some (sofar, cursor)
    | c :: rest =>
      if !isUriChar bracketed c then some (sofar, cursor)
      else if c == '%' then do
        let (octets, _) ← escapedOctets? cursor.rest
        readUriFrom? bracketed steps (sofar ++ octets) (cursor.skip (3 * octets.length))
      else readUriFrom? bracketed steps (sofar ++ Octets.ofAscii [c]) (cursor.past [c] rest)

/-- Reads URI characters behind those of `head`, of which there is at least one in all.  The
exclamation mark that opens `head` is not part of the result. -/
def readUri? (bracketed : Bool) (head : List Char) (cursor : Cursor) :
    Option (Octets × Cursor) := do
  let (octets, after) ←
    readUriFrom? bracketed (cursor.size + 1) (Octets.ofAscii head.tail) cursor
  if head.isEmpty && after.index == cursor.index then none else some (octets, after)

/-! ## Tags -/

/-- Reads a tag handle: an exclamation mark, a name and perhaps a second exclamation mark. -/
def readHandle? (cursor : Cursor) : Option (List Char × Cursor) :=
  match cursor.rest with
  | '!' :: _ =>
    let (name, cursor) := (cursor.skip 1).span isNameChar
    match cursor.rest with
    | '!' :: _ => some ('!' :: name ++ ['!'], cursor.skip 1)
    | _ => some ('!' :: name, cursor)
  | _ => none

/-- Whether a handle ends in an exclamation mark of its own. -/
def isFullHandle (handle : List Char) : Bool :=
  handle.length > 1 && handle.getLast? == some '!'

/-- Reads the handle and the suffix of a tag. -/
def readTagParts? (cursor : Cursor) : Option (Token × Cursor) :=
  match cursor.rest with
  | '!' :: '<' :: _ => do
    let (suffix, cursor) ← readUri? true [] (cursor.skip 2)
    match cursor.rest with
    | '>' :: _ => some (.tag [] suffix, cursor.skip 1)
    | _ => none
  | _ => do
    let (handle, cursor) ← readHandle? cursor
    if isFullHandle handle then
      let (suffix, cursor) ← readUri? false [] cursor
      return (.tag (Octets.ofAscii handle) suffix, cursor)
    else
      let (suffix, cursor) ← readUri? false handle cursor
      let bang := Octets.ofAscii ['!']
      return (if suffix.isEmpty then .tag [] bang else .tag bang suffix, cursor)

/-- Reads a tag, which a blank must follow, or a comma where flow collections are open. -/
def readTag? (inFlow : Bool) (cursor : Cursor) : Option (Token × Cursor) := do
  let (token, cursor) ← readTagParts? cursor
  if blankAhead cursor.rest || (inFlow && cursor.rest.head? == some ',') then
    return (token, cursor)
  else none

/-! ## Directives -/

/-- Reads a version number of at most nine digits. -/
def readVersionNumber? (cursor : Cursor) : Option (Nat × Cursor) :=
  let (digits, cursor) := cursor.span Text.isDigit
  if digits.isEmpty || digits.length > 9 then none else some (Text.natOf digits, cursor)

/-- Reads the two numbers of a version directive. -/
def readVersion? (cursor : Cursor) : Option (Token × Cursor) := do
  let (major, cursor) ← readVersionNumber? cursor.skipSpaces
  match cursor.rest with
  | '.' :: _ =>
    let (minor, cursor) ← readVersionNumber? (cursor.skip 1)
    return (.versionDirective major minor, cursor)
  | _ => none

/-- Reads what a tag directive binds. -/
def readTagBinding? (cursor : Cursor) : Option (Token × Cursor) := do
  let (handle, cursor) ← readHandle? cursor.skipSpaces
  if !(isFullHandle handle || handle == ['!']) then none
  else if !(cursor.rest.head?.any isSpace) then none
  else
    let (tagStart, cursor) ← readUri? true [] cursor.skipSpaces
    if blankAhead cursor.rest then return (.tagDirective (Octets.ofAscii handle) tagStart, cursor)
    else none

/-- Reads a directive, whose percent sign is ahead, with the rest of its line. -/
def readDirective? (cursor : Cursor) : Option (Token × Cursor) := do
  let (name, cursor) := (cursor.skip 1).span isNameChar
  if name.isEmpty || !blankAhead cursor.rest then none
  else
    let (token, cursor) ←
      if name == "YAML".toList then readVersion? cursor
      else if name == "TAG".toList then readTagBinding? cursor
      else none
    return (token, ← cursor.skipLineRemainder?)

end YamlIndex.Yaml
