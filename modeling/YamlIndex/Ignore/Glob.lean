/-!
# Globs

A glob is a pattern for the text of a path.  It is matched octet by octet against the encoding of
the text, so a single wildcard stands for one octet.  No wildcard but the double star crosses a
slash; a class of characters may contain one.

A pattern is made of parts, and each part leads from what is left of a path to what may be left
behind it.  The path matches when nothing may be left behind the last part.
-/

namespace YamlIndex

/-- A part of a pattern. -/
inductive GlobPart where
  | literal (c : Char)
  /-- One octet other than a slash. -/
  | one
  /-- Any octets other than slashes. -/
  | run
  /-- Nothing, a slash, or anything that ends in a slash: the double star in front. -/
  | leading
  /-- A slash, or anything between two slashes: the double star in the middle. -/
  | middle
  /-- A slash and anything: the double star at the end. -/
  | trailing
  /-- One octet of the ranges, or one that is in none of them. -/
  | oneOf (isNegated : Bool) (ranges : List (Char × Char))
  | choice (branches : List (List GlobPart))
  deriving Repr, Inhabited

/-- A pattern. -/
abbrev Glob := List GlobPart

namespace Glob

/-! ## Matching -/

/-- The octet of a slash. -/
def slash : UInt8 := 0x2f

/-- The encoding of a text. -/
def encode (s : List Char) : List UInt8 :=
  s.flatMap String.utf8EncodeChar

/-- A list and all that is left of it when octets are dropped from its front. -/
def tails : List UInt8 → List (List UInt8)
  | [] => [[]]
  | o :: rest => (o :: rest) :: tails rest

/-- What may be left when octets other than slashes are dropped from the front. -/
def tailsInName : List UInt8 → List (List UInt8)
  | [] => [[]]
  | o :: rest => (o :: rest) :: if o = slash then [] else tailsInName rest

/-- What is left behind each slash. -/
def tailsBehindSlash : List UInt8 → List (List UInt8)
  | [] => []
  | o :: rest => if o = slash then rest :: tailsBehindSlash rest else tailsBehindSlash rest

/-- What is left behind a slash in front. -/
def behindSlash : List UInt8 → List (List UInt8)
  | [] => []
  | o :: rest => if o = slash then [rest] else []

/-- What is left behind one octet of the given kind. -/
def behindOne (p : UInt8 → Bool) : List UInt8 → List (List UInt8)
  | [] => []
  | o :: rest => if p o then [rest] else []

/-- What is left behind the given octets. -/
def behindAll : List UInt8 → List UInt8 → List (List UInt8)
  | [], path => [path]
  | _ :: _, [] => []
  | o :: more, p :: rest => if o = p then behindAll more rest else []

/-- Whether an octet is in a range of characters.  The encoding of a character that takes more than
one octet counts as its octets one by one, with the range between the last octet of the lower and
the first one of the higher character. -/
def isInRange (o : UInt8) (range : Char × Char) : Bool :=
  let low := String.utf8EncodeChar range.1
  let high := String.utf8EncodeChar range.2
  if range.1 = range.2 then low.contains o
  else
    low.contains o || high.contains o ||
      ((low.getLastD 0) ≤ o && o ≤ high.headD 0)

mutual

/-- Whether a part stands for nothing: a choice between branches that all do. -/
def isVoid : GlobPart → Bool
  | .choice branches => areVoidBranches branches
  | _ => false

/-- Whether all parts stand for nothing. -/
def areVoid : List GlobPart → Bool
  | [] => true
  | part :: parts => isVoid part && areVoid parts

/-- Whether all branches stand for nothing. -/
def areVoidBranches : List (List GlobPart) → Bool
  | [] => true
  | branch :: branches => areVoid branch && areVoidBranches branches

end

mutual

/-- What may be left of a path behind a part. -/
def restsBehind (path : List UInt8) : GlobPart → List (List UInt8)
  | .literal c => behindAll (String.utf8EncodeChar c) path
  | .one => behindOne (· != slash) path
  | .run => tailsInName path
  | .leading => path :: tailsBehindSlash path
  | .middle => (behindSlash path).flatMap fun rest => rest :: tailsBehindSlash rest
  | .trailing => (behindSlash path).flatMap tails
  | .oneOf isNegated ranges => behindOne (fun o => ranges.any (isInRange o) != isNegated) path
  | .choice branches =>
    if areVoidBranches branches then [path] else restsOfBranches path branches

/-- What may be left of a path behind one of the branches that stand for something. -/
def restsOfBranches (path : List UInt8) : List (List GlobPart) → List (List UInt8)
  | [] => []
  | branch :: branches =>
    (if areVoid branch then [] else restsOf [path] branch) ++ restsOfBranches path branches

/-- What may be left of one of the paths behind all parts. -/
def restsOf (paths : List (List UInt8)) : List GlobPart → List (List UInt8)
  | [] => paths
  | part :: parts => restsOf ((paths.flatMap fun path => restsBehind path part).eraseDups) parts

end

/-- Whether the encoding of a path matches a pattern.  The lone double star matches everything. -/
def doesMatch (glob : Glob) (path : List UInt8) : Bool :=
  match glob with
  | [.leading] => true
  | parts => (restsOf [path] parts).contains []

/-! ## Reading a pattern -/

/-- The state of the reader between two characters. -/
structure Reading where
  /-- The character in front. -/
  before : Option Char := none
  /-- The parts of the present branch, the last one first. -/
  parts : List GlobPart := []
  /-- For each choice that is open, the innermost first: the branches read so far, the last one
  first, and the parts in front of it, the last one first. -/
  choices : List (List (List GlobPart) × List GlobPart) := []
  /-- Whether a class has been met that does not end, so that brackets stand for themselves. -/
  hasOpenClass : Bool := false
  deriving Repr

namespace Reading

/-- The state behind a part. -/
def add (reading : Reading) (part : GlobPart) : Reading :=
  { reading with parts := part :: reading.parts }

/-- What a class has been read to. -/
inductive ClassReading where
  | ended (ranges : List (Char × Char)) (rest : List Char)
  | unended
  | malformed
  deriving Repr

/-- The ranges, the last one first, with another end for the last one; none if it would run
backwards. -/
def extend? (ranges : List (Char × Char)) (c : Char) : Option (List (Char × Char)) :=
  match ranges with
  | [] => none
  | (low, _) :: more => if c < low then none else some ((low, c) :: more)

/-- Reads the ranges of a class, the last one first.  In first place a bracket and a dash stand for
themselves; so does a dash in last place. -/
def readClass (isFirst inRange : Bool) (ranges : List (Char × Char)) : List Char → ClassReading
  | [] => .unended
  | c :: rest =>
    if c = ']' && !isFirst then
      .ended (if inRange then ('-', '-') :: ranges else ranges).reverse rest
    else if c = '-' && !isFirst && !inRange then readClass false true ranges rest
    else if inRange then
      match extend? ranges c with
      | none => .malformed
      | some ranges => readClass false false ranges rest
    else readClass false false ((c, c) :: ranges) rest

/-- The state behind a class that opens here, and the characters left. -/
def openClass (reading : Reading) (rest : List Char) : Option (Reading × List Char) :=
  let (isNegated, body) := match rest with
    | '!' :: body => (true, body)
    | '^' :: body => (true, body)
    | body => (false, body)
  match readClass true false [] body with
  | .ended ranges rest => some ({ reading.add (.oneOf isNegated ranges) with before := ']' }, rest)
  | .unended => some ({ reading.add (.literal '[') with before := '[', hasOpenClass := true }, rest)
  | .malformed => none

/-- The state behind a double star that stands for two single ones. -/
def addTwoRuns (reading : Reading) : Reading :=
  { (reading.add .run).add .run with before := '*' }

/-- The state behind a double star that takes the place of the part in front, unless this is a
double star that reaches as far. -/
def addDoubleStar (reading : Reading) (part : GlobPart) : Reading :=
  match reading.parts with
  | .leading :: _ => reading
  | .trailing :: _ => reading
  | _ :: parts => { reading with parts := part :: parts }
  | [] => reading.add part

/-- The state behind a double star, and the characters left.  It stands between slashes or at the
ends of the pattern or of a branch; elsewhere it is two single stars. -/
def addStars (reading : Reading) (rest : List Char) : Reading × List Char :=
  let isApart := reading.before == some '/' ||
    (!reading.choices.isEmpty && (reading.before == some ',' || reading.before == some '\x7b'))
  if reading.parts.isEmpty then
    match rest with
    | [] => ({ reading.add .leading with before := '*' }, [])
    | '/' :: rest => ({ reading.add .leading with before := '/' }, rest)
    | rest => (reading.addTwoRuns, rest)
  else if !isApart then (reading.addTwoRuns, rest)
  else
    match rest with
    | [] => ({ reading.addDoubleStar .trailing with before := '*' }, [])
    | '/' :: rest => ({ reading.addDoubleStar .middle with before := '/' }, rest)
    | c :: rest =>
      if (c = ',' || c = '\x7d') && !reading.choices.isEmpty then
        ({ reading.addDoubleStar .trailing with before := '*' }, c :: rest)
      else (reading.addTwoRuns, c :: rest)

/-- The state behind one more character, and the characters left; none where the pattern is
malformed. -/
def next (reading : Reading) (c : Char) (rest : List Char) : Option (Reading × List Char) :=
  let here := { reading with before := some c }
  match c with
  | '?' => some (here.add .one, rest)
  | '*' =>
    match rest with
    | '*' :: rest => some (reading.addStars rest)
    | rest => some (here.add .run, rest)
  | '[' => if reading.hasOpenClass then some (here.add (.literal '['), rest)
    else reading.openClass rest
  | '\x7b' =>
    let choices := ([], reading.parts) :: reading.choices
    some ({ here with parts := [], choices }, rest)
  | '\x7d' =>
    match reading.choices with
    | [] => none
    | (branches, outer) :: choices =>
      let part := GlobPart.choice (reading.parts.reverse :: branches).reverse
      some ({ here with parts := part :: outer, choices := choices }, rest)
  | ',' =>
    match reading.choices with
    | [] => some (here.add (.literal ','), rest)
    | (branches, outer) :: choices =>
      let branches := reading.parts.reverse :: branches
      some ({ here with parts := [], choices := (branches, outer) :: choices }, rest)
  | '\\' =>
    match rest with
    | [] => none
    | c :: rest => some ({ reading.add (.literal c) with before := some c }, rest)
  | c => some (here.add (.literal c), rest)

/-- The state behind at most the given number of steps. -/
def run : Nat → Reading → List Char → Option Reading
  | _, reading, [] => some reading
  | 0, _, _ :: _ => none
  | steps + 1, reading, c :: rest => do
    let (reading, rest) ← reading.next c rest
    run steps reading rest

end Reading

/-- The pattern that a text spells; none where it is malformed.  Every step takes a character. -/
def ofText? (s : List Char) : Option Glob := do
  let reading ← Reading.run s.length {} s
  if reading.choices.isEmpty then some reading.parts.reverse else none

end Glob

end YamlIndex
