import Shorthand.Text.Utf8
import Shorthand.Yaml.Token.Text

/-!
# Reading tokens

A stream as a list of tokens. Whether a scalar or a collection is the key of a mapping shows only at
the colon after it, on the same line, so places where a key may have started are remembered, and
the tokens that start the key are put there later.
-/

namespace Shorthand

namespace Yaml

/-- A place where a key may have started: the number of its token and where it stands. A required
key is the first thing on a line at the indentation of its block. -/
structure KeyPlace where
  number : Nat
  required : Bool
  index : Nat
  line : Nat
  column : Nat

structure Lexer where
  cursor : Cursor
  tokens : Array Token := #[]
  flowLevel : Nat := 0
  indent : Int := -1
  indents : List Int := []
  keyAllowed : Bool := true
  keys : List (Nat × KeyPlace) := []

namespace Lexer

def inFlow (s : Lexer) : Bool :=
  s.flowLevel != 0

def emit (s : Lexer) (t : Token) : Lexer :=
  { s with tokens := s.tokens.push t }

def insertAt (s : Lexer) (i : Nat) (t : Token) : Lexer :=
  { s with tokens := s.tokens.extract 0 i ++ #[t] ++ s.tokens.extract i s.tokens.size }

def move (s : Lexer) (c : Cursor) : Lexer :=
  { s with cursor := c }

/-- Goes past spaces, comments and line breaks. Outside of flow collections a new line allows a
key. -/
def skipToToken : Nat → Lexer → Lexer
  | 0, s => s
  | n + 1, s =>
    let c := s.cursor.skipSpaces
    let c := if c.sees '#' then c.skipWhile (!isLineBreak ·) else c
    match c.lineBreak with
    | ([], _) => s.move c
    | (_, d) => skipToToken n { s.move d with keyAllowed := s.keyAllowed || !s.inFlow }

/-- A key ends on its line, at most 1024 characters after its start. -/
def isStale (s : Lexer) (k : KeyPlace) : Bool :=
  k.line != s.cursor.line || k.index + 1024 < s.cursor.index

def dropStaleKeys (s : Lexer) : Except Fault Lexer :=
  if s.keys.any fun (_, k) => k.required && s.isStale k then .error .malformed
  else .ok { s with keys := s.keys.filter fun (_, k) => !s.isStale k }

def dropKey (s : Lexer) : Except Fault Lexer :=
  match s.keys.lookup s.flowLevel with
  | none => .ok s
  | some k =>
    if k.required then .error .malformed
    else .ok { s with keys := s.keys.filter fun (l, _) => l != s.flowLevel }

def saveKey (s : Lexer) : Except Fault Lexer :=
  if !s.keyAllowed then .ok s
  else do
    let t ← s.dropKey
    let c := s.cursor
    let place : KeyPlace :=
      { number := s.tokens.size, required := !s.inFlow && s.indent == c.column, index := c.index,
        line := c.line, column := c.column }
    return { t with keys := (s.flowLevel, place) :: t.keys }

/-- Ends the blocks that are indented further than a column. -/
def unwind (column : Int) : Nat → Lexer → Lexer
  | 0, s => s
  | n + 1, s =>
    if s.inFlow || s.indent ≤ column then s
    else
      unwind column n
        { s.emit .blockEnd with indent := s.indents.headD (-1), indents := s.indents.tail }

def unwindTo (s : Lexer) (column : Int) : Lexer :=
  unwind column (s.indents.length + 1) s

/-- Indents to a column, if that is deeper; then a block starts there. -/
def deepen (s : Lexer) (column : Nat) : Option Lexer :=
  if s.indent < column then some { s with indent := column, indents := s.indent :: s.indents }
  else none

def startBlock (s : Lexer) (t : Token) : Lexer :=
  match s.deepen s.cursor.column with
  | some d => d.emit t
  | none => s

/-! ### Directives and tags -/

def nameAt (c : Cursor) : Text × Cursor :=
  let name := c.rest.takeWhile isNameChar
  (name, c.advance name.length)

def numberAt (c : Cursor) : Except Fault (Nat × Cursor) :=
  let ds := c.rest.takeWhile CodePoint.isDigit
  if ds.isEmpty then .error .malformed
  else if Decimal.digitLimit < ds.length then .error (.tooManyDigits ds.length)
  else .ok (Decimal.digitsValue ds, c.advance ds.length)

/-- A handle of tags: an exclamation mark, alone or around a name. -/
def handleAt (c : Cursor) : Except Fault (Text × Cursor) :=
  if !c.sees '!' then .error .malformed
  else if c.next.sees ' ' then .ok ("!", c.next)
  else
    let (name, d) := nameAt c.next
    if d.sees '!' then .ok ("!" ++ name ++ "!", d.next) else .error .malformed

/-- The octets of consecutive escapes with percent signs. -/
def percentOctets : Text → Except Fault (List UInt8)
  | '%' :: a :: b :: r =>
    match Json.hexNumber [a, b] with
    | some n => (percentOctets r).map (UInt8.ofNat n :: ·)
    | none => .error .malformed
  | '%' :: _ => .error .malformed
  | _ => .ok []

def uriAt : Nat → Cursor → Except Fault (Text × Cursor)
  | 0, c => .ok ([], c)
  | n + 1, c =>
    match c.peek with
    | some '%' => do
      let octets ← percentOctets c.rest
      match Text.ofUtf8 octets with
      | .error _ => throw .malformed
      | .ok t =>
        let (more, d) ← uriAt n (c.advance (3 * octets.length))
        return (t ++ more, d)
    | some x =>
      if isUriChar x then do
        let (more, d) ← uriAt n c.next
        return (x :: more, d)
      else .ok ([], c)
    | none => .ok ([], c)

/-- A part of a tag, which is not empty unless it is written with escapes. -/
def uri (c : Cursor) : Except Fault (Text × Cursor) :=
  if c.peek.any isUriChar then uriAt (c.rest.length + 1) c else .error .malformed

def directiveAt (c : Cursor) : Except Fault (Directive × Cursor) := do
  let (name, c) := nameAt c.next
  if name.isEmpty || !isSpaceOrEnd c.peek then throw .malformed
  if name = "YAML" then
    let (major, c) ← numberAt c.skipSpaces
    if !c.sees '.' then throw .malformed
    let (minor, c) ← numberAt c.next
    if !isSpaceOrEnd c.peek then throw .malformed
    return (.version major minor, ← c.restOfLine)
  else if name = "TAG" then
    let (handle, c) ← handleAt c.skipSpaces
    if !c.sees ' ' then throw .malformed
    let (target, c) ← uri c.skipSpaces
    if !isSpaceOrEnd c.peek then throw .malformed
    return (.tag handle target, ← c.restOfLine)
  else return (.other, ← (c.skipWhile (!isLineBreak ·)).restOfLine)

/-- Whether a tag, after its first mark, has a second one before the next space. -/
def hasHandle (t : Text) : Bool :=
  (t.takeWhile fun c : CodePoint => c == '\t' || !isGap c).contains '!'

def tagAt (c : Cursor) : Except Fault (Token × Cursor) := do
  let (handle, suffix, d) : Option Text × Text × Cursor ← match c.peekAt 1 with
    | some '<' => do
      let (suffix, d) ← uri (c.advance 2)
      if d.sees '>' then pure (none, suffix, d.next) else throw .malformed
    | x =>
      if isGapOrEnd x then pure (none, "!", c.next)
      else if hasHandle (c.rest.drop 1) then do
        let (handle, d) ← handleAt c
        let (suffix, d) ← uri d
        pure (some handle, suffix, d)
      else do
        let (suffix, d) ← uri c.next
        pure (some "!", suffix, d)
  if isSpaceOrEnd d.peek then return (.tag handle suffix, d) else throw .malformed

/-- The name of an anchor, or of a reference to one. -/
def anchorAt (c : Cursor) : Except Fault (Text × Cursor) :=
  let (name, d) := nameAt c.next
  let enders : Text := Char.ofNat 0x60 :: Text.ofString "?:,]\x7d%@"
  let ends := d.peek.all fun x => isGap x || enders.contains x
  if name.isEmpty || !ends then .error .malformed else .ok (name, d)

/-! ### Tokens -/

/-- The end of all blocks, and of a key that could have been going on. -/
def endBlocks (s : Lexer) : Except Fault Lexer := do
  return { ← (s.unwindTo (-1)).dropKey with keyAllowed := false }

def readDirective (s : Lexer) : Except Fault Lexer := do
  let s ← s.endBlocks
  let (d, c) ← directiveAt s.cursor
  return (s.move c).emit (.directive d)

def readMarker (s : Lexer) (t : Token) : Except Fault Lexer := do
  let s ← s.endBlocks
  return (s.move (s.cursor.advance 3)).emit t

def openFlow (s : Lexer) (t : Token) : Except Fault Lexer := do
  let s ← s.saveKey
  let s := { s with flowLevel := s.flowLevel + 1, keyAllowed := true }
  return (s.move s.cursor.next).emit t

def closeFlow (s : Lexer) (t : Token) : Except Fault Lexer := do
  let s ← s.dropKey
  let s := { s with flowLevel := s.flowLevel - 1, keyAllowed := false }
  return (s.move s.cursor.next).emit t

def readComma (s : Lexer) : Except Fault Lexer := do
  let s ← { s with keyAllowed := true }.dropKey
  return (s.move s.cursor.next).emit .comma

def readEntry (s : Lexer) : Except Fault Lexer := do
  if !s.inFlow && !s.keyAllowed then throw .malformed
  let s := if s.inFlow then s else s.startBlock .sequenceStart
  let s ← { s with keyAllowed := true }.dropKey
  return (s.move s.cursor.next).emit .entry

def readKey (s : Lexer) : Except Fault Lexer := do
  if !s.inFlow && !s.keyAllowed then throw .malformed
  let s := if s.inFlow then s else s.startBlock .mappingStart
  let s ← { s with keyAllowed := !s.inFlow }.dropKey
  return (s.move s.cursor.next).emit .key

/-- A colon after a key puts the start of the key, and perhaps of its mapping, where the key is. -/
def readValue (s : Lexer) : Except Fault Lexer := do
  match s.keys.lookup s.flowLevel with
  | some k =>
    let s := { s with keys := s.keys.filter fun (l, _) => l != s.flowLevel, keyAllowed := false }
    let s := s.insertAt k.number .key
    let s := if s.inFlow then s else match s.deepen k.column with
      | some d => d.insertAt k.number .mappingStart
      | none => s
    return (s.move s.cursor.next).emit .value
  | none =>
    if !s.inFlow && !s.keyAllowed then throw .malformed
    let s := if s.inFlow then s else s.startBlock .mappingStart
    let s ← { s with keyAllowed := !s.inFlow }.dropKey
    return (s.move s.cursor.next).emit .value

def readBlock (s : Lexer) (folded : Bool) : Except Fault Lexer := do
  let s ← { s with keyAllowed := true }.dropKey
  let (t, c) ← blockText folded s.indent s.cursor.next
  return (s.move c).emit (.scalar t false)

def readQuoted (s : Lexer) (double : Bool) : Except Fault Lexer := do
  let s ← s.saveKey
  let (t, c) ← quotedText double (s.cursor.rest.length + 1) s.cursor.next
  return ({ s with keyAllowed := false }.move c).emit (.scalar t false)

def readPlain (s : Lexer) : Except Fault Lexer := do
  let s ← s.saveKey
  let (t, c, broken) :=
    plainText s.inFlow (s.indent + 1) (s.cursor.rest.length + 1) s.cursor [] false
  return ({ s with keyAllowed := broken }.move c).emit (.scalar t true)

def readProperty (s : Lexer) (scan : Cursor → Except Fault (Token × Cursor)) :
    Except Fault Lexer := do
  let s ← s.saveKey
  let (t, c) ← scan s.cursor
  return ({ s with keyAllowed := false }.move c).emit t

/-- Whether a plain scalar starts here. -/
def startsPlain (s : Lexer) (x : CodePoint) : Bool :=
  let next := s.cursor.peekAt 1
  let indicators : Text := Char.ofNat 0x60 :: Text.ofString "-?:,[]\x7b\x7d#&*!|>'\"%@"
  let indicator := isGap x || indicators.contains x
  !indicator || (!isGapOrEnd next && (x == '-' || (!s.inFlow && (x == '?' || x == ':'))))

/-- Reads the token that starts with a character. -/
def readToken (s : Lexer) (x : CodePoint) : Except Fault Lexer :=
  let c := s.cursor
  let gapNext := isGapOrEnd (c.peekAt 1)
  if x = '%' && c.column = 0 then s.readDirective
  else if x = '-' && c.column = 0 && c.atMarker then s.readMarker .documentStart
  else if x = '.' && c.column = 0 && c.atMarker then s.readMarker .documentEnd
  else if x = '[' then s.openFlow .openSequence
  else if x = '{' then s.openFlow .openMapping
  else if x = ']' then s.closeFlow .closeSequence
  else if x = '}' then s.closeFlow .closeMapping
  else if x = ',' then s.readComma
  else if x = '-' && gapNext then s.readEntry
  else if x = '?' && (s.inFlow || gapNext) then s.readKey
  else if x = ':' && (s.inFlow || gapNext) then s.readValue
  else if x = '*' then s.readProperty fun c => do
    let (n, d) ← anchorAt c
    return (.alias n, d)
  else if x = '&' then s.readProperty fun c => do
    let (n, d) ← anchorAt c
    return (.anchor n, d)
  else if x = '!' then s.readProperty tagAt
  else if x = '|' && !s.inFlow then s.readBlock false
  else if x = '>' && !s.inFlow then s.readBlock true
  else if x = '\'' then s.readQuoted false
  else if x = '"' then s.readQuoted true
  else if s.startsPlain x then s.readPlain
  else .error .malformed

/-- Reads on, by one token and the blocks that end before it. At the end of the stream all blocks
end, and the flag tells that nothing is left. -/
def step (s : Lexer) : Except Fault (Bool × Lexer) := do
  let s := skipToToken (s.cursor.rest.length + 1) s
  let s ← s.dropStaleKeys
  let s := s.unwindTo s.cursor.column
  match s.cursor.peek with
  | none => return (true, ← (s.unwindTo (-1)).dropKey)
  | some x => return (false, ← s.readToken x)

/-- The tokens before a fault that are sure to stay as they are. A token that may be the start of a
key is not, since others may come to stand before it. -/
def settled (s : Lexer) : List Token :=
  let pending := (s.keys.map (·.2)).filter fun k => !s.isStale k
  let count := pending.foldl (fun n k => n.min k.number) s.tokens.size
  s.tokens.toList.take count

/-- Reads at most `n` tokens. -/
def readAll : Nat → Lexer → Tokens
  | 0, s => { list := s.settled, fault := some .malformed }
  | n + 1, s =>
    match s.step with
    | .ok (false, t) => readAll n t
    | .ok (true, t) => { list := t.tokens.toList }
    | .error f => { list := s.settled, fault := some f }

end Lexer

/-- The tokens of a stream. A byte-order mark at its start is passed over. -/
def Tokens.ofText (t : Text) : Tokens :=
  if !t.all isReadable then { list := [], fault := some .malformed }
  else
    let c : Cursor := { rest := t }
    let c := if c.sees '\ufeff' then c.next else c
    Lexer.readAll (t.length + 1) { cursor := c }

end Yaml

end Shorthand
