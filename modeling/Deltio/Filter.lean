import Deltio.Message

namespace Deltio

inductive Expr where
  | eq (key value : String) (negated : Bool)
  | hasPrefix (key value : String)
  | hasAttr (key : String)
  | and (l r : Expr)
  | or (l r : Expr)
  | not (inner : Expr)
deriving DecidableEq

def eval (attrs : Option Attributes) : Expr → Bool
  | .eq key value negated =>
    let attrValue := attrs.bind (·.get key)
    let eq := (attrValue.map (· == value)).getD false
    if negated then !eq else eq
  | .hasPrefix key value =>
    ((attrs.bind (·.get key)).map fun v => value.toList.isPrefixOf v.toList).getD false
  | .hasAttr key => (attrs.map (·.containsKey key)).getD false
  | .and l r => eval attrs l && eval attrs r
  | .or l r => eval attrs l || eval attrs r
  | .not inner => !eval attrs inner

structure Filter where
  expr : Expr
deriving DecidableEq

/-- Whether a message with these attributes should be delivered. -/
def Filter.matches (f : Filter) (attributes : Option Attributes) : Bool := eval attributes f.expr

inductive Token where
  | lParen
  | rParen
  | comma
  | eq
  | notEq
  | and
  | or
  | not
  | attribute (key : String)
  | attributeHas (key : String)
  | ident (name : String)
  | str (value : String)
deriving DecidableEq

abbrev Tokens := List (Token × ℕ)

/-- What an error found: a token, which is shown by its debug rendering, or a
piece of the input. -/
inductive Found where
  | token (t : Token)
  | text (s : String)
deriving DecidableEq

inductive FilterParseError where
  | unexpectedToken (found : Found) (position : ℕ)
  | unexpectedEnd
  | unterminatedString
  | invalidEscape (c : Char)
  | invalidIdentifier (s : String)
deriving DecidableEq

/-- `b as char`: the code point with the number of the byte. -/
def byteChar (b : UInt8) : Char := Char.ofNat b.toNat

def byteOf (c : Char) : UInt8 := UInt8.ofNat c.toNat

def isAsciiAlphabetic (b : UInt8) : Bool := (byteChar b).isAlpha

def isWordByte (b : UInt8) : Bool :=
  (byteChar b).isAlphanum || b == byteOf '_' || b == byteOf '-'

/-- The rest of a string literal: its characters and the number of bytes up to
and including the closing quote. -/
def scanString : List UInt8 → Except FilterParseError (List Char × ℕ)
  | [] => .error .unterminatedString
  | [b] =>
    if b = byteOf '"' then .ok ([], 1)
    else .error .unterminatedString
  | b :: esc :: rest =>
    if b = byteOf '"' then .ok ([], 1)
    else if b = byteOf '\\' then
      if esc = byteOf '"' then do
        let (s, n) ← scanString rest
        pure ('"' :: s, n + 2)
      else if esc = byteOf '\\' then do
        let (s, n) ← scanString rest
        pure ('\\' :: s, n + 2)
      else .error (.invalidEscape (byteChar esc))
    else do
      let (s, n) ← scanString (esc :: rest)
      pure (byteChar b :: s, n + 1)

def asciiText (bytes : List UInt8) : String := String.ofList (bytes.map byteChar)

def eqIgnoreAsciiCase (a b : String) : Bool :=
  a.toList.map Char.toLower == b.toList.map Char.toLower

/-- The token of the word at the front of `bytes`, which starts at `start`, and
the number of bytes it takes. -/
def scanWord (start : ℕ) (bytes : List UInt8) : Except FilterParseError (Token × ℕ) :=
  let word := bytes.takeWhile isWordByte
  let rest := bytes.dropWhile isWordByte
  if eqIgnoreAsciiCase (asciiText word) "and" then .ok (.and, word.length)
  else if eqIgnoreAsciiCase (asciiText word) "or" then .ok (.or, word.length)
  else if eqIgnoreAsciiCase (asciiText word) "not" then .ok (.not, word.length)
  else if asciiText word = "attributes" then
    match rest with
    | [] => .error .unexpectedEnd
    | sep :: afterSep =>
      if sep ≠ byteOf '.' ∧ sep ≠ byteOf ':' then
        .error (.unexpectedToken (.text ("attributes" ++ String.singleton (byteChar sep)))
          (start + word.length))
      else
        let key := afterSep.takeWhile isWordByte
        if key = [] then .error (.invalidIdentifier "empty attribute key")
        else if sep = byteOf '.' then
          .ok (.attribute (asciiText key), word.length + 1 + key.length)
        else .ok (.attributeHas (asciiText key), word.length + 1 + key.length)
  else .ok (.ident (asciiText word), word.length)

/-- The token loop at byte `i`; `skip` bytes belong to the token before. -/
def tokenizeFrom (i skip : ℕ) : List UInt8 → Except FilterParseError (Tokens)
  | [] => .ok []
  | c :: rest =>
    match skip with
    | skip + 1 => tokenizeFrom (i + 1) skip rest
    | 0 =>
      let emit (t : Token) (len : ℕ) : Except FilterParseError (Tokens) := do
        let ts ← tokenizeFrom (i + 1) (len - 1) rest
        pure ((t, i) :: ts)
      if c = byteOf ' ' ∨ c = byteOf '\t' ∨ c = byteOf '\n' ∨ c = byteOf '\r' then
        tokenizeFrom (i + 1) 0 rest
      else if c = byteOf '(' then emit .lParen 1
      else if c = byteOf ')' then emit .rParen 1
      else if c = byteOf ',' then emit .comma 1
      else if c = byteOf '=' then emit .eq 1
      else if c = byteOf '!' ∧ rest.head? = some (byteOf '=') then emit .notEq 2
      else if c = byteOf '"' then do
        let (s, len) ← scanString rest
        emit (.str (String.ofList s)) (len + 1)
      else if isAsciiAlphabetic c || c == byteOf '_' then do
        let (t, len) ← scanWord i (c :: rest)
        emit t len
      else .error (.unexpectedToken (.text (String.singleton (byteChar c))) i)

def tokenize (input : String) : Except FilterParseError (Tokens) :=
  tokenizeFrom 0 0 (input.toList.flatMap String.utf8EncodeChar)

def expect (expected : Token) : Tokens → Except FilterParseError (Unit × Tokens)
  | [] => .error .unexpectedEnd
  | (t, p) :: ts => if t = expected then .ok ((), ts) else .error (.unexpectedToken (.token t) p)

def expectString : Tokens → Except FilterParseError (String × Tokens)
  | [] => .error .unexpectedEnd
  | (.str s, _) :: ts => .ok (s, ts)
  | (other, p) :: _ => .error (.unexpectedToken (.token other) p)

def expectAttribute : Tokens → Except FilterParseError (String × Tokens)
  | [] => .error .unexpectedEnd
  | (.attribute k, _) :: ts => .ok (k, ts)
  | (other, p) :: _ => .error (.unexpectedToken (.token other) p)

def expectEnd : Tokens → Except FilterParseError Unit
  | [] => .ok ()
  | (tok, pos) :: _ => .error (.unexpectedToken (.token tok) pos)

/-- `attributes.k = "v"` or `attributes.k != "v"`, after the attribute at `pos`. -/
def parseComparison (key : String) (pos : ℕ) : Tokens → Except FilterParseError (Expr × Tokens)
  | [] => .error .unexpectedEnd
  | (.eq, _) :: ts => do
    let (value, ts) ← expectString ts
    pure (.eq key value false, ts)
  | (.notEq, _) :: ts => do
    let (value, ts) ← expectString ts
    pure (.eq key value true, ts)
  | (other, _) :: _ => .error (.unexpectedToken (.token other) pos)

def parseHasPrefix (ts : Tokens) : Except FilterParseError (Expr × Tokens) := do
  let ((), ts) ← expect .lParen ts
  let (key, ts) ← expectAttribute ts
  let ((), ts) ← expect .comma ts
  let (value, ts) ← expectString ts
  let ((), ts) ← expect .rParen ts
  pure (.hasPrefix key value, ts)

mutual

def parseOr : ℕ → Tokens → Except FilterParseError (Expr × Tokens)
  | 0, _ => .error .unexpectedEnd
  | fuel + 1, ts => do
    let (left, ts) ← parseAnd fuel ts
    parseOrLoop fuel left ts

/-- `while matches!(self.peek(), Some(Token::Or))` of `parse_or`. -/
def parseOrLoop : ℕ → Expr → Tokens → Except FilterParseError (Expr × Tokens)
  | 0, _, _ => .error .unexpectedEnd
  | fuel + 1, left, (.or, _) :: ts => do
    let (right, ts) ← parseAnd fuel ts
    parseOrLoop fuel (.or left right) ts
  | _ + 1, left, ts => .ok (left, ts)

def parseAnd : ℕ → Tokens → Except FilterParseError (Expr × Tokens)
  | 0, _ => .error .unexpectedEnd
  | fuel + 1, ts => do
    let (left, ts) ← parseNot fuel ts
    parseAndLoop fuel left ts

/-- `while matches!(self.peek(), Some(Token::And))` of `parse_and`. -/
def parseAndLoop : ℕ → Expr → Tokens → Except FilterParseError (Expr × Tokens)
  | 0, _, _ => .error .unexpectedEnd
  | fuel + 1, left, (.and, _) :: ts => do
    let (right, ts) ← parseNot fuel ts
    parseAndLoop fuel (.and left right) ts
  | _ + 1, left, ts => .ok (left, ts)

def parseNot : ℕ → Tokens → Except FilterParseError (Expr × Tokens)
  | 0, _ => .error .unexpectedEnd
  | fuel + 1, (.not, _) :: ts => do
    let (inner, ts) ← parseNot fuel ts
    pure (.not inner, ts)
  | fuel + 1, ts => parsePrimary fuel ts

def parsePrimary : ℕ → Tokens → Except FilterParseError (Expr × Tokens)
  | 0, _ => .error .unexpectedEnd
  | _ + 1, [] => .error .unexpectedEnd
  | fuel + 1, (.lParen, _) :: ts => do
    let (inner, ts) ← parseOr fuel ts
    let ((), ts) ← expect .rParen ts
    pure (inner, ts)
  | _ + 1, (.attribute key, pos) :: ts => parseComparison key pos ts
  | _ + 1, (.attributeHas key, _) :: ts => .ok (.hasAttr key, ts)
  | _ + 1, (.ident name, pos) :: ts =>
    if name = "hasPrefix" then parseHasPrefix ts
    else .error (.unexpectedToken (.token (.ident name)) pos)
  | _ + 1, (other, pos) :: _ => .error (.unexpectedToken (.token other) pos)

end

def Filter.parse (input : String) : Except FilterParseError Filter := do
  let tokens ← tokenize input
  let (expr, rest) ← parseOr (5 * (tokens.length + 1)) tokens
  expectEnd rest
  pure ⟨expr⟩

end Deltio
