import PacketProtocol.Text.Hex
/-!
# TOML strings

The four ways TOML writes a string: between double or single quotes, on one line or between triple
quotes on several. Between double quotes a backslash begins an escape. Readers take characters from
the front of a text, after the opening quotes.
-/

namespace PacketProtocol.Toml

def isBlank (c : Char) : Bool := c == ' ' || c == '\t'

/-- Controls that stand nowhere in a document, not even in a comment. -/
def isControl (c : Char) : Bool := c.toNat < 0x20 && c != '\t' || c == '\x7f'

/-- The character with a hexadecimal code. -/
def charOfHex (digits : List Char) : Option Char := do
  let code ← Text.number? 16 digits
  if code.isValidChar then some (Char.ofNat code) else none

/-- The character of an escape, after its backslash, and the text behind it. -/
def readEscape : List Char → Option (Char × List Char)
  | 'b' :: rest => some ('\x08', rest)
  | 't' :: rest => some ('\t', rest)
  | 'n' :: rest => some ('\n', rest)
  | 'f' :: rest => some ('\x0c', rest)
  | 'r' :: rest => some ('\r', rest)
  | '\x22' :: rest => some ('\x22', rest)
  | '\\' :: rest => some ('\\', rest)
  | 'u' :: rest =>
    if rest.length < 4 then none else do return (← charOfHex (rest.take 4), rest.drop 4)
  | 'U' :: rest =>
    if rest.length < 8 then none else do return (← charOfHex (rest.take 8), rest.drop 8)
  | _ => none

/-- Text behind a line break, if there is one. -/
def afterBreak : List Char → Option (List Char)
  | '\n' :: rest => some rest
  | '\r' :: '\n' :: rest => some rest
  | _ => none

/-- Leaves out blanks and line breaks. -/
def skipSpace : List Char → List Char
  | '\r' :: '\n' :: rest => skipSpace rest
  | c :: rest => if isBlank c || c == '\n' then skipSpace rest else c :: rest
  | [] => []

/-- Reads up to the closing double quote. `fuel` is the length of the text at least. -/
def readBasic (fuel : Nat) (text : List Char) : Option (List Char × List Char) :=
  match fuel with
  | 0 => none
  | fuel + 1 =>
    match text with
    | '\x22' :: rest => some ([], rest)
    | '\\' :: rest => do
      let (c, rest) ← readEscape rest
      let (cs, rest) ← readBasic fuel rest
      return (c :: cs, rest)
    | c :: rest => do
      if isControl c then none
      let (cs, rest) ← readBasic fuel rest
      return (c :: cs, rest)
    | [] => none

/-- Reads up to the closing single quote. -/
def readLiteral : List Char → Option (List Char × List Char)
  | '\x27' :: rest => some ([], rest)
  | c :: rest => do
    if isControl c then none
    let (cs, rest) ← readLiteral rest
    return (c :: cs, rest)
  | [] => none

/-- Three quotes, of which up to two more may stand before as part of the string. -/
def readClosing (quote : Char) (text : List Char) : Option (List Char × List Char) :=
  let quotes := min 5 (text.takeWhile (· == quote)).length
  if quotes < 3 then none else some (List.replicate (quotes - 3) quote, text.drop quotes)

/-- Reads up to three closing double quotes. A backslash at the end of a line joins it with what
follows. `fuel` is the length of the text at least. -/
def readBasicLines (fuel : Nat) (text : List Char) : Option (List Char × List Char) :=
  match fuel with
  | 0 => none
  | fuel + 1 =>
    match readClosing '\x22' text with
    | some closed => some closed
    | none =>
      match text with
      | '\\' :: rest =>
        match afterBreak (rest.dropWhile isBlank) with
        | some rest => readBasicLines fuel (skipSpace rest)
        | none => do
          let (c, rest) ← readEscape rest
          let (cs, rest) ← readBasicLines fuel rest
          return (c :: cs, rest)
      | text =>
        match afterBreak text with
        | some rest => do
          let (cs, rest) ← readBasicLines fuel rest
          return ('\n' :: cs, rest)
        | none =>
          match text with
          | c :: rest => do
            if isControl c then none
            let (cs, rest) ← readBasicLines fuel rest
            return (c :: cs, rest)
          | [] => none

/-- Reads up to three closing single quotes. `fuel` is the length of the text at least. -/
def readLiteralLines (fuel : Nat) (text : List Char) : Option (List Char × List Char) :=
  match fuel with
  | 0 => none
  | fuel + 1 =>
    match readClosing '\x27' text with
    | some closed => some closed
    | none =>
      match afterBreak text with
      | some rest => do
        let (cs, rest) ← readLiteralLines fuel rest
        return ('\n' :: cs, rest)
      | none =>
        match text with
        | c :: rest => do
          if isControl c then none
          let (cs, rest) ← readLiteralLines fuel rest
          return (c :: cs, rest)
        | [] => none

/-- A line break right behind the opening quotes is not part of the string. -/
def skipBreak (text : List Char) : List Char := (afterBreak text).getD text

/-- A string on one line, with its quotes. -/
def readString : List Char → Option (List Char × List Char)
  | '\x22' :: rest => readBasic (rest.length + 1) rest
  | '\x27' :: rest => readLiteral rest
  | _ => none

/-- Any string, with its quotes. -/
def readAnyString : List Char → Option (List Char × List Char)
  | '\x22' :: '\x22' :: '\x22' :: rest => readBasicLines (rest.length + 1) (skipBreak rest)
  | '\x27' :: '\x27' :: '\x27' :: rest => readLiteralLines (rest.length + 1) (skipBreak rest)
  | text => readString text

/-! ## Writing -/

/-- The longest run of a character. -/
def longestRun (c : Char) (text : List Char) : Nat :=
  (text.foldl (fun (longest, run) other =>
    if other == c then (max longest (run + 1), run + 1) else (longest, 0)) (0, 0)).1

/-- How a character is written between double quotes. -/
def escapeChar (c : Char) : String :=
  if c == '\x08' then "\\b"
  else if c == '\t' then "\\t"
  else if c == '\n' then "\\n"
  else if c == '\x0c' then "\\f"
  else if c == '\r' then "\\r"
  else if c == '\x22' then "\\\x22"
  else if c == '\\' then "\\\\"
  else if isControl c then "\\u" ++ (Text.hexDigits 4 c.toNat).toUpper
  else c.toString

/-- Text between double quotes. Of double quotes in a row `room` stand as they are, `run` of which went
before; `breaks` says whether line breaks stand as they are. -/
def escapeText (room : Nat) (breaks : Bool) : Nat → List Char → String
  | _, [] => ""
  | run, c :: rest =>
    if c == '\x22' && run < room then "\x22" ++ escapeText room breaks (run + 1) rest
    else if c == '\n' && breaks then "\n" ++ escapeText room breaks 0 rest
    else escapeChar c ++ escapeText room breaks 0 rest

/-- A string between double quotes. -/
def writeBasic (text : List Char) : String := "\x22" ++ escapeText 0 false 0 text ++ "\x22"

/-- A string between three double quotes. `start` stands behind the first three. -/
def writeBasicLines (start : String) (text : List Char) : String :=
  "\x22\x22\x22" ++ start ++ escapeText 2 true 0 text ++ "\x22\x22\x22"

/-- A string in the first form that shows it as it is, tabs apart, or else with escapes. -/
def writeString (text : String) : String :=
  let cs := text.toList
  let control := cs.any fun c => isControl c && c != '\n'
  let lines := cs.contains '\n'
  let doubles := longestRun '\x22' cs
  let singles := longestRun '\x27' cs
  let backslash := cs.contains '\\'
  let start := if lines then "\n" else ""
  if !control && !lines && !backslash && doubles = 0 then writeBasic cs
  else if !control && !lines && singles = 0 then "'" ++ text ++ "'"
  else if !control && !backslash && doubles ≤ 2 then writeBasicLines start cs
  else if !control && singles ≤ 2 then "'''" ++ start ++ text ++ "'''"
  else if lines then writeBasicLines start cs
  else writeBasic cs

end PacketProtocol.Toml
