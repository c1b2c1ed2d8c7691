import PacketProtocol.Toml.Table
import PacketProtocol.Toml.Text
/-!
# TOML documents

Reads a document line by line: headers, and keys with their values. Values are strings, integers,
booleans and inline tables, which is what settings are made of.
-/

namespace PacketProtocol.Toml

open scoped Numerals

/-- Keys have fewer parts than this, and inline tables are nested less deep. -/
def maxDepth : Nat := 80

def skipBlank (text : List Char) : List Char := text.dropWhile isBlank

/-- The end of a line: a comment may stand there. -/
def readLineEnd (text : List Char) : Option (List Char) :=
  let rest := match skipBlank text with
    | '#' :: comment => comment.dropWhile fun c => !isControl c
    | rest => rest
  if rest.isEmpty then some [] else afterBreak rest

/-! ## Keys -/

def isBareKeyChar (c : Char) : Bool := c.isAlphanum || c == '_' || c == '-'

/-- One part of a key. -/
def readSimpleKey (text : List Char) : Option (String × List Char) :=
  match readString text with
  | some (cs, rest) => some (String.ofList cs, rest)
  | none =>
    let bare := text.takeWhile isBareKeyChar
    if bare.isEmpty then none else some (String.ofList bare, text.drop bare.length)

/-- A key of at most `room` dotted parts; blanks may stand around each. -/
def readParts (room : Nat) (text : List Char) : Option (List String × List Char) :=
  match room with
  | 0 => none
  | room + 1 => do
    let (key, rest) ← readSimpleKey (skipBlank text)
    match skipBlank rest with
    | '.' :: rest =>
      let (path, rest) ← readParts room rest
      return (key :: path, rest)
    | rest => return ([key], rest)

/-- A key. -/
def readKey (text : List Char) : Option (List String × List Char) := readParts (maxDepth - 1) text

/-! ## Values -/

/-- Digits with the single underscores between them left out. -/
def ungroup : List Char → Option (List Char)
  | [] => none
  | [c] => if c == '_' then none else some [c]
  | c :: '_' :: rest => if c == '_' then none else (c :: ·) <$> ungroup rest
  | c :: rest => if c == '_' then none else (c :: ·) <$> ungroup rest

/-- A decimal number without sign: no leading zero. -/
def decimal? (digits : List Char) : Option Nat := do
  let digits ← ungroup digits
  if digits.head? = some '0' ∧ digits ≠ ['0'] then none
  Text.number? 10 digits

/-- An integer of 64 bits. -/
def integer? (token : List Char) : Option Int := do
  let n ← match token with
    | '0' :: 'x' :: digits => do pure (Int.ofNat (← Text.number? 16 (← ungroup digits)))
    | '0' :: 'o' :: digits => do pure (Int.ofNat (← Text.number? 8 (← ungroup digits)))
    | '0' :: 'b' :: digits => do pure (Int.ofNat (← Text.number? 2 (← ungroup digits)))
    | '-' :: digits => do pure (-Int.ofNat (← decimal? digits))
    | '+' :: digits => do pure (Int.ofNat (← decimal? digits))
    | digits => do pure (Int.ofNat (← decimal? digits))
  if -2 ^ (63 : Nat) ≤ n ∧ n < 2 ^ (63 : Nat) then some n else none

/-- A value that is one word. -/
def word? (token : List Char) : Option Value :=
  if token = "true".toList then some (.boolean true)
  else if token = "false".toList then some (.boolean false)
  else Value.integer <$> integer? token

def isWordChar (c : Char) : Bool := isBareKeyChar c || c == '+' || c == '.' || c == ':'

mutual

/-- Any value, in which inline tables are nested at most `room` deep. `fuel` is the length of the text
at least. -/
def readValue (fuel room : Nat) (text : List Char) : Option (Value × List Char) :=
  match fuel with
  | 0 => none
  | fuel + 1 =>
    match text with
    | '\x7b' :: rest =>
      match room, skipBlank rest with
      | 0, _ => none
      | _ + 1, '\x7d' :: rest => some (.table .inline [], rest)
      | room + 1, rest => readEntries fuel room [] rest
    | '\x22' :: _ | '\x27' :: _ => do
      let (cs, rest) ← readAnyString text
      return (.string (String.ofList cs), rest)
    | text => do
      let token := text.takeWhile isWordChar
      return (← word? token, text.drop token.length)

/-- The entries of an inline table behind those read already, up to the closing brace. -/
def readEntries (fuel room : Nat) (entries : Entries) (text : List Char) : Option (Value × List Char) :=
  match fuel with
  | 0 => none
  | fuel + 1 => do
    let (path, rest) ← readKey text
    match rest with
    | '=' :: rest =>
      let (value, rest) ← readValue fuel room (skipBlank rest)
      let entries ← entries.assign value path
      match skipBlank rest with
      | ',' :: rest => readEntries fuel room entries rest
      | '\x7d' :: rest => return (.table .inline entries, rest)
      | _ => none
    | _ => none

end

/-! ## Lines -/

/-- What was read of a document. -/
structure Draft where
  entries : Entries := []
  /-- The header of the lines that follow. -/
  header : List String := []

/-- One line that is not blank. `fuel` is the length of the text at least. -/
def Draft.readLine (draft : Draft) (fuel : Nat) (text : List Char) : Option (Draft × List Char) :=
  match text with
  | '[' :: rest => do
    let (path, rest) ← readKey rest
    match rest with
    | ']' :: rest =>
      return ({ entries := ← draft.entries.openTable path, header := path }, ← readLineEnd rest)
    | _ => none
  | text => do
    let (path, rest) ← readKey text
    match rest with
    | '=' :: rest =>
      let (value, rest) ← readValue fuel (maxDepth - 1) (skipBlank rest)
      let entries ← draft.entries.within (fun inner => Entries.assign value inner path) draft.header
      return ({ draft with entries }, ← readLineEnd rest)
    | _ => none

/-- All lines to the end of the text. `fuel` is one more than the length of the text at least. -/
def Draft.readLines (draft : Draft) (fuel : Nat) (text : List Char) : Option Entries :=
  match fuel with
  | 0 => none
  | fuel + 1 =>
    match skipBlank text with
    | [] => some draft.entries
    | text =>
      match readLineEnd text with
      | some rest => draft.readLines fuel rest
      | none => do
        let (draft, rest) ← draft.readLine (text.length + 1) text
        draft.readLines fuel rest

/-- The entries of a document, or nothing if it is not well formed. -/
def parse (text : String) : Option Entries :=
  let text := match text.toList with
    | '\ufeff' :: text => text
    | text => text
  Draft.readLines {} (text.length + 1) text

end PacketProtocol.Toml
