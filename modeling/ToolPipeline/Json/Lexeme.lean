import ToolPipeline.Json.Fault

/-! The smallest parts of a JSON text: blanks, words, strings and numbers. Every function takes the
text to come and gives what it read with the text that is left. -/

namespace ToolPipeline.Json

abbrev Result (α : Type) := Except Fault (α × List Piece)

def isSpace : Piece → Bool
  | .char c => c == ' ' || c == '\n' || c == '\t' || c == '\r'
  | .stray _ => false

def skipSpace (s : List Piece) : List Piece := s.dropWhile isSpace

def readWord : List Char → List Piece → Except Fault (List Piece)
  | [], s => .ok s
  | _ :: _, [] => .error (.behind .endInValue [] 0)
  | c :: word, p :: rest =>
    if p = .char c then readWord word rest else .error (.behind .expectedIdent (p :: rest) 1)

def hexUnit (s : List Piece) : Except Fault Nat :=
  if Piece.totalWidth (s.take 4) < 4 then .error (.behind .endInString [] 0)
  else
    match s with
    | .char a :: .char b :: .char c :: .char d :: _ =>
      match Hex.digit? a, Hex.digit? b, Hex.digit? c, Hex.digit? d with
      | some a, some b, some c, some d => .ok (((a * 16 + b) * 16 + c) * 16 + d)
      | _, _, _, _ => .error (.behind .invalidEscape s 4)
    | _ => .error (.behind .invalidEscape s 4)

def surrogatePair (lead : Nat) (s : List Piece) : Except Fault (Char × Nat) :=
  match s with
  | [] => .error (.behind .endInString [] 0)
  | .char '\\' :: [] => .error (.behind .endInString [] 0)
  | .char '\\' :: .char 'u' :: rest => do
    let tail ← hexUnit rest
    if tail < 0xDC00 ∨ 0xDFFF < tail then .error (.behind .loneSurrogate (rest.drop 4) 0)
    else .ok (Char.ofNat ((lead - 0xD800) * 0x400 + (tail - 0xDC00) + 0x10000), 11)
  | .char '\\' :: rest => .error (.behind .endInHexEscape rest 1)
  | s => .error (.behind .endInHexEscape s 1)

/-- The character that an escape stands for, and how many units follow its backslash. -/
def readEscape : List Piece → Except Fault (Char × Nat)
  | [] => .error (.behind .endInString [] 0)
  | .char '"' :: _ => .ok ('"', 1)
  | .char '\\' :: _ => .ok ('\\', 1)
  | .char '/' :: _ => .ok ('/', 1)
  | .char 'b' :: _ => .ok ('\x08', 1)
  | .char 'f' :: _ => .ok ('\x0c', 1)
  | .char 'n' :: _ => .ok ('\n', 1)
  | .char 'r' :: _ => .ok ('\r', 1)
  | .char 't' :: _ => .ok ('\t', 1)
  | .char 'u' :: rest => do
    let unit ← hexUnit rest
    if 0xDC00 ≤ unit ∧ unit ≤ 0xDFFF then .error (.behind .loneSurrogate (rest.drop 4) 0)
    else if unit < 0xD800 ∨ 0xDFFF < unit then .ok (Char.ofNat unit, 5)
    else surrogatePair unit (rest.drop 4)
  | s => .error (.behind .invalidEscape s 1)

def isControl : Piece → Bool
  | .char c => c.toNat < 0x20
  | .stray b => b.toNat < 0x20

/-- The units of a string of which the opening quote has been read. `skip` units belong to the
escape read last; `read` holds the units so far, the last one first. -/
def readUnits (skip : Nat) (read : List Piece) : List Piece → Result (List Piece)
  | [] => .error (.behind .endInString [] 0)
  | p :: rest =>
    match skip with
    | skip + 1 => readUnits skip read rest
    | 0 =>
      if p = .char '"' then .ok (read.reverse, rest)
      else if p = .char '\\' then
        match readEscape rest with
        | .error f => .error f
        | .ok (c, used) => readUnits used (.char c :: read) rest
      else if isControl p then .error (.behind .controlCharacter rest 0)
      else readUnits 0 (p :: read) rest

/-- The text of a string of which the opening quote has been read. A stray octet in it is reported
as far before the end of the string as the units from it on are wide, escapes counted by what they
stand for. -/
def readString (s : List Piece) : Result String :=
  match readUnits 0 [] s with
  | .error f => .error f
  | .ok (units, rest) =>
    match Piece.chars? units with
    | some cs => .ok (String.ofList cs, rest)
    | none =>
      let past := units.dropWhile fun
        | .char _ => true
        | .stray _ => false
      .error (.behind .invalidCodePoint s
        (Piece.totalWidth s - Piece.totalWidth rest - Piece.totalWidth past))

def digitOf? : List Piece → Option (Nat × List Piece)
  | .char c :: rest => if c.isDigit then some (c.toNat - '0'.toNat, rest) else none
  | _ => none

def skipDigits (s : List Piece) : List Piece := s.dropWhile fun
  | .char c => c.isDigit
  | .stray _ => false

def isMark (cs : List Char) : List Piece → Bool
  | .char c :: _ => cs.contains c
  | _ => false

def largestSignificand : Nat := Nat.pow 2 64 - 1

/-- The digits of a significand, as many as fit: the significand, how many digits were read, and
whether one was left because it did not fit. -/
def readDigits (significand count : Nat) : List Piece → (Nat × Nat × Bool) × List Piece
  | [] => ((significand, count, false), [])
  | p :: rest =>
    match p with
    | .char c =>
      if c.isDigit then
        let next := significand * 10 + (c.toNat - '0'.toNat)
        if next ≤ largestSignificand then readDigits next (count + 1) rest
        else ((significand, count, true), p :: rest)
      else ((significand, count, false), p :: rest)
    | .stray _ => ((significand, count, false), p :: rest)

def powerOfTen (n : Nat) : Float := Float.ofScientific 1 false n

/-- Divides by ten as often as `n` says; three steps of 308 reach zero from any significand. -/
def scaleDown (x : Float) (n : Nat) : (steps : Nat) → Float
  | 0 => 0.0
  | steps + 1 =>
    if n ≤ 308 then x / powerOfTen n
    else if x == 0.0 then x
    else scaleDown (x / powerOfTen 308) (n - 308) steps

def scaled? (significand : Nat) (exponent : Int) : Option Float :=
  let x := (UInt64.ofNat significand).toFloat
  if exponent < 0 then some (scaleDown x exponent.natAbs 4)
  else if exponent ≤ 308 then
    let y := x * powerOfTen exponent.toNat
    if y.isInf then none else some y
  else if significand = 0 then some x
  else none

def scaledNumber (positive : Bool) (significand : Nat) (exponent : Int) (rest : List Piece) :
    Result Number :=
  match scaled? significand exponent with
  | none => .error (.behind .numberOutOfRange rest 0)
  | some x => .ok (.float (if positive then x else -x), rest)

def largestExponent : Nat := Nat.pow 2 31 - 1

/-- The digits of an exponent; `none` with the text after the digit that makes it too large. -/
def readExponentDigits (exponent : Nat) : List Piece → Option Nat × List Piece
  | [] => (some exponent, [])
  | p :: rest =>
    match p with
    | .char c =>
      if c.isDigit then
        let next := exponent * 10 + (c.toNat - '0'.toNat)
        if next ≤ largestExponent then readExponentDigits next rest else (none, rest)
      else (some exponent, p :: rest)
    | .stray _ => (some exponent, p :: rest)

/-- From the mark of an exponent on; `shift` is the exponent that the digits before ask for. -/
def readExponent (positive : Bool) (significand : Nat) (shift : Int) (s : List Piece) :
    Result Number :=
  let (up, s) := match s with
    | .char '+' :: rest => (true, rest)
    | .char '-' :: rest => (false, rest)
    | s => (true, s)
  match digitOf? s with
  | none =>
    if s.isEmpty then .error (.behind .endInValue [] 0) else .error (.behind .invalidNumber s 1)
  | some (d, rest) =>
    match readExponentDigits d rest with
    | (some e, rest) =>
      scaledNumber positive significand (if up then shift + e else shift - e) rest
    | (none, rest) =>
      if significand ≠ 0 ∧ up then .error (.behind .numberOutOfRange rest 0)
      else .ok (.float (if positive then 0.0 else -0.0), skipDigits rest)

def readFraction (positive : Bool) (significand : Nat) (shift : Int) (s : List Piece) :
    Result Number :=
  let ((significand, count, more), rest) := readDigits significand 0 s
  if count = 0 ∧ ¬ more then
    .error (.ahead (if rest.isEmpty then .endInValue else .invalidNumber) rest)
  else
    let rest := if more then skipDigits rest else rest
    let shift := shift - count
    if isMark ['e', 'E'] rest then readExponent positive significand shift (rest.drop 1)
    else scaledNumber positive significand shift rest

def readTail (positive : Bool) (significand : Nat) (s : List Piece) : Result Number :=
  if isMark ['.'] s then readFraction positive significand 0 (s.drop 1)
  else if isMark ['e', 'E'] s then readExponent positive significand 0 (s.drop 1)
  else if positive then .ok (.int significand, s)
  else if significand = 0 ∨ Nat.pow 2 63 < significand then
    .ok (.float (-(UInt64.ofNat significand).toFloat), s)
  else .ok (.int (-significand), s)

/-- The same after digits that did not fit: `extra` of them count as zeros. -/
def readLongTail (positive : Bool) (significand : Nat) (s : List Piece) : Result Number :=
  let rest := skipDigits s
  let extra : Int := s.length - rest.length
  if isMark ['.'] rest then readFraction positive significand extra (rest.drop 1)
  else if isMark ['e', 'E'] rest then readExponent positive significand extra (rest.drop 1)
  else scaledNumber positive significand extra rest

/-- A number from its first digit on; the sign has been read. The significand stays below 2^64:
further digits of a whole number count as zeros, further digits of a fraction are dropped, and it is
then scaled once by a power of ten. -/
def readNumber (positive : Bool) (s : List Piece) : Result Number :=
  match digitOf? s with
  | none =>
    if s.isEmpty then .error (.behind .endInValue [] 0) else .error (.behind .invalidNumber s 1)
  | some (0, rest) =>
    if (digitOf? rest).isSome then .error (.ahead .invalidNumber rest)
    else readTail positive 0 rest
  | some (d, rest) =>
    match readDigits d 1 rest with
    | ((significand, _, false), rest) => readTail positive significand rest
    | ((significand, _, true), rest) => readLongTail positive significand rest

end ToolPipeline.Json
