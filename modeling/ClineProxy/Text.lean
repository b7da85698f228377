import Mathlib.Data.List.Basic
import Mathlib.Data.String.Basic

/-!
String operations of a UTF-8 string library, on lists of characters: white-space and
pattern trimming, splitting, searching, ASCII case, unsigned number parsing, and the
lossy decoding of bytes.
-/

namespace Text

def isWhitespace (character : Char) : Bool :=
  let code := character.toNat
  (9 ≤ code && code ≤ 13) || code == 0x20 || code == 0x85 || code == 0xA0 || code == 0x1680 ||
    (0x2000 ≤ code && code ≤ 0x200A) || code == 0x2028 || code == 0x2029 || code == 0x202F ||
    code == 0x205F || code == 0x3000

def isAsciiWhitespace (character : Char) : Bool :=
  character == ' ' || character == '\t' || character == '\n' || character == '\r' ||
    character == '\x0c'

def isAsciiDigit (character : Char) : Bool := '0' ≤ character && character ≤ '9'

def isAsciiAlphanumeric (character : Char) : Bool :=
  isAsciiDigit character || ('a' ≤ character && character ≤ 'z') ||
    ('A' ≤ character && character ≤ 'Z')

def toAsciiLower (character : Char) : Char :=
  if 'A' ≤ character && character ≤ 'Z' then Char.ofNat (character.toNat + 32) else character

def toAsciiLowercase (text : List Char) : List Char := text.map toAsciiLower

def trimStartMatches (drop : Char → Bool) (text : List Char) : List Char := text.dropWhile drop

def trimEndMatches (drop : Char → Bool) (text : List Char) : List Char :=
  (text.reverse.dropWhile drop).reverse

def trimMatches (drop : Char → Bool) (text : List Char) : List Char :=
  trimEndMatches drop (trimStartMatches drop text)

def trim (text : List Char) : List Char := trimMatches isWhitespace text

def trimStart (text : List Char) : List Char := trimStartMatches isWhitespace text

/-- `word` holds the characters of the unfinished word, last one first. -/
def splitWhitespaceFrom (word : List Char) : List Char → List (List Char)
  | [] => if word.isEmpty then [] else [word.reverse]
  | character :: rest =>
      if isWhitespace character then
        if word.isEmpty then splitWhitespaceFrom [] rest
        else word.reverse :: splitWhitespaceFrom [] rest
      else splitWhitespaceFrom (character :: word) rest

def splitWhitespace (text : List Char) : List (List Char) := splitWhitespaceFrom [] text

def splitFrom (separator : Char → Bool) (piece : List Char) : List Char → List (List Char)
  | [] => [piece.reverse]
  | character :: rest =>
      if separator character then piece.reverse :: splitFrom separator [] rest
      else splitFrom separator (character :: piece) rest

def split (separator : Char → Bool) (text : List Char) : List (List Char) :=
  splitFrom separator [] text

def startsWith (pattern text : List Char) : Bool := pattern.isPrefixOf text

def stripPrefix (pattern text : List Char) : Option (List Char) :=
  if startsWith pattern text then some (text.drop pattern.length) else none

def find (pattern : List Char) : List Char → Option Nat
  | [] => if pattern.isEmpty then some 0 else none
  | character :: rest =>
      if startsWith pattern (character :: rest) then some 0 else (find pattern rest).map (· + 1)

def contains (pattern text : List Char) : Bool := (find pattern text).isSome

/-- `skip` characters still belong to the occurrence that was replaced last. -/
def replaceFrom (pattern replacement : List Char) : Nat → List Char → List Char
  | _, [] => []
  | skip + 1, _ :: rest => replaceFrom pattern replacement skip rest
  | 0, character :: rest =>
      if startsWith pattern (character :: rest) then
        replacement ++ replaceFrom pattern replacement (pattern.length - 1) rest
      else character :: replaceFrom pattern replacement 0 rest

def replace (pattern replacement text : List Char) : List Char :=
  replaceFrom pattern replacement 0 text

def join (separator : List Char) (pieces : List (List Char)) : List Char :=
  separator.intercalate pieces

def charUtf8Len (character : Char) : Nat := character.utf8Size

def utf8Len (text : List Char) : Nat :=
  text.foldl (fun total character => total + charUtf8Len character) 0

def digitsValue (digits : List Char) : Nat :=
  digits.foldl (fun total digit => total * 10 + (digit.toNat - '0'.toNat)) 0

/-- Parsing as an unsigned integer of at most `bound - 1`, with an optional plus sign. -/
def parseUnsigned (bound : Nat) (text : List Char) : Option Nat :=
  let digits := (stripPrefix ['+'] text).getD text
  if digits.isEmpty || !digits.all isAsciiDigit then none
  else if digitsValue digits < bound then some (digitsValue digits) else none

def hexDigit (value : Nat) : Char :=
  if value < 10 then Char.ofNat ('0'.toNat + value) else Char.ofNat ('a'.toNat + (value - 10))

/-- One character of a quoted debug rendering. Those that are not ASCII all stand for themselves;
the source escapes the ones that are not printable. -/
def escapeDebug (character : Char) : List Char :=
  if character == '"' || character == '\\' then ['\\', character]
  else if character == '\n' then ['\\', 'n']
  else if character == '\r' then ['\\', 'r']
  else if character == '\t' then ['\\', 't']
  else if character.toNat = 0 then ['\\', '0']
  else if character.toNat < 32 || character.toNat = 127 then
    ['\\', 'u', Char.ofNat 123] ++
      (if character.toNat < 16 then [hexDigit character.toNat]
       else [hexDigit (character.toNat / 16), hexDigit (character.toNat % 16)]) ++ [Char.ofNat 125]
  else [character]

def quoteDebug (text : String) : String :=
  String.ofList ('"' :: text.toList.flatMap escapeDebug ++ ['"'])

def replacementCharacter : Char := Char.ofNat 0xFFFD

def isContinuation (byte : UInt8) : Bool := 0x80 ≤ byte && byte ≤ 0xBF

def secondOfThree (first second : UInt8) : Bool :=
  (first == 0xE0 && 0xA0 ≤ second && second ≤ 0xBF) ||
    (0xE1 ≤ first && first ≤ 0xEC && isContinuation second) ||
    (first == 0xED && 0x80 ≤ second && second ≤ 0x9F) ||
    (0xEE ≤ first && first ≤ 0xEF && isContinuation second)

def secondOfFour (first second : UInt8) : Bool :=
  (first == 0xF0 && 0x90 ≤ second && second ≤ 0xBF) ||
    (0xF1 ≤ first && first ≤ 0xF3 && isContinuation second) ||
    (first == 0xF4 && 0x80 ≤ second && second ≤ 0x8F)

def sixBits (byte : UInt8) : Nat := byte.toNat % 64

/-- Decodes UTF-8, putting one replacement character for each maximal invalid prefix. -/
def fromUtf8Lossy : List UInt8 → List Char
  | [] => []
  | first :: rest =>
      if first < 0x80 then Char.ofNat first.toNat :: fromUtf8Lossy rest
      else if 0xC2 ≤ first && first ≤ 0xDF then
        match rest with
        | second :: afterSecond =>
            if isContinuation second then
              Char.ofNat (first.toNat % 32 * 64 + sixBits second) :: fromUtf8Lossy afterSecond
            else replacementCharacter :: fromUtf8Lossy (second :: afterSecond)
        | [] => [replacementCharacter]
      else if 0xE0 ≤ first && first ≤ 0xEF then
        match rest with
        | second :: third :: afterThird =>
            if secondOfThree first second then
              if isContinuation third then
                Char.ofNat (first.toNat % 16 * 4096 + sixBits second * 64 + sixBits third) ::
                  fromUtf8Lossy afterThird
              else replacementCharacter :: fromUtf8Lossy (third :: afterThird)
            else replacementCharacter :: fromUtf8Lossy (second :: third :: afterThird)
        | [second] =>
            if secondOfThree first second then [replacementCharacter]
            else replacementCharacter :: fromUtf8Lossy [second]
        | [] => [replacementCharacter]
      else if 0xF0 ≤ first && first ≤ 0xF4 then
        match rest with
        | second :: third :: fourth :: afterFourth =>
            if secondOfFour first second then
              if isContinuation third then
                if isContinuation fourth then
                  Char.ofNat (first.toNat % 8 * 262144 + sixBits second * 4096 +
                    sixBits third * 64 + sixBits fourth) :: fromUtf8Lossy afterFourth
                else replacementCharacter :: fromUtf8Lossy (fourth :: afterFourth)
              else replacementCharacter :: fromUtf8Lossy (third :: fourth :: afterFourth)
            else replacementCharacter :: fromUtf8Lossy (second :: third :: fourth :: afterFourth)
        | [second, third] =>
            if secondOfFour first second then
              if isContinuation third then [replacementCharacter]
              else replacementCharacter :: fromUtf8Lossy [third]
            else replacementCharacter :: fromUtf8Lossy [second, third]
        | [second] =>
            if secondOfFour first second then [replacementCharacter]
            else replacementCharacter :: fromUtf8Lossy [second]
        | [] => [replacementCharacter]
      else replacementCharacter :: fromUtf8Lossy rest

example : fromUtf8Lossy [0x61, 0xC3, 0xA9, 0xE2, 0x82, 0x41, 0xFF] =
    ['a', 'é', replacementCharacter, 'A', replacementCharacter] := by decide

end Text
