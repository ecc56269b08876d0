import CpuPlacement.Text.HexDigit

/-!
# JSON tokens

The first step of reading JSON cuts the text into tokens: the six structural characters, texts in
quotes, and words, which are the runs of anything else between blanks. Whether a word is a number or
a literal is left to the reader of values.

A text may spell half of a surrogate pair, which is no character. JSON allows it, so the token is
well formed, but the text has no content that could be used.
-/

set_option autoImplicit false

namespace CpuPlacement.Json

/-- A token of JSON. -/
inductive Token where
  | openArray
  | closeArray
  | openObject
  | closeObject
  | comma
  | colon
  | word (letters : List Char)
  /-- A quoted text; without content if half of a surrogate pair stands alone in it. -/
  | text (content : Option String)
deriving DecidableEq, Repr

/-- The four characters that may stand between tokens. -/
def isSpace (c : Char) : Bool :=
  c == ' ' || c == '\t' || c == '\n' || c == '\r'

def structural? (c : Char) : Option Token :=
  match c with
  | '[' => some .openArray
  | ']' => some .closeArray
  | '\x7b' => some .openObject
  | '\x7d' => some .closeObject
  | ',' => some .comma
  | ':' => some .colon
  | _ => none

/-- The character that a letter after a backslash stands for, as a code point. -/
def escaped? (c : Char) : Option Nat :=
  match c with
  | '"' => some 0x22
  | '\\' => some 0x5C
  | '/' => some 0x2F
  | 'b' => some 0x08
  | 'f' => some 0x0C
  | 'n' => some 0x0A
  | 'r' => some 0x0D
  | 't' => some 0x09
  | _ => none

def isHighSurrogate (unit : Nat) : Bool := 0xD800 ≤ unit && unit < 0xDC00

def isLowSurrogate (unit : Nat) : Bool := 0xDC00 ≤ unit && unit < 0xE000

/-- The characters of a text in which surrogates may stand: a high one and a low one right after it
are one character, any other is none. -/
def content? : List Nat → Option (List Char)
  | [] => some []
  | high :: low :: rest =>
    if isHighSurrogate high && isLowSurrogate low then
      (content? rest).map (Char.ofNat (0x10000 + (high - 0xD800) * 0x400 + (low - 0xDC00)) :: ·)
    else if isHighSurrogate high || isLowSurrogate high then none
    else (content? (low :: rest)).map (Char.ofNat high :: ·)
  | [unit] =>
    if isHighSurrogate unit || isLowSurrogate unit then none else some [Char.ofNat unit]

/-- Where the reader is: between tokens, or within one, whose letters so far stand in reverse. -/
inductive Scan where
  | between
  | word (letters : List Char)
  | text (units : List Nat)
  /-- After a backslash. -/
  | escape (units : List Nat)
  /-- Within the four digits of a numbered character, with the digits still to come. -/
  | numbered (units : List Nat) (missing value : Nat)
deriving Repr

/-- The tokens so far, in reverse, and where the reader is. -/
structure Scanner where
  tokens : List Token
  scan : Scan

namespace Scanner

/-- One character that is not within a token. -/
def start (tokens : List Token) (c : Char) : Scanner :=
  if isSpace c then ⟨tokens, .between⟩
  else if c == '"' then ⟨tokens, .text []⟩
  else
    match structural? c with
    | some token => ⟨token :: tokens, .between⟩
    | none => ⟨tokens, .word [c]⟩

/-- A word ends before a blank, a quote and a structural character. -/
def endsWord (c : Char) : Bool :=
  isSpace c || c == '"' || (structural? c).isSome

/-- Reads one character. -/
def step (s : Scanner) (c : Char) : Option Scanner :=
  match s.scan with
  | .between => some (start s.tokens c)
  | .word letters =>
    if endsWord c then some (start (.word letters.reverse :: s.tokens) c)
    else some ⟨s.tokens, .word (c :: letters)⟩
  | .text units =>
    if c == '"' then
      some ⟨.text ((content? units.reverse).map String.ofList) :: s.tokens, .between⟩
    else if c == '\\' then some ⟨s.tokens, .escape units⟩
    else if c.toNat < 0x20 then none
    else some ⟨s.tokens, .text (c.toNat :: units)⟩
  | .escape units =>
    if c == 'u' then some ⟨s.tokens, .numbered units 3 0⟩
    else (escaped? c).map fun unit => ⟨s.tokens, .text (unit :: units)⟩
  | .numbered units missing value =>
    (Text.hexDigit? c).map fun digit =>
      let value := 16 * value + digit
      match missing with
      | 0 => ⟨s.tokens, .text (value :: units)⟩
      | more + 1 => ⟨s.tokens, .numbered units more value⟩

/-- The tokens when the text has ended; it cannot end within quotes. -/
def finish (s : Scanner) : Option (List Token) :=
  match s.scan with
  | .between => some s.tokens.reverse
  | .word letters => some (.word letters.reverse :: s.tokens).reverse
  | _ => none

end Scanner

/-- The tokens of a text. -/
def tokens? (text : List Char) : Option (List Token) :=
  (text.foldlM Scanner.step ⟨[], .between⟩).bind Scanner.finish

end CpuPlacement.Json
