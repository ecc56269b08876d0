import CpuPlacement.Json.Token
import CpuPlacement.Text.Numeral

/-!
# JSON values

The second step of reading JSON builds a value from the tokens. The reader goes through the tokens
once and keeps the arrays and objects that are still open on a stack, so values may be nested to any
depth.

A number keeps its spelling, since a value may be read whose numbers fit no type and are never used.
An object keeps its fields in order, repeated names included; what to make of those is left to
whoever asks for the fields.
-/

set_option autoImplicit false

namespace CpuPlacement.Json

/-- A JSON value. -/
inductive Value where
  | null
  | bool (value : Bool)
  /-- A number as it is spelled. -/
  | number (letters : List Char)
  /-- A text, without content if half of a surrogate pair stands alone in it. -/
  | text (content : Option String)
  | array (items : List Value)
  | object (fields : List (Option String × Value))
deriving Repr

/-! ## Words -/

/-- One digit or more. -/
def isDigits (letters : List Char) : Bool :=
  !letters.isEmpty && letters.all Char.isDigit

/-- Digits that start with 0 only if that is all. -/
def isInteger (letters : List Char) : Bool :=
  isDigits letters && (letters.head? != some '0' || letters.length == 1)

/-- Nothing, or the sign of an exponent and its digits. -/
def isExponent : List Char → Bool
  | [] => true
  | e :: rest =>
    (e == 'e' || e == 'E') &&
      match rest with
      | '+' :: digits => isDigits digits
      | '-' :: digits => isDigits digits
      | digits => isDigits digits

/-- What may follow the integer of a number: a fraction and an exponent. -/
def isNumberEnd : List Char → Bool
  | '.' :: rest =>
    !(rest.takeWhile Char.isDigit).isEmpty && isExponent (rest.dropWhile Char.isDigit)
  | rest => isExponent rest

/-- The word spells a number. -/
def isNumber (letters : List Char) : Bool :=
  let unsigned := match letters with
    | '-' :: rest => rest
    | _ => letters
  isInteger (unsigned.takeWhile Char.isDigit) && isNumberEnd (unsigned.dropWhile Char.isDigit)

/-- The value of a word. -/
def ofWord? (letters : List Char) : Option Value :=
  if letters = "null".toList then some .null
  else if letters = "true".toList then some (.bool true)
  else if letters = "false".toList then some (.bool false)
  else if isNumber letters then some (.number letters)
  else none

/-! ## Arrays and objects -/

/-- An array or object that is still open; what it holds so far stands in reverse. -/
inductive Frame where
  | array (items : List Value)
  | object (fields : List (Option String × Value))
  /-- An object within a field, whose value comes next. -/
  | field (fields : List (Option String × Value)) (name : Option String)

/-- What may come next. -/
inductive Expectation where
  | value
  | valueOrClose
  | nameOrClose
  | name
  | colon
  | commaOrClose
  /-- The value is complete. -/
  | nothing (value : Value)

/-- The state of the reader. -/
structure Reader where
  stack : List Frame
  expects : Expectation

namespace Reader

/-- A value is complete; it goes to where it belongs. -/
def put (stack : List Frame) (value : Value) : Option Reader :=
  match stack with
  | [] => some ⟨[], .nothing value⟩
  | .array items :: stack => some ⟨.array (value :: items) :: stack, .commaOrClose⟩
  | .field fields name :: stack =>
    some ⟨.object ((name, value) :: fields) :: stack, .commaOrClose⟩
  | .object _ :: _ => none

/-- A token where a value has to start. -/
def startValue (stack : List Frame) : Token → Option Reader
  | .word letters => (ofWord? letters).bind (put stack)
  | .text content => put stack (.text content)
  | .openArray => some ⟨.array [] :: stack, .valueOrClose⟩
  | .openObject => some ⟨.object [] :: stack, .nameOrClose⟩
  | _ => none

/-- The innermost array ends. -/
def closeArray : List Frame → Option Reader
  | .array items :: stack => put stack (.array items.reverse)
  | _ => none

/-- The innermost object ends. -/
def closeObject : List Frame → Option Reader
  | .object fields :: stack => put stack (.object fields.reverse)
  | _ => none

/-- The name of a field. -/
def startField (stack : List Frame) : Token → Option Reader
  | .text name =>
    match stack with
    | .object fields :: stack => some ⟨.field fields name :: stack, .colon⟩
    | _ => none
  | _ => none

/-- Another element is to follow. -/
def next : List Frame → Option Reader
  | .array items :: stack => some ⟨.array items :: stack, .value⟩
  | .object fields :: stack => some ⟨.object fields :: stack, .name⟩
  | _ => none

/-- Reads one token. -/
def step (r : Reader) (token : Token) : Option Reader :=
  match r.expects, token with
  | .value, token => startValue r.stack token
  | .valueOrClose, .closeArray => closeArray r.stack
  | .valueOrClose, token => startValue r.stack token
  | .nameOrClose, .closeObject => closeObject r.stack
  | .nameOrClose, token => startField r.stack token
  | .name, token => startField r.stack token
  | .colon, .colon => some ⟨r.stack, .value⟩
  | .commaOrClose, .comma => next r.stack
  | .commaOrClose, .closeArray => closeArray r.stack
  | .commaOrClose, .closeObject => closeObject r.stack
  | _, _ => none

end Reader

/-- The value that a text spells. -/
def parse? (text : String) : Option Value := do
  let tokens ← tokens? text.toList
  let reader ← tokens.foldlM Reader.step ⟨[], .value⟩
  match reader.expects with
  | .nothing value => some value
  | _ => none

/-! ## Records -/

namespace Value

/-- The fields of a record by their names, each as far as it is there. In an object unknown names
are passed over and known ones must not be repeated; an array lists the fields by position. -/
def fields? (names : List String) : Value → Option (List (Option Value))
  | .object fields => do
    let named ← fields.mapM fun (name, value) => name.map (·, value)
    if names.any fun name => 1 < named.countP (·.1 == name) then none
    else some (names.map fun name => List.lookup name named)
  | .array items =>
    if items.length ≤ names.length then some ((List.range names.length).map (items[·]?)) else none
  | _ => none

/-- A number below the limit, written without sign, fraction and exponent. -/
def natBelow? (limit : Nat) : Value → Option Nat
  | .number letters =>
    if isDigits letters then (Numeral.readDigits limit 0 letters).toOption else none
  | _ => none

/-- A number below the limit; nothing if it is left out or null. -/
def optionalNatBelow? (limit : Nat) : Option Value → Option (Option Nat)
  | none => some none
  | some .null => some none
  | some value => (value.natBelow? limit).map some

end Value

end CpuPlacement.Json
