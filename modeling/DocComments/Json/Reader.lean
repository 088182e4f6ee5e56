import DocComments.Json.Basic

/-!
# Reading JSON

A reader of the values that `Json` stands for, in whatever layout and with whatever escapes they
are written. It reads one value from the start of a text and returns what follows it, so that
values can be read one after the other.

* `readValue` reads a value; its first argument bounds the number of steps.
* `read?` reads a text that is one value, and `readMany?` one that is several.
-/

namespace DocComments.Json

/-- Is `c` one of the four characters that may stand around a value? -/
def isSpace (c : Char) : Bool :=
  c == ' ' || c == '\n' || c == '\r' || c == '\t'

/-- The text without the space it starts with. -/
def skipSpace (t : Text) : Text :=
  t.dropWhile isSpace

/-! ## Texts -/

/-- The value of a hexadecimal digit. -/
def hexDigit? (c : Char) : Option Nat :=
  if '0'.toNat ≤ c.toNat ∧ c.toNat ≤ '9'.toNat then some (c.toNat - '0'.toNat)
  else if 'a'.toNat ≤ c.toNat ∧ c.toNat ≤ 'f'.toNat then some (c.toNat - 'a'.toNat + 10)
  else if 'A'.toNat ≤ c.toNat ∧ c.toNat ≤ 'F'.toNat then some (c.toNat - 'A'.toNat + 10)
  else none

/-- A number of four hexadecimal digits, and what follows it. -/
def readHex4 : Text → Option (Nat × Text)
  | a :: b :: c :: d :: t => do
    let a ← hexDigit? a
    let b ← hexDigit? b
    let c ← hexDigit? c
    let d ← hexDigit? d
    return (((a * 16 + b) * 16 + c) * 16 + d, t)
  | _ => none

/-- The character that a UTF-16 unit starts, which takes a second unit if the first is the upper
half of a pair. -/
def readUnit (t : Text) : Option (Char × Text) := do
  let (unit, t) ← readHex4 t
  if unit < 0xd800 ∨ 0xdfff < unit then return (Char.ofNat unit, t)
  else if unit < 0xdc00 then
    match t with
    | '\\' :: 'u' :: t => do
      let (low, t) ← readHex4 t
      if 0xdc00 ≤ low ∧ low ≤ 0xdfff then
        return (Char.ofNat (0x10000 + (unit - 0xd800) * 0x400 + (low - 0xdc00)), t)
      else none
    | _ => none
  else none

/-- The character that stands escaped after a backslash. -/
def readEscaped : Text → Option (Char × Text)
  | '"' :: t => some ('"', t)
  | '\\' :: t => some ('\\', t)
  | '/' :: t => some ('/', t)
  | 'b' :: t => some ('\x08', t)
  | 'f' :: t => some ('\x0c', t)
  | 'n' :: t => some ('\n', t)
  | 'r' :: t => some ('\r', t)
  | 't' :: t => some ('\t', t)
  | 'u' :: t => readUnit t
  | _ => none

/-- The rest of a text in quotes, up to the closing quote. -/
def readQuoted : Nat → Text → Option (Text × Text)
  | 0, _ => none
  | _ + 1, [] => none
  | _ + 1, '"' :: t => some ([], t)
  | fuel + 1, '\\' :: t => do
    let (c, t) ← readEscaped t
    let (rest, t) ← readQuoted fuel t
    return (c :: rest, t)
  | fuel + 1, c :: t =>
    if c.toNat < 0x20 then none
    else do
      let (rest, t) ← readQuoted fuel t
      return (c :: rest, t)

/-! ## Numbers -/

/-- The value of decimal digits. -/
def decimal (digits : Text) : Nat :=
  digits.foldl (fun n c => n * 10 + (c.toNat - '0'.toNat)) 0

/-- A number without a sign, a fraction or an exponent. -/
def readNumber (t : Text) : Option (Json × Text) :=
  let digits := t.takeWhile Char.isDigit
  let rest := t.dropWhile Char.isDigit
  let goesOn : Bool := match rest with
    | c :: _ => c == '.' || c == 'e' || c == 'E'
    | [] => false
  if digits = [] ∨ (digits.head? = some '0' ∧ 1 < digits.length) ∨ goesOn then none
  else some (.number (decimal digits), rest)

/-! ## Values -/

mutual

/-- The value at the start of a text. -/
def readValue : Nat → Text → Option (Json × Text)
  | 0, _ => none
  | fuel + 1, t =>
    match skipSpace t with
    | 'n' :: 'u' :: 'l' :: 'l' :: t => some (.null, t)
    | '"' :: t => (readQuoted fuel t).map fun (text, t) => (.string text, t)
    | '[' :: t =>
      match skipSpace t with
      | ']' :: t => some (.array [], t)
      | t => (readItems fuel t).map fun (items, t) => (.array items, t)
    | '\x7b' :: t =>
      match skipSpace t with
      | '\x7d' :: t => some (.object [], t)
      | t => (readFields fuel t).map fun (fields, t) => (.object fields, t)
    | t => readNumber t

/-- The items of a list, up to the closing bracket. -/
def readItems : Nat → Text → Option (List Json × Text)
  | 0, _ => none
  | fuel + 1, t => do
    let (item, t) ← readValue fuel t
    match skipSpace t with
    | ']' :: t => return ([item], t)
    | ',' :: t => do
      let (items, t) ← readItems fuel t
      return (item :: items, t)
    | _ => none

/-- The fields of an object, up to the closing brace. -/
def readFields : Nat → Text → Option (List (Text × Json) × Text)
  | 0, _ => none
  | fuel + 1, t =>
    match skipSpace t with
    | '"' :: t => do
      let (name, t) ← readQuoted fuel t
      match skipSpace t with
      | ':' :: t => do
        let (value, t) ← readValue fuel t
        match skipSpace t with
        | '\x7d' :: t => return ([(name, value)], t)
        | ',' :: t => do
          let (fields, t) ← readFields fuel t
          return ((name, value) :: fields, t)
        | _ => none
      | _ => none
    | _ => none

end

/-- The value that the whole text is, apart from space around it. -/
def read? (t : Text) : Option Json :=
  match readValue (t.length + 1) t with
  | some (value, rest) => if skipSpace rest = [] then some value else none
  | none => none

/-- The values that stand one after the other in a text, at most as many as the first argument. -/
def readManyFrom : Nat → Text → Option (List Json)
  | 0, _ => none
  | fuel + 1, t =>
    if skipSpace t = [] then some []
    else do
      let (value, rest) ← readValue (t.length + 1) t
      let values ← readManyFrom fuel rest
      return value :: values

/-- The values that stand one after the other in a text. -/
def readMany? (t : Text) : Option (List Json) :=
  readManyFrom (t.length + 1) t

/-! ## Looking into values -/

/-- The value of the first field with the name. -/
def field? (name : Text) : Json → Option Json
  | object fields => (fields.find? fun field => field.1 = name).map Prod.snd
  | _ => none

/-- The items, if the value is a list. -/
def items : Json → List Json
  | array items => items
  | _ => []

/-- The text, if the value is one. -/
def text? : Json → Option Text
  | string t => some t
  | _ => none

end DocComments.Json
