import Cepheus.Infra.Json

/-!
# The text of JSON values

How `encoding/json` writes a value (`Json.print`, without spaces) and how it reads one
(`Json.parse`). Texts are lists of characters. A number that is written with a point or an exponent
has a scale of one at least, so that it stays apart from an integer.

The nesting is not limited here (Go stops at 10000 levels).
-/

namespace Cepheus.Infra.Json

/-! ## Writing -/

/-- The letter behind the backslash, where there is a short form. -/
def shortEscape (n : Nat) : Option Char :=
  if n = 34 then some '"'
  else if n = 92 then some '\\'
  else if n = 8 then some 'b'
  else if n = 9 then some 't'
  else if n = 10 then some 'n'
  else if n = 12 then some 'f'
  else if n = 13 then some 'r'
  else none

/-- The characters that are written by number: control characters, and those that mean something in
HTML or JavaScript. -/
def escaped (n : Nat) : Bool :=
  n < 32 || n = 38 || n = 60 || n = 62 || n = 0x2028 || n = 0x2029

/-- Four hexadecimal digits. -/
def hex4 (n : Nat) : List Char :=
  [Nat.digitChar (n / 4096 % 16), Nat.digitChar (n / 256 % 16), Nat.digitChar (n / 16 % 16),
    Nat.digitChar (n % 16)]

def escape (c : Char) : List Char :=
  match shortEscape c.toNat with
  | some d => ['\\', d]
  | none => if escaped c.toNat then '\\' :: 'u' :: hex4 c.toNat else [c]

/-- `appendString`. -/
def quote (s : String) : List Char := '"' :: (s.toList.flatMap escape ++ ['"'])

/-- The digits of a number, at least so many. -/
def padded (width n : Nat) : List Char :=
  List.replicate (width - (Nat.toDigits 10 n).length) '0' ++ Nat.toDigits 10 n

def Number.print (n : Number) : List Char :=
  let sign := if n.mantissa < 0 then ['-'] else []
  if n.scale = 0 then sign ++ Nat.toDigits 10 n.mantissa.natAbs
  else
    let digits := padded (n.scale + 1) n.mantissa.natAbs
    sign ++ digits.take (digits.length - n.scale) ++ '.' :: digits.drop (digits.length - n.scale)

mutual

def print : Json → List Char
  | null => "null".toList
  | bool true => "true".toList
  | bool false => "false".toList
  | number n => n.print
  | string s => quote s
  | array [] => ['[', ']']
  | array (json :: rest) => '[' :: (print json ++ printElements rest)
  | object [] => ['\x7b', '\x7d']
  | object ((key, json) :: rest) =>
    '\x7b' :: (quote key ++ ':' :: (print json ++ printMembers rest))

/-- The other elements of an array. -/
def printElements : List Json → List Char
  | [] => [']']
  | json :: rest => ',' :: (print json ++ printElements rest)

/-- The other members of an object. -/
def printMembers : List (String × Json) → List Char
  | [] => ['\x7d']
  | (key, json) :: rest => ',' :: (quote key ++ ':' :: (print json ++ printMembers rest))

end

/-! ## Reading -/

def isSpace (c : Char) : Bool := c = ' ' || c = '\t' || c = '\n' || c = '\r'

def skip (s : List Char) : List Char := s.dropWhile isSpace

/-- The character for a letter behind a backslash. -/
def unescape (c : Char) : Option Char :=
  if c = '"' then some '"'
  else if c = '\\' then some '\\'
  else if c = '/' then some '/'
  else if c = 'b' then some (Char.ofNat 8)
  else if c = 't' then some '\t'
  else if c = 'n' then some '\n'
  else if c = 'f' then some (Char.ofNat 12)
  else if c = 'r' then some '\r'
  else none

def hexValue (c : Char) : Option Nat :=
  if c.isDigit then some (c.toNat - 48)
  else if 'a' ≤ c ∧ c ≤ 'f' then some (c.toNat - 87)
  else if 'A' ≤ c ∧ c ≤ 'F' then some (c.toNat - 55)
  else none

/-- `getu4`. -/
def getu4 : List Char → Option (Nat × List Char)
  | a :: b :: c :: d :: rest => do
    let a ← hexValue a
    let b ← hexValue b
    let c ← hexValue c
    let d ← hexValue d
    return (a * 4096 + b * 256 + c * 16 + d, rest)
  | _ => none

/-- What is behind `\u`. Two surrogates are one character, and one alone is none. -/
def unicode (s : List Char) : Option (Char × List Char) :=
  match getu4 s with
  | none => none
  | some (n, rest) =>
    if 0xd800 ≤ n ∧ n < 0xe000 then
      match rest with
      | '\\' :: 'u' :: next =>
        match getu4 next with
        | some (m, next) =>
          if n < 0xdc00 ∧ 0xdc00 ≤ m ∧ m < 0xe000 then
            some (Char.ofNat ((n - 0xd800) * 1024 + (m - 0xdc00) + 0x10000), next)
          else some (Char.ofNat 0xfffd, rest)
        | none => some (Char.ofNat 0xfffd, rest)
      | _ => some (Char.ofNat 0xfffd, rest)
    else some (Char.ofNat n, rest)

/-- A string, from behind its first quote on. -/
def stringBody : Nat → List Char → Option (List Char × List Char)
  | 0, _ => none
  | _ + 1, [] => none
  | fuel + 1, c :: s =>
    if c = '"' then some ([], s)
    else if c = '\\' then
      match s with
      | [] => none
      | d :: s =>
        let next := if d = 'u' then unicode s else (unescape d).map (·, s)
        next.bind fun (c, s) => (stringBody fuel s).map fun (cs, s) => (c :: cs, s)
    else if c.toNat < 32 then none
    else (stringBody fuel s).map fun (cs, s) => (c :: cs, s)

/-- Some digits, one at least. -/
def digits (s : List Char) : Option (List Char × List Char) :=
  match s.takeWhile Char.isDigit with
  | [] => none
  | ds => some (ds, s.dropWhile Char.isDigit)

/-- The digits in front of the point. The first of several is not zero. -/
def integerPart (s : List Char) : Option (List Char × List Char) := do
  let (ds, s) ← digits s
  if ds.head? = some '0' ∧ ds.length ≠ 1 then none else some (ds, s)

/-- The digits behind the point, if there is one. -/
def fraction : List Char → Option (List Char × List Char)
  | '.' :: s => digits s
  | s => some ([], s)

/-- The exponent, if there is one. -/
def exponent : List Char → Option (Option Int × List Char)
  | c :: s =>
    if c = 'e' ∨ c = 'E' then do
      let (sign, s) : Int × List Char :=
        match s with
        | '-' :: s => (-1, s)
        | '+' :: s => (1, s)
        | s => (1, s)
      let (ds, s) ← digits s
      return (some (sign * Nat.ofDigitChars 10 ds 0), s)
    else some (none, c :: s)
  | [] => some (none, [])

/-- The number for its parts. -/
def assemble (negative : Bool) (int frac : List Char) (exp : Option Int) : Number :=
  let n : Int := Nat.ofDigitChars 10 (int ++ frac) 0
  let n := if negative then -n else n
  match exp with
  | none => { mantissa := n, scale := frac.length }
  | some e =>
    -- one digit behind the point at least
    if 0 ≤ e then { mantissa := n * 10 ^ (e.toNat + 1), scale := frac.length + 1 }
    else { mantissa := n * 10, scale := frac.length + e.natAbs + 1 }

def numberBody (negative : Bool) (s : List Char) : Option (Number × List Char) := do
  let (int, s) ← integerPart s
  let (frac, s) ← fraction s
  let (exp, s) ← exponent s
  return (assemble negative int frac exp, s)

def parseNumber : List Char → Option (Number × List Char)
  | '-' :: s => numberBody true s
  | s => numberBody false s

/-- A word that stands for a value. -/
def word (text : List Char) (json : Json) (s : List Char) : Option (Json × List Char) :=
  if text.isPrefixOf s then some (json, s.drop text.length) else none

/-- The name of a member, with its colon. -/
def memberName (fuel : Nat) (s : List Char) : Option (String × List Char) :=
  match skip s with
  | '"' :: s =>
    match stringBody fuel s with
    | some (cs, s) =>
      match skip s with
      | ':' :: s => some (String.ofList cs, s)
      | _ => none
    | none => none
  | _ => none

mutual

/-- A value, and what is behind it. The fuel bounds the depth of the recursion. -/
def value : Nat → List Char → Option (Json × List Char)
  | 0, _ => none
  | fuel + 1, s =>
    match skip s with
    | [] => none
    | c :: s =>
      if c = '"' then (stringBody fuel s).map fun (cs, s) => (string (String.ofList cs), s)
      else if c = '[' then
        match skip s with
        | ']' :: s => some (array [], s)
        | s =>
          (value fuel s).bind fun (json, s) =>
            (otherElements fuel s).map fun (rest, s) => (array (json :: rest), s)
      else if c = '\x7b' then
        match skip s with
        | '\x7d' :: s => some (object [], s)
        | s =>
          (memberName fuel s).bind fun (key, s) =>
            (value fuel s).bind fun (json, s) =>
              (otherMembers fuel s).map fun (rest, s) => (object ((key, json) :: rest), s)
      else if c = 'n' then word "null".toList null (c :: s)
      else if c = 't' then word "true".toList (bool true) (c :: s)
      else if c = 'f' then word "false".toList (bool false) (c :: s)
      else (parseNumber (c :: s)).map fun (n, s) => (number n, s)

/-- The other elements of an array. -/
def otherElements : Nat → List Char → Option (List Json × List Char)
  | 0, _ => none
  | fuel + 1, s =>
    match skip s with
    | ']' :: s => some ([], s)
    | ',' :: s =>
      (value fuel s).bind fun (json, s) =>
        (otherElements fuel s).map fun (rest, s) => (json :: rest, s)
    | _ => none

/-- The other members of an object. -/
def otherMembers : Nat → List Char → Option (List (String × Json) × List Char)
  | 0, _ => none
  | fuel + 1, s =>
    match skip s with
    | '\x7d' :: s => some ([], s)
    | ',' :: s =>
      (memberName fuel s).bind fun (key, s) =>
        (value fuel s).bind fun (json, s) =>
          (otherMembers fuel s).map fun (rest, s) => ((key, json) :: rest, s)
    | _ => none

end

/-- `json.Unmarshal`, up to the value: a text is one value and nothing else. -/
def parse (s : List Char) : Option Json :=
  match value (s.length + 1) s with
  | some (json, rest) => if skip rest = [] then some json else none
  | none => none

end Cepheus.Infra.Json
