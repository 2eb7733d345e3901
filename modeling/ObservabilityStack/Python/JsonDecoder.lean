import ObservabilityStack.Python.Json

/-!
# `json.loads`

The scanner of the decoder reads a value off the front of a text and returns what is left. It
descends into arrays and objects; the fuel of the recursion is a bound on how often it does, and
`loads` starts with more than a text can need.

A number with a fraction or an exponent is a `float`. What `repr` prints of it is the parameter
`reprFloat`, on the text of the number. An escape that stands for half of a character has no
counterpart among the characters of Lean, and is refused here.

The decoder is written by hand, from the grammar and the order in which `json.scanner` tries it, so
that the round trip can be proved and the malformed texts of a client have an outcome. It is
deliberately lenient where the module is: `NaN` and the infinities are read, and so is any white
space between two tokens. What it leaves out is the depth at which the interpreter gives up, and
the message and position of the exception: that one was raised is all a caller can see of `none`.
-/

set_option autoImplicit false

namespace ObservabilityStack
namespace Python
namespace Json

/-! ## Strings

An escape beyond the basic plane is two units, and the second is read only if the first asks for
it. So a string is scanned with as much fuel as it has characters, and each step takes one or two
escapes off. -/

def hexDigit (c : Char) : Option ℕ :=
  if '0' ≤ c ∧ c ≤ '9' then some (c.toNat - 48)
  else if 'a' ≤ c ∧ c ≤ 'f' then some (c.toNat - 87)
  else if 'A' ≤ c ∧ c ≤ 'F' then some (c.toNat - 55)
  else none

/-- The four digits of a `\u` escape. -/
def scanUnit : List Char → Option (ℕ × List Char)
  | a :: b :: c :: d :: rest => do
      let a ← hexDigit a
      let b ← hexDigit b
      let c ← hexDigit c
      let d ← hexDigit d
      return (((a * 16 + b) * 16 + c) * 16 + d, rest)
  | _ => none

/-- What stands behind a backslash, and the character it means. -/
def scanEscape : List Char → Option (Char × List Char)
  | [] => none
  | c :: rest =>
      if c = '"' ∨ c = '\\' ∨ c = '/' then some (c, rest)
      else if c = 'b' then some (Char.ofNat 8, rest)
      else if c = 'f' then some (Char.ofNat 12, rest)
      else if c = 'n' then some ('\n', rest)
      else if c = 'r' then some ('\r', rest)
      else if c = 't' then some ('\t', rest)
      else if c = 'u' then do
        let (unit, rest) ← scanUnit rest
        if 0xD800 ≤ unit ∧ unit ≤ 0xDBFF then
          -- the first half of a pair
          match rest with
          | '\\' :: 'u' :: rest => do
              let (low, rest) ← scanUnit rest
              if 0xDC00 ≤ low ∧ low ≤ 0xDFFF then
                return (Char.ofNat (0x10000 + (unit - 0xD800) * 0x400 + (low - 0xDC00)), rest)
              else none
          | _ => none
        else if 0xDC00 ≤ unit ∧ unit ≤ 0xDFFF then none
        else return (Char.ofNat unit, rest)
      else none

/-- A string, behind its opening quote. -/
def scanString : ℕ → List Char → Option (List Char × List Char)
  | 0, _ => none
  | _ + 1, [] => none
  | fuel + 1, c :: rest =>
      if c = '"' then some ([], rest)
      else if c = '\\' then do
        let (d, rest) ← scanEscape rest
        let (s, rest) ← scanString fuel rest
        return (d :: s, rest)
      else if c.toNat < 0x20 then none
      else do
        let (s, rest) ← scanString fuel rest
        return (c :: s, rest)

/-! ## Numbers

The digits before the point decide between zero and the rest: a leading zero is a number of its
own, and what follows it is left for whoever reads next. -/

/-- A digit or more behind a point, if that is what comes. -/
def scanFraction (cs : List Char) : List Char × List Char :=
  match cs with
  | '.' :: rest =>
      let ds := rest.takeWhile Char.isDigit
      if ds = [] then ([], cs) else ('.' :: ds, rest.dropWhile Char.isDigit)
  | _ => ([], cs)

def scanExponent (cs : List Char) : List Char × List Char :=
  match cs with
  | e :: rest =>
      if e = 'e' ∨ e = 'E' then
        let sign := match rest with
          | '+' :: _ => ['+']
          | '-' :: _ => ['-']
          | _ => []
        let rest := rest.drop sign.length
        let ds := rest.takeWhile Char.isDigit
        if ds = [] then ([], cs) else (e :: sign ++ ds, rest.dropWhile Char.isDigit)
      else ([], cs)
  | [] => ([], cs)

def decimal (ds : List Char) : ℕ := Nat.ofDigitChars 10 ds 0

def signed (negative : Bool) (n : ℕ) : ℤ := if negative then -n else n

section Scan

variable (reprFloat : String → String)

def scanNumber (cs : List Char) : Option (Json × List Char) :=
  let negative := cs.head? = some '-'
  let body := if negative then cs.drop 1 else cs
  let int := if body.head? = some '0' then ['0'] else body.takeWhile Char.isDigit
  if int = [] then none
  else
    let (fraction, rest) := scanFraction (body.drop int.length)
    let (exponent, rest) := scanExponent rest
    if fraction = [] ∧ exponent = [] then
      if int.length ≤ intMaxStrDigits then some (.int (signed negative (decimal int)), rest)
      else none
    else
      let text := (if negative then ['-'] else []) ++ int ++ fraction ++ exponent
      some (.float (reprFloat (String.ofList text)), rest)

/-! ## Values

The three functions are one recursion, on what is left to read. The first character tells a
container from a string from an atom, so nothing is ever read twice. -/

/-- The word stands at the front of the text. -/
def scanWord (word : String) (value : Json) (cs : List Char) : Option (Json × List Char) :=
  if word.toList.isPrefixOf cs then some (value, cs.drop word.length) else none

/-- A value that is no string, no array and no object. -/
def scanAtom (cs : List Char) : Option (Json × List Char) :=
  match cs with
  | 'n' :: _ => scanWord "null" .null cs
  | 't' :: _ => scanWord "true" (.bool true) cs
  | 'f' :: _ => scanWord "false" (.bool false) cs
  | 'N' :: _ => scanWord "NaN" (.float "nan") cs
  | 'I' :: _ => scanWord "Infinity" (.float "inf") cs
  | '-' :: 'I' :: _ => scanWord "-Infinity" (.float "-inf") cs
  | _ => scanNumber reprFloat cs

def isBlank (c : Char) : Bool := c = ' ' || c = '\t' || c = '\n' || c = '\r'

def skip (cs : List Char) : List Char := cs.dropWhile isBlank

mutual

def scan : ℕ → List Char → Option (Json × List Char)
  | 0, _ => none
  | _ + 1, [] => none
  | fuel + 1, c :: rest =>
      if c = '"' then
        (scanString (rest.length + 1) rest).map fun r => (.str (String.ofList r.1), r.2)
      else if c = '[' then
        match skip rest with
        | ']' :: rest => some (.arr [], rest)
        | rest => (scanItems fuel rest).map fun r => (.arr r.1, r.2)
      else if c = '\x7b' then
        match skip rest with
        | '\x7d' :: rest => some (.obj [], rest)
        | rest => (scanMembers fuel rest).map fun r => (.obj r.1, r.2)
      else scanAtom reprFloat (c :: rest)

/-- The items of an array, from the first character of one of them. -/
def scanItems : ℕ → List Char → Option (List Json × List Char)
  | 0, _ => none
  | fuel + 1, cs => do
      let (item, rest) ← scan fuel cs
      match skip rest with
      | ']' :: rest => return ([item], rest)
      | ',' :: rest => do
          let (items, rest) ← scanItems fuel (skip rest)
          return (item :: items, rest)
      | _ => none

/-- The members of an object, from the opening quote of a key. -/
def scanMembers : ℕ → List Char → Option (List (String × Json) × List Char)
  | 0, _ => none
  | _ + 1, [] => none
  | fuel + 1, c :: rest =>
      if c = '"' then do
        let (key, rest) ← scanString (rest.length + 1) rest
        match skip rest with
        | ':' :: rest => do
            let (value, rest) ← scan fuel (skip rest)
            match skip rest with
            | '\x7d' :: rest => return ([(String.ofList key, value)], rest)
            | ',' :: rest => do
                let (pairs, rest) ← scanMembers fuel (skip rest)
                return ((String.ofList key, value) :: pairs, rest)
            | _ => none
        | _ => none
      else none

end

/-- `json.loads` of a text; `none` where it raises. -/
def loads (text : String) : Option Json := do
  let (value, rest) ← scan reprFloat (text.length + 1) (skip text.toList)
  if skip rest = [] then return value else none

end Scan

/-! ## Nesting

For a document whose depth is known, as that of a notification is. -/

mutual

/-- How many arrays and objects are open at once. -/
def depth : Json → ℕ
  | .arr items => depthItems items + 1
  | .obj pairs => depthPairs pairs + 1
  | _ => 0

def depthItems : List Json → ℕ
  | [] => 0
  | item :: items => max (depth item) (depthItems items)

def depthPairs : List (String × Json) → ℕ
  | [] => 0
  | (_, value) :: pairs => max (depth value) (depthPairs pairs)

end

theorem depth_arr {items : List Json} {n : ℕ} (h : ∀ v ∈ items, depth v ≤ n) :
    depth (.arr items) ≤ n + 1 := by
  have hitems : depthItems items ≤ n := by
    induction items with
    | nil => exact Nat.zero_le n
    | cons item items ih =>
      exact max_le (h item List.mem_cons_self) (ih fun v hv => h v (List.mem_cons_of_mem _ hv))
  rw [depth]
  exact Nat.succ_le_succ hitems

theorem depth_obj {pairs : List (String × Json)} {n : ℕ} (h : ∀ p ∈ pairs, depth p.2 ≤ n) :
    depth (.obj pairs) ≤ n + 1 := by
  have hpairs : depthPairs pairs ≤ n := by
    induction pairs with
    | nil => exact Nat.zero_le n
    | cons p pairs ih =>
      exact max_le (h p List.mem_cons_self) (ih fun q hq => h q (List.mem_cons_of_mem _ hq))
  rw [depth]
  exact Nat.succ_le_succ hpairs

example : loads id " [1, -2.5e3, \"\\u00e9\\n\", \x7b\"a\": null\x7d] " matches
    some (.arr [.int 1, .float "-2.5e3", .str "é\n", .obj [("a", .null)]]) := by
  decide +kernel

end Json
end Python
end ObservabilityStack
